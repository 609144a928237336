import Quotation.Proofs.Renaming.Heaps
import Quotation.Session.Host

namespace Quotation

def SpecialCall.rename (ρ : Renaming) (call : SpecialCall) : SpecialCall :=
  ⟨call.args.map (Named.map (Tree.rename ρ)), ρ.frame call.env, Mask.rename ρ call.mask⟩

namespace Demand

def rename (ρ : Renaming) : Demand → Demand
  | .evaluate t env mask => .evaluate (t.rename ρ) (ρ.frame env) (Mask.rename ρ mask)
  | .force p => .force (ρ.promise p)
  | .arguments args env mask =>
    .arguments (args.map (Named.map (Tree.rename ρ))) (ρ.frame env) (Mask.rename ρ mask)
  | .resolve t env mask => .resolve (t.rename ρ) (ρ.frame env) (Mask.rename ρ mask)
  | .capture env name => .capture (ρ.frame env) name
  | .captureDots env => .captureDots (ρ.frame env)
  | .perform name args => .perform name (args.map (Named.map (Value.rename ρ)))

def renameAnswer (ρ : Renaming) : (d : Demand) → d.Answer → (d.rename ρ).Answer
  | .evaluate _ _ _ => Value.rename ρ
  | .force _ => Value.rename ρ
  | .arguments _ _ _ => List.map (Named.map (Value.rename ρ))
  | .resolve _ _ _ => Tree.rename ρ
  | .capture _ _ => Capture.rename ρ
  | .captureDots _ => List.map (Named.map (Capture.rename ρ))
  | .perform _ _ => Value.rename ρ

end Demand

namespace Routine

inductive Renamed (ρ : Renaming) {α β : Type} (f : α → β) : Routine α → Routine β → Prop
  | done (a : α) : Renamed ρ f (.done a) (.done (f a))
  | fail (e : Error) : Renamed ρ f (.fail e) (.fail e)
  | ask {d next next'} (h : ∀ r, Renamed ρ f (next r) (next' (r.map (d.renameAnswer ρ)))) :
      Renamed ρ f (.ask d next) (.ask (d.rename ρ) next')
  | inspect {next next'}
      (h : ∀ h h' : Heap, h.Renamed ρ h' → Renamed ρ f (next h) (next' h')) :
      Renamed ρ f (.inspect next) (.inspect next')
  | newFrame {parent isCall next next'} (h : ∀ g, Renamed ρ f (next g) (next' (ρ.frame g))) :
      Renamed ρ f (.newFrame parent isCall next)
        (.newFrame (parent.map ρ.frame) isCall next')
  | newPromise {expr env mask next next'}
      (h : ∀ p, Renamed ρ f (next p) (next' (ρ.promise p))) :
      Renamed ρ f (.newPromise expr env mask next)
        (.newPromise (expr.rename ρ) (ρ.frame env) (Mask.rename ρ mask) next')
  | rebind {env name b next next'} (h : Renamed ρ f next next') :
      Renamed ρ f (.rebind env name b next)
        (.rebind (ρ.frame env) name (b.map (Binding.rename ρ)) next')
  | identity {next next'} (h : ∀ i, Renamed ρ f (next i) (next' i)) :
      Renamed ρ f (.identity next) (.identity next')
  | depth {next next'} (h : ∀ n, Renamed ρ f (next n) (next' n)) :
      Renamed ρ f (.depth next) (.depth next')

namespace Renamed

variable {ρ : Renaming} {α β α' β' : Type} {f : α → α'} {g : β → β'}

theorem bind {r : Routine α} {r' : Routine α'} {k : α → Routine β} {k' : α' → Routine β'}
    (hr : r.Renamed ρ f r') (hk : ∀ a, (k a).Renamed ρ g (k' (f a))) :
    (r.bind k).Renamed ρ g (r'.bind k') := by
  induction hr with
  | done a => exact hk a
  | fail e => exact .fail e
  | ask _ ih => exact .ask ih
  | inspect _ ih => exact .inspect ih
  | newFrame _ ih => exact .newFrame ih
  | newPromise _ ih => exact .newPromise ih
  | rebind _ ih => exact .rebind ih
  | identity _ ih => exact .identity ih
  | depth _ ih => exact .depth ih

theorem failWith {e e' : Error} (h : e' = e) :
    Renamed ρ f (Routine.fail e) (Routine.fail e') := by
  subst h
  exact .fail e'

theorem doneWith {a : α} {a' : α'} (h : f a = a') :
    Renamed ρ f (Routine.done a) (Routine.done a') := by
  subst h
  exact .done a

theorem ofExcept {x : Except Error α} {x' : Except Error α'} (h : x' = x.map f) :
    (Routine.ofExcept x).Renamed ρ f (Routine.ofExcept x') := by
  subst h
  cases x with
  | error e => exact .fail e
  | ok a => exact .done a

theorem demand (d : Demand) :
    (Routine.demand d).Renamed ρ (d.renameAnswer ρ) (Routine.demand (d.rename ρ)) :=
  .ask fun _ => .ofExcept rfl

section

variable (t : Tree) (args : List Slot) (env : FrameId) (mask : Option Mask) (name : String)

theorem evaluate : (Routine.evaluate t env mask).Renamed ρ (Value.rename ρ)
    (Routine.evaluate (t.rename ρ) (ρ.frame env) (Mask.rename ρ mask)) :=
  .demand (.evaluate t env mask)

theorem arguments : (Routine.arguments args env mask).Renamed ρ
    (List.map (Named.map (Value.rename ρ)))
    (Routine.arguments (args.map (Named.map (Tree.rename ρ))) (ρ.frame env)
      (Mask.rename ρ mask)) :=
  .demand (.arguments args env mask)

theorem resolve : (Routine.resolve t env mask).Renamed ρ (Tree.rename ρ)
    (Routine.resolve (t.rename ρ) (ρ.frame env) (Mask.rename ρ mask)) :=
  .demand (.resolve t env mask)

theorem capture : (Routine.capture env name).Renamed ρ (Capture.rename ρ)
    (Routine.capture (ρ.frame env) name) :=
  .demand (.capture env name)

theorem captureDots : (Routine.captureDots env).Renamed ρ
    (List.map (Named.map (Capture.rename ρ))) (Routine.captureDots (ρ.frame env)) :=
  .demand (.captureDots env)

end

end Renamed

end Routine

theorem SpecialCall.single_rename (ρ : Renaming) (call : SpecialCall) (name : String) :
    (call.rename ρ).single name = (call.single name).map (Named.map (Tree.rename ρ)) := by
  obtain ⟨args, env, mask⟩ := call
  rcases args with _ | ⟨a, _ | ⟨b, rest⟩⟩ <;> rfl

namespace Special

variable {ρ : Renaming} (call : SpecialCall)

theorem quote_renamed : (quote call).Renamed ρ (Value.rename ρ) (quote (call.rename ρ)) :=
  (Routine.Renamed.ofExcept (call.single_rename ρ _)).bind fun slot =>
    (Routine.Renamed.resolve slot.val call.env call.mask).bind fun t =>
      .done (Value.tree t)

theorem quo_renamed : (quo call).Renamed ρ (Value.rename ρ) (quo (call.rename ρ)) :=
  (Routine.Renamed.ofExcept (call.single_rename ρ _)).bind fun slot =>
    (Routine.Renamed.resolve slot.val call.env call.mask).bind fun t =>
      .done (Value.capture ⟨t, call.env⟩)

theorem capturedParameter_renamed :
    (capturedParameter call).Renamed ρ (Capture.rename ρ) (capturedParameter (call.rename ρ)) := by
  refine (Routine.Renamed.ofExcept (call.single_rename ρ _)).bind fun slot => ?_
  simp only [Named.map_val, Tree.asReference?_rename, Tree.text_rename]
  cases slot.val.asReference? with
  | none => exact .fail _
  | some name =>
    refine (Routine.Renamed.capture call.env name).bind fun c => ?_
    refine (Routine.Renamed.resolve c.tree c.env none).bind fun t => ?_
    exact .done (⟨t, c.env⟩ : Capture Tree)

theorem enexpr_renamed : (enexpr call).Renamed ρ (Value.rename ρ) (enexpr (call.rename ρ)) :=
  (capturedParameter_renamed call).bind fun c => .done (Value.tree c.tree)

theorem enquo_renamed : (enquo call).Renamed ρ (Value.rename ρ) (enquo (call.rename ρ)) :=
  (capturedParameter_renamed call).bind fun c => .done (Value.capture c)

theorem ensym_renamed : (ensym call).Renamed ρ (Value.rename ρ) (ensym (call.rename ρ)) := by
  refine (capturedParameter_renamed call).bind fun c => ?_
  simp only [Capture.rename, Tree.isReference_rename, Tree.text_rename]
  split
  · exact .done (Value.tree c.tree)
  · exact .fail _

theorem resolveCaptures_renamed (captures : List (Named (Capture Tree))) :
    (resolveCaptures captures).Renamed ρ (List.map (Named.map (Capture.rename ρ)))
      (resolveCaptures (captures.map (Named.map (Capture.rename ρ)))) := by
  induction captures with
  | nil => exact .done []
  | cons c rest ih =>
    obtain ⟨name, c⟩ := c
    refine (Routine.Renamed.resolve (.pairlist [⟨name, c.tree⟩]) c.env none).bind fun t => ?_
    refine ih.bind fun more => ?_
    have hslots : ((t.rename ρ).slots?.getD []).map (Named.map fun t => ⟨t, ρ.frame c.env⟩) =
        ((t.slots?.getD []).map (Named.map fun t => (⟨t, c.env⟩ : Capture Tree))).map
          (Named.map (Capture.rename ρ)) := by
      rw [Tree.slots?_rename]
      cases t.slots? <;> simp [Named.map, Capture.rename]
    refine .doneWith ?_
    rw [List.map_append, ← hslots]
    rfl

theorem capturedDots_renamed :
    (capturedDots call).Renamed ρ (List.map (Named.map (Capture.rename ρ)))
      (capturedDots (call.rename ρ)) := by
  have hextra : (call.rename ρ).args.find? (fun slot => !slot.val.isDots) =
      (call.args.find? fun slot => !slot.val.isDots).map (Named.map (Tree.rename ρ)) := by
    simp only [SpecialCall.rename, List.find?_map, Function.comp_def, Named.map_val,
      Tree.isDots_rename]
  unfold capturedDots
  rw [hextra]
  cases call.args.find? fun slot => !slot.val.isDots with
  | some extra => exact .fail _
  | none =>
    exact (Routine.Renamed.captureDots call.env).bind fun captures =>
      resolveCaptures_renamed captures

theorem enexprs_renamed : (enexprs call).Renamed ρ (Value.rename ρ) (enexprs (call.rename ρ)) := by
  refine (capturedDots_renamed call).bind fun captures => ?_
  have hlist : (Value.list (captures.map (Named.map fun c => .tree c.tree))).rename ρ =
      .list ((captures.map (Named.map (Capture.rename ρ))).map
        (Named.map fun c => .tree c.tree)) := by
    simp [Named.map, Capture.rename]
  exact .doneWith hlist

theorem enquos_renamed : (enquos call).Renamed ρ (Value.rename ρ) (enquos (call.rename ρ)) := by
  refine (capturedDots_renamed call).bind fun captures => ?_
  have hlist : (Value.list (captures.map (Named.map .capture))).rename ρ =
      .list ((captures.map (Named.map (Capture.rename ρ))).map (Named.map .capture)) := by
    simp [Named.map]
  exact .doneWith hlist

theorem tidyArguments_rename (ρ : Renaming) :
    tidyArguments (call.rename ρ) = (tidyArguments call).map
      (Prod.map (Named.map (Tree.rename ρ)) (Option.map (Named.map (Tree.rename ρ)))) := by
  obtain ⟨args, env, mask⟩ := call
  rcases args with _ | ⟨a, _ | ⟨b, _ | ⟨c, rest⟩⟩⟩ <;> rfl

theorem tidyMask_renamed (data : Option Slot) :
    (tidyMask call data).Renamed ρ (Mask.rename ρ)
      (tidyMask (call.rename ρ) (data.map (Named.map (Tree.rename ρ)))) := by
  cases data with
  | none => exact .done none
  | some slot =>
    exact (Routine.Renamed.evaluate slot.val call.env call.mask).bind fun v =>
      .ofExcept (dataMask_rename ρ v)

theorem evalTidy_renamed :
    (evalTidy call).Renamed ρ (Value.rename ρ) (evalTidy (call.rename ρ)) := by
  refine (Routine.Renamed.ofExcept (tidyArguments_rename call ρ)).bind fun parts => ?_
  refine (tidyMask_renamed call parts.2).bind fun mask => ?_
  refine (Routine.Renamed.evaluate parts.1.val call.env call.mask).bind fun v => ?_
  cases v with
  | tree t => exact .evaluate t call.env mask
  | capture c => exact .evaluate c.tree c.env mask
  | _ => exact .done _

theorem call2_renamed : (call2 call).Renamed ρ (Value.rename ρ) (call2 (call.rename ρ)) := by
  refine (Routine.Renamed.arguments call.args call.env call.mask).bind fun items => ?_
  cases items with
  | nil => exact .fail _
  | cons first rest =>
    refine (Routine.Renamed.ofExcept (CallHead.ofValue_rename ρ first.val)).bind fun head => ?_
    refine Routine.Renamed.bind (f := Tree.rename ρ) ?_ fun t => .done (Value.tree t)
    exact CallHead.rename_template ρ head rest ▸ .resolve _ call.env none

theorem list2_renamed : (list2 call).Renamed ρ (Value.rename ρ) (list2 (call.rename ρ)) := by
  refine (Routine.Renamed.arguments call.args call.env call.mask).bind fun items => ?_
  exact .doneWith (Value.rename_list ρ items)

end Special

/-- The functions of a host do under new numbers what they do without. -/
structure Host.Uniform (host : Host) (ρ : Renaming) : Prop where
  builtin : Host.BuiltinsRename host.builtin ρ
  special : ∀ name call, (host.special name call).Renamed ρ (Value.rename ρ)
    (host.special name (call.rename ρ))

/-- The functions of a host know no frames and promises by their numbers but those of a heap, which
they may hold. What is made later they only know as it is handed to them. -/
def Host.UniformFrom (host : Host) (h : Heap) : Prop :=
  ∀ ρ : Renaming, ρ.Fixes h → host.Uniform ρ

theorem Special.Op.routine_renamed {host : Host} {ρ : Renaming} (hhost : host.Uniform ρ) (op : Op)
    (call : SpecialCall) :
    (op.routine host.special call).Renamed ρ (Value.rename ρ)
      (op.routine host.special (call.rename ρ)) := by
  cases op with
  | quote | expr => exact quote_renamed call
  | quo => exact quo_renamed call
  | enexpr => exact enexpr_renamed call
  | enquo => exact enquo_renamed call
  | ensym => exact ensym_renamed call
  | enexprs => exact enexprs_renamed call
  | enquos => exact enquos_renamed call
  | evalTidy => exact evalTidy_renamed call
  | call2 => exact call2_renamed call
  | list2 => exact list2_renamed call
  | host name => exact hhost.special name call

namespace Session

theorem firstText_rename (ρ : Renaming) (args : List Item) :
    firstText (args.map (Named.map (Value.rename ρ))) = firstText args := by
  cases args <;> simp [firstText]

theorem hostBuiltins_rename (ρ : Renaming) : Host.BuiltinsRename HostBuiltin.run ρ := by
  intro name args w
  unfold HostBuiltin.run
  split
  · rfl
  · have hinspect : Named.map Value.inspect ∘ Named.map (Value.rename ρ) =
        Named.map Value.inspect := by
      funext i
      simp [Named.map]
    simp only [HostBuiltin.note, List.getLast?_map, List.map_map, hinspect]
    cases args.getLast? <;> rfl
  · simp only [firstText_rename]
    rfl
  · simp only [firstText_rename]
    rfl
  · simp only [HostBuiltin.makeExternal, firstText_rename]
    rfl
  · rfl

namespace HostSpecial

variable {ρ : Renaming} (call : SpecialCall)

theorem cond_renamed : (cond call).Renamed ρ (Value.rename ρ) (cond (call.rename ρ)) := by
  obtain ⟨args, env, mask⟩ := call
  rcases args with _ | ⟨test, _ | ⟨yes, _ | ⟨no, _ | _⟩⟩⟩
  case cons.cons.cons.nil =>
    refine (Routine.Renamed.evaluate test.val env mask).bind fun v => ?_
    simp only [Value.asBool?_rename]
    split
    · exact .evaluate yes.val env mask
    · exact .evaluate no.val env mask
  all_goals exact .fail _

theorem formal_rename (slot : Slot) :
    formal (slot.map (Tree.rename ρ)) = (formal slot).map (Formal.rename ρ) := by
  obtain ⟨_ | name, t⟩ := slot
  · cases t with
    | reference name => rfl
    | _ => exact congrArg (Except.error ∘ Error.notASymbol) (Tree.text_rename ρ _)
  · rfl

theorem formals_rename (slots : List Slot) :
    (slots.map (Named.map (Tree.rename ρ))).mapM formal =
      (slots.mapM formal).map (List.map (Formal.rename ρ)) := by
  induction slots with
  | nil => rfl
  | cons slot rest ih =>
    simp only [List.map_cons, List.mapM_cons, formal_rename, ih]
    cases formal slot with
    | error e => rfl
    | ok f => cases rest.mapM formal <;> rfl

theorem lambda_renamed : (lambda call).Renamed ρ (Value.rename ρ) (lambda (call.rename ρ)) := by
  obtain ⟨args, env, mask⟩ := call
  simp only [lambda, SpecialCall.rename, List.getLast?_map]
  cases args.getLast? with
  | none => exact .fail _
  | some body =>
    rw [← List.map_dropLast]
    refine (Routine.Renamed.ofExcept (formals_rename args.dropLast)).bind fun formals => ?_
    refine Routine.Renamed.bind (f := id) (.identity fun i => .done i) fun id => ?_
    exact .doneWith (Value.rename_closure ρ ⟨none, formals, body.val, env, id⟩)

theorem assign_renamed : (assign call).Renamed ρ (Value.rename ρ) (assign (call.rename ρ)) := by
  obtain ⟨args, env, mask⟩ := call
  rcases args with _ | ⟨⟨label, target⟩, _ | ⟨value, _ | _⟩⟩
  case cons.cons.nil =>
    cases target with
    | reference name =>
      refine (Routine.Renamed.evaluate value.val env mask).bind fun v => ?_
      exact .rebind (.done v)
    | _ => exact .failWith (congrArg Error.notASymbol (Tree.text_rename ρ _))
  case nil => exact .fail _
  case cons.nil => cases target <;> exact .fail _
  case cons.cons.cons => cases target <;> exact .fail _

theorem callers_renamed : (callers call).Renamed ρ (Value.rename ρ) (callers (call.rename ρ)) := by
  refine (Routine.Renamed.captureDots call.env).bind fun captures => ?_
  have htrees : (Value.tree (.pairlist (captures.map (Named.map Capture.tree)))).rename ρ =
      .tree (.pairlist ((captures.map (Named.map (Capture.rename ρ))).map
        (Named.map Capture.tree))) := by
    simp [Named.map, Capture.rename]
  exact .doneWith htrees

theorem raw_renamed : (raw call).Renamed ρ (Value.rename ρ) (raw (call.rename ρ)) :=
  (Routine.Renamed.ofExcept (call.single_rename ρ _)).bind fun slot => .done (Value.tree slot.val)

theorem pairs_renamed : (pairs call).Renamed ρ (Value.rename ρ) (pairs (call.rename ρ)) := by
  have hargs : (Value.tree (.pairlist call.args)).rename ρ =
      .tree (.pairlist (call.rename ρ).args) := by
    simp [SpecialCall.rename]
  exact .doneWith hargs

theorem masked_renamed : (masked call).Renamed ρ (Value.rename ρ) (masked (call.rename ρ)) := by
  obtain ⟨args, env, _ | m⟩ := call
  · exact .done Value.null
  · have hnames : (Value.ofList (m.names.map .str)).rename ρ = .ofList (m.names.map .str) := by
      simp [Value.ofList, Named.positional, Named.map, Value.rename]
    have hsame : masked (SpecialCall.rename ρ ⟨args, env, some m⟩) =
        .done ((Value.ofList (m.names.map .str)).rename ρ) := by
      rw [hnames, ← NameTable.names_map (Value.rename ρ) m]
      rfl
    exact hsame ▸ .done _

end HostSpecial

theorem host_uniform (ρ : Renaming) : host.Uniform ρ where
  builtin := hostBuiltins_rename ρ
  special name call := by
    simp only [host]
    unfold HostSpecial.run
    split
    · exact HostSpecial.cond_renamed call
    · exact HostSpecial.lambda_renamed call
    · exact HostSpecial.assign_renamed call
    · exact HostSpecial.callers_renamed call
    · exact .depth fun n => .done (Value.int (Int64.ofNat n))
    · exact HostSpecial.raw_renamed call
    · exact HostSpecial.pairs_renamed call
    · exact HostSpecial.masked_renamed call
    · exact .done (Value.capture ⟨.literal .null, call.env⟩)
    · exact .done Value.null

end Session

end Quotation
