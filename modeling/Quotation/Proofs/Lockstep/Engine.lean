import Quotation.Proofs.Lockstep

namespace Quotation

section

variable {left right : Engine} {L : Lockstep left right} {α : Type} {ev₁ ev₂ : Evaluator}

theorem Lockstep.Related.ofPlain {x : Except Error α} (hx : PlainFailure x) :
    L.Related (Eval.ofExcept x) (Eval.ofExcept x) :=
  .ofExcept fun e he => L.plain (hx e he)

theorem Lockstep.Related.force {p : PromiseId} (hpending : ∀ o s₁ s₂, L.rel o s₁ s₂ →
      (s₁.heap.promise p).Pending → L.Ends o (force ev₁ p s₁) (force ev₂ p s₂)) :
    L.Related (Quotation.force ev₁ p) (Quotation.force ev₂ p) := by
  intro o s₁ s₂ h
  have hheap : s₂.heap.promise p = s₁.heap.promise p := by rw [L.heap h]
  cases hv : (s₁.heap.promise p).value? with
  | some v =>
    rw [force_apply_of_value _ hv, force_apply_of_value _ (hheap ▸ hv)]
    exact .ok h
  | none =>
    cases hf : (s₁.heap.promise p).forcing with
    | true =>
      rw [force_apply_of_forcing _ hv hf, force_apply_of_forcing _ (hheap ▸ hv) (hheap ▸ hf)]
      exact .failed h (L.plain rfl)
    | false => exact hpending o s₁ s₂ h ⟨hv, hf⟩

theorem Lockstep.RelatedEvaluators.ofEval [L.Forces]
    (hev : ∀ t env mask, L.Related (ev₁ t env mask) (ev₂ t env mask)) :
    L.RelatedEvaluators ev₁ ev₂ := by
  refine ⟨hev, fun p => .force fun o s₁ s₂ h hp => ?_⟩
  have hheap : s₂.heap.promise p = s₁.heap.promise p := by rw [L.heap h]
  obtain ⟨o', hin, hout⟩ := Forces.force h hp
  rw [force_apply_of_pending _ hp, force_apply_of_pending _ (hheap ▸ hp), hheap]
  exact (hev _ _ _ o' _ _ hin).follow (fun v t₁ t₂ ht => .ok ((hout t₁ t₂ ht).1 v))
    fun t₁ t₂ ht => (hout t₁ t₂ ht).2

variable (hev : L.RelatedEvaluators ev₁ ev₂)

include hev

theorem force_related (p : PromiseId) : L.Related (force ev₁ p) (force ev₂ p) := hev.force p

theorem lookupVariable_related (name : String) (env : FrameId) (mask : Option Mask) :
    L.Related (lookupVariable ev₁ name env mask) (lookupVariable ev₂ name env mask) := by
  unfold lookupVariable
  cases Mask.find? mask name with
  | some v => exact .pure v
  | none =>
    refine .heap fun h => ?_
    cases h.lookup env name with
    | none =>
      refine .failPlain ?_
      split <;> rfl
    | some b =>
      cases b with
      | value v => exact .pure v
      | promise p => exact force_related hev p
      | dots args => exact .failPlain rfl
      | missing => exact .failPlain rfl

theorem findFunction_related (name : String) (chain : List FrameId) :
    L.Related (findFunction ev₁ name chain) (findFunction ev₂ name chain) := by
  induction chain with
  | nil => exact .failPlain rfl
  | cons f rest ih =>
    refine .heap fun h => ?_
    cases h.binding? f name with
    | none => exact ih
    | some b =>
      cases b with
      | value v =>
        dsimp only
        split
        · exact .pure v
        · exact ih
      | promise p =>
        refine (force_related hev p).bind fun v => ?_
        split
        · exact .pure v
        · exact ih
      | dots args => exact ih
      | missing => exact ih

theorem lookupFunction_related (name : String) (env : FrameId) (mask : Option Mask) :
    L.Related (lookupFunction ev₁ name env mask) (lookupFunction ev₂ name env mask) := by
  unfold lookupFunction
  split
  · exact .pure _
  · exact .heap fun h => findFunction_related hev name _

theorem resolveHead_related (head : Tree) (env : FrameId) (mask : Option Mask) :
    L.Related (resolveHead ev₁ head env mask) (resolveHead ev₂ head env mask) := by
  unfold resolveHead
  split
  · exact lookupFunction_related hev _ env mask
  · refine (hev _ _ _).bind fun v => ?_
    split
    · exact .pure v
    · exact .failPlain rfl

theorem resolveUnquote_related (e : Tree) (env : FrameId) (mask : Option Mask) :
    L.Related (resolveUnquote left ev₁ e env mask) (resolveUnquote right ev₂ e env mask) := by
  refine (hev e env mask).bind fun v => ?_
  refine Lockstep.Related.bind (.ofPlain (Tree.ofValue_plainFailure v)) fun t => ?_
  exact Lockstep.Related.bind (.trace _) fun _ => .pure t

theorem resolveSplice_related (e : Tree) (env : FrameId) (mask : Option Mask) :
    L.Related (resolveSplice left ev₁ e env mask) (resolveSplice right ev₂ e env mask) := by
  refine (hev e env mask).bind fun v => ?_
  refine Lockstep.Related.bind (.ofPlain (Slot.ofSequence_plainFailure v)) fun slots => ?_
  exact Lockstep.Related.bind (.trace _) fun _ => .pure slots

theorem resolveName_related (n : Tree) (env : FrameId) (mask : Option Mask) :
    L.Related (resolveName ev₁ n env mask) (resolveName ev₂ n env mask) :=
  (hev n env mask).bind fun v => .ofPlain (Value.toName_plainFailure v)

theorem resolve_parts_related (env : FrameId) (mask : Option Mask) :
    (∀ t, L.Related (resolveTree left ev₁ env mask t) (resolveTree right ev₂ env mask t)) ∧
      (∀ l, L.Related (resolveSlots left ev₁ env mask l) (resolveSlots right ev₂ env mask l)) ∧
      ∀ slot,
        L.Related (resolveSlot left ev₁ env mask slot) (resolveSlot right ev₂ env mask slot) := by
  refine resolveTree.mutual_induct _ _ _ ?literal ?reference ?call ?finishedCall ?pairlist
    ?finishedPairlist ?unquote ?splice ?define ?nil ?cons ?spliceSlot ?defineSplice ?defineSlot
    ?plainSlot
  case literal => exact fun _ => .pure _
  case reference => exact fun _ => .pure _
  case call =>
    intro head args hm hhead hargs
    simp only [resolveTree, hm, if_true]
    exact .nested (hhead.bind fun head => hargs.bind fun args => .pure _)
  case finishedCall =>
    intro head args hm
    simp only [resolveTree, hm]
    exact .pure _
  case pairlist =>
    intro args hm hargs
    simp only [resolveTree, hm, if_true]
    exact .nested (hargs.bind fun args => .pure _)
  case finishedPairlist =>
    intro args hm
    simp only [resolveTree, hm]
    exact .pure _
  case unquote => exact fun e => resolveUnquote_related hev e env mask
  case splice => exact fun _ => .failPlain rfl
  case define => exact fun _ _ => .failPlain rfl
  case nil => exact .pure _
  case cons =>
    exact fun slot rest hslot hrest => hslot.bind fun here => hrest.bind fun there => .pure _
  case spliceSlot => exact fun _ e => resolveSplice_related hev e env mask
  case defineSplice =>
    intro _ n e
    refine (resolveName_related hev n env mask).bind fun name => ?_
    exact (resolveSplice_related hev e env mask).bind fun slots => .pure _
  case defineSlot =>
    intro _ n v hv ht
    rw [resolveSlot.eq_3 _ _ _ _ _ _ _ hv, resolveSlot.eq_3 _ _ _ _ _ _ _ hv]
    exact (resolveName_related hev n env mask).bind fun name => ht.bind fun t => .pure _
  case plainSlot =>
    intro name t h₁ h₂ h₃ ht
    rw [resolveSlot.eq_4 _ _ _ _ _ _ h₁ h₂ h₃, resolveSlot.eq_4 _ _ _ _ _ _ h₁ h₂ h₃]
    exact ht.bind fun t => .pure _

theorem resolve_related (t : Tree) (env : FrameId) (mask : Option Mask) :
    L.Related (resolve left ev₁ t env mask) (resolve right ev₂ t env mask) :=
  Lockstep.Related.bind (.debug _) fun _ => (resolve_parts_related hev env mask).1 t

omit hev in
theorem visibleDots_related (env : FrameId) : L.Related (visibleDots env) (visibleDots env) := by
  refine .heap fun h => ?_
  cases h.dots? env with
  | some args => exact .pure args
  | none => exact .failPlain rfl

theorem forceAll_related (args : List (Named PromiseId)) :
    L.Related (forceAll ev₁ args) (forceAll ev₂ args) := by
  induction args with
  | nil => exact .pure _
  | cons a rest ih =>
    exact (force_related hev a.val).bind fun v => ih.bind fun vs => .pure _

theorem evalSlot_related (env : FrameId) (mask : Option Mask) (slot : Slot) :
    L.Related (evalSlot ev₁ env mask slot) (evalSlot ev₂ env mask slot) := by
  unfold evalSlot
  split
  · exact (visibleDots_related env).bind fun args => forceAll_related hev args
  · exact (hev _ _ _).bind fun v => .pure _

theorem evalSlots_related (env : FrameId) (mask : Option Mask) (args : List Slot) :
    L.Related (evalSlots ev₁ env mask args) (evalSlots ev₂ env mask args) := by
  induction args with
  | nil => exact .pure _
  | cons slot rest ih =>
    exact (evalSlot_related hev env mask slot).bind fun here => ih.bind fun there => .pure _

theorem spliceItems_related (e : Tree) (env : FrameId) (mask : Option Mask) :
    L.Related (spliceItems ev₁ e env mask) (spliceItems ev₂ e env mask) :=
  (hev e env mask).bind fun v => .ofPlain (Item.ofSequence_plainFailure v)

theorem evalInjected_related (env : FrameId) (mask : Option Mask) (t : Tree) :
    L.Related (evalInjected left ev₁ env mask t) (evalInjected right ev₂ env mask t) := by
  unfold evalInjected
  split
  · exact hev _ env mask
  · split
    · exact (resolve_related hev t env mask).bind fun t => hev t env mask
    · exact hev t env mask

theorem evalDynamicSlot_related (env : FrameId) (mask : Option Mask) (slot : Slot) :
    L.Related (evalDynamicSlot left ev₁ env mask slot)
      (evalDynamicSlot right ev₂ env mask slot) := by
  unfold evalDynamicSlot
  split
  · exact spliceItems_related hev _ env mask
  · rename_i n v _
    refine (resolveName_related hev n env mask).bind fun name => ?_
    cases v.spliced? with
    | some e => exact (spliceItems_related hev e env mask).bind fun items => .pure _
    | none => exact (evalInjected_related hev env mask v).bind fun v => .pure _
  · split
    · exact evalSlot_related hev env mask slot
    · exact (evalInjected_related hev env mask _).bind fun v => .pure _

theorem evalDynamicSlots_related (env : FrameId) (mask : Option Mask) (args : List Slot) :
    L.Related (evalDynamicSlots left ev₁ env mask args)
      (evalDynamicSlots right ev₂ env mask args) := by
  induction args with
  | nil => exact .pure _
  | cons slot rest ih =>
    exact (evalDynamicSlot_related hev env mask slot).bind fun here => ih.bind fun there => .pure _

omit hev in
theorem capturePromise_related (p : PromiseId) :
    L.Related (capturePromise p) (capturePromise p) := by
  intro o s₁ s₂ h
  have hheap := L.heap h
  simp only [capturePromise, Eval.onHeap_apply, ← hheap]
  exact .ok (L.capture h p)

omit hev in
theorem captureAll_related (args : List (Named PromiseId)) :
    L.Related (captureAll args) (captureAll args) := by
  induction args with
  | nil => exact .pure _
  | cons a rest ih =>
    exact (capturePromise_related a.val).bind fun c => ih.bind fun cs => .pure _

omit hev in
theorem captureParameter_related (env : FrameId) (name : String) :
    L.Related (captureParameter env name) (captureParameter env name) := by
  refine Lockstep.Related.bind (.debug _) fun _ => .heap fun h => ?_
  cases h.callFrame? env with
  | none => exact .failPlain rfl
  | some f =>
    dsimp only
    split
    · exact capturePromise_related _
    all_goals exact .failPlain rfl

omit hev in
theorem captureDots_related (env : FrameId) : L.Related (captureDots env) (captureDots env) := by
  refine Lockstep.Related.bind (.debug _) fun _ => .heap fun h => ?_
  cases h.callFrame? env with
  | none => exact .failPlain rfl
  | some f =>
    dsimp only
    split
    · exact captureAll_related _
    · exact .failPlain rfl

omit hev in
theorem promiseSlot_related (env : FrameId) (mask : Option Mask) (slot : Slot) :
    L.Related (promiseSlot env mask slot) (promiseSlot env mask slot) := by
  unfold promiseSlot
  split
  · exact visibleDots_related env
  · refine Lockstep.Related.bind ?_ fun p => .pure _
    intro o s₁ s₂ h
    have hheap := L.heap h
    simp only [Eval.onHeap_apply, ← hheap]
    exact .ok (L.promise h slot.val env mask)

omit hev in
theorem promiseSlots_related (env : FrameId) (mask : Option Mask) (args : List Slot) :
    L.Related (promiseSlots env mask args) (promiseSlots env mask args) := by
  induction args with
  | nil => exact .pure _
  | cons slot rest ih =>
    exact (promiseSlot_related env mask slot).bind fun here => ih.bind fun there => .pure _

omit hev in
theorem openFrame_related (c : Closure Tree) (supplied : List (Named PromiseId)) :
    L.Related (openFrame c supplied) (openFrame c supplied) := by
  intro o s₁ s₂ h
  have hplain := matchArguments_plainFailure c.formals supplied
  rw [openFrame_apply, openFrame_apply, ← L.heap h]
  cases hm : matchArguments c.formals supplied with
  | error e => exact .failed (L.frame h (some c.env) true) (L.plain (hplain e hm))
  | ok m => exact .ok (L.formals h (some c.env) c.formals m)

theorem applyClosure_related (c : Closure Tree) (args : List Slot) (env : FrameId)
    (mask : Option Mask) :
    L.Related (applyClosure left ev₁ c args env mask) (applyClosure right ev₂ c args env mask) := by
  refine (promiseSlots_related env mask args).bind fun supplied => .heap fun h => ?_
  refine (openFrame_related c supplied).bind fun frame => ?_
  refine Lockstep.Related.traceDepth _ ?_
  refine (hev c.body frame none).bind fun v => .heap fun h' => ?_
  split
  · exact .failPlain rfl
  · exact .pure v

theorem answer_related (d : Demand) : L.Related (answer left ev₁ d) (answer right ev₂ d) := by
  cases d with
  | evaluate t env mask => exact hev t env mask
  | force p => exact force_related hev p
  | arguments args env mask => exact evalDynamicSlots_related hev env mask args
  | resolve t env mask => exact resolve_related hev t env mask
  | capture env name => exact captureParameter_related env name
  | captureDots env => exact captureDots_related env
  | perform name args =>
    simp only [answer, ← L.host.eq]
    exact .onWorld fun w e he => L.builtin he

theorem runRoutine_related {r : Routine α} (hcarries : ∀ e, ¬ L.carries e)
    (hr : r.Confined L.err L.write (fun e => L.excused (.failed e)) L.reads) :
    L.Related (runRoutine left ev₁ r) (runRoutine right ev₂ r) := by
  induction r with
  | done a => exact .pure a
  | fail e => exact .fail hr
  | ask d next ih =>
    refine (answer_related hev d).attempt hcarries (fun e he => ?_) fun r he => ih r (hr.2 r he)
    rw [hr.1 e he]
    rfl
  | inspect next ih => exact .heap fun h => ih h (hr h)
  | newFrame parent isCall next ih =>
    intro o s₁ s₂ h
    have hnew : (s₂.heap.newFrame parent isCall).1 = (s₁.heap.newFrame parent isCall).1 := by
      rw [L.heap h]
    simp only [runRoutine, Eval.bind_apply, Eval.onHeap_apply, Outcome.follow_ok_eval, hnew]
    exact ih _ (hr _) o _ _ (L.frame h parent isCall)
  | newPromise expr env mask next ih =>
    intro o s₁ s₂ h
    have hnew : s₂.heap.newPromise = s₁.heap.newPromise := by rw [L.heap h]
    simp only [runRoutine, Eval.bind_apply, Eval.onHeap_apply, Outcome.follow_ok_eval, hnew]
    exact ih _ (hr _) o _ _ (L.promise h expr env mask)
  | rebind env name b next ih =>
    refine Lockstep.Related.bind ?_ fun _ => ih hr.2
    exact fun o s₁ s₂ h => .ok (L.rebind h hr.1)
  | identity next ih => exact Lockstep.Related.bind .identity fun i => ih i (hr i)
  | depth next ih => exact .depth hr.1 fun n => ih n (hr.2 n)

theorem runSpecial_related [L.Passes] (s : Special) (call : SpecialCall) :
    L.Related (runSpecial left ev₁ s call) (runSpecial right ev₂ s call) := by
  unfold runSpecial
  rw [← L.host.eq]
  exact runRoutine_related hev Lockstep.Passes.uncarried <|
    Special.Op.routine_confined L.plain Lockstep.Passes.special s.op call

omit hev in
theorem runBuiltin_related (b : Builtin) (args : List Item) :
    L.Related (runBuiltin left b args) (runBuiltin right b args) := by
  unfold runBuiltin
  rw [← L.host.eq]
  exact .onWorld fun w e he =>
    (Builtin.Op.run_failure he).elim L.plain fun ⟨_, hn⟩ => L.builtin hn

theorem apply_related [L.Passes] (func : Value) (args : List Slot) (env : FrameId) (mask : Option Mask) :
    L.Related (apply left ev₁ func args env mask) (apply right ev₂ func args env mask) := by
  unfold apply
  split
  · exact (evalSlots_related hev env mask args).bind fun items => runBuiltin_related _ items
  · exact runSpecial_related hev _ _
  · exact applyClosure_related hev _ args env mask
  · exact .failPlain rfl

omit hev in
theorem rejectExposed_related (t : Tree) (env : FrameId) (mask : Option Mask) :
    L.Related (rejectExposed t env mask) (rejectExposed t env mask) := by
  refine .heap fun h => ?_
  split
  · exact .failPlain rfl
  · exact .pure _

theorem callHead_related [L.Passes] (head : Tree) (args : List Slot) (env : FrameId)
    (mask : Option Mask) :
    L.Related (callHead ev₁ head args env mask) (callHead ev₂ head args env mask) := by
  intro o s₁ s₂ h
  rw [callHead_apply, callHead_apply]
  have hr := resolveHead_related hev head env mask o s₁ s₂ h
  generalize resolveHead ev₁ head env mask s₁ = r₁ at hr
  generalize resolveHead ev₂ head env mask s₂ = r₂ at hr
  cases hr with
  | ok h => exact .ok h
  | outOfFuel h => exact .outOfFuel h
  | failed h he =>
    dsimp only
    rw [← L.heap h]
    exact .failed h (Heap.headFailure_induction _ _ _ _ (fun _ => L.plain rfl) he)
  | @excused halt t₁ _ he =>
    cases halt with
    | outOfFuel => exact .excused he
    | failed e =>
      exact .excused (Heap.headFailure_induction (P := fun e => L.excused (.failed e)) _ _ _ _
        (Lockstep.Passes.marker he) he)
  | carried _ he => exact absurd he (Lockstep.Passes.uncarried _)

omit hev in
theorem rejectMarkers_related (func : Value) (t : Tree) (env : FrameId) (mask : Option Mask) :
    L.Related (rejectMarkers func t env mask) (rejectMarkers func t env mask) := by
  unfold rejectMarkers
  split
  · exact rejectExposed_related t env mask
  · exact .pure _

theorem evaluateCall_related [L.Passes] (head : Tree) (args : List Slot) (env : FrameId)
    (mask : Option Mask) :
    L.Related (evaluateCall left ev₁ head args env mask)
      (evaluateCall right ev₂ head args env mask) := by
  refine Lockstep.Related.traceDepth _ ?_
  refine (callHead_related hev head args env mask).bind fun func => ?_
  exact (rejectMarkers_related func _ env mask).bind fun _ => apply_related hev func args env mask

theorem evaluateStep_related [L.Passes] (t : Tree) (env : FrameId) (mask : Option Mask) :
    L.Related (evaluateStep left ev₁ t env mask) (evaluateStep right ev₂ t env mask) := by
  cases t with
  | literal v => exact .pure v
  | reference name => exact lookupVariable_related hev name env mask
  | call head args => exact .nested (evaluateCall_related hev head args env mask)
  | pairlist args => exact (evalSlots_related hev env mask args).bind fun items => .pure _
  | unquote e => exact .failPlain rfl
  | splice e => exact .failPlain rfl
  | define n v => exact .failPlain rfl

theorem buildCall_related (head : CallHead) (args : List CallArg) (env : FrameId) :
    L.Related (buildCall left ev₁ head args env) (buildCall right ev₂ head args env) :=
  resolve_related hev _ env none

omit hev in
theorem evaluate_related [L.Forces] [L.Passes] (fuel : Nat) :
    L.RelatedEvaluators (evaluate left fuel) (evaluate right fuel) := by
  induction fuel with
  | zero => exact .ofEval fun _ _ _ _ _ _ h => .outOfFuel h
  | succ fuel ih => exact .ofEval fun t env mask => evaluateStep_related ih t env mask

end

end Quotation
