import Quotation.Prelude.Specials
import Quotation.Proofs.Termination.Closed
import Quotation.Session.Host

namespace Quotation

structure InScope (n reach : Nat) (env : FrameId) (mask : Option Mask) : Prop where
  tree : reach ≤ n
  env : env < n
  mask : Mask.Within n mask

theorem InScope.mono {n m reach : Nat} {env : FrameId} {mask : Option Mask}
    (h : InScope n reach env mask) (hn : n ≤ m) : InScope m reach env mask :=
  ⟨Nat.le_trans h.tree hn, Nat.lt_of_lt_of_le h.env hn, h.mask.mono hn⟩

theorem InScope.part {n reach reach' : Nat} {env : FrameId} {mask : Option Mask}
    (h : InScope n reach env mask) (hr : reach' ≤ reach) : InScope n reach' env mask :=
  ⟨Nat.le_trans hr h.tree, h.env, h.mask⟩

theorem InScope.left {n reach reach' : Nat} {env : FrameId} {mask : Option Mask}
    (h : InScope n (max reach reach') env mask) : InScope n reach env mask :=
  h.part (Nat.le_max_left reach reach')

theorem InScope.right {n reach reach' : Nat} {env : FrameId} {mask : Option Mask}
    (h : InScope n (max reach reach') env mask) : InScope n reach' env mask :=
  h.part (Nat.le_max_right reach reach')

theorem InScope.promise {n : Nat} {t : Tree} {env : FrameId} {mask : Option Mask}
    (h : InScope n t.reach env mask) : Promise.Within n { expr := t, env, mask } :=
  ⟨h.env, h.tree, h.mask, fun _ hv => nomatch hv⟩

abbrev SpecialCall.InScope (n : Nat) (call : SpecialCall) : Prop :=
  Quotation.InScope n (Slot.reach call.args) call.env call.mask

def Demand.InScope (n m : Nat) : Demand → Prop
  | .evaluate t env mask => Quotation.InScope n t.reach env mask
  | .force p => p < m
  | .arguments args env mask => Quotation.InScope n (Slot.reach args) env mask
  | .resolve t env mask => Quotation.InScope n t.reach env mask
  | .capture _ _ => True
  | .captureDots _ => True
  | .perform _ args => Item.reach args ≤ n

abbrev CapturesWithin (n : Nat) (cs : List (Named (Capture Tree))) : Prop :=
  ∀ c ∈ cs, c.val.reach ≤ n

def Demand.AnswerWithin (n : Nat) : (d : Demand) → d.Answer → Prop
  | .evaluate _ _ _, v => Value.reach v ≤ n
  | .force _, v => Value.reach v ≤ n
  | .arguments _ _ _, items => Item.reach items ≤ n
  | .resolve _ _ _, t => Tree.reach t ≤ n
  | .capture _ _, c => Capture.reach c ≤ n
  | .captureDots _, cs => CapturesWithin n cs
  | .perform _ _, v => Value.reach v ≤ n

namespace Routine

variable {α β : Type}

/-- From a heap of `n` frames and `m` promises on, a routine mentions only the frames and promises
that there are, and what it gives is `good` for as many frames as there are then. In the frames that
were there when it began, the first `base` ones, it binds no promises. -/
def Scoped (base : Nat) (good : Nat → α → Prop) : Routine α → Nat → Nat → Prop
  | .done a, n, _ => good n a
  | .fail _, _, _ => True
  | .ask d next, n, m => d.InScope n m ∧ ∀ n' m' r, n ≤ n' → m ≤ m' →
      (∀ a, r = .ok a → d.AnswerWithin n' a) → (next r).Scoped base good n' m'
  | .inspect next, n, m => ∀ h : Heap, h.Closed → h.frames.size = n → h.promises.size = m →
      (next h).Scoped base good n m
  | .newFrame parent _ next, n, m =>
      (∀ f, parent = some f → f < n) ∧ (next n).Scoped base good (n + 1) m
  | .newPromise expr env mask next, n, m =>
      InScope n expr.reach env mask ∧ (next m).Scoped base good n (m + 1)
  | .rebind env _ b next, n, m =>
      (∀ b', b = some b' → b'.Within n m ∧ (base ≤ env ∨ b'.PromisesBelow 0)) ∧
        next.Scoped base good n m
  | .identity next, n, m => ∀ i, (next i).Scoped base good n m
  | .depth next, n, m => ∀ d, (next d).Scoped base good n m

variable {base n m : Nat} {good : Nat → α → Prop} {good' : Nat → β → Prop}

theorem Scoped.bind {r : Routine α} {f : α → Routine β} (hr : r.Scoped base good n m)
    (hf : ∀ n' m' a, n ≤ n' → m ≤ m' → good n' a → (f a).Scoped base good' n' m') :
    (r.bind f).Scoped base good' n m := by
  induction r generalizing n m with
  | done a => exact hf n m a (Nat.le_refl n) (Nat.le_refl m) hr
  | fail e => trivial
  | ask d next ih =>
    refine ⟨hr.1, fun n' m' r hn hm ha => ih r (hr.2 n' m' r hn hm ha) fun n'' m'' b hn' hm' => ?_⟩
    exact hf n'' m'' b (Nat.le_trans hn hn') (Nat.le_trans hm hm')
  | inspect next ih => exact fun h hc hn hm => ih h (hr h hc hn hm) hf
  | newFrame parent isCall next ih =>
    refine ⟨hr.1, ih n hr.2 fun n' m' b hn => ?_⟩
    exact hf n' m' b (Nat.le_of_succ_le hn)
  | newPromise expr env mask next ih =>
    refine ⟨hr.1, ih m hr.2 fun n' m' b hn hm => ?_⟩
    exact hf n' m' b hn (Nat.le_of_succ_le hm)
  | rebind env name b next ih => exact ⟨hr.1, ih hr.2 hf⟩
  | identity _ ih | depth _ ih => exact fun a => ih a (hr a) hf

theorem Scoped.ofExcept {x : Except Error α} (hx : Gives (good n) x) :
    (Routine.ofExcept x).Scoped base good n m := by
  cases x with
  | error e => trivial
  | ok a => exact hx a rfl

theorem Scoped.ofExcept_bind {P : α → Prop} {x : Except Error α} {f : α → Routine β}
    (hx : Gives P x) (hf : ∀ a, P a → (f a).Scoped base good' n m) :
    ((Routine.ofExcept x).bind f).Scoped base good' n m := by
  cases x with
  | error e => trivial
  | ok a => exact hf a (hx a rfl)

theorem Scoped.demand {d : Demand} (hd : d.InScope n m) :
    (demand d).Scoped base (fun n a => d.AnswerWithin n a) n m :=
  ⟨hd, fun _ _ _ _ _ ha => .ofExcept ha⟩

abbrev ScopedValue (base : Nat) (r : Routine Value) (n m : Nat) : Prop :=
  r.Scoped base (fun n v => v.reach ≤ n) n m

variable {t : Tree} {args : List Slot} {env : FrameId} {mask : Option Mask}

theorem Scoped.evaluate (h : InScope n t.reach env mask) :
    (evaluate t env mask).ScopedValue base n m := .demand h

theorem Scoped.arguments (h : InScope n (Slot.reach args) env mask) :
    (arguments args env mask).Scoped base (fun n items => Item.reach items ≤ n) n m := .demand h

theorem Scoped.resolve (h : InScope n t.reach env mask) :
    (resolve t env mask).Scoped base (fun n t => t.reach ≤ n) n m := .demand h

theorem Scoped.capture (env : FrameId) (name : String) :
    (capture env name).Scoped base (fun n c => c.reach ≤ n) n m := .demand trivial

theorem Scoped.captureDots (env : FrameId) :
    (captureDots env).Scoped base CapturesWithin n m := .demand trivial

end Routine

/-- From a heap on, a host stays in scope. It may hold frames and promises of that heap, and hand
them out. What it does ends, since a routine is finite, and the frames that are there when one of its
specials is called acquire no promises from it. -/
structure Host.Scoped (host : Host) (h : Heap) : Prop where
  builtin : ∀ n ≥ h.frames.size, ∀ name args w, Item.reach args ≤ n →
    Gives (·.reach ≤ n) (host.builtin name args w).1
  special : ∀ n ≥ h.frames.size, ∀ m ≥ h.promises.size, ∀ name (call : SpecialCall),
    call.InScope n → (host.special name call).ScopedValue n n m

theorem Host.Scoped.mono {host : Host} {h h' : Heap} (hs : host.Scoped h)
    (hframes : h.frames.size ≤ h'.frames.size) (hpromises : h.promises.size ≤ h'.promises.size) :
    host.Scoped h' where
  builtin n hn := hs.builtin n (Nat.le_trans hframes hn)
  special n hn m hm := hs.special n (Nat.le_trans hframes hn) m (Nat.le_trans hpromises hm)

theorem SpecialCall.single_reach (call : SpecialCall) (name : String) :
    Gives (fun slot => slot.val.reach ≤ Slot.reach call.args) (call.single name) :=
  (call.single_mem name).mono (Slot.reach_le_iff.1 (Nat.le_refl _))

namespace Special

variable {base n m : Nat} {call : SpecialCall}

theorem quote_scoped (hcall : call.InScope n) : (quote call).ScopedValue base n m := by
  refine .ofExcept_bind (call.single_reach _) fun slot hslot => ?_
  exact (Routine.Scoped.resolve (hcall.part hslot)).bind fun _ _ _ _ _ ht => ht

theorem quo_scoped (hcall : call.InScope n) : (quo call).ScopedValue base n m := by
  refine .ofExcept_bind (call.single_reach _) fun slot hslot => ?_
  refine (Routine.Scoped.resolve (hcall.part hslot)).bind fun _ _ t hn _ ht => ?_
  exact Nat.max_le.2 ⟨ht, Nat.lt_of_lt_of_le hcall.env hn⟩

theorem capturedParameter_scoped (call : SpecialCall) :
    (capturedParameter call).Scoped base (fun n c => c.reach ≤ n) n m := by
  refine .ofExcept_bind (.trivial _) fun slot _ => ?_
  cases slot.val.asReference? with
  | none => trivial
  | some name =>
    refine (Routine.Scoped.capture _ _).bind fun n' _ c _ _ hc => ?_
    obtain ⟨htree, henv⟩ := Nat.max_le.1 hc
    have hscope : InScope n' c.tree.reach c.env none := ⟨htree, henv, Mask.within_none⟩
    refine (Routine.Scoped.resolve hscope).bind fun _ _ t hn _ ht => ?_
    exact Nat.max_le.2 ⟨ht, Nat.le_trans henv hn⟩

theorem enexpr_scoped (call : SpecialCall) : (enexpr call).ScopedValue base n m :=
  (capturedParameter_scoped call).bind fun _ _ _ _ _ hc => (Nat.max_le.1 hc).1

theorem enquo_scoped (call : SpecialCall) : (enquo call).ScopedValue base n m :=
  (capturedParameter_scoped call).bind fun _ _ _ _ _ hc => hc

theorem ensym_scoped (call : SpecialCall) : (ensym call).ScopedValue base n m := by
  refine (capturedParameter_scoped call).bind fun _ _ c _ _ hc => ?_
  split
  · exact (Nat.max_le.1 hc).1
  · trivial

theorem resolveCaptures_scoped {captures : List (Named (Capture Tree))}
    (hcaptures : CapturesWithin n captures) :
    (resolveCaptures captures).Scoped base CapturesWithin n m := by
  induction captures generalizing n m with
  | nil => exact fun c hc => nomatch hc
  | cons c rest ih =>
    obtain ⟨hc, hrest⟩ := List.forall_mem_cons.1 hcaptures
    obtain ⟨htree, henv⟩ := Nat.max_le.1 hc
    have hslot : Slot.reach [⟨c.name, c.val.tree⟩] ≤ n := by simpa [Slot.reach] using htree
    have hscope : InScope n (Tree.pairlist [⟨c.name, c.val.tree⟩]).reach c.val.env none :=
      ⟨hslot, henv, Mask.within_none⟩
    refine (Routine.Scoped.resolve hscope).bind fun n' m' t hn _ ht => ?_
    refine (ih fun c hc => Nat.le_trans (hrest c hc) hn).bind fun _ _ more hn' _ hmore => ?_
    refine List.forall_mem_append.2 ⟨List.forall_mem_map.2 fun slot hslot => ?_, hmore⟩
    have hslots := Slot.reach_le_iff.1 (Nat.le_trans t.reach_slots?_le ht) slot hslot
    exact Nat.max_le.2 ⟨Nat.le_trans hslots hn', Nat.le_trans henv (Nat.le_trans hn hn')⟩

theorem capturedDots_scoped (call : SpecialCall) :
    (capturedDots call).Scoped base CapturesWithin n m := by
  unfold capturedDots
  split
  · trivial
  · exact (Routine.Scoped.captureDots _).bind fun _ _ _ _ _ hcaptures =>
      resolveCaptures_scoped hcaptures

theorem enexprs_scoped (call : SpecialCall) : (enexprs call).ScopedValue base n m :=
  (capturedDots_scoped call).bind fun _ _ _ _ _ hcaptures =>
    Item.reach_le_iff.2 <| List.forall_mem_map.2 fun c hc => (Nat.max_le.1 (hcaptures c hc)).1

theorem enquos_scoped (call : SpecialCall) : (enquos call).ScopedValue base n m :=
  (capturedDots_scoped call).bind fun _ _ _ _ _ hcaptures =>
    Item.reach_le_iff.2 <| List.forall_mem_map.2 fun c hc => hcaptures c hc

theorem dataMask_within {v : Value} (hv : v.reach ≤ n) : Gives (Mask.Within n) (dataMask v) :=
  (hereditary_reach n).dataMask hv

theorem tidyMask_scoped (hcall : call.InScope n) (data : Option Slot)
    (hdata : ∀ slot, data = some slot → slot.val.reach ≤ Slot.reach call.args) :
    (tidyMask call data).Scoped base Mask.Within n m := by
  cases data with
  | none => exact Mask.within_none
  | some slot =>
    exact (Routine.Scoped.evaluate (hcall.part (hdata slot rfl))).bind fun _ _ v _ _ hv =>
      .ofExcept (dataMask_within hv)

theorem tidyArguments_reach (call : SpecialCall) :
    Gives (fun parts => parts.1.val.reach ≤ Slot.reach call.args ∧
      ∀ slot, parts.2 = some slot → slot.val.reach ≤ Slot.reach call.args)
      (tidyArguments call) := by
  have hargs : ∀ slot ∈ call.args, slot.val.reach ≤ Slot.reach call.args :=
    Slot.reach_le_iff.1 (Nat.le_refl _)
  exact (tidyArguments_mem call).mono fun parts hparts =>
    ⟨hargs _ hparts.1, fun slot h => hargs slot (hparts.2 slot h)⟩

theorem evalTidy_scoped (hcall : call.InScope n) : (evalTidy call).ScopedValue base n m := by
  refine .ofExcept_bind (tidyArguments_reach call) fun parts hparts => ?_
  refine (tidyMask_scoped hcall parts.2 hparts.2).bind fun _ _ mask hn _ hmask => ?_
  have hcall := hcall.mono hn
  refine (Routine.Scoped.evaluate (hcall.part hparts.1)).bind fun _ _ v hn' _ hv => ?_
  have henv := Nat.lt_of_lt_of_le hcall.env hn'
  cases v with
  | tree t => exact .evaluate ⟨hv, henv, hmask.mono hn'⟩
  | capture c =>
    obtain ⟨htree, hframe⟩ := Nat.max_le.1 hv
    exact .evaluate ⟨htree, hframe, hmask.mono hn'⟩
  | _ => exact hv

theorem call2_scoped (hcall : call.InScope n) : (call2 call).ScopedValue base n m := by
  refine (Routine.Scoped.arguments hcall).bind fun n' m' items hn _ hitems => ?_
  cases items with
  | nil => trivial
  | cons first rest =>
    obtain ⟨hfirst, hrest⟩ := Nat.max_le.1 hitems
    change ((Routine.ofExcept (CallHead.ofValue first.val)).bind _).ScopedValue base n' m'
    refine .ofExcept_bind (CallHead.ofValue_reach first.val) fun head hhead => ?_
    have htemplate := CallHead.template_reach (Nat.le_trans hhead hfirst) hrest
    have henv := Nat.lt_of_lt_of_le hcall.env hn
    refine (Routine.Scoped.resolve ⟨htemplate, henv, Mask.within_none⟩).bind ?_
    exact fun _ _ _ _ _ ht => ht

theorem list2_scoped (hcall : call.InScope n) : (list2 call).ScopedValue base n m :=
  (Routine.Scoped.arguments hcall).bind fun _ _ _ _ _ hitems => hitems

theorem Op.routine_scoped {host : Host}
    (hhost : ∀ name, (host.special name call).ScopedValue n n m) (op : Op)
    (hcall : call.InScope n) : (op.routine host.special call).ScopedValue n n m := by
  cases op with
  | quote | expr => exact quote_scoped hcall
  | quo => exact quo_scoped hcall
  | enexpr => exact enexpr_scoped call
  | enquo => exact enquo_scoped call
  | ensym => exact ensym_scoped call
  | enexprs => exact enexprs_scoped call
  | enquos => exact enquos_scoped call
  | evalTidy => exact evalTidy_scoped hcall
  | call2 => exact call2_scoped hcall
  | list2 => exact list2_scoped hcall
  | host name => exact hhost name

end Special

namespace Session

variable {base n m : Nat} {call : SpecialCall}

theorem HostBuiltin.run_reach (name : String) {args : List Item} (w : World)
    (hargs : Item.reach args ≤ n) : Gives (·.reach ≤ n) (run name args w).1 := by
  unfold run
  split
  · exact .ok (Nat.zero_le n)
  · refine .ok ?_
    cases hlast : args.getLast? with
    | none => exact Nat.zero_le n
    | some i => exact Item.reach_le_iff.1 hargs i (List.mem_of_getLast? hlast)
  · exact .error _
  · exact .error _
  · exact .ok (Nat.zero_le n)
  · exact .ok (Nat.zero_le n)

namespace HostSpecial

theorem cond_scoped (hcall : call.InScope n) : (cond call).ScopedValue base n m := by
  have hargs : ∀ slot ∈ call.args, slot.val.reach ≤ Slot.reach call.args :=
    Slot.reach_le_iff.1 (Nat.le_refl _)
  unfold cond
  split
  · rename_i test yes no heq
    rw [heq] at hargs
    simp only [List.forall_mem_cons] at hargs
    obtain ⟨htest, hyes, hno, -⟩ := hargs
    refine (Routine.Scoped.evaluate (hcall.part (heq ▸ htest))).bind fun n' m' v hn _ hv => ?_
    refine .evaluate ((hcall.mono hn).part ?_)
    rw [heq]
    split
    · exact hyes
    · exact hno
  · trivial

theorem formal_reach (slot : Slot) :
    Gives (fun f => Formal.reach [f] ≤ slot.val.reach) (formal slot) := by
  unfold formal
  split
  · refine .ok ?_
    simp [Formal.reach]
  · exact .ok (Nat.zero_le _)
  · exact .error _

theorem formals_reach (args : List Slot) :
    Gives (Formal.reach · ≤ Slot.reach args) (args.mapM formal) := by
  induction args with
  | nil => exact .ok (Nat.le_refl _)
  | cons slot rest ih =>
    rw [List.mapM_cons]
    refine (formal_reach slot).bind fun f hf => ih.bind fun fs hfs => .ok ?_
    rw [Formal.reach_le_iff] at *
    refine List.forall_mem_cons.2 ⟨fun t ht => ?_, fun g hg t ht => ?_⟩
    · exact Nat.le_trans (hf f List.mem_cons_self t ht) (Nat.le_max_left _ _)
    · exact Nat.le_trans (hfs g hg t ht) (Nat.le_max_right _ _)

theorem lambda_scoped (hcall : call.InScope n) : (lambda call).ScopedValue base n m := by
  unfold lambda
  cases hlast : call.args.getLast? with
  | none => trivial
  | some body =>
    have hbody : body.val.reach ≤ n :=
      Slot.reach_le_iff.1 hcall.tree body (List.mem_of_getLast? hlast)
    have hformals : Slot.reach call.args.dropLast ≤ n :=
      Slot.reach_le_iff.2 fun slot hslot =>
        Slot.reach_le_iff.1 hcall.tree slot (List.dropLast_subset _ hslot)
    refine .ofExcept_bind (formals_reach _) fun formals hfs => fun i => ?_
    exact Nat.max_le.2 ⟨Nat.max_le.2 ⟨Nat.le_trans hfs hformals, hbody⟩, hcall.env⟩

theorem assign_scoped (hcall : call.InScope n) : (assign call).ScopedValue base n m := by
  unfold assign
  split
  · rename_i value heq
    have hvalue : value.val.reach ≤ Slot.reach call.args :=
      Slot.reach_le_iff.1 (Nat.le_refl _) _ (heq ▸ List.mem_cons_of_mem _ List.mem_cons_self)
    refine (Routine.Scoped.evaluate (hcall.part hvalue)).bind fun n' m' v _ _ hv => ⟨?_, hv⟩
    intro b hb
    cases hb
    exact ⟨⟨trivial, fun w hw => by cases hw; exact hv⟩, .inr trivial⟩
  · trivial
  · trivial

theorem callers_scoped (call : SpecialCall) : (callers call).ScopedValue base n m :=
  (Routine.Scoped.captureDots _).bind fun _ _ _ _ _ hcaptures => Slot.reach_le_iff.2 <|
    List.forall_mem_map.2 fun c hc => (Nat.max_le.1 (hcaptures c hc)).1

theorem raw_scoped (hcall : call.InScope n) : (raw call).ScopedValue base n m :=
  .ofExcept_bind (call.single_reach _) fun _ hslot => Nat.le_trans hslot hcall.tree

theorem masked_scoped (call : SpecialCall) : (masked call).ScopedValue base n m := by
  unfold masked
  split
  · refine Item.reach_le_iff.2 (List.forall_mem_map.2 (List.forall_mem_map.2 fun name _ => ?_))
    exact Nat.zero_le n
  · exact Nat.zero_le n

theorem run_scoped (name : String) (hcall : call.InScope n) :
    (run name call).ScopedValue base n m := by
  unfold run
  split
  · exact cond_scoped hcall
  · exact lambda_scoped hcall
  · exact assign_scoped hcall
  · exact callers_scoped call
  · exact fun _ => Nat.zero_le n
  · exact raw_scoped hcall
  · exact hcall.tree
  · exact masked_scoped call
  · exact Nat.max_le.2 ⟨Nat.zero_le n, hcall.env⟩
  · exact Nat.zero_le n

end HostSpecial

theorem host_scoped (h : Heap) : host.Scoped h where
  builtin _ _ name _ w hargs := HostBuiltin.run_reach name w hargs
  special _ _ _ _ name _ hcall := HostSpecial.run_scoped name hcall

end Session

end Quotation
