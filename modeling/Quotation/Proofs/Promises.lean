import Mathlib.Order.Defs.Unbundled
import Quotation.Proofs.Invariant

namespace Quotation

structure Promise.KeepsTree (p q : Promise) : Prop where
  expr : q.expr = p.expr
  env : q.env = p.env
  mask : q.mask = p.mask
  captured : p.captured = true → q.captured = true

structure Promise.Becomes (p q : Promise) : Prop extends p.KeepsTree q where
  value : ∀ v, p.value? = some v → q.value? = some v

structure Heap.Relates (R : Promise → Promise → Prop) (h h' : Heap) : Prop where
  promises : h.promises.size ≤ h'.promises.size
  promise : ∀ p < h.promises.size, R (h.promise p) (h'.promise p)

abbrev Heap.KeepsTrees (h h' : Heap) : Prop := h.Relates Promise.KeepsTree h'

abbrev Heap.Develops (h h' : Heap) : Prop := h.Relates Promise.Becomes h'

/-- The promises under evaluation are those of a stack, and none of them has a value. -/
structure Heap.Under (h : Heap) (stack : List PromiseId) : Prop where
  nodup : stack.Nodup
  marked : ∀ p, (h.promise p).forcing = true ↔ p ∈ stack
  valueless : ∀ p ∈ stack, (h.promise p).value? = none

instance : IsPreorder Promise Promise.KeepsTree where
  refl _ := ⟨rfl, rfl, rfl, fun h => h⟩
  trans _ _ _ h h' := ⟨h'.expr.trans h.expr, h'.env.trans h.env, h'.mask.trans h.mask,
    fun hc => h'.captured (h.captured hc)⟩

instance : IsPreorder Promise Promise.Becomes where
  refl _ := ⟨refl _, fun _ h => h⟩
  trans _ _ _ h h' := ⟨trans_of Promise.KeepsTree h.toKeepsTree h'.toKeepsTree,
    fun v hv => h'.value v (h.value v hv)⟩

namespace Heap

variable {h h' h'' : Heap} {p : PromiseId} {stack : List PromiseId}

namespace Relates

variable {R : Promise → Promise → Prop} [IsPreorder Promise R]

theorem refl (h : Heap) : h.Relates R h := ⟨Nat.le_refl _, fun _ _ => refl_of R _⟩

theorem trans (hd : h.Relates R h') (hd' : h'.Relates R h'') : h.Relates R h'' where
  promises := Nat.le_trans hd.promises hd'.promises
  promise p hp := trans_of R (hd.promise p hp) (hd'.promise p (Nat.lt_of_lt_of_le hp hd.promises))

theorem modifyPromise {k : Promise → Promise} (hk : R (h.promise p) (k (h.promise p))) :
    h.Relates R (h.modifyPromise p k) where
  promises := by simp
  promise q _ := by
    rw [promise_modifyPromise]
    split
    · rename_i hpq
      exact hpq.1 ▸ hk
    · exact refl_of R _

omit [IsPreorder Promise R] in
theorem modifyNew (hd : h.Relates R h') (hp : h.promises.size ≤ p) (k : Promise → Promise) :
    h.Relates R (h'.modifyPromise p k) where
  promises := by simpa using hd.promises
  promise q hq := by
    have hpq : ¬ p = q := fun e => Nat.not_le_of_lt hq (e ▸ hp)
    rw [promise_modifyPromise, if_neg fun hall => hpq hall.1]
    exact hd.promise q hq

theorem newPromise (h : Heap) (pr : Promise) : h.Relates R (h.newPromise pr).2 where
  promises := by simp
  promise p hp := by
    rw [promise_newPromise, if_neg (Nat.ne_of_lt hp)]
    exact refl_of R _

theorem newFrame (h : Heap) (parent : Option FrameId) (isCall : Bool) :
    h.Relates R (h.newFrame parent isCall).2 := ⟨Nat.le_refl _, fun _ _ => refl_of R _⟩

theorem rebind (h : Heap) (f : FrameId) (name : String) (b : Option Binding) :
    h.Relates R (h.rebind f name b) where
  promises := by simp
  promise p _ := by
    rw [promise_rebind]
    exact refl_of R _

end Relates

theorem KeepsTrees.captured (hd : h.KeepsTrees h') (hp : (h.promise p).captured = true) :
    (h'.promise p).captured = true := by
  by_cases hsize : p < h.promises.size
  · exact (hd.promise p hsize).captured hp
  · rw [promise_of_size_le (Nat.le_of_not_lt hsize)] at hp
    cases hp

namespace Develops

theorem value (hd : h.Develops h') {v : Value} (hv : (h.promise p).value? = some v) :
    (h'.promise p).value? = some v := by
  by_cases hp : p < h.promises.size
  · exact (hd.promise p hp).value v hv
  · rw [promise_of_size_le (Nat.le_of_not_lt hp)] at hv
    cases hv

theorem beginForce (h : Heap) (p : PromiseId) : h.Develops (h.beginForce p) :=
  Relates.modifyPromise ⟨⟨rfl, rfl, rfl, fun h => h⟩, fun _ h => h⟩

theorem abandonForce (h : Heap) (p : PromiseId) : h.Develops (h.abandonForce p) :=
  Relates.modifyPromise ⟨⟨rfl, rfl, rfl, fun h => h⟩, fun _ h => h⟩

theorem finishForce (hp : (h.promise p).value? = none) (v : Value) :
    h.Develops (h.finishForce p v) := by
  refine Relates.modifyPromise ⟨⟨rfl, rfl, rfl, fun h => h⟩, fun w hw => ?_⟩
  rw [hp] at hw
  cases hw

end Develops

namespace Under

theorem ofSame (hu : h.Under stack)
    (hmark : ∀ p, (h'.promise p).forcing = (h.promise p).forcing)
    (hvalue : ∀ p, (h'.promise p).value? = (h.promise p).value?) : h'.Under stack where
  nodup := hu.nodup
  marked p := by rw [hmark, hu.marked]
  valueless p hp := by rw [hvalue, hu.valueless p hp]

theorem not_mem_of_pending (hu : h.Under stack) (hp : (h.promise p).Pending) : p ∉ stack := by
  intro hmem
  rw [← hu.marked, hp.2] at hmem
  cases hmem

theorem beginForce (hu : h.Under stack) (hp : (h.promise p).Pending)
    (hsize : p < h.promises.size) : (h.beginForce p).Under (p :: stack) where
  nodup := List.nodup_cons.2 ⟨hu.not_mem_of_pending hp, hu.nodup⟩
  marked q := by
    rw [Heap.beginForce, promise_modifyPromise, List.mem_cons]
    by_cases hpq : q = p
    · simp [hpq, hsize]
    · have hqp : ¬ p = q := fun e => hpq e.symm
      simp [hpq, hqp, hu.marked]
  valueless q hq := by
    rw [Heap.beginForce, promise_modifyPromise]
    split
    · exact hp.1
    · rename_i hpq
      rcases List.mem_cons.1 hq with rfl | hq
      · exact absurd ⟨rfl, hsize⟩ hpq
      · exact hu.valueless q hq

theorem pop (hu : h.Under (p :: stack)) (hsize : p < h.promises.size) {k : Promise → Promise}
    (hk : ∀ pr, (k pr).forcing = false) : (h.modifyPromise p k).Under stack where
  nodup := (List.nodup_cons.1 hu.nodup).2
  marked q := by
    have hp := (List.nodup_cons.1 hu.nodup).1
    have hq := hu.marked q
    rw [promise_modifyPromise]
    by_cases hpq : p = q
    · subst hpq
      simp [hsize, hk, hp]
    · have hqp : ¬ q = p := fun e => hpq e.symm
      simpa [hpq, hqp] using hq
  valueless q hq := by
    have hp := (List.nodup_cons.1 hu.nodup).1
    have hpq : ¬ p = q := fun e => hp (e ▸ hq)
    rw [promise_modifyPromise, if_neg fun hall => hpq hall.1]
    exact hu.valueless q (List.mem_cons_of_mem _ hq)

theorem unmark (hu : h.Under stack) (hp : p ∉ stack) {k : Promise → Promise}
    (hk : ∀ pr, (k pr).forcing = false) : (h.modifyPromise p k).Under stack where
  nodup := hu.nodup
  marked q := by
    rw [promise_modifyPromise]
    split
    · rename_i hpq
      simp [hk, ← hpq.1, hp]
    · exact hu.marked q
  valueless q hq := by
    have hpq : ¬ p = q := fun e => hp (e ▸ hq)
    rw [promise_modifyPromise, if_neg fun hall => hpq hall.1]
    exact hu.valueless q hq

theorem markCaptured (hu : h.Under stack) (p : PromiseId) : (h.markCaptured p).Under stack := by
  refine hu.ofSame (fun q => ?_) fun q => ?_
  all_goals
    rw [Heap.markCaptured, promise_modifyPromise]
    split
    · rename_i hpq
      rw [hpq.1]
    · rfl

theorem newPromise (hu : h.Under stack) (expr : Tree) (env : FrameId) (mask : Option Mask) :
    (h.newPromise { expr, env, mask }).2.Under stack := by
  refine hu.ofSame (fun q => ?_) fun q => ?_
  all_goals
    rw [promise_newPromise]
    split
    · rename_i hq
      rw [promise_of_size_le (Nat.le_of_eq hq.symm)]
      rfl
    · rfl

theorem rebind (hu : h.Under stack) (f : FrameId) (name : String) (b : Option Binding) :
    (h.rebind f name b).Under stack :=
  hu.ofSame (fun q => by rw [promise_rebind]) fun q => by rw [promise_rebind]

end Under

theorem relates_invariant {R : Promise → Promise → Prop} [IsPreorder Promise R]
    (hcapture : ∀ p : Promise, R p { p with captured := true }) (h₀ : Heap) :
    HeapInvariant (h₀.Relates R) where
  capture hh _ := hh.trans (.modifyPromise (hcapture _))
  promise hh _ _ _ := hh.trans (.newPromise _ _)
  frame hh parent isCall := hh.trans (.newFrame _ parent isCall)
  rebind hh f name b := hh.trans (.rebind _ f name b)

theorem under_invariant (stack : List PromiseId) : HeapInvariant (·.Under stack) where
  capture hh p := hh.markCaptured p
  promise hh expr env mask := hh.newPromise expr env mask
  frame hh _ _ := hh.ofSame (fun _ => rfl) fun _ => rfl
  rebind hh f name b := hh.rebind f name b

theorem develops_invariant (h₀ : Heap) (stack : List PromiseId) :
    HeapInvariant fun h => h.Under stack ∧ h₀.Develops h :=
  (under_invariant stack).and
    (relates_invariant (fun _ => ⟨⟨rfl, rfl, rfl, fun _ => rfl⟩, fun _ h => h⟩) h₀)

theorem keepsTrees_invariant (h₀ : Heap) : HeapInvariant h₀.KeepsTrees :=
  relates_invariant (fun _ => ⟨rfl, rfl, rfl, fun _ => rfl⟩) h₀

end Heap

instance (eng : Engine) (h₀ : Heap) :
    (Lockstep.ofInvariant eng (Heap.keepsTrees_invariant h₀)).Forces :=
  Lockstep.forces_ofInvariant fun hh _ =>
    ⟨hh.trans (.modifyPromise ⟨rfl, rfl, rfl, fun h => h⟩),
      fun _ => hh.trans (.modifyPromise ⟨rfl, rfl, rfl, fun h => h⟩),
      hh.trans (.modifyPromise ⟨rfl, rfl, rfl, fun h => h⟩)⟩

theorem evaluate_keepsTrees (eng : Engine) (fuel : Nat) (t : Tree) (env : FrameId)
    (mask : Option Mask) (s : State) :
    s.heap.KeepsTrees (Outcome.state (evaluate eng fuel t env mask s)).heap :=
  (Lockstep.related_ofInvariant_iff.1
    ((evaluate_related fuel : (Lockstep.ofInvariant eng
      (Heap.keepsTrees_invariant s.heap)).RelatedEvaluators _ _).eval t env mask) s (.refl _)).2

theorem resolve_keepsTrees (eng : Engine) (fuel : Nat) (t : Tree) (env : FrameId)
    (mask : Option Mask) (s : State) :
    s.heap.KeepsTrees (Outcome.state (resolve eng (evaluate eng fuel) t env mask s)).heap :=
  (Lockstep.related_ofInvariant_iff.1
    (resolve_related (evaluate_related fuel : (Lockstep.ofInvariant eng
      (Heap.keepsTrees_invariant s.heap)).RelatedEvaluators _ _) t env mask) s (.refl _)).2

end Quotation
