import Quotation.Proofs.Promises

/-! The promises under evaluation. An evaluation is either part of the one that has begun it, or it
is that of a promise which is forced. So there is a stack of the promises that are being forced, and
to compare it with the marks on the promises, a run is watched: it keeps the stack and gives an alarm
as soon as the marks say otherwise, and no alarm makes a difference. -/

namespace Quotation

def forceMarked (ev : Evaluator) (p : PromiseId) (s : State) : Outcome Value :=
  Outcome.follow
    (ev (s.heap.promise p).expr (s.heap.promise p).env (s.heap.promise p).mask
      (s.mapHeap (·.beginForce p)))
    (fun v t => .ok v (t.mapHeap (·.finishForce p v))) fun t => t.mapHeap (·.abandonForce p)

structure Promise.Asks (p : Promise) (t : Tree) (env : FrameId) (mask : Option Mask) : Prop where
  expr : p.expr = t
  env : p.env = env
  mask : p.mask = mask

open Classical in
/-- The stack that an evaluation is under, given the stack that what has begun it is under: this one
as it is, or with one promise more, which is newly marked and whose tree it is that is evaluated. -/
noncomputable def Heap.stackAt? (h : Heap) (stack : List PromiseId) (t : Tree) (env : FrameId)
    (mask : Option Mask) : Option (List PromiseId) :=
  if h.Under stack then some stack
  else if hp : ∃ p, h.Under (p :: stack) ∧ (h.promise p).Asks t env mask then
    some (hp.choose :: stack)
  else none

open Classical in
noncomputable def Eval.tracked {α : Type} (stack : List PromiseId) (act alarm : Eval α) : Eval α :=
  fun s =>
    let t := (Outcome.state (act s)).heap
    if t.Under stack ∧ s.heap.Develops t then act s else alarm s

/-- Evaluation that keeps the stack of the promises that are being forced. It gives an alarm where a
tree is evaluated while other promises are marked than those of the stack, or while one of them has a
value already, and also where that holds when the evaluation is done. -/
noncomputable def evaluateTracked (eng : Engine) (alarm : Evaluator) :
    Nat → List PromiseId → Evaluator
  | 0, _, _, _, _ => throw .outOfFuel
  | fuel + 1, stack, t, env, mask => fun s =>
    match s.heap.stackAt? stack t env mask with
    | some stack =>
      (evaluateStep eng (evaluateTracked eng alarm fuel stack) t env mask).tracked stack
        (alarm t env mask) s
    | none => alarm t env mask s

namespace Heap

variable {h : Heap} {stack : List PromiseId} {t : Tree} {env : FrameId} {mask : Option Mask}

theorem stackAt?_of_under (hu : h.Under stack) : h.stackAt? stack t env mask = some stack :=
  if_pos hu

theorem Under.head_unique {p q : PromiseId} (hp : h.Under (p :: stack)) (hq : h.Under (q :: stack)) :
    q = p := by
  have hmem : q ∈ p :: stack := by rw [← hp.marked, hq.marked]; exact List.mem_cons_self
  rcases List.mem_cons.1 hmem with heq | hmem
  · exact heq
  · exact absurd hmem (List.nodup_cons.1 hq.nodup).1

theorem stackAt?_of_force {p : PromiseId} (hu : h.Under (p :: stack))
    (hasks : (h.promise p).Asks t env mask) :
    h.stackAt? stack t env mask = some (p :: stack) := by
  have hnot : ¬ h.Under stack := by
    intro hs
    have hmem : p ∈ stack := by rw [← hs.marked, hu.marked]; exact List.mem_cons_self
    exact (List.nodup_cons.1 hu.nodup).1 hmem
  have hex : ∃ p, h.Under (p :: stack) ∧ (h.promise p).Asks t env mask := ⟨p, hu, hasks⟩
  rw [stackAt?, if_neg hnot, dif_pos hex, hu.head_unique hex.choose_spec.1]

end Heap

section

variable {eng : Engine} {α β : Type} {stack : List PromiseId} {x y : Eval α} {s : State}

structure SameUnder (stack : List PromiseId) (x y : Eval α) (s : State) : Prop where
  same : x s = y s
  under : (Outcome.state (y s)).heap.Under stack
  develops : s.heap.Develops (Outcome.state (y s)).heap

theorem SameUnder.tracked_eq (h : SameUnder stack x y s) (alarm : Eval α) :
    x.tracked stack alarm s = y s := by
  rw [Eval.tracked, h.same]
  exact if_pos ⟨h.under, h.develops⟩

abbrev Lockstep.underStack (eng : Engine) (stack : List PromiseId) (h₀ : Heap) : Lockstep eng eng :=
  .ofInvariant eng (Heap.develops_invariant h₀ stack)

theorem related_underStack_iff :
    (∀ h₀, (Lockstep.underStack eng stack h₀).Related x y) ↔
      ∀ s : State, s.heap.Under stack → SameUnder stack x y s := by
  simp only [Lockstep.related_ofInvariant_iff]
  constructor
  · intro h s hs
    obtain ⟨heq, hunder, hdevelops⟩ := h s.heap s ⟨hs, .refl _⟩
    exact ⟨heq, hunder, hdevelops⟩
  · intro h h₀ s hs
    have hsame := h s hs.1
    exact ⟨hsame.same, hsame.under, hs.2.trans hsame.develops⟩

theorem SameUnder.forceMarked {ev₁ ev₂ : Evaluator} {p : PromiseId} {stack' : List PromiseId}
    (h : SameUnder stack'
      (ev₁ (s.heap.promise p).expr (s.heap.promise p).env (s.heap.promise p).mask)
      (ev₂ (s.heap.promise p).expr (s.heap.promise p).env (s.heap.promise p).mask)
      (s.mapHeap (·.beginForce p)))
    (hfinish : ∀ t v, t.Under stack' → s.heap.Develops t →
      (t.finishForce p v).Under stack ∧ s.heap.Develops (t.finishForce p v))
    (habandon : ∀ t, t.Under stack' → s.heap.Develops t →
      (t.abandonForce p).Under stack ∧ s.heap.Develops (t.abandonForce p)) :
    SameUnder stack (forceMarked ev₁ p) (forceMarked ev₂ p) s := by
  obtain ⟨heq, hunder, hdevelops⟩ := h
  have hdevelops := (Heap.Develops.beginForce s.heap p).trans hdevelops
  have hsame : Quotation.forceMarked ev₁ p s = Quotation.forceMarked ev₂ p s := by
    simp only [Quotation.forceMarked, heq]
  suffices hend : (Outcome.state (Quotation.forceMarked ev₂ p s)).heap.Under stack ∧
      s.heap.Develops (Outcome.state (Quotation.forceMarked ev₂ p s)).heap from
    ⟨hsame, hend.1, hend.2⟩
  simp only [Quotation.forceMarked]
  generalize ev₂ (s.heap.promise p).expr (s.heap.promise p).env (s.heap.promise p).mask
    (s.mapHeap (·.beginForce p)) = r at hunder hdevelops ⊢
  cases r with
  | ok v t => exact hfinish t.heap v hunder hdevelops
  | error e t => exact habandon t.heap hunder hdevelops

theorem force_same {ev₁ ev₂ : Evaluator} {p : PromiseId} (hs : s.heap.Under stack)
    (hp : (s.heap.promise p).Pending)
    (hpart : ∀ t env mask (s : State), s.heap.Under stack →
      SameUnder stack (ev₁ t env mask) (ev₂ t env mask) s)
    (hforced : ∀ s : State, s.heap.Under (p :: stack) →
      ∀ t env mask, (s.heap.promise p).Asks t env mask →
        SameUnder (p :: stack) (ev₁ t env mask) (ev₂ t env mask) s) :
    SameUnder stack (force ev₁ p) (force ev₂ p) s := by
  have hforce : ∀ ev, force ev p s = forceMarked ev p s := fun ev => force_apply_of_pending ev hp
  suffices h : SameUnder stack (forceMarked ev₁ p) (forceMarked ev₂ p) s by
    refine ⟨?_, ?_, ?_⟩
    · rw [hforce, hforce]
      exact h.same
    · rw [hforce]
      exact h.under
    · rw [hforce]
      exact h.develops
  by_cases hsize : p < s.heap.promises.size
  · have hin := hs.beginForce hp hsize
    have hkept := (Heap.Develops.beginForce s.heap p).promise p hsize
    refine (hforced (s.mapHeap (·.beginForce p)) hin _ _ _
      ⟨hkept.expr, hkept.env, hkept.mask⟩).forceMarked ?_ ?_
    · intro t v ht hd
      have hp' := Nat.lt_of_lt_of_le hsize hd.promises
      exact ⟨ht.pop hp' fun _ => rfl,
        hd.trans (Heap.Develops.finishForce (ht.valueless p List.mem_cons_self) v)⟩
    · intro t ht hd
      have hp' := Nat.lt_of_lt_of_le hsize hd.promises
      exact ⟨ht.pop hp' fun _ => rfl, hd.trans (Heap.Develops.abandonForce _ p)⟩
  · have hnew := Nat.le_of_not_lt hsize
    have hmem := hs.not_mem_of_pending hp
    have hin : (s.heap.beginForce p).Under stack := hs.ofSame
      (fun q => by rw [Heap.beginForce, Heap.promise_modifyPromise, if_neg fun h => hsize h.2])
      fun q => by rw [Heap.beginForce, Heap.promise_modifyPromise, if_neg fun h => hsize h.2]
    refine (hpart _ _ _ (s.mapHeap (·.beginForce p)) hin).forceMarked ?_ ?_
    · exact fun t v ht hd => ⟨ht.unmark hmem fun _ => rfl, hd.modifyNew hnew _⟩
    · exact fun t ht hd => ⟨ht.unmark hmem fun _ => rfl, hd.modifyNew hnew _⟩

theorem relatedEvaluators_underStack {ev₁ ev₂ : Evaluator}
    (hpart : ∀ t env mask (s : State), s.heap.Under stack →
      SameUnder stack (ev₁ t env mask) (ev₂ t env mask) s)
    (hforced : ∀ p (s : State), s.heap.Under (p :: stack) →
      ∀ t env mask, (s.heap.promise p).Asks t env mask →
        SameUnder (p :: stack) (ev₁ t env mask) (ev₂ t env mask) s) (h₀ : Heap) :
    (Lockstep.underStack eng stack h₀).RelatedEvaluators ev₁ ev₂ where
  eval t env mask := related_underStack_iff.2 (hpart t env mask) h₀
  force p := by
    refine .force ?_
    rintro _ s _ ⟨rfl, hs, hdevelops⟩ hp
    have hsame := force_same hs hp hpart (hforced p)
    exact Lockstep.ends_ofInvariant_iff.2
      ⟨hsame.same, hsame.under, hdevelops.trans hsame.develops⟩

theorem evaluateTracked_same (eng : Engine) (alarm : Evaluator) (fuel : Nat)
    {stack stack' : List PromiseId} {t : Tree} {env : FrameId} {mask : Option Mask} {s : State}
    (hstack : s.heap.stackAt? stack t env mask = some stack') (hs : s.heap.Under stack') :
    SameUnder stack' (evaluateTracked eng alarm fuel stack t env mask)
      (evaluate eng fuel t env mask) s := by
  induction fuel generalizing stack stack' t env mask s with
  | zero => exact ⟨rfl, hs, .refl _⟩
  | succ fuel ih =>
    have hev : ∀ h₀, (Lockstep.underStack eng stack' h₀).RelatedEvaluators
        (evaluateTracked eng alarm fuel stack') (evaluate eng fuel) :=
      relatedEvaluators_underStack (fun _ _ _ _ hu => ih (Heap.stackAt?_of_under hu) hu)
        fun _ _ hu _ _ _ hasks => ih (Heap.stackAt?_of_force hu hasks) hu
    have hstep := related_underStack_iff.1
      (fun h₀ => evaluateStep_related (hev h₀) t env mask) s hs
    refine ⟨?_, hstep.under, hstep.develops⟩
    simp only [evaluateTracked, hstack]
    exact hstep.tracked_eq _

theorem evaluateTracked_related (eng : Engine) (alarm : Evaluator) (fuel : Nat)
    (stack : List PromiseId) (h₀ : Heap) :
    (Lockstep.underStack eng stack h₀).RelatedEvaluators (evaluateTracked eng alarm fuel stack)
      (evaluate eng fuel) :=
  relatedEvaluators_underStack
    (fun _ _ _ _ hu => evaluateTracked_same eng alarm fuel (Heap.stackAt?_of_under hu) hu)
    (fun _ _ hu _ _ _ hasks =>
      evaluateTracked_same eng alarm fuel (Heap.stackAt?_of_force hu hasks) hu) h₀

end

end Quotation
