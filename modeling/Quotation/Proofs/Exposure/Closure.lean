import Quotation.Proofs.Exposure
import Quotation.Session.Host

namespace Quotation

/-- A promise whose tree has an exposed marker, as far as can be told in a heap. -/
def Promise.Exposed (p : Promise) (h : Heap) : Prop :=
  p.expr.Exposed (h.isSpecialHead p.env p.mask)

theorem Promise.KeepsTree.exposed_iff {p q : Promise} (hk : p.KeepsTree q) (h : Heap) :
    q.Exposed h ↔ p.Exposed h := by
  rw [Promise.Exposed, Promise.Exposed, hk.expr, hk.env, hk.mask]

theorem not_exposed_of_size_le {h h' : Heap} {p : PromiseId} (hp : h.promises.size ≤ p) :
    ¬ (h.promise p).Exposed h' := by
  rw [Heap.promise_of_size_le hp]
  exact Tree.Exposed.not_literal _

section

variable {eng : Engine} {ev : Evaluator} {c : Closure Tree} {args : List Slot} {env : FrameId}
  {mask : Option Mask} {supplied : List (Named PromiseId)} {frame : FrameId} {v : Value}
  {s s₁ s₂ s₃ : State}

theorem uncapturedMarker?_eq_none_iff {h : Heap} {marked : List PromiseId} :
    uncapturedMarker? h marked = none ↔
      ∀ p ∈ marked, (h.promise p).Exposed h → (h.promise p).captured = true := by
  simp only [uncapturedMarker?, List.findSome?_eq_none_iff, List.mem_filter, exposed?_eq_none_iff]
  constructor
  · intro hall p hp hexposed
    cases hcaptured : (h.promise p).captured with
    | true => rfl
    | false => exact absurd hexposed (hall p ⟨hp, by simp [hcaptured]⟩)
  · rintro hall p ⟨hp, hcaptured⟩ hexposed
    simp [hall p hp hexposed] at hcaptured

theorem mem_markedArguments {h : Heap} {p : PromiseId} :
    p ∈ markedArguments h supplied ↔
      ∃ a ∈ supplied, a.val = p ∧ (h.promise p).expr.hasMarkers = true := by
  simp only [markedArguments, List.mem_filter, List.mem_map]
  constructor
  · rintro ⟨⟨a, ha, heq⟩, hmarkers⟩
    exact ⟨a, ha, heq, hmarkers⟩
  · rintro ⟨a, ha, heq, hmarkers⟩
    exact ⟨⟨a, ha, heq⟩, hmarkers⟩

theorem uncapturedMarker?_markedArguments {h h' : Heap} (hkept : h.KeepsTrees h') :
    uncapturedMarker? h' (markedArguments h supplied) = none ↔
      ∀ a ∈ supplied, (h.promise a.val).Exposed h' → (h'.promise a.val).captured = true := by
  rw [uncapturedMarker?_eq_none_iff]
  constructor
  · intro hall a ha hexposed
    have hsize : a.val < h.promises.size :=
      Nat.lt_of_not_le fun hle => not_exposed_of_size_le hle hexposed
    have hmarked : a.val ∈ markedArguments h supplied :=
      mem_markedArguments.2 ⟨a, ha, rfl, hexposed.hasMarkers⟩
    exact hall a.val hmarked (((hkept.promise _ hsize).exposed_iff h').2 hexposed)
  · intro hall p hp hexposed
    obtain ⟨a, ha, rfl, hmarkers⟩ := mem_markedArguments.1 hp
    have hsize : a.val < h.promises.size := by
      refine Nat.lt_of_not_le fun hle => ?_
      rw [Heap.promise_of_size_le hle] at hmarkers
      cases hmarkers
    exact hall a ha (((hkept.promise _ hsize).exposed_iff h').1 hexposed)

def State.calling (s : State) (on : Bool) (c : Closure Tree) : State :=
  s.traced on ("call " ++ c.name.getD "<anonymous>" ++ " at depth " ++ toString s.depth)

theorem applyClosure_apply (hsupplied : promiseSlots env mask args s = .ok supplied s₁)
    (hframe : openFrame c supplied s₁ = .ok frame s₂) :
    applyClosure eng ev c args env mask s =
      Outcome.follow (ev c.body frame none (s₂.calling eng.trace c))
        (fun v t =>
          match uncapturedMarker? t.heap (markedArguments s₁.heap supplied) with
          | some m => .error (.failed (.unresolvedMarker m.kind)) t
          | none => .ok v t) id := by
  rw [applyClosure, Eval.bind_apply, hsupplied, Outcome.follow_ok_eval, Eval.heap_bind_apply,
    Eval.bind_apply, hframe, Outcome.follow_ok_eval, Eval.depth_bind_apply, Eval.bind_apply,
    Eval.trace_apply, Outcome.follow_ok_eval, Eval.bind_apply]
  rw [State.calling]
  cases ev c.body frame none _ with
  | error h t => rfl
  | ok v t =>
    rw [Outcome.follow_ok_eval, Eval.heap_bind_apply, Outcome.follow_ok]
    cases uncapturedMarker? t.heap (markedArguments s₁.heap supplied) <;> rfl

theorem applyClosure_of_body (hsupplied : promiseSlots env mask args s = .ok supplied s₁)
    (hframe : openFrame c supplied s₁ = .ok frame s₂)
    (hbody : ev c.body frame none (s₂.calling eng.trace c) = .ok v s₃) :
    applyClosure eng ev c args env mask s =
      match uncapturedMarker? s₃.heap (markedArguments s₁.heap supplied) with
      | some m => .error (.failed (.unresolvedMarker m.kind)) s₃
      | none => .ok v s₃ := by
  rw [applyClosure_apply hsupplied hframe, hbody, Outcome.follow_ok]

theorem openFrame_keepsTrees (hframe : openFrame c supplied s₁ = .ok frame s₂) :
    s₁.heap.KeepsTrees s₂.heap := by
  rw [openFrame_apply] at hframe
  cases hm : matchArguments c.formals supplied with
  | error e =>
    rw [hm] at hframe
    cases hframe
  | ok m =>
    rw [hm] at hframe
    cases hframe
    exact (Heap.keepsTrees_invariant s₁.heap).formals (.refl _) (some c.env) c.formals m

theorem body_keepsTrees {fuel : Nat}
    (hframe : openFrame c supplied s₁ = .ok frame s₂)
    (hbody : evaluate eng fuel c.body frame none (s₂.calling eng.trace c) = .ok v s₃) :
    s₁.heap.KeepsTrees s₃.heap := by
  have hkept := evaluate_keepsTrees eng fuel c.body frame none (s₂.calling eng.trace c)
  rw [hbody, State.calling, State.heap_traced] at hkept
  exact (openFrame_keepsTrees hframe).trans hkept

/-- A call whose arguments match and whose body has returned a value gives the value if and only if
every argument with an exposed marker was captured, and otherwise fails with such a marker. That is
what capturing or forcing the argument would come to, unless all were captured or forced, and one of
them was forced only. -/
theorem applyClosure_returns_iff {fuel : Nat}
    (hsupplied : promiseSlots env mask args s = .ok supplied s₁)
    (hframe : openFrame c supplied s₁ = .ok frame s₂)
    (hbody : evaluate eng fuel c.body frame none (s₂.calling eng.trace c) = .ok v s₃) :
    let returns := applyClosure eng (evaluate eng fuel) c args env mask s = .ok v s₃
    let exposed (a : Named PromiseId) := (s₁.heap.promise a.val).Exposed s₃.heap
    let captured (a : Named PromiseId) := (s₃.heap.promise a.val).captured = true
    let forced (a : Named PromiseId) := (s₃.heap.promise a.val).isForced = true
    (returns ↔ ∀ a ∈ supplied, exposed a → captured a) ∧
      (¬ returns → ∃ k, applyClosure eng (evaluate eng fuel) c args env mask s =
        .error (.failed (.unresolvedMarker k)) s₃) ∧
      ((returns ↔ ∀ a ∈ supplied, exposed a → captured a ∨ forced a) ↔
        ¬ ((∀ a ∈ supplied, exposed a → captured a ∨ forced a) ∧
          ∃ a ∈ supplied, exposed a ∧ forced a ∧ ¬ captured a)) := by
  intro returns exposed captured forced
  have happly := applyClosure_of_body hsupplied hframe hbody
  have hmarker : uncapturedMarker? s₃.heap (markedArguments s₁.heap supplied) = none ↔ _ :=
    uncapturedMarker?_markedArguments (body_keepsTrees hframe hbody)
  have hreturns : returns ↔ ∀ a ∈ supplied, exposed a → captured a := by
    rw [← hmarker]
    simp only [returns, happly]
    cases uncapturedMarker? s₃.heap (markedArguments s₁.heap supplied) <;> simp
  refine ⟨hreturns, ?_, ?_⟩
  · intro hnot
    simp only [returns, happly] at hnot
    rw [happly]
    cases hm : uncapturedMarker? s₃.heap (markedArguments s₁.heap supplied) with
    | some m => exact ⟨m.kind, rfl⟩
    | none =>
      rw [hm] at hnot
      exact absurd rfl hnot
  · rw [hreturns]
    constructor
    · rintro hiff ⟨hall, a, ha, hexposed, -, hcaptured⟩
      exact hcaptured (hiff.2 hall a ha hexposed)
    · intro hnot
      refine ⟨fun h a ha hexposed => .inl (h a ha hexposed), fun hall a ha hexposed => ?_⟩
      rcases hall a ha hexposed with hcaptured | hforced
      · exact hcaptured
      · exact Decidable.byContradiction fun hcaptured =>
          hnot ⟨hall, a, ha, hexposed, hforced, hcaptured⟩

end

def Closure.capturing : Closure Tree :=
  ⟨some "capture", [⟨"a", none⟩], .callNamed "enexpr" [.reference "a"], 0, 1⟩

def Closure.forcing : Closure Tree := ⟨some "f", [⟨"a", none⟩], .reference "a", 0, 2⟩

def State.withCallables : State where
  heap :=
    let h := (({} : Heap).newFrame none false).2
    let h := h.define 0 "x" (.int 1)
    let h := h.define 0 "identity" (.builtin ⟨.identity, 3⟩)
    let h := h.define 0 "quote" (.special ⟨.quote, 4⟩)
    let h := h.define 0 "enexpr" (.special ⟨.enexpr, 5⟩)
    h.define 0 "capture" (.closure .capturing)

theorem captured_argument_returns :
    let eng : Engine := { host := Session.host }
    let args := [Named.positional (Tree.unquote (.reference "x"))]
    ∃ s₁ s₂ v s₃, promiseSlots 0 none args .withCallables = .ok [⟨none, 0⟩] s₁ ∧
      openFrame .capturing [⟨none, 0⟩] s₁ = .ok 1 s₂ ∧
      evaluate eng 5 Closure.capturing.body 1 none (s₂.calling eng.trace .capturing) = .ok v s₃ ∧
      applyClosure eng (evaluate eng 5) .capturing args 0 none .withCallables = .ok v s₃ := by
  intro eng args
  let s₁ := Outcome.state (promiseSlots 0 none args .withCallables)
  let s₂ := Outcome.state (openFrame .capturing [⟨none, 0⟩] s₁)
  let r : Outcome Value :=
    evaluate eng 5 Closure.capturing.body 1 none (s₂.calling eng.trace .capturing)
  have hvalue : r.value?.isSome = true := by decide +kernel
  obtain ⟨v, hv⟩ := Option.isSome_iff_exists.1 hvalue
  have hsupplied : promiseSlots 0 none args .withCallables = .ok [⟨none, 0⟩] s₁ := rfl
  have hframe : openFrame .capturing [⟨none, 0⟩] s₁ = .ok 1 s₂ := rfl
  have hbody := Outcome.eq_ok_of_value? hv
  have hcaptured : (r.state.heap.promise 0).captured = true := by decide +kernel
  refine ⟨s₁, s₂, v, r.state, hsupplied, hframe, hbody, ?_⟩
  refine (applyClosure_returns_iff hsupplied hframe hbody).1.2 ?_
  rintro a (_ | ⟨_, ⟨⟩⟩) -
  exact hcaptured

/-- An argument with a marker in what another closure captures is forced with success, and the call
fails all the same. -/
theorem forced_argument_rejected :
    let eng : Engine := { host := Session.host }
    let args := [Named.positional (Tree.callNamed "capture" [.unquote (.reference "x")])]
    ∃ s₁ s₂ v s₃, promiseSlots 0 none args .withCallables = .ok [⟨none, 0⟩] s₁ ∧
      openFrame .forcing [⟨none, 0⟩] s₁ = .ok 1 s₂ ∧
      evaluate eng 5 Closure.forcing.body 1 none (s₂.calling eng.trace .forcing) = .ok v s₃ ∧
      (s₃.heap.promise 0).isForced = true ∧
      ∃ t, applyClosure eng (evaluate eng 5) .forcing args 0 none .withCallables =
        .error (.failed (.unresolvedMarker .unquote)) t := by
  intro eng args
  let s₁ := Outcome.state (promiseSlots 0 none args .withCallables)
  let s₂ := Outcome.state (openFrame .forcing [⟨none, 0⟩] s₁)
  let r : Outcome Value :=
    evaluate eng 5 Closure.forcing.body 1 none (s₂.calling eng.trace .forcing)
  have hvalue : r.value?.isSome = true := by decide +kernel
  obtain ⟨v, hv⟩ := Option.isSome_iff_exists.1 hvalue
  have hforced : (r.state.heap.promise 0).isForced = true := by decide +kernel
  have hcall : Outcome.halt? (applyClosure eng (evaluate eng 5) .forcing args 0 none .withCallables) =
      some (.failed (.unresolvedMarker .unquote)) := by decide +kernel
  exact ⟨s₁, s₂, v, r.state, rfl, rfl, Outcome.eq_ok_of_value? hv, hforced, _,
    Outcome.eq_error_of_halt? hcall⟩

end Quotation
