import Quotation.Proofs.Guarded

namespace Quotation

section

variable {eng : Engine} {fuel : Nat} {head e : Tree} {args : List Slot} {env : FrameId}
  {mask : Option Mask} {b : Builtin} {s s₀ s₁ s₂ : State} {v : Value}

theorem Unaware.evaluate_deeper (h : Unaware eng fuel (fun ev => ev e env mask) s₁)
    (hdeeper : s₁.Deeper 1 s₀) (hv : evaluate eng fuel e env mask s₀ = .ok v s₂) :
    ∃ t, evaluate eng fuel e env mask s₁ = .ok v t ∧ t.Deeper 1 s₂ := by
  have hsame := h.alike ((evaluateGuarded_related eng 0 fuel).eval e env mask) (.refl s₁)
  have habove := h.alike ((evaluateGuarded_related eng 1 fuel).eval e env mask) hdeeper
  have halike := hsame.of_same habove
  rw [hv] at halike
  generalize evaluate eng fuel e env mask s₁ = r at halike
  cases halike with
  | ok ht => exact ⟨_, rfl, ht⟩

/-- A call of a built-in function in which no marker is exposed hands over the values of its
arguments, and one with an exposed marker fails before any of them is evaluated. A tree that is not
variadic and has no exposed marker has the value that its call of `identity` has: the value that it
has there, one level deeper, which is the one that it has by itself if it takes no notice of its
level. -/
theorem builtinCall_applies (hdepth : s.depth < eng.maxDepth)
    (hhead : resolveHead (evaluate eng fuel) head env mask
      (s.entering eng.trace (.call head args)) = .ok (.builtin b) s₁) :
    let special := s₁.heap.isSpecialHead env mask
    let call := evaluate eng (fuel + 1) (.call head args) env mask s
    (∀ items s₂, ¬ (Tree.call head args).Exposed special →
      evalSlots (evaluate eng fuel) env mask args s₁ = .ok items s₂ →
        call = Outcome.leave (runBuiltin eng b items s₂)) ∧
    ((Tree.call head args).Exposed special →
      ∃ k, call = .error (.failed (.unresolvedMarker k)) (s₁.mapDepth (· - 1))) ∧
    ∀ name e, head = .reference name → args = [Named.positional e] → b.op = .identity →
      e.isDots = false → ¬ e.Exposed special →
        (∀ v s₂, evaluate eng fuel e env mask s₁ = .ok v s₂ →
          call = .ok v (s₂.mapDepth (· - 1))) ∧
        ∀ s₀ v s₂, s₁.Deeper 1 s₀ → Unaware eng fuel (fun ev => ev e env mask) s₁ →
          evaluate eng fuel e env mask s₀ = .ok v s₂ → ∃ t, call = .ok v t ∧ t.Deeper 0 s₂ := by
  have hcall := evaluate_builtinCall hdepth hhead
  have hargs : ∀ items s₂, ¬ (Tree.call head args).Exposed (s₁.heap.isSpecialHead env mask) →
      evalSlots (evaluate eng fuel) env mask args s₁ = .ok items s₂ →
        evaluate eng (fuel + 1) (.call head args) env mask s =
          Outcome.leave (runBuiltin eng b items s₂) := by
    intro items s₂ hexposed hitems
    rw [hcall, exposed?_eq_none_iff.2 hexposed]
    simp only [hitems, Outcome.follow_ok_eval]
  refine ⟨hargs, ?rejected, ?identity⟩
  case rejected =>
    intro hexposed
    obtain ⟨m, hm⟩ := Option.isSome_iff_exists.1 (exposed?_isSome_iff.2 hexposed)
    exact ⟨m.kind, by rw [hcall, hm]; rfl⟩
  case identity =>
    rintro name e rfl rfl hop hdots hexposed
    have hnot : ¬ (Tree.call (.reference name) [Named.positional e]).Exposed
        (s₁.heap.isSpecialHead env mask) := by
      rw [Tree.Exposed.call_iff]
      rintro ⟨-, hhead | ⟨slot, hslot, hslotExposed⟩⟩
      · exact Tree.Exposed.not_reference name hhead
      · cases List.mem_singleton.1 hslot
        exact hexposed hslotExposed
    have hwrapped : ∀ v s₂, evaluate eng fuel e env mask s₁ = .ok v s₂ →
        evaluate eng (fuel + 1) (.call (.reference name) [Named.positional e]) env mask s =
          .ok v (s₂.mapDepth (· - 1)) := by
      intro v s₂ hv
      refine (hargs _ s₂ hnot (evalSlots_single hdots hv)).trans ?_
      rw [runBuiltin, hop]
      rfl
    refine ⟨hwrapped, fun s₀ v s₂ hdeeper hunaware hv => ?_⟩
    obtain ⟨t, ht, hback⟩ := hunaware.evaluate_deeper hdeeper hv
    exact ⟨_, hwrapped v t ht, hback.heap, hback.world, congrArg (· - 1) hback.depth⟩

end

theorem quoted_argument_applies :
    let eng : Engine := { host := Session.host }
    let e : Tree := .callNamed "quote" [.unquote (.reference "x")]
    let call : Tree := .callNamed "identity" [e]
    ∃ s₁ v s₂ t, resolveHead (evaluate eng 6) (.reference "identity") 0 none
        (State.withCallables.entering eng.trace call) = .ok (.builtin ⟨.identity, 3⟩) s₁ ∧
      evaluate eng 6 e 0 none .withCallables = .ok v s₂ ∧
      evaluate eng 7 call 0 none .withCallables = .ok v t ∧ t.Deeper 0 s₂ := by
  intro eng e call
  let s₁ := State.withCallables.entering eng.trace call
  have hhead : resolveHead (evaluate eng 6) (.reference "identity") 0 none
      (State.withCallables.entering eng.trace call) = .ok (.builtin ⟨.identity, 3⟩) s₁ := rfl
  have hvalue : (Outcome.value? (evaluate eng 6 e 0 none .withCallables)).isSome = true := by
    decide +kernel
  have hexposed : (s₁.heap.exposed? 0 none e).isNone = true := by decide +kernel
  have hunaware : Unaware eng 6 (fun ev => ev e 0 none) s₁ := by constructor <;> decide +kernel
  have hdeeper : s₁.Deeper 1 .withCallables := ⟨rfl, rfl, rfl⟩
  obtain ⟨v, hv⟩ := Option.isSome_iff_exists.1 hvalue
  have hv := Outcome.eq_ok_of_value? hv
  have hdepth : State.withCallables.depth < eng.maxDepth := by decide
  have hwrapped := (builtinCall_applies hdepth hhead).2.2 _ e rfl rfl rfl rfl
    (exposed?_eq_none_iff.1 (Option.isNone_iff_eq_none.1 hexposed))
  obtain ⟨t, ht, hsame⟩ := hwrapped.2 _ v _ hdeeper hunaware hv
  exact ⟨s₁, v, _, t, hhead, hv, ht, hsame⟩

def State.withDepth : State where
  heap :=
    let h := (({} : Heap).newFrame none false).2
    let h := h.define 0 "identity" (.builtin ⟨.identity, 1⟩)
    h.define 0 "depth" (.special ⟨.host "depth", 2⟩)

def State.withCountedHead : State where
  heap :=
    let h := (({} : Heap).newFrame none false).2
    let h := h.define 0 "id" (.builtin ⟨.identity, 1⟩)
    let h := h.define 0 "cond" (.special ⟨.host "cond", 2⟩)
    let h := h.define 0 "tick" (.builtin ⟨.host "tick", 3⟩)
    let counted : Tree := .callNamed "cond" [.callNamed "tick" [], .reference "id", .reference "id"]
    let h := (h.newPromise { expr := counted, env := 0, mask := none }).2
    h.bind 0 "identity" (.promise 0)

/-- A marker in an argument that a closure captures is exposed, and the call fails although its
argument has a value. An argument that tells its depth has another value in a call, and so has one
that counts after the head has counted. -/
theorem captured_argument_rejected :
    let eng : Engine := { host := Session.host }
    let e : Tree := .callNamed "capture" [.unquote (.reference "x")]
    let call : Tree := .callNamed "identity" [e]
    let depth : Tree := .callNamed "depth" []
    let tick : Tree := .callNamed "tick" []
    let value (t : Tree) (s : State) : Option Int64 :=
      (Outcome.value? (evaluate eng 7 t 0 none s)).bind Value.asInt?
    (∃ s₁ items s₂ t, resolveHead (evaluate eng 6) (.reference "identity") 0 none
        (State.withCallables.entering eng.trace call) = .ok (.builtin ⟨.identity, 3⟩) s₁ ∧
      evalSlots (evaluate eng 6) 0 none [Named.positional e] s₁ = .ok items s₂ ∧
      evaluate eng 7 call 0 none .withCallables =
        .error (.failed (.unresolvedMarker .unquote)) t) ∧
    value depth .withDepth = some 1 ∧ value (.callNamed "identity" [depth]) .withDepth = some 2 ∧
    value tick .withCountedHead = some 1 ∧
      value (.callNamed "identity" [tick]) .withCountedHead = some 2 := by
  intro eng e call depth tick value
  let s₁ := State.withCallables.entering eng.trace call
  have hitems : (Outcome.value? (evalSlots (evaluate eng 6) 0 none [Named.positional e] s₁)).isSome =
      true := by decide +kernel
  obtain ⟨items, hitems⟩ := Option.isSome_iff_exists.1 hitems
  have hcall : Outcome.halt? (evaluate eng 7 call 0 none .withCallables) =
      some (.failed (.unresolvedMarker .unquote)) := by decide +kernel
  refine ⟨⟨s₁, items, _, _, rfl, Outcome.eq_ok_of_value? hitems, Outcome.eq_error_of_halt? hcall⟩,
    ?_, ?_, ?_, ?_⟩ <;> decide +kernel

end Quotation
