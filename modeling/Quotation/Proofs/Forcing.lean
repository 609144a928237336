import Quotation.Proofs.Forcing.Stack
import Quotation.Proofs.Session

namespace Quotation

/-- What it comes to if a promise is forced while a stack of promises is under evaluation. -/
structure ForcedOnce (eng : Engine) (fuel : Nat) (stack : List PromiseId) (p : PromiseId)
    (s : State) : Prop where
  known : ∀ v, (s.heap.promise p).value? = some v → ∀ ev, force ev p s = .ok v s
  nested : p ∈ stack → ∀ ev, force ev p s = .error (.failed .recursivePromise) s
  pending : (s.heap.promise p).value? = none → p ∉ stack →
    (s.heap.beginForce p).Under (p :: stack) ∧ ∀ ev, force ev p s = forceMarked ev p s
  last : ∀ v t, force (evaluate eng fuel) p s = .ok v t →
    ∀ u : State, t.heap.Develops u.heap → ∀ ev, force ev p u = .ok v u

def KeepsStack {α : Type} (eng : Engine) (fuel : Nat) (stack : List PromiseId)
    (op : Evaluator → Eval α) (s : State) : Prop :=
  ∀ alarm, SameUnder stack (op (evaluateTracked eng alarm fuel stack)) (op (evaluate eng fuel)) s

section

variable {eng : Engine} {fuel : Nat} {stack : List PromiseId} {s : State}

theorem KeepsStack.of_related {α : Type} {op : Evaluator → Eval α} (hs : s.heap.Under stack)
    (hop : ∀ {ev₁ ev₂ h₀}, (Lockstep.underStack eng stack h₀).RelatedEvaluators ev₁ ev₂ →
      (Lockstep.underStack eng stack h₀).Related (op ev₁) (op ev₂)) :
    KeepsStack eng fuel stack op s :=
  fun alarm => related_underStack_iff.1
    (fun h₀ => hop (evaluateTracked_related eng alarm fuel stack h₀)) s hs

theorem evaluate_develops (eng : Engine) (fuel : Nat) (hs : s.heap.Under stack) (t : Tree)
    (env : FrameId) (mask : Option Mask) :
    s.heap.Develops (Outcome.state (evaluate eng fuel t env mask s)).heap :=
  (evaluateTracked_same eng (evaluate eng fuel) fuel (Heap.stackAt?_of_under hs) hs).develops

theorem force_records {p : PromiseId} (hs : s.heap.Under stack) (hsize : p < s.heap.promises.size)
    {v : Value} {t : State} (hv : force (evaluate eng fuel) p s = .ok v t) :
    (t.heap.promise p).value? = some v := by
  cases hvalue : (s.heap.promise p).value? with
  | some w =>
    rw [force_apply_of_value _ hvalue] at hv
    cases hv
    exact hvalue
  | none =>
    cases hmark : (s.heap.promise p).forcing with
    | true =>
      rw [force_apply_of_forcing _ hvalue hmark] at hv
      cases hv
    | false =>
      have hin := hs.beginForce ⟨hvalue, hmark⟩ hsize
      have hkept := evaluate_develops eng fuel (s := s.mapHeap (·.beginForce p)) hin
        (s.heap.promise p).expr (s.heap.promise p).env (s.heap.promise p).mask
      rw [force_apply_of_pending _ ⟨hvalue, hmark⟩] at hv
      cases hr : evaluate eng fuel (s.heap.promise p).expr (s.heap.promise p).env
        (s.heap.promise p).mask (s.mapHeap (·.beginForce p)) with
      | error e u =>
        rw [hr] at hv
        cases hv
      | ok w u =>
        rw [hr] at hv hkept
        cases hv
        have hsize' : p < u.heap.promises.size :=
          Nat.lt_of_lt_of_le hsize
            ((Heap.Develops.beginForce s.heap p).trans hkept).promises
        change ((u.heap.finishForce p v).promise p).value? = some v
        rw [Heap.finishForce, Heap.promise_modifyPromise, if_pos ⟨rfl, hsize'⟩]

theorem forcedOnce_of_under {p : PromiseId} (hs : s.heap.Under stack)
    (hsize : p < s.heap.promises.size) : ForcedOnce eng fuel stack p s where
  known v hv ev := force_apply_of_value ev hv
  nested hp ev := force_apply_of_forcing ev (hs.valueless p hp) ((hs.marked p).2 hp)
  pending hv hp := by
    have hpending : (s.heap.promise p).Pending := by
      refine ⟨hv, ?_⟩
      cases hmark : (s.heap.promise p).forcing with
      | false => rfl
      | true => exact absurd ((hs.marked p).1 hmark) hp
    exact ⟨hs.beginForce hpending hsize, fun ev => force_apply_of_pending ev hpending⟩
  last v t hv u hdevelops ev :=
    force_apply_of_value ev (hdevelops.value (force_records hs hsize hv))

end

theorem Heap.under_empty : ({} : Heap).Under [] where
  nodup := List.nodup_nil
  marked p := by simp [promise, default]
  valueless p hp := nomatch hp

theorem Session.start_under (settings : Settings) : (start settings).state.heap.Under [] :=
  (start_keeps (Heap.develops_invariant {} [])
    (fun eng fuel => (evaluateTracked_related eng (evaluate eng fuel) fuel [] _).right)
    ⟨Heap.under_empty, .refl _⟩ settings).1

theorem Session.runAll_develops (s : Session) (steps : List Step) (hs : s.state.heap.Under []) :
    (s.runAll steps).state.heap.Under [] ∧
      s.state.heap.Develops (s.runAll steps).state.heap :=
  runAll_keeps (Heap.develops_invariant s.state.heap [])
    (fun eng fuel => (evaluateTracked_related eng (evaluate eng fuel) fuel [] _).right)
    s steps ⟨hs, .refl _⟩

theorem Session.runAll_append (s : Session) (steps more : List Step) :
    s.runAll (steps ++ more) = (s.runAll steps).runAll more := List.foldl_append

/-- Between the steps of a session no promise is marked, and what has a value then keeps it and is
not evaluated again. During a step, where the promises marked are those of a stack, no operation of
the engine makes a difference to that: it marks a promise for as long as it evaluates its tree, and
that happens only while the promise has no value and no mark. -/
theorem promises_evaluated_once (s : Session) (hs : s.state.heap.Under [])
    (steps more : List Session.Step) :
    (let t := (s.runAll steps).state
     let u := (s.runAll (steps ++ more)).state
     t.heap.Under [] ∧ u.heap.Under [] ∧ t.heap.Develops u.heap ∧
      ∀ p v, (t.heap.promise p).value? = some v → ∀ ev, force ev p u = .ok v u) ∧
    ∀ (eng : Engine) (fuel : Nat) (stack : List PromiseId) (u : State), u.heap.Under stack →
      (∀ p < u.heap.promises.size, ForcedOnce eng fuel stack p u) ∧
      (∀ t env mask, KeepsStack eng fuel stack (fun ev => ev t env mask) u) ∧
      (∀ t env mask, KeepsStack eng fuel stack (fun ev => resolve eng ev t env mask) u) ∧
      (∀ p, KeepsStack eng fuel stack (fun ev => force ev p) u) ∧
      (∀ func args env mask,
        KeepsStack eng fuel stack (fun ev => apply eng ev func args env mask) u) ∧
      (∀ args env mask, KeepsStack eng fuel stack (fun ev => evalSlots ev env mask args) u) ∧
      (∀ args env mask,
        KeepsStack eng fuel stack (fun ev => evalDynamicSlots eng ev env mask args) u) ∧
      (∀ head args env,
        KeepsStack eng fuel stack (fun ev => buildCall eng ev head args env) u) ∧
      (∀ env name, KeepsStack eng fuel stack (fun _ => captureParameter env name) u) ∧
      ∀ env, KeepsStack eng fuel stack (fun _ => captureDots env) u := by
  refine ⟨?sessions, fun eng fuel stack u hu => ?operations⟩
  case sessions =>
    have ht := s.runAll_develops steps hs
    have hu := (s.runAll steps).runAll_develops more ht.1
    rw [Session.runAll_append]
    exact ⟨ht.1, hu.1, hu.2, fun p v hv ev => force_apply_of_value ev (hu.2.value hv)⟩
  case operations =>
    refine ⟨fun p hp => forcedOnce_of_under hu hp, ?evaluate, ?resolve, ?force, ?apply, ?arguments,
      ?dynamicArguments, ?buildCall, ?capture, ?captureDots⟩
    case evaluate => exact fun t env mask => .of_related hu fun hev => hev t env mask
    case resolve =>
      exact fun t env mask => .of_related hu fun hev => resolve_related hev t env mask
    case force => exact fun p => .of_related hu fun hev => force_related hev p
    case apply =>
      exact fun func args env mask =>
        .of_related hu fun hev => apply_related hev func args env mask
    case arguments =>
      exact fun args env mask => .of_related hu fun hev => evalSlots_related hev env mask args
    case dynamicArguments =>
      exact fun args env mask =>
        .of_related hu fun hev => evalDynamicSlots_related hev env mask args
    case buildCall =>
      exact fun head args env =>
        .of_related hu fun hev => buildCall_related hev head args env
    case capture => exact fun env name => .of_related hu fun _ => captureParameter_related env name
    case captureDots => exact fun env => .of_related hu fun _ => captureDots_related env

theorem counted_evaluated_once :
    let s := Session.start { prelude := false, hosts := ["tick"] }
    let steps : List Session.Step :=
      [.makePromise "p" (.call (.reference "tick") []) "global" none, .force "p", .force "p"]
    s.state.heap.Under [] ∧ (s.runAll steps).state.world.ticks = 1 ∧
      ∃ v, v.asInt? = some 1 ∧ ∀ more ev, force ev 0 (s.runAll (steps ++ more)).state =
        .ok v (s.runAll (steps ++ more)).state := by
  intro s steps
  have hs : s.state.heap.Under [] := Session.start_under _
  have hticks : (s.runAll steps).state.world.ticks = 1 := by decide +kernel
  have hint : ((s.runAll steps).state.heap.promise 0).value?.bind Value.asInt? = some 1 := by
    decide +kernel
  obtain ⟨v, hvalue, hint⟩ := Option.bind_eq_some_iff.1 hint
  exact ⟨hs, hticks, v, hint, fun more ev =>
    (promises_evaluated_once s hs steps more).1.2.2.2 0 v hvalue ev⟩

end Quotation
