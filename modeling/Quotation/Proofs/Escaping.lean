import Quotation.Proofs.Raised

/-! Errors that nothing catches on their way. Of several failures with one error some may be caught
and others not, so they are followed one by one: where a built-in function fails, the failure travels
as a stop, and it becomes the error again only where a special of the host, or a marker that is
reported, may catch it. If it does, the run goes on, and a later failure can escape. -/

namespace Quotation

/-- Goes on after a computation. After one that was stopped it goes on as after the error, and it is
stopped in turn if it ends with that error. -/
def Eval.resume {α β : Type} (e : Error) (x : Eval α) (next : Except Error α → Eval β) : Eval β :=
  fun s =>
    match x s with
    | .ok a t => next (.ok a) t
    | .error (.failed e') t => next (.error e') t
    | .error .outOfFuel t => (next (.error e)).stopAt e t

section

variable (eng : Engine) (e : Error) (ev : Evaluator)

def runRoutineCarrying {α : Type} : Routine α → Eval α
  | .done a => return a
  | .fail e' => Eval.fail e'
  | .ask d next => (answer eng ev d).resume e fun r => runRoutineCarrying (next r)
  | .inspect next => do
    let h ← Eval.heap
    runRoutineCarrying (next h)
  | .newFrame parent isCall next => do
    let f ← Eval.onHeap (·.newFrame parent isCall)
    runRoutineCarrying (next f)
  | .newPromise expr env mask next => do
    let p ← Eval.onHeap (·.newPromise { expr, env, mask })
    runRoutineCarrying (next p)
  | .rebind env name b next => do
    Eval.modifyHeap (·.rebind env name b)
    runRoutineCarrying next
  | .identity next => do
    let i ← Eval.freshIdentity
    runRoutineCarrying (next i)
  | .depth next => do
    let n ← Eval.depth
    runRoutineCarrying (next n)

def applyCarrying (func : Value) (args : List Slot) (env : FrameId) (mask : Option Mask) :
    Eval Value := do
  match func with
  | .builtin b =>
    let items ← evalSlots ev env mask args
    (runBuiltin eng b items).stopAt e
  | .special s => runRoutineCarrying eng e ev (s.op.routine eng.host.special ⟨args, env, mask⟩)
  | .closure c => applyClosure eng ev c args env mask
  | v => Eval.fail (.notCallable v.typeName)

def headOr (t : Tree) (env : FrameId) (mask : Option Mask) : Except Error Value → Eval Value
  | .ok func => return func
  | .error e' => do
    rejectExposed t env mask
    Eval.fail e'

def callHeadCarrying (head : Tree) (args : List Slot) (env : FrameId) (mask : Option Mask) :
    Eval Value :=
  (resolveHead ev head env mask).resume e (headOr (.call head args) env mask)

def evaluateCallCarrying (head : Tree) (args : List Slot) (env : FrameId) (mask : Option Mask) :
    Eval Value := do
  let depth ← Eval.depth
  Eval.trace eng.trace ("eval " ++ (Tree.call head args).text ++ " at depth " ++ toString depth)
  let func ← callHeadCarrying e ev head args env mask
  rejectMarkers func (.call head args) env mask
  applyCarrying eng e ev func args env mask

def evaluateStepCarrying (t : Tree) (env : FrameId) (mask : Option Mask) : Eval Value :=
  match t with
  | .call head args =>
    Eval.nested eng.maxDepth (evaluateCallCarrying eng e ev head args env mask)
  | t => evaluateStep eng ev t env mask

end

/-- Evaluation in which a failure of a built-in function travels as a stop. -/
def evaluateCarrying (eng : Engine) (e : Error) : Nat → Evaluator
  | 0, _, _, _ => throw .outOfFuel
  | fuel + 1, t, env, mask => evaluateStepCarrying eng e (evaluateCarrying eng e fuel) t env mask

/-- An operation comes to an end, and in its course a built-in function fails with an error that is
not caught on its way: wherever a special of the host, or a report of a marker, goes on after it,
that ends with the error again. -/
def EscapesIn {α : Type} (eng : Engine) (fuel : Nat) (e : Error) (op : Evaluator → Eval α)
    (s : State) : Prop :=
  Outcome.halt? (op (evaluate eng fuel) s) ≠ some .outOfFuel ∧
    Outcome.halt? (op (evaluateCarrying eng e fuel) s) = some .outOfFuel

/-- Two runs that are one and the same, but that the right one may be stopped for the error that the
left one fails with. -/
def Lockstep.carrying (eng : Engine) (e : Error) : Lockstep eng eng :=
  { Lockstep.sameUntil eng fun _ => False with carries := (· = e) }

instance (eng : Engine) (e : Error) : (Lockstep.carrying eng e).Forces where
  force := by
    rintro _ s _ q rfl -
    refine ⟨(), rfl, ?_⟩
    rintro t _ rfl
    exact ⟨fun _ => rfl, rfl⟩

section

variable {eng : Engine} {e : Error} {α : Type} {ev₁ ev₂ : Evaluator}

theorem stopAt_carried {o : Unit} {x y : Outcome α} (h : (Lockstep.carrying eng e).Ends o x y) :
    (Lockstep.carrying eng e).Ends o x (y.stopAt e) := by
  cases h with
  | ok h => exact .ok h
  | @failed e' _ _ h =>
    simp only [Outcome.stopAt]
    split
    · rename_i heq
      exact .carried h heq
    · exact .failed h trivial
  | outOfFuel h => exact .outOfFuel h
  | excused h => exact .excused h
  | carried h he => exact .carried h he

theorem resume_related {β : Type} {x y : Eval α} {f g : Except Error α → Eval β}
    (hxy : (Lockstep.carrying eng e).Related x y)
    (hfg : ∀ r, (Lockstep.carrying eng e).Related (f r) (g r)) :
    (Lockstep.carrying eng e).Related (x.attempt >>= f) (y.resume e g) := by
  intro o s₁ s₂ hs
  have hends := hxy o s₁ s₂ hs
  rw [Eval.bind_apply, Eval.attempt_apply, Eval.resume]
  generalize x s₁ = r₁ at hends
  generalize y s₂ = r₂ at hends
  cases hends with
  | ok h => exact hfg _ o _ _ h
  | failed h => exact hfg _ o _ _ h
  | outOfFuel => exact .excused trivial
  | @excused halt _ _ he =>
    cases halt with
    | outOfFuel => exact .excused trivial
    | failed e' => exact he.elim
  | carried h he =>
    subst he
    exact stopAt_carried (hfg _ o _ _ h)

theorem callHead_eq_attempt (ev : Evaluator) (head : Tree) (args : List Slot) (env : FrameId)
    (mask : Option Mask) :
    callHead ev head args env mask =
      (resolveHead ev head env mask).attempt >>= headOr (.call head args) env mask := by
  funext s
  rw [callHead, Eval.tryCatch_apply, Eval.bind_apply, Eval.attempt_apply]
  cases resolveHead ev head env mask s with
  | ok func t => rfl
  | error h t => cases h <;> rfl

variable (hev : (Lockstep.carrying eng e).RelatedEvaluators ev₁ ev₂)

include hev

theorem runRoutineCarrying_related (plan : Routine α) :
    (Lockstep.carrying eng e).Related (runRoutine eng ev₁ plan)
      (runRoutineCarrying eng e ev₂ plan) := by
  induction plan with
  | done a => exact .pure a
  | fail e => exact .fail trivial
  | ask d next ih => exact resume_related (answer_related hev d) ih
  | inspect next ih => exact .heap ih
  | newFrame parent isCall next ih =>
    rintro _ s _ rfl
    exact ih _ () _ _ rfl
  | newPromise expr env mask next ih =>
    rintro _ s _ rfl
    exact ih _ () _ _ rfl
  | rebind env name b next ih =>
    rintro _ s _ rfl
    exact ih () _ _ rfl
  | identity next ih => exact Lockstep.Related.bind .identity ih
  | depth next ih => exact .depth trivial ih

theorem applyCarrying_related (func : Value) (args : List Slot) (env : FrameId)
    (mask : Option Mask) :
    (Lockstep.carrying eng e).Related (apply eng ev₁ func args env mask)
      (applyCarrying eng e ev₂ func args env mask) := by
  cases func with
  | builtin b =>
    refine (evalSlots_related hev env mask args).bind fun items o s₁ s₂ hs => ?_
    exact stopAt_carried (runBuiltin_related b items o s₁ s₂ hs)
  | special s => exact runRoutineCarrying_related hev _
  | closure c => exact applyClosure_related hev c args env mask
  | _ => exact .failPlain rfl

theorem callHeadCarrying_related (head : Tree) (args : List Slot) (env : FrameId)
    (mask : Option Mask) :
    (Lockstep.carrying eng e).Related (callHead ev₁ head args env mask)
      (callHeadCarrying e ev₂ head args env mask) := by
  rw [callHead_eq_attempt]
  refine resume_related (resolveHead_related hev head env mask) fun r => ?_
  cases r with
  | ok func => exact .pure func
  | error e' =>
    refine Lockstep.Related.bind (rejectExposed_related _ env mask) fun _ => ?_
    exact Lockstep.Related.fail (L := .carrying eng e) trivial

theorem evaluateStepCarrying_related (t : Tree) (env : FrameId) (mask : Option Mask) :
    (Lockstep.carrying eng e).Related (evaluateStep eng ev₁ t env mask)
      (evaluateStepCarrying eng e ev₂ t env mask) := by
  cases t with
  | literal v => exact .pure v
  | reference name => exact lookupVariable_related hev name env mask
  | call head args =>
    refine .nested (.traceDepth _ ?_)
    refine (callHeadCarrying_related hev head args env mask).bind fun func => ?_
    exact (rejectMarkers_related func _ env mask).bind fun _ =>
      applyCarrying_related hev func args env mask
  | pairlist args => exact (evalSlots_related hev env mask args).bind fun items => .pure _
  | unquote e => exact .failPlain rfl
  | splice e => exact .failPlain rfl
  | define n v => exact .failPlain rfl

omit hev in
theorem evaluateCarrying_related (eng : Engine) (e : Error) (fuel : Nat) :
    (Lockstep.carrying eng e).RelatedEvaluators (evaluate eng fuel)
      (evaluateCarrying eng e fuel) := by
  induction fuel with
  | zero => exact .ofEval fun _ _ _ _ _ _ h => .outOfFuel h
  | succ fuel ih => exact .ofEval fun t env mask => evaluateStepCarrying_related ih t env mask

omit hev in
theorem EscapesIn.halt {fuel : Nat} {op : Evaluator → Eval α} {s : State}
    (h : EscapesIn eng fuel e op s)
    (hop : (Lockstep.carrying eng e).Related (op (evaluate eng fuel))
      (op (evaluateCarrying eng e fuel))) :
    Outcome.halt? (op (evaluate eng fuel) s) = some (.failed e) := by
  obtain ⟨hend, hstop⟩ := h
  have hends := hop () s s rfl
  generalize op (evaluate eng fuel) s = x at hends hend ⊢
  generalize op (evaluateCarrying eng e fuel) s = y at hends hstop
  cases hends with
  | ok | failed => cases hstop
  | outOfFuel => exact absurd rfl hend
  | @excused halt _ _ he =>
    cases halt with
    | outOfFuel => exact absurd rfl hend
    | failed e' => exact he.elim
  | carried _ he => rw [he]; rfl

end

/-- An error that a built-in function fails with, anywhere in the course of an evaluation or a
substitution, is the error of the whole operation if nothing catches it on its way, whatever became
of other failures with the same error; so it is if no failure with it is caught at all. Where the
specials of the host pass it on, and a marker, nothing but a marker can be reported in its place. -/
theorem raised_error_ends_run (eng : Engine) (fuel : Nat) (e : Error) (t : Tree) (env : FrameId)
    (mask : Option Mask) (s : State) :
    (EscapesIn eng fuel e (fun ev => ev t env mask) s →
      Outcome.halt? (evaluate eng fuel t env mask s) = some (.failed e)) ∧
    (EscapesIn eng fuel e (fun ev => resolve eng ev t env mask) s →
      Outcome.halt? (resolve eng (evaluate eng fuel) t env mask s) = some (.failed e)) ∧
    (RaisedIn eng fuel e (fun ev => ev t env mask) s →
      ¬ CaughtIn eng fuel e (fun ev => ev t env mask) s →
        Outcome.halt? (evaluate eng fuel t env mask s) = some (.failed e)) ∧
    (RaisedIn eng fuel e (fun ev => resolve eng ev t env mask) s →
      ¬ CaughtIn eng fuel e (fun ev => resolve eng ev t env mask) s →
        Outcome.halt? (resolve eng (evaluate eng fuel) t env mask s) = some (.failed e)) ∧
    (eng.host.PassesOn (fun e' => e' = e ∨ ∃ k, e' = .unresolvedMarker k) True →
      (RaisedIn eng fuel e (fun ev => ev t env mask) s →
        Outcome.halt? (evaluate eng fuel t env mask s) = some (.failed e) ∨
          ∃ k, Outcome.halt? (evaluate eng fuel t env mask s) =
            some (.failed (.unresolvedMarker k))) ∧
      (RaisedIn eng fuel e (fun ev => resolve eng ev t env mask) s →
        Outcome.halt? (resolve eng (evaluate eng fuel) t env mask s) = some (.failed e) ∨
          ∃ k, Outcome.halt? (resolve eng (evaluate eng fuel) t env mask s) =
            some (.failed (.unresolvedMarker k)))) := by
  have hevaluate : ∀ {p : Error → Prop} {ev₁ ev₂},
      (Lockstep.sameUntil eng p).RelatedEvaluators ev₁ ev₂ →
        (Lockstep.sameUntil eng p).Related (ev₁ t env mask) (ev₂ t env mask) :=
    fun hev => hev t env mask
  have hresolve : ∀ {p : Error → Prop} {ev₁ ev₂},
      (Lockstep.sameUntil eng p).RelatedEvaluators ev₁ ev₂ →
        (Lockstep.sameUntil eng p).Related (resolve eng ev₁ t env mask)
          (resolve eng ev₂ t env mask) := fun hev => resolve_related hev t env mask
  have hcarrying := evaluateCarrying_related eng e fuel
  refine ⟨?evaluateEscaped, ?resolveEscaped, ?evaluate, ?resolve,
    fun hhost => ⟨?evaluatePassed, ?resolvePassed⟩⟩
  case evaluateEscaped => exact fun h => h.halt (hcarrying t env mask)
  case resolveEscaped => exact fun h => h.halt (resolve_related hcarrying t env mask)
  case evaluate => exact fun h hcaught => h.halt_of_not_caught hevaluate hcaught
  case resolve => exact fun h hcaught => h.halt_of_not_caught hresolve hcaught
  case evaluatePassed => exact fun h => h.halt_of_passesOn hevaluate hhost
  case resolvePassed => exact fun h => h.halt_of_passesOn hresolve hhost

def Tree.failing (text : String) : Tree :=
  .call (.literal (.builtin ⟨.host "fail", 0⟩)) [Named.positional (.literal (.str text))]

theorem raised_error_ends_list_call :
    let eng : Engine := { host := Session.catching }
    let list : Tree := .literal (.builtin ⟨.list, 1⟩)
    let e : Error := .host "boom"
    let caught : Tree :=
      .call (.literal (.special ⟨.host "try", 2⟩)) [Named.positional (.failing "boom")]
    let t : Tree := .call list [Named.positional caught, Named.positional (.failing "boom")]
    let u : Tree := .call list [Named.positional (.unquote (.failing "boom"))]
    Outcome.value? (evaluate eng 3 caught 0 none {}) = some .null ∧
      CaughtIn eng 4 e (fun ev => ev t 0 none) {} ∧
      Outcome.halt? (evaluate eng 4 t 0 none {}) = some (.failed e) ∧
      ¬ CaughtIn eng 3 e (fun ev => resolve eng ev u 0 none) {} ∧
      Outcome.halt? (resolve eng (evaluate eng 3) u 0 none {}) = some (.failed e) := by
  intro eng list e caught t u
  have ht : EscapesIn eng 4 e (fun ev => ev t 0 none) {} := by
    constructor <;> decide +kernel
  have ht' : CaughtIn eng 4 e (fun ev => ev t 0 none) {} := by
    constructor <;> decide +kernel
  have hu : RaisedIn eng 3 e (fun ev => resolve eng ev u 0 none) {} := by
    constructor <;> decide +kernel
  have hu' : ¬ CaughtIn eng 3 e (fun ev => resolve eng ev u 0 none) {} := by
    rintro ⟨-, h⟩
    revert h
    decide +kernel
  exact ⟨rfl, ht', (raised_error_ends_run eng 4 e t 0 none {}).1 ht,
    hu', (raised_error_ends_run eng 3 e u 0 none {}).2.2.2.1 hu hu'⟩

/-- A failure in the head of a call with a marker is not what is reported, although no special could
have caught it. -/
theorem marker_replaces_raised_error :
    let eng : Engine := { host := Session.host }
    let e : Error := .host "boom"
    let t : Tree := .call (.failing "boom") [Named.positional (.unquote (.reference "x"))]
    RaisedIn eng 3 e (fun ev => ev t 0 none) {} ∧ Session.host.PassesOn (fun _ => True) True ∧
      Outcome.halt? (evaluate eng 3 t 0 none {}) = some (.failed (.unresolvedMarker .unquote)) := by
  intro eng e t
  refine ⟨⟨?_, ?_⟩, Session.host_passesOn _, ?_⟩
  all_goals decide +kernel

end Quotation
