import Quotation.Proofs.Lockstep.Engine
import Quotation.Proofs.Passing

/-! What becomes of an error that a built-in function fails with. To tell whether one does so in the
course of a run, the run is stopped there: a stopped run is out of fuel, which nothing catches. In
the same way it is told whether the error is caught on its way, by a special of the host that goes
on after it, or by a call that reports a marker where its head could not be had. An error that is
not caught is the error of the whole run, wherever the function was called. -/

namespace Quotation

/-- Where a run is stopped for the sake of an error. -/
structure Stops where
  raised : Bool := false
  caught : Bool := false

namespace Outcome

variable {α : Type}

def stopAt (e : Error) : Outcome α → Outcome α
  | .error (.failed e') s => .error (if e' = e then .outOfFuel else .failed e') s
  | r => r

def stopUnless (e : Error) : Outcome α → Outcome α
  | .error (.failed e') s => .error (if e' = e then .failed e' else .outOfFuel) s
  | r => .error .outOfFuel r.state

end Outcome

def Eval.stopAt {α : Type} (e : Error) (act : Eval α) : Eval α := fun s => Outcome.stopAt e (act s)

def Eval.stopUnless {α : Type} (e : Error) (act : Eval α) : Eval α := fun s =>
  Outcome.stopUnless e (act s)

def failure? {α : Type} : Except Error α → Option Error
  | .ok _ => none
  | .error e => some e

section

variable (eng : Engine) (e : Error) (stops : Stops) (ev : Evaluator)

def afterUntil {α : Type} (failure : Option Error) (act : Eval α) : Eval α :=
  if stops.caught && failure == some e then act.stopUnless e else act

def runRoutineUntil {α : Type} : Routine α → Eval α
  | .done a => return a
  | .fail e' => Eval.fail e'
  | .ask d next => do
    let r ← (answer eng ev d).attempt
    afterUntil e stops (failure? r) (runRoutineUntil (next r))
  | .inspect next => do
    let h ← Eval.heap
    runRoutineUntil (next h)
  | .newFrame parent isCall next => do
    let f ← Eval.onHeap (·.newFrame parent isCall)
    runRoutineUntil (next f)
  | .newPromise expr env mask next => do
    let p ← Eval.onHeap (·.newPromise { expr, env, mask })
    runRoutineUntil (next p)
  | .rebind env name b next => do
    Eval.modifyHeap (·.rebind env name b)
    runRoutineUntil next
  | .identity next => do
    let i ← Eval.freshIdentity
    runRoutineUntil (next i)
  | .depth next => do
    let n ← Eval.depth
    runRoutineUntil (next n)

def runBuiltinUntil (b : Builtin) (args : List Item) : Eval Value :=
  if stops.raised then (runBuiltin eng b args).stopAt e else runBuiltin eng b args

def applyUntil (func : Value) (args : List Slot) (env : FrameId) (mask : Option Mask) :
    Eval Value := do
  match func with
  | .builtin b =>
    let items ← evalSlots ev env mask args
    runBuiltinUntil eng e stops b items
  | .special s => runRoutineUntil eng e stops ev (s.op.routine eng.host.special ⟨args, env, mask⟩)
  | .closure c => applyClosure eng ev c args env mask
  | v => Eval.fail (.notCallable v.typeName)

def callHeadUntil (head : Tree) (args : List Slot) (env : FrameId) (mask : Option Mask) :
    Eval Value := do
  try resolveHead ev head env mask
  catch
    | .outOfFuel => throw .outOfFuel
    | .failed e' => afterUntil e stops (some e') do
      rejectExposed (.call head args) env mask
      Eval.fail e'

def evaluateCallUntil (head : Tree) (args : List Slot) (env : FrameId) (mask : Option Mask) :
    Eval Value := do
  let depth ← Eval.depth
  Eval.trace eng.trace ("eval " ++ (Tree.call head args).text ++ " at depth " ++ toString depth)
  let func ← callHeadUntil e stops ev head args env mask
  rejectMarkers func (.call head args) env mask
  applyUntil eng e stops ev func args env mask

def evaluateStepUntil (t : Tree) (env : FrameId) (mask : Option Mask) : Eval Value :=
  match t with
  | .call head args =>
    Eval.nested eng.maxDepth (evaluateCallUntil eng e stops ev head args env mask)
  | t => evaluateStep eng ev t env mask

end

def evaluateUntil (eng : Engine) (e : Error) (stops : Stops) : Nat → Evaluator
  | 0, _, _, _ => throw .outOfFuel
  | fuel + 1, t, env, mask =>
    evaluateStepUntil eng e stops (evaluateUntil eng e stops fuel) t env mask

theorem runRoutineUntil_nowhere (eng : Engine) (e : Error) (ev : Evaluator) {α : Type}
    (r : Routine α) : runRoutineUntil eng e {} ev r = runRoutine eng ev r := by
  induction r with
  | done | fail => rfl
  | rebind _ _ _ _ ih => simp only [runRoutineUntil, runRoutine, ih]
  | ask _ _ ih => simp only [runRoutineUntil, runRoutine, afterUntil, Bool.false_and, ih]; rfl
  | inspect _ ih | newFrame _ _ _ ih | newPromise _ _ _ _ ih | identity _ ih | depth _ ih =>
    simp only [runRoutineUntil, runRoutine, ih]

theorem evaluateUntil_nowhere (eng : Engine) (e : Error) (fuel : Nat) :
    evaluateUntil eng e {} fuel = evaluate eng fuel := by
  induction fuel with
  | zero => rfl
  | succ fuel ih =>
    funext t env mask
    simp only [evaluateUntil, evaluate, ih]
    cases t with
    | call head args =>
      have happly : applyUntil eng e {} (evaluate eng fuel) = apply eng (evaluate eng fuel) := by
        funext func args env mask
        cases func with
        | special s => exact runRoutineUntil_nowhere eng e _ _
        | _ => rfl
      simp only [evaluateStepUntil, evaluateStep, evaluateCallUntil, happly]
      rfl
    | _ => rfl

/-- Two runs that are one and the same until the left one is stopped, or fails with one of certain
errors. -/
def Lockstep.sameUntil (eng : Engine) (p : Error → Prop) : Lockstep eng eng where
  Origin := Unit
  rel _ s₁ s₂ := s₁ = s₂
  excused
    | .failed e => p e
    | .outOfFuel => True
  err _ := True
  write _ _ _ := True
  reads := True
  host := .refl eng
  heap h := congrArg State.heap h
  world h := congrArg State.world h
  depth _ h := congrArg State.depth h
  plain _ := trivial
  builtin _ := trivial
  setWorld h w := by rw [h]
  debug h m := by rw [h]
  trace h m := by rw [h]
  enter := by
    rintro _ s _ rfl hlt
    exact ⟨hlt, (), rfl, fun _ _ ht => by rw [ht]⟩
  overflow h _ := .inr ⟨rfl, congrArg State.depth h, trivial⟩
  capture h p := by rw [h]
  promise h expr env mask := by rw [h]
  frame h parent isCall := by rw [h]
  formals h parent formals m := by rw [h]
  rebind h _ := by rw [h]

instance (eng : Engine) (p : Error → Prop) : (Lockstep.sameUntil eng p).Forces where
  force := by
    rintro _ s _ q rfl -
    refine ⟨(), rfl, ?_⟩
    rintro t _ rfl
    exact ⟨fun _ => rfl, rfl⟩

/-- Two ways of stopping can be compared if the left one stops wherever the right one does, or
excuses the error, and nothing that is excused is caught before the left run stops. -/
structure Stops.Compares (eng : Engine) (e : Error) (l r : Stops) (p : Error → Prop) : Prop where
  raised : r.raised = true → l.raised = true ∨ p e
  caught : r.caught = true → l.caught = true
  passed : (∀ e', p e' → l.caught = true ∧ e' = e) ∨ (Lockstep.sameUntil eng p).Passes

section

variable {eng : Engine} {e : Error} {l r : Stops} {p : Error → Prop} {α : Type}
  {ev₁ ev₂ : Evaluator}

theorem ends_refl (x : Outcome α) : (Lockstep.sameUntil eng p).Ends () x x := by
  cases x with
  | ok a s => exact .ok rfl
  | error h s =>
    cases h with
    | failed e => exact .failed rfl trivial
    | outOfFuel => exact .outOfFuel rfl

theorem stopAt_ends (x : Outcome α) :
    (Lockstep.sameUntil eng p).Ends () (x.stopAt e) x ∧
      (p e → (Lockstep.sameUntil eng p).Ends () x (x.stopAt e)) := by
  cases x with
  | ok a s => exact ⟨.ok rfl, fun _ => .ok rfl⟩
  | error h s =>
    cases h with
    | outOfFuel => exact ⟨.outOfFuel rfl, fun _ => .outOfFuel rfl⟩
    | failed e' =>
      simp only [Outcome.stopAt]
      split
      · rename_i heq
        exact ⟨.excused trivial, fun he => .excused (heq ▸ he)⟩
      · exact ⟨.failed rfl trivial, fun _ => .failed rfl trivial⟩

theorem stopUnless_ends {o : Unit} {x y : Outcome α} (h : (Lockstep.sameUntil eng p).Ends o x y) :
    (Lockstep.sameUntil eng p).Ends o (x.stopUnless e) y ∧
      (Lockstep.sameUntil eng p).Ends o (x.stopUnless e) (y.stopUnless e) := by
  cases h with
  | ok | outOfFuel => exact ⟨.excused trivial, .excused trivial⟩
  | failed h =>
    simp only [Outcome.stopUnless]
    split
    · exact ⟨.failed h trivial, .failed h trivial⟩
    · exact ⟨.excused trivial, .excused trivial⟩
  | @excused halt _ _ he =>
    cases halt with
    | outOfFuel => exact ⟨.excused trivial, .excused trivial⟩
    | failed e' =>
      simp only [Outcome.stopUnless]
      split
      · exact ⟨.excused he, .excused he⟩
      · exact ⟨.excused trivial, .excused trivial⟩
  | carried _ he => exact he.elim

variable (hc : l.Compares eng e r p)

include hc

theorem afterUntil_related (failure : Option Error) {x y : Eval α}
    (h : (Lockstep.sameUntil eng p).Related x y) :
    (Lockstep.sameUntil eng p).Related (afterUntil e l failure x) (afterUntil e r failure y) := by
  unfold afterUntil
  cases hr : r.caught with
  | true =>
    rw [hc.caught hr]
    split
    · exact fun o s₁ s₂ hs => (stopUnless_ends (h o s₁ s₂ hs)).2
    · exact h
  | false =>
    split
    · exact fun o s₁ s₂ hs => (stopUnless_ends (h o s₁ s₂ hs)).1
    · exact h

theorem afterUntil_excused {e' : Error} (he : p e') (act : Eval α)
    (hact : (Lockstep.sameUntil eng p).Passes →
      ∀ s, ∃ e'' t, act s = .error (.failed e'') t ∧ p e'') (s : State) :
    ∃ h t, afterUntil e l (some e') act s = .error h t ∧
      (Lockstep.sameUntil eng p).excused h := by
  unfold afterUntil
  split
  · rename_i hcaught
    obtain ⟨-, rfl⟩ : l.caught = true ∧ e' = e := by simpa using hcaught
    unfold Eval.stopUnless Outcome.stopUnless
    split
    · split
      · rename_i heq
        exact ⟨_, _, rfl, heq ▸ he⟩
      · exact ⟨_, _, rfl, trivial⟩
    · exact ⟨_, _, rfl, trivial⟩
  · rename_i hcaught
    rcases hc.passed with hwatched | hpasses
    · exact absurd (by simpa using hwatched e' he) hcaught
    · obtain ⟨e'', t, heq, he''⟩ := hact hpasses s
      exact ⟨_, t, heq, he''⟩

theorem attemptUntil_related {β : Type} {x y : Eval α} {f g : Except Error α → Eval β}
    (hxy : (Lockstep.sameUntil eng p).Related x y)
    (hfg : ∀ r, (Lockstep.sameUntil eng p).Related (f r) (g r))
    (hpass : (Lockstep.sameUntil eng p).Passes → ∀ e', p e' → f (.error e') = Eval.fail e') :
    (Lockstep.sameUntil eng p).Related
      (x.attempt >>= fun a => afterUntil e l (failure? a) (f a))
      (y.attempt >>= fun a => afterUntil e r (failure? a) (g a)) := by
  intro o s₁ s₂ hs
  have hends := hxy o s₁ s₂ hs
  rw [Eval.bind_apply, Eval.bind_apply, Eval.attempt_apply, Eval.attempt_apply]
  generalize x s₁ = r₁ at hends
  generalize y s₂ = r₂ at hends
  cases hends with
  | ok h => exact afterUntil_related hc _ (hfg _) o _ _ h
  | failed h => exact afterUntil_related hc _ (hfg _) o _ _ h
  | outOfFuel h => exact .outOfFuel h
  | @excused halt t _ he =>
    cases halt with
    | outOfFuel => exact .excused trivial
    | failed e' =>
      obtain ⟨h, u, heq, hu⟩ := afterUntil_excused hc he (f (.error e'))
        (fun hpasses s => ⟨e', s, by rw [hpass hpasses e' he]; rfl, he⟩) t
      simp only [Outcome.follow_ok_eval, failure?, heq]
      exact .excused hu
  | carried _ he => exact he.elim

theorem runBuiltinUntil_related (b : Builtin) (args : List Item) :
    (Lockstep.sameUntil eng p).Related (runBuiltinUntil eng e l b args)
      (runBuiltinUntil eng e r b args) := by
  rintro _ s _ rfl
  unfold runBuiltinUntil
  cases hr : r.raised with
  | false =>
    split
    · exact (stopAt_ends _).1
    · exact ends_refl _
  | true =>
    split
    · exact ends_refl _
    · rename_i hl
      exact (stopAt_ends _).2 ((hc.raised hr).resolve_left hl)

variable (hev : (Lockstep.sameUntil eng p).RelatedEvaluators ev₁ ev₂)

include hev

theorem runRoutineUntil_related (plan : Routine α)
    (hplan : (Lockstep.sameUntil eng p).Passes →
      plan.Confined (fun _ => True) (fun _ _ _ => True) p True) :
    (Lockstep.sameUntil eng p).Related (runRoutineUntil eng e l ev₁ plan)
      (runRoutineUntil eng e r ev₂ plan) := by
  induction plan with
  | done a => exact .pure a
  | fail e => exact .fail trivial
  | ask d next ih =>
    refine attemptUntil_related hc (answer_related hev d)
      (fun a => ih a fun hpasses => (hplan hpasses).2 a fun _ _ => trivial) fun hpasses e' he => ?_
    rw [(hplan hpasses).1 e' he]
    rfl
  | inspect next ih => exact .heap fun h => ih h fun hpasses => hplan hpasses h
  | newFrame parent isCall next ih =>
    rintro _ s _ rfl
    exact ih _ (fun hpasses => hplan hpasses _) () _ _ rfl
  | newPromise expr env mask next ih =>
    rintro _ s _ rfl
    exact ih _ (fun hpasses => hplan hpasses _) () _ _ rfl
  | rebind env name b next ih =>
    rintro _ s _ rfl
    exact ih (fun hpasses => (hplan hpasses).2) () _ _ rfl
  | identity next ih =>
    exact Lockstep.Related.bind .identity fun i => ih i fun hpasses => hplan hpasses i
  | depth next ih => exact .depth trivial fun n => ih n fun hpasses => (hplan hpasses).2 n

theorem applyUntil_related (func : Value) (args : List Slot) (env : FrameId)
    (mask : Option Mask) :
    (Lockstep.sameUntil eng p).Related (applyUntil eng e l ev₁ func args env mask)
      (applyUntil eng e r ev₂ func args env mask) := by
  unfold applyUntil
  split
  · exact (evalSlots_related hev env mask args).bind fun items =>
      runBuiltinUntil_related hc _ items
  · exact runRoutineUntil_related hc hev _ fun hpasses =>
      Special.Op.routine_confined (fun _ => trivial) hpasses.special _ _
  · exact applyClosure_related hev _ args env mask
  · exact .failPlain rfl

theorem callHeadUntil_related (head : Tree) (args : List Slot) (env : FrameId)
    (mask : Option Mask) :
    (Lockstep.sameUntil eng p).Related (callHeadUntil e l ev₁ head args env mask)
      (callHeadUntil e r ev₂ head args env mask) := by
  intro o s₁ s₂ hs
  have hends := resolveHead_related hev head env mask o s₁ s₂ hs
  unfold callHeadUntil
  rw [Eval.tryCatch_apply, Eval.tryCatch_apply]
  generalize resolveHead ev₁ head env mask s₁ = r₁ at hends
  generalize resolveHead ev₂ head env mask s₂ = r₂ at hends
  cases hends with
  | ok h => exact .ok h
  | outOfFuel h => exact .outOfFuel h
  | failed h =>
    refine afterUntil_related hc _ ?_ o _ _ h
    exact (rejectExposed_related _ env mask).bind fun _ => .fail trivial
  | @excused halt t _ he =>
    cases halt with
    | outOfFuel => exact .excused trivial
    | failed e' =>
      have hreport : (Lockstep.sameUntil eng p).Passes → ∀ s, ∃ e'' u,
          (rejectExposed (.call head args) env mask >>= fun _ => (Eval.fail e' : Eval Value)) s =
            .error (.failed e'') u ∧ p e'' := by
        intro hpasses s
        refine ⟨s.heap.headFailure (.call head args) env mask e', s, ?_,
          Heap.headFailure_induction (P := p) _ _ _ _ (hpasses.marker he) he⟩
        simp only [Eval.bind_apply, rejectExposed_apply, Heap.headFailure]
        cases s.heap.exposed? env mask (.call head args) <;> rfl
      obtain ⟨h, u, heq, hu⟩ := afterUntil_excused hc he _ hreport t
      simp only [heq]
      exact .excused hu
  | carried _ he => exact he.elim

theorem evaluateStepUntil_related (t : Tree) (env : FrameId) (mask : Option Mask) :
    (Lockstep.sameUntil eng p).Related (evaluateStepUntil eng e l ev₁ t env mask)
      (evaluateStepUntil eng e r ev₂ t env mask) := by
  cases t with
  | literal v => exact .pure v
  | reference name => exact lookupVariable_related hev name env mask
  | call head args =>
    refine .nested (.traceDepth _ ?_)
    refine (callHeadUntil_related hc hev head args env mask).bind fun func => ?_
    exact (rejectMarkers_related func _ env mask).bind fun _ =>
      applyUntil_related hc hev func args env mask
  | pairlist args => exact (evalSlots_related hev env mask args).bind fun items => .pure _
  | unquote e => exact .failPlain rfl
  | splice e => exact .failPlain rfl
  | define n v => exact .failPlain rfl

omit hev in
theorem evaluateUntil_related (fuel : Nat) :
    (Lockstep.sameUntil eng p).RelatedEvaluators (evaluateUntil eng e l fuel)
      (evaluateUntil eng e r fuel) := by
  induction fuel with
  | zero => exact .ofEval fun _ _ _ _ _ _ h => .outOfFuel h
  | succ fuel ih => exact .ofEval fun t env mask => evaluateStepUntil_related hc ih t env mask

end

section

variable {α : Type} (eng : Engine) (fuel : Nat) (e : Error) (op : Evaluator → Eval α) (s : State)

def StoppedBy (stops : Stops) : Prop :=
  Outcome.halt? (op (evaluate eng fuel) s) ≠ some .outOfFuel ∧
    Outcome.halt? (op (evaluateUntil eng e stops fuel) s) = some .outOfFuel

def RaisedIn : Prop := StoppedBy eng fuel e op s { raised := true }

/-- In the course of an operation an error is caught: a special of the host goes on after it and
does not fail with it, or a marker is reported in its place. -/
def CaughtIn : Prop := StoppedBy eng fuel e op s { caught := true }

end

section

variable {α : Type} {eng : Engine} {fuel : Nat} {e : Error} {op : Evaluator → Eval α} {s : State}

theorem compare_stopped (fuel : Nat) (s : State) {l r : Stops} {p : Error → Prop}
    (hc : l.Compares eng e r p)
    (hop : ∀ {p : Error → Prop} {ev₁ ev₂}, (Lockstep.sameUntil eng p).RelatedEvaluators ev₁ ev₂ →
      (Lockstep.sameUntil eng p).Related (op ev₁) (op ev₂)) :
    Outcome.halt? (op (evaluateUntil eng e l fuel) s) =
        Outcome.halt? (op (evaluateUntil eng e r fuel) s) ∨
      Outcome.halt? (op (evaluateUntil eng e l fuel) s) = some .outOfFuel ∨
        ∃ e', p e' ∧ Outcome.halt? (op (evaluateUntil eng e l fuel) s) = some (.failed e') := by
  have hends := hop (evaluateUntil_related hc fuel) () s s rfl
  generalize op (evaluateUntil eng e l fuel) s = x at hends
  generalize op (evaluateUntil eng e r fuel) s = y at hends
  cases hends with
  | ok | failed | outOfFuel => exact .inl rfl
  | @excused halt _ _ he =>
    cases halt with
    | outOfFuel => exact .inr (.inl rfl)
    | failed e' => exact .inr (.inr ⟨e', he, rfl⟩)
  | carried _ he => exact he.elim

variable (hop : ∀ {p : Error → Prop} {ev₁ ev₂},
  (Lockstep.sameUntil eng p).RelatedEvaluators ev₁ ev₂ →
    (Lockstep.sameUntil eng p).Related (op ev₁) (op ev₂))

include hop

theorem RaisedIn.halt_of_not_caught (hraised : RaisedIn eng fuel e op s)
    (hcaught : ¬ CaughtIn eng fuel e op s) :
    Outcome.halt? (op (evaluate eng fuel) s) = some (.failed e) := by
  obtain ⟨hend, hraised⟩ := hraised
  have hnowhere := congrArg op (evaluateUntil_nowhere eng e fuel)
  -- The run that is stopped where the error is caught goes to the end, so it is the run itself.
  have hwatched : Outcome.halt? (op (evaluateUntil eng e { caught := true } fuel) s) ≠
      some .outOfFuel := fun h => hcaught ⟨hend, h⟩
  have hsame : Outcome.halt? (op (evaluateUntil eng e { caught := true } fuel) s) =
      Outcome.halt? (op (evaluate eng fuel) s) := by
    have hc : Stops.Compares eng e { caught := true } {} fun _ => False :=
      ⟨nofun, nofun, .inl nofun⟩
    rcases compare_stopped fuel s hc hop with h | h | ⟨_, h, -⟩
    · rw [h, hnowhere]
    · exact absurd h hwatched
    · exact h.elim
  rw [← hsame]
  -- Stopped at both, it stops: with the error itself is how the watched run has to end.
  have hboth : Outcome.halt? (op (evaluateUntil eng e ⟨true, true⟩ fuel) s) = some .outOfFuel := by
    have hc : Stops.Compares eng e ⟨true, true⟩ { raised := true } fun _ => False :=
      ⟨fun _ => .inl rfl, nofun, .inl nofun⟩
    rcases compare_stopped fuel s hc hop with h | h | ⟨_, h, -⟩
    · rw [h, hraised]
    · exact h
    · exact h.elim
  have hc : Stops.Compares eng e { caught := true } ⟨true, true⟩ (· = e) :=
    ⟨fun _ => .inr rfl, fun _ => rfl, .inl fun _ he => ⟨rfl, he⟩⟩
  rcases compare_stopped fuel s hc hop with h | h | ⟨_, rfl, h⟩
  · exact absurd (h.trans hboth) hwatched
  · exact absurd h hwatched
  · exact h

theorem RaisedIn.halt_of_passesOn
    (hhost : eng.host.PassesOn (fun e' => e' = e ∨ ∃ k, e' = .unresolvedMarker k) True)
    (hraised : RaisedIn eng fuel e op s) :
    Outcome.halt? (op (evaluate eng fuel) s) = some (.failed e) ∨
      ∃ k, Outcome.halt? (op (evaluate eng fuel) s) = some (.failed (.unresolvedMarker k)) := by
  obtain ⟨hend, hraised⟩ := hraised
  have hc : Stops.Compares eng e {} { raised := true }
      fun e' => e' = e ∨ ∃ k, e' = .unresolvedMarker k :=
    ⟨fun _ => .inr (.inl rfl), nofun, .inr ⟨hhost, fun _ k => .inr ⟨k, rfl⟩, fun _ h => h⟩⟩
  have h := compare_stopped fuel s hc hop
  rw [evaluateUntil_nowhere] at h
  rcases h with h | h | ⟨_, rfl | ⟨k, rfl⟩, h⟩
  · exact absurd (h.trans hraised) hend
  · exact absurd h hend
  · exact .inl h
  · exact .inr ⟨k, h⟩

end

end Quotation
