import Quotation.Proofs.Level
import Quotation.Proofs.Lockstep.Stopping
import Quotation.Proofs.SpecialCall

/-! Runs that take no notice of their level. There are two ways to notice it: a call meets the
limit, or a special asks for the depth. A guarded run fails with the overflow of the limit in both
cases, and it is stopped where that failure is caught. So a run that comes to an end under guard,
and not with the overflow, is the same on every level that is no deeper. -/

namespace Quotation

def Routine.unasked {α : Type} (e : Error) : Routine α → Routine α
  | .done a => .done a
  | .fail e' => .fail e'
  | .ask d next => .ask d fun r => (next r).unasked e
  | .inspect next => .inspect fun h => (next h).unasked e
  | .newFrame parent isCall next => .newFrame parent isCall fun f => (next f).unasked e
  | .newPromise expr env mask next => .newPromise expr env mask fun p => (next p).unasked e
  | .rebind env name b next => .rebind env name b (next.unasked e)
  | .identity next => .identity fun i => (next i).unasked e
  | .depth _ => .fail e

section

variable (eng : Engine) (ev : Evaluator)

def runRoutineGuarded {α : Type} (r : Routine α) : Eval α :=
  runRoutineUntil eng eng.overflow { caught := true } ev (r.unasked eng.overflow)

def applyGuarded (func : Value) (args : List Slot) (env : FrameId) (mask : Option Mask) :
    Eval Value :=
  match func with
  | .special s => runRoutineGuarded eng ev (s.op.routine eng.host.special ⟨args, env, mask⟩)
  | func => apply eng ev func args env mask

def evaluateCallGuarded (head : Tree) (args : List Slot) (env : FrameId) (mask : Option Mask) :
    Eval Value := do
  let depth ← Eval.depth
  Eval.trace eng.trace ("eval " ++ (Tree.call head args).text ++ " at depth " ++ toString depth)
  let func ← callHeadUntil eng.overflow { caught := true } ev head args env mask
  rejectMarkers func (.call head args) env mask
  applyGuarded eng ev func args env mask

def evaluateStepGuarded (t : Tree) (env : FrameId) (mask : Option Mask) : Eval Value :=
  match t with
  | .call head args =>
    Eval.nested eng.maxDepth (evaluateCallGuarded eng ev head args env mask)
  | t => evaluateStep eng ev t env mask

end

/-- Evaluation that fails where a special asks for the depth, and stops where that failure, or the
overflow of the limit, is caught. -/
def evaluateGuarded (eng : Engine) : Nat → Evaluator
  | 0, _, _, _ => throw .outOfFuel
  | fuel + 1, t, env, mask => evaluateStepGuarded eng (evaluateGuarded eng fuel) t env mask

/-- An operation comes to an end, and in its course no call meets the limit and no special asks for
the depth. -/
structure Unaware {α : Type} (eng : Engine) (fuel : Nat) (op : Evaluator → Eval α) (s : State) :
    Prop where
  level : s.depth ≤ eng.maxDepth
  ends : Outcome.halt? (op (evaluateGuarded eng fuel) s) ≠ some .outOfFuel
  clear : Outcome.halt? (op (evaluateGuarded eng fuel) s) ≠ some (.failed eng.overflow)

section

variable {eng : Engine} {ev : Evaluator} {env : FrameId} {mask : Option Mask} {name : String}
  {args : List Slot} {s : State} {α : Type}

theorem runRoutineGuarded_eq {err : Error → Prop} (herr : ∀ e, err e)
    {write : FrameId → String → Option Binding → Prop} {r : Routine α}
    (hr : r.Confined err write (· = eng.overflow) False) :
    runRoutineGuarded eng ev r = runRoutine eng ev r := by
  unfold runRoutineGuarded
  induction r with
  | done a | fail e => rfl
  | ask d next ih =>
    funext s
    simp only [runRoutine, runRoutineUntil, Routine.unasked, Eval.bind_apply, Eval.attempt_apply]
    cases answer eng ev d s with
    | ok a t =>
      simp only [Outcome.follow_ok_eval, afterUntil, failure?]
      exact congrFun (ih (.ok a) (hr.2 _ fun _ _ => herr _)) t
    | error h t =>
      cases h with
      | outOfFuel => rfl
      | failed e =>
        simp only [Outcome.follow_ok_eval, afterUntil, failure?, Bool.true_and, beq_iff_eq,
          Option.some.injEq]
        split
        · rename_i heq
          subst heq
          rw [hr.1 _ rfl]
          simp [Routine.unasked, runRoutineUntil, runRoutine, Eval.stopUnless, Outcome.stopUnless]
        · exact congrFun (ih (.error e) (hr.2 _ fun _ _ => herr _)) t
  | rebind _ _ _ _ ih =>
    simp only [Routine.unasked, runRoutineUntil, runRoutine, ih hr.2]
  | inspect _ ih | newFrame _ _ _ ih | newPromise _ _ _ _ ih | identity _ ih =>
    simp only [Routine.unasked, runRoutineUntil, runRoutine, fun a => ih a (hr a)]
  | depth => exact hr.1.elim

def Value.Unguarded (v : Value) : Prop := ∀ op id, v ≠ .special ⟨.host op, id⟩

theorem applyGuarded_eq {v : Value} (hv : v.Unguarded) :
    applyGuarded eng ev v args env mask = apply eng ev v args env mask := by
  cases v with
  | special s =>
    obtain ⟨op, id⟩ := s
    -- The host plays no part in the routines of the prelude.
    let silent : String → SpecialCall → Routine Value := fun _ _ => .done .null
    have hroutine : op.routine eng.host.special ⟨args, env, mask⟩ =
        op.routine silent ⟨args, env, mask⟩ := by
      cases op with
      | host name => exact (hv name id rfl).elim
      | _ => rfl
    have hsilent : ∀ name call, (silent name call).Confined (fun _ => True) (fun _ _ _ => True)
        (· = eng.overflow) False := fun _ _ => trivial
    have hconfined := Special.Op.routine_confined (fun _ => trivial) hsilent op ⟨args, env, mask⟩
    rw [← hroutine] at hconfined
    exact runRoutineGuarded_eq (fun _ => trivial) hconfined
  | _ => rfl

theorem evaluateStepGuarded_namedCall {v : Value}
    (hfunction : s.heap.function? env mask name = some v) (hv : v.Unguarded) :
    evaluateStepGuarded eng ev (.call (.reference name) args) env mask s =
      evaluateStep eng ev (.call (.reference name) args) env mask s := by
  have hheap : ∀ m, ((s.mapDepth (· + 1)).traced eng.trace m).heap.function? env mask name =
      some v := fun m => by simpa [State.mapDepth] using hfunction
  rw [evaluateStepGuarded, evaluateStep, Eval.nested_apply, Eval.nested_apply]
  split
  · refine congrArg Outcome.leave ?_
    rw [evaluateCallGuarded, evaluateCall, Eval.depth_bind_apply, Eval.depth_bind_apply,
      Eval.bind_apply, Eval.bind_apply, Eval.trace_apply, Outcome.follow_ok_eval,
      Outcome.follow_ok_eval, Eval.bind_apply, Eval.bind_apply]
    generalize htraced : State.traced _ _ _ = u
    have hhead : resolveHead ev (.reference name) env mask u = .ok v u :=
      resolveHead_named (htraced ▸ hheap _)
    rw [callHead_apply, callHeadUntil, Eval.tryCatch_apply, hhead]
    simp only [Outcome.follow_ok_eval, applyGuarded_eq hv]
  · rfl

end

inductive Outcome.Alike {α : Type} (k : Nat) : Outcome α → Outcome α → Prop
  | ok {a s₁ s₂} : s₁.Deeper k s₂ → Alike k (.ok a s₁) (.ok a s₂)
  | error {h s₁ s₂} : s₁.Deeper k s₂ → Alike k (.error h s₁) (.error h s₂)

theorem State.Deeper.trans_left {k : Nat} {s₁ s₂ s₃ : State} (h : s₁.Deeper 0 s₂)
    (h' : s₁.Deeper k s₃) : s₂.Deeper k s₃ :=
  ⟨h.heap.symm.trans h'.heap, h.world.symm.trans h'.world,
    (h.depth.symm.trans h'.depth : s₂.depth + 0 = _)⟩

namespace Outcome.Alike

variable {α : Type} {k : Nat} {r₁ r₂ r₃ : Outcome α}

theorem of_same (h : Alike 0 r₁ r₂) (h' : Alike k r₁ r₃) : Alike k r₂ r₃ := by
  cases h with
  | ok h =>
    cases h' with
    | ok h' => exact .ok (h.trans_left h')
  | error h =>
    cases h' with
    | error h' => exact .error (h.trans_left h')

theorem leave (h : Alike (k + 1) r₁ r₂) : Alike k (Outcome.leave r₁) r₂ := by
  have hleave {s₁ s₂ : State} (h : s₁.Deeper (k + 1) s₂) :
      (s₁.mapDepth (· - 1)).Deeper k s₂ := ⟨h.heap, h.world, congrArg (· - 1) h.depth⟩
  cases h with
  | ok h => exact .ok (hleave h)
  | error h => exact .error (hleave h)

end Outcome.Alike

def Lockstep.guarded (eng : Engine) (k : Nat) : Lockstep eng eng where
  Origin := Nat
  rel d s₁ s₂ := s₁.Deeper k s₂ ∧ s₂.depth = d ∧ s₁.depth ≤ eng.maxDepth
  excused h := h = .outOfFuel ∨ h = .failed eng.overflow
  err _ := True
  write _ _ _ := True
  reads := False
  host := .refl eng
  heap h := h.1.heap
  world h := h.1.world
  depth h := h.elim
  plain _ := trivial
  builtin _ := trivial
  setWorld h w := ⟨h.1.withWorld w, h.2⟩
  debug h m := ⟨h.1.record _ _, h.2⟩
  trace {_ s₁ s₂} h m := by
    refine ⟨h.1.traced _ _ _ _, ?_, ?_⟩
    · rw [← h.2.1]
      unfold State.traced
      split <;> rfl
    · refine Nat.le_trans (Nat.le_of_eq ?_) h.2.2
      unfold State.traced
      split <;> rfl
  enter := by
    rintro d s₁ s₂ ⟨h, rfl, hmax⟩ hlt
    refine ⟨h.limit (Nat.le_add_right _ k) hlt, s₂.depth + 1, ⟨h.enter, rfl, hlt⟩, ?_⟩
    rintro t₁ t₂ ⟨ht, hd, htmax⟩
    exact ⟨ht.leave hd, congrArg (· - 1) hd, Nat.le_trans (Nat.sub_le _ _) htmax⟩
  overflow {_ s₁ _} h hlt := by
    have hmax : s₁.depth = eng.maxDepth := Nat.le_antisymm h.2.2 (Nat.le_of_not_lt hlt)
    exact .inl (.inr (by rw [hmax]; rfl))
  capture h p := ⟨h.1.mapHeap _, h.2⟩
  promise h expr env mask := ⟨h.1.mapHeap _, h.2⟩
  frame h parent isCall := ⟨h.1.mapHeap _, h.2⟩
  formals h parent formals m := ⟨h.1.mapHeap _, h.2⟩
  rebind h _ := ⟨h.1.mapHeap _, h.2⟩

instance (eng : Engine) (k : Nat) : (Lockstep.guarded eng k).Forces where
  force := by
    rintro d s₁ s₂ p ⟨h, hd⟩ -
    refine ⟨d, ⟨h.mapHeap _, hd⟩, ?_⟩
    rintro t₁ t₂ ⟨ht, htd⟩
    exact ⟨fun v => ⟨ht.mapHeap _, htd⟩, ht.mapHeap _, htd⟩

section

variable {eng : Engine} {k : Nat} {α : Type} {ev₁ ev₂ : Evaluator}

theorem guarded_stopsAfter : (Lockstep.guarded eng k).StopsAfter eng.overflow where
  stop := .inl rfl
  error_iff e := by
    change (Halt.failed e = .outOfFuel ∨ Halt.failed e = .failed eng.overflow) ↔ _
    simp
  err _ := trivial
  uncarried _ h := h

variable (hev : (Lockstep.guarded eng k).RelatedEvaluators ev₁ ev₂)

include hev

theorem runRoutineGuarded_related (r : Routine α) :
    (Lockstep.guarded eng k).Related (runRoutineGuarded eng ev₁ r) (runRoutine eng ev₂ r) := by
  unfold runRoutineGuarded
  induction r with
  | done a => exact .pure a
  | fail e => exact .fail trivial
  | ask d next ih => exact attemptUntil_left guarded_stopsAfter (answer_related hev d) ih
  | inspect next ih => exact .heap ih
  | newFrame parent isCall next ih =>
    intro o s₁ s₂ h
    have hnew : (s₂.heap.newFrame parent isCall).1 = (s₁.heap.newFrame parent isCall).1 := by
      rw [h.1.heap]
    simp only [runRoutine, runRoutineUntil, Routine.unasked, Eval.bind_apply, Eval.onHeap_apply,
      Outcome.follow_ok_eval, hnew]
    exact ih _ o _ _ ((Lockstep.guarded eng k).frame h parent isCall)
  | newPromise expr env mask next ih =>
    intro o s₁ s₂ h
    have hnew : s₂.heap.newPromise = s₁.heap.newPromise := by rw [h.1.heap]
    simp only [runRoutine, runRoutineUntil, Routine.unasked, Eval.bind_apply, Eval.onHeap_apply,
      Outcome.follow_ok_eval, hnew]
    exact ih _ o _ _ ((Lockstep.guarded eng k).promise h expr env mask)
  | rebind env name b next ih =>
    refine Lockstep.Related.bind ?_ fun _ => ih
    exact fun o s₁ s₂ h => .ok ((Lockstep.guarded eng k).rebind h trivial)
  | identity next ih => exact Lockstep.Related.bind .identity ih
  | depth next => exact fun _ _ _ _ => .excused (.inr rfl)

theorem applyGuarded_related (func : Value) (args : List Slot) (env : FrameId)
    (mask : Option Mask) :
    (Lockstep.guarded eng k).Related (applyGuarded eng ev₁ func args env mask)
      (apply eng ev₂ func args env mask) := by
  cases func with
  | builtin b =>
    exact (evalSlots_related hev env mask args).bind fun items => runBuiltin_related b items
  | special s => exact runRoutineGuarded_related hev _
  | closure c => exact applyClosure_related hev c args env mask
  | _ => exact .failPlain rfl

theorem evaluateStepGuarded_related (t : Tree) (env : FrameId) (mask : Option Mask) :
    (Lockstep.guarded eng k).Related (evaluateStepGuarded eng ev₁ t env mask)
      (evaluateStep eng ev₂ t env mask) := by
  cases t with
  | literal v => exact .pure v
  | reference name => exact lookupVariable_related hev name env mask
  | call head args =>
    refine .nested (.traceDepth _ ?_)
    refine (callHeadUntil_left guarded_stopsAfter hev head args env mask).bind fun func => ?_
    exact (rejectMarkers_related func _ env mask).bind fun _ =>
      applyGuarded_related hev func args env mask
  | pairlist args => exact (evalSlots_related hev env mask args).bind fun items => .pure _
  | unquote e => exact .failPlain rfl
  | splice e => exact .failPlain rfl
  | define n v => exact .failPlain rfl

omit hev

theorem evaluateGuarded_related (eng : Engine) (k fuel : Nat) :
    (Lockstep.guarded eng k).RelatedEvaluators (evaluateGuarded eng fuel) (evaluate eng fuel) := by
  induction fuel with
  | zero => exact .ofEval fun _ _ _ _ _ _ h => .outOfFuel h
  | succ fuel ih => exact .ofEval fun t env mask => evaluateStepGuarded_related ih t env mask

theorem Unaware.alike {fuel : Nat} {op : Evaluator → Eval α} {s₁ s₂ : State}
    (h : Unaware eng fuel op s₁)
    (hop : (Lockstep.guarded eng k).Related (op (evaluateGuarded eng fuel))
      (op (evaluate eng fuel))) (hs : s₁.Deeper k s₂) :
    Outcome.Alike k (op (evaluateGuarded eng fuel) s₁) (op (evaluate eng fuel) s₂) := by
  obtain ⟨hlevel, hends, hclear⟩ := h
  have halike := hop s₂.depth s₁ s₂ ⟨hs, rfl, hlevel⟩
  generalize op (evaluateGuarded eng fuel) s₁ = r₁ at halike hends hclear ⊢
  generalize op (evaluate eng fuel) s₂ = r₂ at halike ⊢
  cases halike with
  | ok h => exact .ok h.1
  | failed h | outOfFuel h => exact .error h.1
  | excused he =>
    rcases he with rfl | rfl
    · exact absurd rfl hends
    · exact absurd rfl hclear
  | carried _ he => exact he.elim

theorem evaluateGuarded_overflow {head : Tree} {args : List Slot} {env : FrameId}
    {mask : Option Mask} {s : State} (fuel : Nat) (hdepth : s.depth = eng.maxDepth) :
    evaluateGuarded eng (fuel + 1) (.call head args) env mask s =
      .error (.failed eng.overflow) s := by
  rw [evaluateGuarded, evaluateStepGuarded, Eval.nested_apply, if_neg (by omega), hdepth]
  rfl

theorem Unaware.depth_lt {head : Tree} {args : List Slot} {env : FrameId} {mask : Option Mask}
    {fuel : Nat} {s : State}
    (h : Unaware eng (fuel + 1) (fun ev => ev (.call head args) env mask) s) :
    s.depth < eng.maxDepth := by
  refine Nat.lt_of_le_of_ne h.level fun hdepth => h.clear ?_
  exact congrArg Outcome.halt? (evaluateGuarded_overflow fuel hdepth)

@[simp] theorem Outcome.halt?_leave (r : Outcome α) : (Outcome.leave r).halt? = r.halt? := by
  cases r <;> rfl

end

end Quotation
