import Quotation.Proofs.Raised

namespace Quotation

/-- The left run may be stopped, or end with a certain error, without the right one following. -/
structure Lockstep.StopsAfter {left right : Engine} (L : Lockstep left right) (e : Error) : Prop where
  stop : L.excused .outOfFuel
  error_iff : ∀ e', L.excused (.failed e') ↔ e' = e
  err : ∀ e', L.err e'
  uncarried : ∀ e', ¬ L.carries e'

section

variable {left right : Engine} {L : Lockstep left right} {e : Error} {α β : Type}
  {ev₁ ev₂ : Evaluator} (hL : L.StopsAfter e)

include hL

theorem stopUnless_excused (act : Eval α) (o : L.Origin) (s : State)
    (r : Outcome α) : L.Ends o (act.stopUnless e s) r := by
  unfold Eval.stopUnless Outcome.stopUnless
  split
  · split
    · rename_i heq
      exact .excused ((hL.error_iff _).2 heq)
    · exact .excused hL.stop
  · exact .excused hL.stop

theorem afterUntil_left (failure : Option Error) {x y : Eval α}
    (h : L.Related x y) : L.Related (afterUntil e { caught := true } failure x) y := by
  unfold afterUntil
  split
  · exact fun o s₁ s₂ _ => stopUnless_excused hL _ _ _ _
  · exact h

theorem attemptUntil_left {x y : Eval α} {f g : Except Error α → Eval β}
    (hxy : L.Related x y) (hfg : ∀ r, L.Related (f r) (g r)) :
    L.Related (x.attempt >>= fun r => afterUntil e { caught := true } (failure? r) (f r))
      (y.attempt >>= g) := by
  intro o s₁ s₂ hs
  have hends := hxy o s₁ s₂ hs
  rw [Eval.bind_apply, Eval.bind_apply, Eval.attempt_apply, Eval.attempt_apply]
  generalize x s₁ = r₁ at hends
  generalize y s₂ = r₂ at hends
  cases hends with
  | ok h => exact afterUntil_left hL _ (hfg _) o _ _ h
  | failed h => exact afterUntil_left hL _ (hfg _) o _ _ h
  | outOfFuel h => exact .outOfFuel h
  | @excused halt _ _ he =>
    cases halt with
    | outOfFuel => exact .excused he
    | failed e' =>
      obtain rfl := (hL.error_iff e').1 he
      simp only [Outcome.follow_ok_eval, afterUntil, failure?, Bool.true_and, beq_self_eq_true,
        if_true]
      exact stopUnless_excused hL _ _ _ _
  | carried _ he => exact absurd he (hL.uncarried _)

variable (hev : L.RelatedEvaluators ev₁ ev₂)

include hev

theorem callHeadUntil_left (head : Tree) (args : List Slot) (env : FrameId)
    (mask : Option Mask) :
    L.Related (callHeadUntil e { caught := true } ev₁ head args env mask)
      (callHead ev₂ head args env mask) := by
  intro o s₁ s₂ hs
  have hends := resolveHead_related hev head env mask o s₁ s₂ hs
  unfold callHeadUntil callHead
  rw [Eval.tryCatch_apply, Eval.tryCatch_apply]
  generalize resolveHead ev₁ head env mask s₁ = r₁ at hends
  generalize resolveHead ev₂ head env mask s₂ = r₂ at hends
  cases hends with
  | ok h => exact .ok h
  | outOfFuel h => exact .outOfFuel h
  | @failed e' _ _ h =>
    have hreport : L.Related
        (rejectExposed (.call head args) env mask >>= fun _ => (Eval.fail e' : Eval Value))
        (rejectExposed (.call head args) env mask >>= fun _ => Eval.fail e') :=
      (rejectExposed_related _ env mask).bind fun _ => .fail (hL.err e')
    exact afterUntil_left hL (some e') hreport o _ _ h
  | @excused halt _ _ he =>
    cases halt with
    | outOfFuel => exact .excused he
    | failed e' =>
      obtain rfl := (hL.error_iff e').1 he
      simp only [afterUntil, Bool.true_and, beq_self_eq_true, if_true]
      exact stopUnless_excused hL _ _ _ _
  | carried _ he => exact absurd he (hL.uncarried _)

variable (hwrite : ∀ f name b, L.write f name b) (hreads : L.reads)

include hwrite hreads

theorem runRoutineUntil_left (r : Routine α) :
    L.Related (runRoutineUntil left e { caught := true } ev₁ r) (runRoutine right ev₂ r) := by
  induction r with
  | done a => exact .pure a
  | fail e' => exact .fail (hL.err e')
  | ask d next ih => exact attemptUntil_left hL (answer_related hev d) ih
  | inspect next ih => exact .heap ih
  | newFrame parent isCall next ih =>
    intro o s₁ s₂ h
    have hnew : (s₂.heap.newFrame parent isCall).1 = (s₁.heap.newFrame parent isCall).1 := by
      rw [L.heap h]
    simp only [runRoutine, runRoutineUntil, Eval.bind_apply, Eval.onHeap_apply,
      Outcome.follow_ok_eval, hnew]
    exact ih _ o _ _ (L.frame h parent isCall)
  | newPromise expr env mask next ih =>
    intro o s₁ s₂ h
    have hnew : s₂.heap.newPromise = s₁.heap.newPromise := by rw [L.heap h]
    simp only [runRoutine, runRoutineUntil, Eval.bind_apply, Eval.onHeap_apply,
      Outcome.follow_ok_eval, hnew]
    exact ih _ o _ _ (L.promise h expr env mask)
  | rebind env name b next ih =>
    refine Lockstep.Related.bind ?_ fun _ => ih
    exact fun o s₁ s₂ h => .ok (L.rebind h (hwrite env name b))
  | identity next ih => exact Lockstep.Related.bind .identity ih
  | depth next ih => exact .depth hreads ih

theorem applyUntil_left (func : Value) (args : List Slot) (env : FrameId)
    (mask : Option Mask) :
    L.Related (applyUntil left e { caught := true } ev₁ func args env mask)
      (apply right ev₂ func args env mask) := by
  cases func with
  | builtin b =>
    exact (evalSlots_related hev env mask args).bind fun items => runBuiltin_related b items
  | special s =>
    change L.Related (runRoutineUntil left e { caught := true } ev₁
      (s.op.routine left.host.special ⟨args, env, mask⟩))
      (runRoutine right ev₂ (s.op.routine right.host.special ⟨args, env, mask⟩))
    rw [← L.host.eq]
    exact runRoutineUntil_left hL hev hwrite hreads _
  | closure c => exact applyClosure_related hev c args env mask
  | _ => exact .failPlain rfl

theorem evaluateStepUntil_left (t : Tree) (env : FrameId) (mask : Option Mask) :
    L.Related (evaluateStepUntil left e { caught := true } ev₁ t env mask)
      (evaluateStep right ev₂ t env mask) := by
  cases t with
  | literal v => exact .pure v
  | reference name => exact lookupVariable_related hev name env mask
  | call head args =>
    refine .nested (.traceDepth _ ?_)
    refine (callHeadUntil_left hL hev head args env mask).bind fun func => ?_
    exact (rejectMarkers_related func _ env mask).bind fun _ =>
      applyUntil_left hL hev hwrite hreads func args env mask
  | pairlist args => exact (evalSlots_related hev env mask args).bind fun items => .pure _
  | unquote e => exact .failPlain rfl
  | splice e => exact .failPlain rfl
  | define n v => exact .failPlain rfl

omit hev in
theorem evaluateUntil_left [L.Forces] (fuel : Nat) :
    L.RelatedEvaluators (evaluateUntil left e { caught := true } fuel) (evaluate right fuel) := by
  induction fuel with
  | zero => exact .ofEval fun _ _ _ _ _ _ h => .outOfFuel h
  | succ fuel ih => exact .ofEval fun t env mask => evaluateStepUntil_left hL ih hwrite hreads t env mask

end

end Quotation
