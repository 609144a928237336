import Quotation.Proofs.Exposure.Closure

namespace Quotation

def State.entering (s : State) (on : Bool) (t : Tree) : State :=
  (s.mapDepth (· + 1)).traced on ("eval " ++ t.text ++ " at depth " ++ toString (s.depth + 1))

def Outcome.leave {α : Type} (r : Outcome α) : Outcome α :=
  r.follow (fun a t => .ok a (t.mapDepth (· - 1))) fun t => t.mapDepth (· - 1)

section

variable {eng : Engine} {fuel : Nat} {head : Tree} {args : List Slot} {env : FrameId}
  {mask : Option Mask} {b : Builtin} {s s₁ : State}

theorem evaluateStep_call (ev : Evaluator) (hdepth : s.depth < eng.maxDepth) :
    evaluateStep eng ev (.call head args) env mask s =
      Outcome.leave (Outcome.follow
        (callHead ev head args env mask (s.entering eng.trace (.call head args)))
        (fun func => (do
          rejectMarkers func (.call head args) env mask
          apply eng ev func args env mask : Eval Value)) id) := by
  rw [evaluateStep, Eval.nested_apply, if_pos hdepth, evaluateCall, Eval.depth_bind_apply,
    Eval.bind_apply, Eval.trace_apply, Outcome.follow_ok_eval, Eval.bind_apply]
  rfl

theorem evaluate_call (hdepth : s.depth < eng.maxDepth) :
    evaluate eng (fuel + 1) (.call head args) env mask s =
      Outcome.leave (Outcome.follow
        (callHead (evaluate eng fuel) head args env mask (s.entering eng.trace (.call head args)))
        (fun func => (do
          rejectMarkers func (.call head args) env mask
          apply eng (evaluate eng fuel) func args env mask : Eval Value)) id) :=
  evaluateStep_call (evaluate eng fuel) hdepth

theorem evaluate_builtinCall (hdepth : s.depth < eng.maxDepth)
    (hhead : resolveHead (evaluate eng fuel) head env mask
      (s.entering eng.trace (.call head args)) = .ok (.builtin b) s₁) :
    evaluate eng (fuel + 1) (.call head args) env mask s = Outcome.leave
      (match s₁.heap.exposed? env mask (.call head args) with
        | some m => .error (.failed (.unresolvedMarker m.kind)) s₁
        | none => Outcome.follow (evalSlots (evaluate eng fuel) env mask args s₁)
            (runBuiltin eng b) id) := by
  rw [evaluate_call hdepth, callHead_apply, hhead, Outcome.follow_ok_eval, Eval.bind_apply,
    rejectMarkers, rejectExposed_apply]
  cases s₁.heap.exposed? env mask (.call head args) with
  | some m => rfl
  | none => rw [Outcome.follow_ok_eval, apply, Eval.bind_apply]

theorem evalSlots_single {ev : Evaluator} {slot : Slot} {v : Value} {t : State}
    (hdots : slot.val.isDots = false) (hv : ev slot.val env mask s = .ok v t) :
    evalSlots ev env mask [slot] s = .ok [⟨slot.name, v⟩] t := by
  simp only [evalSlots, evalSlot, hdots, Bool.false_eq_true, if_false, Eval.bind_apply, hv,
    Outcome.follow_ok_eval, Eval.pure_apply]
  rfl

end

end Quotation
