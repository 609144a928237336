import Quotation.Proofs.Confined
import Quotation.Session.Host

/-! Hosts whose specials pass errors on. It is the contract of the evaluator that a failure during an
evaluation aborts the entire evaluation. The engine keeps to that by itself, but a special of the host
is handed the failure of what it has asked for, and could go on. -/

namespace Quotation

/-- The specials of a host keep the contract that a failure during an evaluation aborts the entire
evaluation, as far as the errors in `pass` go: where a demand of a special fails with one of them, the
special fails with it. They ask for the depth only if `reads` holds. -/
def Host.PassesOn (host : Host) (pass : Error → Prop) (reads : Prop) : Prop :=
  ∀ name call, (host.special name call).Confined (fun _ => True) (fun _ _ _ => True) pass reads

namespace Session.HostSpecial

variable {err : Error → Prop} {write : FrameId → String → Option Binding → Prop}
  {pass : Error → Prop}

theorem cond_confined (herr : ∀ e, err e) (call : SpecialCall) :
    (cond call).Confined err write pass True := by
  unfold cond
  split
  · exact (Routine.Confined.demand _).bind fun v => .demand _
  · exact herr _

theorem lambda_confined (herr : ∀ e, err e) (call : SpecialCall) :
    (lambda call).Confined err write pass True := by
  unfold lambda
  split
  · exact herr _
  · exact (Routine.Confined.ofExcept fun e _ => herr e).bind fun formals i => trivial

theorem assign_confined (herr : ∀ e, err e) (hwrite : ∀ f name b, write f name b)
    (call : SpecialCall) : (assign call).Confined err write pass True := by
  unfold assign
  split
  · exact (Routine.Confined.demand _).bind fun v => ⟨hwrite _ _ _, trivial⟩
  · exact herr _
  · exact herr _

theorem raw_confined (herr : ∀ e, err e) (call : SpecialCall) :
    (raw call).Confined err write pass True :=
  (Routine.Confined.ofExcept fun e _ => herr e).bind fun _ => trivial

theorem masked_confined (call : SpecialCall) : (masked call).Confined err write pass True := by
  unfold masked
  split <;> trivial

theorem run_confined (herr : ∀ e, err e) (hwrite : ∀ f name b, write f name b) (name : String)
    (call : SpecialCall) : (run name call).Confined err write pass True := by
  unfold run
  split
  · exact cond_confined herr call
  · exact lambda_confined herr call
  · exact assign_confined herr hwrite call
  · exact (Routine.Confined.demand _).bind fun captures => trivial
  · exact ⟨trivial, fun _ => trivial⟩
  · exact raw_confined herr call
  · trivial
  · exact masked_confined call
  · trivial
  · trivial

end Session.HostSpecial

theorem Session.host_passesOn (pass : Error → Prop) : Session.host.PassesOn pass True :=
  HostSpecial.run_confined (fun _ => trivial) fun _ _ _ => trivial

/-- The host of a session with one special more, which catches every error. -/
def Session.catching : Host where
  builtin := Session.host.builtin
  special name call :=
    match name, call.args with
    | "try", [slot] => .ask (.evaluate slot.val call.env call.mask) fun
      | .ok v => .done v
      | .error _ => .done .null
    | _, _ => Session.host.special name call

end Quotation
