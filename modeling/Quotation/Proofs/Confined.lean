import Quotation.Proofs.PlainFailure

/-! What specials may ask of the engine. Those of the prelude fail in plain ways, pass every error
on, bind nothing and do not ask for the depth; what those of a host do is a matter of its own. -/

namespace Quotation

namespace Routine

variable {α β : Type}

/-- Along every way through a routine it fails only with the errors of `err`, given that its
demands do; it binds only what `write` allows, passes on the errors of `pass`, and asks for the depth
only if `reads` holds. -/
def Confined (err : Error → Prop) (write : FrameId → String → Option Binding → Prop)
    (pass : Error → Prop) (reads : Prop) : Routine α → Prop
  | .done _ => True
  | .fail e => err e
  | .ask _ next => (∀ e, pass e → next (.error e) = .fail e) ∧
      ∀ r, (∀ e, r = .error e → err e) → (next r).Confined err write pass reads
  | .inspect next => ∀ h, (next h).Confined err write pass reads
  | .newFrame _ _ next => ∀ f, (next f).Confined err write pass reads
  | .newPromise _ _ _ next => ∀ p, (next p).Confined err write pass reads
  | .rebind env name b next => write env name b ∧ next.Confined err write pass reads
  | .identity next => ∀ i, (next i).Confined err write pass reads
  | .depth next => reads ∧ ∀ n, (next n).Confined err write pass reads

variable {err : Error → Prop} {write : FrameId → String → Option Binding → Prop}
  {pass : Error → Prop} {reads : Prop}

theorem Confined.bind {r : Routine α} {f : α → Routine β} (hr : r.Confined err write pass reads)
    (hf : ∀ a, (f a).Confined err write pass reads) :
    (r.bind f).Confined err write pass reads := by
  induction r with
  | done a => exact hf a
  | fail e => exact hr
  | ask d next ih =>
    have hpass : ∀ e, pass e → (next (.error e)).bind f = .fail e := by
      intro e he
      rw [hr.1 e he]
      rfl
    exact ⟨hpass, fun r he => ih r (hr.2 r he)⟩
  | inspect _ ih | newFrame _ _ _ ih | newPromise _ _ _ _ ih | identity _ ih =>
    exact fun a => ih a (hr a)
  | rebind _ _ _ _ ih => exact ⟨hr.1, ih hr.2⟩
  | depth _ ih => exact ⟨hr.1, fun n => ih n (hr.2 n)⟩

theorem Confined.ofExcept {x : Except Error α} (hx : ∀ e, x = .error e → err e) :
    (Routine.ofExcept x).Confined err write pass reads := by
  cases x with
  | error e => exact hx e rfl
  | ok a => trivial

theorem Confined.demand (d : Demand) : (demand d).Confined err write pass reads :=
  ⟨fun _ _ => rfl, fun _ hr => .ofExcept hr⟩

def Raises : Routine α → Error → Prop
  | .done _, _ => False
  | .fail e, e' => e = e'
  | .ask _ next, e => ∃ r, r ≠ .error e ∧ (next r).Raises e
  | .inspect next, e => ∃ h, (next h).Raises e
  | .newFrame _ _ next, e => ∃ f, (next f).Raises e
  | .newPromise _ _ _ next, e => ∃ p, (next p).Raises e
  | .rebind _ _ _ next, e => next.Raises e
  | .identity next, e => ∃ i, (next i).Raises e
  | .depth next, e => ∃ n, (next n).Raises e

theorem confined_of_raises {r : Routine α} (h : ∀ e, r.Raises e → err e) :
    r.Confined err (fun _ _ _ => True) (fun _ => False) True := by
  induction r with
  | done a => trivial
  | fail e => exact h e rfl
  | ask d next ih =>
    refine ⟨fun _ he => he.elim, fun r hr => ih r fun e he => ?_⟩
    by_cases hpassed : r = .error e
    · exact hr e hpassed
    · exact h e ⟨r, hpassed, he⟩
  | inspect _ ih | newFrame _ _ _ ih | newPromise _ _ _ _ ih | identity _ ih =>
    exact fun a => ih a fun e he => h e ⟨a, he⟩
  | rebind _ _ _ _ ih => exact ⟨trivial, ih h⟩
  | depth _ ih => exact ⟨trivial, fun n => ih n fun e he => h e ⟨n, he⟩⟩

end Routine

namespace Special

section

variable {α : Type} {err : Error → Prop} {write : FrameId → String → Option Binding → Prop}
  {pass : Error → Prop} {reads : Prop} (plain : ∀ {e : Error}, e.isOverflow = false → err e)

include plain

theorem confined_ofPlain {x : Except Error α} (hx : PlainFailure x) :
    (Routine.ofExcept x).Confined err write pass reads :=
  .ofExcept fun e he => plain (hx e he)

theorem quote_confined (call : SpecialCall) : (quote call).Confined err write pass reads :=
  (confined_ofPlain plain (call.single_plainFailure _)).bind fun _ =>
    (Routine.Confined.demand _).bind fun _ => trivial

theorem quo_confined (call : SpecialCall) : (quo call).Confined err write pass reads :=
  (confined_ofPlain plain (call.single_plainFailure _)).bind fun _ =>
    (Routine.Confined.demand _).bind fun _ => trivial

theorem capturedParameter_confined (call : SpecialCall) :
    (capturedParameter call).Confined err write pass reads := by
  refine (confined_ofPlain plain (call.single_plainFailure _)).bind fun slot => ?_
  cases slot.val.asReference? with
  | none => exact plain rfl
  | some name =>
    refine (Routine.Confined.demand _).bind fun c => ?_
    exact (Routine.Confined.demand _).bind fun t => trivial

theorem enexpr_confined (call : SpecialCall) : (enexpr call).Confined err write pass reads :=
  (capturedParameter_confined plain call).bind fun _ => trivial

theorem enquo_confined (call : SpecialCall) : (enquo call).Confined err write pass reads :=
  (capturedParameter_confined plain call).bind fun _ => trivial

theorem ensym_confined (call : SpecialCall) : (ensym call).Confined err write pass reads := by
  refine (capturedParameter_confined plain call).bind fun c => ?_
  split
  · trivial
  · exact plain rfl

omit plain in
theorem resolveCaptures_confined (captures : List (Named (Capture Tree))) :
    (resolveCaptures captures).Confined err write pass reads := by
  induction captures with
  | nil => trivial
  | cons c rest ih => exact (Routine.Confined.demand _).bind fun t => ih.bind fun more => trivial

theorem capturedDots_confined (call : SpecialCall) :
    (capturedDots call).Confined err write pass reads := by
  unfold capturedDots
  split
  · exact plain rfl
  · exact (Routine.Confined.demand _).bind fun captures => resolveCaptures_confined captures

theorem enexprs_confined (call : SpecialCall) : (enexprs call).Confined err write pass reads :=
  (capturedDots_confined plain call).bind fun _ => trivial

theorem enquos_confined (call : SpecialCall) : (enquos call).Confined err write pass reads :=
  (capturedDots_confined plain call).bind fun _ => trivial

theorem tidyMask_confined (call : SpecialCall) (data : Option Slot) :
    (tidyMask call data).Confined err write pass reads := by
  cases data with
  | none => trivial
  | some slot =>
    refine (Routine.Confined.demand _).bind fun v => ?_
    exact confined_ofPlain plain (dataMask_plainFailure v)

theorem evalTidy_confined (call : SpecialCall) : (evalTidy call).Confined err write pass reads := by
  refine (confined_ofPlain plain (tidyArguments_plainFailure call)).bind fun parts => ?_
  refine (tidyMask_confined plain call parts.2).bind fun mask => ?_
  refine (Routine.Confined.demand _).bind fun v => ?_
  cases v with
  | tree t => exact .demand _
  | capture c => exact .demand _
  | _ => trivial

theorem call2_confined (call : SpecialCall) : (call2 call).Confined err write pass reads := by
  refine (Routine.Confined.demand _).bind fun items => ?_
  cases items with
  | nil => exact plain rfl
  | cons first rest =>
    refine (confined_ofPlain plain (CallHead.ofValue_plainFailure _)).bind fun head => ?_
    exact (Routine.Confined.demand _).bind fun t => trivial

omit plain in
theorem list2_confined (call : SpecialCall) : (list2 call).Confined err write pass reads :=
  (Routine.Confined.demand _).bind fun _ => trivial

theorem Op.routine_confined {host : String → SpecialCall → Routine Value}
    (hhost : ∀ name call, (host name call).Confined err write pass reads) (op : Op)
    (call : SpecialCall) : (op.routine host call).Confined err write pass reads := by
  cases op with
  | quote | expr => exact quote_confined plain call
  | quo => exact quo_confined plain call
  | enexpr => exact enexpr_confined plain call
  | enquo => exact enquo_confined plain call
  | ensym => exact ensym_confined plain call
  | enexprs => exact enexprs_confined plain call
  | enquos => exact enquos_confined plain call
  | evalTidy => exact evalTidy_confined plain call
  | call2 => exact call2_confined plain call
  | list2 => exact list2_confined call
  | host name => exact hhost name call

end

end Special

end Quotation
