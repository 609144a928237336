import Quotation.Proofs.SpecialCall

namespace Quotation

def Eval.ComesTo {α : Type} (act : Eval α) (x : Except Error α) : Prop :=
  ∀ s, ∃ u : State, u.Deeper 0 s ∧ act s = Eval.ofExcept x u

namespace Eval.ComesTo

variable {α β : Type} {act : Eval α} {x : Except Error α}

theorem ofExcept (x : Except Error α) : (Eval.ofExcept x).ComesTo x :=
  fun s => ⟨s, .refl s, rfl⟩

theorem pure (a : α) : (Pure.pure a : Eval α).ComesTo (.ok a) := .ofExcept (.ok a)

theorem trace (on : Bool) (message : String) : (Eval.trace on message).ComesTo (.ok ()) :=
  fun s => ⟨s.traced on message, (State.Deeper.refl s).traced on false message "",
    Eval.trace_apply on message s⟩

theorem debug (message : String) : (Eval.debug message).ComesTo (.ok ()) :=
  fun s => ⟨s.record ⟨.debug, message⟩, ⟨rfl, rfl, rfl⟩, rfl⟩

theorem bind (h : act.ComesTo x) {f : α → Eval β} {g : α → Except Error β}
    (hf : ∀ a, (f a).ComesTo (g a)) : (act >>= f).ComesTo (x >>= g) := by
  intro s
  obtain ⟨u, hu, hact⟩ := h s
  rw [Eval.bind_apply, hact]
  cases x with
  | error e => exact ⟨u, hu, rfl⟩
  | ok a =>
    obtain ⟨w, hw, hnext⟩ := hf a u
    exact ⟨w, hw.trans_same hu, hnext⟩

theorem map (h : act.ComesTo x) (f : α → β) :
    (act >>= fun a => Pure.pure (f a)).ComesTo (x.map f) := by
  have hmap := h.bind fun a => .pure (f a)
  cases x <;> exact hmap

theorem noted (h : act.ComesTo x) (on : Bool) (message : α → String) :
    (act >>= fun a => Eval.trace on (message a) >>= fun _ => Pure.pure a).ComesTo x := by
  have hnoted := h.bind fun a => (ComesTo.trace on (message a)).bind fun _ => .pure a
  cases x <;> exact hnoted

theorem nested (h : act.ComesTo x) {maxDepth : Nat} {s : State} (hdepth : s.depth < maxDepth) :
    ∃ u : State, u.Deeper 0 s ∧ Eval.nested maxDepth act s = Eval.ofExcept x u := by
  obtain ⟨u, hu, hact⟩ := h (s.mapDepth (· + 1))
  rw [Eval.nested_apply, if_pos hdepth, hact]
  have hback : (u.mapDepth (· - 1)).Deeper 0 s := hu.leave rfl
  cases x <;> exact ⟨_, hback, rfl⟩

end Eval.ComesTo

/-- The evaluator gives literals their values. -/
def LiteralsStand (ev : Evaluator) : Prop :=
  ∀ v env mask s, ev (.literal v) env mask s = .ok v s

theorem evaluate_literalsStand (eng : Engine) (fuel : Nat) :
    LiteralsStand (evaluate eng (fuel + 1)) := fun _ _ _ _ => rfl

variable {eng : Engine} {ev : Evaluator} {env : FrameId} {mask : Option Mask}

theorem LiteralsStand.eq_pure (hev : LiteralsStand ev) (v : Value) (env : FrameId)
    (mask : Option Mask) : ev (.literal v) env mask = pure v :=
  funext (hev v env mask)

theorem resolveUnquote_literal (hev : LiteralsStand ev) (v : Value) :
    resolveUnquote eng ev (.literal v) env mask = do
      let t ← Eval.ofExcept (Tree.ofValue v)
      Eval.trace eng.trace ("!!" ++ (Tree.literal v).text ++ " => " ++ t.text)
      return t := by
  rw [resolveUnquote, hev.eq_pure, pure_bind]

theorem resolveSplice_literal (hev : LiteralsStand ev) (v : Value) :
    resolveSplice eng ev (.literal v) env mask = do
      let slots ← Eval.ofExcept (Slot.ofSequence v)
      Eval.trace eng.trace
        ("!!!" ++ (Tree.literal v).text ++ " => " ++ toString slots.length ++ " argument(s)")
      return slots := by
  rw [resolveSplice, hev.eq_pure, pure_bind]

theorem resolveName_literal (hev : LiteralsStand ev) (v : Value) :
    resolveName ev (.literal v) env mask = Eval.ofExcept v.toName := by
  rw [resolveName, hev.eq_pure, pure_bind]

theorem resolveUnquote_comesTo (hev : LiteralsStand ev) (v : Value) :
    (resolveUnquote eng ev (.literal v) env mask).ComesTo (Tree.ofValue v) := by
  rw [resolveUnquote_literal hev]
  exact (Eval.ComesTo.ofExcept _).noted _ _

theorem resolveSplice_comesTo (hev : LiteralsStand ev) (v : Value) :
    (resolveSplice eng ev (.literal v) env mask).ComesTo (Slot.ofSequence v) := by
  rw [resolveSplice_literal hev]
  exact (Eval.ComesTo.ofExcept _).noted _ _

theorem resolveName_comesTo (hev : LiteralsStand ev) (v : Value) :
    (resolveName ev (.literal v) env mask).ComesTo v.toName := by
  rw [resolveName_literal hev]
  exact .ofExcept _

def State.resolving (s : State) (t : Tree) : State := s.record ⟨.debug, "resolve " ++ t.text⟩

theorem State.deeper_resolving (s : State) (t : Tree) : s.Deeper 0 (s.resolving t) :=
  ⟨rfl, rfl, rfl⟩

end Quotation
