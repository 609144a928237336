import Quotation.Proofs.Capturing
import Quotation.Proofs.Masking.Masks

namespace Quotation

section

variable {eng : Engine} {ev ev' : Evaluator} {f : FrameId} {m m' : Option Mask} {α : Type}

theorem Relocation.masking_place {t : Tree} (h : Mask.Alike t m m') :
    (masking eng).place t f m f m' := ⟨rfl, h⟩

abbrev Evaluator.IgnoresMasks (eng : Engine) (ev ev' : Evaluator) : Prop :=
  (Relocation.masking eng).RelatedEvaluators ev ev'

abbrev Eval.SameButMasks (eng : Engine) (x y : Eval α) : Prop :=
  (Relocation.masking eng).Related (Relocation.Same fun _ => True) x y

theorem runRoutine_sameButMasks (hev : Evaluator.IgnoresMasks eng ev ev') {r r' : Routine α}
    (hr : r.Alike r') :
    Eval.SameButMasks eng (runRoutine eng ev r) (runRoutine eng ev' r') := by
  induction hr with
  | done a => exact Relocation.Agree.pure a
  | fail e => exact .fail e
  | ask d _ ih => exact (Relocation.answer_related hev d).attempt.bind ih
  | evaluate h _ ih =>
    exact (Relocation.Agree.ofSame (hev (Relocation.masking_place h))).attempt.bind ih
  | arguments h _ ih =>
    exact (Relocation.evalDynamicSlots_related hev fun slot hslot =>
      Relocation.masking_place (h slot hslot)).attempt.bind ih
  | resolve h _ ih =>
    exact (Relocation.resolve_related hev (Relocation.masking_place h)).attempt.bind ih
  | inspect _ ih => exact .heap fun h h' ha => ih h h' (Relocation.masking_alike_iff.1 ha)
  | newFrame parent isCall _ ih => exact (Relocation.newFrame_related parent isCall).bind ih
  | newPromise h _ ih =>
    exact (Relocation.newPromise_related (Relocation.masking_place h)).bind ih
  | rebind f name b _ ih => exact (Relocation.rebind_related f name b).bind fun _ => ih
  | identity _ ih => exact Relocation.Agree.bind (.onWorld fun _ _ _ => trivial) ih
  | depth _ ih => exact .depth ih

theorem maskingSpecials (hhost : eng.host.IgnoresMasks) : (Relocation.masking eng).Specials where
  special := by
    rintro ev ev' s head args f m f' m' hev - ⟨rfl, hm⟩
    exact runRoutine_sameButMasks hev (s.op.routine_alike hhost hm.argument)

theorem evaluate_sameButMasks (hhost : eng.host.IgnoresMasks) (fuel : Nat) {t : Tree}
    (ht : Mask.Alike t m m') (f : FrameId) (s : State) :
    Outcome.SameButMasks (evaluate eng fuel t f m s) (evaluate eng fuel t f m' s) := by
  have := maskingSpecials hhost
  have hheap : (Relocation.masking eng).Alike s.heap s.heap :=
    Relocation.masking_alike_iff.2 ⟨rfl, fun _ => rfl, rfl,
      fun _ => ⟨rfl, rfl, .refl _ _, rfl, rfl, rfl⟩⟩
  have hstates : ∀ s s', (Relocation.masking eng).AlikeStates s s' → s.SameButMasks s' :=
    fun _ _ hs => ⟨Relocation.masking_alike_iff.1 hs.heap, hs.depth, hs.world, hs.log⟩
  have hends := Relocation.evaluate_related (L := Relocation.masking eng) fuel (f := f) ⟨rfl, ht⟩
    s s ⟨hheap, rfl, rfl, rfl⟩
  generalize evaluate eng fuel t f m s = r at hends ⊢
  generalize evaluate eng fuel t f m' s = r' at hends ⊢
  cases hends with
  | ok h hs =>
    obtain ⟨rfl, -⟩ := h
    exact .ok (hstates _ _ hs)
  | error hs => exact .error (hstates _ _ hs)

/-- Evaluation of a tree without markers under a mask that has no entry for any name in the tree is
evaluation without a mask: the same value or the same error, and the same final state but for the
masks in promises. In particular, an empty mask is the same as none. -/
theorem masks_are_local {t : Tree} {mask : Mask} (hhost : eng.host.IgnoresMasks)
    (ht : t.hasMarkers = false) (hnames : ∀ name ∈ t.references, name ∉ mask.names) (fuel : Nat)
    (f : FrameId) (s : State) :
    Outcome.SameButMasks (evaluate eng fuel t f (some mask) s) (evaluate eng fuel t f none s) ∧
      Outcome.SameButMasks (evaluate eng fuel t f (some NameTable.empty) s)
        (evaluate eng fuel t f none s) := by
  have hmask : Mask.Alike t (some mask) none := .agree ht fun name hn =>
    ((NameTable.get?_eq_none_iff mask name).2 (hnames name hn)).symm
  have hempty : Mask.Alike t (some NameTable.empty) none := .agree ht fun _ _ => rfl
  exact ⟨evaluate_sameButMasks hhost fuel hmask f s, evaluate_sameButMasks hhost fuel hempty f s⟩

end

def Closure.reading : Closure Tree := ⟨some "reader", [], .reference "x", 0, 1⟩

def State.withReader : State where
  heap := ((({} : Heap).newFrame none false).2.define 0 "x" (.int 1)).define 0 "reader"
    (.closure .reading)

theorem mask_hidden_from_closure :
    let eng : Engine := { host := Session.blindHost }
    let t : Tree := .callNamed "reader" []
    Outcome.SameButMasks (evaluate eng 4 t 0 (some .hidingX) .withReader)
        (evaluate eng 4 t 0 none .withReader) ∧
      Outcome.value? (evaluate eng 4 t 0 (some .hidingX) .withReader) = some (.int 1) := by
  intro eng t
  have hnames : ∀ name ∈ t.references, name ∉ Mask.hidingX.names := by decide
  exact ⟨(masks_are_local Session.blindHost_ignoresMasks rfl hnames 4 0 .withReader).1, rfl⟩

end Quotation
