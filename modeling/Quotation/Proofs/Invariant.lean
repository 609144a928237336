import Quotation.Proofs.Heap
import Quotation.Proofs.Lockstep.Engine

/-! Invariants of the heap. A property of heaps that survives what the engine does to the heap
outside of forcing is kept by every operation, given that forcing keeps it. It is a lockstep of an
engine with itself, so that at the same time it tells whether two evaluators can be told apart. -/

namespace Quotation

/-- A property of heaps that no step outside of forcing destroys. -/
structure HeapInvariant (I : Heap → Prop) : Prop where
  capture : ∀ {h}, I h → ∀ p, I (h.markCaptured p)
  promise : ∀ {h}, I h → ∀ expr env mask, I (h.newPromise { expr, env, mask }).2
  frame : ∀ {h}, I h → ∀ parent isCall, I (h.newFrame parent isCall).2
  rebind : ∀ {h}, I h → ∀ f name b, I (h.rebind f name b)

theorem HeapInvariant.formals {I : Heap → Prop} (hI : HeapInvariant I) {h : Heap} (hh : I h)
    (parent : Option FrameId) (formals : List (Formal Tree)) (m : Matching) :
    I (bindMatching h.frames.size formals m (h.newFrame parent true).2) :=
  Heap.bindMatching_induction (P := I) (T := fun _ => True) (Q := fun _ => True)
    (fun _ name p hh _ => hI.rebind hh _ name (some (.promise p)))
    (fun _ name t hh _ => hI.rebind (hI.promise hh t _ none) _ name (some (.promise _)))
    (fun _ name hh => hI.rebind hh _ name (some .missing))
    (fun _ args hh _ => hI.rebind hh _ dotsName (some (.dots args)))
    (fun _ _ _ _ => trivial) (fun _ _ => trivial) (fun _ _ _ _ => trivial) (hI.frame hh parent true)

theorem HeapInvariant.and {I J : Heap → Prop} (hI : HeapInvariant I) (hJ : HeapInvariant J) :
    HeapInvariant fun h => I h ∧ J h where
  capture hh p := ⟨hI.capture hh.1 p, hJ.capture hh.2 p⟩
  promise hh expr env mask := ⟨hI.promise hh.1 expr env mask, hJ.promise hh.2 expr env mask⟩
  frame hh parent isCall := ⟨hI.frame hh.1 parent isCall, hJ.frame hh.2 parent isCall⟩
  rebind hh f name b := ⟨hI.rebind hh.1 f name b, hJ.rebind hh.2 f name b⟩

namespace Lockstep

def ofInvariant (eng : Engine) {I : Heap → Prop} (hI : HeapInvariant I) : Lockstep eng eng where
  Origin := Unit
  rel _ s₁ s₂ := s₁ = s₂ ∧ I s₁.heap
  excused _ := False
  err _ := True
  write _ _ _ := True
  reads := True
  host := .refl eng
  heap h := congrArg State.heap h.1
  world h := congrArg State.world h.1
  depth _ h := congrArg State.depth h.1
  plain _ := trivial
  builtin _ := trivial
  setWorld h _ := ⟨by rw [h.1], h.2⟩
  debug h _ := ⟨by rw [h.1], h.2⟩
  trace := by
    rintro _ s _ ⟨rfl, h⟩ m
    refine ⟨rfl, ?_⟩
    unfold State.traced
    split <;> exact h
  enter := by
    rintro _ s _ ⟨rfl, h⟩ hlt
    refine ⟨hlt, (), ⟨rfl, h⟩, ?_⟩
    rintro t _ ⟨rfl, ht⟩
    exact ⟨rfl, ht⟩
  overflow h _ := .inr ⟨rfl, congrArg State.depth h.1, trivial⟩
  capture := by rintro _ s _ ⟨rfl, h⟩ p; exact ⟨rfl, hI.capture h p⟩
  promise := by rintro _ s _ ⟨rfl, h⟩ expr env mask; exact ⟨rfl, hI.promise h expr env mask⟩
  frame := by rintro _ s _ ⟨rfl, h⟩ parent isCall; exact ⟨rfl, hI.frame h parent isCall⟩
  formals := by
    rintro _ s _ ⟨rfl, h⟩ parent formals m
    exact ⟨rfl, hI.formals h parent formals m⟩
  rebind := by rintro _ s _ f name b ⟨rfl, h⟩ -; exact ⟨rfl, hI.rebind h f name b⟩

variable {eng : Engine} {I : Heap → Prop} {hI : HeapInvariant I} {α : Type}

instance : (ofInvariant eng hI).Passes where
  special _ _ := Routine.confined_of_raises fun _ _ => trivial
  marker h := h.elim

theorem ends_ofInvariant_iff {r₁ r₂ : Outcome α} :
    (ofInvariant eng hI).Ends () r₁ r₂ ↔ r₁ = r₂ ∧ I (Outcome.state r₂).heap := by
  constructor
  · intro h
    cases h with
    | ok h | failed h | outOfFuel h =>
      obtain ⟨rfl, h⟩ := h
      exact ⟨rfl, h⟩
    | excused h | carried _ h => exact h.elim
  · rintro ⟨rfl, h⟩
    cases r₁ with
    | ok a s => exact .ok ⟨rfl, h⟩
    | error e s =>
      cases e with
      | failed e => exact .failed ⟨rfl, h⟩ trivial
      | outOfFuel => exact .outOfFuel ⟨rfl, h⟩

theorem related_ofInvariant_iff {x y : Eval α} :
    (ofInvariant eng hI).Related x y ↔
      ∀ s, I s.heap → x s = y s ∧ I (Outcome.state (y s)).heap := by
  constructor
  · intro h s hs
    exact ends_ofInvariant_iff.1 (h () s s ⟨rfl, hs⟩)
  · rintro h _ s _ ⟨rfl, hs⟩
    exact ends_ofInvariant_iff.2 (h s hs)

theorem forces_ofInvariant (hforce : ∀ {h}, I h → ∀ p,
    I (h.beginForce p) ∧ (∀ v, I (h.finishForce p v)) ∧ I (h.abandonForce p)) :
    (ofInvariant eng hI).Forces where
  force := by
    rintro _ s _ p ⟨rfl, hs⟩ -
    refine ⟨(), ⟨rfl, (hforce hs p).1⟩, ?_⟩
    rintro t _ ⟨rfl, ht⟩
    exact ⟨fun v => ⟨rfl, (hforce ht p).2.1 v⟩, rfl, (hforce ht p).2.2⟩

theorem Related.right {x y : Eval α} (h : (ofInvariant eng hI).Related x y) :
    (ofInvariant eng hI).Related y y :=
  related_ofInvariant_iff.2 fun s hs => ⟨rfl, (related_ofInvariant_iff.1 h s hs).2⟩

theorem RelatedEvaluators.right {ev₁ ev₂ : Evaluator}
    (h : (ofInvariant eng hI).RelatedEvaluators ev₁ ev₂) :
    (ofInvariant eng hI).RelatedEvaluators ev₂ ev₂ :=
  ⟨fun t env mask => (h.eval t env mask).right, fun p => (h.force p).right⟩

end Lockstep

end Quotation
