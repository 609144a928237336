import Quotation.Proofs.Heap
import Quotation.Proofs.Lockstep.Engine

/-! Names that nothing rebinds. The engine binds names in the frames that it makes and in no other;
only the specials of a host bind names in frames that are there. So a name that they spare is bound
as before, in every frame that there was, when a run has ended. -/

namespace Quotation

structure Heap.KeepsName (name : String) (h h' : Heap) : Prop where
  size : h.frames.size ≤ h'.frames.size
  binding : ∀ f < h.frames.size, h'.binding? f name = h.binding? f name
  enclosing : ∀ f < h.frames.size, (h'.frame f).enclosing = (h.frame f).enclosing

namespace Heap.KeepsName

variable {name : String} {h₀ h h' : Heap} {f : FrameId}

theorem refl (h : Heap) : h.KeepsName name h := ⟨Nat.le_refl _, fun _ _ => rfl, fun _ _ => rfl⟩

theorem trans (hk : h₀.KeepsName name h) (hk' : h.KeepsName name h') : h₀.KeepsName name h' where
  size := Nat.le_trans hk.size hk'.size
  binding f hf := (hk'.binding f (Nat.lt_of_lt_of_le hf hk.size)).trans (hk.binding f hf)
  enclosing f hf := (hk'.enclosing f (Nat.lt_of_lt_of_le hf hk.size)).trans (hk.enclosing f hf)

theorem chain (hk : h.KeepsName name h') (hf : f < h.frames.size) : h'.chain f = h.chain f := by
  rw [Heap.chain, hk.enclosing f hf, Heap.chain]

theorem withPromises (hk : h₀.KeepsName name h) (promises : Array Promise) :
    h₀.KeepsName name { h with promises } := ⟨hk.size, hk.binding, hk.enclosing⟩

theorem newFrame (hk : h₀.KeepsName name h) (parent : Option FrameId) (isCall : Bool) :
    h₀.KeepsName name (h.newFrame parent isCall).2 where
  size := by
    rw [size_frames_newFrame]
    exact Nat.le_succ_of_le hk.size
  binding f hf := by rw [binding?_newFrame, hk.binding f hf]
  enclosing f hf := by
    have hold : f ≠ h.frames.size := Nat.ne_of_lt (Nat.lt_of_lt_of_le hf hk.size)
    rw [frame_newFrame, if_neg hold, hk.enclosing f hf]

theorem rebind (hk : h₀.KeepsName name h) {other : String}
    (hother : h₀.frames.size ≤ f ∨ other ≠ name) (b : Option Binding) :
    h₀.KeepsName name (h.rebind f other b) where
  size := by
    rw [size_frames_rebind]
    exact hk.size
  binding g hg := by
    rw [binding?_rebind, if_neg, hk.binding g hg]
    rintro ⟨rfl, -, rfl⟩
    rcases hother with hnew | hne
    · exact Nat.not_le_of_lt hg hnew
    · exact hne rfl
  enclosing g hg := by rw [enclosing_rebind, hk.enclosing g hg]

theorem bindMatching (hk : h₀.KeepsName name h) (parent : Option FrameId)
    (formals : List (Formal Tree)) (m : Matching) :
    h₀.KeepsName name
      (bindMatching h.frames.size formals m (h.newFrame parent true).2) :=
  Heap.bindMatching_induction (P := h₀.KeepsName name) (T := fun _ => True) (Q := fun _ => True)
    (fun _ _ p hh _ => hh.rebind (.inl hk.size) (some (.promise p)))
    (fun _ _ _ hh _ => (hh.withPromises _).rebind (.inl hk.size) (some (.promise _)))
    (fun _ _ hh => hh.rebind (.inl hk.size) (some .missing))
    (fun _ args hh _ => hh.rebind (.inl hk.size) (some (.dots args)))
    (fun _ _ _ _ => trivial) (fun _ _ => trivial) (fun _ _ _ _ => trivial) (hk.newFrame parent true)

end Heap.KeepsName

/-- The specials of a host do not bind a name. -/
def Host.Spares (host : Host) (name : String) : Prop :=
  ∀ special call, (host.special special call).Confined (fun _ => True)
    (fun _ other _ => other ≠ name) (fun _ => False) True

def Lockstep.sparing (eng : Engine) (name : String) : Lockstep eng eng where
  Origin := Heap
  rel h₀ s₁ s₂ := s₁ = s₂ ∧ h₀.KeepsName name s₁.heap
  excused _ := False
  err _ := True
  write _ other _ := other ≠ name
  reads := True
  host := .refl eng
  heap h := congrArg State.heap h.1
  world h := congrArg State.world h.1
  depth _ h := congrArg State.depth h.1
  plain _ := trivial
  builtin _ := trivial
  setWorld h _ := ⟨by rw [h.1], h.2⟩
  debug h _ := ⟨by rw [h.1], h.2⟩
  trace := by
    rintro h₀ s _ ⟨rfl, h⟩ m
    exact ⟨rfl, by rw [State.heap_traced]; exact h⟩
  enter := by
    rintro h₀ s _ ⟨rfl, h⟩ hlt
    refine ⟨hlt, h₀, ⟨rfl, h⟩, ?_⟩
    rintro t _ ⟨rfl, ht⟩
    exact ⟨rfl, ht⟩
  overflow h _ := .inr ⟨rfl, congrArg State.depth h.1, trivial⟩
  capture h _ := ⟨by rw [h.1], h.2.withPromises _⟩
  promise h _ _ _ := ⟨by rw [h.1], h.2.withPromises _⟩
  frame h parent isCall := ⟨by rw [h.1], h.2.newFrame parent isCall⟩
  formals h parent formals m := ⟨by rw [h.1], h.2.bindMatching parent formals m⟩
  rebind h hw := ⟨by rw [h.1], h.2.rebind (.inr hw) _⟩

instance (eng : Engine) (name : String) : (Lockstep.sparing eng name).Forces where
  force := by
    rintro h₀ s _ p ⟨rfl, h⟩ -
    refine ⟨h₀, ⟨rfl, h.withPromises _⟩, ?_⟩
    rintro t _ ⟨rfl, ht⟩
    exact ⟨fun v => ⟨rfl, ht.withPromises _⟩, rfl, ht.withPromises _⟩

theorem force_keepsName {eng : Engine} {name : String} (hhost : eng.host.Spares name) (fuel : Nat)
    (p : PromiseId) (s : State) :
    s.heap.KeepsName name (Outcome.state (force (evaluate eng fuel) p s)).heap := by
  have : (Lockstep.sparing eng name).Passes := ⟨hhost, fun h => h.elim, fun _ h => h⟩
  have hev := evaluate_related (L := .sparing eng name) fuel
  have hends := force_related hev p s.heap s s ⟨rfl, .refl _⟩
  generalize force (evaluate eng fuel) p s = r at hends ⊢
  cases hends with
  | ok h | failed h _ | outOfFuel h => exact h.2
  | excused h => exact h.elim

end Quotation
