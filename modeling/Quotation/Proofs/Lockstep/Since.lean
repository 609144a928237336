import Quotation.Proofs.Limit

namespace Quotation

structure State.SameSince (l₁ l₂ : List Log.Record) (s₁ s₂ : State) : Prop where
  same : s₁.Deeper 0 s₂
  log : ∃ new, s₁.log = new ++ l₁ ∧ s₂.log = new ++ l₂

namespace State.SameSince

variable {l₁ l₂ : List Log.Record} {s₁ s₂ : State}

theorem mapHeap (h : SameSince l₁ l₂ s₁ s₂) (g : Heap → Heap) :
    SameSince l₁ l₂ (s₁.mapHeap g) (s₂.mapHeap g) := ⟨h.same.mapHeap g, h.log⟩

theorem record (h : SameSince l₁ l₂ s₁ s₂) (r : Log.Record) :
    SameSince l₁ l₂ (s₁.record r) (s₂.record r) := by
  obtain ⟨new, hlog₁, hlog₂⟩ := h.log
  exact ⟨h.same.record r r, r :: new, congrArg (r :: ·) hlog₁, congrArg (r :: ·) hlog₂⟩

theorem traced (h : SameSince l₁ l₂ s₁ s₂) (on : Bool) (m : String) :
    SameSince l₁ l₂ (s₁.traced on m) (s₂.traced on m) := by
  cases on with
  | false => exact h
  | true => exact h.record _

theorem leave (h : SameSince l₁ l₂ s₁ s₂) :
    SameSince l₁ l₂ (s₁.mapDepth (· - 1)) (s₂.mapDepth (· - 1)) :=
  ⟨⟨h.same.heap, h.same.world, congrArg (· - 1) h.same.depth⟩, h.log⟩

end State.SameSince

inductive Outcome.SameSince {α : Type} (l₁ l₂ : List Log.Record) : Outcome α → Outcome α → Prop
  | ok {a s₁ s₂} : State.SameSince l₁ l₂ s₁ s₂ → SameSince l₁ l₂ (.ok a s₁) (.ok a s₂)
  | error {h s₁ s₂} : State.SameSince l₁ l₂ s₁ s₂ → SameSince l₁ l₂ (.error h s₁) (.error h s₂)

namespace Outcome.SameSince

variable {α : Type} {l₁ l₂ : List Log.Record} {r₁ r₂ : Outcome α}

theorem eq {l : List Log.Record} (h : SameSince l l r₁ r₂) : r₁ = r₂ := by
  have hstate : ∀ s₁ s₂, State.SameSince l l s₁ s₂ → s₁ = s₂ := by
    intro s₁ s₂ h
    obtain ⟨new, hlog₁, hlog₂⟩ := h.log
    exact h.same.eq_of_log (hlog₁.trans hlog₂.symm)
  cases h with
  | ok h => rw [hstate _ _ h]
  | error h => rw [hstate _ _ h]

end Outcome.SameSince

def Lockstep.since (eng : Engine) : Lockstep eng eng where
  Origin := List Log.Record × List Log.Record
  rel o s₁ s₂ := s₁.SameSince o.1 o.2 s₂
  excused _ := False
  err _ := True
  write _ _ _ := True
  reads := True
  host := .refl eng
  heap h := h.same.heap
  world h := h.same.world
  depth _ h := h.same.depth
  plain _ := trivial
  builtin _ := trivial
  setWorld h w := ⟨h.same.withWorld w, h.log⟩
  debug h m := h.record _
  trace {_ s₁ s₂} h m := by
    have hdepth : s₁.depth = s₂.depth := h.same.depth
    exact hdepth ▸ h.traced eng.trace (m s₁.depth)
  enter {o s₁ s₂} h hlt := by
    have hdepth : s₁.depth = s₂.depth := h.same.depth
    exact ⟨hdepth ▸ hlt, o, ⟨h.same.enter, h.log⟩, fun _ _ ht => ht.leave⟩
  overflow h _ := .inr ⟨rfl, h.same.depth, trivial⟩
  capture h p := h.mapHeap _
  promise h expr env mask := h.mapHeap _
  frame h parent isCall := h.mapHeap _
  formals h parent formals m := h.mapHeap _
  rebind h _ := h.mapHeap _

instance (eng : Engine) : (Lockstep.since eng).Passes where
  special _ _ := Routine.confined_of_raises fun _ _ => trivial
  marker h := h.elim

instance (eng : Engine) : (Lockstep.since eng).Forces where
  force {o _ _ _} h _ := ⟨o, h.mapHeap _, fun _ _ ht => ⟨fun _ => ht.mapHeap _, ht.mapHeap _⟩⟩

theorem Lockstep.Related.sameSince {eng : Engine} {α : Type} {x : Eval α} {s₁ s₂ : State}
    {l₁ l₂ : List Log.Record} (h : (Lockstep.since eng).Related x x) (hs : s₁.SameSince l₁ l₂ s₂) :
    Outcome.SameSince l₁ l₂ (x s₁) (x s₂) := by
  have hends := h (l₁, l₂) s₁ s₂ hs
  generalize x s₁ = r₁ at hends ⊢
  generalize x s₂ = r₂ at hends ⊢
  cases hends with
  | ok ht => exact .ok ht
  | failed ht | outOfFuel ht => exact .error ht
  | excused he | carried _ he => exact he.elim

end Quotation
