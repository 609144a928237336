import Quotation.Proofs.Limit

/-! What is the same on every level. Nothing reads the log, so a run is the same whatever the log
says. The depth can be asked for, and the limit can be met; a computation that does neither does the
same one level deeper. -/

namespace Quotation

/-- Outcomes that are the same, the first one `k` levels deeper, unless it tells the limit. -/
inductive Outcome.Deeper {α : Type} (k : Nat) : Outcome α → Outcome α → Prop
  | ok {a s₁ s₂} : s₁.Deeper k s₂ → Deeper k (.ok a s₁) (.ok a s₂)
  | error {h s₁ s₂} : s₁.Deeper k s₂ → Deeper k (.error h s₁) (.error h s₂)
  | limit {e s₁ r} : e.TellsLimit → Deeper k (.error (.failed e) s₁) r

namespace Outcome.Deeper

variable {α β : Type} {k : Nat} {r₁ r₂ : Outcome α}

theorem follow (h : Deeper k r₁ r₂) {f g : α → State → Outcome β} {k₁ k₂ : State → State}
    (hok : ∀ a s₁ s₂, r₂ = .ok a s₂ → s₁.Deeper k s₂ → Deeper k (f a s₁) (g a s₂))
    (herr : ∀ h s₁ s₂, r₂ = .error h s₂ → s₁.Deeper k s₂ → (k₁ s₁).Deeper k (k₂ s₂)) :
    Deeper k (r₁.follow f k₁) (r₂.follow g k₂) := by
  cases h with
  | ok h => exact hok _ _ _ rfl h
  | error h => exact .error (herr _ _ _ rfl h)
  | limit he => exact .limit he

theorem of_not_hitsLimit (h : Deeper k r₁ r₂) (hr : ¬ r₁.HitsLimit) :
    (∃ a s₁ s₂, r₁ = .ok a s₁ ∧ r₂ = .ok a s₂ ∧ s₁.Deeper k s₂) ∨
      ∃ h s₁ s₂, r₁ = .error h s₁ ∧ r₂ = .error h s₂ ∧ s₁.Deeper k s₂ := by
  cases h with
  | ok h => exact .inl ⟨_, _, _, rfl, rfl, h⟩
  | error h => exact .inr ⟨_, _, _, rfl, rfl, h⟩
  | limit he => exact absurd ⟨_, _, rfl, he⟩ hr

end Outcome.Deeper

theorem State.Deeper.trans_same {k : Nat} {s₁ s₂ s₃ : State} (h : s₁.Deeper k s₂)
    (h' : s₂.Deeper 0 s₃) : s₁.Deeper k s₃ :=
  ⟨h.heap.trans h'.heap, h.world.trans h'.world, by rw [h.depth, h'.depth, Nat.add_zero]⟩

theorem State.Deeper.symm_same {s₁ s₂ : State} (h : s₁.Deeper 0 s₂) : s₂.Deeper 0 s₁ :=
  ⟨h.heap.symm, h.world.symm, h.depth.symm⟩

def Lockstep.unlogged (eng : Engine) : Lockstep eng eng where
  Origin := Unit
  rel _ s₁ s₂ := s₁.Deeper 0 s₂
  excused _ := False
  err _ := True
  write _ _ _ := True
  reads := True
  host := .refl eng
  heap h := h.heap
  world h := h.world
  depth _ h := h.depth
  plain _ := trivial
  builtin _ := trivial
  setWorld h w := h.withWorld w
  debug h m := h.record _ _
  trace h m := h.traced _ _ _ _
  enter {_ s₁ s₂} h hlt := by
    have hdepth : s₁.depth = s₂.depth := h.depth
    refine ⟨hdepth ▸ hlt, (), h.enter, fun t₁ t₂ ht => ⟨ht.heap, ht.world, ?_⟩⟩
    exact congrArg (· - 1) ht.depth
  overflow h _ := .inr ⟨rfl, h.depth, trivial⟩
  capture h p := h.mapHeap _
  promise h expr env mask := h.mapHeap _
  frame h parent isCall := h.mapHeap _
  formals h parent formals m := h.mapHeap _
  rebind h _ := h.mapHeap _

instance (eng : Engine) : (Lockstep.unlogged eng).Passes where
  special _ _ := Routine.confined_of_raises fun _ _ => trivial
  marker h := h.elim

instance (eng : Engine) : (Lockstep.unlogged eng).Forces where
  force h _ := ⟨(), h.mapHeap _, fun _ _ ht => ⟨fun _ => ht.mapHeap _, ht.mapHeap _⟩⟩

abbrev IgnoresLog (eng : Engine) (ev : Evaluator) : Prop :=
  (Lockstep.unlogged eng).RelatedEvaluators ev ev

theorem evaluate_ignoresLog (eng : Engine) (fuel : Nat) : IgnoresLog eng (evaluate eng fuel) :=
  evaluate_related fuel

section

variable {eng : Engine} {α : Type} {x : Eval α} {s₁ s₂ : State}

theorem Lockstep.Related.same (h : (Lockstep.unlogged eng).Related x x) (hs : s₁.Deeper 0 s₂) :
    (∃ a t₁ t₂, x s₁ = .ok a t₁ ∧ x s₂ = .ok a t₂ ∧ t₁.Deeper 0 t₂) ∨
      ∃ h t₁ t₂, x s₁ = .error h t₁ ∧ x s₂ = .error h t₂ ∧ t₁.Deeper 0 t₂ := by
  have hends := h () s₁ s₂ hs
  generalize x s₁ = r₁ at hends ⊢
  generalize x s₂ = r₂ at hends ⊢
  cases hends with
  | ok ht => exact .inl ⟨_, _, _, rfl, rfl, ht⟩
  | failed ht | outOfFuel ht => exact .inr ⟨_, _, _, rfl, rfl, ht⟩
  | excused he | carried _ he => exact he.elim

theorem Lockstep.Related.deeper (h : (Lockstep.unlogged eng).Related x x) (hs : s₁.Deeper 0 s₂)
    {k : Nat} {r : Outcome α} (hr : Outcome.Deeper k r (x s₁)) : Outcome.Deeper k r (x s₂) := by
  rcases h.same hs with ⟨a, t₁, t₂, h₁, h₂, ht⟩ | ⟨halt, t₁, t₂, h₁, h₂, ht⟩
  · rw [h₁] at hr
    rw [h₂]
    cases hr with
    | ok h => exact .ok (h.trans_same ht)
    | limit he => exact .limit he
  · rw [h₁] at hr
    rw [h₂]
    cases hr with
    | error h => exact .error (h.trans_same ht)
    | limit he => exact .limit he

theorem Lockstep.Related.ok_same (h : (Lockstep.unlogged eng).Related x x) (hs : s₁.Deeper 0 s₂)
    {a : α} {t₂ : State} (ht₂ : x s₂ = .ok a t₂) : ∃ t₁, x s₁ = .ok a t₁ ∧ t₁.Deeper 0 t₂ := by
  rcases h.same hs with ⟨b, t₁, t₂', h₁, h₂, ht⟩ | ⟨halt, t₁, t₂', -, h₂, -⟩
  · rw [h₂] at ht₂
    cases ht₂
    exact ⟨t₁, h₁, ht⟩
  · rw [h₂] at ht₂
    cases ht₂

end

def Eval.LevelBlind {α : Type} (x : Eval α) (s : State) : Prop :=
  ∀ s₁, s₁.Deeper 1 s → Outcome.Deeper 1 (x s₁) (x s)

namespace Eval.LevelBlind

variable {α β : Type} {s : State}

theorem pure (a : α) : (Pure.pure a : Eval α).LevelBlind s := fun _ h => .ok h

theorem fail (e : Error) : (Eval.fail e : Eval α).LevelBlind s := fun _ h => .error h

theorem ofExcept (x : Except Error α) : (Eval.ofExcept x).LevelBlind s := by
  cases x with
  | ok a => exact .pure a
  | error e => exact .fail e

theorem debug (m : String) : (Eval.debug m).LevelBlind s := fun _ h => .ok (h.record _ _)

theorem trace (on : Bool) (m : String) : (Eval.trace on m).LevelBlind s := by
  intro s₁ h
  rw [Eval.trace_apply, Eval.trace_apply]
  exact .ok (h.traced _ _ _ _)

theorem bind {x : Eval α} {f : α → Eval β} (hx : x.LevelBlind s)
    (hf : ∀ a t, x s = .ok a t → (f a).LevelBlind t) : (x >>= f).LevelBlind s := by
  intro s₁ h
  rw [Eval.bind_apply, Eval.bind_apply]
  exact (hx s₁ h).follow (fun a t₁ t₂ hr ht => hf a t₂ hr t₁ ht) fun _ _ _ _ ht => ht

theorem nested {x : Eval α} {maxDepth : Nat}
    (hkeeps : (Outcome.state (x (s.mapDepth (· + 1)))).depth = s.depth + 1)
    (hx : s.depth < maxDepth → x.LevelBlind (s.mapDepth (· + 1))) :
    (Eval.nested maxDepth x).LevelBlind s := by
  intro s₁ h
  rw [Eval.nested_apply, Eval.nested_apply]
  have hdepth := h.depth
  by_cases hd : s₁.depth < maxDepth
  · have hd' : s.depth < maxDepth := by omega
    have hback : ∀ t₁ t : State, t.depth = s.depth + 1 → t₁.Deeper 1 t →
        (t₁.mapDepth (· - 1)).Deeper 1 (t.mapDepth (· - 1)) := by
      intro t₁ t ht h
      have hlevel := h.depth
      exact ⟨h.heap, h.world, by simp only [State.mapDepth]; omega⟩
    rw [if_pos hd, if_pos hd']
    refine (hx hd' _ h.enter).follow (fun a t₁ t hr ht => .ok ?_) fun halt t₁ t hr ht => ?_
    · rw [hr] at hkeeps
      exact hback t₁ t hkeeps ht
    · rw [hr] at hkeeps
      exact hback t₁ t hkeeps ht
  · rw [if_neg hd]
    exact .limit trivial

theorem ofLog {eng : Engine} {x : Eval α} (hx : (Lockstep.unlogged eng).Related x x) {s' : State}
    (hs : s.Deeper 0 s') (h : x.LevelBlind s) : x.LevelBlind s' := by
  intro s₁ h₁
  exact hx.deeper hs (h s₁ (h₁.trans_same hs.symm_same))

end Eval.LevelBlind

end Quotation
