import Quotation.Proofs.Termination.Closed

/-! Computations that end. The fuel of an engine only bounds how far its evaluator is unfolded, so
what is run is a computation for each amount of fuel; it settles if from some amount on all of them
give the same result or the same error. However it ends, a computation that settles has advanced:
its heap is closed and has kept what was there, and the depth is back to what it was. -/

namespace Quotation

structure Advances (s s' : State) : Prop where
  keeps : s.heap.Keeps s'.heap
  depth : s'.depth = s.depth
  closed : s'.heap.Closed

theorem Advances.refl {s : State} (h : s.heap.Closed) : Advances s s := ⟨.refl _, rfl, h⟩

theorem Advances.trans {s s' s'' : State} (h : Advances s s') (h' : Advances s' s'') :
    Advances s s'' :=
  ⟨h.keeps.trans h'.keeps, h'.depth.trans h.depth, h'.closed⟩

/-- With enough fuel, a computation gives a result that satisfies `Q` in the heap that it leaves, or
ends with an error; more fuel makes no difference. However it ends, it has advanced from the state
`s₀`, where it may be only a part of what began there. -/
def SettlesSince {α : Type} (s₀ : State) (F : Nat → Eval α) (s : State) (Q : Heap → α → Prop) :
    Prop :=
  ∃ n, (∃ a s', (∀ m ≥ n, F m s = .ok a s') ∧ Advances s₀ s' ∧ Q s'.heap a) ∨
    ∃ e s', (∀ m ≥ n, F m s = .error (.failed e) s') ∧ Advances s₀ s'

def Settles {α : Type} (F : Nat → Eval α) (s : State) (Q : Heap → α → Prop) : Prop :=
  SettlesSince s F s Q

namespace SettlesSince

variable {α β : Type} {s₀ s₁ s : State} {Q : Heap → α → Prop} {R : Heap → β → Prop}

theorem mono {Q' : Heap → α → Prop} {F : Nat → Eval α} (h : SettlesSince s₁ F s Q)
    (hs : ∀ s', Advances s₁ s' → Advances s₀ s')
    (hQ : ∀ s', Advances s₁ s' → ∀ a, Q s'.heap a → Q' s'.heap a) : SettlesSince s₀ F s Q' := by
  obtain ⟨n, ⟨a, s', hF, hs', ha⟩ | ⟨e, s', hF, hs'⟩⟩ := h
  · exact ⟨n, .inl ⟨a, s', hF, hs s' hs', hQ s' hs' a ha⟩⟩
  · exact ⟨n, .inr ⟨e, s', hF, hs s' hs'⟩⟩

theorem bind {F : Nat → Eval α} {G : Nat → α → Eval β} (hF : SettlesSince s₁ F s Q)
    (hs : ∀ s', Advances s₁ s' → Advances s₀ s')
    (hG : ∀ a s', Advances s₁ s' → Q s'.heap a → SettlesSince s₀ (fun m => G m a) s' R) :
    SettlesSince s₀ (fun m => F m >>= G m) s R := by
  obtain ⟨n, ⟨a, s', hF, hs', ha⟩ | ⟨e, s', hF, hs'⟩⟩ := hF
  · obtain ⟨k, hG⟩ := hG a s' hs' ha
    have hrun : ∀ m ≥ max n k, (F m >>= G m) s = G m a s' := fun m hm => by
      rw [Eval.bind_apply, hF m (Nat.le_trans (Nat.le_max_left n k) hm)]
      rfl
    have hmk : ∀ m ≥ max n k, m ≥ k := fun m hm => Nat.le_trans (Nat.le_max_right n k) hm
    refine ⟨max n k, hG.imp ?_ ?_⟩
    · rintro ⟨b, s'', hG, hs'', hb⟩
      exact ⟨b, s'', fun m hm => (hrun m hm).trans (hG m (hmk m hm)), hs'', hb⟩
    · rintro ⟨e, s'', hG, hs''⟩
      exact ⟨e, s'', fun m hm => (hrun m hm).trans (hG m (hmk m hm)), hs''⟩
  · have hrun : ∀ m ≥ n, (F m >>= G m) s = .error (.failed e) s' := fun m hm => by
      rw [Eval.bind_apply, hF m hm]
      rfl
    exact ⟨n, .inr ⟨e, s', hrun, hs s' hs'⟩⟩

end SettlesSince

namespace Settles

variable {α β : Type} {s : State} {Q Q' : Heap → α → Prop} {R : Heap → β → Prop}

theorem pure {a : α} (hs : s.heap.Closed) (ha : Q s.heap a) :
    Settles (fun _ => Pure.pure a) s Q :=
  ⟨0, .inl ⟨a, s, fun _ _ => rfl, .refl hs, ha⟩⟩

theorem fail (hs : s.heap.Closed) (e : Error) : Settles (fun _ => Eval.fail e) s Q :=
  ⟨0, .inr ⟨e, s, fun _ _ => rfl, .refl hs⟩⟩

theorem ofExcept {x : Except Error α} (hs : s.heap.Closed) (hx : Gives (Q s.heap) x) :
    Settles (fun _ => Eval.ofExcept x) s Q := by
  cases x with
  | error e => exact fail hs e
  | ok a => exact pure hs (hx a rfl)

theorem step {act : Eval α} {a : α} {s' : State} (h : act s = .ok a s') (hs : Advances s s')
    (ha : Q s'.heap a) : Settles (fun _ => act) s Q :=
  ⟨0, .inl ⟨a, s', fun _ _ => h, hs, ha⟩⟩

theorem mono {F : Nat → Eval α} (h : Settles F s Q)
    (hQ : ∀ s', Advances s s' → ∀ a, Q s'.heap a → Q' s'.heap a) : Settles F s Q' :=
  SettlesSince.mono h (fun _ hs => hs) hQ

theorem bind {F : Nat → Eval α} {G : Nat → α → Eval β} (hF : Settles F s Q)
    (hG : ∀ a s', Advances s s' → Q s'.heap a → Settles (fun m => G m a) s' R) :
    Settles (fun m => F m >>= G m) s R :=
  SettlesSince.bind hF (fun _ hs => hs) fun a s' hs ha =>
    SettlesSince.mono (hG a s' hs ha) (fun _ hs' => hs.trans hs') fun _ _ _ hb => hb

theorem attempt {F : Nat → Eval α} (hF : Settles F s Q) :
    Settles (fun m => (F m).attempt) s fun h r => ∀ a, r = .ok a → Q h a := by
  obtain ⟨n, ⟨a, s', hF, hs, ha⟩ | ⟨e, s', hF, hs⟩⟩ := hF
  · have hrun : ∀ m ≥ n, (F m).attempt s = .ok (.ok a) s' := fun m hm => by
      rw [Eval.attempt_apply, hF m hm]
    refine ⟨n, .inl ⟨.ok a, s', hrun, hs, fun b hb => ?_⟩⟩
    cases hb
    exact ha
  · have hrun : ∀ m ≥ n, (F m).attempt s = .ok (.error e) s' := fun m hm => by
      rw [Eval.attempt_apply, hF m hm]
    refine ⟨n, .inl ⟨.error e, s', hrun, hs, fun b hb => ?_⟩⟩
    cases hb

theorem heap {G : Nat → Heap → Eval β} (hG : Settles (fun m => G m s.heap) s R) :
    Settles (fun m => Eval.heap >>= G m) s R := hG

theorem depth {G : Nat → Nat → Eval β} (hG : Settles (fun m => G m s.depth) s R) :
    Settles (fun m => Eval.depth >>= G m) s R := hG

theorem debug (hs : s.heap.Closed) (m : String) :
    Settles (fun _ => Eval.debug m) s fun h _ => h = s.heap :=
  step (Eval.debug_apply m s) ⟨.refl _, rfl, hs⟩ rfl

theorem trace (hs : s.heap.Closed) (on : Bool) (m : String) :
    Settles (fun _ => Eval.trace on m) s fun h _ => h = s.heap := by
  cases on
  · exact pure hs rfl
  · exact step rfl ⟨.refl _, rfl, hs⟩ rfl

theorem onHeap {g : Heap → α × Heap} (hk : s.heap.Keeps (g s.heap).2) (hc : (g s.heap).2.Closed)
    (ha : Q (g s.heap).2 (g s.heap).1) : Settles (fun _ => Eval.onHeap g) s Q :=
  step (Eval.onHeap_apply g s) ⟨hk, rfl, hc⟩ ha

theorem onWorld {g : World → Except Error α × World} (hs : s.heap.Closed)
    (hg : Gives (Q s.heap) (g s.world).1) : Settles (fun _ => Eval.onWorld g) s Q := by
  cases hr : g s.world with
  | mk x w =>
    rw [hr] at hg
    cases x with
    | error e =>
      have hrun : Eval.onWorld g s = .error (.failed e) { s with world := w } := by
        simp only [Eval.onWorld, hr]
      exact ⟨0, .inr ⟨e, _, fun _ _ => hrun, .refl _, rfl, hs⟩⟩
    | ok a =>
      have hrun : Eval.onWorld g s = .ok a { s with world := w } := by simp only [Eval.onWorld, hr]
      exact step hrun ⟨.refl _, rfl, hs⟩ (hg a rfl)

theorem follow {F G : Nat → Eval α} {s₀ : State} {k : α → State → State} {k' : State → State}
    (hF : Settles F s₀ Q)
    (hG : ∀ m, G m s = Outcome.follow (F m s₀) (fun a t => .ok a (k a t)) k')
    (hok : ∀ a t, Advances s₀ t → Q t.heap a → Advances s (k a t) ∧ Q' (k a t).heap a)
    (herr : ∀ t, Advances s₀ t → Advances s (k' t)) : Settles G s Q' := by
  have hrun : ∀ m r, F m s₀ = r → G m s = Outcome.follow r (fun a t => .ok a (k a t)) k' :=
    fun m r hr => hr ▸ hG m
  obtain ⟨n, ⟨a, t, hF, hs, ha⟩ | ⟨e, t, hF, hs⟩⟩ := hF
  · obtain ⟨hs', ha'⟩ := hok a t hs ha
    exact ⟨n, .inl ⟨a, k a t, fun m hm => hrun m _ (hF m hm), hs', ha'⟩⟩
  · exact ⟨n, .inr ⟨e, k' t, fun m hm => hrun m _ (hF m hm), herr t hs⟩⟩

theorem nested {F : Nat → Eval α} {maxDepth : Nat} (hs : s.heap.Closed)
    (hF : s.depth < maxDepth → Settles F (s.mapDepth (· + 1)) Q) :
    Settles (fun m => Eval.nested maxDepth (F m)) s Q := by
  by_cases hd : s.depth < maxDepth
  · have hup : ∀ t, Advances (s.mapDepth (· + 1)) t → Advances s (t.mapDepth (· - 1)) :=
      fun t ht => ⟨ht.keeps, by simp [State.mapDepth, ht.depth], ht.closed⟩
    refine follow (hF hd) (fun m => ?_) (fun a t ht ha => ⟨hup t ht, ha⟩) hup
    rw [Eval.nested_apply, if_pos hd]
  · have hrun : ∀ m, Eval.nested maxDepth (F m) s =
        .error (.failed (.stackOverflow (s.depth + 1) maxDepth)) s := fun m => by
      rw [Eval.nested_apply, if_neg hd]
    exact ⟨0, .inr ⟨_, s, fun m _ => hrun m, .refl hs⟩⟩

theorem succ {F G : Nat → Eval α} (hG : Settles G s Q) (hF : ∀ m, F (m + 1) s = G m s) :
    Settles F s Q := by
  have hrun : ∀ n m r, m ≥ n + 1 → (∀ m ≥ n, G m s = r) → F m s = r := by
    intro n m r hm hG
    obtain ⟨k, rfl⟩ : ∃ k, m = k + 1 := ⟨m - 1, by omega⟩
    exact (hF k).trans (hG k (by omega))
  obtain ⟨n, ⟨a, s', hG, hs, ha⟩ | ⟨e, s', hG, hs⟩⟩ := hG
  · exact ⟨n + 1, .inl ⟨a, s', fun m hm => hrun n m _ hm hG, hs, ha⟩⟩
  · exact ⟨n + 1, .inr ⟨e, s', fun m hm => hrun n m _ hm hG, hs⟩⟩

end Settles

end Quotation
