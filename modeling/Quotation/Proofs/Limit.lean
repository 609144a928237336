import Quotation.Proofs.Lockstep.Engine
import Quotation.Proofs.Passing

/-! The depth limit. A run that has at least as many levels left as another one does what the other
does, until that one comes to its limit. Between the level where the limit is met and the end of the
run, the overflow may be replaced by a marker, where the head of a call could not be had, but the
engine never loses it. So where the specials of the host do not either, a higher limit changes no
result that was had under a lower one, and a run that starts at a deeper level differs only in what
asks for the depth. -/

namespace Quotation

/-- What a run that came to the limit may end with: the overflow, or a marker in its place. -/
def Error.TellsLimit : Error → Prop
  | .stackOverflow _ _ => True
  | .unresolvedMarker _ => True
  | _ => False

def Outcome.HitsLimit {α : Type} (r : Outcome α) : Prop :=
  ∃ e s, r = .error (.failed e) s ∧ e.TellsLimit

theorem Outcome.not_hitsLimit_of_value? {α : Type} {r : Outcome α} {a : α}
    (h : r.value? = some a) : ¬ r.HitsLimit := by
  rintro ⟨e, s, rfl, -⟩
  cases h

def Engine.overflow (eng : Engine) : Error := .stackOverflow (eng.maxDepth + 1) eng.maxDepth

def Engine.withLimit (eng : Engine) (m : Nat) : Engine := { eng with maxDepth := m }

theorem Engine.SameHost.limits (eng : Engine) (m m' : Nat) :
    (eng.withLimit m).SameHost (eng.withLimit m') := rfl

structure State.Deeper (k : Nat) (s₁ s₂ : State) : Prop where
  heap : s₁.heap = s₂.heap
  world : s₁.world = s₂.world
  depth : s₁.depth = s₂.depth + k

namespace State.Deeper

variable {j k : Nat} {s₁ s₂ s₃ : State}

theorem refl (s : State) : s.Deeper 0 s := ⟨rfl, rfl, rfl⟩

theorem eq_of_log (h : s₁.Deeper 0 s₂) (hlog : s₁.log = s₂.log) : s₁ = s₂ := by
  have hdepth : s₁.depth = s₂.depth := h.depth
  calc
    s₁ = ⟨s₁.heap, s₁.depth, s₁.world, s₁.log⟩ := rfl
    _ = s₂ := by rw [h.heap, hdepth, h.world, hlog]

theorem withWorld (h : s₁.Deeper k s₂) (w : World) :
    State.Deeper k { s₁ with world := w } { s₂ with world := w } :=
  ⟨h.heap, rfl, h.depth⟩

theorem mapHeap (h : s₁.Deeper k s₂) (g : Heap → Heap) :
    (s₁.mapHeap g).Deeper k (s₂.mapHeap g) :=
  ⟨congrArg g h.heap, h.world, h.depth⟩

theorem record (h : s₁.Deeper k s₂) (r₁ r₂ : Log.Record) :
    (s₁.record r₁).Deeper k (s₂.record r₂) :=
  ⟨h.heap, h.world, h.depth⟩

theorem traced (h : s₁.Deeper k s₂) (on₁ on₂ : Bool) (m₁ m₂ : String) :
    (s₁.traced on₁ m₁).Deeper k (s₂.traced on₂ m₂) := by
  unfold State.traced
  split <;> split <;> exact ⟨h.heap, h.world, h.depth⟩

theorem enter (h : s₁.Deeper k s₂) : (s₁.mapDepth (· + 1)).Deeper k (s₂.mapDepth (· + 1)) :=
  ⟨h.heap, h.world, by simp only [State.mapDepth, h.depth]; omega⟩

theorem limit {m m' : Nat} (h : s₁.Deeper k s₂) (hroom : m ≤ m' + k) (hlt : s₁.depth < m) :
    s₂.depth < m' := by
  have hdepth := h.depth
  omega

theorem leave {n : Nat} (h : s₁.Deeper k s₂) (hn : s₂.depth = n + 1) :
    (s₁.mapDepth (· - 1)).Deeper k (s₂.mapDepth (· - 1)) := by
  refine ⟨h.heap, h.world, ?_⟩
  have hdepth := h.depth
  simp only [State.mapDepth]
  omega

end State.Deeper

/-- One engine with two limits. The run on the left is `k` levels deeper, and has no more levels
left than the one on the right. From the same level, the logs are the same, too. -/
def Lockstep.roomier (eng : Engine) {m m' k : Nat} (hroom : m ≤ m' + k) :
    Lockstep (eng.withLimit m) (eng.withLimit m') where
  -- The depth from which a level is entered: on the way back there is a level to leave.
  Origin := Nat
  rel d s₁ s₂ := s₁.Deeper k s₂ ∧ (k = 0 → s₁.log = s₂.log) ∧ s₂.depth = d
  excused
    | .failed e => e.TellsLimit
    | .outOfFuel => False
  err _ := True
  write _ _ _ := True
  reads := k = 0
  host := .limits eng m m'
  heap h := h.1.heap
  world h := h.1.world
  depth hk h := by simpa [hk] using h.1.depth
  plain _ := trivial
  builtin _ := trivial
  setWorld h w := ⟨h.1.withWorld w, h.2⟩
  debug h m := ⟨h.1.record _ _, fun hk => congrArg (_ :: ·) (h.2.1 hk), h.2.2⟩
  trace {_ s₁ s₂} h m := by
    refine ⟨h.1.traced _ _ _ _, fun hk => ?_, by unfold State.traced; split <;> exact h.2.2⟩
    subst hk
    rw [h.1.eq_of_log (h.2.1 rfl)]
    rfl
  enter := by
    rintro d s₁ s₂ ⟨h, hlog, rfl⟩ hlt
    refine ⟨h.limit hroom hlt, s₂.depth + 1, ⟨h.enter, hlog, rfl⟩, ?_⟩
    rintro t₁ t₂ ⟨ht, htlog, hd⟩
    exact ⟨ht.leave hd, htlog, congrArg (· - 1) hd⟩
  overflow _ _ := .inl trivial
  capture h p := ⟨h.1.mapHeap _, h.2⟩
  promise h expr env mask := ⟨h.1.mapHeap _, h.2⟩
  frame h parent isCall := ⟨h.1.mapHeap _, h.2⟩
  formals h parent formals m := ⟨h.1.mapHeap _, h.2⟩
  rebind h _ := ⟨h.1.mapHeap _, h.2⟩

section

variable {eng : Engine} {m m' k : Nat} {α : Type}

theorem Lockstep.roomier_passes (hroom : m ≤ m' + k)
    (hhost : eng.host.PassesOn Error.TellsLimit (k = 0)) :
    (Lockstep.roomier eng hroom).Passes where
  special := hhost
  marker _ _ := trivial

instance {hroom : m ≤ m' + k} : (Lockstep.roomier eng hroom).Forces where
  force := by
    rintro d s₁ s₂ p ⟨h, hd⟩ -
    refine ⟨d, ⟨h.mapHeap _, hd⟩, ?_⟩
    rintro t₁ t₂ ⟨ht, htd⟩
    exact ⟨fun v => ⟨ht.mapHeap _, htd⟩, ht.mapHeap _, htd⟩

theorem Lockstep.Related.eq_of_not_hitsLimit {hroom : m ≤ m' + 0} {x y : Eval α}
    (h : (Lockstep.roomier eng hroom).Related x y) {s : State} (hs : ¬ Outcome.HitsLimit (x s)) :
    y s = x s := by
  have hends := h s.depth s s ⟨.refl s, fun _ => rfl, rfl⟩
  generalize x s = r₁ at hends hs
  generalize y s = r₂ at hends
  cases hends with
  | ok h | failed h _ | outOfFuel h => rw [h.1.eq_of_log (h.2.1 rfl)]
  | @excused halt t _ he =>
    cases halt with
    | failed e => exact absurd ⟨e, t, rfl, he⟩ hs
    | outOfFuel => exact he.elim
  | carried _ he => exact he.elim

end

end Quotation
