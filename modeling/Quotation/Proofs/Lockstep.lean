import Quotation.Proofs.Confined
import Quotation.Proofs.Outcome

/-! Two runs in lockstep. The same operation is run by two engines from related states, and the
runs keep to the relation until they end alike, or until the left one ends in a way that is
excused. A relation has to allow only what the engine does to the state in a single step; that it
then holds along every run is shown here once, function by function. Most uses compare an engine
with itself, so that the relation is an invariant of a single run. -/

namespace Quotation

def Engine.SameHost (left right : Engine) : Prop := left.host = right.host

theorem Engine.SameHost.refl (eng : Engine) : eng.SameHost eng := rfl

theorem Engine.SameHost.eq {left right : Engine} (h : left.SameHost right) :
    left.host = right.host := h

/-- A relation that two engines keep to when they run side by side. A run starts from an origin,
which says what the states are measured against. -/
structure Lockstep (left right : Engine) where
  Origin : Type
  rel : Origin → State → State → Prop
  /-- How the left run may end without the right one having to follow. -/
  excused : Halt → Prop
  err : Error → Prop
  write : FrameId → String → Option Binding → Prop
  reads : Prop
  /-- The errors of the left run in whose place the right one may be stopped. -/
  carries : Error → Prop := fun _ => False
  host : left.SameHost right
  heap : ∀ {o s₁ s₂}, rel o s₁ s₂ → s₁.heap = s₂.heap
  world : ∀ {o s₁ s₂}, rel o s₁ s₂ → s₁.world = s₂.world
  depth : ∀ {o s₁ s₂}, reads → rel o s₁ s₂ → s₁.depth = s₂.depth
  plain : ∀ {e : Error}, e.isOverflow = false → err e
  builtin : ∀ {name args w e}, (left.host.builtin name args w).1 = .error e → err e
  setWorld : ∀ {o s₁ s₂}, rel o s₁ s₂ → ∀ w, rel o { s₁ with world := w } { s₂ with world := w }
  debug : ∀ {o s₁ s₂}, rel o s₁ s₂ → ∀ m, rel o (s₁.record ⟨.debug, m⟩) (s₂.record ⟨.debug, m⟩)
  trace : ∀ {o s₁ s₂}, rel o s₁ s₂ → ∀ m : Nat → String,
    rel o (s₁.traced left.trace (m s₁.depth)) (s₂.traced right.trace (m s₂.depth))
  enter : ∀ {o s₁ s₂}, rel o s₁ s₂ → s₁.depth < left.maxDepth → s₂.depth < right.maxDepth ∧
    ∃ o', rel o' (s₁.mapDepth (· + 1)) (s₂.mapDepth (· + 1)) ∧
      ∀ t₁ t₂, rel o' t₁ t₂ → rel o (t₁.mapDepth (· - 1)) (t₂.mapDepth (· - 1))
  overflow : ∀ {o s₁ s₂}, rel o s₁ s₂ → ¬ s₁.depth < left.maxDepth →
    excused (.failed (.stackOverflow (s₁.depth + 1) left.maxDepth)) ∨
      left.maxDepth = right.maxDepth ∧ s₁.depth = s₂.depth ∧
        err (.stackOverflow (s₁.depth + 1) left.maxDepth)
  capture : ∀ {o s₁ s₂}, rel o s₁ s₂ → ∀ p,
    rel o (s₁.mapHeap (·.markCaptured p)) (s₂.mapHeap (·.markCaptured p))
  promise : ∀ {o s₁ s₂}, rel o s₁ s₂ → ∀ expr env mask,
    rel o (s₁.mapHeap fun h => (h.newPromise { expr, env, mask }).2)
      (s₂.mapHeap fun h => (h.newPromise { expr, env, mask }).2)
  frame : ∀ {o s₁ s₂}, rel o s₁ s₂ → ∀ parent isCall,
    rel o (s₁.mapHeap fun h => (h.newFrame parent isCall).2)
      (s₂.mapHeap fun h => (h.newFrame parent isCall).2)
  formals : ∀ {o s₁ s₂}, rel o s₁ s₂ → ∀ parent formals m,
    rel o (s₁.mapHeap fun h => bindMatching h.frames.size formals m (h.newFrame parent true).2)
      (s₂.mapHeap fun h => bindMatching h.frames.size formals m (h.newFrame parent true).2)
  rebind : ∀ {o s₁ s₂ f name b}, rel o s₁ s₂ → write f name b →
    rel o (s₁.mapHeap (·.rebind f name b)) (s₂.mapHeap (·.rebind f name b))

namespace Lockstep

variable {left right : Engine} (L : Lockstep left right) {α β : Type}

/-- How two runs may end that began with the same origin. -/
inductive Ends (o : L.Origin) : Outcome α → Outcome α → Prop
  | ok {a s₁ s₂} : L.rel o s₁ s₂ → Ends o (.ok a s₁) (.ok a s₂)
  | failed {e s₁ s₂} : L.rel o s₁ s₂ → L.err e →
      Ends o (.error (.failed e) s₁) (.error (.failed e) s₂)
  | outOfFuel {s₁ s₂} : L.rel o s₁ s₂ → Ends o (.error .outOfFuel s₁) (.error .outOfFuel s₂)
  | excused {h s₁ r} : L.excused h → Ends o (.error h s₁) r
  | carried {e s₁ s₂} : L.rel o s₁ s₂ → L.carries e →
      Ends o (.error (.failed e) s₁) (.error .outOfFuel s₂)

def Related (x y : Eval α) : Prop := ∀ o s₁ s₂, L.rel o s₁ s₂ → L.Ends o (x s₁) (y s₂)

structure RelatedEvaluators (ev₁ ev₂ : Evaluator) : Prop where
  eval : ∀ t env mask, L.Related (ev₁ t env mask) (ev₂ t env mask)
  force : ∀ p, L.Related (Quotation.force ev₁ p) (Quotation.force ev₂ p)

instance {ev₁ ev₂ : Evaluator} : CoeFun (L.RelatedEvaluators ev₁ ev₂) fun _ =>
    ∀ t env mask, L.Related (ev₁ t env mask) (ev₂ t env mask) :=
  ⟨RelatedEvaluators.eval⟩

/-- Wherever an error could be caught, one that the left run is excused for goes on being excused:
no special of the host carries on after it, and a marker is excused that is reported in place of an
error that a call head gives. The right run is not stopped in place of an error. -/
class Passes : Prop where
  special : ∀ name call, (left.host.special name call).Confined L.err L.write
    (fun e => L.excused (.failed e)) L.reads
  marker : ∀ {e}, L.excused (.failed e) → ∀ k, L.excused (.failed (.unresolvedMarker k))
  uncarried : ∀ e, ¬ L.carries e := by exact fun _ h => h

/-- The tree of a promise may be evaluated with an origin of its own, from which there is a way back
however that ends. -/
class Forces : Prop where
  force : ∀ {o s₁ s₂ p}, L.rel o s₁ s₂ → (s₁.heap.promise p).Pending →
    ∃ o', L.rel o' (s₁.mapHeap (·.beginForce p)) (s₂.mapHeap (·.beginForce p)) ∧
      ∀ t₁ t₂, L.rel o' t₁ t₂ →
        (∀ v, L.rel o (t₁.mapHeap (·.finishForce p v)) (t₂.mapHeap (·.finishForce p v))) ∧
          L.rel o (t₁.mapHeap (·.abandonForce p)) (t₂.mapHeap (·.abandonForce p))

variable {L}

theorem Ends.follow {o o' : L.Origin} {r₁ r₂ : Outcome α} (h : L.Ends o r₁ r₂)
    {f g : α → State → Outcome β} {k₁ k₂ : State → State}
    (hok : ∀ a s₁ s₂, L.rel o s₁ s₂ → L.Ends o' (f a s₁) (g a s₂))
    (herr : ∀ s₁ s₂, L.rel o s₁ s₂ → L.rel o' (k₁ s₁) (k₂ s₂)) :
    L.Ends o' (r₁.follow f k₁) (r₂.follow g k₂) := by
  cases h with
  | ok h => exact hok _ _ _ h
  | failed h he => exact .failed (herr _ _ h) he
  | outOfFuel h => exact .outOfFuel (herr _ _ h)
  | excused h => exact .excused h
  | carried h he => exact .carried (herr _ _ h) he

namespace Related

theorem pure (a : α) : L.Related (pure a) (pure a) := fun _ _ _ h => .ok h

theorem fail {e : Error} (he : L.err e) : L.Related (Eval.fail e : Eval α) (Eval.fail e) :=
  fun _ _ _ h => .failed h he

theorem failPlain {e : Error} (he : e.isOverflow = false) :
    L.Related (Eval.fail e : Eval α) (Eval.fail e) := .fail (L.plain he)

theorem ofExcept {x : Except Error α} (hx : ∀ e, x = .error e → L.err e) :
    L.Related (Eval.ofExcept x) (Eval.ofExcept x) := by
  cases x with
  | error e => exact .fail (hx e rfl)
  | ok a => exact .pure a

theorem bind {x y : Eval α} {f g : α → Eval β} (hxy : L.Related x y)
    (hfg : ∀ a, L.Related (f a) (g a)) : L.Related (x >>= f) (y >>= g) := by
  intro o s₁ s₂ h
  rw [Eval.bind_apply, Eval.bind_apply]
  exact (hxy o s₁ s₂ h).follow (fun a t₁ t₂ h => hfg a o t₁ t₂ h) fun _ _ h => h

theorem heap {f g : Heap → Eval β} (hfg : ∀ h, L.Related (f h) (g h)) :
    L.Related (Eval.heap >>= f) (Eval.heap >>= g) := by
  intro o s₁ s₂ h
  rw [Eval.heap_bind_apply, Eval.heap_bind_apply, ← L.heap h]
  exact hfg _ _ _ _ h

theorem depth (hr : L.reads) {f g : Nat → Eval β} (hfg : ∀ n, L.Related (f n) (g n)) :
    L.Related (Eval.depth >>= f) (Eval.depth >>= g) := by
  intro o s₁ s₂ h
  rw [Eval.depth_bind_apply, Eval.depth_bind_apply, ← L.depth hr h]
  exact hfg _ _ _ _ h

theorem debug (m : String) : L.Related (Eval.debug m) (Eval.debug m) :=
  fun _ _ _ h => .ok (L.debug h m)

theorem trace (m : String) : L.Related (Eval.trace left.trace m) (Eval.trace right.trace m) := by
  intro o s₁ s₂ h
  rw [Eval.trace_apply, Eval.trace_apply]
  exact .ok (L.trace h fun _ => m)

theorem traceDepth (m : Nat → String) {x y : Eval β} (hxy : L.Related x y) :
    L.Related (Eval.depth >>= fun n => Eval.trace left.trace (m n) >>= fun _ => x)
      (Eval.depth >>= fun n => Eval.trace right.trace (m n) >>= fun _ => y) := by
  intro o s₁ s₂ h
  rw [Eval.depth_bind_apply, Eval.depth_bind_apply, Eval.bind_apply, Eval.bind_apply,
    Eval.trace_apply, Eval.trace_apply]
  exact hxy _ _ _ (L.trace h m)

theorem onWorld {g : World → Except Error α × World} (hg : ∀ w e, (g w).1 = .error e → L.err e) :
    L.Related (Eval.onWorld g) (Eval.onWorld g) := by
  intro o s₁ s₂ h
  have hw := hg s₁.world
  simp only [Eval.onWorld, ← L.world h]
  cases hr : g s₁.world with
  | mk r w =>
    rw [hr] at hw
    cases r with
    | error e => exact .failed (L.setWorld h w) (hw e rfl)
    | ok a => exact .ok (L.setWorld h w)

theorem identity : L.Related Eval.freshIdentity Eval.freshIdentity :=
  .onWorld fun _ _ h => nomatch h

theorem attempt {x y : Eval α} {f g : Except Error α → Eval β} (hxy : L.Related x y)
    (hcarries : ∀ e, ¬ L.carries e)
    (hpass : ∀ e, L.excused (.failed e) → f (.error e) = Eval.fail e)
    (hfg : ∀ r, (∀ e, r = .error e → L.err e) → L.Related (f r) (g r)) :
    L.Related (x.attempt >>= f) (y.attempt >>= g) := by
  intro o s₁ s₂ h
  have hends := hxy o s₁ s₂ h
  rw [Eval.bind_apply, Eval.bind_apply]
  simp only [Eval.attempt]
  generalize x s₁ = r₁ at hends ⊢
  generalize y s₂ = r₂ at hends ⊢
  cases hends with
  | ok h => exact hfg (.ok _) (fun _ he => nomatch he) o _ _ h
  | failed h he => exact hfg (.error _) (fun _ he' => Except.error.inj he' ▸ he) o _ _ h
  | outOfFuel h => exact .outOfFuel h
  | @excused halt t₁ _ he =>
    cases halt with
    | outOfFuel => exact .excused he
    | failed e =>
      simp only [Outcome.follow_ok_eval, hpass e he]
      exact .excused he
  | carried _ he => exact absurd he (hcarries _)

theorem nested {x y : Eval α} (hxy : L.Related x y) :
    L.Related (Eval.nested left.maxDepth x) (Eval.nested right.maxDepth y) := by
  intro o s₁ s₂ h
  rw [Eval.nested_apply, Eval.nested_apply]
  by_cases hd : s₁.depth < left.maxDepth
  · obtain ⟨hd₂, o', hin, hout⟩ := L.enter h hd
    rw [if_pos hd, if_pos hd₂]
    exact (hxy o' _ _ hin).follow (fun a t₁ t₂ h => .ok (hout t₁ t₂ h)) hout
  · rw [if_neg hd]
    rcases L.overflow h hd with he | ⟨hmax, hdepth, he⟩
    · exact .excused he
    · rw [← hmax, ← hdepth, if_neg hd]
      exact .failed h he

end Related

end Lockstep

end Quotation
