import Quotation.Engine.Build
import Quotation.Engine.Evaluate

namespace Quotation

def State.mapHeap (s : State) (g : Heap → Heap) : State := { s with heap := g s.heap }

def State.mapDepth (s : State) (g : Nat → Nat) : State := { s with depth := g s.depth }

def State.record (s : State) (r : Log.Record) : State := { s with log := r :: s.log }

def State.traced (s : State) (on : Bool) (message : String) : State :=
  if on then s.record ⟨.trace, message⟩ else s

@[simp] theorem State.heap_traced (s : State) (on : Bool) (message : String) :
    (s.traced on message).heap = s.heap := by
  cases on <;> rfl

abbrev Outcome (α : Type) := EStateM.Result Halt State α

namespace Outcome

variable {α β : Type}

/-- Goes on with `f` after a success, and leaves through `k` after a failure. -/
def follow (r : Outcome α) (f : α → State → Outcome β) (k : State → State) : Outcome β :=
  match r with
  | .ok a s => f a s
  | .error h s => .error h (k s)

@[simp] theorem follow_ok (a : α) (s : State) (f : α → State → Outcome β) (k : State → State) :
    follow (.ok a s) f k = f a s := rfl

@[simp] theorem follow_error (h : Halt) (s : State) (f : α → State → Outcome β)
    (k : State → State) : follow (.error h s) f k = .error h (k s) := rfl

-- The same for continuations that are computations themselves, which simp tells apart.
@[simp] theorem follow_ok_eval (a : α) (s : State) (f : α → Eval β) (k : State → State) :
    follow (.ok a s) f k = f a s := rfl

@[simp] theorem follow_error_eval (h : Halt) (s : State) (f : α → Eval β) (k : State → State) :
    follow (.error h s) f k = .error h (k s) := rfl

def state : Outcome α → State
  | .ok _ s => s
  | .error _ s => s

def value? : Outcome α → Option α
  | .ok a _ => some a
  | .error _ _ => none

def halt? : Outcome α → Option Halt
  | .ok _ _ => none
  | .error h _ => some h

theorem eq_ok_of_value? {r : Outcome α} {a : α} (h : r.value? = some a) : r = .ok a r.state := by
  cases r <;> cases h
  rfl

theorem eq_error_of_halt? {r : Outcome α} {e : Halt} (h : r.halt? = some e) :
    r = .error e r.state := by
  cases r <;> cases h
  rfl

end Outcome

namespace Eval

variable {α β : Type}

@[simp] theorem pure_apply (a : α) (s : State) : (pure a : Eval α) s = .ok a s := rfl

@[simp] theorem fail_apply (e : Error) (s : State) :
    (fail e : Eval α) s = .error (.failed e) s := rfl

theorem bind_apply (x : Eval α) (f : α → Eval β) (s : State) :
    (x >>= f) s = Outcome.follow (x s) f id := by
  simp only [Bind.bind, EStateM.bind]
  cases x s <;> rfl

theorem bind_eq_ok {x : Eval α} {f : α → Eval β} {s u : State} {b : β} :
    (x >>= f) s = .ok b u ↔ ∃ a t, x s = .ok a t ∧ f a t = .ok b u := by
  rw [bind_apply]
  cases x s with
  | ok a t =>
    refine ⟨fun h => ⟨a, t, rfl, h⟩, ?_⟩
    rintro ⟨_, _, ⟨⟩, h⟩
    exact h
  | error h t => exact ⟨fun h => (nomatch h), fun ⟨_, _, h, _⟩ => (nomatch h)⟩

@[simp] theorem heap_bind_apply (f : Heap → Eval β) (s : State) :
    (Eval.heap >>= f) s = f s.heap s := rfl

@[simp] theorem depth_bind_apply (f : Nat → Eval β) (s : State) :
    (Eval.depth >>= f) s = f s.depth s := rfl

@[simp] theorem debug_apply (m : String) (s : State) :
    debug m s = .ok () (s.record ⟨.debug, m⟩) := rfl

theorem debug_heap_apply (m : String) (look : Heap → Eval β) (s : State) :
    (do debug m; let h ← Eval.heap; look h) s = look s.heap (s.record ⟨.debug, m⟩) := rfl

@[simp] theorem trace_apply (on : Bool) (m : String) (s : State) :
    trace on m s = .ok () (s.traced on m) := by
  cases on <;> rfl

theorem onHeap_apply (g : Heap → α × Heap) (s : State) :
    onHeap g s = .ok (g s.heap).1 (s.mapHeap fun h => (g h).2) := rfl

theorem attempt_apply (act : Eval α) (s : State) :
    attempt act s =
      match act s with
      | .ok a t => .ok (.ok a) t
      | .error (.failed e) t => .ok (.error e) t
      | .error .outOfFuel t => .error .outOfFuel t := rfl

theorem tryCatch_apply (act : Eval α) (handle : Halt → Eval α) (s : State) :
    (tryCatch act handle : Eval α) s =
      match act s with
      | .error h t => handle h t
      | r => r := by
  change EStateM.tryCatch act handle s = _
  delta EStateM.tryCatch
  dsimp only
  cases act s <;> rfl

theorem nested_apply (maxDepth : Nat) (act : Eval α) (s : State) :
    nested maxDepth act s =
      if s.depth < maxDepth then
        Outcome.follow (act (s.mapDepth (· + 1))) (fun a t => .ok a (t.mapDepth (· - 1)))
          fun t => t.mapDepth (· - 1)
      else .error (.failed (.stackOverflow (s.depth + 1) maxDepth)) s := by
  simp only [nested]
  split
  · change _ = Outcome.follow (act { s with depth := s.depth + 1 }) _ _
    cases act { s with depth := s.depth + 1 } <;> rfl
  · rfl

end Eval

def Promise.Pending (p : Promise) : Prop := p.value? = none ∧ p.forcing = false

theorem force_apply_of_pending (ev : Evaluator) {p : PromiseId} {s : State}
    (h : (s.heap.promise p).Pending) :
    force ev p s =
      Outcome.follow
        (ev (s.heap.promise p).expr (s.heap.promise p).env (s.heap.promise p).mask
          (s.mapHeap (·.beginForce p)))
        (fun v t => .ok v (t.mapHeap (·.finishForce p v)))
        fun t => t.mapHeap (·.abandonForce p) := by
  simp only [force, Eval.heap_bind_apply, h.1, h.2, Bool.false_eq_true, if_false,
    forcePending]
  change _ = Outcome.follow (ev _ _ _ { s with heap := s.heap.beginForce p }) _ _
  cases ev (s.heap.promise p).expr (s.heap.promise p).env (s.heap.promise p).mask
    { s with heap := s.heap.beginForce p } <;> rfl

theorem force_apply_of_value (ev : Evaluator) {p : PromiseId} {s : State} {v : Value}
    (h : (s.heap.promise p).value? = some v) : force ev p s = .ok v s := by
  simp [force, h]

theorem force_apply_of_forcing (ev : Evaluator) {p : PromiseId} {s : State}
    (hv : (s.heap.promise p).value? = none) (hf : (s.heap.promise p).forcing = true) :
    force ev p s = .error (.failed .recursivePromise) s := by
  simp [force, hv, hf]

def Heap.headFailure (h : Heap) (t : Tree) (env : FrameId) (mask : Option Mask) (e : Error) :
    Error :=
  match h.exposed? env mask t with
  | some m => .unresolvedMarker m.kind
  | none => e

theorem Heap.headFailure_induction {P : Error → Prop} (h : Heap) (t : Tree) (env : FrameId)
    (mask : Option Mask) {e : Error} (hmarker : ∀ k, P (.unresolvedMarker k)) (he : P e) :
    P (h.headFailure t env mask e) := by
  unfold Heap.headFailure
  split
  · exact hmarker _
  · exact he

theorem rejectExposed_apply (t : Tree) (env : FrameId) (mask : Option Mask) (s : State) :
    rejectExposed t env mask s =
      match s.heap.exposed? env mask t with
      | some m => .error (.failed (.unresolvedMarker m.kind)) s
      | none => .ok () s := by
  simp only [rejectExposed, Eval.heap_bind_apply]
  cases s.heap.exposed? env mask t <;> rfl

theorem callHead_apply (ev : Evaluator) (head : Tree) (args : List Slot) (env : FrameId)
    (mask : Option Mask) (s : State) :
    callHead ev head args env mask s =
      match resolveHead ev head env mask s with
      | .error (.failed e) t =>
        .error (.failed (t.heap.headFailure (.call head args) env mask e)) t
      | r => r := by
  unfold callHead
  rw [Eval.tryCatch_apply]
  cases resolveHead ev head env mask s with
  | ok v t => rfl
  | error h t =>
    cases h with
    | outOfFuel => rfl
    | failed e =>
      change (rejectExposed (.call head args) env mask >>= fun _ => Eval.fail e) t = _
      simp only [Eval.bind_apply, rejectExposed_apply, Heap.headFailure]
      cases t.heap.exposed? env mask (.call head args) <;> rfl

theorem openFrame_apply (c : Closure Tree) (supplied : List (Named PromiseId)) (s : State) :
    openFrame c supplied s =
      match matchArguments c.formals supplied with
      | .error e => .error (.failed e) (s.mapHeap fun h => (h.newFrame (some c.env) true).2)
      | .ok m => .ok s.heap.frames.size
          (s.mapHeap fun h =>
            bindMatching h.frames.size c.formals m (h.newFrame (some c.env) true).2) := by
  simp only [openFrame, Eval.bind_apply, Eval.onHeap_apply]
  cases matchArguments c.formals supplied <;> rfl

end Quotation
