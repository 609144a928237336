import Quotation.Proofs.Lockstep.Since
import Quotation.Proofs.Masking.Masks
import Quotation.Session.Host

namespace Quotation

def Heap.markAll (h : Heap) (ps : List PromiseId) : Heap := ps.foldl Heap.markCaptured h

namespace Heap

variable {h h' : Heap} {ps : List PromiseId} {p q : PromiseId}

theorem markAll_cons : h.markAll (p :: ps) = (h.markCaptured p).markAll ps := rfl

theorem markAll_append {qs : List PromiseId} : h.markAll (ps ++ qs) = (h.markAll ps).markAll qs :=
  List.foldl_append

theorem frames_markAll : (h.markAll ps).frames = h.frames := by
  induction ps generalizing h with
  | nil => rfl
  | cons p rest ih => exact ih

@[simp] theorem frame_markAll {f : FrameId} : (h.markAll ps).frame f = h.frame f := by
  rw [frame, frames_markAll]
  rfl

@[simp] theorem size_promises_markAll : (h.markAll ps).promises.size = h.promises.size := by
  induction ps generalizing h with
  | nil => rfl
  | cons p rest ih => rw [markAll_cons, ih, markCaptured, size_promises_modifyPromise]

theorem promise_markAll : (h.markAll ps).promise q =
    if q ∈ ps ∧ q < h.promises.size then { h.promise q with captured := true }
    else h.promise q := by
  induction ps generalizing h with
  | nil => simp [markAll]
  | cons p rest ih =>
    rw [markAll_cons, ih, markCaptured, size_promises_modifyPromise, promise_modifyPromise]
    by_cases hpq : p = q
    · subst hpq
      by_cases hp : p < h.promises.size <;> simp [hp]
    · have hqp : ¬ q = p := fun e => hpq e.symm
      simp [hpq, hqp]

theorem eq_of_same (hframes : h'.frames.size = h.frames.size) (hframe : ∀ f, h'.frame f = h.frame f)
    (hpromises : h'.promises.size = h.promises.size)
    (hpromise : ∀ p, h'.promise p = h.promise p) : h' = h := by
  obtain ⟨frames, promises⟩ := h
  obtain ⟨frames', promises'⟩ := h'
  congr 1
  · refine Array.ext hframes fun i hi hi' => ?_
    have hi := hframe i
    simpa [frame, *] using hi
  · refine Array.ext hpromises fun i hi hi' => ?_
    have hi := hpromise i
    simpa [promise, *] using hi

end Heap

namespace Routine

variable {α β : Type}

def IgnoresCaptures : Routine α → Prop
  | .done _ => True
  | .fail _ => True
  | .ask _ next => ∀ r, (next r).IgnoresCaptures
  | .inspect next =>
    (∀ h p, next (h.markCaptured p) = next h) ∧ ∀ h, (next h).IgnoresCaptures
  | .newFrame _ _ next => ∀ f, (next f).IgnoresCaptures
  | .newPromise _ _ _ next => ∀ p, (next p).IgnoresCaptures
  | .rebind _ _ _ next => next.IgnoresCaptures
  | .identity next => ∀ i, (next i).IgnoresCaptures
  | .depth next => ∀ n, (next n).IgnoresCaptures

namespace IgnoresCaptures

theorem bind {r : Routine α} {k : α → Routine β} (hr : r.IgnoresCaptures)
    (hk : ∀ a, (k a).IgnoresCaptures) : (r.bind k).IgnoresCaptures := by
  induction r with
  | done a => exact hk a
  | fail e => trivial
  | inspect next ih =>
    exact ⟨fun h p => congrArg (Routine.bind · k) (hr.1 h p), fun h => ih h (hr.2 h)⟩
  | rebind _ _ _ _ ih => exact ih hr
  | ask _ _ ih | newFrame _ _ _ ih | newPromise _ _ _ _ ih | identity _ ih | depth _ ih =>
    exact fun a => ih a (hr a)

theorem ofExcept (x : Except Error α) : (Routine.ofExcept x).IgnoresCaptures := by
  cases x <;> trivial

theorem demand (d : Demand) : (Routine.demand d).IgnoresCaptures := fun r => ofExcept r

theorem markAll {next : Heap → Routine α} (h : ∀ h p, next (h.markCaptured p) = next h)
    (h₀ : Heap) (ps : List PromiseId) : next (h₀.markAll ps) = next h₀ := by
  induction ps generalizing h₀ with
  | nil => rfl
  | cons p rest ih => rw [Heap.markAll_cons, ih, h]

end IgnoresCaptures

end Routine

/-- The specials of a host do not look for what is captured. -/
def Host.IgnoresCaptures (host : Host) : Prop :=
  ∀ name call, (host.special name call).IgnoresCaptures

namespace Special

open Routine (IgnoresCaptures)

variable (call : SpecialCall)

theorem quote_ignoresCaptures : (quote call).IgnoresCaptures :=
  (IgnoresCaptures.ofExcept _).bind fun _ => (IgnoresCaptures.demand _).bind fun _ => trivial

theorem quo_ignoresCaptures : (quo call).IgnoresCaptures :=
  (IgnoresCaptures.ofExcept _).bind fun _ => (IgnoresCaptures.demand _).bind fun _ => trivial

theorem capturedParameter_ignoresCaptures : (capturedParameter call).IgnoresCaptures := by
  refine (IgnoresCaptures.ofExcept _).bind fun slot => ?_
  cases slot.val.asReference? with
  | none => trivial
  | some name =>
    exact (IgnoresCaptures.demand _).bind fun c => (IgnoresCaptures.demand _).bind fun t => trivial

theorem ensym_ignoresCaptures : (ensym call).IgnoresCaptures := by
  refine (capturedParameter_ignoresCaptures call).bind fun c => ?_
  split <;> trivial

theorem resolveCaptures_ignoresCaptures (captures : List (Named (Capture Tree))) :
    (resolveCaptures captures).IgnoresCaptures := by
  induction captures with
  | nil => trivial
  | cons c rest ih => exact (IgnoresCaptures.demand _).bind fun t => ih.bind fun more => trivial

theorem capturedDots_ignoresCaptures : (capturedDots call).IgnoresCaptures := by
  unfold capturedDots
  split
  · trivial
  · exact (IgnoresCaptures.demand _).bind resolveCaptures_ignoresCaptures

theorem evalTidy_ignoresCaptures : (evalTidy call).IgnoresCaptures := by
  refine (IgnoresCaptures.ofExcept _).bind fun parts => ?_
  have hmask : (tidyMask call parts.2).IgnoresCaptures := by
    cases parts.2 with
    | none => trivial
    | some slot => exact (IgnoresCaptures.demand _).bind fun v => .ofExcept _
  refine hmask.bind fun mask => (IgnoresCaptures.demand _).bind fun v => ?_
  cases v with
  | tree t => exact .demand _
  | capture c => exact .demand _
  | _ => trivial

theorem call2_ignoresCaptures : (call2 call).IgnoresCaptures := by
  refine (IgnoresCaptures.demand _).bind fun items => ?_
  cases items with
  | nil => trivial
  | cons first rest =>
    exact (IgnoresCaptures.ofExcept _).bind fun head =>
      (IgnoresCaptures.demand _).bind fun t => trivial

theorem Op.routine_ignoresCaptures {host : Host} (hhost : host.IgnoresCaptures) (op : Op) :
    (op.routine host.special call).IgnoresCaptures := by
  cases op with
  | quote | expr => exact quote_ignoresCaptures call
  | quo => exact quo_ignoresCaptures call
  | enexpr | enquo => exact (capturedParameter_ignoresCaptures call).bind fun _ => trivial
  | ensym => exact ensym_ignoresCaptures call
  | enexprs | enquos => exact (capturedDots_ignoresCaptures call).bind fun _ => trivial
  | evalTidy => exact evalTidy_ignoresCaptures call
  | call2 => exact call2_ignoresCaptures call
  | list2 => exact (IgnoresCaptures.demand _).bind fun _ => trivial
  | host name => exact hhost name call

end Special

theorem Session.host_ignoresCaptures : Session.host.IgnoresCaptures := by
  intro name call
  change (HostSpecial.run name call).IgnoresCaptures
  unfold HostSpecial.run
  split
  · unfold HostSpecial.cond
    split
    · exact (Routine.IgnoresCaptures.demand _).bind fun v => .demand _
    · trivial
  · unfold HostSpecial.lambda
    split
    · trivial
    · exact (Routine.IgnoresCaptures.ofExcept _).bind fun formals => fun i => trivial
  · unfold HostSpecial.assign
    split
    · exact (Routine.IgnoresCaptures.demand _).bind fun v => trivial
    · trivial
    · trivial
  · exact (Routine.IgnoresCaptures.demand _).bind fun captures => trivial
  · exact fun n => trivial
  · exact (Routine.IgnoresCaptures.ofExcept _).bind fun slot => trivial
  · trivial
  · unfold HostSpecial.masked
    split <;> trivial
  · trivial
  · trivial

/-- Evaluation of the same trees in the same places, where the second heap has some promises marked
in any case. -/
def Relocation.marking (eng : Engine) (ps : List PromiseId) : Relocation eng :=
  { masking eng with
    place := fun _ f m f' m' => f' = f ∧ m' = m
    ahead := fun p => p ∈ ps
    literal := fun _ => trivial
    sight := by
      rintro name f m f' m' ⟨rfl, rfl⟩
      exact ⟨.same trivial rfl, fun _ _ => trivial⟩
    head := fun h => h
    argument := fun h _ _ => h
    element := fun h _ _ => h
    body := fun _ _ => ⟨rfl, rfl⟩ }

def Heap.Unmarked (h : Heap) (ps : List PromiseId) : Prop :=
  ∀ p ∈ ps, p < h.promises.size ∧ (h.promise p).expr.hasMarkers = false

namespace Relocation

variable {eng : Engine} {ps : List PromiseId} {h h' : Heap} {α : Type} {ev ev' : Evaluator}

instance : (marking eng ps).Steady where
  up _ := rfl
  frame _ := trivial
  promise _ := trivial
  value _ := trivial
  refl _ _ _ := ⟨rfl, rfl⟩
  env h := h.1
  mask h _ := h.2
  aside h := h

theorem marking_alike_iff :
    (marking eng ps).Alike h h' ↔ h' = h.markAll ps ∧ h.Unmarked ps := by
  constructor
  · intro ha
    obtain ⟨⟨hframes, hframe⟩, hpromises, hpromise, hsize⟩ := Steady.alike_iff.1 ha
    refine ⟨Heap.eq_of_same ?_ (fun f => ?_) ?_ fun p => ?_,
      fun p hp => ⟨hsize p hp, ((hpromise p).marked hp).2⟩⟩
    · rw [Heap.frames_markAll, hframes]
    · rw [Heap.frame_markAll, hframe]
    · rw [Heap.size_promises_markAll, hpromises]
    · obtain ⟨hexpr, ⟨henv, hmask⟩, hvalue, -, hforcing, hcaptured, hmarked⟩ := hpromise p
      have hsame : h'.promise p = { h.promise p with captured := (h'.promise p).captured } := by
        dsimp only
        rw [← hexpr, ← henv, ← hmask, ← hvalue, ← hforcing]
      rw [Heap.promise_markAll, hsame]
      split
      · rename_i hp
        rw [(hmarked hp.1).1]
      · rename_i hp
        rw [hcaptured fun hps => hp ⟨hps, hsize p hps⟩]
  · rintro ⟨rfl, hps⟩
    refine Steady.alike_iff.2 ⟨⟨?_, fun _ => Heap.frame_markAll⟩, Heap.size_promises_markAll,
      fun p => ?_, fun p hp => (hps p hp).1⟩
    · rw [Heap.frames_markAll]
    · rw [Heap.promise_markAll]
      split
      · rename_i hp
        exact ⟨rfl, ⟨rfl, rfl⟩, rfl, fun _ _ => trivial, rfl, fun hnot => absurd hp.1 hnot,
          fun _ => ⟨rfl, (hps p hp.1).2⟩⟩
      · rename_i hp
        exact ⟨rfl, ⟨rfl, rfl⟩, rfl, fun _ _ => trivial, rfl, fun _ => rfl,
          fun hmem => absurd ⟨hmem, (hps p hmem).1⟩ hp⟩

theorem runRoutine_marking (hev : (marking eng ps).RelatedEvaluators ev ev') {r : Routine α}
    (hr : r.IgnoresCaptures) :
    (marking eng ps).Agree (runRoutine eng ev r) (runRoutine eng ev' r) := by
  induction r with
  | done a => exact .pure a
  | fail e => exact .fail e
  | ask d next ih => exact (answer_related hev d).attempt.bind fun r => ih r (hr r)
  | inspect next ih =>
    refine .heap fun h h' ha => ?_
    obtain ⟨rfl, -⟩ := marking_alike_iff.1 ha
    rw [Routine.IgnoresCaptures.markAll hr.1]
    exact ih h (hr.2 h)
  | newFrame parent isCall next ih =>
    exact (newFrame_related parent isCall).bind fun f => ih f (hr f)
  | newPromise expr f m next ih =>
    have hplace : (marking eng ps).place expr f m f m := ⟨rfl, rfl⟩
    exact (newPromise_related hplace).bind fun p => ih p (hr p)
  | rebind f name b next ih => exact (rebind_related f name b).bind fun _ => ih hr
  | identity next ih => exact Agree.bind (.onWorld fun _ _ _ => trivial) fun i => ih i (hr i)
  | depth next ih => exact .depth fun n => ih n (hr n)

theorem markingSpecials (hhost : eng.host.IgnoresCaptures) : (marking eng ps).Specials where
  special := by
    rintro ev ev' s head args f m f' m' hev - ⟨rfl, rfl⟩
    exact runRoutine_marking hev (s.op.routine_ignoresCaptures _ hhost)

end Relocation

structure State.Marked (ps : List PromiseId) (s t : State) : Prop where
  heap : t.heap = s.heap.markAll ps
  depth : t.depth = s.depth
  world : t.world = s.world

/-- Moreover, the same has been logged since the one log was `l` and the other one was `k`. -/
structure State.MarkedSince (ps : List PromiseId) (l k : List Log.Record) (s t : State) : Prop
    extends s.Marked ps t where
  log : ∃ new, s.log = new ++ l ∧ t.log = new ++ k

inductive Outcome.MarkedSince {α : Type} (ps : List PromiseId) (l k : List Log.Record) :
    Outcome α → Outcome α → Prop
  | ok {a s t} : State.MarkedSince ps l k s t → MarkedSince ps l k (.ok a s) (.ok a t)
  | error {h s t} : State.MarkedSince ps l k s t → MarkedSince ps l k (.error h s) (.error h t)

theorem Outcome.MarkedSince.state {α : Type} {ps : List PromiseId} {l k : List Log.Record}
    {r r' : Outcome α} (h : Outcome.MarkedSince ps l k r r') :
    State.Marked ps (Outcome.state r) (Outcome.state r') := by
  cases h with
  | ok h => exact h.toMarked
  | error h => exact h.toMarked

section

variable {eng : Engine} {fuel : Nat} {ps : List PromiseId} {s t : State}

theorem answer_since (eng : Engine) (fuel : Nat) (d : Demand) (l : List Log.Record) (s : State) :
    Outcome.SameSince s.log l (answer eng (evaluate eng fuel) d s)
      (answer eng (evaluate eng fuel) d { s with log := l }) := by
  have hrelated := answer_related
    (evaluate_related fuel : (Lockstep.since eng).RelatedEvaluators _ _) d
  exact hrelated.sameSince ⟨⟨rfl, rfl, rfl⟩, [], rfl, rfl⟩

theorem answer_marked (hhost : eng.host.IgnoresCaptures) (hst : s.Marked ps t)
    (hps : s.heap.Unmarked ps) (d : Demand) :
    Outcome.MarkedSince ps s.log t.log (answer eng (evaluate eng fuel) d s)
      (answer eng (evaluate eng fuel) d t) := by
  -- The state in between is the first one with the log of the second.
  have hlog := answer_since eng fuel d t.log s
  have : (Relocation.marking eng ps).Specials := Relocation.markingSpecials hhost
  have hmarked := Relocation.answer_related (L := Relocation.marking eng ps)
    (Relocation.evaluate_related fuel) d { s with log := t.log } t
    ⟨Relocation.marking_alike_iff.2 ⟨hst.heap, hps⟩, hst.depth, hst.world, rfl⟩
  have hstates : ∀ u v w : State, u.SameSince s.log t.log v →
      (Relocation.marking eng ps).AlikeStates v w → u.MarkedSince ps s.log t.log w := by
    intro u v w huv hvw
    obtain ⟨new, hu, hv⟩ := huv.log
    have hheap : u.heap = v.heap := huv.same.heap
    refine ⟨⟨hheap ▸ (Relocation.marking_alike_iff.1 hvw.heap).1, ?_, ?_⟩, new, hu,
      hvw.log.trans hv⟩
    · exact hvw.depth.trans huv.same.depth.symm
    · exact hvw.world.trans huv.same.world.symm
  generalize answer eng (evaluate eng fuel) d s = r at hlog ⊢
  generalize answer eng (evaluate eng fuel) d { s with log := t.log } = r' at hlog hmarked
  generalize answer eng (evaluate eng fuel) d t = r'' at hmarked ⊢
  cases hlog with
  | ok huv =>
    cases hmarked with
    | ok h hvw =>
      obtain ⟨rfl, -⟩ := h
      exact .ok (hstates _ _ _ huv hvw)
  | error huv =>
    cases hmarked with
    | error hvw => exact .error (hstates _ _ _ huv hvw)

end

end Quotation
