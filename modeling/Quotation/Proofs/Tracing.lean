import Quotation.Proofs.Limit
import Quotation.Proofs.Session

namespace Quotation

/-- The records of a log that are made without tracing, too. -/
def Log.untraced (log : List Log.Record) : List Log.Record := log.filter fun r => r.level != .trace

structure State.SameButTrace (s₁ s₂ : State) : Prop where
  same : s₁.Deeper 0 s₂
  log : Log.untraced s₁.log = Log.untraced s₂.log

namespace State.SameButTrace

variable {s₁ s₂ : State}

theorem refl (s : State) : s.SameButTrace s := ⟨.refl s, rfl⟩

theorem mapHeap (h : s₁.SameButTrace s₂) (g : Heap → Heap) :
    (s₁.mapHeap g).SameButTrace (s₂.mapHeap g) := ⟨h.same.mapHeap g, h.log⟩

theorem record (h : s₁.SameButTrace s₂) (r : Log.Record) :
    (s₁.record r).SameButTrace (s₂.record r) := by
  refine ⟨h.same.record r r, ?_⟩
  simp only [State.record, Log.untraced, List.filter_cons]
  split
  · exact congrArg (r :: ·) h.log
  · exact h.log

theorem untraced_traced (s : State) (on : Bool) (m : String) :
    Log.untraced (s.traced on m).log = Log.untraced s.log := by
  cases on <;> rfl

theorem traced (h : s₁.SameButTrace s₂) (on₁ on₂ : Bool) (m₁ m₂ : String) :
    (s₁.traced on₁ m₁).SameButTrace (s₂.traced on₂ m₂) := by
  refine ⟨h.same.traced on₁ on₂ m₁ m₂, ?_⟩
  rw [untraced_traced, untraced_traced, h.log]

theorem leave (h : s₁.SameButTrace s₂) :
    (s₁.mapDepth (· - 1)).SameButTrace (s₂.mapDepth (· - 1)) :=
  ⟨⟨h.same.heap, h.same.world, congrArg (· - 1) h.same.depth⟩, h.log⟩

end State.SameButTrace

def Lockstep.tracing {left right : Engine} (hhost : left.SameHost right)
    (hmax : left.maxDepth = right.maxDepth) : Lockstep left right where
  Origin := Unit
  rel _ s₁ s₂ := s₁.SameButTrace s₂
  excused _ := False
  err _ := True
  write _ _ _ := True
  reads := True
  host := hhost
  heap h := h.same.heap
  world h := h.same.world
  depth _ h := h.same.depth
  plain _ := trivial
  builtin _ := trivial
  setWorld h w := ⟨h.same.withWorld w, h.log⟩
  debug h m := h.record _
  trace h m := h.traced _ _ _ _
  enter {_ s₁ s₂} h hlt := by
    have hdepth : s₁.depth = s₂.depth := h.same.depth
    exact ⟨hdepth ▸ hmax ▸ hlt, (), ⟨h.same.enter, h.log⟩, fun _ _ ht => ht.leave⟩
  overflow h _ := .inr ⟨hmax, h.same.depth, trivial⟩
  capture h p := h.mapHeap _
  promise h expr env mask := h.mapHeap _
  frame h parent isCall := h.mapHeap _
  formals h parent formals m := h.mapHeap _
  rebind h _ := h.mapHeap _

section

variable {left right : Engine} (hhost : left.SameHost right) (hmax : left.maxDepth = right.maxDepth)

instance : (Lockstep.tracing hhost hmax).Passes where
  special _ _ := Routine.confined_of_raises fun _ _ => trivial
  marker h := h.elim

instance : (Lockstep.tracing hhost hmax).Forces where
  force h _ := ⟨(), h.mapHeap _, fun _ _ ht => ⟨fun _ => ht.mapHeap _, ht.mapHeap _⟩⟩

theorem Lockstep.tracing_total : (Lockstep.tracing hhost hmax).Total :=
  ⟨fun _ h => h, fun _ _ _ => trivial, trivial, inferInstance⟩

end

namespace Session

def withTrace (s : Session) (on : Bool) : Session :=
  { s with engine := { s.engine with trace := on } }

structure SameButTrace (s t : Session) : Prop where
  host : s.engine.host = t.engine.host
  maxDepth : s.engine.maxDepth = t.engine.maxDepth
  state : s.state.SameButTrace t.state
  frames : s.frames = t.frames
  promises : s.promises = t.promises

/-- Replies that are the same, save for a trace setting that is asked for. -/
inductive Reply.SameButTrace : Reply → Reply → Prop
  | same (r : Reply) : SameButTrace r r
  | settings (maxDepth : Nat) (on off : Bool) :
      SameButTrace (.settings maxDepth on) (.settings maxDepth off)

structure Answer.SameButTrace (a b : Answer) : Prop where
  reply : a.reply.SameButTrace b.reply
  events : a.events = b.events
  log : Log.untraced a.log = Log.untraced b.log

def Tandem.tracing : Tandem where
  rel := SameButTrace
  reply := Reply.SameButTrace
  engines {s t} h executor := by
    have hhost : (s.engineOf executor).SameHost (t.engineOf executor) := by
      cases executor <;> exact h.host
    have hmax : (s.engineOf executor).maxDepth = (t.engineOf executor).maxDepth := by
      cases executor
      · exact h.maxDepth
      · rfl
    exact .mk (Lockstep.tracing hhost hmax) () (Lockstep.tracing_total hhost hmax)
      (evaluate_related fuel) h.state fun _ _ hs => { h with state := hs }
  maxDepth h := h.maxDepth
  frames h := h.frames
  promises h := h.promises
  nameFrame h table := { h with frames := rfl }
  namePromise h table := { h with promises := rfl }
  taken {s t} h := by
    refine { h with state := ⟨⟨h.state.same.heap, ?_, h.state.same.depth⟩, rfl⟩ }
    simp only [takeRecords, h.state.same.world]
  same := .same
  settings {s t} h := by
    rw [h.maxDepth]
    exact .settings _ _ _

theorem run_sameButTrace {s t : Session} (h : s.SameButTrace t) (step : Step) :
    (s.run step).1.SameButTrace (t.run step).1 := by
  obtain ⟨hreply, hstate⟩ := reply_related (T := .tracing) h step
  refine ⟨hreply, congrArg World.events hstate.state.same.world, ?_⟩
  simp only [run, takeRecords, Log.untraced, List.filter_reverse]
  exact congrArg List.reverse hstate.state.log

/-- Two sessions after some steps, and their answers to one more. -/
structure AnswersAlike (s t : Session) (steps : List Step) (step : Step) : Prop where
  session : (s.runAll steps).SameButTrace (t.runAll steps)
  answer : ((s.runAll steps).run step).1.SameButTrace ((t.runAll steps).run step).1

theorem SameButTrace.answersAlike {s t : Session} (h : s.SameButTrace t) (steps : List Step)
    (step : Step) : AnswersAlike s t steps step :=
  have hall := runAll_related (T := .tracing) h steps
  ⟨hall, run_sameButTrace hall step⟩

theorem withTrace_sameButTrace (s : Session) (on off : Bool) :
    (s.withTrace on).SameButTrace (s.withTrace off) := ⟨rfl, rfl, .refl _, rfl, rfl⟩

theorem start_sameButTrace (settings : Settings) (on off : Bool) :
    (start { settings with trace := on }).SameButTrace (start { settings with trace := off }) :=
  start_related (T := .tracing) settings ⟨rfl, rfl, .refl _, rfl, rfl⟩

end Session

/-- With tracing on, every session answers every step as it does with tracing off, whatever steps
were run before, and does the same to its state: be it that tracing is turned on in the middle of
the session, or that it has been on from the start. -/
theorem tracing_changes_no_answer (steps : List Session.Step) (step : Session.Step) :
    (∀ s : Session, Session.AnswersAlike (s.withTrace true) (s.withTrace false) steps step) ∧
      ∀ settings : Session.Settings,
        Session.AnswersAlike (Session.start { settings with trace := true })
          (Session.start { settings with trace := false }) steps step :=
  ⟨fun s => (s.withTrace_sameButTrace true false).answersAlike steps step,
    fun settings => (Session.start_sameButTrace settings true false).answersAlike steps step⟩

end Quotation
