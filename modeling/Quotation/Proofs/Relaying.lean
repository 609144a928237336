import Quotation.Proofs.Relaying.Calls

namespace Quotation

structure Relay where
  closure : Closure Tree
  before : List Slot
  after : List Slot

namespace Relay

/-- The closure that a chain starts with. -/
def entrance (last : Closure Tree) : List Relay → Closure Tree
  | [] => last
  | r :: _ => r.closure

/-- What the last closure of a chain captures, if the frame of the first call is `f` and the
arguments of that call would be captured as given. -/
def relayed (f : FrameId) : List Relay → List (Named (Capture Tree)) → List (Named (Capture Tree))
  | [], captures => captures
  | r :: relays, captures =>
    relayed (f + 1) relays (capturesIn f r.before ++ captures ++ capturesIn f r.after)

structure Calls (h : Heap) (r : Relay) (next : Closure Tree) : Prop where
  variadic : r.closure.Variadic
  env : r.closure.env < h.frames.size
  own : ∀ slot ∈ r.before ++ r.after, slot.Plain
  body : ∃ head label, r.closure.body = .call head (r.before ++ ⟨label, .dots⟩ :: r.after) ∧
    h.callee? r.closure.env none head = some (.closure next)

end Relay

/-- The body of a closure captures its variadic arguments. -/
structure Closure.CapturesDots (h : Heap) (c : Closure Tree) : Prop where
  variadic : c.Variadic
  env : c.env < h.frames.size
  body : ∃ head label id, c.body = .call head [⟨label, .dots⟩] ∧
    h.callee? c.env none head = some (.special ⟨.enquos, id⟩)

namespace Heap

/-- Relays that each call the next one, and the last of them a closure that captures. -/
inductive Chained (h : Heap) (last : Closure Tree) : List Relay → Prop
  | last : last.CapturesDots h → Chained h last []
  | relay {r : Relay} {relays : List Relay} : r.Calls h (Relay.entrance last relays) →
      Chained h last relays → Chained h last (r :: relays)

def CallFrames (h₀ h : Heap) (f : FrameId) : List (Closure Tree) → Prop
  | [] => True
  | c :: rest => h₀.CallFrame h f c ∧ CallFrames h₀ h (f + 1) rest

end Heap

section

variable {h₀ : Heap} {eng : Engine} {env f : FrameId} {mask : Option Mask}
  {s s₁ t : State} {supplied : List (Named PromiseId)} {captures : List (Named (Capture Tree))}
  {c last : Closure Tree} {relays : List Relay}

theorem Heap.Chained.entrance (h : h₀.Chained last relays) :
    (Relay.entrance last relays).Variadic ∧ (Relay.entrance last relays).env < h₀.frames.size := by
  cases h with
  | last h => exact ⟨h.variadic, h.env⟩
  | relay h _ => exact ⟨h.variadic, h.env⟩

/-- The state in which the body of the closure of a chain runs: its arguments are bound in a frame
that is the newest one. -/
structure State.InCall (h₀ : Heap) (t : State) (f : FrameId) (c : Closure Tree)
    (captures : List (Named (Capture Tree))) : Prop where
  gains : h₀.Gains t.heap
  new : h₀.frames.size ≤ f
  newest : t.heap.frames.size = f + 1
  frame : h₀.CallFrame t.heap f c
  dots : ∃ supplied, t.heap.binding? f dotsName = some (.dots supplied) ∧
    List.Forall₂ (h₀.Carries t.heap) supplied captures

theorem State.InCall.passing (hgains : h₀.Gains s.heap) (hc : c.env < h₀.frames.size)
    (hcarries : List.Forall₂ (h₀.Carries s.heap) supplied captures)
    (ht : t.Deeper 0 (s.mapHeap (·.passing c.env supplied))) :
    t.InCall h₀ s.heap.frames.size c captures := by
  have hheap : t.heap = s.heap.passing c.env supplied := ht.heap
  have hforwards : s.Forwards h₀ t := (State.Forwards.passing s c.env supplied).trans (.logged ht)
  have hholding : t.Holding h₀ s.heap.frames.size c supplied captures :=
    .passing hgains hc (hcarries.imp fun _ _ h => h.toHolds) ht
  exact ⟨hholding.gains, hgains.frames, hheap ▸ Heap.size_frames_passing, hholding.frame,
    supplied, hholding.dots, hforwards.carriesAll hcarries⟩

theorem State.Forwards.leave {on : Bool} {e : Tree} (h : (s.entering on e).Forwards h₀ t) :
    s.Forwards h₀ (t.mapDepth (· - 1)) where
  gains hg := h.gains (by rwa [State.heap_entering])
  trees := by
    have htrees := h.trees
    rwa [State.heap_entering] at htrees
  frames := by
    have hframes := h.frames
    rwa [State.heap_entering] at hframes
  frame := by
    have hframe := h.frame
    rwa [State.heap_entering] at hframe
  world := h.world.trans (s.deeper_entering on e).symm_same.world
  depth := by
    have hdepth : t.depth = s.depth + 1 := h.depth.trans (s.deeper_entering on e).symm_same.depth
    simp [State.mapDepth, hdepth]

theorem evaluate_chainCall (fuel : Nat) {head : Tree} {args : List Slot}
    (hdepth : s.depth < eng.maxDepth)
    (hcallee : s.heap.callee? env mask head = some (.closure c)) (hc : c.Variadic)
    (henv : c.env < h₀.frames.size) (hgains : h₀.Gains s.heap)
    (hsupplied : promiseSlots env mask args (s.entering eng.trace (.call head args)) =
      .ok supplied s₁)
    (hsupplies : (s.entering eng.trace (.call head args)).Supplies h₀ s₁ supplied captures) :
    ∃ t : State, t.InCall h₀ s.heap.frames.size c captures ∧
      (s.entering eng.trace (.call head args)).Forwards h₀ t ∧
      evaluate eng (fuel + 2) (.call head args) env mask s =
        Outcome.leave (evaluate eng (fuel + 1) c.body s.heap.frames.size none t) := by
  have hsize : s₁.heap.frames.size = s.heap.frames.size := by
    rw [hsupplies.frames, State.heap_entering]
  have hgains₁ : h₀.Gains s₁.heap :=
    hsupplies.forwards.gains ((State.heap_entering s _ _).symm ▸ hgains)
  have hlogged : ((s₁.mapHeap (·.passing c.env supplied)).calling eng.trace c).Deeper 0
      (s₁.mapHeap (·.passing c.env supplied)) :=
    (State.Deeper.refl _).traced eng.trace false _ ""
  refine ⟨_, hsize ▸ .passing hgains₁ henv hsupplies.carries hlogged,
    hsupplies.forwards.trans ((State.Forwards.passing s₁ c.env supplied).trans (.logged hlogged)),
    ?_⟩
  rw [evaluate_calleeCall hdepth hcallee nofun, apply,
    applyClosure_variadic hc hsupplied hsupplies.carries, hsize]

theorem Heap.Chained.run (eng : Engine) (hchain : h₀.Chained last relays) (fuel : Nat)
    (ht : t.InCall h₀ f (Relay.entrance last relays) captures)
    (hdepth : t.depth + relays.length < eng.maxDepth) :
    ∃ t', evaluate eng (fuel + relays.length + 2) (Relay.entrance last relays).body f none t =
        .ok (.list ((Relay.relayed f relays captures).map (Named.map .capture))) t' ∧
      t.Forwards h₀ t' ∧ h₀.CallFrames t'.heap f (relays.map Relay.closure ++ [last]) := by
  induction hchain generalizing f t captures with
  | last hlast =>
    obtain ⟨head, label, id, hbody, hcallee⟩ := hlast.body
    obtain ⟨supplied, hdots, hcarries⟩ := ht.dots
    have hcallee' := (ht.gains.callee?_callFrame ht.new ht.frame head).trans hcallee
    have hheap : (t.entering eng.trace last.body).heap = t.heap := State.heap_entering _ _ _
    obtain ⟨t', hrun, hforwards⟩ := runSpecial_enquos eng (evaluate eng (fuel + 1)) id label
      (s := t.entering eng.trace last.body) none
      (hheap ▸ ht.frame) (hheap ▸ hdots) (hheap ▸ hcarries)
    refine ⟨t'.mapDepth (· - 1), ?_, hforwards.leave, hforwards.leave.callFrame ht.frame, trivial⟩
    change evaluate eng (fuel + 2) last.body f none t = _
    rw [hbody] at hrun ⊢
    rw [evaluate_calleeCall hdepth hcallee' nofun, apply, hrun]
    rfl
  | @relay r relays hr hrest ih =>
    obtain ⟨head, label, hbody, hcallee⟩ := hr.body
    obtain ⟨passed, hdots, hpassed⟩ := ht.dots
    have hcallee' := (ht.gains.callee?_callFrame ht.new ht.frame head).trans hcallee
    have hheap : (t.entering eng.trace r.closure.body).heap = t.heap := State.heap_entering _ _ _
    obtain ⟨hvariadic, henv⟩ := hrest.entrance
    rw [List.length_cons] at hdepth
    obtain ⟨supplied, s₁, hsupplied, hsupplies⟩ := promiseSlots_relaying none label
      hr.own (hheap ▸ ht.gains) (hheap ▸ ht.frame.size) (hheap ▸ hdots)
      (hheap ▸ hpassed)
    rw [hbody] at hsupplied hsupplies
    obtain ⟨t₁, hincall, hforwards₁, hcall⟩ := evaluate_chainCall
      (fuel + relays.length + 1) (by omega) hcallee' hvariadic henv ht.gains hsupplied
      hsupplies
    have hdepth₁ : t₁.depth = t.depth + 1 :=
      hforwards₁.depth.trans (t.deeper_entering _ _).symm_same.depth
    rw [ht.newest] at hincall hcall
    obtain ⟨t', hrun, hforwards, hframes⟩ := ih hincall (by omega)
    have hback := (hforwards₁.trans hforwards).leave
    refine ⟨t'.mapDepth (· - 1), ?_, hback, hback.callFrame ht.frame, hframes⟩
    change evaluate eng (fuel + relays.length + 3) r.closure.body f none t = _
    rw [hbody, hcall, hrun]
    rfl

/-- Whatever arguments without markers the first closure of a chain is called with, the last one
captures them as they were written, with their names and the frame of the call, and around them the
arguments that each closure has added, with the frame of its own call. None of them is evaluated:
every promise is as it was or, if it is new, pending, and the world is untouched. -/
theorem relayed_arguments_are_captured {head : Tree} {args : List Slot} {fuel : Nat}
    (hchain : s.heap.Chained last relays)
    (hcallee : s.heap.callee? env mask head = some (.closure (Relay.entrance last relays)))
    (hargs : ∀ slot ∈ args, slot.Plain)
    (hdepth : s.depth + relays.length + 1 < eng.maxDepth)
    (hfuel : relays.length + 3 ≤ fuel) :
    ∃ t, evaluate eng fuel (.call head args) env mask s =
        .ok (.list ((Relay.relayed s.heap.frames.size relays (capturesIn env args)).map
          (Named.map .capture))) t ∧
      s.heap.CallFrames t.heap s.heap.frames.size (relays.map Relay.closure ++ [last]) ∧
      (∀ p < s.heap.promises.size, t.heap.promise p = s.heap.promise p) ∧
      (∀ p, s.heap.promises.size ≤ p → (t.heap.promise p).Pending) ∧
      t.world = s.world ∧ t.depth = s.depth := by
  obtain ⟨fuel, rfl⟩ := Nat.exists_eq_add_of_le' hfuel
  obtain ⟨hvariadic, henv⟩ := hchain.entrance
  have hgains : s.heap.Gains s.heap := .refl s.heap
  have hentered : s.heap.Gains (s.entering eng.trace (.call head args)).heap :=
    (State.heap_entering s _ _).symm ▸ hgains
  obtain ⟨supplied, s₁, hsupplied, hsupplies⟩ :=
    promiseSlots_plain env mask hargs hentered
  obtain ⟨t, hincall, hforwards₁, hcall⟩ := evaluate_chainCall
    (fuel + relays.length + 1) (by omega) hcallee hvariadic henv hgains hsupplied hsupplies
  have hdepth₁ : t.depth = s.depth + 1 :=
    hforwards₁.depth.trans (s.deeper_entering _ _).symm_same.depth
  obtain ⟨t', hrun, hforwards, hframes⟩ := hchain.run eng fuel hincall (by omega)
  have hback := (hforwards₁.trans hforwards).leave
  have hgained := hback.gains hgains
  refine ⟨t'.mapDepth (· - 1), ?_, hframes, hgained.promise, hgained.pending, hback.world,
    hback.depth⟩
  change evaluate eng (fuel + relays.length + 3) _ _ _ _ = _
  rw [hcall, hrun]
  rfl

end

def Closure.inner : Closure Tree :=
  ⟨some "inner", [⟨dotsName, none⟩], .call (.reference "enquos") [⟨none, .dots⟩], 0, 1⟩

def Relay.outer : Relay where
  closure := ⟨some "outer", [⟨dotsName, none⟩], .call (.reference "inner")
    [⟨some "a", .reference "x"⟩, ⟨none, .dots⟩, ⟨none, .reference "y"⟩], 0, 2⟩
  before := [⟨some "a", .reference "x"⟩]
  after := [⟨none, .reference "y"⟩]

def State.withRelays : State where
  heap :=
    let h := (({} : Heap).newFrame none false).2
    let h := h.define 0 "enquos" (.special ⟨.enquos, 3⟩)
    let h := h.define 0 "inner" (.closure .inner)
    h.define 0 "outer" (.closure Relay.outer.closure)

theorem relayed_argument_captured_between_own :
    let eng : Engine := { host := ⟨fun _ _ w => (.ok .null, w), fun _ _ => .done .null⟩ }
    ∃ t, evaluate eng 4 (.call (.reference "outer") [⟨some "b", .reference "z"⟩]) 0 none
        .withRelays =
      .ok (.list [⟨some "a", .capture ⟨.reference "x", 1⟩⟩,
        ⟨some "b", .capture ⟨.reference "z", 0⟩⟩, ⟨none, .capture ⟨.reference "y", 1⟩⟩]) t := by
  intro eng
  have hlast : Closure.inner.CapturesDots State.withRelays.heap :=
    ⟨⟨none, rfl⟩, Nat.zero_lt_one, _, none, 3, rfl, rfl⟩
  have howns : ∀ slot ∈ Relay.outer.before ++ Relay.outer.after, slot.Plain := by
    rintro slot (_ | ⟨_, _ | ⟨_, ⟨⟩⟩⟩) <;> exact ⟨rfl, rfl⟩
  have hchain : State.withRelays.heap.Chained .inner [.outer] :=
    .relay ⟨⟨none, rfl⟩, Nat.zero_lt_one, howns, _, none, rfl, rfl⟩ (.last hlast)
  have hargs : ∀ slot ∈ ([⟨some "b", .reference "z"⟩] : List Slot), Slot.Plain slot := by
    rintro slot (_ | ⟨_, ⟨⟩⟩)
    exact ⟨rfl, rfl⟩
  have hdepth : State.withRelays.depth + [Relay.outer].length + 1 < eng.maxDepth := by decide
  obtain ⟨t, ht, -⟩ := @relayed_arguments_are_captured eng 0 none .withRelays .inner [.outer]
    (.reference "outer") _ 4 hchain rfl hargs hdepth (Nat.le_refl _)
  exact ⟨t, ht⟩

end Quotation
