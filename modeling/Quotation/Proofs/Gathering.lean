import Quotation.Proofs.Gathering.Slots
import Quotation.Session.Host

/-! Calls of a closure that gathers its arguments. Whatever the arguments are, they travel as
promises to the frame of the call, and each of them is substituted in on its own, in the frame it
was written in. That gives what substitution in the whole list gives. -/

namespace Quotation

/-- A closure that gives the trees of all its arguments. -/
structure Closure.Gathers (h : Heap) (c : Closure Tree) : Prop where
  variadic : c.Variadic
  body : c.body = .callNamed "enexprs" [.dots]
  env : c.env < h.frames.size
  enexprs : ∃ id, h.function? c.env none "enexprs" = some (.special ⟨.enexprs, id⟩)

def Outcome.checked (r : Outcome Value) (marked : List PromiseId) : Outcome Value :=
  r.follow (fun v t =>
    match uncapturedMarker? t.heap marked with
    | some m => .error (.failed (.unresolvedMarker m.kind)) t
    | none => .ok v t) id

section

variable {h₀ : Heap} {eng : Engine} {ev : Evaluator} {fuel : Nat} {env f : FrameId}
  {mask : Option Mask} {s t u : State} {c : Closure Tree} {args : List Slot} {name : String}
  {supplied : List (Named PromiseId)} {captures : List (Named (Capture Tree))}

def gather (eng : Engine) (captures : List (Named (Capture Tree))) (ev : Evaluator) : Eval Value :=
  runRoutine eng ev (Special.resolveCaptures captures) >>= fun captures =>
    pure (Value.ofCaptures captures)

theorem runSpecial_enexprs (eng : Engine) (id : Identity) (label : Option String)
    (mask : Option Mask) (hframe : h₀.CallFrame s.heap f c)
    (hdots : s.heap.binding? f dotsName = some (.dots supplied))
    (hholds : List.Forall₂ (h₀.Holds s.heap) supplied captures) :
    ∃ u, s.Forwards h₀ u ∧ (∀ a ∈ supplied, (u.heap.promise a.val).captured = true) ∧
      ∀ ev, runSpecial eng ev ⟨.enexprs, id⟩ ⟨[⟨label, .dots⟩], f, mask⟩ s =
        gather eng captures ev u := by
  obtain ⟨u, hcapture, hforwards, hcaptured⟩ := captureDots_holds hframe hdots hholds
  refine ⟨u, hforwards, hcaptured, fun ev => ?_⟩
  change runRoutine eng ev (((Routine.captureDots f).bind Special.resolveCaptures).bind
    fun captures => .done (Value.ofCaptures captures)) s = _
  have hrun : runRoutine eng ev (Routine.captureDots f) s = .ok captures u :=
    (congrFun (runRoutine_demand (.captureDots f)) s).trans hcapture
  rw [Routine.bind_assoc, runRoutine_bind, Eval.bind_apply, hrun, Outcome.follow_ok_eval,
    runRoutine_bind]
  rfl

theorem evaluateStep_variadic (hdepth : s.depth < eng.maxDepth)
    (hfunction : s.heap.function? env mask name = some (.closure c)) (hc : c.Variadic)
    (henv : c.env < s.heap.frames.size) (hargs : ∀ slot ∈ args, slot.val.isDots = false) :
    ∃ t supplied marked, (s.mapDepth (· + 1)).Forwards s.heap t ∧
      t.Holding s.heap s.heap.frames.size c supplied (capturesIn env args) ∧
      (∀ p ∈ marked, ∃ a ∈ supplied, a.val = p) ∧
      ∀ ev, evaluateStep eng ev (.call (.reference name) args) env mask s =
        Outcome.leave (Outcome.checked (ev c.body s.heap.frames.size none t) marked) := by
  generalize hentered : s.entering eng.trace (.call (.reference name) args) = s₁
  have hlogged : (s.mapDepth (· + 1)).Forwards s.heap s₁ :=
    .logged (hentered ▸ (s.deeper_entering _ _).symm_same)
  have hgains : s.heap.Gains s₁.heap := hlogged.gains (.refl s.heap)
  obtain ⟨supplied, s₂, hsupplied, hforwards, hframes, hholds⟩ :=
    promiseSlots_written env mask hargs hgains
  have hsize : s₂.heap.frames.size = s.heap.frames.size := by
    rw [hframes, ← hentered, State.heap_entering]
  let s₃ := s₂.mapHeap (·.passing c.env supplied)
  have htraced : (s₃.calling eng.trace c).Deeper 0 s₃ :=
    (State.Deeper.refl s₃).traced eng.trace false _ ""
  refine ⟨s₃.calling eng.trace c, supplied, markedArguments s₂.heap supplied, ?_, ?_, ?_, ?_⟩
  · exact hlogged.trans (hforwards.trans ((State.Forwards.passing s₂ c.env supplied).trans
      (.logged htraced)))
  · exact hsize ▸ .passing (hforwards.gains hgains) henv hholds htraced
  · intro p hp
    obtain ⟨a, ha, heq, -⟩ := mem_markedArguments.1 hp
    exact ⟨a, ha, heq⟩
  · intro ev
    rw [evaluateStep_namedCall ev hdepth hfunction nofun, hentered, apply,
      applyClosure_apply hsupplied (openFrame_variadic hc supplied s₂), hsize]
    rfl

theorem evaluateStep_gathering (hdepth : t.depth < eng.maxDepth) (hc : c.Gathers h₀)
    (hnew : h₀.frames.size ≤ f) (ht : t.Holding h₀ f c supplied captures) :
    ∃ u id, t.heap.function? f none "enexprs" = some (.special ⟨.enexprs, id⟩) ∧
      (t.mapDepth (· + 1)).Forwards h₀ u ∧
      (∀ a ∈ supplied, (u.heap.promise a.val).captured = true) ∧
      ∀ ev, evaluateStep eng ev c.body f none t = Outcome.leave (gather eng captures ev u) := by
  obtain ⟨id, hspecial⟩ := hc.enexprs
  have hfunction : t.heap.function? f none "enexprs" = some (.special ⟨.enexprs, id⟩) :=
    (ht.gains.callee?_callFrame hnew ht.frame (.reference "enexprs")).trans hspecial
  generalize hentered : t.entering eng.trace (.callNamed "enexprs" [.dots]) = t₁
  have hheap : t₁.heap = t.heap := hentered ▸ State.heap_entering _ _ _
  have hlogged : (t.mapDepth (· + 1)).Forwards h₀ t₁ :=
    .logged (hentered ▸ (t.deeper_entering _ _).symm_same)
  obtain ⟨u, hforwards, hcaptured, hrun⟩ := runSpecial_enexprs eng id none none
    (hheap ▸ ht.frame) (hheap ▸ ht.dots) (hheap ▸ ht.holds)
  refine ⟨u, id, hfunction, hlogged.trans hforwards, hcaptured, fun ev => ?_⟩
  rw [hc.body]
  refine (evaluateStep_namedCall ev hdepth hfunction nofun).trans (congrArg Outcome.leave ?_)
  rw [← hrun ev, ← hentered]
  rfl

theorem gather_related {L : Lockstep eng eng} {ev₁ ev₂ : Evaluator}
    (hev : L.RelatedEvaluators ev₁ ev₂) (hcarries : ∀ e, ¬ L.carries e)
    (captures : List (Named (Capture Tree))) :
    L.Related (gather eng captures ev₁) (gather eng captures ev₂) :=
  (runRoutine_related hev hcarries (Special.resolveCaptures_confined captures)).bind fun _ => .pure _

theorem gather_keepsTrees (eng : Engine) (fuel : Nat) (captures : List (Named (Capture Tree)))
    (s : State) :
    s.heap.KeepsTrees (Outcome.state (gather eng captures (evaluate eng fuel) s)).heap :=
  (Lockstep.related_ofInvariant_iff.1
    (gather_related (evaluate_related fuel : (Lockstep.ofInvariant eng
      (Heap.keepsTrees_invariant s.heap)).RelatedEvaluators _ _) (fun _ h => h) captures) s (.refl _)).2

theorem Outcome.checked_of_captured {r : Outcome Value} {marked : List PromiseId}
    (h : ∀ p ∈ marked, ((Outcome.state r).heap.promise p).captured = true) :
    Outcome.checked r marked = r := by
  cases r with
  | error e t => rfl
  | ok v t =>
    have hnone : uncapturedMarker? t.heap marked = none :=
      uncapturedMarker?_eq_none_iff.2 fun p hp _ => h p hp
    simp only [Outcome.checked, Outcome.follow_ok, hnone]

@[simp] theorem Outcome.heap_leave {α : Type} (r : Outcome α) :
    (Outcome.state (Outcome.leave r)).heap = (Outcome.state r).heap := by
  cases r <;> rfl

theorem Outcome.halt?_checked {r : Outcome Value} {marked : List PromiseId} {h : Halt}
    (hr : r.halt? = some h) : (Outcome.checked r marked).halt? = some h := by
  cases r with
  | ok v t => cases hr
  | error e t => exact hr

/-- What a call of a gathering closure does: it gathers the arguments two levels deeper, in a heap
that has more in it, and that is what substitution in the whole list does in that heap. -/
theorem gathering_alike (hc : c.Gathers s.heap)
    (hfunction : s.heap.function? env mask name = some (.closure c))
    (hargs : ∀ slot ∈ args, slot.val.isDots = false)
    (hunaware : Unaware eng (fuel + 2) (fun ev => ev (.call (.reference name) args) env mask) s) :
    ∃ h : Heap, s.heap.Gains h ∧
      Outcome.Alike 0 (evaluate eng (fuel + 2) (.call (.reference name) args) env mask s)
        ((resolve eng (evaluate eng fuel) (.pairlist args) env none >>= fun t =>
          pure t.elements) (s.mapHeap fun _ => h)) := by
  have hdepth : s.depth < eng.maxDepth := hunaware.depth_lt
  obtain ⟨t, supplied, marked, hforwards, hholding, hmarked, hcall⟩ :=
    evaluateStep_variadic hdepth hfunction hc.variadic hc.env hargs
  have hguarded : evaluateGuarded eng (fuel + 2) (.call (.reference name) args) env mask s = _ :=
    (evaluateStepGuarded_namedCall hfunction nofun).trans (hcall (evaluateGuarded eng (fuel + 1)))
  have hends : ∀ h, Outcome.halt?
      (evaluateGuarded eng (fuel + 1) c.body s.heap.frames.size none t) = some h →
      Outcome.halt? (evaluateGuarded eng (fuel + 2) (.call (.reference name) args) env mask s) =
        some h := by
    intro h hh
    rw [hguarded, Outcome.halt?_leave]
    exact Outcome.halt?_checked hh
  have htdepth : t.depth = s.depth + 1 := hforwards.depth
  have hdepth' : t.depth < eng.maxDepth := by
    refine Nat.lt_of_le_of_ne (htdepth ▸ hdepth) fun hmax => hunaware.clear (hends _ ?_)
    rw [hc.body]
    exact congrArg Outcome.halt? (evaluateGuarded_overflow fuel hmax)
  obtain ⟨u, id, hspecial, hforwards', hcaptured, hbody⟩ :=
    evaluateStep_gathering hdepth' hc (Nat.le_refl _) hholding
  have hbodyGuarded : evaluateGuarded eng (fuel + 1) c.body s.heap.frames.size none t =
      Outcome.leave (gather eng (capturesIn env args) (evaluateGuarded eng fuel) u) := by
    rw [← hbody, hc.body]
    exact evaluateStepGuarded_namedCall hspecial nofun
  have hudepth : u.depth = t.depth + 1 := hforwards'.depth
  have hinner : Unaware eng fuel (gather eng (capturesIn env args)) u := by
    refine ⟨hudepth ▸ hdepth', fun h => hunaware.ends (hends _ ?_),
      fun h => hunaware.clear (hends _ ?_)⟩ <;> rw [hbodyGuarded, Outcome.halt?_leave, h]
  -- The same two levels higher, and there for the whole list at once.
  let s' := s.mapHeap fun _ => u.heap
  have hlower : u.Deeper 2 s' :=
    ⟨rfl, hforwards'.world.trans hforwards.world, by rw [hudepth, htdepth]; rfl⟩
  have hkept := hinner.alike (gather_related (evaluateGuarded_related eng 0 fuel) (fun _ h => h) _) (.refl u)
  have hraised := hinner.alike (gather_related (evaluateGuarded_related eng 2 fuel) (fun _ h => h) _) hlower
  have hdepth'' : s'.depth < eng.maxDepth := hdepth
  have hwhole := resolveCaptures_elements (evaluate_related fuel) (evaluate_ignoresLog eng fuel)
    env args hdepth'' (.refl s')
  refine ⟨u.heap, hforwards'.gains hholding.gains, ?_⟩
  have hreal : evaluate eng (fuel + 2) (.call (.reference name) args) env mask s = _ :=
    hcall (evaluate eng (fuel + 1))
  have hbodyReal : evaluate eng (fuel + 1) c.body s.heap.frames.size none t = _ :=
    hbody (evaluate eng fuel)
  have hchecked : ∀ p ∈ marked, ((Outcome.state (Outcome.leave (gather eng (capturesIn env args)
      (evaluate eng fuel) u))).heap.promise p).captured = true := by
    intro p hp
    obtain ⟨a, ha, rfl⟩ := hmarked p hp
    rw [Outcome.heap_leave]
    exact (gather_keepsTrees eng fuel (capturesIn env args) u).captured (hcaptured a ha)
  rw [hreal, hbodyReal, Outcome.checked_of_captured hchecked]
  exact ((hkept.of_same hraised).trans_same hwhole).leave.leave

theorem Tree.elements_rename (ρ : Renaming) (t : Tree) :
    (t.rename ρ).elements = t.elements.rename ρ := by
  rw [Tree.elements, Tree.elements, Tree.slots?_rename, Value.rename_list]
  cases t.slots? <;> simp [Named.map]

theorem Outcome.Renamed.of_alike {ρ : Renaming} {α β : Type} {g : α → β} {r : Outcome α}
    {r₁ r₂ : Outcome β} (h : Outcome.Renamed ρ g r r₂) (h' : Outcome.Alike 0 r₁ r₂) :
    Outcome.Renamed ρ g r r₁ := by
  have hback {t t₁ t₂ : State} (h : t.Renamed ρ t₂) (h' : t₁.Deeper 0 t₂) : t.Renamed ρ t₁ :=
    ⟨h'.heap ▸ h.heap, h'.world.trans h.world, h'.depth.trans h.depth⟩
  cases h with
  | ok h =>
    cases h' with
    | ok h' => exact .ok (hback h h')
  | error h =>
    cases h' with
    | error h' => exact .error (hback h h')

/-- To call a closure that gathers its arguments, whatever they are but variadic ones, is to
substitute in the list of them without a mask: from the same state the same trees with the same
names, or the same error, and the same final state, except for the numbers of the frames and
promises that are made. The arguments lie two levels deeper in the call, of which the call may take
no notice. -/
theorem gathering_substitutes_in_pairlist (hhost : eng.host.UniformFrom s.heap)
    (hc : c.Gathers s.heap) (hclosed : s.heap.Closed)
    (hscope : InScope s.heap.frames.size (Tree.pairlist args).reach env none)
    (hfunction : s.heap.function? env mask name = some (.closure c))
    (hargs : ∀ slot ∈ args, slot.val.isDots = false)
    (hunaware : Unaware eng (fuel + 2) (fun ev => ev (.call (.reference name) args) env mask) s) :
    ∃ ρ : Renaming, ρ.Fixes s.heap ∧
      Outcome.Renamed ρ (Value.rename ρ)
        ((resolve eng (evaluate eng fuel) (.pairlist args) env none >>= fun t =>
          pure t.elements) s)
        (evaluate eng (fuel + 2) (.call (.reference name) args) env mask s) := by
  obtain ⟨h, hgains, halike⟩ := gathering_alike hc hfunction hargs hunaware
  have hextends : s.Extends (s.mapHeap fun _ => h) := ⟨hclosed, hgains.toExtends, rfl, rfl⟩
  obtain ⟨ρ, hfixes, hrenamed⟩ := Eval.Renamed.extended (f := Value.rename)
    (fun ρ hρ t env mask => (resolve_renamed (evaluate_renamed (hhost ρ hρ) fuel) t env mask).bind
      fun t => .pure (t.elements_rename ρ).symm) hextends hscope
  exact ⟨ρ, hfixes, hrenamed.of_alike halike⟩

end

def Closure.gathering : Closure Tree :=
  ⟨some "g", [⟨dotsName, none⟩], .callNamed "enexprs" [.dots], 0, 1⟩

def State.withGathering : State where
  heap :=
    let h := (({} : Heap).newFrame none false).2
    let h := h.define 0 "enexprs" (.special ⟨.enexprs, 2⟩)
    h.define 0 "g" (.closure .gathering)

theorem State.withGathering_closed : State.withGathering.heap.Closed := by
  have henexprs := Heap.Closed.root.define 0 "enexprs" (v := .special ⟨.enexprs, 2⟩) (Nat.zero_le _)
  exact henexprs.define 0 "g" (v := .closure .gathering) (Nat.le_refl 1)

theorem gathering_splice_and_definition :
    let eng : Engine := { host := Session.host, maxDepth := 3 }
    let args : List Slot := [
      ⟨none, .splice (.literal (.list [⟨some "a", .int 1⟩, ⟨none, .int 2⟩]))⟩,
      ⟨some "b", .unquote (.literal (.int 3))⟩,
      ⟨none, .define (.literal (.str "c")) (.reference "x")⟩]
    let called : Outcome Value :=
      evaluate eng 4 (.call (.reference "g") args) 0 none .withGathering
    (called.value?.bind Value.asList?).map (List.map Named.name) =
        some [some "a", none, some "b", some "c"] ∧
      ∃ ρ : Renaming, ρ.Fixes State.withGathering.heap ∧
        Outcome.Renamed ρ (Value.rename ρ)
          ((resolve eng (evaluate eng 2) (.pairlist args) 0 none >>= fun t =>
            pure t.elements) .withGathering) called := by
  intro eng args called
  have hunaware : Unaware eng 4 (fun ev => ev (.call (.reference "g") args) 0 none)
      .withGathering := by
    constructor <;> decide +kernel
  have hargs : ∀ slot ∈ args, slot.val.isDots = false := by decide +kernel
  have hc : Closure.gathering.Gathers State.withGathering.heap :=
    ⟨⟨none, rfl⟩, rfl, Nat.zero_lt_one, 2, rfl⟩
  have hnames : (called.value?.bind Value.asList?).map (List.map Named.name) =
      some [some "a", none, some "b", some "c"] := by
    decide +kernel
  exact ⟨hnames, gathering_substitutes_in_pairlist (fun ρ _ => Session.host_uniform ρ) hc
    State.withGathering_closed ⟨Nat.zero_le _, Nat.zero_lt_one, Mask.within_none⟩ rfl hargs
    hunaware⟩

end Quotation
