import Quotation.Proofs.Gathering.Slots
import Quotation.Proofs.Lockstep.Since
import Quotation.Session.Host

namespace Quotation

/-- The values of promises under their own names, where they are forced one after the other. -/
inductive ForcesAll (ev : Evaluator) : List (Named PromiseId) → State → List Item → State → Prop
  | nil {s : State} : ForcesAll ev [] s [] s
  | cons {name : Option String} {p : PromiseId} {rest : List (Named PromiseId)} {s t u : State}
      {v : Value} {items : List Item} : force ev p s = .ok v t → ForcesAll ev rest t items u →
        ForcesAll ev (⟨name, p⟩ :: rest) s (⟨name, v⟩ :: items) u

/-- The elements that arguments give from left to right: one under the name of its argument, and
those that were relayed for the variadic reference. -/
inductive Elements (ev : Evaluator) (env : FrameId) (mask : Option Mask) :
    List Slot → State → List Item → State → Prop
  | nil {s : State} : Elements ev env mask [] s [] s
  | one {slot : Slot} {rest : List Slot} {s t u : State} {v : Value} {items : List Item} :
      slot.val.isDots = false → ev slot.val env mask s = .ok v t →
        Elements ev env mask rest t items u →
          Elements ev env mask (slot :: rest) s (⟨slot.name, v⟩ :: items) u
  | relayed {slot : Slot} {rest : List Slot} {s t u : State} {supplied : List (Named PromiseId)}
      {here items : List Item} : slot.val.isDots = true → s.heap.dots? env = some supplied →
        ForcesAll ev supplied s here t → Elements ev env mask rest t items u →
          Elements ev env mask (slot :: rest) s (here ++ items) u

section

variable {eng : Engine} {ev : Evaluator} {fuel : Nat} {env : FrameId} {mask : Option Mask}
  {name : String} {args : List Slot} {s u : State} {items : List Item}

theorem forceAll_eq_ok_iff {supplied : List (Named PromiseId)} :
    forceAll ev supplied s = .ok items u ↔ ForcesAll ev supplied s items u := by
  constructor
  · intro h
    induction supplied generalizing s items with
    | nil =>
      cases h
      exact .nil
    | cons a rest ih =>
      obtain ⟨v, t, hv, h⟩ := Eval.bind_eq_ok.1 h
      obtain ⟨vs, t', hvs, h⟩ := Eval.bind_eq_ok.1 h
      cases h
      exact .cons hv (ih hvs)
  · intro h
    induction h with
    | nil => rfl
    | cons hv _ ih =>
      exact Eval.bind_eq_ok.2 ⟨_, _, hv, Eval.bind_eq_ok.2 ⟨_, _, ih, rfl⟩⟩

theorem visibleDots_eq_ok_iff {supplied : List (Named PromiseId)} :
    visibleDots env s = .ok supplied u ↔ s.heap.dots? env = some supplied ∧ u = s := by
  simp only [visibleDots, Eval.heap_bind_apply]
  cases s.heap.dots? env with
  | none => exact ⟨fun h => (by cases h), fun h => (by cases h.1)⟩
  | some _ => simp [Eval.pure_apply, eq_comm]

theorem evalSlot_eq_ok {slot : Slot} (h : evalSlot ev env mask slot s = .ok items u) :
    (∃ v, slot.val.isDots = false ∧ ev slot.val env mask s = .ok v u ∧
      items = [⟨slot.name, v⟩]) ∨
    ∃ supplied, slot.val.isDots = true ∧ s.heap.dots? env = some supplied ∧
      ForcesAll ev supplied s items u := by
  unfold evalSlot at h
  split at h
  · rename_i hdots
    obtain ⟨supplied, t, hsupplied, hforced⟩ := Eval.bind_eq_ok.1 h
    obtain ⟨hfound, rfl⟩ := visibleDots_eq_ok_iff.1 hsupplied
    exact .inr ⟨supplied, hdots, hfound, forceAll_eq_ok_iff.1 hforced⟩
  · rename_i hdots
    obtain ⟨v, t, hv, h⟩ := Eval.bind_eq_ok.1 h
    cases h
    exact .inl ⟨v, Bool.eq_false_iff.2 hdots, hv, rfl⟩

theorem evalSlots_eq_ok_iff :
    evalSlots ev env mask args s = .ok items u ↔ Elements ev env mask args s items u := by
  constructor
  · intro h
    induction args generalizing s items with
    | nil =>
      cases h
      exact .nil
    | cons slot rest ih =>
      obtain ⟨here, t, hhere, h⟩ := Eval.bind_eq_ok.1 h
      obtain ⟨there, t', hthere, h⟩ := Eval.bind_eq_ok.1 h
      cases h
      rcases evalSlot_eq_ok hhere with ⟨v, hdots, hv, rfl⟩ | ⟨supplied, hdots, hfound, hforces⟩
      · exact .one hdots hv (ih hthere)
      · exact .relayed hdots hfound hforces (ih hthere)
  · intro h
    induction h with
    | nil => rfl
    | @one slot rest s t u v items hdots hv _ ih =>
      have hhere : evalSlot ev env mask slot s = .ok [⟨slot.name, v⟩] t := by
        simp only [evalSlot, hdots, Bool.false_eq_true, if_false]
        exact Eval.bind_eq_ok.2 ⟨v, t, hv, rfl⟩
      exact Eval.bind_eq_ok.2 ⟨_, t, hhere, Eval.bind_eq_ok.2 ⟨items, u, ih, rfl⟩⟩
    | @relayed slot rest s t u supplied here items hdots hfound hforces _ ih =>
      have hhere : evalSlot ev env mask slot s = .ok here t := by
        simp only [evalSlot, hdots, if_true]
        exact Eval.bind_eq_ok.2
          ⟨supplied, s, visibleDots_eq_ok_iff.2 ⟨hfound, rfl⟩, forceAll_eq_ok_iff.2 hforces⟩
      exact Eval.bind_eq_ok.2 ⟨here, t, hhere, Eval.bind_eq_ok.2 ⟨items, u, ih, rfl⟩⟩

def evalList (ev : Evaluator) (env : FrameId) (mask : Option Mask) (args : List Slot) :
    Eval Value := do
  let items ← evalSlots ev env mask args
  return .list items

theorem evalList_eq_ok_iff {v : Value} :
    evalList ev env mask args s = .ok v u ↔
      ∃ items, v = .list items ∧ Elements ev env mask args s items u := by
  constructor
  · intro h
    obtain ⟨items, t, hitems, h⟩ := Eval.bind_eq_ok.1 h
    cases h
    exact ⟨items, rfl, evalSlots_eq_ok_iff.1 hitems⟩
  · rintro ⟨items, rfl, h⟩
    exact Eval.bind_eq_ok.2 ⟨_, _, evalSlots_eq_ok_iff.2 h, rfl⟩

theorem evalList_related {L : Lockstep eng eng} {ev₁ ev₂ : Evaluator}
    (hev : L.RelatedEvaluators ev₁ ev₂) (env : FrameId) (mask : Option Mask) (args : List Slot) :
    L.Related (evalList ev₁ env mask args) (evalList ev₂ env mask args) :=
  (evalSlots_related hev env mask args).bind fun _ => .pure _

theorem Outcome.leave_eq_ok_iff {α : Type} {r : Outcome α} {a : α} :
    Outcome.leave r = .ok a u ↔ ∃ t, r = .ok a t ∧ u = t.mapDepth (· - 1) := by
  cases r with
  | ok b t =>
    constructor
    · rintro ⟨⟩
      exact ⟨t, rfl, rfl⟩
    · rintro ⟨t, ⟨⟩, rfl⟩
      rfl
  | error h t => exact ⟨fun h => (nomatch h), fun ⟨_, h, _⟩ => (nomatch h)⟩

theorem evalDynamicSlot_of_noMarkers {slot : Slot} (h : slot.val.hasMarkers = false) :
    evalDynamicSlot eng ev env mask slot = evalSlot ev env mask slot := by
  have hinjected : ∀ t : Tree, t.hasMarkers = false →
      evalInjected eng ev env mask t = ev t env mask := by
    intro t ht
    cases t with
    | unquote => cases ht
    | _ => simp [evalInjected, ht]
  obtain ⟨name, t⟩ := slot
  cases t with
  | splice | define => cases h
  | _ =>
    simp only [evalDynamicSlot, evalSlot, hinjected _ h]
    split <;> rfl

theorem evalDynamicSlots_of_noMarkers (h : Slot.anyMarkers args = false) :
    evalDynamicSlots eng ev env mask args = evalSlots ev env mask args := by
  induction args with
  | nil => rfl
  | cons slot rest ih =>
    obtain ⟨hhere, hthere⟩ := Bool.or_eq_false_iff.1 h
    simp only [evalDynamicSlots, evalSlots, evalDynamicSlot_of_noMarkers hhere, ih hthere]

inductive Value.Lists : Value → Prop
  | list (i : Identity) : Lists (.builtin ⟨.list, i⟩)
  | list2 (i : Identity) : Lists (.special ⟨.list2, i⟩)

theorem Value.Lists.unguarded {v : Value} (hv : v.Lists) : v.Unguarded := by
  cases hv with
  | list | list2 => exact nofun

theorem runSpecial_list2 (id : Identity) :
    runSpecial eng ev ⟨.list2, id⟩ ⟨args, env, mask⟩ = do
      let items ← evalDynamicSlots eng ev env mask args
      return .list items := by
  refine (runRoutine_bind (Routine.arguments args env mask) _).trans ?_
  exact congrArg (· >>= _) (runRoutine_demand (.arguments args env mask))

theorem Value.Lists.evaluateStep_call {v : Value} (hv : v.Lists) (hargs : Slot.anyMarkers args = false)
    (hname : s.heap.function? env mask name = some v) (hdepth : s.depth < eng.maxDepth)
    (ev : Evaluator) :
    evaluateStep eng ev (.call (.reference name) args) env mask s = Outcome.leave
      (evalList ev env mask args (s.entering eng.trace (.call (.reference name) args))) := by
  have hhead : ∀ u : State, u.heap = s.heap →
      resolveHead ev (.reference name) env mask u = .ok v u := fun u hu =>
    resolveHead_named (hu ▸ hname)
  cases hv with
  | list i =>
    have hmarkers : (Tree.call (.reference name) args).hasMarkers = false := by
      simpa [Tree.hasMarkers] using hargs
    have hexposed : ∀ h : Heap, h.exposed? env mask (.call (.reference name) args) = none :=
      fun h => exposed?_eq_none_iff.2 fun hexposed => by simp [hexposed.hasMarkers] at hmarkers
    rw [Quotation.evaluateStep_call ev hdepth, callHead_apply, hhead _ (s.heap_entering _ _),
      Outcome.follow_ok_eval, Eval.bind_apply, rejectMarkers, rejectExposed_apply, hexposed]
    rfl
  | list2 i =>
    rw [evaluateStep_resolvedCall ev hdepth (hhead _ (s.heap_entering _ _)) (by simp), apply,
      runSpecial_list2, evalDynamicSlots_of_noMarkers hargs]
    rfl

theorem Value.Lists.eq_ok_iff {v w : Value} (hv : v.Lists) (hargs : Slot.anyMarkers args = false)
    (hname : s.heap.function? env mask name = some v) (hdepth : s.depth < eng.maxDepth) :
    evaluate eng (fuel + 1) (.call (.reference name) args) env mask s = .ok w u ↔
      ∃ items t, w = .list items ∧ u = t.mapDepth (· - 1) ∧
        Elements (evaluate eng fuel) env mask args
          (s.entering eng.trace (.call (.reference name) args)) items t := by
  rw [evaluate, hv.evaluateStep_call hargs hname hdepth]
  constructor
  · intro h
    obtain ⟨t, hlist, rfl⟩ := Outcome.leave_eq_ok_iff.1 h
    obtain ⟨items, rfl, helements⟩ := evalList_eq_ok_iff.1 hlist
    exact ⟨items, t, rfl, rfl, helements⟩
  · rintro ⟨items, t, rfl, rfl, helements⟩
    exact Outcome.leave_eq_ok_iff.2 ⟨t, evalList_eq_ok_iff.2 ⟨items, rfl, helements⟩, rfl⟩

theorem Value.Lists.alike {v : Value} (hv : v.Lists) (hargs : Slot.anyMarkers args = false)
    (hname : s.heap.function? env mask name = some v)
    (hunaware : Unaware eng (fuel + 1) (fun ev => ev (.call (.reference name) args) env mask) s) :
    Outcome.Alike 0 (evaluate eng (fuel + 1) (.call (.reference name) args) env mask s)
      (evalList (evaluate eng fuel) env mask args s) := by
  have hdepth : s.depth < eng.maxDepth := hunaware.depth_lt
  have hcall := fun ev => hv.evaluateStep_call hargs hname hdepth ev
  generalize hu : s.entering eng.trace (.call (.reference name) args) = u at hcall
  have hentered : u.Deeper 0 (s.mapDepth (· + 1)) := hu ▸ (s.deeper_entering _ _).symm_same
  have hguarded : evaluateGuarded eng (fuel + 1) (.call (.reference name) args) env mask s =
      Outcome.leave (evalList (evaluateGuarded eng fuel) env mask args u) :=
    (evaluateStepGuarded_namedCall hname hv.unguarded).trans (hcall (evaluateGuarded eng fuel))
  have hreal : evaluate eng (fuel + 1) (.call (.reference name) args) env mask s =
      Outcome.leave (evalList (evaluate eng fuel) env mask args u) := hcall (evaluate eng fuel)
  have hinner : Unaware eng fuel (fun ev => evalList ev env mask args) u := by
    refine ⟨hentered.depth ▸ hdepth, fun h => hunaware.ends ?_, fun h => hunaware.clear ?_⟩ <;>
      rw [hguarded, Outcome.halt?_leave, h]
  have hlower : u.Deeper 1 s := ⟨hentered.heap, hentered.world, hentered.depth⟩
  have hkept := hinner.alike
    (evalList_related (evaluateGuarded_related eng 0 fuel) env mask args) (.refl u)
  have hraised := hinner.alike
    (evalList_related (evaluateGuarded_related eng 1 fuel) env mask args) hlower
  rw [hreal]
  exact (hkept.of_same hraised).leave

end

namespace Outcome.SameSince

variable {α : Type} {l₁ l₂ : List Log.Record} {r₁ r₂ : Outcome α}

theorem leave (h : SameSince l₁ l₂ r₁ r₂) :
    SameSince l₁ l₂ (Outcome.leave r₁) (Outcome.leave r₂) := by
  cases h with
  | ok h => exact .ok h.leave
  | error h => exact .error h.leave

theorem alike (h : SameSince l₁ l₂ r₁ r₂) : Outcome.Alike 0 r₁ r₂ := by
  cases h with
  | ok h => exact .ok h.same
  | error h => exact .error h.same

end Outcome.SameSince

section

variable {eng : Engine} {fuel : Nat} {env : FrameId} {mask : Option Mask} {name name' : String}
  {args : List Slot} {s : State}

def State.opening (s : State) (eng : Engine) (t : Tree) : List Log.Record :=
  if s.depth < eng.maxDepth then (s.entering eng.trace t).log else s.log

theorem State.opening_untraced (heng : eng.trace = false) (s : State) (t : Tree) :
    s.opening eng t = s.log := by
  unfold State.opening State.entering
  rw [heng]
  split <;> rfl

theorem Value.Lists.sameSince {v v' : Value} (hv : v.Lists) (hv' : v'.Lists)
    (hargs : Slot.anyMarkers args = false) (hname : s.heap.function? env mask name = some v)
    (hname' : s.heap.function? env mask name' = some v') :
    Outcome.SameSince (s.opening eng (.call (.reference name) args))
      (s.opening eng (.call (.reference name') args))
      (evaluate eng (fuel + 1) (.call (.reference name) args) env mask s)
      (evaluate eng (fuel + 1) (.call (.reference name') args) env mask s) := by
  by_cases hdepth : s.depth < eng.maxDepth
  · have hentered : (s.entering eng.trace (.call (.reference name) args)).SameSince
        (s.opening eng (.call (.reference name) args))
        (s.opening eng (.call (.reference name') args))
        (s.entering eng.trace (.call (.reference name') args)) := by
      refine ⟨(s.deeper_entering _ _).symm_same.trans_same (s.deeper_entering _ _), [], ?_, ?_⟩
      · exact (if_pos hdepth).symm
      · exact (if_pos hdepth).symm
    have hcall := hv.evaluateStep_call hargs hname hdepth (evaluate eng fuel)
    have hcall' := hv'.evaluateStep_call hargs hname' hdepth (evaluate eng fuel)
    have hrelated := evalList_related
      (evaluate_related fuel : (Lockstep.since eng).RelatedEvaluators _ _) env mask args
    rw [evaluate, evaluate, hcall, hcall']
    exact (hrelated.sameSince hentered).leave
  · have hopening : ∀ t, s.opening eng t = s.log := fun t => if_neg hdepth
    have hover : ∀ t, evaluate eng (fuel + 1) (.call t args) env mask s =
        .error (.failed (.stackOverflow (s.depth + 1) eng.maxDepth)) s := fun t => by
      rw [evaluate, evaluateStep, Eval.nested_apply, if_neg hdepth]
    rw [hover, hover, hopening, hopening]
    exact .error ⟨.refl s, [], rfl, rfl⟩

/-- The two functions, and the pairlist itself, make the same sequence of arguments without markers.
The calls do the same but for the record that names the function. So does the pairlist unless one of
the calls takes notice of its level. What is made has the values of the arguments in their order,
under their names, and in the place of the variadic reference those of the promises relayed. -/
theorem listings_agree {i j : Identity} (hargs : Slot.anyMarkers args = false)
    (hlist : s.heap.function? env mask "list" = some (.builtin ⟨.list, i⟩))
    (hlist2 : s.heap.function? env mask "list2" = some (.special ⟨.list2, j⟩)) :
    let list : Tree := .call (.reference "list") args
    let list2 : Tree := .call (.reference "list2") args
    let run : Tree → Outcome Value := fun t => evaluate eng (fuel + 1) t env mask s
    let unaware : Tree → Prop := fun t => Unaware eng (fuel + 1) (fun ev => ev t env mask) s
    Outcome.SameSince (s.opening eng list) (s.opening eng list2) (run list) (run list2) ∧
    (eng.trace = false → run list = run list2) ∧
    (unaware list ∨ unaware list2 →
      (run list).Alike 0 (run (.pairlist args)) ∧ (run list2).Alike 0 (run (.pairlist args))) ∧
    (∀ v u, run (.pairlist args) = .ok v u ↔
      ∃ items, v = .list items ∧ Elements (evaluate eng fuel) env mask args s items u) ∧
    ∀ t, t = list ∨ t = list2 → s.depth < eng.maxDepth → ∀ v u, run t = .ok v u ↔
      ∃ items w, v = .list items ∧ u = w.mapDepth (· - 1) ∧
        Elements (evaluate eng fuel) env mask args (s.entering eng.trace t) items w := by
  intro list list2 run unaware
  have hsame : Outcome.SameSince (s.opening eng list) (s.opening eng list2) (run list) (run list2) :=
    (Value.Lists.list i).sameSince (.list2 j) hargs hlist hlist2
  refine ⟨hsame, fun heng => ?_, fun hunaware => ?_, fun v u => evalList_eq_ok_iff, ?_⟩
  · rw [State.opening_untraced heng, State.opening_untraced heng] at hsame
    exact hsame.eq
  · have halike : (run list).Alike 0 (run list2) := hsame.alike
    rcases hunaware with hunaware | hunaware
    · have hbare := (Value.Lists.list i).alike hargs hlist hunaware
      exact ⟨hbare, halike.symm_same.trans_same hbare⟩
    · have hbare := (Value.Lists.list2 j).alike hargs hlist2 hunaware
      exact ⟨halike.trans_same hbare, hbare⟩
  · rintro t (rfl | rfl) hdepth v u
    · exact (Value.Lists.list i).eq_ok_iff hargs hlist hdepth
    · exact (Value.Lists.list2 j).eq_ok_iff hargs hlist2 hdepth

end

def State.withLists : State where
  heap :=
    let h := (({} : Heap).newFrame none false).2
    let h := h.define 0 "list" (.builtin ⟨.list, 0⟩)
    let h := h.define 0 "list2" (.special ⟨.list2, 1⟩)
    let h := (h.newFrame (some 0) true).2
    let h := (h.newPromise { expr := .literal (.int 5), env := 0, mask := none }).2
    let h := (h.newPromise
      { expr := .callNamed "list" [.literal (.int 6)], env := 0, mask := none }).2
    h.bind 1 dotsName (.dots [⟨some "x", 0⟩, ⟨none, 1⟩])

theorem relayed_listings_agree :
    let eng : Engine := { host := Session.host }
    let args : List Slot := [⟨some "a", .literal (.int 1)⟩, ⟨some "b", .dots⟩,
      ⟨none, .callNamed "list2" [.literal (.int 2)]⟩]
    let run : Tree → Outcome Value := fun t => evaluate eng 5 t 1 none .withLists
    let list : Tree := .call (.reference "list") args
    let list2 : Tree := .call (.reference "list2") args
    Slot.anyMarkers args = false ∧
    Unaware eng 5 (fun ev => ev list 1 none) .withLists ∧
    run list = run list2 ∧ (run list).Alike 0 (run (.pairlist args)) ∧
    (run list).value? = some (.list [⟨some "a", .int 1⟩, ⟨some "x", .int 5⟩,
      ⟨none, .list [⟨none, .int 6⟩]⟩, ⟨none, .list [⟨none, .int 2⟩]⟩]) := by
  intro eng args run list list2
  have hunaware : Unaware eng 5 (fun ev => ev list 1 none) .withLists := by
    constructor <;> decide +kernel
  have hagree := @listings_agree eng 4 1 none args .withLists 0 1 rfl rfl rfl
  exact ⟨rfl, hunaware, hagree.2.1 rfl, (hagree.2.2.1 (.inl hunaware)).1, rfl⟩

end Quotation
