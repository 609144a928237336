import Quotation.Proofs.Exposure.Closure
import Quotation.Proofs.Matching
import Quotation.Proofs.Renaming
import Quotation.Proofs.SpecialCall

/-! Calls of closures whose only parameter is the variadic one. The arguments of such a call are
neither matched by name nor evaluated: the promises of those that are written in the call and the
promises that the call passes on stand in the frame of the call as one list, in the order of the
call. -/

namespace Quotation

def Closure.Variadic (c : Closure Tree) : Prop := ∃ t, c.formals = [⟨dotsName, t⟩]

structure Slot.Plain (slot : Slot) : Prop where
  markers : slot.val.hasMarkers = false
  dots : slot.val.isDots = false

namespace Heap

/-- What is new binds nothing but variadic arguments, and has not been evaluated. -/
structure Gains (h h' : Heap) : Prop extends h.Extends h' where
  dots : ∀ f name b, h.frames.size ≤ f → h'.binding? f name = some b → ∃ args, b = .dots args
  pending : ∀ p, h.promises.size ≤ p → (h'.promise p).Pending

def callee? (h : Heap) (env : FrameId) (mask : Option Mask) : Tree → Option Value
  | .literal v => if v.isCallable then some v else none
  | .reference name => h.function? env mask name
  | _ => none

def passing (h : Heap) (env : FrameId) (supplied : List (Named PromiseId)) : Heap :=
  (h.newFrame (some env) true).2.bind h.frames.size dotsName (.dots supplied)

structure CallFrame (h₀ h : Heap) (f : FrameId) (c : Closure Tree) : Prop where
  size : f < h.frames.size
  isCall : (h.frame f).isCall = true
  enclosing : (h.frame f).enclosing = h₀.chain c.env

structure Holds (h₀ h : Heap) (a : Named PromiseId) (c : Named (Capture Tree)) : Prop where
  name : a.name = c.name
  old : h₀.promises.size ≤ a.val
  new : a.val < h.promises.size
  expr : (h.promise a.val).expr = c.val.tree
  env : (h.promise a.val).env = c.val.env

structure Carries (h₀ h : Heap) (a : Named PromiseId) (c : Named (Capture Tree)) : Prop
    extends h₀.Holds h a c where
  markers : c.val.tree.hasMarkers = false

variable {h₀ h h' : Heap} {env f : FrameId} {mask : Option Mask} {name : String}
  {supplied : List (Named PromiseId)} {captures : List (Named (Capture Tree))}

theorem Gains.refl (h : Heap) : h.Gains h where
  frame _ _ := rfl
  promise _ _ := rfl
  frames := Nat.le_refl _
  promises := Nat.le_refl _
  dots f name b hf hb := by
    rw [binding?, frame_of_size_le h f hf] at hb
    cases hb
  pending _ := pending_of_size_le

namespace Gains

theorem newPromise (hg : h₀.Gains h) (expr : Tree) (env : FrameId) (mask : Option Mask) :
    h₀.Gains (h.newPromise { expr, env, mask }).2 where
  frame f hf := hg.frame f hf
  promise p hp := by
    rw [promise_newPromise, if_neg (Nat.ne_of_lt (Nat.lt_of_lt_of_le hp hg.promises))]
    exact hg.promise p hp
  frames := hg.frames
  promises := Nat.le_trans hg.promises (by simp)
  dots := hg.dots
  pending p hp := by
    rw [promise_newPromise]
    split
    · exact ⟨rfl, rfl⟩
    · exact hg.pending p hp

theorem markCaptured (hg : h₀.Gains h) {p : PromiseId} (hp : h₀.promises.size ≤ p) :
    h₀.Gains (h.markCaptured p) where
  frame f hf := hg.frame f hf
  promise q hq := by
    have hne : p ≠ q := Nat.ne_of_gt (Nat.lt_of_lt_of_le hq hp)
    rw [Heap.markCaptured, promise_modifyPromise, if_neg fun hall => hne hall.1]
    exact hg.promise q hq
  frames := hg.frames
  promises := by
    rw [Heap.markCaptured, size_promises_modifyPromise]
    exact hg.promises
  dots := hg.dots
  pending q hq := by
    rw [Heap.markCaptured, promise_modifyPromise]
    split
    · exact hg.pending p hp
    · exact hg.pending q hq

end Gains

theorem size_frames_passing : (h.passing env supplied).frames.size = h.frames.size + 1 := by
  rw [passing, size_frames_bind, size_frames_newFrame]

theorem frame_passing :
    (h.passing env supplied).frame f =
      if f = h.frames.size then
        { bindings := ({} : NameTable Binding).insert dotsName (.dots supplied)
          enclosing := h.chain env
          isCall := true }
      else h.frame f := by
  rw [passing, bind, frame_modifyFrame, frame_newFrame, frame_newFrame]
  by_cases hf : f = h.frames.size
  · subst hf
    rw [if_pos ⟨rfl, by simp⟩, if_pos rfl, if_pos rfl]
    rfl
  · rw [if_neg fun hall => hf hall.1.symm, if_neg hf, if_neg hf]

theorem binding?_passing_self :
    (h.passing env supplied).binding? h.frames.size dotsName = some (.dots supplied) := by
  rw [binding?, frame_passing, if_pos rfl, NameTable.get?_insert, if_pos rfl]

theorem Gains.passing (hg : h₀.Gains h) (env : FrameId) (supplied : List (Named PromiseId)) :
    h₀.Gains (h.passing env supplied) where
  frame f hf := by
    rw [frame_passing, if_neg (Nat.ne_of_lt (Nat.lt_of_lt_of_le hf hg.frames))]
    exact hg.frame f hf
  promise p hp := hg.promise p hp
  frames := Nat.le_trans hg.frames (size_frames_passing ▸ Nat.le_succ _)
  promises := hg.promises
  dots f name b hf hb := by
    rw [binding?, frame_passing] at hb
    split at hb
    · rw [NameTable.get?_insert] at hb
      split at hb
      · exact ⟨supplied, (Option.some.inj hb).symm⟩
      · cases hb
    · exact hg.dots f name b hf hb
  pending p hp := hg.pending p hp

theorem Gains.chain (hg : h₀.Gains h) (henv : env < h₀.frames.size) :
    h.chain env = h₀.chain env := by
  rw [Heap.chain, Heap.chain, hg.frame env henv]

theorem Gains.functionIn? (hg : h₀.Gains h) (name : String) (chain : List FrameId) :
    h.functionIn? name chain = h₀.functionIn? name chain := by
  have hvalue : ∀ p, (h.promise p).value? = (h₀.promise p).value? := by
    intro p
    by_cases hp : p < h₀.promises.size
    · rw [hg.promise p hp]
    · rw [(hg.pending p (Nat.le_of_not_lt hp)).1, (pending_of_size_le (Nat.le_of_not_lt hp)).1]
  induction chain with
  | nil => rfl
  | cons f rest ih =>
    by_cases hf : f < h₀.frames.size
    · have hframe : h.binding? f name = h₀.binding? f name := by
        rw [binding?, binding?, hg.frame f hf]
      simp only [Heap.functionIn?, hframe, hvalue, ih]
    · have hle : h₀.frames.size ≤ f := Nat.le_of_not_lt hf
      have hnone : h₀.binding? f name = none := by
        rw [binding?, frame_of_size_le h₀ f hle]
        rfl
      rw [Heap.functionIn?, Heap.functionIn?, hnone, ih]
      cases hb : h.binding? f name with
      | none => rfl
      | some b =>
        obtain ⟨args, rfl⟩ := hg.dots f name b hle hb
        rfl

theorem Gains.callee?_callFrame (hg : h₀.Gains h) {c : Closure Tree} (hf : h₀.frames.size ≤ f)
    (hframe : h₀.CallFrame h f c) (head : Tree) :
    h.callee? f none head = h₀.callee? c.env none head := by
  cases head with
  | reference name =>
    have hself : h.functionIn? name (f :: h₀.chain c.env) =
        h.functionIn? name (h₀.chain c.env) := by
      rw [Heap.functionIn?]
      cases hb : h.binding? f name with
      | none => rfl
      | some b =>
        obtain ⟨args, rfl⟩ := hg.dots f name b hf hb
        rfl
    change h.functionIn? name (f :: (h.frame f).enclosing) = h₀.functionIn? name (h₀.chain c.env)
    rw [hframe.enclosing, hself, hg.functionIn? name (h₀.chain c.env)]
  | _ => rfl

theorem dots?_of_binding? (hb : h.binding? f dotsName = some (.dots supplied)) :
    h.dots? f = some supplied := by
  simp only [dots?, lookup, chain, List.findSome?_cons, hb]

theorem CallFrame.callFrame? {c : Closure Tree} (hf : h₀.CallFrame h f c) :
    h.callFrame? f = some f := by
  simp [Heap.callFrame?, chain, hf.isCall]

theorem Carries.ofHolds (hs : List.Forall₂ (h₀.Holds h) supplied captures)
    (hmarkers : ∀ c ∈ captures, c.val.tree.hasMarkers = false) :
    List.Forall₂ (h₀.Carries h) supplied captures := by
  induction hs with
  | nil => exact .nil
  | cons hc _ ih =>
    obtain ⟨hm, hrest⟩ := List.forall_mem_cons.1 hmarkers
    exact .cons { toHolds := hc, markers := hm } (ih hrest)

theorem Carries.noMarkers (hs : List.Forall₂ (h₀.Carries h) supplied captures) :
    ∀ c ∈ captures, c.val.tree.hasMarkers = false := by
  induction hs with
  | nil => nofun
  | cons hc _ ih => exact List.forall_mem_cons.2 ⟨hc.markers, ih⟩

theorem Carries.markedArguments (hs : List.Forall₂ (h₀.Carries h) supplied captures) :
    Quotation.markedArguments h supplied = [] := by
  induction hs with
  | nil => rfl
  | cons hc _ ih =>
    rw [Quotation.markedArguments, List.map_cons, List.filter_cons_of_neg]
    · exact ih
    · rw [hc.expr, hc.markers]
      decide

end Heap

structure State.Forwards (h₀ : Heap) (s s' : State) : Prop where
  gains : h₀.Gains s.heap → h₀.Gains s'.heap
  trees : s.heap.KeepsTrees s'.heap
  frames : s.heap.frames.size ≤ s'.heap.frames.size
  frame : ∀ f < s.heap.frames.size, s'.heap.frame f = s.heap.frame f
  world : s'.world = s.world
  depth : s'.depth = s.depth

namespace State.Forwards

variable {h₀ : Heap} {s s' s'' : State} {c : Closure Tree}
  {a : Named PromiseId} {capture : Named (Capture Tree)}
  {supplied : List (Named PromiseId)} {captures : List (Named (Capture Tree))}

theorem refl (s : State) : Forwards h₀ s s :=
  ⟨id, .refl _, Nat.le_refl _, fun _ _ => rfl, rfl, rfl⟩

theorem trans (h : Forwards h₀ s s') (h' : Forwards h₀ s' s'') : Forwards h₀ s s'' where
  gains hg := h'.gains (h.gains hg)
  trees := h.trees.trans h'.trees
  frames := Nat.le_trans h.frames h'.frames
  frame f hf := (h'.frame f (Nat.lt_of_lt_of_le hf h.frames)).trans (h.frame f hf)
  world := h'.world.trans h.world
  depth := h'.depth.trans h.depth

theorem logged (h : s'.Deeper 0 s) : Forwards h₀ s s' := by
  have hheap : s'.heap = s.heap := h.heap
  exact ⟨fun hg => hheap ▸ hg, hheap ▸ .refl _, hheap ▸ Nat.le_refl _, fun _ _ => by rw [hheap],
    h.world, h.depth⟩

theorem newPromise (s : State) (expr : Tree) (env : FrameId) (mask : Option Mask) :
    Forwards h₀ s (s.mapHeap fun h => (h.newPromise { expr, env, mask }).2) where
  gains hg := hg.newPromise expr env mask
  trees := .newPromise _ _
  frames := Nat.le_refl _
  frame _ _ := rfl
  world := rfl
  depth := rfl

theorem markCaptured (s : State) {p : PromiseId} (hp : h₀.promises.size ≤ p) :
    Forwards h₀ s (s.mapHeap (·.markCaptured p)) where
  gains hg := hg.markCaptured hp
  trees := .modifyPromise ⟨rfl, rfl, rfl, fun _ => rfl⟩
  frames := Nat.le_refl _
  frame _ _ := rfl
  world := rfl
  depth := rfl

theorem passing (s : State) (env : FrameId) (supplied : List (Named PromiseId)) :
    Forwards h₀ s (s.mapHeap (·.passing env supplied)) where
  gains hg := hg.passing env supplied
  trees := (Heap.Relates.newFrame _ _ _).trans (.rebind _ _ dotsName (some (.dots supplied)))
  frames := Heap.size_frames_passing ▸ Nat.le_succ _
  frame _ hf := Heap.frame_passing.trans (if_neg (Nat.ne_of_lt hf))
  world := rfl
  depth := rfl

theorem holds (h : Forwards h₀ s s') (hc : h₀.Holds s.heap a capture) :
    h₀.Holds s'.heap a capture where
  name := hc.name
  old := hc.old
  new := Nat.lt_of_lt_of_le hc.new h.trees.promises
  expr := (h.trees.promise _ hc.new).expr.trans hc.expr
  env := (h.trees.promise _ hc.new).env.trans hc.env

theorem holdsAll (h : Forwards h₀ s s')
    (hc : List.Forall₂ (h₀.Holds s.heap) supplied captures) :
    List.Forall₂ (h₀.Holds s'.heap) supplied captures :=
  hc.imp fun _ _ => h.holds

theorem carries (h : Forwards h₀ s s') (hc : h₀.Carries s.heap a capture) :
    h₀.Carries s'.heap a capture :=
  { toHolds := h.holds hc.toHolds, markers := hc.markers }

theorem carriesAll (h : Forwards h₀ s s')
    (hc : List.Forall₂ (h₀.Carries s.heap) supplied captures) :
    List.Forall₂ (h₀.Carries s'.heap) supplied captures :=
  hc.imp fun _ _ => h.carries

theorem callFrame {f : FrameId} (h : Forwards h₀ s s') (hf : h₀.CallFrame s.heap f c) :
    h₀.CallFrame s'.heap f c where
  size := Nat.lt_of_lt_of_le hf.size h.frames
  isCall := (congrArg Frame.isCall (h.frame f hf.size)).trans hf.isCall
  enclosing := (congrArg Frame.enclosing (h.frame f hf.size)).trans hf.enclosing

end State.Forwards

/-- How the arguments that are written in a frame would be captured. -/
def capturesIn (f : FrameId) (slots : List Slot) : List (Named (Capture Tree)) :=
  slots.map (Named.map fun t => ⟨t, f⟩)

structure State.Supplies (h₀ : Heap) (s s' : State) (supplied : List (Named PromiseId))
    (captures : List (Named (Capture Tree))) : Prop where
  forwards : s.Forwards h₀ s'
  frames : s'.heap.frames = s.heap.frames
  carries : List.Forall₂ (h₀.Carries s'.heap) supplied captures

section

variable {h₀ : Heap} {eng : Engine} {ev : Evaluator} {env : FrameId} {mask : Option Mask}
  {s s₁ : State} {supplied passed : List (Named PromiseId)}
  {captures : List (Named (Capture Tree))} {c : Closure Tree}

theorem promiseSlots_append (l r : List Slot) :
    promiseSlots env mask (l ++ r) = do
      let here ← promiseSlots env mask l
      let there ← promiseSlots env mask r
      return here ++ there := by
  induction l with
  | nil => simp [promiseSlots]
  | cons slot rest ih =>
    simp only [List.cons_append, promiseSlots, ih, bind_assoc, pure_bind, List.append_assoc]

theorem promiseSlots_written (env : FrameId) (mask : Option Mask) {slots : List Slot}
    (hslots : ∀ slot ∈ slots, slot.val.isDots = false) (hgains : h₀.Gains s.heap) :
    ∃ supplied s', promiseSlots env mask slots s = .ok supplied s' ∧ s.Forwards h₀ s' ∧
      s'.heap.frames = s.heap.frames ∧
      List.Forall₂ (h₀.Holds s'.heap) supplied (capturesIn env slots) := by
  induction slots generalizing s with
  | nil => exact ⟨[], s, rfl, .refl s, rfl, .nil⟩
  | cons slot rest ih =>
    obtain ⟨hslot, hrest⟩ := List.forall_mem_cons.1 hslots
    let s₁ := s.mapHeap fun h => (h.newPromise { expr := slot.val, env, mask }).2
    have hnew : s.Forwards h₀ s₁ := .newPromise s slot.val env mask
    obtain ⟨supplied, s', hrun, hforwards, hframes, hholds⟩ := ih hrest (hnew.gains hgains)
    have hpromise : s₁.heap.promise s.heap.promises.size = { expr := slot.val, env, mask } :=
      (Heap.promise_newPromise s.heap _ _).trans (if_pos rfl)
    have hheld : h₀.Holds s₁.heap ⟨slot.name, s.heap.promises.size⟩
        ⟨slot.name, ⟨slot.val, env⟩⟩ :=
      { name := rfl
        old := hgains.promises
        new := Nat.lt_of_lt_of_eq (Nat.lt_succ_self _) (Heap.size_promises_newPromise _ _).symm
        expr := by rw [hpromise]
        env := by rw [hpromise] }
    refine ⟨⟨slot.name, s.heap.promises.size⟩ :: supplied, s', ?_, hnew.trans hforwards, hframes,
      .cons (hforwards.holds hheld) hholds⟩
    have hslotRun : promiseSlot env mask slot s = .ok [⟨slot.name, s.heap.promises.size⟩] s₁ := by
      rw [promiseSlot, hslot]
      rfl
    rw [promiseSlots, Eval.bind_apply, hslotRun, Outcome.follow_ok_eval, Eval.bind_apply, hrun]
    rfl

theorem promiseSlots_plain (env : FrameId) (mask : Option Mask) {slots : List Slot}
    (hslots : ∀ slot ∈ slots, slot.Plain)
    (hgains : h₀.Gains s.heap) :
    ∃ supplied s', promiseSlots env mask slots s = .ok supplied s' ∧
      s.Supplies h₀ s' supplied (capturesIn env slots) := by
  obtain ⟨supplied, s', hrun, hforwards, hframes, hholds⟩ :=
    promiseSlots_written env mask (fun slot h => (hslots slot h).dots) hgains
  have hmarkers : ∀ c ∈ capturesIn env slots, c.val.tree.hasMarkers = false := by
    rintro c hc
    obtain ⟨slot, hslot, rfl⟩ := List.mem_map.1 hc
    exact (hslots slot hslot).markers
  exact ⟨supplied, s', hrun, hforwards, hframes, Heap.Carries.ofHolds hholds hmarkers⟩

theorem promiseSlots_dots {label : Option String}
    (hdots : s.heap.binding? env dotsName = some (.dots passed)) :
    promiseSlots env mask [⟨label, .dots⟩] s = .ok passed s := by
  have hvisible : visibleDots env s = .ok passed s := by
    rw [visibleDots, Eval.heap_bind_apply, Heap.dots?_of_binding? hdots]
    rfl
  simp only [promiseSlots, promiseSlot, Tree.isDots_dots, if_true, Eval.bind_apply, hvisible,
    Outcome.follow_ok_eval, Eval.pure_apply, List.append_nil]

theorem promiseSlots_relaying (mask : Option Mask) {before after : List Slot}
    (label : Option String) (hown : ∀ slot ∈ before ++ after, slot.Plain) (hgains : h₀.Gains s.heap)
    (hsize : env < s.heap.frames.size)
    (hdots : s.heap.binding? env dotsName = some (.dots passed))
    (hpassed : List.Forall₂ (h₀.Carries s.heap) passed captures) :
    ∃ supplied s', promiseSlots env mask (before ++ ⟨label, .dots⟩ :: after) s = .ok supplied s' ∧
      s.Supplies h₀ s' supplied (capturesIn env before ++ captures ++ capturesIn env after) := by
  obtain ⟨hbefore, hafter⟩ := List.forall_mem_append.1 hown
  obtain ⟨first, s₁, hfirst, hsupplies₁⟩ :=
    promiseSlots_plain env mask hbefore hgains
  have hdots₁ : s₁.heap.binding? env dotsName = some (.dots passed) := by
    rw [Heap.binding?, hsupplies₁.forwards.frame env hsize]
    exact hdots
  obtain ⟨last, s₂, hlast, hsupplies₂⟩ :=
    promiseSlots_plain env mask hafter (hsupplies₁.forwards.gains hgains)
  have hforwards : s.Forwards h₀ s₂ := hsupplies₁.forwards.trans hsupplies₂.forwards
  refine ⟨first ++ (passed ++ last), s₂, ?_, hforwards,
    hsupplies₂.frames.trans hsupplies₁.frames, ?_⟩
  · have hslots : before ++ ⟨label, .dots⟩ :: after = before ++ ([⟨label, .dots⟩] ++ after) := rfl
    rw [hslots, promiseSlots_append, promiseSlots_append]
    simp only [Eval.bind_apply, hfirst, promiseSlots_dots hdots₁, hlast, Outcome.follow_ok_eval,
      Eval.pure_apply]
  · rw [List.append_assoc]
    exact List.rel_append (hsupplies₂.forwards.carriesAll hsupplies₁.carries)
      (List.rel_append (hforwards.carriesAll hpassed) hsupplies₂.carries)

theorem fillNamed_variadic (t : Option Tree) (slots : List (Option PromiseId))
    (supplied : List (Named PromiseId)) :
    fillNamed [⟨dotsName, t⟩] supplied slots = .ok (slots, supplied) := by
  have hnone : ∀ name, formalIndex? [⟨dotsName, t⟩] name = none := fun name => by
    simp [formalIndex?, Formal.isDots]
  induction supplied with
  | nil => rfl
  | cons a rest ih =>
    have hname : a.name.bind (formalIndex? [⟨dotsName, t⟩]) = none := by
      cases a.name with
      | none => rfl
      | some name => exact hnone name
    simp only [fillNamed, hname, ih]
    rfl

theorem fillPositional_zero (slots : List (Option PromiseId)) (supplied : List (Named PromiseId)) :
    fillPositional 0 supplied slots = (slots, supplied) := by
  induction supplied with
  | nil => rfl
  | cons a rest ih => simp [fillPositional, ih]

theorem openFrame_variadic (hc : c.Variadic) (supplied : List (Named PromiseId)) (s : State) :
    openFrame c supplied s =
      .ok s.heap.frames.size (s.mapHeap (·.passing c.env supplied)) := by
  obtain ⟨t, ht⟩ := hc
  have hmatch : matchArguments c.formals supplied = .ok ⟨[none], some supplied⟩ := by
    rw [ht, matchArguments, fillNamed_variadic]
    exact congrArg (fun r => Except.ok (⟨r.1, some r.2⟩ : Matching))
      (fillPositional_zero [none] supplied)
  rw [openFrame_apply, hmatch, ht]
  rfl

structure State.Holding (h₀ : Heap) (t : State) (f : FrameId) (c : Closure Tree)
    (supplied : List (Named PromiseId)) (captures : List (Named (Capture Tree))) : Prop where
  gains : h₀.Gains t.heap
  frame : h₀.CallFrame t.heap f c
  dots : t.heap.binding? f dotsName = some (.dots supplied)
  holds : List.Forall₂ (h₀.Holds t.heap) supplied captures

theorem State.Holding.passing {t : State} (hgains : h₀.Gains s.heap)
    (hc : c.env < h₀.frames.size)
    (hholds : List.Forall₂ (h₀.Holds s.heap) supplied captures)
    (ht : t.Deeper 0 (s.mapHeap (·.passing c.env supplied))) :
    t.Holding h₀ s.heap.frames.size c supplied captures := by
  have hheap : t.heap = s.heap.passing c.env supplied := ht.heap
  have hforwards : s.Forwards h₀ t := (State.Forwards.passing s c.env supplied).trans (.logged ht)
  have hframe : t.heap.frame s.heap.frames.size = _ := hheap ▸ Heap.frame_passing.trans (if_pos rfl)
  refine ⟨hforwards.gains hgains, ⟨?_, ?_, ?_⟩, hheap ▸ Heap.binding?_passing_self,
    hforwards.holdsAll hholds⟩
  · rw [hheap, Heap.size_frames_passing]
    exact Nat.lt_succ_self _
  · rw [hframe]
  · rw [hframe]
    exact hgains.chain hc

theorem applyClosure_variadic (hc : c.Variadic) {args : List Slot}
    (hsupplied : promiseSlots env mask args s = .ok supplied s₁)
    (hcarries : List.Forall₂ (h₀.Carries s₁.heap) supplied captures) :
    applyClosure eng ev c args env mask s = ev c.body s₁.heap.frames.size none
      ((s₁.mapHeap (·.passing c.env supplied)).calling eng.trace c) := by
  rw [applyClosure_apply hsupplied (openFrame_variadic hc supplied s₁),
    Heap.Carries.markedArguments hcarries]
  cases ev c.body s₁.heap.frames.size none _ <;> rfl

theorem resolveHead_callee {fuel : Nat} {head : Tree} {v : Value}
    (hv : s.heap.callee? env mask head = some v) :
    resolveHead (evaluate eng (fuel + 1)) head env mask s = .ok v s := by
  cases head with
  | reference name => exact resolveHead_named hv
  | literal w =>
    simp only [Heap.callee?] at hv
    split at hv
    · rename_i hcallable
      cases hv
      change (if v.isCallable then pure v else Eval.fail (.notCallable v.typeName) : Eval Value) s
        = _
      rw [if_pos hcallable]
      rfl
    · cases hv
  | _ => cases hv

theorem evaluate_calleeCall {fuel : Nat} {head : Tree} {args : List Slot} {v : Value}
    (hdepth : s.depth < eng.maxDepth) (hv : s.heap.callee? env mask head = some v)
    (hbuiltin : ∀ b, v ≠ .builtin b) :
    evaluate eng (fuel + 2) (.call head args) env mask s = Outcome.leave
      (apply eng (evaluate eng (fuel + 1)) v args env mask
        (s.entering eng.trace (.call head args))) :=
  evaluate_resolvedCall hdepth (resolveHead_callee (by simpa using hv)) hbuiltin

theorem captureAll_holds (hholds : List.Forall₂ (h₀.Holds s.heap) supplied captures) :
    ∃ s', captureAll supplied s = .ok captures s' ∧ s.Forwards h₀ s' ∧
      ∀ a ∈ supplied, (s'.heap.promise a.val).captured = true := by
  induction supplied generalizing captures s with
  | nil =>
    cases hholds
    exact ⟨s, rfl, .refl s, nofun⟩
  | cons a supplied ih =>
    cases hholds with
    | @cons _ capture _ captures ha hrest =>
      have hmarked : s.Forwards h₀ (s.mapHeap (·.markCaptured a.val)) := .markCaptured s ha.old
      obtain ⟨s', hrun, hforwards, hcaptured⟩ := ih (hmarked.holdsAll hrest)
      have hfirst : ((s.heap.markCaptured a.val).promise a.val).captured = true := by
        rw [Heap.markCaptured, Heap.promise_modifyPromise, if_pos ⟨rfl, ha.new⟩]
      refine ⟨s', ?_, hmarked.trans hforwards,
        List.forall_mem_cons.2 ⟨hforwards.trees.captured hfirst, hcaptured⟩⟩
      have hcapture : capturePromise a.val s =
          .ok capture.val (s.mapHeap (·.markCaptured a.val)) := by
        rw [capturePromise, Eval.onHeap_apply, ha.expr, ha.env]
      rw [captureAll, Eval.bind_apply, hcapture, Outcome.follow_ok_eval, Eval.bind_apply, hrun,
        Outcome.follow_ok_eval, ha.name]
      rfl

theorem captureDots_holds {f : FrameId} (hframe : h₀.CallFrame s.heap f c)
    (hdots : s.heap.binding? f dotsName = some (.dots supplied))
    (hholds : List.Forall₂ (h₀.Holds s.heap) supplied captures) :
    ∃ s', captureDots f s = .ok captures s' ∧ s.Forwards h₀ s' ∧
      ∀ a ∈ supplied, (s'.heap.promise a.val).captured = true := by
  let s₁ := s.record ⟨.debug, "deferred capture of `" ++ dotsName ++ "`"⟩
  have hlogged : s.Forwards h₀ s₁ := .logged ⟨rfl, rfl, rfl⟩
  obtain ⟨s₂, hall, hforwards, hcaptured⟩ := captureAll_holds (s := s₁) hholds
  refine ⟨s₂, ?_, hlogged.trans hforwards, hcaptured⟩
  rw [captureDots, Eval.debug_heap_apply]
  simp only [hframe.callFrame?, hdots]
  exact hall

theorem resolveCaptures_noMarkers (eng : Engine) (ev : Evaluator)
    (hmarkers : ∀ c ∈ captures, c.val.tree.hasMarkers = false) (s : State) :
    ∃ s', runRoutine eng ev (Special.resolveCaptures captures) s = .ok captures s' ∧
      s'.Deeper 0 s := by
  induction captures generalizing s with
  | nil => exact ⟨s, rfl, .refl s⟩
  | cons c rest ih =>
    obtain ⟨hc, hrest⟩ := List.forall_mem_cons.1 hmarkers
    obtain ⟨name, tree, f⟩ := c
    have hpairlist : (Tree.pairlist [⟨name, tree⟩]).hasMarkers = false := by
      simpa [Tree.hasMarkers, Slot.anyMarkers] using hc
    generalize hs₁ : s.record ⟨.debug, "resolve " ++ (Tree.pairlist [⟨name, tree⟩]).text⟩ = s₁
    obtain ⟨s', hrun, hsame⟩ := ih hrest s₁
    have hlogged : s₁.Deeper 0 s := hs₁ ▸ ⟨rfl, rfl, rfl⟩
    refine ⟨s', ?_, hsame.trans_same hlogged⟩
    have hresolve : runRoutine eng ev (Routine.resolve (.pairlist [⟨name, tree⟩]) f none) s =
        .ok (.pairlist [⟨name, tree⟩]) s₁ := by
      rw [← hs₁]
      exact (congrFun (runRoutine_demand (.resolve _ f none)) s).trans
        (resolve_of_noMarkers hpairlist s)
    rw [Special.resolveCaptures, Routine.bind_eq, runRoutine_bind, Eval.bind_apply, hresolve,
      Outcome.follow_ok_eval, Routine.bind_eq, runRoutine_bind, Eval.bind_apply, hrun]
    rfl

theorem runSpecial_enquos (eng : Engine) (ev : Evaluator) (id : Identity) (label : Option String)
    {f : FrameId} (mask : Option Mask) (hframe : h₀.CallFrame s.heap f c)
    (hdots : s.heap.binding? f dotsName = some (.dots supplied))
    (hcarries : List.Forall₂ (h₀.Carries s.heap) supplied captures) :
    ∃ s', runSpecial eng ev ⟨.enquos, id⟩ ⟨[⟨label, .dots⟩], f, mask⟩ s =
        .ok (.list (captures.map (Named.map .capture))) s' ∧ s.Forwards h₀ s' := by
  obtain ⟨s₂, hcapture, hforwards, -⟩ :=
    captureDots_holds hframe hdots (hcarries.imp fun _ _ h => h.toHolds)
  obtain ⟨s₃, hresolve, hsame⟩ := resolveCaptures_noMarkers eng ev
    (Heap.Carries.noMarkers hcarries) s₂
  refine ⟨s₃, ?_, hforwards.trans (.logged hsame)⟩
  change runRoutine eng ev (((Routine.captureDots f).bind Special.resolveCaptures).bind
    fun captures => .done (Value.list (captures.map (Named.map .capture)))) s = _
  have hrun : runRoutine eng ev (Routine.captureDots f) s = .ok captures s₂ :=
    (congrFun (runRoutine_demand (.captureDots f)) s).trans hcapture
  rw [Routine.bind_assoc, runRoutine_bind, Eval.bind_apply, hrun, Outcome.follow_ok_eval,
    runRoutine_bind, Eval.bind_apply, hresolve]
  rfl

end

end Quotation
