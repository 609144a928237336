import Quotation.Proofs.Matching.Pairing
import Quotation.Proofs.Promises

namespace Quotation

/-- How a parameter is bound in the frame of a call: to its argument, to a new promise of its
default, or to nothing. -/
inductive Formal.BoundTo (f : Formal Tree) (frame : FrameId) (h h' : Heap) :
    Option PromiseId → Prop
  | argument {p : PromiseId} : h'.binding? frame f.name = some (.promise p) →
      BoundTo f frame h h' (some p)
  | default {t : Tree} {p : PromiseId} : f.default? = some t →
      h.promises.size ≤ p → p < h'.promises.size →
      h'.binding? frame f.name = some (.promise p) →
      h'.promise p = { expr := t, env := frame, mask := none } → BoundTo f frame h h' none
  | missing : f.default? = none → h'.binding? frame f.name = some .missing →
      BoundTo f frame h h' none

structure Heap.Binds (frame : FrameId) (h h' : Heap) : Prop extends h.Relates (· = ·) h' where
  size : h'.frames.size = h.frames.size
  others : ∀ g, g ≠ frame → h'.frame g = h.frame g
  isCall : (h'.frame frame).isCall = (h.frame frame).isCall
  enclosing : (h'.frame frame).enclosing = (h.frame frame).enclosing
  pending : ∀ p, h.promises.size ≤ p → (h'.promise p).Pending

namespace Heap

variable {frame : FrameId} {h h' h'' : Heap}

theorem pending_of_size_le {p : PromiseId} (hp : h.promises.size ≤ p) :
    (h.promise p).Pending := by
  rw [promise_of_size_le hp]
  exact ⟨rfl, rfl⟩

namespace Binds

theorem refl (frame : FrameId) (h : Heap) : h.Binds frame h :=
  ⟨.refl h, rfl, fun _ _ => rfl, rfl, rfl, fun _ hp => pending_of_size_le hp⟩

theorem trans (hb : h.Binds frame h') (hb' : h'.Binds frame h'') : h.Binds frame h'' where
  toRelates := hb.toRelates.trans hb'.toRelates
  size := hb'.size.trans hb.size
  others g hg := (hb'.others g hg).trans (hb.others g hg)
  isCall := hb'.isCall.trans hb.isCall
  enclosing := hb'.enclosing.trans hb.enclosing
  pending p hp := by
    by_cases hp' : p < h'.promises.size
    · rw [← hb'.promise p hp']
      exact hb.pending p hp
    · exact hb'.pending p (Nat.le_of_not_lt hp')

theorem bind (frame : FrameId) (h : Heap) (name : String) (b : Binding) :
    h.Binds frame (h.bind frame name b) where
  toRelates := .rebind h frame name (some b)
  size := h.size_frames_bind frame name b
  others g hg := by
    rw [Heap.bind, frame_modifyFrame, if_neg fun hall => hg hall.1.symm]
  isCall := by
    rw [Heap.bind, frame_modifyFrame]
    split <;> rfl
  enclosing := h.enclosing_rebind frame frame name (some b)
  pending _ hp := pending_of_size_le hp

theorem newPromise (frame : FrameId) (h : Heap) (expr : Tree) (env : FrameId)
    (mask : Option Mask) : h.Binds frame (h.newPromise { expr, env, mask }).2 where
  toRelates := .newPromise h _
  size := rfl
  others _ _ := rfl
  isCall := rfl
  enclosing := rfl
  pending p hp := by
    rw [promise_newPromise]
    split
    · exact ⟨rfl, rfl⟩
    · exact pending_of_size_le hp

end Binds

end Heap

section

variable {frame : FrameId} {h h' h'' : Heap} {f : Formal Tree} {argument : Option PromiseId}

theorem Formal.BoundTo.mono (hf : f.BoundTo frame h h' argument) (hb : h'.Binds frame h'')
    (hname : h''.binding? frame f.name = h'.binding? frame f.name) :
    f.BoundTo frame h h'' argument := by
  cases hf with
  | argument hbound => exact .argument (hname.trans hbound)
  | default ht hnew hp hbound hpromise =>
    exact .default ht hnew (Nat.lt_of_lt_of_le hp hb.promises) (hname.trans hbound)
      ((hb.promise _ hp).symm.trans hpromise)
  | missing hdefault hbound => exact .missing hdefault (hname.trans hbound)

theorem Formal.BoundTo.later (hf : f.BoundTo frame h' h'' argument)
    (hsize : h.promises.size ≤ h'.promises.size) : f.BoundTo frame h h'' argument := by
  cases hf with
  | argument hbound => exact .argument hbound
  | default ht hnew hp hbound hpromise =>
    exact .default ht (Nat.le_trans hsize hnew) hp hbound hpromise
  | missing hdefault hbound => exact .missing hdefault hbound

structure BindsFormals (frame : FrameId) (formals : List (Formal Tree))
    (held : String → Option PromiseId) (h h' : Heap) : Prop where
  binds : h.Binds frame h'
  bound : ∀ f ∈ formals, f.isDots = false → f.BoundTo frame h h' (held f.name)
  names : ∀ name, name ∉ parameterNames formals → h'.binding? frame name = h.binding? frame name

theorem bindFormals_single (hframe : frame < h.frames.size) (hdots : f.isDots = false)
    (slot : Option PromiseId) :
    let h' := bindFormals frame [f] [slot] h
    h.Binds frame h' ∧ f.BoundTo frame h h' slot ∧
      ∀ name, name ≠ f.name → h'.binding? frame name = h.binding? frame name := by
  have hbound : ∀ b name, name ≠ f.name →
      (h.bind frame f.name b).binding? frame name = h.binding? frame name :=
    fun b name hname => by rw [Heap.binding?_bind _ _ hframe, if_neg hname]
  simp only [bindFormals, hdots, Bool.false_eq_true, if_false]
  cases slot with
  | some p => exact ⟨.bind .., .argument (by simp [Heap.binding?_bind _ _ hframe]), hbound _⟩
  | none =>
    cases hdefault : f.default? with
    | none => exact ⟨.bind .., .missing hdefault (by simp [Heap.binding?_bind _ _ hframe]), hbound _⟩
    | some t =>
      let pr : Promise := { expr := t, env := frame, mask := none }
      have hframe' : frame < (h.newPromise pr).2.frames.size := hframe
      refine ⟨(Heap.Binds.newPromise frame h t frame none).trans (.bind ..), ?_, ?_⟩
      · refine .default hdefault (Nat.le_refl h.promises.size) (by simp) ?_ ?_
        · rw [Heap.binding?_bind _ _ hframe', if_pos rfl]
          rfl
        · change (h.newPromise pr).2.promise _ = pr
          rw [Heap.promise_newPromise, if_pos rfl]
      · intro name hname
        rw [Heap.binding?_bind _ _ hframe', if_neg hname]
        rfl

theorem bindFormals_cons (formals : List (Formal Tree)) (slot : Option PromiseId)
    (slots : List (Option PromiseId)) :
    bindFormals frame (f :: formals) (slot :: slots) h =
      bindFormals frame formals slots (bindFormals frame [f] [slot] h) := by
  cases hdots : f.isDots <;> simp [bindFormals, hdots]

theorem bindFormals_slotsOf {formals : List (Formal Tree)}
    (hnodup : (parameterNames formals).Nodup) (held : String → Option PromiseId)
    (hframe : frame < h.frames.size) :
    BindsFormals frame formals held h (bindFormals frame formals (slotsOf formals held) h) := by
  induction formals generalizing h with
  | nil => exact ⟨.refl .., fun _ hf => (nomatch hf), fun _ _ => rfl⟩
  | cons f rest ih =>
    rw [parameterNames_cons] at hnodup
    cases hdots : f.isDots with
    | true =>
      simp only [hdots, if_true] at hnodup
      have hrest := ih hnodup hframe
      have hsame : bindFormals frame (f :: rest) (slotsOf (f :: rest) held) h =
          bindFormals frame rest (slotsOf rest held) h := by simp [slotsOf, bindFormals, hdots]
      rw [hsame]
      refine ⟨hrest.binds, ?_, ?_⟩
      · rintro g (_ | ⟨_, hg⟩) hg'
        · rw [hdots] at hg'
          cases hg'
        · exact hrest.bound g hg hg'
      · intro name hname
        rw [parameterNames_cons, hdots, if_pos rfl] at hname
        exact hrest.names name hname
    | false =>
      simp only [hdots, Bool.false_eq_true, if_false, List.nodup_cons] at hnodup
      have hslots : slotsOf (f :: rest) held = held f.name :: slotsOf rest held := by
        simp [slotsOf, hdots]
      rw [hslots, bindFormals_cons]
      obtain ⟨hbinds, hf, hnames⟩ := bindFormals_single hframe hdots (held f.name)
      have hrest := ih hnodup.2 (hbinds.size ▸ hframe)
      refine ⟨hbinds.trans hrest.binds, ?_, ?_⟩
      · rintro g (_ | ⟨_, hg⟩) hg'
        · exact hf.mono hrest.binds (hrest.names f.name hnodup.1)
        · exact (hrest.bound g hg hg').later hbinds.promises
      · intro name hname
        rw [parameterNames_cons, hdots] at hname
        simp only [Bool.false_eq_true, if_false, List.mem_cons, not_or] at hname
        rw [hrest.names name hname.2, hnames name hname.1]

end

theorem dotsName_not_mem (formals : List (Formal Tree)) : dotsName ∉ parameterNames formals := by
  intro h
  obtain ⟨f, hf, hname⟩ := List.mem_map.1 h
  simp [Formal.isDots, hname] at hf

def Heap.bindDots (h : Heap) (frame : FrameId) (dots : Option (List (Named PromiseId))) : Heap :=
  match dots with
  | some args => h.bind frame dotsName (.dots args)
  | none => h

theorem Heap.bindDots_binds (h : Heap) (frame : FrameId)
    (dots : Option (List (Named PromiseId))) : h.Binds frame (h.bindDots frame dots) := by
  cases dots with
  | some args => exact .bind ..
  | none => exact .refl ..

theorem binding?_bindDots {h : Heap} {frame : FrameId} (hframe : frame < h.frames.size)
    (dots : Option (List (Named PromiseId))) (name : String) :
    (h.bindDots frame dots).binding? frame name =
      if name = dotsName then (dots.map .dots).or (h.binding? frame name)
      else h.binding? frame name := by
  cases dots with
  | some args =>
    rw [Heap.bindDots, Heap.binding?_bind _ _ hframe]
    rfl
  | none => simp [Heap.bindDots]

theorem bindMatching_eq (frame : FrameId) (formals : List (Formal Tree))
    (slots : List (Option PromiseId)) (dots : Option (List (Named PromiseId))) (h : Heap) :
    bindMatching frame formals ⟨slots, dots⟩ h =
      bindFormals frame formals slots (h.bindDots frame dots) := by
  cases dots <;> rfl

/-- A frame that was opened for a call with arguments: nothing else has changed, and what is bound
in it are the parameters and the arguments that are left over. -/
structure FrameOpened (c : Closure Tree) (supplied : List (Named PromiseId)) (s : State)
    (frame : FrameId) (t : State) : Prop where
  rest : t = { s with heap := t.heap }
  fresh : frame = s.heap.frames.size
  size : t.heap.frames.size = s.heap.frames.size + 1
  isCall : (t.heap.frame frame).isCall = true
  enclosing : (t.heap.frame frame).enclosing = s.heap.chain c.env
  others : ∀ g, g ≠ frame → t.heap.frame g = s.heap.frame g
  bound : ∀ f ∈ c.formals, f.isDots = false →
    f.BoundTo frame s.heap t.heap (argument? c.formals supplied f.name)
  dots : t.heap.binding? frame dotsName =
    if c.hasDots then some (.dots (leftOver c.formals supplied)) else none
  names : ∀ name, name ∉ parameterNames c.formals → name ≠ dotsName →
    t.heap.binding? frame name = none
  promise : ∀ p < s.heap.promises.size, t.heap.promise p = s.heap.promise p
  pending : ∀ p, s.heap.promises.size ≤ p → (t.heap.promise p).Pending

theorem frameOpened_bindMatching {c : Closure Tree} (hnodup : (parameterNames c.formals).Nodup)
    (supplied : List (Named PromiseId)) (s : State) :
    FrameOpened c supplied s s.heap.frames.size (s.mapHeap fun h =>
      bindMatching h.frames.size c.formals
        ⟨slotsOf c.formals (argument? c.formals supplied),
          if c.hasDots then some (leftOver c.formals supplied) else none⟩
        (h.newFrame (some c.env) true).2) := by
  let frame := s.heap.frames.size
  let h₀ := (s.heap.newFrame (some c.env) true).2
  let dots := if c.hasDots then some (leftOver c.formals supplied) else none
  have hframe : frame < h₀.frames.size := by simp [frame, h₀]
  have hnew := s.heap.frame_newFrame frame (some c.env) true
  rw [if_pos rfl] at hnew
  have hdots := h₀.bindDots_binds frame dots
  have hformals := bindFormals_slotsOf hnodup (argument? c.formals supplied)
    (hdots.size ▸ hframe)
  have hbinds := hdots.trans hformals.binds
  change FrameOpened c supplied s frame (s.mapHeap fun _ => bindMatching frame c.formals _ h₀)
  rw [bindMatching_eq]
  refine
    { rest := rfl
      fresh := rfl
      size := hbinds.size.trans (by simp [h₀])
      isCall := hbinds.isCall.trans (congrArg Frame.isCall hnew)
      enclosing := hbinds.enclosing.trans (congrArg Frame.enclosing hnew)
      others := ?others
      bound := fun f hf hf' => (hformals.bound f hf hf').later hdots.promises
      dots := ?dotsBound
      names := ?names
      promise := fun p hp => (hbinds.promise p hp).symm
      pending := hbinds.pending }
  case others =>
    intro g hg
    refine (hbinds.others g hg).trans ?_
    rw [Heap.frame_newFrame, if_neg hg]
  case dotsBound =>
    refine (hformals.names _ (dotsName_not_mem c.formals)).trans ?_
    rw [binding?_bindDots hframe, if_pos rfl, Heap.binding?_newFrame_self]
    cases hc : c.hasDots <;> simp [dots, hc]
  case names =>
    intro name hname hne
    refine (hformals.names name hname).trans ?_
    rw [binding?_bindDots hframe, if_neg hne, Heap.binding?_newFrame_self]

theorem openFrame_eq {c : Closure Tree} (hnodup : (parameterNames c.formals).Nodup)
    (supplied : List (Named PromiseId)) (s : State) :
    openFrame c supplied s =
      match firstRepeated? [] (givenNames c.formals supplied), c.hasDots,
        leftOver c.formals supplied with
      | some n, _, _ => .error (.failed (.unusedArgument (some n)))
          (s.mapHeap fun h => (h.newFrame (some c.env) true).2)
      | none, false, a :: _ => .error (.failed (.unusedArgument a.name))
          (s.mapHeap fun h => (h.newFrame (some c.env) true).2)
      | none, _, _ => .ok s.heap.frames.size (s.mapHeap fun h =>
          bindMatching h.frames.size c.formals
            ⟨slotsOf c.formals (argument? c.formals supplied),
              if c.hasDots then some (leftOver c.formals supplied) else none⟩
            (h.newFrame (some c.env) true).2) := by
  have hdots : c.formals.any Formal.isDots = c.hasDots := rfl
  rw [openFrame_apply, matchArguments_eq hnodup, hdots]
  cases firstRepeated? [] (givenNames c.formals supplied) with
  | some n => rfl
  | none =>
    cases c.hasDots with
    | true => rfl
    | false => cases leftOver c.formals supplied <;> rfl

/-- Matching succeeds if and only if no parameter is named twice and what is left over has somewhere
to go. Then every argument is bound exactly once. Otherwise the first parameter that is named twice
is reported, or else the first argument that is left over. No promise is evaluated. -/
theorem openFrame_matches (c : Closure Tree) (supplied : List (Named PromiseId)) (s : State)
    (hnodup : (parameterNames c.formals).Nodup) :
    ((∃ frame t, openFrame c supplied s = .ok frame t) ↔
      (givenNames c.formals supplied).Nodup ∧
        (c.hasDots = true ∨ leftOver c.formals supplied = [])) ∧
    (∀ frame t, openFrame c supplied s = .ok frame t →
      FrameOpened c supplied s frame t ∧
      (leftOver c.formals supplied).Sublist supplied ∧
      ((parameterNames c.formals).filterMap (argument? c.formals supplied) ++
        (leftOver c.formals supplied).map Named.val).Perm (supplied.map Named.val)) ∧
    ∀ halt t, openFrame c supplied s = .error halt t →
      (∀ p, t.heap.promise p = s.heap.promise p) ∧
      ((∃ before n after, givenNames c.formals supplied = before ++ n :: after ∧
          before.Nodup ∧ n ∈ before ∧ halt = .failed (.unusedArgument (some n))) ∨
        (givenNames c.formals supplied).Nodup ∧
          ∃ a rest, leftOver c.formals supplied = a :: rest ∧
            halt = .failed (.unusedArgument a.name)) := by
  have hopened := frameOpened_bindMatching hnodup supplied s
  rw [openFrame_eq hnodup]
  cases hrepeated : firstRepeated? [] (givenNames c.formals supplied) with
  | some n =>
    obtain ⟨before, after, heq, hbefore, -, hn⟩ := firstRepeated?_eq_some hrepeated
    have hn := hn.resolve_right List.not_mem_nil
    have hnot : ¬ (givenNames c.formals supplied).Nodup := by
      rw [← firstRepeated?_nil_iff, hrepeated]
      simp
    refine ⟨by simp [hnot], by simp, ?_⟩
    rintro halt t ⟨⟩
    exact ⟨fun _ => rfl, .inl ⟨before, n, after, heq, hbefore, hn, rfl⟩⟩
  | none =>
    have hgiven := firstRepeated?_nil_iff.1 hrepeated
    have hperm := supplied_perm hnodup supplied hrepeated
    have hsub := leftOver_sublist c.formals supplied
    cases hdots : c.hasDots with
    | true =>
      simp only [hdots] at hopened
      refine ⟨by simp [hgiven], ?_, by simp⟩
      rintro frame t ⟨⟩
      exact ⟨hopened, hsub, hperm⟩
    | false =>
      cases hleft : leftOver c.formals supplied with
      | nil =>
        simp only [hdots, hleft] at hopened
        rw [hleft] at hsub hperm
        refine ⟨by simp [hgiven], ?_, by simp⟩
        rintro frame t ⟨⟩
        exact ⟨hopened, hsub, hperm⟩
      | cons a rest =>
        refine ⟨by simp, by simp, ?_⟩
        rintro halt t ⟨⟩
        exact ⟨fun _ => rfl, .inr ⟨hgiven, a, rest, rfl, rfl⟩⟩

theorem mixed_openFrame_matches :
    let c : Closure Tree :=
      ⟨none, [⟨"x", none⟩, ⟨"y", some (.literal .null)⟩, ⟨"...", none⟩, ⟨"k", none⟩],
        .literal .null, 0, 0⟩
    let supplied : List (Named PromiseId) :=
      [⟨none, 0⟩, ⟨some "k", 1⟩, ⟨none, 2⟩, ⟨some "q", 3⟩, ⟨none, 4⟩]
    (parameterNames c.formals).Nodup ∧
      ∃ frame t, openFrame c supplied {} = .ok frame t ∧
        t.heap.binding? frame "x" = some (.promise 0) ∧
        t.heap.binding? frame "y" = some (.promise 2) ∧
        t.heap.binding? frame "k" = some (.promise 1) ∧
        t.heap.binding? frame "..." = some (.dots [⟨some "q", 3⟩, ⟨none, 4⟩]) := by
  intro c supplied
  have hnodup : (parameterNames c.formals).Nodup := by decide
  obtain ⟨hok, hopened, -⟩ := openFrame_matches c supplied {} hnodup
  obtain ⟨frame, t, ht⟩ := hok.2 ⟨by decide, .inl (by decide)⟩
  have hframe := (hopened frame t ht).1
  have hbound : ∀ f ∈ c.formals, f.isDots = false → ∀ p,
      argument? c.formals supplied f.name = some p →
      t.heap.binding? frame f.name = some (.promise p) := by
    intro f hf hdots p hp
    cases hp ▸ hframe.bound f hf hdots with
    | argument hbound => exact hbound
  refine ⟨hnodup, frame, t, ht, ?_, ?_, ?_, ?_⟩
  · exact hbound ⟨"x", none⟩ (by simp [c]) (by decide) 0 (by decide)
  · exact hbound ⟨"y", some (.literal .null)⟩ (by simp [c]) (by decide) 2 (by decide)
  · exact hbound ⟨"k", none⟩ (by simp [c]) (by decide) 1 (by decide)
  · exact hframe.dots

end Quotation
