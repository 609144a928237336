import Quotation.Proofs.Capturing
import Quotation.Proofs.Region
import Quotation.Proofs.Relocation.Engine

namespace Quotation

namespace Heap

def defineAll (h : Heap) (f : FrameId) (entries : List (String × Value)) : Heap :=
  entries.foldl (fun h e => h.define f e.1 e.2) h

/-- A fresh child of a frame in which the entries of a mask are defined. -/
def overlay (h : Heap) (f : FrameId) (m : Mask) : FrameId × Heap :=
  let (child, h) := h.newFrame (some f) false
  (child, h.defineAll child m.entries)

variable {h : Heap} {f g : FrameId} {m : Mask}

theorem size_frames_defineAll (entries : List (String × Value)) :
    (h.defineAll f entries).frames.size = h.frames.size := by
  induction entries generalizing h with
  | nil => rfl
  | cons e rest ih => exact ih.trans (size_frames_bind h f e.1 (.value e.2))

theorem promises_defineAll (entries : List (String × Value)) :
    (h.defineAll f entries).promises = h.promises := by
  induction entries generalizing h with
  | nil => rfl
  | cons e rest ih => exact ih

theorem frame_defineAll (entries : List (String × Value)) (hg : g ≠ f) :
    (h.defineAll f entries).frame g = h.frame g := by
  induction entries generalizing h with
  | nil => rfl
  | cons e rest ih =>
    refine ih.trans ?_
    change (h.bind f e.1 (.value e.2)).frame g = _
    rw [bind, frame_modifyFrame, if_neg fun hall => hg hall.1.symm]

theorem frame_defineAll_self (entries : List (String × Value)) (hf : f < h.frames.size) :
    ((h.defineAll f entries).frame f).enclosing = (h.frame f).enclosing ∧
      ((h.defineAll f entries).frame f).isCall = (h.frame f).isCall := by
  induction entries generalizing h with
  | nil => exact ⟨rfl, rfl⟩
  | cons e rest ih =>
    have hsize : f < (h.define f e.1 e.2).frames.size := by
      rwa [define, size_frames_bind]
    obtain ⟨henclosing, hcall⟩ := ih hsize
    refine ⟨henclosing.trans (enclosing_rebind h f f e.1 (some (.value e.2))), hcall.trans ?_⟩
    rw [define, bind, frame_modifyFrame]
    split <;> rfl

theorem binding?_defineAll (name : String) {entries : List (String × Value)}
    (hf : f < h.frames.size) (hnodup : (entries.map Prod.fst).Nodup) :
    (h.defineAll f entries).binding? f name =
      ((NameTable.find name entries).map .value).or (h.binding? f name) := by
  induction entries generalizing h with
  | nil => rfl
  | cons e rest ih =>
    obtain ⟨n, v⟩ := e
    obtain ⟨hn, hrest⟩ := List.nodup_cons.1 hnodup
    have hsize : f < (h.define f n v).frames.size := by
      rwa [define, size_frames_bind]
    have hdefined : (h.define f n v).binding? f name =
        if name = n then some (.value v) else h.binding? f name := binding?_bind n name hf _
    refine (ih hsize hrest).trans ?_
    rw [hdefined, NameTable.find]
    by_cases hname : n = name
    · subst hname
      rw [if_pos rfl, if_pos rfl, (NameTable.find_eq_none_iff n rest).2 hn]
      rfl
    · rw [if_neg (Ne.symm hname), if_neg hname]

theorem overlay_fst : (h.overlay f m).1 = h.frames.size := rfl

theorem size_frames_overlay : (h.overlay f m).2.frames.size = h.frames.size + 1 :=
  (size_frames_defineAll _).trans (size_frames_newFrame h (some f) false)

theorem promises_overlay : (h.overlay f m).2.promises = h.promises := promises_defineAll _

theorem promise_overlay (p : PromiseId) : (h.overlay f m).2.promise p = h.promise p := by
  rw [promise, promises_overlay]
  rfl

theorem frame_overlay (hg : g ≠ h.frames.size) : (h.overlay f m).2.frame g = h.frame g :=
  (frame_defineAll _ hg).trans ((frame_newFrame h g (some f) false).trans (if_neg hg))

theorem frame_overlay_child :
    ((h.overlay f m).2.frame h.frames.size).enclosing = h.chain f ∧
      ((h.overlay f m).2.frame h.frames.size).isCall = false := by
  have hsize : h.frames.size < (h.newFrame (some f) false).2.frames.size := by simp
  have hnew : (h.newFrame (some f) false).2.frame h.frames.size =
      { enclosing := h.chain f, isCall := false } :=
    (frame_newFrame _ _ _ _).trans (if_pos rfl)
  obtain ⟨henclosing, hcall⟩ := frame_defineAll_self m.entries hsize
  exact ⟨henclosing.trans (congrArg Frame.enclosing hnew), hcall.trans (congrArg Frame.isCall hnew)⟩

theorem binding?_overlay_child (name : String) :
    (h.overlay f m).2.binding? h.frames.size name = (m.get? name).map .value := by
  have hsize : h.frames.size < (h.newFrame (some f) false).2.frames.size := by simp
  refine (binding?_defineAll name hsize m.nodup).trans ?_
  rw [binding?_newFrame_self, Option.or_none]
  rfl

end Heap

section

variable {R : Region} {h : Heap} {f : FrameId} {m : Mask}

/-- The places of the two runs that belong together: a frame with a mask and the same frame with the
same mask, and the frame with the mask in question and the child without. Where a literal is
evaluated does not matter. -/
inductive OverlayPlace (R : Region) (h : Heap) (f : FrameId) (m : Mask) (t : Tree) :
    FrameId → Option Mask → FrameId → Option Mask → Prop
  | same {g k} : R.frame g ∨ h.frames.size ≤ g → Mask.Ordinary R k →
      OverlayPlace R h f m t g k (Renaming.skip h.frames.size 1 g) k
  | masked : OverlayPlace R h f m t f (some m) h.frames.size none
  | literal {v g k} : t = .literal v → OverlayPlace R h f m t g k g k

theorem OverlayPlace.subtree {t u : Tree} {g g' : FrameId} {k k' : Option Mask}
    (hp : OverlayPlace R h f m t g k g' k') (ht : ∀ v, t ≠ .literal v) :
    OverlayPlace R h f m u g k g' k' := by
  cases hp with
  | same hg hk => exact .same hg hk
  | masked => exact .masked
  | literal hv => exact absurd hv (ht _)

theorem Renaming.skip_one_ne (n i : Nat) : skip n 1 i ≠ n := by
  simp only [skip]
  split <;> omega

def Relocation.overlay (eng : Engine) (hclosed : R.Closed h) (hhost : R.Hosts eng.host)
    (hf : R.frame f) (hm : Mask.Ordinary R (some m)) (hdots : m.get? dotsName = none) :
    Relocation eng where
  up := Renaming.skip h.frames.size 1
  frame g := R.frame g ∨ h.frames.size ≤ g
  promise p := R.promise p ∨ h.promises.size ≤ p
  value := Value.Ordinary R
  tree := Tree.Ordinary R
  place t g k g' k' := t.Ordinary R ∧ OverlayPlace R h f m t g k g' k'
  aside c g b := c = h.frames.size ∧ g = f ∧ b = ((h.overlay f m).2.frame h.frames.size).bindings
  injective := Renaming.skip_injective _ _
  aside_ne := by
    rintro _ _ _ ⟨rfl, -, -⟩ g
    exact Renaming.skip_one_ne _ g
  literal h := h.1
  sight := by
    rintro name g k g' k' ⟨-, hplace⟩
    cases hplace with
    | same hg hk => exact ⟨.same hg rfl, hk name⟩
    | masked =>
      refine ⟨.aside (.inl hf) ⟨rfl, rfl, rfl⟩ rfl (Heap.binding?_overlay_child name) ?_, hm name⟩
      rintro rfl
      exact hdots
    | literal hv => cases hv
  head h := ⟨h.1.1, h.2.subtree nofun⟩
  argument h slot hslot := ⟨Slot.allOrdinary_iff.1 h.1.2 slot hslot, h.2.subtree nofun⟩
  element h slot hslot := ⟨Slot.allOrdinary_iff.1 h.1 slot hslot, h.2.subtree nofun⟩
  body ht hg := ⟨ht, .same hg Mask.ordinary_none⟩
  closure := by
    rintro ⟨name, formals, body, env, id⟩ ⟨hformals, hbody, henv⟩
    exact ⟨.inl henv, if_pos (hclosed.frame env henv), hbody, Formal.allOrdinary_iff.1 hformals⟩
  list := Item.allOrdinary_iff.2
  builtin hb hargs hv := hhost.run hb hargs _ _ hv

variable {eng : Engine} {hclosed : R.Closed h} {hhost : R.Hosts eng.host} {hf : R.frame f}
  {hm : Mask.Ordinary R (some m)} {hdots : m.get? dotsName = none}

theorem Region.Closed.skip_frame {g : FrameId} (hclosed : R.Closed h) (hg : R.frame g) :
    Renaming.skip h.frames.size 1 g = g := if_pos (hclosed.frame g hg)

theorem Region.Closed.skip_enclosing {g : FrameId} (hclosed : R.Closed h) (hg : R.frame g) :
    (h.frame g).enclosing.map (Renaming.skip h.frames.size 1) = (h.frame g).enclosing :=
  (List.map_congr_left fun e he => hclosed.skip_frame (hclosed.enclosing g hg e he)).trans
    (List.map_id _)

theorem Region.Closed.skip_chain {g : FrameId} (hclosed : R.Closed h) (hg : R.frame g) :
    (h.chain g).map (Renaming.skip h.frames.size 1) = h.chain g := by
  rw [Heap.chain, List.map_cons, hclosed.skip_frame hg, hclosed.skip_enclosing hg]

theorem Renaming.overlay_counts :
    Renaming.Counts (Renaming.skip h.frames.size 1) h.frames.size
      (h.overlay f m).2.frames.size := by
  have hskip := Renaming.skip_counts (Nat.le_add_right h.frames.size 1)
  rwa [Nat.add_sub_cancel_left, ← Heap.size_frames_overlay (f := f) (m := m)] at hskip

theorem Heap.frame_overlay_skip {g : FrameId} (hclosed : R.Closed h)
    (hg : R.frame g ∨ h.frames.size ≤ g) :
    (h.overlay f m).2.frame (Renaming.skip h.frames.size 1 g) =
      (h.frame g).reframe (Renaming.skip h.frames.size 1) := by
  rcases hg with hg | hg
  · rw [hclosed.skip_frame hg, Heap.frame_overlay (Nat.ne_of_lt (hclosed.frame g hg))]
    exact (congrArg (fun e => { h.frame g with enclosing := e }) (hclosed.skip_enclosing hg)).symm
  · have hsize : (h.overlay f m).2.frames.size ≤ Renaming.skip h.frames.size 1 g := by
      rw [Renaming.skip, if_neg (Nat.not_lt.2 hg), Heap.size_frames_overlay]
      exact Nat.succ_le_succ hg
    rw [Heap.frame_of_size_le _ _ hsize, Heap.frame_of_size_le h g hg]
    rfl

theorem Heap.frame_overlay_aside (hclosed : R.Closed h) (hf : R.frame f) :
    (h.overlay f m).2.frame h.frames.size =
      { bindings := ((h.overlay f m).2.frame h.frames.size).bindings
        enclosing := (h.chain f).map (Renaming.skip h.frames.size 1)
        isCall := false } := by
  obtain ⟨henclosing, hcall⟩ := Heap.frame_overlay_child (h := h) (f := f) (m := m)
  rw [hclosed.skip_chain hf, ← henclosing, ← hcall]

theorem Relocation.overlay_promise {p : PromiseId} (hp : R.promise p ∨ h.promises.size ≤ p) :
    (Relocation.overlay eng hclosed hhost hf hm hdots).AlikePromises False (h.promise p)
      ((h.overlay f m).2.promise p) := by
  rw [Heap.promise_overlay]
  rcases hp with hp | hp
  · have ho := (hclosed.promise p hp).2
    have hplace := OverlayPlace.same (R := R) (h := h) (f := f) (m := m)
      (t := (h.promise p).expr) (.inl ho.env) ho.mask
    rw [hclosed.skip_frame ho.env] at hplace
    exact ⟨rfl, ⟨ho.expr, hplace⟩, rfl, ho.value, rfl, fun _ => rfl, False.elim⟩
  · rw [Heap.promise_of_size_le hp]
    exact ⟨rfl, ⟨trivial, .literal rfl⟩, rfl, fun _ hv => (by cases hv), rfl, fun _ => rfl,
      False.elim⟩

theorem Relocation.overlay_binding {g : FrameId} (hg : R.frame g ∨ h.frames.size ≤ g)
    {name : String} {b : Binding} (hb : h.binding? g name = some b) :
    (Relocation.overlay eng hclosed hhost hf hm hdots).binding b := by
  rcases hg with hg | hg
  · have hb := hclosed.bindings g hg name b hb
    cases b with
    | value v => exact hb
    | promise p => exact .inl hb
    | dots args => exact fun a ha => .inl (hb a ha)
    | missing => trivial
  · rw [Heap.binding?, Heap.frame_of_size_le h g hg] at hb
    cases hb

theorem Relocation.overlay_alike :
    (Relocation.overlay eng hclosed hhost hf hm hdots).Alike h (h.overlay f m).2 where
  counts := Renaming.overlay_counts
  fresh _ := .inr
  freshPromise _ := .inr
  promises := by rw [Heap.promises_overlay]
  frame _ := Heap.frame_overlay_skip hclosed
  enclosing g hg e he := by
    rcases hg with hg | hg
    · exact .inl (hclosed.enclosing g hg e he)
    · rw [Heap.frame_of_size_le h g hg] at he
      cases he
  bindings _ hg _ _ hb := Relocation.overlay_binding hg hb
  promise _ := Relocation.overlay_promise
  ahead _ := False.elim
  aside := by
    rintro c g b ⟨rfl, rfl, rfl⟩
    exact ⟨Heap.size_frames_overlay ▸ Nat.lt_succ_self _, hclosed.frame g hf,
      Heap.frame_overlay_aside hclosed hf⟩

instance : (Relocation.overlay eng hclosed hhost hf hm hdots).Specials where
  special _ hs _ := absurd hs id

end

namespace Region

variable {α : Type}

/-- States that differ, as far as the region goes, at most in the numbers of what is new: hosts have
seen the same, frames bind the same, and every promise is as far as in the other state. -/
structure SameEffects (R : Region) (s s' : State) : Prop where
  world : s'.world = s.world
  log : s'.log = s.log
  depth : s'.depth = s.depth
  frame : ∀ f, R.frame f → (s'.heap.frame f).bindings = (s.heap.frame f).bindings
  value? : ∀ p, R.promise p → (s'.heap.promise p).value? = (s.heap.promise p).value?
  forcing : ∀ p, R.promise p → (s'.heap.promise p).forcing = (s.heap.promise p).forcing
  captured : ∀ p, R.promise p → (s'.heap.promise p).captured = (s.heap.promise p).captured

inductive SameOutcome (R : Region) : Outcome α → Outcome α → Prop
  | ok {a s s'} : R.SameEffects s s' → SameOutcome R (.ok a s) (.ok a s')
  | error {h s s'} : R.SameEffects s s' → SameOutcome R (.error h s) (.error h s')

end Region

section

variable {R : Region} {eng : Engine} {s : State} {t : Tree} {f : FrameId} {m : Mask}

/-- If no special can be reached from a tree, a frame and a mask, evaluation of the tree in the frame
under the mask comes to the same as evaluation without a mask in a fresh child of the frame in which
the entries of the mask are defined: the same value or the same error, and the same effects. -/
theorem mask_is_overlay_frame (fuel : Nat) (hclosed : R.Closed s.heap) (hhost : R.Hosts eng.host)
    (ht : t.Ordinary R) (hf : R.frame f) (hm : Mask.Ordinary R (some m))
    (hdots : m.get? dotsName = none) :
    R.SameOutcome (evaluate eng fuel t f (some m) s)
      (evaluate eng fuel t (s.heap.overlay f m).1 none
        (s.mapHeap fun h => (h.overlay f m).2)) := by
  let L := Relocation.overlay eng hclosed hhost hf hm hdots
  have hplace : L.place t f (some m) s.heap.frames.size none := ⟨ht, .masked⟩
  have hstates : L.AlikeStates s (s.mapHeap fun h => (h.overlay f m).2) :=
    ⟨Relocation.overlay_alike, rfl, rfl, rfl⟩
  have heffects : ∀ t t' : State, L.AlikeStates t t' → R.SameEffects t t' := by
    intro t t' ha
    have hpromise : ∀ p, R.promise p →
        L.AlikePromises False (t.heap.promise p) (t'.heap.promise p) :=
      fun p hp => ha.heap.promise p (.inl hp)
    refine ⟨ha.world, ha.log, ha.depth, fun g hg => ?_, fun p hp => (hpromise p hp).value?,
      fun p hp => (hpromise p hp).forcing, fun p hp => (hpromise p hp).captured id⟩
    have hup : L.up g = g := hclosed.skip_frame hg
    have hframe := ha.heap.frame g (.inl hg)
    rw [hup] at hframe
    rw [hframe]
    rfl
  have hends := Relocation.evaluate_related fuel hplace s _ hstates
  rw [Heap.overlay_fst]
  generalize evaluate eng fuel t f (some m) s = r at hends ⊢
  generalize evaluate eng fuel t s.heap.frames.size none _ = r' at hends ⊢
  cases hends with
  | ok hv ha =>
    obtain ⟨rfl, -⟩ := hv
    exact .ok (heffects _ _ ha)
  | error ha => exact .error (heffects _ _ ha)

end

theorem Session.host_ordinary (R : Region) : R.Hosts Session.host := by
  intro name args w _ hargs
  change Gives _ (HostBuiltin.run name args w).1
  unfold HostBuiltin.run
  split
  · exact .ok trivial
  · refine .ok ?_
    cases hlast : args.getLast? with
    | none => trivial
    | some a => exact hargs a (List.mem_of_getLast? hlast)
  · exact .error _
  · exact .error _
  · exact .ok trivial
  · exact .ok trivial

def State.withCounter : State where
  heap :=
    let h := (({} : Heap).newFrame none false).2
    let h := h.define 0 "f" (.closure .forcing)
    let h := h.define 0 "tick" (.builtin ⟨.host "tick", 3⟩)
    h.define 0 "list" (.builtin ⟨.list, 4⟩)

theorem masked_argument_is_overlay_argument :
    let eng : Engine := { host := Session.host }
    let t : Tree := .callNamed "f" [.callNamed "list" [.reference "x", .callNamed "tick" []]]
    let R : Region := ⟨(· = 0), fun _ => False, fun _ => True⟩
    R.SameOutcome (evaluate eng 8 t 0 (some .hidingX) .withCounter)
        (evaluate eng 8 t 1 none (State.withCounter.mapHeap fun h => (h.overlay 0 .hidingX).2)) ∧
      Outcome.value? (evaluate eng 8 t 0 (some .hidingX) .withCounter) =
        some (.list [⟨none, .int 5⟩, ⟨none, .int 1⟩]) := by
  intro eng t R
  have hentries : ∀ e ∈ [("f", Binding.value (.closure .forcing)),
      ("tick", .value (.builtin ⟨.host "tick", 3⟩)), ("list", .value (.builtin ⟨.list, 4⟩))],
      e.2.Ordinary R := by
    simp only [List.forall_mem_cons]
    exact ⟨⟨trivial, trivial, rfl⟩, trivial, trivial, nofun⟩
  have hclosed : R.Closed State.withCounter.heap :=
    Region.closed_of_entries (fun _ h => h) (fun _ => id) Nat.zero_lt_one rfl hentries
  have hmask : Mask.Ordinary R (some .hidingX) := by
    intro name v hv
    change NameTable.find name [("x", Value.int 5)] = some v at hv
    simp only [NameTable.find] at hv
    split at hv
    · cases hv
      trivial
    · cases hv
  have ht : t.Ordinary R := ⟨trivial, ⟨trivial, trivial, ⟨trivial, trivial⟩, trivial⟩, trivial⟩
  exact ⟨mask_is_overlay_frame 8 hclosed (Session.host_ordinary R) ht rfl hmask rfl, rfl⟩

end Quotation
