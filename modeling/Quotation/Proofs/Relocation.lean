import Quotation.Proofs.Exposure
import Quotation.Proofs.Outcome
import Quotation.Proofs.Renaming.Heaps
import Quotation.Proofs.Termination.Frames

/-! Two runs that evaluate the same trees in different places. A place is a frame with a mask. The
frames of the second run have numbers of their own, and it may hold some frames that the first one
has not; what frames bind is the same. A promise may belong to another place in the second run, but
it stands for the same tree, and it has a value or is under evaluation in both runs or in neither.
The same holds of its being captured, except that the second run may be ahead of the first one with
promises whose trees have no markers. -/

namespace Quotation

def Frame.reframe (up : FrameId → FrameId) (f : Frame) : Frame :=
  { f with enclosing := f.enclosing.map up }

inductive Sight (up : FrameId → FrameId) (frame : FrameId → Prop)
    (aside : FrameId → FrameId → NameTable Binding → Prop) (name : String) :
    FrameId → Option Mask → FrameId → Option Mask → Prop
  | same {f m m'} : frame f → Mask.find? m' name = Mask.find? m name →
      Sight up frame aside name f m (up f) m'
  | aside {f m f' m' b} : frame f → aside f' f b → Mask.find? m' name = none →
      b.get? name = (Mask.find? m name).map .value → (name = dotsName → Mask.find? m name = none) →
      Sight up frame aside name f m f' m'

/-- Which places of two runs belong together. -/
structure Relocation (eng : Engine) where
  up : FrameId → FrameId
  frame : FrameId → Prop
  promise : PromiseId → Prop
  value : Value → Prop
  tree : Tree → Prop
  place : Tree → FrameId → Option Mask → FrameId → Option Mask → Prop
  aside : FrameId → FrameId → NameTable Binding → Prop
  /-- The promises that are captured in the second run, whatever they are in the first one. -/
  ahead : PromiseId → Prop := fun _ => False
  injective : Function.Injective up
  aside_ne : ∀ {f' f b}, aside f' f b → ∀ g, up g ≠ f'
  literal : ∀ {v f m f' m'}, place (.literal v) f m f' m' → value v
  sight : ∀ {name f m f' m'}, place (.reference name) f m f' m' →
    Sight up frame aside name f m f' m' ∧ ∀ v, Mask.find? m name = some v → value v
  head : ∀ {head args f m f' m'}, place (.call head args) f m f' m' → place head f m f' m'
  argument : ∀ {head args f m f' m'}, place (.call head args) f m f' m' →
    ∀ slot ∈ args, place slot.val f m f' m'
  element : ∀ {args f m f' m'}, place (.pairlist args) f m f' m' →
    ∀ slot ∈ args, place slot.val f m f' m'
  body : ∀ {t f}, tree t → frame f → place t f none (up f) none
  closure : ∀ {c}, value (.closure c) → frame c.env ∧ up c.env = c.env ∧ tree c.body ∧
    ∀ f ∈ c.formals, ∀ t, f.default? = some t → tree t
  list : ∀ {items : List Item}, (∀ i ∈ items, value i.val) → value (.list items)
  builtin : ∀ {b : Builtin} {args : List Item} {w v}, value (.builtin b) →
    (∀ a ∈ args, value a.val) → (b.op.run eng.host.builtin args w).1 = .ok v → value v

namespace Relocation

variable {eng : Engine} (L : Relocation eng)

def binding : Binding → Prop
  | .value v => L.value v
  | .promise p => L.promise p
  | .dots args => ∀ a ∈ args, L.promise a.val
  | .missing => True

structure AlikePromises (ahead : Prop) (p p' : Promise) : Prop where
  expr : p'.expr = p.expr
  place : L.place p.expr p.env p.mask p'.env p'.mask
  value? : p'.value? = p.value?
  value : ∀ v, p.value? = some v → L.value v
  forcing : p'.forcing = p.forcing
  captured : ¬ ahead → p'.captured = p.captured
  marked : ahead → p'.captured = true ∧ p.expr.hasMarkers = false

structure Alike (h h' : Heap) : Prop where
  counts : Renaming.Counts L.up h.frames.size h'.frames.size
  fresh : ∀ f, h.frames.size ≤ f → L.frame f
  freshPromise : ∀ p, h.promises.size ≤ p → L.promise p
  promises : h'.promises.size = h.promises.size
  frame : ∀ f, L.frame f → h'.frame (L.up f) = (h.frame f).reframe L.up
  enclosing : ∀ f, L.frame f → ∀ g ∈ (h.frame f).enclosing, L.frame g
  bindings : ∀ f, L.frame f → ∀ name b, h.binding? f name = some b → L.binding b
  promise : ∀ p, L.promise p → L.AlikePromises (L.ahead p) (h.promise p) (h'.promise p)
  ahead : ∀ p, L.ahead p → p < h.promises.size
  aside : ∀ f' f b, L.aside f' f b → f' < h'.frames.size ∧ f < h.frames.size ∧
    h'.frame f' = { bindings := b, enclosing := (h.chain f).map L.up, isCall := false }

structure AlikeStates (s s' : State) : Prop where
  heap : L.Alike s.heap s'.heap
  depth : s'.depth = s.depth
  world : s'.world = s.world
  log : s'.log = s.log

variable {L} {h h' : Heap} {f g : FrameId} {p : PromiseId} {name : String}

namespace Alike

variable (ha : L.Alike h h')

include ha

theorem binding? (hf : L.frame f) : h'.binding? (L.up f) name = h.binding? f name := by
  rw [Heap.binding?, ha.frame f hf]
  rfl

theorem chain (hf : L.frame f) : h'.chain (L.up f) = (h.chain f).map L.up := by
  rw [Heap.chain, ha.frame f hf]
  rfl

theorem frame_of_mem_chain (hf : L.frame f) : ∀ g ∈ h.chain f, L.frame g :=
  List.forall_mem_cons.2 ⟨hf, ha.enclosing f hf⟩

theorem findSome? (name : String) {chain : List FrameId} (hchain : ∀ g ∈ chain, L.frame g) :
    (chain.map L.up).findSome? (fun g => h'.binding? g name) =
      chain.findSome? fun g => h.binding? g name := by
  induction chain with
  | nil => rfl
  | cons g rest ih =>
    obtain ⟨hg, hrest⟩ := List.forall_mem_cons.1 hchain
    rw [List.map_cons, List.findSome?_cons, List.findSome?_cons, ha.binding? hg, ih hrest]

theorem binding_of_findSome? {chain : List FrameId} (hchain : ∀ g ∈ chain, L.frame g) {b : Binding}
    (hb : chain.findSome? (fun g => h.binding? g name) = some b) : L.binding b := by
  obtain ⟨g, hg, hb⟩ := List.exists_of_findSome?_eq_some hb
  exact ha.bindings g (hchain g hg) name b hb

theorem newPromise {expr : Tree} {f f' : FrameId} {m m' : Option Mask}
    (hplace : L.place expr f m f' m') :
    L.Alike (h.newPromise { expr, env := f, mask := m }).2
      (h'.newPromise { expr, env := f', mask := m' }).2 where
  counts := ha.counts
  fresh := ha.fresh
  freshPromise p hp := ha.freshPromise p (by
    rw [Heap.size_promises_newPromise] at hp
    exact Nat.le_of_succ_le hp)
  promises := by rw [Heap.size_promises_newPromise, Heap.size_promises_newPromise, ha.promises]
  frame := ha.frame
  enclosing := ha.enclosing
  bindings := ha.bindings
  promise p hp := by
    rw [Heap.promise_newPromise, Heap.promise_newPromise, ha.promises]
    split
    · rename_i hnew
      exact ⟨rfl, hplace, rfl, nofun, rfl, fun _ => rfl,
        fun hahead => absurd (ha.ahead p hahead) (Nat.not_lt.2 (Nat.le_of_eq hnew.symm))⟩
    · exact ha.promise p hp
  ahead p hp := by
    rw [Heap.size_promises_newPromise]
    exact Nat.lt_succ_of_lt (ha.ahead p hp)
  aside := ha.aside

theorem modifyPromise {k : Promise → Promise}
    (hk : ∀ {ahead : Prop} {q q'}, L.AlikePromises ahead q q' →
      L.AlikePromises ahead (k q) (k q')) :
    L.Alike (h.modifyPromise p k) (h'.modifyPromise p k) where
  counts := ha.counts
  fresh := ha.fresh
  freshPromise p hp := ha.freshPromise p (by rwa [Heap.size_promises_modifyPromise] at hp)
  promises := by
    rw [Heap.size_promises_modifyPromise, Heap.size_promises_modifyPromise, ha.promises]
  frame := ha.frame
  enclosing := ha.enclosing
  bindings := ha.bindings
  promise q hq := by
    rw [Heap.promise_modifyPromise, Heap.promise_modifyPromise, ha.promises]
    split
    · rename_i hpq
      exact hk (hpq.1 ▸ ha.promise q hq)
    · exact ha.promise q hq
  ahead q hq := by
    rw [Heap.size_promises_modifyPromise]
    exact ha.ahead q hq
  aside := ha.aside

theorem beginForce (p : PromiseId) : L.Alike (h.beginForce p) (h'.beginForce p) :=
  ha.modifyPromise fun hq => { hq with forcing := rfl }

theorem abandonForce (p : PromiseId) : L.Alike (h.abandonForce p) (h'.abandonForce p) :=
  ha.modifyPromise fun hq => { hq with forcing := rfl }

theorem finishForce (p : PromiseId) {v : Value} (hv : L.value v) :
    L.Alike (h.finishForce p v) (h'.finishForce p v) :=
  ha.modifyPromise fun hq =>
    { hq with forcing := rfl, value? := rfl, value := fun _ hw => Option.some.inj hw ▸ hv }

theorem markCaptured (p : PromiseId) : L.Alike (h.markCaptured p) (h'.markCaptured p) :=
  ha.modifyPromise fun hq =>
    { hq with captured := fun _ => rfl, marked := fun h => ⟨rfl, (hq.marked h).2⟩ }

theorem newFrame {parent parent' : Option FrameId} (isCall : Bool)
    (hparent : parent' = parent.map L.up) (hframe : ∀ f, parent = some f → L.frame f) :
    L.Alike (h.newFrame parent isCall).2 (h'.newFrame parent' isCall).2 where
  counts := by
    rw [Heap.size_frames_newFrame, Heap.size_frames_newFrame]
    exact ha.counts.succ
  fresh f hf := ha.fresh f (by
    rw [Heap.size_frames_newFrame] at hf
    exact Nat.le_of_succ_le hf)
  freshPromise := ha.freshPromise
  promises := ha.promises
  frame f hf := by
    simp only [Heap.frame_newFrame, ha.counts.eq_iff L.injective]
    split
    · cases parent with
      | none => rw [hparent]; rfl
      | some g =>
        rw [hparent]
        change ({ enclosing := h'.chain (L.up g), isCall } : Frame) = _
        rw [ha.chain (hframe g rfl)]
        rfl
    · exact ha.frame f hf
  enclosing f hf g hg := by
    rw [Heap.frame_newFrame] at hg
    split at hg
    · cases parent with
      | none => cases hg
      | some e => exact ha.frame_of_mem_chain (hframe e rfl) g hg
    · exact ha.enclosing f hf g hg
  bindings f hf name b hb := ha.bindings f hf name b (by rwa [Heap.binding?_newFrame] at hb)
  promise := ha.promise
  ahead := ha.ahead
  aside f' f b hf' := by
    obtain ⟨hsize', hsize, hframe⟩ := ha.aside f' f b hf'
    rw [Heap.size_frames_newFrame, Heap.size_frames_newFrame, Heap.frame_newFrame,
      if_neg (Nat.ne_of_lt hsize'), Heap.chain, Heap.frame_newFrame, if_neg (Nat.ne_of_lt hsize)]
    exact ⟨Nat.lt_succ_of_lt hsize', Nat.lt_succ_of_lt hsize, hframe⟩

theorem rebind {b : Option Binding} (hb : ∀ a, b = some a → L.binding a) :
    L.Alike (h.rebind f name b) (h'.rebind (L.up f) name b) where
  counts := by
    rw [Heap.size_frames_rebind, Heap.size_frames_rebind]
    exact ha.counts
  fresh g hg := ha.fresh g (by rwa [Heap.size_frames_rebind] at hg)
  freshPromise p hp := ha.freshPromise p (by rwa [Heap.size_promises_rebind] at hp)
  promises := by rw [Heap.size_promises_rebind, Heap.size_promises_rebind, ha.promises]
  frame g hg := by
    have hiff : (L.up f = L.up g ∧ L.up f < h'.frames.size) ↔ (f = g ∧ f < h.frames.size) := by
      rw [L.injective.eq_iff, ha.counts.lt_iff]
    by_cases hfg : f = g ∧ f < h.frames.size
    · obtain ⟨rfl, hf⟩ := hfg
      have hf' : L.up f < h'.frames.size := ha.counts.lt_iff.2 hf
      cases b <;>
        simp only [Heap.rebind, Heap.bind, Heap.erase, Heap.frame_modifyFrame, hf, hf', and_self,
          if_true, ha.frame f hg] <;> rfl
    · cases b <;>
        simp only [Heap.rebind, Heap.bind, Heap.erase, Heap.frame_modifyFrame, hiff, if_neg hfg,
          ha.frame g hg]
  enclosing g hg := by
    rw [Heap.enclosing_rebind]
    exact ha.enclosing g hg
  bindings g hg other a ha' := by
    rw [Heap.binding?_rebind] at ha'
    split at ha'
    · exact hb a ha'
    · exact ha.bindings g hg other a ha'
  promise p hp := by
    rw [Heap.promise_rebind, Heap.promise_rebind]
    exact ha.promise p hp
  ahead p hp := by
    rw [Heap.size_promises_rebind]
    exact ha.ahead p hp
  aside g' g t hg' := by
    obtain ⟨hsize', hsize, hframe⟩ := ha.aside g' g t hg'
    have hne : ¬ (L.up f = g' ∧ L.up f < h'.frames.size) := fun hall => L.aside_ne hg' f hall.1
    rw [Heap.size_frames_rebind, Heap.size_frames_rebind, Heap.chain, Heap.enclosing_rebind]
    refine ⟨hsize', hsize, ?_⟩
    cases b <;> simpa only [Heap.rebind, Heap.bind, Heap.erase, Heap.frame_modifyFrame, if_neg hne]

theorem bind {b : Binding} (hb : L.binding b) :
    L.Alike (h.bind f name b) (h'.bind (L.up f) name b) :=
  ha.rebind (b := some b) fun _ he => Option.some.inj he ▸ hb

omit ha in
theorem bindFormals (hf : L.frame f) {formals : List (Formal Tree)}
    (hformals : ∀ a ∈ formals, ∀ t, a.default? = some t → L.tree t)
    {slots : List (Option PromiseId)} (hslots : ∀ p, some p ∈ slots → L.promise p)
    {h h' : Heap} (ha : L.Alike h h') :
    L.Alike (Quotation.bindFormals f formals slots h)
      (Quotation.bindFormals (L.up f) formals slots h') := by
  induction formals generalizing slots h h' with
  | nil => exact ha
  | cons formal formals ih =>
    obtain ⟨hformal, hformals⟩ := List.forall_mem_cons.1 hformals
    cases slots with
    | nil => exact ha
    | cons slot slots =>
      have hrest : ∀ p, some p ∈ slots → L.promise p :=
        fun p hp => hslots p (List.mem_cons_of_mem _ hp)
      simp only [Quotation.bindFormals]
      split
      · exact ih hformals hrest ha
      · apply ih hformals hrest
        cases slot with
        | some p => exact ha.bind (hslots p List.mem_cons_self)
        | none =>
          cases hdefault : formal.default? with
          | none => exact ha.bind trivial
          | some t =>
            have hnew := ha.newPromise (L.body (hformal t hdefault) hf)
            have hsame : (h'.newPromise { expr := t, env := L.up f, mask := none }).1 =
                (h.newPromise { expr := t, env := f, mask := none }).1 := ha.promises
            dsimp only
            rw [hsame]
            exact hnew.bind (ha.freshPromise _ (Nat.le_refl _))

theorem formals {c : Closure Tree} (hc : L.value (.closure c)) {m : Matching}
    (hslots : ∀ p, some p ∈ m.slots → L.promise p)
    (hdots : ∀ args, m.dots = some args → ∀ a ∈ args, L.promise a.val) :
    L.Alike (bindMatching h.frames.size c.formals m (h.newFrame (some c.env) true).2)
      (bindMatching h'.frames.size c.formals m (h'.newFrame (some c.env) true).2) := by
  obtain ⟨henv, hup, -, hformals⟩ := L.closure hc
  have hnew : L.Alike (h.newFrame (some c.env) true).2 (h'.newFrame (some c.env) true).2 :=
    ha.newFrame true (congrArg some hup.symm) fun f hf => Option.some.inj hf ▸ henv
  rw [← ha.counts.next]
  unfold bindMatching
  refine bindFormals (ha.fresh _ (Nat.le_refl _)) hformals hslots ?_
  cases hargs : m.dots with
  | none => exact hnew
  | some args => exact hnew.bind (hdots args hargs)

end Alike

end Relocation

def Heap.seek (h : Heap) (f : FrameId) (m : Option Mask) (name : String) : Option Binding :=
  match Mask.find? m name with
  | some v => some (.value v)
  | none => h.lookup f name

namespace Relocation

variable {eng : Engine} {L : Relocation eng} {h h' : Heap} {f f' : FrameId} {m m' : Option Mask}
  {name : String}

abbrev Sees (L : Relocation eng) : String → FrameId → Option Mask → FrameId → Option Mask → Prop :=
  Sight L.up L.frame L.aside

namespace Alike

variable (ha : L.Alike h h')

include ha

theorem binding?_aside {b : NameTable Binding} (hf' : L.aside f' f b) :
    h'.binding? f' name = b.get? name := by
  rw [Heap.binding?, (ha.aside f' f b hf').2.2]

theorem chain_aside {b : NameTable Binding} (hf' : L.aside f' f b) :
    h'.chain f' = f' :: (h.chain f).map L.up := by
  rw [Heap.chain, (ha.aside f' f b hf').2.2]

theorem seek (hs : L.Sees name f m f' m') : h'.seek f' m' name = h.seek f m name := by
  cases hs with
  | same hf hm =>
    simp only [Heap.seek, hm, Heap.lookup, ha.chain hf,
      ha.findSome? name (ha.frame_of_mem_chain hf)]
  | aside hf hf' hm' hb =>
    simp only [Heap.seek, hm', Heap.lookup, ha.chain_aside hf', List.findSome?_cons,
      ha.binding?_aside hf', hb, ha.findSome? name (ha.frame_of_mem_chain hf)]
    cases Mask.find? m name <;> rfl

theorem binding_of_seek (hf : L.frame f) (hm : ∀ v, Mask.find? m name = some v → L.value v)
    {b : Binding} (hb : h.seek f m name = some b) : L.binding b := by
  unfold Heap.seek at hb
  cases hfind : Mask.find? m name with
  | some v =>
    rw [hfind] at hb
    cases hb
    exact hm v hfind
  | none =>
    rw [hfind] at hb
    exact ha.binding_of_findSome? (ha.frame_of_mem_chain hf) hb

theorem dots? (hs : L.Sees dotsName f m f' m') : h'.dots? f' = h.dots? f := by
  have hlookup : h'.lookup f' dotsName = h.lookup f dotsName := by
    cases hs with
    | same hf hm =>
      rw [Heap.lookup, ha.chain hf, ha.findSome? dotsName (ha.frame_of_mem_chain hf)]
      rfl
    | aside hf hf' hm' hb hdots =>
      rw [hdots rfl] at hb
      rw [Heap.lookup, ha.chain_aside hf', List.findSome?_cons, ha.binding?_aside hf', hb,
        Option.map_none, ha.findSome? dotsName (ha.frame_of_mem_chain hf)]
      rfl
  rw [Heap.dots?, hlookup]
  rfl

theorem promise_of_dots? (hf : L.frame f) {args : List (Named PromiseId)}
    (hargs : h.dots? f = some args) : ∀ a ∈ args, L.promise a.val := by
  unfold Heap.dots? at hargs
  split at hargs
  · rename_i args' hb
    cases hargs
    exact ha.binding_of_findSome? (ha.frame_of_mem_chain hf) hb
  · cases hargs

theorem namesSpecial (name : String) {chain : List FrameId} (hchain : ∀ g ∈ chain, L.frame g) :
    h'.namesSpecial name (chain.map L.up) = h.namesSpecial name chain := by
  induction chain with
  | nil => rfl
  | cons g rest ih =>
    obtain ⟨hg, hrest⟩ := List.forall_mem_cons.1 hchain
    rw [List.map_cons, Heap.namesSpecial, Heap.namesSpecial, ha.binding? hg, ih hrest]
    cases hb : h.binding? g name with
    | none => rfl
    | some b =>
      cases b with
      | promise p =>
        have hp : (h'.promise p).value? = (h.promise p).value? :=
          (ha.promise p (ha.bindings g hg name _ hb)).value?
        simp only [hp]
      | _ => rfl

theorem isSpecialHead {t : Tree} (ht : L.place t f m f' m') :
    h'.isSpecialHead f' m' t = h.isSpecialHead f m t := by
  cases t with
  | reference name =>
    simp only [Heap.isSpecialHead]
    cases (L.sight ht).1 with
    | same hf hm => rw [hm, ha.chain hf, ha.namesSpecial name (ha.frame_of_mem_chain hf)]
    | aside hf hf' hm' hb =>
      rw [hm', ha.chain_aside hf']
      simp only [Option.filter_none, Heap.namesSpecial, ha.binding?_aside hf', hb,
        ha.namesSpecial name (ha.frame_of_mem_chain hf)]
      cases hfind : Mask.find? m name with
      | none => rfl
      | some v =>
        simp only [Option.map_some, Option.filter_some]
        split <;> simp_all
  | _ => rfl

theorem exposed? {t : Tree} (ht : L.place t f m f' m') :
    h'.exposed? f' m' t = h.exposed? f m t := by
  refine (Heap.exposed?.mutual_induct h f m
    (fun t => L.place t f m f' m' → h'.exposed? f' m' t = h.exposed? f m t)
    (fun l => (∀ slot ∈ l, L.place slot.val f m f' m') →
      h'.exposedSlots? f' m' l = h.exposedSlots? f m l)
    ?literal ?reference ?special ?call ?pairlist ?unquote ?splice ?define ?nil ?cons).1 t ht
  case literal | reference | unquote | splice | define | nil => intros; rfl
  case special =>
    intro head args hs hplace
    simp only [Heap.exposed?, ha.isSpecialHead (L.head hplace), hs, if_true]
  case call =>
    intro head args hs hhead hargs hplace
    simp only [Heap.exposed?, ha.isSpecialHead (L.head hplace), hs, Bool.false_eq_true, if_false,
      hhead (L.head hplace), hargs (L.argument hplace)]
  case pairlist =>
    intro args hargs hplace
    exact hargs (L.element hplace)
  case cons =>
    intro name t rest ht hrest hplace
    obtain ⟨hslot, hslots⟩ := List.forall_mem_cons.1 hplace
    simp only [Heap.exposedSlots?, ht hslot, hrest hslots]

theorem markedArguments {supplied : List (Named PromiseId)}
    (hs : ∀ a ∈ supplied, L.promise a.val) :
    Quotation.markedArguments h' supplied = Quotation.markedArguments h supplied := by
  refine List.filter_congr fun p hp => ?_
  obtain ⟨a, hsupplied, rfl⟩ := List.mem_map.1 hp
  rw [(ha.promise _ (hs a hsupplied)).expr]

theorem uncapturedMarker? {marked : List PromiseId} (hm : ∀ p ∈ marked, L.promise p) :
    Quotation.uncapturedMarker? h' marked = Quotation.uncapturedMarker? h marked := by
  unfold Quotation.uncapturedMarker?
  induction marked with
  | nil => rfl
  | cons p rest ih =>
    obtain ⟨hp, hrest⟩ := List.forall_mem_cons.1 hm
    have hpromise := ha.promise p hp
    have hexposed : h'.exposed? (h'.promise p).env (h'.promise p).mask (h'.promise p).expr =
        h.exposed? (h.promise p).env (h.promise p).mask (h.promise p).expr := by
      rw [hpromise.expr]
      exact ha.exposed? hpromise.place
    rw [List.filter_cons, List.filter_cons]
    by_cases hahead : L.ahead p
    · have hnone : h.exposed? (h.promise p).env (h.promise p).mask (h.promise p).expr = none :=
        exposed?_eq_none_iff.2 fun hexposed =>
          Bool.false_ne_true ((hpromise.marked hahead).2.symm.trans hexposed.hasMarkers)
      split <;> split <;> simp only [List.findSome?_cons, hexposed, hnone, ih hrest]
    · rw [hpromise.captured hahead]
      split
      · rw [List.findSome?_cons, List.findSome?_cons, hexposed, ih hrest]
      · exact ih hrest

end Alike

end Relocation

end Quotation
