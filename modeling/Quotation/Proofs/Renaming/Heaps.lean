import Quotation.Engine.Closure
import Quotation.Proofs.Heap
import Quotation.Proofs.Matching.Mapping
import Quotation.Proofs.Renaming.Conversions

namespace Quotation

def Binding.rename (ρ : Renaming) : Binding → Binding
  | .value v => .value (v.rename ρ)
  | .promise p => .promise (ρ.promise p)
  | .dots args => .dots (args.map (Named.map ρ.promise))
  | .missing => .missing

def Promise.rename (ρ : Renaming) (p : Promise) : Promise :=
  { p with
    expr := p.expr.rename ρ
    env := ρ.frame p.env
    mask := Mask.rename ρ p.mask
    value? := p.value?.map (Value.rename ρ) }

def Frame.rename (ρ : Renaming) (f : Frame) : Frame :=
  { f with
    bindings := f.bindings.map (Binding.rename ρ)
    enclosing := f.enclosing.map ρ.frame }

def Marker.rename (ρ : Renaming) : Marker → Marker
  | .unquote e => .unquote (e.rename ρ)
  | .splice e => .splice (e.rename ρ)
  | .define n v => .define (n.rename ρ) (v.rename ρ)

@[simp] theorem Marker.kind_rename (ρ : Renaming) (m : Marker) : (m.rename ρ).kind = m.kind := by
  cases m <;> rfl

theorem Promise.rename_default (ρ : Renaming) : (default : Promise).rename ρ = default := by
  have henv : ρ.frame (default : Promise).env = (default : Promise).env := ρ.frame_zero
  rw [rename, henv]
  rfl

structure Renaming.Counts (r : Nat → Nat) (m n : Nat) : Prop where
  below : ∀ i < m, r i < n
  above : ∀ i, r (m + i) = n + i

namespace Renaming.Counts

variable {r : Nat → Nat} {m n : Nat}

theorem next (h : Counts r m n) : r m = n := h.above 0

theorem succ (h : Counts r m n) : Counts r (m + 1) (n + 1) where
  below i hi := by
    rcases Nat.lt_or_eq_of_le (Nat.le_of_lt_succ hi) with hi | rfl
    · exact Nat.lt_succ_of_lt (h.below i hi)
    · exact h.next ▸ Nat.lt_succ_self _
  above i := by
    have hi := h.above (1 + i)
    rwa [← Nat.add_assoc, ← Nat.add_assoc] at hi

theorem lt_iff (h : Counts r m n) {i : Nat} : r i < n ↔ i < m := by
  refine ⟨fun hi => Nat.lt_of_not_le fun hm => ?_, h.below i⟩
  obtain ⟨k, rfl⟩ := Nat.exists_eq_add_of_le hm
  rw [h.above] at hi
  omega

theorem eq_iff (h : Counts r m n) {i : Nat} (hr : Function.Injective r) : r i = n ↔ i = m := by
  rw [← h.next]
  exact hr.eq_iff

end Renaming.Counts

/-- The frames and the promises of a heap keep their numbers. -/
structure Renaming.Fixes (ρ : Renaming) (h : Heap) : Prop where
  frame : ∀ f < h.frames.size, ρ.frame f = f
  promise : ∀ p < h.promises.size, ρ.promise p = p

structure Heap.Renamed (ρ : Renaming) (h h' : Heap) : Prop where
  frame : ∀ f, h'.frame (ρ.frame f) = (h.frame f).rename ρ
  promise : ∀ p, h'.promise (ρ.promise p) = (h.promise p).rename ρ
  frames : Renaming.Counts ρ.frame h.frames.size h'.frames.size
  promises : Renaming.Counts ρ.promise h.promises.size h'.promises.size

namespace Heap.Renamed

variable {ρ : Renaming} {h h' : Heap} (hr : h.Renamed ρ h') (f : FrameId) (name : String)

include hr

theorem chain : h'.chain (ρ.frame f) = (h.chain f).map ρ.frame := by
  simp only [Heap.chain, hr.frame, Frame.rename, List.map_cons]

theorem binding? :
    h'.binding? (ρ.frame f) name = (h.binding? f name).map (Binding.rename ρ) := by
  simp only [Heap.binding?, hr.frame, Frame.rename, NameTable.get?_map]

theorem lookup : h'.lookup (ρ.frame f) name = (h.lookup f name).map (Binding.rename ρ) := by
  simp only [Heap.lookup, hr.chain, List.findSome?_map, Function.comp_def, hr.binding?]
  induction h.chain f with
  | nil => rfl
  | cons g rest ih =>
    simp only [List.findSome?_cons, ih]
    cases h.binding? g name <;> rfl

theorem dots? : h'.dots? (ρ.frame f) = (h.dots? f).map (List.map (Named.map ρ.promise)) := by
  simp only [Heap.dots?, hr.lookup]
  cases h.lookup f dotsName with
  | none => rfl
  | some b => cases b <;> rfl

theorem callFrame? : h'.callFrame? (ρ.frame f) = (h.callFrame? f).map ρ.frame := by
  simp only [Heap.callFrame?, hr.chain, List.find?_map, Function.comp_def, hr.frame, Frame.rename]

theorem namesSpecial (chain : List FrameId) :
    h'.namesSpecial name (chain.map ρ.frame) = h.namesSpecial name chain := by
  induction chain with
  | nil => rfl
  | cons f rest ih =>
    simp only [List.map_cons, Heap.namesSpecial, hr.binding?, ih]
    cases h.binding? f name with
    | none => rfl
    | some b =>
      cases b with
      | value v => simp [Binding.rename]
      | promise p =>
        simp only [Option.map_some, Binding.rename, hr.promise, Promise.rename]
        cases (h.promise p).value? <;> simp
      | _ => rfl

theorem isSpecialHead (mask : Option Mask) (t : Tree) :
    h'.isSpecialHead (ρ.frame f) (Mask.rename ρ mask) (t.rename ρ) =
      h.isSpecialHead f mask t := by
  cases t with
  | literal v => exact v.isSpecial_rename ρ
  | reference name =>
    simp only [Tree.rename_reference, Heap.isSpecialHead, Mask.find?_rename, hr.chain,
      hr.namesSpecial]
    cases Mask.find? mask name with
    | none => rfl
    | some v =>
      simp only [Option.map_some, Option.filter_some, Value.isCallable_rename]
      cases v.isCallable
      · rfl
      · exact v.isSpecial_rename ρ
  | _ => rfl

theorem exposed? (mask : Option Mask) (t : Tree) :
    h'.exposed? (ρ.frame f) (Mask.rename ρ mask) (t.rename ρ) =
      (h.exposed? f mask t).map (Marker.rename ρ) := by
  refine (Heap.exposed?.mutual_induct h f mask
    (fun t => h'.exposed? (ρ.frame f) (Mask.rename ρ mask) (t.rename ρ) =
      (h.exposed? f mask t).map (Marker.rename ρ))
    (fun l => h'.exposedSlots? (ρ.frame f) (Mask.rename ρ mask) (Slot.renameAll ρ l) =
      (h.exposedSlots? f mask l).map (Marker.rename ρ))
    ?literal ?reference ?special ?call ?pairlist ?unquote ?splice ?define ?nil ?cons).1 t
  case literal | reference | unquote | splice | define | nil => intros; rfl
  case special =>
    intro head args hs
    simp only [Tree.rename, Heap.exposed?, hr.isSpecialHead, hs, if_true, Option.map_none]
  case call =>
    intro head args hs hhead hargs
    simp only [Tree.rename, Heap.exposed?, hr.isSpecialHead, hs, Bool.false_eq_true, if_false,
      hhead, hargs]
    cases h.exposed? f mask head <;> rfl
  case pairlist =>
    intro args hargs
    exact hargs
  case cons =>
    intro name t rest ht hrest
    simp only [Slot.renameAll, Heap.exposedSlots?, ht, hrest]
    cases h.exposed? f mask t <;> rfl

theorem modifyPromise (p : PromiseId) {k k' : Promise → Promise}
    (hk : ∀ pr : Promise, k' (pr.rename ρ) = (k pr).rename ρ) :
    (h.modifyPromise p k).Renamed ρ (h'.modifyPromise (ρ.promise p) k') where
  frame := hr.frame
  promise q := by
    rw [promise_modifyPromise, promise_modifyPromise, hr.promise, hr.promise, hk]
    simp only [ρ.promise_injective.eq_iff, hr.promises.lt_iff]
    split <;> rfl
  frames := hr.frames
  promises := by
    rw [size_promises_modifyPromise, size_promises_modifyPromise]
    exact hr.promises

theorem newPromise (pr : Promise) :
    (h.newPromise pr).2.Renamed ρ (h'.newPromise (pr.rename ρ)).2 where
  frame := hr.frame
  promise q := by
    rw [promise_newPromise, promise_newPromise, hr.promise]
    simp only [hr.promises.eq_iff ρ.promise_injective]
    split <;> rfl
  frames := hr.frames
  promises := by
    rw [size_promises_newPromise, size_promises_newPromise]
    exact hr.promises.succ

theorem newFrame (parent : Option FrameId) (isCall : Bool) :
    (h.newFrame parent isCall).2.Renamed ρ (h'.newFrame (parent.map ρ.frame) isCall).2 where
  frame g := by
    rw [frame_newFrame, frame_newFrame, hr.frame]
    simp only [hr.frames.eq_iff ρ.frame_injective]
    split
    · cases parent with
      | none => rfl
      | some f => simp [Frame.rename, hr.chain]; rfl
    · rfl
  promise := hr.promise
  frames := by
    rw [size_frames_newFrame, size_frames_newFrame]
    exact hr.frames.succ
  promises := hr.promises

theorem modifyFrame (f : FrameId) {k k' : Frame → Frame}
    (hk : ∀ fr : Frame, k' (fr.rename ρ) = (k fr).rename ρ) :
    (h.modifyFrame f k).Renamed ρ (h'.modifyFrame (ρ.frame f) k') where
  frame g := by
    rw [frame_modifyFrame, frame_modifyFrame, hr.frame, hr.frame, hk]
    simp only [ρ.frame_injective.eq_iff, hr.frames.lt_iff]
    split <;> rfl
  promise := hr.promise
  frames := by simpa [Heap.modifyFrame] using hr.frames
  promises := hr.promises

theorem bind (b : Binding) :
    (h.bind f name b).Renamed ρ (h'.bind (ρ.frame f) name (b.rename ρ)) := by
  refine hr.modifyFrame f fun fr => ?_
  simp only [Frame.rename, NameTable.map_insert]

theorem rebind (b : Option Binding) :
    (h.rebind f name b).Renamed ρ (h'.rebind (ρ.frame f) name (b.map (Binding.rename ρ))) := by
  cases b with
  | some b => exact hr.bind f name b
  | none =>
    refine hr.modifyFrame f fun fr => ?_
    simp only [Frame.rename, NameTable.map_erase]

end Heap.Renamed

section

variable (ρ : Renaming)

def Matching.rename (m : Matching) : Matching :=
  ⟨m.slots.map (Option.map ρ.promise), m.dots.map (List.map (Named.map ρ.promise))⟩

theorem formalIndex?_rename (formals : List (Formal Tree)) (name : String) :
    formalIndex? (formals.map (Formal.rename ρ)) name = formalIndex? formals name := by
  simp only [formalIndex?, List.findIdx?_map]
  rfl

theorem fillNamed_rename (formals : List (Formal Tree)) (supplied : List (Named PromiseId))
    (slots : List (Option PromiseId)) :
    fillNamed (formals.map (Formal.rename ρ)) supplied slots = fillNamed formals supplied slots := by
  have hindex : formalIndex? (formals.map (Formal.rename ρ)) = formalIndex? formals :=
    funext (formalIndex?_rename ρ formals)
  induction supplied generalizing slots with
  | nil => rfl
  | cons a rest ih => simp only [fillNamed, hindex, ih]

theorem matchArguments_rename (formals : List (Formal Tree)) (supplied : List (Named PromiseId)) :
    matchArguments (formals.map (Formal.rename ρ)) (supplied.map (Named.map ρ.promise)) =
      (matchArguments formals supplied).map (Matching.rename ρ) := by
  have hempty : ((formals.map (Formal.rename ρ)).map fun _ => (none : Option PromiseId)) =
      formals.map fun _ => none := by
    rw [List.map_map]
    rfl
  have hdots : (formals.map (Formal.rename ρ)).findIdx? Formal.isDots =
      formals.findIdx? Formal.isDots := by
    rw [List.findIdx?_map]
    rfl
  refine Eq.trans ?_ (matchArguments_map ρ.promise formals supplied)
  simp only [matchArguments, hempty, fillNamed_rename, hdots, List.length_map]

end

namespace Heap.Renamed

variable {ρ : Renaming} {h h' : Heap}

theorem bindFormals (frame : FrameId) (formals : List (Formal Tree))
    (slots : List (Option PromiseId)) (hr : h.Renamed ρ h') :
    (Quotation.bindFormals frame formals slots h).Renamed ρ
      (Quotation.bindFormals (ρ.frame frame) (formals.map (Formal.rename ρ))
        (slots.map (Option.map ρ.promise)) h') := by
  induction formals generalizing slots h h' with
  | nil => exact hr
  | cons f formals ih =>
    cases slots with
    | nil => exact hr
    | cons slot slots =>
      have hdots : (f.rename ρ).isDots = f.isDots := rfl
      simp only [List.map_cons, Quotation.bindFormals, hdots]
      split
      · exact ih slots hr
      · refine ih slots ?_
        obtain ⟨name, default?⟩ := f
        cases slot with
        | some p => exact hr.bind frame name (.promise p)
        | none =>
          cases default? with
          | none => exact hr.bind frame name .missing
          | some t =>
            have hnew := hr.newPromise { expr := t, env := frame, mask := none }
            have hbind := hnew.bind frame name (.promise h.promises.size)
            rw [Binding.rename, hr.promises.next] at hbind
            exact hbind

theorem bindMatching (frame : FrameId) (formals : List (Formal Tree)) (m : Matching)
    (hr : h.Renamed ρ h') :
    (Quotation.bindMatching frame formals m h).Renamed ρ
      (Quotation.bindMatching (ρ.frame frame) (formals.map (Formal.rename ρ)) (m.rename ρ) h') := by
  obtain ⟨slots, _ | args⟩ := m
  · exact hr.bindFormals frame formals slots
  · exact (hr.bind frame dotsName (.dots args)).bindFormals frame formals slots

end Heap.Renamed

end Quotation
