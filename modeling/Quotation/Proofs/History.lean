import Quotation.Proofs.Heap

/-! Histories of frames. Frames are made, inside of others or not, and names are bound and removed
in them, in any order and in frames that many others look into. What a name means in a frame is told
from the history alone: it is the last binding that was installed and not removed since, in the
nearest frame that has one. A frame lists its names by the time since when they are bound. -/

namespace Quotation

inductive FrameOp (n : Nat) : Nat → Type
  | new : FrameOp n (n + 1)
  | child (parent : Fin n) : FrameOp n (n + 1)
  | callFrame (parent : Fin n) : FrameOp n (n + 1)
  | define (f : Fin n) (name : String) (v : Value) : FrameOp n n
  | bind (f : Fin n) (name : String) (b : Binding) : FrameOp n n
  | remove (f : Fin n) (name : String) : FrameOp n n

namespace FrameOp

variable {n m : Nat}

def parent? : FrameOp n m → Option FrameId
  | .child f | .callFrame f => some f
  | .new | .define _ _ _ | .bind _ _ _ | .remove _ _ => none

/-- What becomes of a name in a frame: a binding or none, if the operation concerns it at all. -/
def writes? (f : FrameId) (name : String) : FrameOp n m → Option (Option Binding)
  | .define g other v => if g = f ∧ other = name then some (some (.value v)) else none
  | .bind g other b => if g = f ∧ other = name then some (some b) else none
  | .remove g other => if g = f ∧ other = name then some none else none
  | .new | .child _ | .callFrame _ => none

def perform (h : Heap) : FrameOp n m → Heap
  | .new => (h.newFrame none false).2
  | .child f => (h.newFrame (some f) false).2
  | .callFrame f => (h.newFrame (some f) true).2
  | .define f name v => h.define f name v
  | .bind f name b => h.bind f name b
  | .remove f name => h.erase f name

end FrameOp

inductive History : Nat → Type
  | empty : History 0
  | step {n m : Nat} (past : History n) (op : FrameOp n m) : History m

namespace History

variable {n m : Nat}

def heap : {n : Nat} → History n → Heap
  | _, .empty => {}
  | _, .step past op => op.perform past.heap

def length : {n : Nat} → History n → Nat
  | _, .empty => 0
  | _, .step past _ => past.length + 1

/-- The frame inside of which a frame was made. -/
def parent? : {n : Nat} → History n → FrameId → Option FrameId
  | _, .empty, _ => none
  | _, @step n _ past op, f => if f = n then op.parent? else past.parent? f

/-- A binding was installed, and the name was neither bound again nor removed since. -/
inductive Installed (f : FrameId) (name : String) (b : Binding) : {n : Nat} → History n → Prop
  | now {n m : Nat} {past : History n} {op : FrameOp n m} :
    op.writes? f name = some (some b) → Installed f name b (past.step op)
  | still {n m : Nat} {past : History n} {op : FrameOp n m} :
    op.writes? f name = none → Installed f name b past → Installed f name b (past.step op)

/-- A name is bound since an operation, given by its number: it was not bound before, and it was
never removed afterwards. -/
inductive BoundSince (f : FrameId) (name : String) : {n : Nat} → History n → Nat → Prop
  | now {n m : Nat} {past : History n} {op : FrameOp n m} {b : Binding} :
    op.writes? f name = some (some b) → (∀ c, ¬ past.Installed f name c) →
    BoundSince f name (past.step op) past.length
  | still {n m i : Nat} {past : History n} {op : FrameOp n m} :
    op.writes? f name ≠ some none → BoundSince f name past i → BoundSince f name (past.step op) i

/-- From a frame one looks out for a name as far as no frame on the way has it. -/
inductive Sees (past : History n) (name : String) : FrameId → FrameId → Prop
  | here (f : FrameId) : Sees past name f f
  | outer {f p g : FrameId} : (∀ b, ¬ past.Installed f name b) → past.parent? f = some p →
    Sees past name p g → Sees past name f g

end History

namespace FrameOp

variable {n m : Nat} (op : FrameOp n m) {h : Heap}

include op in
theorem le : n ≤ m := by
  cases op <;> omega

theorem parent?_lt {p : FrameId} (hp : op.parent? = some p) : p < n ∧ n < m := by
  cases op with
  | child q | callFrame q =>
    cases hp
    exact ⟨q.isLt, Nat.lt_succ_self n⟩
  | _ => cases hp

theorem size_perform (hn : h.frames.size = n) : (op.perform h).frames.size = m := by
  cases op with
  | new | child | callFrame => simp only [perform, Heap.size_frames_newFrame, hn]
  | define | bind => simp only [perform, Heap.define, Heap.size_frames_bind, hn]
  | remove f name => exact (Heap.size_frames_rebind h f name none).trans hn

theorem binding?_perform (hn : h.frames.size = n) (f : FrameId) (name : String) :
    (op.perform h).binding? f name = (op.writes? f name).getD (h.binding? f name) := by
  -- A frame that is written to is one of those there are.
  have hrebind (g : Fin n) (other : String) (b : Option Binding) :
      (h.rebind g other b).binding? f name =
        (if g = f ∧ other = name then some b else none).getD (h.binding? f name) := by
    have hg : (g : FrameId) < h.frames.size := hn ▸ g.isLt
    rw [Heap.binding?_rebind]
    by_cases hhere : g = f ∧ other = name
    · rw [if_pos hhere, if_pos ⟨hhere.1, hg, hhere.2.symm⟩, Option.getD_some]
    · rw [if_neg hhere, if_neg fun e => hhere ⟨e.1, e.2.2.symm⟩, Option.getD_none]
  cases op with
  | new | child | callFrame => exact Heap.binding?_newFrame ..
  | define g other v => exact hrebind g other (some (.value v))
  | bind g other b => exact hrebind g other (some b)
  | remove g other => exact hrebind g other none

theorem enclosing_perform (hn : h.frames.size = n) (f : FrameId) :
    ((op.perform h).frame f).enclosing =
      if f = n then (op.parent?.map h.chain).getD [] else (h.frame f).enclosing := by
  have hmake (parent : Option FrameId) (isCall : Bool) :
      ((h.newFrame parent isCall).2.frame f).enclosing =
        if f = n then (parent.map h.chain).getD [] else (h.frame f).enclosing := by
    rw [Heap.frame_newFrame, hn]
    split <;> rfl
  have hrebind (g : FrameId) (name : String) (b : Option Binding) :
      ((h.rebind g name b).frame f).enclosing =
        if f = n then [] else (h.frame f).enclosing := by
    rw [Heap.enclosing_rebind]
    split
    · rename_i hf
      rw [Heap.frame_of_size_le h f (Nat.le_of_eq (hn.trans hf.symm))]
      rfl
    · rfl
  cases op with
  | new => exact hmake none false
  | child p => exact hmake (some p) false
  | callFrame p => exact hmake (some p) true
  | define g name v => exact hrebind g name (some (.value v))
  | bind g name b => exact hrebind g name (some b)
  | remove g name => exact hrebind g name none

theorem names_bind (hn : h.frames.size = n) (g : Fin n) (name : String) (b : Binding)
    (f : FrameId) :
    (h.bind g name b).names f =
      if g = f ∧ name ∉ h.names f then h.names f ++ [name] else h.names f := by
  have hg : (g : FrameId) < h.frames.size := hn ▸ g.isLt
  simp only [Heap.names, Heap.bind, Heap.frame_modifyFrame]
  by_cases hgf : (g : FrameId) = f
  · subst hgf
    simp only [hg, and_self, if_true, true_and, NameTable.names_insert, ite_not]
  · simp [hgf]

theorem names_remove (hn : h.frames.size = n) (g : Fin n) (name : String) (f : FrameId) :
    (h.erase g name).names f = if g = f then (h.names f).erase name else h.names f := by
  have hg : (g : FrameId) < h.frames.size := hn ▸ g.isLt
  simp only [Heap.names, Heap.erase, Heap.frame_modifyFrame]
  by_cases hgf : (g : FrameId) = f
  · subst hgf
    simp [hg]
  · simp [hgf]

theorem names_newFrame (parent : Option FrameId) (isCall : Bool) (f : FrameId) :
    (h.newFrame parent isCall).2.names f = h.names f := by
  simp only [Heap.names, Heap.frame_newFrame]
  split
  · rename_i hf
    rw [Heap.frame_of_size_le h f (Nat.le_of_eq hf.symm)]
    rfl
  · rfl

theorem names_perform (hn : h.frames.size = n) (f : FrameId) :
    List.Sublist ((op.perform h).names f) (h.names f) ∨
      ∃ name b, op.writes? f name = some (some b) ∧ name ∉ h.names f ∧
        (op.perform h).names f = h.names f ++ [name] := by
  have hbind (g : Fin n) (name : String) (b : Binding) :
      List.Sublist ((h.bind g name b).names f) (h.names f) ∨
        g = f ∧ name ∉ h.names f ∧ (h.bind g name b).names f = h.names f ++ [name] := by
    rw [names_bind hn]
    split
    · rename_i hnew
      exact .inr ⟨hnew.1, hnew.2, rfl⟩
    · exact .inl (.refl _)
  cases op with
  | new | child | callFrame =>
    rw [perform, names_newFrame]
    exact .inl (.refl _)
  | define g name v =>
    refine (hbind g name (.value v)).imp_right fun ⟨hg, hname, heq⟩ => ?_
    exact ⟨name, .value v, by simp [writes?, hg], hname, heq⟩
  | bind g name b =>
    refine (hbind g name b).imp_right fun ⟨hg, hname, heq⟩ => ?_
    exact ⟨name, b, by simp [writes?, hg], hname, heq⟩
  | remove g name =>
    rw [perform, names_remove hn]
    split
    · exact .inl List.erase_sublist
    · exact .inl (.refl _)

end FrameOp

namespace History

variable {n m : Nat} (past : History n) {op : FrameOp n m} {f p : FrameId} {name : String}
  {b : Binding} {i j : Nat}

theorem size_heap : ∀ {n : Nat} (past : History n), past.heap.frames.size = n
  | _, .empty => rfl
  | _, .step past op => op.size_perform past.size_heap

theorem binding?_step (op : FrameOp n m) (f : FrameId) (name : String) :
    (past.step op).heap.binding? f name = (op.writes? f name).getD (past.heap.binding? f name) :=
  op.binding?_perform past.size_heap f name

theorem binding?_eq_some_iff :
    ∀ {n : Nat} (past : History n), past.heap.binding? f name = some b ↔ past.Installed f name b
  | _, .empty => iff_of_false nofun nofun
  | _, .step past op => by
    rw [binding?_step]
    constructor
    · intro h
      cases hw : op.writes? f name with
      | none =>
        rw [hw] at h
        exact .still hw (past.binding?_eq_some_iff.1 h)
      | some written =>
        rw [hw] at h
        exact .now (hw.trans (congrArg some h))
    · rintro (hw | ⟨hw, h⟩)
      · rw [hw]
        rfl
      · rw [hw]
        exact past.binding?_eq_some_iff.2 h

theorem binding?_eq_none_iff :
    past.heap.binding? f name = none ↔ ∀ b, ¬ past.Installed f name b := by
  simp only [← binding?_eq_some_iff, Option.eq_none_iff_forall_ne_some, ne_eq]

theorem parent?_step (op : FrameOp n m) (f : FrameId) :
    (past.step op).parent? f = if f = n then op.parent? else past.parent? f := rfl

theorem parent?_lt : ∀ {n : Nat} (past : History n), past.parent? f = some p → p < f ∧ f < n
  | _, .empty, h => nomatch h
  | _, .step past op, h => by
    rw [parent?_step] at h
    split at h
    · rename_i hf
      subst hf
      exact op.parent?_lt h
    · obtain ⟨hp, hf⟩ := past.parent?_lt h
      exact ⟨hp, Nat.lt_of_lt_of_le hf op.le⟩

theorem chain_step (op : FrameOp n m) (hp : p < n) :
    (past.step op).heap.chain p = past.heap.chain p := by
  have henclosing := op.enclosing_perform past.size_heap p
  rw [if_neg (Nat.ne_of_lt hp)] at henclosing
  exact congrArg (p :: ·) henclosing

theorem enclosing_eq : ∀ {n : Nat} (past : History n) (f : FrameId),
    (past.heap.frame f).enclosing = ((past.parent? f).map past.heap.chain).getD []
  | _, .empty, _ => rfl
  | _, @step k _ past op, f => by
    -- All parents were there before, with the frames around them.
    have hchain (parent : Option FrameId) (hparent : ∀ p, parent = some p → p < k) :
        parent.map (past.step op).heap.chain = parent.map past.heap.chain := by
      cases parent with
      | none => rfl
      | some p => exact congrArg some (past.chain_step op (hparent p rfl))
    have hperform := op.enclosing_perform past.size_heap f
    rw [parent?_step]
    split at hperform
    · rename_i hf
      rw [if_pos hf, hchain _ fun p hp => (op.parent?_lt hp).1]
      exact hperform
    · rename_i hf
      have hparent (p) (hp : past.parent? f = some p) : p < k :=
        Nat.lt_trans (past.parent?_lt hp).1 (past.parent?_lt hp).2
      rw [if_neg hf, hchain _ hparent, ← past.enclosing_eq f]
      exact hperform

theorem lookup_eq (f : FrameId) (name : String) :
    past.heap.lookup f name =
      (past.heap.binding? f name).or ((past.parent? f).bind (past.heap.lookup · name)) := by
  rw [Heap.lookup, Heap.chain, enclosing_eq, List.findSome?_cons]
  cases past.heap.binding? f name with
  | some b => rfl
  | none => cases past.parent? f <;> rfl

theorem lookup_eq_some_iff (f : FrameId) (name : String) (b : Binding) :
    past.heap.lookup f name = some b ↔ ∃ g, past.Sees name f g ∧ past.Installed g name b := by
  constructor
  · intro h
    induction f using Nat.strongRecOn with
    | ind f ih =>
      rw [lookup_eq] at h
      cases hhere : past.heap.binding? f name with
      | some c =>
        rw [hhere] at h
        cases h
        exact ⟨f, .here f, past.binding?_eq_some_iff.1 hhere⟩
      | none =>
        rw [hhere] at h
        obtain ⟨p, hp, h⟩ := Option.bind_eq_some_iff.1 h
        obtain ⟨g, hg, hb⟩ := ih p (past.parent?_lt hp).1 h
        exact ⟨g, .outer (past.binding?_eq_none_iff.1 hhere) hp hg, hb⟩
  · rintro ⟨g, hsees, hb⟩
    induction hsees with
    | here f => rw [lookup_eq, past.binding?_eq_some_iff.2 hb, Option.some_or]
    | outer hfree hp _ ih =>
      rw [lookup_eq, past.binding?_eq_none_iff.2 hfree, Option.none_or, hp]
      exact ih hb

theorem lookup_step (op : FrameOp n m) {f : FrameId} (hf : f < n)
    (h : ∀ g, past.Sees name f g → op.writes? g name = none) :
    (past.step op).heap.lookup f name = past.heap.lookup f name := by
  induction f using Nat.strongRecOn with
  | ind f ih =>
    have hhere : (past.step op).heap.binding? f name = past.heap.binding? f name := by
      rw [binding?_step, h f (.here f), Option.getD_none]
    rw [lookup_eq, lookup_eq, hhere, parent?_step, if_neg (Nat.ne_of_lt hf)]
    cases hfree : past.heap.binding? f name with
    | some b => rfl
    | none =>
      cases hp : past.parent? f with
      | none => rfl
      | some p =>
        obtain ⟨hpf, -⟩ := past.parent?_lt hp
        exact ih p hpf (Nat.lt_trans hpf hf) fun g hg =>
          h g (.outer (past.binding?_eq_none_iff.1 hfree) hp hg)

theorem mem_names_iff : name ∈ past.heap.names f ↔ ∃ b, past.Installed f name b := by
  have hfree : past.heap.binding? f name = none ↔ name ∉ past.heap.names f :=
    NameTable.get?_eq_none_iff _ _
  constructor
  · intro h
    cases hb : past.heap.binding? f name with
    | none => exact absurd h (hfree.1 hb)
    | some b => exact ⟨b, past.binding?_eq_some_iff.1 hb⟩
  · rintro ⟨b, hb⟩
    refine Decidable.byContradiction fun h => ?_
    exact past.binding?_eq_none_iff.1 (hfree.2 h) b hb

variable {past}

theorem Installed.boundSince :
    ∀ {n : Nat} {past : History n} {b : Binding}, past.Installed f name b →
      ∃ i, past.BoundSince f name i
  | _, _, _, .still hw h => by
    obtain ⟨i, hi⟩ := h.boundSince
    exact ⟨i, .still (by simp [hw]) hi⟩
  | _, .step past op, b, .now hw => by
    by_cases hbound : name ∈ past.heap.names f
    · obtain ⟨c, hc⟩ := past.mem_names_iff.1 hbound
      obtain ⟨i, hi⟩ := hc.boundSince
      exact ⟨i, .still (by simp [hw]) hi⟩
    · exact ⟨_, .now hw fun c hc => hbound (past.mem_names_iff.2 ⟨c, hc⟩)⟩

namespace BoundSince

theorem installed (h : past.BoundSince f name i) : ∃ b, past.Installed f name b := by
  induction h with
  | now hw _ => exact ⟨_, .now hw⟩
  | @still _ _ _ _ op hw _ ih =>
    cases hwrites : op.writes? f name with
    | none =>
      obtain ⟨b, hb⟩ := ih
      exact ⟨b, .still hwrites hb⟩
    | some written =>
      cases written with
      | none => exact absurd hwrites hw
      | some c => exact ⟨c, .now hwrites⟩

theorem lt_length (h : past.BoundSince f name i) : i < past.length := by
  induction h with
  | now _ _ => exact Nat.lt_succ_self _
  | still _ _ ih => exact Nat.lt_succ_of_lt ih

theorem of_step (h : (past.step op).BoundSince f name i) (hbound : name ∈ past.heap.names f) :
    past.BoundSince f name i := by
  cases h with
  | now _ hfree =>
    obtain ⟨b, hb⟩ := past.mem_names_iff.1 hbound
    exact absurd hb (hfree b)
  | still _ h => exact h

theorem of_step_new (h : (past.step op).BoundSince f name i) (hnew : name ∉ past.heap.names f) :
    i = past.length := by
  cases h with
  | now _ _ => rfl
  | still _ h => exact absurd (past.mem_names_iff.2 h.installed) hnew

theorem unique : ∀ {n : Nat} {past : History n}, past.BoundSince f name i →
    past.BoundSince f name j → i = j
  | _, .step past op, hi, hj => by
    by_cases hbound : name ∈ past.heap.names f
    · exact (hi.of_step hbound).unique (hj.of_step hbound)
    · exact (hi.of_step_new hbound).trans (hj.of_step_new hbound).symm

end BoundSince

theorem names_pairwise (f : FrameId) : ∀ {n : Nat} (past : History n),
    (past.heap.names f).Pairwise fun a c =>
      ∀ i j, past.BoundSince f a i → past.BoundSince f c j → i < j
  | _, .empty => .nil
  | _, .step past op => by
    have hpast : (past.heap.names f).Pairwise fun a c =>
        ∀ i j, (past.step op).BoundSince f a i → (past.step op).BoundSince f c j → i < j :=
      (names_pairwise f past).imp_of_mem fun ha hc h i j hi hj =>
        h i j (hi.of_step ha) (hj.of_step hc)
    obtain hthinned | ⟨name, b, -, hnew, heq⟩ := op.names_perform past.size_heap f
    · exact hpast.sublist hthinned
    · refine (congrArg (List.Pairwise _) heq).mpr (List.pairwise_append.2 ⟨hpast, ?_, ?_⟩)
      · exact List.pairwise_singleton _ _
      · intro a ha c hc i j hi hj
        cases List.mem_singleton.1 hc
        rw [hj.of_step_new hnew]
        exact (hi.of_step ha).lt_length

/-- What frames hold after any history. A name means what was installed last, and not removed since,
in the nearest frame that has it. A frame lists each name that it binds once, in the order of the
operations since when they are bound: a name that is bound again keeps its place, and one that is
removed leaves the others in their order. One more operation changes what a name means only in
frames from which the frame that it writes the name in is in sight. -/
theorem history_determines_frames {n : Nat} (past : History n) :
    (∀ f name b, past.heap.lookup f name = some b ↔
      ∃ g, past.Sees name f g ∧ past.Installed g name b) ∧
    (∀ f, (past.heap.names f).Nodup ∧
      (∀ name, name ∈ past.heap.names f ↔ ∃ b, past.Installed f name b) ∧
      (∀ name ∈ past.heap.names f, ∃ i, past.BoundSince f name i ∧
        ∀ j, past.BoundSince f name j → j = i) ∧
      (past.heap.names f).Pairwise fun a c =>
        ∀ i j, past.BoundSince f a i → past.BoundSince f c j → i < j) ∧
    (∀ (f : Fin n) name b, (past.step (.bind f name b)).heap.names f =
      if name ∈ past.heap.names f then past.heap.names f else past.heap.names f ++ [name]) ∧
    (∀ (f : Fin n) name,
      (past.step (.remove f name)).heap.names f = (past.heap.names f).erase name) ∧
    ∀ {m : Nat} (op : FrameOp n m) (f : Fin n) name,
      (past.step op).heap.lookup f name ≠ past.heap.lookup f name →
        ∃ g, op.writes? g name ≠ none ∧ past.Sees name f g := by
  refine ⟨past.lookup_eq_some_iff,
    fun f => ⟨?_, fun name => past.mem_names_iff, fun name hname => ?_, names_pairwise f past⟩,
    fun f name b => ?_, fun f name => ?_, fun op f name hne => ?_⟩
  · exact (past.heap.frame f).bindings.nodup
  · obtain ⟨b, hb⟩ := past.mem_names_iff.1 hname
    obtain ⟨i, hi⟩ := hb.boundSince
    exact ⟨i, hi, fun j hj => hj.unique hi⟩
  · have hbind := FrameOp.names_bind past.size_heap f name b f
    simp only [true_and, ite_not] at hbind
    exact hbind
  · have hremove := FrameOp.names_remove past.size_heap f name f
    rw [if_pos rfl] at hremove
    exact hremove
  · refine Classical.byContradiction fun hunseen => hne (past.lookup_step op f.isLt fun g hg => ?_)
    exact Classical.byContradiction fun hwrites => hunseen ⟨g, hwrites, hg⟩

theorem removal_uncovers_name :
    let inner := (((empty.step .new).step (.define 0 "x" (.int 1))).step (.child 0)).step
      (.define 1 "x" (.int 2))
    let uncovered := inner.step (.remove 1 "x")
    inner.heap.lookup 1 "x" = some (.value (.int 2)) ∧
      uncovered.heap.lookup 1 "x" = some (.value (.int 1)) ∧
      (∃ g, uncovered.Sees "x" 1 g ∧ uncovered.Installed g "x" (.value (.int 1))) ∧
      ∃ g, (FrameOp.remove 1 "x" : FrameOp 2 2).writes? g "x" ≠ none ∧ inner.Sees "x" 1 g := by
  intro inner uncovered
  have hinner : inner.heap.lookup 1 "x" = some (.value (.int 2)) := rfl
  have huncovered : uncovered.heap.lookup 1 "x" = some (.value (.int 1)) := rfl
  refine ⟨hinner, huncovered, ((history_determines_frames uncovered).1 1 "x" _).1 huncovered, ?_⟩
  refine (history_determines_frames inner).2.2.2.2 (.remove 1 "x") 1 "x" fun h => ?_
  cases huncovered.symm.trans (h.trans hinner)

end History

end Quotation
