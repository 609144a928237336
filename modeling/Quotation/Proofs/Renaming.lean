import Quotation.Proofs.Renaming.Engine
import Quotation.Proofs.Termination.Scoped

namespace Quotation

section

variable {ρ : Renaming} {n m : Nat}

mutual

theorem Value.rename_eq_self (hρ : ∀ f < n, ρ.frame f = f) :
    ∀ v : Value, v.reach ≤ n → v.rename ρ = v
  | .list items, h => by rw [Value.rename, Item.renameAll_eq_self hρ items h]
  | .tree t, h => by rw [Value.rename, t.rename_eq_self hρ h]
  | .capture ⟨t, env⟩, h => by
    obtain ⟨ht, henv⟩ := Nat.max_le.1 h
    rw [Value.rename, t.rename_eq_self hρ ht, hρ env henv]
  | .closure ⟨name, formals, body, env, id⟩, h => by
    obtain ⟨hcode, henv⟩ := Nat.max_le.1 h
    obtain ⟨hformals, hbody⟩ := Nat.max_le.1 hcode
    rw [Value.rename, Formal.renameAll_eq_self hρ formals hformals, body.rename_eq_self hρ hbody,
      hρ env henv]
  | .null, _ | .bool _, _ | .int _, _ | .float _, _ | .str _, _ | .builtin _, _ | .special _, _
  | .external _, _ => rfl
termination_by structural v => v

theorem Item.renameAll_eq_self (hρ : ∀ f < n, ρ.frame f = f) :
    ∀ l : List Item, Item.reach l ≤ n → Item.renameAll ρ l = l
  | [], _ => rfl
  | ⟨_, v⟩ :: rest, h => by
    obtain ⟨hv, hrest⟩ := Nat.max_le.1 h
    rw [Item.renameAll, v.rename_eq_self hρ hv, Item.renameAll_eq_self hρ rest hrest]
termination_by structural l => l

theorem Tree.rename_eq_self (hρ : ∀ f < n, ρ.frame f = f) :
    ∀ t : Tree, t.reach ≤ n → t.rename ρ = t
  | .literal v, h => by rw [Tree.rename, v.rename_eq_self hρ h]
  | .reference _, _ => rfl
  | .call head args, h => by
    obtain ⟨hhead, hargs⟩ := Nat.max_le.1 h
    rw [Tree.rename, head.rename_eq_self hρ hhead, Slot.renameAll_eq_self hρ args hargs]
  | .pairlist args, h => by rw [Tree.rename, Slot.renameAll_eq_self hρ args h]
  | .unquote e, h => by rw [Tree.rename, e.rename_eq_self hρ h]
  | .splice e, h => by rw [Tree.rename, e.rename_eq_self hρ h]
  | .define n v, h => by
    obtain ⟨hn, hv⟩ := Nat.max_le.1 h
    rw [Tree.rename, n.rename_eq_self hρ hn, v.rename_eq_self hρ hv]
termination_by structural t => t

theorem Slot.renameAll_eq_self (hρ : ∀ f < n, ρ.frame f = f) :
    ∀ l : List Slot, Slot.reach l ≤ n → Slot.renameAll ρ l = l
  | [], _ => rfl
  | ⟨_, t⟩ :: rest, h => by
    obtain ⟨ht, hrest⟩ := Nat.max_le.1 h
    rw [Slot.renameAll, t.rename_eq_self hρ ht, Slot.renameAll_eq_self hρ rest hrest]
termination_by structural l => l

theorem Formal.renameAll_eq_self (hρ : ∀ f < n, ρ.frame f = f) :
    ∀ l : List (Formal Tree), Formal.reach l ≤ n → Formal.renameAll ρ l = l
  | [], _ => rfl
  | ⟨_, none⟩ :: rest, h => by rw [Formal.renameAll, Formal.renameAll_eq_self hρ rest h]
  | ⟨_, some t⟩ :: rest, h => by
    obtain ⟨ht, hrest⟩ := Nat.max_le.1 h
    rw [Formal.renameAll, t.rename_eq_self hρ ht, Formal.renameAll_eq_self hρ rest hrest]
termination_by structural l => l

end

variable (hρ : ∀ f < n, ρ.frame f = f)

include hρ

theorem Mask.rename_eq_self {mask : Option Mask} (h : Mask.Within n mask) :
    Mask.rename ρ mask = mask := by
  cases mask with
  | none => rfl
  | some entries =>
    exact congrArg some
      (NameTable.map_eq_self fun name v hv => v.rename_eq_self hρ (h name v hv))

theorem Promise.rename_eq_self {p : Promise} (h : p.Within n) : p.rename ρ = p := by
  have hvalue : p.value?.map (Value.rename ρ) = p.value? := by
    cases hv : p.value? with
    | none => rfl
    | some v => exact congrArg some (v.rename_eq_self hρ (h.value v hv))
  rw [Promise.rename, p.expr.rename_eq_self hρ h.expr, hρ p.env h.env,
    Mask.rename_eq_self hρ h.mask, hvalue]

variable (hπ : ∀ p < m, ρ.promise p = p)

include hπ

theorem Binding.rename_eq_self {b : Binding} (h : b.Within n m) : b.rename ρ = b := by
  cases b with
  | value v => exact congrArg Binding.value (v.rename_eq_self hρ (h.2 v rfl))
  | promise p => exact congrArg Binding.promise (hπ p h.1)
  | dots args =>
    have hargs : args.map (Named.map ρ.promise) = args := by
      refine (List.map_congr_left fun a ha => ?_).trans (List.map_id args)
      rw [Named.map, hπ a.val (h.1 a ha)]
      rfl
    exact congrArg Binding.dots hargs
  | missing => rfl

end

namespace Heap

variable {h h' : Heap} {ρ : Renaming}

theorem Closed.rename_frame (hc : h.Closed) (hρ : ρ.Fixes h) (f : FrameId) :
    (h.frame f).rename ρ = h.frame f := by
  have hbindings : (h.frame f).bindings.map (Binding.rename ρ) = (h.frame f).bindings :=
    NameTable.map_eq_self fun name b hb =>
      Binding.rename_eq_self hρ.frame hρ.promise (hc.bindings f name b hb)
  have henclosing : (h.frame f).enclosing.map ρ.frame = (h.frame f).enclosing :=
    (List.map_congr_left fun g hg => hρ.frame g (hc.enclosing f g hg)).trans (List.map_id _)
  rw [Frame.rename, hbindings, henclosing]

/-- The second heap has the frames and the promises of the first one, and some more after them. -/
structure Extends (h h' : Heap) : Prop where
  frame : ∀ f < h.frames.size, h'.frame f = h.frame f
  promise : ∀ p < h.promises.size, h'.promise p = h.promise p
  frames : h.frames.size ≤ h'.frames.size
  promises : h.promises.size ≤ h'.promises.size

end Heap

namespace Renaming

def skip (n k i : Nat) : Nat := if i < n then i else i + k

theorem skip_injective (n k : Nat) : Function.Injective (skip n k) := by
  intro i j hij
  simp only [skip] at hij
  split at hij <;> split at hij <;> omega

theorem skip_counts {m n : Nat} (h : m ≤ n) : Counts (skip m (n - m)) m n where
  below i hi := by
    rw [skip, if_pos hi]
    omega
  above i := by
    rw [skip, if_neg (by omega)]
    omega

def past (h h' : Heap) (hpos : 0 < h.frames.size) : Renaming where
  frame := skip h.frames.size (h'.frames.size - h.frames.size)
  promise := skip h.promises.size (h'.promises.size - h.promises.size)
  frame_injective := skip_injective _ _
  promise_injective := skip_injective _ _
  frame_zero := if_pos hpos

theorem past_fixes (h h' : Heap) (hpos : 0 < h.frames.size) : (past h h' hpos).Fixes h where
  frame _ hf := if_pos hf
  promise _ hp := if_pos hp

end Renaming

theorem Heap.Extends.renamed {h h' : Heap} (hext : h.Extends h') (hc : h.Closed)
    (hpos : 0 < h.frames.size) : h.Renamed (.past h h' hpos) h' where
  frame f := by
    have hfixes := Renaming.past_fixes h h' hpos
    by_cases hf : f < h.frames.size
    · rw [hfixes.frame f hf, hext.frame f hf, hc.rename_frame hfixes]
    · -- What is not there yet is the same on both sides.
      have hf' : h'.frames.size ≤ (Renaming.past h h' hpos).frame f :=
        Nat.le_of_not_lt fun hlt => hf ((Renaming.skip_counts hext.frames).lt_iff.1 hlt)
      rw [frame_of_size_le h' _ hf', frame_of_size_le h f (Nat.le_of_not_lt hf)]
      rfl
  promise p := by
    have hfixes := Renaming.past_fixes h h' hpos
    by_cases hp : p < h.promises.size
    · rw [hfixes.promise p hp, hext.promise p hp,
        Promise.rename_eq_self hfixes.frame (hc.promises p hp)]
    · have hp' : h'.promises.size ≤ (Renaming.past h h' hpos).promise p :=
        Nat.le_of_not_lt fun hlt => hp ((Renaming.skip_counts hext.promises).lt_iff.1 hlt)
      rw [promise_of_size_le hp', promise_of_size_le (Nat.le_of_not_lt hp),
        Promise.rename_default]
  frames := Renaming.skip_counts hext.frames
  promises := Renaming.skip_counts hext.promises

structure State.Extends (s s' : State) : Prop where
  closed : s.heap.Closed
  heap : s.heap.Extends s'.heap
  world : s'.world = s.world
  depth : s'.depth = s.depth

theorem State.Extends.renamed {s s' : State} (h : s.Extends s') (hpos : 0 < s.heap.frames.size) :
    s.Renamed (.past s.heap s'.heap hpos) s' :=
  ⟨h.heap.renamed h.closed hpos, h.world, h.depth⟩

theorem Eval.Renamed.extended {α : Type} {x : Tree → FrameId → Option Mask → Eval α}
    {f : Renaming → α → α} {s s' : State}
    (hx : ∀ ρ : Renaming, ρ.Fixes s.heap → ∀ t env mask, Eval.Renamed ρ (f ρ) (x t env mask)
      (x (t.rename ρ) (ρ.frame env) (Mask.rename ρ mask)))
    (h : s.Extends s') {t : Tree} {env : FrameId} {mask : Option Mask}
    (hscope : InScope s.heap.frames.size t.reach env mask) :
    ∃ ρ : Renaming, ρ.Fixes s.heap ∧
      Outcome.Renamed ρ (f ρ) (x t env mask s) (x t env mask s') := by
  have hpos : 0 < s.heap.frames.size := Nat.zero_lt_of_lt hscope.env
  have hfixes := Renaming.past_fixes s.heap s'.heap hpos
  have hrun := hx (.past s.heap s'.heap hpos) hfixes t env mask s s' (h.renamed hpos)
  rw [t.rename_eq_self hfixes.frame hscope.tree, hfixes.frame env hscope.env,
    Mask.rename_eq_self hfixes.frame hscope.mask] at hrun
  exact ⟨_, hfixes, hrun⟩

end Quotation
