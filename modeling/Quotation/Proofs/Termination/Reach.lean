import Quotation.Proofs.Hereditary

namespace Quotation

mutual

def Value.reach : Value → Nat
  | .null => 0
  | .bool _ => 0
  | .int _ => 0
  | .float _ => 0
  | .str _ => 0
  | .list items => Item.reach items
  | .tree t => t.reach
  | .capture ⟨t, env⟩ => max t.reach (env + 1)
  | .closure ⟨_, formals, body, env, _⟩ => max (max (Formal.reach formals) body.reach) (env + 1)
  | .builtin _ => 0
  | .special _ => 0
  | .external _ => 0
termination_by structural v => v

def Item.reach : List Item → Nat
  | [] => 0
  | ⟨_, v⟩ :: rest => max v.reach (Item.reach rest)
termination_by structural l => l

def Tree.reach : Tree → Nat
  | .literal v => v.reach
  | .reference _ => 0
  | .call head args => max head.reach (Slot.reach args)
  | .pairlist args => Slot.reach args
  | .unquote e => e.reach
  | .splice e => e.reach
  | .define n v => max n.reach v.reach
termination_by structural t => t

def Slot.reach : List Slot → Nat
  | [] => 0
  | ⟨_, t⟩ :: rest => max t.reach (Slot.reach rest)
termination_by structural l => l

def Formal.reach : List (Formal Tree) → Nat
  | [] => 0
  | ⟨_, none⟩ :: rest => Formal.reach rest
  | ⟨_, some t⟩ :: rest => max t.reach (Formal.reach rest)
termination_by structural l => l

end

def Capture.reach (c : Capture Tree) : Nat := max c.tree.reach (c.env + 1)

def Closure.reach (c : Closure Tree) : Nat :=
  max (max (Formal.reach c.formals) c.body.reach) (c.env + 1)

variable {n : Nat}

theorem Item.reach_le_iff {l : List Item} : Item.reach l ≤ n ↔ ∀ i ∈ l, i.val.reach ≤ n := by
  induction l with
  | nil => simp [Item.reach]
  | cons i rest ih => rw [Item.reach, Nat.max_le, ih, List.forall_mem_cons]

theorem Slot.reach_le_iff {l : List Slot} : Slot.reach l ≤ n ↔ ∀ s ∈ l, s.val.reach ≤ n := by
  induction l with
  | nil => simp [Slot.reach]
  | cons s rest ih => rw [Slot.reach, Nat.max_le, ih, List.forall_mem_cons]

theorem Formal.reach_le_iff {l : List (Formal Tree)} :
    Formal.reach l ≤ n ↔ ∀ f ∈ l, ∀ t, f.default? = some t → t.reach ≤ n := by
  induction l with
  | nil => simp [Formal.reach]
  | cons f rest ih =>
    obtain ⟨name, _ | t⟩ := f
    · simp [Formal.reach, ih]
    · rw [Formal.reach, Nat.max_le, ih, List.forall_mem_cons]
      simp

theorem Item.reach_append_le {l r : List Item} (hl : Item.reach l ≤ n) (hr : Item.reach r ≤ n) :
    Item.reach (l ++ r) ≤ n := by
  rw [Item.reach_le_iff] at *
  exact List.forall_mem_append.2 ⟨hl, hr⟩

theorem Slot.reach_append_le {l r : List Slot} (hl : Slot.reach l ≤ n) (hr : Slot.reach r ≤ n) :
    Slot.reach (l ++ r) ≤ n := by
  rw [Slot.reach_le_iff] at *
  exact List.forall_mem_append.2 ⟨hl, hr⟩

theorem Item.reach_nameOr_le {l : List Item} (hl : Item.reach l ≤ n) (name : String) :
    Item.reach (l.map (·.nameOr name)) ≤ n := by
  rw [Item.reach_le_iff] at *
  exact List.forall_mem_map.2 hl

theorem Slot.reach_nameOr_le {l : List Slot} (hl : Slot.reach l ≤ n) (name : String) :
    Slot.reach (l.map (·.nameOr name)) ≤ n := by
  rw [Slot.reach_le_iff] at *
  exact List.forall_mem_map.2 hl

theorem Tree.reach_slots?_le (t : Tree) : Slot.reach (t.slots?.getD []) ≤ t.reach := by
  cases t with
  | call head args => exact Nat.le_max_right _ _
  | pairlist args => exact Nat.le_refl _
  | _ => exact Nat.zero_le _

theorem Tree.reach_spliced?_le {t e : Tree} (h : t.spliced? = some e) : e.reach ≤ t.reach := by
  cases t <;> cases h
  exact Nat.le_refl _

theorem hereditary_reach (n : Nat) :
    Hereditary (fun v => v.reach ≤ n) fun t => t.reach ≤ n where
  null := Nat.zero_le n
  bool _ := Nat.zero_le n
  int _ := Nat.zero_le n
  float _ := Nat.zero_le n
  str _ := Nat.zero_le n
  list := Item.reach_le_iff
  tree := .rfl
  capture h := Nat.le_trans (Nat.le_max_left _ _) h
  literal := .rfl
  reference _ := Nat.zero_le n
  call := Nat.max_le.trans (and_congr_right fun _ => Slot.reach_le_iff)
  pairlist := Slot.reach_le_iff
  unquote := .rfl

theorem Tree.ofValue_reach (v : Value) : Gives (·.reach ≤ v.reach) (Tree.ofValue v) :=
  (hereditary_reach v.reach).treeOfValue (Nat.le_refl _)

theorem Slot.ofSequence_reach (v : Value) :
    Gives (Slot.reach · ≤ v.reach) (Slot.ofSequence v) :=
  ((hereditary_reach v.reach).slotsOfSequence (Nat.le_refl _)).mono fun _ => Slot.reach_le_iff.2

theorem Item.ofSequence_reach (v : Value) :
    Gives (Item.reach · ≤ v.reach) (Item.ofSequence v) :=
  ((hereditary_reach v.reach).itemsOfSequence (Nat.le_refl _)).mono fun _ => Item.reach_le_iff.2

theorem CallHead.ofValue_reach (v : Value) :
    Gives (·.toTree.reach ≤ v.reach) (CallHead.ofValue v) :=
  (hereditary_reach v.reach).callHead (Nat.le_refl _)

theorem CallHead.template_reach {head : CallHead} {items : List Item}
    (hhead : head.toTree.reach ≤ n) (hitems : Item.reach items ≤ n) :
    (head.template (items.map CallArg.ofItem)).reach ≤ n :=
  (hereditary_reach n).template hhead (Item.reach_le_iff.1 hitems)

def Mask.Within (n : Nat) (mask : Option Mask) : Prop :=
  ∀ name v, Mask.find? mask name = some v → v.reach ≤ n

theorem Mask.within_none : Mask.Within n none := fun _ _ h => nomatch h

theorem Mask.Within.mono {mask : Option Mask} {m : Nat} (h : Mask.Within n mask) (hn : n ≤ m) :
    Mask.Within m mask := fun name v hv =>
  Nat.le_trans (h name v hv) hn

theorem Builtin.Op.run_reach {host : String → List Item → World → Except Error Value × World}
    (hhost : ∀ name args w, Item.reach args ≤ n → Gives (·.reach ≤ n) (host name args w).1)
    (op : Op) {args : List Item} (w : World) (hargs : Item.reach args ≤ n) :
    Gives (·.reach ≤ n) (op.run host args w).1 := by
  cases op with
  | host name => exact hhost name args w hargs
  | _ =>
    refine (run_made host (fun _ h => by cases h) args w).mono fun v hv => ?_
    exact (hereditary_reach n).made (Item.reach_le_iff.1 hargs) hv

end Quotation
