import Quotation.Proofs.Heap
import Quotation.Proofs.Hereditary

/-! Regions of a heap from which no special can be reached. A value is ordinary in a region if there
is no special anywhere in it and if the frames and the built-in functions that it mentions belong to
the region. A region is closed if all that its frames bind and all that its promises hold is
ordinary and belongs to it. -/

namespace Quotation

structure Region where
  frame : FrameId → Prop
  promise : PromiseId → Prop
  builtin : Builtin.Op → Prop

mutual

def Value.Ordinary (R : Region) : Value → Prop
  | .null => True
  | .bool _ => True
  | .int _ => True
  | .float _ => True
  | .str _ => True
  | .list items => Item.AllOrdinary R items
  | .tree t => t.Ordinary R
  | .capture ⟨t, env⟩ => t.Ordinary R ∧ R.frame env
  | .closure ⟨_, formals, body, env, _⟩ =>
    Formal.AllOrdinary R formals ∧ body.Ordinary R ∧ R.frame env
  | .builtin b => R.builtin b.op
  | .special _ => False
  | .external _ => True
termination_by structural v => v

def Item.AllOrdinary (R : Region) : List Item → Prop
  | [] => True
  | ⟨_, v⟩ :: rest => v.Ordinary R ∧ Item.AllOrdinary R rest
termination_by structural l => l

def Tree.Ordinary (R : Region) : Tree → Prop
  | .literal v => v.Ordinary R
  | .reference _ => True
  | .call head args => head.Ordinary R ∧ Slot.AllOrdinary R args
  | .pairlist args => Slot.AllOrdinary R args
  | .unquote e => e.Ordinary R
  | .splice e => e.Ordinary R
  | .define n v => n.Ordinary R ∧ v.Ordinary R
termination_by structural t => t

def Slot.AllOrdinary (R : Region) : List Slot → Prop
  | [] => True
  | ⟨_, t⟩ :: rest => t.Ordinary R ∧ Slot.AllOrdinary R rest
termination_by structural l => l

def Formal.AllOrdinary (R : Region) : List (Formal Tree) → Prop
  | [] => True
  | ⟨_, none⟩ :: rest => Formal.AllOrdinary R rest
  | ⟨_, some t⟩ :: rest => t.Ordinary R ∧ Formal.AllOrdinary R rest
termination_by structural l => l

end

def Binding.Ordinary (R : Region) : Binding → Prop
  | .value v => v.Ordinary R
  | .promise p => R.promise p
  | .dots args => ∀ a ∈ args, R.promise a.val
  | .missing => True

def Mask.Ordinary (R : Region) (m : Option Mask) : Prop :=
  ∀ name v, Mask.find? m name = some v → v.Ordinary R

structure Promise.Ordinary (R : Region) (p : Promise) : Prop where
  expr : p.expr.Ordinary R
  env : R.frame p.env
  mask : Mask.Ordinary R p.mask
  value : ∀ v, p.value? = some v → v.Ordinary R

namespace Region

/-- Nothing leads out of the region. -/
structure Closed (R : Region) (h : Heap) : Prop where
  frame : ∀ f, R.frame f → f < h.frames.size
  enclosing : ∀ f, R.frame f → ∀ g ∈ (h.frame f).enclosing, R.frame g
  bindings : ∀ f, R.frame f → ∀ name b, h.binding? f name = some b → b.Ordinary R
  promise : ∀ p, R.promise p → p < h.promises.size ∧ (h.promise p).Ordinary R

def Hosts (R : Region) (host : Host) : Prop :=
  ∀ name args w, R.builtin (.host name) → (∀ a ∈ args, a.val.Ordinary R) →
    Gives (Value.Ordinary R) (host.builtin name args w).1

end Region

variable {R : Region}

theorem Item.allOrdinary_iff {l : List Item} :
    Item.AllOrdinary R l ↔ ∀ i ∈ l, i.val.Ordinary R := by
  induction l with
  | nil => simp [Item.AllOrdinary]
  | cons i rest ih => rw [Item.AllOrdinary, ih, List.forall_mem_cons]

theorem Slot.allOrdinary_iff {l : List Slot} :
    Slot.AllOrdinary R l ↔ ∀ s ∈ l, s.val.Ordinary R := by
  induction l with
  | nil => simp [Slot.AllOrdinary]
  | cons s rest ih => rw [Slot.AllOrdinary, ih, List.forall_mem_cons]

theorem Formal.allOrdinary_iff {l : List (Formal Tree)} :
    Formal.AllOrdinary R l ↔ ∀ f ∈ l, ∀ t, f.default? = some t → t.Ordinary R := by
  induction l with
  | nil => simp [Formal.AllOrdinary]
  | cons f rest ih =>
    obtain ⟨name, _ | t⟩ := f
    · simp [Formal.AllOrdinary, ih]
    · rw [Formal.AllOrdinary, ih, List.forall_mem_cons]
      simp

theorem Mask.ordinary_none : Mask.Ordinary R none := fun _ _ h => nomatch h

theorem Region.hereditary (R : Region) : Hereditary (Value.Ordinary R) (Tree.Ordinary R) where
  null := trivial
  bool _ := trivial
  int _ := trivial
  float _ := trivial
  str _ := trivial
  list := Item.allOrdinary_iff
  tree := .rfl
  capture h := h.1
  literal := .rfl
  reference _ := trivial
  call := and_congr_right fun _ => Slot.allOrdinary_iff
  pairlist := Slot.allOrdinary_iff
  unquote := .rfl

theorem NameTable.mem_of_find {α : Type} {name : String} {a : α} {l : List (String × α)}
    (h : NameTable.find name l = some a) : (name, a) ∈ l := by
  induction l with
  | nil => cases h
  | cons e rest ih =>
    obtain ⟨n, b⟩ := e
    rw [NameTable.find] at h
    split at h
    · rename_i hn
      cases h
      exact hn ▸ List.mem_cons_self
    · exact List.mem_cons_of_mem _ (ih h)

theorem Region.closed_of_entries {h : Heap} (hframe : ∀ f, R.frame f → f = 0)
    (hpromise : ∀ p, ¬ R.promise p) (hsize : 0 < h.frames.size)
    (henclosing : (h.frame 0).enclosing = [])
    (hentries : ∀ e ∈ (h.frame 0).bindings.entries, e.2.Ordinary R) : R.Closed h where
  frame f hf := hframe f hf ▸ hsize
  enclosing f hf g hg := by
    rw [hframe f hf, henclosing] at hg
    cases hg
  bindings f hf name b hb := by
    rw [hframe f hf] at hb
    exact hentries _ (NameTable.mem_of_find hb)
  promise p hp := absurd hp (hpromise p)

theorem Region.Hosts.run {host : Host} (hhost : R.Hosts host) {b : Builtin}
    (hb : R.builtin b.op) {args : List Item} (hargs : ∀ a ∈ args, a.val.Ordinary R) (w : World) :
    Gives (Value.Ordinary R) (b.op.run host.builtin args w).1 := by
  cases hop : b.op with
  | host name => exact hhost name args w (hop ▸ hb) hargs
  | _ =>
    exact (Builtin.Op.run_made host.builtin (fun _ h => by cases h) args w).mono fun v hv =>
      R.hereditary.made hargs hv

end Quotation
