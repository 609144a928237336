import Quotation.Prelude.Load
import Quotation.Proofs.Hereditary
import Quotation.Proofs.Promises

/-! Parts of a heap where nothing of a host can be called. A value is native to some frames if
every callable in it is a closure or belongs to the prelude and if it mentions no other frames. A
territory of frames and promises is closed if what its frames bind and what its promises hold is
native to its frames, and refers to no promises but its own. -/

namespace Quotation

theorem Prelude.mem_builtins_iff {op : Builtin.Op} :
    op ∈ Prelude.builtins ↔ ∀ name, op ≠ .host name := by
  constructor
  · rintro h name rfl
    simp [Prelude.builtins] at h
  · intro h
    cases op with
    | arithmetic op | order op => cases op <;> decide
    | host name => exact absurd rfl (h name)
    | _ => decide

theorem Prelude.mem_specials_iff {op : Special.Op} :
    op ∈ Prelude.specials ↔ ∀ name, op ≠ .host name := by
  constructor
  · rintro h name rfl
    simp [Prelude.specials] at h
  · intro h
    cases op with
    | host name => exact absurd rfl (h name)
    | _ => decide

structure Territory where
  frame : FrameId → Prop
  promise : PromiseId → Prop

mutual

def Value.Native (F : FrameId → Prop) : Value → Prop
  | .null => True
  | .bool _ => True
  | .int _ => True
  | .float _ => True
  | .str _ => True
  | .list items => Item.AllNative F items
  | .tree t => t.Native F
  | .capture ⟨t, env⟩ => t.Native F ∧ F env
  | .closure ⟨_, formals, body, env, _⟩ => Formal.AllNative F formals ∧ body.Native F ∧ F env
  | .builtin b => b.op ∈ Prelude.builtins
  | .special s => s.op ∈ Prelude.specials
  | .external _ => True
termination_by structural v => v

def Item.AllNative (F : FrameId → Prop) : List Item → Prop
  | [] => True
  | ⟨_, v⟩ :: rest => v.Native F ∧ Item.AllNative F rest
termination_by structural l => l

def Tree.Native (F : FrameId → Prop) : Tree → Prop
  | .literal v => v.Native F
  | .reference _ => True
  | .call head args => head.Native F ∧ Slot.AllNative F args
  | .pairlist args => Slot.AllNative F args
  | .unquote e => e.Native F
  | .splice e => e.Native F
  | .define n v => n.Native F ∧ v.Native F
termination_by structural t => t

def Slot.AllNative (F : FrameId → Prop) : List Slot → Prop
  | [] => True
  | ⟨_, t⟩ :: rest => t.Native F ∧ Slot.AllNative F rest
termination_by structural l => l

def Formal.AllNative (F : FrameId → Prop) : List (Formal Tree) → Prop
  | [] => True
  | ⟨_, none⟩ :: rest => Formal.AllNative F rest
  | ⟨_, some t⟩ :: rest => t.Native F ∧ Formal.AllNative F rest
termination_by structural l => l

end

def Mask.Native (F : FrameId → Prop) (mask : Option Mask) : Prop :=
  ∀ name v, Mask.find? mask name = some v → v.Native F

def Binding.Native (R : Territory) (m : Nat) : Binding → Prop
  | .value v => v.Native R.frame
  | .promise p => R.promise p ∧ p < m
  | .dots args => ∀ a ∈ args, R.promise a.val ∧ a.val < m
  | .missing => True

structure Promise.Native (F : FrameId → Prop) (p : Promise) : Prop where
  expr : p.expr.Native F
  env : F p.env
  mask : Mask.Native F p.mask
  value : ∀ v, p.value? = some v → v.Native F

/-- Nothing leads out of the territory, nor to a callable of the host. -/
structure Territory.Closed (R : Territory) (h : Heap) : Prop where
  enclosing : ∀ f, R.frame f → ∀ g ∈ (h.frame f).enclosing, R.frame g
  bindings : ∀ f, R.frame f → ∀ name b, h.binding? f name = some b → b.Native R h.promises.size
  promises : ∀ p < h.promises.size, R.promise p → (h.promise p).Native R.frame

section

variable {F F' : FrameId → Prop}

theorem Item.allNative_iff {l : List Item} : Item.AllNative F l ↔ ∀ i ∈ l, i.val.Native F := by
  induction l with
  | nil => simp [Item.AllNative]
  | cons i rest ih => rw [Item.AllNative, ih, List.forall_mem_cons]

theorem Slot.allNative_iff {l : List Slot} : Slot.AllNative F l ↔ ∀ s ∈ l, s.val.Native F := by
  induction l with
  | nil => simp [Slot.AllNative]
  | cons s rest ih => rw [Slot.AllNative, ih, List.forall_mem_cons]

theorem Formal.allNative_iff {l : List (Formal Tree)} :
    Formal.AllNative F l ↔ ∀ f ∈ l, ∀ t, f.default? = some t → t.Native F := by
  induction l with
  | nil => simp [Formal.AllNative]
  | cons f rest ih =>
    obtain ⟨name, _ | t⟩ := f
    · simp [Formal.AllNative, ih]
    · rw [Formal.AllNative, ih, List.forall_mem_cons]
      simp

theorem Item.AllNative.append {l r : List Item} (hl : Item.AllNative F l)
    (hr : Item.AllNative F r) : Item.AllNative F (l ++ r) := by
  rw [Item.allNative_iff] at *
  exact List.forall_mem_append.2 ⟨hl, hr⟩

theorem Slot.AllNative.append {l r : List Slot} (hl : Slot.AllNative F l)
    (hr : Slot.AllNative F r) : Slot.AllNative F (l ++ r) := by
  rw [Slot.allNative_iff] at *
  exact List.forall_mem_append.2 ⟨hl, hr⟩

theorem Item.AllNative.nameOr {l : List Item} (hl : Item.AllNative F l) (name : String) :
    Item.AllNative F (l.map (·.nameOr name)) := by
  rw [Item.allNative_iff] at *
  exact List.forall_mem_map.2 hl

theorem Slot.AllNative.nameOr {l : List Slot} (hl : Slot.AllNative F l) (name : String) :
    Slot.AllNative F (l.map (·.nameOr name)) := by
  rw [Slot.allNative_iff] at *
  exact List.forall_mem_map.2 hl

theorem hereditary_native (F : FrameId → Prop) : Hereditary (Value.Native F) (Tree.Native F) where
  null := trivial
  bool _ := trivial
  int _ := trivial
  float _ := trivial
  str _ := trivial
  list := Item.allNative_iff
  tree := .rfl
  capture h := h.1
  literal := .rfl
  reference _ := trivial
  call := and_congr_right fun _ => Slot.allNative_iff
  pairlist := Slot.allNative_iff
  unquote := .rfl

theorem Mask.native_none : Mask.Native F none := fun _ _ h => nomatch h

mutual

theorem Value.Native.mono (hF : ∀ f, F f → F' f) : ∀ v : Value, v.Native F → v.Native F'
  | .null, h | .bool _, h | .int _, h | .float _, h | .str _, h | .builtin _, h | .special _, h
  | .external _, h => h
  | .list items, h => Item.AllNative.mono hF items h
  | .tree t, h => Tree.Native.mono hF t h
  | .capture ⟨t, env⟩, h => ⟨Tree.Native.mono hF t h.1, hF env h.2⟩
  | .closure ⟨_, formals, body, env, _⟩, h =>
    ⟨Formal.AllNative.mono hF formals h.1, Tree.Native.mono hF body h.2.1, hF env h.2.2⟩

theorem Item.AllNative.mono (hF : ∀ f, F f → F' f) :
    ∀ l : List Item, Item.AllNative F l → Item.AllNative F' l
  | [], h => h
  | ⟨_, v⟩ :: rest, h => ⟨Value.Native.mono hF v h.1, Item.AllNative.mono hF rest h.2⟩

theorem Tree.Native.mono (hF : ∀ f, F f → F' f) : ∀ t : Tree, t.Native F → t.Native F'
  | .literal v, h => Value.Native.mono hF v h
  | .reference _, h => h
  | .call head args, h => ⟨Tree.Native.mono hF head h.1, Slot.AllNative.mono hF args h.2⟩
  | .pairlist args, h => Slot.AllNative.mono hF args h
  | .unquote e, h | .splice e, h => Tree.Native.mono hF e h
  | .define n v, h => ⟨Tree.Native.mono hF n h.1, Tree.Native.mono hF v h.2⟩

theorem Slot.AllNative.mono (hF : ∀ f, F f → F' f) :
    ∀ l : List Slot, Slot.AllNative F l → Slot.AllNative F' l
  | [], h => h
  | ⟨_, t⟩ :: rest, h => ⟨Tree.Native.mono hF t h.1, Slot.AllNative.mono hF rest h.2⟩

theorem Formal.AllNative.mono (hF : ∀ f, F f → F' f) :
    ∀ l : List (Formal Tree), Formal.AllNative F l → Formal.AllNative F' l
  | [], h => h
  | ⟨_, none⟩ :: rest, h => Formal.AllNative.mono hF rest h
  | ⟨_, some t⟩ :: rest, h => ⟨Tree.Native.mono hF t h.1, Formal.AllNative.mono hF rest h.2⟩

end

theorem Mask.Native.mono (hF : ∀ f, F f → F' f) {mask : Option Mask} (h : Mask.Native F mask) :
    Mask.Native F' mask := fun name v hv => (h name v hv).mono hF v

theorem Promise.Native.mono (hF : ∀ f, F f → F' f) {p : Promise} (h : p.Native F) :
    p.Native F' where
  expr := h.expr.mono hF _
  env := hF _ h.env
  mask := h.mask.mono hF
  value v hv := (h.value v hv).mono hF v

theorem Builtin.Op.run_native (host : String → List Item → World → Except Error Value × World)
    {op : Op} (hop : op ∈ Prelude.builtins) {args : List Item}
    (hargs : ∀ a ∈ args, a.val.Native F) (w : World) :
    Gives (Value.Native F) (op.run host args w).1 :=
  (run_made host (Prelude.mem_builtins_iff.1 hop) args w).mono fun _ hv =>
    (hereditary_native F).made hargs hv

end

theorem Binding.Native.mono {R R' : Territory} {m m' : Nat} (hF : ∀ f, R.frame f → R'.frame f)
    (hP : ∀ p, R.promise p → R'.promise p) (hm : m ≤ m') {b : Binding} (h : b.Native R m) :
    b.Native R' m' := by
  cases b with
  | value v => exact Value.Native.mono hF v h
  | promise p => exact ⟨hP p h.1, Nat.lt_of_lt_of_le h.2 hm⟩
  | dots args => exact fun a ha => ⟨hP _ (h a ha).1, Nat.lt_of_lt_of_le (h a ha).2 hm⟩
  | missing => trivial

theorem Binding.Native.later {R : Territory} {m m' : Nat} (hm : m ≤ m') {b : Binding}
    (h : b.Native R m) : b.Native R m' := h.mono (fun _ hf => hf) (fun _ hp => hp) hm

namespace Territory

def widen (R : Territory) (h : Heap) : Territory where
  frame f := R.frame f ∨ h.frames.size ≤ f
  promise p := R.promise p ∨ h.promises.size ≤ p

/-- A closed territory to which everything belongs that is still to be made. -/
structure Owns (R : Territory) (h : Heap) : Prop extends R.Closed h where
  newFrames : ∀ f, h.frames.size ≤ f → R.frame f
  newPromises : ∀ p, h.promises.size ≤ p → R.promise p

variable {R : Territory} {h : Heap}

theorem Closed.widen (hR : R.Closed h) : (R.widen h).Owns h where
  newFrames _ := .inr
  newPromises _ := .inr
  enclosing f hf g hg := by
    rcases hf with hf | hf
    · exact .inl (hR.enclosing f hf g hg)
    · rw [h.frame_of_size_le f hf] at hg
      cases hg
  bindings f hf name b hb := by
    rcases hf with hf | hf
    · exact (hR.bindings f hf name b hb).mono (fun _ => Or.inl) (fun _ => Or.inl) (Nat.le_refl _)
    · rw [Heap.binding?, h.frame_of_size_le f hf] at hb
      cases hb
  promises p hp hpR := by
    rcases hpR with hpR | hge
    · exact (hR.promises p hp hpR).mono fun _ => Or.inl
    · exact absurd hge (Nat.not_le_of_lt hp)

namespace Closed

variable (hR : R.Closed h)

include hR

theorem chain {f : FrameId} (hf : R.frame f) : ∀ g ∈ h.chain f, R.frame g :=
  List.forall_mem_cons.2 ⟨hf, hR.enclosing f hf⟩

theorem lookup {f : FrameId} (hf : R.frame f) {name : String} {b : Binding}
    (hb : h.lookup f name = some b) : b.Native R h.promises.size := by
  obtain ⟨g, hg, hgb⟩ := h.mem_chain_of_lookup f name hb
  exact hR.bindings g (hR.chain hf g hg) name b hgb

theorem callFrame {f g : FrameId} (hf : R.frame f) (hg : h.callFrame? f = some g) : R.frame g :=
  hR.chain hf g (List.mem_of_find?_eq_some hg)

theorem modifyPromise (p : PromiseId) {k : Promise → Promise}
    (hk : (h.promise p).Native R.frame → (k (h.promise p)).Native R.frame) :
    R.Closed (h.modifyPromise p k) where
  enclosing := hR.enclosing
  bindings f hf name b hb := by
    rw [Heap.size_promises_modifyPromise]
    exact hR.bindings f hf name b hb
  promises q hq hqR := by
    rw [Heap.size_promises_modifyPromise] at hq
    rw [Heap.promise_modifyPromise]
    split
    · rename_i hpq
      obtain ⟨rfl, hp⟩ := hpq
      exact hk (hR.promises p hp hqR)
    · exact hR.promises q hq hqR

theorem newPromise {pr : Promise} (hpr : pr.Native R.frame) : R.Closed (h.newPromise pr).2 where
  enclosing := hR.enclosing
  bindings f hf name b hb := by
    rw [Heap.size_promises_newPromise]
    exact (hR.bindings f hf name b hb).later (Nat.le_succ _)
  promises p hp hpR := by
    rw [Heap.size_promises_newPromise] at hp
    rw [Heap.promise_newPromise]
    split
    · exact hpr
    · rename_i hne
      exact hR.promises p (Nat.lt_of_le_of_ne (Nat.le_of_lt_succ hp) hne) hpR

theorem newFrame (parent : Option FrameId) (isCall : Bool)
    (hparent : ∀ f, parent = some f → R.frame f) : R.Closed (h.newFrame parent isCall).2 where
  enclosing f hf := by
    rw [Heap.frame_newFrame]
    split
    · cases parent with
      | none => exact fun _ hg => absurd hg List.not_mem_nil
      | some env => exact hR.chain (hparent env rfl)
    · exact hR.enclosing f hf
  bindings f hf name b hb := by
    rw [Heap.binding?_newFrame] at hb
    exact hR.bindings f hf name b hb
  promises := hR.promises

theorem rebind (f : FrameId) (name : String) {b : Binding}
    (hb : R.frame f → b.Native R h.promises.size) : R.Closed (h.rebind f name (some b)) where
  enclosing g hg := by
    rw [Heap.enclosing_rebind]
    exact hR.enclosing g hg
  bindings g hg other c hc := by
    rw [Heap.binding?_rebind] at hc
    rw [Heap.size_promises_rebind]
    split at hc
    · rename_i hall
      cases hc
      exact hb (hall.1 ▸ hg)
    · exact hR.bindings g hg other c hc
  promises := hR.promises

end Closed

theorem Owns.later {h' : Heap} (hR : R.Owns h) (hclosed : R.Closed h')
    (hframes : h.frames.size ≤ h'.frames.size) (hpromises : h.promises.size ≤ h'.promises.size) :
    R.Owns h' where
  toClosed := hclosed
  newFrames f hf := hR.newFrames f (Nat.le_trans hframes hf)
  newPromises p hp := hR.newPromises p (Nat.le_trans hpromises hp)

end Territory

structure Promise.Proceeds (p q : Promise) : Prop extends p.KeepsTree q where
  forcing : q.forcing = p.forcing
  value : q.value? = p.value? ∨ p.Pending

structure Heap.Conserves (h h' : Heap) : Prop extends h.Relates Promise.Proceeds h' where
  frames : h.frames.size ≤ h'.frames.size
  frame : ∀ f < h.frames.size, h'.frame f = h.frame f

instance : IsPreorder Promise Promise.Proceeds where
  refl _ := ⟨refl _, rfl, .inl rfl⟩
  trans p q r h h' := by
    refine ⟨trans_of Promise.KeepsTree h.toKeepsTree h'.toKeepsTree,
      h'.forcing.trans h.forcing, ?_⟩
    rcases h.value with hv | hpending
    · refine h'.value.imp (·.trans hv) fun hpending => ?_
      exact ⟨hv.symm.trans hpending.1, h.forcing.symm.trans hpending.2⟩
    · exact .inr hpending

namespace Heap.Conserves

variable {h h' h'' : Heap}

theorem refl (h : Heap) : h.Conserves h := ⟨.refl h, Nat.le_refl _, fun _ _ => rfl⟩

theorem trans (hc : h.Conserves h') (hc' : h'.Conserves h'') : h.Conserves h'' where
  toRelates := hc.toRelates.trans hc'.toRelates
  frames := Nat.le_trans hc.frames hc'.frames
  frame f hf := (hc'.frame f (Nat.lt_of_lt_of_le hf hc.frames)).trans (hc.frame f hf)

theorem markCaptured (h : Heap) (p : PromiseId) : h.Conserves (h.markCaptured p) where
  toRelates := .modifyPromise ⟨⟨rfl, rfl, rfl, fun _ => rfl⟩, rfl, .inl rfl⟩
  frames := Nat.le_refl _
  frame _ _ := rfl

theorem newPromise (h : Heap) (pr : Promise) : h.Conserves (h.newPromise pr).2 where
  toRelates := .newPromise h pr
  frames := Nat.le_refl _
  frame _ _ := rfl

theorem newFrame (h : Heap) (parent : Option FrameId) (isCall : Bool) :
    h.Conserves (h.newFrame parent isCall).2 where
  toRelates := .newFrame h parent isCall
  frames := by simp
  frame f hf := by rw [frame_newFrame, if_neg (Nat.ne_of_lt hf)]

theorem bind (hc : h.Conserves h') {f : FrameId} (hf : h.frames.size ≤ f) (name : String)
    (b : Binding) : h.Conserves (h'.bind f name b) where
  toRelates := hc.toRelates.trans (.rebind h' f name (some b))
  frames := by simpa using hc.frames
  frame g hg := by
    have hne : ¬ f = g := fun e => Nat.not_le_of_lt hg (e ▸ hf)
    rw [Heap.bind, frame_modifyFrame, if_neg fun hall => hne hall.1]
    exact hc.frame g hg

theorem force {p : PromiseId} (hp : (h.promise p).Pending) (hc : (h.beginForce p).Conserves h')
    {k : Promise → Promise} (hk : ∀ q : Promise, q.KeepsTree (k q))
    (hmark : ∀ q, (k q).forcing = false) :
    h.Conserves (h'.modifyPromise p k) where
  promises := by simpa [beginForce] using hc.promises
  promise q hq := by
    have hq' := hc.promise q (by rwa [beginForce, size_promises_modifyPromise])
    rw [beginForce, promise_modifyPromise] at hq'
    rw [promise_modifyPromise]
    by_cases hpq : p = q
    · subst hpq
      have hp' : p < h'.promises.size := by
        have hsize := hc.promises
        rw [beginForce, size_promises_modifyPromise] at hsize
        exact Nat.lt_of_lt_of_le hq hsize
      rw [if_pos ⟨rfl, hq⟩] at hq'
      rw [if_pos ⟨rfl, hp'⟩]
      have htree := trans_of Promise.KeepsTree hq'.toKeepsTree (hk _)
      exact ⟨⟨htree.expr, htree.env, htree.mask, htree.captured⟩,
        (hmark _).trans hp.2.symm, .inr hp⟩
    · rw [if_neg fun hall => hpq hall.1] at hq' ⊢
      exact hq'
  frames := hc.frames
  frame := hc.frame

end Heap.Conserves

end Quotation
