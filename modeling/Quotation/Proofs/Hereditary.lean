import Quotation.CallBuilder
import Quotation.Engine.Arguments
import Quotation.Prelude.Builtins
import Quotation.Prelude.Load
import Quotation.Prelude.Specials

/-! Properties that values and trees share with their parts. If a list has such a property just when
its elements have it, a call just when its head and its arguments do, and so on, then every
conversion keeps it, since what is made from values is made of their parts. -/

namespace Quotation

def Gives {α : Type} (P : α → Prop) (x : Except Error α) : Prop := ∀ a, x = .ok a → P a

namespace Gives

variable {α β : Type} {P : α → Prop} {Q : β → Prop}

theorem ok {a : α} (h : P a) : Gives P (.ok a) := fun _ ha => Except.ok.inj ha ▸ h

theorem error (e : Error) : Gives P (.error e) := fun _ ha => nomatch ha

theorem bind {x : Except Error α} {f : α → Except Error β} (hx : Gives P x)
    (hf : ∀ a, P a → Gives Q (f a)) : Gives Q (x >>= f) := by
  cases x with
  | error e => exact error e
  | ok a => exact hf a (hx a rfl)

theorem map {x : Except Error α} {f : α → β} (hx : Gives P x) (hf : ∀ a, P a → Q (f a)) :
    Gives Q (x.map f) := by
  cases x with
  | error e => exact error e
  | ok a => exact ok (hf a (hx a rfl))

theorem mono {P' : α → Prop} {x : Except Error α} (hx : Gives P x) (hP : ∀ a, P a → P' a) :
    Gives P' x := fun a ha => hP a (hx a ha)

theorem trivial (x : Except Error α) : Gives (fun _ => True) x := fun _ _ => True.intro

end Gives

theorem SpecialCall.single_mem (call : SpecialCall) (name : String) :
    Gives (· ∈ call.args) (call.single name) := by
  unfold single
  split
  · rename_i slot heq
    exact .ok (heq ▸ List.mem_cons_self)
  · exact .error _
  · exact .error _

theorem Special.tidyArguments_mem (call : SpecialCall) :
    Gives (fun parts => parts.1 ∈ call.args ∧ ∀ slot, parts.2 = some slot → slot ∈ call.args)
      (tidyArguments call) := by
  unfold tidyArguments
  split
  · exact .error _
  · rename_i expr heq
    exact .ok ⟨heq ▸ List.mem_cons_self, fun _ h => nomatch h⟩
  · rename_i expr data heq
    refine .ok ⟨heq ▸ List.mem_cons_self, fun slot h => ?_⟩
    cases h
    exact heq ▸ List.mem_cons_of_mem _ List.mem_cons_self
  · exact .error _

inductive Builtin.Made (args : List Item) : Value → Prop
  | number (x : Number) : Made args x.toValue
  | bool (b : Bool) : Made args (.bool b)
  | argument {a : Item} : a ∈ args → Made args a.val
  | list : Made args (.list args)

theorem Builtin.Op.run_made (host : String → List Item → World → Except Error Value × World)
    {op : Op} (hop : ∀ name, op ≠ .host name) (args : List Item) (w : World) :
    Gives (Made args) (op.run host args w).1 := by
  have hone : ∀ op, Gives (Made args) (oneArgument op args) := by
    intro op
    unfold oneArgument
    split
    · exact .ok (.argument List.mem_cons_self)
    · exact .error _
  cases op with
  | arithmetic op =>
    simp only [run, Builtin.arithmetic]
    split
    · refine (Gives.trivial _).bind fun x _ => ?_
      split
      · exact .ok (.number x)
      · exact (Gives.trivial _).map fun x _ => .number x
      · exact .error _
    · refine (Gives.trivial _).bind fun ab _ => (Gives.trivial _).bind fun x _ => ?_
      exact (Gives.trivial _).bind fun y _ => (Gives.trivial _).map fun x _ => .number x
  | order op =>
    refine (Gives.trivial _).bind fun ab _ => (Gives.trivial _).bind fun o _ => ?_
    exact .ok (.bool _)
  | equal | notEqual => exact (Gives.trivial _).map fun _ _ => .bool _
  | not =>
    refine (Gives.trivial _).bind fun v _ => (Gives.trivial _).bind fun b _ => ?_
    exact .ok (.bool _)
  | and | or =>
    refine (Gives.trivial _).bind fun ab _ => (Gives.trivial _).bind fun x _ => ?_
    exact (Gives.trivial _).bind fun y _ => .ok (.bool _)
  | list => exact .ok .list
  | length => exact (Gives.trivial _).map fun v _ => .number (.int (Int64.ofNat v.length))
  | identity => exact hone _
  | host name => exact absurd rfl (hop name)

theorem Mask.addItems_forall {V : Value → Prop} {m : Mask} {items : List Item}
    (hm : ∀ name v, m.get? name = some v → V v)
    (hitems : ∀ i ∈ items, V i.val) :
    Gives (fun m => ∀ name v, m.get? name = some v → V v) (Mask.addItems m items) := by
  induction items generalizing m with
  | nil => exact .ok hm
  | cons i rest ih =>
    obtain ⟨_ | name, v⟩ := i
    · exact .error _
    · obtain ⟨hv, hrest⟩ := List.forall_mem_cons.1 hitems
      refine ih (fun other w hw => ?_) hrest
      rw [NameTable.get?_insert] at hw
      split at hw
      · cases hw
        exact hv
      · exact hm other w hw

/-- A property of values and one of trees, each of which is had exactly by what has only parts that
have it. Nothing is said of callables and of host resources. -/
structure Hereditary (V : Value → Prop) (T : Tree → Prop) : Prop where
  null : V .null
  bool : ∀ b, V (.bool b)
  int : ∀ n, V (.int n)
  float : ∀ x, V (.float x)
  str : ∀ s, V (.str s)
  list : ∀ {items}, V (.list items) ↔ ∀ i ∈ items, V i.val
  tree : ∀ {t}, V (.tree t) ↔ T t
  capture : ∀ {c}, V (.capture c) → T c.tree
  literal : ∀ {v}, T (.literal v) ↔ V v
  reference : ∀ name, T (.reference name)
  call : ∀ {head args}, T (.call head args) ↔ T head ∧ ∀ slot ∈ args, T slot.val
  pairlist : ∀ {args}, T (.pairlist args) ↔ ∀ slot ∈ args, T slot.val
  unquote : ∀ {e}, T (.unquote e) ↔ T e

namespace Hereditary

variable {V : Value → Prop} {T : Tree → Prop} (hV : Hereditary V T)

include hV

theorem treeOfValue {v : Value} (hv : V v) : Gives T (Tree.ofValue v) := by
  unfold Tree.ofValue
  split
  · exact .ok (hV.tree.1 hv)
  · exact .ok (hV.capture hv)
  · exact .error _
  · split
    · exact .error _
    · exact .ok (hV.literal.2 hv)
  · exact .ok (hV.literal.2 hv)

theorem slotsOfItems {items : List Item} (hitems : ∀ i ∈ items, V i.val) (index : Nat) :
    Gives (fun slots => ∀ slot ∈ slots, T slot.val) (Slot.ofItems index items) := by
  induction items generalizing index with
  | nil => exact .ok fun _ h => nomatch h
  | cons i rest ih =>
    obtain ⟨hi, hrest⟩ := List.forall_mem_cons.1 hitems
    simp only [Slot.ofItems]
    split
    · exact .error _
    · rename_i t ht
      have ht := hV.treeOfValue hi t ht
      exact (ih hrest (index + 1)).map fun slots hslots => List.forall_mem_cons.2 ⟨ht, hslots⟩

theorem slotsOfSequence {v : Value} (hv : V v) :
    Gives (fun slots => ∀ slot ∈ slots, T slot.val) (Slot.ofSequence v) := by
  unfold Slot.ofSequence
  split
  · exact .ok fun _ h => nomatch h
  · exact hV.slotsOfItems (hV.list.1 hv) 0
  · exact .ok (hV.pairlist.1 (hV.tree.1 hv))
  · exact .error _

theorem itemsOfSequence {v : Value} (hv : V v) :
    Gives (fun items => ∀ i ∈ items, V i.val) (Item.ofSequence v) := by
  unfold Item.ofSequence
  split
  · exact .ok fun _ h => nomatch h
  · exact .ok (hV.list.1 hv)
  · have hargs := hV.pairlist.1 (hV.tree.1 hv)
    refine .ok (List.forall_mem_map.2 fun slot hslot => ?_)
    have ht := hargs slot hslot
    rw [Named.map_val]
    split
    · rename_i w heq
      rw [heq] at ht
      exact hV.literal.1 ht
    · exact hV.tree.2 ht
  · exact .error _

theorem callHead {v : Value} (hv : V v) :
    Gives (fun head => T head.toTree) (CallHead.ofValue v) := by
  unfold CallHead.ofValue
  split
  · exact .ok (hV.reference _)
  · exact .ok (hV.tree.1 hv)
  · exact .ok (hV.capture hv)
  · split
    · exact .ok (hV.literal.2 hv)
    · exact .error _

theorem template {head : CallHead} {items : List Item} (hhead : T head.toTree)
    (hitems : ∀ i ∈ items, V i.val) : T (head.template (items.map CallArg.ofItem)) := by
  refine hV.call.2 ⟨hhead, ?_⟩
  simp only [List.map_map, List.forall_mem_map]
  intro i hi
  have hi := hV.unquote.2 (hV.literal.2 (hitems i hi))
  obtain ⟨_ | name, v⟩ := i <;> exact hi

theorem maskOfValue {v : Value} (hv : V v) :
    Gives (fun m => ∀ name v, m.get? name = some v → V v) (Mask.ofValue v) := by
  unfold Mask.ofValue
  cases hl : v.asList? with
  | none => exact .error _
  | some items =>
    cases v <;> cases hl
    exact Mask.addItems_forall (fun _ _ h => nomatch h) (hV.list.1 hv)

theorem dataMask {v : Value} (hv : V v) :
    Gives (fun mask => ∀ name v, Mask.find? mask name = some v → V v) (Special.dataMask v) := by
  unfold Special.dataMask
  split
  · exact .ok fun _ _ h => nomatch h
  · exact (hV.maskOfValue hv).map fun _ hm => hm

theorem made {args : List Item} (hargs : ∀ a ∈ args, V a.val) {v : Value}
    (hv : Builtin.Made args v) : V v := by
  cases hv with
  | number x =>
    cases x with
    | int n => exact hV.int n
    | float x => exact hV.float x
  | bool b => exact hV.bool b
  | argument ha => exact hargs _ ha
  | list => exact hV.list.2 hargs

end Hereditary

end Quotation
