import Mathlib.Logic.Function.Basic
import Quotation.CallBuilder
import Quotation.Engine.Arguments
import Quotation.Prelude.Builtins
import Quotation.Prelude.Specials

/-! New numbers for frames and promises. Values and trees mention frames, in captures and in
closures, but nothing that is made from a value or told of it depends on their numbers: every
conversion commutes with renaming, and every question has the same answer. -/

namespace Quotation

/-- New numbers for frames and promises. The first frame keeps its own: that is where a promise is
said to lie that does not exist. -/
structure Renaming where
  frame : FrameId → FrameId
  promise : PromiseId → PromiseId
  frame_injective : Function.Injective frame
  promise_injective : Function.Injective promise
  frame_zero : frame 0 = 0

mutual

def Value.rename (ρ : Renaming) : Value → Value
  | .null => .null
  | .bool b => .bool b
  | .int n => .int n
  | .float x => .float x
  | .str s => .str s
  | .list items => .list (Item.renameAll ρ items)
  | .tree t => .tree (t.rename ρ)
  | .capture ⟨t, env⟩ => .capture ⟨t.rename ρ, ρ.frame env⟩
  | .closure ⟨name, formals, body, env, id⟩ =>
    .closure ⟨name, Formal.renameAll ρ formals, body.rename ρ, ρ.frame env, id⟩
  | .builtin b => .builtin b
  | .special s => .special s
  | .external x => .external x
termination_by structural v => v

def Item.renameAll (ρ : Renaming) : List Item → List Item
  | [] => []
  | ⟨name, v⟩ :: rest => ⟨name, v.rename ρ⟩ :: Item.renameAll ρ rest
termination_by structural l => l

def Tree.rename (ρ : Renaming) : Tree → Tree
  | .literal v => .literal (v.rename ρ)
  | .reference name => .reference name
  | .call head args => .call (head.rename ρ) (Slot.renameAll ρ args)
  | .pairlist args => .pairlist (Slot.renameAll ρ args)
  | .unquote e => .unquote (e.rename ρ)
  | .splice e => .splice (e.rename ρ)
  | .define n v => .define (n.rename ρ) (v.rename ρ)
termination_by structural t => t

def Slot.renameAll (ρ : Renaming) : List Slot → List Slot
  | [] => []
  | ⟨name, t⟩ :: rest => ⟨name, t.rename ρ⟩ :: Slot.renameAll ρ rest
termination_by structural l => l

def Formal.renameAll (ρ : Renaming) : List (Formal Tree) → List (Formal Tree)
  | [] => []
  | ⟨name, none⟩ :: rest => ⟨name, none⟩ :: Formal.renameAll ρ rest
  | ⟨name, some t⟩ :: rest => ⟨name, some (t.rename ρ)⟩ :: Formal.renameAll ρ rest
termination_by structural l => l

end

def Formal.rename (ρ : Renaming) (f : Formal Tree) : Formal Tree :=
  ⟨f.name, f.default?.map (Tree.rename ρ)⟩

def Capture.rename (ρ : Renaming) (c : Capture Tree) : Capture Tree :=
  ⟨c.tree.rename ρ, ρ.frame c.env⟩

def Closure.rename (ρ : Renaming) (c : Closure Tree) : Closure Tree :=
  ⟨c.name, c.formals.map (Formal.rename ρ), c.body.rename ρ, ρ.frame c.env, c.id⟩

variable (ρ : Renaming)

@[simp] theorem Item.renameAll_eq_map (l : List Item) :
    Item.renameAll ρ l = l.map (Named.map (Value.rename ρ)) := by
  induction l with
  | nil => rfl
  | cons i rest ih => exact congrArg (i.map (Value.rename ρ) :: ·) ih

@[simp] theorem Slot.renameAll_eq_map (l : List Slot) :
    Slot.renameAll ρ l = l.map (Named.map (Tree.rename ρ)) := by
  induction l with
  | nil => rfl
  | cons s rest ih => exact congrArg (s.map (Tree.rename ρ) :: ·) ih

@[simp] theorem Formal.renameAll_eq_map (l : List (Formal Tree)) :
    Formal.renameAll ρ l = l.map (Formal.rename ρ) := by
  induction l with
  | nil => rfl
  | cons f rest ih =>
    obtain ⟨name, _ | t⟩ := f <;> exact congrArg (_ :: ·) ih

@[simp] theorem Value.rename_list (items : List Item) :
    (Value.list items).rename ρ = .list (items.map (Named.map (Value.rename ρ))) :=
  congrArg Value.list (Item.renameAll_eq_map ρ items)

@[simp] theorem Value.rename_tree (t : Tree) :
    (Value.tree t).rename ρ = .tree (t.rename ρ) := rfl

@[simp] theorem Value.rename_capture (c : Capture Tree) :
    (Value.capture c).rename ρ = .capture (c.rename ρ) := rfl

@[simp] theorem Value.rename_closure (c : Closure Tree) :
    (Value.closure c).rename ρ = .closure (c.rename ρ) := by
  rw [Closure.rename, ← Formal.renameAll_eq_map]
  rfl

@[simp] theorem Tree.rename_literal (v : Value) :
    (Tree.literal v).rename ρ = .literal (v.rename ρ) := rfl

@[simp] theorem Tree.rename_reference (name : String) :
    (Tree.reference name).rename ρ = .reference name := rfl

@[simp] theorem Tree.rename_call (head : Tree) (args : List Slot) :
    (Tree.call head args).rename ρ =
      .call (head.rename ρ) (args.map (Named.map (Tree.rename ρ))) :=
  congrArg (Tree.call _) (Slot.renameAll_eq_map ρ args)

@[simp] theorem Tree.rename_pairlist (args : List Slot) :
    (Tree.pairlist args).rename ρ = .pairlist (args.map (Named.map (Tree.rename ρ))) :=
  congrArg Tree.pairlist (Slot.renameAll_eq_map ρ args)

namespace Value

variable (v : Value)

@[simp] theorem typeName_rename : (v.rename ρ).typeName = v.typeName := by
  cases v <;> rfl

@[simp] theorem isCallable_rename : (v.rename ρ).isCallable = v.isCallable := by
  cases v <;> rfl

@[simp] theorem isSpecial_rename : (v.rename ρ).isSpecial = v.isSpecial := by
  cases v <;> rfl

@[simp] theorem asBool?_rename : (v.rename ρ).asBool? = v.asBool? := by
  cases v <;> rfl

@[simp] theorem asString?_rename : (v.rename ρ).asString? = v.asString? := by
  cases v <;> rfl

theorem asList?_rename :
    (v.rename ρ).asList? = v.asList?.map (List.map (Named.map (Value.rename ρ))) := by
  cases v with
  | list items => exact congrArg some (Item.renameAll_eq_map ρ items)
  | _ => rfl

@[simp] theorem number?_rename : Number.ofValue? (v.rename ρ) = Number.ofValue? v := by
  cases v <;> rfl

@[simp] theorem rename_number (n : Number) : n.toValue.rename ρ = n.toValue := by
  cases n <;> rfl

end Value

namespace Tree

variable (t : Tree)

@[simp] theorem isDots_rename : (t.rename ρ).isDots = t.isDots := by
  cases t <;> rfl

@[simp] theorem asReference?_rename : (t.rename ρ).asReference? = t.asReference? := by
  cases t <;> rfl

@[simp] theorem isReference_rename : (t.rename ρ).isReference = t.isReference := by
  cases t <;> rfl

theorem slots?_rename :
    (t.rename ρ).slots? = t.slots?.map (List.map (Named.map (Tree.rename ρ))) := by
  cases t <;> simp [slots?, Tree.rename]

theorem spliced?_rename : (t.rename ρ).spliced? = t.spliced?.map (Tree.rename ρ) := by
  cases t <;> rfl

end Tree

@[simp] theorem Value.length_rename (v : Value) : (v.rename ρ).length = v.length := by
  cases v with
  | list items => simp [Value.length]
  | tree t => simp [Value.length, Tree.slots?_rename, Function.comp_def]
  | _ => rfl

@[simp] theorem infixOperator?_rename (head : Tree) (args : List Slot) :
    infixOperator? (head.rename ρ) (args.map (Named.map (Tree.rename ρ))) =
      infixOperator? head args := by
  cases head with
  | reference op => rcases args with _ | ⟨⟨_ | _, a⟩, _ | ⟨⟨_ | _, b⟩, _ | _⟩⟩ <;> rfl
  | _ => rfl

@[simp] theorem Tree.isInfix_rename (t : Tree) : (t.rename ρ).isInfix = t.isInfix := by
  cases t with
  | call head args => simp [isInfix]
  | _ => rfl

mutual

theorem Tree.hasMarkers_rename : ∀ t : Tree, (t.rename ρ).hasMarkers = t.hasMarkers
  | .literal _ | .reference _ | .unquote _ | .splice _ | .define _ _ => rfl
  | .call head args => by
    simp only [Tree.rename, Tree.hasMarkers, head.hasMarkers_rename, Slot.anyMarkers_rename args]
  | .pairlist args => Slot.anyMarkers_rename args
termination_by structural t => t

theorem Slot.anyMarkers_rename :
    ∀ l : List Slot, Slot.anyMarkers (Slot.renameAll ρ l) = Slot.anyMarkers l
  | [] => rfl
  | ⟨_, t⟩ :: rest => by
    simp only [Slot.renameAll, Slot.anyMarkers, t.hasMarkers_rename, Slot.anyMarkers_rename rest]
termination_by structural l => l

end

mutual

theorem Value.inspect_rename : ∀ v : Value, (v.rename ρ).inspect = v.inspect
  | .list items => by simp only [Value.rename, Value.inspect, Item.inspectAll_rename items]
  | .tree t => by simp only [Value.rename, Value.inspect, t.text_rename]
  | .capture ⟨t, _⟩ => by simp only [Value.rename, Value.inspect, t.text_rename]
  | .null | .bool _ | .int _ | .float _ | .str _ | .closure _ | .builtin _ | .special _
  | .external _ => rfl
termination_by structural v => v

theorem Item.inspectAll_rename :
    ∀ l : List Item, Item.inspectAll (Item.renameAll ρ l) = Item.inspectAll l
  | [] => rfl
  | ⟨_, v⟩ :: rest => by
    simp only [Item.renameAll, Item.inspectAll, v.inspect_rename, Item.inspectAll_rename rest]
termination_by structural l => l

theorem Tree.text_rename : ∀ t : Tree, (t.rename ρ).text = t.text
  | .literal v => v.inspect_rename
  | .reference _ => rfl
  | .call head args => by
    simp only [Tree.rename, Tree.text, Slot.renameAll_eq_map, infixOperator?_rename,
      Tree.isReference_rename, head.text_rename]
    simp only [← Slot.renameAll_eq_map, Slot.operandTextAll_rename args, Slot.textAll_rename args]
  | .pairlist args => by simp only [Tree.rename, Tree.text, Slot.textAll_rename args]
  | .unquote e => by simp only [Tree.rename, Tree.text, e.text_rename]
  | .splice e => by simp only [Tree.rename, Tree.text, e.text_rename]
  | .define n v => by simp only [Tree.rename, Tree.text, n.text_rename, v.text_rename]
termination_by structural t => t

theorem Slot.textAll_rename :
    ∀ l : List Slot, Slot.textAll (Slot.renameAll ρ l) = Slot.textAll l
  | [] => rfl
  | ⟨_, t⟩ :: rest => by
    simp only [Slot.renameAll, Slot.textAll, t.text_rename, Slot.textAll_rename rest]
termination_by structural l => l

theorem Slot.operandTextAll_rename :
    ∀ l : List Slot, Slot.operandTextAll (Slot.renameAll ρ l) = Slot.operandTextAll l
  | [] => rfl
  | ⟨_, t⟩ :: rest => by
    simp only [Slot.renameAll, Slot.operandTextAll, Tree.isInfix_rename, t.text_rename,
      Slot.operandTextAll_rename rest]
termination_by structural l => l

end

mutual

theorem Value.beq_rename : ∀ v w : Value, (v.rename ρ).beq (w.rename ρ) = v.beq w
  | .list a, w => by
    cases w with
    | list b => simp only [Value.rename, Value.beq, Item.beqList_rename a b]
    | _ => rfl
  | .tree a, w => by
    cases w with
    | tree b => simp only [Value.rename, Value.beq, a.beq_rename b]
    | _ => rfl
  | .capture ⟨a, e⟩, w => by
    cases w with
    | capture c =>
      -- The only place where frames are compared.
      have henv : (ρ.frame e == ρ.frame c.env) = (e == c.env) := by
        simp [ρ.frame_injective.eq_iff]
      simp only [Value.rename, Value.beq, a.beq_rename c.tree, henv]
    | _ => rfl
  | .null, w | .bool _, w | .int _, w | .float _, w | .str _, w | .closure _, w | .builtin _, w
  | .special _, w | .external _, w => by cases w <;> rfl
termination_by structural v => v

theorem Item.beqList_rename : ∀ a b : List Item,
    Item.beqList (Item.renameAll ρ a) (Item.renameAll ρ b) = Item.beqList a b
  | [], b => by cases b <;> rfl
  | ⟨n, v⟩ :: a, b => by
    cases b with
    | nil => rfl
    | cons i b =>
      simp only [Item.renameAll, Item.beqList, v.beq_rename i.val, Item.beqList_rename a b]
termination_by structural a => a

theorem Tree.beq_rename : ∀ t u : Tree, (t.rename ρ).beq (u.rename ρ) = t.beq u
  | .literal v, u => by
    cases u with
    | literal w => simp only [Tree.rename, Tree.beq, v.beq_rename w]
    | _ => rfl
  | .reference _, u => by cases u <;> rfl
  | .call h a, u => by
    cases u with
    | call k b => simp only [Tree.rename, Tree.beq, h.beq_rename k, Slot.beqList_rename a b]
    | _ => rfl
  | .pairlist a, u => by
    cases u with
    | pairlist b => simp only [Tree.rename, Tree.beq, Slot.beqList_rename a b]
    | _ => rfl
  | .unquote a, u => by
    cases u with
    | unquote b => simp only [Tree.rename, Tree.beq, a.beq_rename b]
    | _ => rfl
  | .splice a, u => by
    cases u with
    | splice b => simp only [Tree.rename, Tree.beq, a.beq_rename b]
    | _ => rfl
  | .define a v, u => by
    cases u with
    | define b w => simp only [Tree.rename, Tree.beq, a.beq_rename b, v.beq_rename w]
    | _ => rfl
termination_by structural t => t

theorem Slot.beqList_rename : ∀ a b : List Slot,
    Slot.beqList (Slot.renameAll ρ a) (Slot.renameAll ρ b) = Slot.beqList a b
  | [], b => by cases b <;> rfl
  | ⟨n, t⟩ :: a, b => by
    cases b with
    | nil => rfl
    | cons s b =>
      simp only [Slot.renameAll, Slot.beqList, t.beq_rename s.val, Slot.beqList_rename a b]
termination_by structural a => a

end

attribute [simp] Tree.hasMarkers_rename Value.inspect_rename Tree.text_rename Value.beq_rename

@[simp] theorem Slot.anyMarkers_map_rename (l : List Slot) :
    Slot.anyMarkers (l.map (Named.map (Tree.rename ρ))) = Slot.anyMarkers l := by
  rw [← Slot.renameAll_eq_map, Slot.anyMarkers_rename]

@[simp] theorem Value.text_rename (v : Value) : (v.rename ρ).text = v.text := by
  cases v with
  | str s => rfl
  | tree t => exact t.text_rename ρ
  | _ => exact Value.inspect_rename ρ _

end Quotation
