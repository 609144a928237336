import Quotation.Proofs.Renaming.Values

namespace Quotation

namespace NameTable

variable {α β : Type} (f : α → β)

def map (t : NameTable α) : NameTable β :=
  ⟨t.entries.map (Prod.map id f), by simpa [Function.comp_def] using t.nodup⟩

@[simp] theorem names_map (t : NameTable α) : (t.map f).names = t.names := by
  simp [names, map, Function.comp_def]

theorem find_map (name : String) (l : List (String × α)) :
    find name (l.map (Prod.map id f)) = (find name l).map f := by
  induction l with
  | nil => rfl
  | cons e rest ih =>
    simp only [List.map_cons, Prod.map, find, id, ih]
    split <;> rfl

@[simp] theorem get?_map (t : NameTable α) (name : String) :
    (t.map f).get? name = (t.get? name).map f :=
  find_map f name t.entries

theorem put_map (name : String) (a : α) (l : List (String × α)) :
    put name (f a) (l.map (Prod.map id f)) = (put name a l).map (Prod.map id f) := by
  induction l with
  | nil => rfl
  | cons e rest ih =>
    simp only [List.map_cons, Prod.map, put, id, ih]
    split <;> rfl

theorem drop_map (name : String) (l : List (String × α)) :
    drop name (l.map (Prod.map id f)) = (drop name l).map (Prod.map id f) := by
  induction l with
  | nil => rfl
  | cons e rest ih =>
    simp only [List.map_cons, Prod.map, drop, id, ih]
    split <;> rfl

@[simp] theorem map_insert (t : NameTable α) (name : String) (a : α) :
    (t.insert name a).map f = (t.map f).insert name (f a) := by
  simp only [map, insert, put_map]

@[simp] theorem map_erase (t : NameTable α) (name : String) :
    (t.erase name).map f = (t.map f).erase name := by
  simp only [map, erase, drop_map]

theorem map_eq_self {f : α → α} {t : NameTable α} (h : ∀ name a, t.get? name = some a → f a = a) :
    t.map f = t := by
  obtain ⟨entries, nodup⟩ := t
  have hentries : entries.map (Prod.map id f) = entries := by
    induction entries with
    | nil => rfl
    | cons e rest ih =>
      obtain ⟨n, a⟩ := e
      obtain ⟨hn, hrest⟩ := List.nodup_cons.1 nodup
      have ha : f a = a := h n a (by simp [get?, find])
      have hother : ∀ name b, find name rest = some b → f b = b := by
        intro name b hb
        have hne : n ≠ name := by
          rintro rfl
          rw [(find_eq_none_iff n rest).2 hn] at hb
          cases hb
        exact h name b (by simpa [get?, find, hne] using hb)
      simp [ha, ih hrest hother]
  simp only [map, hentries]

end NameTable

section

variable (ρ : Renaming)

mutual

theorem Value.isRepresentable_rename :
    ∀ v : Value, (v.rename ρ).isRepresentable = v.isRepresentable
  | .list items => Item.allRepresentable_rename items
  | .tree t => by simp only [Value.rename, Value.isRepresentable, Tree.hasMarkers_rename]
  | .null | .bool _ | .int _ | .float _ | .str _ | .capture _ | .closure _ | .builtin _
  | .special _ | .external _ => rfl
termination_by structural v => v

theorem Item.allRepresentable_rename :
    ∀ l : List Item, Item.allRepresentable (Item.renameAll ρ l) = Item.allRepresentable l
  | [] => rfl
  | ⟨_, v⟩ :: rest => by
    simp only [Item.renameAll, Item.allRepresentable, v.isRepresentable_rename,
      Item.allRepresentable_rename rest]
termination_by structural l => l

end

theorem Item.firstUnrepresentable?_rename (index : Nat) (l : List Item) :
    Item.firstUnrepresentable? index (l.map (Named.map (Value.rename ρ))) =
      (Item.firstUnrepresentable? index l).map (Prod.map id (Value.rename ρ)) := by
  induction l generalizing index with
  | nil => rfl
  | cons i rest ih =>
    simp only [List.map_cons, Named.map, Item.firstUnrepresentable?, Value.isRepresentable_rename,
      ih]
    split <;> rfl

theorem Error.unrepresentableValue_rename (v : Value) (index : Option Nat) :
    Error.unrepresentableValue (v.rename ρ) index = .unrepresentableValue v index := by
  rw [unrepresentableValue, Value.typeName_rename, unrepresentableValue]

theorem Tree.ofValue_rename (v : Value) :
    Tree.ofValue (v.rename ρ) = (Tree.ofValue v).map (Tree.rename ρ) := by
  cases v with
  | list items =>
    simp only [Value.rename_list, Tree.ofValue, Item.firstUnrepresentable?_rename]
    cases Item.firstUnrepresentable? 0 items with
    | none => simp [Except.map]
    | some found => exact congrArg Except.error (Error.unrepresentableValue_rename ρ found.2 _)
  | _ => rfl

theorem Slot.ofItems_rename (index : Nat) (items : List Item) :
    Slot.ofItems index (items.map (Named.map (Value.rename ρ))) =
      (Slot.ofItems index items).map (List.map (Named.map (Tree.rename ρ))) := by
  induction items generalizing index with
  | nil => rfl
  | cons i rest ih =>
    simp only [List.map_cons, Named.map, Slot.ofItems, Tree.ofValue_rename, ih,
      Error.unrepresentableValue_rename]
    cases Tree.ofValue i.val with
    | error e => rfl
    | ok t => cases Slot.ofItems (index + 1) rest <;> rfl

theorem Slot.ofSequence_rename (v : Value) :
    Slot.ofSequence (v.rename ρ) =
      (Slot.ofSequence v).map (List.map (Named.map (Tree.rename ρ))) := by
  cases v with
  | list items => simp only [Value.rename_list, Slot.ofSequence, Slot.ofItems_rename]
  | tree t =>
    cases t with
    | pairlist args => simp [Slot.ofSequence, Except.map]
    | _ => rfl
  | _ => rfl

theorem Item.ofSequence_rename (v : Value) :
    Item.ofSequence (v.rename ρ) =
      (Item.ofSequence v).map (List.map (Named.map (Value.rename ρ))) := by
  cases v with
  | list items => simp [Item.ofSequence, Except.map]
  | tree t =>
    cases t with
    | pairlist args =>
      simp only [Value.rename_tree, Tree.rename_pairlist, Item.ofSequence, Except.map,
        List.map_map]
      refine congrArg Except.ok (List.map_congr_left fun s _ => ?_)
      obtain ⟨name, t⟩ := s
      cases t <;> simp [Named.map, Tree.rename]
    | _ => rfl
  | _ => rfl

theorem Value.asName?_rename (v : Value) : (v.rename ρ).asName? = v.asName? := by
  cases v with
  | list items =>
    rcases items with _ | ⟨i, _ | _⟩ <;> simp [asName?, Value.rename, Item.renameAll]
  | tree t => exact t.asReference?_rename ρ
  | capture c => exact c.tree.asReference?_rename ρ
  | _ => rfl

@[simp] theorem Value.toName_rename (v : Value) : (v.rename ρ).toName = v.toName := by
  simp only [toName, asName?_rename, typeName_rename]

def CallHead.rename (ρ : Renaming) : CallHead → CallHead
  | .name s => .name s
  | .tree t => .tree (t.rename ρ)

theorem CallHead.ofValue_rename (v : Value) :
    CallHead.ofValue (v.rename ρ) = (CallHead.ofValue v).map (CallHead.rename ρ) := by
  cases v <;> rfl

theorem CallHead.rename_template (head : CallHead) (items : List Item) :
    (head.template (items.map CallArg.ofItem)).rename ρ =
      (head.rename ρ).template ((items.map (Named.map (Value.rename ρ))).map CallArg.ofItem) := by
  have hhead : head.toTree.rename ρ = (head.rename ρ).toTree := by
    cases head <;> rfl
  have hitem : ∀ i : Item, Named.map (Tree.rename ρ) (CallArg.ofItem i).toSlot =
      (CallArg.ofItem (i.map (Value.rename ρ))).toSlot := by
    intro i
    obtain ⟨_ | name, v⟩ := i <;> rfl
  simp [CallHead.template, hhead, hitem]

def Mask.rename (ρ : Renaming) (mask : Option Mask) : Option Mask :=
  mask.map (NameTable.map (Value.rename ρ))

@[simp] theorem Mask.find?_rename (mask : Option Mask) (name : String) :
    Mask.find? (Mask.rename ρ mask) name = (Mask.find? mask name).map (Value.rename ρ) := by
  cases mask with
  | none => rfl
  | some m => exact m.get?_map _ name

theorem Mask.addItems_rename (m : Mask) (items : List Item) :
    Mask.addItems (m.map (Value.rename ρ)) (items.map (Named.map (Value.rename ρ))) =
      (Mask.addItems m items).map (NameTable.map (Value.rename ρ)) := by
  induction items generalizing m with
  | nil => rfl
  | cons i rest ih =>
    obtain ⟨_ | name, v⟩ := i
    · rfl
    · simp only [List.map_cons, Named.map, Mask.addItems, ← NameTable.map_insert, ih]

theorem Mask.ofValue_rename (v : Value) :
    Mask.ofValue (v.rename ρ) = (Mask.ofValue v).map (NameTable.map (Value.rename ρ)) := by
  simp only [Mask.ofValue, Value.asList?_rename, Value.typeName_rename]
  cases v.asList? with
  | none => rfl
  | some items => exact Mask.addItems_rename ρ NameTable.empty items

theorem Special.dataMask_rename (v : Value) :
    Special.dataMask (v.rename ρ) = (Special.dataMask v).map (Mask.rename ρ) := by
  cases v with
  | list items =>
    refine (congrArg (Except.map some) (Mask.ofValue_rename ρ (.list items))).trans ?_
    simp only [Special.dataMask]
    cases Mask.ofValue (.list items) <;> rfl
  | _ => rfl

def Host.BuiltinsRename (host : String → List Item → World → Except Error Value × World)
    (ρ : Renaming) : Prop :=
  ∀ name args w, host name (args.map (Named.map (Value.rename ρ))) w =
    ((host name args w).1.map (Value.rename ρ), (host name args w).2)

namespace Builtin

variable (args : List Item)

theorem oneArgument_rename (op : String) :
    oneArgument op (args.map (Named.map (Value.rename ρ))) =
      (oneArgument op args).map (Value.rename ρ) := by
  rcases args with _ | ⟨a, _ | ⟨b, rest⟩⟩ <;> simp [oneArgument, expects, Except.map]

theorem twoArguments_rename (op : String) :
    twoArguments op (args.map (Named.map (Value.rename ρ))) =
      (twoArguments op args).map (Prod.map (Value.rename ρ) (Value.rename ρ)) := by
  rcases args with _ | ⟨a, _ | ⟨b, _ | ⟨c, rest⟩⟩⟩ <;> simp [twoArguments, expects, Except.map]

@[simp] theorem ofOperand_rename (op : String) (v : Value) :
    Number.ofOperand op (v.rename ρ) = Number.ofOperand op v := by
  simp [Number.ofOperand]

theorem ordering_rename (op : String) (a b : Value) :
    ordering op (a.rename ρ) (b.rename ρ) = ordering op a b := by
  cases a <;> cases b <;> rfl

theorem equalValues_rename (a b : Value) :
    equalValues (a.rename ρ) (b.rename ρ) = equalValues a b := by
  have hbeq : (a.rename ρ == b.rename ρ) = (a == b) := a.beq_rename ρ b
  simp only [equalValues, Value.number?_rename, hbeq]

@[simp] theorem truth_rename (op : String) (v : Value) : truth op (v.rename ρ) = truth op v := by
  simp [truth]

theorem arithmetic_plain (op : Arithmetic) :
    (arithmetic op args).map (Value.rename ρ) = arithmetic op args := by
  have hmap : ∀ x : Except Error Number,
      (x.map Number.toValue).map (Value.rename ρ) = x.map Number.toValue := by
    intro x
    cases x <;> simp [Except.map]
  unfold arithmetic
  split
  · rename_i a
    cases Number.ofOperand op.symbol a.val with
    | error e => rfl
    | ok n =>
      cases op with
      | add => exact congrArg Except.ok (Value.rename_number ρ n)
      | sub => exact hmap n.negate
      | _ => rfl
  · cases twoArguments op.symbol args with
    | error e => rfl
    | ok ab =>
      cases hx : Number.ofOperand op.symbol ab.1 with
      | error e => simp [hx, bind, Except.bind, Except.map]
      | ok x =>
        cases hy : Number.ofOperand op.symbol ab.2 with
        | error e => simp [hx, hy, bind, Except.bind, Except.map]
        | ok y => simpa [hx, hy, bind, Except.bind] using hmap (Number.binary op x y)

theorem arithmetic_rename (op : Arithmetic) :
    arithmetic op (args.map (Named.map (Value.rename ρ))) =
      (arithmetic op args).map (Value.rename ρ) := by
  rw [arithmetic_plain]
  rcases args with _ | ⟨a, _ | ⟨b, _ | ⟨c, rest⟩⟩⟩ <;>
    simp [arithmetic, twoArguments, expects, bind, Except.bind]

theorem order_rename (op : Order) :
    order op (args.map (Named.map (Value.rename ρ))) = (order op args).map (Value.rename ρ) := by
  simp only [order, twoArguments_rename]
  cases twoArguments op.symbol args with
  | error e => rfl
  | ok ab =>
    simp only [Except.map, Prod.map, bind, Except.bind, ordering_rename]
    cases ordering op.symbol ab.1 ab.2 <;> rfl

theorem equal_rename (op : String) :
    equal op (args.map (Named.map (Value.rename ρ))) = equal op args := by
  simp only [equal, twoArguments_rename]
  cases twoArguments op args with
  | error e => rfl
  | ok ab => exact congrArg Except.ok (equalValues_rename ρ ab.1 ab.2)

theorem logic_rename (op : String) (combine : Bool → Bool → Bool) :
    logic op combine (args.map (Named.map (Value.rename ρ))) =
      (logic op combine args).map (Value.rename ρ) := by
  simp only [logic, twoArguments_rename]
  cases twoArguments op args with
  | error e => rfl
  | ok ab =>
    simp only [Except.map, Prod.map, bind, Except.bind, truth_rename]
    cases truth op ab.1 with
    | error e => rfl
    | ok x => cases truth op ab.2 <;> rfl

theorem negation_rename :
    negation (args.map (Named.map (Value.rename ρ))) = (negation args).map (Value.rename ρ) := by
  simp only [negation, oneArgument_rename]
  cases oneArgument "!" args with
  | error e => rfl
  | ok v =>
    simp only [Except.map, bind, Except.bind, truth_rename]
    cases truth "!" v <;> rfl

theorem Op.run_rename {host : String → List Item → World → Except Error Value × World}
    (hhost : Host.BuiltinsRename host ρ) (op : Op) (w : World) :
    op.run host (args.map (Named.map (Value.rename ρ))) w =
      ((op.run host args w).1.map (Value.rename ρ), (op.run host args w).2) := by
  have hequal : ∀ (x : Except Error Bool) (f : Bool → Bool),
      (x.map fun b => Value.bool (f b)) =
        (x.map fun b => Value.bool (f b)).map (Value.rename ρ) := by
    intro x f
    cases x <;> rfl
  cases op with
  | arithmetic op => simp only [run, arithmetic_rename]
  | order op => simp only [run, order_rename]
  | equal =>
    simp only [run, equal_rename]
    exact congrArg (·, w) (hequal _ fun b => b)
  | notEqual =>
    simp only [run, equal_rename]
    exact congrArg (·, w) (hequal _ (!·))
  | not => simp only [run, negation_rename]
  | and | or => simp only [run, logic_rename]
  | list => simp [run, Except.map]
  | length =>
    simp only [run, oneArgument_rename]
    cases oneArgument "length" args <;> simp [Except.map, Value.rename]
  | identity => simp only [run, oneArgument_rename]
  | host name => exact hhost name args w

end Builtin

end

end Quotation
