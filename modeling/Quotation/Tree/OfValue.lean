import Quotation.Error
import Quotation.Value

namespace Quotation

def Error.unrepresentableValue (v : Value) (index : Option Nat) : Error :=
  .unrepresentable v.typeName index

mutual

def Value.isRepresentable : Value → Bool
  | .external _ => false
  | .tree t => !t.hasMarkers
  | .list items => Item.allRepresentable items
  | _ => true
termination_by structural v => v

def Item.allRepresentable : List Item → Bool
  | [] => true
  | ⟨_, v⟩ :: rest => v.isRepresentable && Item.allRepresentable rest
termination_by structural l => l

end

def Item.firstUnrepresentable? : Nat → List Item → Option (Nat × Value)
  | _, [] => none
  | index, ⟨_, v⟩ :: rest =>
    if v.isRepresentable then Item.firstUnrepresentable? (index + 1) rest else some (index, v)

def Tree.ofValue (v : Value) : Except Error Tree :=
  match v with
  | .tree t => .ok t
  | .capture c => .ok c.tree
  | .external _ => .error (.unrepresentableValue v none)
  | .list items =>
    match Item.firstUnrepresentable? 0 items with
    | some (index, item) => .error (.unrepresentableValue item (some index))
    | none => .ok (.literal v)
  | _ => .ok (.literal v)

def Slot.ofItems : Nat → List Item → Except Error (List Slot)
  | _, [] => .ok []
  | index, ⟨name, v⟩ :: rest =>
    match Tree.ofValue v with
    | .error _ => .error (.unrepresentableValue v (some index))
    | .ok t => (Slot.ofItems (index + 1) rest).map (⟨name, t⟩ :: ·)

def Slot.ofSequence (v : Value) : Except Error (List Slot) :=
  match v with
  | .null => .ok []
  | .list items => Slot.ofItems 0 items
  | .tree (.pairlist args) => .ok args
  | v => .error (.notASequence v.typeName)

def Value.asName? : Value → Option String
  | .str s => some s
  | .list [item] => item.val.asString?
  | .tree t => t.asReference?
  | .capture c => c.tree.asReference?
  | _ => none

def Value.toName (v : Value) : Except Error String :=
  match v.asName? with
  | some name => .ok name
  | none => .error (.invalidName v.typeName)

end Quotation
