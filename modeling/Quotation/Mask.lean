import Quotation.NameTable
import Quotation.Error
import Quotation.Value

namespace Quotation

abbrev Mask := NameTable Value

namespace Mask

def addItems : Mask → List Item → Except Error Mask
  | m, [] => .ok m
  | _, ⟨none, _⟩ :: _ => .error (.invalidName "unnamed element")
  | m, ⟨some name, v⟩ :: rest => addItems (m.insert name v) rest

def ofValue (v : Value) : Except Error Mask :=
  match v.asList? with
  | some items => addItems NameTable.empty items
  | none => .error (.notASequence v.typeName)

def find? (m : Option Mask) (name : String) : Option Value := m.bind (·.get? name)

@[simp] theorem find?_none (name : String) : find? none name = none := rfl

@[simp] theorem find?_some (m : Mask) (name : String) : find? (some m) name = m.get? name := rfl

end Mask

end Quotation
