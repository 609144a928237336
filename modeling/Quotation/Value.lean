import Quotation.Tree.Basic

namespace Quotation.Value

def typeName : Value → String
  | .null => "null"
  | .bool _ => "bool"
  | .int _ => "int"
  | .float _ => "float"
  | .str _ => "string"
  | .list _ => "list"
  | .tree _ => "node"
  | .capture _ => "capture"
  | .closure _ => "closure"
  | .builtin _ => "builtin"
  | .special _ => "special"
  | .external _ => "external"

def isNull : Value → Bool
  | .null => true
  | _ => false

def isCallable : Value → Bool
  | .closure _ => true
  | .builtin _ => true
  | .special _ => true
  | _ => false

def isSpecial : Value → Bool
  | .special _ => true
  | _ => false

mutual

def isConstant : Value → Bool
  | .null => true
  | .bool _ => true
  | .int _ => true
  | .float _ => true
  | .str _ => true
  | .list items => allConstant items
  | _ => false
termination_by structural v => v

def allConstant : List Item → Bool
  | [] => true
  | ⟨_, v⟩ :: rest => v.isConstant && allConstant rest
termination_by structural l => l

end

def asBool? : Value → Option Bool
  | .bool b => some b
  | _ => none

def asInt? : Value → Option Int64
  | .int n => some n
  | _ => none

/-- The number as a double; an integer is rounded to the nearest. -/
def asFloat? : Value → Option Float
  | .int n => some (Float.ofInt n.toInt)
  | .float x => some x
  | _ => none

def asString? : Value → Option String
  | .str s => some s
  | _ => none

def asList? : Value → Option (List Item)
  | .list items => some items
  | _ => none

def asTree? : Value → Option Tree
  | .tree t => some t
  | _ => none

def asCapture? : Value → Option (Capture Tree)
  | .capture c => some c
  | _ => none

def length : Value → Nat
  | .null => 0
  | .list items => items.length
  | .tree t => (t.slots?.map List.length).getD 1
  | _ => 1

def ofList (l : List Value) : Value := .list (l.map Named.positional)

end Quotation.Value
