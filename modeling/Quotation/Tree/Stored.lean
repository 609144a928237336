import Quotation.Tree.Markers

/-! Trees as they are stored. A call keeps beside its head and its arguments whether a marker is
below it, so that the question takes no search; a pairlist keeps nothing and asks its slots. The
stored bit is worked out once, when the call is made, and equality compares it with the rest. -/

namespace Quotation.Stored

mutual

inductive Value
  | null
  | bool (b : Bool)
  | int (n : Int64)
  | float (x : Float)
  | str (s : String)
  | list (items : List (Named Value))
  | tree (t : Tree)
  | capture (c : Capture Tree)
  | closure (c : Closure Tree)
  | builtin (b : Builtin)
  | special (s : Special)
  | external (x : External)

inductive Tree
  | literal (v : Value)
  | reference (name : String)
  | call (head : Tree) (args : List (Named Tree)) (marked : Bool)
  | pairlist (args : List (Named Tree))
  | unquote (operand : Tree)
  | splice (operand : Tree)
  | define (name value : Tree)

end

abbrev Slot := Named Tree

abbrev Item := Named Value

def Tree.marker? : Tree → Option Marker.Kind
  | .unquote _ => some .unquote
  | .splice _ => some .splice
  | .define _ _ => some .define
  | _ => none

def Tree.isMarker (t : Tree) : Bool := t.marker?.isSome

def Tree.children : Tree → List Tree
  | .literal _ => []
  | .reference _ => []
  | .call head args _ => head :: args.map Named.val
  | .pairlist args => args.map Named.val
  | .unquote e => [e]
  | .splice e => [e]
  | .define n v => [n, v]

mutual

def Tree.hasMarkers : Tree → Bool
  | .literal _ => false
  | .reference _ => false
  | .call _ _ marked => marked
  | .pairlist args => Slot.anyMarkers args
  | .unquote _ => true
  | .splice _ => true
  | .define _ _ => true
termination_by structural t => t

def Slot.anyMarkers : List Slot → Bool
  | [] => false
  | ⟨_, t⟩ :: rest => t.hasMarkers || Slot.anyMarkers rest
termination_by structural l => l

end

def Tree.bit? : Tree → Option Bool
  | .call _ _ marked => some marked
  | _ => none

/-- A call as it is made: nothing else sets the bit. -/
def Tree.ofCall (head : Tree) (args : List Slot) : Tree :=
  .call head args (head.hasMarkers || Slot.anyMarkers args)

mutual

def Tree.firstMarker? : Tree → Option Tree
  | .literal _ => none
  | .reference _ => none
  | .call head args marked =>
    if marked then head.firstMarker?.or (Slot.firstMarker? args) else none
  | .pairlist args => if Slot.anyMarkers args then Slot.firstMarker? args else none
  | .unquote e => some (.unquote e)
  | .splice e => some (.splice e)
  | .define n v => some (.define n v)
termination_by structural t => t

def Slot.firstMarker? : List Slot → Option Tree
  | [] => none
  | ⟨_, t⟩ :: rest => t.firstMarker?.or (Slot.firstMarker? rest)
termination_by structural l => l

end

mutual

/-- Equality part by part, the bit of a call among its parts. -/
def Value.beq : Value → Value → Bool
  | .null, .null => true
  | .bool a, .bool b => a == b
  | .int a, .int b => a == b
  | .float a, .float b => a == b
  | .str a, .str b => a == b
  | .list a, .list b => Item.beqList a b
  | .tree a, .tree b => a.beq b
  | .capture ⟨a, e⟩, .capture ⟨b, f⟩ => a.beq b && e == f
  | .closure a, .closure b => a.id == b.id
  | .builtin a, .builtin b => a.id == b.id
  | .special a, .special b => a.id == b.id
  | .external a, .external b => a.id == b.id
  | _, _ => false
termination_by structural v => v

def Item.beqList : List Item → List Item → Bool
  | [], [] => true
  | ⟨n, v⟩ :: a, ⟨m, w⟩ :: b => n == m && v.beq w && Item.beqList a b
  | _, _ => false
termination_by structural l => l

def Tree.beq : Tree → Tree → Bool
  | .literal a, .literal b => a.beq b
  | .reference a, .reference b => a == b
  | .call h a x, .call k b y => h.beq k && Slot.beqList a b && x == y
  | .pairlist a, .pairlist b => Slot.beqList a b
  | .unquote a, .unquote b => a.beq b
  | .splice a, .splice b => a.beq b
  | .define a v, .define b w => a.beq b && v.beq w
  | _, _ => false
termination_by structural t => t

def Slot.beqList : List Slot → List Slot → Bool
  | [], [] => true
  | ⟨n, t⟩ :: a, ⟨m, u⟩ :: b => n == m && t.beq u && Slot.beqList a b
  | _, _ => false
termination_by structural l => l

end

instance : BEq Value := ⟨Value.beq⟩

instance : BEq Tree := ⟨Tree.beq⟩

mutual

def ofValue : Quotation.Value → Value
  | .null => .null
  | .bool b => .bool b
  | .int n => .int n
  | .float x => .float x
  | .str s => .str s
  | .list items => .list (ofItems items)
  | .tree t => .tree (ofTree t)
  | .capture ⟨t, env⟩ => .capture ⟨ofTree t, env⟩
  | .closure ⟨name, formals, body, env, id⟩ =>
    .closure ⟨name, ofFormals formals, ofTree body, env, id⟩
  | .builtin b => .builtin b
  | .special s => .special s
  | .external x => .external x
termination_by structural v => v

def ofItems : List Quotation.Item → List Item
  | [] => []
  | ⟨name, v⟩ :: rest => ⟨name, ofValue v⟩ :: ofItems rest
termination_by structural l => l

def ofTree : Quotation.Tree → Tree
  | .literal v => .literal (ofValue v)
  | .reference name => .reference name
  | .call head args => .ofCall (ofTree head) (ofSlots args)
  | .pairlist args => .pairlist (ofSlots args)
  | .unquote e => .unquote (ofTree e)
  | .splice e => .splice (ofTree e)
  | .define n v => .define (ofTree n) (ofTree v)
termination_by structural t => t

def ofSlots : List Quotation.Slot → List Slot
  | [] => []
  | ⟨name, t⟩ :: rest => ⟨name, ofTree t⟩ :: ofSlots rest
termination_by structural l => l

def ofFormals : List (Formal Quotation.Tree) → List (Formal Tree)
  | [] => []
  | ⟨name, none⟩ :: rest => ⟨name, none⟩ :: ofFormals rest
  | ⟨name, some t⟩ :: rest => ⟨name, some (ofTree t)⟩ :: ofFormals rest
termination_by structural l => l

end

mutual

def Value.plain : Value → Quotation.Value
  | .null => .null
  | .bool b => .bool b
  | .int n => .int n
  | .float x => .float x
  | .str s => .str s
  | .list items => .list (Item.plainAll items)
  | .tree t => .tree t.plain
  | .capture ⟨t, env⟩ => .capture ⟨t.plain, env⟩
  | .closure ⟨name, formals, body, env, id⟩ =>
    .closure ⟨name, Formal.plainAll formals, body.plain, env, id⟩
  | .builtin b => .builtin b
  | .special s => .special s
  | .external x => .external x
termination_by structural v => v

def Item.plainAll : List Item → List Quotation.Item
  | [] => []
  | ⟨name, v⟩ :: rest => ⟨name, v.plain⟩ :: Item.plainAll rest
termination_by structural l => l

def Tree.plain : Tree → Quotation.Tree
  | .literal v => .literal v.plain
  | .reference name => .reference name
  | .call head args _ => .call head.plain (Slot.plainAll args)
  | .pairlist args => .pairlist (Slot.plainAll args)
  | .unquote e => .unquote e.plain
  | .splice e => .splice e.plain
  | .define n v => .define n.plain v.plain
termination_by structural t => t

def Slot.plainAll : List Slot → List Quotation.Slot
  | [] => []
  | ⟨name, t⟩ :: rest => ⟨name, t.plain⟩ :: Slot.plainAll rest
termination_by structural l => l

def Formal.plainAll : List (Formal Tree) → List (Formal Quotation.Tree)
  | [] => []
  | ⟨name, none⟩ :: rest => ⟨name, none⟩ :: Formal.plainAll rest
  | ⟨name, some t⟩ :: rest => ⟨name, some t.plain⟩ :: Formal.plainAll rest
termination_by structural l => l

end

end Quotation.Stored
