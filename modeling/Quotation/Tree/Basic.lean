import Quotation.Callable

/-! Syntax trees and the values they compute with. A tree is a literal, a reference, a call or a
bare argument list; while a quasiquotation is under construction it may also hold markers, the
places that substitution is to fill. Trees hold values as literals and values hold trees as
quotations, so the two types are defined together, and so is their equality: structural, except
that callables and host resources are equal only to themselves. -/

namespace Quotation

mutual

inductive Value
  | null
  | bool (b : Bool)
  | int (n : Int64)
  | float (x : Float)
  | str (s : String)
  | list (items : List (Named Value))
  | tree (t : Tree)
  | capture (c : Capture Tree)
  | closure (c : Closure Tree)
  | builtin (b : Builtin)
  | special (s : Special)
  | external (x : External)

inductive Tree
  | literal (v : Value)
  | reference (name : String)
  | call (head : Tree) (args : List (Named Tree))
  | pairlist (args : List (Named Tree))
  | unquote (operand : Tree)
  | splice (operand : Tree)
  | define (name value : Tree)

end

abbrev Slot := Named Tree

abbrev Item := Named Value

instance : Inhabited Value := ⟨.null⟩

instance : Inhabited Tree := ⟨.literal .null⟩

mutual

def Value.beq : Value → Value → Bool
  | .null, .null => true
  | .bool a, .bool b => a == b
  | .int a, .int b => a == b
  | .float a, .float b => a == b
  | .str a, .str b => a == b
  | .list a, .list b => Item.beqList a b
  | .tree a, .tree b => a.beq b
  | .capture ⟨a, e⟩, .capture ⟨b, f⟩ => a.beq b && e == f
  | .closure a, .closure b => a.id == b.id
  | .builtin a, .builtin b => a.id == b.id
  | .special a, .special b => a.id == b.id
  | .external a, .external b => a.id == b.id
  | _, _ => false
termination_by structural v => v

def Item.beqList : List Item → List Item → Bool
  | [], [] => true
  | ⟨n, v⟩ :: a, ⟨m, w⟩ :: b => n == m && v.beq w && Item.beqList a b
  | _, _ => false
termination_by structural l => l

def Tree.beq : Tree → Tree → Bool
  | .literal a, .literal b => a.beq b
  | .reference a, .reference b => a == b
  | .call h a, .call k b => h.beq k && Slot.beqList a b
  | .pairlist a, .pairlist b => Slot.beqList a b
  | .unquote a, .unquote b => a.beq b
  | .splice a, .splice b => a.beq b
  | .define a v, .define b w => a.beq b && v.beq w
  | _, _ => false
termination_by structural t => t

def Slot.beqList : List Slot → List Slot → Bool
  | [], [] => true
  | ⟨n, t⟩ :: a, ⟨m, u⟩ :: b => n == m && t.beq u && Slot.beqList a b
  | _, _ => false
termination_by structural l => l

end

instance : BEq Value := ⟨Value.beq⟩

instance : BEq Tree := ⟨Tree.beq⟩

namespace Tree

def dots : Tree := .reference dotsName

def callNamed (name : String) (args : List Tree) : Tree :=
  .call (.reference name) (args.map Named.positional)

def asReference? : Tree → Option String
  | .reference name => some name
  | _ => none

def isDots : Tree → Bool
  | .reference name => name == dotsName
  | _ => false

def callName? : Tree → Option String
  | .call head _ => head.asReference?
  | _ => none

def slots? : Tree → Option (List Slot)
  | .call _ args => some args
  | .pairlist args => some args
  | _ => none

def children : Tree → List Tree
  | .literal _ => []
  | .reference _ => []
  | .call head args => head :: args.map Named.val
  | .pairlist args => args.map Named.val
  | .unquote e => [e]
  | .splice e => [e]
  | .define n v => [n, v]

@[simp] theorem isDots_dots : dots.isDots = true := by simp [dots, isDots]

theorem isDots_iff (t : Tree) : t.isDots = true ↔ t = dots := by
  cases t <;> simp [isDots, dots]

end Tree

end Quotation
