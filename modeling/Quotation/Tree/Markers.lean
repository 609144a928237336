import Quotation.Tree.Basic

namespace Quotation

namespace Marker

inductive Kind
  | unquote
  | splice
  | define
  deriving DecidableEq, Repr

def Kind.symbol : Kind → String
  | .unquote => "!!"
  | .splice => "!!!"
  | .define => ":="

end Marker

inductive Marker
  | unquote (operand : Tree)
  | splice (operand : Tree)
  | define (name value : Tree)

namespace Marker

def kind : Marker → Kind
  | .unquote _ => .unquote
  | .splice _ => .splice
  | .define _ _ => .define

def toTree : Marker → Tree
  | .unquote e => .unquote e
  | .splice e => .splice e
  | .define n v => .define n v

end Marker

def Tree.asMarker? : Tree → Option Marker
  | .unquote e => some (.unquote e)
  | .splice e => some (.splice e)
  | .define n v => some (.define n v)
  | _ => none

mutual

def Tree.hasMarkers : Tree → Bool
  | .literal _ => false
  | .reference _ => false
  | .call head args => head.hasMarkers || Slot.anyMarkers args
  | .pairlist args => Slot.anyMarkers args
  | .unquote _ => true
  | .splice _ => true
  | .define _ _ => true
termination_by structural t => t

def Slot.anyMarkers : List Slot → Bool
  | [] => false
  | ⟨_, t⟩ :: rest => t.hasMarkers || Slot.anyMarkers rest
termination_by structural l => l

end

theorem Slot.anyMarkers_eq_any (l : List Slot) :
    Slot.anyMarkers l = l.any fun s => s.val.hasMarkers := by
  induction l with
  | nil => rfl
  | cons s rest ih => simp [Slot.anyMarkers, ih]

end Quotation
