import Quotation.Source.Expr
import Quotation.Source.Rule

/-! The rules that the other rules of the grammar call on, and what they share: paths of names,
attributes and blocks. From the call of a rule to the second call inside it a token is read, so
that the depth of calls is at most twice the number of tokens. -/

namespace Quotation.Source

inductive TypeForm
  | name
  | path
  | bound
  | verbatim
  | other
  deriving DecidableEq, Repr

inductive BoundForm
  | lifetime
  | capture
  | trait
  | verbatim
  deriving DecidableEq, Repr

inductive BoundPlace
  | hidden
  | object
  | declared
  deriving DecidableEq, Repr

inductive PatternForm
  | openRange
  | range
  | verbatim
  | other
  deriving DecidableEq, Repr

structure Grammar where
  /-- An expression. Braces after a path are fields only where they cannot be a block. -/
  expr : (allowStruct : Bool) → Rule Expr
  unary : (allowStruct : Bool) → Rule Expr
  type : (allowPlus : Bool) → Rule TypeForm
  bound : BoundPlace → Rule BoundForm
  pattern : Rule PatternForm
  armBody : Rule Expr
  statements : Rule Unit
  item : Rule Bool

namespace Grammar

open Rule

def exhausted : Grammar :=
  ⟨fun _ => reject, fun _ => reject, fun _ => reject, fun _ => reject, reject, reject, reject,
    reject⟩

def pathWords : List String := ["super", "self", "Self", "crate"]

def beginsNames (ts : List Token) : Bool := Peek.name ts || Peek.anyOf pathWords ts

def names : Rule Unit := do
  optionalMark "::"
  let fuel ← remaining
  joined (Peek.mark "::") (mark "::") (one beginsNames) (fuel + 1)

def afterNames? : List Token → Option (List Token)
  | .word w :: .mark ':' true :: .mark ':' _ :: rest =>
    if beginsNames [.word w] then afterNames? rest else none
  | .word w :: rest => if beginsNames [.word w] then some rest else none
  | _ => none

def afterPath? : List Token → Option (List Token)
  | .mark ':' true :: .mark ':' _ :: rest => afterNames? rest
  | ts => afterNames? ts

def beginsMacro (ts : List Token) : Bool := Peek.mark "!" ts && !Peek.mark "!=" ts

def beginsColon (ts : List Token) : Bool := Peek.mark ":" ts && !Peek.mark "::" ts

def beginsPoint (ts : List Token) : Bool := Peek.mark "." ts && !Peek.mark ".." ts

variable (g : Grammar)

def attributeBody : Rule Unit := do
  if ← peek (Peek.word "unsafe") then word "unsafe" else names
  if ← peek Peek.anyOpening then
    let _ ← rawGroup
  else if ← peek (Peek.mark "=") then
    mark "="
    if ← peek fun ts => Peek.mark "#" ts && Peek.opening .bracket (Peek.next ts) then reject
    let _ ← g.expr true

def outerAttributes : (fuel : Nat) → Rule Unit
  | 0 => return ()
  | fuel + 1 => do
    if ← peek (Peek.mark "#") then
      mark "#"
      delimited .bracket g.attributeBody
      outerAttributes fuel

def attributes : Rule Unit := do
  let fuel ← remaining
  g.outerAttributes fuel

def beginsInnerAttribute (ts : List Token) : Bool :=
  Peek.mark "#" ts && Peek.mark "!" (Peek.next ts)

def innerAttributesUpTo : (fuel : Nat) → Rule Unit
  | 0 => return ()
  | fuel + 1 => do
    if ← peek beginsInnerAttribute then
      mark "#"
      mark "!"
      delimited .bracket g.attributeBody
      innerAttributesUpTo fuel

def innerAttributes : Rule Unit := do
  let fuel ← remaining
  g.innerAttributesUpTo fuel

def block : Rule Unit := delimited .brace g.statements

def attributedBlock : Rule Unit :=
  delimited .brace do
    g.innerAttributes
    g.statements

def beginsBuiltin (ts : List Token) : Bool :=
  Peek.word "builtin" ts && Peek.mark "#" (Peek.next ts)

def builtin : Rule Unit := do
  word "builtin"
  mark "#"
  let _ ← name
  if ← peek (Peek.opening .paren) then
    let _ ← rawGroup
  else reject

end Grammar

end Quotation.Source
