import Quotation.Source.Grammar.Type

namespace Quotation.Source

def operator? (ts : List Token) : Option (String × Precedence) :=
  operators.find? fun e => Peek.mark e.1 ts

namespace Grammar

open Rule

variable (g : Grammar)

def endsRange (allowStruct : Bool) (ts : List Token) : Bool :=
  Peek.atEnd ts || beginsPoint ts ||
    (!allowStruct && Peek.opening .brace ts) || Peek.word "as" ts ||
    [",", ";", "?", "=>", "=", "+", "/", "%", "^", ">", "<=", "!=", "-=", "*=", "&=", "|=",
      "<<="].any fun m => Peek.mark m ts

def rangeMark : Rule Bool := do
  if ← peek (Peek.mark "..=") then
    mark "..="
    return true
  else if ← peek (Peek.mark "...") then reject
  else
    mark ".."
    return false

def continuesCast (ts : List Token) : Bool :=
  beginsPoint ts || Peek.mark "?" ts || Peek.opening .bracket ts ||
    Peek.opening .paren ts

def beginsAssignment (ts : List Token) : Bool := Peek.mark "=" ts && !Peek.mark "=>" ts

def climb (allowStruct : Bool) : (fuel : Nat) → (start floor : Nat) → Expr → Rule Expr
  | 0, _, _, _ => reject
  | fuel + 1, start, floor, lhs => do
    let operand (floor : Nat) : Rule Expr := do
      let start ← place
      let e ← g.unary allowStruct
      climb allowStruct fuel start floor e
    if lhs.isRange then return lhs
    match ← peek operator? with
    | some (op, p) =>
      if p.rank < floor then return lhs
      else if p = .compare && lhs.isComparison then reject
      else
        if p = .assign && lhs.isAssignment then enclose start
        mark op
        let rhs ← operand p.rightFloor
        climb allowStruct fuel start floor (.binary op lhs rhs)
    | none =>
      if ← peek fun ts => floor ≤ Precedence.assign.rank && beginsAssignment ts then
        let target ← writtenSince start
        if lhs.isAssignment then enclose start
        mark "="
        let rhs ← operand Precedence.assign.rightFloor
        let text ← writtenSince start
        climb allowStruct fuel start floor (.assign lhs rhs target text)
      else if ← peek fun ts => floor ≤ Precedence.range.rank && Peek.mark ".." ts then
        let closed ← rangeMark
        if (← peek (endsRange allowStruct)) && !closed then pure ()
        else
          let _ ← operand Precedence.range.rightFloor
        let text ← writtenSince start
        climb allowStruct fuel start floor (.other .range text)
      else if ← peek fun ts => floor ≤ Precedence.cast.rank && Peek.word "as" ts then
        word "as"
        let _ ← g.type false
        if ← peek continuesCast then reject
        let text ← writtenSince start
        climb allowStruct fuel start floor (.other .plain text)
      else return lhs

def climbFrom (allowStruct : Bool) (start floor : Nat) (lhs : Expr) : Rule Expr := do
  let fuel ← remaining
  g.climb allowStruct (fuel + 1) start floor lhs

def operand (allowStruct : Bool) (floor : Nat) : Rule Expr := do
  let start ← place
  let e ← g.unary allowStruct
  g.climbFrom allowStruct start floor e

end Grammar

end Quotation.Source
