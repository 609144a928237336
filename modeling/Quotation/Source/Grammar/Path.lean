import Quotation.Source.Grammar.Basic

namespace Quotation.Source

structure Path where
  isGlobal : Bool
  isQualified : Bool
  segments : List (String × Bool)

namespace Path

def names (p : Path) : List String := p.segments.map Prod.fst

def isPlain (p : Path) : Bool := !p.isQualified && p.segments.all fun s => !s.2

def endsPlain (p : Path) : Bool := p.segments.getLast?.any fun s => !s.2

end Path

structure Entry where
  isLifetime : Bool
  tokens : List Token
  hasComma : Bool

def Entry.arrange (entries : List Entry) : List Entry :=
  entries.filter (·.isLifetime) ++ entries.filter (!·.isLifetime)

namespace Grammar

open Rule

def entries (item : Rule Bool) : (fuel : Nat) → Rule (List Entry)
  | 0 => reject
  | fuel + 1 => do
    if ← peek (Peek.mark ">") then return []
    let (isLifetime, tokens) ← held item
    if ← peek (Peek.mark ">") then return [⟨isLifetime, tokens, false⟩]
    unwritten (mark ",")
    let rest ← entries item fuel
    return ⟨isLifetime, tokens, true⟩ :: rest

def comma : List Token := Token.operator [',']

def writeEntries : (closed : Bool) → List Entry → Rule Unit
  | _, [] => return ()
  | closed, e :: rest => do
    if !closed then write comma
    write e.tokens
    if e.hasComma then write comma
    writeEntries e.hasComma rest

def angleList (item : Rule Bool) : Rule Bool := do
  mark "<"
  let fuel ← remaining
  let es ← entries item (fuel + 1)
  writeEntries true (Entry.arrange es)
  mark ">"
  return !es.isEmpty

variable (g : Grammar)

def boundsUntil (stop : List Token → Bool) (bound : Rule Unit) : (fuel : Nat) → Rule Bool
  | 0 => reject
  | fuel + 1 => do
    if ← peek stop then return false
    bound
    if ← peek (Peek.mark "+") then
      mark "+"
      let _ ← boundsUntil stop bound fuel
    return true

def declaredBound : Rule Unit := do
  let _ ← g.bound .declared

def constantArgument : Rule Unit := do
  if ← peek Peek.literal then constant
  else if ← peek Peek.name then
    let _ ← name
  else g.attributedBlock

def isConstantArgument (ts : List Token) : Bool := Peek.literal ts || Peek.opening .brace ts

def endsArgumentBounds (ts : List Token) : Bool := Peek.mark "," ts || Peek.mark ">" ts

def typeArgument : Rule Unit := do
  let form ← g.type true
  if ← peek fun ts => form == .name && Peek.mark "=" ts then
    mark "="
    if ← peek isConstantArgument then g.constantArgument
    else
      let _ ← g.type true
  else if ← peek fun ts => form == .name && Peek.mark ":" ts then
    mark ":"
    let fuel ← remaining
    let _ ← boundsUntil endsArgumentBounds g.declaredBound (fuel + 1)

def pathArgument : Rule Bool := do
  if ← peek fun ts => Peek.label ts && !Peek.mark "+" (Peek.next ts) then
    label
    return true
  else if ← peek isConstantArgument then
    g.constantArgument
    return false
  else
    g.typeArgument
    return false

def pathArguments : Rule Unit := do
  optionalMark "::"
  let _ ← angleList g.pathArgument

def bareWords : List String := ["super", "self", "crate", "try"]

def beginsArguments (inExpr : Bool) (ts : List Token) : Bool :=
  (!inExpr && Peek.mark "<" ts && !Peek.mark "<=" ts && !Peek.mark "<<=" ts) ||
    (Peek.mark "::" ts && Peek.mark "<" (Peek.next (Peek.next ts)))

def segment (inExpr : Bool) : Rule (String × Bool) := do
  if ← peek (Peek.anyOf bareWords) then
    let n ← anyWord
    return (n, false)
  else
    let n ← if ← peek (Peek.word "Self") then anyWord else name
    let generic ← peek (beginsArguments inExpr)
    if generic then g.pathArguments
    return (n, generic)

def segments (inExpr : Bool) : (fuel : Nat) → Rule (List (String × Bool))
  | 0 => return []
  | fuel + 1 => do
    if ← peek fun ts => Peek.mark "::" ts && !Peek.opening .paren (Peek.next (Peek.next ts)) then
      mark "::"
      let s ← g.segment inExpr
      let rest ← segments inExpr fuel
      return s :: rest
    else return []

def segmentsAfter (inExpr : Bool) (first : String × Bool) : Rule (List (String × Bool)) := do
  let fuel ← remaining
  let rest ← g.segments inExpr fuel
  return first :: rest

def unqualifiedPath (inExpr : Bool) : Rule Path := do
  let isGlobal ← peek (Peek.mark "::")
  optionalMark "::"
  let first ← g.segment inExpr
  let segments ← g.segmentsAfter inExpr first
  return ⟨isGlobal, false, segments⟩

def path (inExpr : Bool) : Rule Path := do
  if ← peek (Peek.mark "<") then
    mark "<"
    let _ ← g.type true
    whenNext (Peek.word "as") do
      word "as"
      let _ ← g.unqualifiedPath false
    mark ">"
    mark "::"
    let first ← g.segment inExpr
    let segments ← g.segmentsAfter inExpr first
    return ⟨false, true, segments⟩
  else g.unqualifiedPath inExpr

def beginsPath (ts : List Token) : Bool :=
  Peek.name ts || Peek.mark "::" ts || Peek.mark "<" ts || Peek.anyOf pathWords ts

end Grammar

end Quotation.Source
