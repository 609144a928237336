import Quotation.Source.Grammar.Pattern
import Quotation.Source.Grammar.Visibility

namespace Quotation.Source.Grammar

open Rule

variable (g : Grammar)

def receiver : Rule Unit := do
  let borrowed ← peek (Peek.mark "&")
  if borrowed then
    mark "&"
    whenNext Peek.label label
  optionalWord "mut"
  word "self"
  whenNext (fun ts => !borrowed && Peek.mark ":" ts) do
    mark ":"
    let _ ← g.type true

def patternParameter : Rule Bool := do
  if ← peek fun ts => Peek.name ts && Peek.mark "<" (Peek.next ts) then
    write [.mark ':' false, .word "_"]
    let _ ← g.type true
    return false
  else
    let _ ← g.pattern
    mark ":"
    if ← peek (Peek.mark "...") then
      mark "..."
      return true
    else
      let _ ← g.type true
      return false

def valueParameter (isFirst : Bool) : Rule Bool := do
  match ← attempt g.receiver with
  | some () => if isFirst then return false else reject
  | none => g.patternParameter

def valueParameters : (fuel : Nat) → (isFirst : Bool) → Rule Unit
  | 0, _ => reject
  | fuel + 1, isFirst => do
    if ← peek Peek.atEnd then return ()
    g.attributes
    if ← peek (Peek.mark "...") then
      mark "..."
      optionalMark ","
    else if ← g.valueParameter isFirst then optionalMark ","
    else
      if ← peek Peek.atEnd then return ()
      mark ","
      valueParameters fuel false

def skip (q : List Token → Bool) (ts : List Token) : List Token :=
  if q ts then Peek.next ts else ts

def beginsFunction (allowSafe : Bool) (ts : List Token) : Bool :=
  let ts := skip (Peek.word "async") (skip (Peek.word "const") ts)
  let ts := skip (fun ts => (allowSafe && Peek.word "safe" ts) || Peek.word "unsafe" ts) ts
  let ts := if Peek.word "extern" ts then skip Peek.string (Peek.next ts) else ts
  Peek.word "fn" ts

def signature (allowSafe : Bool) : Rule Bool := do
  optionalWord "const"
  optionalWord "async"
  let isSafe ← peek fun ts => allowSafe && Peek.word "safe" ts
  if isSafe then word "safe" else optionalWord "unsafe"
  convention
  word "fn"
  let _ ← name
  let _ ← g.generics
  let fuel ← remaining
  delimited .paren (g.valueParameters (fuel + 1) true)
  g.result true
  let _ ← g.whereClause
  return isSafe

def functionItem : Rule Bool := do
  let _ ← visibility
  let _ ← g.signature false
  if ← peek (Peek.mark ";") then
    mark ";"
    return true
  else
    g.attributedBlock
    return false

end Quotation.Source.Grammar
