import Quotation.Source.Grammar.Path

namespace Quotation.Source.Grammar

open Rule

variable (g : Grammar)

def beginsParameters (ts : List Token) : Bool :=
  let second := Peek.next ts
  let third := Peek.next second
  Peek.mark "<" ts &&
    (Peek.mark ">" second || Peek.mark "#" second || Peek.word "const" second ||
      ((Peek.label second || Peek.name second) &&
        (Peek.mark ">" third || Peek.mark "," third || Peek.mark "=" third || beginsColon third)))

def optionalBounds (stop : List Token → Bool) (bound : Rule Unit) : Rule Unit := do
  if ← peek (Peek.mark ":") then
    let (any, text) ← held do
      mark ":"
      let fuel ← remaining
      boundsUntil stop bound (fuel + 1)
    if any then write text

def endsLifetimeBounds (ts : List Token) : Bool :=
  Peek.atEnd ts || Peek.mark "," ts || Peek.mark ">" ts

def endsTypeBounds (ts : List Token) : Bool := endsLifetimeBounds ts || Peek.mark "=" ts

def constParameter : Rule Unit := do
  word "const"
  let _ ← name
  mark ":"
  let _ ← g.type true
  whenNext (Peek.mark "=") do
    mark "="
    g.constantArgument

def typeParameter : Rule Unit := do
  let _ ← name
  optionalBounds endsTypeBounds g.declaredBound
  whenNext (Peek.mark "=") do
    mark "="
    let _ ← g.type true

def bareParameter : Rule Bool := do
  if ← peek Peek.label then
    label
    optionalBounds endsLifetimeBounds label
    return true
  else
    if ← peek (Peek.word "const") then g.constParameter else g.typeParameter
    return false

def parameter : Rule Bool := do
  g.attributes
  g.bareParameter

def itemParameter : Rule Bool := do
  g.attributes
  if ← peek (Peek.word "_") then
    word "_"
    return false
  else g.bareParameter

def generics : Rule Bool := do
  if ← peek (Peek.mark "<") then
    let (any, text) ← held (angleList g.itemParameter)
    if any then write text
    return true
  else return false

def binder : Rule Unit := do
  word "for"
  mark "<"
  let fuel ← remaining
  let _ ← separated (Peek.mark ">") g.parameter (fuel + 1)
  mark ">"

def endsConditions (ts : List Token) : Bool :=
  Peek.atEnd ts || Peek.opening .brace ts || Peek.mark "," ts || Peek.mark ";" ts ||
    beginsColon ts || Peek.mark "=" ts

def condition : Rule Unit := do
  let fuel ← remaining
  if ← peek fun ts => Peek.label ts && Peek.mark ":" (Peek.next ts) then
    label
    mark ":"
    let _ ← boundsUntil (fun ts => endsConditions ts || Peek.mark ":" ts) label (fuel + 1)
  else
    whenNext (Peek.word "for") g.binder
    let _ ← g.type true
    mark ":"
    let _ ← boundsUntil endsConditions g.declaredBound (fuel + 1)

def conditions : (fuel : Nat) → Rule Bool
  | 0 => reject
  | fuel + 1 => do
    if ← peek endsConditions then return false
    g.condition
    if ← peek (Peek.mark ",") then
      mark ","
      let _ ← conditions fuel
    return true

def whereClause : Rule Bool := do
  if ← peek (Peek.word "where") then
    let (any, text) ← held do
      word "where"
      if ← peek beginsParameters then reject
      let fuel ← remaining
      g.conditions (fuel + 1)
    if any then write text
    return true
  else return false

end Quotation.Source.Grammar
