import Quotation.Source.Grammar.Field
import Quotation.Source.Grammar.Type

namespace Quotation.Source.Grammar

open Rule

variable (g : Grammar)

def beginsAlternative (ts : List Token) : Bool :=
  Peek.mark "|" ts && !Peek.mark "||" ts && !Peek.mark "|=" ts

def alternatives : Rule PatternForm := do
  let leading ← peek (Peek.mark "|")
  optionalMark "|"
  let form ← g.pattern
  if ← peek beginsAlternative then
    mark "|"
    let fuel ← remaining
    joined beginsAlternative (mark "|") (do let _ ← g.pattern) (fuel + 1)
    return .other
  else return if leading then .other else form

def alternative : Rule Unit := do
  let _ ← g.alternatives

def element : Rule Unit := do
  if (← g.alternatives) == .openRange then reject

def lacksBound (ts : List Token) : Bool :=
  Peek.atEnd ts || Peek.mark "|" ts || Peek.mark "=" ts || beginsColon ts || Peek.mark "," ts ||
    Peek.mark ";" ts || Peek.word "if" ts

def patternBound : Rule Bool := do
  if ← peek lacksBound then return false
  if ← peek Peek.literal then constant
  else if ← peek beginsPath then
    let _ ← g.path true
  else
    word "const"
    g.attributedBlock
  return true

def patternRange (hasStart : Bool) : Rule PatternForm := do
  let obsolete ← peek (Peek.mark "...")
  let closed ← peek fun ts => obsolete || Peek.mark "..=" ts
  if obsolete then
    if !hasStart then reject
    unwritten (mark "...")
    write (Token.operator ['.', '.', '=']).reverse
  else if closed then mark "..="
  else mark ".."
  let hasEnd ← g.patternBound
  if closed && !hasEnd then reject
  return if hasStart && hasEnd then .range else if hasStart || hasEnd then .openRange else .other

def optionalRange : Rule PatternForm := do
  if ← peek (Peek.mark "..") then g.patternRange true else return .other

def boundField : Rule PatternForm := do
  let boxed ← peek (Peek.word "box")
  optionalWord "box"
  optionalWord "ref"
  optionalWord "mut"
  let _ ← name
  return if boxed then .verbatim else .other

def fieldPattern : Rule Unit := do
  if ← peek (Peek.anyOf ["box", "ref", "mut"]) then
    let _ ← verbatimWhen (· == .verbatim) boundField
  else
    let named ← fieldName
    if (← peek (Peek.mark ":")) || !named then
      mark ":"
      g.alternative

def fieldPatterns : (fuel : Nat) → Rule Unit
  | 0 => reject
  | fuel + 1 => do
    if ← peek Peek.atEnd then return ()
    g.attributes
    if ← peek (Peek.mark "..") then mark ".."
    else
      g.fieldPattern
      if ← peek Peek.atEnd then return ()
      mark ","
      fieldPatterns fuel

def pathPattern : Rule PatternForm := do
  let p ← g.path true
  if ← peek fun ts => p.isPlain && beginsMacro ts then
    mark "!"
    let _ ← rawGroup
    return .other
  else if ← peek (Peek.opening .brace) then
    let fuel ← remaining
    delimited .brace (g.fieldPatterns (fuel + 1))
    return .other
  else if ← peek (Peek.opening .paren) then
    let _ ← delimited .paren (commaItems g.alternative)
    return .other
  else g.optionalRange

def beginsPathPattern (ts : List Token) : Bool :=
  let next := Peek.next ts
  (Peek.name ts && (Peek.mark "::" next || Peek.mark "!" next || Peek.opening .brace next ||
    Peek.opening .paren next || Peek.mark ".." next)) ||
    (Peek.word "self" ts && Peek.mark "::" next) || Peek.mark "::" ts || Peek.mark "<" ts ||
    Peek.anyOf ["Self", "super", "crate"] ts

def namePattern : Rule Unit := do
  optionalWord "ref"
  optionalWord "mut"
  if ← peek (Peek.word "self") then word "self"
  else
    let _ ← name
  whenNext (Peek.mark "@") do
    mark "@"
    let _ ← g.pattern

def referencePattern : Rule Unit := do
  mark "&"
  optionalWord "mut"
  let _ ← g.pattern

def plainPattern : Rule Unit := do
  if ← peek (Peek.word "_") then word "_"
  else if ← peek fun ts => Peek.name ts || Peek.anyOf ["ref", "mut", "self"] ts then g.namePattern
  else if ← peek (Peek.mark "&") then g.referencePattern
  else if ← peek (Peek.opening .paren) then
    let _ ← delimited .paren (commaItems g.alternative)
  else
    let _ ← delimited .bracket (commaItems g.element)

def patternOf : Rule PatternForm :=
  verbatimWhen (· == .verbatim) do
    if ← peek beginsPathPattern then g.pathPattern
    else if ← peek (Peek.word "box") then
      word "box"
      let _ ← g.pattern
      return .verbatim
    else if ← peek fun ts => Peek.literal ts || Peek.word "const" ts then
      let _ ← g.patternBound
      g.optionalRange
    else if ← peek (Peek.mark "..") then g.patternRange false
    else
      g.plainPattern
      return .other

end Quotation.Source.Grammar
