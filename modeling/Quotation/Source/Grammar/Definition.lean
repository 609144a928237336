import Quotation.Source.Grammar.Generics
import Quotation.Source.Grammar.Import

namespace Quotation.Source.Grammar

open Rule

variable (g : Grammar)

def optionalValue : Rule Bool := do
  if ← peek (Peek.mark "=") then
    mark "="
    let _ ← g.expr true
    return true
  else return false

def staticItem : Rule Bool := do
  let _ ← visibility
  word "static"
  optionalWord "mut"
  let _ ← name
  let typed ← peek fun ts => !Peek.mark "=" ts
  if typed then
    mark ":"
    let _ ← g.type true
  let valued ← g.optionalValue
  mark ";"
  return !(typed && valued)

structure ConstantForm where
  hasValue : Bool
  isGeneric : Bool

def constantDefinition : Rule ConstantForm := do
  word "const"
  one orBlank
  let parametric ← g.generics
  mark ":"
  let _ ← g.type true
  let valued ← g.optionalValue
  let conditioned ← g.whereClause
  mark ";"
  return ⟨valued, parametric || conditioned⟩

inductive ConditionPlace
  | beforeDefinition
  | afterDefinition
  | either
  deriving DecidableEq

structure TypeDefinitionForm where
  isBounded : Bool
  isDefined : Bool

def endsDefinitionBounds (ts : List Token) : Bool :=
  Peek.word "where" ts || Peek.mark "=" ts || Peek.mark ";" ts

def typeDefinition (place : ConditionPlace) : Rule TypeDefinitionForm := do
  word "type"
  let _ ← name
  let _ ← g.generics
  let bounded ← peek (Peek.mark ":")
  optionalBounds endsDefinitionBounds g.declaredBound
  let conditioned ← if place == .afterDefinition then pure false else g.whereClause
  let defined ← peek (Peek.mark "=")
  if defined then
    mark "="
    let _ ← g.type true
  if place != .beforeDefinition && !conditioned then
    let _ ← g.whereClause
  mark ";"
  return ⟨bounded, defined⟩

def beginsCall (ts : List Token) : Bool :=
  Peek.name ts || Peek.anyOf ["self", "super", "crate"] ts || Peek.mark "::" ts

def callItem (mayName : Bool) : Rule Unit := do
  names
  mark "!"
  if ← peek fun ts => mayName && (Peek.name ts || Peek.word "try" ts) then
    let _ ← anyWord
  let inBraces ← rawGroup
  if !inBraces then mark ";"

def macroDefinition : Rule Unit := do
  let _ ← visibility
  word "macro"
  let _ ← name
  whenNext (Peek.opening .paren) do
    let _ ← rawGroup
  if ← peek (Peek.opening .brace) then
    let _ ← rawGroup
  else reject

end Quotation.Source.Grammar
