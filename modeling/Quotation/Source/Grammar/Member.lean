import Quotation.Source.Grammar.Definition
import Quotation.Source.Grammar.Function

namespace Quotation.Source.Grammar

open Rule

variable (g : Grammar)

def members (member : Rule Bool) : Rule Unit :=
  delimited .brace do
    g.innerAttributes
    let _ ← items (verbatimWhen id member)

def traitMember : Rule Bool := do
  g.attributes
  let visible ← visibility
  let isDefault ← peek (Peek.word "default")
  optionalWord "default"
  let verbatim := visible || isDefault
  if ← peek (beginsFunction false) then
    let _ ← g.signature false
    if ← peek (Peek.opening .brace) then g.attributedBlock else mark ";"
    return verbatim
  else if ← peek (Peek.word "const") then
    let form ← g.constantDefinition
    return verbatim || form.isGeneric
  else if ← peek (Peek.word "type") then
    let _ ← g.typeDefinition .afterDefinition
    return verbatim
  else if ← peek fun ts => !verbatim && beginsCall ts then
    callItem false
    return false
  else reject

def implMember : Rule Bool := do
  g.attributes
  let visible ← visibility
  let isDefault ← peek fun ts => Peek.word "default" ts && !Peek.mark "!" (Peek.next ts)
  if isDefault then word "default"
  if ← peek (beginsFunction false) then g.functionItem
  else if ← peek (Peek.word "const") then
    let form ← g.constantDefinition
    return !form.hasValue || form.isGeneric
  else if ← peek (Peek.word "type") then
    let form ← g.typeDefinition .afterDefinition
    return form.isBounded || !form.isDefined
  else if ← peek fun ts => !visible && !isDefault && beginsCall ts then
    callItem false
    return false
  else reject

def beginsForeignStatic (ts : List Token) : Bool :=
  Peek.word "static" ts || (Peek.anyOf ["unsafe", "safe"] ts && Peek.word "static" (Peek.next ts))

def foreignStatic : Rule Bool := do
  let qualified ← peek (Peek.anyOf ["unsafe", "safe"])
  if qualified then
    let _ ← anyWord
  word "static"
  optionalWord "mut"
  let _ ← name
  mark ":"
  let _ ← g.type true
  let valued ← g.optionalValue
  mark ";"
  return qualified || valued

def foreignMember : Rule Bool := do
  g.attributes
  let visible ← visibility
  if ← peek (beginsFunction true) then
    let isSafe ← g.signature true
    if ← peek (Peek.opening .brace) then
      g.attributedBlock
      return true
    else
      mark ";"
      return isSafe
  else if ← peek beginsForeignStatic then g.foreignStatic
  else if ← peek (Peek.word "type") then
    let form ← g.typeDefinition .either
    return form.isBounded || form.isDefined
  else if ← peek fun ts => !visible && beginsCall ts then
    callItem false
    return false
  else reject

end Quotation.Source.Grammar
