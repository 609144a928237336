import Quotation.Source.Grammar.Data
import Quotation.Source.Grammar.Member

namespace Quotation.Source.Grammar

open Rule

variable (g : Grammar)

def endsSupertraits (ts : List Token) : Bool := Peek.word "where" ts || Peek.opening .brace ts

def endsAliasBounds (ts : List Token) : Bool := Peek.word "where" ts || Peek.mark ";" ts

def traitItem : Rule Unit := do
  let _ ← visibility
  let plain ← peek (Peek.word "trait")
  optionalWord "unsafe"
  optionalWord "auto"
  word "trait"
  let _ ← name
  let _ ← g.generics
  if ← peek fun ts => plain && Peek.mark "=" ts then
    mark "="
    let fuel ← remaining
    let _ ← boundsUntil endsAliasBounds g.declaredBound (fuel + 1)
    let _ ← g.whereClause
    mark ";"
  else
    optionalBounds endsSupertraits g.declaredBound
    let _ ← g.whereClause
    g.members g.traitMember

def beginsConstTrait (ts : List Token) : Bool :=
  Peek.word "const" ts || (Peek.mark "?" ts && Peek.word "const" (Peek.next ts))

def implItem : Rule Bool := do
  let visible ← visibility
  optionalWord "default"
  optionalWord "unsafe"
  word "impl"
  if ← peek beginsParameters then
    let _ ← g.generics
  let isConst ← peek beginsConstTrait
  if isConst then
    optionalMark "?"
    word "const"
  let negative ← peek fun ts => Peek.mark "!" ts && !Peek.opening .brace (Peek.next ts)
  if negative then mark "!"
  let form ← g.type true
  let ofTrait ← peek (Peek.word "for")
  if ofTrait then
    word "for"
    let _ ← g.type true
  else if negative then reject
  let _ ← g.whereClause
  g.members g.implMember
  return visible || isConst || (ofTrait && form != .name && form != .path)

def foreignItem : Rule Unit := do
  optionalWord "unsafe"
  word "extern"
  whenNext Peek.string constant
  g.members g.foreignMember

def attributedItem : Rule Bool := do
  g.attributes
  g.item

def moduleItem : Rule Unit := do
  let _ ← visibility
  optionalWord "unsafe"
  word "mod"
  one fun ts => Peek.name ts || Peek.word "try" ts
  if ← peek (Peek.mark ";") then mark ";" else g.members g.attributedItem

def normal (p : Rule Unit) : Rule Bool := do
  p
  return false

def constantItem : Rule Bool := do
  let _ ← visibility
  let form ← g.constantDefinition
  return !form.hasValue || form.isGeneric

def typeItem : Rule Bool := do
  let _ ← visibility
  let form ← g.typeDefinition .beforeDefinition
  return form.isBounded || !form.isDefined

def uncheckedItem (next : List Token) : Rule Bool :=
  if Peek.anyOf ["trait", "auto"] next then normal g.traitItem
  else if Peek.word "impl" next then g.implItem
  else if Peek.word "extern" next then normal g.foreignItem
  else normal g.moduleItem

def beginsAutoTrait (ts : List Token) : Bool :=
  Peek.word "auto" ts && Peek.word "trait" (Peek.next ts)

def beginsImpl (ts : List Token) : Bool :=
  Peek.word "impl" ts || (Peek.word "default" ts && !Peek.mark "!" (Peek.next ts))

def itemFor (ts : List Token) : Rule Bool :=
  let next := Peek.next ts
  let begins (w : String) : Bool := Peek.word w ts
  if beginsFunction false ts then g.functionItem
  else if begins "extern" then
    if Peek.word "crate" next then normal libraryItem else normal g.foreignItem
  else if begins "use" then importItem
  else if begins "static" then g.staticItem
  else if begins "const" then g.constantItem
  else if begins "unsafe" then g.uncheckedItem next
  else if begins "mod" then normal g.moduleItem
  else if begins "type" then g.typeItem
  else if begins "struct" then normal g.structItem
  else if begins "enum" then normal g.enumItem
  else if begins "union" && Peek.name next then normal g.unionItem
  else if begins "trait" || beginsAutoTrait ts then normal g.traitItem
  else if beginsImpl ts then g.implItem
  else if begins "macro" then do
    macroDefinition
    return true
  else if beginsCall ts then normal (callItem true)
  else reject

def itemOf : Rule Bool := do
  let ts ← peek afterVisibility
  g.itemFor ts

end Quotation.Source.Grammar
