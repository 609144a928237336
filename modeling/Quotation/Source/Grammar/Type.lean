import Quotation.Source.Grammar.Generics

namespace Quotation.Source.Grammar

open Rule

variable (g : Grammar)

def captures : Rule Unit := do
  word "use"
  let _ ← angleList do
    if ← peek Peek.label then
      label
      return true
    else
      one fun ts => Peek.name ts || Peek.word "Self" ts
      return false

def result (allowPlus : Bool) : Rule Unit :=
  whenNext (Peek.mark "->") do
    mark "->"
    let _ ← g.type allowPlus

def functionArguments : Rule Unit := do
  unwritten (optionalMark "::")
  let _ ← delimited .paren (commaItems (g.type true))
  g.result false

def beginsFunctionArguments (ts : List Token) : Bool :=
  Peek.opening .paren ts || (Peek.mark "::" ts && Peek.opening .paren (Peek.next (Peek.next ts)))

def constness : Rule Bool := do
  if ← peek (Peek.opening .bracket) then
    delimited .bracket (word "const")
    return true
  else if ← peek (Peek.word "const") then
    word "const"
    return true
  else return false

def traitBound (place : BoundPlace) : Rule BoundForm := do
  let bound ← peek (Peek.word "for")
  whenNext (Peek.word "for") g.binder
  let isConst ← constness
  if isConst && place == .object then reject
  if ← peek fun ts => bound && Peek.mark "?" ts then reject
  optionalMark "?"
  let p ← g.unqualifiedPath false
  whenNext (fun ts => p.endsPlain && beginsFunctionArguments ts) g.functionArguments
  return if isConst then .verbatim else .trait

def boundOf (place : BoundPlace) : Rule BoundForm :=
  verbatimWhen (· == .verbatim) do
    if ← peek Peek.label then
      label
      return .lifetime
    else if ← peek (Peek.word "use") then
      if place == .hidden then
        captures
        return .capture
      else reject
    else if ← peek (Peek.opening .paren) then delimited .paren (g.traitBound place)
    else g.traitBound place

def beginsBound (place : BoundPlace) (ts : List Token) : Bool :=
  Peek.anyWord ts || Peek.mark "::" ts || Peek.mark "?" ts || Peek.label ts ||
    Peek.opening .paren ts || (place != .object && Peek.opening .bracket ts)

def boundsUpTo (place : BoundPlace) (allowPlus : Bool) : (fuel : Nat) → Rule (List BoundForm)
  | 0 => reject
  | fuel + 1 => do
    let b ← g.bound place
    if ← peek fun ts => allowPlus && Peek.mark "+" ts then
      mark "+"
      if ← peek (beginsBound place) then
        let bs ← boundsUpTo place allowPlus fuel
        return b :: bs
    return [b]

def traitBounds (place : BoundPlace) (allowPlus : Bool) : Rule Unit := do
  let fuel ← remaining
  let bs ← g.boundsUpTo place allowPlus (fuel + 1)
  if !bs.any (fun b => b == .trait || b == .verbatim) then reject

def addedBounds : (fuel : Nat) → Rule Bool
  | 0 => return false
  | fuel + 1 => do
    if ← peek (Peek.mark "+") then
      mark "+"
      if ← peek (beginsBound .object) then
        let _ ← g.bound .object
        let _ ← addedBounds fuel
      return true
    else return false

def moreBounds : (fuel : Nat) → Rule Bool
  | 0 => return false
  | fuel + 1 => do
    if ← peek (Peek.mark "+") then
      mark "+"
      let _ ← g.bound .object
      let _ ← moreBounds fuel
      return true
    else return false

def pathType (allowPlus : Bool) (bound : Bool) (binder : List Token) : Rule TypeForm := do
  let (p, text) ← held (g.path false)
  if ← peek fun ts => p.isPlain && beginsMacro ts then
    write text
    mark "!"
    let _ ← rawGroup
    return .other
  write binder
  write text
  if p.isQualified then return .other
  else if ← peek fun ts => bound || (allowPlus && Peek.mark "+" ts) then
    let fuel ← remaining
    let added ← if allowPlus then g.addedBounds fuel else pure false
    return if added then .other else .bound
  else return if !p.isGlobal && p.segments.length == 1 then .name else .path

def functionParameter (isFirst : Bool) : Rule Unit := do
  let _ ← verbatimWhen id do
    let mutable ← peek fun ts =>
      isFirst && Peek.word "mut" ts && Peek.word "self" (Peek.next ts)
    if mutable then word "mut"
    let receiver ← peek fun ts => isFirst && Peek.word "self" ts
    let named ← peek fun ts =>
      (Peek.name ts || Peek.word "_" ts || receiver) && beginsColon (Peek.next ts)
    if named then
      let _ ← anyWord
      mark ":"
    let late ← peek fun ts =>
      isFirst && !(receiver && named) && Peek.word "mut" ts && Peek.word "self" (Peek.next ts)
    if late then
      word "mut"
      word "self"
    else if mutable && !named then word "self"
    else
      let _ ← g.type true
    return mutable || late

def beginsVariadic (ts : List Token) : Bool :=
  Peek.mark "..." ts ||
    ((Peek.name ts || Peek.word "_" ts) && Peek.mark ":" (Peek.next ts) &&
      Peek.mark "..." (Peek.next (Peek.next ts)))

def functionParameters : (fuel : Nat) → (isFirst : Bool) → Rule Unit
  | 0, _ => reject
  | fuel + 1, isFirst => do
    if ← peek Peek.atEnd then return ()
    g.attributes
    if ← peek beginsVariadic then
      whenNext Peek.anyWord do
        let _ ← anyWord
        mark ":"
      mark "..."
      optionalMark ","
    else
      g.functionParameter isFirst
      if ← peek Peek.atEnd then return ()
      mark ","
      functionParameters fuel false

def convention : Rule Unit :=
  whenNext (Peek.word "extern") do
    word "extern"
    whenNext Peek.string constant

def functionType : Rule Unit := do
  optionalWord "unsafe"
  convention
  word "fn"
  let fuel ← remaining
  delimited .paren (g.functionParameters (fuel + 1) true)
  g.result false

def beginsFunctionType (ts : List Token) : Bool := Peek.anyOf ["fn", "unsafe", "extern"] ts

def sliceType : Rule Unit := do
  let _ ← g.type true
  whenNext (Peek.mark ";") do
    mark ";"
    let _ ← g.expr true

def tupleType : Rule TypeForm := do
  if ← peek Peek.atEnd then return .other
  else if ← peek Peek.label then
    g.traitBounds .object true
    return .other
  else
    let form ← g.type true
    if ← peek (Peek.mark ",") then
      mark ","
      let _ ← commaItems (g.type true)
      return .other
    else return form

def parenType (allowPlus : Bool) : Rule TypeForm := do
  if ← peek fun ts => Peek.mark "?" (ts.drop 1) then
    let _ ← delimited .paren (g.traitBound .object)
    let fuel ← remaining
    let added ← g.moreBounds fuel
    return if added then .other else .bound
  else
    let form ← delimited .paren g.tupleType
    if allowPlus && [TypeForm.name, .path, .bound].contains form then
      let fuel ← remaining
      let _ ← g.moreBounds fuel
    return .other

def mayBeBound (ts : List Token) : Bool :=
  Peek.name ts || beginsFunctionType ts || Peek.anyOf pathWords ts

def objectType (allowPlus : Bool) : Rule TypeForm := do
  word "dyn"
  let pinned ← peek (Peek.mark "*")
  optionalMark "*"
  g.traitBounds .object allowPlus
  return if pinned then .verbatim else .other

def pointerType : Rule Unit := do
  mark "*"
  if ← peek (Peek.word "mut") then word "mut" else word "const"
  let _ ← g.type false

def referenceType : Rule Unit := do
  mark "&"
  whenNext Peek.label label
  optionalWord "mut"
  let _ ← g.type false

def plainType (allowPlus : Bool) : Rule Unit := do
  if ← peek (Peek.word "impl") then
    word "impl"
    g.traitBounds .hidden allowPlus
  else if ← peek (Peek.opening .bracket) then delimited .bracket g.sliceType
  else if ← peek (Peek.mark "*") then g.pointerType
  else if ← peek (Peek.mark "&") then g.referenceType
  else if ← peek (Peek.mark "!") then mark "!"
  else if ← peek (Peek.word "_") then word "_"
  else if ← peek Peek.label then g.traitBounds .object true
  else reject

def typeOf (allowPlus : Bool) : Rule TypeForm :=
  verbatimWhen (· == .verbatim) do
    let bound ← peek (Peek.word "for")
    let (_, binder) ← held (whenNext (Peek.word "for") g.binder)
    if ← peek fun ts => bound && !mayBeBound ts then reject
    if ← peek (Peek.opening .paren) then g.parenType allowPlus
    else if ← peek beginsFunctionType then
      write binder
      g.functionType
      return .other
    else if ← peek beginsBuiltin then
      builtin
      return .verbatim
    else if ← peek beginsPath then g.pathType allowPlus bound binder
    else if ← peek (Peek.word "dyn") then g.objectType allowPlus
    else
      g.plainType allowPlus
      return .other

end Quotation.Source.Grammar
