import Quotation.Source.Grammar.Statement

namespace Quotation.Source.Grammar

open Rule

variable (g : Grammar)

def literal : Rule Expr := fun c =>
  match c.rest with
  | .literal l :: rest => some (.literal l, ⟨rest, .literal l :: c.written⟩)
  | .word w :: rest => some (.bool (w == "true"), ⟨rest, .word w :: c.written⟩)
  | _ => .none

def beginsLiteral (ts : List Token) : Bool :=
  Peek.bool ts || match ts with
    | .literal _ :: _ => true
    | _ => false

def fieldValue : Rule Unit := do
  g.attributes
  let named ← fieldName
  if (← peek (Peek.mark ":")) || !named then
    mark ":"
    let _ ← g.expr true

def fieldValues : (fuel : Nat) → Rule Unit
  | 0 => reject
  | fuel + 1 => do
    if ← peek Peek.atEnd then return ()
    if ← peek (Peek.mark "..") then
      mark ".."
      if ← peek Peek.atEnd then return ()
      let _ ← g.expr true
    else
      g.fieldValue
      if ← peek Peek.atEnd then return ()
      mark ","
      fieldValues fuel

def pathExpr (allowStruct : Bool) : Rule Expr := do
  let start ← place
  let p ← g.path true
  if ← peek fun ts => p.isPlain && beginsMacro ts then
    mark "!"
    let inBraces ← rawGroup
    let text ← writtenSince start
    return .other (if inBraces then .macroInBraces else .plain) text
  else if ← peek fun ts => allowStruct && Peek.opening .brace ts then
    let fuel ← remaining
    delimited .brace (g.fieldValues (fuel + 1))
    plainSince start
  else if p.isPlain then return .path p.isGlobal p.names
  else
    let text ← writtenSince start
    return .genericPath text

def parenthesized : Rule Expr := do
  let start ← place
  opening .paren
  if ← peek Peek.atEnd then
    closing .paren
    return .unit
  let e ← g.expr true
  if ← peek Peek.atEnd then
    closing .paren
    return .paren e
  mark ","
  let _ ← commaItems (g.expr true)
  closing .paren
  plainSince start

def array : Rule Expr := do
  let start ← place
  opening .bracket
  if ← peek Peek.atEnd then
    closing .bracket
    return .array []
  let e ← g.expr true
  if ← peek (Peek.mark ";") then
    mark ";"
    let _ ← g.expr true
    closing .bracket
    plainSince start
  else if ← peek Peek.atEnd then
    closing .bracket
    return .array [e]
  else
    mark ","
    let rest ← commaItems (g.expr true)
    closing .bracket
    return .array (e :: rest)

def beginsClosure (ts : List Token) : Bool :=
  let next := Peek.next ts
  Peek.mark "|" ts || Peek.anyOf ["move", "static"] ts ||
    (Peek.word "for" ts && beginsParameters next) ||
    (Peek.word "const" ts && !Peek.opening .brace next) ||
    (Peek.word "async" ts && (Peek.mark "|" next || Peek.word "move" next))

def beginsBareBlock (ts : List Token) : Bool :=
  let block := Peek.next ts
  let after := Peek.next block
  Peek.word "const" ts && Peek.opening .brace block && !Peek.mark ":" after && !Peek.mark ".." after

def bareBlock : Rule PatternForm := do
  word "const"
  delimited .brace do
    unwritten g.innerAttributes
    g.statements
  return .other

def closureParameter : Rule Unit := do
  let (_, attributes) ← held g.attributes
  let bare ← peek beginsBareBlock
  let (form, text) ← held (if bare then g.bareBlock else g.pattern)
  if ← peek (Peek.mark ":") then
    write attributes
    write text
    mark ":"
    let _ ← g.type true
  else if form == .verbatim then write text
  else
    write attributes
    let isRange := form == .range || form == .openRange
    write (if isRange && !attributes.isEmpty then enclosed text else text)

def closure (allowStruct : Bool) : Rule Unit := do
  whenNext (Peek.word "for") g.binder
  optionalWord "const"
  optionalWord "static"
  optionalWord "async"
  optionalWord "move"
  mark "|"
  let fuel ← remaining
  let _ ← separated (Peek.mark "|") g.closureParameter (fuel + 1)
  mark "|"
  if ← peek (Peek.mark "->") then
    mark "->"
    let _ ← g.type true
    g.block
  else
    let _ ← g.expr allowStruct

def beginsExpr (ts : List Token) : Bool :=
  (Peek.anyWord ts && !Peek.word "as" ts) || Peek.anyOpening ts || beginsLiteral ts ||
    (Peek.mark "!" ts && !Peek.mark "!=" ts) ||
    (Peek.mark "-" ts && !Peek.mark "-=" ts && !Peek.mark "->" ts) ||
    (Peek.mark "*" ts && !Peek.mark "*=" ts) || (Peek.mark "|" ts && !Peek.mark "|=" ts) ||
    (Peek.mark "&" ts && !Peek.mark "&=" ts) || Peek.mark ".." ts ||
    (Peek.mark "<" ts && !Peek.mark "<=" ts && !Peek.mark "<<=" ts) || Peek.mark "::" ts ||
    Peek.label ts || Peek.mark "#" ts

def optionalExpr : Rule Unit := whenNext beginsExpr do
  let _ ← g.expr true

def breakValue (isLabelled : Bool) : Rule Unit := do
  let start ← place
  let inner ← ahead do
    g.attributes
    peek Peek.label
  g.optionalExpr
  if !isLabelled && inner.getD false then enclose start

def breakOut (allowStruct : Bool) : Rule Unit := do
  word "break"
  let isLabelled ← peek Peek.label
  if isLabelled then
    label
    if ← peek (Peek.mark ":") then reject
  if ← peek fun ts => allowStruct || !Peek.opening .brace ts then g.breakValue isLabelled

def jump (allowStruct : Bool) : Rule Unit := do
  if ← peek (Peek.word "break") then g.breakOut allowStruct
  else if ← peek (Peek.word "continue") then
    word "continue"
    whenNext Peek.label label
  else
    let _ ← anyWord
    g.optionalExpr

def beginsJump : List Token → Bool := Peek.anyOf ["break", "continue", "return", "yield"]

def conditionBinding (allowStruct : Bool) : Rule Unit := do
  word "let"
  g.alternative
  mark "="
  let _ ← g.operand allowStruct Precedence.compare.rank

def beginsAsyncBlock (ts : List Token) : Bool :=
  let next := Peek.next ts
  Peek.word "async" ts &&
    (Peek.opening .brace next || (Peek.word "move" next && Peek.opening .brace (Peek.next next)))

def asyncBlock : Rule Unit := do
  word "async"
  optionalWord "move"
  g.block

def rangeTo (allowStruct : Bool) : Rule Expr := do
  let start ← place
  let closed ← rangeMark
  if (← peek (endsRange allowStruct)) && !closed then return .dots
  let _ ← g.operand allowStruct Precedence.range.rightFloor
  let text ← writtenSince start
  return .other .range text

def plain (p : Rule Unit) : Rule Expr := do
  let start ← place
  p
  plainSince start

def verbatim (p : Rule Unit) : Rule Expr := do
  let start ← place
  verbatimWhen (fun _ => true) p
  let text ← writtenSince start
  return .other .verbatim text

def tailCall : Rule Unit := do
  word "become"
  let _ ← g.expr true

def beginsPathExpr (ts : List Token) : Bool :=
  let next := Peek.next ts
  beginsPath ts || (Peek.word "try" ts && (Peek.mark "!" next || Peek.mark "::" next))

def atom (allowStruct : Bool) : Rule Expr := do
  if ← peek beginsLiteral then literal
  else if ← peek beginsBuiltin then verbatim builtin
  else if ← peek beginsPathExpr then g.pathExpr allowStruct
  else if ← peek (Peek.opening .paren) then g.parenthesized
  else if ← peek (Peek.opening .bracket) then g.array
  else if ← peek (Peek.mark "..") then g.rangeTo allowStruct
  else if ← peek beginsAsyncBlock then plain g.asyncBlock
  else if ← peek beginsClosure then plain (g.closure allowStruct)
  else if ← peek beginsJump then plain (g.jump allowStruct)
  else if ← peek (Peek.word "become") then verbatim g.tailCall
  else if ← peek (Peek.word "let") then plain (g.conditionBinding allowStruct)
  else if ← peek beginsBlockLike then g.blockLikeExpr
  else if ← peek (Peek.word "_") then plain (word "_")
  else reject

def beginsRawReference (ts : List Token) : Bool :=
  Peek.word "raw" ts && Peek.anyOf ["mut", "const"] (Peek.next ts)

def reference (allowStruct : Bool) (start : Nat) : Rule Expr := do
  mark "&"
  if ← peek beginsRawReference then
    word "raw"
    let _ ← anyWord
  else optionalWord "mut"
  let _ ← g.unary allowStruct
  plainSince start

def attributed (allowStruct : Bool) (attributes : String) : Rule Expr := do
  let start ← place
  let e ← g.atom allowStruct
  let e ← g.trailersFrom start e
  if attributes.isEmpty then return e
  else if e.isRange then reject
  else return e.withAttributes attributes

def operation (allowStruct : Bool) : Rule Expr := do
  let start ← place
  g.attributes
  let attributes ← writtenSince start
  if ← peek (Peek.mark "!") then
    mark "!"
    let e ← g.unary allowStruct
    return .not e
  else if ← peek (Peek.mark "-") then
    mark "-"
    let e ← g.unary allowStruct
    return .neg e
  else if ← peek (Peek.mark "*") then
    mark "*"
    let e ← g.unary allowStruct
    return .deref e
  else if ← peek (Peek.mark "&") then g.reference allowStruct start
  else g.attributed allowStruct attributes

def unaryOf (allowStruct : Bool) : Rule Expr := do
  let start ← place
  let e ← verbatimWhen Expr.isVerbatim (g.operation allowStruct)
  if e.isVerbatim then
    let text ← writtenSince start
    return .other .verbatim text
  else return e

end Quotation.Source.Grammar
