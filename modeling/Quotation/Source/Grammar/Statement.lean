import Quotation.Source.Grammar.Pattern
import Quotation.Source.Grammar.Trailer

namespace Quotation.Source.Grammar

open Rule

variable (g : Grammar)

def arm : Rule Unit := do
  g.attributes
  g.alternative
  whenNext (Peek.word "if") do
    word "if"
    let _ ← g.expr true
  mark "=>"
  let e ← g.armBody
  if (← peek Peek.atEnd) || e.isBlockLike then optionalMark "," else mark ","

def matchBody : Rule Unit := do
  g.innerAttributes
  let _ ← items g.arm

def beginsFor (ts : List Token) : Bool :=
  Peek.word "for" ts && !beginsParameters (Peek.next ts)

def beginsNamedBlock (ts : List Token) : Bool :=
  Peek.anyOf ["try", "const"] ts && Peek.opening .brace (Peek.next ts)

def beginsBlockLike (ts : List Token) : Bool :=
  Peek.anyOf ["if", "while", "loop", "match", "unsafe"] ts || beginsFor ts ||
    beginsNamedBlock ts || Peek.opening .brace ts || Peek.label ts

def loop : Rule Unit := do
  if ← peek (Peek.word "while") then
    word "while"
    let _ ← g.expr false
  else if ← peek (Peek.word "loop") then word "loop"
  else
    word "for"
    g.alternative
    word "in"
    let _ ← g.expr false
  g.attributedBlock

def conditional : (fuel : Nat) → Rule Unit
  | 0 => reject
  | fuel + 1 => do
    word "if"
    let _ ← g.expr false
    g.block
    whenNext (Peek.word "else") do
      word "else"
      if ← peek (Peek.word "if") then conditional fuel else g.block

def labelled : Rule Unit := do
  label
  mark ":"
  if ← peek (Peek.opening .brace) then g.attributedBlock else g.loop

def blockLike : Rule Unit := do
  if ← peek (Peek.word "if") then
    let fuel ← remaining
    g.conditional fuel
  else if ← peek (Peek.word "match") then
    word "match"
    let _ ← g.expr false
    delimited .brace g.matchBody
  else if ← peek (Peek.word "try") then
    word "try"
    g.block
  else if ← peek Peek.label then g.labelled
  else if ← peek (Peek.opening .brace) then g.attributedBlock
  else if ← peek (Peek.anyOf ["unsafe", "const"]) then
    let _ ← anyWord
    g.attributedBlock
  else g.loop

def blockLikeExpr : Rule Expr := do
  let start ← place
  g.blockLike
  let text ← writtenSince start
  return .other .blockLike text

def leading : Rule Expr := do
  if ← peek beginsBlockLike then
    let start ← place
    let e ← g.blockLikeExpr
    if ← peek fun ts => beginsPoint ts || Peek.mark "?" ts then g.trailersFrom start e
    else return e
  else g.unary true

def continued (start : Nat) (e : Expr) : Rule Expr :=
  if e.isBlockLike then pure e else g.climbFrom true start 0 e

def writeAttributed (attributes text : List Token) (e : Expr) : Rule Unit := do
  if attributes.isEmpty || e.isVerbatim then write text
  else
    write attributes
    write (if e.isRange then enclosed text else text)

def armBodyOf : Rule Expr := do
  let start ← place
  let (_, attributes) ← held g.attributes
  let (e, text) ← held g.leading
  writeAttributed attributes text e
  g.continued start e

def statementExpr (attributes : List Token) : Rule Expr := do
  let ((first, e), text) ← held do
    let first ← g.leading
    let e ← g.continued 0 first
    return (first, e)
  writeAttributed attributes text (if e.isRange then e else first)
  return e

inductive StatementForm
  | closed
  | last
  | verbatim
  deriving DecidableEq

def binding : Rule Unit := do
  word "let"
  let _ ← g.pattern
  whenNext (Peek.mark ":") do
    mark ":"
    let _ ← g.type true
  whenNext (Peek.mark "=") do
    mark "="
    let _ ← g.expr true
    let inBraces ← endsInBrace
    whenNext (fun ts => !inBraces && Peek.word "else" ts) do
      word "else"
      g.block
  mark ";"

def afterMacroMark? (ts : List Token) : Option (List Token) := do
  let rest ← afterPath? ts
  if Peek.mark "!" rest then some (Peek.next rest) else none

def beginsNamingCall (ts : List Token) : Bool :=
  (afterMacroMark? ts).any fun rest => Peek.name rest || Peek.word "try" rest

def beginsBraceCall (ts : List Token) : Bool :=
  (afterMacroMark? ts).any fun rest =>
    let next := Peek.next rest
    Peek.opening .brace rest && !(beginsPoint next || Peek.mark "?" next)

def braceCall : Rule Unit := do
  names
  mark "!"
  let _ ← rawGroup
  optionalMark ";"

def beginsStaticItem (ts : List Token) : Bool :=
  let next := Peek.next ts
  Peek.word "static" ts && (Peek.word "mut" next || Peek.name next)

def beginsConstItem (ts : List Token) : Bool :=
  let next := Peek.next ts
  let third := Peek.next next
  Peek.word "const" ts &&
    !(Peek.opening .brace next || Peek.word "static" next || Peek.word "move" next ||
      Peek.mark "|" next ||
      (Peek.word "async" next && !Peek.anyOf ["unsafe", "extern", "fn"] third))

def itemWords : List String :=
  ["pub", "extern", "use", "fn", "mod", "type", "struct", "enum", "trait", "impl", "macro"]

def beginsItem (ts : List Token) : Bool :=
  let next := Peek.next ts
  Peek.anyOf itemWords ts || (Peek.word "crate" ts && !Peek.mark "::" next) ||
    beginsStaticItem ts || beginsConstItem ts ||
    (Peek.word "unsafe" ts && !Peek.opening .brace next) ||
    (Peek.word "async" ts && Peek.anyOf ["unsafe", "extern", "fn"] next) ||
    (Peek.word "union" ts && Peek.name next) || (Peek.word "auto" ts && Peek.word "trait" next) ||
    (Peek.word "default" ts && Peek.anyOf ["unsafe", "impl"] next) || beginsNamingCall ts

def statement : Rule StatementForm :=
  verbatimWhen (· == .verbatim) do
    let (_, attributes) ← held g.attributes
    if ← peek beginsBraceCall then
      write attributes
      braceCall
      return .closed
    else if ← peek (Peek.word "let") then
      write attributes
      g.binding
      return .closed
    else if ← peek beginsItem then
      write attributes
      return if ← g.item then .verbatim else .closed
    else
      let e ← g.statementExpr attributes
      if ← peek (Peek.mark ";") then
        mark ";"
        return .closed
      else return if e.isBlockLike || e.isMacroInBraces then .closed else .last

def statementsUpTo : (fuel : Nat) → Rule Unit
  | 0 => reject
  | fuel + 1 => do
    if ← peek Peek.atEnd then return ()
    else if ← peek (Peek.mark ";") then
      mark ";"
      statementsUpTo fuel
    else
      let form ← g.statement
      if (← peek Peek.atEnd) || form != .last then statementsUpTo fuel else reject

def statementsOf : Rule Unit := do
  let fuel ← remaining
  g.statementsUpTo (fuel + 1)

end Quotation.Source.Grammar
