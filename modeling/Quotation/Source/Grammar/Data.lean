import Quotation.Source.Grammar.Generics
import Quotation.Source.Grammar.Visibility

namespace Quotation.Source.Grammar

open Rule

variable (g : Grammar)

def beginsInlineFields (ts : List Token) : Bool :=
  Peek.word "struct" ts || (Peek.word "union" ts && Peek.opening .brace (Peek.next ts))

def namedField (fields : Rule Unit) : Rule Unit := do
  g.attributes
  let _ ← visibility
  let blank ← peek (Peek.word "_")
  if blank then word "_"
  else
    let _ ← name
  mark ":"
  if ← peek fun ts => blank && beginsInlineFields ts then
    verbatimWhen (fun _ => true) do
      let _ ← anyWord
      fields
  else
    let _ ← g.type true

def namedFieldsUpTo : (fuel : Nat) → Rule Unit
  | 0 => reject
  | fuel + 1 => do
    let _ ← delimited .brace (commaItems (g.namedField (namedFieldsUpTo fuel)))

def namedFields : Rule Unit := do
  let fuel ← remaining
  g.namedFieldsUpTo fuel

def unnamedField : Rule Unit := do
  g.attributes
  let _ ← visibility
  let _ ← g.type true

def unnamedFields : Rule Unit := do
  let _ ← delimited .paren (commaItems g.unnamedField)

def structItem : Rule Unit := do
  let _ ← visibility
  word "struct"
  let _ ← name
  let _ ← g.generics
  let conditioned ← g.whereClause
  if ← peek fun ts => !conditioned && Peek.opening .paren ts then
    g.unnamedFields
    let _ ← g.whereClause
    mark ";"
  else if ← peek (Peek.opening .brace) then g.namedFields
  else mark ";"

def variant : Rule Unit := do
  g.attributes
  let _ ← unwritten visibility
  let _ ← name
  if ← peek (Peek.opening .brace) then g.namedFields
  else whenNext (Peek.opening .paren) g.unnamedFields
  whenNext (Peek.mark "=") do
    mark "="
    let _ ← g.expr true

def enumItem : Rule Unit := do
  let _ ← visibility
  word "enum"
  let _ ← name
  let _ ← g.generics
  let _ ← g.whereClause
  let _ ← delimited .brace (commaItems g.variant)

def unionItem : Rule Unit := do
  let _ ← visibility
  word "union"
  let _ ← name
  let _ ← g.generics
  let _ ← g.whereClause
  g.namedFields

end Quotation.Source.Grammar
