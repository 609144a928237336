import Quotation.Source.Grammar.Basic

namespace Quotation.Source.Grammar

open Rule

def beginsRestriction : List Token → Bool
  | .opening .paren :: ts =>
    Peek.word "in" ts || (Peek.anyOf ["crate", "self", "super"] ts && Peek.atEnd (Peek.next ts))
  | _ => false

def restriction : Rule Unit := do
  if ← peek (Peek.word "in") then
    word "in"
    names
  else
    let _ ← anyWord

def visibility : Rule Bool := do
  if ← peek (Peek.word "pub") then
    word "pub"
    whenNext beginsRestriction (delimited .paren restriction)
    return true
  else return false

def afterVisibility (ts : List Token) : List Token :=
  if Peek.word "pub" ts then
    let rest := Peek.next ts
    if beginsRestriction rest then Peek.next rest else rest
  else ts

end Quotation.Source.Grammar
