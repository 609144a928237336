import Quotation.Source.Grammar.Visibility

namespace Quotation.Source.Grammar

open Rule

def orBlank (ts : List Token) : Bool := Peek.name ts || Peek.word "_" ts

def otherName : Rule Unit :=
  whenNext (Peek.word "as") do
    word "as"
    one orBlank

def beginsImported (ts : List Token) : Bool :=
  Peek.name ts || Peek.anyOf ["self", "super", "crate", "try"] ts

def importTree : (fuel : Nat) → (allowRoot : Bool) → Rule Bool
  | 0, _ => reject
  | fuel + 1, allowRoot => do
    if ← peek beginsImported then
      let _ ← anyWord
      if ← peek (Peek.mark "::") then
        mark "::"
        importTree fuel false
      else
        otherName
        return false
    else if ← peek (Peek.mark "*") then
      mark "*"
      return false
    else
      let rooted ← delimited .brace <| commaItems do
        let isRooted ← peek fun ts => allowRoot && Peek.mark "::" ts
        if isRooted then mark "::"
        let holdsRooted ← importTree fuel (allowRoot && !isRooted)
        return isRooted || holdsRooted
      return rooted.any id

def importItem : Rule Bool := do
  let _ ← visibility
  word "use"
  let isGlobal ← peek (Peek.mark "::")
  optionalMark "::"
  let fuel ← remaining
  let verbatim ← importTree (fuel + 1) !isGlobal
  mark ";"
  return verbatim

def libraryItem : Rule Unit := do
  let _ ← visibility
  word "extern"
  word "crate"
  one fun ts => Peek.name ts || Peek.word "self" ts
  otherName
  mark ";"

end Quotation.Source.Grammar
