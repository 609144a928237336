import Quotation.Source.Number
import Quotation.Source.Rule

namespace Quotation.Source

def splitAt (sep : Char) : List Char → List (List Char)
  | [] => [[]]
  | c :: rest =>
    if c == sep then [] :: splitAt sep rest
    else match splitAt sep rest with
      | [] => [[c]]
      | part :: parts => (c :: part) :: parts

def fieldIndex? (cs : List Char) : Option Nat := do
  let (base, _, body) := baseOf cs
  let (digits, rest) ← digitRun base body
  let n := numeral base digits
  if digits.any Char.isAlphanum && rest.isEmpty && n < Nat.pow 2 32 then some n else none

def indexToken (n : Nat) : Token := .literal (.int (toString n) n)

def indexTokens? : List (List Char) → Option (List Token)
  | [] => some []
  | [[]] => some []
  | [part] => (fieldIndex? part).map fun n => [indexToken n]
  | part :: parts => do
    let n ← fieldIndex? part
    let ts ← indexTokens? parts
    some (indexToken n :: .mark '.' false :: ts)

namespace Grammar

open Rule

def respell (f : Token → Option (List Token)) : Rule Unit := fun c =>
  match c.rest with
  | [] => none
  | t :: rest => (f t).map fun ts => ((), ⟨rest, ts.reverse ++ c.written⟩)

def isDouble : List Token → Bool
  | .literal (.float _ _) :: _ => true
  | _ => false

def endsInPoint : List Token → Bool
  | .literal (.float s _) :: _ => s.toList.getLast? == some '.'
  | _ => false

def fieldIndices : Rule Unit :=
  respell fun
    | .literal (.float s _) => indexTokens? (splitAt '.' s.toList)
    | _ => none

def fieldIndex : Rule Unit :=
  respell fun
    | .literal (.int s _) => (fieldIndex? s.toList).map fun n => [indexToken n]
    | _ => none

def fieldName : Rule Bool := do
  if ← peek Peek.name then
    let _ ← name
    return true
  else
    fieldIndex
    return false

end Grammar

end Quotation.Source
