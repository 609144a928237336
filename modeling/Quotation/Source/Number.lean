import Quotation.Binary64.Text
import Quotation.Source.Token
import Quotation.Text.Identifier

namespace Quotation.Source

open Quotation.Text

def identifier? : List Char → Option (List Char × List Char)
  | [] => none
  | c :: rest =>
    if isIdentStart c then
      some (c :: rest.takeWhile isIdentContinue, rest.dropWhile isIdentContinue)
    else none

def suffix (cs : List Char) : List Char × List Char := (identifier? cs).getD ([], cs)

def digitValue? (c : Char) : Option Nat :=
  if c.isDigit then some (c.toNat - '0'.toNat)
  else if 'a' ≤ c && c ≤ 'f' then some (c.toNat - 'a'.toNat + 10)
  else if 'A' ≤ c && c ≤ 'F' then some (c.toNat - 'A'.toNat + 10)
  else none

def numeral (base : Nat) (cs : List Char) : Nat :=
  cs.foldl (fun n c => match digitValue? c with
    | some d => n * base + d
    | none => n) 0

def isDecimalPart (c : Char) : Bool := c.isDigit || c == '_'

def digitRun (base : Nat) : List Char → Option (List Char × List Char)
  | [] => some ([], [])
  | c :: rest =>
    if c == '_' then (digitRun base rest).map fun r => (c :: r.1, r.2)
    else match digitValue? c with
      | none => some ([], c :: rest)
      | some d =>
        if d < base then (digitRun base rest).map fun r => (c :: r.1, r.2)
        else if c.isDigit then none
        else some ([], c :: rest)

def baseOf : List Char → Nat × List Char × List Char
  | '0' :: 'x' :: rest => (16, ['0', 'x'], rest)
  | '0' :: 'o' :: rest => (8, ['0', 'o'], rest)
  | '0' :: 'b' :: rest => (2, ['0', 'b'], rest)
  | cs => (10, [], cs)

def endsWord : List Char → Bool
  | [] => true
  | c :: _ => !isIdentContinue c

def integer? (cs : List Char) : Option (Literal × List Char) := do
  let (base, start, body) := baseOf cs
  if base == 10 && body.head? == some '_' then none
  let (digits, rest) ← digitRun base body
  if digits.all (· == '_') then none
  let (suffix, rest) := suffix rest
  if endsWord rest then
    some (.int (String.ofList (start ++ digits ++ suffix)) (numeral base digits), rest)
  else none

structure Exponent where
  text : List Char
  negative : Bool
  digits : List Char
  rest : List Char

def exponentTail (signed valued : Bool) : List Char → Option Exponent
  | [] => if valued then some ⟨[], false, [], []⟩ else none
  | c :: rest =>
    if c == '+' || c == '-' then
      if valued then some ⟨[], false, [], c :: rest⟩
      else if signed then none
      else (exponentTail true valued rest).map fun e =>
        { e with text := c :: e.text, negative := c == '-' }
    else if c.isDigit then
      (exponentTail signed true rest).map fun e =>
        { e with text := c :: e.text, digits := c :: e.digits }
    else if c == '_' then
      (exponentTail signed valued rest).map fun e => { e with text := c :: e.text }
    else if valued then some ⟨[], false, [], c :: rest⟩
    else none

def exponent? : List Char → Option Exponent
  | c :: rest =>
    if c == 'e' || c == 'E' then
      (exponentTail false false rest).map fun e => { e with text := c :: e.text }
    else none
  | [] => none

def Exponent.value (e : Exponent) : Int :=
  if e.negative then -(numeral 10 e.digits : Int) else numeral 10 e.digits

def doubleOf (whole frac : List Char) (exponent : Int) : Float :=
  nearestDouble (numeral 10 (whole ++ frac)) (exponent - (frac.filter Char.isDigit).length)

def finishDouble (text whole frac : List Char) (exponent : Int) (rest : List Char) :
    Option (Literal × List Char) :=
  let (suffix, rest) := suffix rest
  if endsWord rest then
    some (.float (String.ofList (text ++ suffix)) (doubleOf whole frac exponent), rest)
  else none

def double? (cs : List Char) : Option (Literal × List Char) :=
  let whole := cs.takeWhile isDecimalPart
  match cs.dropWhile isDecimalPart with
  | '.' :: after =>
    if after.head?.any (fun c => c == '.' || isIdentStart c) then none
    else
      let frac := after.takeWhile isDecimalPart
      let rest := after.dropWhile isDecimalPart
      let text := whole ++ '.' :: frac
      match exponent? rest with
      | some e => finishDouble (text ++ e.text) whole frac e.value e.rest
      | none => finishDouble text whole frac 0 rest
  | rest =>
    match exponent? rest with
    | some e => finishDouble (whole ++ e.text) whole [] e.value e.rest
    | none => none

def number? (cs : List Char) : Option (Literal × List Char) :=
  if cs.head?.any Char.isDigit then (double? cs).or (integer? cs) else none

end Quotation.Source
