import Quotation.Source.StringLiteral
import Quotation.Text.Blank
import Quotation.Text.Quoted

/-! Source text as tokens. Blanks and ordinary comments separate tokens and are dropped; a
documentation comment stands for an attribute. Delimiters have to match. -/

namespace Quotation.Source

open Quotation.Text

def hasBareReturn : List Char → Bool
  | [] => false
  | '\r' :: '\n' :: rest => hasBareReturn rest
  | '\r' :: _ => true
  | _ :: rest => hasBareReturn rest

def docAttribute (inner : Bool) (text : List Char) : Option (List Token) :=
  if hasBareReturn text then none
  else
    let s := String.ofList text
    some (.mark '#' false :: ((if inner then [.mark '!' false] else []) ++
      [.opening .bracket, .word "doc", .mark '=' false, .literal (.str (quoted s) s),
        .closing .bracket]))

def lineComment : List Char → Option (List Token)
  | '!' :: text => docAttribute true text
  | '/' :: '/' :: _ => some []
  | '/' :: text => docAttribute false text
  | _ => some []

def blockComment : List Char → Option (List Token)
  | '!' :: text => docAttribute true text
  | ['*'] => some []
  | '*' :: '*' :: _ => some []
  | '*' :: text => docAttribute false text
  | _ => some []

def lineText (cs : List Char) : List Char :=
  let text := cs.takeWhile (· != '\n')
  if cs.length > text.length && text.getLast? == some '\r' then text.dropLast else text

def blockText : Nat → List Char → Option (List Char × List Char)
  | _, [] => none
  | depth, '/' :: '*' :: rest => do
    let (text, rest) ← blockText (depth + 1) rest
    some ('/' :: '*' :: text, rest)
  | 0, '*' :: '/' :: rest => some ([], rest)
  | depth + 1, '*' :: '/' :: rest => do
    let (text, rest) ← blockText depth rest
    some ('*' :: '/' :: text, rest)
  | depth, c :: rest => do
    let (text, rest) ← blockText depth rest
    some (c :: text, rest)

def comment? : List Char → Option (List Token × List Char)
  | '/' :: '/' :: rest => do
    let ts ← lineComment (lineText rest)
    some (ts, rest.dropWhile (· != '\n'))
  | '/' :: '*' :: rest => do
    let (text, rest) ← blockText 0 rest
    let ts ← blockComment text
    some (ts, rest)
  | _ => none

def markChars : List Char := "~!@#$%^&*-=+|;:,<.>/?'".toList

def startsMark : List Char → Bool
  | [] => false
  | '/' :: '/' :: _ => false
  | '/' :: '*' :: _ => false
  | c :: _ => markChars.contains c

def pathWords : List String := ["_", "super", "self", "Self", "crate"]

def word? : List Char → Option (String × List Char)
  | 'r' :: '#' :: rest => do
    let (cs, rest) ← identifier? rest
    if pathWords.contains (String.ofList cs) then none
    else some (String.ofList ('r' :: '#' :: cs), rest)
  | cs => do
    let (cs, rest) ← identifier? cs
    some (String.ofList cs, rest)

def endsLabel (word after : List Char) : Bool :=
  match after with
  | '\'' :: _ => false
  | '#' :: _ => ['r', '#'].isPrefixOf word
  | _ => true

/-- A mark and the rest. A quote is a mark if a label follows, and not a character. -/
def mark? : List Char → Option (Token × List Char)
  | [] => none
  | '\'' :: rest =>
    match word? rest with
    | some (_, after) => if endsLabel rest after then some (.mark '\'' true, rest) else none
    | none => none
  | c :: rest => if startsMark (c :: rest) then some (.mark c (startsMark rest), rest) else none

def literalStarts : List String :=
  ["r\"", "r#\"", "r##", "b\"", "b'", "br\"", "br#", "c\"", "cr\"", "cr#"]

def startsLiteral (cs : List Char) : Bool := literalStarts.any fun s => s.toList.isPrefixOf cs

def wordToken? (cs : List Char) : Option (Token × List Char) :=
  if startsLiteral cs then none else (word? cs).map fun r => (.word r.1, r.2)

def errorText : List Char := "(/*ERROR*/)".toList

def error? (cs : List Char) : Option (Token × List Char) :=
  if errorText.isPrefixOf cs then
    some (.literal (.other (String.ofList errorText)), cs.drop errorText.length)
  else none

def leaf? (cs : List Char) : Option (Token × List Char) :=
  ((literal? cs).map fun r => (.literal r.1, r.2)).or ((mark? cs).or (wordToken? cs))

def Delimiter.ofOpening? : Char → Option Delimiter
  | '(' => some .paren
  | '[' => some .bracket
  | '\x7b' => some .brace
  | _ => none

def Delimiter.ofClosing? : Char → Option Delimiter
  | ')' => some .paren
  | ']' => some .bracket
  | '\x7d' => some .brace
  | _ => none

def lex : (fuel : Nat) → List Delimiter → List Char → Option (List Token)
  | 0, _, _ => none
  | _ + 1, nesting, [] => if nesting.isEmpty then some [] else none
  | fuel + 1, nesting, c :: rest =>
    if isBlank c then lex fuel nesting rest
    else match comment? (c :: rest), error? (c :: rest) with
      | some (ts, rest), _ => (lex fuel nesting rest).map (ts ++ ·)
      | none, some (t, rest) => (lex fuel nesting rest).map (t :: ·)
      | none, none =>
        match Delimiter.ofOpening? c, Delimiter.ofClosing? c with
        | some d, _ => (lex fuel (d :: nesting) rest).map (.opening d :: ·)
        | none, some d =>
          if nesting.head? == some d then (lex fuel nesting.tail rest).map (.closing d :: ·)
          else none
        | none, none =>
          match leaf? (c :: rest) with
          | some (t, rest) => (lex fuel nesting rest).map (t :: ·)
          | none => none

def dropByteOrderMark : List Char → List Char
  | '\ufeff' :: rest => rest
  | cs => cs

def tokens? (source : String) : Option (List Token) :=
  let cs := dropByteOrderMark source.toList
  lex (cs.length + 1) [] cs

end Quotation.Source
