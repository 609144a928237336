import Quotation.Source.Number

namespace Quotation.Source

open Quotation.Text

structure Quotable where
  plain : Char → Bool
  byte : Nat → Bool
  scalar : Char → Bool
  nul : Bool

namespace Quotable

def text : Quotable := ⟨fun _ => true, fun n => n < 0x80, fun _ => true, true⟩

def bytes : Quotable := ⟨fun c => c.toNat < 0x80, fun _ => true, fun _ => false, true⟩

def terminated : Quotable :=
  ⟨fun c => c != '\x00', fun n => n != 0, fun c => c != '\x00', false⟩

end Quotable

def scalarDigits : Nat → Nat → List Char → Option (Nat × List Char)
  | _, _, [] => none
  | value, count, c :: rest =>
    if c == '_' && 0 < count then scalarDigits value count rest
    else if c == '\x7d' && 0 < count then some (value, rest)
    else match digitValue? c with
      | some d => if count < 6 then scalarDigits (value * 16 + d) (count + 1) rest else none
      | none => none

def escape? (q : Quotable) : List Char → Option (Char × List Char)
  | 'n' :: rest => some ('\n', rest)
  | 'r' :: rest => some ('\r', rest)
  | 't' :: rest => some ('\t', rest)
  | '\\' :: rest => some ('\\', rest)
  | '\'' :: rest => some ('\'', rest)
  | '"' :: rest => some ('"', rest)
  | '0' :: rest => if q.nul then some ('\x00', rest) else none
  | 'x' :: a :: b :: rest => do
    let high ← digitValue? a
    let low ← digitValue? b
    if q.byte (high * 16 + low) then some (Char.ofNat (high * 16 + low), rest) else none
  | 'u' :: '\x7b' :: rest => do
    let (value, rest) ← scalarDigits 0 0 rest
    if value.isValidChar && q.scalar (Char.ofNat value) then some (Char.ofNat value, rest) else none
  | _ => none

def skipIndent : List Char → Option (List Char)
  | [] => none
  | '\r' :: '\n' :: rest => skipIndent rest
  | '\r' :: _ => none
  | c :: rest => if c == ' ' || c == '\t' || c == '\n' then skipIndent rest else some (c :: rest)

def breaksLine (cs : List Char) : Bool := cs.head?.any fun c => c == '\n' || c == '\r'

def quotedBody (q : Quotable) : (fuel : Nat) → List Char → Option (List Char × List Char)
  | 0, _ => none
  | _, [] => none
  | _ + 1, '"' :: rest => some ([], rest)
  | fuel + 1, '\r' :: '\n' :: rest => do
    let (cs, rest) ← quotedBody q fuel rest
    some ('\n' :: cs, rest)
  | _ + 1, '\r' :: _ => none
  | fuel + 1, '\\' :: rest =>
    if breaksLine rest then do
      let rest ← skipIndent rest
      quotedBody q fuel rest
    else do
      let (c, rest) ← escape? q rest
      let (cs, rest) ← quotedBody q fuel rest
      some (c :: cs, rest)
  | fuel + 1, c :: rest =>
    if q.plain c then do
      let (cs, rest) ← quotedBody q fuel rest
      some (c :: cs, rest)
    else none

def rawBody (q : Quotable) (ending : List Char) : List Char → Option (List Char × List Char)
  | [] => none
  | '\r' :: '\n' :: rest => do
    let (cs, rest) ← rawBody q ending rest
    some ('\r' :: '\n' :: cs, rest)
  | '\r' :: _ => none
  | c :: rest =>
    if c == '"' && ending.isPrefixOf rest then some ([], rest.drop ending.length)
    else if q.plain c then do
      let (cs, rest) ← rawBody q ending rest
      some (c :: cs, rest)
    else none

def raw? (q : Quotable) (cs : List Char) : Option (List Char × List Char) :=
  let ending := cs.takeWhile (· == '#')
  match cs.drop ending.length with
  | '"' :: rest => if ending.length ≤ 255 then rawBody q ending rest else none
  | _ => none

def quotedChar? (q : Quotable) : List Char → Option (Char × List Char)
  | '\\' :: rest =>
    match escape? q rest with
    | some (c, '\'' :: rest) => some (c, rest)
    | _ => none
  | c :: '\'' :: rest => if q.plain c then some (c, rest) else none
  | _ => none

def spelling (start rest : List Char) : String :=
  String.ofList (start.take (start.length - rest.length))

def finishLiteral (start : List Char) (make : String → Literal) (rest : List Char) :
    Literal × List Char :=
  let rest := (suffix rest).2
  (make (spelling start rest), rest)

def textLiteral? (start : List Char) : Option (Literal × List Char) := do
  let (cs, rest) ← match start with
    | '"' :: rest => quotedBody .text (rest.length + 1) rest
    | 'r' :: rest => raw? .text rest
    | _ => none
  some (finishLiteral start (fun s => .str s (String.ofList cs)) rest)

def charLiteral? (start : List Char) : Option (Literal × List Char) := do
  let (c, rest) ← match start with
    | '\'' :: rest => quotedChar? .text rest
    | _ => none
  some (finishLiteral start (fun s => .char s c) rest)

def bytesEnd? : List Char → Option (List Char)
  | 'b' :: '"' :: rest => (quotedBody .bytes (rest.length + 1) rest).map Prod.snd
  | 'b' :: 'r' :: rest => (raw? .bytes rest).map Prod.snd
  | 'c' :: '"' :: rest => (quotedBody .terminated (rest.length + 1) rest).map Prod.snd
  | 'c' :: 'r' :: rest => (raw? .terminated rest).map Prod.snd
  | 'b' :: '\'' :: rest => (quotedChar? .bytes rest).map Prod.snd
  | _ => none

def bytesLiteral? (start : List Char) : Option (Literal × List Char) := do
  let rest ← bytesEnd? start
  some (finishLiteral start .other rest)

def literal? (cs : List Char) : Option (Literal × List Char) :=
  (textLiteral? cs).or ((bytesLiteral? cs).or ((charLiteral? cs).or (number? cs)))

end Quotation.Source
