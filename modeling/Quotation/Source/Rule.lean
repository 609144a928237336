import Quotation.Source.Lexer

/-! Rules over tokens. A rule reads tokens from the front of a list and writes down what it has
read in a normal form, where the marks of one operator are joined and all others stand apart; so
the text of whatever a rule has read can be given back. What a rule writes can be held back, to be
written elsewhere, and it can be replaced by the tokens as they were read. The content of a pair of
delimiters ends at the closing one. -/

namespace Quotation.Source

structure Cursor where
  rest : List Token
  /-- What has been read, the last token first. -/
  written : List Token := []

def Rule (α : Type) : Type := Cursor → Option (α × Cursor)

namespace Rule

variable {α β : Type}

instance : Monad Rule where
  pure a := fun c => some (a, c)
  bind p f := fun c =>
    match p c with
    | some (a, c) => f a c
    | none => none

@[simp] theorem pure_apply (a : α) (c : Cursor) : (pure a : Rule α) c = some (a, c) := rfl

theorem bind_apply (p : Rule α) (f : α → Rule β) (c : Cursor) :
    (p >>= f) c = match p c with
      | some (a, c) => f a c
      | none => none := rfl

def reject : Rule α := fun _ => none

def peek (q : List Token → α) : Rule α := fun c => some (q c.rest, c)

def remaining : Rule Nat := peek List.length

def token : Rule Token := fun c =>
  match c.rest with
  | [] => none
  | t :: rest => some (t, ⟨rest, t :: c.written⟩)

/-- What has been written since there were `start` tokens on the page. -/
def writtenSince (start : Nat) : Rule String := fun c =>
  some (Token.render (c.written.take (c.written.length - start)).reverse, c)

def place : Rule Nat := fun c => some (c.written.length, c)

def write (ts : List Token) : Rule Unit := fun c => some ((), { c with written := ts ++ c.written })

def enclosed (ts : List Token) : List Token := .closing .paren :: ts ++ [.opening .paren]

def enclose (start : Nat) : Rule Unit := fun c =>
  let n := c.written.length - start
  some ((), { c with written := enclosed (c.written.take n) ++ c.written.drop n })

def endsInBrace : Rule Bool := fun c =>
  match c.written with
  | .closing .brace :: _ => some (true, c)
  | _ => some (false, c)

def held (p : Rule α) : Rule (α × List Token) := fun c =>
  match p { c with written := [] } with
  | some (a, d) => some ((a, d.written), { d with written := c.written })
  | none => none

def unwritten (p : Rule α) : Rule α := do
  let (a, _) ← held p
  return a

def verbatimWhen (q : α → Bool) (p : Rule α) : Rule α := fun c =>
  match p c with
  | some (a, d) =>
    let read := c.rest.take (c.rest.length - d.rest.length)
    some (a, if q a then ⟨d.rest, read.reverse ++ c.written⟩ else d)
  | none => none

def ahead (p : Rule α) : Rule (Option α) := fun c => some ((p c).map Prod.fst, c)

def attempt (p : Rule α) : Rule (Option α) := fun c =>
  match p c with
  | some (a, d) => some (some a, d)
  | none => some (none, c)

end Rule

namespace Peek

def marks : List Char → List Token → Bool
  | [], _ => true
  | [c], .mark d _ :: _ => c == d
  | c :: cs, .mark d true :: rest => c == d && marks cs rest
  | _, _ => false

def mark (s : String) (ts : List Token) : Bool := marks s.toList ts

def word (name : String) : List Token → Bool
  | .word w :: _ => w == name
  | _ => false

def opening (d : Delimiter) : List Token → Bool
  | .opening e :: _ => d == e
  | _ => false

def afterClosing : (depth : Nat) → List Token → List Token
  | _, [] => []
  | 0, .closing _ :: rest => rest
  | depth + 1, .closing _ :: rest => afterClosing depth rest
  | depth, .opening _ :: rest => afterClosing (depth + 1) rest
  | depth, _ :: rest => afterClosing depth rest

def next : List Token → List Token
  | .mark '\'' true :: .word _ :: rest => rest
  | .opening _ :: rest => afterClosing 0 rest
  | .closing _ :: _ => []
  | _ :: rest => rest
  | [] => []

def atEnd : List Token → Bool
  | [] => true
  | .closing _ :: _ => true
  | _ => false

def label : List Token → Bool
  | .mark '\'' true :: .word _ :: _ => true
  | _ => false

end Peek

def keywords : List String :=
  ["_", "abstract", "as", "async", "await", "become", "box", "break", "const", "continue",
    "crate", "do", "dyn", "else", "enum", "extern", "false", "final", "fn", "for", "if",
    "impl", "in", "let", "loop", "macro", "match", "mod", "move", "mut", "override", "priv",
    "pub", "ref", "return", "Self", "self", "static", "struct", "super", "trait", "true",
    "try", "type", "typeof", "unsafe", "unsized", "use", "virtual", "where", "while", "yield"]

def isName (w : String) : Bool := !keywords.contains w

namespace Peek

def name : List Token → Bool
  | .word w :: _ => isName w
  | _ => false

def anyWord : List Token → Bool
  | .word _ :: _ => true
  | _ => false

def anyOpening : List Token → Bool
  | .opening _ :: _ => true
  | _ => false

def anyOf (words : List String) (ts : List Token) : Bool := words.any fun w => word w ts

def string : List Token → Bool
  | .literal (.str _ _) :: _ => true
  | _ => false

def bool : List Token → Bool
  | .word w :: _ => w == "true" || w == "false"
  | _ => false

def literal : List Token → Bool
  | .literal _ :: _ => true
  | .mark '-' _ :: .literal (.int _ _) :: _ => true
  | .mark '-' _ :: .literal (.float _ _) :: _ => true
  | ts => bool ts

end Peek

namespace Rule

variable {α β : Type}

def mark (s : String) : Rule Unit := fun c =>
  if Peek.mark s c.rest then
    some ((), ⟨c.rest.drop s.length, (Token.operator s.toList).reverse ++ c.written⟩)
  else none

def one (q : List Token → Bool) : Rule Unit := fun c =>
  if q c.rest then
    match c.rest with
    | [] => none
    | t :: rest => some ((), ⟨rest, t :: c.written⟩)
  else none

def word (w : String) : Rule Unit := one (Peek.word w)

def opening (d : Delimiter) : Rule Unit := one (Peek.opening d)

def closing (d : Delimiter) : Rule Unit := fun c =>
  match c.rest with
  | .closing e :: rest => if d = e then some ((), ⟨rest, .closing e :: c.written⟩) else none
  | _ => none

def anyWord : Rule String := fun c =>
  match c.rest with
  | .word w :: rest => some (w, ⟨rest, .word w :: c.written⟩)
  | _ => none

def name : Rule String := fun c =>
  match c.rest with
  | .word w :: rest => if isName w then some (w, ⟨rest, .word w :: c.written⟩) else none
  | _ => none

def label : Rule Unit := fun c =>
  match c.rest with
  | .mark '\'' true :: .word w :: rest =>
    some ((), ⟨rest, .word w :: .mark '\'' true :: c.written⟩)
  | _ => none

def constant : Rule Unit := fun c =>
  if Peek.literal c.rest then
    match c.rest with
    | .mark d _ :: t :: rest => some ((), ⟨rest, t :: .mark d false :: c.written⟩)
    | t :: rest => some ((), ⟨rest, t :: c.written⟩)
    | [] => none
  else none

def whenNext (q : List Token → Bool) (p : Rule Unit) : Rule Unit := do
  if ← peek q then p

def optionalMark (s : String) : Rule Unit := whenNext (Peek.mark s) (mark s)

def optionalWord (w : String) : Rule Unit := whenNext (Peek.word w) (word w)

def delimited (d : Delimiter) (content : Rule α) : Rule α := do
  opening d
  let a ← content
  closing d
  return a

def untilEnd (item : Rule α) : (fuel : Nat) → Rule (List α)
  | 0 => reject
  | fuel + 1 => do
    if ← peek Peek.atEnd then return []
    let a ← item
    let rest ← untilEnd item fuel
    return a :: rest

def separated (stop : List Token → Bool) (item : Rule α) : (fuel : Nat) → Rule (List α)
  | 0 => reject
  | fuel + 1 => do
    if ← peek stop then return []
    let a ← item
    if ← peek stop then return [a]
    mark ","
    let rest ← separated stop item fuel
    return a :: rest

def commaItems (item : Rule α) : Rule (List α) := do
  let fuel ← remaining
  separated Peek.atEnd item (fuel + 1)

def items (item : Rule α) : Rule (List α) := do
  let fuel ← remaining
  untilEnd item (fuel + 1)

def joined (sep : List Token → Bool) (mark : Rule Unit) (item : Rule Unit) :
    (fuel : Nat) → Rule Unit
  | 0 => reject
  | fuel + 1 => do
    item
    if ← peek sep then
      mark
      joined sep mark item fuel

def rawTokens : (fuel depth : Nat) → Rule Unit
  | 0, _ => reject
  | fuel + 1, depth => do
    match ← peek List.head? with
    | none => reject
    | some (.opening _) =>
      let _ ← token
      rawTokens fuel (depth + 1)
    | some (.closing _) =>
      if depth = 0 then return ()
      else
        let _ ← token
        rawTokens fuel (depth - 1)
    | some _ =>
      let _ ← token
      rawTokens fuel depth

def rawGroup : Rule Bool := do
  let isBrace ← peek (Peek.opening .brace)
  one Peek.anyOpening
  let fuel ← remaining
  rawTokens (fuel + 1) 0
  one Peek.atEnd
  return isBrace

end Rule

end Quotation.Source
