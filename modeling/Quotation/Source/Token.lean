namespace Quotation.Source

inductive Delimiter
  | paren
  | bracket
  | brace
  deriving DecidableEq, Repr

inductive Literal
  | int (spelling : String) (value : Nat)
  | float (spelling : String) (value : Float)
  | str (spelling : String) (value : String)
  | char (spelling : String) (value : Char)
  | other (spelling : String)

def Literal.spelling : Literal → String
  | .int s _ => s
  | .float s _ => s
  | .str s _ => s
  | .char s _ => s
  | .other s => s

/-- A mark is joint if the next character belongs to a mark as well. -/
inductive Token
  | word (name : String)
  | mark (c : Char) (joint : Bool)
  | literal (l : Literal)
  | opening (d : Delimiter)
  | closing (d : Delimiter)

namespace Delimiter

def openText : Delimiter → String
  | .paren => "("
  | .bracket => "["
  | .brace => "\x7b"

def closeText : Delimiter → String
  | .paren => ")"
  | .bracket => "]"
  | .brace => "\x7d"

end Delimiter

namespace Token

def text : Token → String
  | .word name => name
  | .mark c _ => String.singleton c
  | .literal l => l.spelling
  | .opening d => d.openText
  | .closing d => d.closeText

def isTight : Token → Token → Bool
  | _, .closing .paren => true
  | _, .closing .bracket => true
  | _, .closing .brace => false
  | .opening .paren, _ => true
  | .opening .bracket, _ => true
  | .mark _ joint, _ => joint
  | _, _ => false

def render : List Token → String
  | [] => ""
  | [t] => t.text
  | t :: u :: rest => t.text ++ (if t.isTight u then "" else " ") ++ render (u :: rest)

def operator : List Char → List Token
  | [] => []
  | [c] => [.mark c false]
  | c :: rest => .mark c true :: operator rest

end Token

end Quotation.Source
