import Quotation.Source.Token

namespace Quotation.Source

inductive Form
  | range
  | blockLike
  | macroInBraces
  | verbatim
  | plain
  deriving DecidableEq, Repr

inductive Expr
  | literal (l : Literal)
  | bool (b : Bool)
  | path (isGlobal : Bool) (names : List String)
  | genericPath (text : String)
  | paren (e : Expr)
  /-- Tokens that belong together without a delimiter. No text has them, a macro makes them. -/
  | group (e : Expr)
  | unit
  | dots
  | deref (e : Expr)
  | not (e : Expr)
  | neg (e : Expr)
  | binary (op : String) (left right : Expr)
  | call (head : Expr) (args : List Expr)
  | method (receiver : Expr) (name : String) (turbofish : Option String) (args : List Expr)
  | array (elements : List Expr)
  | assign (target value : Expr) (targetText text : String)
  | other (form : Form) (text : String)

instance : Inhabited Expr := ⟨.unit⟩

namespace Expr

def isRange : Expr → Bool
  | .dots => true
  | .other .range _ => true
  | _ => false

def isBlockLike : Expr → Bool
  | .other .blockLike _ => true
  | _ => false

def isMacroInBraces : Expr → Bool
  | .other .macroInBraces _ => true
  | _ => false

def isVerbatim : Expr → Bool
  | .other .verbatim _ => true
  | _ => false

def withAttributes (attributes : String) : Expr → Expr
  | .genericPath text => .genericPath (attributes ++ " " ++ text)
  | .other form text => .other form (attributes ++ " " ++ text)
  | e => e

end Expr

inductive Precedence
  | assign
  | range
  | or
  | and
  | compare
  | bitOr
  | bitXor
  | bitAnd
  | shift
  | sum
  | product
  | cast
  deriving DecidableEq, Repr

def Precedence.rank : Precedence → Nat
  | .assign => 1
  | .range => 2
  | .or => 3
  | .and => 4
  | .compare => 5
  | .bitOr => 6
  | .bitXor => 7
  | .bitAnd => 8
  | .shift => 9
  | .sum => 10
  | .product => 11
  | .cast => 12

def Precedence.rightFloor (p : Precedence) : Nat := if p = .assign then p.rank else p.rank + 1

def operators : List (String × Precedence) := [
  ("+=", .assign), ("-=", .assign), ("*=", .assign), ("/=", .assign), ("%=", .assign),
  ("^=", .assign), ("&=", .assign), ("|=", .assign), ("<<=", .assign), (">>=", .assign),
  ("&&", .and), ("||", .or), ("<<", .shift), (">>", .shift), ("==", .compare), ("<=", .compare),
  ("!=", .compare), (">=", .compare), ("+", .sum), ("-", .sum), ("*", .product), ("/", .product),
  ("%", .product), ("^", .bitXor), ("&", .bitAnd), ("|", .bitOr), ("<", .compare), (">", .compare)]

def Expr.isComparison : Expr → Bool
  | .binary op _ _ => (operators.find? (·.1 == op)).any (·.2 == .compare)
  | _ => false

def Expr.isAssignment : Expr → Bool
  | .assign _ _ _ _ => true
  | .binary op _ _ => (operators.find? (·.1 == op)).any (·.2 == .assign)
  | _ => false

end Quotation.Source
