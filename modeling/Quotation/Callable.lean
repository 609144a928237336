import Quotation.Named

namespace Quotation

abbrev Identity := Nat

abbrev FrameId := Nat

abbrev PromiseId := Nat

namespace Builtin

inductive Arithmetic
  | add
  | sub
  | mul
  | div
  | rem
  deriving DecidableEq, Repr

inductive Order
  | lt
  | le
  | gt
  | ge
  deriving DecidableEq, Repr

inductive Op
  | arithmetic (op : Arithmetic)
  | order (op : Order)
  | equal
  | notEqual
  | not
  | and
  | or
  | list
  | length
  | identity
  | host (name : String)
  deriving DecidableEq, Repr

def Arithmetic.symbol : Arithmetic → String
  | .add => "+"
  | .sub => "-"
  | .mul => "*"
  | .div => "/"
  | .rem => "%"

def Order.symbol : Order → String
  | .lt => "<"
  | .le => "<="
  | .gt => ">"
  | .ge => ">="

def Op.name : Op → String
  | .arithmetic op => op.symbol
  | .order op => op.symbol
  | .equal => "=="
  | .notEqual => "!="
  | .not => "!"
  | .and => "&&"
  | .or => "||"
  | .list => "list"
  | .length => "length"
  | .identity => "identity"
  | .host name => name

end Builtin

structure Builtin where
  op : Builtin.Op
  id : Identity
  deriving DecidableEq, Repr

def Builtin.name (b : Builtin) : String := b.op.name

namespace Special

inductive Op
  | quote
  | expr
  | quo
  | enexpr
  | enquo
  | ensym
  | enexprs
  | enquos
  | evalTidy
  | call2
  | list2
  | host (name : String)
  deriving DecidableEq, Repr

def Op.name : Op → String
  | .quote => "quote"
  | .expr => "expr"
  | .quo => "quo"
  | .enexpr => "enexpr"
  | .enquo => "enquo"
  | .ensym => "ensym"
  | .enexprs => "enexprs"
  | .enquos => "enquos"
  | .evalTidy => "eval_tidy"
  | .call2 => "call2"
  | .list2 => "list2"
  | .host name => name

end Special

structure Special where
  op : Special.Op
  id : Identity
  deriving DecidableEq, Repr

def Special.name (s : Special) : String := s.op.name

structure External where
  label : String
  handle : Option String
  id : Identity
  deriving DecidableEq, Repr

def dotsName : String := "..."

structure Formal (τ : Type) where
  name : String
  default? : Option τ

instance {τ : Type} : Inhabited (Formal τ) := ⟨⟨"", none⟩⟩

def Formal.isDots {τ : Type} (f : Formal τ) : Bool := f.name == dotsName

structure Closure (τ : Type) where
  name : Option String
  formals : List (Formal τ)
  body : τ
  env : FrameId
  id : Identity

def Closure.hasDots {τ : Type} (c : Closure τ) : Bool := c.formals.any Formal.isDots

structure Capture (τ : Type) where
  tree : τ
  env : FrameId

end Quotation
