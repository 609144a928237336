import Quotation.Source.Grammar
import Quotation.Tree.Printer
import Quotation.Error

namespace Quotation.Source

def unsupported (what text : String) : Error := .unsupportedSyntax (what ++ " `" ++ text ++ "`")

def Literal.toValue : Literal → Except Error Value
  | .int _ n =>
    if n < Nat.pow 2 63 then .ok (.int (Int64.ofNat n))
    else .error (.parse "number too large to fit in target type")
  | .float _ x => .ok (.float x)
  | .str _ s => .ok (.str s)
  | .char _ c => .ok (.str (String.singleton c))
  | .other s => .error (unsupported "literal" s)

/-- A minus sign before a number is part of it. -/
def negated : Tree → Tree
  | .literal (.int n) => .literal (.int (-n))
  | .literal (.float x) => .literal (.float (-x))
  | t => .callNamed "-" [t]

def Expr.toSlotName (text : String) : Expr → Except Error String
  | .path false [name] => .ok name
  | .literal (.str _ s) => .ok s
  | _ => .error (unsupported "argument name" text)

mutual

def Expr.toTree : Expr → Except Error Tree
  | .literal l => l.toValue.map .literal
  | .bool b => .ok (.literal (.bool b))
  | .path _ names => .ok (.reference (separatedBy "::" names))
  | .genericPath text => .error (unsupported "path" text)
  | .paren e => e.toTree
  | .group e => e.toTree
  | .unit => .ok (.literal .null)
  | .dots => .ok .dots
  | .deref _ => .error (unsupported "unary operator" "*")
  | .not (.not (.not e)) => e.toTree.map .splice
  | .not (.not e) => e.toTree.map .unquote
  | .not e => e.toTree.map fun t => .callNamed "!" [t]
  | .neg e => e.toTree.map negated
  | .binary op a b =>
    if binaryOperators.contains op then do
      let left ← a.toTree
      let right ← b.toTree
      .ok (.callNamed op [left, right])
    else .error (unsupported "operator" op)
  | .call head args => do
    let t ← head.toTree
    let slots ← Expr.toSlots args
    .ok (.call t slots)
  | .method _ _ (some turbofish) _ => .error (unsupported "turbofish" turbofish)
  | .method receiver name none args => do
    let t ← receiver.toTree
    let slots ← Expr.toSlots args
    .ok (.call (.reference name) (.positional t :: slots))
  | .array elements => do
    let slots ← Expr.toSlots elements
    .ok (.call (.reference "list") slots)
  | .assign _ _ _ text => .error (unsupported "assignment outside an argument list" text)
  | .other _ text => .error (unsupported "expression" text)
termination_by structural e => e

def Expr.toSlots : List Expr → Except Error (List Slot)
  | [] => .ok []
  | .assign (.not (.not name)) value _ _ :: rest => do
    let v ← value.toTree
    let n ← name.toTree
    let slots ← Expr.toSlots rest
    .ok (.positional (.define n v) :: slots)
  | .assign target value targetText _ :: rest => do
    let v ← value.toTree
    let name ← target.toSlotName targetText
    let slots ← Expr.toSlots rest
    .ok (.labelled name v :: slots)
  | e :: rest => do
    let t ← e.toTree
    let slots ← Expr.toSlots rest
    .ok (.positional t :: slots)
termination_by structural l => l

end

def parse (source : String) : Except Error Tree :=
  match (tokens? source).bind Expr.ofTokens? with
  | some e => e.toTree
  | none => .error (.parse "expected expression")

end Quotation.Source
