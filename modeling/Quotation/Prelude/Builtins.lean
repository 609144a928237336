import Quotation.Engine.State
import Quotation.Prelude.Number

namespace Quotation.Builtin

def expects (op : String) (arity : String) (args : List Item) : Error :=
  .host ("`" ++ op ++ "` expects " ++ arity ++ ", got " ++ toString args.length)

def oneArgument (op : String) : List Item → Except Error Value
  | [a] => .ok a.val
  | args => .error (expects op "1 argument" args)

def twoArguments (op : String) : List Item → Except Error (Value × Value)
  | [a, b] => .ok (a.val, b.val)
  | args => .error (expects op "2 arguments" args)

def arithmetic (op : Arithmetic) (args : List Item) : Except Error Value :=
  match args with
  | [a] => do
    let n ← Number.ofOperand op.symbol a.val
    match op with
    | .add => .ok n.toValue
    | .sub => n.negate.map Number.toValue
    | _ => .error (expects op.symbol "2 arguments" args)
  | _ => do
    let (a, b) ← twoArguments op.symbol args
    let x ← Number.ofOperand op.symbol a
    let y ← Number.ofOperand op.symbol b
    (Number.binary op x y).map Number.toValue

def ordering (op : String) (a b : Value) : Except Error Ordering :=
  match a, b with
  | .str x, .str y => .ok (compare x y)
  | _, _ => do
    let x ← Number.ofOperand op a
    let y ← Number.ofOperand op b
    match Number.orderFloats? x.toFloat y.toFloat with
    | some o => .ok o
    | none => .error (.host "cannot order NaN")

def order (op : Order) (args : List Item) : Except Error Value := do
  let (a, b) ← twoArguments op.symbol args
  let o ← ordering op.symbol a b
  .ok (.bool (op.test o))

/-- Numbers are compared as numbers and all else by its structure. -/
def equalValues (a b : Value) : Bool :=
  match Number.ofValue? a, Number.ofValue? b with
  | some x, some y => x.equal y
  | _, _ => a == b

def equal (op : String) (args : List Item) : Except Error Bool := do
  let (a, b) ← twoArguments op args
  .ok (equalValues a b)

def truth (op : String) (v : Value) : Except Error Bool :=
  match v.asBool? with
  | some b => .ok b
  | none => .error (.host ("invalid argument to `" ++ op ++ "`: expected bool, got " ++ v.typeName))

/-- Both operands are needed, whatever the first one is. -/
def logic (op : String) (combine : Bool → Bool → Bool) (args : List Item) :
    Except Error Value := do
  let (a, b) ← twoArguments op args
  let x ← truth op a
  let y ← truth op b
  .ok (.bool (combine x y))

def negation (args : List Item) : Except Error Value := do
  let v ← oneArgument "!" args
  let b ← truth "!" v
  .ok (.bool (!b))

def Op.run (host : String → List Item → World → Except Error Value × World) :
    Op → List Item → World → Except Error Value × World
  | .arithmetic op, args, w => (Builtin.arithmetic op args, w)
  | .order op, args, w => (Builtin.order op args, w)
  | .equal, args, w => ((Builtin.equal "==" args).map .bool, w)
  | .notEqual, args, w => ((Builtin.equal "!=" args).map fun eq => .bool (!eq), w)
  | .not, args, w => (negation args, w)
  | .and, args, w => (logic "&&" (· && ·) args, w)
  | .or, args, w => (logic "||" (· || ·) args, w)
  | .list, args, w => (.ok (.list args), w)
  | .length, args, w =>
    ((oneArgument "length" args).map fun v => .int (Int64.ofNat v.length), w)
  | .identity, args, w => (oneArgument "identity" args, w)
  | .host name, args, w => host name args w

end Quotation.Builtin
