import Quotation.Error
import Quotation.Value
import Quotation.Binary64

namespace Quotation

inductive Number
  | int (n : Int64)
  | float (x : Float)

namespace Number

def toFloat : Number → Float
  | .int n => Float.ofInt n.toInt
  | .float x => x

def ofValue? : Value → Option Number
  | .int n => some (.int n)
  | .float x => some (.float x)
  | .bool b => some (.int (if b then 1 else 0))
  | _ => none

def toValue : Number → Value
  | .int n => .int n
  | .float x => .float x

def ofOperand (op : String) (v : Value) : Except Error Number :=
  match ofValue? v with
  | some n => .ok n
  | none => .error (.host ("non-numeric argument to `" ++ op ++ "`: " ++ v.typeName))

def checked (n : Int) : Except Error Int64 :=
  if Int64.minValue.toInt ≤ n ∧ n ≤ Int64.maxValue.toInt then .ok (Int64.ofInt n)
  else .error (.host "integer overflow")

/-- Division truncates toward zero, and the remainder has the sign of the dividend. The remainder
fails where the quotient does. -/
def onInts (op : Builtin.Arithmetic) (x y : Int64) : Except Error Int64 :=
  match op with
  | .add => checked (x.toInt + y.toInt)
  | .sub => checked (x.toInt - y.toInt)
  | .mul => checked (x.toInt * y.toInt)
  | .div =>
    if y = 0 then .error (.host "attempt to divide by zero") else checked (x.toInt.tdiv y.toInt)
  | .rem =>
    if y = 0 then .error (.host "attempt to calculate the remainder with a divisor of zero")
    else do
      let _ ← checked (x.toInt.tdiv y.toInt)
      checked (x.toInt.tmod y.toInt)

def onFloats (op : Builtin.Arithmetic) (x y : Float) : Float :=
  match op with
  | .add => x + y
  | .sub => x - y
  | .mul => x * y
  | .div => x / y
  | .rem => ((Binary64.ofFloat x).rem (Binary64.ofFloat y)).toFloat

def binary (op : Builtin.Arithmetic) : Number → Number → Except Error Number
  | .int x, .int y => (onInts op x y).map .int
  | x, y => .ok (.float (onFloats op x.toFloat y.toFloat))

def negate : Number → Except Error Number
  | .int n => (checked (-n.toInt)).map .int
  | .float x => .ok (.float (-x))

def orderFloats? (x y : Float) : Option Ordering :=
  if x < y then some .lt else if x == y then some .eq else if y < x then some .gt else none

def equal : Number → Number → Bool
  | .int x, .int y => x == y
  | x, y => x.toFloat == y.toFloat

end Number

def Builtin.Order.test : Builtin.Order → Ordering → Bool
  | .lt, o => o.isLT
  | .le, o => o.isLE
  | .gt, o => o.isGT
  | .ge, o => o.isGE

end Quotation
