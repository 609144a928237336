namespace Quotation

inductive Binary64
  | nan
  | infinite (negative : Bool)
  | finite (negative : Bool) (m : Nat) (q : Int)
  deriving DecidableEq, Repr

namespace Binary64

def signBit (bits : Nat) : Bool := bits / Nat.pow 2 63 % 2 == 1

def exponentField (bits : Nat) : Nat := bits / Nat.pow 2 52 % Nat.pow 2 11

def fractionField (bits : Nat) : Nat := bits % Nat.pow 2 52

def ofBits (bits : UInt64) : Binary64 :=
  let n := bits.toNat
  let e := exponentField n
  let f := fractionField n
  if e = 2047 then if f = 0 then .infinite (signBit n) else .nan
  else if e = 0 then .finite (signBit n) f (-1074)
  else .finite (signBit n) (Nat.pow 2 52 + f) (e - 1075)

def ofFloat (x : Float) : Binary64 := ofBits x.toBits

def narrow : Nat → Nat → Int → Nat × Int
  | 0, m, q => (m, q)
  | fuel + 1, m, q => if Nat.pow 2 53 ≤ m ∨ q < -1074 then narrow fuel (m / 2) (q + 1) else (m, q)

def widen : Nat → Nat → Int → Nat × Int
  | 0, m, q => (m, q)
  | fuel + 1, m, q => if m < Nat.pow 2 52 ∧ -1074 < q then widen fuel (2 * m) (q - 1) else (m, q)

/-- The bits of `m * 2 ^ q`, which is exact when the number has at most 53 significant bits and is
in range. -/
def bitsOfDyadic (negative : Bool) (m : Nat) (q : Int) : Nat :=
  let sign := if negative then Nat.pow 2 63 else 0
  if m = 0 then sign
  else
    let (a, p) := narrow (Nat.log2 m + 1100) m q
    let (b, r) := widen 53 a p
    if b < Nat.pow 2 52 then sign + b
    else sign + (r + 1075).toNat * Nat.pow 2 52 + (b - Nat.pow 2 52)

def toFloat : Binary64 → Float
  | .nan => 0.0 / 0.0
  | .infinite negative => if negative then -1.0 / 0.0 else 1.0 / 0.0
  | .finite negative m q => Float.ofBits (UInt64.ofNat (bitsOfDyadic negative m q))

def rem : Binary64 → Binary64 → Binary64
  | .finite s m q, .finite _ n r =>
    if n = 0 then .nan
    else
      let e := min q r
      .finite s ((m * Nat.pow 2 (q - e).toNat) % (n * Nat.pow 2 (r - e).toNat)) e
  | .finite s m q, .infinite _ => .finite s m q
  | _, _ => .nan

end Binary64

end Quotation
