import Quotation.Binary64

/-! The shortest decimal that reads back. The reals that round to `m * 2 ^ q` form an interval; of
the decimals with the fewest digits inside it, the one nearest to the number is chosen, and of two
equally near ones the larger. -/

namespace Quotation.Binary64

structure Decimal where
  digits : Nat
  exponent : Int
  deriving DecidableEq, Repr

def digitCount (n : Nat) : Nat := (Nat.toDigits 10 n).length

def magnitude (m : Nat) (q : Int) : Int :=
  let num := m * Nat.pow 2 q.toNat
  let den := Nat.pow 2 (-q).toNat
  if den ≤ num then digitCount (num / den) else 1 - (digitCount ((den + num - 1) / num - 1) : Int)

/-- Quarter steps of `m`: the number is `4 * m` of them, and the interval of reals that round to it
reaches two up and two down, or one down from the least number of a binade. -/
structure Interval where
  low : Nat
  mid : Nat
  high : Nat
  closed : Bool
  deriving DecidableEq, Repr

def Interval.of (m : Nat) (q : Int) : Interval where
  low := if m = Nat.pow 2 52 ∧ -1074 < q then 4 * m - 1 else 4 * m - 2
  mid := 4 * m
  high := 4 * m + 2
  closed := m % 2 == 0

def commonDecimal (s p : Int) (c : Nat) : Nat := c * Nat.pow 10 s.toNat * Nat.pow 2 (-p).toNat

def commonBinary (s p : Int) (a : Nat) : Nat := a * Nat.pow 2 p.toNat * Nat.pow 10 (-s).toNat

def Interval.contains (i : Interval) (s p : Int) (c : Nat) : Bool :=
  let x := commonDecimal s p c
  if i.closed then commonBinary s p i.low ≤ x && x ≤ commonBinary s p i.high
  else commonBinary s p i.low < x && x < commonBinary s p i.high

def Interval.nearest? (i : Interval) (s p : Int) : Option Nat :=
  let v := commonBinary s p i.mid
  let c := v / commonDecimal s p 1
  let below := i.contains s p c
  let above := i.contains s p (c + 1)
  if below && above then
    if v - commonDecimal s p c < commonDecimal s p (c + 1) - v then some c else some (c + 1)
  else if below then some c
  else if above then some (c + 1)
  else none

def Decimal.ofDigits (c n : Nat) (e : Int) : Decimal :=
  if c = Nat.pow 10 n then ⟨1, e⟩ else ⟨c, e - n⟩

def search (i : Interval) (e p : Int) : Nat → Nat → Decimal
  | 0, n => ⟨commonBinary (e - n) p i.mid / commonDecimal (e - n) p 1, e - n⟩
  | fuel + 1, n =>
    match i.nearest? (e - n) p with
    | some c => .ofDigits c n e
    | none => search i e p fuel (n + 1)

def shortest (m : Nat) (q : Int) : Decimal :=
  search (Interval.of m q) (magnitude m q) (q - 2) 17 1

end Quotation.Binary64
