import Quotation.Binary64.Shortest

namespace Quotation.Binary64

def Decimal.text (d : Decimal) : String :=
  let ds := Nat.toDigits 10 d.digits
  if 0 ≤ d.exponent then String.ofList (ds ++ List.replicate d.exponent.toNat '0')
  else
    let places := (-d.exponent).toNat
    let ds := List.replicate (places + 1 - ds.length) '0' ++ ds
    String.ofList (ds.take (ds.length - places) ++ '.' :: ds.drop (ds.length - places))

def whole? (m : Nat) (q : Int) : Option Nat :=
  if 0 ≤ q then some (m * Nat.pow 2 q.toNat)
  else if m % Nat.pow 2 (-q).toNat = 0 then some (m / Nat.pow 2 (-q).toNat)
  else none

def signText (negative : Bool) : String := if negative then "-" else ""

def text : Binary64 → String
  | .nan => "NaN"
  | .infinite negative => signText negative ++ "inf"
  | .finite negative m q =>
    match whole? m q with
    | some n => signText negative ++ toString n ++ ".0"
    | none => signText negative ++ (shortest m q).text

end Quotation.Binary64

namespace Quotation

def nearestDouble (digits : Nat) (exponent : Int) : Float :=
  if digits = 0 then 0.0
  else
    let top := (Nat.toDigits 10 digits).length + exponent
    if top < -400 then 0.0
    else if 400 < top then 1.0 / 0.0
    else if 0 ≤ exponent then Float.ofScientific digits false exponent.toNat
    else Float.ofScientific digits true (-exponent).toNat

end Quotation
