/-
Two ways to write a number: `plain` always writes all places, `scientific` goes over to an
exponent for large and small numbers and marks every number as no integer.
-/
import Lexicolor.Decimal.Shortest

namespace Lexicolor.Decimal

def digitsOf (n : Nat) : List Char := Nat.toDigits 10 n

/-- The digits with a point `places` from the end; zeros fill up to it. -/
def withPoint (digits : List Char) (places : Nat) : List Char :=
  let padded := List.replicate (places + 1 - digits.length) '0' ++ digits
  let whole := padded.take (padded.length - places)
  let fraction := padded.drop (padded.length - places)
  if fraction.isEmpty then whole else whole ++ '.' :: fraction

/-- A decimal with all its places written out. -/
def positional (d : Decimal) : List Char :=
  match d.power with
  | .ofNat k => digitsOf d.digits ++ List.replicate k '0'
  | .negSucc k => withPoint (digitsOf d.digits) (k + 1)

def signed (negative : Bool) (text : List Char) : String :=
  String.ofList (if negative then '-' :: text else text)

/-- Every place written out, and no point in an integer. -/
def plain (x : Float) : String :=
  match parts x with
  | .nan => "NaN"
  | .infinite negative => signed negative "inf".toList
  | .zero negative => signed negative ['0']
  | .finite negative d => signed negative d.positional

/-- Every place written out, with a zero after the point of an integer. -/
def pointed (x : Float) : String :=
  let text := plain x
  if x.isFinite && !text.toList.contains '.' then text ++ ".0" else text

/-- At least two digits after the sign of an exponent. -/
def exponentText (e : Int) : List Char :=
  let digits := digitsOf e.natAbs
  (if e < 0 then '-' else '+') :: (if digits.length < 2 then '0' :: digits else digits)

/-- The leading digit stands before the point; numbers from `10 ^ -5` up to below `10 ^ 16` are
written out, with a zero after the point of an integer. -/
def scientific (x : Float) : String :=
  match parts x with
  | .nan => "NaN"
  | .infinite negative => signed negative "inf".toList
  | .zero negative => signed negative "0.0".toList
  | .finite negative d =>
    let digits := digitsOf d.digits
    let leading : Int := d.power + (digits.length : Int) - 1
    if -5 ≤ leading ∧ leading ≤ 15 then
      signed negative (if 0 ≤ d.power then d.positional ++ ".0".toList else d.positional)
    else
      signed negative (withPoint digits (digits.length - 1) ++ 'e' :: exponentText leading)

end Lexicolor.Decimal
