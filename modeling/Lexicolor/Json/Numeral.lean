/-
Numbers as JSON writes them, and the numbers that they stand for.
-/
import Lexicolor.Data.Value

namespace Lexicolor.Json

open Data (Value)

/-- A number as it is written. -/
structure Numeral where
  negative : Bool
  whole : List Nat
  /-- The digits after the point; none without a point. -/
  fraction : Option (List Nat)
  exponent : Option Int
deriving Repr, DecidableEq, Inhabited

/-- The digits as one number, as far as it fits into 64 bits, and the digits left beyond. -/
def foldDigits : Nat → List Nat → Nat × List Nat
  | n, [] => (n, [])
  | n, d :: ds => if n * 10 + d < Nat.pow 2 64 then foldDigits (n * 10 + d) ds else (n, d :: ds)

/-- `x * 10 ^ e`, by one multiplication or division for every 308 powers of ten. -/
def shift : Nat → Float → Int → Option Float
  | 0, x, _ => some x
  | n + 1, x, e =>
    if e.natAbs ≤ 308 then
      let p := Float.ofScientific 1 false e.natAbs
      if 0 ≤ e then
        let y := x * p
        if y.isInf then none else some y
      else some (x / p)
    else if x == 0 then some x
    else if 0 ≤ e then none
    else shift n (x / Float.ofScientific 1 false 308) (e + 308)

/-- The number that a numeral stands for. Integers of 64 bits are exact; all other numbers are
rounded from their first digits. -/
def Numeral.value (n : Numeral) : Value :=
  let (significand, beyond) := foldDigits 0 n.whole
  match n.fraction, n.exponent, beyond with
  | none, none, [] =>
    if !n.negative then .int significand
    else if significand = 0 || Nat.pow 2 63 < significand then .float (-(Float.ofNat significand))
    else .int (-(significand : Int))
  | _, _, _ =>
    let (significand, used) : Nat × Nat :=
      match n.fraction with
      | none => (significand, 0)
      | some ds =>
        let (s, left) := if beyond.isEmpty then foldDigits significand ds
          else
            match ds with
            | [] => (significand, [])
            | d :: rest => if significand * 10 + d < Nat.pow 2 64 then foldDigits significand (d :: rest)
              else (significand, d :: rest)
        (s, ds.length - left.length)
    let e : Int := (beyond.length : Int) - (used : Int) + n.exponent.getD 0
    match shift 20 (Float.ofNat significand) e with
    | none => .tooLarge
    | some x => .float (if n.negative then -x else x)

end Lexicolor.Json
