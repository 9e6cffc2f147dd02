/-
Reading numbers. A decimal is digits with at most one point among or around them and perhaps an
exponent; its floating-point value is the nearest one, or infinite when it lies beyond them all.
-/
import Lexicolor.Decimal.Shortest
import Lexicolor.Text.Lowercase

namespace Lexicolor.Decimal

/-- The value of a digit in bases up to sixteen. -/
def digitValue? (c : Char) : Option Nat :=
  if '0' ≤ c ∧ c ≤ '9' then some (c.toNat - 48)
  else if 'a' ≤ c ∧ c ≤ 'f' then some (c.toNat - 87)
  else if 'A' ≤ c ∧ c ≤ 'F' then some (c.toNat - 55)
  else none

def isDigit (c : Char) : Bool := '0' ≤ c && c ≤ '9'

/-- The number that digits write in a base; at least one digit, and no other character. -/
def natIn? (base : Nat) (cs : List Char) : Option Nat :=
  if cs.isEmpty then none
  else cs.foldlM (fun n c => do
    let d ← digitValue? c
    if d < base then some (n * base + d) else none) 0

/-- A number as it is written: a sign and a decimal. -/
structure Written where
  negative : Bool
  value : Decimal
deriving Repr, DecidableEq, Inhabited

/-- A sign and what follows it. -/
def sign (cs : List Char) : Bool × List Char :=
  match cs with
  | '-' :: rest => (true, rest)
  | '+' :: rest => (false, rest)
  | cs => (false, cs)

def written? (cs : List Char) : Option Written := do
  let (negative, cs) := sign cs
  let whole := cs.takeWhile isDigit
  let cs := cs.dropWhile isDigit
  let (fraction, cs) :=
    match cs with
    | '.' :: rest => (rest.takeWhile isDigit, rest.dropWhile isDigit)
    | cs => ([], cs)
  let exponent : Int ←
    match cs with
    | [] => some 0
    | c :: rest =>
      if c == 'e' || c == 'E' then
        let (below, ds) := sign rest
        if ds.all isDigit then (natIn? 10 ds).map fun n => if below then -(n : Int) else n else none
      else none
  let digits ← natIn? 10 (whole ++ fraction)
  return ⟨negative, ⟨digits, exponent - (fraction.length : Int)⟩⟩

/-- The floating-point number nearest to a decimal. -/
def toFloat (d : Decimal) : Float :=
  let top : Int := (width d.digits : Int) + d.power
  if d.digits = 0 || top < -330 then 0.0
  else if 310 < top then Float.ofBits 0x7FF0000000000000
  else Float.ofScientific d.digits (d.power < 0) d.power.natAbs

def Written.toFloat (w : Written) : Float := if w.negative then -w.value.toFloat else w.value.toFloat

/-- A floating-point number: a decimal, or a word for what decimals cannot write, in any case. -/
def float? (cs : List Char) : Option Float :=
  let (negative, rest) := sign cs
  let word := rest.map Text.lowerAsciiChar
  if word == "inf".toList || word == "infinity".toList then
    some (Float.ofBits (if negative then 0xFFF0000000000000 else 0x7FF0000000000000))
  else if word == "nan".toList then some (Float.ofBits 0x7FF8000000000000)
  else (written? cs).map Written.toFloat

/-- An integer of 64 bits, perhaps with a sign. -/
def int64? (cs : List Char) : Option Int := do
  let (negative, rest) := sign cs
  if !rest.all isDigit then none
  let n ← natIn? 10 rest
  if negative then (if n ≤ Nat.pow 2 63 then some (-(n : Int)) else none)
  else if n < Nat.pow 2 63 then some n else none

end Lexicolor.Decimal
