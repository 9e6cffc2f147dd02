/-
The shortest decimal that reads back as a given binary number. A number is `mantissa * 2 ^ power`;
every real closer to it than to its neighbours reads back as it. `shortest` tries one digit, two
digits, and so on, and takes the first grid of decimals with a point that reads back.
-/

namespace Lexicolor

/-- The number `digits * 10 ^ power`. -/
structure Decimal where
  digits : Nat
  power : Int
deriving Repr, DecidableEq, Inhabited

namespace Decimal

/-- A positive fraction. -/
structure Ratio where
  num : Nat
  den : Nat

namespace Ratio

/-- `n * base ^ e`. -/
def scaled (n base : Nat) (e : Int) : Ratio :=
  match e with
  | .ofNat k => ⟨n * Nat.pow base k, 1⟩
  | .negSucc k => ⟨n, Nat.pow base (k + 1)⟩

def lt (r s : Ratio) : Bool := r.num * s.den < s.num * r.den

def le (r s : Ratio) : Bool := r.num * s.den ≤ s.num * r.den

/-- The distance between two fractions. -/
def distance (r s : Ratio) : Ratio :=
  ⟨Nat.max (r.num * s.den) (s.num * r.den) - Nat.min (r.num * s.den) (s.num * r.den), r.den * s.den⟩

end Ratio

/-- The numbers that read back as one number: all between two ends, the ends included or not. -/
structure Interval where
  low : Ratio
  high : Ratio
  closed : Bool

def Interval.contains (i : Interval) (r : Ratio) : Bool :=
  if i.closed then i.low.le r && r.le i.high else i.low.lt r && r.lt i.high

/-- The numbers that read back as `m * 2 ^ q`. Below a power of two the neighbours lie twice as
close. -/
def readBack (m : Nat) (q : Int) : Interval where
  low := if m = Nat.pow 2 52 then Ratio.scaled (4 * m - 1) 2 (q - 2) else Ratio.scaled (2 * m - 1) 2 (q - 1)
  high := Ratio.scaled (2 * m + 1) 2 (q - 1)
  closed := m % 2 = 0

/-- The point of the grid of multiples of `10 ^ e` that reads back as the value; of two, the nearer. -/
def onGrid (i : Interval) (value : Ratio) (e : Int) : Option Decimal :=
  let unit := Ratio.scaled 1 10 e
  let below := (value.num * unit.den) / (value.den * unit.num)
  let point := fun (d : Nat) => Ratio.scaled d 10 e
  let fits := [below, below + 1].filter fun d => 0 < d && i.contains (point d)
  match fits with
  | [] => none
  | [d] => some ⟨d, e⟩
  | d :: d' :: _ =>
    if ((point d').distance value).lt ((point d).distance value) then some ⟨d', e⟩ else some ⟨d, e⟩

/-- The first grid, from multiples of `10 ^ e` down, with a point that reads back. -/
def firstGrid (i : Interval) (value : Ratio) : Nat → Int → Decimal
  | 0, e => ⟨0, e⟩
  | n + 1, e =>
    match onGrid i value e with
    | some d => d
    | none => firstGrid i value n (e - 1)

/-- The number of decimal digits of `n`. -/
def width (n : Nat) : Nat := (Nat.toDigits 10 n).length

/-- The shortest decimal that reads back as `m * 2 ^ q`, for a positive `m` below `2 ^ 53`. -/
def shortest (m : Nat) (q : Int) : Decimal :=
  let value := Ratio.scaled m 2 q
  let top : Int := (width value.num : Int) - (width value.den : Int) + 1
  firstGrid (readBack m q) value 40 top

/-- A floating-point number taken apart. -/
inductive Parts where
  | nan
  | infinite (negative : Bool)
  | zero (negative : Bool)
  | finite (negative : Bool) (value : Decimal)
deriving Repr, DecidableEq, Inhabited

/-- The parts of a number with the given bits: sign, eleven bits of exponent, fifty-two of
mantissa. -/
def partsOfBits (bits : Nat) : Parts :=
  let negative : Bool := Nat.pow 2 63 ≤ bits
  let exponent : Nat := (bits / Nat.pow 2 52) % Nat.pow 2 11
  let mantissa : Nat := bits % Nat.pow 2 52
  if exponent = 2047 then (if mantissa = 0 then .infinite negative else .nan)
  else if exponent = 0 then
    if mantissa = 0 then .zero negative else .finite negative (shortest mantissa (-1074))
  else .finite negative (shortest (Nat.pow 2 52 + mantissa) ((exponent : Int) - 1075))

def parts (x : Float) : Parts := partsOfBits x.toBits.toNat

end Decimal

end Lexicolor
