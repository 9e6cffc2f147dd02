/-
What a scalar without quotes stands for. Nothing and the words for null are null; the words for
truth values, integers and finite floating-point numbers stand for themselves; all else is text.
A number with a leading zero before other digits is text.
-/
import Lexicolor.Decimal.Reader

namespace Lexicolor.Yaml

inductive Plain where
  | null
  | bool (b : Bool)
  /-- An integer from 0 up that fits into 64 bits. -/
  | nat (n : Nat)
  /-- An integer written with a minus sign that fits into 64 bits. -/
  | negative (n : Nat)
  /-- An integer that fits into 128 bits only. -/
  | huge
  | float (x : Float)
  | text
deriving Repr, Inhabited

namespace Plain

def isNull (s : String) : Bool := s.isEmpty || ["null", "Null", "NULL", "~"].contains s

def bool? (s : String) : Option Bool :=
  if ["true", "True", "TRUE"].contains s then some true
  else if ["false", "False", "FALSE"].contains s then some false
  else none

/-- Whether a leading zero stands before other digits only. -/
def isPadded (cs : List Char) : Bool :=
  match cs with
  | '0' :: d :: ds => (d :: ds).all Decimal.isDigit
  | _ => false

/-- An integer without its sign, in base ten or in the base that follows a zero. -/
def magnitude? (cs : List Char) : Option Nat :=
  match cs with
  | '0' :: 'x' :: ds => Decimal.natIn? 16 ds
  | '0' :: 'o' :: ds => Decimal.natIn? 8 ds
  | '0' :: 'b' :: ds => Decimal.natIn? 2 ds
  | cs => if isPadded cs then none else Decimal.natIn? 10 cs

def integer? (cs : List Char) : Option Plain := do
  let (below, cs) := Decimal.sign cs
  let n ← magnitude? cs
  if below then
    if n ≤ Nat.pow 2 63 then some (.negative n) else if n ≤ Nat.pow 2 127 then some .huge else none
  else if n < Nat.pow 2 64 then some (.nat n) else if n < Nat.pow 2 128 then some .huge else none

def float? (s : String) : Option Float :=
  if [".inf", ".Inf", ".INF", "+.inf", "+.Inf", "+.INF"].contains s then
    some (Float.ofBits 0x7FF0000000000000)
  else if ["-.inf", "-.Inf", "-.INF"].contains s then some (Float.ofBits 0xFFF0000000000000)
  else if [".nan", ".NaN", ".NAN"].contains s then some (Float.ofBits 0x7FF8000000000000)
  else do
    let x := (← Decimal.written? s.toList).toFloat
    if x.isFinite then some x else none

def ofText (s : String) : Plain :=
  let cs := s.toList
  if isNull s then .null
  else
    match bool? s, integer? cs with
    | some b, _ => .bool b
    | none, some n => n
    | none, none =>
      if isPadded (Decimal.sign cs).2 then .text
      else
        match float? s with
        | some x => .float x
        | none => .text

/-- Whether a text means itself when it stands without quotes. -/
def isText (s : String) : Bool :=
  match ofText s with
  | .text => !isPadded (Decimal.sign s.toList).2
  | _ => false

end Plain

end Lexicolor.Yaml
