/-
Dates and times. They are read as far as they are valid and kept as texts of one form: a capital
letter between date and time, and no zeros at the end of a fraction.
-/
import Lexicolor.Decimal.Reader

namespace Lexicolor.Toml.Moment

/-- Exactly so many digits, as a number. -/
def digits? (count : Nat) (cs : List Char) : Option (Nat × List Char) :=
  let ds := cs.take count
  if ds.length = count && ds.all Decimal.isDigit then
    (Decimal.natIn? 10 ds).map (·, cs.drop count)
  else none

def char? (c : Char) (cs : List Char) : Option (List Char) :=
  match cs with
  | d :: rest => if c == d then some rest else none
  | [] => none

/-- A number of two digits between two bounds. -/
def pair? (low high : Nat) (cs : List Char) : Option (Nat × List Char) := do
  let (n, cs) ← digits? 2 cs
  if low ≤ n ∧ n ≤ high then some (n, cs) else none

/-- A number with zeros before it, up to a width. -/
def padded (width n : Nat) : List Char :=
  let ds := Nat.toDigits 10 n
  List.replicate (width - ds.length) '0' ++ ds

def daysIn (year month : Nat) : Nat :=
  if month = 2 then (if year % 4 = 0 ∧ (year % 100 ≠ 0 ∨ year % 400 = 0) then 29 else 28)
  else if month = 4 ∨ month = 6 ∨ month = 9 ∨ month = 11 then 30
  else 31

def date? (cs : List Char) : Option (List Char × List Char) := do
  let (year, cs) ← digits? 4 cs
  let (month, cs) ← pair? 1 12 (← char? '-' cs)
  let (day, cs) ← pair? 1 31 (← char? '-' cs)
  if daysIn year month < day then none
  return (padded 4 year ++ '-' :: padded 2 month ++ '-' :: padded 2 day, cs)

/-- The digits of a fraction that count, the first nine, without zeros at the end. -/
def fraction (digits : List Char) : List Char :=
  match ((digits.take 9).reverse.dropWhile (· == '0')).reverse with
  | [] => []
  | ds => '.' :: ds

def time? (cs : List Char) : Option (List Char × List Char) := do
  let (hour, cs) ← pair? 0 23 cs
  let (minute, cs) ← pair? 0 59 (← char? ':' cs)
  let (second, cs) ← pair? 0 60 (← char? ':' cs)
  let whole := padded 2 hour ++ ':' :: padded 2 minute ++ ':' :: padded 2 second
  match cs with
  | '.' :: rest =>
    let ds := rest.takeWhile Decimal.isDigit
    if ds.isEmpty then return (whole, cs)
    return (whole ++ fraction ds, rest.drop ds.length)
  | cs => return (whole, cs)

/-- How far a time is from universal time. -/
def offset? (cs : List Char) : Option (List Char × List Char) := do
  match cs with
  | [] => none
  | c :: rest =>
    if c == 'Z' || c == 'z' then return (['Z'], rest)
    if c != '+' && c != '-' then none
    let (hour, rest) ← pair? 0 23 rest
    let (minute, rest) ← pair? 0 59 (← char? ':' rest)
    let sign := if c == '-' && hour + minute ≠ 0 then '-' else '+'
    return (sign :: padded 2 hour ++ ':' :: padded 2 minute, rest)

/-- The time after a date, with its offset. -/
def timeAfter? (cs : List Char) : Option (List Char × List Char) := do
  match cs with
  | [] => none
  | c :: rest =>
    if c != 'T' && c != 't' && c != ' ' then none
    let (time, rest) ← time? rest
    match offset? rest with
    | some (offset, rest) => return ('T' :: time ++ offset, rest)
    | none => return ('T' :: time, rest)

/-- A date, a date with a time, or a time. -/
def read? (cs : List Char) : Option (String × List Char) :=
  match date? cs with
  | some (date, rest) =>
    match timeAfter? rest with
    | some (time, rest) => some (String.ofList (date ++ time), rest)
    | none => some (String.ofList date, rest)
  | none => (time? cs).map fun (time, rest) => (String.ofList time, rest)

end Lexicolor.Toml.Moment
