/-
Reading JSON. Every reader returns what it has read and the rest of the text, or no rest when
the text stops being JSON; the value then says where.
-/
import Lexicolor.Json.Numeral
import Lexicolor.Text.Place

namespace Lexicolor.Json

open Data (Fault Key Value)

/-- What was read and what is left; nothing is left after a fault. -/
abbrev Reading (α : Type) := α × Option (List Char)

def isSpace (c : Char) : Bool := c == ' ' || c == '\n' || c == '\t' || c == '\r'

def skipSpace (cs : List Char) : List Char := cs.dropWhile isSpace

def digit? (c : Char) : Option Nat :=
  if '0' ≤ c ∧ c ≤ '9' then some (c.toNat - 48) else none

/-- The digits at the start of a text. -/
def takeDigits : List Char → List Nat × List Char
  | [] => ([], [])
  | c :: cs =>
    match digit? c with
    | some d => let (ds, rest) := takeDigits cs; (d :: ds, rest)
    | none => ([], c :: cs)

/-- The fault of a text in which something else should stand. -/
def faultAt : List Char → Fault
  | [] => .ended
  | _ :: _ => .malformed

/-- A word such as `null`, whose first character has been seen. -/
def readWord (word : List Char) (v : Value) (cs : List Char) : Reading Value :=
  match word, cs with
  | [], cs => (v, some cs)
  | _ :: _, [] => (.broken .ended, none)
  | w :: ws, c :: cs => if w == c then readWord ws v cs else (.broken .malformed, none)

/-- A whole part, which has no zero before other digits. -/
def readWhole (cs : List Char) : Except Fault (List Nat × List Char) :=
  match takeDigits cs with
  | ([], rest) => .error (faultAt rest)
  | (0 :: _ :: _, _) => .error .malformed
  | (ds, rest) => .ok (ds, rest)

def readFraction (cs : List Char) : Except Fault (Option (List Nat) × List Char) :=
  match cs with
  | '.' :: cs =>
    match takeDigits cs with
    | ([], rest) => .error (faultAt rest)
    | (ds, rest) => .ok (some ds, rest)
  | cs => .ok (none, cs)

def readExponent (cs : List Char) : Except Fault (Option Int × List Char) :=
  let unsigned := fun (cs : List Char) (negative : Bool) =>
    match takeDigits cs with
    | ([], rest) => Except.error (faultAt rest)
    | (ds, rest) =>
      let n : Nat := ds.foldl (fun n d => n * 10 + d) 0
      .ok (some (if negative then -(n : Int) else n), rest)
  match cs with
  | c :: cs =>
    if c == 'e' || c == 'E' then
      match cs with
      | '-' :: cs => unsigned cs true
      | '+' :: cs => unsigned cs false
      | cs => unsigned cs false
    else .ok (none, c :: cs)
  | [] => .ok (none, [])

def readNumeral (negative : Bool) (cs : List Char) : Except Fault (Numeral × List Char) := do
  let (whole, cs) ← readWhole cs
  let (fraction, cs) ← readFraction cs
  let (exponent, cs) ← readExponent cs
  return (⟨negative, whole, fraction, exponent⟩, cs)

def readNumber (negative : Bool) (cs : List Char) : Reading Value :=
  match readNumeral negative cs with
  | .ok (n, rest) => (n.value, some rest)
  | .error f => (.broken f, none)

def hexValue? (c : Char) : Option Nat :=
  if '0' ≤ c ∧ c ≤ '9' then some (c.toNat - 48)
  else if 'a' ≤ c ∧ c ≤ 'f' then some (c.toNat - 87)
  else if 'A' ≤ c ∧ c ≤ 'F' then some (c.toNat - 55)
  else none

/-- Four hexadecimal digits. The text must go on for four bytes, whatever they are. -/
def readUnit (cs : List Char) : Except Fault (Nat × List Char) :=
  match cs with
  | a :: b :: c :: d :: rest =>
    match hexValue? a, hexValue? b, hexValue? c, hexValue? d with
    | some a, some b, some c, some d => .ok (a * 4096 + b * 256 + c * 16 + d, rest)
    | _, _, _, _ => .error .malformed
  | cs => .error (if Text.bytes cs < 4 then .ended else .malformed)

/-- What an escape stands for. -/
inductive Escaped where
  | char (c : Char)
  | unpaired

/-- What follows a backslash. -/
def readEscape (cs : List Char) : Except Fault (Escaped × List Char) :=
  match cs with
  | [] => .error .ended
  | '"' :: r => .ok (.char '"', r)
  | '\\' :: r => .ok (.char '\\', r)
  | '/' :: r => .ok (.char '/', r)
  | 'b' :: r => .ok (.char '\x08', r)
  | 'f' :: r => .ok (.char '\x0c', r)
  | 'n' :: r => .ok (.char '\n', r)
  | 'r' :: r => .ok (.char '\r', r)
  | 't' :: r => .ok (.char '\t', r)
  | 'u' :: r => do
    let (n, r) ← readUnit r
    if n < 0xD800 || 0xDFFF < n then return (.char (Char.ofNat n), r)
    if 0xDC00 ≤ n then return (.unpaired, r)
    match r with
    | '\\' :: 'u' :: r' =>
      let (m, r'') ← readUnit r'
      if 0xDC00 ≤ m && m ≤ 0xDFFF then
        return (.char (Char.ofNat (0x10000 + (n - 0xD800) * 0x400 + (m - 0xDC00))), r'')
      else return (.unpaired, r)
    | _ => return (.unpaired, r)
  | _ :: _ => .error .malformed

/-- The text of a string, its opening quote passed over; no text when half of a surrogate pair
occurs in it. `chars` holds what has been read, latest first. -/
def readString : Nat → Option (List Char) → List Char →
    Except Fault (Option String × List Char)
  | 0, _, _ => .error .ended
  | _ + 1, _, [] => .error .ended
  | n + 1, chars, c :: cs =>
    if c == '"' then .ok (chars.map fun cs => String.ofList cs.reverse, cs)
    else if c == '\\' then
      match readEscape cs with
      | .error f => .error f
      | .ok (.char c, rest) => readString n (chars.map (c :: ·)) rest
      | .ok (.unpaired, rest) => readString n none rest
    else if c < ' ' then .error .malformed
    else readString n (chars.map (c :: ·)) cs

def readText (cs : List Char) : Except Fault (Option String × List Char) :=
  readString (cs.length + 1) (some []) cs

/-- A key as it was read; none for half of a surrogate pair. -/
def keyOf : Option String → Key
  | some s => .name s
  | none => .other

mutual

/-- A value, blanks before it passed over. -/
def readValue : Nat → List Char → Reading Value
  | 0, _ => (.broken .malformed, none)
  | n + 1, cs =>
    match skipSpace cs with
    | [] => (.broken .ended, none)
    | '[' :: r =>
      let ((items, fault), rest) := readItems n true r
      (.arr items fault, rest)
    | '\x7b' :: r =>
      let ((members, fault), rest) := readMembers n true r
      (.obj members fault, rest)
    | '"' :: r =>
      match readText r with
      | .error f => (.broken f, none)
      | .ok (some s, rest) => (.str s, some rest)
      | .ok (none, rest) => (.unpaired, some rest)
    | 'n' :: r => readWord "ull".toList .null r
    | 't' :: r => readWord "rue".toList (.bool true) r
    | 'f' :: r => readWord "alse".toList (.bool false) r
    | '-' :: r => readNumber true r
    | c :: r => if (digit? c).isSome then readNumber false (c :: r) else (.broken .malformed, none)

/-- The items of a list up to its bracket; before all but the first a comma. -/
def readItems : Nat → Bool → List Char → Reading (List Value × Option Fault)
  | 0, _, _ => (([], some .malformed), none)
  | n + 1, first, cs =>
    let item := fun (cs : List Char) =>
      match readValue n cs with
      | (v, none) => (([v], none), none)
      | (v, some rest) =>
        let ((vs, fault), rest) := readItems n false rest
        ((v :: vs, fault), rest)
    match skipSpace cs with
    | [] => (([], some .ended), none)
    | ']' :: r => (([], none), some r)
    | c :: r =>
      if first then item (c :: r)
      else if c == ',' then
        match skipSpace r with
        | ']' :: _ => (([.broken .malformed], none), none)
        | r => item r
      else (([], some .malformed), none)

/-- The members of an object up to its brace. -/
def readMembers : Nat → Bool → List Char → Reading (List (Key × Value) × Option Fault)
  | 0, _, _ => (([], some .malformed), none)
  | n + 1, first, cs =>
    let member := fun (cs : List Char) =>
      match skipSpace cs with
      | '"' :: r =>
        match readText r with
        | .error f => (([], some f), none)
        | .ok (key, r) =>
          match skipSpace r with
          | ':' :: r =>
            match readValue n r with
            | (v, none) => (([(keyOf key, v)], none), none)
            | (v, some rest) =>
              let ((members, fault), rest) := readMembers n false rest
              (((keyOf key, v) :: members, fault), rest)
          | r => (([(keyOf key, .broken (faultAt r))], none), none)
      | r => (([], some (faultAt r)), none)
    match skipSpace cs with
    | [] => (([], some .ended), none)
    | '\x7d' :: r => (([], none), some r)
    | c :: r =>
      if first then member (c :: r)
      else if c == ',' then member r
      else (([], some .malformed), none)

end

/-- A text read as one value. -/
structure Document where
  value : Value
  /-- Whether something follows the value that is no blank. -/
  trailing : Bool

def read (text : String) : Document :=
  match readValue (text.length + 1) text.toList with
  | (v, none) => ⟨v, false⟩
  | (v, some rest) => ⟨v, !(skipSpace rest).isEmpty⟩

end Lexicolor.Json
