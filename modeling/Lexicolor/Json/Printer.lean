/-
Printing JSON on several lines, each level two blanks further in; empty lists and objects stay
on one line. Quotes, backslashes and control characters are escaped, nothing else.
-/
import Lexicolor.Data.Value

namespace Lexicolor.Json

open Data (Key Value)

def hexDigit (n : Nat) : Char := if n < 10 then Char.ofNat (48 + n) else Char.ofNat (87 + n)

def escapeChar (c : Char) : List Char :=
  if c == '"' then ['\\', '"']
  else if c == '\\' then ['\\', '\\']
  else if c == '\x08' then ['\\', 'b']
  else if c == '\x0c' then ['\\', 'f']
  else if c == '\n' then ['\\', 'n']
  else if c == '\r' then ['\\', 'r']
  else if c == '\t' then ['\\', 't']
  else if c < ' ' then ['\\', 'u', '0', '0', hexDigit (c.toNat / 16), hexDigit (c.toNat % 16)]
  else [c]

def quoted (s : String) : List Char := '"' :: s.toList.flatMap escapeChar ++ ['"']

def intChars : Int → List Char
  | .ofNat n => Nat.toDigits 10 n
  | .negSucc n => '-' :: Nat.toDigits 10 (n + 1)

/-- The text of a key. -/
def keyText : Key → String
  | .name s => s
  | .position n => toString n
  | .other => ""

/-- A new line at the given depth. -/
def newLine (depth : Nat) : List Char := '\n' :: List.replicate (2 * depth) ' '

mutual

def chars (depth : Nat) : Value → List Char
  | .null => "null".toList
  | .bool b => (if b then "true" else "false").toList
  | .int n => intChars n
  | .minusZero => ['-', '0']
  | .float x => (Decimal.scientific x).toList
  | .tooLarge => []
  | .str s => quoted s
  | .unpaired => []
  | .broken _ => []
  | .arr [] _ => ['[', ']']
  | .arr (v :: vs) _ =>
    '[' :: newLine (depth + 1) ++ chars (depth + 1) v ++ charsOfItems depth vs
  | .obj [] _ => ['\x7b', '\x7d']
  | .obj (m :: ms) _ =>
    '\x7b' :: newLine (depth + 1) ++ charsOfMember (depth + 1) m ++ charsOfMembers depth ms

/-- The items after the first, and the closing bracket. -/
def charsOfItems (depth : Nat) : List Value → List Char
  | [] => newLine depth ++ [']']
  | v :: vs => ',' :: newLine (depth + 1) ++ chars (depth + 1) v ++ charsOfItems depth vs

def charsOfMember (depth : Nat) : Key × Value → List Char
  | (key, v) => quoted (keyText key) ++ ':' :: ' ' :: chars depth v

/-- The members after the first, and the closing brace. -/
def charsOfMembers (depth : Nat) : List (Key × Value) → List Char
  | [] => newLine depth ++ ['\x7d']
  | m :: ms =>
    ',' :: newLine (depth + 1) ++ charsOfMember (depth + 1) m ++ charsOfMembers depth ms

end

def pretty (v : Value) : String := String.ofList (chars 0 v)

end Lexicolor.Json
