/-
Sets of characters as they are written in patterns. A set is kept as it was written, and
`contains` says what it means; `folded` holds every character that writes a letter of the set
when case is ignored.
-/
import Lexicolor.Text.Classes
import Lexicolor.Text.Blank
import Lexicolor.Text.CaseRuns

namespace Lexicolor.Regex

open Text

/-- Whether a character belongs to words: letters, marks, digits, connectors and joiners. -/
def isWordChar (c : Char) : Bool :=
  alphabetic.contains c.toNat || decimalDigits.contains c.toNat || wordMarks.contains c.toNat

def isDecimalDigit (c : Char) : Bool := decimalDigits.contains c.toNat

/-- Whether a character is a letter or a number of any kind. -/
def isAlphanumeric (c : Char) : Bool :=
  alphabetic.contains c.toNat || decimalDigits.contains c.toNat || otherNumbers.contains c.toNat

inductive CharSet where
  | none
  | any
  | single (c : Char)
  | range (lo hi : Char)
  | digit
  | space
  | word
  | compl (s : CharSet)
  | union (s t : CharSet)
  | inter (s t : CharSet)
  | folded (s : CharSet)
deriving Repr, DecidableEq, Inhabited

namespace CharSet

def contains : CharSet → Char → Bool
  | .none, _ => false
  | .any, _ => true
  | .single d, c => c == d
  | .range lo hi, c => decide (lo ≤ c) && decide (c ≤ hi)
  | .digit, c => isDecimalDigit c
  | .space, c => isBlank c
  | .word, c => isWordChar c
  | .compl s, c => !s.contains c
  | .union s t, c => s.contains c || t.contains c
  | .inter s t, c => s.contains c && t.contains c
  | .folded s, c => s.contains c || (orbit c.toNat).any fun n => s.contains (Char.ofNat n)

/-- What is in `s` but not in `t`. -/
def diff (s t : CharSet) : CharSet := .inter s (.compl t)

/-- What is in exactly one of the two. -/
def symmDiff (s t : CharSet) : CharSet := .union (s.diff t) (t.diff s)

def unions : List CharSet → CharSet
  | [] => .none
  | [s] => s
  | s :: ss => .union s (unions ss)

def ascii : CharSet := .range '\x00' '\x7f'

def asciiDigit : CharSet := .range '0' '9'

def asciiSpace : CharSet := .union (.range '\t' '\r') (.single ' ')

def asciiAlpha : CharSet := .union (.range 'A' 'Z') (.range 'a' 'z')

def asciiAlnum : CharSet := .union asciiDigit asciiAlpha

def asciiWord : CharSet := .union asciiAlnum (.single '_')

/-- The sets that have a name of their own inside brackets, as in `[[:alpha:]]`. -/
def named? : String → Option CharSet
  | "alnum" => some asciiAlnum
  | "alpha" => some asciiAlpha
  | "ascii" => some ascii
  | "blank" => some (.union (.single '\t') (.single ' '))
  | "cntrl" => some (.union (.range '\x00' '\x1f') (.single '\x7f'))
  | "digit" => some asciiDigit
  | "graph" => some (.range '!' '~')
  | "lower" => some (.range 'a' 'z')
  | "print" => some (.range ' ' '~')
  | "punct" => some (unions [.range '!' '/', .range ':' '@', .range '[' '\x60', .range '\x7b' '~'])
  | "space" => some asciiSpace
  | "upper" => some (.range 'A' 'Z')
  | "word" => some asciiWord
  | "xdigit" => some (unions [asciiDigit, .range 'A' 'F', .range 'a' 'f'])
  | _ => .none

/-- Whether no character beyond ASCII, up to one byte's worth of code points, is in the set. -/
def isAsciiOnly (s : CharSet) : Bool :=
  (List.range 128).all fun n => !s.contains (Char.ofNat (128 + n))

end CharSet

end Lexicolor.Regex
