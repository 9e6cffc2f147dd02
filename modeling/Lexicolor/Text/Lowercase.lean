/-
Lower-casing. `lowercase` is the full mapping of a text: a sigma that ends a word becomes
the final sigma, the dotted capital I becomes two characters, all else is mapped character
by character. `lowercaseAscii` touches the 26 Latin capitals only.
-/
import Lexicolor.Text.CaseRuns
import Lexicolor.Text.Casing

namespace Lexicolor.Text

/-- The lower case of one character on its own. -/
def lowerChar (c : Char) : Char :=
  match lowerRuns.findSome? (·.image? c.toNat) with
  | some n => Char.ofNat n
  | none => c

/-- Whether the first character that is not ignored has case. -/
def meetsCased (cs : List Char) : Bool :=
  match cs.dropWhile fun c => caseIgnorable.contains c.toNat with
  | [] => false
  | c :: _ => cased.contains c.toNat

/-- Lower case of `cs`, whose predecessors are `before`, nearest first. -/
def lowerFrom (before : List Char) : List Char → List Char
  | [] => []
  | c :: cs =>
    let image :=
      if c = 'Σ' then [if meetsCased before && !meetsCased cs then 'ς' else 'σ']
      else if c = 'İ' then ['i', '\u0307']
      else [lowerChar c]
    image ++ lowerFrom (c :: before) cs

def lowercase (s : String) : String := String.ofList (lowerFrom [] s.toList)

def lowerAsciiChar (c : Char) : Char :=
  if 'A' ≤ c ∧ c ≤ 'Z' then Char.ofNat (c.toNat + 32) else c

def lowercaseAscii (s : String) : String := String.ofList (s.toList.map lowerAsciiChar)

end Lexicolor.Text
