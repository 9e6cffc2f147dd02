/-
White space, and the words that it parts.
-/
import Lexicolor.Text.Classes

namespace Lexicolor.Text

/-- The code points with the property `White_Space`. -/
def whiteSpace : Intervals := [
  (0x0009, 0x000D), (0x0020, 0x0020), (0x0085, 0x0085), (0x00A0, 0x00A0), (0x1680, 0x1680),
  (0x2000, 0x200A), (0x2028, 0x2029), (0x202F, 0x202F), (0x205F, 0x205F), (0x3000, 0x3000)]

def isBlank (c : Char) : Bool := whiteSpace.contains c.toNat

/-- Whether a text is empty or consists of blanks. -/
def isAllBlank (s : String) : Bool := s.toList.all isBlank

/-- The words of a text read so far: the one being read, then the finished ones, all reversed. -/
def wordsFrom : List Char → List Char → List (List Char)
  | [], [] => []
  | word, [] => [word.reverse]
  | [], c :: cs => if isBlank c then wordsFrom [] cs else wordsFrom [c] cs
  | word, c :: cs => if isBlank c then word.reverse :: wordsFrom [] cs else wordsFrom (c :: word) cs

/-- The maximal runs of characters that are not blank, in order. -/
def words (s : String) : List String := (wordsFrom [] s.toList).map String.ofList

end Lexicolor.Text
