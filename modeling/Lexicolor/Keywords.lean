/-
Word lists. A table holds one sorted list of words for each class, and two indexes made from
them: one by the word as it is listed, one by its lower case. In both the classes stand in
order, so the first entry of a word decides. Tables are compared by their lists alone.
-/
import Lexicolor.Scope
import Lexicolor.Text.Lowercase
import Lexicolor.Text.Blank

namespace Lexicolor

/-- A word put in its place in a sorted list without repeats. -/
def insertWord (w : String) : List String → List String
  | [] => [w]
  | v :: vs => if w < v then w :: v :: vs else if w = v then v :: vs else v :: insertWord w vs

/-- The words of a list, sorted and without repeats. -/
def sortWords (ws : List String) : List String := ws.foldl (fun set w => insertWord w set) []

structure KeywordTable where
  keyword : List String
  builtIn : List String
  literal : List String
  index : List (String × WordClass)
  folded : List (String × WordClass)
deriving Repr, Inhabited

namespace KeywordTable

/-- The table of three sorted lists. -/
def ofSorted (keyword builtIn literal : List String) : KeywordTable :=
  let index := keyword.map (·, WordClass.keyword) ++ builtIn.map (·, WordClass.builtIn) ++
    literal.map (·, WordClass.literal)
  ⟨keyword, builtIn, literal, index, index.map fun (w, c) => (Text.lowercase w, c)⟩

/-- The table of three lists in any order. -/
def ofWords (keyword builtIn literal : List String) : KeywordTable :=
  ofSorted (sortWords keyword) (sortWords builtIn) (sortWords literal)

def empty : KeywordTable := ofSorted [] [] []

instance : BEq KeywordTable :=
  ⟨fun s t => s.keyword == t.keyword && s.builtIn == t.builtIn && s.literal == t.literal⟩

/-- The words of a class. -/
def words (t : KeywordTable) : WordClass → List String
  | .keyword => t.keyword
  | .builtIn => t.builtIn
  | .literal => t.literal

/-- The table with more words in one class. -/
def insertAll (t : KeywordTable) (c : WordClass) (ws : List String) : KeywordTable :=
  let grow := fun (d : WordClass) =>
    if d = c then ws.foldl (fun set w => insertWord w set) (t.words d) else t.words d
  ofSorted (grow .keyword) (grow .builtIn) (grow .literal)

/-- The table with the words of a text, which blanks part. -/
def withWords (t : KeywordTable) (c : WordClass) (text : String) : KeywordTable :=
  t.insertAll c (Text.words text)

/-- The class of a word, the first one if several list it. -/
def lookup (t : KeywordTable) (word : String) (ignoreCase : Bool) : Option WordClass :=
  if ignoreCase then t.folded.lookup (Text.lowercase word) else t.index.lookup word

def isEmpty (t : KeywordTable) : Bool := t.index.isEmpty

/-- The number of words, counted in every class that lists them. -/
def size (t : KeywordTable) : Nat := t.keyword.length + t.builtIn.length + t.literal.length

/-- The words that both classes list. -/
def shared (t : KeywordTable) (c d : WordClass) : List (String × WordClass × WordClass) :=
  ((t.words c).filter (t.words d).contains).map (·, c, d)

/-- The words listed in two classes, with the one that comes first, pair of classes by pair. -/
def duplicates (t : KeywordTable) : List (String × WordClass × WordClass) :=
  t.shared .keyword .builtIn ++ t.shared .keyword .literal ++ t.shared .builtIn .literal

end KeywordTable

end Lexicolor
