/-
What can be wrong with a grammar that was read without fault: an empty name or alias, a word
in two lists, a listed word that the identifier pattern does not match as a whole.
-/
import Lexicolor.Grammar

namespace Lexicolor

inductive GrammarError where
  | emptyName
  | emptyAlias (language : String)
  | duplicateWord (word : String) (first second : WordClass)
  | unmatchableWord (word : String) (listed : WordClass)
deriving Repr, DecidableEq, Inhabited

def GrammarError.message : GrammarError → String
  | emptyName => "Grammar has an empty name"
  | emptyAlias language => "Grammar '" ++ language ++ "' has an empty alias"
  | duplicateWord word first second =>
    "Word '" ++ word ++ "' is listed as both " ++ first.name ++ " and " ++ second.name
  | unmatchableWord word listed =>
    listed.name ++ " word '" ++ word ++ "' does not match the identifier pattern"

namespace Grammar

/-- Every problem of the grammar. -/
def problems (g : Grammar) : List GrammarError :=
  (if Text.isAllBlank g.name then [.emptyName] else []) ++
  (if g.aliases.any Text.isAllBlank then [.emptyAlias g.name] else []) ++
  g.keywords.duplicates.map (fun (w, c, d) => .duplicateWord w c d) ++
  WordClass.all.flatMap fun c =>
    ((g.keywords.words c).filter fun w => !g.identifier.matchesFully w).map (.unmatchableWord · c)

def isValid (g : Grammar) : Bool := g.problems.isEmpty

end Grammar

end Lexicolor
