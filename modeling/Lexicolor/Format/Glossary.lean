/-
The listed words of a text, each once and in order of appearance, with their Python names.
-/
import Lexicolor.Token
import Lexicolor.Piyathon.Names

namespace Lexicolor.Format

/-- The tokens whose text has not come before. -/
def firstByText : List String → List Token → List Token
  | _, [] => []
  | seen, t :: ts =>
    if seen.contains t.text then firstByText seen ts else t :: firstByText (t.text :: seen) ts

def glossaryLine (t : Token) : String :=
  t.text ++ " " ++ t.scope.name ++ " " ++ (Piyathon.pythonName t.text).getD "-"

def glossary (tokens : List Token) : String :=
  let listed := (tokens.flatMap Token.walk).filter fun t => t.scope.isWordClass
  "\n".intercalate ((firstByText [] listed).map glossaryLine)

end Lexicolor.Format
