/-
Tokens as JSON objects with their scope, range and text, and their children when there are any.
-/
import Lexicolor.Token
import Lexicolor.Json.Printer

namespace Lexicolor.Format

open Data (Value)

mutual

def tokenValue : Token → Value
  | ⟨scope, start, stop, text, children⟩ =>
    .object ([("scope", .str scope.name),
      ("range", .object [("start", .nat start), ("end", .nat stop)]), ("text", .str text)] ++
      match children with
      | [] => []
      | c :: cs => [("children", .list (tokenValue c :: tokenValues cs))])

def tokenValues : List Token → List Value
  | [] => []
  | t :: ts => tokenValue t :: tokenValues ts

end

def json (tokens : List Token) : String := Json.pretty (.list (tokenValues tokens))

end Lexicolor.Format
