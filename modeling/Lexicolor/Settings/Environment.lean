/-
Settings from the environment. After a name at the front, which tells settings from other
variables, two low lines part the names of a path. What looks like a truth value or a number is
one.
-/
import Lexicolor.Settings.Value
import Lexicolor.Decimal.Reader

namespace Lexicolor.Settings.Environment

/-- A text with a point for each two low lines. -/
def withPoints : List Char → List Char
  | '_' :: '_' :: cs => '.' :: withPoints cs
  | c :: cs => c :: withPoints cs
  | [] => []

/-- The key of a variable; none for variables with another name at the front. -/
def key? (front : String) (variable_ : String) : Option String :=
  let mark := (Text.lowercase (front ++ "_")).toList
  let name := (Text.lowercase variable_).toList
  if mark.isPrefixOf name then some (String.ofList (withPoints (name.drop mark.length))) else none

def value (text : String) : Value :=
  let word := Text.lowercase text
  if word == "true" then .flag .environment true
  else if word == "false" then .flag .environment false
  else
    match Decimal.int64? text.toList, Decimal.float? text.toList with
    | some n, _ => .int .environment n
    | none, some x => .float .environment x
    | none, none => .text .environment text

/-- The settings in an environment. -/
def layer (front : String) (environment : List (String × String)) : List (String × Value) :=
  environment.filterMap fun (name, text) => (key? front name).map (·, value text)

end Lexicolor.Settings.Environment
