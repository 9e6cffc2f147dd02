/-
Tokens as a tree of lines: one line for each token of the walk, indented by its depth, with an
icon, the scope, the range and the text, which is cut after thirty characters.
-/
import Lexicolor.Token

namespace Lexicolor.Format

def icon : Scope → String
  | .comment => "※"
  | .number => "№"
  | .string => "❞"
  | .function => "ƒ"
  | .classDef => "◈"
  | .title => "⊤"
  | .keyword => "κ"
  | .builtIn => "β"
  | .literal => "ℓ"
  | .identifier => "◦"
  | .plain => "·"

/-- How many characters of a text are shown. -/
def shownLength : Nat := 30

/-- The text, or its beginning with three points after it. -/
def shorten (cs : List Char) : List Char :=
  if shownLength < cs.length then cs.take shownLength ++ ['.', '.', '.'] else cs

/-- Characters that would end the line or the quotes are escaped. -/
def escapeChar (c : Char) : List Char :=
  match c with
  | '\n' => ['\\', 'n']
  | '\r' => ['\\', 'r']
  | '\t' => ['\\', 't']
  | '"' => ['\\', '"']
  | '\\' => ['\\', '\\']
  | c => [c]

/-- The line of one token at a depth. -/
def line (depth : Nat) (t : Token) : String :=
  String.ofList (List.replicate (2 * depth) ' ') ++ icon t.scope ++ " " ++ t.scope.name ++ " " ++
    toString t.start ++ ".." ++ toString t.stop ++ " \"" ++
    String.ofList ((shorten t.text.toList).flatMap escapeChar) ++ "\""

mutual

def linesOf (depth : Nat) : Token → List String
  | ⟨scope, start, stop, text, children⟩ =>
    line depth ⟨scope, start, stop, text, children⟩ :: linesOfAll (depth + 1) children

def linesOfAll (depth : Nat) : List Token → List String
  | [] => []
  | t :: ts => linesOf depth t ++ linesOfAll depth ts

end

def treeviz (tokens : List Token) : String := "\n".intercalate (linesOfAll 0 tokens)

end Lexicolor.Format
