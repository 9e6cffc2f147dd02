/-
Formats by name. A format is kept under its name as it is given; a query is put in lower case
before it is looked up, so a format whose name has capitals is listed but never found.
-/
import Lexicolor.SortedTable
import Lexicolor.Text.Lowercase
import Lexicolor.Format.Treeviz
import Lexicolor.Format.Json
import Lexicolor.Format.Glossary

namespace Lexicolor

inductive FormatError where
  | unknown (name : String) (available : List String)
  | serialization (reason : String)
deriving Repr, DecidableEq, Inhabited

def FormatError.message : FormatError → String
  | unknown name available =>
    "Unknown format '" ++ name ++ "' (available: " ++ ", ".intercalate available ++ ")"
  | serialization reason => "Could not serialize tokens: " ++ reason

/-- A way to write tokens as a text. -/
structure Formatter where
  name : String
  description : String
  render : List Token → Except FormatError String

namespace Formatter

def treeviz : Formatter :=
  ⟨"treeviz", "One line per token, nesting by indentation", fun ts => .ok (Format.treeviz ts)⟩

def json : Formatter := ⟨"json", "Tokens as a JSON array", fun ts => .ok (Format.json ts)⟩

def glossary : Formatter :=
  ⟨"glossary", "Distinct classified words with their Python names",
    fun ts => .ok (Format.glossary ts)⟩

end Formatter

structure FormatRegistry where
  formatters : SortedTable Formatter

namespace FormatRegistry

def empty : FormatRegistry := ⟨[]⟩

/-- The registry with one more formatter, and the one it replaces. -/
def add (r : FormatRegistry) (f : Formatter) : Option Formatter × FormatRegistry :=
  (r.formatters.get? f.name, ⟨r.formatters.put f.name f⟩)

def builtin : FormatRegistry :=
  [Formatter.treeviz, Formatter.json, Formatter.glossary].foldl (fun r f => (r.add f).2) empty

/-- The names in order. -/
def names (r : FormatRegistry) : List String := r.formatters.keys

def resolve (r : FormatRegistry) (name : String) : Except FormatError Formatter :=
  match r.formatters.get? (Text.lowercaseAscii name) with
  | some f => .ok f
  | none => .error (.unknown name r.names)

/-- Names and descriptions in order. -/
def describe (r : FormatRegistry) : List (String × String) :=
  r.formatters.map fun (_, f) => (f.name, f.description)

def render (r : FormatRegistry) (tokens : List Token) (format : String) :
    Except FormatError String := do
  (← r.resolve format).render tokens

end FormatRegistry

end Lexicolor
