/-
Grammars as texts, and in files whose extension says how they are written. In YAML, fields are read as what
they should be, so a name may look like a number; but a rule is read before its kind is known, and what looks
like a number there is one.
-/
import Lexicolor.Grammar.Record
import Lexicolor.Grammar.Validation
import Lexicolor.Files.Tree
import Lexicolor.Json.Printer
import Lexicolor.Json.Reader
import Lexicolor.Yaml.Printer
import Lexicolor.Yaml.Shape

namespace Lexicolor

inductive GrammarFormat where
  | yaml
  | json
deriving Repr, DecidableEq, Inhabited

namespace GrammarFormat

def name : GrammarFormat → String
  | yaml => "yaml"
  | json => "json"

def ofPath? (path : String) : Option GrammarFormat :=
  match (Files.extension? path).map Text.lowercaseAscii with
  | some "yaml" => some yaml
  | some "yml" => some yaml
  | some "json" => some json
  | _ => none

end GrammarFormat

/-- Why a grammar could not be had from a text or a file. -/
inductive GrammarFileError where
  | io (reason : Files.ReadError)
  | yaml
  | json (reason : Data.Error)
  | unsupportedFormat (path : String)
  | invalid (errors : List GrammarError)
deriving Inhabited

/-- The text of the error. Of a text that is no YAML or no JSON it says no more than that: the reasons that
readers of these formats give are left out. -/
def GrammarFileError.message : GrammarFileError → String
  | io reason => "IO error: " ++ reason.message
  | yaml => "Invalid YAML grammar"
  | json (.mismatch m) => "Invalid JSON grammar: " ++ m.message
  | json (.fault _) => "Invalid JSON grammar"
  | unsupportedFormat path => "Unsupported grammar file format: " ++ path
  | invalid errors =>
    "Grammar failed validation:" ++ String.join (errors.map fun e => "\n  - " ++ e.message)

namespace Grammar

/-! ## JSON -/

/-- The text of a grammar. -/
def toJson (g : Grammar) : String := Json.pretty (Record.grammar g)

/-- The grammar that a text writes; nothing may follow it. -/
def ofJson (reader : Regex.Reader) (text : String) : Data.Decoded Grammar := do
  let document := Json.read text
  let g ← (Record.grammarShape reader).decode .top document.value
  if document.trailing then Data.failFault .malformed
  return g

/-! ## YAML -/

/-- The text of a grammar. -/
def toYaml (g : Grammar) : String := Yaml.print (Record.grammar g)

def texts : Yaml.Shape := .list .text

def keywordsShape : Yaml.Shape :=
  .record [("keyword", texts), ("built_in", texts), ("literal", texts)]

/-- What is expected of the fields of a grammar. -/
def yamlShape : Yaml.Shape :=
  .record [("name", .text), ("aliases", texts), ("case_insensitive", .flag), ("identifier", .text),
    ("keywords", keywordsShape), ("rules", .list .any), ("extensions", texts),
    ("mime_types", texts)]

/-- The grammar that a text writes. -/
def ofYaml? (reader : Regex.Reader) (text : String) : Option Grammar := do
  let v ← Yaml.value? yamlShape text
  ((Record.grammarShape reader).decode .whole v).toOption

/-! ## Texts and files -/

/-- The grammar that a text writes. -/
def parse (text : String) (format : GrammarFormat) (reader : Regex.Reader := Regex.Expr.read) :
    Except GrammarFileError Grammar :=
  match format with
  | .yaml =>
    match ofYaml? reader text with
    | some g => .ok g
    | none => .error .yaml
  | .json => (ofJson reader text).mapError .json

/-- The text of a grammar. -/
def print (g : Grammar) : GrammarFormat → String
  | .yaml => g.toYaml
  | .json => g.toJson

variable {m : Type → Type} [Monad m]

/-- Reads a grammar file: the format is known before the file is looked at. -/
def load (read : String → m Files.Entry) (path : String) (reader : Regex.Reader := Regex.Expr.read) :
    m (Except GrammarFileError Grammar) := do
  match GrammarFormat.ofPath? path with
  | none => return .error (.unsupportedFormat path)
  | some format =>
    match (← read path).text with
    | .error reason => return .error (.io reason)
    | .ok text => return parse text format reader

/-- Reads a grammar file and refuses a grammar with problems. -/
def loadValidated (read : String → m Files.Entry) (path : String) (reader : Regex.Reader := Regex.Expr.read) :
    m (Except GrammarFileError Grammar) := do
  match ← load read path reader with
  | .error e => return .error e
  | .ok g => return if g.isValid then .ok g else .error (.invalid g.problems)

end Grammar

end Lexicolor
