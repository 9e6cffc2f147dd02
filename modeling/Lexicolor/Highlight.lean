/-
Highlighting a text in a language that is known by name or by the extension of a path. The
languages are the built-in ones and those of the grammar files that the settings name.
-/
import Lexicolor.Languages
import Lexicolor.Scan.Tokens
import Lexicolor.Grammar.File
import Lexicolor.Settings

namespace Lexicolor

inductive HighlightError where
  | unknownLanguage (name : String)
  | settings (reason : SettingsError)
  | grammarFile (reason : GrammarFileError)
deriving Inhabited

def HighlightError.message : HighlightError → String
  | unknownLanguage name => "Unknown language '" ++ name ++ "'"
  | settings reason => "Configuration error: " ++ reason.message
  | grammarFile reason => "Grammar file error: " ++ reason.message

namespace Languages

/-- The grammar of a name or alias, which must be known. -/
def grammar (r : Languages) (language : String) : Except HighlightError Grammar :=
  match r.get? language with
  | some g => .ok g
  | none => .error (.unknownLanguage language)

/-- The tokens of a text in a language. -/
def highlight (r : Languages) (language source : String) : Except HighlightError (List Token) :=
  (r.grammar language).map (Scan.tokenize · source)

/-- The tokens of a text in the language that a path's extension leads to. -/
def highlightPath (r : Languages) (path source : String) : Except HighlightError (List Token) :=
  match r.findByPath path with
  | some g => .ok (Scan.tokenize g source)
  | none => .error (.unknownLanguage path)

variable {m : Type → Type} [Monad m]

/-- The languages with those of grammar files, each under its own name. -/
def withFiles (reader : Regex.Reader) (read : String → m Files.Entry) (validated : Bool) (r : Languages) :
    List String → m (Except HighlightError Languages)
  | [] => return .ok r
  | path :: paths => do
    let loaded ← if validated then Grammar.loadValidated read path reader else Grammar.load read path reader
    match loaded with
    | .error e => return .error (.grammarFile e)
    | .ok g => withFiles reader read validated (r.register g.name g) paths

/-- The built-in languages and those that the settings name. -/
def ofSettings (read : String → m Files.Entry) (s : Settings) (reader : Regex.Reader := Regex.Expr.read) :
    m (Except HighlightError Languages) :=
  withFiles reader read s.validateGrammars builtin s.grammarFiles

end Languages

end Lexicolor
