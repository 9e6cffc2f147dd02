/-
The program at the command line, as a function of its arguments, the environment and the files.
It shows the tokens of a file, lists languages or formats, or checks every grammar.
-/
import Lexicolor.CommandLine.Request
import Lexicolor.Highlight
import Lexicolor.Settings.Loader
import Lexicolor.Format.Registry

namespace Lexicolor.CommandLine

/-- How the program ends, and what it writes. -/
structure Report where
  code : Nat
  output : String
  errors : String
deriving Repr, DecidableEq, Inhabited

/-- Why a request is not met. -/
inductive Failure where
  | settings (reason : SettingsError)
  | highlight (reason : HighlightError)
  | format (reason : FormatError)
  | source (path : String) (reason : Files.ReadError)
deriving Inhabited

def Failure.message : Failure → String
  | settings reason => reason.message
  | highlight reason => reason.message
  | format reason => reason.message
  | source path reason => "reading " ++ path ++ ": " ++ reason.message

def unlines (lines : List String) : String := String.join (lines.map (· ++ "\n"))

/-- A text with blanks after it, up to a width. -/
def padded (width : Nat) (s : String) : String := s.pushn ' ' (width - s.length)

def listFormats (r : FormatRegistry) : Report where
  code := 0
  output := unlines ("Available formats:" :: "" ::
    r.describe.map fun (name, description) => "  " ++ padded 10 name ++ " " ++ description)
  errors := ""

def listLanguages (r : Languages) : Report where
  code := 0
  output := unlines ("Registered languages:" :: "" :: r.grammars.map fun (name, g) =>
    "  " ++ name ++
      if g.aliases.isEmpty then "" else " (" ++ ", ".intercalate g.aliases ++ ")")
  errors := ""

/-- What the check says of one grammar. -/
def verdict (name : String) (g : Grammar) : List String :=
  if g.isValid then [name ++ ": ok"]
  else (name ++ ": " ++ toString g.problems.length ++ " problem(s)") ::
    g.problems.map fun e => "  - " ++ e.message

/-- The verdicts on all grammars; the program fails if one has a problem. -/
def check (r : Languages) : Report where
  code := if r.grammars.all (·.2.isValid) then 0 else 1
  output := unlines (r.grammars.flatMap fun (name, g) => verdict name g)
  errors := ""

/-- The grammar of a file: that of the language asked for, or else that of the file's extension,
or else that of the default language. -/
def grammarFor (r : Languages) (s : Settings) (language : Option String) (path : String) :
    Except HighlightError Grammar :=
  match language with
  | some name => r.grammar name
  | none =>
    match r.findByPath path with
    | some g => .ok g
    | none => r.grammar s.defaultLanguage

def showTokens (r : Languages) (s : Settings) (language : Option String) (path : String)
    (entry : Files.Entry) : Except Failure Report := do
  let source ← entry.text.mapError (.source path)
  let g ← (grammarFor r s language path).mapError .highlight
  let output ← (FormatRegistry.builtin.render (Scan.tokenize g source) s.format).mapError .format
  return ⟨0, output ++ "\n", ""⟩

namespace Request

/-- The layers that the request puts over the defaults. -/
def loader (q : Request) : Except SettingsError Settings.Loader :=
  let l := match q.config with
    | some path => Settings.Loader.start.withFile path
    | none => .start
  let l := q.grammars.foldl Settings.Loader.withGrammarFile l
  match q.format with
  | some format => l.withFormat format
  | none => .ok l

variable {m : Type → Type} [Monad m] (reader : Regex.Reader) (read : String → m Files.Entry)
  (environment : List (String × String))

/-- The settings and the languages that the request leads to. -/
def prepare (q : Request) : m (Except Failure (Settings × Languages)) := do
  match q.loader with
  | .error e => return .error (.settings e)
  | .ok l =>
    match ← l.build read environment with
    | .error e => return .error (.settings e)
    | .ok s =>
      match ← Languages.ofSettings read s reader with
      | .error e => return .error (.highlight e)
      | .ok r => return .ok (s, r)

/-- What the request asks for. Formats are listed without a look at settings. -/
def perform (q : Request) : m (Except Failure Report) := do
  let prepared := fun (next : Settings → Languages → m (Except Failure Report)) => do
    match ← q.prepare reader read environment with
    | .error e => return .error e
    | .ok (s, r) => next s r
  match q.task with
  | .listFormats => return .ok (listFormats .builtin)
  | .listLanguages => prepared fun _ r => return .ok (listLanguages r)
  | .check => prepared fun _ r => return .ok (check r)
  | .tokens path => prepared fun s r => do
    return showTokens r s q.language path (← read path)

end Request

def version : String := "piyathon-hl 0.1.0"

def usage : List String := [
  "Usage: piyathon-hl [OPTIONS] [path]"]

def help : List String := [
  "Tokenize Piyathon (and other registered) sources and dump the tokens",
  ""] ++ usage ++ [
  "",
  "Arguments:",
  "  [path]  Path to the source file",
  "",
  "Options:",
  "  -l, --language <language>  Language name or alias (default: from the file extension)",
  "  -f, --format <format>      Output format: treeviz, json, glossary (default: from config)",
  "  -c, --config <config>      TOML configuration file layered over the defaults",
  "  -g, --grammar <grammar>    Extra grammar file (YAML or JSON) to register",
  "      --list-languages       List registered languages",
  "      --list-formats         List dump formats",
  "      --check                Validate every registered grammar",
  "  -h, --help                 Print help",
  "  -V, --version              Print version"]

section

variable {m : Type → Type} [Monad m] (read : String → m Files.Entry)
  (environment : List (String × String))

/-- What the program does with its arguments. -/
def run (args : List String) (reader : Regex.Reader := Regex.Expr.read) : m Report := do
  match Request.ofArguments args with
  | .error .help => return ⟨0, unlines help, ""⟩
  | .error .version => return ⟨0, unlines [version], ""⟩
  | .error (.fault e) => return ⟨2, "", unlines (("error: " ++ e.message) :: "" :: usage)⟩
  | .ok q =>
    match ← q.perform reader read environment with
    | .error e => return ⟨1, "", unlines ["Error: " ++ e.message]⟩
    | .ok report => return report

end

end Lexicolor.CommandLine
