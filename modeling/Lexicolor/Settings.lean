/-
Settings, and how they are read from the values that all layers together give. A setting is read as
what it should be where that makes sense: numbers and truth values as texts, words and numbers as
truth values.
-/
import Lexicolor.Settings.Value
import Lexicolor.Data.Decode
import Lexicolor.Files.Tree
import Lexicolor.Text.Lowercase

namespace Lexicolor

structure Settings where
  /-- The language of files whose extension does not say it. -/
  defaultLanguage : String
  /-- Whether grammar files with problems are refused. -/
  validateGrammars : Bool
  /-- Paths of more grammars, in the order in which they are registered. -/
  grammarFiles : List String
  /-- The name of the format of the output. -/
  format : String
deriving Repr, DecidableEq, Inhabited

/-- Why there are no settings. -/
inductive SettingsError where
  | missingFile (path : String)
  | unreadable (reason : Files.ReadError)
  | badFile
  | badKey
  /-- A value that cannot be made into what the setting should be. -/
  | wrongType (found expected key : String) (origin : Settings.Origin)
  /-- A value where there should be a list or a table. -/
  | notStructured (found expected : String)
  | tooShort (length : Nat) (expected : String)
  | missingField (name : String)
  | blankLanguage
deriving Repr, DecidableEq, Inhabited

def Settings.Origin.suffix : Settings.Origin → String
  | .program => ""
  | .file path => " in " ++ path
  | .environment => " in the environment"

/-- The text of the error. Of a file that is no TOML and of a key that is none it says no more than that, in
words of this library: the reasons that readers of these give are left out. -/
def SettingsError.message : SettingsError → String
  | missingFile path => "configuration file \"" ++ path ++ "\" not found"
  | unreadable reason => reason.message
  | badFile => "not TOML"
  | badKey => "not a key"
  | wrongType found expected key origin =>
    "invalid type: " ++ found ++ ", expected " ++ expected ++ " for key \x60" ++ key ++ "\x60" ++
      origin.suffix
  | notStructured found expected => "invalid type: " ++ found ++ ", expected " ++ expected
  | tooShort n expected => "invalid length " ++ toString n ++ ", expected " ++ expected
  | missingField name => "missing field \x60" ++ name ++ "\x60"
  | blankLanguage => "engine.default_language must not be empty"

/-- The error with one more step before its key. -/
def SettingsError.within (step : String) (isName : Bool) : SettingsError → SettingsError
  | wrongType found expected key origin =>
    let point := if isName && !key.isEmpty && key.toList.head? != some '[' then "." else ""
    wrongType found expected (step ++ point ++ key) origin
  | e => e

namespace Settings

abbrev Decoded := Except SettingsError

def inEntry {α : Type} (name : String) (x : Decoded α) : Decoded α :=
  x.mapError (SettingsError.within name true)

def inItem {α : Type} (i : Nat) (x : Decoded α) : Decoded α :=
  x.mapError (SettingsError.within ("[" ++ toString i ++ "]") false)

def wrong {α : Type} (v : Value) (expected : String) : Decoded α :=
  .error (.wrongType v.shown expected "" v.origin)

def text (v : Value) : Decoded String :=
  match v with
  | .text _ s => .ok s
  | .flag _ b => .ok (if b then "true" else "false")
  | .int _ n => .ok (toString n)
  | .float _ x => .ok (Decimal.plain x)
  | v => wrong v "a string"

def flag (v : Value) : Decoded Bool :=
  match v with
  | .flag _ b => .ok b
  | .int _ n => .ok (n != 0)
  | .float _ x => .ok (x != 0)
  | .text o s =>
    let word := Text.lowercase s
    if ["1", "true", "on", "yes"].contains word then .ok true
    else if ["0", "false", "off", "no"].contains word then .ok false
    else wrong (.text o word) "a boolean"
  | v => wrong v "a boolean"

/-- Texts one by one, counted from `i` on. -/
def textsFrom : Nat → List Value → Decoded (List String)
  | _, [] => .ok []
  | i, v :: vs => do
    let s ← inItem i (text v)
    return s :: (← textsFrom (i + 1) vs)

def texts (v : Value) : Decoded (List String) :=
  match v with
  | .list _ items => textsFrom 0 items
  | v => .error (.notStructured v.shown "a sequence")

/-- The fields of a record, by their names or in order. -/
inductive Record where
  | named (entries : SortedTable Value)
  | listed (what : String) (items : List Value)

def recordOf (name : String) (fieldCount : Nat) (v : Value) : Decoded Record :=
  let what := "struct " ++ name
  match v with
  | .table _ entries => .ok (.named entries)
  | .list _ items => .ok (.listed (what ++ " with " ++ Data.Shape.count fieldCount) items)
  | v => .error (.notStructured v.shown what)

/-- A field, if it is there; in a list all fields must be there. -/
def Record.field? {α : Type} (r : Record) (index : Nat) (name : String)
    (read : Value → Decoded α) : Decoded (Option α) :=
  match r with
  | .named entries =>
    match entries.get? name with
    | some v => (inEntry name (read v)).map some
    | none => .ok none
  | .listed what items =>
    match items[index]? with
    | some v => (inItem index (read v)).map some
    | none => .error (.tooShort index what)

def need {α : Type} (name : String) : Option α → Decoded α
  | some a => .ok a
  | none => .error (.missingField name)

structure Engine where
  defaultLanguage : String
  validateGrammars : Bool
  grammarFiles : List String

def engine (v : Value) : Decoded Engine := do
  let r ← recordOf "EngineConfig" 3 v
  let language ← r.field? 0 "default_language" text
  let validate ← r.field? 1 "validate_grammars" flag
  let files ← r.field? 2 "grammar_files" texts
  return ⟨← need "default_language" language, ← need "validate_grammars" validate,
    ← need "grammar_files" files⟩

def output (v : Value) : Decoded String := do
  let r ← recordOf "OutputConfig" 1 v
  need "format" (← r.field? 0 "format" text)

/-- The settings that a table of values holds. -/
def decode (root : Value) : Decoded Settings := do
  let r := Record.named root.entries
  let engine ← r.field? 0 "engine" engine
  let format ← r.field? 1 "output" output
  let engine ← need "engine" engine
  return ⟨engine.defaultLanguage, engine.validateGrammars, engine.grammarFiles,
    ← need "output" format⟩

end Settings

end Lexicolor
