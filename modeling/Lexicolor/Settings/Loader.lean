/-
Loading settings. The lowest layer are the defaults; over it lie the files in the order in which
they were added, then the environment, then the values that the caller has set. Paths of grammars
are taken from the directory of the last file.
-/
import Lexicolor.Settings
import Lexicolor.Settings.KeyPath
import Lexicolor.Settings.Environment
import Lexicolor.Toml.Reader
import Lexicolor.Text.Blank

namespace Lexicolor.Settings

structure Loader where
  /-- The files, and whether each must be there. -/
  files : List (String × Bool)
  /-- What the caller has set; no path comes twice, and the last setting of a path counts. -/
  overrides : List (KeyPath × Value)
  /-- What the names of variables begin with. -/
  environmentName : String
  /-- Grammars that come after those of the settings. -/
  grammarFiles : List String
deriving Inhabited

namespace Loader

def start : Loader := ⟨[], [], "PIYATHON_HL", []⟩

def withFile (l : Loader) (path : String) : Loader :=
  { l with files := l.files ++ [(path, true)] }

def withOptionalFile (l : Loader) (path : String) : Loader :=
  { l with files := l.files ++ [(path, false)] }

def withEnvironmentName (l : Loader) (name : String) : Loader := { l with environmentName := name }

def withGrammarFile (l : Loader) (path : String) : Loader :=
  { l with grammarFiles := l.grammarFiles ++ [path] }

def set (l : Loader) (key : String) (value : Value) : Except SettingsError Loader :=
  match KeyPath.read? key with
  | none => .error .badKey
  | some path =>
    .ok { l with overrides := l.overrides.filter (·.1 != path) ++ [(path, value)] }

def withFormat (l : Loader) (format : String) : Except SettingsError Loader :=
  l.set "output.format" (.text .program format)

end Loader

/-- The lowest layer. -/
def defaults : List (String × Value) := [
  ("engine", .table .program [
    ("default_language", .text .program "piyathon"),
    ("grammar_files", .list .program []),
    ("validate_grammars", .flag .program true)]),
  ("output", .table .program [("format", .text .program "treeviz")])]

section

variable {m : Type → Type} [Monad m] (read : String → m Files.Entry)

/-- The file at a path, or else at the path with the usual extension, with the path it was found
at. -/
def findFile (path : String) : m (Option (String × Files.Entry)) := do
  let entry ← read path
  if entry.isFile then return some (path, entry)
  match Files.withExtension? path "toml" with
  | none => return none
  | some path =>
    let entry ← read path
    return if entry.isFile then some (path, entry) else none

/-- The layer of a file. A file that is not there, or is no text, is an empty layer unless it must
be there; a text must be TOML in any case. -/
def fileLayer (path : String) (required : Bool) : m (Decoded (List (String × Value))) := do
  match ← findFile read path with
  | none => return if required then .error (.missingFile path) else .ok []
  | some (found, entry) =>
    match entry.text with
    | .error reason => return if required then .error (.unreadable reason) else .ok []
    | .ok text =>
      match Toml.read? text with
      | none => return .error .badFile
      | some members =>
        return .ok (members.map fun (k, v) => (k, .ofToml (.file (Files.tidy found)) v))

/-- The root with the layers of files over it. -/
def overlayFiles (root : Value) : List (String × Bool) → m (Decoded Value)
  | [] => return .ok root
  | (path, required) :: files => do
    match ← fileLayer read path required with
    | .error e => return .error e
    | .ok layer => overlayFiles (root.overlay layer) files

/-- The directory that paths of grammars are taken from: that of the last file that must be there
or is there. -/
def baseFrom (base : Option String) : List (String × Bool) → m (Option String)
  | [] => return base
  | (path, required) :: files => do
    let entry ← read path
    baseFrom (if required || entry.isFile then Files.parent? path else base) files

namespace Loader

/-- The values that all layers together give. -/
def values (l : Loader) (environment : List (String × String)) : m (Decoded Value) := do
  match ← overlayFiles read (Value.emptyTable.overlay defaults) l.files with
  | .error e => return .error e
  | .ok root =>
    let root := root.overlay (Environment.layer l.environmentName environment)
    return .ok (l.overrides.foldl (fun root (path, v) => path.set v root) root)

/-- The settings, with the paths of grammars taken from the base directory. -/
def finish (l : Loader) (base : Option String) (s : Settings) : Decoded Settings :=
  if Text.isAllBlank s.defaultLanguage then .error .blankLanguage
  else
    let place := fun (path : String) =>
      match base with
      | some dir => Files.join dir path
      | none => path
    .ok { s with grammarFiles := s.grammarFiles.map place ++ l.grammarFiles }

def build (l : Loader) (environment : List (String × String)) : m (Decoded Settings) := do
  match ← l.values read environment with
  | .error e => return .error e
  | .ok root =>
    match decode root with
    | .error e => return .error e
    | .ok s => return l.finish (← baseFrom read none l.files) s

end Loader

end

end Lexicolor.Settings
