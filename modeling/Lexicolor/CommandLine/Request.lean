/-
What the program is asked to do, read from its arguments. An option that takes a text has it in
the same argument or in the next one; after two hyphens that stand alone every argument is a path.
Reading goes from left to right and ends at the first fault or question for help or the version.
-/

namespace Lexicolor.CommandLine

/-- What is done. Only tokens are of a file; the rest is about the languages and formats. -/
inductive Task where
  | listFormats
  | listLanguages
  | check
  | tokens (path : String)
deriving Repr, DecidableEq, Inhabited

structure Request where
  task : Task
  /-- The language of the file, in place of the one that its extension says. -/
  language : Option String
  format : Option String
  /-- The path of a file of settings. -/
  config : Option String
  /-- Paths of more grammars, in the order in which they were given. -/
  grammars : List String
deriving Repr, DecidableEq, Inhabited

/-- The options that take a text. -/
inductive Setting where
  | language
  | format
  | config
  | grammar
deriving Repr, DecidableEq, Inhabited

namespace Setting

def all : List Setting := [language, format, config, grammar]

def name : Setting → String
  | language => "language"
  | format => "format"
  | config => "config"
  | grammar => "grammar"

def letter : Setting → Char
  | language => 'l'
  | format => 'f'
  | config => 'c'
  | grammar => 'g'

/-- Whether the option may come again. -/
def isRepeatable (s : Setting) : Bool := s == grammar

end Setting

/-- The options that ask for something else than tokens. -/
inductive Switch where
  | listLanguages
  | listFormats
  | check
deriving Repr, DecidableEq, Inhabited

namespace Switch

def all : List Switch := [listLanguages, listFormats, check]

def name : Switch → String
  | listLanguages => "list-languages"
  | listFormats => "list-formats"
  | check => "check"

end Switch

/-- Why arguments ask for nothing that can be done. -/
inductive UsageError where
  | unknownOption (option : String)
  | repeated (name : String)
  | missingText (setting : Setting)
  | unexpectedText (name : String)
  | extraPath (path : String)
  | nothingToDo
deriving Repr, DecidableEq, Inhabited

def UsageError.message : UsageError → String
  | unknownOption option => "unexpected argument '" ++ option ++ "'"
  | repeated name => "'--" ++ name ++ "' cannot be given twice"
  | missingText setting => "a value is required for '--" ++ setting.name ++ "'"
  | unexpectedText name => "'--" ++ name ++ "' takes no value"
  | extraPath path => "unexpected argument '" ++ path ++ "'"
  | nothingToDo => "a path is required"

/-- What one argument says by itself. -/
inductive Argument where
  | path (text : String)
  /-- The rest are paths. -/
  | separator
  /-- An option with its text, unless that is the next argument. -/
  | setting (setting : Setting) (text : Option String)
  | switch (switch : Switch)
  | help
  | version
  | fault (error : UsageError)
deriving Repr, DecidableEq, Inhabited

namespace Argument

/-- An option by its full name, and what follows an equals sign. -/
def long (name : String) (text : Option String) : Argument :=
  let plain := fun (a : Argument) =>
    if text.isSome then .fault (.unexpectedText name) else a
  match Setting.all.find? (·.name == name), Switch.all.find? (·.name == name) with
  | some s, _ => .setting s text
  | none, some s => plain (.switch s)
  | none, none =>
    if name == "help" then plain .help
    else if name == "version" then plain .version
    else .fault (.unknownOption ("--" ++ name))

/-- What follows the letter of an option; an equals sign may part them. -/
def attached : List Char → Option String
  | [] => none
  | '=' :: cs => some (String.ofList cs)
  | cs => some (String.ofList cs)

/-- An option by its letter, and what follows the letter. -/
def short (letter : Char) (cs : List Char) : Argument :=
  match Setting.all.find? (·.letter == letter) with
  | some s => .setting s (attached cs)
  | none =>
    if letter == 'h' then .help
    else if letter == 'V' then .version
    else .fault (.unknownOption (String.ofList ['-', letter]))

/-- A hyphen that stands alone is a path. -/
def ofChars : List Char → Argument
  | ['-', '-'] => .separator
  | '-' :: '-' :: cs =>
    let text := match cs.dropWhile (· != '=') with
      | [] => none
      | _ :: text => some (String.ofList text)
    long (String.ofList (cs.takeWhile (· != '='))) text
  | '-' :: c :: cs => short c cs
  | cs => .path (String.ofList cs)

def ofText (text : String) : Argument := ofChars text.toList

end Argument

/-- Why reading ends before the last argument. -/
inductive Halt where
  | help
  | version
  | fault (error : UsageError)
deriving Repr, DecidableEq, Inhabited

/-- What was given so far. -/
structure Given where
  settings : List (Setting × String)
  switches : List Switch
  path : Option String
deriving Repr, DecidableEq, Inhabited

namespace Given

def none : Given := ⟨[], [], .none⟩

def withSetting (g : Given) (s : Setting) (text : String) : Except Halt Given :=
  if !s.isRepeatable && g.settings.any (·.1 == s) then .error (.fault (.repeated s.name))
  else .ok { g with settings := g.settings ++ [(s, text)] }

def withSwitch (g : Given) (s : Switch) : Except Halt Given :=
  if g.switches.contains s then .error (.fault (.repeated s.name))
  else .ok { g with switches := g.switches ++ [s] }

def withPath (g : Given) (path : String) : Except Halt Given :=
  if g.path.isSome then .error (.fault (.extraPath path)) else .ok { g with path := some path }

/-- What the arguments add. -/
def read : Given → List String → Except Halt Given
  | g, [] => .ok g
  | g, arg :: args =>
    match Argument.ofText arg with
    | .path text => do (← g.withPath text).read args
    | .separator => args.foldlM withPath g
    | .setting s (some text) => do (← g.withSetting s text).read args
    | .setting s .none =>
      match args with
      | [] => .error (.fault (.missingText s))
      | next :: args =>
        match Argument.ofText next with
        | .path text => do (← g.withSetting s text).read args
        | _ => .error (.fault (.missingText s))
    | .switch s => do (← g.withSwitch s).read args
    | .help => .error .help
    | .version => .error .version
    | .fault e => .error (.fault e)

/-- The texts of an option in order. -/
def texts (g : Given) (s : Setting) : List String := (g.settings.filter (·.1 == s)).map (·.2)

/-- What is to be done; formats come first, then languages, then the check. -/
def task? (g : Given) : Option Task :=
  if g.switches.contains .listFormats then some .listFormats
  else if g.switches.contains .listLanguages then some .listLanguages
  else if g.switches.contains .check then some .check
  else g.path.map .tokens

def request (g : Given) : Except Halt Request :=
  match g.task? with
  | .none => .error (.fault .nothingToDo)
  | some task =>
    .ok ⟨task, (g.texts .language).head?, (g.texts .format).head?, (g.texts .config).head?,
      g.texts .grammar⟩

end Given

/-- What the arguments ask for. -/
def Request.ofArguments (args : List String) : Except Halt Request := do
  (← Given.none.read args).request

end Lexicolor.CommandLine
