/-
Printing values as YAML in block style. A text stands without quotes when it means itself there,
between single quotes otherwise, and between double quotes when it needs escapes; a text of
several lines is a literal block. Lists stand at the depth of the key they belong to.
-/
import Lexicolor.Yaml.Chars
import Lexicolor.Yaml.Plain
import Lexicolor.Json.Printer

namespace Lexicolor.Yaml

open Data (Key Value)

/-! ## Texts -/

/-- Whether a text begins like a mark between documents. -/
def startsLikeMark (cs : List Char) : Bool :=
  ['-', '-', '-'].isPrefixOf cs || ['.', '.', '.'].isPrefixOf cs

/-- The characters that cannot begin a scalar without quotes. -/
def isIndicator (c : Char) : Bool := ",[]\x7b\x7d#&*!|>'\"%@\x60".toList.contains c

/-- Whether what precedes or follows a character is blank, a break or an end. -/
def isGap : Option Char → Bool
  | none => true
  | some c => isBlank c || isBreak c

/-- Whether a character after the first one can be mistaken for a mark. -/
def hasMark : Option Char → List Char → Bool
  | _, [] => false
  | before, c :: cs =>
    (c == ':' && isGap cs.head?) || (c == '#' && isGap before) || hasMark (some c) cs

/-- Whether a text can be mistaken for something else where it stands without quotes. -/
def looksMarked (cs : List Char) : Bool :=
  startsLikeMark cs ||
    match cs with
    | [] => false
    | c :: cs =>
      isIndicator c || ((c == '?' || c == ':' || c == '-') && isGap cs.head?) || hasMark (some c) cs

/-- Whether two neighbours somewhere in a text satisfy a relation. -/
def hasNeighbours (p : Char → Char → Bool) : List Char → Bool
  | c :: d :: cs => p c d || hasNeighbours p (d :: cs)
  | _ => false

def spaceThenBreak (cs : List Char) : Bool := hasNeighbours (fun c d => c == ' ' && isBreak d) cs

def breakThenSpace (cs : List Char) : Bool := hasNeighbours (fun c d => isBreak c && d == ' ') cs

def isSpaceOrBreak (c : Char) : Bool := c == ' ' || isBreak c

/-- Whether a text can only be written with escapes. -/
def needsEscapes (cs : List Char) : Bool := cs.any (!isPrintable ·) || spaceThenBreak cs

inductive Style where
  | plain
  | single
  | double
  | literal
deriving Repr, DecidableEq, Inhabited

def quotedStyle (cs : List Char) : Style :=
  if needsEscapes cs || breakThenSpace cs then .double else .single

/-- How a text is written. -/
def Style.of (s : String) : Style :=
  let cs := s.toList
  if cs.contains '\n' then
    if needsEscapes cs || cs.getLast? == some ' ' then .double else .literal
  else if !Plain.isText s then quotedStyle cs
  else if needsEscapes cs || cs.any isBreak || cs.head? == some ' ' || cs.getLast? == some ' ' ||
      looksMarked cs then quotedStyle cs
  else .plain

def spaces (n : Nat) : List Char := List.replicate n ' '

/-- The lines of a text, each but the empty ones moved in; `fresh` says that a line begins. -/
def indented (indent : Nat) (char : Char → List Char) : Bool → List Char → List Char
  | _, [] => []
  | fresh, c :: cs =>
    if isBreak c then c :: indented indent char true cs
    else (if fresh then spaces indent else []) ++ char c ++ indented indent char false cs

def endsInBreak (cs : List Char) : Bool := cs.getLast?.any isBreak

def singleQuoted (indent : Nat) (cs : List Char) : List Char :=
  '\'' :: indented indent (fun c => if c == '\'' then ['\'', '\''] else [c]) false cs ++
    (if endsInBreak cs then spaces indent else []) ++ ['\'']

def upperHex (width n : Nat) : List Char :=
  let digits := (Nat.toDigits 16 n).map Char.toUpper
  List.replicate (width - digits.length) '0' ++ digits

def escape (c : Char) : List Char :=
  if c == '\x00' then ['\\', '0']
  else if c == '\x07' then ['\\', 'a']
  else if c == '\x08' then ['\\', 'b']
  else if c == '\t' then ['\\', 't']
  else if c == '\n' then ['\\', 'n']
  else if c == '\x0b' then ['\\', 'v']
  else if c == '\x0c' then ['\\', 'f']
  else if c == '\r' then ['\\', 'r']
  else if c == '\x1b' then ['\\', 'e']
  else if c == '"' || c == '\\' then ['\\', c]
  else if c == '\u0085' then ['\\', 'N']
  else if c == '\u2028' then ['\\', 'L']
  else if c == '\u2029' then ['\\', 'P']
  else if isPrintable c then [c]
  else if c.toNat ≤ 0xFF then '\\' :: 'x' :: upperHex 2 c.toNat
  else if c.toNat ≤ 0xFFFF then '\\' :: 'u' :: upperHex 4 c.toNat
  else '\\' :: 'U' :: upperHex 8 c.toNat

def doubleQuoted (cs : List Char) : List Char := '"' :: cs.flatMap escape ++ ['"']

/-- The sign that says what a block keeps of the line ends at its end. -/
def keepSign (cs : List Char) : List Char :=
  match cs.reverse with
  | c :: rest =>
    if !isBreak c then ['-']
    else
      match rest with
      | [] => ['+']
      | d :: _ => if isBreak d then ['+'] else []
  | [] => ['-']

def literal (indent : Nat) (cs : List Char) : List Char :=
  '|' :: (if cs.head?.any isSpaceOrBreak then ['2'] else []) ++ keepSign cs ++
    '\n' :: indented indent (fun c => [c]) true cs

/-- A text up to the end of its line, where its further lines stand at the given depth. -/
def textLine (indent : Nat) (s : String) : List Char :=
  let cs := s.toList
  match Style.of s with
  | .plain => cs ++ ['\n']
  | .single => singleQuoted indent cs ++ ['\n']
  | .double => doubleQuoted cs ++ ['\n']
  | .literal => literal indent cs ++ (if endsInBreak cs then [] else ['\n'])

/-! ## Values -/

/-- A value on the line of its key or dash; of lists and records only the empty ones. -/
def onLine (indent : Nat) : Value → List Char
  | .null => " null\n".toList
  | .bool b => ' ' :: (if b then "true\n" else "false\n").toList
  | .int n => ' ' :: Json.intChars n ++ ['\n']
  | .minusZero => " -0\n".toList
  | .float x => ' ' :: (Decimal.scientific x).toList ++ ['\n']
  | .str s => ' ' :: textLine indent s
  | .arr _ _ => " []\n".toList
  | .obj _ _ => " \x7b\x7d\n".toList
  | .tooLarge | .unpaired | .broken _ => ['\n']

mutual

/-- What follows a key and its colon, for a record at the given depth. -/
def afterKey (indent : Nat) : Value → List Char
  | .arr (v :: vs) _ => '\n' :: spaces indent ++ '-' :: afterDash indent v ++ moreItems indent vs
  | .obj (m :: ms) _ =>
    '\n' :: spaces (indent + 2) ++ member (indent + 2) m ++ moreMembers (indent + 2) ms
  | v => onLine (indent + 2) v

/-- What follows the dash of an item, for a list at the given depth. -/
def afterDash (indent : Nat) : Value → List Char
  | .arr (v :: vs) _ =>
    ' ' :: '-' :: afterDash (indent + 2) v ++ moreItems (indent + 2) vs
  | .obj (m :: ms) _ => ' ' :: member (indent + 2) m ++ moreMembers (indent + 2) ms
  | v => onLine (indent + 2) v

def moreItems (indent : Nat) : List Value → List Char
  | [] => []
  | v :: vs => spaces indent ++ '-' :: afterDash indent v ++ moreItems indent vs

def member (indent : Nat) : Key × Value → List Char
  | (key, v) => (Json.keyText key).toList ++ ':' :: afterKey indent v

def moreMembers (indent : Nat) : List (Key × Value) → List Char
  | [] => []
  | m :: ms => spaces indent ++ member indent m ++ moreMembers indent ms

end

/-- A value as a document. Its keys, at every depth, must be words that need no quotes. -/
def print (v : Value) : String :=
  String.ofList <|
    match v with
    | .arr (v :: vs) _ => moreItems 0 (v :: vs)
    | .obj (m :: ms) _ => moreMembers 0 (m :: ms)
    | v => (onLine 2 v).tail

end Lexicolor.Yaml
