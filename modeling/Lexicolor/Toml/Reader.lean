/-
Reading TOML. Every reader returns what it has read and the rest of the text, or nothing where the
text is not TOML.
-/
import Lexicolor.Toml.Table
import Lexicolor.Toml.Moment

namespace Lexicolor.Toml

def isSpace (c : Char) : Bool := c == ' ' || c == '\t'

def skipSpace (cs : List Char) : List Char := cs.dropWhile isSpace

/-- The characters that may stand in comments and, but for quotes and escapes, in texts. -/
def isTextChar (c : Char) : Bool := c == '\t' || (' ' ≤ c && c != '\x7f')

/-- Past the end of a line. -/
def newline? (cs : List Char) : Option (List Char) :=
  match cs with
  | '\n' :: rest => some rest
  | '\r' :: '\n' :: rest => some rest
  | _ => none

/-- Past a comment, if one stands here. -/
def skipComment (cs : List Char) : List Char :=
  match cs with
  | '#' :: rest => rest.dropWhile isTextChar
  | cs => cs

/-- Past blanks, a comment and the end of the line or text. -/
def lineEnd? (cs : List Char) : Option (List Char) :=
  match skipComment (skipSpace cs) with
  | [] => some []
  | cs => newline? cs

/-- Past blanks, comments and ends of lines. -/
def skipLines : Nat → List Char → List Char
  | 0, cs => cs
  | n + 1, cs =>
    let cs := skipComment (skipSpace cs)
    match newline? cs with
    | some rest => skipLines n rest
    | none => cs

/-! ## Texts -/

/-- The character that so many hexadecimal digits name. -/
def hexChar? (digits : Nat) (cs : List Char) : Option (Char × List Char) := do
  if cs.length < digits then none
  let n ← Decimal.natIn? 16 (cs.take digits)
  if h : n.isValidChar then some (Char.ofNatAux n h, cs.drop digits) else none

/-- What an escape stands for, its backslash passed over. -/
def escape? (cs : List Char) : Option (Char × List Char) :=
  match cs with
  | 'b' :: r => some ('\x08', r)
  | 't' :: r => some ('\t', r)
  | 'n' :: r => some ('\n', r)
  | 'f' :: r => some ('\x0c', r)
  | 'r' :: r => some ('\r', r)
  | '"' :: r => some ('"', r)
  | '\\' :: r => some ('\\', r)
  | 'u' :: r => hexChar? 4 r
  | 'U' :: r => hexChar? 8 r
  | _ => none

/-- A text on one line up to its closing quote; `text` holds what was read, latest first. -/
def readLine (quote : Char) : Nat → List Char → List Char → Option (String × List Char)
  | 0, _, _ => none
  | n + 1, text, cs =>
    match cs with
    | [] => none
    | c :: rest =>
      if c == quote then some (String.ofList text.reverse, rest)
      else if c == '\\' && quote == '"' then do
        let (e, rest) ← escape? rest
        readLine quote n (e :: text) rest
      else if isTextChar c then readLine quote n (c :: text) rest
      else none

/-- Past blanks and ends of lines. -/
def skipEmptyLines : List Char → List Char
  | '\r' :: '\n' :: cs => skipEmptyLines cs
  | c :: cs => if isSpace c || c == '\n' then skipEmptyLines cs else c :: cs
  | [] => []

/-- Past the end of a line that a backslash takes away, with the blanks and ends of lines after
it. -/
def skipFold? (cs : List Char) : Option (List Char) := (newline? (skipSpace cs)).map skipEmptyLines

/-- A text on several lines up to three closing quotes, which may follow up to two of its own. -/
def readLines (quote : Char) : Nat → List Char → List Char → Option (String × List Char)
  | 0, _, _ => none
  | n + 1, text, cs =>
    match cs with
    | [] => none
    | c :: rest =>
      let quotes := (cs.takeWhile (· == quote)).length
      if 3 ≤ quotes then
        let own := Nat.min (quotes - 3) 2
        some (String.ofList (text.reverse ++ List.replicate own quote), cs.drop (own + 3))
      else if c == '\\' && quote == '"' then
        match skipFold? rest with
        | some rest => readLines quote n text rest
        | none => do
          let (e, rest) ← escape? rest
          readLines quote n (e :: text) rest
      else if isTextChar c then readLines quote n (c :: text) rest
      else
        match newline? cs with
        | some rest => readLines quote n ('\n' :: text) rest
        | none => none

/-- A text, from its first quote on. The end of the line after three quotes does not count. -/
def readText (quote : Char) (cs : List Char) : Option (String × List Char) :=
  if (cs.take 3) == [quote, quote, quote] then
    let cs := cs.drop 3
    readLines quote (cs.length + 1) [] ((newline? cs).getD cs)
  else readLine quote cs.length [] cs.tail

/-! ## Keys -/

def isBareChar (c : Char) : Bool := c.isAlphanum || c == '_' || c == '-'

def readSimpleKey (cs : List Char) : Option (String × List Char) :=
  match cs with
  | [] => none
  | c :: rest =>
    if c == '"' || c == '\'' then readLine c cs.length [] rest
    else
      let name := cs.takeWhile isBareChar
      if name.isEmpty then none else some (String.ofList name, cs.drop name.length)

def readKeyParts : Nat → List Char → Option (List String × List Char)
  | 0, _ => none
  | n + 1, cs => do
    let (part, cs) ← readSimpleKey (skipSpace cs)
    match skipSpace cs with
    | '.' :: rest =>
      let (parts, rest) ← readKeyParts n rest
      return (part :: parts, rest)
    | rest => return ([part], rest)

/-- How deep lists and tables may be nested, and how many parts a key may have, less one. -/
def depthLimit : Nat := 80

/-- A key, which may be dotted: the path to it and its last part. -/
def readKey (cs : List Char) : Option ((List String × String) × List Char) := do
  let (parts, rest) ← readKeyParts (cs.length + 1) cs
  if depthLimit ≤ parts.length then none
  return ((parts.dropLast, ← parts.getLast?), rest)

/-! ## Numbers -/

/-- Digits between which single underscores may stand. -/
def moreDigits (p : Char → Bool) : List Char → Option (List Char × List Char)
  | [] => some ([], [])
  | '_' :: d :: cs =>
    if p d then (moreDigits p cs).map fun (ds, rest) => (d :: ds, rest) else none
  | ['_'] => none
  | d :: cs =>
    if p d then (moreDigits p cs).map fun (ds, rest) => (d :: ds, rest) else some ([], d :: cs)

/-- At least one digit. -/
def someDigits (p : Char → Bool) (cs : List Char) : Option (List Char × List Char) :=
  match cs with
  | [] => none
  | d :: cs => if p d then (moreDigits p cs).map fun (ds, rest) => (d :: ds, rest) else none

/-- An integer in base ten, with its sign; no zero before other digits. -/
def readWhole (cs : List Char) : Option (List Char × List Char) := do
  let (mark, cs) :=
    match cs with
    | '+' :: rest => ([], rest)
    | '-' :: rest => (['-'], rest)
    | cs => ([], cs)
  match cs with
  | '0' :: rest => return (mark ++ ['0'], rest)
  | cs => do
    let (ds, rest) ← someDigits Decimal.isDigit cs
    return (mark ++ ds, rest)

def readFraction (cs : List Char) : Option (List Char × List Char) :=
  match cs with
  | '.' :: rest => (someDigits Decimal.isDigit rest).map fun (ds, rest) => ('.' :: ds, rest)
  | _ => none

def readExponent (cs : List Char) : Option (List Char × List Char) :=
  match cs with
  | c :: rest =>
    if c == 'e' || c == 'E' then
      let (below, rest) := Decimal.sign rest
      (someDigits Decimal.isDigit rest).map fun (ds, rest) =>
        ('e' :: (if below then ['-'] else []) ++ ds, rest)
    else none
  | [] => none

/-- A number with a fraction, an exponent or both. Numbers too far below zero become infinite; too
far above it they are refused. -/
def readDecimal (cs : List Char) : Option (Item × List Char) := do
  let (whole, cs) ← readWhole cs
  let (tail, cs) ←
    match readFraction cs with
    | some (fraction, cs) =>
      match readExponent cs with
      | some (exponent, cs) => some (fraction ++ exponent, cs)
      | none => some (fraction, cs)
    | none => readExponent cs
  let x := (← Decimal.written? (whole ++ tail)).toFloat
  if x.isInf && 0 < x then none else some (.float x, cs)

/-- The words for numbers that have no digits. -/
def readNamed (cs : List Char) : Option (Item × List Char) :=
  let (below, cs) := Decimal.sign cs
  match cs with
  | 'i' :: 'n' :: 'f' :: rest =>
    some (.float (Float.ofBits (if below then 0xFFF0000000000000 else 0x7FF0000000000000)), rest)
  | 'n' :: 'a' :: 'n' :: rest => some (.float (Float.ofBits 0x7FF8000000000000), rest)
  | _ => none

/-- An integer of 64 bits with a sign. -/
def readInteger (cs : List Char) : Option (Item × List Char) :=
  let inBase := fun (base : Nat) (cs : List Char) => do
    let (ds, rest) ← someDigits (fun c => (Decimal.digitValue? c).any (· < base)) cs
    let n ← Decimal.natIn? base ds
    if n < Nat.pow 2 63 then some (Item.int n, rest) else none
  match cs with
  | '0' :: 'x' :: rest => inBase 16 rest
  | '0' :: 'o' :: rest => inBase 8 rest
  | '0' :: 'b' :: rest => inBase 2 rest
  | cs => do
    let (whole, rest) ← readWhole cs
    let (below, ds) := Decimal.sign whole
    let n ← Decimal.natIn? 10 ds
    if below then (if n ≤ Nat.pow 2 63 then some (.int (-(n : Int)), rest) else none)
    else if n < Nat.pow 2 63 then some (.int n, rest) else none

def readNumber (cs : List Char) : Option (Item × List Char) :=
  match Moment.read? cs with
  | some (s, rest) => some (.moment s, rest)
  | none =>
    match readDecimal cs with
    | some r => some r
    | none =>
      match readNamed cs with
      | some r => some r
      | none => readInteger cs

/-! ## Values -/

/-- A word such as `true`, with the value it stands for. -/
def readWord (word : List Char) (item : Item) (cs : List Char) : Option (Item × List Char) :=
  if word.isPrefixOf cs then some (item, cs.drop word.length) else none

mutual

/-- A value inside so many lists and tables. -/
def readValue : Nat → Nat → List Char → Option (Item × List Char)
  | 0, _, _ => none
  | n + 1, depth, cs =>
    match cs with
    | [] => none
    | c :: rest =>
      if c == '"' || c == '\'' then (readText c cs).map fun (s, rest) => (.text s, rest)
      else if c == '[' then
        if depthLimit ≤ depth + 1 then none
        else (readItems n (depth + 1) rest).map fun (items, rest) => (.list items, rest)
      else if c == '\x7b' then
        if depthLimit ≤ depth + 1 then none
        else
          match skipSpace rest with
          | '\x7d' :: rest => some (.table true .written [], rest)
          | rest => do
            let (members, rest) ← readPairs n (depth + 1) [] rest
            return (.table true .written members, rest)
      else if c == '+' || c == '-' || Decimal.isDigit c then readNumber cs
      else if c == 't' then readWord "true".toList (.flag true) cs
      else if c == 'f' then readWord "false".toList (.flag false) cs
      else readNamed cs

/-- The items of a list up to its bracket; a comma may follow the last one. -/
def readItems : Nat → Nat → List Char → Option (List Item × List Char)
  | 0, _, _ => none
  | n + 1, depth, cs =>
    match skipLines (cs.length + 1) cs with
    | ']' :: rest => some ([], rest)
    | cs => do
      let (item, cs) ← readValue n depth cs
      match skipLines (cs.length + 1) cs with
      | ',' :: rest =>
        let (items, rest) ← readItems n depth rest
        return (item :: items, rest)
      | ']' :: rest => return ([item], rest)
      | _ => none

/-- The members of a table in braces, of which there is at least one more. -/
def readPairs : Nat → Nat → Members → List Char → Option (Members × List Char)
  | 0, _, _, _ => none
  | n + 1, depth, members, cs => do
    let ((path, key), cs) ← readKey cs
    match cs with
    | '=' :: rest =>
      let (item, rest) ← readValue n depth (skipSpace rest)
      let members ← members.addPair true path key item
      match skipSpace rest with
      | ',' :: rest => readPairs n depth members rest
      | '\x7d' :: rest => return (members, rest)
      | _ => none
    | _ => none

end

/-! ## Documents -/

/-- A header between brackets and the rest of its line. -/
def readHeader (close : List Char) (cs : List Char) : Option (List String × List Char) := do
  let ((path, key), cs) ← readKey cs
  if close.isPrefixOf cs then return (path ++ [key], ← lineEnd? (cs.drop close.length)) else none

/-- A key with its value and the rest of the line. -/
def readPair (d : Document) (cs : List Char) : Option (Document × List Char) := do
  let ((path, key), cs) ← readKey cs
  match cs with
  | '=' :: rest =>
    let (item, rest) ← readValue (rest.length + 1) 0 (skipSpace rest)
    let rest ← lineEnd? rest
    return (← d.addPair path key item, rest)
  | _ => none

/-- Reads on, line by line. -/
def readLinesOf : Nat → Document → List Char → Option Members
  | 0, _, _ => none
  | n + 1, d, cs =>
    match skipSpace cs with
    | [] => d.finish
    | '[' :: '[' :: rest => do
      let (path, rest) ← readHeader [']', ']'] rest
      readLinesOf n (← d.openElement path) rest
    | '[' :: rest => do
      let (path, rest) ← readHeader [']'] rest
      readLinesOf n (← d.openTable path) rest
    | c :: rest =>
      if c == '#' || c == '\n' || c == '\r' then do
        readLinesOf n d (← lineEnd? (c :: rest))
      else do
        let (d, rest) ← readPair d (c :: rest)
        readLinesOf n d rest

/-- The members that a text writes; a byte order mark may come first. -/
def read? (text : String) : Option Members :=
  let cs :=
    match text.toList with
    | '\uFEFF' :: cs => cs
    | cs => cs
  readLinesOf (cs.length + 1) .empty cs

end Lexicolor.Toml
