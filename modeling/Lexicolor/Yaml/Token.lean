/-
The tokens of a YAML text. Where the depth of a line says that a block begins or ends there are
tokens for it, and a key without a mark of its own gets its mark when the colon after it is met;
so the tokens alone say how the text is nested.
-/
import Lexicolor.Yaml.Token.Scalars
import Lexicolor.Yaml.Token.Names

namespace Lexicolor.Yaml

inductive Token where
  | directive (d : Names.Directive)
  | documentStart
  | documentEnd
  | blockListStart
  | blockRecordStart
  | blockEnd
  | flowListStart
  | flowListEnd
  | flowRecordStart
  | flowRecordEnd
  | blockEntry
  | flowEntry
  | key
  | value
  | alias (name : String)
  | anchor (name : String)
  | tag (name : TagName)
  | scalar (form : Form) (text : String)
deriving Repr, DecidableEq, Inhabited

/-- A place where a key without a mark may have begun: where its mark would stand among the
tokens, where it begins in the text, and whether it must turn out to be a key. -/
structure PendingKey where
  place : Nat
  index : Nat
  line : Nat
  column : Nat
  required : Bool
deriving Repr, Inhabited

/-- Tokens as far as the text is read. -/
structure Tokens where
  cursor : Cursor
  /-- The tokens so far, latest first. -/
  done : List Token
  /-- One more than the column of the innermost block; zero outside all blocks. -/
  depth : Nat
  /-- The depths of the blocks around it, innermost first. -/
  depths : List Nat
  /-- Whether a key without a mark may begin here. -/
  keyAllowed : Bool
  /-- The key that may have begun inside the innermost brackets. -/
  pending : Option PendingKey
  /-- The same for the brackets around them, innermost first. -/
  outer : List (Option PendingKey)
deriving Inhabited

namespace Tokens

def start (cs : List Char) : Tokens := ⟨.start cs, [], 0, [], true, none, []⟩

def inFlow (t : Tokens) : Bool := !t.outer.isEmpty

def push (t : Tokens) (token : Token) : Tokens := { t with done := token :: t.done }

/-- A token put before those from number `place` on. -/
def insertAt (t : Tokens) (place : Nat) (token : Token) : Tokens :=
  let late := t.done.length - place
  { t with done := t.done.take late ++ token :: t.done.drop late }

def moveTo (t : Tokens) (c : Cursor) : Tokens := { t with cursor := c }

def allowKey (t : Tokens) (allowed : Bool) : Tokens := { t with keyAllowed := allowed }

/-- Closes blocks from the innermost one on, down to a depth. -/
def closeBlocks (depth : Nat) : List Nat → Tokens → Tokens
  | [], t => t
  | d :: ds, t =>
    if depth < t.depth then closeBlocks depth ds { t.push .blockEnd with depth := d, depths := ds }
    else t

/-- Closes the blocks beyond a depth; none inside brackets. -/
def unroll (t : Tokens) (depth : Nat) : Tokens :=
  if t.inFlow then t else closeBlocks depth t.depths t

/-- Opens a block at a column, unless it lies in one already. -/
def roll (t : Tokens) (column : Nat) (insert : Tokens → Tokens) : Tokens :=
  if t.inFlow || column < t.depth then t
  else { insert t with depth := column + 1, depths := t.depth :: t.depths }

/-- Gives up the key that may have begun; an error when it must be one. -/
def dropKey (t : Tokens) : Option Tokens :=
  if t.pending.any (·.required) then none else some { t with pending := none }

/-- Notes that a key may begin here. -/
def saveKey (t : Tokens) : Option Tokens :=
  if t.keyAllowed then do
    let c := t.cursor
    let required := !t.inFlow && t.depth == c.column + 1
    let t ← t.dropKey
    return { t with pending := some ⟨t.done.length, c.index, c.line, c.column, required⟩ }
  else some t

/-- The key that may have begun, as long as it lies on this line and is not too long. -/
def validKey (t : Tokens) : Option (Option PendingKey) :=
  match t.pending with
  | none => some none
  | some k =>
    if k.line < t.cursor.line || k.index + 1024 < t.cursor.index then
      if k.required then none else some none
    else some (some k)

/-- Leaves all blocks, as at the end of a document. -/
def leaveBlocks (t : Tokens) : Option Tokens := do
  return (← (t.unroll 0).dropKey).allowKey false

def readMark (t : Tokens) (token : Token) : Option Tokens := do
  let t ← t.leaveBlocks
  return (t.moveTo (t.cursor.skip 3)).push token

def readDirective (t : Tokens) : Option Tokens := do
  let t ← t.leaveBlocks
  let (d, c) ← Names.directive t.cursor
  return (t.moveTo c).push (.directive d)

def openFlow (t : Tokens) (token : Token) : Option Tokens := do
  let t ← t.saveKey
  let t := { t with pending := none, outer := t.pending :: t.outer, keyAllowed := true }
  return (t.moveTo (t.cursor.skip 1)).push token

def closeFlow (t : Tokens) (token : Token) : Option Tokens := do
  let t ← t.dropKey
  let t :=
    match t.outer with
    | [] => t
    | k :: ks => { t with pending := k, outer := ks }
  return ((t.allowKey false).moveTo (t.cursor.skip 1)).push token

def readFlowEntry (t : Tokens) : Option Tokens := do
  let t ← t.dropKey
  return ((t.allowKey true).moveTo (t.cursor.skip 1)).push .flowEntry

/-- A token at which a block may begin, where no key has to end first. -/
def enterBlock (t : Tokens) (blockStart : Token) : Option Tokens :=
  if t.inFlow then some t
  else if t.keyAllowed then some (t.roll t.cursor.column (·.push blockStart))
  else none

def readBlockEntry (t : Tokens) : Option Tokens := do
  let t ← (← t.enterBlock .blockListStart).dropKey
  return ((t.allowKey true).moveTo (t.cursor.skip 1)).push .blockEntry

def readKey (t : Tokens) : Option Tokens := do
  let t ← (← t.enterBlock .blockRecordStart).dropKey
  return ((t.allowKey !t.inFlow).moveTo (t.cursor.skip 1)).push .key

/-- A colon: what came before it on the line may be its key. -/
def readValue (t : Tokens) : Option Tokens := do
  let t ←
    match ← t.validKey with
    | some k =>
      let t := t.insertAt k.place .key
      let t := t.roll k.column (·.insertAt k.place .blockRecordStart)
      some { t with pending := none, keyAllowed := false }
    | none => do
      let t ← t.enterBlock .blockRecordStart
      some (t.allowKey !t.inFlow)
  return (t.moveTo (t.cursor.skip 1)).push .value

def readAnchor (t : Tokens) (token : String → Token) : Option Tokens := do
  let t ← t.saveKey
  let (name, c) ← Names.anchor t.cursor
  return ((t.allowKey false).moveTo c).push (token name)

def readTag (t : Tokens) : Option Tokens := do
  let t ← t.saveKey
  let (name, c) ← Names.tag t.inFlow t.cursor
  return ((t.allowKey false).moveTo c).push (.tag name)

def pushScalar (t : Tokens) (form : Form) (text : List Char) : Tokens :=
  t.push (.scalar form (String.ofList text))

def readBlock (t : Tokens) (form : Form) : Option Tokens := do
  let t ← t.dropKey
  let (text, c) ← Scalar.block (form == .literal) t.depth t.cursor
  return ((t.allowKey true).moveTo c).pushScalar form text

def readQuoted (t : Tokens) (form : Form) : Option Tokens := do
  let t ← t.saveKey
  let (text, c) ← Scalar.quoted (form == .single) t.cursor
  return ((t.allowKey false).moveTo c).pushScalar form text

def readPlain (t : Tokens) : Option Tokens := do
  let t ← t.saveKey
  let r ← Scalar.plain t.inFlow t.depth t.cursor
  return ((t.allowKey r.broken).moveTo r.cursor).pushScalar .plain r.text

/-- Past blanks, comments and breaks to the next token. Tabs count as blanks where no key may
begin; a line may begin with a byte order mark, which takes up a column. -/
def skipGap : Nat → Tokens → Tokens
  | 0, t => t
  | n + 1, t =>
    let c := t.cursor
    let c := if c.column == 0 && c.rest.head? == some '\uFEFF' then c.skip 1 else c
    let c := c.skipWhile fun b => b == ' ' || (b == '\t' && (t.inFlow || !t.keyAllowed))
    let c := if c.rest.head? == some '#' then c.skipToBreak else c
    if endsLine c.rest && !c.rest.isEmpty then
      skipGap n ((t.moveTo c.skipBreak).allowKey (t.keyAllowed || !t.inFlow))
    else t.moveTo c

/-- The characters that cannot begin a scalar without quotes. -/
def isIndicator (c : Char) : Bool := "-?:,[]\x7b\x7d#&*!|>'\"%@\x60".toList.contains c

/-- Reads the token that begins with the given character. -/
def readToken (t : Tokens) (ch : Char) (following : List Char) : Option Tokens :=
  let c := t.cursor
  let alone := t.inFlow || endsWord following
  if c.column == 0 && ch == '%' then t.readDirective
  else if c.atMark '-' then t.readMark .documentStart
  else if c.atMark '.' then t.readMark .documentEnd
  else if ch == '[' then t.openFlow .flowListStart
  else if ch == '\x7b' then t.openFlow .flowRecordStart
  else if ch == ']' then t.closeFlow .flowListEnd
  else if ch == '\x7d' then t.closeFlow .flowRecordEnd
  else if ch == ',' then t.readFlowEntry
  else if ch == '-' && endsWord following then t.readBlockEntry
  else if ch == '?' && alone then t.readKey
  else if ch == ':' && alone then t.readValue
  else if ch == '*' then t.readAnchor .alias
  else if ch == '&' then t.readAnchor .anchor
  else if ch == '!' then t.readTag
  else if ch == '|' && !t.inFlow then t.readBlock .literal
  else if ch == '>' && !t.inFlow then t.readBlock .folded
  else if ch == '\'' then t.readQuoted .single
  else if ch == '"' then t.readQuoted .double
  else if isBlank ch then none
  else if !isIndicator ch || ch == '-' || ((ch == '?' || ch == ':') && !t.inFlow) then t.readPlain
  else none

/-- Reads on to the end of the text. -/
def readAll : Nat → Tokens → Option Tokens
  | 0, _ => none
  | n + 1, t =>
    let t := skipGap (t.cursor.rest.length + 1) t
    match t.cursor.rest with
    | [] => t.leaveBlocks
    | ch :: following =>
      match (t.unroll (t.cursor.column + 1)).readToken ch following with
      | none => none
      | some t => readAll n t

end Tokens

/-- The tokens of a text; none when it is not YAML. -/
def tokens? (text : String) : Option (List Token) :=
  let cs := text.toList
  if cs.all isAllowed then
    (Tokens.readAll (cs.length + 2) (.start cs)).map (·.done.reverse)
  else none

end Lexicolor.Yaml
