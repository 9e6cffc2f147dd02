/-
Reading scalars. Between two pieces of a scalar without a block lies a gap of blanks and breaks:
blanks on one line are kept, a single line feed becomes a blank, and of several breaks the first
line feed is dropped.
-/
import Lexicolor.Yaml.Cursor
import Lexicolor.Decimal.Reader

namespace Lexicolor.Yaml

/-- How a scalar is written. -/
inductive Form where
  | plain
  | single
  | double
  | literal
  | folded
deriving Repr, DecidableEq, Inhabited

namespace Scalar

/-! ## Gaps -/

structure Gap where
  /-- Whether the line ends in the gap. -/
  broken : Bool
  /-- The blanks, as long as no line ends. -/
  blanks : List Char
  first : List Char
  more : List Char
deriving Inhabited

def Gap.empty : Gap := ⟨false, [], [], []⟩

/-- What a gap leaves in the text. -/
def Gap.text (g : Gap) : List Char :=
  if g.broken then
    if g.first == ['\n'] then (if g.more.isEmpty then [' '] else g.more) else g.first ++ g.more
  else g.blanks

/-- Reads on in a gap. After a break, no tab may stand before column `indent`. -/
def readGap (indent : Nat) : Nat → Gap → Cursor → Option (Gap × Cursor)
  | 0, _, _ => none
  | n + 1, g, c =>
    match c.rest with
    | [] => some (g, c)
    | b :: _ =>
      if isBlank b then
        if g.broken then
          if b == '\t' && c.column < indent then none else readGap indent n g (c.skip 1)
        else readGap indent n { g with blanks := g.blanks ++ [b] } (c.skip 1)
      else if isBreak b then
        let (line, c) := c.takeBreak
        if g.broken then readGap indent n { g with more := g.more ++ line } c
        else readGap indent n ⟨true, [], line, []⟩ c
      else some (g, c)

/-! ## Scalars without quotes -/

def isFlowMark (c : Char) : Bool := c == ',' || c == '[' || c == ']' || c == '\x7b' || c == '\x7d'

/-- The characters up to a blank, a break or a mark. Inside brackets a colon directly before a
bracket, a comma or a question mark is an error. -/
def plainRun (inFlow : Bool) : List Char → Option (List Char)
  | [] => some []
  | c :: cs =>
    if isBlank c || isBreak c then some []
    else if inFlow && c == ':' && cs.head?.any (fun d => isFlowMark d || d == '?') then none
    else if (c == ':' && endsWord cs) || (inFlow && isFlowMark c) then some []
    else (plainRun inFlow cs).map (c :: ·)

/-- What a scalar is, where it ends, and whether the line has ended since its last piece. -/
structure Reading where
  text : List Char
  cursor : Cursor
  broken : Bool
deriving Inhabited

/-- Reads on in a scalar without quotes that belongs to a block with contents from column
`indent` on. -/
def readPlain (inFlow : Bool) (indent : Nat) : Nat → List Char → Gap → Cursor → Option Reading
  | 0, _, _, _ => none
  | n + 1, text, g, c =>
    if c.atAnyMark || c.rest.head? == some '#' then some ⟨text, c, g.broken⟩
    else
      match plainRun inFlow c.rest with
      | none => none
      | some run =>
        let (text, g) := if run.isEmpty then (text, g) else (text ++ g.text ++ run, .empty)
        let c := c.skip run.length
        if !(startsBlank c.rest || (endsLine c.rest && !c.rest.isEmpty)) then
          some ⟨text, c, g.broken⟩
        else
          match readGap indent (c.rest.length + 1) g c with
          | none => none
          | some (g, c) =>
            if !inFlow && c.column < indent then some ⟨text, c, g.broken⟩
            else readPlain inFlow indent n text g c

def plain (inFlow : Bool) (indent : Nat) (c : Cursor) : Option Reading :=
  readPlain inFlow indent (c.rest.length + 1) [] .empty c

/-! ## Quoted scalars -/

/-- The character that so many hexadecimal digits name. -/
def hexChar? (digits : Nat) (cs : List Char) : Option Char := do
  if cs.length < digits then none
  let n ← Decimal.natIn? 16 (cs.take digits)
  if h : n.isValidChar then some (Char.ofNatAux n h) else none

/-- What an escape stands for and how long it is, without its backslash. -/
def escape? (cs : List Char) : Option (Char × Nat) :=
  match cs with
  | [] => none
  | c :: cs =>
    match c with
    | '0' => some ('\x00', 1)
    | 'a' => some ('\x07', 1)
    | 'b' => some ('\x08', 1)
    | 't' | '\t' => some ('\t', 1)
    | 'n' => some ('\n', 1)
    | 'v' => some ('\x0b', 1)
    | 'f' => some ('\x0c', 1)
    | 'r' => some ('\r', 1)
    | 'e' => some ('\x1b', 1)
    | ' ' | '"' | '/' | '\\' => some (c, 1)
    | 'N' => some ('\u0085', 1)
    | '_' => some ('\u00a0', 1)
    | 'L' => some ('\u2028', 1)
    | 'P' => some ('\u2029', 1)
    | 'x' => (hexChar? 2 cs).map (·, 3)
    | 'u' => (hexChar? 4 cs).map (·, 5)
    | 'U' => (hexChar? 8 cs).map (·, 9)
    | _ => none

/-- The characters up to a blank, a break or the closing quote, and whether they end with an
escaped break. -/
def quotedRun (single : Bool) : Nat → List Char → Cursor → Option (List Char × Cursor × Bool)
  | 0, _, _ => none
  | n + 1, text, c =>
    let stop := some (text, c, false)
    match c.rest with
    | [] => stop
    | d :: rest =>
      if isBlank d || isBreak d then stop
      else if single then
        if d == '\'' then
          if rest.head? == some '\'' then quotedRun single n (text ++ ['\'']) (c.skip 2) else stop
        else quotedRun single n (text ++ [d]) (c.skip 1)
      else if d == '"' then stop
      else if d == '\\' then
        if rest.head?.any isBreak then some (text, (c.skip 1).skipBreak, true)
        else
          match escape? rest with
          | none => none
          | some (e, length) => quotedRun single n (text ++ [e]) (c.skip (length + 1))
      else quotedRun single n (text ++ [d]) (c.skip 1)

/-- Reads on in a quoted scalar. -/
def readQuoted (single : Bool) : Nat → List Char → Cursor → Option (List Char × Cursor)
  | 0, _, _ => none
  | n + 1, text, c =>
    if c.atAnyMark || c.rest.isEmpty then none
    else
      match quotedRun single (c.rest.length + 1) text c with
      | none => none
      | some (text, c, broken) =>
        if c.rest.head? == some (if single then '\'' else '"') then some (text, c.skip 1)
        else
          match readGap 0 (c.rest.length + 1) ⟨broken, [], [], []⟩ c with
          | none => none
          | some (g, c) => readQuoted single n (text ++ g.text) c

/-- A quoted scalar, from its opening quote on. -/
def quoted (single : Bool) (c : Cursor) : Option (List Char × Cursor) :=
  readQuoted single (c.rest.length + 1) [] (c.skip 1)

/-! ## Blocks -/

/-- What a block keeps of the breaks at its end. -/
inductive Keep where
  | none
  | one
  | all
deriving Repr, DecidableEq, Inhabited

/-- The signs after the mark of a block: what it keeps, and how far in its lines stand (nothing
given: zero). They come in either order. -/
def blockSigns (cs : List Char) : Option (Keep × Nat × Nat) :=
  let keep? := fun (c : Char) =>
    if c == '+' then some Keep.all else if c == '-' then some Keep.none else none
  let digit? := fun (c : Char) => if Decimal.isDigit c then some (c.toNat - 48) else none
  let checked := fun (keep : Keep) (d length : Nat) => if d = 0 then none else some (keep, d, length)
  match cs with
  | [] => some (.one, 0, 0)
  | a :: rest =>
    match keep? a, digit? a with
    | some keep, _ =>
      match rest.head?.bind digit? with
      | some d => checked keep d 2
      | none => some (keep, 0, 1)
    | none, some d =>
      match rest.head?.bind keep? with
      | some keep => checked keep d 2
      | none => checked .one d 1
    | none, none => some (.one, 0, 0)

/-- The empty lines at a place in a block, and the widest column reached among them. No tab may
stand where the depth of the block is still open or not yet reached. -/
def emptyLines (indent : Nat) : Nat → Nat → List Char → Cursor → Option (Nat × List Char × Cursor)
  | 0, _, _, _ => none
  | n + 1, widest, breaks, c =>
    let room := if indent = 0 then c.rest.length else indent - c.column
    let c := c.skip ((c.rest.take room).takeWhile (· == ' ')).length
    let widest := Nat.max widest c.column
    if (indent = 0 || c.column < indent) && c.rest.head? == some '\t' then none
    else if endsLine c.rest && !c.rest.isEmpty then
      let (line, c) := c.takeBreak
      emptyLines indent n widest (breaks ++ line) c
    else some (widest, breaks, c)

/-- Reads the lines of a block at its depth: `first` holds the break after the last line and
`more` those of the empty lines after it; `blank` says whether the last line begins blank. -/
def blockLines (literal : Bool) (indent : Nat) : Nat → List Char → List Char → List Char → Bool →
    Cursor → Option (List Char × List Char × List Char × Cursor)
  | 0, _, _, _, _, _ => none
  | n + 1, text, first, more, blank, c =>
    if c.column != indent || c.rest.isEmpty then some (text, first, more, c)
    else
      let starts := startsBlank c.rest
      let joint :=
        if !literal && first == ['\n'] && !blank && !starts then
          (if more.isEmpty then [' '] else [])
        else first
      let (line, c) := c.takeWhile (!isBreak ·)
      let text := text ++ joint ++ more ++ line
      let (first, c) := c.takeBreak
      match emptyLines indent (c.rest.length + 1) 0 [] c with
      | none => none
      | some (_, more, c) => blockLines literal indent n text first more starts c

/-- A block scalar, from its mark on, where `depth` is one more than the column of the block
around it. -/
def block (literal : Bool) (depth : Nat) (c : Cursor) : Option (List Char × Cursor) := do
  let c := c.skip 1
  let (keep, more, length) ← blockSigns c.rest
  let c ← (c.skip length).restOfLine
  let given := if more = 0 then 0 else depth - 1 + more
  let (widest, breaks, c) ← emptyLines given (c.rest.length + 1) 0 [] c
  let indent := if given = 0 then Nat.max widest (Nat.max depth 1) else given
  let (text, first, breaks, c) ← blockLines literal indent (c.rest.length + 1) [] [] breaks false c
  let text := if keep = .none then text else text ++ first
  return (if keep = .all then text ++ breaks else text, c)

end Scalar

end Lexicolor.Yaml
