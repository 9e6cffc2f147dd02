/-
Reading expressions. The reader is a state machine over the characters that are left, the
flags in force and the group names already given; every function that calls itself is bounded
by a count of the characters of the pattern. `Fault` lists what can be wrong with a pattern.

Left out are the escapes for properties of characters, such as `\p{Thai}` or `\pL`, whose tables are
not part of this library, and the bound on the size of what a pattern is compiled to. A pattern with
such an escape is refused here (`Fault.badEscape`), and one that is too large is read. So whatever
reads patterns takes the reader it is to use (`Reader`), and `Expr.read` is the one it uses when it is
given none.
-/
import Lexicolor.Regex.Expr

namespace Lexicolor.Regex

open Text

/-- Why a pattern is refused. -/
inductive Fault where
  | unclosedGroup
  | unopenedGroup
  | unclosedClass
  | lookaround
  | backreference
  | nothingToRepeat
  | badRepetition
  | badGroupName
  | badFlags
  | badEscape
  | badCodePoint
  | badRange
  | notText
  | tooDeep
deriving Repr, DecidableEq, Inhabited

/-- What the flags of a pattern switch on. -/
structure Flags where
  ignoreCase : Bool
  multiLine : Bool
  dotAll : Bool
  swapGreed : Bool
  unicode : Bool
  returns : Bool
  verbose : Bool
deriving Repr, DecidableEq, Inhabited

/-- The flags a pattern starts with: only Unicode is on. -/
def Flags.initial : Flags := ⟨false, false, false, false, true, false, false⟩

/-- The flags with the one of the given letter set; none for an unknown letter. -/
def Flags.set? (f : Flags) (letter : Char) (on : Bool) : Option Flags :=
  match letter with
  | 'i' => some { f with ignoreCase := on }
  | 'm' => some { f with multiLine := on }
  | 's' => some { f with dotAll := on }
  | 'U' => some { f with swapGreed := on }
  | 'u' => some { f with unicode := on }
  | 'R' => some { f with returns := on }
  | 'x' => some { f with verbose := on }
  | _ => none

structure ReadState where
  rest : List Char
  flags : Flags
  names : List String
deriving Inhabited

abbrev Read := StateT ReadState (Except Fault)

namespace Read

def peek : Read (Option Char) := return (← get).rest.head?

def peekSecond : Read (Option Char) := return (← get).rest[1]?

def bump : Read Unit := modify fun s => { s with rest := s.rest.tail }

def atEnd : Read Bool := return (← get).rest.isEmpty

def flags : Read Flags := return (← get).flags

def setFlags (f : Flags) : Read Unit := modify fun s => { s with flags := f }

/-- Whether `text` comes next; if so it is passed over. -/
def skip? (text : String) : Read Bool := do
  let s ← get
  if text.toList.isPrefixOf s.rest then
    set { s with rest := s.rest.drop text.length }
    return true
  else return false

/-- The text after the blanks and `#` comments at its start. -/
def afterBlanks : Bool → List Char → List Char
  | _, [] => []
  | true, c :: cs => afterBlanks (c != '\n') cs
  | false, c :: cs =>
    if isBlank c then afterBlanks false cs
    else if c == '#' then afterBlanks true cs
    else c :: cs

/-- In a verbose pattern blanks and comments are passed over. -/
def space : Read Unit := do
  let s ← get
  if s.flags.verbose then set { s with rest := afterBlanks false s.rest }

def bumpSpace : Read Unit := do bump; space

/-- Takes the characters that satisfy `p`, and in a verbose pattern the blanks among them. -/
def takeWhile (p : Char → Bool) : Read (List Char) := do
  let s ← get
  let rec go : Nat → List Char → List Char × List Char
    | 0, cs => ([], cs)
    | _, [] => ([], [])
    | n + 1, c :: cs =>
      if p c then
        let (taken, rest) := go n (if s.flags.verbose then afterBlanks false cs else cs)
        (c :: taken, rest)
      else ([], c :: cs)
  let (taken, rest) := go s.rest.length s.rest
  set { s with rest := rest }
  return taken

def skipBlanks : Read Unit := do let _ ← takeWhile isBlank

end Read

open Read

/-- The smallest part of a pattern: a character, which may have been written as a byte, a set of
characters or an anchor. -/
inductive Atom where
  | literal (c : Char) (byte : Bool)
  | set (s : CharSet)
  | anchor (a : Anchor)

def isMeta (c : Char) : Bool := "\\.+*?()|[]\x7b\x7d^$#&-~".toList.contains c

def isAsciiLetter (c : Char) : Bool := CharSet.asciiAlpha.contains c

/-- Whether a backslash before `c` makes it stand for itself. -/
def isEscapable (c : Char) : Bool :=
  isMeta c || (c.toNat < 128 && !CharSet.asciiAlnum.contains c && c != '<' && c != '>')

def hexValue? (c : Char) : Option Nat :=
  if '0' ≤ c ∧ c ≤ '9' then some (c.toNat - 48)
  else if 'a' ≤ c ∧ c ≤ 'f' then some (c.toNat - 87)
  else if 'A' ≤ c ∧ c ≤ 'F' then some (c.toNat - 55)
  else none

/-- The number that the digits write. -/
def number (base : Nat) (digits : List Nat) : Nat := digits.foldl (fun n d => n * base + d) 0

/-- The character with a code point; surrogates and numbers too large have none. -/
def charOf? (n : Nat) : Option Char :=
  if n.isValidChar then some (Char.ofNat n) else none

/-- Exactly `n` hexadecimal digits. -/
def readHexDigits : Nat → Read (List Nat)
  | 0 => return []
  | n + 1 => do
    match (← peek).bind hexValue? with
    | none => throw .badCodePoint
    | some d =>
      bumpSpace
      return d :: (← readHexDigits n)

/-- A code point in hexadecimal, the letter before it already passed over. -/
def readHex (width : Nat) : Read Atom := do
  space
  let fixed := (← peek) != some '\x7b'
  let digits ←
    if !fixed then
      bumpSpace
      let text ← takeWhile (· != '\x7d')
      if ← atEnd then throw .badCodePoint
      bumpSpace
      match text.mapM hexValue? with
      | some [] | none => throw .badCodePoint
      | some ds => pure ds
    else readHexDigits width
  match charOf? (number 16 digits) with
  | none => throw .badCodePoint
  | some c => return .literal c (fixed && width == 2)

/-- The set that a class letter stands for; its capital stands for all other characters. -/
def classOf (unicode : Bool) (c : Char) : CharSet :=
  let s : CharSet := match lowerAscii c with
    | 'd' => if unicode then .digit else CharSet.asciiDigit
    | 's' => if unicode then .space else CharSet.asciiSpace
    | _ => if unicode then .word else CharSet.asciiWord
  if 'a' ≤ c then s else .compl s
where
  lowerAscii (c : Char) : Char := if c ≤ 'Z' then Char.ofNat (c.toNat + 32) else c

/-- The braces that may follow a word edge, as in `\b{start}`; braces that hold no letter are
left alone, for they may be a repetition. -/
def readEdge : Read Atom := do
  let ascii := !(← flags).unicode
  let before ← get
  if (← peek) != some '\x7b' then return .anchor (.wordEdge ascii)
  bumpSpace
  if ← atEnd then throw .badEscape
  let isNameChar := fun c => isAsciiLetter c || c == '-'
  if !((← peek).any isNameChar) then
    set before
    return .anchor (.wordEdge ascii)
  let name ← takeWhile isNameChar
  if (← peek) != some '\x7d' then throw .badEscape
  bump
  match String.ofList name with
  | "start" => return .anchor (.wordStart ascii)
  | "end" => return .anchor (.wordEnd ascii)
  | "start-half" => return .anchor (.wordStartHalf ascii)
  | "end-half" => return .anchor (.wordEndHalf ascii)
  | _ => throw .badEscape

/-- What follows a backslash. -/
def readEscape : Read Atom := do
  bump
  let some c ← peek | throw .badEscape
  let ascii := !(← flags).unicode
  bump
  if CharSet.asciiDigit.contains c then throw .backreference
  else if c == 'x' then readHex 2
  else if c == 'u' then readHex 4
  else if c == 'U' then readHex 8
  else if "dswDSW".toList.contains c then return .set (classOf (!ascii) c)
  else if isEscapable c then return .literal c false
  else match c with
    | 'a' => return .literal '\x07' false
    | 'f' => return .literal '\x0c' false
    | 't' => return .literal '\t' false
    | 'n' => return .literal '\n' false
    | 'r' => return .literal '\r' false
    | 'v' => return .literal '\x0b' false
    | 'A' => return .anchor .textStart
    | 'z' => return .anchor .textEnd
    | 'b' => readEdge
    | 'B' => return .anchor (.noWordEdge ascii)
    | '<' => return .anchor (.wordStart ascii)
    | '>' => return .anchor (.wordEnd ascii)
    | _ => throw .badEscape

/-- One atom inside brackets. -/
def readMember : Read Atom := do
  match ← peek with
  | none => throw .unclosedClass
  | some '\\' => readEscape
  | some c =>
    bump
    return .literal c false

/-- The end of a range has to be a character. -/
def Atom.asChar : Atom → Read Char
  | .literal c _ => return c
  | _ => throw .badRange

def Atom.asSet : Atom → Read CharSet
  | .literal c _ => return .single c
  | .set s => return s
  | .anchor _ => throw .badEscape

/-- A member of a class: one atom, or a range of characters. A hyphen before a closing bracket
or before another hyphen makes no range. -/
def readMemberOrRange : Read CharSet := do
  let first ← readMember
  space
  if ← atEnd then throw .unclosedClass
  if (← peek) != some '-' then return ← first.asSet
  let s ← get
  let after := (if s.flags.verbose then Read.afterBlanks false s.rest.tail else s.rest.tail).head?
  if after == some ']' || after == some '-' then return ← first.asSet
  bumpSpace
  let second ← readMember
  let lo ← first.asChar
  let hi ← second.asChar
  if hi < lo then throw .badRange
  return .range lo hi

/-- A named set such as `[:alpha:]`; anything else is left to be read as a class. -/
def readNamed? : Read (Option CharSet) := do
  let before ← get
  let fail : Read (Option CharSet) := do set before; return none
  if !(← skip? "[:") then return ← fail
  let negated ← skip? "^"
  let s ← get
  let name := s.rest.takeWhile (· != ':')
  set { s with rest := s.rest.drop name.length }
  if !(← skip? ":]") then return ← fail
  match CharSet.named? (String.ofList name) with
  | none => fail
  | some set =>
    let set := if (← flags).ignoreCase then CharSet.folded set else set
    return some (if negated then .compl set else set)

/-- The opening of a class: whether it is negated, and the members that only its start admits,
hyphens and then a closing bracket. -/
def openClass : Read (Bool × List CharSet) := do
  bumpSpace
  let negated := (← peek) == some '^'
  if negated then bumpSpace
  let hyphens ← takeWhile (· == '-')
  let members := hyphens.map fun c => CharSet.single c
  if ← atEnd then throw .unclosedClass
  if members.isEmpty && (← peek) == some ']' then
    bumpSpace
    if ← atEnd then throw .unclosedClass
    return (negated, [.single ']'])
  return (negated, members)

/-- Operations between the sets of a class, all of the same rank and grouped from the left. -/
inductive ClassOp where
  | inter
  | diff
  | symmDiff

def ClassOp.apply : ClassOp → CharSet → CharSet → CharSet
  | .inter, s, t => .inter s t
  | .diff, s, t => s.diff t
  | .symmDiff, s, t => s.symmDiff t

/-- The members read so far, combined with what stands before the last operator, and how deep that
is nested. More members than one count as one level, and so does an operator. -/
def closeOperand (ignoreCase : Bool) (left : Option (ClassOp × CharSet × Nat))
    (members : List CharSet) (depth : Nat) : CharSet × Nat :=
  let fold := fun s => if ignoreCase then CharSet.folded s else s
  let right := CharSet.unions members.reverse
  let depth := if members.length < 2 then depth else depth + 1
  match left with
  | none => (right, depth)
  | some (op, s, leftDepth) => (op.apply (fold s) (fold right), max leftDepth depth + 1)

/-- How deep the groups, repetitions and classes of a pattern may be nested. -/
def depthLimit : Nat := 250

/-- The rest of a class, up to its closing bracket, and how deep it is nested; `depth` is how deep
the members are. -/
def readClass : Nat → Bool → Option (ClassOp × CharSet × Nat) → List CharSet → Nat →
    Read (CharSet × Nat)
  | 0, _, _, _, _ => throw .unclosedClass
  | n + 1, negated, left, members, depth => do
    space
    let ignoreCase := (← flags).ignoreCase
    let operator := fun (op : ClassOp) => do
      bump
      bump
      readClass n negated (some (op, closeOperand ignoreCase left members depth)) [] 0
    match ← peek, ← peekSecond with
    | none, _ => throw .unclosedClass
    | some '[', _ =>
      match ← readNamed? with
      | some set => readClass n negated left (set :: members) depth
      | none =>
        let (innerNegated, first) ← openClass
        let (inner, innerDepth) ← readClass n innerNegated none first 0
        readClass n negated left (inner :: members) (max depth innerDepth)
    | some ']', _ =>
      bump
      let (set, depth) := closeOperand ignoreCase left members depth
      let set := if ignoreCase then CharSet.folded set else set
      return (if negated then .compl set else set, depth + 1)
    | some '&', some '&' => operator .inter
    | some '-', some '-' => operator .diff
    | some '~', some '~' => operator .symmDiff
    | _, _ =>
      let set ← readMemberOrRange
      readClass n negated left (set :: members) depth

/-- Without Unicode a set may hold ASCII characters only. -/
def checkedSet (s : CharSet) : Read CharSet := do
  if (← flags).unicode then return s
  if s.isAsciiOnly then return .inter .ascii s else throw .notText

def readBracket : Read (CharSet × Nat) := do
  let (negated, first) ← openClass
  let (set, depth) ← readClass ((← get).rest.length + 1) negated none first 0
  return (← checkedSet set, depth)

/-- The expression of one character. -/
def literalExpr (c : Char) (byte : Bool) : Read Expr := do
  let f ← flags
  if !f.unicode && ((byte && 127 < c.toNat) || (f.ignoreCase && 127 < c.toNat)) then throw .notText
  if f.ignoreCase then return .one (← checkedSet (.folded (.single c)))
  return .one (.single c)

def Atom.asExpr : Atom → Read Expr
  | .literal c byte => literalExpr c byte
  | .set s => return .one (← checkedSet s)
  | .anchor a => return .anchor a

/-- The point, the two line anchors, an escape or a plain character. -/
def readAtom : Read Expr := do
  let f ← flags
  match ← peek with
  | none => return .empty
  | some '\\' => (← readEscape).asExpr
  | some '.' =>
    bump
    let dot : CharSet :=
      if f.dotAll then .any
      else if f.returns then .compl (.union (.single '\n') (.single '\r'))
      else .compl (.single '\n')
    return .one (← checkedSet dot)
  | some '^' =>
    bump
    return .anchor (if !f.multiLine then .textStart else if f.returns then .returnStart else .lineStart)
  | some '$' =>
    bump
    return .anchor (if !f.multiLine then .textEnd else if f.returns then .returnEnd else .lineEnd)
  | some c =>
    bump
    literalExpr c false

/-- A part of a pattern and how deep it is nested. -/
structure Piece where
  expr : Expr
  depth : Nat
deriving Inhabited

/-- What stands in a row: parts, and settings of flags, which cannot be repeated. -/
inductive Item where
  | piece (p : Piece)
  | setting

def Item.expr? : Item → Option Expr
  | .piece p => some p.expr
  | .setting => none

def Item.depth : Item → Nat
  | .piece p => p.depth
  | .setting => 0

/-- The sequence of the parts, grouped from the left; `items` holds the latest first. -/
def sequence (items : List Item) : Piece :=
  let expr := Expr.sequence (items.reverse.filterMap Item.expr?)
  let depth := (items.map Item.depth).foldl max 0
  ⟨expr, if items.length < 2 then depth else depth + 1⟩

/-- The choice between the parts; `pieces` holds the latest first. -/
def choice (pieces : List Piece) : Piece :=
  match pieces with
  | [] => ⟨.empty, 0⟩
  | [p] => p
  | p :: ps =>
    let expr := ps.foldl (fun e q => .alt q.expr e) p.expr
    ⟨expr, (pieces.map (·.depth)).foldl max 0 + 1⟩

/-- A decimal number with blanks around it; none when no digit stands there. -/
def readCount : Read (Option Nat) := do
  skipBlanks
  let digits ← takeWhile CharSet.asciiDigit.contains
  skipBlanks
  if digits.isEmpty then return none
  let n := number 10 (digits.map fun c => c.toNat - 48)
  if n < Nat.pow 2 32 then return some n else throw .badRepetition

/-- The bounds in braces, the opening brace being next. -/
def readBounds : Read (Nat × Option Nat) := do
  bumpSpace
  if ← atEnd then throw .badRepetition
  let some least ← readCount | throw .badRepetition
  let bounds ←
    if (← peek) == some ',' then
      bumpSpace
      if ← atEnd then throw .badRepetition
      if (← peek) == some '\x7d' then pure (least, none)
      else
        let some most ← readCount | throw .badRepetition
        pure (least, some most)
    else pure (least, some least)
  if (← peek) != some '\x7d' then throw .badRepetition
  if bounds.2.any (· < bounds.1) then throw .badRepetition
  bumpSpace
  return bounds

/-- A repetition of the last part, whose bounds have been read: a question mark makes it lazy. -/
def repeatLast (bounds : Nat × Option Nat) (items : List Item) : Read (List Item) := do
  let lazyMark ← skip? "?"
  match items with
  | .piece p :: rest =>
    let greedy := lazyMark == (← flags).swapGreed
    return .piece ⟨.rep p.expr bounds.1 bounds.2 greedy, p.depth + 1⟩ :: rest
  | _ => throw .nothingToRepeat

/-- The flag letters up to a colon or a closing parenthesis; a minus switches off those after
it. No letter may come twice, nor the minus, and a letter has to follow it. -/
def readFlags : Nat → List Char → Bool → Flags → Read Flags
  | 0, _, _, _ => throw .badFlags
  | n + 1, seen, on, f => do
    match ← peek with
    | none => throw .badFlags
    | some ')' | some ':' => if seen.head? == some '-' then throw .badFlags else return f
    | some c =>
      if seen.contains c then throw .badFlags
      bump
      if c == '-' then readFlags n (c :: seen) false f
      else
        match f.set? c on with
        | none => throw .badFlags
        | some g => readFlags n (c :: seen) on g

def isNameChar (first : Bool) (c : Char) : Bool :=
  c == '_' || (!first && (c == '.' || c == '[' || c == ']')) ||
    (if first then alphabetic.contains c.toNat else isAlphanumeric c)

/-- The name of a group up to its closing angle; no two groups share one. -/
def readName : Read String := do
  let s ← get
  let name := s.rest.takeWhile (· != '>')
  match name with
  | [] => throw .badGroupName
  | c :: cs =>
    if !isNameChar true c || !cs.all (isNameChar false) then throw .badGroupName
    let text := String.ofList name
    let rest := s.rest.drop name.length
    if rest.isEmpty || s.names.contains text then throw .badGroupName
    set { s with rest := rest.tail, names := text :: s.names }
    return text

/-- What an opening parenthesis begins. -/
inductive Opening where
  /-- The flags are set for the rest of the group around it. -/
  | setting
  | group (name : Option String)
  /-- A group that captures nothing. -/
  | plain

def readOpening : Read Opening := do
  bumpSpace
  let s ← get
  if ["?=", "?!", "?<=", "?<!"].any fun mark => mark.toList.isPrefixOf s.rest then throw .lookaround
  if (← skip? "?P<") || (← skip? "?<") then
    return .group (some (← readName))
  else if ← skip? "?" then
    let old ← flags
    let new ← readFlags ((← get).rest.length + 1) [] true old
    setFlags new
    let next ← peek
    let noFlags := (← get).rest.length + 1 == s.rest.length
    bump
    if next == some ')' then
      if noFlags then throw .nothingToRepeat
      return .setting
    else return .plain
  else return .group none

/-- The end of a group: the flags set in it are forgotten. -/
def closeGroup (old : Flags) (e : Expr) (depth : Nat) : Read Item := do
  if (← peek) != some ')' then throw .unclosedGroup
  bump
  setFlags old
  return .piece ⟨e, depth + 1⟩

/-- The alternatives up to the end of the pattern or of the group. -/
def readAlternatives : Nat → List Piece → List Item → Read Piece
  | 0, _, _ => throw .tooDeep
  | n + 1, done, items => do
    space
    let repeated := fun (least : Nat) (most : Option Nat) => do
      bump
      readAlternatives n done (← repeatLast (least, most) items)
    match ← peek with
    | none | some ')' => return choice (sequence items :: done)
    | some '|' =>
      bump
      readAlternatives n (sequence items :: done) []
    | some '(' =>
      let old ← flags
      match ← readOpening with
      | .setting => readAlternatives n done (.setting :: items)
      | .group name => do
        let inner ← readAlternatives n [] []
        let whole ← closeGroup old (.group name inner.expr) inner.depth
        readAlternatives n done (whole :: items)
      | .plain => do
        let inner ← readAlternatives n [] []
        let whole ← closeGroup old inner.expr inner.depth
        readAlternatives n done (whole :: items)
    | some '[' =>
      let (set, depth) ← readBracket
      readAlternatives n done (.piece ⟨.one set, depth⟩ :: items)
    | some '?' => repeated 0 (some 1)
    | some '*' => repeated 0 none
    | some '+' => repeated 1 none
    | some '\x7b' =>
      if items.isEmpty then throw .nothingToRepeat
      let bounds ← readBounds
      readAlternatives n done (← repeatLast bounds items)
    | some _ =>
      let e ← readAtom
      readAlternatives n done (.piece ⟨e, 0⟩ :: items)
def readPattern : Read Expr := do
  let p ← readAlternatives ((← get).rest.length + 1) [] []
  if !(← atEnd) then throw .unopenedGroup
  if depthLimit < p.depth then throw .tooDeep
  return p.expr

/-- The expression that a pattern text writes. -/
def Expr.read (text : String) : Except Fault Expr :=
  (readPattern.run ⟨text.toList, Flags.initial, []⟩).map (·.1)

/-- What tells the expression that a pattern text writes. -/
abbrev Reader := String → Except Fault Expr

end Lexicolor.Regex
