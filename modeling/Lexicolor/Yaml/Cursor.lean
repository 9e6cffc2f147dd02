/-
Where a reader stands in a YAML text: what follows, how many characters came before, and the
line and column.
-/
import Lexicolor.Yaml.Chars

namespace Lexicolor.Yaml

structure Cursor where
  rest : List Char
  index : Nat
  line : Nat
  column : Nat
deriving Repr, Inhabited

namespace Cursor

def start (cs : List Char) : Cursor := ⟨cs, 0, 0, 0⟩

/-- Past `n` characters of one line. -/
def skip (c : Cursor) (n : Nat) : Cursor := ⟨c.rest.drop n, c.index + n, c.line, c.column + n⟩

/-- Past the characters of one line that satisfy `p`, with these characters. -/
def takeWhile (c : Cursor) (p : Char → Bool) : List Char × Cursor :=
  let taken := c.rest.takeWhile p
  (taken, c.skip taken.length)

def skipWhile (c : Cursor) (p : Char → Bool) : Cursor := (c.takeWhile p).2

def skipBlanks (c : Cursor) : Cursor := c.skipWhile isBlank

/-- Past everything up to the end of the line. -/
def skipToBreak (c : Cursor) : Cursor := c.skipWhile (!isBreak ·)

/-- Past the break that ends the line, with the break as it counts in a scalar: a line feed for
most of them. Where no break stands nothing happens. -/
def takeBreak (c : Cursor) : List Char × Cursor :=
  match c.rest with
  | '\r' :: '\n' :: rest => (['\n'], ⟨rest, c.index + 2, c.line + 1, 0⟩)
  | b :: rest =>
    if isBreak b then
      (if b == '\u2028' || b == '\u2029' then [b] else ['\n'], ⟨rest, c.index + 1, c.line + 1, 0⟩)
    else ([], c)
  | [] => ([], c)

def skipBreak (c : Cursor) : Cursor := c.takeBreak.2

/-- Whether three equal characters of a mark between documents begin a line here. -/
def atMark (c : Cursor) (m : Char) : Bool :=
  c.column == 0 &&
    match c.rest with
    | a :: b :: d :: rest => a == m && b == m && d == m && endsWord rest
    | _ => false

def atAnyMark (c : Cursor) : Bool := c.atMark '-' || c.atMark '.'

/-- Past blanks and a comment to the end of the line; nothing else may stand there. -/
def restOfLine (c : Cursor) : Option Cursor :=
  let c := c.skipBlanks
  let c := if c.rest.head? == some '#' then c.skipToBreak else c
  if endsLine c.rest then some c.skipBreak else none

end Cursor

end Lexicolor.Yaml
