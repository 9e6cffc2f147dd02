/-
Places between the characters of a text. A place knows how many bytes lie before it, the
character just before it, and all that follows; so a place says everything that matching at
it can depend on, and no operation can leave the text or cut a character in two.
-/

namespace Lexicolor.Text

/-- The number of UTF-8 bytes that characters take. -/
def bytes : List Char → Nat
  | [] => 0
  | c :: cs => c.utf8Size + bytes cs

structure Place where
  /-- The number of UTF-8 bytes before the place. -/
  offset : Nat
  /-- The character just before the place; none at the start of the text. -/
  before : Option Char
  /-- What follows. -/
  rest : List Char
deriving Repr, DecidableEq, Inhabited

namespace Place

/-- The place before the first character of a text. -/
def start (cs : List Char) : Place := ⟨0, none, cs⟩

/-- The place after the next character, if there is one. -/
def next? (p : Place) : Option Place :=
  match p.rest with
  | [] => none
  | c :: cs => some ⟨p.offset + c.utf8Size, some c, cs⟩

/-- The place after `cs`, when `p` is the place before them and `rest` follows them. -/
def pass (p : Place) (cs rest : List Char) : Place :=
  ⟨p.offset + bytes cs, cs.getLast?.or p.before, rest⟩

/-- The place at the end of the text. -/
def finish (p : Place) : Place := p.pass p.rest []

def atEnd (p : Place) : Bool := p.rest.isEmpty

/-- The characters of `cs`, which begin at byte `at_`, that begin before byte `stop`. -/
def charsBelow (stop : Nat) : Nat → List Char → List Char
  | _, [] => []
  | here, c :: cs => if here < stop then c :: charsBelow stop (here + c.utf8Size) cs else []

/-- The characters between the place and a later one. -/
def charsTo (p : Place) (q : Place) : List Char := charsBelow q.offset p.offset p.rest

/-- The text between the place and a later one. -/
def textTo (p : Place) (q : Place) : String := String.ofList (p.charsTo q)

/-- The text between two places as a text of its own: its ends are text ends, but its offsets
still count from the start of the whole. -/
def cut (p : Place) (q : Place) : Place := ⟨p.offset, none, p.charsTo q⟩

/-- The first place at or after byte `offset`, searched from `cs` on; none when the text is
shorter. -/
def seekFrom (offset : Nat) : Nat → Option Char → List Char → Option Place
  | here, before, [] => if offset ≤ here then some ⟨here, before, []⟩ else none
  | here, before, c :: cs =>
    if offset ≤ here then some ⟨here, before, c :: cs⟩
    else seekFrom offset (here + c.utf8Size) (some c) cs

def seek (cs : List Char) (offset : Nat) : Option Place := seekFrom offset 0 none cs

end Place

/-- A stretch of text between two places. -/
structure Span where
  start : Place
  stop : Place
deriving Repr, DecidableEq, Inhabited

namespace Span

def isEmpty (s : Span) : Bool := s.start.offset == s.stop.offset

/-- The number of bytes in the span. -/
def size (s : Span) : Nat := s.stop.offset - s.start.offset

def text (s : Span) : String := s.start.textTo s.stop

end Span

end Lexicolor.Text
