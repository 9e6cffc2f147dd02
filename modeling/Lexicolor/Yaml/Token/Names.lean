/-
Reading the names in a YAML text: anchors, tags and directives. Tags are sequences of octets,
since escapes can name any.
-/
import Lexicolor.Yaml.Cursor
import Lexicolor.Decimal.Reader

namespace Lexicolor.Yaml

/-- A tag or a part of one. -/
abbrev Octets := List UInt8

def octetsOf (s : String) : Octets := s.toUTF8.toList

/-- A tag as it is written: a handle that is declared elsewhere, and what follows it. -/
structure TagName where
  handle : String
  suffix : Octets
deriving Repr, DecidableEq, Inhabited

namespace Names

/-- The name of an anchor, from its sign on. -/
def anchor (c : Cursor) : Option (String × Cursor) :=
  let (name, c) := (c.skip 1).takeWhile isWordChar
  let ends := endsWord c.rest || c.rest.head?.any "?:,]\x7d%@\x60".toList.contains
  if name.isEmpty || !ends then none else some (String.ofList name, c)

/-- Whether a character can stand in a tag, or in one between angle brackets. -/
def isTagChar (verbatim : Bool) (c : Char) : Bool :=
  isWordChar c || ";/?:@&=+$.%!~*'()".toList.contains c || (verbatim && ",[]".toList.contains c)

/-- The octet that an escape at this place names. -/
def escapedOctet (cs : List Char) : Option UInt8 :=
  match cs with
  | '%' :: a :: b :: _ => do return ((← Decimal.digitValue? a) * 16 + (← Decimal.digitValue? b)).toUInt8
  | _ => none

/-- How many octets a character takes that begins with the given one. -/
def widthOf (lead : UInt8) : Nat :=
  if lead < 0x80 then 1
  else if lead &&& 0xE0 == 0xC0 then 2
  else if lead &&& 0xF0 == 0xE0 then 3
  else if lead &&& 0xF8 == 0xF0 then 4
  else 0

/-- So many more escapes, none of which begins a character. -/
def continuation : Nat → Cursor → Option (Octets × Cursor)
  | 0, c => some ([], c)
  | n + 1, c => do
    let octet ← escapedOctet c.rest
    if octet &&& 0xC0 != 0x80 then none
    let (octets, c) ← continuation n (c.skip 3)
    return (octet :: octets, c)

/-- The escapes that name one character. -/
def escaped (c : Cursor) : Option (Octets × Cursor) := do
  let lead ← escapedOctet c.rest
  let width := widthOf lead
  if width = 0 then none
  let (octets, c) ← continuation (width - 1) (c.skip 3)
  return (lead :: octets, c)

/-- The characters of a tag, escapes replaced. -/
def tagChars (verbatim : Bool) : Nat → Cursor → Option (Octets × Cursor)
  | 0, _ => none
  | n + 1, c =>
    match c.rest with
    | [] => some ([], c)
    | d :: _ =>
      if !isTagChar verbatim d then some ([], c)
      else do
        let (octets, c) ← if d == '%' then escaped c else some ([d.toNat.toUInt8], c.skip 1)
        let (more, c) ← tagChars verbatim n c
        return (octets ++ more, c)

/-- At least one character of a tag. -/
def tagText (verbatim : Bool) (c : Cursor) : Option (Octets × Cursor) := do
  let (octets, c) ← tagChars verbatim (c.rest.length + 1) c
  if octets.isEmpty then none else some (octets, c)

/-- A handle: an exclamation mark, word characters, and perhaps a second mark. -/
def handle (c : Cursor) : Option (List Char × Cursor) :=
  if c.rest.head? != some '!' then none
  else
    let (name, c) := (c.skip 1).takeWhile isWordChar
    if c.rest.head? == some '!' then some ('!' :: name ++ ['!'], c.skip 1) else some ('!' :: name, c)

/-- A tag, from its exclamation mark on. -/
def tag (inFlow : Bool) (c : Cursor) : Option (TagName × Cursor) := do
  let (name, c) ←
    if (c.skip 1).rest.head? == some '<' then do
      let (suffix, c) ← tagText true (c.skip 2)
      if c.rest.head? != some '>' then none
      some (TagName.mk "" suffix, c.skip 1)
    else do
      let (mark, c) ← handle c
      if 1 < mark.length && mark.getLast? == some '!' then do
        let (suffix, c) ← tagText false c
        some (TagName.mk (String.ofList mark) suffix, c)
      else do
        let (octets, c) ← tagChars false (c.rest.length + 1) c
        let suffix := octetsOf (String.ofList mark.tail) ++ octets
        some (if suffix.isEmpty then TagName.mk "" (octetsOf "!") else TagName.mk "!" suffix, c)
  if endsWord c.rest || (inFlow && c.rest.head? == some ',') then some (name, c) else none

/-- What a line with a percent sign says. -/
inductive Directive where
  | version (major minor : Nat)
  | tag (handle : String) (meaning : Octets)
deriving Repr, DecidableEq, Inhabited

/-- A part of a version number, of at most nine digits. -/
def versionPart (c : Cursor) : Option (Nat × Cursor) :=
  let (digits, c) := c.takeWhile Decimal.isDigit
  if 9 < digits.length then none else (Decimal.natIn? 10 digits).map (·, c)

/-- A directive with its line, from its percent sign on. -/
def directive (c : Cursor) : Option (Directive × Cursor) := do
  let (name, c) := (c.skip 1).takeWhile isWordChar
  if !endsWord c.rest then none
  let c := c.skipBlanks
  if name == "YAML".toList then
    let (major, c) ← versionPart c
    if c.rest.head? != some '.' then none
    let (minor, c) ← versionPart (c.skip 1)
    return (.version major minor, ← c.restOfLine)
  else if name == "TAG".toList then
    let (mark, c) ← handle c
    if mark.getLast? != some '!' then none
    if !startsBlank c.rest then none
    let (meaning, c) ← tagText true c.skipBlanks
    if !endsWord c.rest then none
    return (.tag (String.ofList mark) meaning, ← c.restOfLine)
  else none

end Names

end Lexicolor.Yaml
