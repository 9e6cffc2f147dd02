/-
Expressions: what a pattern says once it is read, and when an anchor holds at a place.
-/
import Lexicolor.Regex.CharSet
import Lexicolor.Text.Place

namespace Lexicolor.Regex

open Text

/-- Conditions on a place that consume nothing. -/
inductive Anchor where
  | textStart
  | textEnd
  /-- After a line feed, or at the start of the text. -/
  | lineStart
  /-- Before a line feed, or at the end of the text. -/
  | lineEnd
  /-- As `lineStart`, where a carriage return also ends a line but is not parted from its feed. -/
  | returnStart
  | returnEnd
  /-- A word character on exactly one side. -/
  | wordEdge (ascii : Bool)
  | noWordEdge (ascii : Bool)
  | wordStart (ascii : Bool)
  | wordEnd (ascii : Bool)
  | wordStartHalf (ascii : Bool)
  | wordEndHalf (ascii : Bool)
deriving Repr, DecidableEq, Inhabited

namespace Anchor

def isWord (ascii : Bool) (c : Option Char) : Bool :=
  match c with
  | none => false
  | some c => if ascii then CharSet.asciiWord.contains c else isWordChar c

def holds (a : Anchor) (p : Place) : Bool :=
  let after := p.rest.head?
  match a with
  | textStart => p.before == none
  | textEnd => after == none
  | lineStart => p.before == none || p.before == some '\n'
  | lineEnd => after == none || after == some '\n'
  | returnStart =>
    p.before == none || p.before == some '\n' || (p.before == some '\r' && after != some '\n')
  | returnEnd =>
    after == none || after == some '\r' || (after == some '\n' && p.before != some '\r')
  | wordEdge b => isWord b p.before != isWord b after
  | noWordEdge b => isWord b p.before == isWord b after
  | wordStart b => !isWord b p.before && isWord b after
  | wordEnd b => isWord b p.before && !isWord b after
  | wordStartHalf b => !isWord b p.before
  | wordEndHalf b => !isWord b after

end Anchor

inductive Expr where
  /-- Matches everywhere and consumes nothing. -/
  | empty
  /-- One character of the set. -/
  | one (set : CharSet)
  | anchor (a : Anchor)
  | seq (e f : Expr)
  /-- Either of the two, the first preferred. -/
  | alt (e f : Expr)
  /-- At least `min` and at most `max` times in a row; a greedy repetition prefers more. -/
  | rep (e : Expr) (min : Nat) (max : Option Nat) (greedy : Bool)
  /-- A group, which records what it matched under its name if it has one. -/
  | group (name : Option String) (e : Expr)
deriving Repr, DecidableEq, Inhabited

/-- The expressions one after the other, grouped from the left. -/
def Expr.sequence : List Expr → Expr
  | [] => .empty
  | e :: es => es.foldl .seq e

end Lexicolor.Regex
