/-
Patterns: an expression together with the text that writes it. Two patterns are equal when
their texts are. The searches of a pattern never accept an empty match, so whatever they find
moves a scan forward.
-/
import Lexicolor.Regex.Ways
import Lexicolor.Regex.Reader

namespace Lexicolor

open Text Regex

structure Pattern where
  source : String
  expr : Expr
deriving Repr, Inhabited

namespace Pattern

instance : BEq Pattern := ⟨fun p q => p.source == q.source⟩

def read (source : String) (reader : Reader := Expr.read) : Except Fault Pattern :=
  (reader source).map fun e => ⟨source, e⟩

/-- The match at the first place, from `p` on, where the preferred match is not empty. -/
def findFrom (pattern : Pattern) (p : Place) : Option Match :=
  pattern.expr.search (!·.isEmpty) p

/-- What `findFrom` finds, and what the named group matched in it: the whole match when the
group took no part. -/
def findGroupFrom (pattern : Pattern) (p : Place) (name : String) : Option (Span × Span) :=
  (pattern.findFrom p).map fun m => (m.span, m.group name)

/-- Whether the first match, empty or not, is the whole text. -/
def matchesFully (pattern : Pattern) (text : String) : Bool :=
  let start := Place.start text.toList
  match pattern.expr.search (fun _ => true) start with
  | some m => m.start.offset == 0 && m.stop.atEnd
  | none => false

/-- The successive matches from `p` on. An empty match is passed over where the match before it
ended, and `fresh` says that no match did. -/
def matchesFrom (pattern : Pattern) : Nat → Bool → Place → List Match
  | 0, _, _ => []
  | n + 1, fresh, p =>
    match pattern.expr.search (fun m => fresh || !m.isEmpty || m.start.offset != p.offset) p with
    | none => []
    | some m => m :: pattern.matchesFrom n false m.stop

/-- The successive matches in what follows a place. All but the first leave less text than the
one before. -/
def allMatches (pattern : Pattern) (p : Place) : List Match :=
  pattern.matchesFrom (p.rest.length + 2) true p

/-- The characters that have a meaning in patterns, each after a backslash. -/
def escape (text : String) : String :=
  String.ofList (text.toList.flatMap fun c => if isMeta c then ['\\', c] else [c])

/-- The pattern as it is shown in messages. -/
def shown (pattern : Pattern) : String := "/" ++ pattern.source ++ "/"

end Pattern

end Lexicolor
