/-
The ways in which the rules of one level can begin, and which of them is next. A search that
was made for an earlier place still holds while its match has not been passed, so a scan may
remember it; `remember := false` makes every search anew, and the two agree because a search
depends on nothing but the place it starts from.
-/
import Lexicolor.Grammar
import Lexicolor.Token

namespace Lexicolor.Scan

open Text Regex

/-- What a rule makes of its beginning: a token, unless it has no scope, and where it ends. -/
abbrev Outcome := Option Token × Place

/-- One way for a rule to begin: the rule itself, or one variant of a region. -/
structure Alternative where
  begin_ : Pattern
  /-- The position of the rule among the rules of its level. -/
  rule : Nat
  relevance : Nat
  apply : Span → Outcome

/-- The last search that was made, if any, and what it found. -/
structure Ahead where
  last : Option (Option Match)

namespace Ahead

def none : Ahead := ⟨.none⟩

/-- The result of a search from `p`, remembered if it still holds. -/
def look (remember : Bool) (a : Ahead) (find : Place → Option Match) (p : Place) :
    Option Match × Ahead :=
  let anew := (find p, ⟨some (find p)⟩)
  if !remember then anew
  else
    match a.last with
    | some (some m) => if p.offset ≤ m.start.offset then (some m, a) else anew
    | some .none => (.none, a)
    | .none => anew

end Ahead

/-- An alternative and the match it begins with. -/
structure Candidate where
  alternative : Alternative
  found : Match

namespace Candidate

/-- Whether one candidate is taken rather than another: for an earlier place, an earlier rule, a
higher relevance, a longer match, in this order. -/
def beats (c d : Candidate) : Bool :=
  if c.found.start.offset ≠ d.found.start.offset then c.found.start.offset < d.found.start.offset
  else if c.alternative.rule ≠ d.alternative.rule then c.alternative.rule < d.alternative.rule
  else if c.alternative.relevance ≠ d.alternative.relevance then
    d.alternative.relevance < c.alternative.relevance
  else d.found.span.size < c.found.span.size

/-- The candidate to be taken; of equals the first. -/
def best (cs : List Candidate) : Option Candidate :=
  cs.foldl (fun b c => match b with
    | none => some c
    | some d => if c.beats d then some c else some d) none

end Candidate

/-- The alternatives of a level, each with its last search. -/
abbrev Level := List (Alternative × Ahead)

def Level.ofAlternatives (as : List Alternative) : Level := as.map (·, Ahead.none)

/-- The alternative that begins next, and the level with the searches made. -/
def Level.next (remember : Bool) (level : Level) (p : Place) : Option Candidate × Level :=
  let looked := level.map fun (a, ahead) => (a, ahead.look remember a.begin_.findFrom p)
  (Candidate.best (looked.filterMap fun (a, found, _) => found.map (⟨a, ·⟩)),
    looked.map fun (a, _, ahead) => (a, ahead))

end Lexicolor.Scan
