/-
The inside of regions and headers. A body runs to its end pattern; at the same place a nested
rule is tried before the title, and the title before the end. Without an end it runs to the
end of the text.

Every turn of the loop moves the place on, or switches the title off and leaves the place where
it is; so a body of `n` characters takes at most `n + 2` turns.
-/
import Lexicolor.Scan.Alternatives
import Lexicolor.Scan.Words

namespace Lexicolor.Scan

open Text Regex

/-- What ends a body and what is found in it. -/
structure Body where
  finish : Pattern
  keywords : Option KeywordTable

/-- How far a body has been scanned. -/
structure Progress where
  place : Place
  level : Level
  /-- The title, until it has been found. -/
  title : Option TitleRule
  titleAhead : Ahead
  finishAhead : Ahead

/-- What comes next in a body. -/
inductive Event where
  | rule (candidate : Candidate)
  | title (rule : TitleRule) (found : Match)
  | finish (found : Match)
  | nothing

/-- Whether a match begins no later than another, if there is another. -/
def leads (m : Match) (other : Option Match) : Bool :=
  match other with
  | none => true
  | some n => m.start.offset ≤ n.start.offset

def Event.first (rule : Option Candidate) (title : Option (TitleRule × Match))
    (finish : Option Match) : Event :=
  match rule with
  | some c =>
    if leads c.found (title.map (·.2)) && leads c.found finish then .rule c else rest
  | none => rest
where
  rest : Event :=
    match title with
    | some (t, m) => if leads m finish then .title t m else close
    | none => close
  close : Event :=
    match finish with
    | some m => .finish m
    | none => .nothing

/-- The listed words of a gap inside a body. -/
def bodyWords (g : Grammar) (body : Body) (from_ to_ : Place) : List Token :=
  match body.keywords with
  | none => []
  | some table => listedWords g table from_ to_

/-- The earlier of two places. -/
def earlier (p q : Place) : Place := if q.offset < p.offset then q else p

/-- The title token, and where the scan goes on: a title that ends with its parent stops where
the end of the parent begins. -/
def titleToken (rule : TitleRule) (found : Match) (finish : Option Match) : List Token × Place :=
  let name := found.group "title"
  let (name, stop) : Span × Place :=
    match finish.filter fun e => rule.endsWithParent && e.start.offset < found.stop.offset with
    | some e => (⟨name.start, earlier name.stop e.start⟩, e.start)
    | none => (name, found.stop)
  (if name.start.offset < name.stop.offset then [.ofSpan .title name []] else [], stop)

/-- The tokens inside a body from a place on, and where the body ends. -/
def scanBody (g : Grammar) (remember : Bool) (body : Body) : Nat → Progress → List Token × Place
  | 0, s => (bodyWords g body s.place s.place.finish, s.place.finish)
  | n + 1, s =>
    let p := s.place
    let (finish, finishAhead) := s.finishAhead.look remember body.finish.findFrom p
    let (rule, level) := s.level.next remember p
    let (title, titleAhead) : Option (TitleRule × Match) × Ahead :=
      match s.title with
      | none => (none, s.titleAhead)
      | some t =>
        let (found, ahead) := s.titleAhead.look remember t.pattern.findFrom p
        (found.map (t, ·), ahead)
    let s := { s with level, titleAhead, finishAhead }
    match Event.first rule title finish with
    | .nothing => (bodyWords g body p p.finish, p.finish)
    | .finish m => (bodyWords g body p m.start, m.stop)
    | .rule c =>
      let (token, stop) := c.alternative.apply c.found.span
      let (inner, last) := scanBody g remember body n { s with place := stop }
      (bodyWords g body p c.found.start ++ token.toList ++ inner, last)
    | .title t m =>
      let (token, stop) := titleToken t m finish
      let (inner, last) := scanBody g remember body n { s with place := stop, title := none }
      (bodyWords g body p m.start ++ token ++ inner, last)

/-- A body from its start. -/
def scanBodyFrom (g : Grammar) (remember : Bool) (body : Body) (level : List Alternative)
    (title : Option TitleRule) (p : Place) : List Token × Place :=
  scanBody g remember body (p.rest.length + 2)
    ⟨p, Level.ofAlternatives level, title, Ahead.none, Ahead.none⟩

/-- What a region makes of the beginning of one of its variants. -/
def applyRegion (g : Grammar) (remember : Bool) (scope : Scope) (inside : List Alternative)
    (v : Variant) (start : Span) : Outcome :=
  let (children, stop) := scanBodyFrom g remember ⟨v.finish, none⟩ inside none start.stop
  (some (.ofSpan scope ⟨start.start, stop⟩ children), stop)

/-- What a header makes of its beginning: the listed words of the beginning itself come first
among its tokens. -/
def applyHeader (g : Grammar) (remember : Bool) (rule : HeaderRule) (start : Span) : Outcome :=
  let (children, stop) :=
    scanBodyFrom g remember ⟨rule.finish, some rule.keywords⟩ [] (some rule.title) start.stop
  (some (.ofSpan rule.scope ⟨start.start, stop⟩
    (listedWords g rule.keywords start.start start.stop ++ children)), stop)

mutual

/-- The ways in which a rule can begin, the rule having a position among its level. -/
def alternativesOf (g : Grammar) (remember : Bool) (position : Nat) : Rule → List Alternative
  | .lexeme scope pattern =>
    [⟨pattern, position, 0, fun start => (scope.map fun s => .ofSpan s start [], start.stop)⟩]
  | .region scope variants contains =>
    let inside := alternativesFrom g remember 0 contains
    variants.map fun v => ⟨v.begin_, position, v.relevance, applyRegion g remember scope inside v⟩
  | .header rule => [⟨rule.begin_, position, 0, applyHeader g remember rule⟩]

/-- The ways in which rules can begin, the first of them having a position among its level. -/
def alternativesFrom (g : Grammar) (remember : Bool) (position : Nat) : List Rule → List Alternative
  | [] => []
  | r :: rs =>
    alternativesOf g remember position r ++ alternativesFrom g remember (position + 1) rs

end

end Lexicolor.Scan
