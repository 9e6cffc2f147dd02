/-
The scan over byte offsets. A place cannot leave its text, so what a scan says that goes from place to
place says nothing about slices and loops. Here the same scan goes by byte offsets, with every stretch
of text cut out of the source between two of them. It is a fault, which is `none`, to cut where there is
no boundary between characters, outside of the source or backwards (`slice?_isSome_iff`), and it is a
fault of a loop to take a turn that leaves no less to do than there was before.

Searches are made afresh; remembering them makes no difference to what they find.
-/
import Lexicolor.Scan.Body
import Lexicolor.Proofs.Places

namespace Lexicolor.Offsets

open Text Regex Scan

/-! ## Stretches of the source -/

/-- The offset stands between two characters of the source, or at one of its ends. -/
def IsBoundary (source : String) (n : Nat) : Prop := ∃ before after, source = before ++ after ∧ before.utf8ByteSize = n

/-- The place at an offset. -/
def place? (source : String) (n : Nat) : Option Place := (Place.seek source.toList n).filter (·.offset == n)

/-- The text between two offsets. -/
def slice? (source : String) (a b : Nat) : Option String := do
  let p ← place? source a
  let q ← place? source b
  if a ≤ b then some (p.textTo q) else none

/-- The place is one of the source. -/
def On (source : String) (p : Place) : Prop := (Place.start source.toList).Reaches p

theorem place?_eq_some_iff {source : String} {n : Nat} {p : Place} :
    place? source n = some p ↔ On source p ∧ p.offset = n := by
  rw [place?, Option.filter_eq_some_iff]
  constructor
  · rintro ⟨h, hn⟩
    exact ⟨Place.reaches_of_seekFrom h, by simpa using hn⟩
  · rintro ⟨h, rfl⟩
    exact ⟨h.seekFrom_eq, by simp⟩

/-- The boundaries are the offsets of the places. -/
theorem isBoundary_iff {source : String} {n : Nat} : IsBoundary source n ↔ ∃ p, On source p ∧ p.offset = n := by
  constructor
  · rintro ⟨before, after, rfl, rfl⟩
    refine ⟨(Place.start (before ++ after).toList).pass before.toList after.toList, .pass ?_, ?_⟩
    · simp [Place.start]
    · simp [Place.pass_eq, Place.start, utf8ByteSize_eq_bytes]
  · rintro ⟨p, hp, rfl⟩
    refine ⟨.ofList ((Place.start source.toList).charsTo p), .ofList p.rest, ?_, ?_⟩
    · rw [← String.ofList_append, ← hp.rest_eq]
      exact String.ofList_toList.symm
    · rw [utf8ByteSize_ofList, hp.offset_eq]
      simp [Place.start]

/-- **When a text can be cut out**: between boundaries that are in order. -/
theorem slice?_isSome_iff {source : String} {a b : Nat} :
    (slice? source a b).isSome ↔ IsBoundary source a ∧ IsBoundary source b ∧ a ≤ b := by
  simp only [slice?, Option.isSome_iff_exists, Option.bind_eq_bind, Option.bind_eq_some_iff, place?_eq_some_iff,
    Option.ite_none_right_eq_some, isBoundary_iff]
  constructor
  · rintro ⟨text, p, hp, q, hq, hle, -⟩
    exact ⟨⟨p, hp⟩, ⟨q, hq⟩, hle⟩
  · rintro ⟨⟨p, hp⟩, ⟨q, hq⟩, hle⟩
    exact ⟨p.textTo q, p, hp, q, hq, hle, rfl⟩

/-- The token between two offsets. -/
def token? (source : String) (scope : Scope) (a b : Nat) (children : List Token) : Option Token := do
  let text ← slice? source a b
  return ⟨scope, a, b, text, children⟩

/-! ## Searching -/

/-- The offset after the next character; at the end, one that is past the end. -/
def nextBoundary? (source : String) (n : Nat) : Option Nat := do
  let p ← place? source n
  return match p.next? with
    | some q => q.offset
    | none => source.utf8ByteSize + 1

/-- The first match from an offset on that is not empty: after an empty match the search goes on behind
the next character. -/
def find? (source : String) (pattern : Pattern) (from_ : Nat) : Option (Option Match) :=
  if source.utf8ByteSize < from_ then some none
  else
    match place? source from_ with
    | none => none
    | some p =>
      match pattern.expr.search (fun _ => true) p with
      | none => some none
      | some m =>
        if m.isEmpty then
          match nextBoundary? source m.start.offset with
          | none => none
          | some next => if from_ < next then find? source pattern next else none
        else some (some m)
termination_by source.utf8ByteSize + 1 - from_

/-! ## Words -/

/-- Where the words of a gap begin and end. -/
def words? (g : Grammar) (source : String) (a b : Nat) : Option (List (Nat × Nat)) :=
  if a < b then do
    let text ← slice? source a b
    let found := (g.identifier.allMatches ⟨a, none, text.toList⟩).filter (!·.isEmpty)
    return found.map fun m => (m.start.offset, m.stop.offset)
  else some []

/-- The token of the plain text between two offsets, if there is any. -/
def plain? (source : String) (a b : Nat) : Option (List Token) :=
  if a < b then (token? source .plain a b []).map ([·]) else some []

/-- Tokens for words, and for what lies before and between them, from an offset to another. -/
def fill? (g : Grammar) (source : String) (stop : Nat) : Nat → List (Nat × Nat) → Option (List Token)
  | pos, [] => plain? source pos stop
  | pos, (a, b) :: ws => do
    let before ← plain? source pos a
    let text ← slice? source a b
    let word ← token? source (g.wordScope text) a b []
    let rest ← fill? g source stop b ws
    return before ++ word :: rest

def gapTokens? (g : Grammar) (source : String) (a b : Nat) : Option (List Token) := do
  let ws ← words? g source a b
  fill? g source b a ws

/-- Tokens for the words that a table lists. -/
def listed? (g : Grammar) (source : String) (table : KeywordTable) : List (Nat × Nat) → Option (List Token)
  | [] => some []
  | (a, b) :: ws => do
    let text ← slice? source a b
    let rest ← listed? g source table ws
    match table.lookup text g.caseInsensitive with
    | some c => return (← token? source c.scope a b []) :: rest
    | none => return rest

def listedWords? (g : Grammar) (source : String) (table : KeywordTable) (a b : Nat) : Option (List Token) := do
  let ws ← words? g source a b
  listed? g source table ws

/-- The end of the word that begins before an offset and runs past it, among the words of all that
follows another offset. -/
def wordAcross? (g : Grammar) (source : String) (from_ at_ : Nat) : Option (Option Nat) := do
  let text ← slice? source from_ source.utf8ByteSize
  let words := g.identifier.allMatches ⟨from_, none, text.toList⟩
  let early := words.takeWhile fun m => m.start.offset < at_
  return (early.find? fun m => at_ < m.stop.offset).map (·.stop.offset)

/-! ## Choosing a rule -/

/-- One way for a rule to begin, and what the rule makes of a beginning between two offsets. -/
structure Offer where
  begin_ : Pattern
  rule : Nat
  relevance : Nat
  make : Nat → Nat → Option (Option Token × Nat)

/-- An offer and where it begins. -/
structure Found where
  offer : Offer
  start : Nat
  stop : Nat

namespace Found

/-- Whether one is taken rather than another: for an earlier start, an earlier rule, a higher
relevance, a longer match, in this order. -/
def beats (c d : Found) : Bool :=
  if c.start ≠ d.start then c.start < d.start
  else if c.offer.rule ≠ d.offer.rule then c.offer.rule < d.offer.rule
  else if c.offer.relevance ≠ d.offer.relevance then d.offer.relevance < c.offer.relevance
  else d.stop - d.start < c.stop - c.start

def keep (b : Option Found) (c : Found) : Option Found :=
  match b with
  | none => some c
  | some d => if c.beats d then some c else some d

end Found

/-- What each offer finds from an offset on. -/
def finds? (source : String) (pos : Nat) : List Offer → Option (List Found)
  | [] => some []
  | o :: os => do
    let m ← find? source o.begin_ pos
    let rest ← finds? source pos os
    return (m.map fun m => ⟨o, m.start.offset, m.stop.offset⟩).toList ++ rest

/-- The offer that begins next; of equals the first. -/
def next? (source : String) (offers : List Offer) (pos : Nat) : Option (Option Found) := do
  let found ← finds? source pos offers
  return found.foldl Found.keep none

/-! ## Bodies -/

/-- What comes next in a body. -/
inductive Next where
  | rule (found : Found)
  | title (rule : TitleRule) (found : Match)
  | finish (found : Match)
  | nothing

/-- Whether an offset is no later than the start of a match, if there is one. -/
def leads (start : Nat) (other : Option Match) : Bool :=
  match other with
  | none => true
  | some m => start ≤ m.start.offset

/-- The first of them; of those at one place a rule comes first, then the title, then the end. -/
def Next.first (rule : Option Found) (title : Option (TitleRule × Match)) (finish : Option Match) : Next :=
  match rule with
  | some f => if leads f.start (title.map (·.2)) && leads f.start finish then .rule f else rest
  | none => rest
where
  rest : Next :=
    match title with
    | some (t, m) => if leads m.start.offset finish then .title t m else close
    | none => close
  close : Next :=
    match finish with
    | some m => .finish m
    | none => .nothing

/-- The listed words of a gap inside a body. -/
def bodyWords? (g : Grammar) (source : String) (body : Body) (a b : Nat) : Option (List Token) :=
  match body.keywords with
  | none => some []
  | some table => listedWords? g source table a b

/-- The title token and where the scan goes on, which is where the end of the parent begins if the
title ends with its parent and would run into it. -/
def title? (source : String) (rule : TitleRule) (found : Match) (finish : Option Match) : Option (List Token × Nat) :=
  let name := found.group "title"
  let (last, stop) : Nat × Nat :=
    match finish.filter fun e => rule.endsWithParent && e.start.offset < found.stop.offset with
    | some e => (min name.stop.offset e.start.offset, e.start.offset)
    | none => (name.stop.offset, found.stop.offset)
  if name.start.offset < last then do return ([← token? source .title name.start.offset last []], stop)
  else some ([], stop)

/-- What the title finds, while it is to be found. -/
def findTitle? (source : String) (pos : Nat) (title : Option TitleRule) : Option (Option (TitleRule × Match)) :=
  match title with
  | none => some none
  | some t => (find? source t.pattern pos).map fun found => found.map (t, ·)

/-- One turn of a body: its tokens, and where the body ends or where it goes on, with the title if it
is still to be found. -/
inductive Turn where
  | last (tokens : List Token) (stop : Nat)
  | on (tokens : List Token) (pos : Nat) (title : Option TitleRule)

def turn? (g : Grammar) (source : String) (body : Body) (offers : List Offer) (pos : Nat)
    (title : Option TitleRule) : Option Turn := do
  let finish ← find? source body.finish pos
  let rule ← next? source offers pos
  let name ← findTitle? source pos title
  match Next.first rule name finish with
  | .nothing => return .last (← bodyWords? g source body pos source.utf8ByteSize) source.utf8ByteSize
  | .finish m => return .last (← bodyWords? g source body pos m.start.offset) m.stop.offset
  | .rule f => do
    let words ← bodyWords? g source body pos f.start
    let (token, stop) ← f.offer.make f.start f.stop
    return .on (words ++ token.toList) stop title
  | .title t m => do
    let words ← bodyWords? g source body pos m.start.offset
    let (made, stop) ← title? source t m finish
    return .on (words ++ made) stop none

/-- What is left to do in a body: the bytes that follow, and one more while the title is to be found. -/
def left (source : String) (pos : Nat) (title : Option TitleRule) : Nat :=
  source.utf8ByteSize - pos + title.toList.length

/-- The tokens inside a body from an offset on, and where it ends. -/
def body? (g : Grammar) (source : String) (body : Body) (offers : List Offer) (pos : Nat)
    (title : Option TitleRule) : Option (List Token × Nat) :=
  match turn? g source body offers pos title with
  | none => none
  | some (.last ts stop) => some (ts, stop)
  | some (.on ts next title') =>
    if left source next title' < left source pos title then
      (body? g source body offers next title').map fun (us, stop) => (ts ++ us, stop)
    else none
termination_by left source pos title

/-! ## Rules -/

def lexeme? (source : String) (scope : Option Scope) (a b : Nat) : Option (Option Token × Nat) :=
  match scope with
  | none => some (none, b)
  | some s => do return (some (← token? source s a b []), b)

def region? (g : Grammar) (source : String) (scope : Scope) (inside : List Offer) (v : Variant) (a b : Nat) :
    Option (Option Token × Nat) := do
  let (children, stop) ← body? g source ⟨v.finish, none⟩ inside b none
  return (some (← token? source scope a stop children), stop)

def header? (g : Grammar) (source : String) (rule : HeaderRule) (a b : Nat) : Option (Option Token × Nat) := do
  let words ← listedWords? g source rule.keywords a b
  let (children, stop) ← body? g source ⟨rule.finish, some rule.keywords⟩ [] b (some rule.title)
  return (some (← token? source rule.scope a stop (words ++ children)), stop)

mutual

/-- The ways in which a rule can begin, the rule having a position among its level. -/
def offersOf (g : Grammar) (source : String) (position : Nat) : Rule → List Offer
  | .lexeme scope pattern => [⟨pattern, position, 0, lexeme? source scope⟩]
  | .region scope variants contains =>
    let inside := offersFrom g source 0 contains
    variants.map fun v => ⟨v.begin_, position, v.relevance, region? g source scope inside v⟩
  | .header rule => [⟨rule.begin_, position, 0, header? g source rule⟩]

def offersFrom (g : Grammar) (source : String) (position : Nat) : List Rule → List Offer
  | [] => []
  | r :: rs => offersOf g source position r ++ offersFrom g source (position + 1) rs

end

/-! ## The top level -/

/-- One step: the text up to the next rule and the rule itself, or a word that runs into the rule. -/
def step? (g : Grammar) (source : String) (offers : List Offer) (pos : Nat) : Option (List Token × Nat) := do
  match ← next? source offers pos with
  | none => return (← gapTokens? g source pos source.utf8ByteSize, source.utf8ByteSize)
  | some f =>
    match ← wordAcross? g source pos f.start with
    | some stop => return (← gapTokens? g source pos stop, stop)
    | none => do
      let gap ← gapTokens? g source pos f.start
      let (token, stop) ← f.offer.make f.start f.stop
      match token with
      | some t => return (gap ++ [t], stop)
      | none => return (gap ++ [← token? source .plain f.start stop []], stop)

/-- The tokens of all steps from an offset on. -/
def tokens? (g : Grammar) (source : String) (offers : List Offer) (pos : Nat) : Option (List Token) :=
  if pos < source.utf8ByteSize then
    match step? g source offers pos with
    | none => none
    | some (ts, stop) => if pos < stop then (tokens? g source offers stop).map (ts ++ ·) else none
  else some []
termination_by source.utf8ByteSize - pos

def tokenize? (g : Grammar) (source : String) : Option (List Token) :=
  tokens? g source (offersFrom g source 0 g.rules) 0

end Lexicolor.Offsets
