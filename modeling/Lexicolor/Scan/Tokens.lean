/-
Scanning a text. A scan stands at a place and holds the tokens that it has made but not yet
given; asked for the next one it takes a step only when none is held. Every step passes over
some text and makes tokens that cover what it passes over exactly.
-/
import Lexicolor.Scan.Body

namespace Lexicolor.Scan

open Text Regex

structure Tokens where
  grammar : Grammar
  /-- Whether searches are remembered from step to step. -/
  remember : Bool
  place : Place
  pending : List Token
  level : Level

namespace Tokens

/-- A scan at the start of a text. -/
def start (g : Grammar) (remember : Bool) (source : String) : Tokens where
  grammar := g
  remember := remember
  place := Place.start source.toList
  pending := []
  level := Level.ofAlternatives (alternativesFrom g remember 0 g.rules)

/-- The number of bytes passed over. -/
def position (t : Tokens) : Nat := t.place.offset

/-- One step: the text up to the next rule and the rule itself. A word that begins before the
rule and runs into it is taken whole, and the rule is looked for again after it. -/
def step (t : Tokens) : Tokens :=
  let g := t.grammar
  let p := t.place
  let (next, level) := t.level.next t.remember p
  match next with
  | none => { t with place := p.finish, pending := t.pending ++ gapTokens g p p.finish, level }
  | some c =>
    match wordAcross g p c.found.start with
    | some stop => { t with place := stop, pending := t.pending ++ gapTokens g p stop, level }
    | none =>
      let (token, stop) := c.alternative.apply c.found.span
      let token := token.getD (.ofSpan .plain ⟨c.found.start, stop⟩ [])
      { t with
        place := stop
        pending := t.pending ++ gapTokens g p c.found.start ++ [token]
        level }

/-- The next token, if there is one, and the scan after it. -/
def next (t : Tokens) : Option Token × Tokens :=
  match t.pending with
  | token :: rest => (some token, { t with pending := rest })
  | [] =>
    if t.place.atEnd then (none, t)
    else
      let u := t.step
      match u.pending with
      | token :: rest => (some token, { u with pending := rest })
      | [] => (none, u)

/-- At most `n` tokens. -/
def take : Nat → Tokens → List Token
  | 0, _ => []
  | n + 1, t =>
    match t.next with
    | (none, _) => []
    | (some token, u) => token :: u.take n

end Tokens

/-- The tokens of a text: no token is empty, so there are no more of them than characters. -/
def tokenize (g : Grammar) (source : String) : List Token :=
  (Tokens.start g true source).take source.length

end Lexicolor.Scan
