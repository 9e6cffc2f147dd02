/-
Matching. `ways e t` lists the ways in which `e` matches at the place of `t`, the preferred one
first, each with the place where it ends; of several ways that end at the same place only the
preferred one is kept, because whatever follows cannot tell them apart. Matching at a place
looks at the place only, so what a search finds there does not depend on where it began.

A repetition without an upper bound goes on only after a pass that consumed something, so it
ends; a first pass may be empty.
-/
import Lexicolor.Regex.Expr

namespace Lexicolor.Regex

open Text

/-- How far a match has come, and what its named groups matched last, latest first. -/
structure Trail where
  place : Place
  groups : List (String × Span)
deriving Repr, DecidableEq, Inhabited

namespace Trail

def offset (t : Trail) : Nat := t.place.offset

/-- Whether two ways end at the same place. -/
def endsWith (t u : Trail) : Bool := t.offset == u.offset

end Trail

/-- The first way to each place. -/
def distinct : List Trail → List Trail
  | [] => []
  | t :: ts => t :: (distinct ts).filter (!·.endsWith t)

/-- `found` with `t` as the latest, unless its place was found already. -/
def addNew (t : Trail) (found : List Trail) : List Trail :=
  if found.any (·.endsWith t) then found else t :: found

/-- The places, latest first, where a repetition of `step` can stop that has come to `t` after a
pass that consumed something, added to those found before. A place that was found has been
explored, so it is not entered again. -/
def loop (step : Trail → List Trail) (greedy : Bool) : Nat → Trail → List Trail → List Trail
  | 0, t, found => addNew t found
  | n + 1, t, found =>
    if found.any (·.endsWith t) then found
    else
      let onward := (step t).filter (!·.endsWith t)
      if greedy then t :: onward.foldl (fun acc u => loop step greedy n u acc) found
      else onward.foldl (fun acc u => loop step greedy n u acc) (t :: found)

/-- One or more passes of `step` from `t`, latest first, added to those found before. -/
def atLeastOnce (step : Trail → List Trail) (greedy : Bool) (t : Trail) (found : List Trail) :
    List Trail :=
  (step t).foldl
    (fun acc u => if u.endsWith t then addNew u acc else loop step greedy u.place.rest.length u acc)
    found

/-- Any number of passes of `step` from `t`. -/
def anyTimes (step : Trail → List Trail) (greedy : Bool) (t : Trail) : List Trail :=
  if greedy then (addNew t (atLeastOnce step true t [])).reverse
  else (atLeastOnce step false t [t]).reverse

/-- Exactly `n` passes of `step`. -/
def exactly (step : Trail → List Trail) : Nat → List Trail → List Trail
  | 0, ts => ts
  | n + 1, ts => exactly step n (distinct (ts.flatMap step))

/-- At most `n` passes of `step`. -/
def atMost (step : Trail → List Trail) (greedy : Bool) : Nat → Trail → List Trail
  | 0, t => [t]
  | n + 1, t =>
    let more := (step t).flatMap (atMost step greedy n)
    distinct (if greedy then more ++ [t] else t :: more)

/-- The ways of a repetition, from the ways of what is repeated. -/
def repetition (step : Trail → List Trail) (min : Nat) (max : Option Nat) (greedy : Bool)
    (t : Trail) : List Trail :=
  match max with
  | some m => distinct ((exactly step min [t]).flatMap (atMost step greedy (m - min)))
  | none =>
    match min with
    | 0 => anyTimes step greedy t
    | n + 1 =>
      distinct ((exactly step n [t]).flatMap fun u => (atLeastOnce step greedy u []).reverse)

def ways : Expr → Trail → List Trail
  | .empty, t => [t]
  | .one set, t =>
    match t.place.rest with
    | [] => []
    | c :: cs =>
      if set.contains c then [{ t with place := ⟨t.place.offset + c.utf8Size, some c, cs⟩ }] else []
  | .anchor a, t => if a.holds t.place then [t] else []
  | .seq e f, t => distinct ((ways e t).flatMap (ways f))
  | .alt e f, t => distinct (ways e t ++ ways f t)
  | .rep e min max greedy, t => repetition (ways e) min max greedy t
  | .group none e, t => ways e t
  | .group (some name) e, t =>
    (ways e t).map fun u => { u with groups := (name, ⟨t.place, u.place⟩) :: u.groups }

/-- A match: the text matched and the latest match of each named group, latest first. -/
structure Match where
  span : Span
  groups : List (String × Span)
deriving Repr, DecidableEq, Inhabited

namespace Match

def start (m : Match) : Place := m.span.start

def stop (m : Match) : Place := m.span.stop

def isEmpty (m : Match) : Bool := m.span.isEmpty

/-- What the named group matched, or the whole match when it took no part. -/
def group (m : Match) (name : String) : Span := (m.groups.lookup name).getD m.span

end Match

/-- The preferred match that begins at the place. -/
def Expr.matchAt (e : Expr) (p : Place) : Option Match :=
  (ways e ⟨p, []⟩).head?.map fun t => ⟨⟨p, t.place⟩, t.groups⟩

/-- The preferred match at the first place, from a place on, where the preferred match is
accepted. -/
def Expr.searchFrom (e : Expr) (accept : Match → Bool) :
    Nat → Option Char → List Char → Option Match
  | offset, before, [] => (e.matchAt ⟨offset, before, []⟩).filter accept
  | offset, before, c :: cs =>
    match (e.matchAt ⟨offset, before, c :: cs⟩).filter accept with
    | some m => some m
    | none => searchFrom e accept (offset + c.utf8Size) (some c) cs

def Expr.search (e : Expr) (accept : Match → Bool) (p : Place) : Option Match :=
  e.searchFrom accept p.offset p.before p.rest

end Lexicolor.Regex
