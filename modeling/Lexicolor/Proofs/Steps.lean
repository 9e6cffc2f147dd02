/-
Steps of a scan. What a step makes and where it ends is `passage`, which searches afresh and
sees the place alone (`Tokens.step_eq`); a step from a place that is not the end moves on
(`passage_passes`). A scan that remembers its searches and one that does not stay alike,
call by call (`Tokens.after_alike`), so remembering changes nothing: asked for token after token, both give
the same and stand at the same place.
-/
import Lexicolor.Scan.Tokens
import Lexicolor.Proofs.BodyRuns
import Lexicolor.Proofs.Words

namespace Lexicolor.Scan

open Text Regex

variable {g : Grammar} {as : List Alternative} {p : Place}

/-- One step from a place, by searches made for the place itself: the tokens and where it ends. -/
def passage (g : Grammar) (as : List Alternative) (p : Place) : List Token × Place :=
  match due as p with
  | none => (gapTokens g p p.finish, p.finish)
  | some c =>
    match wordAcross g p c.found.start with
    | some stop => (gapTokens g p stop, stop)
    | none =>
      let (token, stop) := c.alternative.apply c.found.span
      (gapTokens g p c.found.start ++ [token.getD (.ofSpan .plain ⟨c.found.start, stop⟩ [])], stop)

/-- The three kinds of steps: to the end of the text, over a word that runs into a rule, and
over a gap and the rule after it. -/
theorem passage_cases (g : Grammar) (as : List Alternative) (p : Place) :
    (due as p = none ∧ passage g as p = (gapTokens g p p.finish, p.finish)) ∨
    (∃ c stop, due as p = some c ∧ wordAcross g p c.found.start = some stop ∧
      passage g as p = (gapTokens g p stop, stop)) ∨
    (∃ c, due as p = some c ∧ wordAcross g p c.found.start = none ∧
      passage g as p = (gapTokens g p c.found.start ++ [(c.alternative.apply c.found.span).1.getD
        (.ofSpan .plain ⟨c.found.start, (c.alternative.apply c.found.span).2⟩ [])],
        (c.alternative.apply c.found.span).2)) := by
  unfold passage
  cases hd : due as p with
  | none => exact .inl ⟨rfl, rfl⟩
  | some c =>
    cases hw : wordAcross g p c.found.start with
    | none => exact .inr (.inr ⟨c, rfl, hw, by simp only [hw]⟩)
    | some stop => exact .inr (.inl ⟨c, stop, rfl, hw, by simp only [hw]⟩)

/-- Where a rule begins, its token is all that a step makes. -/
theorem passage_here {c : Candidate} {t : Token} (hd : due as p = some c) (hc : c.found.start = p)
    (ht : (c.alternative.apply c.found.span).1 = some t) :
    passage g as p = ([t], (c.alternative.apply c.found.span).2) := by
  rw [passage, hd]
  simp only [hc, wordAcross_self, gapTokens_self, ht, Option.getD_some, List.nil_append]

/-- **A step moves on**, unless it stands at the end of the text. -/
theorem passage_passes (has : ∀ a ∈ as, a.Advances) (g : Grammar) (p : Place) :
    p.Reaches (passage g as p).2 ∧ (p.rest ≠ [] → p.offset < (passage g as p).2.offset) := by
  rcases passage_cases g as p with ⟨-, h⟩ | ⟨c, stop, hd, hw, h⟩ | ⟨c, hd, -, h⟩
  · rw [h]
    exact ⟨.finish p, Place.offset_lt_finish⟩
  · obtain ⟨-, hf⟩ := due_mem hd
    obtain ⟨h1, -, -⟩ := Pattern.findFrom_ahead hf
    obtain ⟨h2, h3⟩ := wordAcross_reaches hw h1
    rw [h]
    exact ⟨h2, fun _ => Nat.lt_of_le_of_lt h1.offset_le h3⟩
  · obtain ⟨hc, hf⟩ := due_mem hd
    obtain ⟨h1, h2⟩ := (has _ hc).passes hf
    rw [h]
    exact ⟨h1, fun _ => h2⟩

namespace Tokens

variable {t u : Tokens}

/-- The alternatives at the top level. -/
def alternatives (t : Tokens) : List Alternative := t.level.alternatives

/-- What is remembered was found from places before, and no rule goes back. -/
structure Ready (t : Tokens) : Prop where
  recalls : t.level.Recalls t.remember t.place
  advances : ∀ a ∈ t.alternatives, a.Advances

theorem start_ready (g : Grammar) (remember : Bool) (source : String) : (start g remember source).Ready where
  recalls := Level.Recalls.ofAlternatives _
  advances := by
    simp only [alternatives, start, Level.alternatives_ofAlternatives]
    exact alternativesFrom_advance g.rules 0

theorem step_eq (h : t.Ready) : t.step =
    { t with
      place := (passage t.grammar t.alternatives t.place).2
      pending := t.pending ++ (passage t.grammar t.alternatives t.place).1
      level := (t.level.next t.remember t.place).2 } := by
  have hn : (t.level.next t.remember t.place).1 = due t.alternatives t.place := Level.next_eq h.recalls
  unfold step passage
  simp only [hn]
  cases due t.alternatives t.place with
  | none => rfl
  | some c =>
    cases hw : wordAcross t.grammar t.place c.found.start with
    | none => simp only [hw, List.append_assoc]
    | some stop => simp only [hw]

theorem step_ready (h : t.Ready) : t.step.Ready := by
  rw [step_eq h]
  refine ⟨(Level.next_recalls h.recalls).mono (passage_passes h.advances t.grammar t.place).1, ?_⟩
  simp only [alternatives, Level.alternatives_next]
  exact h.advances

/-! ## Asking for the next token -/

theorem next_of_pending {x : Token} {rest : List Token} (h : t.pending = x :: rest) :
    t.next = (some x, { t with pending := rest }) := by
  unfold next
  rw [h]

theorem next_of_atEnd (h : t.pending = []) (hp : t.place.rest = []) : t.next = (none, t) := by
  unfold next
  rw [h]
  simp [(Place.atEnd_iff t.place).2 hp]

theorem next_of_step (h : t.pending = []) (hp : t.place.rest ≠ []) :
    (∀ x rest, t.step.pending = x :: rest → t.next = (some x, { t.step with pending := rest })) ∧
      (t.step.pending = [] → t.next = (none, t.step)) := by
  have he : t.place.atEnd = false := by
    rw [Bool.eq_false_iff, ne_eq, Place.atEnd_iff]
    exact hp
  unfold next
  rw [h]
  constructor
  · intro x rest hs
    simp only [he, hs, Bool.false_eq_true, if_false]
  · intro hs
    simp only [he, hs, Bool.false_eq_true, if_false]

theorem next_ready (h : t.Ready) : t.next.2.Ready := by
  cases hp : t.pending with
  | cons x rest =>
    rw [next_of_pending hp]
    exact ⟨h.recalls, h.advances⟩
  | nil =>
    by_cases hr : t.place.rest = []
    · rw [next_of_atEnd hp hr]
      exact h
    · have hs := step_ready h
      obtain ⟨hcons, hnil⟩ := next_of_step hp hr
      cases hsp : t.step.pending with
      | nil =>
        rw [hnil hsp]
        exact hs
      | cons x rest =>
        rw [hcons x rest hsp]
        exact ⟨hs.recalls, hs.advances⟩

/-- The scan after a number of calls. -/
def after : Nat → Tokens → Tokens
  | 0, t => t
  | k + 1, t => (after k t).next.2

/-- The tokens given in a number of calls. -/
def given : Nat → Tokens → List Token
  | 0, _ => []
  | k + 1, t => given k t ++ (after k t).next.1.toList

theorem after_ready (h : t.Ready) : ∀ k, (t.after k).Ready
  | 0 => h
  | k + 1 => next_ready (after_ready h k)

/-! ## Scans alike -/

/-- Two scans that can differ only in what they remember. -/
structure Alike (t u : Tokens) : Prop where
  grammar : t.grammar = u.grammar
  place : t.place = u.place
  pending : t.pending = u.pending
  alternatives : t.alternatives = u.alternatives

theorem step_alike (ht : t.Ready) (hu : u.Ready) (h : t.Alike u) : t.step.Alike u.step := by
  rw [step_eq ht, step_eq hu]
  constructor
  · exact h.grammar
  · simp only [h.grammar, h.alternatives, h.place]
  · simp only [h.grammar, h.alternatives, h.place, h.pending]
  · simp only [alternatives, Level.alternatives_next]
    exact h.alternatives

theorem next_alike (ht : t.Ready) (hu : u.Ready) (h : t.Alike u) :
    t.next.1 = u.next.1 ∧ t.next.2.Alike u.next.2 := by
  cases hp : u.pending with
  | cons x rest =>
    rw [next_of_pending hp, next_of_pending (h.pending.trans hp)]
    exact ⟨rfl, h.grammar, h.place, rfl, h.alternatives⟩
  | nil =>
    have hp' := h.pending.trans hp
    by_cases hr : u.place.rest = []
    · rw [next_of_atEnd hp hr, next_of_atEnd hp' (by rw [h.place, hr])]
      exact ⟨rfl, h⟩
    · have hs := step_alike ht hu h
      obtain ⟨hcons, hnil⟩ := next_of_step hp hr
      obtain ⟨hcons', hnil'⟩ := next_of_step hp' (by rw [h.place]; exact hr)
      cases hsp : u.step.pending with
      | nil =>
        rw [hnil hsp, hnil' (hs.pending.trans hsp)]
        exact ⟨rfl, hs⟩
      | cons x rest =>
        rw [hcons x rest hsp, hcons' x rest (hs.pending.trans hsp)]
        exact ⟨rfl, hs.grammar, hs.place, rfl, hs.alternatives⟩

theorem start_alike (g : Grammar) (source : String) : (start g true source).Alike (start g false source) where
  grammar := rfl
  place := rfl
  pending := rfl
  alternatives := by
    simp only [alternatives, start, Level.alternatives_ofAlternatives, alternativesFrom_remember]

/-- Scans with and without memory stay alike. -/
theorem after_alike (g : Grammar) (source : String) :
    ∀ k, ((start g true source).after k).Alike ((start g false source).after k)
  | 0 => start_alike g source
  | k + 1 => (next_alike (after_ready (start_ready g true source) k)
      (after_ready (start_ready g false source) k) (after_alike g source k)).2

/-- **Remembering searches changes nothing.** After any number of calls the next call gives the
same token, with the same tokens inside, whether searches are remembered or made anew at each
place, and leaves the scan at the same place. -/
theorem next_with_or_without_memory (g : Grammar) (source : String) (k : Nat) :
    ((start g true source).after k).next.1 = ((start g false source).after k).next.1 ∧
    ((start g true source).after k).next.2.position = ((start g false source).after k).next.2.position := by
  obtain ⟨h1, h2⟩ := next_alike (after_ready (start_ready g true source) k)
    (after_ready (start_ready g false source) k) (after_alike g source k)
  refine ⟨h1, ?_⟩
  unfold position
  rw [h2.place]

end Tokens

end Lexicolor.Scan
