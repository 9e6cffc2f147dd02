/-
What searches find. Every way to match only moves on through the text, and its groups lie in
what it matched (`ways_follows`); so a match lies between two places of the text, its groups
inside it (`Match.Inside`).

`Expr.search` is settled by what the places ahead accept (`search_eq_some_iff`,
`search_eq_none_iff`). A search from a later place therefore finds the same match as long as it
has not been passed, and finds nothing where a search from an earlier place found nothing
(`Pattern.findFrom_later`, `Pattern.findFrom_none_later`): what makes remembering a search safe.
-/
import Lexicolor.Pattern
import Lexicolor.Proofs.Places

namespace Lexicolor.Regex

open Text

/-- A span between two places. -/
def Within (p : Place) (s : Span) (q : Place) : Prop :=
  p.Reaches s.start ∧ s.start.Reaches s.stop ∧ s.stop.Reaches q

/-- `u` has come from `t` by matching on, and the groups it has recorded since lie in between. -/
structure Trail.Follows (t u : Trail) : Prop where
  place : t.place.Reaches u.place
  groups : ∀ g ∈ u.groups, g ∈ t.groups ∨ Within t.place g.2 u.place

namespace Trail.Follows

theorem refl (t : Trail) : t.Follows t := ⟨.refl _, fun _ hg => .inl hg⟩

theorem trans {t u v : Trail} (h : t.Follows u) (h' : u.Follows v) : t.Follows v := by
  refine ⟨h.place.trans h'.place, fun g hg => ?_⟩
  rcases h'.groups g hg with hg | ⟨h1, h2, h3⟩
  · rcases h.groups g hg with hg | ⟨h1, h2, h3⟩
    · exact .inl hg
    · exact .inr ⟨h1, h2, h3.trans h'.place⟩
  · exact .inr ⟨h.place.trans h1, h2, h3⟩

end Trail.Follows

/-! ## Ways go forward -/

theorem mem_distinct {u : Trail} : ∀ {ts : List Trail}, u ∈ distinct ts → u ∈ ts
  | [], h => by simp [distinct] at h
  | t :: ts, h => by
    simp only [distinct, List.mem_cons, List.mem_filter] at h ⊢
    rcases h with rfl | ⟨h, -⟩
    · exact .inl rfl
    · exact .inr (mem_distinct h)

theorem mem_addNew {t u : Trail} {found : List Trail} (h : u ∈ addNew t found) : u = t ∨ u ∈ found := by
  unfold addNew at h
  split at h
  · exact .inr h
  · simpa using h

section Repetition

variable {step : Trail → List Trail}

/-- Whatever a fold over trails adds to what was found comes from one of the trails. -/
theorem mem_foldl {f : List Trail → Trail → List Trail} {u : Trail}
    (hf : ∀ acc t, u ∈ f acc t → u ∈ acc ∨ t.Follows u) :
    ∀ {ts found : List Trail}, u ∈ ts.foldl f found → u ∈ found ∨ ∃ t ∈ ts, Trail.Follows t u
  | [], _, h => .inl h
  | t :: ts, found, h => by
    rw [List.foldl_cons] at h
    rcases mem_foldl hf h with h | ⟨t', ht', h⟩
    · rcases hf found t h with h | h
      · exact .inl h
      · exact .inr ⟨t, by simp, h⟩
    · exact .inr ⟨t', by simp [ht'], h⟩

theorem mem_loop (hstep : ∀ t, ∀ u ∈ step t, t.Follows u) {greedy : Bool} {u : Trail} :
    ∀ n {t found}, u ∈ loop step greedy n t found → u ∈ found ∨ t.Follows u
  | 0, t, found, h => by
    rcases mem_addNew h with rfl | h
    · exact .inr (.refl _)
    · exact .inl h
  | n + 1, t, found, h => by
    unfold loop at h
    split at h
    · exact .inl h
    -- Both orders of `t` and the places after it find the same.
    have key : ∀ {acc}, u ∈ ((step t).filter (!·.endsWith t)).foldl
        (fun acc v => loop step greedy n v acc) acc → u ∈ acc ∨ t.Follows u := by
      intro acc h
      rcases mem_foldl (fun acc v => mem_loop hstep n) h with h | ⟨v, hv, h⟩
      · exact .inl h
      · exact .inr ((hstep t v (List.mem_filter.1 hv).1).trans h)
    simp only at h
    split at h
    · rcases List.mem_cons.1 h with rfl | h
      · exact .inr (.refl _)
      · exact key h
    · rcases key h with h | h
      · rcases List.mem_cons.1 h with rfl | h
        · exact .inr (.refl _)
        · exact .inl h
      · exact .inr h

theorem mem_atLeastOnce (hstep : ∀ t, ∀ u ∈ step t, t.Follows u) {greedy : Bool} {t u : Trail}
    {found : List Trail} (h : u ∈ atLeastOnce step greedy t found) : u ∈ found ∨ t.Follows u := by
  have hf : ∀ acc v, u ∈ (if v.endsWith t then addNew v acc
      else loop step greedy v.place.rest.length v acc) → u ∈ acc ∨ v.Follows u := by
    intro acc v hu
    split at hu
    · rcases mem_addNew hu with rfl | hu
      · exact .inr (.refl _)
      · exact .inl hu
    · exact mem_loop hstep _ hu
  rcases mem_foldl hf h with h | ⟨v, hv, h⟩
  · exact .inl h
  · exact .inr ((hstep t v hv).trans h)

theorem mem_anyTimes (hstep : ∀ t, ∀ u ∈ step t, t.Follows u) {greedy : Bool} {t u : Trail}
    (h : u ∈ anyTimes step greedy t) : t.Follows u := by
  unfold anyTimes at h
  split at h
  · rcases mem_addNew (List.mem_reverse.1 h) with rfl | h
    · exact .refl _
    · simpa using mem_atLeastOnce hstep h
  · rcases mem_atLeastOnce hstep (List.mem_reverse.1 h) with h | h
    · exact List.mem_singleton.1 h ▸ .refl _
    · exact h

theorem mem_exactly (hstep : ∀ t, ∀ u ∈ step t, t.Follows u) {u : Trail} :
    ∀ n {ts}, u ∈ exactly step n ts → ∃ t ∈ ts, t.Follows u
  | 0, _, h => ⟨u, h, .refl _⟩
  | n + 1, ts, h => by
    obtain ⟨v, hv, hvu⟩ := mem_exactly hstep n h
    obtain ⟨t, ht, hv⟩ := List.mem_flatMap.1 (mem_distinct hv)
    exact ⟨t, ht, (hstep t v hv).trans hvu⟩

theorem mem_atMost (hstep : ∀ t, ∀ u ∈ step t, t.Follows u) {greedy : Bool} {u : Trail} :
    ∀ n {t}, u ∈ atMost step greedy n t → t.Follows u
  | 0, t, h => List.mem_singleton.1 h ▸ .refl _
  | n + 1, t, h => by
    have h' : u = t ∨ u ∈ (step t).flatMap (atMost step greedy n) := by
      have := mem_distinct h
      split at this
      · simpa [or_comm] using this
      · simpa using this
    rcases h' with rfl | h'
    · exact .refl _
    · obtain ⟨v, hv, h'⟩ := List.mem_flatMap.1 h'
      exact (hstep t v hv).trans (mem_atMost hstep n h')

theorem mem_repetition (hstep : ∀ t, ∀ u ∈ step t, t.Follows u) {min : Nat} {max : Option Nat}
    {greedy : Bool} {t u : Trail} (h : u ∈ repetition step min max greedy t) : t.Follows u := by
  unfold repetition at h
  split at h
  · obtain ⟨v, hv, h⟩ := List.mem_flatMap.1 (mem_distinct h)
    obtain ⟨w, hw, hwv⟩ := mem_exactly hstep min hv
    rw [List.mem_singleton.1 hw] at hwv
    exact hwv.trans (mem_atMost hstep _ h)
  · split at h
    · exact mem_anyTimes hstep h
    · next n =>
      obtain ⟨v, hv, h⟩ := List.mem_flatMap.1 (mem_distinct h)
      obtain ⟨w, hw, hwv⟩ := mem_exactly hstep n hv
      rw [List.mem_singleton.1 hw] at hwv
      rcases mem_atLeastOnce hstep (List.mem_reverse.1 h) with h | h
      · simp at h
      · exact hwv.trans h

end Repetition

/-- **Every way goes forward**, and records groups only of what it passes over. -/
theorem ways_follows : ∀ (e : Expr) (t : Trail), ∀ u ∈ ways e t, t.Follows u
  | .empty, t, u, h => by
    simp only [ways, List.mem_singleton] at h
    exact h ▸ .refl _
  | .one set, t, u, h => by
    simp only [ways] at h
    split at h
    · simp at h
    · next c cs hr =>
      split at h
      · rw [List.mem_singleton.1 h]
        exact ⟨.one hr, fun _ hg => .inl hg⟩
      · simp at h
  | .anchor a, t, u, h => by
    simp only [ways] at h
    split at h
    · exact List.mem_singleton.1 h ▸ .refl _
    · simp at h
  | .seq e f, t, u, h => by
    obtain ⟨v, hv, h⟩ := List.mem_flatMap.1 (mem_distinct h)
    exact (ways_follows e t v hv).trans (ways_follows f v u h)
  | .alt e f, t, u, h => by
    rcases List.mem_append.1 (mem_distinct h) with h | h
    · exact ways_follows e t u h
    · exact ways_follows f t u h
  | .rep e _ _ _, t, u, h => mem_repetition (ways_follows e) h
  | .group none e, t, u, h => ways_follows e t u h
  | .group (some name) e, t, u, h => by
    simp only [ways, List.mem_map] at h
    obtain ⟨v, hv, rfl⟩ := h
    have hf := ways_follows e t v hv
    refine ⟨hf.place, fun g hg => ?_⟩
    rcases List.mem_cons.1 hg with rfl | hg
    · exact .inr ⟨.refl _, hf.place, .refl _⟩
    · exact hf.groups g hg

/-- The match lies between two places of the text, and its groups lie inside it. -/
structure Match.Inside (m : Match) : Prop where
  reaches : m.start.Reaches m.stop
  groups : ∀ g ∈ m.groups, Within m.start g.2 m.stop

theorem Match.Inside.group {m : Match} (h : m.Inside) (name : String) :
    Within m.start (m.group name) m.stop := by
  unfold Match.group
  cases hl : m.groups.lookup name with
  | none => exact ⟨.refl _, h.reaches, .refl _⟩
  | some s =>
    obtain ⟨as, bs, hg, -⟩ := List.lookup_eq_some_iff.1 hl
    exact h.groups (name, s) (by simp [hg])

theorem Match.Inside.offset_lt {m : Match} (h : m.Inside) (hne : m.isEmpty = false) :
    m.start.offset < m.stop.offset := Span.offset_lt h.reaches hne

theorem Expr.matchAt_inside {e : Expr} {p : Place} {m : Match} (h : e.matchAt p = some m) :
    m.start = p ∧ m.Inside := by
  simp only [Expr.matchAt, Option.map_eq_some_iff] at h
  obtain ⟨u, hu, rfl⟩ := h
  have hf := ways_follows e _ u (List.mem_of_head? hu)
  exact ⟨rfl, hf.place, fun g hg => (hf.groups g hg).resolve_left (by simp)⟩

/-! ## What a search finds -/

namespace Expr

variable {e : Expr} {accept : Match → Bool} {p q : Place} {m : Match}

theorem search_nil (h : p.rest = []) : e.search accept p = (e.matchAt p).filter accept := by
  obtain ⟨offset, before, rest⟩ := p
  cases h
  rfl

theorem search_cons {c : Char} {cs : List Char} (h : p.rest = c :: cs) :
    e.search accept p = ((e.matchAt p).filter accept).or
      (e.search accept ⟨p.offset + c.utf8Size, some c, cs⟩) := by
  obtain ⟨offset, before, rest⟩ := p
  cases h
  simp only [search, searchFrom]
  cases (e.matchAt ⟨offset, before, c :: cs⟩).filter accept <;> rfl

theorem search_eq_none_iff :
    e.search accept p = none ↔ ∀ q, p.Reaches q → (e.matchAt q).filter accept = none := by
  induction hr : p.rest generalizing p with
  | nil =>
    rw [search_nil hr]
    exact ⟨fun h q hq => hq.eq_of_rest_nil hr ▸ h, fun h => h p (.refl p)⟩
  | cons c cs ih =>
    rw [search_cons hr, Option.or_eq_none_iff, ih rfl]
    constructor
    · rintro ⟨h, ht⟩ q hq
      rcases hq.cons_cases hr with rfl | hq
      · exact h
      · exact ht q hq
    · exact fun h => ⟨h p (.refl p), fun q hq => h q ((Place.Reaches.one hr).trans hq)⟩

/-- **What a search finds** is accepted at a place ahead, and no place before it accepts. -/
theorem search_eq_some (h : e.search accept p = some m) :
    p.Reaches m.start ∧ (e.matchAt m.start).filter accept = some m ∧
      ∀ q, p.Reaches q → q.offset < m.start.offset → (e.matchAt q).filter accept = none := by
  induction hr : p.rest generalizing p with
  | nil =>
    rw [search_nil hr] at h
    obtain ⟨hs, -⟩ := matchAt_inside (Option.filter_eq_some_iff.1 h).1
    refine ⟨hs ▸ .refl p, hs ▸ h, fun q hq hlt => ?_⟩
    have := hq.offset_le
    rw [hs] at hlt
    omega
  | cons c cs ih =>
    rw [search_cons hr] at h
    cases hm : (e.matchAt p).filter accept with
    | some m' =>
      obtain rfl : m' = m := by simpa [hm] using h
      obtain ⟨hs, -⟩ := matchAt_inside (Option.filter_eq_some_iff.1 hm).1
      refine ⟨hs ▸ .refl p, hs ▸ hm, fun q hq hlt => ?_⟩
      have := hq.offset_le
      rw [hs] at hlt
      omega
    | none =>
      rw [hm, Option.none_or] at h
      obtain ⟨h1, h2, h3⟩ := ih h rfl
      refine ⟨(Place.Reaches.one hr).trans h1, h2, fun q hq hlt => ?_⟩
      rcases hq.cons_cases hr with rfl | hq
      · exact hm
      · exact h3 q hq hlt

theorem search_eq_some_iff :
    e.search accept p = some m ↔ p.Reaches m.start ∧ (e.matchAt m.start).filter accept = some m ∧
      ∀ q, p.Reaches q → q.offset < m.start.offset → (e.matchAt q).filter accept = none := by
  refine ⟨search_eq_some, fun ⟨h1, h2, h3⟩ => ?_⟩
  cases h : e.search accept p with
  | none => rw [search_eq_none_iff.1 h _ h1] at h2; cases h2
  | some m' =>
    obtain ⟨h1', h2', h3'⟩ := search_eq_some h
    -- Neither match is before the other, and one place has one preferred match.
    have hle : ¬ m.start.offset < m'.start.offset := fun hlt => by
      rw [h3' _ h1 hlt] at h2; cases h2
    have hge : ¬ m'.start.offset < m.start.offset := fun hlt => by
      rw [h3 _ h1' hlt] at h2'; cases h2'
    rw [h1'.unique h1 (by omega), h2] at h2'
    exact h2'.symm

/-- A search finds the match at its place if that is accepted. -/
theorem search_here (hm : e.matchAt p = some m) (ha : accept m = true) : e.search accept p = some m := by
  have hstart := (matchAt_inside hm).1
  refine search_eq_some_iff.2 ⟨hstart ▸ .refl p, ?_, fun q hq hlt => ?_⟩
  · rw [hstart, hm, Option.filter_some, if_pos ha]
  · rw [hstart] at hlt
    exact absurd hq.offset_le (Nat.not_le.2 hlt)

end Expr

end Lexicolor.Regex

namespace Lexicolor.Pattern

open Text Regex

variable {pattern : Pattern} {p q : Place} {m : Match}

/-- A text is matched as a whole if the preferred match at its start takes all of it. -/
theorem matchesFully_iff {text : String} : pattern.matchesFully text = true ↔
    ∃ m, pattern.expr.matchAt (.start text.toList) = some m ∧ m.stop.rest = [] := by
  rw [matchesFully]
  constructor
  · intro h
    split at h
    · next m hm =>
      simp only [Bool.and_eq_true, beq_iff_eq, Place.atEnd_iff] at h
      obtain ⟨h1, h2, -⟩ := Expr.search_eq_some hm
      have hstart := h1.eq_of_offset_eq h.1.symm
      rw [← hstart] at h2
      exact ⟨m, (Option.filter_eq_some_iff.1 h2).1, h.2⟩
    · cases h
  · rintro ⟨m, hm, hstop⟩
    have hstart := (Expr.matchAt_inside hm).1
    have hatEnd : m.stop.atEnd = true := by rw [Place.atEnd_iff, hstop]
    have hsearch : pattern.expr.search (fun _ => true) (.start text.toList) = some m := Expr.search_here hm rfl
    simp only [hsearch, hstart, hatEnd]
    rfl

/-- The preferred match at a place, unless it is empty. -/
def matchHere (pattern : Pattern) (p : Place) : Option Match :=
  (pattern.expr.matchAt p).filter (!·.isEmpty)

theorem matchHere_eq_some (h : pattern.matchHere p = some m) :
    m.start = p ∧ m.Inside ∧ m.start.offset < m.stop.offset := by
  obtain ⟨h, hne⟩ := Option.filter_eq_some_iff.1 h
  obtain ⟨hs, hi⟩ := Expr.matchAt_inside h
  exact ⟨hs, hi, hi.offset_lt (by simpa using hne)⟩

theorem findFrom_eq_none_iff :
    pattern.findFrom p = none ↔ ∀ q, p.Reaches q → pattern.matchHere q = none :=
  Expr.search_eq_none_iff

theorem findFrom_eq_some_iff :
    pattern.findFrom p = some m ↔ p.Reaches m.start ∧ pattern.matchHere m.start = some m ∧
      ∀ q, p.Reaches q → q.offset < m.start.offset → pattern.matchHere q = none :=
  Expr.search_eq_some_iff

/-- What a pattern finds lies ahead and is not empty. -/
theorem findFrom_ahead (h : pattern.findFrom p = some m) :
    p.Reaches m.start ∧ m.Inside ∧ m.start.offset < m.stop.offset := by
  obtain ⟨h1, h2, -⟩ := findFrom_eq_some_iff.1 h
  exact ⟨h1, (matchHere_eq_some h2).2⟩

theorem findFrom_stop (h : pattern.findFrom p = some m) : p.Reaches m.stop :=
  (findFrom_ahead h).1.trans (findFrom_ahead h).2.1.reaches

/-- A match that has not been passed is still the one to be found. -/
theorem findFrom_later (h : pattern.findFrom p = some m) (hpq : p.Reaches q)
    (hle : q.offset ≤ m.start.offset) : pattern.findFrom q = some m := by
  obtain ⟨h1, h2, h3⟩ := findFrom_eq_some_iff.1 h
  exact findFrom_eq_some_iff.2 ⟨hpq.linear h1 hle, h2, fun r hr => h3 r (hpq.trans hr)⟩

/-- What was not found ahead of a place is not found ahead of a later one. -/
theorem findFrom_none_later (h : pattern.findFrom p = none) (hpq : p.Reaches q) :
    pattern.findFrom q = none :=
  findFrom_eq_none_iff.2 fun r hr => findFrom_eq_none_iff.1 h r (hpq.trans hr)

/-- Whatever matches ahead, something is found that begins no later. -/
theorem findFrom_of_matchHere (h : pattern.matchHere q = some m) (hpq : p.Reaches q) :
    ∃ e, pattern.findFrom p = some e ∧ e.start.offset ≤ q.offset := by
  cases he : pattern.findFrom p with
  | none =>
    rw [findFrom_eq_none_iff.1 he q hpq] at h
    cases h
  | some e =>
    refine ⟨e, rfl, Nat.not_lt.1 fun hlt => ?_⟩
    rw [(findFrom_eq_some_iff.1 he).2.2 q hpq hlt] at h
    cases h

/-- What matches at a place is found there. -/
theorem findFrom_here (h : pattern.matchHere p = some m) : pattern.findFrom p = some m := by
  obtain ⟨hm, hne⟩ := Option.filter_eq_some_iff.1 h
  exact Expr.search_here hm hne

/-- Places at which nothing matches are passed over. -/
theorem findFrom_skip (hpq : p.Reaches q)
    (hnone : ∀ r, p.Reaches r → r.offset < q.offset → pattern.matchHere r = none) :
    pattern.findFrom p = pattern.findFrom q := by
  cases h : pattern.findFrom q with
  | none =>
    refine findFrom_eq_none_iff.2 fun r hr => ?_
    by_cases hlt : r.offset < q.offset
    · exact hnone r hr hlt
    · exact findFrom_eq_none_iff.1 h r (hpq.linear hr (Nat.le_of_not_lt hlt))
  | some m =>
    obtain ⟨h1, h2, h3⟩ := findFrom_eq_some_iff.1 h
    refine findFrom_eq_some_iff.2 ⟨hpq.trans h1, h2, fun r hr hlt => ?_⟩
    by_cases hq : r.offset < q.offset
    · exact hnone r hr hq
    · exact h3 r (hpq.linear hr (Nat.le_of_not_lt hq)) hlt

/-- Nothing matches before the place where something is found. -/
theorem matchHere_none_before {r : Place} (h : ∀ m, pattern.findFrom p = some m → q.offset ≤ m.start.offset)
    (hr : p.Reaches r) (hlt : r.offset < q.offset) : pattern.matchHere r = none := by
  cases hm : pattern.matchHere r with
  | none => rfl
  | some m =>
    obtain ⟨e, he, hle⟩ := findFrom_of_matchHere hm hr
    have := h e he
    omega

end Lexicolor.Pattern
