/-
The words of a gap. Successive matches of a pattern come one after the other
(`Pattern.allMatches_successive`), so the words of a gap do, and the tokens of a gap cover it
exactly (`gapTokens_tiles`) while the listed words of a gap are nested in it
(`listedWords_nested`). A word that runs across a place ends at a later place of the text
(`wordAcross_reaches`).
-/
import Lexicolor.Scan.Words
import Lexicolor.Proofs.Extents
import Lexicolor.Proofs.Searching

namespace Lexicolor

open Text Regex

/-- The spans follow one another from a place on. -/
def Successive : Place → List Span → Prop
  | _, [] => True
  | p, s :: ss => p.Reaches s.start ∧ s.start.Reaches s.stop ∧ Successive s.stop ss

namespace Successive

variable {p q : Place} {ss : List Span}

theorem weaken (h : Successive q ss) (hpq : p.Reaches q) : Successive p ss := by
  cases ss with
  | nil => trivial
  | cons s ss => exact ⟨hpq.trans h.1, h.2⟩

theorem filter {keep : Span → Bool} : ∀ {p ss}, Successive p ss → Successive p (ss.filter keep)
  | _, [], _ => trivial
  | p, s :: ss, ⟨h1, h2, h3⟩ => by
    rw [List.filter_cons]
    split
    · exact ⟨h1, h2, h3.filter⟩
    · exact h3.filter.weaken (h1.trans h2)

theorem mem : ∀ {p ss} {s : Span}, Successive p ss → s ∈ ss → p.Reaches s.start ∧ s.start.Reaches s.stop
  | _, [], _, _, hs => by simp at hs
  | p, r :: ss, s, ⟨h1, h2, h3⟩, hs => by
    rcases List.mem_cons.1 hs with rfl | hs
    · exact ⟨h1, h2⟩
    · obtain ⟨h4, h5⟩ := h3.mem hs
      exact ⟨h1.trans (h2.trans h4), h5⟩

/-- Of spans that follow one another, those that begin before a byte come first. -/
theorem mem_takeWhile {k : Nat} : ∀ {p ss} {s : Span}, Successive p ss → s ∈ ss → s.start.offset < k →
    s ∈ ss.takeWhile fun r => r.start.offset < k
  | _, [], _, _, hs, _ => by cases hs
  | p, r :: ss, s, ⟨_, h2, h3⟩, hs, hlt => by
    rcases List.mem_cons.1 hs with rfl | hs
    · simp [hlt]
    · have hr : r.start.offset < k := by
        have := h2.offset_le
        have := (h3.mem hs).1.offset_le
        omega
      rw [List.takeWhile_cons_of_pos (by simpa using hr)]
      exact List.mem_cons_of_mem r (h3.mem_takeWhile hs hlt)

end Successive

theorem Pattern.matchesFrom_successive (pattern : Pattern) :
    ∀ n fresh p, Successive p ((pattern.matchesFrom n fresh p).map (·.span))
  | 0, _, _ => trivial
  | n + 1, fresh, p => by
    unfold Pattern.matchesFrom
    split
    · trivial
    · next m hm =>
      obtain ⟨h1, h2, -⟩ := Expr.search_eq_some hm
      obtain ⟨-, hi⟩ := Expr.matchAt_inside (Option.filter_eq_some_iff.1 h2).1
      exact ⟨h1, hi.reaches, matchesFrom_successive pattern n false m.stop⟩

/-- **Successive matches** come one after the other. -/
theorem Pattern.allMatches_successive (pattern : Pattern) (p : Place) :
    Successive p ((pattern.allMatches p).map (·.span)) :=
  matchesFrom_successive pattern _ _ p

/-! ## Scopes of words -/

theorem WordClass.scope_ne (c : WordClass) {s : Scope} (hs : s.isWordClass = false) : c.scope ≠ s := by
  rintro rfl
  cases c <;> simp [Scope.isWordClass, WordClass.all] at hs

/-- No word has a scope that is neither identifier nor that of a word class. -/
theorem Grammar.wordScope_ne (g : Grammar) (w : String) {s : Scope} (hi : s ≠ .identifier)
    (hs : s.isWordClass = false) : g.wordScope w ≠ s := by
  unfold Grammar.wordScope
  split
  · next c _ => exact c.scope_ne hs
  · exact hi.symm

namespace Scan

variable {g : Grammar} {p q : Place} {source : String}

theorem wordsIn_eq (g : Grammar) (p q : Place) :
    wordsIn g p q = ((g.identifier.allMatches (p.cut q)).map (·.span)).filter (!·.isEmpty) := by
  rw [wordsIn, List.filter_map]
  rfl

theorem wordsIn_successive (g : Grammar) (p q : Place) : Successive (p.cut q) (wordsIn g p q) := by
  rw [wordsIn_eq]
  exact (Pattern.allMatches_successive g.identifier (p.cut q)).filter

theorem wordsIn_ne {s : Span} (h : s ∈ wordsIn g p q) : s.start.offset < s.stop.offset := by
  have hs := (wordsIn_successive g p q).mem h
  rw [wordsIn_eq] at h
  exact Span.offset_lt hs.2 (by simpa using (List.mem_filter.1 h).2)

theorem wordsIn_lies (hp : Place.Lies source.toList p) (hpq : p.Reaches q) {s : Span}
    (h : s ∈ wordsIn g p q) : Place.Lies source.toList s.start :=
  (hp.cut hpq).reaches ((wordsIn_successive g p q).mem h).1

/-! ## Gaps -/

theorem fillGap_tiles {to_ : Place} : ∀ {p ws}, Successive p ws →
    (∀ w ∈ ws, w.start.offset < w.stop.offset) → p.finish.offset = to_.offset →
    Tiles p.offset (fillGap g to_ p ws) to_.offset
  | p, [], _, _, hf => by
    unfold fillGap
    split
    · next hlt => exact Tiles.one (t := .ofSpan .plain ⟨p, to_⟩ []) hlt
    · next hlt =>
      have := (Place.Reaches.finish p).offset_le
      simp only [Tiles]
      omega
  | p, w :: ws, ⟨h1, h2, h3⟩, hne, hf => by
    have ih : Tiles w.stop.offset (fillGap g to_ w.stop ws) to_.offset :=
      fillGap_tiles h3 (fun v hv => hne v (by simp [hv])) (by rw [(h1.trans h2).finish_eq, hf])
    have hw := hne w (by simp)
    have := h1.offset_le
    unfold fillGap
    split
    · next hlt => exact ⟨rfl, hlt, rfl, hw, ih⟩
    · next hlt => exact ⟨by simp only [Token.ofSpan]; omega, by simp only [Token.ofSpan]; omega, ih⟩

theorem fillGap_slices {to_ : Place} : ∀ {p ws}, Place.Lies source.toList p → Successive p ws →
    p.finish.offset = to_.offset → ∀ t ∈ fillGap g to_ p ws, t.IsSlice source
  | p, [], hp, _, hf, t, ht => by
    unfold fillGap at ht
    split at ht
    · rw [List.mem_singleton.1 ht]
      -- The end of the gap and the end of the text cut out for it have the same offset.
      have : Token.ofSpan .plain ⟨p, to_⟩ [] = Token.ofSpan .plain ⟨p, p.finish⟩ [] := by
        simp only [Token.ofSpan, Span.text, Place.textTo, Place.charsTo, hf]
      rw [this]
      exact Token.ofSpan_isSlice hp (.finish p) ..
    · simp at ht
  | p, w :: ws, hp, ⟨h1, h2, h3⟩, hf, t, ht => by
    have ih : ∀ t ∈ fillGap g to_ w.stop ws, t.IsSlice source :=
      fillGap_slices (hp.reaches (h1.trans h2)) h3 (by rw [(h1.trans h2).finish_eq, hf])
    have hw : (Token.ofSpan (g.wordScope w.text) w []).IsSlice source :=
      Token.ofSpan_isSlice (hp.reaches h1) h2 ..
    have hb : (Token.ofSpan .plain ⟨p, w.start⟩ []).IsSlice source :=
      Token.ofSpan_isSlice (s := ⟨p, w.start⟩) hp h1 ..
    unfold fillGap at ht
    split at ht
    · simp only [List.mem_cons] at ht
      rcases ht with rfl | rfl | ht
      · exact hb
      · exact hw
      · exact ih t ht
    · rcases List.mem_cons.1 ht with rfl | ht
      · exact hw
      · exact ih t ht

/-- **The tokens of a gap cover it exactly.** -/
theorem gapTokens_tiles (h : p.Reaches q) : Tiles p.offset (gapTokens g p q) q.offset :=
  fillGap_tiles (wordsIn_successive g p q) (fun _ hw => wordsIn_ne hw) h.finish_cut

theorem gapTokens_slices (hp : Place.Lies source.toList p) (h : p.Reaches q) :
    ∀ t ∈ gapTokens g p q, t.IsSlice source :=
  fillGap_slices (hp.cut h) (wordsIn_successive g p q) h.finish_cut

/-! ## Listed words -/

theorem filterMap_nested {f : Span → Option Token}
    (hf : ∀ w t, f w = some t → t.start = w.start.offset ∧ t.stop = w.stop.offset) :
    ∀ {p ws}, Successive p ws → (∀ w ∈ ws, w.start.offset < w.stop.offset) →
      Nested p.offset (ws.filterMap f) p.finish.offset
  | p, [], _, _ => (Place.Reaches.finish p).offset_le
  | p, w :: ws, ⟨h1, h2, h3⟩, hne => by
    have ih := filterMap_nested hf h3 (fun v hv => hne v (by simp [hv]))
    rw [(h1.trans h2).finish_eq] at ih
    have := h1.offset_le
    have := h2.offset_le
    rw [List.filterMap_cons]
    split
    · exact ih.weaken (by omega)
    · next t ht =>
      obtain ⟨hs, ho⟩ := hf w t ht
      have := hne w (by simp)
      exact ⟨by omega, by omega, ho ▸ ih⟩

/-- The listed words of a gap lie in it, in order. -/
theorem listedWords_nested (table : KeywordTable) (h : p.Reaches q) :
    Nested p.offset (listedWords g table p q) q.offset := by
  rw [← h.finish_cut]
  refine filterMap_nested (fun w t ht => ?_) (wordsIn_successive g p q) (fun _ hw => wordsIn_ne hw)
  obtain ⟨c, -, rfl⟩ := Option.map_eq_some_iff.1 ht
  exact ⟨rfl, rfl⟩

theorem mem_listedWords {table : KeywordTable} {t : Token} (h : t ∈ listedWords g table p q) :
    ∃ w ∈ wordsIn g p q, ∃ c : WordClass,
      table.lookup w.text g.caseInsensitive = some c ∧ t = .ofSpan c.scope w [] := by
  obtain ⟨w, hw, ht⟩ := List.mem_filterMap.1 h
  obtain ⟨c, hc, rfl⟩ := Option.map_eq_some_iff.1 ht
  exact ⟨w, hw, c, hc, rfl⟩

/-- No words are listed where nothing is between two places. -/
theorem listedWords_self (g : Grammar) (table : KeywordTable) (p : Place) : listedWords g table p p = [] := by
  refine List.eq_nil_iff_forall_not_mem.2 fun t ht => ?_
  have := (listedWords_nested (g := g) table (.refl p)).mem ht
  omega

/-! ## Words that run into a rule -/

/-- The matches of the identifier pattern in all that follows a place. -/
abbrev wordsAhead (g : Grammar) (p : Place) : List Match := g.identifier.allMatches ⟨p.offset, none, p.rest⟩

/-- A word that runs across a place is one of those that begin before it and end after it. -/
theorem wordAcross_mem {at_ stop : Place} (h : wordAcross g p at_ = some stop) : ∃ m ∈ wordsAhead g p,
    m.start.offset < at_.offset ∧ at_.offset < m.stop.offset ∧ m.stop = stop := by
  obtain ⟨m, hm, rfl⟩ := Option.map_eq_some_iff.1 h
  have hmem := List.mem_of_find?_eq_some hm
  have hlt : m.start.offset < at_.offset := by simpa using List.all_eq_true.1 List.all_takeWhile m hmem
  have hgt : at_.offset < m.stop.offset := by simpa using List.find?_some hm
  exact ⟨m, List.takeWhile_subset _ hmem, hlt, hgt, rfl⟩

/-- If no word runs across a place, every word that begins before it ends before it. -/
theorem wordAcross_none {at_ : Place} (h : wordAcross g p at_ = none) {w : Span}
    (hw : w ∈ (wordsAhead g p).map (·.span)) (hlt : w.start.offset < at_.offset) : w.stop.offset ≤ at_.offset := by
  have hfind := Option.map_eq_none_iff.1 h
  have hearly := (Pattern.allMatches_successive g.identifier _).mem_takeWhile hw hlt
  rw [List.takeWhile_map] at hearly
  obtain ⟨m, hm, rfl⟩ := List.mem_map.1 hearly
  have hnot := List.find?_eq_none.1 hfind m hm
  exact Nat.le_of_not_lt fun hgt => hnot (decide_eq_true hgt)

/-- A word that runs across a place ends after it, at a place of the text. -/
theorem wordAcross_reaches {at_ stop : Place} (h : wordAcross g p at_ = some stop) (hp : p.Reaches at_) :
    p.Reaches stop ∧ at_.offset < stop.offset := by
  obtain ⟨m, hm, -, hgt, rfl⟩ := wordAcross_mem h
  obtain ⟨h1, h2⟩ := (Pattern.allMatches_successive g.identifier _).mem (List.mem_map_of_mem hm)
  have := hp.offset_le
  exact ⟨(h1.trans h2).of_before (by simp only [Match.stop] at hgt; omega), hgt⟩

/-- No word runs across the place where the words begin. -/
theorem wordAcross_self (g : Grammar) (p : Place) : wordAcross g p p = none := by
  rw [wordAcross]
  cases hm : g.identifier.allMatches ⟨p.offset, none, p.rest⟩ with
  | nil => rfl
  | cons m ms =>
    have hs := Pattern.allMatches_successive g.identifier ⟨p.offset, none, p.rest⟩
    rw [hm] at hs
    have hle : p.offset ≤ m.start.offset := hs.1.offset_le
    simp [Nat.not_lt.2 hle]

theorem gapTokens_self (g : Grammar) (p : Place) : gapTokens g p p = [] := by
  have := (gapTokens_tiles (g := g) (.refl p)).length_le
  exact List.eq_nil_of_length_eq_zero (by omega)

end Scan

end Lexicolor
