/-
Listed words and the words of texts. A grammar reports a listed word that its identifier pattern does not match
when the word stands alone. A word of a gap whose ends no anchor of the pattern tells from those of a text is
matched alone as well (`matchesFully_of_apart`), and what is matched alone is a word of the text that it is, the
empty word apart. So a report says exactly that no text holds the word, but for the empty word and for words
that the pattern finds only with something around them (`unmatchable_iff`, `clitic_unmatchable`).
-/
import Lexicolor.Grammar.Validation
import Lexicolor.Proofs.CutWords
import Lexicolor.Proofs.TwinWays

namespace Lexicolor

open Text Regex Scan

variable {g : Grammar} {p q : Place} {s : Span} {c : WordClass} {w : String}

namespace Pattern

variable {pattern : Pattern} {m : Match}

/-- Each of the successive matches is the preferred one where it begins. -/
theorem matchesFrom_matchAt : ∀ {n : Nat} {fresh : Bool} {p : Place}, m ∈ pattern.matchesFrom n fresh p →
    pattern.expr.matchAt m.start = some m
  | 0, _, _, h => by cases h
  | n + 1, fresh, p, h => by
    cases hf : pattern.nextMatch fresh p with
    | none =>
      rw [matchesFrom_none hf] at h
      cases h
    | some f =>
      rw [matchesFrom_some hf] at h
      rcases List.mem_cons.1 h with rfl | h
      · exact (Option.filter_eq_some_iff.1 (Expr.search_eq_some hf).2.1).1
      · exact matchesFrom_matchAt h

end Pattern

/-! ## Words of gaps -/

/-- No anchor of the expression tells either end of the span from that end of a text. -/
structure Regex.Expr.Apart (e : Expr) (s : Span) : Prop where
  start : ∀ a ∈ e.anchors, a.holds ⟨s.start.offset, none, s.start.rest⟩ = a.holds s.start
  stop : ∀ a ∈ e.anchors, a.Steady s.stop

namespace Grammar

/-- Some gap of some text holds the word. -/
def Produces (g : Grammar) (w : String) : Prop := ∃ (source : String) (p q : Place),
  (Place.start source.toList).Reaches p ∧ p.Reaches q ∧ ∃ s ∈ wordsIn g p q, s.text = w

/-- Some gap of some text holds the word where no anchor tells its ends from those of a text. -/
def ProducesApart (g : Grammar) (w : String) : Prop := ∃ (source : String) (p q : Place),
  (Place.start source.toList).Reaches p ∧ p.Reaches q ∧
    ∃ s ∈ wordsIn g p q, s.text = w ∧ g.identifier.expr.Apart s

theorem ProducesApart.produces (h : g.ProducesApart w) : g.Produces w := by
  obtain ⟨source, p, q, hp, hq, s, hs, htext, -⟩ := h
  exact ⟨source, p, q, hp, hq, s, hs, htext⟩

/-- A pattern without anchors looks at nothing but the word. -/
theorem Produces.apart (h : g.Produces w) (ha : g.identifier.expr.anchors = []) : g.ProducesApart w := by
  obtain ⟨source, p, q, hp, hq, s, hs, htext⟩ := h
  exact ⟨source, p, q, hp, hq, s, hs, htext, by simp [ha], by simp [ha]⟩

/-- What a gap holds is matched where it stands, and has characters. -/
theorem word_matched (hs : s ∈ wordsIn g p q) : s.start.Reaches s.stop ∧ s.start.charsTo s.stop ≠ [] ∧
    ∃ m, m.span = s ∧ g.identifier.expr.matchAt s.start = some m := by
  have hreach := ((wordsIn_successive g p q).mem hs).2
  have hlt := wordsIn_ne hs
  rw [wordsIn_eq] at hs
  obtain ⟨m, hm, rfl⟩ := List.mem_map.1 (List.mem_filter.1 hs).1
  refine ⟨hreach, fun hnil => ?_, m, rfl, Pattern.matchesFrom_matchAt hm⟩
  have hoffset := hreach.offset_eq
  rw [hnil, bytes_nil] at hoffset
  omega

/-- No gap holds the empty word. -/
theorem not_produces_empty : ¬ g.Produces "" := by
  rintro ⟨source, p, q, -, -, s, hs, htext⟩
  have hnil := congrArg String.toList htext
  rw [Span.text, Place.textTo, String.toList_ofList] at hnil
  exact (word_matched hs).2.1 hnil

/-- **A word that stands apart** is matched as a whole when it stands alone. -/
theorem matchesFully_of_apart (hs : s ∈ wordsIn g p q) (h : g.identifier.expr.Apart s) :
    g.identifier.matchesFully s.text = true := by
  obtain ⟨hreach, hne, m, rfl, hm⟩ := word_matched hs
  -- The match in the text that ends with the word, and then in the text that is the word.
  have hcut := Expr.matchAt_upTo_some h.stop hreach hm (Nat.le_refl _)
  have hrest : (m.span.start.upTo m.span.stop).rest = (Place.start m.span.text.toList).rest := by
    rw [Span.text, Place.textTo, String.toList_ofList]
    rfl
  have hhead : (m.span.start.charsTo m.span.stop).head? = m.span.start.rest.head? := by
    rw [hreach.rest_eq, List.head?_append_of_ne_nil _ hne]
  have hanchors : ∀ a ∈ g.identifier.expr.anchors,
      a.holds (m.span.start.upTo m.span.stop) = a.holds (Place.start m.span.text.toList) := by
    intro a ha
    calc a.holds (m.span.start.upTo m.span.stop) = a.holds m.span.start := a.holds_congr rfl hhead
      _ = a.holds ⟨m.span.start.offset, none, m.span.start.rest⟩ := (h.start a ha).symm
      _ = a.holds (Place.start m.span.text.toList) := a.holds_congr rfl (by rw [← hrest]; exact hhead.symm)
  obtain ⟨m', hm', -, hstop⟩ := Expr.matchAt_twin hanchors hrest hcut
  refine Pattern.matchesFully_iff.2 ⟨m', hm', hstop.trans ?_⟩
  exact congrArg Place.rest (Place.upTo_self m.span.stop)

/-- **What is matched alone** is the word of the text that it is, if it is not empty. -/
theorem apart_of_matchesFully (h : g.identifier.matchesFully w = true) (hw : w ≠ "") : g.ProducesApart w := by
  obtain ⟨m, hm, hstop⟩ := Pattern.matchesFully_iff.1 h
  obtain ⟨hstart, hinside⟩ := Expr.matchAt_inside hm
  have hreach := hinside.reaches
  have hcut : (Place.start w.toList).cut (Place.start w.toList).finish = .start w.toList :=
    Place.cut_pass (List.append_nil w.toList).symm
  have hchars : m.start.charsTo m.stop = w.toList := by
    have hrest := hreach.rest_eq
    rw [hstop, List.append_nil, hstart] at hrest
    rw [hstart]
    exact hrest.symm
  have hnext : g.identifier.nextMatch true (.start w.toList) = some m := Expr.search_here hm rfl
  have hmem : m.span ∈ wordsIn g (.start w.toList) (Place.start w.toList).finish := by
    rw [wordsIn_eq, hcut, Pattern.allMatches, Pattern.matchesFrom_some hnext]
    refine List.mem_filter.2 ⟨List.mem_cons_self, ?_⟩
    have hpos : 0 < bytes w.toList := bytes_pos fun hnil => hw (String.toList_inj.1 hnil)
    have hoffset := hreach.offset_eq
    rw [hchars] at hoffset
    have hlt : m.span.start.offset < m.span.stop.offset := by
      show m.start.offset < m.stop.offset
      omega
    simp only [Span.isEmpty, Bool.not_eq_true', beq_eq_false_iff_ne]
    exact Nat.ne_of_lt hlt
  refine ⟨w, .start w.toList, _, .refl _, .finish _, m.span, hmem, ?_, fun a _ => ?_, fun a _ => ?_⟩
  · rw [Span.text, Place.textTo]
    exact String.toList_inj.1 (by rw [String.toList_ofList]; exact hchars)
  · exact a.holds_congr (congrArg Place.before hstart).symm rfl
  · exact a.holds_congr rfl (congrArg List.head? hstop).symm

/-! ## Reports -/

theorem unmatchable_mem (hw : w ∈ g.keywords.words c) :
    GrammarError.unmatchableWord w c ∈ g.problems ↔ g.identifier.matchesFully w = false := by
  have hall : c ∈ WordClass.all := by cases c <;> decide
  simp only [problems, List.mem_append, List.mem_flatMap, List.mem_map, List.mem_filter, Bool.not_eq_true',
    GrammarError.unmatchableWord.injEq]
  constructor
  · rintro (((h | h) | ⟨⟨v, d, e⟩, -, h⟩) | ⟨d, -, v, ⟨-, h⟩, rfl, -⟩)
    · split at h <;> simp at h
    · split at h <;> simp at h
    · cases h
    · exact h
  · exact fun h => .inr ⟨c, hall, w, ⟨hw, h⟩, rfl, rfl⟩

/-- **When a listed word is reported.** One that is not empty is reported exactly if no gap of a text holds it
apart. So a report says exactly that no gap holds the word if the word is not an empty one that the pattern
matches, and is held apart if it is held at all; the second is so whenever the pattern has no anchors. -/
theorem unmatchable_iff (hw : w ∈ g.keywords.words c) :
    (w ≠ "" → (GrammarError.unmatchableWord w c ∈ g.problems ↔ ¬ g.ProducesApart w)) ∧
    ((GrammarError.unmatchableWord w c ∈ g.problems ↔ ¬ g.Produces w) ↔
      (w = "" → g.identifier.matchesFully w = false) ∧ (g.Produces w → g.ProducesApart w)) ∧
    (g.identifier.expr.anchors = [] → w ≠ "" →
      (GrammarError.unmatchableWord w c ∈ g.problems ↔ ¬ g.Produces w)) := by
  have hapart : w ≠ "" → (g.identifier.matchesFully w = true ↔ g.ProducesApart w) := by
    intro hne
    refine ⟨fun h => apart_of_matchesFully h hne, ?_⟩
    rintro ⟨source, p, q, -, -, s, hs, rfl, h⟩
    exact matchesFully_of_apart hs h
  rw [unmatchable_mem hw, ← Bool.not_eq_true]
  have hreport : w ≠ "" → (¬ g.identifier.matchesFully w = true ↔ ¬ g.ProducesApart w) := fun hne =>
    not_congr (hapart hne)
  have hproduces := fun h : g.ProducesApart w => h.produces
  refine ⟨hreport, ?_, fun ha hne => ?_⟩
  · by_cases hempty : w = ""
    · subst hempty
      have hnone := not_produces_empty (g := g)
      tauto
    · have hreport := hapart hempty
      tauto
  · have hiff : g.ProducesApart w ↔ g.Produces w := ⟨hproduces, fun h => h.apart ha⟩
    rw [hreport hne, hiff]

/-- Words of small letters, and what an apostrophe after a word joins to it. -/
def clitics : Grammar :=
  { (default : Grammar) with
    identifier := ⟨"[a-z]+|\\b'[a-z]+", .alt (.rep (.one (.range 'a' 'z')) 1 none true)
      (.seq (.seq (.anchor (.wordEdge false)) (.one (.single '\''))) (.rep (.one (.range 'a' 'z')) 1 none true))⟩
    keywords := .ofWords ["it", "'s"] [] [] }

theorem read_clitics : (Expr.read clitics.identifier.source).toOption = some clitics.identifier.expr := by
  decide +kernel

/-- A word that is matched alone stands apart in a text, though the pattern has an anchor. -/
theorem it_matchable : "it" ∈ clitics.keywords.words .keyword ∧
    GrammarError.unmatchableWord "it" .keyword ∉ clitics.problems ∧ clitics.ProducesApart "it" := by
  have hlisted : "it" ∈ clitics.keywords.words .keyword := by decide +kernel
  have hunreported : GrammarError.unmatchableWord "it" .keyword ∉ clitics.problems := by decide +kernel
  exact ⟨hlisted, hunreported, Classical.not_not.1
    fun h => hunreported (((unmatchable_iff hlisted).1 (by decide)).2 h)⟩

/-- A word that is reported, and is a word of a text: nothing matches it without a word before it. -/
theorem clitic_unmatchable : (Expr.read clitics.identifier.source).toOption = some clitics.identifier.expr ∧
    "'s" ∈ clitics.keywords.words .keyword ∧
    GrammarError.unmatchableWord "'s" .keyword ∈ clitics.problems ∧ clitics.Produces "'s" := by
  have hwords : (wordsIn clitics (.start "it's".toList) (Place.start "it's".toList).finish).map (·.text) =
      ["it", "'s"] := by decide +kernel
  have hmem : "'s" ∈ (wordsIn clitics (.start "it's".toList) (Place.start "it's".toList).finish).map (·.text) :=
    hwords ▸ by decide
  obtain ⟨s, hs, htext⟩ := List.mem_map.1 hmem
  exact ⟨read_clitics, by decide +kernel, by decide +kernel, "it's", _, _, .refl _, .finish _, s, hs, htext⟩

end Grammar

end Lexicolor
