/-
The words of a gap, which is cut out of its text, and the words of all that follows the beginning of
the gap. A step ends its gap where no word of the text that follows runs across (`gapEnd_whole`); so the
words of the gap are those of that text that end in it, unless an anchor of the identifier pattern tells
the end of the gap from the end of a text (`step_words`). When one does, the last word of the gap can be
cut short (`step_cuts_word`).
-/
import Lexicolor.Proofs.CutWays
import Lexicolor.Proofs.Nesting
import Lexicolor.Proofs.Splitting

namespace Lexicolor

open Text Regex

/-! ## Searches in a text that is cut off -/

namespace Text.Place

variable {p q r : Place}

theorem upTo_pass {as bs : List Char} (hr : p.rest = as ++ (bs ++ q.rest)) (hq : q.offset = p.offset + bytes (as ++ bs)) :
    (p.upTo q).rest = as ++ bs ∧ (p.pass as (bs ++ q.rest)).upTo q = (p.upTo q).pass as bs := by
  have hrest : p.charsTo q = as ++ bs := charsTo_eq (by rw [hr, List.append_assoc]) hq
  have hlater : (p.pass as (bs ++ q.rest)).charsTo q = bs :=
    charsTo_eq rfl (by rw [hq, bytes_append, pass_eq, Nat.add_assoc])
  refine ⟨hrest, ?_⟩
  rw [upTo, hlater]
  rfl

theorem Reaches.upTo (h : p.Reaches r) (h' : r.Reaches q) : (p.upTo q).Reaches (r.upTo q) := by
  obtain ⟨as, hp, hr⟩ := h
  obtain ⟨bs, hrest, hq⟩ := h'
  rw [hrest] at hp hr
  have hoffset : q.offset = p.offset + bytes (as ++ bs) := by
    rw [hq, hr, bytes_append]
    simp only [pass_eq, Nat.add_assoc]
  obtain ⟨hchars, hpass⟩ := upTo_pass hp hoffset
  rw [hr, hpass]
  exact .pass hchars

/-- The places of a text that is cut off are those of the whole text before the cut. -/
theorem reaches_upTo (hp : p.Reaches q) (h : (p.upTo q).Reaches r) : ∃ s, p.Reaches s ∧ s.Reaches q ∧ r = s.upTo q := by
  obtain ⟨as, has, hr⟩ := h
  have hsplit : p.rest = as ++ (r.rest ++ q.rest) := by
    rw [hp.rest_eq, ← List.append_assoc, ← has]
    rfl
  have hoffset : q.offset = p.offset + bytes (as ++ r.rest) := by
    rw [hp.offset_eq, ← has]
    rfl
  have hs : p.Reaches (p.pass as (r.rest ++ q.rest)) := .pass hsplit
  refine ⟨_, hs, hs.linear hp ?_, hr.trans (upTo_pass hsplit hoffset).2.symm⟩
  rw [hoffset, bytes_append, pass_eq]
  exact Nat.add_le_add_left (Nat.le_add_right ..) _

end Text.Place

namespace Regex.Expr

variable {e : Expr} {accept : Match → Bool} {p q : Place} {m : Match}

/-- A match that is not accepted is empty, and a match is accepted in the text that is cut off as in the
whole text. -/
structure Takes (accept : Match → Bool) : Prop where
  isEmpty : ∀ m, accept m = false → m.isEmpty = true
  upTo : ∀ m q, accept (Match.upTo m q) = accept m

theorem filter_upTo_none (ha : ∀ a ∈ e.anchors, a.Steady q) (hacc : Takes accept) (hp : p.Reaches q)
    (h : (e.matchAt p).filter accept = none) : (e.matchAt (p.upTo q)).filter accept = none := by
  cases hm : e.matchAt p with
  | none => rw [matchAt_upTo_none ha hp hm]; rfl
  | some m =>
    rw [hm] at h
    have hreject : accept m = false := by
      by_contra hne
      rw [Option.filter_some, if_pos (by simpa using hne)] at h
      cases h
    have hstop : m.stop.offset = p.offset := by
      have hempty := hacc.isEmpty m hreject
      simp only [Match.isEmpty, Span.isEmpty, beq_iff_eq] at hempty
      rw [← (matchAt_inside hm).1]
      exact hempty.symm
    rw [matchAt_upTo_some ha hp hm (hstop ▸ hp.offset_le), Option.filter_some, hacc.upTo, hreject]
    rfl

/-- What is found before the cut and ends there is found in the text that is cut off. -/
theorem search_upTo_some (ha : ∀ a ∈ e.anchors, a.Steady q) (hacc : Takes accept) (hp : p.Reaches q)
    (h : e.search accept p = some m) (hle : m.stop.offset ≤ q.offset) :
    e.search accept (p.upTo q) = some (m.upTo q) := by
  obtain ⟨h1, h2, h3⟩ := search_eq_some h
  obtain ⟨hm, htake⟩ := Option.filter_eq_some_iff.1 h2
  have hq := h1.linear hp (Nat.le_trans (matchAt_inside hm).2.reaches.offset_le hle)
  refine search_eq_some_iff.2 ⟨h1.upTo hq, ?_, fun r hr hlt => ?_⟩
  · have hsome : e.matchAt (m.start.upTo q) = some (m.upTo q) := matchAt_upTo_some ha hq hm hle
    exact Option.filter_eq_some_iff.2 ⟨hsome, (hacc.upTo m q).trans htake⟩
  · obtain ⟨s, hs, hsq, rfl⟩ := Place.reaches_upTo hp hr
    exact filter_upTo_none ha hacc hsq (h3 s hs hlt)

/-- If nothing is found before the cut, nothing is in the text that is cut off, but at its end. -/
theorem search_upTo_end (ha : ∀ a ∈ e.anchors, a.Steady q) (hacc : Takes accept) (hp : p.Reaches q)
    (h : ∀ m, e.search accept p = some m → q.offset ≤ m.start.offset) {m : Match}
    (hm : e.search accept (p.upTo q) = some m) : m.start = q.upTo q := by
  obtain ⟨h1, h2, -⟩ := search_eq_some hm
  obtain ⟨s, hs, hsq, hstart⟩ := Place.reaches_upTo hp h1
  by_cases hlt : s.offset < q.offset
  · have hnone : (e.matchAt s).filter accept = none := by
      cases hf : e.search accept p with
      | none => exact search_eq_none_iff.1 hf s hs
      | some f => exact (search_eq_some hf).2.2 s hs (Nat.lt_of_lt_of_le hlt (h f hf))
    rw [hstart, filter_upTo_none ha hacc hsq hnone] at h2
    cases h2
  · rw [hstart, hsq.eq_of_offset_eq (Nat.le_antisymm hsq.offset_le (Nat.le_of_not_lt hlt))]

end Regex.Expr

/-! ## Successive matches in a text that is cut off -/

namespace Pattern

variable {pattern : Pattern} {p q : Place} {fresh : Bool} {m : Match}

/-- The search for the next of successive matches. -/
abbrev nextMatch (pattern : Pattern) (fresh : Bool) (p : Place) : Option Match :=
  pattern.expr.search (fun m => fresh || !m.isEmpty || m.start.offset != p.offset) p

theorem matchesFrom_none {n : Nat} (h : pattern.nextMatch fresh p = none) : pattern.matchesFrom (n + 1) fresh p = [] := by
  rw [matchesFrom, show pattern.expr.search _ p = none from h]

theorem matchesFrom_some {n : Nat} (h : pattern.nextMatch fresh p = some m) :
    pattern.matchesFrom (n + 1) fresh p = m :: pattern.matchesFrom n false m.stop := by
  rw [matchesFrom, show pattern.expr.search _ p = some m from h]

theorem nextMatch_takes (fresh : Bool) (p : Place) :
    Expr.Takes fun m : Match => fresh || !m.isEmpty || m.start.offset != p.offset where
  isEmpty m h := by
    simp only [Bool.or_eq_false_iff, Bool.not_eq_false'] at h
    exact h.1.2
  upTo m q := rfl

/-- Whatever comes after a match leaves less text than it did, unless it is the first. -/
theorem nextMatch_length (h : pattern.nextMatch fresh p = some m) :
    m.stop.rest.length + 1 ≤ p.rest.length + fresh.toNat := by
  obtain ⟨h1, h2, -⟩ := Expr.search_eq_some h
  obtain ⟨hm, htake⟩ := Option.filter_eq_some_iff.1 h2
  have hstop := h1.trans (Expr.matchAt_inside hm).2.reaches
  cases fresh with
  | true => exact Nat.succ_le_succ hstop.length_le
  | false =>
    refine hstop.length_lt ?_
    have hle := h1.offset_le
    simp only [Bool.false_or, Bool.or_eq_true, Bool.not_eq_true', bne_iff_ne] at htake
    rcases htake with hne | hne
    · exact Nat.lt_of_le_of_lt hle ((Expr.matchAt_inside hm).2.offset_lt hne)
    · have := (Expr.matchAt_inside hm).2.reaches.offset_le
      omega

/-- Successive matches are found with one unit of fuel for each character that follows and one more, or two
if no match came before. -/
theorem matchesFrom_enough : ∀ {m n : Nat} {fresh : Bool} {p : Place}, p.rest.length + fresh.toNat < m →
    p.rest.length + fresh.toNat < n → pattern.matchesFrom m fresh p = pattern.matchesFrom n fresh p
  | 0, _, _, _, hm, _ => absurd hm (Nat.not_lt_zero _)
  | _, 0, _, _, _, hn => absurd hn (Nat.not_lt_zero _)
  | m + 1, n + 1, fresh, p, hm, hn => by
    rw [matchesFrom, matchesFrom]
    split
    · rfl
    · next f hf =>
      have := nextMatch_length hf
      rw [matchesFrom_enough (m := m) (n := n) (by simp only [Bool.toNat_false]; omega)
        (by simp only [Bool.toNat_false]; omega)]

/-- At the end of a text all matches are empty. -/
theorem matchesFrom_end (hp : p.rest = []) (n : Nat) : ∀ m ∈ pattern.matchesFrom n fresh p, m.isEmpty = true := by
  intro m hm
  obtain ⟨h1, h2⟩ := (matchesFrom_successive pattern n fresh p).mem (List.mem_map_of_mem hm)
  have hstart := h1.eq_of_rest_nil hp
  have hstop := h2.eq_of_rest_nil (hstart ▸ hp)
  simp only [Match.isEmpty, Span.isEmpty, hstop, beq_self_eq_true]

/-- The matches that are not empty and end no later than a place, in the text that is cut off there. -/
def wordsUpTo (q : Place) (ms : List Match) : List Match :=
  (ms.filter fun m => !m.isEmpty && m.stop.offset ≤ q.offset).map (·.upTo q)

theorem wordsUpTo_cons (q : Place) (m : Match) (ms : List Match) : wordsUpTo q (m :: ms) =
    if !m.isEmpty && m.stop.offset ≤ q.offset then m.upTo q :: wordsUpTo q ms else wordsUpTo q ms := by
  rw [wordsUpTo, List.filter_cons]
  split <;> rfl

theorem filter_later {ms : List Match} (h : ∀ m ∈ ms, q.offset ≤ m.start.offset ∧ m.start.Reaches m.stop) :
    ms.filter (fun m => !m.isEmpty && m.stop.offset ≤ q.offset) = [] := by
  refine List.filter_eq_nil_iff.2 fun m hm htake => ?_
  simp only [Bool.and_eq_true, Bool.not_eq_true', decide_eq_true_eq] at htake
  obtain ⟨hle, hreach⟩ := h m hm
  have hlt : m.start.offset < m.stop.offset := Span.offset_lt hreach htake.1
  omega

/-- If the next match does not begin before the cut, none ends there without being empty. -/
theorem wordsUpTo_later (h : ∀ m, pattern.nextMatch fresh p = some m → q.offset ≤ m.start.offset) (n : Nat) :
    wordsUpTo q (pattern.matchesFrom n fresh p) = [] := by
  have hsuccessive := matchesFrom_successive pattern n fresh p
  cases n with
  | zero => rfl
  | succ n =>
    cases hm : pattern.nextMatch fresh p with
    | none =>
      rw [matchesFrom_none hm]
      rfl
    | some m =>
      rw [matchesFrom_some hm] at hsuccessive ⊢
      rw [wordsUpTo, filter_later, List.map_nil]
      intro f hf
      rcases List.mem_cons.1 hf with rfl | hf
      · exact ⟨h f hm, hsuccessive.2.1⟩
      · obtain ⟨h1, h2⟩ := hsuccessive.2.2.mem (List.mem_map_of_mem hf)
        exact ⟨Nat.le_trans (h m hm) (hsuccessive.2.1.trans h1).offset_le, h2⟩

/-- If the next match does not begin before the cut, the matches in the text that is cut off are all empty. -/
theorem matchesFrom_upTo_later (ha : ∀ a ∈ pattern.expr.anchors, a.Steady q) (hp : p.Reaches q)
    (h : ∀ m, pattern.nextMatch fresh p = some m → q.offset ≤ m.start.offset) (n : Nat) :
    (pattern.matchesFrom n fresh (p.upTo q)).filter (!·.isEmpty) = [] := by
  have hsuccessive := matchesFrom_successive pattern n fresh (p.upTo q)
  cases n with
  | zero => rfl
  | succ n =>
    cases hm : pattern.nextMatch fresh (p.upTo q) with
    | none =>
      rw [matchesFrom_none hm]
      rfl
    | some m =>
      have hstart := Expr.search_upTo_end ha (nextMatch_takes fresh p) hp h hm
      have hrest : m.start.rest = [] := by rw [hstart, Place.upTo_self]
      rw [matchesFrom_some hm] at hsuccessive ⊢
      have hstop := hsuccessive.2.1.eq_of_rest_nil hrest
      refine List.filter_eq_nil_iff.2 fun f hf => ?_
      have hempty : f.isEmpty = true := by
        rcases List.mem_cons.1 hf with rfl | hf
        · simp only [Match.isEmpty, Span.isEmpty, hstop, beq_self_eq_true]
        · exact matchesFrom_end ((congrArg Place.rest hstop).trans hrest) n f hf
      simp [hempty]

/-- **Successive matches in a text that is cut off** are those of the whole text that end in it, if none of
these begins before the cut and runs across it. -/
theorem matchesFrom_upTo (ha : ∀ a ∈ pattern.expr.anchors, a.Steady q) : ∀ {n : Nat} {fresh : Bool} {p : Place},
    p.Reaches q → (∀ m ∈ pattern.matchesFrom n fresh p, m.start.offset < q.offset → m.stop.offset ≤ q.offset) →
    (pattern.matchesFrom n fresh (p.upTo q)).filter (!·.isEmpty) = wordsUpTo q (pattern.matchesFrom n fresh p)
  | 0, _, _, _, _ => rfl
  | n + 1, fresh, p, hp, hcross => by
    by_cases hsome : ∃ m, pattern.nextMatch fresh p = some m ∧ m.start.offset < q.offset
    · obtain ⟨m, hm, hlt⟩ := hsome
      have hsuccessive := matchesFrom_successive pattern (n + 1) fresh p
      rw [matchesFrom_some hm] at hcross hsuccessive ⊢
      have hle := hcross m List.mem_cons_self hlt
      have hcut : pattern.nextMatch fresh (p.upTo q) = some (m.upTo q) :=
        Expr.search_upTo_some ha (nextMatch_takes fresh p) hp hm hle
      have hstop : m.stop.Reaches q := (hsuccessive.1.trans hsuccessive.2.1).linear hp hle
      have ih : (pattern.matchesFrom n false (m.upTo q).stop).filter (!·.isEmpty) =
          wordsUpTo q (pattern.matchesFrom n false m.stop) :=
        matchesFrom_upTo ha hstop fun f hf => hcross f (List.mem_cons_of_mem m hf)
      have hempty : (m.upTo q).isEmpty = m.isEmpty := rfl
      rw [matchesFrom_some hcut, wordsUpTo_cons, List.filter_cons, hempty, ih]
      simp only [hle, decide_true, Bool.and_true]
    · have hlater : ∀ m, pattern.nextMatch fresh p = some m → q.offset ≤ m.start.offset := fun m hm =>
        Nat.le_of_not_lt fun hlt => hsome ⟨m, hm, hlt⟩
      rw [wordsUpTo_later hlater, matchesFrom_upTo_later ha hp hlater]

theorem allMatches_upTo (ha : ∀ a ∈ pattern.expr.anchors, a.Steady q) (hp : p.Reaches q)
    (hcross : ∀ m ∈ pattern.allMatches p, m.start.offset < q.offset → m.stop.offset ≤ q.offset) :
    (pattern.allMatches (p.upTo q)).filter (!·.isEmpty) = wordsUpTo q (pattern.allMatches p) := by
  have hlength : (p.upTo q).rest.length ≤ p.rest.length := Place.upTo_length_le p q
  have hfuel : pattern.allMatches (p.upTo q) = pattern.matchesFrom (p.rest.length + 2) true (p.upTo q) :=
    matchesFrom_enough (by simp only [Bool.toNat_true]; omega) (by simp only [Bool.toNat_true]; omega)
  rw [hfuel]
  exact matchesFrom_upTo ha hp hcross

end Pattern

/-- What stands before one of successive spans ends before it, and what stands after it begins after it. -/
theorem Successive.split : ∀ {p : Place} {ss : List Span} {s : Span} {after : List Span}, Successive p (ss ++ s :: after) →
    (∀ r ∈ ss, r.stop.Reaches s.start) ∧ s.start.Reaches s.stop ∧ Successive s.stop after
  | _, [], _, _, ⟨_, h2, h3⟩ => ⟨fun _ hr => (List.not_mem_nil hr).elim, h2, h3⟩
  | _, r :: ss, s, after, ⟨_, _, h3⟩ => by
    obtain ⟨hbefore, hs, hafter⟩ := h3.split
    refine ⟨fun v hv => ?_, hs, hafter⟩
    rcases List.mem_cons.1 hv with rfl | hv
    · exact (h3.mem (by simp)).1
    · exact hbefore v hv

namespace Scan

variable {g : Grammar} {as : List Alternative} {p q at_ stop : Place} {source : String}

/-! ## Gaps -/

/-- The tokens of a gap that are not plain are those of its words. -/
theorem fillGap_words (g : Grammar) (to_ : Place) : ∀ (p : Place) (ws : List Span),
    (fillGap g to_ p ws).filter (·.scope ≠ .plain) = ws.map fun w => .ofSpan (g.wordScope w.text) w []
  | p, [] => by
    unfold fillGap
    split <;> simp
  | p, w :: ws => by
    have ih := fillGap_words g to_ w.stop ws
    have hword : (Token.ofSpan (g.wordScope w.text) w []).scope ≠ .plain := wordScope_ne_plain g w.text
    unfold fillGap
    simp only
    split
    · rw [List.filter_cons_of_neg (by simp), List.filter_cons_of_pos (by exact decide_eq_true hword), ih, List.map_cons]
    · rw [List.filter_cons_of_pos (by exact decide_eq_true hword), ih, List.map_cons]

/-- Every word of a gap is one of its tokens. -/
theorem word_mem_gapTokens {w : Span} (h : w ∈ wordsIn g p q) :
    Token.ofSpan (g.wordScope w.text) w [] ∈ gapTokens g p q := by
  have hmem := List.mem_map_of_mem (f := fun w => Token.ofSpan (g.wordScope w.text) w []) h
  rw [← fillGap_words g q (p.cut q)] at hmem
  exact (List.mem_filter.1 hmem).1

/-- The ranges of the tokens that are not plain. -/
def wordRanges (ts : List Token) : List (Nat × Nat) := (ts.filter (·.scope ≠ .plain)).map fun t => (t.start, t.stop)

/-- The ranges of the matches that are not empty and end no later than a place. -/
def rangesUpTo (q : Place) (ms : List Match) : List (Nat × Nat) :=
  (ms.filter fun m => !m.isEmpty && m.stop.offset ≤ q.offset).map fun m => (m.start.offset, m.stop.offset)

/-- **The words of a gap** are those of the text that follows its beginning and end in it, if none of these runs
across its end, and no anchor tells that from the end of a text. -/
theorem gapTokens_words (ha : ∀ a ∈ g.identifier.expr.anchors, a.Steady q) (hpq : p.Reaches q)
    (hcross : ∀ m ∈ wordsAhead g p, m.start.offset < q.offset → m.stop.offset ≤ q.offset) :
    wordRanges (gapTokens g p q) = rangesUpTo q (wordsAhead g p) := by
  by_cases hlt : p.offset < q.offset
  · have hreach : Place.Reaches ⟨p.offset, none, p.rest⟩ q := by
      obtain ⟨cs, hr, hq⟩ := hpq
      have hne : cs ≠ [] := by
        rintro rfl
        rw [hq, Place.pass_eq] at hlt
        exact absurd hlt (Nat.lt_irrefl _)
      exact ⟨cs, hr, hq.trans (Place.pass_of_ne_nil hne).symm⟩
    have hwords := Pattern.allMatches_upTo ha hreach hcross
    have hcut : p.cut q = Place.upTo ⟨p.offset, none, p.rest⟩ q := rfl
    rw [wordRanges, rangesUpTo, gapTokens, fillGap_words, wordsIn, hcut, hwords, Pattern.wordsUpTo, List.map_map,
      List.map_map, List.map_map]
    rfl
  · obtain rfl := hpq.eq_of_offset_eq (Nat.le_antisymm hpq.offset_le (Nat.le_of_not_lt hlt))
    rw [gapTokens_self, rangesUpTo, Pattern.filter_later]
    · rfl
    · intro m hm
      obtain ⟨h1, h2⟩ := (Pattern.allMatches_successive g.identifier _).mem (List.mem_map_of_mem hm)
      exact ⟨h1.offset_le, h2⟩

/-! ## Where a gap ends -/

/-- Where the gap of a step ends: after a word that runs into the rule that is due, else where the rule begins,
or with the text. -/
def gapEnd (g : Grammar) (as : List Alternative) (p : Place) : Place :=
  match due as p with
  | none => p.finish
  | some c => (wordAcross g p c.found.start).getD c.found.start

theorem gapEnd_reaches (g : Grammar) (as : List Alternative) (p : Place) : p.Reaches (gapEnd g as p) := by
  unfold gapEnd
  cases hd : due as p with
  | none => exact .finish p
  | some c =>
    have hreach := (Pattern.findFrom_ahead (due_mem hd).2).1
    simp only
    cases hw : wordAcross g p c.found.start with
    | none => exact hreach
    | some stop => exact (wordAcross_reaches hw hreach).1

/-- **No word runs across the end of a gap.** -/
theorem gapEnd_whole : ∀ m ∈ wordsAhead g p, m.start.offset < (gapEnd g as p).offset →
    m.stop.offset ≤ (gapEnd g as p).offset := by
  have hsuccessive : Successive ⟨p.offset, none, p.rest⟩ ((wordsAhead g p).map (·.span)) :=
    Pattern.allMatches_successive g.identifier _
  intro m hm
  unfold gapEnd
  cases hd : due as p with
  | none =>
    obtain ⟨h1, h2⟩ := hsuccessive.mem (List.mem_map_of_mem hm)
    exact fun _ => (h1.trans h2).finish_offset
  | some c =>
    simp only
    cases hw : wordAcross g p c.found.start with
    | none => exact wordAcross_none hw (List.mem_map_of_mem hm)
    | some stop =>
      obtain ⟨f, hf, -, -, rfl⟩ := wordAcross_mem hw
      obtain ⟨before, after, hsplit⟩ := List.append_of_mem hf
      intro hlt
      rw [hsplit, List.map_append, List.map_cons] at hsuccessive
      rw [hsplit] at hm
      obtain ⟨hbefore, hf, hafter⟩ := hsuccessive.split
      rcases List.mem_append.1 hm with hm | hm
      · exact ((hbefore _ (List.mem_map_of_mem hm)).trans hf).offset_le
      · rcases List.mem_cons.1 hm with rfl | hm
        · exact Nat.le_refl _
        · have hle : f.stop.offset ≤ m.start.offset := (hafter.mem (List.mem_map_of_mem hm)).1.offset_le
          exact absurd hlt (Nat.not_lt.2 hle)

namespace Tokens

variable {t : Tokens}

/-- A scan keeps its grammar and its alternatives. -/
theorem after_keeps (h : Covers source t []) : ∀ k, (t.after k).grammar = t.grammar ∧
    (t.after k).alternatives = t.alternatives
  | 0 => ⟨rfl, rfl⟩
  | k + 1 => by
    obtain ⟨hgrammar, halternatives⟩ := after_keeps h k
    have hk := after_covers h k
    rw [after]
    rcases hk.next_cases with ⟨x, rest, hp, hn⟩ | ⟨-, -, x, rest, hp, hn⟩ | ⟨-, -, hn⟩
    · rw [hn]
      exact ⟨hgrammar, halternatives⟩
    · rw [hn, step_eq hk.ready]
      refine ⟨hgrammar, ?_⟩
      simp only [alternatives, Level.alternatives_next]
      exact halternatives
    · rw [hn]
      exact ⟨hgrammar, halternatives⟩

/-- The tokens of a step are those of its gap and then that of the rule, if it takes one. -/
theorem passage_gap (hc : ∀ a ∈ as, a.Covers) (g : Grammar) (p : Place) : ∃ rule : Option Token,
    (passage g as p).1 = gapTokens g p (gapEnd g as p) ++ rule.toList ∧
      ∀ u ∈ rule, u.start = (gapEnd g as p).offset := by
  unfold gapEnd
  rcases passage_cases g as p with ⟨hd, h⟩ | ⟨c, stop, hd, hw, h⟩ | ⟨c, hd, hw, h⟩
  · refine ⟨none, ?_, by simp⟩
    simp only [h, hd, Option.toList_none, List.append_nil]
  · refine ⟨none, ?_, by simp⟩
    simp only [h, hd, hw, Option.getD_some, Option.toList_none, List.append_nil]
  · obtain ⟨scope, children, ht⟩ := (hc _ (due_mem hd).1).token
    refine ⟨some (.ofSpan scope ⟨c.found.start, (c.alternative.apply c.found.span).2⟩ children), ?_, ?_⟩
    · simp only [h, hd, hw, ht, Option.getD_none, Option.toList_some]
    · intro u hu
      cases hu
      simp only [hd, hw, Option.getD_none]
      rfl

/-- **The words of a step.** Every step of a scan makes tokens that tile its gap, and then that of the rule, if it
takes one. Those of the gap that are not plain have the ranges of the words of all that follows the beginning of
the gap, as far as these are not empty and end in the gap; and a word that runs into the rule is one of them. This
is so whenever no anchor of the identifier pattern tells the end of the gap from the end of a text. -/
theorem step_words (g : Grammar) (remember : Bool) (source : String) (k : Nat) :
    let t := (start g remember source).after k
    let as := alternativesFrom g remember 0 g.rules
    let q := gapEnd g as t.place
    (∀ a ∈ g.identifier.expr.anchors, a.Steady q) →
    ∃ (gap : List Token) (rule : Option Token), t.step.pending = t.pending ++ gap ++ rule.toList ∧
      Tiles t.place.offset gap q.offset ∧ (∀ u ∈ rule, u.start = q.offset) ∧
      wordRanges gap = rangesUpTo q (wordsAhead g t.place) ∧
      ∀ c stop, due as t.place = some c → wordAcross g t.place c.found.start = some stop →
        ∃ w ∈ wordsAhead g t.place, w.start.offset < c.found.start.offset ∧ c.found.start.offset < w.stop.offset ∧
          w.stop = stop ∧ (w.start.offset, w.stop.offset) ∈ wordRanges gap := by
  intro t as q ha
  have hstart := start_covers g remember source
  have hcovers := after_covers hstart k
  obtain ⟨hgrammar, halternatives⟩ := after_keeps hstart k
  have hgrammar : t.grammar = g := hgrammar
  have halternatives : t.alternatives = as :=
    halternatives.trans (by simp only [alternatives, start, Level.alternatives_ofAlternatives]; rfl)
  have hc : ∀ a ∈ as, a.Covers := halternatives ▸ hcovers.covers
  obtain ⟨rule, hpassage, hrule⟩ := passage_gap hc g t.place
  have hreach := gapEnd_reaches g as t.place
  have hwords : wordRanges (gapTokens g t.place q) = rangesUpTo q (wordsAhead g t.place) :=
    gapTokens_words ha hreach gapEnd_whole
  refine ⟨gapTokens g t.place q, rule, ?_, gapTokens_tiles hreach, hrule, hwords, fun c stop hd hw => ?_⟩
  · rw [step_eq hcovers.ready]
    simp only
    rw [hgrammar, halternatives, hpassage, List.append_assoc]
  · obtain ⟨w, hmem, hlt, hgt, hstop⟩ := wordAcross_mem hw
    have hend : q.offset = w.stop.offset := by
      simp only [q, gapEnd, hd, hw, hstop, Option.getD_some]
    refine ⟨w, hmem, hlt, hgt, hstop, hwords ▸ List.mem_map.2 ⟨w, List.mem_filter.2 ⟨hmem, ?_⟩, rfl⟩⟩
    have hne : w.span.start.offset ≠ w.span.stop.offset := Nat.ne_of_lt (Nat.lt_trans hlt hgt)
    simp [Match.isEmpty, Span.isEmpty, hend, hne]

/-- Words of small letters that end where an anchor holds, and a rule for the letter b. -/
def smallLetters (written : String) (a : Anchor) : Grammar :=
  { (default : Grammar) with
    identifier := ⟨"[a-z]+" ++ written, .seq (.rep (.one (.range 'a' 'z')) 1 none true) (.anchor a)⟩
    rules := [.lexeme (some .number) (Stock.literal "b")] }

/-- A word that runs into a rule. It ends at the edge of a word, in the gap as in the text. -/
theorem step_words_edge :
    let g := smallLetters "\\b" (.wordEdge false)
    let t := (start g true "abcd e").after 0
    let q := gapEnd g (alternativesFrom g true 0 g.rules) t.place
    (∀ a ∈ g.identifier.expr.anchors, a.Steady q) ∧
    ∃ (gap : List Token) (rule : Option Token), t.step.pending = t.pending ++ gap ++ rule.toList ∧
      wordRanges gap = [(0, 4)] := by
  intro g t q
  have ha : ∀ a ∈ g.identifier.expr.anchors, a.Steady q := by decide +kernel
  obtain ⟨gap, rule, hpending, -, -, hwords, -⟩ := step_words g true "abcd e" 0 ha
  have hranges : rangesUpTo q (wordsAhead g t.place) = [(0, 4)] := by decide +kernel
  exact ⟨ha, gap, rule, hpending, hwords.trans hranges⟩

/-- A word that runs into a rule and is cut short. It ends inside a longer one, which the end of the gap hides:
cut out of the text, its last letter stands before the edge of a word. -/
theorem step_cuts_word :
    let g := smallLetters "\\B" (.noWordEdge false)
    let t := start g true "abcd"
    let as := alternativesFrom g true 0 g.rules
    (due as t.place).map (fun c => (c.found.start.offset, (wordAcross g t.place c.found.start).map (·.offset))) =
      some (1, some 3) ∧
    rangesUpTo (gapEnd g as t.place) (wordsAhead g t.place) = [(0, 3)] ∧
    wordRanges t.step.pending = [(0, 2)] := by
  decide +kernel

end Tokens

end Scan

end Lexicolor
