/-
Where a body ends, and where its tokens lie. A run ends at a match of the end pattern, with all
its tokens before that match; or it ends with the text, no end having been found from the place
of its last turn on (`Runs.ends`). The tokens of every turn lie between its place and the next:
words up to what comes next, then a rule's token, or the title, which is cut where the end of its
parent begins (`titleToken_cases`).
-/
import Lexicolor.Proofs.Tiling

namespace Lexicolor.Scan

open Text Regex

variable {g : Grammar} {body : Body} {as : List Alternative} {p q : Place} {title : Option TitleRule}

/-- The words of a body lie in their gap. -/
theorem bodyWords_nested (g : Grammar) (body : Body) (h : p.Reaches q) : Nested p.offset (bodyWords g body p q) q.offset := by
  unfold bodyWords
  split
  · exact h.offset_le
  · next table _ => exact listedWords_nested table h

theorem earlier_eq (p q : Place) : earlier p q = p ∨ earlier p q = q := by
  unfold earlier
  split <;> simp

theorem earlier_le (p q : Place) : (earlier p q).offset ≤ q.offset := by
  unfold earlier
  split <;> omega

/-- **The title** is left out when it is empty; else it lies between its match and the place
where the scan goes on, which may be before the end of the match. -/
theorem titleToken_cases {t : TitleRule} {m : Match} {finish : Option Match}
    (hm : t.pattern.findFrom p = some m) (hf : ∀ e, finish = some e → p.Reaches e.start)
    (hl : leads m finish = true) :
    (titleToken t m finish).1 = [] ∨ ∃ s : Span, (titleToken t m finish).1 = [.ofSpan .title s []] ∧
      m.start.Reaches s.start ∧ s.start.Reaches s.stop ∧ s.start.offset < s.stop.offset ∧
      s.stop.offset ≤ (titleToken t m finish).2.offset := by
  obtain ⟨hp, hi, -⟩ := Pattern.findFrom_ahead hm
  obtain ⟨h1, h2, h3⟩ := hi.group "title"
  unfold titleToken
  cases h : finish.filter fun e => t.endsWithParent && e.start.offset < m.stop.offset with
  | none =>
    simp only
    split
    · next hlt => exact .inr ⟨_, rfl, h1, h2, hlt, h3.offset_le⟩
    · exact .inl rfl
  | some e =>
    have he : finish = some e := (Option.filter_eq_some_iff.1 h).1
    -- The end begins at or after the title's match, so the cut is a place inside the match.
    have hme : m.start.Reaches e.start := hp.linear (hf e he) (by simpa [leads, he] using hl)
    have hstop : m.start.Reaches (earlier (m.group "title").stop e.start) := by
      rcases earlier_eq (m.group "title").stop e.start with h | h
      · rw [h]
        exact h1.trans h2
      · rw [h]
        exact hme
    simp only
    split
    · next hlt => exact .inr ⟨_, rfl, h1, h1.linear hstop (Nat.le_of_lt hlt), hlt, earlier_le _ _⟩
    · exact .inl rfl

theorem titleToken_nested {t : TitleRule} {m : Match} {finish : Option Match}
    (hm : t.pattern.findFrom p = some m) (hf : ∀ e, finish = some e → p.Reaches e.start)
    (hl : leads m finish = true) :
    Nested m.start.offset (titleToken t m finish).1 (titleToken t m finish).2.offset := by
  rcases titleToken_cases hm hf hl with h | ⟨s, h, h1, -, hlt, hle⟩
  · rw [h]
    rcases titleToken_stop t m finish with hs | ⟨e, he, hs⟩
    · rw [hs]
      exact (Pattern.findFrom_ahead hm).2.1.reaches.offset_le
    · rw [hs]
      simpa [leads, he, Nested] using hl
  · rw [h]
    exact ⟨h1.offset_le, hlt, hle⟩

/-- How a body ends that stood at a place: at a match of its end pattern, which is not empty and
which its tokens do not touch; or with the text, and then there is a place from which the end
pattern finds nothing and which none of its tokens runs across. -/
inductive Ends (finish : Pattern) (p : Place) (ts : List Token) : Place → Prop
  | closed {e : Match} (ahead : p.Reaches e.start) (found : finish.matchHere e.start = some e)
      (tokens : Nested p.offset ts e.start.offset) : Ends finish p ts e.stop
  | open_ {r : Place} {before after : List Token} (ahead : p.Reaches r)
      (none : finish.findFrom r = none) (split : ts = before ++ after)
      (tokens : Nested p.offset before r.offset) (rest : Nested r.offset after p.finish.offset) :
      Ends finish p ts p.finish

/-- Tokens before a place from which a body ends are tokens of the body. -/
theorem Ends.after {finish : Pattern} {ts us : List Token} {last : Place} (h : Ends finish q us last)
    (hpq : p.Reaches q) (hts : Nested p.offset ts q.offset) : Ends finish p (ts ++ us) last := by
  cases h with
  | closed ahead found tokens => exact .closed (hpq.trans ahead) found (hts.append tokens)
  | open_ ahead none split tokens rest =>
    rw [hpq.finish_eq] at rest ⊢
    exact .open_ (hpq.trans ahead) none (by rw [split, List.append_assoc]) (hts.append tokens) rest

theorem Ends.nested {finish : Pattern} {ts : List Token} {last : Place} (h : Ends finish p ts last) :
    Nested p.offset ts last.offset := by
  cases h with
  | closed ahead found tokens =>
    exact tokens.extend (Nat.le_of_lt (Pattern.matchHere_eq_some found).2.2)
  | open_ ahead none split tokens rest => exact split ▸ tokens.append rest

/-- The token of a candidate that is due, if there is one, lies between the candidate's match
and the place where the candidate ends. -/
theorem Alternative.Covers.nested {c : Candidate} (hc : c.alternative.Covers)
    (ha : c.alternative.Advances) (hf : c.alternative.begin_.findFrom p = some c.found) :
    Nested c.found.start.offset (c.alternative.apply c.found.span).1.toList
      (c.alternative.apply c.found.span).2.offset := by
  obtain ⟨-, -, hlt⟩ := Pattern.findFrom_ahead hf
  have hle := (ha c.found.span).offset_le
  have hpos : c.found.start.offset < (c.alternative.apply c.found.span).2.offset :=
    Nat.lt_of_lt_of_le hlt hle
  cases ht : (c.alternative.apply c.found.span).1 with
  | none => exact Nat.le_of_lt hpos
  | some t =>
    obtain ⟨scope, children, rfl⟩ := hc _ _ ht
    exact ⟨Nat.le_refl _, hpos, Nat.le_refl _⟩

/-- **How a run ends**, and that its tokens lie in it in order. -/
theorem Runs.ends (ha : ∀ a ∈ as, a.Advances) (hc : ∀ a ∈ as, a.Covers) {ts : List Token} {last : Place}
    (h : Runs g body as p title ts last) : Ends body.finish p ts last := by
  induction h with
  | @nothing p title h =>
    exact .open_ (.refl p) (Body.event_nothing h) (List.nil_append _).symm (Nat.le_refl _)
      (bodyWords_nested g body (.finish p))
  | finish h =>
    obtain ⟨h1, h2, -⟩ := Pattern.findFrom_eq_some_iff.1 (Body.event_finish h)
    exact .closed h1 h2 (bodyWords_nested g body h1)
  | rule h _ ih =>
    obtain ⟨hmem, hf⟩ := Body.event_rule h
    have hwords := bodyWords_nested g body (Pattern.findFrom_ahead hf).1
    exact ih.after ((ha _ hmem).passes hf).1 (hwords.append ((hc _ hmem).nested (ha _ hmem) hf))
  | title h _ ih =>
    obtain ⟨-, hf, hl⟩ := Body.event_title h
    have hwords := bodyWords_nested g body (Pattern.findFrom_ahead hf).1
    exact ih.after (titleToken_reaches hf) (hwords.append
      (titleToken_nested hf (fun e he => (Pattern.findFrom_ahead he).1) hl))

/-- Whatever holds of the words of a body, of what its rules make and of its title holds of all
its tokens. -/
theorem Runs.all {P : Token → Prop} {origin : Place} (ha : ∀ a ∈ as, a.Advances)
    (words : ∀ p q, origin.Reaches p → p.Reaches q → ∀ t ∈ bodyWords g body p q, P t)
    (rules : ∀ a ∈ as, ∀ m, origin.Reaches m.start → a.begin_.matchHere m.start = some m →
      ∀ t, (a.apply m.span).1 = some t → P t)
    {ts : List Token} {last : Place} (h : Runs g body as p title ts last) (hp : origin.Reaches p)
    (titles : ∀ r, title = some r → ∀ s : Span, origin.Reaches s.start → s.start.Reaches s.stop →
      P (.ofSpan .title s [])) : ∀ t ∈ ts, P t := by
  induction h with
  | nothing => exact words _ _ hp (.finish _)
  | finish h => exact words _ _ hp (Pattern.findFrom_ahead (Body.event_finish h)).1
  | rule h _ ih =>
    obtain ⟨hmem, hf⟩ := Body.event_rule h
    obtain ⟨h1, h2, -⟩ := Pattern.findFrom_eq_some_iff.1 hf
    intro t ht
    simp only [List.mem_append, Option.mem_toList, or_assoc] at ht
    rcases ht with ht | ht | ht
    · exact words _ _ hp h1 t ht
    · exact rules _ hmem _ (hp.trans h1) h2 t ht
    · exact ih (hp.trans ((ha _ hmem).passes hf).1) titles t ht
  | title h _ ih =>
    obtain ⟨htitle, hf, hl⟩ := Body.event_title h
    have h1 := (Pattern.findFrom_ahead hf).1
    intro t ht
    simp only [List.mem_append, or_assoc] at ht
    rcases ht with ht | ht | ht
    · exact words _ _ hp h1 t ht
    · rcases titleToken_cases hf (fun e he => (Pattern.findFrom_ahead he).1) hl with hn | ⟨s, hs, h2, h3, -⟩
      · rw [hn] at ht
        cases ht
      · rw [hs] at ht
        exact List.mem_singleton.1 ht ▸ titles _ htitle s (hp.trans (h1.trans h2)) h3
    · exact ih (hp.trans (titleToken_reaches hf)) (fun r hr => by cases hr) t ht

end Lexicolor.Scan
