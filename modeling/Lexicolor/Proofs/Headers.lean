/-
The inside of a header. No rules are nested in it, so its scan takes one turn to the end of the
header, and before that one more at most: the turn that finds the title (`Runs.titled`). A title that
ends with its parent stops where the end of the header begins, so what is found after it is the end
that was found before it (`terminator_later`). So how far a header reaches does not depend on its
title, and the title lies inside (`header_extent`).
-/
import Lexicolor.Grammar.Stock
import Lexicolor.Proofs.Nesting

namespace Lexicolor

open Text Regex

/-- The first match of the pattern, from a place on, that is not empty. -/
def Pattern.FirstFrom (pattern : Pattern) (p : Place) (m : Match) : Prop :=
  p.Reaches m.start ∧ pattern.matchHere m.start = some m ∧
    ∀ q, p.Reaches q → q.offset < m.start.offset → pattern.matchHere q = none

namespace Scan

variable {g : Grammar} {body : Body} {finish : Pattern} {t : TitleRule} {m : Match} {p q last : Place}
  {ts : List Token}

/-- The first match of an end pattern, or the end of the text if there is none. -/
def terminator (finish : Pattern) (p : Place) : Span :=
  match finish.findFrom p with
  | some e => e.span
  | none => ⟨p.finish, p.finish⟩

theorem terminator_of_some {e : Match} (h : finish.findFrom p = some e) : terminator finish p = e.span := by
  rw [terminator, h]

theorem terminator_of_none (h : finish.findFrom p = none) : terminator finish p = ⟨p.finish, p.finish⟩ := by
  rw [terminator, h]

/-- **The end stays where it was found** for all places up to it. -/
theorem terminator_later (h : p.Reaches q) (hle : q.offset ≤ (terminator finish p).start.offset) :
    terminator finish q = terminator finish p := by
  cases hf : finish.findFrom p with
  | none => rw [terminator_of_none hf, terminator_of_none (Pattern.findFrom_none_later hf h), h.finish_eq]
  | some e =>
    rw [terminator_of_some hf] at hle ⊢
    exact terminator_of_some (Pattern.findFrom_later hf h hle)

/-- What leads an end pattern begins no later than the end. -/
theorem leads_terminator (h : leads m (finish.findFrom p) = true) (hp : p.Reaches m.start) :
    m.start.offset ≤ (terminator finish p).start.offset := by
  cases hf : finish.findFrom p with
  | none =>
    rw [terminator_of_none hf]
    exact hp.finish_offset
  | some e =>
    rw [terminator_of_some hf]
    exact leads_iff.1 h e hf

/-! ## Turns -/

/-- The end comes next only if it is found before the title. -/
theorem Event.first_finish_lt_title {rule : Option Candidate} {title : Option (TitleRule × Match)}
    {finish : Option Match} {e : Match} (h : Event.first rule title finish = .finish e)
    (ht : title = some (t, m)) : e.start.offset < m.start.offset := by
  unfold Event.first Event.first.rest Event.first.close leads at h
  grind

/-- Without rules and without a title, the body runs to its end in one turn. -/
theorem Runs.untitled (h : Runs g body [] p none ts last) :
    ts = bodyWords g body p (terminator body.finish p).start ∧ last = (terminator body.finish p).stop := by
  cases h with
  | nothing h =>
    rw [terminator_of_none (Body.event_nothing h)]
    exact ⟨rfl, rfl⟩
  | finish h =>
    rw [terminator_of_some (Body.event_finish h)]
    exact ⟨rfl, rfl⟩
  | rule h => exact absurd (Body.event_rule h).1 List.not_mem_nil
  | title h => cases (Body.event_title h).1

/-- **Without rules**, the body runs to its end in one turn, if no title is found before the end; or
the first turn is that of the title. -/
theorem Runs.titled (h : Runs g body [] p (some t) ts last) :
    (ts = bodyWords g body p (terminator body.finish p).start ∧ last = (terminator body.finish p).stop ∧
      ∀ m, t.pattern.findFrom p = some m → (terminator body.finish p).start.offset < m.start.offset) ∨
    ∃ m inner, t.pattern.findFrom p = some m ∧ leads m (body.finish.findFrom p) = true ∧
      Runs g body [] (titleToken t m (body.finish.findFrom p)).2 none inner last ∧
      ts = bodyWords g body p m.start ++ (titleToken t m (body.finish.findFrom p)).1 ++ inner := by
  cases h with
  | nothing h =>
    obtain ⟨-, htitle, hfinish⟩ := Event.first_eq_nothing h
    left
    rw [terminator_of_none hfinish]
    refine ⟨rfl, rfl, fun m hm => ?_⟩
    rw [Option.bind_some, hm] at htitle
    cases htitle
  | @finish _ _ e h =>
    left
    rw [terminator_of_some (Body.event_finish h)]
    refine ⟨rfl, rfl, fun m hm => Event.first_finish_lt_title (t := t) h ?_⟩
    rw [Option.bind_some, hm]
    rfl
  | rule h => exact absurd (Body.event_rule h).1 List.not_mem_nil
  | @title _ _ t' m inner _ h next =>
    obtain ⟨ht, hm, hl⟩ := Body.event_title h
    cases ht
    exact .inr ⟨m, inner, hm, hl, next, rfl⟩

/-! ## Titles that end with their parent -/

/-- A title that ends before its parent is not cut. -/
theorem titleToken_uncut (h : m.stop.offset ≤ (terminator finish p).start.offset)
    (hne : (m.group "title").start.offset < (m.group "title").stop.offset) :
    titleToken t m (finish.findFrom p) = ([.ofSpan .title (m.group "title") []], m.stop) := by
  cases hf : finish.findFrom p with
  | none => simp [titleToken, hne]
  | some e =>
    rw [terminator_of_some hf] at h
    have hnot : ¬ e.start.offset < m.stop.offset := Nat.not_lt.2 h
    simp [titleToken, hne, hnot, Option.filter]

/-- After such a title the scan goes on no later than where the end of the header begins. -/
theorem titleToken_before (ht : t.endsWithParent = true) (hm : t.pattern.findFrom p = some m) :
    (titleToken t m (finish.findFrom p)).2.offset ≤ (terminator finish p).start.offset := by
  cases hf : finish.findFrom p with
  | none =>
    rw [terminator_of_none hf]
    exact (Pattern.findFrom_stop hm).finish_offset
  | some e =>
    rw [terminator_of_some hf]
    by_cases hlt : e.start.offset < m.stop.offset
    · simp only [titleToken, ht, hlt, Option.filter, Bool.true_and, decide_true, if_true]
      exact Nat.le_refl _
    · simp only [titleToken, ht, hlt, Option.filter, Bool.true_and, decide_false, Bool.false_eq_true, if_false]
      exact Nat.le_of_not_lt hlt

/-- The tokens of the title rule: the words of a header have other scopes. -/
def titles (ts : List Token) : List Token := ts.filter fun u => u.scope = .title

theorem titles_append (ts us : List Token) : titles (ts ++ us) = titles ts ++ titles us := List.filter_append ..

theorem titles_listedWords (table : KeywordTable) (p q : Place) : titles (listedWords g table p q) = [] := by
  refine List.filter_eq_nil_iff.2 fun u hu => ?_
  obtain ⟨w, -, c, -, rfl⟩ := mem_listedWords hu
  exact fun h => c.scope_ne (by decide) (of_decide_eq_true h)

theorem titles_bodyWords (body : Body) (p q : Place) : titles (bodyWords g body p q) = [] := by
  unfold bodyWords
  split
  · rfl
  · exact titles_listedWords ..

/-- **Such a title leaves the end of the body where it is**, and lies before it. -/
theorem Runs.titled_extent (ht : t.endsWithParent = true) (h : Runs g body [] p (some t) ts last) :
    last = (terminator body.finish p).stop ∧ (titles ts).length ≤ 1 ∧ ∀ u ∈ titles ts,
      p.offset ≤ u.start ∧ u.start < u.stop ∧ u.stop ≤ (terminator body.finish p).start.offset := by
  rcases h.titled with ⟨rfl, hlast, -⟩ | ⟨m, inner, hm, hl, next, rfl⟩
  · rw [titles_bodyWords]
    exact ⟨hlast, Nat.zero_le 1, by simp⟩
  · have hbefore : (titleToken t m (body.finish.findFrom p)).2.offset ≤ (terminator body.finish p).start.offset :=
      titleToken_before ht hm
    obtain ⟨rfl, hlast⟩ := next.untitled
    rw [terminator_later (titleToken_reaches hm) hbefore] at hlast
    rw [titles_append, titles_append, titles_bodyWords, titles_bodyWords, List.nil_append, List.append_nil]
    refine ⟨hlast, ?_⟩
    rcases titleToken_cases hm (fun e he => (Pattern.findFrom_ahead he).1) hl with hn | ⟨s, hs, h1, -, hlt, hle⟩
    · rw [hn]
      exact ⟨Nat.zero_le 1, by simp [titles]⟩
    · have hstart : p.offset ≤ s.start.offset := Nat.le_trans (Pattern.findFrom_ahead hm).1.offset_le h1.offset_le
      rw [hs]
      refine ⟨List.length_filter_le .., fun u hu => ?_⟩
      rw [List.mem_singleton.1 (List.mem_filter.1 hu).1]
      exact ⟨hstart, hlt, Nat.le_trans hle hbefore⟩

/-! ## Headers -/

/-- **How far a header reaches** does not depend on its title, if the title ends with it: to the end of the
first match of its end pattern that is not empty, or to the end of the source if there is none. The header
has one title at most, which is not empty and lies between the beginning of the header and that match. -/
theorem header_extent (g : Grammar) (remember : Bool) (rule : HeaderRule) (source : String) (m : Match)
    (hrule : rule.title.endsWithParent = true) (hm : (Place.start source.toList).Reaches m.start)
    (hfound : rule.begin_.matchHere m.start = some m) :
    ∃ t, (applyHeader g remember rule m.span).1 = some t ∧ t.scope = rule.scope ∧ t.start = m.start.offset ∧
      t.stop = (applyHeader g remember rule m.span).2.offset ∧ (titles t.children).length ≤ 1 ∧
      (∀ e, rule.finish.FirstFrom m.stop e → t.stop = e.stop.offset ∧
        ∀ u ∈ titles t.children, m.stop.offset ≤ u.start ∧ u.start < u.stop ∧ u.stop ≤ e.start.offset) ∧
      ((∀ q, m.stop.Reaches q → rule.finish.matchHere q = none) → t.stop = source.utf8ByteSize ∧
        ∀ u ∈ titles t.children, m.stop.offset ≤ u.start ∧ u.start < u.stop ∧ u.stop ≤ source.utf8ByteSize) := by
  have hruns : Runs g ⟨rule.finish, some rule.keywords⟩ [] m.stop (some rule.title)
      (scanBodyFrom g remember ⟨rule.finish, some rule.keywords⟩ [] (some rule.title) m.stop).1
      (scanBodyFrom g remember ⟨rule.finish, some rule.keywords⟩ [] (some rule.title) m.stop).2 :=
    scanBodyFrom_runs (by simp) m.stop _
  obtain ⟨hlast, hlength, htitles⟩ := hruns.titled_extent hrule
  have hsource : m.stop.finish.offset = source.utf8ByteSize := by
    have hstop := hm.trans (Pattern.matchHere_eq_some hfound).2.1.reaches
    rw [hstop.finish_eq, Place.finish_start_offset, utf8ByteSize_eq_bytes]
  refine ⟨_, rfl, rfl, rfl, rfl, ?_⟩
  simp only [Token.ofSpan, titles_append, titles_listedWords, List.nil_append]
  refine ⟨hlength, fun e he => ?_, fun hnone => ?_⟩
  · rw [terminator_of_some (Pattern.findFrom_eq_some_iff.2 he)] at hlast htitles
    exact ⟨congrArg Place.offset hlast, htitles⟩
  · rw [terminator_of_none (Pattern.findFrom_eq_none_iff.2 hnone)] at hlast htitles
    rw [← hsource]
    exact ⟨congrArg Place.offset hlast, htitles⟩

/-- A header whose title pattern takes colons, of which the first ends the header. -/
def longTitle : HeaderRule where
  scope := .function
  begin_ := Stock.literal "def"
  finish := Stock.colon
  keywords := .ofWords ["def"] [] []
  title :=
    { pattern :=
        { source := " (?P<title>[a-z:]+)"
          expr := .seq (.one (.single ' ')) (.group (some "title")
            (.rep (.one (.union (.range 'a' 'z') (.single ':'))) 1 none true)) }
      relevance := 0
      endsWithParent := true }

/-- A title whose match runs past the end of its header, which is cut there. -/
theorem header_extent_cut :
    let p := Place.start "def ab:cd".toList
    let m : Match := ⟨⟨p, p.pass "def".toList " ab:cd".toList⟩, []⟩
    (longTitle.title.endsWithParent = true ∧ p.Reaches m.start ∧ longTitle.begin_.matchHere m.start = some m) ∧
    ∃ t, (applyHeader default true longTitle m.span).1 = some t ∧ t.stop = 7 ∧
      (∀ u ∈ titles t.children, 3 ≤ u.start ∧ u.start < u.stop ∧ u.stop ≤ 6) ∧
      (titles t.children).map (·.text) = ["ab"] := by
  intro p m
  have hm : longTitle.begin_.matchHere m.start = some m := by decide +kernel
  obtain ⟨t, ht, -, -, -, -, hclosed, -⟩ :=
    header_extent default true longTitle "def ab:cd" m rfl (.refl p) hm
  obtain ⟨e, he⟩ : ∃ e, longTitle.finish.findFrom m.stop = some e ∧ e.start.offset = 6 ∧ e.stop.offset = 7 :=
    ⟨⟨⟨p.pass "def ab".toList ":cd".toList, p.pass "def ab:".toList "cd".toList⟩, []⟩, by decide +kernel⟩
  obtain ⟨hstop, htitles⟩ := hclosed e (Pattern.findFrom_eq_some_iff.1 he.1)
  have htext : ((applyHeader default true longTitle m.span).1.map fun t => (titles t.children).map (·.text)) =
      some ["ab"] := by decide +kernel
  rw [ht] at htext
  rw [he.2.1] at htitles
  exact ⟨⟨rfl, .refl p, hm⟩, t, ht, hstop.trans he.2.2, htitles, Option.some.inj htext⟩

end Scan

end Lexicolor
