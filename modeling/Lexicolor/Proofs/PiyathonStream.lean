/-
The tokens of a Piyathon text at the top level. A step passes over a gap and then, unless the text
ends or a word runs into the next rule, over a rule. However gaps, words and rules follow one another,
a gap is clear (`passage_clear`): it holds no character at which a comment or a string begins, and it
cuts no word that goes on after it. So words are as long as they can be, plain text is what no word
and no rule could begin in, and between two plain tokens there is always another (`tokens_maximal`).
-/
import Lexicolor.Proofs.PiyathonWords
import Lexicolor.Proofs.QuotedStrings
import Lexicolor.Proofs.Splitting
import Lexicolor.Proofs.WordClasses

namespace Lexicolor.Piyathon

open Text Regex Scan Stock

variable {p q : Place} {source : String} {t : Token}

/-! ## Marks -/

/-- The characters at which a comment or a string begins, wherever they stand. -/
def marks : CharSet := .unions [.single '#', .single '\'', .single '"']

theorem mem_marks {c : Char} : marks.contains c = true ↔ c = '#' ∨ c = '\'' ∨ c = '"' := by
  simp [marks, CharSet.unions, CharSet.contains]

/-- **A rule begins at every mark.** -/
theorem begins_at_mark {c : Char} {cs : List Char} (hr : p.rest = c :: cs) (hc : marks.contains c = true) :
    ∃ a ∈ beginnings, ∃ m, a.begin_.matchHere p = some m := by
  obtain ⟨k, hk⟩ := begins_of_rule (r := hashComment) (by simp [grammar])
  obtain ⟨n, hn⟩ := begins_of_rule (r := quotedString) (by simp [grammar])
  have hquote : ∀ d ∈ delimiters, ∀ rest, p.rest = d.1.toList ++ rest →
      ∃ a ∈ beginnings, ∃ m, a.begin_.matchHere p = some m := by
    intro d hd rest hrest
    have ha : beginString grammar n d ∈ alternativesOf grammar true n quotedString := by
      rw [alternativesOf_quotedString]
      exact List.mem_map_of_mem hd
    exact ⟨_, hn _ ha, _, (literal_matchHere (delimiters_isDelimiter d hd).ne_nil).2 ⟨rest, hrest, rfl⟩⟩
  rcases mem_marks.1 hc with rfl | rfl | rfl
  · refine ⟨_, hk _ (List.mem_singleton.2 rfl), _,
      Option.filter_eq_some_iff.2 ⟨matchAt_one_greedy hr (by decide), ?_⟩⟩
    have := Char.utf8Size_pos '#'
    simp only [Match.isEmpty, Span.isEmpty, Place.passWhile, Place.pass_eq, Bool.not_eq_true', beq_eq_false_iff_ne]
    omega
  · exact hquote ("\'", 0) (by simp [delimiters]) cs hr
  · exact hquote ("\"", 0) (by simp [delimiters]) cs hr

/-- Before what is due there are no marks. -/
theorem no_mark_before (hpq : p.Reaches q)
    (hdue : ∀ c, due beginnings p = some c → q.offset ≤ c.found.start.offset) :
    ∀ d ∈ p.charsTo q, marks.contains d = false := by
  intro d hd
  by_contra hmark
  obtain ⟨as, bs, hsplit⟩ := List.append_of_mem hd
  have hr : p.rest = as ++ (d :: bs ++ q.rest) := by rw [hpq.rest_eq, hsplit, List.append_assoc]
  obtain ⟨a, ha, m, hm⟩ := begins_at_mark (p := p.pass as (d :: bs ++ q.rest)) rfl (by simpa using hmark)
  obtain ⟨e, he, hle⟩ := Pattern.findFrom_of_matchHere hm (.pass hr)
  obtain ⟨c, hc, hlec⟩ := due_le ha he
  have hq := hpq.offset_eq
  have hle' := hdue c hc
  have := d.utf8Size_pos
  rw [hsplit, bytes_append, bytes_cons] at hq
  simp only [Place.pass_eq] at hle
  omega

/-! ## Steps -/

/-- The gap holds no marks and cuts no word. -/
structure Clear (p q : Place) : Prop where
  reaches : p.Reaches q
  whole : Whole p q
  unmarked : ∀ d ∈ p.charsTo q, marks.contains d = false

/-- The gap before a word that runs into a rule, the word included, is clear. -/
theorem clear_of_wordAcross {c : Candidate} {stop : Place} (hd : due beginnings p = some c)
    (hw : wordAcross grammar p c.found.start = some stop) : Clear p stop := by
  obtain ⟨xs, cs, tail, hr, hcs, -, -, hlt, -, rfl⟩ := wordAcross_eq_some grammar_identifier hw
  have hr' : p.rest = (xs ++ cs) ++ tail := by rw [hr, List.append_assoc]
  refine ⟨.pass hr', .of_wordAcross_some grammar_identifier hw, ?_⟩
  have hbefore : ∀ d ∈ xs, marks.contains d = false := by
    have hnone := no_mark_before (q := p.pass xs (cs ++ tail)) (.pass hr) fun c' hc' => by
      rw [hd] at hc'
      cases hc'
      exact Nat.le_of_lt hlt
    rwa [Place.charsTo_eq hr rfl] at hnone
  have hword : ∀ d ∈ cs, marks.contains d = false := by
    intro d hd
    have hletter := hcs.mem d hd
    by_contra hmark
    rcases mem_marks.1 (by simpa using hmark) with rfl | rfl | rfl
    · exact absurd hletter (by decide)
    · exact absurd hletter (by decide)
    · exact absurd hletter (by decide)
  rw [Place.charsTo_eq hr' rfl]
  intro d hd
  rcases List.mem_append.1 hd with hd | hd
  · exact hbefore d hd
  · exact hword d hd

/-- The scopes of the rules. -/
def ruleScopes : List Scope := grammar.rules.filterMap Rule.scope?

theorem ruleScopes_ne : ∀ s ∈ ruleScopes, s ≠ .identifier ∧ s.isWordClass = false ∧ s ≠ .plain := by decide +kernel

/-- What begins at the top level makes a token with the scope of a rule. -/
theorem begins_scope {a : Alternative} (ha : a ∈ beginnings) (s : Span) :
    ∃ t, (a.apply s).1 = some t ∧ t.scope ∈ ruleScopes := by
  obtain ⟨r, hr, n, ha, -⟩ := mem_alternativesFrom ha
  have hscope : ∃ scope, r.scope? = some scope := by
    simp only [grammar, List.mem_cons, List.not_mem_nil, or_false] at hr
    rcases hr with rfl | rfl | rfl | rfl | rfl
    · exact ⟨.comment, rfl⟩
    · exact ⟨.number, rfl⟩
    · exact ⟨.string, rfl⟩
    · exact ⟨.function, rfl⟩
    · exact ⟨.classDef, rfl⟩
  obtain ⟨scope, hscope⟩ := hscope
  obtain ⟨t, ht, rfl⟩ := alternativesOf_scope hscope ha s
  exact ⟨t, ht, List.mem_filterMap.2 ⟨r, hr, hscope⟩⟩

/-- With nothing due all that is left is clear. -/
theorem clear_of_none (hd : due beginnings p = none) : Clear p p.finish :=
  ⟨.finish p, .finish p, no_mark_before (.finish p) (by simp [hd])⟩

/-- The gap before what is due is clear, if no word runs across its end. -/
theorem clear_of_due {c : Candidate} (hd : due beginnings p = some c)
    (hw : wordAcross grammar p c.found.start = none) : Clear p c.found.start := by
  have hreach := (Pattern.findFrom_ahead (due_mem hd).2).1
  refine ⟨hreach, .of_wordAcross_none grammar_identifier hreach hw, no_mark_before hreach fun c' hc' => ?_⟩
  rw [hd] at hc'
  cases hc'
  exact Nat.le_refl _

/-- **A step passes over a clear gap.** Either it ends there, with the text or after a word, or the
token of a rule follows. -/
theorem passage_clear (p : Place) : ∃ q, Clear p q ∧
    (((passage grammar beginnings p).1 = gapTokens grammar p q ∧ ((passage grammar beginnings p).2.rest = [] ∨
        ∃ ts t, gapTokens grammar p q = ts ++ [t] ∧ t.scope ≠ .plain)) ∨
      ∃ t, (passage grammar beginnings p).1 = gapTokens grammar p q ++ [t] ∧ t.scope ∈ ruleScopes) := by
  rcases passage_cases grammar beginnings p with ⟨hd, h⟩ | ⟨c, stop, hd, hw, h⟩ | ⟨c, hd, hw, h⟩
  · refine ⟨p.finish, clear_of_none hd, .inl ⟨?_, .inl ?_⟩⟩
    · rw [h]
    · rw [h]
      rfl
  · obtain ⟨xs, cs, tail, hr, hcs, -, hxs, -, -, hstop⟩ := wordAcross_eq_some grammar_identifier hw
    refine ⟨stop, clear_of_wordAcross hd hw, .inl ⟨?_, .inr ?_⟩⟩
    · rw [h]
    · rw [hstop]
      exact gapTokens_last grammar_identifier hr hxs hcs
  · obtain ⟨t, ht, hscope⟩ := begins_scope (due_mem hd).1 c.found.span
    refine ⟨c.found.start, clear_of_due hd hw, .inr ⟨t, ?_, hscope⟩⟩
    rw [h, ht]
    rfl

/-! ## Tokens -/

/-- A word of the source: an identifier that the source does not go on with, with the scope of the
first class that lists it, or identifier if none does. -/
structure IsWord (source : String) (t : Token) : Prop where
  full : grammar.identifier.matchesFully t.text = true
  ends : ∃ before after, source.toList = before ++ (t.text.toList ++ after) ∧ t.start = bytes before ∧ Stops after
  scope : t.scope =
    ((WordClass.all.find? fun c => decide (t.text ∈ grammar.keywords.words c)).map WordClass.scope).getD .identifier

/-- Text in which no comment, no string and no word begins. -/
def IsPlain (text : String) : Prop :=
  ∀ c ∈ text.toList, c ≠ '#' ∧ c ≠ '\'' ∧ c ≠ '"' ∧ thaiLetter.contains c = false

/-- What has the scope of a word is a word of the source, and what has the scope of plain text is plain. -/
def Fits (source : String) (t : Token) : Prop :=
  (t.scope = .identifier ∨ t.scope.isWordClass = true → IsWord source t) ∧ (t.scope = .plain → IsPlain t.text)

theorem wordScope_eq_first (w : String) : grammar.wordScope w =
    ((WordClass.all.find? fun c => decide (w ∈ grammar.keywords.words c)).map WordClass.scope).getD .identifier := by
  have hindexed : grammar.keywords.Indexed := KeywordTable.ofWords_indexed ..
  have hlists : ∀ c, grammar.Lists c w ↔ w ∈ grammar.keywords.words c := fun c => Grammar.lists_iff_mem rfl
  rw [Grammar.wordScope_eq hindexed]
  simp only [hlists]

theorem gap_fits (hp : (Place.start source.toList).Reaches p) (h : Clear p q)
    (ht : t ∈ gapTokens grammar p q) : Fits source t := by
  rcases mem_gapTokens grammar_identifier h.reaches ht with ⟨xs, cs, tail, hr, hxs, hcs, htail, rfl⟩ | ⟨hs, hl, hm⟩
  · constructor
    · refine fun _ => ⟨?_, ⟨(Place.start source.toList).charsTo p ++ xs, tail ++ q.rest, ?_, ?_, ?_⟩, ?_⟩
      · rw [grammar_identifier, matchesFully_identifier, Token.over_text, String.toList_ofList]
        exact hcs
      · have hsource := hp.rest_eq
        rw [h.reaches.rest_eq, hr] at hsource
        simpa [Place.start] using hsource
      · have hoffset := hp.offset_eq
        rw [Token.over_start, bytes_append, hoffset]
        simp [Place.start]
      · cases tail with
        | nil => exact h.whole xs cs (by rw [hr, List.append_nil]) hxs hcs
        | cons c ds =>
          intro d es hd
          obtain ⟨rfl, -⟩ := List.cons.inj hd
          exact htail c ds rfl
      · rw [Token.over_scope, Token.over_text]
        exact wordScope_eq_first _
    · rw [Token.over_scope]
      exact fun hplain => absurd hplain (wordScope_ne_plain grammar _)
  · refine ⟨fun hword => ?_, fun _ c hc => ?_⟩
    · rw [hs] at hword
      exact absurd hword (by decide)
    · have hmark : ¬ (c = '#' ∨ c = '\'' ∨ c = '"') := by
        rw [← mem_marks, h.unmarked c (hm c hc)]
        exact Bool.false_ne_true
      simp only [not_or] at hmark
      exact ⟨hmark.1, hmark.2.1, hmark.2.2, hl c hc⟩

theorem rule_fits (ht : t.scope ∈ ruleScopes) : Fits source t := by
  obtain ⟨h1, h2, h3⟩ := ruleScopes_ne _ ht
  refine ⟨fun hword => ?_, fun hplain => absurd hplain h3⟩
  rcases hword with hword | hword
  · exact absurd hword h1
  · rw [h2] at hword
    cases hword

theorem passage_fits (hp : (Place.start source.toList).Reaches p) :
    ∀ t ∈ (passage grammar beginnings p).1, Fits source t := by
  obtain ⟨q, hclear, ⟨h, -⟩ | ⟨u, h, hu⟩⟩ := passage_clear p
  · rw [h]
    exact fun t ht => gap_fits hp hclear ht
  · rw [h]
    intro t ht
    rcases List.mem_append.1 ht with ht | ht
    · exact gap_fits hp hclear ht
    · rw [List.mem_singleton.1 ht]
      exact rule_fits hu

/-- The tokens of a step are apart, and so is the last of them from whatever follows, unless the step
ends the text. -/
theorem passage_apart (p : Place) : (passage grammar beginnings p).1.IsChain Apart ∧
    ((passage grammar beginnings p).2.rest = [] ∨
      ∀ t ∈ (passage grammar beginnings p).1.getLast?, ∀ u, Apart t u) := by
  have hlast : ∀ (ts : List Token) (t : Token), t.scope ≠ .plain → ∀ v ∈ (ts ++ [t]).getLast?, ∀ u, Apart v u := by
    intro ts t ht v hv u
    rw [List.getLast?_concat] at hv
    obtain rfl := Option.some.inj hv
    exact .inl ht
  obtain ⟨q, -, ⟨h, hend | ⟨ts, t, hts, ht⟩⟩ | ⟨t, h, ht⟩⟩ := passage_clear p
  · rw [h]
    exact ⟨gapTokens_apart grammar p q, .inl hend⟩
  · rw [h]
    refine ⟨gapTokens_apart grammar p q, .inr ?_⟩
    rw [hts]
    exact hlast ts t ht
  · have hplain : t.scope ≠ .plain := (ruleScopes_ne _ ht).2.2
    rw [h]
    refine ⟨List.isChain_append.2 ⟨gapTokens_apart grammar p q, List.isChain_singleton t, ?_⟩,
      .inr (hlast _ t hplain)⟩
    intro u _ v hv
    obtain rfl := Option.some.inj hv
    exact .inr hplain

/-- **The tokens of a Piyathon text.** Every word is an identifier that the source does not go on
with, with the scope of the first class that lists it; plain text holds no character at which a
comment, a string or a word could begin; and no plain token follows another. -/
theorem tokens_maximal (source : String) :
    (∀ t ∈ tokenize grammar source, t.scope = .identifier ∨ t.scope.isWordClass = true → IsWord source t) ∧
    (∀ t ∈ tokenize grammar source, t.scope = .plain → IsPlain t.text) ∧
    (tokenize grammar source).IsChain fun t u => ¬ (t.scope = .plain ∧ u.scope = .plain) := by
  have hrun := tokenize_eq_iff.1 (rfl : tokenize grammar source = tokenize grammar source)
  have hadvance : ∀ a ∈ beginnings, a.Advances := alternativesFrom_advance grammar.rules 0
  have hfits := hrun.forall_mem hadvance (fun p hp => passage_fits hp) (.refl _)
  have hchain := hrun.isChain hadvance (fun p _ => passage_apart p) (.refl _)
  refine ⟨fun t ht => (hfits t ht).1, fun t ht => (hfits t ht).2, hchain.imp fun t u h => ?_⟩
  rintro ⟨ht, hu⟩
  rcases h with h | h
  · exact h ht
  · exact h hu

end Lexicolor.Piyathon
