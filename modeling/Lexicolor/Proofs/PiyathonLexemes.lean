/-
Comments and numbers of a Piyathon text. A rule that is due makes the comment or the number that the source
holds where it begins (`passage_lexemes`). None is missed: before what is due there is no place where a rule
begins, so a gap holds no hash, and a digit that stands in it after no word character can only be in a word
(`passage_digits`). Of the whole text this is said in `lexemes_complete`.
-/
import Lexicolor.Proofs.PiyathonStream
import Lexicolor.Proofs.CutWords
import Lexicolor.Proofs.Lexemes

namespace Lexicolor

open Text

/-- The token stands in the source between the two texts. -/
structure Token.Stands (source : String) (before : List Char) (t : Token) (after : List Char) : Prop where
  source_eq : source.toList = before ++ (t.text.toList ++ after)
  start_eq : t.start = bytes before
  stop_eq : t.stop = bytes before + bytes t.text.toList

namespace Text.Place

variable {p q : Place}

/-- The character before a place is the last one passed on the way to it. -/
theorem Reaches.before_eq (h : p.Reaches q) : q.before = (p.charsTo q).getLast?.or p.before := by
  obtain ⟨cs, hp, hq⟩ := h
  rw [charsTo_eq hp (by rw [hq]; rfl)]
  rw [hq]
  rfl

end Text.Place

namespace Piyathon

open Text Regex Scan Stock

variable {p q : Place} {source : String} {t : Token} {text after : List Char}

/-- The token of a span stands in the source between what is before and what is after the span. -/
theorem ofSpan_stands (scope : Scope) (hp : (Place.start source.toList).Reaches p) (hr : p.rest = text ++ after) :
    (Token.ofSpan scope ⟨p, p.pass text after⟩ []).text.toList = text ∧
      (Token.ofSpan scope ⟨p, p.pass text after⟩ []).Stands source ((Place.start source.toList).charsTo p) after := by
  have htext : (Token.ofSpan scope ⟨p, p.pass text after⟩ []).text.toList = text := by
    rw [Token.ofSpan_eq hr rfl, Token.over_text, String.toList_ofList]
  have hstart : p.offset = bytes ((Place.start source.toList).charsTo p) := by
    rw [hp.offset_eq]
    exact Nat.zero_add _
  refine ⟨htext, ?_, hstart, ?_⟩
  · rw [htext, ← hr]
    exact hp.rest_eq
  · rw [htext, ← hstart]
    rfl

/-! ## What is made -/

/-- The token is a comment of the source. -/
def IsComment (source : String) (t : Token) : Prop :=
  ∃ before after, t.Stands source before after ∧ Comment t.text.toList after

/-- The token is a number of the source, and no word character stands before it. -/
def IsNumber (source : String) (t : Token) : Prop :=
  ∃ before after, t.Stands source before after ∧ Numeral t.text.toList after ∧
    ∀ c, before.getLast? = some c → isWordChar c = false

/-- What the scope of a token says of it. -/
structure Made (source : String) (t : Token) : Prop where
  comment : t.scope = .comment → IsComment source t
  number : t.scope = .number → IsNumber source t
  hash : '#' ∈ t.text.toList → t.scope ∈ [Scope.comment, .string, .function, .classDef]

/-- A comment that is found makes a comment. -/
theorem comment_made {m : Match} (hp : (Place.start source.toList).Reaches p)
    (hm : commentPattern.matchHere p = some m) : Made source (.ofSpan .comment m.span []) := by
  obtain ⟨text, after, hsplit, hcomment, hspan⟩ := comment_matchHere hm
  rw [hspan]
  obtain ⟨htext, hstands⟩ := ofSpan_stands .comment hp hsplit
  exact ⟨fun _ => ⟨_, _, hstands, htext.symm ▸ hcomment⟩, fun h => Scope.noConfusion h, fun _ => by simp⟩

/-- A number that is found makes a number. -/
theorem number_made {m : Match} (hp : (Place.start source.toList).Reaches p)
    (hm : numberPattern.matchHere p = some m) : Made source (.ofSpan .number m.span []) := by
  obtain ⟨text, after, hsplit, hnumeral, hspan, hbefore⟩ := number_matchHere hm
  rw [hspan]
  obtain ⟨htext, hstands⟩ := ofSpan_stands .number hp hsplit
  refine ⟨fun h => Scope.noConfusion h, fun _ => ⟨_, _, hstands, htext.symm ▸ hnumeral, fun d hd => hbefore d ?_⟩,
    fun hhash => ?_⟩
  · rw [hp.before_eq, hd]
    rfl
  · rw [htext] at hhash
    rcases hnumeral.mem _ hhash with h | h <;> exact absurd h (by decide)

theorem made_of_scope (h : t.scope ∈ [Scope.string, .function, .classDef]) : Made source t := by
  have hnone : ∀ s ∈ [Scope.string, .function, .classDef], s ≠ .comment ∧ s ≠ .number := by decide
  obtain ⟨h1, h2⟩ := hnone _ h
  exact ⟨fun hs => absurd hs h1, fun hs => absurd hs h2, fun _ => List.mem_cons_of_mem _ h⟩

/-- What is due makes the comment or the number that it finds. -/
theorem due_made {c : Candidate} (hp : (Place.start source.toList).Reaches p) (hdue : due beginnings p = some c)
    (ht : (c.alternative.apply c.found.span).1 = some t) : Made source t := by
  obtain ⟨hmem, hf⟩ := due_mem hdue
  have hreach := hp.trans (Pattern.findFrom_ahead hf).1
  obtain ⟨-, hm, -⟩ := Pattern.findFrom_eq_some_iff.1 hf
  obtain ⟨r, hr, n, ha, -⟩ := mem_alternativesFrom hmem
  have hscoped : ∀ scope ∈ [Scope.string, .function, .classDef], r.scope? = some scope → Made source t := by
    intro scope hs hscope
    obtain ⟨u, hu, rfl⟩ := alternativesOf_scope hscope ha c.found.span
    obtain rfl := Option.some.inj (hu.symm.trans ht)
    exact made_of_scope hs
  simp only [grammar, List.mem_cons, List.not_mem_nil, or_false] at hr
  rcases hr with rfl | rfl | rfl | rfl | rfl
  · rw [List.mem_singleton.1 ha] at hm ht
    exact Option.some.inj ht ▸ comment_made hreach hm
  · rw [List.mem_singleton.1 ha] at hm ht
    exact Option.some.inj ht ▸ number_made hreach hm
  · exact hscoped .string (by simp) rfl
  · exact hscoped .function (by simp) rfl
  · exact hscoped .classDef (by simp) rfl

/-- What stands in a gap is neither a comment nor a number, and holds no hash. -/
theorem gap_made (h : Clear p q) (ht : t ∈ gapTokens grammar p q) : Made source t := by
  rcases mem_gapTokens grammar_identifier h.reaches ht with ⟨xs, cs, tail, -, -, hcs, -, rfl⟩ | ⟨hs, -, hm⟩
  · refine ⟨fun hs => ?_, fun hs => ?_, fun hhash => ?_⟩
    · exact absurd hs (grammar.wordScope_ne _ (by decide) (by decide))
    · exact absurd hs (grammar.wordScope_ne _ (by decide) (by decide))
    · rw [Token.over_text, String.toList_ofList] at hhash
      exact absurd (hcs.mem _ hhash) (by decide)
  · refine ⟨fun h => ?_, fun h => ?_, fun hhash => ?_⟩
    · rw [hs] at h
      cases h
    · rw [hs] at h
      cases h
    · exact absurd (h.unmarked _ (hm _ hhash)) (by decide)

/-- What a step makes is made of what the source holds. -/
theorem passage_made (hp : (Place.start source.toList).Reaches p) :
    ∀ t ∈ (passage grammar beginnings p).1, Made source t := by
  rcases passage_cases grammar beginnings p with ⟨hd, h⟩ | ⟨c, stop, hd, hw, h⟩ | ⟨c, hd, hw, h⟩
  · rw [h]
    exact fun t ht => gap_made (clear_of_none hd) ht
  · rw [h]
    exact fun t ht => gap_made (clear_of_wordAcross hd hw) ht
  · obtain ⟨u, hu, -⟩ := begins_scope (due_mem hd).1 c.found.span
    rw [h, hu]
    intro t ht
    rcases List.mem_append.1 ht with ht | ht
    · exact gap_made (clear_of_due hd hw) ht
    · rw [List.mem_singleton.1 ht]
      exact due_made hp hd hu

/-! ## What is missed -/

/-- Every digit of the source that lies in the token stands after a word character. -/
def DigitsFollow (source : String) (t : Token) : Prop :=
  ∀ before d after, source.toList = before ++ d :: after → d.isDigit = true → t.start ≤ bytes before →
    bytes before < t.stop → ∃ c, before.getLast? = some c ∧ isWordChar c = true

/-- Where a digit stands after no word character, a number begins, so something is due there or before. -/
theorem due_at_digit {d : Char} {after : List Char} (hpq : p.Reaches q) (hr : q.rest = d :: after)
    (hd : d.isDigit = true) (hbefore : ∀ c, q.before = some c → isWordChar c = false) :
    ∃ c, due beginnings p = some c ∧ c.found.start.offset ≤ q.offset := by
  obtain ⟨k, hk⟩ := begins_of_rule (r := Stock.number) (by simp [grammar])
  obtain ⟨m, hm⟩ := number_begins hr hd hbefore
  obtain ⟨e, he, hle⟩ := Pattern.findFrom_of_matchHere hm hpq
  obtain ⟨c, hc, hlec⟩ := due_le (hk _ (List.mem_singleton.2 rfl)) he
  exact ⟨c, hc, Nat.le_trans hlec hle⟩

/-- The digits of a token in a gap stand after word characters, unless something is due at one or before. -/
theorem gap_digits (hp : (Place.start source.toList).Reaches p) (h : p.Reaches q)
    (ht : t ∈ gapTokens grammar p q)
    (hdue : ∀ c, due beginnings p = some c → t.stop ≤ c.found.start.offset) : DigitsFollow source t := by
  intro before d after hsource hdigit hstart hstop
  by_contra hnone
  simp only [not_exists, not_and, Bool.not_eq_true] at hnone
  -- The place where the digit stands.
  have hreach : (Place.start source.toList).Reaches ((Place.start source.toList).pass before (d :: after)) :=
    .pass hsource
  have hin := (gapTokens_tiles h).nested.mem ht
  have hoffset : ((Place.start source.toList).pass before (d :: after)).offset = bytes before := Nat.zero_add _
  have hpr := hp.linear hreach (by omega)
  obtain ⟨c, hc, hle⟩ := due_at_digit hpr rfl hdigit fun c hc => hnone c (by simpa [Place.pass_eq, Place.start] using hc)
  have := hdue c hc
  omega

/-- A plain token of a gap ends before the word at the end of the gap begins. -/
theorem plain_before_word {xs cs tail : List Char} (hr : p.rest = xs ++ (cs ++ tail)) (hxs : Settled xs)
    (hcs : IsIdentifier cs) (ht : t ∈ gapTokens grammar p (p.pass (xs ++ cs) tail)) (hplain : t.scope = .plain) :
    t.stop ≤ p.offset + bytes xs := by
  have hr' : p.rest = (xs ++ cs) ++ tail := by rw [hr, List.append_assoc]
  have hword : ∃ w ∈ wordsIn grammar p (p.pass (xs ++ cs) tail), w.start.offset = p.offset + bytes xs ∧
      w.stop.offset = p.offset + bytes (xs ++ cs) := by
    have hsplit := wordsIn_split grammar_identifier p (p.pass (xs ++ cs) tail)
    rw [Place.cut_pass hr'] at hsplit
    exact ⟨_, hsplit.mem_iff.2 ⟨xs, cs, [], by rw [List.append_nil], hxs, hcs, .nil, rfl⟩, rfl, rfl⟩
  obtain ⟨w, hw, hstart, hstop⟩ := hword
  have hnested := (gapTokens_tiles (g := grammar) (Place.Reaches.pass hr')).nested
  have hne : t ≠ Token.ofSpan (grammar.wordScope w.text) w [] := by
    rintro rfl
    exact wordScope_ne_plain grammar w.text hplain
  rcases hnested.apart ht (word_mem_gapTokens hw) hne with hle | hle
  · exact hstart ▸ hle
  · have hin := hnested.mem ht
    have hle : w.stop.offset ≤ t.start := hle
    have hend : t.stop ≤ p.offset + bytes (xs ++ cs) := hin.2.2
    omega

/-- The digits of the plain tokens of a step stand after word characters. -/
theorem passage_digits (hp : (Place.start source.toList).Reaches p) :
    ∀ t ∈ (passage grammar beginnings p).1, t.scope = .plain → DigitsFollow source t := by
  rcases passage_cases grammar beginnings p with ⟨hd, h⟩ | ⟨c, stop, hd, hw, h⟩ | ⟨c, hd, hw, h⟩
  · rw [h]
    exact fun t ht _ => gap_digits hp (.finish p) ht (by simp [hd])
  · rw [h]
    intro t ht hplain
    obtain ⟨xs, cs, tail, hr, hcs, -, hxs, hlt, -, rfl⟩ := wordAcross_eq_some grammar_identifier hw
    have hle := plain_before_word hr hxs hcs ht hplain
    refine gap_digits hp (clear_of_wordAcross hd hw).reaches ht fun c' hc' => ?_
    rw [hd] at hc'
    cases hc'
    omega
  · obtain ⟨u, hu, hscope⟩ := begins_scope (due_mem hd).1 c.found.span
    rw [h, hu]
    intro t ht hplain
    rcases List.mem_append.1 ht with ht | ht
    · have hgap := (clear_of_due hd hw).reaches
      refine gap_digits hp hgap ht fun c' hc' => ?_
      rw [hd] at hc'
      cases hc'
      exact ((gapTokens_tiles hgap).nested.mem ht).2.2
    · rw [List.mem_singleton.1 ht] at hplain
      exact absurd hplain (ruleScopes_ne _ hscope).2.2

/-! ## The whole text -/

/-- **Comments and numbers of a Piyathon text.** Every comment is a hash with what follows it on its line; every
number stands after no word character and takes its digits and its fraction as far as they go. Every hash lies in
a comment, a string or a header, and every digit in plain text stands after a word character. -/
theorem lexemes_complete (source : String) :
    (∀ t ∈ tokenize grammar source, t.scope = .comment → IsComment source t) ∧
    (∀ t ∈ tokenize grammar source, t.scope = .number → IsNumber source t) ∧
    (∀ before after, source.toList = before ++ '#' :: after → ∃ t ∈ tokenize grammar source,
      t.scope ∈ [Scope.comment, .string, .function, .classDef] ∧ t.start ≤ bytes before ∧ bytes before < t.stop) ∧
    ∀ t ∈ tokenize grammar source, t.scope = .plain → DigitsFollow source t := by
  have hrun := tokenize_eq_iff.1 (rfl : tokenize grammar source = tokenize grammar source)
  have hadvance : ∀ a ∈ beginnings, a.Advances := alternativesFrom_advance grammar.rules 0
  have hmade := hrun.forall_mem hadvance (fun p hp => passage_made hp) (.refl _)
  refine ⟨fun t ht => (hmade t ht).comment, fun t ht => (hmade t ht).number, fun before after hsource => ?_,
    hrun.forall_mem hadvance (fun p hp => passage_digits hp) (.refl _)⟩
  obtain ⟨htiles, hslices⟩ := tokenize_tiles grammar source
  have hsize : bytes before < source.utf8ByteSize := by
    have := '#'.utf8Size_pos
    rw [utf8ByteSize_eq_bytes, hsource, bytes_append, bytes_cons]
    omega
  obtain ⟨t, ht, hstart, hstop⟩ := htiles.exists_mem (Nat.zero_le _) hsize
  exact ⟨t, ht, (hmade t ht).hash ((hslices t ht).mem hsource hstart hstop), hstart, hstop⟩

/-- A digit after a letter that is in no identifier is plain. -/
example : (tokenize grammar "é1 1.5.2").map (fun t => (t.scope, t.text)) =
    [(.plain, "é1 "), (.number, "1.5"), (.plain, "."), (.number, "2")] := by decide +kernel

end Piyathon

end Lexicolor
