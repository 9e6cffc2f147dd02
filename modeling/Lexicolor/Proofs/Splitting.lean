/-
How a text is split into words of the stock identifier pattern. The pattern finds them one after the
other, each beginning at the first letter that is left and as long as it can be (`Split`,
`allMatches_split`).

Which stretches of a text are words can be told from the text around them alone (`Split.mem_iff`): a
word ends before a character that is neither letter nor digit, and no word before it runs on to its
beginning (`Settled`). So the words of a gap are those of the text the gap is cut out of, but that
the end of the gap may cut the last one; and a rule is passed over for a word exactly if a word of
the text runs across its beginning (`wordAcross_eq_some`, `wordAcross_eq_none`).
-/
import Mathlib.Data.List.Chain
import Lexicolor.Proofs.Words
import Lexicolor.Proofs.Identifiers

namespace Lexicolor.Stock

open Text Regex

variable {p q : Place} {as bs xs ys cs ds gap tail : List Char} {ws : List Span} {w : Span}

/-- No word that begins among the characters runs on to their end: the letters and digits that they
end with hold no letter. -/
def Settled (cs : List Char) : Prop :=
  ∀ xs ys, cs = xs ++ ys → (∀ y ∈ ys, thaiLetterOrDigit.contains y = true) → Letterless ys

theorem Stops.dropWhile (cs : List Char) : Stops (cs.dropWhile thaiLetterOrDigit.contains) :=
  fun _ _ h => not_keep_of_dropWhile h

theorem Letterless.settled (h : Letterless cs) : Settled cs := by
  intro xs ys hc _ y hy
  exact h y (by simp [hc, hy])

theorem IsIdentifier.append (h : IsIdentifier cs) (hds : ∀ d ∈ ds, thaiLetterOrDigit.contains d = true) :
    IsIdentifier (cs ++ ds) := by
  obtain ⟨c, es, rfl, hc, hes⟩ := h
  refine ⟨c, es ++ ds, rfl, hc, fun d hd => ?_⟩
  rcases List.mem_append.1 hd with hd | hd
  · exact hes d hd
  · exact hds d hd

theorem IsIdentifier.not_letterless (h : IsIdentifier cs) : ¬ Letterless (as ++ (cs ++ bs)) := by
  obtain ⟨c, ds, rfl, hc, -⟩ := h
  intro hn
  have hf : thaiLetter.contains c = false := hn c (by simp)
  rw [hc] at hf
  cases hf

/-! ## One stretch after another -/

/-- Two ways to cut a text where characters of one kind end are the same way. -/
theorem append_eq_append_of_keep {keep : Char → Bool} (h : as ++ bs = xs ++ ys)
    (has : ∀ a ∈ as, keep a = true) (hbs : ∀ b ds, bs = b :: ds → keep b = false)
    (hxs : ∀ x ∈ xs, keep x = true) (hys : ∀ y ds, ys = y :: ds → keep y = false) : as = xs ∧ bs = ys := by
  obtain ⟨h1, h2⟩ := takeWhile_dropWhile_append has hbs
  obtain ⟨h3, h4⟩ := takeWhile_dropWhile_append hxs hys
  rw [h] at h1 h2
  exact ⟨h1.symm.trans h3, h2.symm.trans h4⟩

/-- The first character that is not kept, and what stands around it. -/
theorem exists_of_not_keep {keep : Char → Bool} (h : ¬ ∀ c ∈ cs, keep c = true) :
    ∃ as b bs, cs = as ++ b :: bs ∧ (∀ a ∈ as, keep a = true) ∧ keep b = false := by
  induction cs with
  | nil => simp at h
  | cons c cs ih =>
    by_cases hc : keep c = true
    · have hcs : ¬ ∀ c ∈ cs, keep c = true := fun hn => h (by simpa [hc] using hn)
      obtain ⟨as, b, bs, rfl, has, hb⟩ := ih hcs
      exact ⟨c :: as, b, bs, rfl, by simpa [hc] using has, hb⟩
    · exact ⟨[], c, cs, rfl, by simp, by simpa using hc⟩

/-- A text with a letter in it is a gap without letters, a word, and what follows the word. -/
theorem exists_word (h : ¬ Letterless cs) : ∃ gap word tail, cs = gap ++ (word ++ tail) ∧ Letterless gap ∧
    IsIdentifier word ∧ Stops tail := by
  have hkeep : ¬ ∀ c ∈ cs, (!thaiLetter.contains c) = true := by simpa [Letterless] using h
  obtain ⟨gap, c, ds, rfl, hgap, hc⟩ := exists_of_not_keep hkeep
  have hc : thaiLetter.contains c = true := by simpa using hc
  refine ⟨gap, c :: ds.takeWhile thaiLetterOrDigit.contains, ds.dropWhile thaiLetterOrDigit.contains, ?_, ?_, ?_,
    Stops.dropWhile ds⟩
  · simp
  · intro d hd
    simpa using hgap d hd
  · exact ⟨c, _, rfl, hc, fun d hd => List.mem_takeWhile_imp hd⟩

/-! ## What the pattern finds -/

/-- The spans are the words of what follows the place: each begins at the first letter that is left
and is as long as it can be. -/
inductive Split : Place → List Span → Prop
  | done {p : Place} (h : Letterless p.rest) : Split p []
  | word {p : Place} {gap cs tail : List Char} {ws : List Span} (hr : p.rest = gap ++ (cs ++ tail))
      (hgap : Letterless gap) (hcs : IsIdentifier cs) (htail : Stops tail)
      (next : Split (p.pass (gap ++ cs) tail) ws) :
      Split p (⟨p.pass gap (cs ++ tail), p.pass (gap ++ cs) tail⟩ :: ws)

/-- **The successive matches** of the pattern are the words of the text. -/
theorem matchesFrom_split : ∀ (n : Nat) (fresh : Bool) (p : Place), p.rest.length < n →
    Split p ((identifier.matchesFrom n fresh p).map (·.span))
  | 0, _, _, hn => by omega
  | n + 1, fresh, p, hn => by
    rw [Pattern.matchesFrom]
    by_cases h : Letterless p.rest
    · rw [search_letterless h]
      exact .done h
    · obtain ⟨gap, cs, tail, hr, hgap, hcs, htail⟩ := exists_word h
      have haccept : ∀ m : Match, m.isEmpty = false →
          (fresh || !m.isEmpty || m.start.offset != p.offset) = true := by
        intro m hm
        simp [hm]
      have hlen : tail.length < n := by
        have := List.length_pos_iff.2 hcs.ne_nil
        rw [hr, List.length_append, List.length_append] at hn
        omega
      rw [search_word haccept hr hgap hcs htail]
      exact .word hr hgap hcs htail (matchesFrom_split n false _ hlen)

theorem allMatches_split (p : Place) : Split p ((identifier.allMatches p).map (·.span)) :=
  matchesFrom_split _ true p (by omega)

/-! ## Which stretches are words -/

theorem Settled.drop (h : Settled (as ++ xs)) : Settled xs := by
  intro us vs hu
  exact h (as ++ us) vs (by simp [hu])

/-- What a word cannot run into lets a word begin whatever stands before. -/
theorem Settled.after (h : Settled xs) (hcs : IsIdentifier cs) (hstops : Stops (xs ++ (cs ++ tail))) :
    Settled (as ++ xs) := by
  intro us vs hu hvs
  rcases List.append_eq_append_iff.1 hu with ⟨es, rfl, hxs⟩ | ⟨es, rfl, hxs⟩
  · exact h es vs hxs hvs
  · -- What reaches back before `xs` holds the character where the word before has stopped.
    exfalso
    cases xs with
    | nil =>
      obtain ⟨c, ds, rfl, hc, -⟩ := hcs
      have hc' : thaiLetterOrDigit.contains c = false := hstops c (ds ++ tail) rfl
      rw [letterOrDigit_of_letter hc] at hc'
      cases hc'
    | cons x xs =>
      have hx : thaiLetterOrDigit.contains x = false := hstops x (xs ++ (cs ++ tail)) rfl
      have hx' : thaiLetterOrDigit.contains x = true := hvs x (by simp [hxs])
      rw [hx] at hx'
      cases hx'

/-- **The words of a text** are its stretches of a letter and then letters and digits that a word can
begin and end at. -/
theorem Split.mem_iff (h : Split p ws) : w ∈ ws ↔ ∃ xs cs tail, p.rest = xs ++ (cs ++ tail) ∧ Settled xs ∧
    IsIdentifier cs ∧ Stops tail ∧ w = ⟨p.pass xs (cs ++ tail), p.pass (xs ++ cs) tail⟩ := by
  induction h with
  | done h =>
    constructor
    · intro hw
      cases hw
    · rintro ⟨xs, cs, tail, hr, -, hcs, -, -⟩
      rw [hr] at h
      exact absurd h hcs.not_letterless
  | @word p gap first rest ws hr hgap hfirst hrest _ ih =>
    constructor
    · intro hw
      rcases List.mem_cons.1 hw with rfl | hw
      · exact ⟨gap, first, rest, hr, hgap.settled, hfirst, hrest, rfl⟩
      · obtain ⟨xs, cs, tail, hr', hxs, hcs, htail, rfl⟩ := ih.1 hw
        have hr' : rest = xs ++ (cs ++ tail) := hr'
        have hsettled : Settled (gap ++ first ++ xs) := hxs.after hcs (hr' ▸ hrest)
        refine ⟨gap ++ first ++ xs, cs, tail, by simp [hr, hr'], hsettled, hcs, htail, ?_⟩
        rw [Place.pass_pass, Place.pass_pass, ← List.append_assoc]
    · rintro ⟨xs, cs, tail, hr', hxs, hcs, htail, rfl⟩
      rw [hr] at hr'
      rcases List.append_eq_append_iff.1 hr' with ⟨es, rfl, hes⟩ | ⟨es, rfl, hes⟩
      · rcases List.append_eq_append_iff.1 hes with ⟨fs, rfl, hfs⟩ | ⟨fs, hfs, hfs'⟩
        · -- The stretch begins after the first word.
          refine List.mem_cons_of_mem _ (ih.2 ⟨fs, cs, tail, hfs, hxs.drop.drop, hcs, htail, ?_⟩)
          rw [Place.pass_pass, Place.pass_pass]
          simp
        · cases es with
          | nil =>
            -- It begins where the first word does.
            have hfs : fs = first := hfs.symm
            subst hfs
            obtain ⟨rfl, rfl⟩ := append_eq_append_of_keep hfs' hcs.mem htail hfirst.mem hrest
            simp
          | cons e es =>
            -- It would begin inside the first word, which then is no place for a word to begin.
            exfalso
            have hmem : ∀ y ∈ e :: es, thaiLetterOrDigit.contains y = true := by
              intro y hy
              exact hfirst.mem y (by rw [hfs]; exact List.mem_append_left _ hy)
            have hletter : thaiLetter.contains e = false := hxs gap (e :: es) rfl hmem e (by simp)
            obtain ⟨c, ds, hc, hc', -⟩ := hfirst
            rw [hc, List.cons_append, List.cons.injEq] at hfs
            rw [hfs.1, hletter] at hc'
            cases hc'
      · cases es with
        | nil =>
          have hes : cs ++ tail = first ++ rest := hes
          obtain ⟨rfl, rfl⟩ := append_eq_append_of_keep hes hcs.mem htail hfirst.mem hrest
          simp
        | cons e es =>
          -- It would begin before the first letter.
          exfalso
          obtain ⟨c, ds, rfl, hc, -⟩ := hcs
          rw [List.cons_append, List.cons_append, List.cons.injEq] at hes
          have hletter : thaiLetter.contains e = false := hgap e (by simp)
          rw [hes.1, hletter] at hc
          cases hc

theorem Split.offset_lt (h : Split p ws) : ∀ w ∈ ws, w.start.offset < w.stop.offset := by
  intro w hw
  obtain ⟨xs, cs, tail, -, -, hcs, -, rfl⟩ := h.mem_iff.1 hw
  have := bytes_pos hcs.ne_nil
  simp only [Place.pass_eq, bytes_append]
  omega

end Lexicolor.Stock

namespace Lexicolor.Scan

open Text Regex Stock

variable {g : Grammar} {p q at_ stop to_ : Place} {xs cs tail : List Char} {ws : List Span} {w : Span} {t : Token}

/-- **The words of a gap** are those that the gap, cut out of its text, is split into. -/
theorem wordsIn_split (hg : g.identifier = identifier) (p q : Place) : Split (p.cut q) (wordsIn g p q) := by
  have hsplit := allMatches_split (p.cut q)
  have hall : ∀ w ∈ (identifier.allMatches (p.cut q)).map (·.span), (!w.isEmpty) = true := by
    intro w hw
    have hlt := hsplit.offset_lt w hw
    simp only [Span.isEmpty, Bool.not_eq_true', beq_eq_false_iff_ne]
    omega
  rw [wordsIn_eq, hg, List.filter_eq_self.2 hall]
  exact hsplit

/-! ## Words that run into a rule -/

/-- **A rule is passed over for a word** of the text that runs across its beginning. -/
theorem wordAcross_eq_some (hg : g.identifier = identifier) (h : wordAcross g p at_ = some stop) :
    ∃ xs cs tail, p.rest = xs ++ (cs ++ tail) ∧ IsIdentifier cs ∧ Stops tail ∧ Settled xs ∧
      p.offset + bytes xs < at_.offset ∧ at_.offset < p.offset + bytes (xs ++ cs) ∧
      stop = p.pass (xs ++ cs) tail := by
  obtain ⟨m, hm, hlt, hgt, rfl⟩ := wordAcross_mem h
  rw [wordsAhead, hg] at hm
  have hmem := List.mem_map_of_mem (f := (·.span)) hm
  obtain ⟨xs, cs, tail, hr, hxs, hcs, htail, hspan⟩ := (allMatches_split _).mem_iff.1 hmem
  have hne : xs ++ cs ≠ [] := List.append_ne_nil_of_right_ne_nil xs hcs.ne_nil
  have hstop : m.stop = p.pass (xs ++ cs) tail := by
    rw [← Place.pass_of_ne_nil hne]
    exact congrArg Span.stop hspan
  have hstart : m.start.offset = p.offset + bytes xs := congrArg (·.start.offset) hspan
  refine ⟨xs, cs, tail, hr, hcs, htail, hxs, hstart ▸ hlt, ?_, hstop⟩
  rw [hstop] at hgt
  exact hgt

/-- **A rule is not passed over** if every word of the text that begins before it ends before it. -/
theorem wordAcross_eq_none (hg : g.identifier = identifier) (h : wordAcross g p at_ = none)
    (hr : p.rest = xs ++ (cs ++ tail)) (hxs : Settled xs) (hcs : IsIdentifier cs) (htail : Stops tail)
    (hlt : p.offset + bytes xs < at_.offset) : p.offset + bytes (xs ++ cs) ≤ at_.offset := by
  have hword := (allMatches_split ⟨p.offset, none, p.rest⟩).mem_iff.2 ⟨xs, cs, tail, hr, hxs, hcs, htail, rfl⟩
  rw [← hg] at hword
  exact wordAcross_none h hword hlt

/-! ## Gaps -/

/-- Of two tokens side by side one is not plain. -/
def Apart (t u : Token) : Prop := t.scope ≠ .plain ∨ u.scope ≠ .plain

theorem wordScope_ne_plain (g : Grammar) (w : String) : g.wordScope w ≠ .plain :=
  g.wordScope_ne w (by decide) (by decide)

/-- Between two plain tokens of a gap there is a word. -/
theorem fillGap_apart (g : Grammar) (to_ : Place) : ∀ (p : Place) (ws : List Span), (fillGap g to_ p ws).IsChain Apart
  | p, [] => by
    rw [fillGap]
    split
    · exact List.isChain_singleton _
    · exact List.isChain_nil
  | p, w :: ws => by
    have hw := wordScope_ne_plain g w.text
    have hrest : (Token.ofSpan (g.wordScope w.text) w [] :: fillGap g to_ w.stop ws).IsChain Apart :=
      List.isChain_cons.2 ⟨fun _ _ => .inl hw, fillGap_apart g to_ w.stop ws⟩
    rw [fillGap]
    split
    · exact List.isChain_cons_cons.2 ⟨.inr hw, hrest⟩
    · exact hrest

/-- What fills a gap: its words, and plain text without letters. -/
theorem mem_fillGap (h : Split p ws) (hf : p.finish.offset = to_.offset) (ht : t ∈ fillGap g to_ p ws) :
    (∃ w ∈ ws, t = .ofSpan (g.wordScope w.text) w []) ∨
      t.scope = .plain ∧ Letterless t.text.toList ∧ ∀ c ∈ t.text.toList, c ∈ p.rest := by
  induction h with
  | @done p h =>
    rw [fillGap] at ht
    split at ht
    · have hspan : Token.ofSpan .plain ⟨p, to_⟩ [] = .over .plain p.offset p.rest :=
        Token.ofSpan_eq (List.append_nil p.rest).symm hf.symm
      rw [List.mem_singleton.1 ht, hspan]
      right
      simpa [Token.over] using h
    · cases ht
  | @word p gap cs tail ws hr hgap _ _ _ ih =>
    have hreach : p.Reaches (p.pass (gap ++ cs) tail) := .pass (by rw [hr, List.append_assoc])
    have hplain : Token.ofSpan .plain ⟨p, p.pass gap (cs ++ tail)⟩ [] = .over .plain p.offset gap :=
      Token.ofSpan_eq hr rfl
    rw [fillGap, hplain] at ht
    have hcases : t = .over .plain p.offset gap ∨
        t = .ofSpan (g.wordScope (Span.text ⟨p.pass gap (cs ++ tail), p.pass (gap ++ cs) tail⟩))
          ⟨p.pass gap (cs ++ tail), p.pass (gap ++ cs) tail⟩ [] ∨
        t ∈ fillGap g to_ (p.pass (gap ++ cs) tail) ws := by
      split at ht
      · simpa only [List.mem_cons] using ht
      · exact .inr (by simpa only [List.mem_cons] using ht)
    rcases hcases with rfl | rfl | ht
    · refine .inr ⟨rfl, by simpa [Token.over] using hgap, fun c hc => ?_⟩
      rw [hr]
      exact List.mem_append_left _ (by simpa [Token.over] using hc)
    · exact .inl ⟨_, List.mem_cons_self, rfl⟩
    · rcases ih (by rw [hreach.finish_eq, hf]) ht with ⟨w, hw, rfl⟩ | ⟨hscope, hletters, hmem⟩
      · exact .inl ⟨w, List.mem_cons_of_mem _ hw, rfl⟩
      · refine .inr ⟨hscope, hletters, fun c hc => ?_⟩
        rw [hreach.rest_eq]
        exact List.mem_append_right _ (hmem c hc)

/-- A gap that ends with a word ends with a token that is not plain. -/
theorem fillGap_last (h : Split p ws) (hf : p.finish.offset = to_.offset) (hw : w ∈ ws)
    (hstop : w.stop.offset = to_.offset) : ∃ ts t, fillGap g to_ p ws = ts ++ [t] ∧ t.scope ≠ .plain := by
  induction h with
  | done => cases hw
  | @word p gap cs tail ws hr _ _ _ next ih =>
    have hreach : p.Reaches (p.pass (gap ++ cs) tail) := .pass (by rw [hr, List.append_assoc])
    have hrest : ∃ ts t, (Token.ofSpan (g.wordScope (Span.text ⟨p.pass gap (cs ++ tail), p.pass (gap ++ cs) tail⟩))
        ⟨p.pass gap (cs ++ tail), p.pass (gap ++ cs) tail⟩ [] :: fillGap g to_ (p.pass (gap ++ cs) tail) ws) =
        ts ++ [t] ∧ t.scope ≠ .plain := by
      rcases List.mem_cons.1 hw with rfl | hw
      · -- Nothing follows the word, so nothing is left to fill.
        have htail : tail = [] := by
          rw [← hf, ← hreach.finish_eq] at hstop
          by_contra hne
          exact Nat.ne_of_lt (Place.offset_lt_finish (p := p.pass (gap ++ cs) tail) hne) hstop
        subst htail
        have hnil : ws = [] := by
          cases next with
          | done => rfl
          | word hr' _ hcs' _ _ =>
            have hr' : [] = _ := hr'
            simp [hcs'.ne_nil] at hr'
        rw [hnil, fillGap, if_neg (Nat.not_lt.2 (Nat.le_of_eq hstop.symm))]
        exact ⟨[], _, rfl, wordScope_ne_plain g _⟩
      · obtain ⟨ts, t, heq, hscope⟩ := ih (by rw [hreach.finish_eq, hf]) hw
        exact ⟨_ :: ts, t, by rw [heq, List.cons_append], hscope⟩
    obtain ⟨ts, t, heq, hscope⟩ := hrest
    rw [fillGap]
    split
    · exact ⟨_ :: ts, t, by rw [heq, List.cons_append], hscope⟩
    · exact ⟨ts, t, heq, hscope⟩

theorem gapTokens_apart (g : Grammar) (p q : Place) : (gapTokens g p q).IsChain Apart := fillGap_apart ..

/-- **The tokens of a gap** are its words and plain text without letters. -/
theorem mem_gapTokens (hg : g.identifier = identifier) (h : p.Reaches q) (ht : t ∈ gapTokens g p q) :
    (∃ xs cs tail, p.charsTo q = xs ++ (cs ++ tail) ∧ Settled xs ∧ IsIdentifier cs ∧ Stops tail ∧
      t = .over (g.wordScope (.ofList cs)) (p.offset + bytes xs) cs) ∨
      t.scope = .plain ∧ Letterless t.text.toList ∧ ∀ c ∈ t.text.toList, c ∈ p.charsTo q := by
  have hsplit := wordsIn_split hg p q
  refine (mem_fillGap hsplit h.finish_cut ht).imp ?_ id
  rintro ⟨w, hw, rfl⟩
  obtain ⟨xs, cs, tail, hr, hxs, hcs, htail, rfl⟩ := hsplit.mem_iff.1 hw
  have hstop : ((p.cut q).pass (xs ++ cs) tail).offset = ((p.cut q).pass xs (cs ++ tail)).offset + bytes cs := by
    simp only [Place.pass_eq, bytes_append, Nat.add_assoc]
  refine ⟨xs, cs, tail, hr, hxs, hcs, htail, ?_⟩
  rw [Token.ofSpan_eq rfl hstop, Span.text_eq rfl hstop]
  rfl

/-- The gap before the end of a word ends with a token that is not plain. -/
theorem gapTokens_last (hg : g.identifier = identifier) (hr : p.rest = xs ++ (cs ++ tail)) (hxs : Settled xs)
    (hcs : IsIdentifier cs) : ∃ ts t, gapTokens g p (p.pass (xs ++ cs) tail) = ts ++ [t] ∧ t.scope ≠ .plain := by
  have hr' : p.rest = (xs ++ cs) ++ tail := by rw [hr, List.append_assoc]
  have hcut := Place.cut_pass hr'
  have hsplit := wordsIn_split hg p (p.pass (xs ++ cs) tail)
  have hword := hsplit.mem_iff.2 ⟨xs, cs, [], by rw [hcut, List.append_nil], hxs, hcs, .nil, rfl⟩
  exact fillGap_last hsplit (Place.Reaches.pass hr').finish_cut hword (by rw [hcut]; rfl)

/-! ## Where gaps end -/

/-- A word of the gap that runs to its end ends there in the text as well. -/
def Whole (p q : Place) : Prop := ∀ xs cs, p.charsTo q = xs ++ cs → Settled xs → IsIdentifier cs → Stops q.rest

theorem Whole.finish (p : Place) : Whole p p.finish := fun _ _ _ _ _ => .nil

theorem Whole.of_wordAcross_some (hg : g.identifier = identifier) (h : wordAcross g p at_ = some stop) :
    Whole p stop := by
  obtain ⟨xs, cs, tail, -, -, htail, -, -, -, rfl⟩ := wordAcross_eq_some hg h
  exact fun _ _ _ _ _ => htail

theorem Whole.of_wordAcross_none (hg : g.identifier = identifier) (hp : p.Reaches at_)
    (h : wordAcross g p at_ = none) : Whole p at_ := by
  intro xs cs hchars hxs hcs
  -- The word of the text that begins with `cs` ends before the place, so it is `cs`.
  have hr : p.rest = xs ++ ((cs ++ at_.rest.takeWhile thaiLetterOrDigit.contains) ++
      at_.rest.dropWhile thaiLetterOrDigit.contains) := by
    rw [List.append_assoc, List.takeWhile_append_dropWhile, ← List.append_assoc, ← hchars]
    exact hp.rest_eq
  have hat := hp.offset_eq
  rw [hchars, bytes_append] at hat
  have hpos := bytes_pos hcs.ne_nil
  have hends := wordAcross_eq_none hg h hr hxs (hcs.append fun d hd => List.mem_takeWhile_imp hd)
    (Stops.dropWhile _) (by omega)
  have hnil : at_.rest.takeWhile thaiLetterOrDigit.contains = [] := by
    rw [bytes_append, bytes_append] at hends
    exact bytes_eq_zero.1 (by omega)
  have hdrop := Stops.dropWhile at_.rest
  rwa [← List.nil_append (at_.rest.dropWhile _), ← hnil, List.takeWhile_append_dropWhile] at hdrop

end Lexicolor.Scan
