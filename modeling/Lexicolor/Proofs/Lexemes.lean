/-
The stock comments and numbers. A comment begins at a hash and takes the rest of its line
(`comment_matchHere`). A number begins at every digit that no word character stands before
(`number_begins`), and takes the digits that follow, then a point and more digits if there are any
(`number_matchHere`).
-/
import Lexicolor.Proofs.StockRules

namespace Lexicolor.Stock

open Text Regex

variable {p : Place} {m : Match} {text after : List Char}

/-! ## Comments -/

/-- A hash and what follows it, up to the end of its line. -/
structure Comment (text after : List Char) : Prop where
  hash : text.head? = some '#'
  line : ∀ c ∈ text, c ≠ '\r' ∧ c ≠ '\n'
  stops : ∀ c cs, after = c :: cs → c = '\r' ∨ c = '\n'

/-- The characters that do not end a line. -/
def inLine : CharSet := .compl (.union (.single '\r') (.single '\n'))

theorem inLine_eq_false {c : Char} : inLine.contains c = false ↔ c = '\r' ∨ c = '\n' := by
  rw [inLine, CharSet.contains, Bool.not_eq_false', CharSet.contains, Bool.or_eq_true]
  simp [CharSet.contains]

/-- **What a comment takes.** -/
theorem comment_matchHere (h : commentPattern.matchHere p = some m) : ∃ text after, p.rest = text ++ after ∧
    Comment text after ∧ m.span = ⟨p, p.pass text after⟩ := by
  obtain ⟨hm, -⟩ := Option.filter_eq_some_iff.1 h
  obtain ⟨c, cs, hr, hc⟩ := commentPattern_opens.matchAt hm
  obtain rfl : c = '#' := by simpa [CharSet.contains] using hc
  have hmatch : commentPattern.expr.matchAt p = some ⟨⟨p, p.passWhile inLine.contains⟩, []⟩ := by
    rw [← Place.passWhile_cons hr (by decide)]
    exact matchAt_one_greedy hr (by decide)
  obtain rfl := Option.some.inj (hmatch.symm.trans hm)
  have hinLine : ∀ d ∈ p.rest.takeWhile inLine.contains, d ≠ '\r' ∧ d ≠ '\n' := by
    intro d hd
    rw [← not_or, ← inLine_eq_false, List.mem_takeWhile_imp hd]
    exact Bool.false_ne_true.symm
  refine ⟨p.rest.takeWhile inLine.contains, p.rest.dropWhile inLine.contains, by simp, ⟨?_, hinLine, ?_⟩, rfl⟩
  · rw [hr, List.takeWhile_cons_of_pos (by decide), List.head?_cons]
  · exact fun d ds hd => inLine_eq_false.1 (not_keep_of_dropWhile hd)

/-! ## Numbers -/

/-- One digit or more. -/
structure Digits (cs : List Char) : Prop where
  ne_nil : cs ≠ []
  digit : ∀ c ∈ cs, c.isDigit = true

/-- The text does not go on with a digit. -/
def NoDigit (after : List Char) : Prop := ∀ c cs, after = c :: cs → c.isDigit = false

/-- The text does not go on with a point and a digit. -/
def NoFraction (after : List Char) : Prop := ∀ c cs, after = '.' :: c :: cs → c.isDigit = false

/-- Digits that the text does not go on with, or digits on both sides of a point. -/
inductive Numeral : List Char → List Char → Prop
  | whole {ds after : List Char} (digits : Digits ds) (stops : NoDigit after) (noFraction : NoFraction after) :
      Numeral ds after
  | decimal {ds fs after : List Char} (digits : Digits ds) (fraction : Digits fs) (stops : NoDigit after) :
      Numeral (ds ++ '.' :: fs) after

theorem Numeral.ne_nil (h : Numeral text after) : text ≠ [] := by
  cases h with
  | whole digits => exact digits.ne_nil
  | decimal => simp

theorem Numeral.mem (h : Numeral text after) : ∀ c ∈ text, c.isDigit = true ∨ c = '.' := by
  intro c hc
  cases h with
  | whole digits => exact .inl (digits.digit c hc)
  | decimal digits fraction =>
    rcases List.mem_append.1 hc with hc | hc
    · exact .inl (digits.digit c hc)
    · rcases List.mem_cons.1 hc with hc | hc
      · exact .inr hc
      · exact .inl (fraction.digit c hc)

/-- The set of the digits. -/
def digit : CharSet := .range '0' '9'

theorem digit_contains (c : Char) : digit.contains c = c.isDigit := by
  simp [digit, CharSet.contains, Char.isDigit, Char.le_def]

/-- Digits belong to words. -/
theorem isWordChar_of_isDigit {c : Char} (h : c.isDigit = true) : isWordChar c = true := by
  have hall : ∀ n < 10, isWordChar (Char.ofNat (48 + n)) = true := by decide +kernel
  have hbounds : 48 ≤ c.toNat ∧ c.toNat ≤ 57 := by
    simpa [Char.isDigit, UInt32.le_iff_toNat_le] using h
  obtain ⟨n, hn⟩ := Nat.exists_eq_add_of_le hbounds.1
  rw [← Char.ofNat_toNat c, hn]
  exact hall n (by omega)

theorem edge_at_digit {c : Char} {cs : List Char} (hr : p.rest = c :: cs) (hc : c.isDigit = true) :
    (Anchor.wordEdge false).holds p = true ↔ ∀ d, p.before = some d → isWordChar d = false := by
  have hword := isWordChar_of_isDigit hc
  cases hb : p.before with
  | none => simp [Anchor.holds, hr, hb, Anchor.isWord, hword]
  | some d => simp [Anchor.holds, hr, hb, Anchor.isWord, hword]

/-- The digits that follow a place, and what stands after them. -/
theorem digits_takeWhile {c : Char} {cs : List Char} (hr : p.rest = c :: cs) (hc : c.isDigit = true) :
    Digits (p.rest.takeWhile digit.contains) ∧ NoDigit (p.rest.dropWhile digit.contains) := by
  refine ⟨⟨?_, fun d hd => ?_⟩, fun d ds hd => ?_⟩
  · rw [hr, List.takeWhile_cons_of_pos (by rwa [digit_contains])]
    exact List.cons_ne_nil _ _
  · rw [← digit_contains]
    exact List.mem_takeWhile_imp hd
  · rw [← digit_contains]
    exact not_keep_of_dropWhile hd

theorem head_ways_digits {t : Trail} {c : Char} {cs : List Char} (hr : t.place.rest = c :: cs)
    (hc : c.isDigit = true) : (ways digits t).head? = some { t with place := t.place.passWhile digit.contains } := by
  have hdigit : digit.contains c = true := by rwa [digit_contains]
  obtain ⟨stops, hways, -⟩ := ways_oneOrMore hr hdigit
  rw [digits, ← digit, hways, List.head?_cons]

/-- A point and the digits after it. -/
def fraction : Expr := .seq (.one (.single '.')) digits

theorem ways_fraction_nil {t : Trail} (h : NoFraction t.place.rest) : ways fraction t = [] := by
  by_contra hne
  obtain ⟨u, hu⟩ := List.exists_mem_of_ne_nil _ hne
  obtain ⟨v, hv, hu⟩ := List.mem_flatMap.1 (mem_distinct hu)
  have hopens : Opens digits digit := (Opens.one digit).oneOrMore true
  obtain ⟨c, cs, hc, hdigit⟩ := hopens v (List.ne_nil_of_mem hu)
  cases hr : t.place.rest with
  | nil => simp [ways, hr] at hv
  | cons d ds =>
    by_cases hd : d = '.'
    · subst hd
      rw [ways_one_of_mem hr (by decide), List.mem_singleton] at hv
      subst hv
      obtain rfl : ds = c :: cs := hc
      rw [digit_contains, h c cs hr] at hdigit
      cases hdigit
    · simp [ways, hr, CharSet.contains, hd] at hv

theorem head_ways_fraction {t : Trail} {c : Char} {cs : List Char} (hr : t.place.rest = '.' :: c :: cs)
    (hc : c.isDigit = true) : (ways fraction t).head? =
      some { t with place := (t.place.pass ['.'] (c :: cs)).passWhile digit.contains } := by
  have hpoint : (ways (.one (.single '.')) t).head? = some { t with place := t.place.pass ['.'] (c :: cs) } := by
    rw [ways_one_of_mem hr (by decide)]
    rfl
  have hdigits : (ways digits { t with place := t.place.pass ['.'] (c :: cs) }).head? =
      some { t with place := (t.place.pass ['.'] (c :: cs)).passWhile digit.contains } :=
    head_ways_digits (t := { t with place := t.place.pass ['.'] (c :: cs) }) rfl hc
  rw [fraction, head_ways_seq hpoint fun hn => by simp [hn] at hdigits]
  exact hdigits

/-- From a digit at a word edge all digits are taken, and then the fraction if there is one. -/
theorem head_ways_number {c : Char} {cs : List Char} (he : (Anchor.wordEdge false).holds p = true)
    (hr : p.rest = c :: cs) (hc : c.isDigit = true) : (ways numberPattern.expr ⟨p, []⟩).head? =
      (ways fraction ⟨p.passWhile digit.contains, []⟩).head?.or (some ⟨p.passWhile digit.contains, []⟩) := by
  have hedge : (ways (.anchor (.wordEdge false)) ⟨p, []⟩).head? = some ⟨p, []⟩ := by
    rw [ways, if_pos he, List.head?_cons]
  have hdigits : (ways digits ⟨p, []⟩).head? = some ⟨p.passWhile digit.contains, []⟩ :=
    head_ways_digits (t := ⟨p, []⟩) hr hc
  have hwhole : (ways (.seq (.anchor (.wordEdge false)) digits) ⟨p, []⟩).head? =
      some ⟨p.passWhile digit.contains, []⟩ := by
    rw [head_ways_seq hedge fun hn => by simp [hn] at hdigits]
    exact hdigits
  rw [← head_ways_optional]
  exact head_ways_seq hwhole (ways_optional_ne_nil fraction _)

/-- **A number is taken as far as it goes**, from a digit at a word edge. -/
theorem number_matchAt {c : Char} {cs : List Char} (he : (Anchor.wordEdge false).holds p = true)
    (hr : p.rest = c :: cs) (hc : c.isDigit = true) : ∃ text after, p.rest = text ++ after ∧ Numeral text after ∧
      numberPattern.expr.matchAt p = some ⟨⟨p, p.pass text after⟩, []⟩ := by
  obtain ⟨hdigits, hstops⟩ := digits_takeWhile hr hc
  have hnumber := head_ways_number he hr hc
  by_cases hnone : NoFraction (p.rest.dropWhile digit.contains)
  · refine ⟨p.rest.takeWhile digit.contains, p.rest.dropWhile digit.contains, by simp,
      .whole hdigits hstops hnone, ?_⟩
    rw [Expr.matchAt, hnumber, ways_fraction_nil hnone]
    rfl
  · simp only [NoFraction, not_forall, Bool.not_eq_false] at hnone
    obtain ⟨d, ds, hd, hdigit⟩ := hnone
    let q : Place := (p.passWhile digit.contains).pass ['.'] (d :: ds)
    obtain ⟨hfraction, hends⟩ := digits_takeWhile (p := q) rfl hdigit
    have htaken : (ways fraction ⟨p.passWhile digit.contains, []⟩).head? = some ⟨q.passWhile digit.contains, []⟩ :=
      head_ways_fraction (t := ⟨p.passWhile digit.contains, []⟩) hd hdigit
    refine ⟨p.rest.takeWhile digit.contains ++ '.' :: (d :: ds).takeWhile digit.contains,
      (d :: ds).dropWhile digit.contains, ?_, .decimal hdigits hfraction hends, ?_⟩
    · rw [List.append_assoc, List.cons_append, List.takeWhile_append_dropWhile, ← hd,
        List.takeWhile_append_dropWhile]
    · have hstop : q.passWhile digit.contains = p.pass (p.rest.takeWhile digit.contains ++
          '.' :: (d :: ds).takeWhile digit.contains) ((d :: ds).dropWhile digit.contains) := by
        rw [Place.passWhile, Place.pass_pass, Place.passWhile, Place.pass_pass]
        rfl
      rw [Expr.matchAt, hnumber, htaken, hstop]
      rfl

/-- A number begins at a word edge. -/
theorem number_edge (h : numberPattern.expr.matchAt p = some m) : (Anchor.wordEdge false).holds p = true := by
  by_contra he
  have hnone : ways numberPattern.expr ⟨p, []⟩ = [] := by
    simp [numberPattern, ways, he, distinct]
  rw [Expr.matchAt, hnone] at h
  cases h

/-- **What a number takes.** No word character stands before it. -/
theorem number_matchHere (h : numberPattern.matchHere p = some m) : ∃ text after, p.rest = text ++ after ∧
    Numeral text after ∧ m.span = ⟨p, p.pass text after⟩ ∧ ∀ d, p.before = some d → isWordChar d = false := by
  obtain ⟨hm, -⟩ := Option.filter_eq_some_iff.1 h
  obtain ⟨c, cs, hr, hc⟩ := numberPattern_opens.matchAt hm
  have hc : c.isDigit = true := by rwa [← digit_contains]
  have he := number_edge hm
  obtain ⟨text, after, hsplit, hnumeral, hmatch⟩ := number_matchAt he hr hc
  obtain rfl := Option.some.inj (hmatch.symm.trans hm)
  exact ⟨text, after, hsplit, hnumeral, rfl, (edge_at_digit hr hc).1 he⟩

/-- **A number begins at every digit** that no word character stands before. -/
theorem number_begins {c : Char} {cs : List Char} (hr : p.rest = c :: cs) (hc : c.isDigit = true)
    (hbefore : ∀ d, p.before = some d → isWordChar d = false) : ∃ m, numberPattern.matchHere p = some m := by
  obtain ⟨text, after, -, hnumeral, hmatch⟩ := number_matchAt ((edge_at_digit hr hc).2 hbefore) hr hc
  refine ⟨_, Option.filter_eq_some_iff.2 ⟨hmatch, ?_⟩⟩
  have := bytes_pos hnumeral.ne_nil
  simp only [Match.isEmpty, Span.isEmpty, Place.pass_eq, Bool.not_eq_true', beq_eq_false_iff_ne]
  omega

end Lexicolor.Stock
