/-
The title of a header, and the colon that the header ends at. A title is a name right after blanks:
the pattern matches all the blanks and then the whole name (`title_matchHere`), so a search finds the
first letter of the text that stands right after a blank (`NameAfter`, `title_found`), or there is none
(`title_not_found`).
-/
import Lexicolor.Proofs.QuotedStrings
import Lexicolor.Proofs.Splitting
import Lexicolor.Proofs.Headers

namespace Lexicolor.Text

/-- What a list of intervals contains lies in one of them. -/
theorem Intervals.exists_of_contains {n : Nat} : ∀ {is : Intervals}, is.contains n = true →
    ∃ i ∈ is, i.1 ≤ n ∧ n ≤ i.2
  | [], h => by cases h
  | (lo, hi) :: is, h => by
    unfold Intervals.contains at h
    split at h
    · cases h
    · next hlo =>
      split at h
      · next hhi => exact ⟨(lo, hi), by simp, Nat.le_of_not_lt hlo, hhi⟩
      · obtain ⟨i, hi', h⟩ := exists_of_contains h
        exact ⟨i, by simp [hi'], h⟩

end Lexicolor.Text

namespace Lexicolor.Stock

open Text Regex Scan

variable {p : Place} {m : Match} {c : Char} {text xs ys : List Char}

/-! ## Blanks and letters -/

theorem blank_not_letterOrDigit (h : isBlank c = true) : thaiLetterOrDigit.contains c = false := by
  have hapart : ∀ i ∈ whiteSpace, ∀ r ∈ [(0xE01, 0xE5B), (0x61, 0x7A), (0x41, 0x5A), (0x30, 0x39), (0x5F, 0x5F)],
      i.2 < r.1 ∨ r.2 < i.1 := by decide
  obtain ⟨i, hi, hlo, hhi⟩ := Intervals.exists_of_contains h
  have hnot := hapart i hi
  simp only [List.forall_mem_cons, List.not_mem_nil, false_imp_iff, implies_true, and_true, Char.toNat] at hnot hlo hhi
  by_contra hc
  simp only [thaiLetterOrDigit, CharSet.unions, CharSet.contains, Bool.not_eq_false, Bool.or_eq_true,
    Bool.and_eq_true, decide_eq_true_eq, beq_iff_eq, Char.le_def, UInt32.le_iff_toNat_le] at hc
  rcases hc with hc | hc | hc | hc | rfl
  · change 0xE01 ≤ c.val.toNat ∧ c.val.toNat ≤ 0xE5B at hc
    omega
  · change 0x61 ≤ c.val.toNat ∧ c.val.toNat ≤ 0x7A at hc
    omega
  · change 0x41 ≤ c.val.toNat ∧ c.val.toNat ≤ 0x5A at hc
    omega
  · change 0x30 ≤ c.val.toNat ∧ c.val.toNat ≤ 0x39 at hc
    omega
  · exact absurd h (by decide)

theorem letter_not_blank (h : thaiLetter.contains c = true) : isBlank c = false := by
  by_contra hb
  have hnot := blank_not_letterOrDigit (Bool.not_eq_false _ ▸ hb)
  rw [letterOrDigit_of_letter h] at hnot
  cases hnot

/-- Identifiers hold no blanks and no colons. -/
theorem IsIdentifier.not_mem {cs : List Char} (h : IsIdentifier cs) : (∀ c ∈ cs, isBlank c = false) ∧ ':' ∉ cs := by
  refine ⟨fun c hc => ?_, fun hc => absurd (h.mem ':' hc) (by decide)⟩
  by_contra hb
  have hnot := blank_not_letterOrDigit (Bool.not_eq_false _ ▸ hb)
  rw [h.mem c hc] at hnot
  cases hnot

/-! ## The title pattern -/

/-- The match of a title: blanks, and then the name that is recorded. -/
def titleMatch (p : Place) (blanks name tail : List Char) : Match :=
  ⟨⟨p, p.pass (blanks ++ name) tail⟩, [("title", ⟨p.pass blanks (name ++ tail), p.pass (blanks ++ name) tail⟩)]⟩

/-- Before a title all blanks are passed. -/
theorem title_matchAt {b : Char} {bs : List Char} (hr : p.rest = b :: bs) (hb : isBlank b = true) :
    titlePattern.expr.matchAt p = (identifier.expr.matchAt (p.passWhile isBlank)).map fun m =>
      ⟨⟨p, m.stop⟩, ("title", m.span) :: m.groups⟩ := by
  have hopens : ∀ (u : Trail) (d : Char) (ds : List Char), u.place.rest = d :: ds → CharSet.space.contains d = true →
      ways (.group (some "title") identifier.expr) u = [] := by
    intro u d ds hu hd
    by_contra hne
    obtain ⟨c, cs, hc, hletter⟩ := identifier_opens u fun hnil => hne (by rw [ways, hnil]; rfl)
    rw [hu] at hc
    cases hc
    have hblank : isBlank d = true := hd
    rw [letter_not_blank hletter] at hblank
    cases hblank
  have hgroup : ∀ q : Place, (Expr.group (some "title") identifier.expr).matchAt q =
      (identifier.expr.matchAt q).map fun m => ⟨m.span, ("title", m.span) :: m.groups⟩ := by
    intro q
    rw [Expr.matchAt, Expr.matchAt, ways, List.head?_map, Option.map_map, Option.map_map]
    rfl
  have hseq := matchAt_oneOrMore_seq hopens hr hb
  rw [hgroup, Option.map_map] at hseq
  exact hseq

/-- **A title matches** where there are blanks and then a name. -/
theorem title_matchHere : titlePattern.matchHere p = some m ↔ ∃ blanks name tail,
    p.rest = blanks ++ (name ++ tail) ∧ blanks ≠ [] ∧ (∀ b ∈ blanks, isBlank b = true) ∧ IsIdentifier name ∧
      Stops tail ∧ m = titleMatch p blanks name tail := by
  constructor
  · intro h
    obtain ⟨h, -⟩ := Option.filter_eq_some_iff.1 h
    have hopens : Opens titlePattern.expr .space := ((Opens.one .space).oneOrMore true).seq _
    obtain ⟨b, bs, hr, hb⟩ := hopens.matchAt h
    have hb : isBlank b = true := hb
    rw [title_matchAt hr hb] at h
    obtain ⟨e, he, rfl⟩ := Option.map_eq_some_iff.1 h
    obtain ⟨c, cs, hc, hletter⟩ := identifier_opens.matchAt he
    rw [identifier_matchAt hc hletter] at he
    obtain rfl := Option.some.inj he
    have hc : p.rest.dropWhile isBlank = c :: cs := hc
    refine ⟨p.rest.takeWhile isBlank, (p.rest.dropWhile isBlank).takeWhile thaiLetterOrDigit.contains,
      (p.rest.dropWhile isBlank).dropWhile thaiLetterOrDigit.contains, ?_, ?_, ?_, ?_, .dropWhile _, ?_⟩
    · rw [List.takeWhile_append_dropWhile, List.takeWhile_append_dropWhile]
    · rw [hr, List.takeWhile_cons_of_pos hb]
      simp
    · exact fun b => List.mem_takeWhile_imp
    · rw [hc, List.takeWhile_cons_of_pos (letterOrDigit_of_letter hletter)]
      exact ⟨c, _, rfl, hletter, fun d => List.mem_takeWhile_imp⟩
    · have hpass : (p.passWhile isBlank).passWhile thaiLetterOrDigit.contains = p.pass
          (p.rest.takeWhile isBlank ++ (p.rest.dropWhile isBlank).takeWhile thaiLetterOrDigit.contains)
          ((p.rest.dropWhile isBlank).dropWhile thaiLetterOrDigit.contains) := Place.pass_pass ..
      simp only [titleMatch, Match.stop, hpass, List.takeWhile_append_dropWhile]
      rfl
  · rintro ⟨blanks, name, tail, hr, hne, hblanks, hname, htail, rfl⟩
    have hnot : ∀ c ds, name ++ tail = c :: ds → isBlank c = false := by
      obtain ⟨c, cs, rfl, hc, -⟩ := hname
      intro d ds hd
      cases hd
      exact letter_not_blank hc
    obtain ⟨htake, hdrop⟩ := takeWhile_dropWhile_append hblanks hnot
    have hpass : p.passWhile isBlank = p.pass blanks (name ++ tail) := by
      rw [Place.passWhile, hr, htake, hdrop]
    obtain ⟨b, bs, rfl⟩ := List.exists_cons_of_ne_nil hne
    have hpos := bytes_pos hname.ne_nil
    refine Option.filter_eq_some_iff.2 ⟨?_, ?_⟩
    · rw [title_matchAt hr (hblanks b (by simp)), hpass, identifier_matchAt_word rfl hname htail, Place.pass_pass]
      rfl
    · simp only [titleMatch, Match.isEmpty, Span.isEmpty, Place.pass_eq, bytes_append, Bool.not_eq_true',
        beq_eq_false_iff_ne]
      omega

/-- A title that ends before its parent does is kept as it stands. -/
theorem titleToken_titleMatch {t : TitleRule} {finish : Pattern} {q : Place} {blanks name tail : List Char} (hname : name ≠ [])
    (hle : p.offset + bytes (blanks ++ name) ≤ (terminator finish q).start.offset) :
    titleToken t (titleMatch p blanks name tail) (finish.findFrom q) =
      ([.over .title (p.offset + bytes blanks) name], p.pass (blanks ++ name) tail) := by
  have hpos := bytes_pos hname
  rw [titleToken_uncut]
  · simp only [titleMatch, Match.group, List.lookup_cons_self, Option.getD_some, Match.stop]
    rw [Token.ofSpan_eq rfl (by simp [Place.pass_eq, Nat.add_assoc])]
    simp only [Place.pass_eq]
  · exact hle
  · simp only [titleMatch, Match.group, List.lookup_cons_self, Option.getD_some, Place.pass_eq, bytes_append]
    omega

/-! ## Searching for a title -/

/-- After the characters, of which the last is a blank, the text goes on with a letter. -/
def NameAfter (text xs : List Char) : Prop :=
  ∃ bs b c cs, xs = bs ++ [b] ∧ text = xs ++ c :: cs ∧ isBlank b = true ∧ thaiLetter.contains c = true

theorem nameAfter_append {bs blanks name tail : List Char} (hne : blanks ≠ [])
    (hblanks : ∀ b ∈ blanks, isBlank b = true) (hname : IsIdentifier name) :
    NameAfter (bs ++ (blanks ++ (name ++ tail))) (bs ++ blanks) := by
  obtain ⟨as, b, rfl⟩ := List.eq_nil_or_concat blanks |>.resolve_left hne
  obtain ⟨c, cs, rfl, hc, -⟩ := hname
  exact ⟨bs ++ as, b, c, cs ++ tail, by simp, by simp, hblanks b (by simp), hc⟩

/-- Where a letter stands right after a blank, a title matches at that blank. -/
theorem NameAfter.matches (h : NameAfter p.rest xs) : ∃ q m, p.Reaches q ∧ q.offset = p.offset + bytes xs.dropLast ∧
    titlePattern.matchHere q = some m := by
  obtain ⟨bs, b, c, cs, rfl, hr, hb, hc⟩ := h
  have hname : IsIdentifier ((c :: cs).takeWhile thaiLetterOrDigit.contains) := by
    rw [List.takeWhile_cons_of_pos (letterOrDigit_of_letter hc)]
    exact ⟨c, _, rfl, hc, fun d => List.mem_takeWhile_imp⟩
  have hsplit : b :: c :: cs = [b] ++ ((c :: cs).takeWhile thaiLetterOrDigit.contains ++
      (c :: cs).dropWhile thaiLetterOrDigit.contains) := by
    rw [List.takeWhile_append_dropWhile]
    rfl
  have hm := title_matchHere (p := p.pass bs (b :: c :: cs)).2
    ⟨[b], _, _, hsplit, by simp, by simpa using hb, hname, .dropWhile _, rfl⟩
  exact ⟨_, _, .pass (by simp [hr]), by rw [List.dropLast_concat]; rfl, hm⟩

/-- **No title is found** exactly if no letter stands right after a blank. -/
theorem title_not_found : titlePattern.findFrom p = none ↔ ∀ xs, ¬ NameAfter p.rest xs := by
  rw [Pattern.findFrom_eq_none_iff]
  constructor
  · intro h xs hxs
    obtain ⟨q, m, hq, -, hm⟩ := hxs.matches
    rw [h q hq] at hm
    cases hm
  · intro h q hq
    by_contra hne
    obtain ⟨m, hm⟩ := Option.ne_none_iff_exists'.1 hne
    obtain ⟨blanks, name, tail, hr, hne, hblanks, hname, -, -⟩ := title_matchHere.1 hm
    refine h (p.charsTo q ++ blanks) ?_
    rw [hq.rest_eq, hr]
    exact nameAfter_append hne hblanks hname

/-- A letter that stands right after a blank is none of the blanks that an earlier place begins with. -/
theorem NameAfter.length_le {lead blanks rest : List Char} (h : NameAfter text xs) (ht : text = lead ++ (blanks ++ rest))
    (hblanks : ∀ b ∈ blanks, isBlank b = true) (hle : bytes lead ≤ bytes xs.dropLast) :
    (lead ++ blanks).length ≤ xs.length := by
  obtain ⟨bs, b, c, cs, rfl, hsplit, -, hc⟩ := h
  rw [List.dropLast_concat] at hle
  by_contra hlt
  have hshort : bs ++ [b] ++ c :: cs = lead ++ blanks ++ rest := by rw [← hsplit, ht, List.append_assoc]
  rcases List.append_eq_append_iff.1 hshort with ⟨es, hes, hcs⟩ | ⟨es, hes, -⟩
  · cases es with
    | nil => simp [hes] at hlt
    | cons e es =>
      obtain rfl : c = e := (List.cons.inj hcs).1
      have hmem : c ∈ blanks := by
        rw [List.append_assoc] at hes
        rcases List.append_eq_append_iff.1 hes with ⟨fs, -, hfs⟩ | ⟨fs, rfl, hfs⟩
        · simp [hfs]
        · rw [bytes_append] at hle
          obtain rfl : fs = [] := bytes_eq_zero.1 (by omega)
          rw [List.nil_append] at hfs
          simp [← hfs]
      have hblank := hblanks c hmem
      rw [letter_not_blank hc] at hblank
      cases hblank
  · rw [hes] at hlt
    simp at hlt

/-- **The title that is found** is the name at the first letter that stands right after a blank. -/
theorem title_found (h : titlePattern.findFrom p = some m) : ∃ lead blanks name tail,
    p.rest = lead ++ (blanks ++ (name ++ tail)) ∧ blanks ≠ [] ∧ (∀ b ∈ blanks, isBlank b = true) ∧
      IsIdentifier name ∧ Stops tail ∧ m = titleMatch (p.pass lead (blanks ++ (name ++ tail))) blanks name tail ∧
      ∀ xs, NameAfter p.rest xs → (lead ++ blanks).length ≤ xs.length := by
  obtain ⟨⟨lead, hlead, hstart⟩, hm, hbefore⟩ := Pattern.findFrom_eq_some_iff.1 h
  obtain ⟨blanks, name, tail, hr, hne, hblanks, hname, htail, heq⟩ := title_matchHere.1 hm
  rw [hr] at hlead hstart
  rw [hstart] at heq
  refine ⟨lead, blanks, name, tail, hlead, hne, hblanks, hname, htail, heq, fun xs hxs => ?_⟩
  obtain ⟨q, e, hq, hoffset, he⟩ := hxs.matches
  refine hxs.length_le hlead hblanks ?_
  by_contra hlt
  rw [hbefore q hq (by simp only [hstart, hoffset, Place.pass_eq]; omega)] at he
  cases he

/-! ## The colon -/

theorem colon_matchHere : colon.matchHere p = some m ↔ ∃ rest, p.rest = ':' :: rest ∧ m = ⟨⟨p, p.pass [':'] rest⟩, []⟩ := by
  have hliteral : (literal ":").matchHere p = some m ↔ _ := literal_matchHere (by decide)
  exact hliteral

/-- The characters before the first colon, or all if there is none. -/
def beforeColon (text : List Char) : List Char := text.takeWhile (· ≠ ':')

theorem beforeColon_append {rest : List Char} (h : ':' ∉ xs) : beforeColon (xs ++ rest) = xs ++ beforeColon rest :=
  List.takeWhile_append_of_pos fun _ hx => decide_eq_true fun hc => h (hc ▸ hx)

/-- What ends at a colon ends where the first colon stands, or with the text. -/
theorem colon_terminator (p : Place) : (terminator colon p).start = p.passWhile (· ≠ ':') := by
  cases h : colon.findFrom p with
  | none =>
    have hall : ∀ c ∈ p.rest, (decide (c ≠ ':')) = true := by
      intro c hc
      by_contra hcolon
      obtain rfl : c = ':' := by simpa using hcolon
      obtain ⟨as, bs, hr⟩ := List.append_of_mem hc
      have hm := colon_matchHere (p := p.pass as (':' :: bs)).2 ⟨bs, rfl, rfl⟩
      rw [Pattern.findFrom_eq_none_iff.1 h _ (.pass hr)] at hm
      cases hm
    rw [terminator_of_none h, Place.passWhile, List.takeWhile_eq_self_iff.2 hall, List.dropWhile_eq_nil_iff.2 hall]
    rfl
  | some m =>
    obtain ⟨⟨as, hr, hstart⟩, hm, hbefore⟩ := Pattern.findFrom_eq_some_iff.1 h
    obtain ⟨rest, hrest, -⟩ := colon_matchHere.1 hm
    have has : ∀ a ∈ as, (decide (a ≠ ':')) = true := by
      intro a ha
      by_contra hcolon
      obtain rfl : a = ':' := by simpa using hcolon
      obtain ⟨bs, ds, rfl⟩ := List.append_of_mem ha
      have hm := colon_matchHere (p := p.pass bs (':' :: (ds ++ m.start.rest))).2 ⟨_, rfl, rfl⟩
      rw [hbefore _ (.pass (by simp [hr])) ?_] at hm
      · cases hm
      · have := Char.utf8Size_pos ':'
        rw [hstart]
        simp only [Place.pass_eq, bytes_append, bytes_cons]
        omega
    have hstop : ∀ b ds, m.start.rest = b :: ds → (decide (b ≠ ':')) = false := by simp [hrest]
    obtain ⟨htake, hdrop⟩ := takeWhile_dropWhile_append has hstop
    rw [terminator_of_some h, Place.passWhile, hr, htake, hdrop]
    exact hstart

theorem colon_terminator_offset (p : Place) :
    (terminator colon p).start.offset = p.offset + bytes (beforeColon p.rest) := by
  rw [colon_terminator]
  rfl

/-- Characters before a letter stand before the first colon unless they hold it. -/
theorem nameAfter_beforeColon : NameAfter (beforeColon text) xs ↔ NameAfter text xs ∧ ':' ∉ xs := by
  constructor
  · rintro ⟨bs, b, c, cs, rfl, ht, hb, hc⟩
    refine ⟨⟨bs, b, c, cs ++ text.dropWhile (· ≠ ':'), rfl, ?_, hb, hc⟩, fun hcolon => ?_⟩
    · rw [← List.cons_append, ← List.append_assoc, ← ht, beforeColon, List.takeWhile_append_dropWhile]
    · have hmem : ':' ∈ beforeColon text := by
        rw [ht]
        exact List.mem_append_left _ hcolon
      simpa using List.mem_takeWhile_imp hmem
  · rintro ⟨⟨bs, b, c, cs, rfl, ht, hb, hc⟩, hcolon⟩
    have hletter : c ≠ ':' := by
      rintro rfl
      exact absurd hc (by decide)
    refine ⟨bs, b, c, beforeColon cs, rfl, ?_, hb, hc⟩
    have hcons : beforeColon ([c] ++ cs) = [c] ++ beforeColon cs := beforeColon_append (by simpa using hletter.symm)
    rw [ht, beforeColon_append hcolon]
    exact congrArg _ hcons

/-- What a text begins with holds no colon if it takes no more bytes than what stands before the colon. -/
theorem not_mem_of_bytes_le {rest : List Char} (ht : text = xs ++ rest) (hle : bytes xs ≤ bytes (beforeColon text)) :
    ':' ∉ xs := by
  intro hcolon
  have hsome : ¬ ∀ c ∈ xs, decide (c ≠ ':') = true := fun hall => by simpa using hall ':' hcolon
  obtain ⟨as, b, bs, rfl, has, hb⟩ := exists_of_not_keep hsome
  have hstop : ∀ d ds, b :: bs ++ rest = d :: ds → decide (d ≠ ':') = false := by
    intro d ds hd
    cases hd
    exact hb
  have htake : beforeColon text = as := by
    rw [ht, List.append_assoc]
    exact (takeWhile_dropWhile_append has hstop).1
  have := b.utf8Size_pos
  rw [htake, bytes_append, bytes_cons] at hle
  omega

/-- What a text begins with and what holds no colon takes no more bytes than what stands before the colon. -/
theorem bytes_le_of_not_mem {rest : List Char} (ht : text = xs ++ rest) (hcolon : ':' ∉ xs) :
    bytes xs ≤ bytes (beforeColon text) := by
  rw [ht, beforeColon_append hcolon, bytes_append]
  exact Nat.le_add_right ..

end Lexicolor.Stock
