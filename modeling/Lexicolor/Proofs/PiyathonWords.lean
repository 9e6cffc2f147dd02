/-
Words of Piyathon, each on its own or between spaces. A rule of the grammar can only begin at a
character that is in no identifier, at a digit, or at an anchor (`begins_at`); what begins inside a
word is passed over with the word. So a word gives one token, unless it begins with an anchor that
ends at a word edge: some characters of the Thai block are in identifiers but are not word
characters, and before one of them an anchor is taken for a whole word (`BreaksOff`).
-/
import Lexicolor.Piyathon
import Lexicolor.Proofs.SpacedWords
import Lexicolor.Proofs.StockRules
import Lexicolor.Proofs.Passages

namespace Lexicolor.Piyathon

open Text Regex Scan Stock

variable {p q : Place} {w : String} {pad cs tail more : List Char}

/-! ## Where rules begin -/

theorem grammar_identifier : grammar.identifier = identifier := rfl

/-- The ways in which rules begin at the top level. -/
abbrev beginnings : List Alternative := alternativesFrom grammar true 0 grammar.rules

/-- However a rule of the grammar begins, it begins at the top level. -/
theorem begins_of_rule {r : Rule} (hr : r ∈ grammar.rules) :
    ∃ k, ∀ a ∈ alternativesOf grammar true k r, a ∈ beginnings := alternativesOf_mem hr 0

/-- The scopes of the headers and their anchors. -/
def headers : List (Scope × String) := [(.function, define), (.classDef, classAnchor)]

theorem forall_headers {P : Scope × String → Prop} (h1 : P (.function, define))
    (h2 : P (.classDef, classAnchor)) : ∀ h ∈ headers, P h := by
  intro h hh
  simp only [headers, List.mem_cons, List.not_mem_nil, or_false] at hh
  rcases hh with rfl | rfl
  · exact h1
  · exact h2

theorem anchor_first : ∀ h ∈ headers, ∃ c cs, h.2.toList = c :: cs ∧ isWordChar c = true :=
  forall_headers ⟨_, _, rfl, by decide +kernel⟩ ⟨_, _, rfl, by decide +kernel⟩

theorem anchor_last : ∀ h ∈ headers, ∃ c, h.2.toList.getLast? = some c ∧ isWordChar c = true :=
  forall_headers ⟨_, rfl, by decide +kernel⟩ ⟨_, rfl, by decide +kernel⟩

theorem anchor_no_space : ∀ h ∈ headers, ' ' ∉ h.2.toList := forall_headers (by decide) (by decide)

theorem header_mem : ∀ h ∈ headers, blockHeader h.1 h.2 ∈ grammar.rules :=
  forall_headers (by simp [grammar]) (by simp [grammar])

theorem header_scope : ∀ h ∈ headers, h.1 = .function ∨ h.1 = .classDef :=
  forall_headers (.inl rfl) (.inr rfl)

/-- The word begins with an anchor, and the character after the anchor is not a word character. -/
def BreaksOff (cs : List Char) : Prop :=
  ∃ h ∈ headers, ∃ c ds, cs = h.2.toList ++ c :: ds ∧ isWordChar c = false

theorem breaksOff_iff : BreaksOff cs ↔
    ∃ h ∈ headers, h.2.toList.isPrefixOf cs ∧ ((cs.drop h.2.toList.length).head?.any fun c => !isWordChar c) := by
  constructor
  · rintro ⟨h, hh, c, ds, rfl, hc⟩
    refine ⟨h, hh, ?_, ?_⟩
    · rw [List.isPrefixOf_iff_prefix]
      exact List.prefix_append ..
    · simp [hc]
  · rintro ⟨h, hh, hpre, hany⟩
    obtain ⟨es, rfl⟩ := List.isPrefixOf_iff_prefix.1 hpre
    rw [List.drop_left] at hany
    cases es with
    | nil => simp at hany
    | cons c ds => exact ⟨h, hh, c, ds, rfl, by simpa using hany⟩

instance (cs : List Char) : Decidable (BreaksOff cs) := decidable_of_iff _ breaksOff_iff.symm

/-- A rule begins at one of the openers, or it is a header. -/
theorem begins_cases {a : Alternative} (ha : a ∈ beginnings) : Opens a.begin_.expr openers ∨
    ∃ h ∈ headers, ∃ n, a ∈ alternativesOf grammar true n (blockHeader h.1 h.2) := by
  obtain ⟨r, hr, n, ha, -⟩ := mem_alternativesFrom ha
  simp only [grammar, List.mem_cons, List.not_mem_nil, or_false] at hr
  rcases hr with hr | hr | hr | rfl | rfl
  · exact .inl (begins_of_mem (by simp [hr]) ha)
  · exact .inl (begins_of_mem (by simp [hr]) ha)
  · exact .inl (begins_of_mem (by simp [hr]) ha)
  · exact .inr ⟨(.function, define), by simp [headers], n, ha⟩
  · exact .inr ⟨(.classDef, classAnchor), by simp [headers], n, ha⟩

/-- What follows where a rule begins: one of the openers, or an anchor at a word edge. -/
theorem begins_at {a : Alternative} {m : Match} (ha : a ∈ beginnings) (hm : a.begin_.matchHere p = some m) :
    (∃ c cs, p.rest = c :: cs ∧ openers.contains c = true) ∨
      ∃ h ∈ headers, (∃ n, a ∈ alternativesOf grammar true n (blockHeader h.1 h.2)) ∧
        ∃ rest, p.rest = h.2.toList ++ rest ∧
          (Anchor.wordEdge false).holds (p.pass h.2.toList rest) = true := by
  rcases begins_cases ha with ho | ⟨h, hh, n, hn⟩
  · exact .inl (ho.matchAt (Option.filter_eq_some_iff.1 hm).1)
  · rw [blockHeader_begin hn] at hm
    obtain ⟨c, cs, hc, -⟩ := anchor_first _ hh
    obtain ⟨rest, hr, -, he, -⟩ := (wholeWord_matchHere (by simp [hc])).1 hm
    exact .inr ⟨h, hh, ⟨n, hn⟩, rest, hr, he⟩

/-- No rule begins at a space. -/
theorem not_begins_at_space {a : Alternative} (ha : a ∈ beginnings)
    (h : ∀ c cs, p.rest = c :: cs → c = ' ') : a.begin_.matchHere p = none := by
  by_contra hne
  obtain ⟨m, hm⟩ := Option.ne_none_iff_exists'.1 hne
  rcases begins_at ha hm with ⟨c, cs, hr, ho⟩ | ⟨x, hx, -, rest, hr, -⟩
  · rw [h c cs hr, openers_space] at ho
    cases ho
  · obtain ⟨c, cs, hc, -⟩ := anchor_first _ hx
    rw [hc, List.cons_append] at hr
    exact anchor_no_space _ hx (by simp [hc, h c _ hr])

/-- An anchor at a word edge at the beginning of a longer word breaks off. -/
theorem breaksOff_of_anchor {h : Scope × String} {rest : List Char} (hh : h ∈ headers)
    (hr : cs ++ tail = h.2.toList ++ rest) (htail : Spaces tail) (hne : cs ≠ h.2.toList)
    (he : (Anchor.wordEdge false).holds (p.pass h.2.toList rest) = true) : BreaksOff cs := by
  obtain ⟨d, hd, hword⟩ := anchor_last _ hh
  rcases List.append_eq_append_iff.1 hr with ⟨es, hes, htl⟩ | ⟨es, hes, hrest⟩
  · -- What the anchor has beyond the word is spaces, so it has nothing.
    cases es with
    | nil => exact absurd (by simpa using hes.symm) hne
    | cons e es =>
      have hspace : e = ' ' := htail e (by simp [htl])
      exact absurd (by simp [hes, hspace]) (anchor_no_space _ hh)
  · cases es with
    | nil => exact absurd (by simpa using hes) hne
    | cons e es =>
      refine ⟨h, hh, e, es, hes, ?_⟩
      simpa [Anchor.holds, Place.pass_eq, hd, hrest, Anchor.isWord, hword] using he

variable {a : Alternative} {m : Match}

/-- **Rules begin inside the word** only, if it does not break off. -/
theorem begins_inside (ha : a ∈ beginnings) (hr : p.rest = pad ++ (cs ++ tail)) (hpad : Spaces pad)
    (hcs : IsIdentifier cs) (htail : Spaces tail) (hne : ∀ h ∈ headers, cs ≠ h.2.toList)
    (hb : ¬ BreaksOff cs) (hq : p.Reaches q) (hm : a.begin_.matchHere q = some m) :
    p.offset + bytes pad < q.offset ∧ q.offset < p.offset + bytes pad + bytes cs := by
  rcases place_cases hr hpad htail hq with h | rfl | h
  · rw [not_begins_at_space ha h] at hm
    cases hm
  · exfalso
    rcases begins_at ha hm with ⟨c, ds, hc, ho⟩ | ⟨h, hh, -, rest, hc, he⟩
    · exact hcs.not_openers hc ho
    · exact hb (breaksOff_of_anchor hh hc htail (hne h hh) he)
  · exact h

/-! ## Passages -/

theorem passages_spaces (h : Spaces p.rest) : Passages grammar beginnings p (plain p.offset p.rest) := by
  by_cases hn : p.rest = []
  · rw [hn]
    exact .done hn
  · have hd : due beginnings p = none := by
      by_contra hne
      obtain ⟨c, hc⟩ := Option.ne_none_iff_exists'.1 hne
      obtain ⟨hmem, hf⟩ := due_mem hc
      obtain ⟨h1, h2, -⟩ := Pattern.findFrom_eq_some_iff.1 hf
      obtain ⟨es, hes, -⟩ := h1
      rw [not_begins_at_space hmem fun d ds hds => h d (by simp [hes, hds])] at h2
      cases h2
    have hp : passage grammar beginnings p = (plain p.offset p.rest, p.finish) := by
      rw [passage, hd]
      simp only [Place.finish, gapTokens_spaces grammar_identifier (List.append_nil p.rest).symm h]
    exact .last hn (congrArg Prod.fst hp) (by rw [hp]; rfl)

/-- **A word among spaces** that does not break off is one token. -/
theorem passages_word (hr : p.rest = pad ++ (cs ++ tail)) (hpad : Spaces pad) (hcs : IsIdentifier cs)
    (htail : Spaces tail) (hne : ∀ h ∈ headers, cs ≠ h.2.toList) (hb : ¬ BreaksOff cs) :
    Passages grammar beginnings p (plain p.offset pad ++ word grammar (p.offset + bytes pad) cs ::
      plain (p.offset + bytes pad + bytes cs) tail) := by
  have hnil : p.rest ≠ [] := by simp [hr, hcs.ne_nil]
  cases hd : due beginnings p with
  | none =>
    have hp : passage grammar beginnings p = (plain p.offset pad ++ word grammar (p.offset + bytes pad) cs ::
        plain (p.offset + bytes pad + bytes cs) tail, p.finish) := by
      have hr' : p.rest = pad ++ (cs ++ tail) ++ [] := by rw [hr, List.append_nil]
      rw [passage, hd]
      simp only [Place.finish, hr, gapTokens_word grammar_identifier hr' hpad hcs htail]
    exact .last hnil (congrArg Prod.fst hp) (by rw [hp]; rfl)
  | some c =>
    -- What is due begins inside the word, so the word is passed over first.
    obtain ⟨hmem, hf⟩ := due_mem hd
    obtain ⟨h1, h2, -⟩ := Pattern.findFrom_eq_some_iff.1 hf
    obtain ⟨hlt, hgt⟩ := begins_inside hmem hr hpad hcs htail hne hb h1 h2
    have hp : passage grammar beginnings p = (plain p.offset pad ++ [word grammar (p.offset + bytes pad) cs],
        p.pass (pad ++ cs) tail) := by
      have hr' : p.rest = pad ++ (cs ++ []) ++ tail := by simp [hr]
      have hgap := gapTokens_word grammar_identifier hr' hpad hcs (fun c hc => by cases hc)
      rw [List.append_nil] at hgap
      rw [passage, hd]
      simp only [wordAcross_word grammar_identifier hr hpad hcs htail hlt hgt, hgap]
      rfl
    have hnext : Passages grammar beginnings (passage grammar beginnings p).2
        (plain (p.offset + bytes pad + bytes cs) tail) := by
      have ho : p.offset + bytes pad + bytes cs = (p.pass (pad ++ cs) tail).offset := by
        simp only [Place.pass_eq, bytes_append, Nat.add_assoc]
      rw [hp, ho]
      exact passages_spaces htail
    have hstep := Passages.step hnil hnext
    rwa [hp, List.append_assoc, List.singleton_append] at hstep

/-! ## Words that break off -/

/-- At a word that breaks off, a header begins. -/
theorem header_begins (hr : p.rest = cs ++ tail) (hp : Anchor.isWord false p.before = false)
    (hb : BreaksOff cs) : ∃ a ∈ beginnings, ∃ m, m.start = p ∧ a.begin_.matchHere p = some m := by
  obtain ⟨h, hh, c, ds, rfl, hc⟩ := hb
  obtain ⟨first, es, hfirst, hfw⟩ := anchor_first _ hh
  obtain ⟨last, hlast, hlw⟩ := anchor_last _ hh
  obtain ⟨k, hk⟩ := begins_of_rule (header_mem _ hh)
  obtain ⟨a, ha⟩ : ∃ a, a ∈ alternativesOf grammar true k (blockHeader h.1 h.2) :=
    ⟨_, List.mem_singleton.2 rfl⟩
  refine ⟨a, hk a ha, ⟨⟨p, p.pass h.2.toList (c :: ds ++ tail)⟩, []⟩, rfl, ?_⟩
  rw [blockHeader_begin ha, wholeWord_matchHere (by simp [hfirst])]
  refine ⟨c :: ds ++ tail, by simp [hr], ?_, ?_, rfl⟩
  · have hf : Anchor.isWord false (some first) = true := hfw
    simp [Anchor.holds, hp, hr, hfirst, hf]
  · simp [Anchor.holds, Place.pass_eq, hlast, Anchor.isWord, hlw, hc]

/-- **A word that breaks off** is taken by a header. -/
theorem passage_of_breaksOff (hr : p.rest = cs ++ tail) (hcs : IsIdentifier cs)
    (hp : Anchor.isWord false p.before = false) (hb : BreaksOff cs) :
    ∃ t, (passage grammar beginnings p).1 = [t] ∧ (t.scope = .function ∨ t.scope = .classDef) := by
  obtain ⟨a, ha, m, hm, hfound⟩ := header_begins hr hp hb
  obtain ⟨c, hd, hle⟩ := due_le ha (Pattern.findFrom_here hfound)
  obtain ⟨hmem, hcf⟩ := due_mem hd
  obtain ⟨h1, h2, -⟩ := Pattern.findFrom_eq_some_iff.1 hcf
  have hstart : c.found.start = p := by
    have := h1.offset_le
    rw [hm] at hle
    exact (h1.eq_of_offset_eq (by omega)).symm
  rw [hstart] at h2
  rcases begins_at hmem h2 with ⟨d, es, hd', ho⟩ | ⟨h, hh, ⟨n, hn⟩, -⟩
  · exact absurd ho (hcs.not_openers (hr ▸ hd'))
  · obtain ⟨t, ht, hscope⟩ := alternativesOf_scope rfl hn c.found.span
    refine ⟨t, congrArg Prod.fst (passage_here hd hstart ht), ?_⟩
    rw [hscope]
    exact header_scope h hh

/-- No word has the scope of a header. -/
theorem wordScope_ne (w : String) : grammar.wordScope w ≠ .function ∧ grammar.wordScope w ≠ .classDef :=
  ⟨grammar.wordScope_ne w (by decide) (by decide), grammar.wordScope_ne w (by decide) (by decide)⟩

/-- **When a word of Piyathon stands as one token**, on its own and between two spaces: the scope of
the token is that of the word's class, or identifier if the word is not listed. It does, the anchors
apart, exactly when the word does not break off. -/
theorem tokenize_word_iff (w : String) (hw : identifier.matchesFully w = true) (hd : w ≠ define)
    (hc : w ≠ classAnchor) :
    (tokenize grammar w = [⟨grammar.wordScope w, 0, w.utf8ByteSize, w, []⟩] ∧
      tokenize grammar (" " ++ w ++ " ") = [⟨.plain, 0, 1, " ", []⟩,
        ⟨grammar.wordScope w, 1, 1 + w.utf8ByteSize, w, []⟩,
        ⟨.plain, 1 + w.utf8ByteSize, 2 + w.utf8ByteSize, " ", []⟩]) ↔
    ¬ BreaksOff w.toList := by
  have hcs := matchesFully_identifier.1 hw
  constructor
  · rintro ⟨h, -⟩ hb
    obtain ⟨t, ht, hscope⟩ := passage_of_breaksOff (p := .start w.toList) (List.append_nil w.toList).symm
      hcs rfl hb
    obtain ⟨ts, hts⟩ := (tokenize_eq_iff.1 h).cases_step hcs.ne_nil
    rw [ht, List.singleton_append, List.cons.injEq] at hts
    rw [← hts.1] at hscope
    exact hscope.elim (wordScope_ne w).1 (wordScope_ne w).2
  · intro hb
    have hne : ∀ h ∈ headers, w.toList ≠ h.2.toList :=
      forall_headers (fun h => hd (String.toList_inj.1 h)) (fun h => hc (String.toList_inj.1 h))
    have hsp : Spaces [' '] := by simp [Spaces]
    have hnil : Spaces [] := by simp [Spaces]
    have hr : (Place.start w.toList).rest = [] ++ (w.toList ++ []) := (List.append_nil w.toList).symm
    have hr' : (Place.start (" " ++ w ++ " ").toList).rest = [' '] ++ (w.toList ++ [' ']) := by
      simp [Place.start]
    have alone := passages_word hr hnil hcs hnil hne hb
    have between := passages_word hr' hsp hcs hsp hne hb
    have hspace : bytes [' '] = 1 := by decide
    simp only [Place.start, plain, word_eq, Token.over, hspace, bytes_nil, if_true, List.nil_append,
      List.cons_ne_nil, if_false, List.singleton_append, Nat.zero_add] at alone between
    have hstop : 2 + w.utf8ByteSize = 1 + w.utf8ByteSize + 1 := by omega
    rw [← utf8ByteSize_eq_bytes] at between
    refine ⟨tokenize_eq_iff.2 alone, tokenize_eq_iff.2 ?_⟩
    rw [hstop]
    exact between

theorem tokenize_longer_word :
    (identifier.matchesFully "นิยามใหม่" = true ∧ "นิยามใหม่" ≠ define ∧ "นิยามใหม่" ≠ classAnchor) ∧
    tokenize grammar "นิยามใหม่" =
      [⟨grammar.wordScope "นิยามใหม่", 0, "นิยามใหม่".utf8ByteSize, "นิยามใหม่", []⟩] :=
  ⟨⟨by decide +kernel, by decide, by decide⟩,
    ((tokenize_word_iff "นิยามใหม่" (by decide +kernel) (by decide) (by decide)).2 (by decide +kernel)).1⟩

/-- The currency sign is in identifiers but is not a word character: the word is taken by a header. -/
theorem header_takes_word :
    identifier.matchesFully "นิยาม฿" = true ∧ "นิยาม฿" ≠ define ∧ "นิยาม฿" ≠ classAnchor ∧
    ((tokenize grammar "นิยาม฿").map fun t => (t.scope, t.text, t.children.map (·.text))) =
      [(.function, "นิยาม฿", ["นิยาม"])] ∧
    tokenize grammar "นิยาม฿" ≠ [⟨grammar.wordScope "นิยาม฿", 0, 18, "นิยาม฿", []⟩] := by
  have h : ((tokenize grammar "นิยาม฿").map fun t => (t.scope, t.text, t.children.map (·.text))) =
      [(.function, "นิยาม฿", ["นิยาม"])] := by decide +kernel
  refine ⟨by decide +kernel, by decide, by decide, h, fun he => ?_⟩
  rw [he] at h
  simp at h

end Lexicolor.Piyathon
