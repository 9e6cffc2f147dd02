/-
Grammars that were read. Whatever text a grammar was read from, and whatever reader read its patterns, its
parts are what a reader makes of them, and its record fits into the levels of a text (`readRule_ok`): each
part stands no deeper in the record than where it was read from, but for the keywords of a header, which may
be left out and are then written two levels below the header. There is room for them: a header has a title,
which is a record as well, so three levels are left where it stands; and since every region takes two levels,
an even number is.

So a grammar that was read is faithful (`Faithful.of_ofJson`), and reading its text gives it again. The stock
grammar was not read; it is faithful to every reader that reads its patterns as what they are.
-/
import Lexicolor.Piyathon
import Lexicolor.Grammar.File
import Lexicolor.Proofs.FaithfulGrammars
import Lexicolor.Proofs.EscapedText

namespace Lexicolor

open Data (Value Mode Decoded Shape Within bind_eq_ok bind_pure_ok)

variable {reader : Regex.Reader}

theorem Pattern.read_ok {source : String} {p : Pattern} (h : Pattern.read source reader = .ok p) :
    p.Faithful reader := by
  unfold Pattern.read at h
  cases he : reader source with
  | error f =>
    rw [he] at h
    cases h
  | ok e =>
    rw [he] at h
    obtain rfl := Except.ok.inj h
    exact he

namespace Grammar.Record

variable {mode inner : Mode} {v w : Value} {n : Nat}

/-! ## Parts -/

theorem readPattern_ok {p : Pattern} (h : readPattern reader v = .ok p) : p.Faithful reader := by
  obtain ⟨s, -, h⟩ := bind_eq_ok.1 h
  cases hp : Pattern.read s reader with
  | error f =>
    rw [hp] at h
    cases h
  | ok q =>
    rw [hp] at h
    obtain rfl := Except.ok.inj h
    exact Pattern.read_ok hp

theorem word32_ok {k : Nat} (h : Data.word32 v = .ok k) : k < 2 ^ 32 := by
  unfold Data.word32 at h
  split at h
  · split at h
    · next hi => exact Except.ok.inj h ▸ hi.2
    · cases h
  · obtain rfl := Except.ok.inj h
    decide
  · exact absurd h Data.wrongType_ne_ok

theorem readKeywords_ok {t : KeywordTable} (h : readKeywords mode v = .ok t) : t.Faithful := by
  obtain ⟨w, -, rfl⟩ := bind_pure_ok h
  exact KeywordTable.ofWords_faithful ..

/-- What is known of a variant when some of its fields have come. -/
def KnownVariant (reader : Regex.Reader) (come : List String) (a : Variant) : Prop :=
  ("begin" ∈ come → a.begin_.Faithful reader) ∧ ("end" ∈ come → a.finish.Faithful reader) ∧ a.relevance < 2 ^ 32

theorem KnownVariant.set {come : List String} {a b : Variant} {field : String} (h : KnownVariant reader come a)
    (hf : ∃ r, (field, r) ∈ (variantShape reader).fields) (hset : (variantShape reader).set mode a field v = .ok b) :
    KnownVariant reader (field :: come) b := by
  obtain ⟨r, hf⟩ := hf
  obtain ⟨h1, h2, h3⟩ := h
  simp only [variantShape, List.mem_cons, Prod.mk.injEq, List.not_mem_nil, or_false] at hf
  rcases hf with ⟨rfl, -⟩ | ⟨rfl, -⟩ | ⟨rfl, -⟩
  · obtain ⟨p, hp, rfl⟩ := bind_pure_ok (r := readPattern reader v) hset
    exact ⟨fun _ => readPattern_ok hp, by simpa using h2, h3⟩
  · obtain ⟨p, hp, rfl⟩ := bind_pure_ok (r := readPattern reader v) hset
    exact ⟨by simpa using h1, fun _ => readPattern_ok hp, h3⟩
  · obtain ⟨k, hk, rfl⟩ := bind_pure_ok (r := Data.word32 v) hset
    exact ⟨by simpa using h1, by simpa using h2, word32_ok hk⟩

theorem variant_ok {a : Variant} (h : (variantShape reader).decode mode v = .ok a) (hv : Within mode n v) :
    1 < n ∧ a.Faithful reader := by
  obtain ⟨hn, come, ⟨h1, h2, h3⟩, hreq⟩ := Shape.decode_ok (P := KnownVariant reader) h hv
    ⟨by simp, by simp, Nat.two_pow_pos 32⟩ fun _ _ _ _ _ _ _ _ hf hk hset => hk.set hf hset
  exact ⟨hn, h1 (hreq _ (by simp [variantShape])), h2 (hreq _ (by simp [variantShape])), h3⟩

/-- What is known of a title when some of its fields have come. -/
def KnownTitle (reader : Regex.Reader) (come : List String) (t : TitleRule) : Prop :=
  ("pattern" ∈ come → t.pattern.Faithful reader) ∧ t.relevance < 2 ^ 32

theorem KnownTitle.set {come : List String} {a b : TitleRule} {field : String} (h : KnownTitle reader come a)
    (hf : ∃ r, (field, r) ∈ (titleShape reader).fields) (hset : (titleShape reader).set mode a field v = .ok b) :
    KnownTitle reader (field :: come) b := by
  obtain ⟨r, hf⟩ := hf
  obtain ⟨h1, h2⟩ := h
  simp only [titleShape, List.mem_cons, Prod.mk.injEq, List.not_mem_nil, or_false] at hf
  rcases hf with ⟨rfl, -⟩ | ⟨rfl, -⟩ | ⟨rfl, -⟩
  · obtain ⟨p, hp, rfl⟩ := bind_pure_ok (r := readPattern reader v) hset
    exact ⟨fun _ => readPattern_ok hp, h2⟩
  · obtain ⟨k, hk, rfl⟩ := bind_pure_ok (r := Data.word32 v) hset
    exact ⟨by simpa using h1, word32_ok hk⟩
  · obtain ⟨e, -, rfl⟩ := bind_pure_ok (r := Data.bool v) hset
    exact ⟨by simpa using h1, h2⟩

theorem title_ok {t : TitleRule} (h : (titleShape reader).decode mode v = .ok t) (hv : Within mode n v) :
    1 < n ∧ t.Faithful reader := by
  obtain ⟨hn, come, ⟨h1, h2⟩, hreq⟩ := Shape.decode_ok (P := KnownTitle reader) h hv ⟨by simp, Nat.two_pow_pos 32⟩
    fun _ _ _ _ _ _ _ _ hf hk hset => hk.set hf hset
  exact ⟨hn, h1 (hreq _ (by simp [titleShape])), h2⟩

/-! ## Rules -/

/-- What is known of a lexeme when some of its fields have come. -/
def KnownLexeme (reader : Regex.Reader) (come : List String) (a : Option Scope × Pattern) : Prop :=
  "pattern" ∈ come → a.2.Faithful reader

theorem KnownLexeme.set {come : List String} {a b : Option Scope × Pattern} {field : String}
    (h : KnownLexeme reader come a) (hf : ∃ r, (field, r) ∈ (lexemeShape reader).fields)
    (hset : (lexemeShape reader).set mode a field v = .ok b) : KnownLexeme reader (field :: come) b := by
  obtain ⟨r, hf⟩ := hf
  simp only [lexemeShape, List.mem_cons, Prod.mk.injEq, List.not_mem_nil, or_false] at hf
  rcases hf with ⟨rfl, -⟩ | ⟨rfl, -⟩
  · obtain ⟨s, -, rfl⟩ := bind_pure_ok (r := readScope? v) hset
    simpa [KnownLexeme] using h
  · obtain ⟨p, hp, rfl⟩ := bind_pure_ok (r := readPattern reader v) hset
    exact fun _ => readPattern_ok hp

theorem lexeme_ok {a : Option Scope × Pattern} (h : (lexemeShape reader).decode mode v = .ok a) (hv : Within mode n v) :
    1 < n ∧ a.2.Faithful reader := by
  obtain ⟨hn, come, h1, hreq⟩ := Shape.decode_ok (P := KnownLexeme reader) h hv (by simp [KnownLexeme])
    fun _ _ _ _ _ _ _ _ hf hk hset => hk.set hf hset
  exact ⟨hn, h1 (hreq _ (by simp [lexemeShape]))⟩

/-- What is known of a region, read where `n` levels are left, when some of its fields have come. -/
def KnownRegion (reader : Regex.Reader) (n : Nat) (come : List String) (a : Scope × List Variant × List Rule) : Prop :=
  ("variants" ∈ come → 2 < n ∧ ∀ v ∈ a.2.1, v.Faithful reader ∧ 3 < n) ∧ ∀ r ∈ a.2.2, r.Faithful reader (n - 2)

theorem KnownRegion.set {nested : Mode → Value → Decoded Rule} {come : List String}
    {a b : Scope × List Variant × List Rule} {field : String}
    (hnested : ∀ mode w r, Within mode (n - 2) w → nested mode w = .ok r → r.Faithful reader (n - 2))
    (h : KnownRegion reader n come a) (hv : Within mode (n - 1) v)
    (hf : ∃ r, (field, r) ∈ (regionShape reader nested).fields)
    (hset : (regionShape reader nested).set mode a field v = .ok b) : KnownRegion reader n (field :: come) b := by
  obtain ⟨r, hf⟩ := hf
  obtain ⟨h1, h2⟩ := h
  simp only [regionShape, List.mem_cons, Prod.mk.injEq, List.not_mem_nil, or_false] at hf
  rcases hf with ⟨rfl, -⟩ | ⟨rfl, -⟩ | ⟨rfl, -⟩
  · obtain ⟨s, -, rfl⟩ := bind_pure_ok (r := readScope .whole v) hset
    exact ⟨by simpa using h1, h2⟩
  · obtain ⟨vs, hvs, rfl⟩ := bind_pure_ok (r := Data.listOf (variantShape reader).decode mode v) hset
    obtain ⟨hn, inner, -, hvs⟩ := Data.listOf_ok hvs hv
    refine ⟨fun _ => ⟨by omega, fun a ha => ?_⟩, h2⟩
    obtain ⟨w, hw, ha⟩ := hvs a ha
    obtain ⟨hn, ha⟩ := variant_ok ha hw
    exact ⟨ha, by omega⟩
  · obtain ⟨rs, hrs, rfl⟩ := bind_pure_ok (r := Data.listOf nested mode v) hset
    obtain ⟨-, inner, -, hrs⟩ := Data.listOf_ok hrs hv
    refine ⟨by simpa using h1, fun r hr => ?_⟩
    obtain ⟨w, hw, hr⟩ := hrs r hr
    exact hnested inner w r (Nat.sub_sub n 1 1 ▸ hw) hr

theorem region_ok {nested : Mode → Value → Decoded Rule} {a : Scope × List Variant × List Rule}
    (hnested : ∀ mode w r, Within mode (n - 2) w → nested mode w = .ok r → r.Faithful reader (n - 2))
    (h : (regionShape reader nested).decode mode v = .ok a) (hv : Within mode n v) :
    2 < n ∧ (∀ v ∈ a.2.1, v.Faithful reader ∧ 3 < n) ∧ ∀ r ∈ a.2.2, r.Faithful reader (n - 2) := by
  obtain ⟨-, come, ⟨h1, h2⟩, hreq⟩ := Shape.decode_ok (P := KnownRegion reader n) h hv
    ⟨by simp, by simp [regionShape]⟩ fun _ _ _ _ _ _ _ hw hf hk hset => hk.set hnested hw hf hset
  obtain ⟨hn, hvariants⟩ := h1 (hreq _ (by simp [regionShape]))
  exact ⟨hn, hvariants, h2⟩

/-- What is known of a header, read where `n` levels are left, when some of its fields have come. -/
structure KnownHeader (reader : Regex.Reader) (n : Nat) (come : List String) (a : HeaderRule) : Prop where
  begin_ : "begin" ∈ come → a.begin_.Faithful reader
  finish : "end" ∈ come → a.finish.Faithful reader
  keywords : a.keywords.Faithful
  title : "title" ∈ come → 2 < n ∧ a.title.Faithful reader

theorem KnownHeader.set {come : List String} {a b : HeaderRule} {field : String} (h : KnownHeader reader n come a)
    (hv : Within mode (n - 1) v) (hf : ∃ r, (field, r) ∈ (headerShape reader).fields)
    (hset : (headerShape reader).set mode a field v = .ok b) : KnownHeader reader n (field :: come) b := by
  obtain ⟨r, hf⟩ := hf
  obtain ⟨h1, h2, h3, h4⟩ := h
  simp only [headerShape, List.mem_cons, Prod.mk.injEq, List.not_mem_nil, or_false] at hf
  rcases hf with ⟨rfl, -⟩ | ⟨rfl, -⟩ | ⟨rfl, -⟩ | ⟨rfl, -⟩ | ⟨rfl, -⟩
  · obtain ⟨s, -, rfl⟩ := bind_pure_ok (r := readScope .whole v) hset
    exact ⟨by simpa using h1, by simpa using h2, h3, by simpa using h4⟩
  · obtain ⟨p, hp, rfl⟩ := bind_pure_ok (r := readPattern reader v) hset
    exact ⟨fun _ => readPattern_ok hp, by simpa using h2, h3, by simpa using h4⟩
  · obtain ⟨p, hp, rfl⟩ := bind_pure_ok (r := readPattern reader v) hset
    exact ⟨by simpa using h1, fun _ => readPattern_ok hp, h3, by simpa using h4⟩
  · obtain ⟨t, ht, rfl⟩ := bind_pure_ok (r := readKeywords mode v) hset
    exact ⟨by simpa using h1, by simpa using h2, readKeywords_ok ht, by simpa using h4⟩
  · obtain ⟨t, ht, rfl⟩ := bind_pure_ok (r := (titleShape reader).decode mode v) hset
    obtain ⟨hn, ht⟩ := title_ok ht hv
    exact ⟨by simpa using h1, by simpa using h2, h3, fun _ => ⟨by omega, ht⟩⟩

theorem header_ok {a : HeaderRule} (h : (headerShape reader).decode mode v = .ok a) (hv : Within mode n v) :
    2 < n ∧ a.Faithful reader := by
  obtain ⟨-, come, ⟨h1, h2, h3, h4⟩, hreq⟩ := Shape.decode_ok (P := KnownHeader reader n) h hv
    ⟨by simp, by simp, rfl, by simp⟩ fun _ _ _ _ _ _ _ hw hf hk hset => hk.set hw hf hset
  obtain ⟨hn, htitle⟩ := h4 (hreq _ (by simp [headerShape]))
  exact ⟨hn, h1 (hreq _ (by simp [headerShape])), h2 (hreq _ (by simp [headerShape])), h3, htitle⟩

/-- **A rule that was read is faithful**, if it was read where an even number of levels is left. -/
theorem readRule_ok : ∀ {k n : Nat} {mode : Mode} {v : Value} {r : Rule}, n % 2 = 0 → Within mode n v →
    readRule reader k mode v = .ok r → r.Faithful reader n
  | 0, _, _, _, _, _, _, h => by cases h
  | k + 1, n, mode, v, r, hn, hv, h => by
    obtain ⟨⟨kind, rest⟩, htagged, h⟩ := bind_eq_ok.1 h
    have hrest : Within .whole n rest := .inr ⟨rfl, Data.tagged_ok htagged hv⟩
    simp only at h
    split at h
    · obtain ⟨⟨s, p⟩, ha, rfl⟩ := bind_pure_ok h
      obtain ⟨hlevels, hp⟩ := lexeme_ok ha hrest
      exact .lexeme hlevels hp
    · obtain ⟨⟨s, vs, rs⟩, ha, rfl⟩ := bind_pure_ok h
      obtain ⟨hlevels, hvs, hrs⟩ := region_ok (fun mode w r hw hr => readRule_ok (by omega) hw hr) ha hrest
      exact .region hlevels hvs hrs
    · obtain ⟨a, ha, rfl⟩ := bind_pure_ok h
      obtain ⟨hlevels, ha⟩ := header_ok ha hrest
      exact .header (by omega) ha

/-! ## Grammars -/

/-- What is known of a grammar when some of its fields have come. -/
structure KnownGrammar (reader : Regex.Reader) (come : List String) (g : Grammar) : Prop where
  identifier : "identifier" ∈ come → g.identifier.Faithful reader
  keywords : g.keywords.Faithful
  rules : ∀ r ∈ g.rules, r.Faithful reader 126

theorem KnownGrammar.set {come : List String} {a b : Grammar} {field : String} (h : KnownGrammar reader come a)
    (hv : Within mode 127 v) (hf : ∃ r, (field, r) ∈ (grammarShape reader).fields)
    (hset : (grammarShape reader).set mode a field v = .ok b) : KnownGrammar reader (field :: come) b := by
  obtain ⟨r, hf⟩ := hf
  obtain ⟨h1, h2, h3⟩ := h
  simp only [grammarShape, List.mem_cons, Prod.mk.injEq, List.not_mem_nil, or_false] at hf
  rcases hf with ⟨rfl, -⟩ | ⟨rfl, -⟩ | ⟨rfl, -⟩ | ⟨rfl, -⟩ | ⟨rfl, -⟩ | ⟨rfl, -⟩ | ⟨rfl, -⟩ | ⟨rfl, -⟩
  · obtain ⟨s, -, rfl⟩ := bind_pure_ok (r := Data.string v) hset
    exact ⟨by simpa using h1, h2, h3⟩
  · obtain ⟨ss, -, rfl⟩ := bind_pure_ok (r := strings mode v) hset
    exact ⟨by simpa using h1, h2, h3⟩
  · obtain ⟨c, -, rfl⟩ := bind_pure_ok (r := Data.bool v) hset
    exact ⟨by simpa using h1, h2, h3⟩
  · obtain ⟨p, hp, rfl⟩ := bind_pure_ok (r := readPattern reader v) hset
    exact ⟨fun _ => readPattern_ok hp, h2, h3⟩
  · obtain ⟨t, ht, rfl⟩ := bind_pure_ok (r := readKeywords mode v) hset
    exact ⟨by simpa using h1, readKeywords_ok ht, h3⟩
  · obtain ⟨rs, hrs, rfl⟩ := bind_pure_ok (r := Data.listOf (readRule reader ruleDepth) mode v) hset
    obtain ⟨-, inner, -, hrs⟩ := Data.listOf_ok hrs hv
    refine ⟨by simpa using h1, h2, fun r hr => ?_⟩
    obtain ⟨w, hw, hr⟩ := hrs r hr
    exact readRule_ok rfl hw hr
  · obtain ⟨ss, -, rfl⟩ := bind_pure_ok (r := strings mode v) hset
    exact ⟨by simpa using h1, h2, h3⟩
  · obtain ⟨ss, -, rfl⟩ := bind_pure_ok (r := strings mode v) hset
    exact ⟨by simpa using h1, h2, h3⟩

end Grammar.Record

open Grammar.Record in
/-- **A grammar that was read is faithful**, whatever text it was read from. -/
theorem Grammar.Faithful.of_ofJson {text : String} {g : Grammar} (h : ofJson reader text = .ok g) :
    g.Faithful reader := by
  obtain ⟨a, ha, h⟩ := bind_eq_ok.1 h
  obtain ⟨-, come, ⟨h1, h2, h3⟩, hreq⟩ := Shape.decode_ok (P := KnownGrammar reader) ha (.inl rfl)
    ⟨by simp, rfl, by simp [grammarShape]⟩ fun _ _ _ _ _ _ _ hw hf hk hset => hk.set hw hf hset
  have hag : a = g := by
    simp only at h
    split at h
    · cases h
    · exact Except.ok.inj h
  exact hag ▸ ⟨h1 (hreq _ (by simp [grammarShape])), h2, h3⟩

/-! ## The stock grammar -/

theorem Pattern.Faithful.of_read {p : Pattern} (h : (Regex.Expr.read p.source).toOption = some p.expr) :
    p.Faithful Regex.Expr.read := by
  rw [Pattern.Faithful]
  cases he : Regex.Expr.read p.source with
  | error f =>
    rw [he] at h
    cases h
  | ok e =>
    rw [he] at h
    rw [Option.some.inj h]

namespace Stock

open Regex (Expr)

theorem quotedBy_faithful (delimiter : String) {relevance : Nat} (h : relevance < 2 ^ 32) :
    (quotedBy delimiter relevance).Faithful Expr.read := ⟨literal_faithful _, literal_faithful _, h⟩

theorem quotedString_faithful {n : Nat} (hn : 3 < n) : quotedString.Faithful Expr.read n := by
  refine .region (by omega) ?_ ?_
  · simp only [List.forall_mem_cons]
    exact ⟨⟨quotedBy_faithful _ (by decide), hn⟩, ⟨quotedBy_faithful _ (by decide), hn⟩,
      ⟨quotedBy_faithful _ (by decide), hn⟩, ⟨quotedBy_faithful _ (by decide), hn⟩, by simp⟩
  · exact List.forall_mem_singleton.2 (.lexeme (by omega) (.of_read read_escapePattern))

theorem blockHeader_faithful {n : Nat} (hn : 3 < n) (scope : Scope) (anchor : String) :
    (blockHeader scope anchor).Faithful Expr.read n :=
  .header hn ⟨wholeWord_faithful anchor, .of_read read_colon,
    KeywordTable.ofWords_faithful (Text.words anchor) [] [], .of_read read_titlePattern, Nat.two_pow_pos 32⟩

end Stock

theorem Piyathon.grammar_faithful : grammar.Faithful Regex.Expr.read where
  identifier := .of_read Stock.read_identifier
  keywords := KeywordTable.ofWords_faithful ..
  rules := by
    simp only [grammar, List.forall_mem_cons]
    exact ⟨.lexeme (by decide) (.of_read Stock.read_commentPattern),
      .lexeme (by decide) (.of_read Stock.read_numberPattern), Stock.quotedString_faithful (by decide),
      Stock.blockHeader_faithful (by decide) _ _, Stock.blockHeader_faithful (by decide) _ _, by simp⟩

/-- **Printing a grammar and reading the text** gives the grammar again, whatever reader reads the patterns:
for every grammar that was read from JSON, and for the stock grammar, if the reader reads its patterns as what
they are. Nothing is lost or changed, and no text is printed that is too deep to be read. -/
theorem Grammar.parse_print (reader : Regex.Reader) (g : Grammar)
    (h : (g = Piyathon.grammar ∧ ∀ p ∈ Piyathon.grammar.patterns, reader p.source = .ok p.expr) ∨
      ∃ text, parse text .json reader = .ok g) :
    parse (g.print .json) .json reader = .ok g := by
  have hfaithful : g.Faithful reader := by
    rcases h with ⟨rfl, hpatterns⟩ | ⟨text, h⟩
    · exact Piyathon.grammar_faithful.of_patterns hpatterns
    · unfold parse at h
      cases ho : ofJson reader text with
      | error e =>
        rw [ho] at h
        cases h
      | ok g' =>
        rw [ho] at h
        obtain rfl := Except.ok.inj h
        exact .of_ofJson ho
  simp only [print, parse, hfaithful.ofJson_toJson]
  rfl

/-- A reader that knows one property of characters as well: what is written in Thai. -/
def Regex.readThai : Regex.Reader := fun text =>
  if text = "\\p\x7bThai\x7d+" then
    .ok (.rep (.one (.union (.range '\u0e01' '\u0e3a') (.range '\u0e40' '\u0e5b'))) 1 none true)
  else Expr.read text

/-- A header whose keywords are left out, in a grammar of Thai words: printed, they stand deeper than all that
was read. The stock grammar is read again as well. -/
theorem Grammar.parse_print_deeper :
    let text := "\x7b\"name\":\"x\",\"identifier\":\"\\\\p\x7bThai\x7d+\",\"rules\":[\x7b\"kind\":\"header\"," ++
      "\"scope\":\"function\",\"begin\":\"d\",\"end\":\":\",\"title\":\x7b\"pattern\":\"w\"\x7d\x7d]\x7d"
    (∃ g, parse text .json Regex.readThai = .ok g ∧ parse (g.print .json) .json Regex.readThai = .ok g) ∧
      parse (Piyathon.grammar.print .json) .json Regex.readThai = .ok Piyathon.grammar := by
  intro text
  have h : (parse text .json Regex.readThai).toOption.isSome = true := by decide +kernel
  have hpatterns : ∀ p ∈ Piyathon.grammar.patterns, Regex.readThai p.source = .ok p.expr := by
    have hother : ∀ p ∈ Piyathon.grammar.patterns, p.source ≠ "\\p\x7bThai\x7d+" := by decide +kernel
    intro p hp
    rw [Regex.readThai, if_neg (hother p hp)]
    exact Piyathon.grammar_faithful.patterns p hp
  refine ⟨?_, parse_print Regex.readThai Piyathon.grammar (.inl ⟨rfl, hpatterns⟩)⟩
  cases hg : parse text .json Regex.readThai with
  | error e =>
    rw [hg] at h
    cases h
  | ok g => exact ⟨g, rfl, parse_print Regex.readThai g (.inr ⟨text, hg⟩)⟩

end Lexicolor
