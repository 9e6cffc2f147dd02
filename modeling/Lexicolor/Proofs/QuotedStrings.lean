/-
Quoted strings. A string runs from its delimiter to where a scanner of characters stops that skips
every backslash together with the character after it (`untilClosed`). A body reaches the same place by
searching for escapes and for the delimiter in turns: between two turns neither stands anywhere, so
the scanner passes over what lies between (`closing_ahead`), and at each turn both do the same
(`quoted_runs`).
-/
import Lexicolor.Proofs.StockRules
import Lexicolor.Proofs.Precedence
import Lexicolor.Proofs.Nesting

namespace Lexicolor.Stock

open Text Regex Scan

variable {g : Grammar} {p q : Place} {m : Match} {d cs rest : List Char} {c : Char}

/-! ## The scanner -/

/-- What is left of a string of which the opening delimiter has been read: up to the first delimiter
that no backslash takes part of, or all that follows. -/
def untilClosed (d : List Char) : List Char → List Char
  | [] => []
  | '\\' :: c :: cs => '\\' :: c :: untilClosed d cs
  | c :: cs => if d.isPrefixOf (c :: cs) then d else c :: untilClosed d cs

/-- The delimiter that a text begins with: three quotes, if it begins with three of the same. -/
def delimiterAt : List Char → List Char
  | c :: d :: e :: _ => if c = d ∧ d = e then [c, d, e] else [c]
  | cs => cs.take 1

/-- Where the scanner stops that starts at a place. -/
def closing (d : List Char) (p : Place) : Place :=
  p.pass (untilClosed d p.rest) (p.rest.drop (untilClosed d p.rest).length)

/-- A delimiter is not empty and begins with no backslash. -/
def IsDelimiter (d : List Char) : Prop := ∃ c cs, d = c :: cs ∧ c ≠ '\\'

theorem IsDelimiter.ne_nil (h : IsDelimiter d) : d ≠ [] := by
  obtain ⟨c, cs, rfl, -⟩ := h
  simp

theorem untilClosed_escape (d cs : List Char) (c : Char) :
    untilClosed d ('\\' :: c :: cs) = '\\' :: c :: untilClosed d cs := rfl

theorem untilClosed_delimiter (h : IsDelimiter d) : untilClosed d (d ++ rest) = d := by
  obtain ⟨c, ds, rfl, hc⟩ := h
  have hpre : (c :: ds).isPrefixOf (c :: ds ++ rest) = true :=
    List.isPrefixOf_iff_prefix.2 (List.prefix_append ..)
  rw [List.cons_append, untilClosed, ← List.cons_append, if_pos hpre]
  exact fun _ _ h => absurd h hc

theorem untilClosed_step (hd : ¬ d <+: c :: cs) (he : ∀ e es, cs = e :: es → c ≠ '\\') :
    untilClosed d (c :: cs) = c :: untilClosed d cs := by
  rw [untilClosed, if_neg (by rwa [List.isPrefixOf_iff_prefix])]
  exact fun e es hc hcs => he e es hcs hc

theorem untilClosed_isPrefixOf (d cs : List Char) : untilClosed d cs <+: cs := by
  fun_induction untilClosed d cs with
  | case1 => exact List.prefix_rfl
  | case2 c cs ih => simpa [List.cons_prefix_cons] using ih
  | case3 c cs _ h => exact List.isPrefixOf_iff_prefix.1 h
  | case4 c cs _ _ ih => simpa [List.cons_prefix_cons] using ih

theorem rest_eq_untilClosed (d : List Char) (p : Place) :
    p.rest = untilClosed d p.rest ++ (closing d p).rest := by
  conv_lhs => rw [← List.take_append_drop (untilClosed d p.rest).length p.rest,
    ← List.prefix_iff_eq_take.1 (untilClosed_isPrefixOf d p.rest)]
  rfl

/-- What the scanner does after passing over `cs` it does from the place after `cs`. -/
theorem closing_pass (hp : p.rest = cs ++ rest) (h : untilClosed d p.rest = cs ++ untilClosed d rest) :
    closing d p = closing d (p.pass cs rest) := by
  rw [closing, closing, h, hp]
  simp only [Place.pass_pass, List.length_append, List.drop_append]
  simp [Place.pass_eq]

theorem closing_nil (h : p.rest = []) : closing d p = p := by
  obtain ⟨offset, before, rest⟩ := p
  cases h
  simp [closing, untilClosed, Place.pass_eq]

theorem closing_escape (h : p.rest = '\\' :: c :: rest) :
    closing d p = closing d (p.pass ['\\', c] rest) :=
  closing_pass h (by rw [h, untilClosed_escape]; rfl)

theorem closing_delimiter (hd : IsDelimiter d) (h : p.rest = d ++ rest) : closing d p = p.pass d rest := by
  rw [closing, h, untilClosed_delimiter hd, List.drop_left]

/-! ## What the patterns match -/

/-- **A literal matches** where its text is what follows. -/
theorem literal_matchHere {text : String} (hne : text.toList ≠ []) : (literal text).matchHere p = some m ↔
    ∃ rest, p.rest = text.toList ++ rest ∧ m = ⟨⟨p, p.pass text.toList rest⟩, []⟩ := by
  have hpos := bytes_pos hne
  rw [Pattern.matchHere, Option.filter_eq_some_iff, (Straight.literal text).matchAt, Option.map_eq_some_iff]
  constructor
  · rintro ⟨⟨u, hu, rfl⟩, -⟩
    obtain ⟨rest, hr, rfl⟩ := spell_eq_some.1 hu
    exact ⟨rest, hr, rfl⟩
  · rintro ⟨rest, hr, rfl⟩
    refine ⟨⟨_, spell_eq_some.2 ⟨rest, hr, rfl⟩, rfl⟩, ?_⟩
    simp only [Match.isEmpty, Span.isEmpty, Place.pass_eq, Bool.not_eq_true', beq_eq_false_iff_ne]
    omega

/-- **An escape matches** a backslash that is not the last character. -/
theorem escape_matchHere : escapePattern.matchHere p = some m ↔
    ∃ c rest, p.rest = '\\' :: c :: rest ∧ m = ⟨⟨p, p.pass ['\\', c] rest⟩, []⟩ := by
  have hs : Straight escapePattern.expr _ := (Straight.single '\\').seq Straight.any
  have hu := Char.utf8Size_pos '\\'
  obtain ⟨offset, before, cs⟩ := p
  rw [Pattern.matchHere, Option.filter_eq_some_iff, hs.matchAt, Option.map_eq_some_iff]
  simp only [Option.bind_eq_some_iff, Option.map_eq_some_iff, spell_eq_some]
  constructor
  · rintro ⟨⟨_, ⟨_, ⟨rest, rfl, rfl⟩, q, hq, rfl⟩, rfl⟩, -⟩
    cases rest with
    | nil => cases hq
    | cons c rest =>
      cases hq
      exact ⟨c, rest, rfl, by simp [Place.pass_eq, Nat.add_assoc]⟩
  · rintro ⟨c, rest, rfl, rfl⟩
    refine ⟨⟨_, ⟨_, ⟨c :: rest, rfl, rfl⟩, _, rfl, rfl⟩, ?_⟩, ?_⟩
    · simp [Place.pass_eq, Nat.add_assoc]
    · simp [Match.isEmpty, Span.isEmpty, Place.pass_eq]
      omega

/-! ## The body of a string -/

/-- Where neither an escape nor the delimiter stands, the scanner passes over the next character. -/
theorem closing_plain {delimiter : String} (hne : delimiter.toList ≠ []) (h : p.rest = c :: cs)
    (hd : (literal delimiter).matchHere p = none) (he : escapePattern.matchHere p = none) :
    closing delimiter.toList p = closing delimiter.toList ⟨p.offset + c.utf8Size, some c, cs⟩ := by
  have hstep : untilClosed delimiter.toList p.rest = [c] ++ untilClosed delimiter.toList cs := by
    rw [h, untilClosed_step]
    · rfl
    · rintro ⟨rest, hr⟩
      rw [(literal_matchHere hne).2 ⟨rest, h.trans hr.symm, rfl⟩] at hd
      cases hd
    · rintro e es rfl rfl
      rw [escape_matchHere.2 ⟨e, es, h, rfl⟩] at he
      cases he
  simpa [Place.pass_eq] using closing_pass h hstep

/-- **The scanner passes over** whatever lies before the next escape and the next delimiter. -/
theorem closing_ahead {delimiter : String} (hne : delimiter.toList ≠ []) (h : p.Reaches q)
    (hd : ∀ m, (literal delimiter).findFrom p = some m → q.offset ≤ m.start.offset)
    (he : ∀ m, escapePattern.findFrom p = some m → q.offset ≤ m.start.offset) :
    closing delimiter.toList p = closing delimiter.toList q := by
  have hd' : ∀ r, p.Reaches r → r.offset < q.offset → (literal delimiter).matchHere r = none :=
    fun r => Pattern.matchHere_none_before hd
  have he' : ∀ r, p.Reaches r → r.offset < q.offset → escapePattern.matchHere r = none :=
    fun r => Pattern.matchHere_none_before he
  clear hd he
  induction hr : p.rest generalizing p with
  | nil => rw [h.eq_of_rest_nil hr]
  | cons c cs ih =>
    rcases h.cons_cases hr with rfl | hq
    · rfl
    · have hone := Place.Reaches.one hr
      have hlt : p.offset < q.offset := by
        have := hq.offset_le
        have := c.utf8Size_pos
        simp only at *
        omega
      rw [closing_plain hne hr (hd' p (.refl p) hlt) (he' p (.refl p) hlt)]
      exact ih hq (fun r hr => hd' r (hone.trans hr)) (fun r hr => he' r (hone.trans hr)) rfl

/-- **A string runs to where the scanner stops**, and holds no tokens. -/
theorem quoted_runs {delimiter : String} (hd : IsDelimiter delimiter.toList) {title : Option TitleRule}
    {ts : List Token} {last : Place}
    (h : Runs g ⟨literal delimiter, none⟩ (alternativesFrom g true 0 [backslashEscape]) p title ts last)
    (ht : title = none) : ts = [] ∧ last = closing delimiter.toList p := by
  have hne := hd.ne_nil
  have hdue : ∀ p, due (alternativesFrom g true 0 [backslashEscape]) p =
      (escapePattern.findFrom p).map fun m => ⟨⟨escapePattern, 0, 0, fun start => (none, start.stop)⟩, m⟩ :=
    fun p => due_singleton _ p
  induction h with
  | @nothing p title h =>
    obtain ⟨hrule, -, hfinish⟩ := Event.first_eq_nothing h
    rw [hdue, Option.map_eq_none_iff] at hrule
    refine ⟨rfl, ?_⟩
    rw [closing_ahead hne (.finish p) (by simp [hfinish]) (by simp [hrule]), closing_nil rfl]
  | @finish p title m h =>
    have hf := Body.event_finish h
    obtain ⟨hr, hm, -⟩ := Pattern.findFrom_eq_some_iff.1 hf
    refine ⟨rfl, ?_⟩
    rw [closing_ahead hne hr]
    · obtain ⟨rest, hrest, hm⟩ := (literal_matchHere hne).1 hm
      rw [closing_delimiter hd hrest, hm]
      rfl
    · intro n hn
      rw [hf] at hn
      exact Option.some.inj hn ▸ Nat.le_refl _
    · intro e he
      exact Nat.le_of_lt (Event.first_finish_lt h (by rw [hdue, he]; rfl))
  | @rule p title c inner last h next ih =>
    have hrule := Event.first_eq_rule h
    have hleads := leads_iff.1 (Event.first_rule_leads h)
    rw [hdue, Option.map_eq_some_iff] at hrule
    obtain ⟨e, he, rfl⟩ := hrule
    obtain ⟨hr, hm, -⟩ := Pattern.findFrom_eq_some_iff.1 he
    obtain ⟨rfl, rfl⟩ := ih ht
    refine ⟨rfl, ?_⟩
    rw [closing_ahead hne hr hleads]
    · obtain ⟨c, rest, hrest, hm⟩ := escape_matchHere.1 hm
      rw [closing_escape hrest, hm]
      rfl
    · intro n hn
      rw [he] at hn
      exact Option.some.inj hn ▸ Nat.le_refl _
  | title h next ih =>
    rw [(Body.event_title h).1] at ht
    cases ht

/-! ## The variants -/

/-- The delimiters of strings, with their relevance. -/
def delimiters : List (String × Nat) := [("\'\'\'", 10), ("\"\"\"", 10), ("\'", 0), ("\"", 0)]

theorem delimiters_isDelimiter : ∀ d ∈ delimiters, IsDelimiter d.1.toList := by
  simp only [delimiters, List.forall_mem_cons]
  exact ⟨⟨_, _, rfl, by decide⟩, ⟨_, _, rfl, by decide⟩, ⟨_, _, rfl, by decide⟩, ⟨_, _, rfl, by decide⟩, by simp⟩

theorem delimiters_head : ∀ d ∈ delimiters, ∀ rest : List Char,
    (d.1.toList ++ rest).head? = some '\'' ∨ (d.1.toList ++ rest).head? = some '"' := by
  simp only [delimiters, List.forall_mem_cons]
  exact ⟨fun _ => .inl rfl, fun _ => .inr rfl, fun _ => .inl rfl, fun _ => .inr rfl, by simp⟩

/-- One way for a string to begin, the rule having a position among its level. -/
def beginString (g : Grammar) (n : Nat) (d : String × Nat) : Alternative :=
  ⟨literal d.1, n, d.2,
    applyRegion g true .string (alternativesFrom g true 0 [backslashEscape]) (quotedBy d.1 d.2)⟩

theorem alternativesOf_quotedString (g : Grammar) (n : Nat) :
    alternativesOf g true n quotedString = delimiters.map (beginString g n) := rfl

/-- **What a string makes of its delimiter**: a token without children, up to where the scanner
stops that starts after the delimiter. -/
theorem beginString_apply {d : String × Nat} (hd : d ∈ delimiters) (n : Nat) (s : Span) :
    ((beginString g n d).apply s).1 = some (.ofSpan .string ⟨s.start, closing d.1.toList s.stop⟩ []) := by
  obtain ⟨h1, h2⟩ := quoted_runs (delimiters_isDelimiter d hd) (scanBodyFrom_rules g ⟨literal d.1, none⟩
    [backslashEscape] none s.stop) rfl
  simp only [beginString, applyRegion, quotedBy, h1, h2]

theorem delimiterAt_three (q : Char) (rest : List Char) : delimiterAt (q :: q :: q :: rest) = [q, q, q] := by
  simp [delimiterAt]

theorem delimiterAt_one {q : Char} (h : ∀ more, rest ≠ q :: q :: more) : delimiterAt (q :: rest) = [q] := by
  unfold delimiterAt
  split
  · next d e more heq =>
    obtain ⟨rfl, rfl⟩ := List.cons.inj heq
    rw [if_neg]
    rintro ⟨rfl, rfl⟩
    exact h more rfl
  · rfl

/-- **The delimiter that is taken** is the one that the text there begins with. -/
theorem due_delimiter {as : List Alternative} {n : Nat} {d : String × Nat} {c : Candidate}
    (hd : d ∈ delimiters) (hall : ∀ d ∈ delimiters, beginString g n d ∈ as) (hdue : due as p = some c)
    (hc : c.alternative = beginString g n d) : ∃ rest, c.found.start.rest = d.1.toList ++ rest ∧
      c.found.stop = c.found.start.pass d.1.toList rest ∧ delimiterAt c.found.start.rest = d.1.toList := by
  have hmatch := (Pattern.findFrom_eq_some_iff.1 (due_mem hdue).2).2.1
  rw [hc] at hmatch
  obtain ⟨rest, hrest, hfound⟩ := (literal_matchHere (delimiters_isDelimiter d hd).ne_nil).1 hmatch
  -- A more relevant delimiter is not what follows.
  have hlow : ∀ e ∈ delimiters, d.2 < e.2 → ∀ more, c.found.start.rest ≠ e.1.toList ++ more := by
    intro e he hlt more hmore
    have := due_relevance hdue (hall e he) (by rw [hc]; rfl)
      ((literal_matchHere (delimiters_isDelimiter e he).ne_nil).2 ⟨more, hmore, rfl⟩)
    rw [hc] at this
    exact Nat.not_lt.2 this hlt
  refine ⟨rest, hrest, by rw [hfound]; rfl, ?_⟩
  rw [hrest] at hlow ⊢
  simp only [delimiters, List.mem_cons, List.not_mem_nil, or_false] at hd
  rcases hd with rfl | rfl | rfl | rfl
  · exact delimiterAt_three '\'' rest
  · exact delimiterAt_three '"' rest
  · show delimiterAt ('\'' :: rest) = ['\'']
    refine delimiterAt_one ?_
    rintro more rfl
    exact hlow ("\'\'\'", 10) (by simp [delimiters]) (by decide) more rfl
  · show delimiterAt ('"' :: rest) = ['"']
    refine delimiterAt_one ?_
    rintro more rfl
    exact hlow ("\"\"\"", 10) (by simp [delimiters]) (by decide) more rfl

end Lexicolor.Stock
