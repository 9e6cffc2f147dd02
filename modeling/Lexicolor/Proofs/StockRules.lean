/-
Where the stock rules begin: comments, numbers and strings each at a character of their own
(`begins_of_mem`), a header at its anchor, standing as a whole word (`wholeWord_matchHere`).
-/
import Lexicolor.Scan.Body
import Lexicolor.Proofs.Identifiers

namespace Lexicolor.Stock

open Text Regex Scan

variable {g : Grammar} {remember : Bool} {n : Nat} {a : Alternative} {p : Place} {m : Match}

/-- Every alternative of a level is one of a rule of the level, and so are all of that rule. -/
theorem mem_alternativesFrom : ∀ {n : Nat} {rules : List Rule}, a ∈ alternativesFrom g remember n rules →
    ∃ r ∈ rules, ∃ k, a ∈ alternativesOf g remember k r ∧
      ∀ b ∈ alternativesOf g remember k r, b ∈ alternativesFrom g remember n rules
  | _, [], h => by simp [alternativesFrom] at h
  | n, r :: rs, h => by
    simp only [alternativesFrom, List.mem_append] at h ⊢
    rcases h with h | h
    · exact ⟨r, by simp, n, h, fun b hb => .inl hb⟩
    · obtain ⟨q, hq, k, hk, hall⟩ := mem_alternativesFrom h
      exact ⟨q, by simp [hq], k, hk, fun b hb => .inr (hall b hb)⟩

theorem alternativesOf_mem {r : Rule} {rules : List Rule} (hr : r ∈ rules) : ∀ n, ∃ k,
    ∀ a ∈ alternativesOf g remember k r, a ∈ alternativesFrom g remember n rules := by
  induction rules with
  | nil => cases hr
  | cons q rs ih =>
    intro n
    rcases List.mem_cons.1 hr with rfl | hr
    · exact ⟨n, fun a ha => by simp [alternativesFrom, ha]⟩
    · obtain ⟨k, hk⟩ := ih hr (n + 1)
      exact ⟨k, fun a ha => by simp [alternativesFrom, hk a ha]⟩

/-- Whatever way a rule with a scope begins in, it makes a token of that scope. -/
theorem alternativesOf_scope {r : Rule} {scope : Scope} (hs : r.scope? = some scope)
    (ha : a ∈ alternativesOf g remember n r) (s : Span) : ∃ t, (a.apply s).1 = some t ∧ t.scope = scope := by
  cases r with
  | lexeme scope' pattern =>
    obtain rfl : scope' = some scope := hs
    simp only [alternativesOf, List.mem_singleton] at ha
    subst ha
    exact ⟨_, rfl, rfl⟩
  | region scope' variants contains =>
    obtain rfl : scope' = scope := Option.some.inj hs
    simp only [alternativesOf, List.mem_map] at ha
    obtain ⟨v, -, rfl⟩ := ha
    exact ⟨_, rfl, rfl⟩
  | header rule =>
    obtain rfl : rule.scope = scope := Option.some.inj hs
    simp only [alternativesOf, List.mem_singleton] at ha
    subst ha
    exact ⟨_, rfl, rfl⟩

/-! ## Comments, numbers and strings -/

/-- The characters that begin comments, numbers and strings. -/
def openers : CharSet := .unions [.single '#', .range '0' '9', .single '\'', .single '"']

theorem openers_space : openers.contains ' ' = false := by decide

theorem openers_letter {c : Char} (h : thaiLetter.contains c = true) : openers.contains c = false := by
  have hne : ∀ d, thaiLetter.contains d = false → c ≠ d := by
    rintro d hd rfl
    rw [hd] at h
    cases h
  have hdigit : '0' ≤ c → '9' < c := by
    simp only [thaiLetter, CharSet.unions, CharSet.contains, Bool.or_eq_true, Bool.and_eq_true,
      decide_eq_true_eq, beq_iff_eq] at h
    simp only [Char.le_def, Char.lt_def, UInt32.le_iff_toNat_le, UInt32.lt_iff_toNat_lt] at h ⊢
    rcases h with h | h | h | rfl
    · exact fun _ => Nat.lt_of_lt_of_le (by decide) h.1
    · exact fun _ => Nat.lt_of_lt_of_le (by decide) h.1
    · exact fun _ => Nat.lt_of_lt_of_le (by decide) h.1
    · decide
  simpa [openers, CharSet.unions, CharSet.contains, hne '#' (by decide), hne '\'' (by decide),
    hne '"' (by decide)] using hdigit

/-- No opener stands where a word begins. -/
theorem IsIdentifier.not_openers {cs tail ds : List Char} {c : Char} (h : IsIdentifier cs)
    (hc : cs ++ tail = c :: ds) : openers.contains c ≠ true := by
  obtain ⟨d, es, rfl, hd, -⟩ := h
  cases hc
  rw [openers_letter hd]
  exact Bool.false_ne_true

theorem commentPattern_opens : Opens commentPattern.expr (.single '#') := (Opens.one _).seq _

theorem numberPattern_opens : Opens numberPattern.expr (.range '0' '9') :=
  (((Opens.one _).oneOrMore true).anchor_seq _).seq _

theorem literal_opens {text : String} {c : Char} {cs : List Char} (h : text.toList = c :: cs)
    (hc : openers.contains c = true) : Opens (literal text).expr openers := by
  refine (Opens.literal h).mono fun d hd => ?_
  rw [eq_of_beq hd]
  exact hc

/-- A comment, a number or a string begins with its own character. -/
theorem begins_of_mem {r : Rule} (hr : r ∈ [hashComment, Stock.number, quotedString])
    (ha : a ∈ alternativesOf g remember n r) : Opens a.begin_.expr openers := by
  simp only [List.mem_cons, List.not_mem_nil, or_false] at hr
  rcases hr with rfl | rfl | rfl
  · simp only [hashComment, alternativesOf, List.mem_singleton] at ha
    subst ha
    exact commentPattern_opens.mono fun c hc => by simp_all [openers, CharSet.unions, CharSet.contains]
  · simp only [Stock.number, alternativesOf, List.mem_singleton] at ha
    subst ha
    exact numberPattern_opens.mono fun c hc => by simp_all [openers, CharSet.unions, CharSet.contains]
  · simp only [quotedString, alternativesOf, List.mem_map] at ha
    obtain ⟨v, hv, rfl⟩ := ha
    simp only [quotedBy, List.mem_cons, List.not_mem_nil, or_false] at hv
    rcases hv with rfl | rfl | rfl | rfl
    · exact literal_opens rfl (by decide)
    · exact literal_opens rfl (by decide)
    · exact literal_opens rfl (by decide)
    · exact literal_opens rfl (by decide)

/-! ## Headers -/

theorem blockHeader_begin {scope : Scope} {anchor : String}
    (ha : a ∈ alternativesOf g remember n (blockHeader scope anchor)) : a.begin_ = wholeWord anchor := by
  simp only [blockHeader, alternativesOf, List.mem_singleton] at ha
  subst ha
  rfl

/-- **A header begins** where its anchor stands between two word edges. -/
theorem wholeWord_matchHere {text : String} (hne : text.toList ≠ []) :
    (wholeWord text).matchHere p = some m ↔ ∃ rest, p.rest = text.toList ++ rest ∧
      (Anchor.wordEdge false).holds p = true ∧
      (Anchor.wordEdge false).holds (p.pass text.toList rest) = true ∧
      m = ⟨⟨p, p.pass text.toList rest⟩, []⟩ := by
  have hpos := bytes_pos hne
  rw [Pattern.matchHere, Option.filter_eq_some_iff, wholeWord_matchAt]
  constructor
  · exact fun h => h.1
  · rintro ⟨rest, hr, h1, h2, rfl⟩
    refine ⟨⟨rest, hr, h1, h2, rfl⟩, ?_⟩
    simp only [Match.isEmpty, Span.isEmpty, Place.pass_eq, Bool.not_eq_true', beq_eq_false_iff_ne]
    omega

end Lexicolor.Stock
