/-
The tables that a scan looks words up in: the grammar's own, outside of rules, and inside a header the
header's, at whatever depth the header stands (`Rule.tables`, `mem_consulted`). Whatever has the scope of a
word class in a scan has it from one of these tables or from a rule (`token_classified`).

A grammar is checked for words in two classes and words that its identifier pattern does not match. The check
looks at the grammar's own table only; so in a valid grammar that table is clean, and all the tables are
exactly if the same check would pass with each header's table in its place (`consulted_clean_iff`).
-/
import Lexicolor.Proofs.Nesting
import Lexicolor.Proofs.ValidLanguages

namespace Lexicolor

open Text Regex Scan

variable {g : Grammar} {t : KeywordTable} {source : String} {u : Token}

/-! ## The tables of headers -/

mutual

/-- The tables of the headers in a rule, at any depth. -/
def Rule.tables : Rule → List KeywordTable
  | .lexeme _ _ => []
  | .region _ _ contains => Rule.tablesAll contains
  | .header rule => [rule.keywords]

/-- The tables of the headers among rules and inside them. -/
def Rule.tablesAll : List Rule → List KeywordTable
  | [] => []
  | r :: rs => r.tables ++ Rule.tablesAll rs

end

mutual

theorem Rule.mem_tables : ∀ {r : Rule}, t ∈ r.tables ↔ ∃ rule, (Rule.header rule).Occurs [r] ∧ rule.keywords = t
  | .lexeme scope pattern => by simp [Rule.tables, Rule.occurs_singleton]
  | .region scope variants contains => by
    rw [Rule.tables, Rule.mem_tablesAll]
    simp [Rule.occurs_singleton]
  | .header rule => by simp [Rule.tables, Rule.occurs_singleton, eq_comm]

/-- **The tables of headers** are those of the header rules that occur. -/
theorem Rule.mem_tablesAll : ∀ {rs : List Rule},
    t ∈ Rule.tablesAll rs ↔ ∃ rule, (Rule.header rule).Occurs rs ∧ rule.keywords = t
  | [] => by simp [Rule.tablesAll, Rule.not_occurs_nil]
  | r :: rs => by
    rw [Rule.tablesAll, List.mem_append, Rule.mem_tables, Rule.mem_tablesAll, ← exists_or]
    exact exists_congr fun rule => by rw [← or_and_right, ← Rule.occurs_cons]

end

namespace Grammar

/-- The tables that a scan with the grammar looks words up in. -/
def consulted (g : Grammar) : List KeywordTable := g.keywords :: Rule.tablesAll g.rules

theorem mem_consulted : t ∈ g.consulted ↔
    t = g.keywords ∨ ∃ rule, (Rule.header rule).Occurs g.rules ∧ rule.keywords = t := by
  rw [consulted, List.mem_cons, Rule.mem_tablesAll]

/-! ## Scopes of word classes -/

/-- The class that the table gives the token's text, in the case mode, is the one whose scope the token has. -/
def Classifies (g : Grammar) (t : KeywordTable) (u : Token) : Prop :=
  ∃ c, t.lookup u.text g.caseInsensitive = some c ∧ u.scope = c.scope

/-- A token that no body was scanned for and that has the scope of a word class. -/
theorem leaf_classified (h : Leaf g u) (hs : u.scope.isWordClass = true) :
    (∃ t ∈ g.consulted, g.Classifies t u) ∨ ∃ r, Rule.Occurs r g.rules ∧ r.scope? = some u.scope := by
  cases h with
  | plain s => cases hs
  | @word p q w hw =>
    left
    refine ⟨g.keywords, mem_consulted.2 (.inl rfl), ?_⟩
    have hword : (g.wordScope w.text).isWordClass = true := hs
    cases hc : g.classify w.text with
    | none =>
      rw [wordScope, hc] at hword
      cases hword
    | some c => exact ⟨c, hc, by rw [Token.ofSpan_scope, wordScope, hc]⟩
  | @listed rule p q w c occurs hw hc =>
    exact .inl ⟨rule.keywords, mem_consulted.2 (.inr ⟨rule, occurs, rfl⟩), c, hc, rfl⟩
  | lexeme occurs found => exact .inr ⟨_, occurs, rfl⟩
  | title occurs s => cases hs

/-- **Whatever has the scope of a word class**, at any depth of a scan, has it from one of the tables, or from a
rule with that scope. -/
theorem token_classified (hu : u ∈ Token.walkAll (tokenize g source)) (hs : u.scope.isWordClass = true) :
    (∃ t ∈ g.consulted, g.Classifies t u) ∨ ∃ r, Rule.Occurs r g.rules ∧ r.scope? = some u.scope := by
  obtain ⟨top, htop, hu⟩ := Token.mem_walkAll.1 hu
  rcases (Tokens.tokenize_sound g source top htop u hu).origin with hleaf | ⟨finish, m, hbodied⟩
  · exact leaf_classified hleaf hs
  · cases hbodied with
    | region occurs _ _ _ made =>
      rw [applyRegion_token _ _ _ made]
      exact .inr ⟨_, occurs, rfl⟩
    | header occurs _ _ made =>
      rw [applyHeader_token _ _ made]
      exact .inr ⟨_, occurs, rfl⟩

/-! ## Clean tables -/

/-- No word of the table is in two classes, and the identifier pattern matches every word in full. -/
structure Clean (g : Grammar) (t : KeywordTable) : Prop where
  apart : ∀ w c d, w ∈ t.words c → w ∈ t.words d → c = d
  matched : ∀ c, ∀ w ∈ t.words c, g.identifier.matchesFully w = true

theorem isValid_iff_clean : g.isValid = true ↔
    Text.isAllBlank g.name = false ∧ g.aliases.any Text.isAllBlank = false ∧ g.Clean g.keywords := by
  rw [isValid_iff, KeywordTable.duplicates_eq_nil_iff]
  exact and_congr_right fun _ => and_congr_right fun _ => ⟨fun h => ⟨h.1, h.2⟩, fun h => ⟨h.apart, h.matched⟩⟩

/-- A table is clean exactly if a valid grammar stays valid with it. -/
theorem clean_iff_isValid (hv : g.isValid = true) : g.Clean t ↔ ({ g with keywords := t } : Grammar).isValid = true := by
  obtain ⟨hname, haliases, -⟩ := isValid_iff_clean.1 hv
  rw [isValid_iff_clean]
  exact ⟨fun h => ⟨hname, haliases, h.apart, h.matched⟩, fun h => ⟨h.2.2.apart, h.2.2.matched⟩⟩

/-- **When all tables are clean.** The grammar's own table is, if the grammar is valid. All the tables that a scan
looks words up in are exactly if, for every header at any depth, the grammar would be valid with the header's table
as its own. Every token of a scan with the scope of a word class has it from one of these tables, or from a rule. -/
theorem consulted_clean_iff (g : Grammar) (hv : g.isValid = true) :
    g.Clean g.keywords ∧
    ((∀ t ∈ g.consulted, g.Clean t) ↔
      ∀ rule, (Rule.header rule).Occurs g.rules → ({ g with keywords := rule.keywords } : Grammar).isValid = true) ∧
    ∀ source, ∀ u ∈ Token.walkAll (tokenize g source), u.scope.isWordClass = true →
      (∃ t ∈ g.consulted, g.Classifies t u) ∨ ∃ r, Rule.Occurs r g.rules ∧ r.scope? = some u.scope := by
  have hown := (isValid_iff_clean.1 hv).2.2
  refine ⟨hown, ⟨fun h rule occurs => ?_, fun h t ht => ?_⟩, fun source u hu hs => token_classified hu hs⟩
  · exact (clean_iff_isValid hv).1 (h _ (mem_consulted.2 (.inr ⟨rule, occurs, rfl⟩)))
  · rcases mem_consulted.1 ht with rfl | ⟨rule, occurs, rfl⟩
    · exact hown
    · exact (clean_iff_isValid hv).2 (h rule occurs)

/-- Brackets, and headers inside of them with a table. -/
def bracketed (t : KeywordTable) : Grammar where
  name := "bracketed"
  aliases := []
  caseInsensitive := false
  identifier := Stock.identifier
  keywords := .empty
  rules := [.region .string [⟨Stock.literal "[", Stock.literal "]", 0⟩]
    [.header ⟨.function, Stock.literal "def", Stock.colon, t, ⟨Stock.titlePattern, 0, true⟩⟩]]
  extensions := []
  mimeTypes := []

theorem bracketed_tables (t : KeywordTable) : Rule.tablesAll (bracketed t).rules = [t] := by
  simp [bracketed, Rule.tablesAll, Rule.tables]

/-- The table of a header inside of a region, with one word in it. -/
theorem bracketed_clean : (bracketed (.ofWords ["def"] [] [])).isValid = true ∧
    ∀ t ∈ (bracketed (.ofWords ["def"] [] [])).consulted, (bracketed (.ofWords ["def"] [] [])).Clean t := by
  have hv : (bracketed (.ofWords ["def"] [] [])).isValid = true := by decide +kernel
  refine ⟨hv, (consulted_clean_iff _ hv).2.1.2 fun rule occurs => ?_⟩
  have htable : rule.keywords ∈ Rule.tablesAll (bracketed (.ofWords ["def"] [] [])).rules :=
    Rule.mem_tablesAll.2 ⟨rule, occurs, rfl⟩
  rw [bracketed_tables, List.mem_singleton] at htable
  rw [htable]
  decide +kernel

/-- A table with a word in two classes and a word that begins with a digit. The grammar of a header with this table
is valid, and what the header begins with is looked up in the table. -/
theorem header_table_unchecked :
    let t : KeywordTable := .ofWords ["def"] ["def"] ["0"]
    (bracketed t).isValid = true ∧ t ∈ (bracketed t).consulted ∧
      "def" ∈ t.words .keyword ∧ "def" ∈ t.words .builtIn ∧
      "0" ∈ t.words .literal ∧ (bracketed t).identifier.matchesFully "0" = false ∧ ¬ (bracketed t).Clean t ∧
      ((Token.walkAll (tokenize (bracketed t) "[def f:]")).map fun u => (u.scope, u.text)) =
        [(.string, "[def f:]"), (.function, "def f:"), (.keyword, "def"), (.title, "f")] := by
  intro t
  have hkeyword : "def" ∈ t.words .keyword := by decide +kernel
  have hbuiltIn : "def" ∈ t.words .builtIn := by decide +kernel
  have hconsulted : t ∈ (bracketed t).consulted := by
    rw [consulted, bracketed_tables]
    simp
  refine ⟨by decide +kernel, hconsulted, hkeyword, hbuiltIn, by decide +kernel, by decide +kernel, ?_, by decide +kernel⟩
  intro hclean
  cases hclean.apart "def" .keyword .builtIn hkeyword hbuiltIn

end Grammar

end Lexicolor
