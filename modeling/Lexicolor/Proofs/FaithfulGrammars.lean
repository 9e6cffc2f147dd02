/-
Grammars that their records say all about. The record of a grammar keeps the texts of patterns and the
lists of words; what is made from these, expressions and indexes, is the same again when the record is
read, if it was made in the way of the reader (`Pattern.Faithful`, `KeywordTable.Faithful`). Which
patterns there are is the matter of the reader of patterns: nothing is asked of it but that it read the
patterns of the grammar as what they are (`Grammar.Faithful.of_patterns`). A rule must also fit into the
levels that a text may have (`Rule.Faithful`): a level is left for a record, one more for a list in it,
and a header takes four, because the word lists in its keywords are the deepest.

A faithful grammar is read back from its record (`Grammar.Faithful.decode_record`), and its record is
one that JSON can write (`Grammar.Record.plain_grammar`).
-/
import Mathlib.Data.String.Basic
import Lexicolor.Grammar.File
import Lexicolor.Proofs.JsonText
import Lexicolor.Proofs.Shapes

namespace Lexicolor

open Data (Value Mode Decoded Shape)

variable {reader reader' : Regex.Reader}

/-! ## Word lists -/

theorem mem_insertWord {w v : String} {ws : List String} : v ∈ insertWord w ws ↔ v = w ∨ v ∈ ws := by
  induction ws with
  | nil => exact List.mem_singleton.trans (by simp)
  | cons u us ih =>
    unfold insertWord
    split
    · exact List.mem_cons
    · split
      · next heq => simp [heq]
      · rw [List.mem_cons, ih, List.mem_cons, or_left_comm]

theorem mem_foldl_insertWord {v : String} : ∀ {ws set : List String},
    v ∈ ws.foldl (fun set w => insertWord w set) set ↔ v ∈ set ∨ v ∈ ws
  | [], set => by simp
  | w :: ws, set => by
    rw [List.foldl_cons, mem_foldl_insertWord, mem_insertWord, List.mem_cons, or_assoc, or_left_comm]

theorem mem_sortWords {v : String} {ws : List String} : v ∈ sortWords ws ↔ v ∈ ws :=
  mem_foldl_insertWord.trans (by simp)

theorem insertWord_sorted (w : String) : ∀ {ws : List String}, ws.Pairwise (· < ·) →
    (insertWord w ws).Pairwise (· < ·)
  | [], _ => List.pairwise_singleton ..
  | u :: us, h => by
    obtain ⟨hu, hus⟩ := List.pairwise_cons.1 h
    unfold insertWord
    split
    · next hlt =>
      refine List.pairwise_cons.2 ⟨fun v hv => ?_, h⟩
      rcases List.mem_cons.1 hv with rfl | hv
      · exact hlt
      · exact lt_trans hlt (hu v hv)
    · next hge =>
      split
      · exact h
      · next hne =>
        refine List.pairwise_cons.2 ⟨fun v hv => ?_, insertWord_sorted w hus⟩
        rcases mem_insertWord.1 hv with rfl | hv
        · exact lt_of_le_of_ne (not_lt.1 hge) (Ne.symm hne)
        · exact hu v hv

theorem foldl_insertWord_sorted : ∀ (ws : List String) {set : List String}, set.Pairwise (· < ·) →
    (ws.foldl (fun set w => insertWord w set) set).Pairwise (· < ·)
  | [], _, h => h
  | w :: ws, _, h => foldl_insertWord_sorted ws (insertWord_sorted w h)

theorem sortWords_sorted (ws : List String) : (sortWords ws).Pairwise (· < ·) := foldl_insertWord_sorted ws .nil

/-- A word beyond all others comes last. -/
theorem insertWord_last {w : String} : ∀ {ws : List String}, (∀ v ∈ ws, v < w) → insertWord w ws = ws ++ [w]
  | [], _ => rfl
  | v :: vs, h => by
    obtain ⟨hv, hvs⟩ := List.forall_mem_cons.1 h
    rw [insertWord, if_neg (lt_asymm hv), if_neg (ne_of_gt hv), insertWord_last hvs]
    rfl

theorem foldl_insertWord_append : ∀ {ws set : List String}, (set ++ ws).Pairwise (· < ·) →
    ws.foldl (fun set w => insertWord w set) set = set ++ ws
  | [], set, _ => (List.append_nil set).symm
  | w :: ws, set, h => by
    obtain ⟨-, -, hlt⟩ := List.pairwise_append.1 h
    have hassoc : set ++ w :: ws = set ++ [w] ++ ws := by simp
    rw [List.foldl_cons, insertWord_last fun v hv => hlt v hv w List.mem_cons_self, hassoc]
    exact foldl_insertWord_append (hassoc ▸ h)

/-- **A sorted list is not sorted again.** -/
theorem sortWords_sortWords (ws : List String) : sortWords (sortWords ws) = sortWords ws :=
  foldl_insertWord_append (sortWords_sorted ws)

/-! ## Faithful parts -/

/-- The expression is what the reader makes of the text of the pattern. -/
def Pattern.Faithful (reader : Regex.Reader) (p : Pattern) : Prop := reader p.source = .ok p.expr

/-- The lists are sorted, and the indexes are made from them. -/
def KeywordTable.Faithful (t : KeywordTable) : Prop := ofWords t.keyword t.builtIn t.literal = t

theorem KeywordTable.ofWords_faithful (keyword builtIn literal : List String) :
    (ofWords keyword builtIn literal).Faithful := by
  show ofWords (sortWords keyword) (sortWords builtIn) (sortWords literal) = _
  simp only [ofWords, sortWords_sortWords]

structure Variant.Faithful (reader : Regex.Reader) (v : Variant) : Prop where
  begin_ : v.begin_.Faithful reader
  finish : v.finish.Faithful reader
  relevance : v.relevance < 2 ^ 32

structure TitleRule.Faithful (reader : Regex.Reader) (t : TitleRule) : Prop where
  pattern : t.pattern.Faithful reader
  relevance : t.relevance < 2 ^ 32

structure HeaderRule.Faithful (reader : Regex.Reader) (h : HeaderRule) : Prop where
  begin_ : h.begin_.Faithful reader
  finish : h.finish.Faithful reader
  keywords : h.keywords.Faithful
  title : h.title.Faithful reader

/-- The parts of the rule are faithful, and so many levels are enough for its record. -/
inductive Rule.Faithful (reader : Regex.Reader) : Nat → Rule → Prop
  | lexeme {n : Nat} {scope : Option Scope} {pattern : Pattern} (levels : 1 < n) (h : pattern.Faithful reader) :
      Faithful reader n (.lexeme scope pattern)
  | region {n : Nat} {scope : Scope} {variants : List Variant} {contains : List Rule} (levels : 2 < n)
      (hvariants : ∀ v ∈ variants, v.Faithful reader ∧ 3 < n)
      (hcontains : ∀ r ∈ contains, Faithful reader (n - 2) r) : Faithful reader n (.region scope variants contains)
  | header {n : Nat} {rule : HeaderRule} (levels : 3 < n) (h : rule.Faithful reader) :
      Faithful reader n (.header rule)

/-- The parts of the grammar are faithful; of the levels of a text, two are taken where its rules are. -/
structure Grammar.Faithful (reader : Regex.Reader) (g : Grammar) : Prop where
  identifier : g.identifier.Faithful reader
  keywords : g.keywords.Faithful
  rules : ∀ r ∈ g.rules, r.Faithful reader 126

/-! ## The patterns of a grammar -/

mutual

/-- The patterns of a rule and of the rules inside it. -/
def Rule.patterns : Rule → List Pattern
  | .lexeme _ p => [p]
  | .region _ vs rs => vs.flatMap (fun v => [v.begin_, v.finish]) ++ Rule.allPatterns rs
  | .header h => [h.begin_, h.finish, h.title.pattern]

def Rule.allPatterns : List Rule → List Pattern
  | [] => []
  | r :: rs => r.patterns ++ Rule.allPatterns rs

end

def Grammar.patterns (g : Grammar) : List Pattern := g.identifier :: Rule.allPatterns g.rules

theorem Rule.allPatterns_eq (rs : List Rule) : Rule.allPatterns rs = rs.flatMap Rule.patterns := by
  induction rs with
  | nil => rfl
  | cons r rs ih => rw [Rule.allPatterns, ih, List.flatMap_cons]

theorem Rule.Faithful.patterns {n : Nat} {r : Rule} (h : r.Faithful reader n) : ∀ p ∈ r.patterns, p.Faithful reader := by
  induction h with
  | lexeme _ hp => simpa [Rule.patterns] using hp
  | region _ hvariants _ ih =>
    simp only [Rule.patterns, Rule.allPatterns_eq, List.forall_mem_append, List.forall_mem_flatMap]
    refine ⟨fun v hv => ?_, ih⟩
    have hv := (hvariants v hv).1
    simpa using ⟨hv.begin_, hv.finish⟩
  | header _ hh => simpa [Rule.patterns] using ⟨hh.begin_, hh.finish, hh.title.pattern⟩

/-- A rule is as faithful to another reader, if that reads its patterns as what they are. -/
theorem Rule.Faithful.of_patterns {n : Nat} {r : Rule} (h : r.Faithful reader n)
    (hp : ∀ p ∈ r.patterns, p.Faithful reader') : r.Faithful reader' n := by
  induction h with
  | lexeme levels _ => exact .lexeme levels (by simpa [Rule.patterns] using hp)
  | region levels hvariants _ ih =>
    simp only [Rule.patterns, Rule.allPatterns_eq, List.forall_mem_append, List.forall_mem_flatMap] at hp
    refine .region levels (fun v hv => ?_) fun r hr => ih r hr (hp.2 r hr)
    obtain ⟨hfaithful, hn⟩ := hvariants v hv
    obtain ⟨hbegin, hfinish⟩ : v.begin_.Faithful reader' ∧ v.finish.Faithful reader' := by simpa using hp.1 v hv
    exact ⟨⟨hbegin, hfinish, hfaithful.relevance⟩, hn⟩
  | @header _ rule levels hh =>
    obtain ⟨hbegin, hfinish, htitle⟩ : rule.begin_.Faithful reader' ∧ rule.finish.Faithful reader' ∧
        rule.title.pattern.Faithful reader' := by simpa [Rule.patterns] using hp
    exact .header levels ⟨hbegin, hfinish, hh.keywords, htitle, hh.title.relevance⟩

theorem Grammar.Faithful.patterns {g : Grammar} (h : g.Faithful reader) : ∀ p ∈ g.patterns, p.Faithful reader := by
  simp only [Grammar.patterns, Rule.allPatterns_eq, List.forall_mem_cons, List.forall_mem_flatMap]
  exact ⟨h.identifier, fun r hr => (h.rules r hr).patterns⟩

theorem Grammar.Faithful.of_patterns {g : Grammar} (h : g.Faithful reader)
    (hp : ∀ p ∈ g.patterns, p.Faithful reader') : g.Faithful reader' := by
  simp only [Grammar.patterns, Rule.allPatterns_eq, List.forall_mem_cons, List.forall_mem_flatMap] at hp
  exact ⟨hp.1, h.keywords, fun r hr => (h.rules r hr).of_patterns (hp.2 r hr)⟩

namespace Grammar.Record

/-! ## Reading parts back -/

variable {mode inner : Mode}

theorem readPattern_pattern {p : Pattern} (h : p.Faithful reader) : readPattern reader (pattern p) = .ok p := by
  have h : reader p.source = .ok p.expr := h
  simp only [readPattern, pattern, Data.string, bind, Except.bind, Pattern.read, h]
  rfl

theorem readScope_scope (mode : Mode) (s : Scope) : readScope mode (scope s) = .ok s := by cases s <;> rfl

theorem readScope?_scope (s : Option Scope) : readScope? ((s.map scope).getD .null) = .ok s := by
  cases s with
  | none => rfl
  | some s => cases s <;> rfl

theorem strings_strings (henter : mode.enter = .ok inner) (ss : List String) :
    strings mode (.strings ss) = .ok ss :=
  Data.listOf_list henter fun _ _ => rfl

theorem word32_nat {n : Nat} (h : n < 2 ^ 32) : Data.word32 (.nat n) = .ok n := by
  have h : n < Nat.pow 2 32 := h
  simp [Data.word32, Value.nat, h]

theorem readKeywords_keywords {deep : Mode} (henter : mode.enter = .ok inner) (hdeep : inner.enter = .ok deep)
    {t : KeywordTable} (h : t.Faithful) : readKeywords mode (keywords t) = .ok t := by
  have hwords : keywordShape.decode mode (keywords t) = .ok ⟨t.keyword, t.builtIn, t.literal⟩ := by
    refine Shape.decode_object henter rfl (by decide) ?_
    simp only [List.foldlM, keywordShape, strings_strings hdeep, bind, Except.bind, pure, Except.pure]
    rfl
  have h : KeywordTable.ofWords t.keyword t.builtIn t.literal = t := h
  simp only [readKeywords, hwords, bind, Except.bind, WordLists.table, h]
  rfl

theorem decode_variant (henter : mode.enter = .ok inner) {v : Variant} (h : v.Faithful reader) :
    (variantShape reader).decode mode (variant v) = .ok v := by
  refine Shape.decode_object henter rfl (by simp [variantShape]) ?_
  simp only [List.foldlM, variantShape, readPattern_pattern h.begin_, readPattern_pattern h.finish,
    word32_nat h.relevance, bind, Except.bind, pure, Except.pure]
  rfl

theorem decode_title (henter : mode.enter = .ok inner) {t : TitleRule} (h : t.Faithful reader) :
    (titleShape reader).decode mode (title t) = .ok t := by
  refine Shape.decode_object henter rfl (by simp [titleShape]) ?_
  simp only [List.foldlM, titleShape, readPattern_pattern h.pattern, word32_nat h.relevance, Data.bool,
    bind, Except.bind, pure, Except.pure]
  rfl

/-! ## Reading rules back -/

theorem rules_eq (rs : List Rule) : rules rs = rs.map rule := by
  induction rs with
  | nil => rfl
  | cons r rs ih => rw [rules, ih, List.map_cons]

theorem strings_fault? {n : Nat} (h : 1 < n) (ss : List String) : (Value.strings ss).fault? (some n) = none := by
  refine Data.fault?_list.2 ⟨h, List.forall_mem_map.2 fun s _ => ?_⟩
  simp [Value.fault?]

theorem keywords_fault? {n : Nat} (h : 2 < n) (t : KeywordTable) : (keywords t).fault? (some n) = none := by
  refine Data.fault?_object.2 ⟨by omega, ?_⟩
  simp only [List.forall_mem_cons]
  exact ⟨strings_fault? (by omega) _, strings_fault? (by omega) _, strings_fault? (by omega) _, by simp⟩

theorem variant_fault? {n : Nat} (h : 1 < n) (v : Variant) : (variant v).fault? (some n) = none := by
  refine Data.fault?_object.2 ⟨h, ?_⟩
  simp [pattern, Value.nat, Value.fault?]

theorem title_fault? {n : Nat} (h : 1 < n) (t : TitleRule) : (title t).fault? (some n) = none := by
  refine Data.fault?_object.2 ⟨h, ?_⟩
  simp [pattern, Value.nat, Value.fault?]

theorem scope?_fault? (limit : Option Nat) (s : Option Scope) :
    ((s.map scope).getD .null).fault? limit = none := by
  cases s <;> rfl

/-- A rule that fits has no fault in its record. -/
theorem rule_fault? {n : Nat} {r : Rule} (h : r.Faithful reader n) : (rule r).fault? (some n) = none := by
  induction h with
  | lexeme levels _ =>
    refine Data.fault?_object.2 ⟨levels, ?_⟩
    simp [scope?_fault?, pattern, Value.fault?]
  | @region n _ variants contains levels hvariants _ ih =>
    have hvs : (Value.list (variants.map variant)).fault? (some (n - 1)) = none := by
      refine Data.fault?_list.2 ⟨by omega, List.forall_mem_map.2 fun v hv => variant_fault? ?_ v⟩
      have := (hvariants v hv).2
      omega
    have hrs : (Value.list (rules contains)).fault? (some (n - 1)) = none := by
      rw [rules_eq]
      exact Data.fault?_list.2 ⟨by omega, List.forall_mem_map.2 ih⟩
    rw [rule, Data.fault?_object]
    simp only [List.forall_mem_cons]
    exact ⟨by omega, rfl, rfl, hvs, hrs, by simp⟩
  | @header n rule levels _ =>
    rw [Record.rule, Data.fault?_object]
    simp only [List.forall_mem_cons]
    exact ⟨by omega, rfl, rfl, rfl, rfl, keywords_fault? (by omega) _, title_fault? (by omega) _, by simp⟩

/-- The kind of a rule is read first, and the rest of its record is held if it has no fault. -/
theorem tagged_rule {n : Nat} {kind : String} {members : List (String × Value)}
    (hmode : mode = .whole ∨ mode = .direct n) (hkind : kind ∈ kinds)
    (h : (Value.object (("kind", .str kind) :: members)).fault? (some n) = none)
    (hnames : "kind" ∉ members.map (·.1)) :
    Data.tagged "internally tagged enum MatchRule" "kind" kinds mode
      (.object (("kind", .str kind) :: members)) = .ok (kind, .object members) := by
  obtain ⟨hn, hmembers⟩ := Data.fault?_object.1 h
  have hne : ∀ m ∈ members, m.1 ≠ "kind" := fun m hm he => hnames (List.mem_map.2 ⟨m, hm, he⟩)
  rcases hmode with rfl | rfl
  · exact Data.tagged_object rfl hkind fun m hm => ⟨hne m hm, rfl⟩
  · have henter : (Mode.direct n).enter = .ok (.direct (n - 1)) := if_neg (Nat.not_le.2 hn)
    refine Data.tagged_object henter hkind fun m hm => ⟨hne m hm, ?_⟩
    rw [Data.hold, hmembers m (List.mem_cons_of_mem _ hm)]
    rfl

theorem decode_lexeme {s : Option Scope} {p : Pattern} (h : p.Faithful reader) : (lexemeShape reader).decode .whole
    (.object [("scope", (s.map scope).getD .null), ("pattern", pattern p)]) = .ok (s, p) := by
  refine Shape.decode_object rfl rfl (by simp [lexemeShape]) ?_
  simp only [List.foldlM, lexemeShape, readScope?_scope, readPattern_pattern h, bind, Except.bind, pure,
    Except.pure]
  rfl

theorem decode_region {nested : Mode → Value → Decoded Rule} {s : Scope} {vs : List Variant} {rs : List Rule}
    (hvs : ∀ v ∈ vs, v.Faithful reader) (hrs : ∀ r ∈ rs, nested .whole (rule r) = .ok r) :
    (regionShape reader nested).decode .whole (.object [("scope", scope s), ("variants", .list (vs.map variant)),
      ("contains", .list (rules rs))]) = .ok (s, vs, rs) := by
  refine Shape.decode_object rfl rfl (by simp [regionShape]) ?_
  have hvariants : Data.listOf (variantShape reader).decode .whole (.list (vs.map variant)) = .ok vs :=
    Data.listOf_list rfl fun v hv => decode_variant rfl (hvs v hv)
  have hrules : Data.listOf nested .whole (.list (rs.map rule)) = .ok rs := Data.listOf_list rfl hrs
  simp only [List.foldlM, regionShape, readScope_scope, hvariants, rules_eq, hrules, bind, Except.bind, pure,
    Except.pure]
  rfl

theorem decode_header {h : HeaderRule} (hh : h.Faithful reader) : (headerShape reader).decode .whole
    (.object [("scope", scope h.scope), ("begin", pattern h.begin_), ("end", pattern h.finish),
      ("keywords", keywords h.keywords), ("title", title h.title)]) = .ok h := by
  have hkeywords : readKeywords .whole (keywords h.keywords) = .ok h.keywords :=
    readKeywords_keywords rfl rfl hh.keywords
  have htitle : (titleShape reader).decode .whole (title h.title) = .ok h.title := decode_title rfl hh.title
  refine Shape.decode_object rfl rfl (by simp [headerShape]) ?_
  simp only [List.foldlM, headerShape, readScope_scope, readPattern_pattern hh.begin_,
    readPattern_pattern hh.finish, hkeywords, htitle, bind, Except.bind, pure, Except.pure]
  rfl

/-- **A faithful rule is read back** from its record, by a reader for rules nested half as deep as there
are levels. -/
theorem readRule_rule {n : Nat} {r : Rule} (h : r.Faithful reader n) : ∀ {k : Nat} {mode : Mode}, n ≤ 2 * k →
    mode = .whole ∨ mode = .direct n → readRule reader k mode (rule r) = .ok r := by
  have hfault := rule_fault? h
  induction h with
  | lexeme levels hp =>
    intro k mode hk hmode
    obtain ⟨k, rfl⟩ : ∃ j, k = j + 1 := ⟨k - 1, by omega⟩
    simp only [readRule, rule, tagged_rule hmode (by decide) hfault (by simp), decode_lexeme hp, bind, Except.bind]
    rfl
  | @region n _ _ contains levels hvariants hcontains ih =>
    intro k mode hk hmode
    obtain ⟨k, rfl⟩ : ∃ j, k = j + 1 := ⟨k - 1, by omega⟩
    have hnested : ∀ r ∈ contains, readRule reader k .whole (rule r) = .ok r :=
      fun r hr => ih r hr (rule_fault? (hcontains r hr)) (by omega) (.inl rfl)
    simp only [readRule, rule, tagged_rule hmode (by decide) hfault (by simp),
      decode_region (fun v hv => (hvariants v hv).1) hnested, bind, Except.bind]
    rfl
  | header levels hr =>
    intro k mode hk hmode
    obtain ⟨k, rfl⟩ : ∃ j, k = j + 1 := ⟨k - 1, by omega⟩
    simp only [readRule, rule, tagged_rule hmode (by decide) hfault (by simp), decode_header hr, bind, Except.bind]
    rfl

end Grammar.Record

/-- **A faithful grammar is read back** from its record. -/
theorem Grammar.Faithful.decode_record {g : Grammar} (h : g.Faithful reader) :
    (Record.grammarShape reader).decode .top (Record.grammar g) = .ok g := by
  have hstrings : ∀ ss, Record.strings (.direct 127) (.strings ss) = .ok ss := Record.strings_strings rfl
  have hkeywords : Record.readKeywords (.direct 127) (Record.keywords g.keywords) = .ok g.keywords :=
    Record.readKeywords_keywords rfl rfl h.keywords
  have hrules : Data.listOf (Record.readRule reader Record.ruleDepth) (.direct 127) (.list (g.rules.map Record.rule)) =
      .ok g.rules :=
    Data.listOf_list rfl fun r hr => Record.readRule_rule (h.rules r hr) (by decide) (.inr rfl)
  have henter : Mode.top.enter = .ok (.direct 127) := rfl
  refine Shape.decode_object henter rfl (by simp [Record.grammarShape]) ?_
  simp only [List.foldlM, Record.grammarShape, Data.string, Data.bool, hstrings, hkeywords, Record.rules_eq,
    hrules, Record.readPattern_pattern h.identifier, bind, Except.bind, pure, Except.pure]
  rfl

/-! ## Records as JSON texts -/

namespace Grammar.Record

open Json (Plain)

theorem plain_strings (ss : List String) : Plain (.strings ss) :=
  .list (List.forall_mem_map.2 fun s _ => .str s)

theorem plain_keywords (t : KeywordTable) : Plain (keywords t) := by
  refine .object ?_
  simp only [List.forall_mem_cons]
  exact ⟨plain_strings _, plain_strings _, plain_strings _, by simp⟩

theorem plain_relevance {n : Nat} (h : n < 2 ^ 32) : Plain (.nat n) := .nat (by omega)

theorem plain_variant {v : Variant} (h : v.Faithful reader) : Plain (variant v) := by
  refine .object ?_
  simp only [List.forall_mem_cons]
  exact ⟨.str _, .str _, plain_relevance h.relevance, by simp⟩

theorem plain_title {t : TitleRule} (h : t.Faithful reader) : Plain (title t) := by
  refine .object ?_
  simp only [List.forall_mem_cons]
  exact ⟨.str _, plain_relevance h.relevance, .bool _, by simp⟩

theorem plain_scope? (s : Option Scope) : Plain ((s.map scope).getD .null) := by
  cases s with
  | none => exact .null
  | some s => exact .str _

theorem plain_rule {n : Nat} {r : Rule} (h : r.Faithful reader n) : Plain (rule r) := by
  induction h with
  | lexeme _ _ =>
    refine .object ?_
    simp only [List.forall_mem_cons]
    exact ⟨.str _, plain_scope? _, .str _, by simp⟩
  | @region _ _ variants contains _ hvariants _ ih =>
    have hvs : Plain (.list (variants.map variant)) :=
      .list (List.forall_mem_map.2 fun v hv => plain_variant (hvariants v hv).1)
    have hrs : Plain (.list (rules contains)) := by
      rw [rules_eq]
      exact .list (List.forall_mem_map.2 ih)
    refine .object ?_
    simp only [List.forall_mem_cons]
    exact ⟨.str _, .str _, hvs, hrs, by simp⟩
  | header _ h =>
    refine .object ?_
    simp only [List.forall_mem_cons]
    exact ⟨.str _, .str _, .str _, .str _, plain_keywords _, plain_title h.title, by simp⟩

theorem plain_grammar {g : Grammar} (h : g.Faithful reader) : Plain (grammar g) := by
  have hrules : Plain (.list (rules g.rules)) := by
    rw [rules_eq]
    exact .list (List.forall_mem_map.2 fun r hr => plain_rule (h.rules r hr))
  refine .object ?_
  simp only [List.forall_mem_cons]
  exact ⟨.str _, plain_strings _, .bool _, .str _, plain_keywords _, hrules, plain_strings _,
    plain_strings _, by simp⟩

end Grammar.Record

/-- **A faithful grammar is read back** from its text. -/
theorem Grammar.Faithful.ofJson_toJson {g : Grammar} (h : g.Faithful reader) : ofJson reader g.toJson = .ok g := by
  simp only [ofJson, toJson, Json.read_pretty (Record.plain_grammar h), h.decode_record, bind, Except.bind]
  rfl

end Lexicolor
