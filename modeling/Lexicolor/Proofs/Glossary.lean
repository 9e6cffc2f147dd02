/-
The glossary of a Piyathon text. Tokens without children come one after the other in a walk through
all depths (`walkAll_filter_nested`), and so do the listed words, which have none
(`wordClass_listed`); so the first of the tokens with a text is the one that begins first. Every
listed word has a name in Python (`listed_named`): the lists of the grammar and the tables of names
agree.
-/
import Lexicolor.Format.Glossary
import Lexicolor.Proofs.PiyathonHeaders
import Lexicolor.Proofs.PiyathonStream
import Lexicolor.Proofs.ConsultedTables

namespace Lexicolor

/-! ## Walks -/

namespace Nested

variable {b : Nat}

theorem one {t : Token} (h : t.start < t.stop) : Nested t.start [t] t.stop := ⟨Nat.le_refl _, h, Nat.le_refl _⟩

theorem of_append {us : List Token} : ∀ {a : Nat} {ts : List Token}, Nested a (ts ++ us) b → Nested a ts b
  | _, [], h => h.le
  | _, _ :: _, ⟨h1, h2, h3⟩ => ⟨h1, h2, h3.of_append⟩

/-- Each of the tokens begins before all after it. -/
theorem pairwise_start : ∀ {a : Nat} {ts : List Token}, Nested a ts b → ts.Pairwise fun t u => t.start < u.start
  | _, [], _ => .nil
  | _, _ :: _, ⟨_, hlt, h⟩ => .cons (fun _ hu => Nat.lt_of_lt_of_le hlt (h.mem hu).1) h.pairwise_start

end Nested

section

variable {keep : Token → Bool}

/-- The token and all its descendants have their children nested in them, and those that are kept have none. -/
def WalksInOrder (keep : Token → Bool) (ts : List Token) : Prop :=
  ∀ u ∈ Token.walkAll ts, Nested u.start u.children u.stop ∧ (keep u = true → u.children = [])

mutual

theorem walk_filter_nested : ∀ t : Token, t.start < t.stop → WalksInOrder keep [t] →
    Nested t.start (t.walk.filter keep) t.stop
  | ⟨scope, start, stop, text, children⟩, hlt, h => by
    obtain ⟨hnested, hkept⟩ := h ⟨scope, start, stop, text, children⟩ (by simp [Token.walkAll, Token.walk])
    have hinside : WalksInOrder keep children := fun u hu => h u (by simp [Token.walkAll, Token.walk, hu])
    rw [Token.walk, List.filter_cons]
    split
    · next hk =>
      obtain rfl : children = [] := hkept hk
      exact Nested.one (t := ⟨scope, start, stop, text, []⟩) hlt
    · exact walkAll_filter_nested children hinside hnested

/-- **The tokens without children lie in order** at all depths. -/
theorem walkAll_filter_nested : ∀ {a b : Nat} (ts : List Token), WalksInOrder keep ts → Nested a ts b →
    Nested a ((Token.walkAll ts).filter keep) b
  | _, _, [], _, hnested => hnested
  | a, b, t :: ts, h, ⟨h1, h2, h3⟩ => by
    rw [Token.walkAll, List.filter_append]
    have hfirst := walk_filter_nested t h2 fun u hu => h u (by simp_all [Token.walkAll])
    have hrest := walkAll_filter_nested ts (fun u hu => h u (by simp [Token.walkAll, hu])) h3
    exact (hfirst.append hrest).weaken h1

end

end

/-! ## The first of each text -/

namespace Format

variable {seen : List String} {ts : List Token} {t : Token} {w : String}

/-- The tokens that are kept are each the first with its text. -/
theorem mem_firstByText : ∀ {seen ts}, t ∈ firstByText seen ts → t.text ∉ seen ∧
    ∃ before after, ts = before ++ t :: after ∧ ∀ u ∈ before, u.text ≠ t.text
  | _, [], h => by cases h
  | seen, u :: us, h => by
    unfold firstByText at h
    split at h
    · next hu =>
      obtain ⟨hseen, before, after, rfl, hbefore⟩ := mem_firstByText h
      refine ⟨hseen, u :: before, after, rfl, fun v hv => ?_⟩
      rcases List.mem_cons.1 hv with rfl | hv
      · rintro heq
        exact hseen (heq ▸ List.contains_iff_mem.1 hu)
      · exact hbefore v hv
    · next hu =>
      rcases List.mem_cons.1 h with rfl | h
      · exact ⟨fun hmem => hu (List.contains_iff_mem.2 hmem), [], us, rfl, by simp⟩
      · obtain ⟨hseen, before, after, rfl, hbefore⟩ := mem_firstByText h
        simp only [List.mem_cons, not_or] at hseen
        refine ⟨hseen.2, u :: before, after, rfl, fun v hv => ?_⟩
        rcases List.mem_cons.1 hv with rfl | hv
        · exact fun heq => hseen.1 heq.symm
        · exact hbefore v hv

theorem firstByText_sublist : ∀ {seen ts}, (firstByText seen ts).Sublist ts
  | _, [] => .refl _
  | seen, u :: us => by
    unfold firstByText
    split
    · exact firstByText_sublist.cons u
    · exact firstByText_sublist.cons_cons u

theorem firstByText_nodup : ∀ {seen ts}, ((firstByText seen ts).map (·.text)).Nodup
  | _, [] => .nil
  | seen, u :: us => by
    unfold firstByText
    split
    · exact firstByText_nodup
    · rw [List.map_cons, List.nodup_cons]
      refine ⟨fun hmem => ?_, firstByText_nodup⟩
      obtain ⟨v, hv, htext⟩ := List.mem_map.1 hmem
      exact (mem_firstByText hv).1 (by simp [htext])

/-- No text is lost. -/
theorem mem_texts_firstByText : ∀ {seen ts}, w ∉ seen → w ∈ ts.map (·.text) → w ∈ (firstByText seen ts).map (·.text)
  | _, [], _, h => by cases h
  | seen, u :: us, hw, h => by
    unfold firstByText
    split
    · next hu =>
      rcases List.mem_cons.1 h with rfl | h
      · exact absurd (List.contains_iff_mem.1 hu) hw
      · exact mem_texts_firstByText hw h
    · by_cases heq : w = u.text
      · simp [heq]
      · have hus : w ∈ us.map (·.text) := (List.mem_cons.1 h).resolve_left heq
        exact List.mem_cons_of_mem _ (mem_texts_firstByText (by simp [heq, hw]) hus)

end Format

/-! ## Words of Piyathon and their names -/

namespace Piyathon

open Text Scan Stock Format

variable {source : String} {t : Token} {w : String}

/-- A word of the grammar is in one of its lists. -/
theorem listed_of_mem_words {c : WordClass} (h : w ∈ grammar.keywords.words c) : w ∈ keywords ++ builtIns ++ literals := by
  have hmem := KeywordTable.mem_words_ofWords h
  cases c <;> simp [hmem]

/-- **Every listed word has a name in Python**, which is not the placeholder. -/
theorem listed_named (h : w ∈ keywords ++ builtIns ++ literals) :
    ∃ name, pythonName w = some name ∧ name ≠ "-" ∧ '\n' ∉ name.toList := by
  have key : ∀ table : List (String × String), w ∈ table.map Prod.fst → ∃ name, table.lookup w = some name ∧
      (w, name) ∈ table := by
    intro table hw
    cases hname : table.lookup w with
    | none =>
      obtain ⟨n, hn, rfl⟩ := List.mem_map.1 hw
      simpa using List.lookup_eq_none_iff.1 hname n hn
    | some name =>
      obtain ⟨before, after, rfl, -⟩ := List.lookup_eq_some_iff.1 hname
      exact ⟨name, rfl, by simp⟩
  have hkeys : w ∈ (names ++ alternates).map Prod.fst := by
    have h1 : ∀ w ∈ keywords, w ∈ keywordNames.map Prod.fst := by decide +kernel
    have h2 : ∀ w ∈ builtIns, w ∈ (builtInNames ++ alternates).map Prod.fst := by decide +kernel
    have h3 : ∀ w ∈ literals, w ∈ (specialNames ++ keywordNames ++ builtInNames).map Prod.fst := by decide +kernel
    simp only [names, List.map_append, List.mem_append] at h h2 h3 ⊢
    rcases h with (h | h) | h
    · exact .inl (.inl (.inl (h1 w h)))
    · exact (h2 w h).imp (fun h => .inl (.inr h)) id
    · rcases h3 w h with (h | h) | h
      · exact .inl (.inr h)
      · exact .inl (.inl (.inl h))
      · exact .inl (.inl (.inr h))
  have hnames : ∀ n ∈ names ++ alternates, n.2 ≠ "-" ∧ '\n' ∉ n.2.toList := by decide +kernel
  obtain ⟨name, hname, hmem⟩ := key _ hkeys
  exact ⟨name, hname, hnames _ hmem⟩

/-- The lists of the grammar hold whatever one of its tables classifies. -/
theorem classified_listed {table : KeywordTable} (htable : table ∈ grammar.consulted) (ht : grammar.Classifies table t) :
    ∃ c, t.text ∈ grammar.keywords.words c := by
  obtain ⟨c, hc, -⟩ := ht
  rcases Grammar.mem_consulted.1 htable with rfl | ⟨rule, occurs, rfl⟩
  · have hindexed : grammar.keywords.Indexed := KeywordTable.ofWords_indexed ..
    rw [KeywordTable.lookup_eq_find? hindexed] at hc
    have hlists : grammar.Lists c t.text := of_decide_eq_true (List.find?_some hc :)
    exact ⟨c, (Grammar.lists_iff_mem rfl).1 hlists⟩
  · obtain ⟨h, hh, heq⟩ := header_cases occurs
    obtain rfl := Rule.header.inj heq
    have hw : h.2 = t.text := ((lookup_anchor (anchor_isIdentifier h hh)).1 hc).1
    have hanchor : ∀ h ∈ headers, h.2 ∈ grammar.keywords.words .keyword :=
      forall_headers (by decide +kernel) (by decide +kernel)
    have hmem := hanchor h hh
    rw [hw] at hmem
    exact ⟨.keyword, hmem⟩

/-- No rule makes tokens with the scope of a word class. -/
theorem rule_scope {r : Rule} {s : Scope} (occurs : r.Occurs grammar.rules) (hr : r.scope? = some s) :
    s.isWordClass = false := by
  have hnone : ∀ h ∈ headers, h.1.isWordClass = false := by decide
  rcases occurs_cases occurs with rfl | rfl | rfl | ⟨h, hh, rfl⟩ | rfl <;> cases hr
  · decide
  · decide
  · decide
  · exact hnone h hh

/-- **What has the scope of a word class** is a word of the grammar and has no children. -/
theorem wordClass_listed (ht : t ∈ Token.walkAll (tokenize grammar source)) (hs : t.scope.isWordClass = true) :
    (∃ c, t.text ∈ grammar.keywords.words c) ∧ t.children = [] := by
  constructor
  · rcases Grammar.token_classified ht hs with ⟨table, htable, hclass⟩ | ⟨r, occurs, hr⟩
    · exact classified_listed htable hclass
    · rw [rule_scope occurs hr] at hs
      cases hs
  · obtain ⟨u, hu, ht⟩ := Token.mem_walkAll.1 ht
    rcases (Tokens.tokenize_sound grammar source u hu t ht).origin with hleaf | ⟨finish, m, hbodied⟩
    · exact hleaf.children
    · have hnone : ∀ s ∈ [Scope.string, .function, .classDef], s.isWordClass = false := by decide
      rw [hnone _ (bodied_scope hbodied)] at hs
      cases hs

/-- The listed words of a text, at all depths of its tokens. -/
def listed (source : String) : List Token :=
  (Token.walkAll (tokenize grammar source)).filter fun t => t.scope.isWordClass

theorem mem_listed : t ∈ listed source ↔ t ∈ Token.walkAll (tokenize grammar source) ∧ t.scope.isWordClass = true :=
  List.mem_filter

/-- **The listed words come in order**, whatever stands around them. -/
theorem listed_pairwise (source : String) : (listed source).Pairwise fun t u => t.start < u.start := by
  have hcovers := Tokens.after_covers (Tokens.start_covers grammar true source) source.length
  rw [← Tokens.tokenize_eq_given grammar (Nat.le_refl _)] at hcovers
  have hnested := hcovers.tiles.nested.of_append
  refine (walkAll_filter_nested _ (fun u hu => ⟨?_, fun hk => (wordClass_listed hu hk).2⟩) hnested).pairwise_start
  obtain ⟨v, hv, hu⟩ := Token.mem_walkAll.1 hu
  exact (Tokens.tokenize_sound grammar source v hv u hu).nested

/-- The line of a listed word ends with its name, and it is one line. -/
theorem glossaryLine_listed (ht : t ∈ listed source) : ∃ name, pythonName t.text = some name ∧ name ≠ "-" ∧
    glossaryLine t = t.text ++ " " ++ t.scope.name ++ " " ++ name ∧ '\n' ∉ (glossaryLine t).toList := by
  obtain ⟨hwalk, hs⟩ := mem_listed.1 ht
  obtain ⟨⟨c, hc⟩, -⟩ := wordClass_listed hwalk hs
  obtain ⟨name, hname, hne, hnewLine⟩ := listed_named (listed_of_mem_words hc)
  have hline : glossaryLine t = t.text ++ " " ++ t.scope.name ++ " " ++ name := by
    rw [glossaryLine, hname]
    rfl
  have htext : '\n' ∉ t.text.toList := by
    have hfull := (Grammar.isValid_iff.1 grammar_isValid).2.2.2 c _ hc
    intro hmem
    exact absurd ((matchesFully_identifier.1 hfull).mem '\n' hmem) (by decide)
  have hscope : '\n' ∉ t.scope.name.toList := by cases t.scope <;> decide
  have hspace : '\n' ∉ " ".toList := by decide
  refine ⟨name, hname, hne, hline, ?_⟩
  rw [hline]
  simp only [String.toList_append, List.mem_append, not_or]
  exact ⟨⟨⟨⟨htext, hspace⟩, hscope⟩, hspace⟩, hnewLine⟩

/-- **The glossary of a Piyathon text** has one line for each text of a listed word. The lines stand in the
order in which these words first begin, and each ends with the name of its word in Python, which is never
the placeholder. -/
theorem glossary_lines (source : String) : ∃ words : List Token,
    glossary (tokenize grammar source) = "\n".intercalate (words.map glossaryLine) ∧
    (words.map (·.text)).Nodup ∧
    (∀ w, w ∈ words.map (·.text) ↔
      ∃ t ∈ Token.walkAll (tokenize grammar source), t.scope.isWordClass = true ∧ t.text = w) ∧
    (words.map (·.start)).Pairwise (· < ·) ∧
    (∀ t ∈ words, t ∈ Token.walkAll (tokenize grammar source) ∧ t.scope.isWordClass = true ∧
      ∀ u ∈ Token.walkAll (tokenize grammar source), u.scope.isWordClass = true → u.text = t.text → t.start ≤ u.start) ∧
    ∀ t ∈ words, ∃ name, pythonName t.text = some name ∧ name ≠ "-" ∧
      glossaryLine t = t.text ++ " " ++ t.scope.name ++ " " ++ name ∧ '\n' ∉ (glossaryLine t).toList := by
  have hlisted : ∀ t ∈ firstByText [] (listed source), t ∈ listed source := fun t ht =>
    firstByText_sublist.mem ht
  refine ⟨firstByText [] (listed source), ?_, firstByText_nodup, fun w => ⟨fun hw => ?_, ?_⟩, ?_, fun t ht => ?_,
    fun t ht => glossaryLine_listed (hlisted t ht)⟩
  · rw [glossary, Token.flatMap_walk]
    rfl
  · obtain ⟨t, ht, htext⟩ := List.mem_map.1 hw
    obtain ⟨hwalk, hs⟩ := mem_listed.1 (hlisted t ht)
    exact ⟨t, hwalk, hs, htext⟩
  · rintro ⟨t, hwalk, hs, rfl⟩
    exact mem_texts_firstByText List.not_mem_nil (List.mem_map_of_mem (mem_listed.2 ⟨hwalk, hs⟩))
  · exact List.pairwise_map.2 ((listed_pairwise source).sublist firstByText_sublist)
  · obtain ⟨hwalk, hs⟩ := mem_listed.1 (hlisted t ht)
    refine ⟨hwalk, hs, fun u hu hus htext => ?_⟩
    obtain ⟨-, before, after, hsplit, hbefore⟩ := mem_firstByText ht
    have hordered := listed_pairwise source
    have hmem : u ∈ listed source := mem_listed.2 ⟨hu, hus⟩
    rw [hsplit] at hordered hmem
    rcases List.mem_append.1 hmem with hmem | hmem
    · exact absurd htext (hbefore u hmem)
    · rcases List.mem_cons.1 hmem with rfl | hmem
      · exact Nat.le_refl _
      · exact Nat.le_of_lt ((List.pairwise_cons.1 (List.pairwise_append.1 hordered).2.1).1 u hmem)

end Piyathon

end Lexicolor
