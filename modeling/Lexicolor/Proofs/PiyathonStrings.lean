/-
Strings of Piyathon. Of the variants of a string the most relevant that matches is due, so three
quotes in a row are taken together (`due_delimiter`); from there on the string runs to where the
scanner of characters stops. Nothing else in a Piyathon text has the scope of a string: what stands
outside of rules and inside of headers is leaves, and no leaf is a string (`leaf_scope_ne`).
-/
import Lexicolor.Proofs.PiyathonWords
import Lexicolor.Proofs.QuotedStrings

namespace Lexicolor.Piyathon

open Text Regex Scan Stock

variable {a : Alternative} {c : Candidate} {p : Place} {source : String} {t : Token}

/-! ## What is a string -/

/-- A rule of the grammar, at any depth, is one of its top level or the escape inside strings. -/
theorem occurs_cases {r : Rule} (h : r.Occurs grammar.rules) : r = hashComment ∨ r = Stock.number ∨
    r = quotedString ∨ (∃ h ∈ headers, r = blockHeader h.1 h.2) ∨ r = backslashEscape := by
  cases h with
  | here h =>
    simp only [grammar, List.mem_cons, List.not_mem_nil, or_false] at h
    rcases h with h | h | h | h | h
    · exact .inl h
    · exact .inr (.inl h)
    · exact .inr (.inr (.inl h))
    · exact .inr (.inr (.inr (.inl ⟨(.function, define), by simp [headers], h⟩)))
    · exact .inr (.inr (.inr (.inl ⟨(.classDef, classAnchor), by simp [headers], h⟩)))
  | inside h h' =>
    simp only [grammar, List.mem_cons, List.not_mem_nil, or_false] at h
    rcases h with h | h | h | h | h <;> cases h
    cases h' with
    | here h' => exact .inr (.inr (.inr (.inr (List.mem_singleton.1 h'))))
    | inside h' _ => simp [backslashEscape] at h'

theorem region_scope {scope : Scope} {variants : List Variant} {contains : List Rule}
    (h : (Rule.region scope variants contains).Occurs grammar.rules) : scope = .string := by
  rcases occurs_cases h with h | h | h | ⟨_, -, h⟩ | h <;> cases h
  rfl

theorem header_cases {rule : HeaderRule} (h : (Rule.header rule).Occurs grammar.rules) :
    ∃ h ∈ headers, Rule.header rule = blockHeader h.1 h.2 := by
  rcases occurs_cases h with h | h | h | h | h
  · cases h
  · cases h
  · cases h
  · exact h
  · cases h

theorem lexeme_scope {scope : Scope} {pattern : Pattern}
    (h : (Rule.lexeme (some scope) pattern).Occurs grammar.rules) : scope = .comment ∨ scope = .number := by
  rcases occurs_cases h with h | h | h | ⟨_, -, h⟩ | h <;> cases h
  · exact .inl rfl
  · exact .inr rfl

/-- No word, lexeme or title has the scope of a string or of a header. -/
theorem leaf_scope_ne (h : Leaf grammar t) : ∀ s ∈ [Scope.string, .function, .classDef], t.scope ≠ s := by
  intro s hs
  have hnone : ∀ s ∈ [Scope.string, .function, .classDef], s.isWordClass = false ∧
      ∀ r ∈ [Scope.plain, .identifier, .title, .comment, .number], r ≠ s := by decide
  obtain ⟨hlisted, hnone⟩ := hnone s hs
  cases h with
  | plain span => exact hnone .plain (by simp)
  | word _ =>
    rw [Token.ofSpan_scope]
    exact grammar.wordScope_ne _ (hnone .identifier (by simp)).symm hlisted
  | listed _ _ _ => exact WordClass.scope_ne _ hlisted
  | @lexeme scope pattern m occurs _ =>
    rcases lexeme_scope occurs with rfl | rfl
    · exact hnone .comment (by simp)
    · exact hnone .number (by simp)
  | title _ span => exact hnone .title (by simp)

/-- What has a body has the scope of a string or of a header. -/
theorem bodied_scope {finish : Pattern} {m : Match} (h : Bodied grammar source finish m t) :
    t.scope ∈ [Scope.string, .function, .classDef] := by
  cases h with
  | region occurs _ _ _ made =>
    rw [applyRegion_token _ _ _ made, Token.ofSpan_scope, region_scope occurs]
    simp
  | header occurs _ _ made =>
    obtain ⟨h, hh, heq⟩ := header_cases occurs
    obtain rfl := Rule.header.inj heq
    rw [applyHeader_token _ _ made, Token.ofSpan_scope]
    rcases header_scope h hh with h | h <;> simp [h]

/-- A header is no string, and neither is anything inside it. -/
theorem header_apply {h : Scope × String} (hh : h ∈ headers) {n : Nat}
    (ha : a ∈ alternativesOf grammar true n (blockHeader h.1 h.2)) (s : Span)
    (ht : (a.apply s).1 = some t) : t.scope ≠ .string ∧ ∀ u ∈ t.children, Leaf grammar u := by
  obtain ⟨u, hu, hscope⟩ := alternativesOf_scope rfl ha s
  obtain rfl := Option.some.inj (hu.symm.trans ht)
  refine ⟨?_, ?_⟩
  · rw [hscope]
    rcases header_scope h hh with h | h <;> simp [h]
  · simp only [blockHeader, alternativesOf, List.mem_singleton] at ha
    subst ha
    exact applyHeader_leaves (.here (header_mem h hh)) s ht

/-- Whatever begins at the top level is a string, or it makes neither a string nor one inside it. -/
theorem begins_string_or (ha : a ∈ beginnings) :
    (∃ n, (∃ d ∈ delimiters, a = beginString grammar n d) ∧
      ∀ d ∈ delimiters, beginString grammar n d ∈ beginnings) ∨
    ∀ s t, (a.apply s).1 = some t → t.scope ≠ .string ∧ ∀ u ∈ t.children, Leaf grammar u := by
  obtain ⟨r, hr, n, ha, hall⟩ := mem_alternativesFrom ha
  simp only [grammar, List.mem_cons, List.not_mem_nil, or_false] at hr
  rcases hr with rfl | rfl | rfl | rfl | rfl
  · right
    simp only [hashComment, alternativesOf, List.mem_singleton] at ha
    subst ha
    intro s t ht
    obtain rfl := Option.some.inj ht
    simp [Token.ofSpan]
  · right
    simp only [Stock.number, alternativesOf, List.mem_singleton] at ha
    subst ha
    intro s t ht
    obtain rfl := Option.some.inj ht
    simp [Token.ofSpan]
  · rw [alternativesOf_quotedString] at ha hall
    obtain ⟨d, hd, rfl⟩ := List.mem_map.1 ha
    exact .inl ⟨n, ⟨d, hd, rfl⟩, fun e he => hall _ (List.mem_map.2 ⟨e, he, rfl⟩)⟩
  · have hh : (.function, define) ∈ headers := by simp [headers]
    exact .inr fun s t => header_apply hh ha s
  · have hh : (.classDef, classAnchor) ∈ headers := by simp [headers]
    exact .inr fun s t => header_apply hh ha s

/-! ## Where strings end -/

/-- The string that a text begins with, as a scanner of characters reads it. -/
def stringAt (cs : List Char) : List Char :=
  delimiterAt cs ++ untilClosed (delimiterAt cs) (cs.drop (delimiterAt cs).length)

/-- The token has no children and is the string that the source there begins with. -/
def IsString (source : String) (t : Token) : Prop :=
  t.children = [] ∧ ∃ before rest, source.toList = before ++ rest ∧ t.start = bytes before ∧
    (rest.head? = some '\'' ∨ rest.head? = some '"') ∧ t.text.toList = stringAt rest ∧
    t.stop = t.start + bytes (stringAt rest)

/-- What is due, if it is a string, is the string that the source there begins with. -/
theorem due_isString {n : Nat} {d : String × Nat} (hd : d ∈ delimiters)
    (hall : ∀ d ∈ delimiters, beginString grammar n d ∈ beginnings) (hp : (Place.start source.toList).Reaches p)
    (hdue : due beginnings p = some c) (hc : c.alternative = beginString grammar n d)
    (ht : (c.alternative.apply c.found.span).1 = some t) : IsString source t := by
  obtain ⟨rest, hrest, hstop, hdelimiter⟩ := due_delimiter hd hall hdue hc
  have hr := hp.trans (Pattern.findFrom_ahead (due_mem hdue).2).1
  have hstring : stringAt c.found.start.rest = d.1.toList ++ untilClosed d.1.toList rest := by
    rw [stringAt, hdelimiter, hrest, List.drop_left]
  have hextent : c.found.start.rest =
      stringAt c.found.start.rest ++ (closing d.1.toList c.found.stop).rest := by
    rw [hstring, List.append_assoc, hrest, hstop]
    exact congrArg _ (rest_eq_untilClosed _ (c.found.start.pass d.1.toList rest))
  have hend : (closing d.1.toList c.found.stop).offset =
      c.found.start.offset + bytes (stringAt c.found.start.rest) := by
    rw [hstring, bytes_append, hstop]
    simp only [closing, Place.pass_eq]
    omega
  rw [hc, beginString_apply hd] at ht
  obtain rfl := Option.some.inj ht
  refine ⟨rfl, _, _, hr.rest_eq, ?_, ?_, ?_, hend⟩
  · rw [Token.ofSpan, ← Nat.zero_add (bytes _)]
    exact hr.offset_eq
  · rw [hrest]
    exact delimiters_head d hd rest
  · exact (congrArg String.toList (Span.text_eq hextent hend)).trans String.toList_ofList

/-- A step makes no strings but those that the source begins with where they stand. -/
theorem passage_strings (hp : (Place.start source.toList).Reaches p) :
    ∀ t ∈ (passage grammar beginnings p).1, ∀ u ∈ t.walk, u.scope = .string → IsString source u := by
  have hleaf : ∀ u, Leaf grammar u → ∀ v ∈ u.walk, v.scope ≠ .string := by
    intro u hu v hv
    rw [Token.walk_eq, hu.children] at hv
    exact List.mem_singleton.1 hv ▸ leaf_scope_ne hu .string (by simp)
  rcases passage_cases grammar beginnings p with ⟨-, h⟩ | ⟨c, stop, -, -, h⟩ | ⟨c, hdue, -, h⟩
  · rw [h]
    exact fun t ht u hu hs => absurd hs (hleaf t (gapTokens_leaves _ _ t ht) u hu)
  · rw [h]
    exact fun t ht u hu hs => absurd hs (hleaf t (gapTokens_leaves _ _ t ht) u hu)
  · rw [h]
    intro t ht u hu hs
    rcases List.mem_append.1 ht with ht | ht
    · exact absurd hs (hleaf t (gapTokens_leaves _ _ t ht) u hu)
    · rw [List.mem_singleton] at ht
      cases hmade : (c.alternative.apply c.found.span).1 with
      | none =>
        rw [hmade] at ht
        exact absurd hs (hleaf t (ht ▸ .plain _) u hu)
      | some v =>
        rw [hmade] at ht
        obtain rfl : t = v := ht
        rcases begins_string_or (due_mem hdue).1 with ⟨n, ⟨d, hd, hc⟩, hall⟩ | hnone
        · obtain ⟨hchildren, h⟩ := due_isString hd hall hp hdue hc hmade
          rw [Token.walk_eq, hchildren] at hu
          exact List.mem_singleton.1 hu ▸ ⟨hchildren, h⟩
        · obtain ⟨hscope, hinside⟩ := hnone _ _ hmade
          rcases Token.mem_walk.1 hu with rfl | ⟨w, hw, hu⟩
          · exact absurd hs hscope
          · exact absurd hs (hleaf w (hinside w hw) u hu)

/-- **Every string of a Piyathon text**, at any depth of its tokens, is the one that a scanner of
characters reads from where it begins. -/
theorem string_extent (source : String) (t : Token) (ht : t ∈ Token.walkAll (tokenize grammar source))
    (hs : t.scope = .string) : IsString source t := by
  obtain ⟨u, hu, ht⟩ := Token.mem_walkAll.1 ht
  exact (tokenize_eq_iff.1 rfl).forall_mem (alternativesFrom_advance grammar.rules 0)
    (fun p hp => passage_strings hp) (.refl _) u hu t ht hs

/-- Neither an escaped quote nor two quotes in a row close a string between three. -/
theorem string_extent_escaped : ∃ t ∈ Token.walkAll (tokenize grammar " '''a\\'''b''\\\\'''c"),
    t.scope = .string ∧ IsString " '''a\\'''b''\\\\'''c" t ∧ t.text = "'''a\\'''b''\\\\'''" := by
  have h : ((Token.walkAll (tokenize grammar " '''a\\'''b''\\\\'''c")).find? (·.scope = .string)).map (·.text) =
      some "'''a\\'''b''\\\\'''" := by decide +kernel
  obtain ⟨t, ht, htext⟩ := Option.map_eq_some_iff.1 h
  have hscope : t.scope = .string := by simpa using List.find?_some ht
  exact ⟨t, List.mem_of_find?_eq_some ht, hscope,
    string_extent _ t (List.mem_of_find?_eq_some ht) hscope, htext⟩

end Lexicolor.Piyathon
