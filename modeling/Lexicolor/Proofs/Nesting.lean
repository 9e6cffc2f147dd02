/-
Tokens at every depth. A token of a scan is a leaf, which is a word, plain text, a lexeme or a
title (`Leaf`), or what a region or a header makes of a match of its begin pattern (`Bodied`).
`Sound` says of a token and of all its descendants that each is one of these, is a slice of the
source and has its children nested in it; rules make only sound tokens, by induction over the
rules nested in them (`alternativesFrom_sound`), and so does a scan.

How the token of a region or a header closes (`Bodied.closes`) is what `Runs.ends` says of its body.
-/
import Lexicolor.Proofs.Endings

namespace Lexicolor

/-- The rule stands among the rules or inside one of their regions, at any depth. -/
inductive Rule.Occurs (r : Rule) : List Rule → Prop
  | here {rules : List Rule} (h : r ∈ rules) : Occurs r rules
  | inside {rules : List Rule} {scope : Scope} {variants : List Variant} {contains : List Rule}
      (h : .region scope variants contains ∈ rules) (h' : Occurs r contains) : Occurs r rules

theorem Rule.Occurs.nested {r : Rule} {rules : List Rule} {scope : Scope} {variants : List Variant}
    {contains : List Rule} (h : (Rule.region scope variants contains).Occurs rules) (hr : r ∈ contains) :
    r.Occurs rules := by
  induction h with
  | here h => exact .inside h (.here hr)
  | inside h _ ih => exact .inside h ih

theorem Rule.not_occurs_nil {r : Rule} : ¬ r.Occurs [] := by
  intro h
  cases h with
  | here h => cases h
  | inside h _ => cases h

theorem Rule.occurs_cons {r q : Rule} {rs : List Rule} : q.Occurs (r :: rs) ↔ q.Occurs [r] ∨ q.Occurs rs := by
  constructor
  · intro h
    cases h with
    | here h =>
      rcases List.mem_cons.1 h with rfl | h
      · exact .inl (.here List.mem_cons_self)
      · exact .inr (.here h)
    | inside h h' =>
      rcases List.mem_cons.1 h with rfl | h
      · exact .inl (.inside List.mem_cons_self h')
      · exact .inr (.inside h h')
  · have hsub : ∀ {qs : List Rule}, qs ⊆ r :: rs → q.Occurs qs → q.Occurs (r :: rs) := by
      intro qs hqs h
      cases h with
      | here h => exact .here (hqs h)
      | inside h h' => exact .inside (hqs h) h'
    exact fun h => h.elim (hsub (by simp)) (hsub (List.subset_cons_self r rs))

/-- What occurs in a rule is the rule itself, or it occurs in what a region contains. -/
theorem Rule.occurs_singleton {r q : Rule} : q.Occurs [r] ↔
    q = r ∨ ∃ scope variants contains, r = .region scope variants contains ∧ q.Occurs contains := by
  constructor
  · intro h
    cases h with
    | here h => exact .inl (List.mem_singleton.1 h)
    | inside h h' => exact .inr ⟨_, _, _, (List.mem_singleton.1 h).symm, h'⟩
  · rintro (rfl | ⟨scope, variants, contains, rfl, h⟩)
    · exact .here List.mem_cons_self
    · exact .inside List.mem_cons_self h

namespace Token

theorem walk_eq (t : Token) : t.walk = t :: walkAll t.children := by
  cases t
  rfl

@[simp] theorem ofSpan_scope (scope : Scope) (s : Text.Span) (children : List Token) :
    (ofSpan scope s children).scope = scope := rfl

theorem mem_walkAll {u : Token} : ∀ {ts : List Token}, u ∈ walkAll ts ↔ ∃ t ∈ ts, u ∈ t.walk
  | [] => by simp [walkAll]
  | t :: ts => by simp [walkAll, mem_walkAll]

theorem flatMap_walk : ∀ ts : List Token, ts.flatMap walk = walkAll ts
  | [] => rfl
  | t :: ts => by rw [List.flatMap_cons, flatMap_walk ts, walkAll]

theorem mem_walk {t u : Token} : u ∈ t.walk ↔ u = t ∨ ∃ c ∈ t.children, u ∈ c.walk := by
  rw [walk_eq, List.mem_cons, mem_walkAll]

end Token

namespace Scan

open Text Regex

variable {g : Grammar} {source : String} {as : List Alternative} {p q : Place}

/-- A token without children that no body was scanned for. -/
inductive Leaf (g : Grammar) : Token → Prop
  | plain (s : Span) : Leaf g (.ofSpan .plain s [])
  | word {p q : Place} {w : Span} (h : w ∈ wordsIn g p q) : Leaf g (.ofSpan (g.wordScope w.text) w [])
  | listed {rule : HeaderRule} {p q : Place} {w : Span} {c : WordClass}
      (occurs : (Rule.header rule).Occurs g.rules) (h : w ∈ wordsIn g p q)
      (listed : rule.keywords.lookup w.text g.caseInsensitive = some c) : Leaf g (.ofSpan c.scope w [])
  | lexeme {scope : Scope} {pattern : Pattern} {m : Match}
      (occurs : (Rule.lexeme (some scope) pattern).Occurs g.rules)
      (found : pattern.matchHere m.start = some m) : Leaf g (.ofSpan scope m.span [])
  | title {rule : HeaderRule} (occurs : (Rule.header rule).Occurs g.rules) (s : Span) :
      Leaf g (.ofSpan .title s [])

/-- The token is what a region or a header of the grammar makes of a match `m` of its begin
pattern in the source; the body that follows the match is the one that `finish` ends. -/
inductive Bodied (g : Grammar) (source : String) : (finish : Pattern) → (m : Match) → Token → Prop
  | region {scope : Scope} {variants : List Variant} {contains : List Rule} {v : Variant} {m : Match}
      {t : Token} (occurs : (Rule.region scope variants contains).Occurs g.rules) (variant : v ∈ variants)
      (place : (Place.start source.toList).Reaches m.start) (found : v.begin_.matchHere m.start = some m)
      (made : (applyRegion g true scope (alternativesFrom g true 0 contains) v m.span).1 = some t) :
      Bodied g source v.finish m t
  | header {rule : HeaderRule} {m : Match} {t : Token} (occurs : (Rule.header rule).Occurs g.rules)
      (place : (Place.start source.toList).Reaches m.start) (found : rule.begin_.matchHere m.start = some m)
      (made : (applyHeader g true rule m.span).1 = some t) : Bodied g source rule.finish m t

/-- How a token that begins with the match `m` closes. Either it ends at the end of a match of the
end pattern, which lies after `m` and is not empty, and all its children end at or before the start
of that match; or it ends with the source, and there is a place after `m` from which the end pattern
finds nothing and which no child runs across. -/
def Closes (source : String) (finish : Pattern) (m : Match) (t : Token) : Prop :=
  (∃ e : Match, m.stop.Reaches e.start ∧ finish.matchHere e.start = some e ∧
    e.start.offset < e.stop.offset ∧ t.stop = e.stop.offset ∧ ∀ c ∈ t.children, c.stop ≤ e.start.offset) ∨
  (t.stop = source.utf8ByteSize ∧ ∃ r, m.stop.Reaches r ∧ finish.findFrom r = none ∧
    ∀ c ∈ t.children, c.stop ≤ r.offset ∨ r.offset ≤ c.start)

/-- The token is a slice of the source with its children nested in it, and it is known how it
came to be. -/
structure Placed (g : Grammar) (source : String) (t : Token) : Prop where
  slice : t.IsSlice source
  nested : Nested t.start t.children t.stop
  origin : Leaf g t ∨ ∃ finish m, Bodied g source finish m t

/-- The token and all its descendants are placed. -/
def Sound (g : Grammar) (source : String) (t : Token) : Prop := ∀ u ∈ t.walk, Placed g source u

theorem Sound.of_children {t : Token} (h : Placed g source t) (hc : ∀ c ∈ t.children, Sound g source c) :
    Sound g source t := by
  intro u hu
  rcases Token.mem_walk.1 hu with rfl | ⟨c, hmem, hu⟩
  · exact h
  · exact hc c hmem u hu

theorem Sound.leaf {scope : Scope} {s : Span} (hp : Place.Lies source.toList s.start)
    (hs : s.start.Reaches s.stop) (h : Leaf g (.ofSpan scope s [])) :
    Sound g source (.ofSpan scope s []) :=
  .of_children ⟨Token.ofSpan_isSlice hp hs .., hs.offset_le, .inl h⟩ (fun c hc => by cases hc)

/-! ## Words -/

theorem listedWords_sound {rule : HeaderRule} (hr : (Rule.header rule).Occurs g.rules)
    (hp : Place.Lies source.toList p) (h : p.Reaches q) :
    ∀ t ∈ listedWords g rule.keywords p q, Sound g source t := by
  intro t ht
  obtain ⟨w, hw, c, hc, rfl⟩ := mem_listedWords ht
  exact .leaf (wordsIn_lies hp h hw) ((wordsIn_successive g p q).mem hw).2 (.listed hr hw hc)

theorem fillGap_leaves {to_ : Place} : ∀ {p : Place} {ws : List Span},
    (∀ w ∈ ws, Leaf g (.ofSpan (g.wordScope w.text) w [])) → ∀ t ∈ fillGap g to_ p ws,
      Leaf g t ∧ t.children = []
  | p, [], _, t, ht => by
    unfold fillGap at ht
    split at ht
    · exact List.mem_singleton.1 ht ▸ ⟨.plain _, rfl⟩
    · cases ht
  | p, w :: ws, hw, t, ht => by
    have ih : ∀ t ∈ fillGap g to_ w.stop ws, Leaf g t ∧ t.children = [] :=
      fillGap_leaves fun v hv => hw v (List.mem_cons_of_mem w hv)
    unfold fillGap at ht
    split at ht
    · simp only [List.mem_cons] at ht
      rcases ht with rfl | rfl | ht
      · exact ⟨.plain _, rfl⟩
      · exact ⟨hw w (by simp), rfl⟩
      · exact ih t ht
    · rcases List.mem_cons.1 ht with rfl | ht
      · exact ⟨hw w (by simp), rfl⟩
      · exact ih t ht

theorem gapTokens_sound (hp : Place.Lies source.toList p) (h : p.Reaches q) :
    ∀ t ∈ gapTokens g p q, Sound g source t := by
  intro t ht
  obtain ⟨hl, hc⟩ := fillGap_leaves (fun w hw => .word hw) t ht
  obtain ⟨-, hlt, -⟩ := (gapTokens_tiles (g := g) h).nested.mem ht
  refine .of_children ⟨gapTokens_slices hp h t ht, ?_, .inl hl⟩ (by simp [hc])
  rw [hc]
  exact Nat.le_of_lt hlt

/-! ## Rules -/

/-- What the alternative makes of a match of its begin pattern is sound. -/
def Alternative.Sound (g : Grammar) (source : String) (a : Alternative) : Prop :=
  ∀ m, (Place.start source.toList).Reaches m.start → a.begin_.matchHere m.start = some m →
    ∀ t, (a.apply m.span).1 = some t → Scan.Sound g source t

/-- The token of a region, with what it makes of its body. -/
theorem applyRegion_token (scope : Scope) (v : Variant) (s : Span) {t : Token}
    (h : (applyRegion g true scope as v s).1 = some t) :
    t = .ofSpan scope ⟨s.start, (scanBodyFrom g true ⟨v.finish, none⟩ as none s.stop).2⟩
      (scanBodyFrom g true ⟨v.finish, none⟩ as none s.stop).1 :=
  (Option.some.inj h).symm

theorem applyHeader_token (rule : HeaderRule) (s : Span) {t : Token}
    (h : (applyHeader g true rule s).1 = some t) :
    t = .ofSpan rule.scope
      ⟨s.start, (scanBodyFrom g true ⟨rule.finish, some rule.keywords⟩ [] (some rule.title) s.stop).2⟩
      (listedWords g rule.keywords s.start s.stop ++
        (scanBodyFrom g true ⟨rule.finish, some rule.keywords⟩ [] (some rule.title) s.stop).1) :=
  (Option.some.inj h).symm

/-- A token whose children are listed words of its beginning and then the tokens of a body. -/
theorem closes_of_ends {finish : Pattern} {m : Match} (words : List Token) {ts : List Token} {last : Place}
    {scope : Scope} (hm : (Place.start source.toList).Reaches m.start) (hi : m.Inside)
    (hw : Nested m.start.offset words m.stop.offset) (h : Ends finish m.stop ts last) :
    Closes source finish m (.ofSpan scope ⟨m.start, last⟩ (words ++ ts)) := by
  cases h with
  | closed ahead found tokens =>
    exact .inl ⟨_, ahead, found, (Pattern.matchHere_eq_some found).2.2, rfl,
      fun c hc => ((hw.append tokens).mem hc).2.2⟩
  | @open_ r before after ahead none split tokens rest =>
    refine .inr ⟨?_, r, ahead, none, fun c hc => ?_⟩
    · rw [Token.ofSpan, (hm.trans hi.reaches).finish_eq, Place.finish_start_offset,
        ← utf8ByteSize_eq_bytes]
    · have hc : c ∈ (words ++ before) ++ after := by
        rw [List.append_assoc, ← split]
        exact hc
      rcases List.mem_append.1 hc with hc | hc
      · exact .inl ((hw.append tokens).mem hc).2.2
      · exact .inr (rest.mem hc).1

theorem scanBodyFrom_rules (g : Grammar) (body : Body) (contains : List Rule) (title : Option TitleRule)
    (p : Place) :
    Runs g body (alternativesFrom g true 0 contains) p title
      (scanBodyFrom g true body (alternativesFrom g true 0 contains) title p).1
      (scanBodyFrom g true body (alternativesFrom g true 0 contains) title p).2 :=
  scanBodyFrom_runs (alternativesFrom_advance contains 0) p title

theorem Runs.ends_rules {contains : List Rule} {title : Option TitleRule} {body : Body} {ts : List Token}
    {last : Place} (h : Runs g body (alternativesFrom g true 0 contains) p title ts last) :
    Ends body.finish p ts last :=
  h.ends (alternativesFrom_advance contains 0) (alternativesFrom_cover g true contains 0)

theorem Leaf.children {t : Token} (h : Leaf g t) : t.children = [] := by
  cases h <;> rfl

theorem gapTokens_leaves (p q : Place) : ∀ t ∈ gapTokens g p q, Leaf g t :=
  fun t ht => (fillGap_leaves (fun _ hw => .word hw) t ht).1

/-- All that stands inside a header is words and its title. -/
theorem applyHeader_leaves {rule : HeaderRule} (hr : (Rule.header rule).Occurs g.rules) (s : Span)
    {t : Token} (h : (applyHeader g true rule s).1 = some t) : ∀ u ∈ t.children, Leaf g u := by
  have hwords : ∀ p q, ∀ u ∈ listedWords g rule.keywords p q, Leaf g u := by
    intro p q u hu
    obtain ⟨w, hw, c, hc, rfl⟩ := mem_listedWords hu
    exact .listed hr hw hc
  have hruns := scanBodyFrom_rules g ⟨rule.finish, some rule.keywords⟩ [] (some rule.title) s.stop
  rw [applyHeader_token _ _ h]
  intro u hu
  rcases List.mem_append.1 hu with hu | hu
  · exact hwords _ _ u hu
  · refine hruns.all (alternativesFrom_advance [] 0) ?_ (fun a ha => by cases ha)
      (.refl _) (fun _ _ s _ _ => .title hr s) u hu
    exact fun p q _ _ => hwords p q

/-- **How the token of a region or a header closes.** -/
theorem Bodied.closes {finish : Pattern} {m : Match} {t : Token} (h : Bodied g source finish m t) :
    Closes source finish m t := by
  cases h with
  | @region scope variants contains v _ _ _ _ place found made =>
    obtain ⟨-, hi, -⟩ := Pattern.matchHere_eq_some found
    rw [applyRegion_token _ _ _ made]
    exact closes_of_ends [] place hi hi.reaches.offset_le
      (scanBodyFrom_rules g ⟨v.finish, none⟩ contains none m.stop).ends_rules
  | @header rule _ _ _ place found made =>
    obtain ⟨-, hi, -⟩ := Pattern.matchHere_eq_some found
    rw [applyHeader_token _ _ made]
    exact closes_of_ends _ place hi (listedWords_nested rule.keywords hi.reaches)
      (scanBodyFrom_rules g ⟨rule.finish, some rule.keywords⟩ [] (some rule.title) m.stop).ends_rules

/-- A token over a match of a begin pattern and the body after it is sound, if its origin is known
and its children are sound. -/
theorem Sound.of_ends {finish : Pattern} {m : Match} (words : List Token) {ts : List Token} {last : Place}
    {scope : Scope} (hm : (Place.start source.toList).Reaches m.start) (hlast : m.start.Reaches last)
    (hw : Nested m.start.offset words m.stop.offset) (h : Ends finish m.stop ts last)
    (origin : ∃ finish m', Bodied g source finish m' (.ofSpan scope ⟨m.start, last⟩ (words ++ ts)))
    (hc : ∀ c ∈ words ++ ts, Sound g source c) :
    Sound g source (.ofSpan scope ⟨m.start, last⟩ (words ++ ts)) :=
  .of_children ⟨Token.ofSpan_isSlice (s := ⟨m.start, last⟩) (Place.Lies.of_start_reaches hm) hlast ..,
    hw.append h.nested, .inr origin⟩ hc

mutual

theorem alternativesOf_sound : ∀ (r : Rule) (n : Nat), r.Occurs g.rules →
    ∀ a ∈ alternativesOf g true n r, a.Sound g source
  | .lexeme scope pattern, n, hr, a, ha => by
    simp only [alternativesOf, List.mem_singleton] at ha
    subst ha
    intro m hm found t ht
    obtain ⟨c, rfl, rfl⟩ := Option.map_eq_some_iff.1 ht
    exact .leaf (Place.Lies.of_start_reaches hm) (Pattern.matchHere_eq_some found).2.1.reaches
      (.lexeme hr found)
  | .region scope variants contains, n, hr, a, ha => by
    simp only [alternativesOf, List.mem_map] at ha
    obtain ⟨v, hv, rfl⟩ := ha
    intro m hm found t ht
    have made := ht
    obtain ⟨-, hi, -⟩ := Pattern.matchHere_eq_some found
    have hruns := scanBodyFrom_rules g ⟨v.finish, none⟩ contains none m.stop
    rw [applyRegion_token _ _ _ ht] at made ⊢
    refine .of_ends [] hm (hi.reaches.trans (hruns.reaches (alternativesFrom_advance contains 0)))
      hi.reaches.offset_le hruns.ends_rules ⟨_, m, .region hr hv hm found made⟩ ?_
    exact hruns.all (alternativesFrom_advance contains 0) (fun p q _ _ t ht => by cases ht)
      (alternativesFrom_sound contains 0 fun r h => hr.nested h) (hm.trans hi.reaches)
      (fun r h => by cases h)
  | .header rule, n, hr, a, ha => by
    simp only [alternativesOf, List.mem_singleton] at ha
    subst ha
    intro m hm found t ht
    have made := ht
    obtain ⟨-, hi, -⟩ := Pattern.matchHere_eq_some found
    have hruns := scanBodyFrom_rules g ⟨rule.finish, some rule.keywords⟩ [] (some rule.title) m.stop
    have hwords : ∀ p q, (Place.start source.toList).Reaches p → p.Reaches q →
        ∀ t ∈ listedWords g rule.keywords p q, Sound g source t :=
      fun p q hp => listedWords_sound hr (Place.Lies.of_start_reaches hp)
    rw [applyHeader_token _ _ ht] at made ⊢
    refine .of_ends _ hm (hi.reaches.trans (hruns.reaches (alternativesFrom_advance [] 0)))
      (listedWords_nested rule.keywords hi.reaches) hruns.ends_rules
      ⟨_, m, .header hr hm found made⟩ fun c hc => ?_
    rcases List.mem_append.1 hc with hc | hc
    · exact hwords _ _ hm hi.reaches c hc
    · exact hruns.all (alternativesFrom_advance [] 0) hwords (fun a ha => by cases ha) (hm.trans hi.reaches)
        (fun r _ s h h' => .leaf (Place.Lies.of_start_reaches h) h' (.title hr s)) c hc

/-- **Rules make sound tokens** only. -/
theorem alternativesFrom_sound : ∀ (rs : List Rule) (n : Nat), (∀ r ∈ rs, r.Occurs g.rules) →
    ∀ a ∈ alternativesFrom g true n rs, a.Sound g source
  | [], n, _, a, ha => by simp [alternativesFrom] at ha
  | r :: rs, n, hr, a, ha => by
    simp only [alternativesFrom, List.mem_append] at ha
    rcases ha with ha | ha
    · exact alternativesOf_sound r n (hr r (by simp)) a ha
    · exact alternativesFrom_sound rs (n + 1) (fun s hs => hr s (by simp [hs])) a ha

end

/-! ## The scan -/

/-- A step makes sound tokens only. -/
theorem passage_sound (g : Grammar) (hp : (Place.start source.toList).Reaches p) :
    ∀ t ∈ (passage g (alternativesFrom g true 0 g.rules) p).1, Sound g source t := by
  have hl := Place.Lies.of_start_reaches hp
  rcases passage_cases g (alternativesFrom g true 0 g.rules) p with
    ⟨-, h⟩ | ⟨c, stop, hd, hw, h⟩ | ⟨c, hd, -, h⟩
  · rw [h]
    exact gapTokens_sound hl (.finish p)
  · rw [h]
    exact gapTokens_sound hl (wordAcross_reaches hw (Pattern.findFrom_ahead (due_mem hd).2).1).1
  · obtain ⟨hmem, hf⟩ := due_mem hd
    obtain ⟨h1, h2, -⟩ := Pattern.findFrom_eq_some_iff.1 hf
    rw [h]
    intro t ht
    rcases List.mem_append.1 ht with ht | ht
    · exact gapTokens_sound hl h1 t ht
    · rw [List.mem_singleton.1 ht]
      cases hmade : (c.alternative.apply c.found.span).1 with
      | some t =>
        exact alternativesFrom_sound g.rules 0 (fun r hr => .here hr) _ hmem c.found (hp.trans h1) h2 t hmade
      | none =>
        have hi := (Pattern.findFrom_ahead hf).2.1
        exact .leaf (Place.Lies.of_start_reaches (hp.trans h1))
          (hi.reaches.trans (alternativesFrom_advance g.rules 0 _ hmem c.found.span)) (.plain _)

namespace Tokens

variable {t : Tokens} {given : List Token}

/-- What is pending is sound, and so is all that a step from any place of the source makes. -/
structure Makes (source : String) (t : Tokens) : Prop where
  step : ∀ p, (Place.start source.toList).Reaches p →
    ∀ x ∈ (passage t.grammar t.alternatives p).1, Sound t.grammar source x
  pending : ∀ x ∈ t.pending, Sound t.grammar source x

theorem step_makes (h : Covers source t given) (hm : t.Makes source) :
    t.step.Makes source ∧ t.step.grammar = t.grammar := by
  rw [step_eq h.ready]
  refine ⟨⟨?_, fun x hx => ?_⟩, rfl⟩
  · simp only [alternatives, Level.alternatives_next]
    exact hm.step
  · rcases List.mem_append.1 hx with hx | hx
    · exact hm.pending x hx
    · exact hm.step _ h.place x hx

theorem next_makes (h : Covers source t given) (hm : t.Makes source) :
    t.next.2.Makes source ∧ t.next.2.grammar = t.grammar ∧ ∀ x, t.next.1 = some x → Sound t.grammar source x := by
  rcases h.next_cases with ⟨x, rest, hp, hn⟩ | ⟨-, -, x, rest, hp, hn⟩ | ⟨-, -, hn⟩
  · rw [hn]
    have hx := hm.pending
    simp only [hp, List.mem_cons, forall_eq_or_imp] at hx
    exact ⟨⟨hm.step, hx.2⟩, rfl, fun y hy => Option.some.inj hy ▸ hx.1⟩
  · rw [hn]
    obtain ⟨hs, hg⟩ := step_makes h hm
    have hx := hs.pending
    simp only [hp, List.mem_cons, forall_eq_or_imp] at hx
    exact ⟨⟨hs.step, hx.2⟩, hg, fun y hy => Option.some.inj hy ▸ hg ▸ hx.1⟩
  · rw [hn]
    exact ⟨hm, rfl, fun y hy => by cases hy⟩

theorem start_makes (g : Grammar) (source : String) : (start g true source).Makes source where
  step p hp := by
    simp only [alternatives, start, Level.alternatives_ofAlternatives]
    exact passage_sound g hp
  pending := by simp [start]

theorem after_makes (h : Covers source t []) (hm : t.Makes source) : ∀ k, (t.after k).Makes source ∧
    (t.after k).grammar = t.grammar ∧ ∀ x ∈ t.given k, Sound t.grammar source x
  | 0 => ⟨hm, rfl, fun x hx => by cases hx⟩
  | k + 1 => by
    obtain ⟨hk, hg, hgiven⟩ := after_makes h hm k
    obtain ⟨hn, hg', hx⟩ := next_makes (after_covers h k) hk
    refine ⟨hn, hg'.trans hg, fun x hmem => ?_⟩
    rcases List.mem_append.1 hmem with hmem | hmem
    · exact hgiven x hmem
    · exact hg ▸ hx x (Option.mem_toList.1 hmem)

theorem tokenize_sound (g : Grammar) (source : String) : ∀ x ∈ tokenize g source, Sound g source x := by
  rw [tokenize_eq_given g (Nat.le_refl _)]
  exact (after_makes (start_covers g true source) (start_makes g source) _).2.2

end Tokens

end Scan

end Lexicolor
