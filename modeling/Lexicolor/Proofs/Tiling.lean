/-
The tokens of a scan tile its source. `Covers` is the invariant: what has been given and what is
pending tile the source up to the place of the scan. Every step keeps it because a step makes
tokens that tile what it passes over (`passage_tiles`), whichever of its three kinds it is; and a
step that is taken before the end makes at least one token, so a call gives none only at the end
(`Covers.next_eq_none_iff`).
-/
import Lexicolor.Proofs.Steps

namespace Lexicolor.Scan

open Text Regex

variable {g : Grammar} {as : List Alternative} {p : Place} {source : String}

/-- The alternative's token, if it makes one, covers what the alternative passes over. -/
def Alternative.Covers (a : Alternative) : Prop :=
  ∀ s t, (a.apply s).1 = some t →
    ∃ scope children, t = .ofSpan scope ⟨s.start, (a.apply s).2⟩ children

mutual

theorem alternativesOf_cover (g : Grammar) (remember : Bool) : ∀ (r : Rule) (n : Nat),
    ∀ a ∈ alternativesOf g remember n r, a.Covers
  | .lexeme scope pattern, n, a, ha => by
    simp only [alternativesOf, List.mem_singleton] at ha
    subst ha
    intro s t ht
    obtain ⟨c, -, rfl⟩ := Option.map_eq_some_iff.1 ht
    exact ⟨c, [], rfl⟩
  | .region scope variants contains, n, a, ha => by
    simp only [alternativesOf, List.mem_map] at ha
    obtain ⟨v, -, rfl⟩ := ha
    intro s t ht
    exact ⟨scope, _, (Option.some.inj ht).symm⟩
  | .header rule, n, a, ha => by
    simp only [alternativesOf, List.mem_singleton] at ha
    subst ha
    intro s t ht
    exact ⟨rule.scope, _, (Option.some.inj ht).symm⟩

/-- A rule's token begins where the match begins and ends where the rule ends. -/
theorem alternativesFrom_cover (g : Grammar) (remember : Bool) : ∀ (rs : List Rule) (n : Nat),
    ∀ a ∈ alternativesFrom g remember n rs, a.Covers
  | [], n, a, ha => by simp [alternativesFrom] at ha
  | r :: rs, n, a, ha => by
    simp only [alternativesFrom, List.mem_append] at ha
    rcases ha with ha | ha
    · exact alternativesOf_cover g remember r n a ha
    · exact alternativesFrom_cover g remember rs (n + 1) a ha

end

/-- What stands for a rule at the top level: its token, or plain text for a rule without scope. -/
theorem Alternative.Covers.token {c : Candidate} (h : c.alternative.Covers) :
    ∃ scope children, (c.alternative.apply c.found.span).1.getD
      (.ofSpan .plain ⟨c.found.start, (c.alternative.apply c.found.span).2⟩ []) =
      .ofSpan scope ⟨c.found.start, (c.alternative.apply c.found.span).2⟩ children := by
  cases ht : (c.alternative.apply c.found.span).1 with
  | none => exact ⟨.plain, [], rfl⟩
  | some t => exact h _ _ ht

/-- **The tokens of a step tile what it passes over**, and are slices of the source. -/
theorem passage_tiles (ha : ∀ a ∈ as, a.Advances) (hc : ∀ a ∈ as, a.Covers)
    (hp : Place.Lies source.toList p) :
    Tiles p.offset (passage g as p).1 (passage g as p).2.offset ∧
      ∀ t ∈ (passage g as p).1, t.IsSlice source := by
  rcases passage_cases g as p with ⟨-, h⟩ | ⟨c, stop, hd, hw, h⟩ | ⟨c, hd, -, h⟩
  · rw [h]
    exact ⟨gapTokens_tiles (.finish p), gapTokens_slices hp (.finish p)⟩
  · obtain ⟨h1, -, -⟩ := Pattern.findFrom_ahead (due_mem hd).2
    obtain ⟨h2, -⟩ := wordAcross_reaches hw h1
    rw [h]
    exact ⟨gapTokens_tiles h2, gapTokens_slices hp h2⟩
  · obtain ⟨hmem, hf⟩ := due_mem hd
    obtain ⟨h1, h2, h3⟩ := Pattern.findFrom_ahead hf
    have h4 := ha _ hmem c.found.span
    obtain ⟨scope, children, ht⟩ := (hc _ hmem).token
    have hlt : c.found.start.offset < (c.alternative.apply c.found.span).2.offset :=
      Nat.lt_of_lt_of_le h3 h4.offset_le
    rw [h, ht]
    refine ⟨(gapTokens_tiles h1).append ⟨rfl, hlt, rfl⟩, fun t hmem => ?_⟩
    rcases List.mem_append.1 hmem with hmem | hmem
    · exact gapTokens_slices hp h1 t hmem
    · rw [List.mem_singleton.1 hmem]
      exact Token.ofSpan_isSlice (s := ⟨c.found.start, (c.alternative.apply c.found.span).2⟩)
        (hp.reaches h1) (h2.reaches.trans h4) ..

namespace Tokens

variable {t : Tokens} {given : List Token}

/-- What has been given and what is pending tile the source up to the place of the scan. -/
structure Covers (source : String) (t : Tokens) (given : List Token) : Prop where
  ready : t.Ready
  covers : ∀ a ∈ t.alternatives, a.Covers
  place : (Place.start source.toList).Reaches t.place
  tiles : Tiles 0 (given ++ t.pending) t.place.offset
  slices : ∀ x ∈ given ++ t.pending, x.IsSlice source

theorem start_covers (g : Grammar) (remember : Bool) (source : String) :
    Covers source (start g remember source) [] where
  ready := start_ready g remember source
  covers := by
    simp only [alternatives, start, Level.alternatives_ofAlternatives]
    exact alternativesFrom_cover g remember g.rules 0
  place := .refl _
  tiles := rfl
  slices := by simp [start]

namespace Covers

/-- A step moves on and leaves tokens that cover what it passed over. -/
theorem step (h : Covers source t given) : Covers source t.step given ∧
    (t.place.rest ≠ [] → t.pending = [] → t.step.pending ≠ []) := by
  have hp : Place.Lies source.toList t.place := Place.Lies.of_start_reaches h.place
  obtain ⟨htiles, hslices⟩ := passage_tiles (g := t.grammar) h.ready.advances h.covers hp
  obtain ⟨hreaches, hpasses⟩ := passage_passes h.ready.advances t.grammar t.place
  have hready := step_ready h.ready
  rw [step_eq h.ready] at hready ⊢
  refine ⟨⟨hready, ?_, h.place.trans hreaches, ?_, ?_⟩, fun hr hn => ?_⟩
  · simp only [alternatives, Level.alternatives_next]
    exact h.covers
  · rw [← List.append_assoc]
    exact h.tiles.append htiles
  · intro x hx
    rw [← List.append_assoc] at hx
    rcases List.mem_append.1 hx with hx | hx
    · exact h.slices x hx
    · exact hslices x hx
  · rw [hn, List.nil_append]
    exact htiles.ne_nil (hpasses hr)

/-- Handing over the first pending token keeps the invariant. -/
theorem give {x : Token} {rest : List Token} (h : Covers source t given) (hp : t.pending = x :: rest) :
    Covers source { t with pending := rest } (given ++ [x]) where
  ready := ⟨h.ready.recalls, h.ready.advances⟩
  covers := h.covers
  place := h.place
  tiles := by simpa [hp] using h.tiles
  slices := by simpa [hp] using h.slices

theorem atEnd_iff (h : Covers source t given) : t.place.rest = [] ↔ t.position = source.utf8ByteSize := by
  have hf : t.place.finish.offset = source.utf8ByteSize := by
    rw [h.place.finish_eq, Place.finish_start_offset, ← utf8ByteSize_eq_bytes]
  rw [← hf]
  constructor
  · exact fun hr => by rw [Place.finish_of_atEnd hr]; rfl
  · intro heq
    by_contra hr
    exact Nat.ne_of_lt (Place.offset_lt_finish hr) heq

/-- **What a call does.** It gives the first pending token and stays; or, nothing being pending,
it moves on to give the first of the tokens that a step makes; or it stands at the end. -/
theorem next_cases (h : Covers source t given) :
    (∃ x rest, t.pending = x :: rest ∧ t.next = (some x, { t with pending := rest })) ∨
    (t.pending = [] ∧ t.place.rest ≠ [] ∧ ∃ x rest, t.step.pending = x :: rest ∧
      t.next = (some x, { t.step with pending := rest })) ∨
    (t.pending = [] ∧ t.place.rest = [] ∧ t.next = (none, t)) := by
  cases hp : t.pending with
  | cons x rest => exact .inl ⟨x, rest, rfl, next_of_pending hp⟩
  | nil =>
    by_cases hr : t.place.rest = []
    · exact .inr (.inr ⟨rfl, hr, next_of_atEnd hp hr⟩)
    · obtain ⟨x, rest, hs⟩ := List.exists_cons_of_ne_nil (h.step.2 hr hp)
      exact .inr (.inl ⟨rfl, hr, x, rest, hs, (next_of_step hp hr).1 x rest hs⟩)

theorem next (h : Covers source t given) : Covers source t.next.2 (given ++ t.next.1.toList) := by
  rcases h.next_cases with ⟨x, rest, hp, hn⟩ | ⟨-, -, x, rest, hp, hn⟩ | ⟨-, -, hn⟩
  · rw [hn]
    exact h.give hp
  · rw [hn]
    exact h.step.1.give hp
  · rw [hn]
    simpa using h

theorem position_next (h : Covers source t given) : t.position ≤ t.next.2.position ∧
    (t.pending ≠ [] → t.next.2.position = t.position) := by
  rcases h.next_cases with ⟨x, rest, hp, hn⟩ | ⟨hp, -, x, rest, -, hn⟩ | ⟨hp, -, hn⟩
  · rw [hn]
    exact ⟨Nat.le_refl _, fun _ => rfl⟩
  · rw [hn, step_eq h.ready]
    exact ⟨(passage_passes h.ready.advances t.grammar t.place).1.offset_le, fun hne => absurd hp hne⟩
  · rw [hn]
    exact ⟨Nat.le_refl _, fun hne => absurd hp hne⟩

theorem next_eq_none_iff (h : Covers source t given) :
    t.next.1 = none ↔ t.pending = [] ∧ t.position = source.utf8ByteSize := by
  rw [← h.atEnd_iff]
  rcases h.next_cases with ⟨x, rest, hp, hn⟩ | ⟨hp, hr, x, rest, -, hn⟩ | ⟨hp, hr, hn⟩
  · simp [hn, hp]
  · simp [hn, hr]
  · simp [hn, hp, hr]

theorem next_of_none (h : Covers source t given) (hn : t.next.1 = none) : t.next.2 = t := by
  rcases h.next_cases with ⟨x, rest, -, hn'⟩ | ⟨-, -, x, rest, -, hn'⟩ | ⟨-, -, hn'⟩
  · rw [hn'] at hn; cases hn
  · rw [hn'] at hn; cases hn
  · rw [hn']

/-- Once every token was given, those given write the source out. -/
theorem join_given (h : Covers source t given) (hn : t.next.1 = none) :
    String.join (given.map (·.text)) = source := by
  obtain ⟨hp, ho⟩ := h.next_eq_none_iff.1 hn
  have htiles := h.tiles
  have hslices := h.slices
  rw [hp, List.append_nil] at htiles hslices
  exact Tiles.join_eq (ho ▸ htiles) hslices

theorem length_le (h : Covers source t given) : given.length ≤ source.utf8ByteSize := by
  have h1 := h.tiles.length_le
  have h2 := h.place.finish_offset
  rw [Place.finish_start_offset, ← utf8ByteSize_eq_bytes] at h2
  rw [List.length_append] at h1
  omega

end Covers

/-! ## Calls one after another -/

theorem after_covers (h : Covers source t []) : ∀ k, Covers source (t.after k) (t.given k)
  | 0 => h
  | k + 1 => (after_covers h k).next

theorem after_of_none (h : Covers source t []) {k : Nat} (hn : (t.after k).next.1 = none) :
    ∀ j, t.after (k + j) = t.after k
  | 0 => rfl
  | j + 1 => by
    have ih := after_of_none h hn j
    rw [← Nat.add_assoc, after, ih]
    exact (after_covers h k).next_of_none hn

/-- As long as tokens are given, every call gives one. -/
theorem given_length (h : Covers source t []) : ∀ k, (t.after k).next.1 = none ∨ (t.given k).length = k
  | 0 => .inr rfl
  | k + 1 => by
    rcases Option.eq_none_or_eq_some (t.after k).next.1 with hn | ⟨x, hx⟩
    · left
      rw [after_of_none h hn 1]
      exact hn
    · right
      rcases given_length h k with hn | hk
      · rw [hn] at hx; cases hx
      · simp [given, hx, hk]

theorem next_none_of_le (h : Covers source t []) {k : Nat} (hk : source.utf8ByteSize ≤ k) :
    (t.after k).next.1 = none := by
  rcases given_length h k with hn | hlen
  · exact hn
  · by_contra hne
    obtain ⟨x, hx⟩ := Option.ne_none_iff_exists'.1 hne
    have := (after_covers h (k + 1)).length_le
    simp only [given, hx, Option.toList_some, List.length_append, List.length_singleton, hlen] at this
    omega

/-! ## All tokens -/

theorem given_succ (t : Tokens) : ∀ k, t.given (k + 1) = t.next.1.toList ++ t.next.2.given k ∧
    t.after (k + 1) = t.next.2.after k
  | 0 => by simp [given, after]
  | k + 1 => by
    obtain ⟨hg, ha⟩ := given_succ t k
    constructor
    · rw [given, hg, ha, List.append_assoc]
      rfl
    · rw [after, ha]
      rfl

theorem given_of_none {t : Tokens} (hn : t.next = (none, t)) : ∀ k, t.given k = []
  | 0 => rfl
  | k + 1 => by
    rw [(given_succ t k).1, hn]
    exact given_of_none hn k

/-- Tokens taken one after another are the tokens given in as many calls. -/
theorem take_eq_given : ∀ (n : Nat) {t : Tokens} {given : List Token}, Covers source t given →
    t.take n = t.given n
  | 0, _, _, _ => rfl
  | n + 1, t, given, h => by
    have hnext := h.next
    rw [take, (given_succ t n).1]
    rcases h.next_cases with ⟨x, rest, -, hn⟩ | ⟨-, -, x, rest, -, hn⟩ | ⟨-, -, hn⟩
    · rw [hn] at hnext ⊢
      simp [take_eq_given n hnext]
    · rw [hn] at hnext ⊢
      simp [take_eq_given n hnext]
    · rw [hn]
      simp [given_of_none hn n]

/-- No more tokens are given than the source has characters. -/
theorem given_stable (h : Covers source t []) {k : Nat} (hk : source.length ≤ k) :
    t.given k = t.given source.length := by
  have hn : (t.after source.length).next.1 = none := by
    by_contra hne
    obtain ⟨x, hx⟩ := Option.ne_none_iff_exists'.1 hne
    have hlen := (given_length h source.length).resolve_left hne
    have hc := after_covers h (source.length + 1)
    have := hc.tiles.length_le_source hc.slices
    simp only [given, hx, Option.toList_some, List.length_append, List.length_singleton, hlen] at this
    omega
  obtain ⟨j, rfl⟩ := Nat.exists_eq_add_of_le hk
  clear hk
  induction j with
  | zero => rfl
  | succ j ih =>
    rw [← Nat.add_assoc, given, ih, after_of_none h hn j, hn]
    simp

/-- **Tokenizing gives all tokens** that any number of calls give. -/
theorem tokenize_eq_given (g : Grammar) {source : String} {k : Nat} (hk : source.length ≤ k) :
    tokenize g source = (start g true source).given k := by
  have h := start_covers g true source
  rw [tokenize, take_eq_given _ h, given_stable h hk]

/-- **The tokens of a scan tile its source.** After any number `k` of calls, the tokens given
and those pending tile the source up to the position, and each is a slice of it. The position
never goes back, and moves only when nothing was pending. A call gives no token exactly when
every token was given and the position is the end of the source; from then on no call gives one,
which is so after at most as many tokens, and as many calls, as the source has bytes; and then
the tokens given write the source out. -/
theorem tokens_tile_source (g : Grammar) (source : String) (k : Nat) :
    let t := start g true source
    let u := t.after k
    Tiles 0 (t.given k ++ u.pending) u.position ∧
    (∀ x ∈ t.given k ++ u.pending, x.IsSlice source) ∧
    u.position ≤ u.next.2.position ∧
    (u.pending ≠ [] → u.next.2.position = u.position) ∧
    (u.next.1 = none ↔ u.pending = [] ∧ u.position = source.utf8ByteSize) ∧
    (u.next.1 = none → ∀ j, (t.after (k + j)).next.1 = none) ∧
    (t.given k).length ≤ source.utf8ByteSize ∧
    (source.utf8ByteSize ≤ k → u.next.1 = none) ∧
    (u.next.1 = none → String.join ((t.given k).map (·.text)) = source) := by
  intro t u
  have h : Covers source u (t.given k) := after_covers (start_covers g true source) k
  refine ⟨h.tiles, h.slices, h.position_next.1, h.position_next.2, h.next_eq_none_iff, fun hn j => ?_,
    h.length_le, next_none_of_le (start_covers g true source), h.join_given⟩
  rw [after_of_none (start_covers g true source) hn]
  exact hn

end Tokens

end Lexicolor.Scan
