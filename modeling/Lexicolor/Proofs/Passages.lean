/-
Tokenizing as passages. `Passages` follows the steps of a scan from a place to the end of the text,
each as `passage` describes it: no memory, no pending tokens, no bound. Tokenizing a text is
following them from its start (`tokenize_eq_iff`), so what it gives for a text is found by saying
which passages the text takes.
-/
import Mathlib.Data.List.Chain
import Lexicolor.Proofs.Tiling

namespace Lexicolor.Scan

open Text Regex

variable {g : Grammar} {as : List Alternative} {p : Place} {source : String}

/-- The tokens of the steps from a place to the end of the text. -/
inductive Passages (g : Grammar) (as : List Alternative) : Place → List Token → Prop
  | done {p : Place} (h : p.rest = []) : Passages g as p []
  | step {p : Place} {ts : List Token} (h : p.rest ≠ []) (next : Passages g as (passage g as p).2 ts) :
      Passages g as p ((passage g as p).1 ++ ts)

namespace Passages

theorem det {ts us : List Token} (h : Passages g as p ts) (h' : Passages g as p us) : ts = us := by
  induction h generalizing us with
  | done h =>
    cases h' with
    | done => rfl
    | step hne => exact absurd h hne
  | step hne _ ih =>
    cases h' with
    | done h => exact absurd h hne
    | step _ next => rw [ih next]

/-- A step to the end of the text is the last one. -/
theorem last {ts : List Token} (h : p.rest ≠ []) (hts : (passage g as p).1 = ts) (hend : (passage g as p).2.rest = []) :
    Passages g as p ts := by
  have hstep : Passages g as p ((passage g as p).1 ++ []) := .step h (.done hend)
  rwa [hts, List.append_nil] at hstep

/-- What is left of a text that is not at its end begins with the tokens of a step. -/
theorem cases_step {ts : List Token} (h : Passages g as p ts) (hp : p.rest ≠ []) :
    ∃ us, ts = (passage g as p).1 ++ us := by
  cases h with
  | done h => exact absurd h hp
  | step => exact ⟨_, rfl⟩

/-- Every step passes over some text, so the end is reached. -/
theorem exists_ (ha : ∀ a ∈ as, a.Advances) (p : Place) : ∃ ts, Passages g as p ts := by
  by_cases h : p.rest = []
  · exact ⟨[], .done h⟩
  · obtain ⟨hr, hlt⟩ := passage_passes ha g p
    have := hr.length_lt (hlt h)
    obtain ⟨ts, hts⟩ := exists_ ha (passage g as p).2
    exact ⟨_, .step h hts⟩
termination_by p.rest.length

/-- What holds of the tokens of every step from a place of the text holds of all tokens. -/
theorem forall_mem {P : Token → Prop} {origin : Place} {ts : List Token} (ha : ∀ a ∈ as, a.Advances)
    (hstep : ∀ p, origin.Reaches p → ∀ t ∈ (passage g as p).1, P t) (h : Passages g as p ts)
    (hp : origin.Reaches p) : ∀ t ∈ ts, P t := by
  induction h with
  | done => simp
  | step _ _ ih =>
    intro t ht
    rcases List.mem_append.1 ht with ht | ht
    · exact hstep _ hp t ht
    · exact ih (hp.trans (passage_passes ha g _).1) t ht

/-- The tokens tile what is left of the text, and are slices of it. -/
theorem tiles {ts : List Token} (ha : ∀ a ∈ as, a.Advances) (hc : ∀ a ∈ as, a.Covers) (h : Passages g as p ts)
    (hp : Place.Lies source.toList p) : Tiles p.offset ts p.finish.offset ∧ ∀ t ∈ ts, t.IsSlice source := by
  induction h with
  | @done p h => exact ⟨by rw [Place.finish_of_atEnd h]; rfl, by simp⟩
  | @step p ts _ _ ih =>
    have hreach := (passage_passes ha g p).1
    obtain ⟨hfirst, hslices⟩ := passage_tiles (g := g) ha hc hp
    obtain ⟨hrest, hmore⟩ := ih (hp.reaches hreach)
    rw [hreach.finish_eq] at hrest
    exact ⟨hfirst.append hrest, fun t ht => (List.mem_append.1 ht).elim (hslices t) (hmore t)⟩

/-- What relates the tokens of every step to one another, and the last of them to whatever follows,
relates all tokens to those after them. A step that ends the text is followed by nothing. -/
theorem isChain {R : Token → Token → Prop} {origin : Place} {ts : List Token} (ha : ∀ a ∈ as, a.Advances)
    (hstep : ∀ p, origin.Reaches p → (passage g as p).1.IsChain R ∧
      ((passage g as p).2.rest = [] ∨ ∀ t ∈ (passage g as p).1.getLast?, ∀ u, R t u))
    (h : Passages g as p ts) (hp : origin.Reaches p) : ts.IsChain R := by
  induction h with
  | done => exact List.isChain_nil
  | @step p ts _ next ih =>
    obtain ⟨hchain, hlast⟩ := hstep p hp
    refine List.isChain_append.2 ⟨hchain, ih (hp.trans (passage_passes ha g p).1), fun t ht u hu => ?_⟩
    rcases hlast with hend | hlast
    · cases next with
      | done => cases hu
      | step hne => exact absurd hend hne
    · exact hlast t ht u

end Passages

namespace Tokens

/-- The tokens taken are those pending and then those of the steps that are left. -/
theorem take_passages : ∀ (n : Nat) {t : Tokens} {given ts : List Token}, Covers source t given →
    Passages t.grammar t.alternatives t.place ts → (t.pending ++ ts).length ≤ n → t.take n = t.pending ++ ts
  | 0, t, _, ts, _, _, hn => by
    rw [List.eq_nil_of_length_eq_zero (Nat.le_zero.1 hn)]
    rfl
  | n + 1, t, given, ts, h, hs, hn => by
    have hnext := h.next
    rw [take]
    rcases h.next_cases with ⟨x, rest, hp, he⟩ | ⟨hp, hr, x, rest, hp', he⟩ | ⟨hp, hr, he⟩
    · rw [he] at hnext ⊢
      rw [hp] at hn ⊢
      simp only [List.cons_append, List.length_cons] at hn
      have ih := take_passages n hnext hs (by simp only; omega)
      simp only at ih
      simp only [ih, List.cons_append]
    · cases hs with
      | done h => exact absurd h hr
      | @step _ us _ hus =>
        have hmade : (passage t.grammar t.alternatives t.place).1 = x :: rest := by
          rw [step_eq h.ready, hp] at hp'
          exact hp'
        have hleft : Passages t.step.grammar t.step.alternatives t.step.place us := by
          rw [step_eq h.ready]
          simp only [alternatives, Level.alternatives_next]
          exact hus
        rw [he] at hnext ⊢
        rw [hp, hmade] at hn ⊢
        simp only [List.nil_append, List.cons_append, List.length_cons] at hn
        have ih := take_passages n hnext hleft (by simp only; omega)
        simp only at ih
        simp only [ih, List.nil_append, List.cons_append]
    · cases hs with
      | done =>
        rw [he, hp]
        rfl
      | step hne => exact absurd hr hne

end Tokens

/-- **Tokenizing is one passage after another** from the start of the text. -/
theorem tokenize_eq_iff {ts : List Token} : tokenize g source = ts ↔
    Passages g (alternativesFrom g true 0 g.rules) (.start source.toList) ts := by
  have h := Tokens.start_covers g true source
  obtain ⟨us, hus⟩ := Passages.exists_ (g := g) (alternativesFrom_advance g.rules 0) (.start source.toList)
  have key : tokenize g source = us := by
    rw [Tokens.tokenize_eq_given g (Nat.le_max_left source.length us.length), ← Tokens.take_eq_given _ h]
    refine Tokens.take_passages _ h ?_ (Nat.le_max_right ..)
    simp only [Tokens.alternatives, Tokens.start, Level.alternatives_ofAlternatives]
    exact hus
  exact ⟨fun he => he ▸ key ▸ hus, fun hts => key.trans (hus.det hts)⟩

/-- The tokens of a text tile it, and are slices of it. -/
theorem tokenize_tiles (g : Grammar) (source : String) :
    Tiles 0 (tokenize g source) source.utf8ByteSize ∧ ∀ t ∈ tokenize g source, t.IsSlice source := by
  have h := (tokenize_eq_iff.1 (rfl : tokenize g source = _)).tiles (alternativesFrom_advance g.rules 0)
    (alternativesFrom_cover g true g.rules 0) (.start source.toList)
  rw [Place.finish_start_offset, ← utf8ByteSize_eq_bytes] at h
  exact h

end Lexicolor.Scan
