/-
A remembered search is one that was made from an earlier place of the same text
(`Ahead.Recalls`). Then looking again finds what a search from the place itself finds
(`Ahead.look_eq`), and the next alternative of a level is the one due by searches made afresh
(`Level.next_eq`). A scan that remembers nothing recalls vacuously, so each statement is made
once for both kinds of scan.
-/
import Mathlib.Data.List.Basic
import Lexicolor.Scan.Alternatives
import Lexicolor.Proofs.Searching

namespace Lexicolor.Scan

open Text Regex

variable {remember : Bool} {p q : Place}

/-- If searches are remembered, the last one was made with the pattern from a place before. -/
def Ahead.Recalls (remember : Bool) (a : Ahead) (pattern : Pattern) (p : Place) : Prop :=
  remember = true → ∀ found, a.last = some found → ∃ q, q.Reaches p ∧ pattern.findFrom q = found

namespace Ahead

variable {a : Ahead} {pattern : Pattern}

theorem Recalls.none : Ahead.none.Recalls remember pattern p := fun _ _ h => by cases h

theorem Recalls.mono (h : a.Recalls remember pattern p) (hpq : p.Reaches q) :
    a.Recalls remember pattern q := fun hr found hf =>
  have ⟨o, ho, hs⟩ := h hr found hf
  ⟨o, ho.trans hpq, hs⟩

/-- **Looking again** finds what a search from the place itself finds. -/
theorem look_eq (h : a.Recalls remember pattern p) :
    (a.look remember pattern.findFrom p).1 = pattern.findFrom p := by
  unfold look
  cases remember with
  | false => rfl
  | true =>
    simp only [Bool.not_true, Bool.false_eq_true, if_false]
    split
    · next m hm =>
      obtain ⟨o, ho, hs⟩ := h rfl _ hm
      split
      · next hle => exact (Pattern.findFrom_later hs ho hle).symm
      · rfl
    · next hn =>
      obtain ⟨o, ho, hs⟩ := h rfl _ hn
      exact (Pattern.findFrom_none_later hs ho).symm
    · rfl

theorem look_recalls (h : a.Recalls remember pattern p) :
    (a.look remember pattern.findFrom p).2.Recalls remember pattern p := by
  have anew : Recalls remember ⟨some (pattern.findFrom p)⟩ pattern p := fun _ found hf =>
    ⟨p, .refl p, Option.some.inj hf⟩
  unfold look
  cases remember with
  | false => exact anew
  | true =>
    simp only [Bool.not_true, Bool.false_eq_true, if_false]
    split
    · split
      · exact h
      · exact anew
    · exact h
    · exact anew

end Ahead

/-! ## Levels -/

/-- The alternative that begins next, by searches made for the place itself. -/
def due (as : List Alternative) (p : Place) : Option Candidate :=
  Candidate.best (as.filterMap fun a => (a.begin_.findFrom p).map (⟨a, ·⟩))

namespace Level

variable {level : Level}

def Recalls (remember : Bool) (level : Level) (p : Place) : Prop :=
  ∀ x ∈ level, x.2.Recalls remember x.1.begin_ p

/-- The alternatives of a level without their searches. -/
def alternatives (level : Level) : List Alternative := level.map (·.1)

@[simp] theorem alternatives_ofAlternatives (as : List Alternative) :
    alternatives (ofAlternatives as) = as := by
  simp [alternatives, ofAlternatives, Function.comp_def]

theorem Recalls.ofAlternatives (as : List Alternative) : (ofAlternatives as).Recalls remember p := by
  intro x hx
  obtain ⟨a, -, rfl⟩ := List.mem_map.1 hx
  exact Ahead.Recalls.none

theorem Recalls.mono (h : level.Recalls remember p) (hpq : p.Reaches q) : level.Recalls remember q :=
  fun x hx => (h x hx).mono hpq

theorem next_eq (h : level.Recalls remember p) : (level.next remember p).1 = due level.alternatives p := by
  unfold next due alternatives
  simp only [List.filterMap_map]
  refine congrArg Candidate.best (List.filterMap_congr fun x hx => ?_)
  simp only [Function.comp_apply]
  rw [Ahead.look_eq (h x hx)]

@[simp] theorem alternatives_next : (level.next remember p).2.alternatives = level.alternatives := by
  simp [next, alternatives, Function.comp_def]

theorem next_recalls (h : level.Recalls remember p) : (level.next remember p).2.Recalls remember p := by
  intro x hx
  simp only [next, List.map_map, List.mem_map, Function.comp_apply] at hx
  obtain ⟨y, hy, rfl⟩ := hx
  exact Ahead.look_recalls (h y hy)

end Level

/-! ## The candidate that is due -/

namespace Candidate

/-- Of a candidate and one before it, the one that is kept. -/
def keep (b : Option Candidate) (c : Candidate) : Option Candidate :=
  match b with
  | none => some c
  | some d => if c.beats d then some c else some d

theorem best_eq (cs : List Candidate) : best cs = cs.foldl keep none := rfl

theorem keep_cases (b : Option Candidate) (c : Candidate) : keep b c = some c ∨ keep b c = b := by
  unfold keep
  split
  · exact .inl rfl
  · split <;> simp

theorem foldl_keep_mem (cs : List Candidate) :
    ∀ b c, cs.foldl keep b = some c → b = some c ∨ c ∈ cs := by
  induction cs with
  | nil => exact fun b c h => .inl h
  | cons d cs ih =>
    intro b c h
    rw [List.foldl_cons] at h
    rcases ih _ c h with h | h
    · rcases keep_cases b d with hk | hk
      · rw [hk] at h
        exact .inr (by simp [Option.some.inj h])
      · exact .inl (hk ▸ h)
    · exact .inr (by simp [h])

theorem best_mem {cs : List Candidate} {c : Candidate} (h : best cs = some c) : c ∈ cs := by
  rw [best_eq] at h
  rcases foldl_keep_mem cs none c h with h | h
  · cases h
  · exact h

theorem beats_le {c d : Candidate} (h : c.beats d = true) : c.found.start.offset ≤ d.found.start.offset := by
  unfold beats at h
  split at h
  · exact Nat.le_of_lt (by simpa using h)
  · next heq => omega

theorem le_of_not_beats {c d : Candidate} (h : c.beats d = false) :
    d.found.start.offset ≤ c.found.start.offset := by
  unfold beats at h
  split at h
  · simpa using h
  · next heq => omega

/-- The one that is kept begins no later than either. -/
theorem keep_le (b : Option Candidate) (c : Candidate) : ∃ e, keep b c = some e ∧
    e.found.start.offset ≤ c.found.start.offset ∧
    ∀ d, b = some d → e.found.start.offset ≤ d.found.start.offset := by
  cases b with
  | none => exact ⟨c, rfl, Nat.le_refl _, fun d hd => by cases hd⟩
  | some b =>
    cases h : c.beats b with
    | true =>
      exact ⟨c, by simp [keep, h], Nat.le_refl _, fun d hd => Option.some.inj hd ▸ beats_le h⟩
    | false =>
      exact ⟨b, by simp [keep, h], le_of_not_beats h, fun d hd => Option.some.inj hd ▸ Nat.le_refl _⟩

theorem foldl_keep_le (cs : List Candidate) : ∀ b, (∃ d, b = some d) ∨ cs ≠ [] → ∃ c, cs.foldl keep b = some c ∧
    (∀ d, b = some d → c.found.start.offset ≤ d.found.start.offset) ∧
    ∀ d ∈ cs, c.found.start.offset ≤ d.found.start.offset := by
  induction cs with
  | nil =>
    rintro b (⟨d, rfl⟩ | h)
    · exact ⟨d, rfl, fun e he => Option.some.inj he ▸ Nat.le_refl _, by simp⟩
    · exact absurd rfl h
  | cons d cs ih =>
    intro b _
    obtain ⟨e, he, hd, hb⟩ := keep_le b d
    obtain ⟨c, hc, hce, hcs⟩ := ih (keep b d) (.inl ⟨e, he⟩)
    have hle := hce e he
    refine ⟨c, hc, fun x hx => Nat.le_trans hle (hb x hx), fun x hx => ?_⟩
    rcases List.mem_cons.1 hx with rfl | hx
    · exact Nat.le_trans hle hd
    · exact hcs x hx

end Candidate

/-- As long as an alternative is found ahead, something is due that begins no later. -/
theorem due_le {as : List Alternative} {a : Alternative} {m : Match} (ha : a ∈ as)
    (hm : a.begin_.findFrom p = some m) :
    ∃ c, due as p = some c ∧ c.found.start.offset ≤ m.start.offset := by
  have hmem : (⟨a, m⟩ : Candidate) ∈ as.filterMap fun a => (a.begin_.findFrom p).map (⟨a, ·⟩) :=
    List.mem_filterMap.2 ⟨a, ha, by rw [hm]; rfl⟩
  obtain ⟨c, hc, -, hle⟩ := Candidate.foldl_keep_le _ none (.inr (List.ne_nil_of_mem hmem))
  exact ⟨c, hc, hle _ hmem⟩

/-- The candidate that is due is one of the alternatives, with what it finds first. -/
theorem due_mem {as : List Alternative} {c : Candidate} (h : due as p = some c) :
    c.alternative ∈ as ∧ c.alternative.begin_.findFrom p = some c.found := by
  obtain ⟨a, ha, hc⟩ := List.mem_filterMap.1 (Candidate.best_mem h)
  obtain ⟨m, hm, rfl⟩ := Option.map_eq_some_iff.1 hc
  exact ⟨ha, hm⟩

end Lexicolor.Scan
