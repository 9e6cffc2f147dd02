/-
Which alternative is due. One candidate beats another by the place where it begins, then by its
rule, its relevance and its length; so whatever is found ahead, nothing of it beats the candidate
that is due (`due_unbeaten`). Of candidates that do not beat one another the first is due
(`due_first`).
-/
import Lexicolor.Proofs.Recall

namespace Lexicolor.Scan

open Text Regex

namespace Candidate

variable {b c d e : Candidate}

theorem beats_iff : c.beats d = true ↔ c.found.start.offset < d.found.start.offset ∨
    c.found.start.offset = d.found.start.offset ∧ (c.alternative.rule < d.alternative.rule ∨
      c.alternative.rule = d.alternative.rule ∧ (d.alternative.relevance < c.alternative.relevance ∨
        c.alternative.relevance = d.alternative.relevance ∧ d.found.span.size < c.found.span.size)) := by
  unfold beats
  split
  · simp only [decide_eq_true_eq]
    omega
  · split
    · simp only [decide_eq_true_eq]
      omega
    · split
      · simp only [decide_eq_true_eq]
        omega
      · simp only [decide_eq_true_eq]
        omega

theorem beats_asymm (h : c.beats d = true) : ¬ d.beats c = true := by
  rw [beats_iff] at h ⊢
  omega

theorem not_beats_trans (h : ¬ c.beats d = true) (h' : ¬ d.beats e = true) : ¬ c.beats e = true := by
  rw [beats_iff] at h h' ⊢
  omega

/-- Neither of two candidates beats the one that is kept. -/
theorem keep_unbeaten (b : Option Candidate) (c : Candidate) : ∃ e, keep b c = some e ∧
    ¬ c.beats e = true ∧ ∀ d, b = some d → ¬ d.beats e = true := by
  have hself : ∀ d : Candidate, ¬ d.beats d = true := fun d h => beats_asymm h h
  cases b with
  | none => exact ⟨c, rfl, hself c, fun d hd => by cases hd⟩
  | some b =>
    by_cases h : c.beats b = true
    · exact ⟨c, by simp [keep, h], hself c, fun d hd => Option.some.inj hd ▸ beats_asymm h⟩
    · exact ⟨b, by simp [keep, h], h, fun d hd => Option.some.inj hd ▸ hself b⟩

theorem foldl_keep_unbeaten (cs : List Candidate) : ∀ {b : Option Candidate}, cs.foldl keep b = some e →
    (∀ d, b = some d → ¬ d.beats e = true) ∧ ∀ d ∈ cs, ¬ d.beats e = true := by
  induction cs with
  | nil =>
    rintro b h
    have hb : b = some e := h
    exact ⟨fun d hd => Option.some.inj (hd.symm.trans hb) ▸ fun h => beats_asymm h h, by simp⟩
  | cons c cs ih =>
    intro b h
    rw [List.foldl_cons] at h
    obtain ⟨k, hk, hc, hb⟩ := keep_unbeaten b c
    obtain ⟨hkept, hcs⟩ := ih h
    have hke := hkept k hk
    refine ⟨fun d hd => not_beats_trans (hb d hd) hke, fun d hd => ?_⟩
    rcases List.mem_cons.1 hd with rfl | hd
    · exact not_beats_trans hc hke
    · exact hcs d hd

/-- **No candidate beats the best one.** -/
theorem best_unbeaten {cs : List Candidate} (h : best cs = some e) : ∀ d ∈ cs, ¬ d.beats e = true :=
  (foldl_keep_unbeaten cs h).2

theorem beats_trans (h : c.beats d = true) (h' : d.beats e = true) : c.beats e = true := by
  rw [beats_iff] at h h' ⊢
  omega

theorem beats_of_not_beats (h : c.beats d = true) (h' : ¬ e.beats d = true) : c.beats e = true := by
  rw [beats_iff] at h h' ⊢
  omega

/-- A candidate that beats the one that is kept of two beats both. -/
theorem beats_of_keep (b : Option Candidate) (c : Candidate) (h : ∀ d, keep b c = some d → e.beats d = true) :
    e.beats c = true ∧ ∀ d, b = some d → e.beats d = true := by
  cases b with
  | none => exact ⟨h c rfl, fun d hd => by cases hd⟩
  | some b =>
    by_cases hcb : c.beats b = true
    · have hec := h c (by simp [keep, hcb])
      exact ⟨hec, fun d hd => Option.some.inj hd ▸ beats_trans hec hcb⟩
    · have heb := h b (by simp [keep, hcb])
      exact ⟨beats_of_not_beats heb hcb, fun d hd => Option.some.inj hd ▸ heb⟩

/-- The one that is kept in the end was kept already, or it beats all before it. -/
theorem foldl_keep_first (cs : List Candidate) : ∀ {b : Option Candidate}, cs.foldl keep b = some e →
    b = some e ∨ ∃ before after, cs = before ++ e :: after ∧ (∀ d, b = some d → e.beats d = true) ∧
      ∀ d ∈ before, e.beats d = true := by
  induction cs with
  | nil => exact fun h => .inl h
  | cons c cs ih =>
    intro b h
    rw [List.foldl_cons] at h
    rcases ih h with hkept | ⟨before, after, rfl, hbeats, hbefore⟩
    · cases b with
      | none =>
        obtain rfl : c = e := Option.some.inj hkept
        exact .inr ⟨[], cs, rfl, fun d hd => (Option.some_ne_none d hd.symm).elim, by simp⟩
      | some b =>
        by_cases hcb : c.beats b = true
        · obtain rfl : c = e := by simpa [keep, hcb] using hkept
          exact .inr ⟨[], cs, rfl, fun d hd => Option.some.inj hd ▸ hcb, by simp⟩
        · exact .inl (by simpa [keep, hcb] using hkept)
    · obtain ⟨hc, hb⟩ := beats_of_keep b c hbeats
      exact .inr ⟨c :: before, after, rfl, hb, List.forall_mem_cons.2 ⟨hc, hbefore⟩⟩

/-- **The best candidate beats all before it.** -/
theorem best_first {cs : List Candidate} (h : best cs = some e) : ∃ before after, cs = before ++ e :: after ∧
    (∀ d ∈ before, e.beats d = true) ∧ ∀ d ∈ after, ¬ d.beats e = true := by
  rcases foldl_keep_first cs h with hnone | ⟨before, after, rfl, -, hbefore⟩
  · cases hnone
  · exact ⟨before, after, rfl, hbefore, fun d hd => best_unbeaten h d (by simp [hd])⟩

end Candidate

variable {as : List Alternative} {a : Alternative} {p : Place} {m : Match} {c : Candidate}

/-- Whatever an alternative finds ahead does not beat what is due. -/
theorem due_unbeaten (h : due as p = some c) (ha : a ∈ as) (hm : a.begin_.findFrom p = some m) :
    ¬ (⟨a, m⟩ : Candidate).beats c = true :=
  Candidate.best_unbeaten h _ (List.mem_filterMap.2 ⟨a, ha, by rw [hm]; rfl⟩)

/-- **The alternative that is due** beats what the alternatives before it find, and what those after it find
does not beat it. -/
theorem due_first (h : due as p = some c) : ∃ before after, as = before ++ c.alternative :: after ∧
    c.alternative.begin_.findFrom p = some c.found ∧
    (∀ a ∈ before, ∀ m, a.begin_.findFrom p = some m → c.beats ⟨a, m⟩ = true) ∧
    ∀ a ∈ after, ∀ m, a.begin_.findFrom p = some m → ¬ (⟨a, m⟩ : Candidate).beats c = true := by
  obtain ⟨cs, ds, hsplit, hbefore, hafter⟩ := Candidate.best_first h
  obtain ⟨before, more, rfl, rfl, hmore⟩ := List.filterMap_eq_append_iff.1 hsplit
  obtain ⟨passed, a, after, rfl, hpassed, ha, rfl⟩ := List.filterMap_eq_cons_iff.1 hmore
  obtain ⟨m, hm, rfl⟩ := Option.map_eq_some_iff.1 ha
  refine ⟨before ++ passed, after, by simp, hm, fun b hb n hn => ?_, fun b hb n hn => ?_⟩
  · rcases List.mem_append.1 hb with hb | hb
    · exact hbefore _ (List.mem_filterMap.2 ⟨b, hb, by rw [hn]; rfl⟩)
    · have hnone := hpassed b hb
      rw [hn] at hnone
      cases hnone
  · exact hafter _ (List.mem_filterMap.2 ⟨b, hb, by rw [hn]; rfl⟩)

/-- Of the alternatives of one rule that match at one place, the most relevant is due. -/
theorem due_relevance (h : due as p = some c) (ha : a ∈ as) (hrule : a.rule = c.alternative.rule)
    (hm : a.begin_.matchHere c.found.start = some m) : a.relevance ≤ c.alternative.relevance := by
  obtain ⟨e, he, hle⟩ := Pattern.findFrom_of_matchHere hm (Pattern.findFrom_ahead (due_mem h).2).1
  have hbeats := due_unbeaten h ha he
  rw [Candidate.beats_iff] at hbeats
  simp only at hbeats
  omega

/-- With one alternative, what is due is what it finds. -/
theorem due_singleton (a : Alternative) (p : Place) : due [a] p = (a.begin_.findFrom p).map (⟨a, ·⟩) := by
  unfold due
  cases h : a.begin_.findFrom p <;> simp [h, Candidate.best]

end Lexicolor.Scan
