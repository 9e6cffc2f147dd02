/-
Lower case beside points. Whether a sigma ends a word does not depend on what is passed over when
looking for a letter, and points are passed over; so dropping the points before a text and taking
its lower case may be done in either order (`dropWhile_lowerFrom`).
-/
import Mathlib.Data.List.TakeWhile
import Lexicolor.Text.Lowercase

namespace Lexicolor.Text

/-- Characters that are passed over do not change what is met before them. -/
theorem meetsCased_append_ignorable {bs ds : List Char} (h : ∀ d ∈ ds, caseIgnorable.contains d.toNat = true) :
    meetsCased (bs ++ ds) = meetsCased bs := by
  have hds : ds.dropWhile (fun c => caseIgnorable.contains c.toNat) = [] := List.dropWhile_eq_nil_iff.2 h
  unfold meetsCased
  rw [List.dropWhile_append, hds]
  cases bs.dropWhile fun c => caseIgnorable.contains c.toNat <;> rfl

/-- The lower case of a text does not depend on characters before it that are passed over. -/
theorem lowerFrom_append_ignorable {ds : List Char} (h : ∀ d ∈ ds, caseIgnorable.contains d.toNat = true) :
    ∀ (bs cs : List Char), lowerFrom (bs ++ ds) cs = lowerFrom bs cs
  | _, [] => rfl
  | bs, c :: cs => by
    have ih : lowerFrom (c :: bs ++ ds) cs = lowerFrom (c :: bs) cs := lowerFrom_append_ignorable h (c :: bs) cs
    rw [List.cons_append] at ih
    simp only [lowerFrom, meetsCased_append_ignorable h, ih]

/-- Everything that has a lower case of its own has it beyond the point. -/
theorem point_lt_image : ∀ r ∈ lowerRuns, '.'.toNat < r.image := by decide +kernel

theorem ofNat_ne_point {n : Nat} (h : '.'.toNat < n) : Char.ofNat n ≠ '.' := by
  intro he
  unfold Char.ofNat at he
  by_cases hvalid : n.isValidChar
  · rw [dif_pos hvalid] at he
    have hv : n = '.'.toNat := congrArg Char.toNat he
    omega
  · rw [dif_neg hvalid] at he
    cases he

theorem lowerChar_ne_point {c : Char} (h : c ≠ '.') : lowerChar c ≠ '.' := by
  unfold lowerChar
  split
  · next n hn =>
    obtain ⟨r, hr, hi⟩ := List.exists_of_findSome?_eq_some hn
    have hle : r.image ≤ n := by
      unfold CaseRun.image? at hi
      split at hi
      · exact Option.some.inj hi ▸ Nat.le_add_right ..
      · cases hi
    exact ofNat_ne_point (Nat.lt_of_lt_of_le (point_lt_image r hr) hle)
  · exact h

/-- **Points before a text** may be dropped before or after its lower case is taken. -/
theorem dropWhile_lowerFrom : ∀ cs : List Char,
    (lowerFrom [] cs).dropWhile (· == '.') = lowerFrom [] (cs.dropWhile (· == '.'))
  | [] => rfl
  | c :: cs => by
    by_cases hc : c = '.'
    · subst hc
      have hignorable : caseIgnorable.contains '.'.toNat = true := by decide +kernel
      have hpoint : lowerFrom ['.'] cs = lowerFrom [] cs :=
        lowerFrom_append_ignorable (List.forall_mem_singleton.2 hignorable) [] cs
      have hlower : lowerChar '.' = '.' := by decide +kernel
      simp only [lowerFrom, hpoint, hlower, Char.reduceEq, if_false, List.singleton_append,
        List.dropWhile_cons_of_pos (p := (· == '.')) (a := '.') rfl, dropWhile_lowerFrom cs]
    · have hkeep : ∀ {x : Char} {ds : List Char}, x ≠ '.' → (x :: ds).dropWhile (· == '.') = x :: ds :=
        fun hx => List.dropWhile_cons_of_neg (by simpa using hx)
      rw [hkeep hc]
      simp only [lowerFrom]
      split
      · split
        · exact hkeep (by decide)
        · exact hkeep (by decide)
      · split
        · exact hkeep (by decide)
        · exact hkeep (lowerChar_ne_point hc)

end Lexicolor.Text
