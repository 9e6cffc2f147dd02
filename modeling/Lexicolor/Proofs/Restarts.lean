/-
Searches that step over empty matches. A search by offsets asks for the leftmost match; if that is empty,
it asks again behind the character after it, and so on until a match is not empty or the text is at its
end (`find?`). A search that also wants a group is a loop of its own (`findGroup?`), and the two keep in step
(`findGroup?_eq`). From a boundary of the source on, or from beyond its end, both find the first match that
is not empty, and there is no fault; so they find what searching from a place finds at once (`find_first`).
-/
import Lexicolor.Proofs.Faultless

namespace Lexicolor.Offsets

open Text Regex

variable {source : String} {pattern : Pattern} {from_ : Nat} {p : Place} {m : Match}

/-- The span of the first match from an offset on that is not empty, and what the named group matched in
it: the span of the match when the group took no part. After an empty match the search goes on behind the
next character. -/
def findGroup? (source : String) (pattern : Pattern) (name : String) (from_ : Nat) : Option (Option (Span × Span)) :=
  if source.utf8ByteSize < from_ then some none
  else
    match place? source from_ with
    | none => none
    | some p =>
      match pattern.expr.search (fun _ => true) p with
      | none => some none
      | some m =>
        if m.isEmpty then
          match nextBoundary? source m.start.offset with
          | none => none
          | some next => if from_ < next then findGroup? source pattern name next else none
        else some (some (m.span, (m.groups.lookup name).getD m.span))
termination_by source.utf8ByteSize + 1 - from_

/-- The match is the preferred one at the first place of the source, from an offset on, at which the
preferred match is not empty. -/
structure FirstFrom (source : String) (pattern : Pattern) (from_ : Nat) (m : Match) : Prop where
  place : On source m.start
  from_le : from_ ≤ m.start.offset
  preferred : pattern.matchHere m.start = some m
  before : ∀ q, On source q → from_ ≤ q.offset → q.offset < m.start.offset → pattern.matchHere q = none

/-! ## The two loops -/

/-- **The two loops keep in step**: after every empty match both go on from the same offset. -/
theorem findGroup?_eq (source : String) (pattern : Pattern) (name : String) (from_ : Nat) :
    findGroup? source pattern name from_ =
      (find? source pattern from_).map fun found => found.map fun m => (m.span, m.group name) := by
  fun_induction find? source pattern from_ with
  | case1 from_ hpast => rw [findGroup?, if_pos hpast]; rfl
  | case2 from_ hin hplace => rw [findGroup?, if_neg hin, hplace]; rfl
  | case3 from_ hin p hplace hnone => rw [findGroup?, if_neg hin, hplace]; simp only [hnone]; rfl
  | case4 from_ hin p hplace m hm he hnext => rw [findGroup?, if_neg hin, hplace]; simp only [hm, he, hnext]; rfl
  | case5 from_ hin p hplace m hm he next hnext hlt ih =>
    rw [findGroup?, if_neg hin, hplace]
    simp only [hm, he, if_true, hnext, if_pos hlt]
    exact ih
  | case6 from_ hin p hplace m hm he next hnext hnot =>
    rw [findGroup?, if_neg hin, hplace]
    simp only [hm, he, if_true, hnext, if_neg hnot]
    rfl
  | case7 from_ hin p hplace m hm he =>
    rw [findGroup?, if_neg hin, hplace]
    simp only [hm, he]
    rfl

/-! ## What they find -/

/-- From a place on, what is found is the first match of the source that is not empty. -/
theorem firstFrom_iff (hp : On source p) : FirstFrom source pattern p.offset m ↔ pattern.findFrom p = some m := by
  rw [Pattern.findFrom_eq_some_iff]
  constructor
  · intro h
    exact ⟨hp.linear h.place h.from_le, h.preferred, fun q hq hlt => h.before q (hp.reaches hq) hq.offset_le hlt⟩
  · rintro ⟨hm, hpreferred, hbefore⟩
    exact ⟨hp.reaches hm, hm.offset_le, hpreferred, fun q hq hle hlt => hbefore q (hp.linear hq hle) hlt⟩

theorem findFrom_eq_none_iff (hp : On source p) :
    pattern.findFrom p = none ↔ ∀ q, On source q → p.offset ≤ q.offset → pattern.matchHere q = none := by
  rw [Pattern.findFrom_eq_none_iff]
  constructor
  · exact fun h q hq hle => h q (hp.linear hq hle)
  · exact fun h q hq => h q (hp.reaches hq) hq.offset_le

/-- **From a boundary or from beyond the end** the loop is not at fault, and it ends with the first match
that is not empty, or with none if there is none. -/
theorem find?_first (pattern : Pattern) (h : IsBoundary source from_ ∨ source.utf8ByteSize < from_) :
    ∃ found, find? source pattern from_ = some found ∧ (∀ m, found = some m ↔ FirstFrom source pattern from_ m) ∧
      (found = none ↔ ∀ q, On source q → from_ ≤ q.offset → pattern.matchHere q = none) := by
  rcases h with hb | hpast
  · obtain ⟨p, hp, rfl⟩ := isBoundary_iff.1 hb
    exact ⟨pattern.findFrom p, find?_eq pattern p hp, fun m => (firstFrom_iff hp).symm, findFrom_eq_none_iff hp⟩
  · -- No place of the source is beyond its end.
    have hnot : ∀ q, On source q → ¬ from_ ≤ q.offset := fun q hq hle =>
      absurd hq.offset_le (Nat.not_le.2 (Nat.lt_of_lt_of_le hpast hle))
    refine ⟨none, by rw [find?, if_pos hpast], fun m => ⟨nofun, fun hm => ?_⟩, fun _ q hq hle => ?_, fun _ => rfl⟩
    · exact absurd hm.from_le (hnot _ hm.place)
    · exact absurd hle (hnot q hq)

/-- What a group is said to have matched lies inside the match. -/
theorem FirstFrom.group_inside (h : FirstFrom source pattern from_ m) (name : String) :
    m.start.offset ≤ (m.group name).start.offset ∧ (m.group name).start.offset ≤ (m.group name).stop.offset ∧
      (m.group name).stop.offset ≤ m.stop.offset := by
  obtain ⟨-, hinside, -⟩ := Pattern.matchHere_eq_some h.preferred
  obtain ⟨h1, h2, h3⟩ := hinside.group name
  exact ⟨h1.offset_le, h2.offset_le, h3.offset_le⟩

/-- **What searches find.** From a boundary of the source on, or from beyond its end, the loop that steps
over empty matches finds the preferred match at the first place where that is not empty, and nothing exactly
if there is no such place. The loop with groups finds a match exactly when this one does, of the same span;
what it says of the group lies inside that span, and is what the group matched if it took part, and else the
whole. At a place both agree with the searches of a scan. -/
theorem find_first (source : String) (pattern : Pattern) (from_ : Nat)
    (h : IsBoundary source from_ ∨ source.utf8ByteSize < from_) :
    ∃ found, find? source pattern from_ = some found ∧
      (∀ m, found = some m ↔ FirstFrom source pattern from_ m) ∧
      (found = none ↔ ∀ q, On source q → from_ ≤ q.offset → pattern.matchHere q = none) ∧
      (∀ name, ∃ narrowed, findGroup? source pattern name from_ = some narrowed ∧
        (narrowed = none ↔ found = none) ∧
        ∀ m, found = some m → ∃ inner, narrowed = some (m.span, inner) ∧
          m.start.offset ≤ inner.start.offset ∧ inner.start.offset ≤ inner.stop.offset ∧
          inner.stop.offset ≤ m.stop.offset ∧ inner = (m.groups.lookup name).getD m.span) ∧
      ∀ p, On source p → p.offset = from_ → pattern.findFrom p = found ∧
        ∀ name, findGroup? source pattern name from_ = some (pattern.findGroupFrom p name) := by
  obtain ⟨found, hfound, hfirst, hnone⟩ := find?_first pattern h
  have hgroup : ∀ name, findGroup? source pattern name from_ = some (found.map fun m => (m.span, m.group name)) := by
    intro name
    rw [findGroup?_eq, hfound, Option.map_some]
  refine ⟨found, hfound, hfirst, hnone, fun name => ?_, fun p hp hoffset => ?_⟩
  · refine ⟨_, hgroup name, Option.map_eq_none_iff, fun m hm => ⟨m.group name, by rw [hm, Option.map_some], ?_⟩⟩
    obtain ⟨h1, h2, h3⟩ := ((hfirst m).1 hm).group_inside name
    exact ⟨h1, h2, h3, rfl⟩
  · subst hoffset
    have hplace : pattern.findFrom p = found := Option.some.inj ((find?_eq pattern p hp).symm.trans hfound)
    refine ⟨hplace, fun name => ?_⟩
    rw [hgroup name, Pattern.findGroupFrom, hplace]

/-- Some letters a, which may be none, and some letters b. -/
def lettersAB : Pattern where
  source := "(?P<a>a*)b*"
  expr := .seq (.group (some "a") (.rep (.one (.single 'a')) 0 none true)) (.rep (.one (.single 'b')) 0 none true)

theorem read_lettersAB : (Expr.read lettersAB.source).toOption = some lettersAB.expr := by decide +kernel

/-- The empty match before a letter of three bytes is stepped over; in the match behind it the group took
part, though it is empty, and another group did not. -/
theorem find_first_stepped :
    (Expr.read lettersAB.source).toOption = some lettersAB.expr ∧ (IsBoundary "กbbก" 0 ∨ "กbbก".utf8ByteSize < 0) ∧
    ∃ m, find? "กbbก" lettersAB 0 = some (some m) ∧ FirstFrom "กbbก" lettersAB 0 m ∧
      (findGroup? "กbbก" lettersAB "a" 0).map (·.map fun (whole, inner) => (ends whole, ends inner)) =
        some (some ((3, 5), (3, 3))) ∧
      (findGroup? "กbbก" lettersAB "b" 0).map (·.map fun (whole, inner) => (ends whole, ends inner)) =
        some (some ((3, 5), (3, 5))) := by
  have hb : IsBoundary "กbbก" 0 := ⟨"", "กbbก", rfl, rfl⟩
  obtain ⟨found, hfound, hfirst, -, -, hplaces⟩ := find_first "กbbก" lettersAB 0 (.inl hb)
  obtain ⟨hplace, hgroups⟩ := hplaces (.start "กbbก".toList) (.refl _) rfl
  obtain ⟨m, hm⟩ : ∃ m, lettersAB.findFrom (.start "กbbก".toList) = some m :=
    Option.isSome_iff_exists.1 (by decide +kernel)
  have hm' : found = some m := hplace.symm.trans hm
  refine ⟨read_lettersAB, .inl hb, m, hm' ▸ hfound, (hfirst m).1 hm', ?_, ?_⟩
  · rw [hgroups "a"]
    decide +kernel
  · rw [hgroups "b"]
    decide +kernel

end Lexicolor.Offsets
