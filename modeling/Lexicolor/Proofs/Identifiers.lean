/-
The words of the stock identifier pattern: a letter, then letters and digits, letters being those
of the Thai block, Latin letters and the underscore (`matchesFully_identifier`). At a place the
pattern matches the longest word that begins there, or nothing (`identifier_matchAt`), so a search
finds the first word that is left, as long as it can be (`search_word`), and among spaces there is one
word as it stands (`allMatches_word`).
-/
import Mathlib.Data.List.TakeWhile
import Lexicolor.Proofs.Spelling

namespace Lexicolor.Stock

open Text Regex

variable {p q : Place} {w : String} {as bs pad gap cs tail : List Char}

/-- A letter and then letters and digits. -/
def IsIdentifier (cs : List Char) : Prop :=
  ∃ c ds, cs = c :: ds ∧ thaiLetter.contains c = true ∧ ∀ d ∈ ds, thaiLetterOrDigit.contains d = true

theorem letterOrDigit_of_letter {c : Char} (h : thaiLetter.contains c = true) :
    thaiLetterOrDigit.contains c = true := by
  simp only [thaiLetter, thaiLetterOrDigit, CharSet.unions, CharSet.contains, Bool.or_eq_true] at h ⊢
  tauto

theorem IsIdentifier.mem (h : IsIdentifier cs) : ∀ d ∈ cs, thaiLetterOrDigit.contains d = true := by
  obtain ⟨c, ds, rfl, hc, hds⟩ := h
  intro d hd
  rcases List.mem_cons.1 hd with rfl | hd
  · exact letterOrDigit_of_letter hc
  · exact hds d hd

theorem IsIdentifier.ne_nil (h : IsIdentifier cs) : cs ≠ [] := by
  obtain ⟨c, ds, rfl, -⟩ := h
  exact List.cons_ne_nil c ds

/-- **An identifier is taken as long as it can be.** -/
theorem identifier_matchAt {c : Char} {ds : List Char} (hr : p.rest = c :: ds)
    (hc : thaiLetter.contains c = true) :
    identifier.expr.matchAt p = some ⟨⟨p, p.passWhile thaiLetterOrDigit.contains⟩, []⟩ := by
  have hm : identifier.expr.matchAt p =
      some ⟨⟨p, Place.passWhile ⟨p.offset + c.utf8Size, some c, ds⟩ thaiLetterOrDigit.contains⟩, []⟩ :=
    matchAt_one_greedy hr hc
  rw [Place.passWhile_cons hr (letterOrDigit_of_letter hc)] at hm
  exact hm

theorem identifier_opens : Opens identifier.expr thaiLetter := (Opens.one thaiLetter).seq _

theorem identifier_matchAt_none (h : ∀ c ds, p.rest = c :: ds → thaiLetter.contains c = false) :
    identifier.expr.matchAt p = none := by
  by_contra hne
  obtain ⟨m, hm⟩ := Option.ne_none_iff_exists'.1 hne
  obtain ⟨c, ds, hr, hc⟩ := identifier_opens.matchAt hm
  rw [h c ds hr] at hc
  cases hc

/-- **What the identifier pattern matches in full.** -/
theorem matchesFully_identifier : identifier.matchesFully w = true ↔ IsIdentifier w.toList := by
  rw [Pattern.matchesFully_iff]
  constructor
  · rintro ⟨m, hm, hstop⟩
    obtain ⟨c, ds, hr, hc⟩ := identifier_opens.matchAt hm
    rw [identifier_matchAt hr hc] at hm
    have hrest : (Place.start w.toList).rest.dropWhile thaiLetterOrDigit.contains = [] := by
      rw [← Option.some.inj hm] at hstop
      exact hstop
    have hall := List.dropWhile_eq_nil_iff.1 hrest
    refine ⟨c, ds, hr, hc, fun d hd => hall d ?_⟩
    rw [hr]
    exact List.mem_cons_of_mem c hd
  · intro h
    have hmem := h.mem
    obtain ⟨c, ds, hr, hc, -⟩ := h
    have hr : (Place.start w.toList).rest = c :: ds := hr
    exact ⟨_, identifier_matchAt hr hc, List.dropWhile_eq_nil_iff.2 hmem⟩

/-! ## Words among other characters -/

/-- The text does not go on with a letter or digit. -/
def Stops (cs : List Char) : Prop := ∀ c ds, cs = c :: ds → thaiLetterOrDigit.contains c = false

/-- The characters hold no letter. -/
def Letterless (cs : List Char) : Prop := ∀ c ∈ cs, thaiLetter.contains c = false

theorem Stops.nil : Stops [] := fun _ _ h => by cases h

/-- What is kept at the beginning of a text, and where that ends. -/
theorem takeWhile_dropWhile_append {keep : Char → Bool} (has : ∀ a ∈ as, keep a = true)
    (hbs : ∀ b ds, bs = b :: ds → keep b = false) :
    (as ++ bs).takeWhile keep = as ∧ (as ++ bs).dropWhile keep = bs := by
  rw [List.takeWhile_append_of_pos has, List.dropWhile_append_of_pos has]
  cases bs with
  | nil => simp
  | cons b ds =>
    have hb : keep b = false := hbs b ds rfl
    simp [hb]

/-- What is left after characters that are kept begins with one that is not. -/
theorem not_keep_of_dropWhile {keep : Char → Bool} {c : Char} {ds : List Char} (h : cs.dropWhile keep = c :: ds) :
    keep c = false := by
  have hne : cs.dropWhile keep ≠ [] := by simp [h]
  have hnot := List.head_dropWhile_not keep hne
  simpa [h] using hnot

/-- Where a word begins the pattern matches all of it. -/
theorem identifier_matchAt_word (hr : p.rest = cs ++ tail) (hcs : IsIdentifier cs) (htail : Stops tail) :
    identifier.expr.matchAt p = some ⟨⟨p, p.pass cs tail⟩, []⟩ := by
  obtain ⟨htake, hdrop⟩ := takeWhile_dropWhile_append hcs.mem htail
  obtain ⟨c, ds, rfl, hc, -⟩ := hcs
  rw [identifier_matchAt hr hc, Place.passWhile, hr, htake, hdrop]

theorem search_letterless (h : Letterless p.rest) (accept : Match → Bool) :
    identifier.expr.search accept p = none := by
  rw [Expr.search_eq_none_iff]
  intro q hq
  have hnone : identifier.expr.matchAt q = none := by
    refine identifier_matchAt_none fun c ds hc => h c ?_
    rw [hq.rest_eq, hc]
    simp
  rw [hnone]
  rfl

/-- A search that accepts all matches that are not empty finds the first word. -/
theorem search_word {accept : Match → Bool} (ha : ∀ m : Match, m.isEmpty = false → accept m = true)
    (hr : p.rest = gap ++ (cs ++ tail)) (hgap : Letterless gap) (hcs : IsIdentifier cs) (htail : Stops tail) :
    identifier.expr.search accept p =
      some ⟨⟨p.pass gap (cs ++ tail), p.pass (gap ++ cs) tail⟩, []⟩ := by
  have hpos : 0 < bytes cs := bytes_pos hcs.ne_nil
  have hne : Match.isEmpty ⟨⟨p.pass gap (cs ++ tail), p.pass (gap ++ cs) tail⟩, []⟩ = false := by
    simp only [Match.isEmpty, Span.isEmpty, Place.pass_eq, bytes_append, beq_eq_false_iff_ne]
    omega
  have hm : identifier.expr.matchAt (p.pass gap (cs ++ tail)) =
      some ⟨⟨p.pass gap (cs ++ tail), p.pass (gap ++ cs) tail⟩, []⟩ := by
    rw [identifier_matchAt_word rfl hcs htail, Place.pass_pass]
  refine Expr.search_eq_some_iff.2 ⟨.pass hr, ?_, fun q hq hlt => ?_⟩
  · show (identifier.expr.matchAt (p.pass gap (cs ++ tail))).filter accept = _
    rw [hm, Option.filter_some, ha _ hne]
    rfl
  · have hnone : identifier.expr.matchAt q = none := by
      refine identifier_matchAt_none fun c ds hc => ?_
      obtain ⟨d, es, hd, hmem⟩ := hq.head_mem hr hlt
      have he : c = d := by
        rw [hc] at hd
        exact (List.cons.inj hd).1
      exact he ▸ hgap d hmem
    rw [hnone]
    rfl

/-! ## Words among spaces -/

/-- Nothing but spaces. -/
def Spaces (cs : List Char) : Prop := ∀ c ∈ cs, c = ' '

theorem Spaces.letterless (h : Spaces cs) : Letterless cs := by
  intro c hc
  rw [h c hc]
  decide

theorem Spaces.stops (h : Spaces cs) : Stops cs := by
  intro c ds hc
  rw [h c (by simp [hc])]
  decide

/-- A place among spaces or at a word or after its first character, or at the end. -/
theorem place_cases (hr : p.rest = pad ++ (cs ++ tail)) (hpad : Spaces pad) (htail : Spaces tail)
    (hq : p.Reaches q) :
    (∀ c ds, q.rest = c :: ds → c = ' ') ∨ q = p.pass pad (cs ++ tail) ∨
      (p.offset + bytes pad < q.offset ∧ q.offset < p.offset + bytes pad + bytes cs) := by
  obtain ⟨ds, hp, hd⟩ := hq
  rw [hr] at hp
  rcases List.append_eq_append_iff.1 hp with ⟨es, rfl, hes⟩ | ⟨es, rfl, hes⟩
  · rcases List.append_eq_append_iff.1 hes with ⟨fs, rfl, hfs⟩ | ⟨fs, rfl, hfs⟩
    · left
      intro c ds' hc
      exact htail c (by simp [hfs, hc])
    · by_cases hnil : es = []
      · subst hnil
        right; left
        rw [hd, hfs]
        simp
      · by_cases hfnil : fs = []
        · subst hfnil
          left
          intro c ds' hc
          exact htail c (by simp_all)
        · right; right
          have := bytes_pos hnil
          have := bytes_pos hfnil
          rw [hd]
          simp only [Place.pass_eq, bytes_append]
          omega
  · by_cases hnil : es = []
    · subst hnil
      right; left
      rw [hd, hes]
      simp
    · left
      intro c ds' hc
      obtain ⟨e, es', rfl⟩ := List.exists_cons_of_ne_nil hnil
      rw [hes, List.cons_append, List.cons.injEq] at hc
      exact hc.1 ▸ hpad e (by simp)

/-- **A word among spaces** is the only match of the identifier pattern. -/
theorem allMatches_word (hr : p.rest = pad ++ (cs ++ tail)) (hpad : Spaces pad) (hcs : IsIdentifier cs)
    (htail : Spaces tail) :
    identifier.allMatches p = [⟨⟨p.pass pad (cs ++ tail), p.pass (pad ++ cs) tail⟩, []⟩] := by
  have hfirst : identifier.expr.search (fun m => true || !m.isEmpty || m.start.offset != p.offset) p =
      some ⟨⟨p.pass pad (cs ++ tail), p.pass (pad ++ cs) tail⟩, []⟩ :=
    search_word (fun _ _ => rfl) hr hpad.letterless hcs htail.stops
  rw [Pattern.allMatches, Pattern.matchesFrom, hfirst]
  simp only [Pattern.matchesFrom, Match.stop]
  rw [search_letterless htail.letterless]

theorem allMatches_spaces (h : Spaces p.rest) : identifier.allMatches p = [] := by
  rw [Pattern.allMatches, Pattern.matchesFrom, search_letterless h.letterless]

end Lexicolor.Stock
