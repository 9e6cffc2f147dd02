/-
Matching in a text that is cut off at a place. The ways to match there are those of the whole text
that end at or before the cut (`ways_upTo`), as long as the anchors of the expression cannot tell the
cut from the end of the text (`Anchor.Steady`). A way never goes back, so what lies beyond the cut
makes no way that ends before it; and a loop has fuel enough for either text (`loop_enough`).
-/
import Mathlib.Data.List.Basic
import Lexicolor.Proofs.Searching

namespace Lexicolor

open Text

namespace Text.Place

variable {p q r : Place}

/-- The place in the text that is cut off at `q`. -/
def upTo (p q : Place) : Place := ⟨p.offset, p.before, p.charsTo q⟩

theorem upTo_self (q : Place) : q.upTo q = ⟨q.offset, q.before, []⟩ := by
  have hnone : q.charsTo q = [] := charsTo_eq (List.nil_append q.rest).symm rfl
  rw [upTo, hnone]

/-- A place before the cut sees the character that follows it. -/
theorem upTo_rest_cons {c : Char} {cs : List Char} (hr : p.rest = c :: cs) (hlt : p.offset < q.offset) :
    (p.upTo q).rest = c :: (upTo ⟨p.offset + c.utf8Size, some c, cs⟩ q).rest := by
  simp only [upTo, charsTo, hr, charsBelow, if_pos hlt]

theorem upTo_length_le (p q : Place) : (p.upTo q).rest.length ≤ p.rest.length := by
  have key : ∀ (cs : List Char) (here : Nat), (charsBelow q.offset here cs).length ≤ cs.length := by
    intro cs
    induction cs with
    | nil => exact fun here => Nat.le_refl _
    | cons c cs ih =>
      intro here
      unfold charsBelow
      split
      · exact Nat.succ_le_succ (ih _)
      · exact Nat.zero_le _
  exact key p.rest p.offset

end Text.Place

/-- The span in the text that is cut off at `q`. -/
def Text.Span.upTo (s : Span) (q : Place) : Span := ⟨s.start.upTo q, s.stop.upTo q⟩

namespace Regex

/-! ## Anchors at a cut -/

/-- The anchors of an expression. -/
def Expr.anchors : Expr → List Anchor
  | .empty => []
  | .one _ => []
  | .anchor a => [a]
  | .seq e f => e.anchors ++ f.anchors
  | .alt e f => e.anchors ++ f.anchors
  | .rep e _ _ _ => e.anchors
  | .group _ e => e.anchors

/-- The anchor does not tell the place from the end of a text that is cut off there. -/
def Anchor.Steady (a : Anchor) (q : Place) : Prop := a.holds ⟨q.offset, q.before, []⟩ = a.holds q

instance (a : Anchor) (q : Place) : Decidable (a.Steady q) := decEq (a.holds ⟨q.offset, q.before, []⟩) (a.holds q)

/-- An anchor looks no further than at the next character. -/
theorem Anchor.holds_congr (a : Anchor) {p q : Place} (hb : p.before = q.before)
    (hr : p.rest.head? = q.rest.head?) : a.holds p = a.holds q := by
  cases a <;> simp only [holds, hb, hr]

theorem Anchor.Steady.upTo {a : Anchor} {p q : Place} (h : a.Steady q) (hp : p.Reaches q) :
    a.holds (p.upTo q) = a.holds p := by
  by_cases hlt : p.offset < q.offset
  · cases hr : p.rest with
    | nil =>
      rw [hp.eq_of_rest_nil hr] at hlt
      exact absurd hlt (Nat.lt_irrefl _)
    | cons c cs => exact a.holds_congr rfl (by rw [Place.upTo_rest_cons hr hlt, hr]; rfl)
  · obtain rfl := hp.eq_of_offset_eq (Nat.le_antisymm hp.offset_le (Nat.le_of_not_lt hlt))
    rw [Place.upTo_self]
    exact h

/-! ## Trails up to a cut -/

namespace Trail

/-- The trail in the text that is cut off at `q`. -/
def upTo (t : Trail) (q : Place) : Trail := ⟨t.place.upTo q, t.groups.map fun g => (g.1, g.2.upTo q)⟩

/-- A trail that has come no further than `q`, in the text that is cut off there. -/
def upTo? (q : Place) (t : Trail) : Option Trail := if t.offset ≤ q.offset then some (t.upTo q) else none

end Trail

/-- The trails that have come no further than `q`, in the text that is cut off there. -/
def kept (q : Place) (ts : List Trail) : List Trail := ts.filterMap (Trail.upTo? q)

section Kept

variable {q : Place} {t u : Trail} {ts us found : List Trail} {step : Trail → List Trail} {greedy : Bool}

theorem kept_cons_of_le (h : t.offset ≤ q.offset) : kept q (t :: ts) = t.upTo q :: kept q ts :=
  List.filterMap_cons_some (if_pos h)

theorem kept_cons_of_lt (h : q.offset < t.offset) : kept q (t :: ts) = kept q ts :=
  List.filterMap_cons_none (if_neg (Nat.not_le.2 h))

theorem kept_singleton (h : t.offset ≤ q.offset) : kept q [t] = [t.upTo q] := kept_cons_of_le h

theorem kept_append (q : Place) (ts us : List Trail) : kept q (ts ++ us) = kept q ts ++ kept q us :=
  List.filterMap_append ..

theorem kept_reverse (q : Place) (ts : List Trail) : kept q ts.reverse = (kept q ts).reverse :=
  List.filterMap_reverse ..

theorem kept_eq_nil (h : ∀ t ∈ ts, q.offset < t.offset) : kept q ts = [] :=
  List.filterMap_eq_nil_iff.2 fun t ht => if_neg (Nat.not_le.2 (h t ht))

/-- Whether a trail that is kept ends where one of others does can be told from those that are kept. -/
theorem kept_any (h : t.offset ≤ q.offset) : (kept q ts).any (·.endsWith (t.upTo q)) = ts.any (·.endsWith t) := by
  induction ts with
  | nil => rfl
  | cons u us ih =>
    by_cases hu : u.offset ≤ q.offset
    · rw [kept_cons_of_le hu, List.any_cons, List.any_cons, ih]
      rfl
    · have hne : u.endsWith t = false := by
        simp only [Trail.endsWith, beq_eq_false_iff_ne]
        omega
      rw [kept_cons_of_lt (Nat.lt_of_not_le hu), List.any_cons, ih, hne, Bool.false_or]

theorem kept_filter (h : t.offset ≤ q.offset) :
    kept q (ts.filter (!·.endsWith t)) = (kept q ts).filter (!·.endsWith (t.upTo q)) := by
  induction ts with
  | nil => rfl
  | cons u us ih =>
    by_cases hu : u.offset ≤ q.offset
    · have hends : (u.upTo q).endsWith (t.upTo q) = u.endsWith t := rfl
      rw [kept_cons_of_le hu, List.filter_cons, List.filter_cons, hends]
      split
      · rw [kept_cons_of_le hu, ih]
      · exact ih
    · have hne : u.endsWith t = false := by
        simp only [Trail.endsWith, beq_eq_false_iff_ne]
        omega
      rw [kept_cons_of_lt (Nat.lt_of_not_le hu), List.filter_cons, if_pos (by simp [hne]),
        kept_cons_of_lt (Nat.lt_of_not_le hu), ih]

/-- Trails beyond the cut hide none that are kept. -/
theorem kept_filter_beyond (h : q.offset < t.offset) : kept q (ts.filter (!·.endsWith t)) = kept q ts := by
  induction ts with
  | nil => rfl
  | cons u us ih =>
    rw [List.filter_cons]
    split
    · by_cases hu : u.offset ≤ q.offset
      · rw [kept_cons_of_le hu, kept_cons_of_le hu, ih]
      · rw [kept_cons_of_lt (Nat.lt_of_not_le hu), kept_cons_of_lt (Nat.lt_of_not_le hu), ih]
    · next hends =>
      have hu : u.offset = t.offset := by simpa [Trail.endsWith] using hends
      rw [kept_cons_of_lt (by omega), ih]

theorem kept_distinct (q : Place) : ∀ ts : List Trail, kept q (distinct ts) = distinct (kept q ts)
  | [] => rfl
  | t :: ts => by
    rw [distinct]
    by_cases h : t.offset ≤ q.offset
    · rw [kept_cons_of_le h, kept_cons_of_le h, distinct, kept_filter h, kept_distinct q ts]
    · rw [kept_cons_of_lt (Nat.lt_of_not_le h), kept_cons_of_lt (Nat.lt_of_not_le h),
        kept_filter_beyond (Nat.lt_of_not_le h), kept_distinct q ts]

theorem kept_addNew (h : t.offset ≤ q.offset) : kept q (addNew t found) = addNew (t.upTo q) (kept q found) := by
  rw [addNew, addNew, kept_any h]
  split
  · rfl
  · exact kept_cons_of_le h

theorem kept_addNew_beyond (h : q.offset < t.offset) : kept q (addNew t found) = kept q found := by
  rw [addNew]
  split
  · rfl
  · exact kept_cons_of_lt h

/-- A choice for each trail, where those beyond the cut lead to none that are kept. -/
theorem kept_flatMap {f f' : Trail → List Trail} (hwithin : ∀ t ∈ ts, t.offset ≤ q.offset → kept q (f t) = f' (t.upTo q))
    (hbeyond : ∀ t ∈ ts, q.offset < t.offset → kept q (f t) = []) : kept q (ts.flatMap f) = (kept q ts).flatMap f' := by
  induction ts with
  | nil => rfl
  | cons t ts ih =>
    have ih := ih (fun u hu => hwithin u (List.mem_cons_of_mem t hu)) fun u hu => hbeyond u (List.mem_cons_of_mem t hu)
    rw [List.flatMap_cons, kept_append, ih]
    by_cases h : t.offset ≤ q.offset
    · rw [kept_cons_of_le h, List.flatMap_cons, hwithin t List.mem_cons_self h]
    · have h := Nat.lt_of_not_le h
      rw [kept_cons_of_lt h, hbeyond t List.mem_cons_self h, List.nil_append]

/-- What trails add one after the other, where those beyond the cut add none that are kept. -/
theorem kept_foldl {f f' : List Trail → Trail → List Trail}
    (hwithin : ∀ t ∈ ts, t.offset ≤ q.offset → ∀ acc, kept q (f acc t) = f' (kept q acc) (t.upTo q))
    (hbeyond : ∀ t ∈ ts, q.offset < t.offset → ∀ acc, kept q (f acc t) = kept q acc) :
    kept q (ts.foldl f found) = (kept q ts).foldl f' (kept q found) := by
  induction ts generalizing found with
  | nil => rfl
  | cons t ts ih =>
    rw [List.foldl_cons, ih (fun u hu => hwithin u (List.mem_cons_of_mem t hu))
      fun u hu => hbeyond u (List.mem_cons_of_mem t hu)]
    by_cases h : t.offset ≤ q.offset
    · rw [kept_cons_of_le h, List.foldl_cons, hwithin t List.mem_cons_self h]
    · have h := Nat.lt_of_not_le h
      rw [kept_cons_of_lt h, hbeyond t List.mem_cons_self h]

end Kept

/-! ## Repetitions -/

theorem Trail.Follows.offset_le {t u : Trail} (h : t.Follows u) : t.offset ≤ u.offset := h.place.offset_le

theorem Trail.Follows.reaches {t u : Trail} {q : Place} (h : t.Follows u) (ht : t.place.Reaches q)
    (hle : u.offset ≤ q.offset) : u.place.Reaches q := h.place.linear ht hle

/-- The step goes forward, and from a trail in the text that is cut off at `q` it takes the ways that
have come no further. -/
structure CutsAt (q : Place) (step : Trail → List Trail) : Prop where
  follows : ∀ t, ∀ u ∈ step t, t.Follows u
  upTo : ∀ t, t.place.Reaches q → step (t.upTo q) = kept q (step t)

section Repetition

variable {q : Place} {t : Trail} {ts found : List Trail} {step : Trail → List Trail} {greedy : Bool}

theorem CutsAt.beyond (h : CutsAt q step) (ht : q.offset < t.offset) : kept q (step t) = [] :=
  kept_eq_nil fun u hu => Nat.lt_of_lt_of_le ht (h.follows t u hu).offset_le

/-- At the end of the text no step leads on. -/
theorem onward_nil (hs : ∀ t, ∀ u ∈ step t, t.Follows u) (ht : t.place.rest = []) :
    (step t).filter (!·.endsWith t) = [] := by
  refine List.filter_eq_nil_iff.2 fun u hu hends => ?_
  have hplace := (hs t u hu).place.eq_of_rest_nil ht
  simp [Trail.endsWith, Trail.offset, hplace] at hends

theorem onward_length (hs : ∀ t, ∀ u ∈ step t, t.Follows u) {u : Trail}
    (hu : u ∈ (step t).filter (!·.endsWith t)) : u.place.rest.length < t.place.rest.length := by
  obtain ⟨hu, hends⟩ := List.mem_filter.1 hu
  have hfollows := hs t u hu
  refine hfollows.place.length_lt (Nat.lt_of_le_of_ne hfollows.offset_le fun heq => ?_)
  simp [Trail.endsWith, Trail.offset, heq] at hends

/-- **A loop has fuel enough** if it has one unit for each character that follows. -/
theorem loop_enough (hs : ∀ t, ∀ u ∈ step t, t.Follows u) : ∀ {m n : Nat} {t : Trail} {found : List Trail},
    t.place.rest.length ≤ m → t.place.rest.length ≤ n → loop step greedy m t found = loop step greedy n t found := by
  have hend : ∀ {n : Nat} {t : Trail} {found : List Trail}, t.place.rest = [] →
      loop step greedy n t found = addNew t found := by
    intro n t found ht
    cases n with
    | zero => rfl
    | succ n => simp only [loop, addNew, onward_nil hs ht, List.foldl_nil, ite_self]
  intro m
  induction m with
  | zero =>
    intro n t found hm hn
    have ht := List.eq_nil_of_length_eq_zero (Nat.le_zero.1 hm)
    rw [hend ht, hend ht]
  | succ m ih =>
    intro n t found hm hn
    cases n with
    | zero =>
      have ht := List.eq_nil_of_length_eq_zero (Nat.le_zero.1 hn)
      rw [hend ht, hend ht]
    | succ n =>
      have hfold : ∀ acc, ((step t).filter (!·.endsWith t)).foldl (fun acc u => loop step greedy m u acc) acc =
          ((step t).filter (!·.endsWith t)).foldl (fun acc u => loop step greedy n u acc) acc := by
        intro acc
        refine List.foldl_ext _ _ _ fun acc u hu => ?_
        have := onward_length hs hu
        exact ih (by omega) (by omega)
      simp only [loop, hfold]

/-- A loop that begins beyond the cut finds nothing before it. -/
theorem kept_loop_beyond (hs : CutsAt q step) : ∀ {n : Nat} {t : Trail} {found : List Trail}, q.offset < t.offset →
    kept q (loop step greedy n t found) = kept q found := by
  intro n
  induction n with
  | zero => exact fun ht => kept_addNew_beyond ht
  | succ n ih =>
    intro t found ht
    have hfold : ∀ acc, kept q (((step t).filter (!·.endsWith t)).foldl (fun acc u => loop step greedy n u acc) acc) =
        kept q acc := by
      have honward : ∀ u ∈ (step t).filter (!·.endsWith t), q.offset < u.offset := fun u hu =>
        Nat.lt_of_lt_of_le ht (hs.follows t u (List.mem_filter.1 hu).1).offset_le
      intro acc
      have hnone : kept q ((step t).filter (!·.endsWith t)) = [] := kept_eq_nil honward
      have hsame : kept q (((step t).filter (!·.endsWith t)).foldl (fun acc u => loop step greedy n u acc) acc) =
          (kept q ((step t).filter (!·.endsWith t))).foldl (fun acc _ => acc) (kept q acc) :=
        kept_foldl (fun u hu hle => absurd (honward u hu) (Nat.not_lt.2 hle)) fun u hu hlt acc => ih hlt
      rw [hsame, hnone]
      rfl
    rw [loop]
    split
    · rfl
    · simp only
      split
      · rw [kept_cons_of_lt ht, hfold]
      · rw [hfold, kept_cons_of_lt ht]

/-- **A loop finds the same before the cut.** -/
theorem kept_loop (hs : CutsAt q step) : ∀ {n : Nat} {t : Trail} {found : List Trail}, t.place.Reaches q →
    kept q (loop step greedy n t found) = loop step greedy n (t.upTo q) (kept q found) := by
  intro n
  induction n with
  | zero => exact fun ht => kept_addNew ht.offset_le
  | succ n ih =>
    intro t found ht
    have hfold : ∀ acc, kept q (((step t).filter (!·.endsWith t)).foldl (fun acc u => loop step greedy n u acc) acc) =
        ((step (t.upTo q)).filter (!·.endsWith (t.upTo q))).foldl (fun acc u => loop step greedy n u acc) (kept q acc) := by
      intro acc
      rw [hs.upTo t ht, ← kept_filter ht.offset_le]
      refine kept_foldl (fun u hu hle acc => ih ?_) fun u hu hlt acc => kept_loop_beyond hs hlt
      exact (hs.follows t u (List.mem_filter.1 hu).1).reaches ht hle
    rw [loop, loop, kept_any ht.offset_le]
    split
    · rfl
    · simp only
      split
      · rw [kept_cons_of_le ht.offset_le, hfold]
      · rw [hfold, kept_cons_of_le ht.offset_le]

theorem kept_atLeastOnce (hs : CutsAt q step) (ht : t.place.Reaches q) :
    kept q (atLeastOnce step greedy t found) = atLeastOnce step greedy (t.upTo q) (kept q found) := by
  rw [atLeastOnce, atLeastOnce, hs.upTo t ht]
  refine kept_foldl (fun u hu hle acc => ?_) fun u hu hlt acc => ?_
  · have hends : (u.upTo q).endsWith (t.upTo q) = u.endsWith t := rfl
    have hreach := (hs.follows t u hu).reaches ht hle
    rw [hends]
    split
    · exact kept_addNew hle
    · rw [kept_loop hs hreach]
      have hlength : (u.upTo q).place.rest.length ≤ u.place.rest.length := Place.upTo_length_le u.place q
      exact loop_enough hs.follows hlength (Nat.le_refl _)
  · split
    · exact kept_addNew_beyond hlt
    · exact kept_loop_beyond hs hlt

theorem kept_anyTimes (hs : CutsAt q step) (ht : t.place.Reaches q) :
    kept q (anyTimes step greedy t) = anyTimes step greedy (t.upTo q) := by
  rw [anyTimes, anyTimes]
  split
  · rw [kept_reverse, kept_addNew ht.offset_le, kept_atLeastOnce hs ht]
    rfl
  · rw [kept_reverse, kept_atLeastOnce hs ht, kept_cons_of_le ht.offset_le]
    rfl

/-- Trails that have come no further than the cut stand at places before it. -/
def Along (q : Place) (ts : List Trail) : Prop := ∀ t ∈ ts, t.offset ≤ q.offset → t.place.Reaches q

theorem Along.next (hs : CutsAt q step) (h : Along q ts) : Along q (distinct (ts.flatMap step)) := by
  intro u hu hle
  obtain ⟨t, ht, hu⟩ := List.mem_flatMap.1 (mem_distinct hu)
  have hfollows := hs.follows t u hu
  exact hfollows.reaches (h t ht (Nat.le_trans hfollows.offset_le hle)) hle

theorem kept_exactly (hs : CutsAt q step) : ∀ (n : Nat) {ts : List Trail}, Along q ts →
    kept q (exactly step n ts) = exactly step n (kept q ts) ∧ Along q (exactly step n ts)
  | 0, _, h => ⟨rfl, h⟩
  | n + 1, ts, h => by
    obtain ⟨heq, halong⟩ := kept_exactly hs n (h.next hs)
    refine ⟨?_, halong⟩
    rw [exactly, exactly, heq, kept_distinct,
      kept_flatMap (fun t ht hle => (hs.upTo t (h t ht hle)).symm) fun t _ hlt => hs.beyond hlt]

theorem kept_atMost (hs : CutsAt q step) : ∀ (n : Nat) {t : Trail}, t.place.Reaches q →
    kept q (atMost step greedy n t) = atMost step greedy n (t.upTo q)
  | 0, t, ht => by rw [atMost, atMost, kept_cons_of_le ht.offset_le]; rfl
  | n + 1, t, ht => by
    have hmore : kept q ((step t).flatMap (atMost step greedy n)) =
        (step (t.upTo q)).flatMap (atMost step greedy n) := by
      rw [hs.upTo t ht]
      refine kept_flatMap (fun u hu hle => kept_atMost hs n ((hs.follows t u hu).reaches ht hle)) fun u hu hlt => ?_
      exact kept_eq_nil fun v hv => Nat.lt_of_lt_of_le hlt (mem_atMost hs.follows n hv).offset_le
    rw [atMost, atMost, kept_distinct]
    split
    · rw [kept_append, hmore, kept_cons_of_le ht.offset_le]
      rfl
    · rw [kept_cons_of_le ht.offset_le, hmore]

theorem kept_repetition (hs : CutsAt q step) (ht : t.place.Reaches q) (min : Nat) (max : Option Nat) :
    kept q (repetition step min max greedy t) = repetition step min max greedy (t.upTo q) := by
  have hone : Along q [t] := fun u hu _ => List.mem_singleton.1 hu ▸ ht
  have hkept : kept q [t] = [t.upTo q] := kept_singleton ht.offset_le
  unfold repetition
  split
  · next m =>
    obtain ⟨heq, halong⟩ := kept_exactly hs min hone
    rw [kept_distinct, ← hkept, ← heq]
    refine congrArg distinct (kept_flatMap (fun u hu hle => kept_atMost hs _ (halong u hu hle)) fun u hu hlt => ?_)
    exact kept_eq_nil fun v hv => Nat.lt_of_lt_of_le hlt (mem_atMost hs.follows _ hv).offset_le
  · split
    · exact kept_anyTimes hs ht
    · next n =>
      obtain ⟨heq, halong⟩ := kept_exactly hs n hone
      rw [kept_distinct, ← hkept, ← heq]
      refine congrArg distinct (kept_flatMap (fun u hu hle => ?_) fun u hu hlt => ?_)
      · rw [kept_reverse, kept_atLeastOnce hs (halong u hu hle)]
        rfl
      · refine kept_eq_nil fun v hv => ?_
        rcases mem_atLeastOnce hs.follows (List.mem_reverse.1 hv) with hv | hv
        · cases hv
        · exact Nat.lt_of_lt_of_le hlt hv.offset_le

end Repetition

/-! ## Expressions -/

variable {q : Place}

/-- **The ways to match in a text that is cut off** are those of the whole text that end at or before the
cut, if no anchor can tell the cut from the end of the text. -/
theorem ways_upTo : ∀ (e : Expr), (∀ a ∈ e.anchors, a.Steady q) → ∀ t : Trail, t.place.Reaches q →
    ways e (t.upTo q) = kept q (ways e t)
  | .empty, _, t, ht => (kept_singleton ht.offset_le).symm
  | .one set, _, t, ht => by
    cases hr : t.place.rest with
    | nil =>
      have hlength : (t.upTo q).place.rest.length ≤ t.place.rest.length := Place.upTo_length_le t.place q
      rw [hr] at hlength
      have hnone := List.eq_nil_of_length_eq_zero (Nat.le_zero.1 hlength)
      simp only [ways, hr, hnone]
      rfl
    | cons c cs =>
      have hpos := c.utf8Size_pos
      by_cases hlt : t.place.offset < q.offset
      · have hcons : (t.upTo q).place.rest = _ := Place.upTo_rest_cons hr hlt
        have hnext : Trail.offset ⟨⟨t.place.offset + c.utf8Size, some c, cs⟩, t.groups⟩ ≤ q.offset := by
          rcases ht.cons_cases hr with rfl | hnext
          · exact absurd hlt (Nat.lt_irrefl _)
          · exact hnext.offset_le
        simp only [ways, hr, hcons]
        split
        · exact (kept_singleton hnext).symm
        · rfl
      · have hq := ht.eq_of_offset_eq (Nat.le_antisymm ht.offset_le (Nat.le_of_not_lt hlt))
        have hnone : (t.upTo q).place.rest = [] := by
          simp only [Trail.upTo, hq, Place.upTo_self]
        simp only [ways, hr, hnone]
        split
        · rw [kept_cons_of_lt]
          · rfl
          · simp only [Trail.offset]
            omega
        · rfl
  | .anchor a, ha, t, ht => by
    have hholds : a.holds (t.upTo q).place = a.holds t.place := (ha a (by simp [Expr.anchors])).upTo ht
    simp only [ways, hholds]
    split
    · exact (kept_singleton ht.offset_le).symm
    · rfl
  | .seq e f, ha, t, ht => by
    have he := ways_upTo e (fun a h => ha a (by simp [Expr.anchors, h]))
    have hf := ways_upTo f (fun a h => ha a (by simp [Expr.anchors, h]))
    rw [ways, ways, he t ht, kept_distinct]
    refine congrArg distinct (kept_flatMap (fun u hu hle => ?_) fun u hu hlt => ?_).symm
    · exact (hf u ((ways_follows e t u hu).reaches ht hle)).symm
    · exact kept_eq_nil fun v hv => Nat.lt_of_lt_of_le hlt (ways_follows f u v hv).offset_le
  | .alt e f, ha, t, ht => by
    rw [ways, ways, ways_upTo e (fun a h => ha a (by simp [Expr.anchors, h])) t ht,
      ways_upTo f (fun a h => ha a (by simp [Expr.anchors, h])) t ht, kept_distinct, kept_append]
  | .rep e min max greedy, ha, t, ht => by
    rw [ways, ways]
    exact (kept_repetition ⟨ways_follows e, ways_upTo e ha⟩ ht min max).symm
  | .group none e, ha, t, ht => by
    rw [ways, ways]
    exact ways_upTo e ha t ht
  | .group (some name) e, ha, t, ht => by
    rw [ways, ways, ways_upTo e ha t ht, kept, kept, List.map_filterMap, List.filterMap_map]
    refine List.filterMap_congr fun u _ => ?_
    by_cases hle : u.offset ≤ q.offset
    · have hgroup : Trail.upTo? q ⟨u.place, (name, ⟨t.place, u.place⟩) :: u.groups⟩ = some _ := if_pos hle
      rw [Trail.upTo?, if_pos hle, Function.comp, hgroup]
      rfl
    · have hgroup : Trail.upTo? q ⟨u.place, (name, ⟨t.place, u.place⟩) :: u.groups⟩ = none := if_neg hle
      rw [Trail.upTo?, if_neg hle, Function.comp, hgroup]
      rfl

/-- The match in the text that is cut off at `q`. -/
def Match.upTo (m : Match) (q : Place) : Match := ⟨m.span.upTo q, m.groups.map fun g => (g.1, g.2.upTo q)⟩

variable {e : Expr} {p : Place} {m : Match}

/-- A match that ends before the cut is found in the text that is cut off. -/
theorem Expr.matchAt_upTo_some (ha : ∀ a ∈ e.anchors, a.Steady q) (hp : p.Reaches q) (h : e.matchAt p = some m)
    (hle : m.stop.offset ≤ q.offset) : e.matchAt (p.upTo q) = some (m.upTo q) := by
  obtain ⟨u, hu, rfl⟩ := Option.map_eq_some_iff.1 h
  have hways := ways_upTo e ha ⟨p, []⟩ hp
  obtain ⟨us, hus⟩ := List.head?_eq_some_iff.1 hu
  rw [hus, kept_cons_of_le hle] at hways
  have hways : ways e ⟨p.upTo q, []⟩ = u.upTo q :: kept q us := hways
  rw [Expr.matchAt, hways]
  rfl

/-- Where nothing matches, nothing does when the text is cut off. -/
theorem Expr.matchAt_upTo_none (ha : ∀ a ∈ e.anchors, a.Steady q) (hp : p.Reaches q) (h : e.matchAt p = none) :
    e.matchAt (p.upTo q) = none := by
  have hnil : ways e ⟨p, []⟩ = [] := by simpa [Expr.matchAt] using h
  have hways : ways e ⟨p.upTo q, []⟩ = _ := ways_upTo e ha ⟨p, []⟩ hp
  rw [Expr.matchAt, hways, hnil]
  rfl

end Regex

end Lexicolor
