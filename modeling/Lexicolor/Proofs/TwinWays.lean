/-
Matching the same characters in two texts. Two trails are twins when they have passed the same characters, the
one from one place and the other from another, and the same is left to both (`Twin`). All that matching looks
at is what follows, which trails end at one place, and the character just before; so from twins an expression
has ways that are twins again, one by one (`ways_twin`), as long as its anchors answer alike where the two
began. What repeats a step keeps any relation that the step keeps (`Likens`).
-/
import Mathlib.Data.List.Forall2
import Lexicolor.Proofs.CutWays

namespace Lexicolor.Regex

open Text

/-! ## Repetitions -/

/-- Related trails have as much text left, and of related pairs both end at one place or neither does. -/
structure Likens (R : Trail → Trail → Prop) : Prop where
  ends : ∀ {t t' u u' : Trail}, R t t' → R u u' → u.endsWith t = u'.endsWith t'
  length : ∀ {t t' : Trail}, R t t' → t.place.rest.length = t'.place.rest.length

namespace Likens

variable {R : Trail → Trail → Prop} {step step' : Trail → List Trail} {ts ts' found found' : List Trail}
  {t t' : Trail} {greedy : Bool}

theorem any (h : Likens R) (ht : R t t') (hts : List.Forall₂ R ts ts') :
    ts.any (·.endsWith t) = ts'.any (·.endsWith t') := by
  induction hts with
  | nil => rfl
  | cons hu _ ih => rw [List.any_cons, List.any_cons, h.ends ht hu, ih]

theorem filter (h : Likens R) (ht : R t t') (hts : List.Forall₂ R ts ts') :
    List.Forall₂ R (ts.filter (!·.endsWith t)) (ts'.filter (!·.endsWith t')) :=
  List.rel_filter (fun _ _ hu => by simp only [h.ends ht hu]) hts

theorem distinct (h : Likens R) (hts : List.Forall₂ R ts ts') :
    List.Forall₂ R (Regex.distinct ts) (Regex.distinct ts') := by
  induction hts with
  | nil => exact .nil
  | cons hu _ ih => exact .cons hu (h.filter hu ih)

theorem addNew (h : Likens R) (ht : R t t') (hfound : List.Forall₂ R found found') :
    List.Forall₂ R (Regex.addNew t found) (Regex.addNew t' found') := by
  rw [Regex.addNew, Regex.addNew, h.any ht hfound]
  split
  · exact hfound
  · exact .cons ht hfound

theorem loop (h : Likens R) (hs : ∀ {t t'}, R t t' → List.Forall₂ R (step t) (step' t')) : ∀ (n : Nat) {t t' : Trail}
    {found found' : List Trail}, R t t' → List.Forall₂ R found found' →
      List.Forall₂ R (Regex.loop step greedy n t found) (Regex.loop step' greedy n t' found')
  | 0, _, _, _, _, ht, hfound => h.addNew ht hfound
  | n + 1, t, t', found, found', ht, hfound => by
    have honward : ∀ {acc acc' : List Trail}, List.Forall₂ R acc acc' → List.Forall₂ R
        (((step t).filter (!·.endsWith t)).foldl (fun acc u => Regex.loop step greedy n u acc) acc)
        (((step' t').filter (!·.endsWith t')).foldl (fun acc u => Regex.loop step' greedy n u acc) acc') := by
      intro acc acc' hacc
      refine List.rel_foldl (P := List.Forall₂ R) (R := R) ?_ hacc (h.filter ht (hs ht))
      exact fun _ _ hacc _ _ hu => h.loop hs n hu hacc
    rw [Regex.loop, Regex.loop, h.any ht hfound]
    split
    · exact hfound
    · simp only
      split
      · exact .cons ht (honward hfound)
      · exact honward (.cons ht hfound)

theorem atLeastOnce (h : Likens R) (hs : ∀ {t t'}, R t t' → List.Forall₂ R (step t) (step' t')) (ht : R t t')
    (hfound : List.Forall₂ R found found') :
    List.Forall₂ R (Regex.atLeastOnce step greedy t found) (Regex.atLeastOnce step' greedy t' found') := by
  refine List.rel_foldl (fun acc acc' hacc u u' hu => ?_) hfound (hs ht)
  rw [h.ends ht hu, h.length hu]
  split
  · exact h.addNew hu hacc
  · exact h.loop hs _ hu hacc

theorem anyTimes (h : Likens R) (hs : ∀ {t t'}, R t t' → List.Forall₂ R (step t) (step' t')) (ht : R t t') :
    List.Forall₂ R (Regex.anyTimes step greedy t) (Regex.anyTimes step' greedy t') := by
  rw [Regex.anyTimes, Regex.anyTimes]
  split
  · exact List.rel_reverse (h.addNew ht (h.atLeastOnce hs ht .nil))
  · exact List.rel_reverse (h.atLeastOnce hs ht (.cons ht .nil))

theorem exactly (h : Likens R) (hs : ∀ {t t'}, R t t' → List.Forall₂ R (step t) (step' t')) : ∀ (n : Nat)
    {ts ts' : List Trail}, List.Forall₂ R ts ts' →
      List.Forall₂ R (Regex.exactly step n ts) (Regex.exactly step' n ts')
  | 0, _, _, hts => hts
  | n + 1, _, _, hts => h.exactly hs n (h.distinct (List.rel_flatMap hts fun _ _ hu => hs hu))

theorem atMost (h : Likens R) (hs : ∀ {t t'}, R t t' → List.Forall₂ R (step t) (step' t')) : ∀ (n : Nat)
    {t t' : Trail}, R t t' → List.Forall₂ R (Regex.atMost step greedy n t) (Regex.atMost step' greedy n t')
  | 0, _, _, ht => .cons ht .nil
  | n + 1, t, t', ht => by
    have hmore := List.rel_flatMap (hs ht) fun _ _ hu => h.atMost hs n hu
    rw [Regex.atMost, Regex.atMost]
    refine h.distinct ?_
    split
    · exact List.rel_append hmore (.cons ht .nil)
    · exact .cons ht hmore

/-- **What repeats a step** takes related trails to related trails if the step does. -/
theorem repetition (h : Likens R) (hs : ∀ {t t'}, R t t' → List.Forall₂ R (step t) (step' t')) (ht : R t t')
    (min : Nat) (max : Option Nat) :
    List.Forall₂ R (Regex.repetition step min max greedy t) (Regex.repetition step' min max greedy t') := by
  have hone : List.Forall₂ R [t] [t'] := .cons ht .nil
  unfold Regex.repetition
  split
  · exact h.distinct (List.rel_flatMap (h.exactly hs min hone) fun _ _ hu => h.atMost hs _ hu)
  · split
    · exact h.anyTimes hs ht
    · refine h.distinct (List.rel_flatMap (h.exactly hs _ hone) fun _ _ hu => ?_)
      exact List.rel_reverse (h.atLeastOnce hs hu .nil)

end Likens

/-! ## Twins -/

variable {p q : Place} {t u : Trail}

/-- The trails have passed the same characters, the one from `p` and the other from `q`, and have the same left. -/
def Twin (p q : Place) (t u : Trail) : Prop := ∃ passed rest, p.rest = passed ++ rest ∧ q.rest = passed ++ rest ∧
  t.place = p.pass passed rest ∧ u.place = q.pass passed rest

theorem Twin.here (h : p.rest = q.rest) (groups groups' : List (String × Span)) :
    Twin p q ⟨p, groups⟩ ⟨q, groups'⟩ :=
  ⟨[], p.rest, rfl, h.symm, by simp [Place.pass_eq], by simp [Place.pass_eq, h]⟩

theorem Twin.rest_eq (h : Twin p q t u) : t.place.rest = u.place.rest := by
  obtain ⟨passed, rest, -, -, ht, hu⟩ := h
  rw [ht, hu]
  rfl

/-- Both go on with the character that follows. -/
theorem Twin.next {c : Char} {cs : List Char} (h : Twin p q t u) (hr : t.place.rest = c :: cs) :
    Twin p q { t with place := ⟨t.place.offset + c.utf8Size, some c, cs⟩ }
      { u with place := ⟨u.place.offset + c.utf8Size, some c, cs⟩ } := by
  obtain ⟨passed, rest, hp, hq, ht, hu⟩ := h
  obtain rfl : rest = c :: cs := by rw [ht] at hr; exact hr
  have honward : ∀ r : Place, r.pass (passed ++ [c]) cs =
      ⟨(r.pass passed (c :: cs)).offset + c.utf8Size, some c, cs⟩ := by
    intro r
    rw [← Place.pass_pass r passed (c :: cs)]
    simp [Place.pass_eq]
  refine ⟨passed ++ [c], cs, by simp [hp], by simp [hq], ?_, ?_⟩
  · rw [honward p, ht]
  · rw [honward q, hu]

theorem twin_likens (p q : Place) : Likens (Twin p q) where
  ends := by
    rintro t t' u u' ⟨as, _, -, -, ht, ht'⟩ ⟨bs, _, -, -, hu, hu'⟩
    have hoffset : ∀ r : Place, ∀ cs ds, (r.pass cs ds).offset = r.offset + bytes cs := fun _ _ _ => rfl
    have hiff : u.offset = t.offset ↔ u'.offset = t'.offset := by
      simp only [Trail.offset, ht, ht', hu, hu', hoffset]
      omega
    rw [Trail.endsWith, Trail.endsWith, Bool.eq_iff_iff, beq_iff_eq, beq_iff_eq, hiff]
  length h := congrArg List.length h.rest_eq

/-- An anchor that answers alike at two places does so wherever twins come to from there. -/
theorem Twin.holds {a : Anchor} (h : Twin p q t u) (ha : a.holds p = a.holds q) :
    a.holds t.place = a.holds u.place := by
  obtain ⟨passed, rest, hp, hq, ht, hu⟩ := h
  rw [ht, hu]
  cases passed with
  | nil =>
    have hp' : p.pass [] rest = p := by rw [List.nil_append] at hp; simp [Place.pass_eq, ← hp]
    have hq' : q.pass [] rest = q := by rw [List.nil_append] at hq; simp [Place.pass_eq, ← hq]
    rw [hp', hq', ha]
  | cons c cs =>
    refine a.holds_congr ?_ rfl
    simp only [Place.pass_eq, List.getLast?_cons, Option.some_or]

/-- **The ways from twins are twins.** -/
theorem ways_twin : ∀ (e : Expr), (∀ a ∈ e.anchors, a.holds p = a.holds q) → ∀ {t u : Trail}, Twin p q t u →
    List.Forall₂ (Twin p q) (ways e t) (ways e u)
  | .empty, _, _, _, h => .cons h .nil
  | .one set, _, t, u, h => by
    cases hr : t.place.rest with
    | nil =>
      have hu : u.place.rest = [] := h.rest_eq ▸ hr
      simp only [ways, hr, hu]
      exact .nil
    | cons c cs =>
      have hu : u.place.rest = c :: cs := h.rest_eq ▸ hr
      simp only [ways, hr, hu]
      split
      · exact .cons (h.next hr) .nil
      · exact .nil
  | .anchor a, ha, t, u, h => by
    rw [ways, ways, h.holds (ha a (by simp [Expr.anchors]))]
    split
    · exact .cons h .nil
    · exact .nil
  | .seq e f, ha, _, _, h => by
    have he := ways_twin e (fun a h => ha a (by simp [Expr.anchors, h])) h
    have hf := fun {t u} => ways_twin f (fun a h => ha a (by simp [Expr.anchors, h])) (t := t) (u := u)
    exact (twin_likens p q).distinct (List.rel_flatMap he fun _ _ h => hf h)
  | .alt e f, ha, _, _, h => by
    have he := ways_twin e (fun a h => ha a (by simp [Expr.anchors, h])) h
    have hf := ways_twin f (fun a h => ha a (by simp [Expr.anchors, h])) h
    exact (twin_likens p q).distinct (List.rel_append he hf)
  | .rep e min max greedy, ha, _, _, h => by
    rw [ways, ways]
    exact (twin_likens p q).repetition (ways_twin e ha) h min max
  | .group none e, ha, _, _, h => by
    rw [ways, ways]
    exact ways_twin e ha h
  | .group (some name) e, ha, _, _, h => by
    rw [ways, ways, List.forall₂_map_left_iff, List.forall₂_map_right_iff]
    exact (ways_twin e ha h).imp fun _ _ h => h

/-- **Where the same characters follow**, the same of them are matched, if the anchors of the expression answer
alike. -/
theorem Expr.matchAt_twin {e : Expr} {m : Match} (ha : ∀ a ∈ e.anchors, a.holds p = a.holds q)
    (hr : p.rest = q.rest) (h : e.matchAt p = some m) :
    ∃ m', e.matchAt q = some m' ∧ m'.start = q ∧ m'.stop.rest = m.stop.rest := by
  obtain ⟨t, ht, rfl⟩ := Option.map_eq_some_iff.1 h
  have htwins := ways_twin e ha (Twin.here hr [] [])
  obtain ⟨ts, hts⟩ := List.head?_eq_some_iff.1 ht
  rw [hts, List.forall₂_cons_left_iff] at htwins
  obtain ⟨u, us, hu, -, hus⟩ := htwins
  exact ⟨⟨⟨q, u.place⟩, u.groups⟩, by rw [Expr.matchAt, hus]; rfl, rfl, hu.rest_eq.symm⟩

end Lexicolor.Regex
