/-
How the expressions of the stock patterns match. One that spells out a text, with anchors or
without, has at most one way to match (`Straight`), which is to read that text; a greedy
repetition of one set of characters prefers to read on while they are in the set
(`head_ways_greedy`). What an expression must begin with rules it out at most places of a text
(`Opens`).
-/
import Mathlib.Data.List.Basic
import Lexicolor.Grammar.Stock
import Lexicolor.Proofs.Searching

namespace Lexicolor.Text.Place

variable {p : Place}

/-- The place after the characters that follow, as long as each is to be kept. -/
def passWhile (p : Place) (keep : Char → Bool) : Place := p.pass (p.rest.takeWhile keep) (p.rest.dropWhile keep)

theorem passWhile_cons {keep : Char → Bool} {c : Char} {cs : List Char} (h : p.rest = c :: cs)
    (hc : keep c = true) :
    passWhile ⟨p.offset + c.utf8Size, some c, cs⟩ keep = p.passWhile keep := by
  rw [passWhile, passWhile, h, List.takeWhile_cons_of_pos hc, List.dropWhile_cons_of_pos hc]
  simp only [pass_eq, bytes_cons, List.getLast?_cons, Nat.add_assoc, mk.injEq, true_and, and_true]
  cases (cs.takeWhile keep).getLast? <;> rfl

theorem passWhile_stop {keep : Char → Bool} (h : ∀ c cs, p.rest = c :: cs → keep c = false) :
    p.passWhile keep = p := by
  obtain ⟨offset, before, rest⟩ := p
  cases rest with
  | nil => simp [passWhile, pass_eq]
  | cons c cs => simp [passWhile, pass_eq, h c cs rfl]

end Lexicolor.Text.Place

namespace Lexicolor.Regex

open Text

/-! ## Expressions with one way to match -/

/-- The expression has no way to match but the one that `f` gives. -/
def Straight (e : Expr) (f : Trail → Option Trail) : Prop := ∀ t, ways e t = (f t).toList

theorem head?_distinct (ts : List Trail) : (distinct ts).head? = ts.head? := by
  cases ts <;> rfl

theorem distinct_toList (o : Option Trail) : distinct o.toList = o.toList := by
  cases o <;> rfl

namespace Straight

variable {e d : Expr} {f h : Trail → Option Trail}

theorem seq (he : Straight e f) (hd : Straight d h) : Straight (.seq e d) fun t => (f t).bind h := by
  intro t
  show _ = ((f t).bind h).toList
  rw [ways, he t]
  cases hf : f t with
  | none => simp [distinct]
  | some u => simp [hd u, distinct_toList]

theorem anchor (a : Anchor) : Straight (.anchor a) fun t => if a.holds t.place then some t else none := by
  intro t
  simp only [ways]
  split <;> rfl

end Straight

/-- The trail after a text, if that is what follows. -/
def spell : List Char → Trail → Option Trail
  | [], t => some t
  | c :: cs, t =>
    match t.place.rest with
    | [] => none
    | d :: ds => if d = c then spell cs { t with place := ⟨t.place.offset + d.utf8Size, some d, ds⟩ } else none

theorem spell_eq_some : ∀ {cs : List Char} {t u : Trail}, spell cs t = some u ↔
    ∃ rest, t.place.rest = cs ++ rest ∧ u = { t with place := t.place.pass cs rest }
  | [], ⟨⟨offset, before, rest⟩, groups⟩, u => by simp [spell, Place.pass_eq, eq_comm]
  | c :: cs, ⟨⟨offset, before, rest⟩, groups⟩, u => by
    cases rest with
    | nil => simp [spell]
    | cons d ds =>
      simp only [spell, List.cons_append, List.cons.injEq]
      split
      · next h =>
        subst h
        rw [spell_eq_some]
        simp only [Place.pass_eq, bytes_cons, true_and, List.getLast?_cons, Nat.add_assoc]
        cases cs.getLast? <;> simp
      · next h => simp [h]

/-- Reading a text is reading its first character and then the others. -/
theorem spell_cons (c : Char) (cs : List Char) : spell (c :: cs) = fun t => (spell [c] t).bind (spell cs) := by
  funext t
  simp only [spell]
  cases t.place.rest with
  | nil => rfl
  | cons d ds => by_cases h : d = c <;> simp [h]

namespace Straight

variable {e : Expr} {f : Trail → Option Trail}

theorem single (c : Char) : Straight (.one (.single c)) (spell [c]) := by
  intro t
  rw [ways, spell]
  cases t.place.rest with
  | nil => rfl
  | cons d ds => by_cases h : d = c <;> simp [CharSet.contains, spell, h]

theorem any : Straight (.one .any) fun t => t.place.next?.map fun p => { t with place := p } := by
  rintro ⟨⟨offset, before, rest⟩, groups⟩
  cases rest <;> rfl

theorem spelled (he : Straight e f) : ∀ cs : List Char,
    Straight ((cs.map fun c => Expr.one (.single c)).foldl .seq e) fun t => (f t).bind (spell cs) := by
  intro cs
  induction cs generalizing e f with
  | nil => simpa [spell] using he
  | cons c cs ih =>
    rw [spell_cons]
    simpa only [Option.bind_assoc, List.map_cons, List.foldl_cons] using ih (he.seq (single c))

theorem literal (text : String) : Straight (Stock.literal text).expr (spell text.toList) := by
  unfold Stock.literal Stock.spelled
  cases text.toList with
  | nil => exact fun t => rfl
  | cons c cs =>
    rw [spell_cons]
    exact (single c).spelled cs

theorem matchAt (he : Straight e f) (p : Place) :
    e.matchAt p = (f ⟨p, []⟩).map fun t => ⟨⟨p, t.place⟩, t.groups⟩ := by
  rw [Expr.matchAt, he]
  cases f ⟨p, []⟩ <;> rfl

end Straight

variable {text : String} {p : Place} {m : Match}

/-- **A text as a whole word** matches where it is what follows and both its ends are word edges. -/
theorem wholeWord_matchAt : (Stock.wholeWord text).expr.matchAt p = some m ↔
    ∃ rest, p.rest = text.toList ++ rest ∧ (Anchor.wordEdge false).holds p = true ∧
      (Anchor.wordEdge false).holds (p.pass text.toList rest) = true ∧
      m = ⟨⟨p, p.pass text.toList rest⟩, []⟩ := by
  have h := ((Straight.anchor (.wordEdge false)).spelled text.toList).seq (.anchor (.wordEdge false))
  have he : (Stock.wholeWord text).expr = .seq ((text.toList.map fun c => Expr.one (.single c)).foldl .seq
      (.anchor (.wordEdge false))) (.anchor (.wordEdge false)) := by
    simp [Stock.wholeWord, Stock.spelled, Expr.sequence, List.foldl_append]
  rw [he, h.matchAt]
  simp only [Option.map_eq_some_iff, Option.bind_eq_some_iff, Option.ite_none_right_eq_some, Option.some.injEq]
  constructor
  · rintro ⟨u, ⟨v, ⟨w, ⟨hw, rfl⟩, hv⟩, hu, rfl⟩, rfl⟩
    obtain ⟨rest, hr, rfl⟩ := spell_eq_some.1 hv
    exact ⟨rest, hr, hw, hu, rfl⟩
  · rintro ⟨rest, hr, hw, hu, rfl⟩
    exact ⟨_, ⟨_, ⟨_, ⟨hw, rfl⟩, spell_eq_some.2 ⟨rest, hr, rfl⟩⟩, hu, rfl⟩, rfl⟩

/-! ## Greedy repetitions -/

theorem ways_one_of_mem {set : CharSet} {t : Trail} {c : Char} {cs : List Char} (h : t.place.rest = c :: cs)
    (hc : set.contains c = true) :
    ways (.one set) t = [{ t with place := ⟨t.place.offset + c.utf8Size, some c, cs⟩ }] := by
  rw [ways, h]
  simp only [hc, if_true]

theorem ways_one_of_not_mem {set : CharSet} {t : Trail}
    (h : ∀ c cs, t.place.rest = c :: cs → set.contains c = false) : ways (.one set) t = [] := by
  rw [ways]
  split
  · rfl
  · next c cs hr => simp [h c cs hr]

theorem not_endsWith_next {t : Trail} {c : Char} {cs : List Char} :
    Trail.endsWith { t with place := ⟨t.place.offset + c.utf8Size, some c, cs⟩ } t = false := by
  have := c.utf8Size_pos
  simp [Trail.endsWith, Trail.offset]
  omega

/-- The last place that a repetition comes to is found first, and stays last in the list. -/
theorem getLast?_loop {set : CharSet} : ∀ {n : Nat} {t : Trail}, t.place.rest.length = n →
    (loop (ways (.one set)) true n t []).getLast? = some { t with place := t.place.passWhile set.contains }
  | 0, t, hn => by
    rw [Place.passWhile_stop fun c cs hr => by rw [hr] at hn; simp at hn]
    rfl
  | n + 1, t, hn => by
    obtain ⟨c, cs, hr⟩ := List.exists_cons_of_length_eq_add_one hn
    have hlen : cs.length = n := by rw [hr] at hn; simpa using hn
    simp only [loop, List.any_nil, Bool.false_eq_true, if_false, if_true]
    by_cases hc : set.contains c = true
    · have ih : (loop (ways (.one set)) true n { t with place := ⟨t.place.offset + c.utf8Size, some c, cs⟩ }
          []).getLast? = some { t with place := t.place.passWhile set.contains } := by
        rw [← Place.passWhile_cons hr hc]
        exact getLast?_loop hlen
      simp [ways_one_of_mem hr hc, not_endsWith_next, List.getLast?_cons, ih]
    · have hstop : ∀ d ds, t.place.rest = d :: ds → set.contains d = false := by
        intro d ds hd
        rw [hr] at hd
        cases hd
        simpa using hc
      simp [ways_one_of_not_mem hstop, Place.passWhile_stop hstop]

/-- **A greedy repetition** of one set of characters prefers to go on as long as it can. -/
theorem head_ways_greedy (set : CharSet) (t : Trail) :
    (ways (.rep (.one set) 0 none true) t).head? =
      some { t with place := t.place.passWhile set.contains } := by
  show (addNew t (atLeastOnce (ways (.one set)) true t [])).reverse.head? = _
  rw [List.head?_reverse, atLeastOnce]
  by_cases h : ∀ c cs, t.place.rest = c :: cs → set.contains c = false
  · rw [ways_one_of_not_mem h, Place.passWhile_stop h]
    rfl
  · simp only [not_forall, Bool.not_eq_false] at h
    obtain ⟨c, cs, hr, hc⟩ := h
    have hlast : (loop (ways (.one set)) true cs.length
        { t with place := ⟨t.place.offset + c.utf8Size, some c, cs⟩ } []).getLast? =
        some { t with place := t.place.passWhile set.contains } := by
      rw [← Place.passWhile_cons hr hc]
      exact getLast?_loop rfl
    simp only [ways_one_of_mem hr hc, List.foldl_cons, List.foldl_nil, not_endsWith_next, Bool.false_eq_true,
      if_false, addNew]
    split
    · exact hlast
    · rw [List.getLast?_cons, hlast]
      rfl

/-- A character of one set, and then characters of another as long as there are any. -/
theorem matchAt_one_greedy {first set : CharSet} {p : Place} {c : Char} {cs : List Char} (hr : p.rest = c :: cs)
    (hc : first.contains c = true) : (Expr.seq (.one first) (.rep (.one set) 0 none true)).matchAt p =
      some ⟨⟨p, Place.passWhile ⟨p.offset + c.utf8Size, some c, cs⟩ set.contains⟩, []⟩ := by
  have hone : ways (.one first) ⟨p, []⟩ = [⟨⟨p.offset + c.utf8Size, some c, cs⟩, []⟩] :=
    ways_one_of_mem hr hc
  have hhead := head_ways_greedy set ⟨⟨p.offset + c.utf8Size, some c, cs⟩, []⟩
  have hways : (ways (.seq (.one first) (.rep (.one set) 0 none true)) ⟨p, []⟩).head? =
      some ⟨Place.passWhile ⟨p.offset + c.utf8Size, some c, cs⟩ set.contains, []⟩ := by
    rw [ways, hone, head?_distinct]
    simpa using hhead
  rw [Expr.matchAt, hways]
  rfl

/-- Wherever a repetition can stop, but at the last place, it could have gone on. -/
theorem mem_loop_greedy {set : CharSet} : ∀ {n : Nat} {t u : Trail}, t.place.rest.length = n →
    u ∈ loop (ways (.one set)) true n t [] → u = { t with place := t.place.passWhile set.contains } ∨
      ∃ c cs, u.place.rest = c :: cs ∧ set.contains c = true
  | 0, t, u, hn, hu => by
    rw [Place.passWhile_stop fun c cs hr => by rw [hr] at hn; simp at hn]
    exact .inl (List.mem_singleton.1 hu)
  | n + 1, t, u, hn, hu => by
    obtain ⟨c, cs, hr⟩ := List.exists_cons_of_length_eq_add_one hn
    have hlen : cs.length = n := by rw [hr] at hn; simpa using hn
    simp only [loop, List.any_nil, Bool.false_eq_true, if_false, if_true] at hu
    by_cases hc : set.contains c = true
    · rcases List.mem_cons.1 hu with rfl | hu
      · exact .inr ⟨c, cs, hr, hc⟩
      · rw [← Place.passWhile_cons hr hc]
        simp only [ways_one_of_mem hr hc, not_endsWith_next, List.filter_cons, Bool.not_false, if_true,
          List.filter_nil, List.foldl_cons, List.foldl_nil] at hu
        exact mem_loop_greedy hlen hu
    · have hstop : ∀ d ds, t.place.rest = d :: ds → set.contains d = false := by
        intro d ds hd
        rw [hr] at hd
        cases hd
        simpa using hc
      have hut : u = t := by simpa [ways_one_of_not_mem hstop] using hu
      exact .inl (by rw [hut, Place.passWhile_stop hstop])

/-- One or more characters of a set: the last place is preferred, and at the others the repetition could have
gone on. -/
theorem ways_oneOrMore {set : CharSet} {t : Trail} {c : Char} {cs : List Char} (hr : t.place.rest = c :: cs)
    (hc : set.contains c = true) : ∃ stops, ways (.rep (.one set) 1 none true) t =
      { t with place := t.place.passWhile set.contains } :: stops ∧
      ∀ u ∈ stops, u = { t with place := t.place.passWhile set.contains } ∨
        ∃ c cs, u.place.rest = c :: cs ∧ set.contains c = true := by
  have hloop : ways (.rep (.one set) 1 none true) t = distinct (loop (ways (.one set)) true cs.length
      { t with place := ⟨t.place.offset + c.utf8Size, some c, cs⟩ } []).reverse := by
    rw [ways]
    simp [repetition, exactly, atLeastOnce, ways_one_of_mem hr hc, not_endsWith_next]
  have hlast : (loop (ways (.one set)) true cs.length
      { t with place := ⟨t.place.offset + c.utf8Size, some c, cs⟩ } []).getLast? =
      some { t with place := t.place.passWhile set.contains } := by
    rw [← Place.passWhile_cons hr hc]
    exact getLast?_loop rfl
  have hmem : ∀ u ∈ loop (ways (.one set)) true cs.length
      { t with place := ⟨t.place.offset + c.utf8Size, some c, cs⟩ } [],
      u = { t with place := t.place.passWhile set.contains } ∨
        ∃ c cs, u.place.rest = c :: cs ∧ set.contains c = true := by
    rw [← Place.passWhile_cons hr hc]
    exact fun u hu => mem_loop_greedy (t := { t with place := ⟨t.place.offset + c.utf8Size, some c, cs⟩ }) rfl hu
  obtain ⟨before, hsplit⟩ := List.getLast?_eq_some_iff.1 hlast
  rw [hloop, hsplit, List.reverse_append, List.reverse_singleton, List.singleton_append, distinct]
  refine ⟨_, rfl, fun u hu => hmem u ?_⟩
  rw [hsplit]
  exact List.mem_append_left _ (List.mem_reverse.1 (mem_distinct (List.mem_filter.1 hu).1))

/-- **One or more characters of a set**, before what no character of the set begins: the repetition goes on
as long as it can. -/
theorem matchAt_oneOrMore_seq {set : CharSet} {e : Expr} {p : Place} {c : Char} {cs : List Char}
    (he : ∀ (u : Trail) (d : Char) (ds : List Char), u.place.rest = d :: ds → set.contains d = true → ways e u = [])
    (hr : p.rest = c :: cs) (hc : set.contains c = true) :
    (Expr.seq (.rep (.one set) 1 none true) e).matchAt p =
      (e.matchAt (p.passWhile set.contains)).map fun m => ⟨⟨p, m.stop⟩, m.groups⟩ := by
  obtain ⟨stops, hways, hstops⟩ := ways_oneOrMore (t := ⟨p, []⟩) hr hc
  have hhead : (ways (.seq (.rep (.one set) 1 none true) e) ⟨p, []⟩).head? =
      (ways e ⟨p.passWhile set.contains, []⟩).head? := by
    rw [ways, head?_distinct, hways, List.flatMap_cons]
    cases hlast : ways e ⟨p.passWhile set.contains, []⟩ with
    | cons => rfl
    | nil =>
      have hnil : stops.flatMap (ways e) = [] := by
        refine List.flatMap_eq_nil_iff.2 fun u hu => ?_
        rcases hstops u hu with rfl | ⟨d, ds, hd, hmem⟩
        · exact hlast
        · exact he u d ds hd hmem
      rw [hnil]
      rfl
  rw [Expr.matchAt, Expr.matchAt, hhead, Option.map_map]
  rfl

/-! ## Preferred ways -/

/-- A sequence prefers what its first part prefers, if its second part can go on from there. -/
theorem head_ways_seq {e d : Expr} {t u : Trail} (he : (ways e t).head? = some u) (hd : ways d u ≠ []) :
    (ways (.seq e d) t).head? = (ways d u).head? := by
  obtain ⟨us, hus⟩ := List.head?_eq_some_iff.1 he
  rw [ways, head?_distinct, hus, List.flatMap_cons, List.head?_append_of_ne_nil _ hd]

/-- What may be left out is taken if it can be. -/
theorem head_ways_optional (e : Expr) (t : Trail) :
    (ways (.rep e 0 (some 1) true) t).head? = (ways e t).head?.or (some t) := by
  rw [ways, repetition, head?_distinct]
  simp only [exactly, List.flatMap_singleton, atMost, head?_distinct, if_true, List.head?_append, List.head?_cons,
    Nat.sub_zero, List.flatMap_singleton']

theorem ways_optional_ne_nil (e : Expr) (t : Trail) : ways (.rep e 0 (some 1) true) t ≠ [] := by
  intro hn
  have hhead := head_ways_optional e t
  rw [hn] at hhead
  cases he : (ways e t).head? <;> simp [he] at hhead

/-! ## What a match begins with -/

/-- Every match of the expression begins with a character of the set. -/
def Opens (e : Expr) (set : CharSet) : Prop :=
  ∀ t, ways e t ≠ [] → ∃ c cs, t.place.rest = c :: cs ∧ set.contains c = true

namespace Opens

variable {e d : Expr} {set : CharSet}

theorem one (set : CharSet) : Opens (.one set) set := by
  intro t h
  by_contra hn
  refine h (ways_one_of_not_mem fun c cs hr => ?_)
  by_contra hc
  exact hn ⟨c, cs, hr, by simpa using hc⟩

theorem mono {set' : CharSet} (h : Opens e set) (hs : ∀ c, set.contains c = true → set'.contains c = true) :
    Opens e set' := by
  intro t ht
  obtain ⟨c, cs, hr, hc⟩ := h t ht
  exact ⟨c, cs, hr, hs c hc⟩

theorem literal {text : String} {c : Char} {cs : List Char} (h : text.toList = c :: cs) :
    Opens (Stock.literal text).expr (.single c) := by
  intro t ht
  rw [Straight.literal text t, ne_eq, Option.toList_eq_nil_iff] at ht
  obtain ⟨u, hu⟩ := Option.ne_none_iff_exists'.1 ht
  obtain ⟨rest, hr, -⟩ := spell_eq_some.1 hu
  exact ⟨c, cs ++ rest, by rw [hr, h]; rfl, by simp [CharSet.contains]⟩

theorem seq (h : Opens e set) (d : Expr) : Opens (.seq e d) set := by
  intro t ht
  refine h t fun he => ht ?_
  rw [ways, he]
  rfl

theorem anchor_seq (a : Anchor) (h : Opens e set) : Opens (.seq (.anchor a) e) set := by
  intro t ht
  refine h t fun he => ht ?_
  rw [ways, ways]
  split
  · simp [he, distinct]
  · rfl

theorem oneOrMore (h : Opens e set) (greedy : Bool) : Opens (.rep e 1 none greedy) set := by
  intro t ht
  refine h t fun he => ht ?_
  simp [ways, repetition, exactly, atLeastOnce, he, distinct]

theorem matchAt (h : Opens e set) {p : Place} {m : Match} (hm : e.matchAt p = some m) :
    ∃ c cs, p.rest = c :: cs ∧ set.contains c = true := by
  refine h ⟨p, []⟩ fun hn => ?_
  rw [Expr.matchAt, hn] at hm
  cases hm

end Opens

end Lexicolor.Regex
