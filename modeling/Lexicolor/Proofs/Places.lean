/-
Places of one text. `Reaches p q` says that `q` is `p` or a later place of the same text; since
a place holds all that follows it, of two places reached from one the later is reached from the
earlier (`Reaches.linear`), and offsets tell them apart (`Reaches.eq_of_offset_eq`).

Words are found in a gap that has been cut out of its text, whose places know less than those
of the text itself. `Lies` is what both kinds have in common: the offset counts the bytes before
and what follows is a stretch of the text. It is all that the text of a span depends on
(`Span.text_slice`).
-/
import Lexicolor.Text.Place

namespace Lexicolor.Text

@[simp] theorem bytes_nil : bytes [] = 0 := rfl

@[simp] theorem bytes_cons (c : Char) (cs : List Char) : bytes (c :: cs) = c.utf8Size + bytes cs := rfl

@[simp] theorem bytes_append (as bs : List Char) : bytes (as ++ bs) = bytes as + bytes bs := by
  induction as with
  | nil => simp
  | cons a as ih => simp [ih, Nat.add_assoc]

theorem bytes_eq_zero {cs : List Char} : bytes cs = 0 ↔ cs = [] := by
  cases cs with
  | nil => simp
  | cons c cs => have := c.utf8Size_pos; simp; omega

theorem bytes_pos {cs : List Char} (h : cs ≠ []) : 0 < bytes cs :=
  Nat.pos_of_ne_zero fun h' => h (bytes_eq_zero.1 h')

theorem utf8ByteSize_ofList : ∀ cs : List Char, (String.ofList cs).utf8ByteSize = bytes cs
  | [] => rfl
  | c :: cs => by
    have h : String.ofList (c :: cs) = String.singleton c ++ String.ofList cs := by
      rw [← String.toList_inj]; simp
    rw [h, String.utf8ByteSize_append, utf8ByteSize_ofList cs, String.utf8ByteSize_singleton, bytes_cons]

theorem utf8ByteSize_eq_bytes (s : String) : s.utf8ByteSize = bytes s.toList := by
  rw [← utf8ByteSize_ofList, String.ofList_toList]

/-- Two stretches with which one text begins are equal if they have equally many bytes. -/
theorem eq_of_append_eq_of_bytes_eq {as bs cs ds : List Char} (h : as ++ cs = bs ++ ds)
    (hn : bytes as = bytes bs) : as = bs ∧ cs = ds := by
  induction as generalizing bs with
  | nil =>
    cases bs with
    | nil => exact ⟨rfl, h⟩
    | cons b bs => have := b.utf8Size_pos; simp at hn; omega
  | cons a as ih =>
    cases bs with
    | nil => have := a.utf8Size_pos; simp at hn; omega
    | cons b bs =>
      simp only [List.cons_append, List.cons.injEq] at h
      obtain ⟨rfl, h⟩ := h
      obtain ⟨rfl, rfl⟩ := ih h (by simpa using hn)
      exact ⟨rfl, rfl⟩

namespace Place

/-! ## Reaching a place -/

/-- `q` is `p`, or a later place of the same text. -/
def Reaches (p q : Place) : Prop := ∃ cs, p.rest = cs ++ q.rest ∧ q = p.pass cs q.rest

variable {p q r : Place}

theorem pass_eq (p : Place) (cs rest : List Char) :
    p.pass cs rest = ⟨p.offset + bytes cs, cs.getLast?.or p.before, rest⟩ := rfl

theorem pass_pass (p : Place) (as bs cs ds : List Char) :
    (p.pass as bs).pass cs ds = p.pass (as ++ cs) ds := by
  simp only [pass_eq, bytes_append, List.getLast?_append, Option.or_assoc, mk.injEq, and_true]
  omega

theorem Reaches.refl (p : Place) : p.Reaches p := ⟨[], by simp, by simp [pass_eq]⟩

theorem Reaches.pass {cs rest : List Char} (h : p.rest = cs ++ rest) : p.Reaches (p.pass cs rest) :=
  ⟨cs, h, rfl⟩

theorem Reaches.trans (h : p.Reaches q) (h' : q.Reaches r) : p.Reaches r := by
  obtain ⟨as, ha, hq⟩ := h
  obtain ⟨bs, hb, hr⟩ := h'
  refine ⟨as ++ bs, by rw [ha, hb, List.append_assoc], ?_⟩
  rw [← pass_pass p as q.rest, ← hq]
  exact hr

/-- The place after the first character that follows. -/
theorem Reaches.one {c : Char} {cs : List Char} (h : p.rest = c :: cs) :
    p.Reaches ⟨p.offset + c.utf8Size, some c, cs⟩ := ⟨[c], h, by simp [pass_eq]⟩

theorem Reaches.of_next? (h : p.next? = some q) : p.Reaches q ∧ p.offset < q.offset := by
  unfold next? at h
  split at h
  · cases h
  · next c cs hr =>
    cases h
    exact ⟨.one hr, Nat.lt_add_of_pos_right c.utf8Size_pos⟩

theorem Reaches.finish (p : Place) : p.Reaches p.finish := ⟨p.rest, by simp [Place.finish, pass_eq], rfl⟩

theorem Reaches.offset_le (h : p.Reaches q) : p.offset ≤ q.offset := by
  obtain ⟨cs, -, hq⟩ := h
  rw [hq, pass_eq]
  exact Nat.le_add_right ..

theorem Reaches.length_le (h : p.Reaches q) : q.rest.length ≤ p.rest.length := by
  obtain ⟨cs, hp, -⟩ := h
  rw [hp, List.length_append]
  exact Nat.le_add_left ..

theorem Reaches.length_lt (h : p.Reaches q) (hlt : p.offset < q.offset) :
    q.rest.length < p.rest.length := by
  obtain ⟨cs, hp, hq⟩ := h
  have hne : cs ≠ [] := by
    rintro rfl
    rw [hq] at hlt
    simp [pass_eq] at hlt
  have := List.length_pos_iff.2 hne
  rw [hp, List.length_append]
  omega

/-- Of two places reached from one, the later is reached from the earlier. -/
theorem Reaches.linear (h : p.Reaches q) (h' : p.Reaches r) (hle : q.offset ≤ r.offset) :
    q.Reaches r := by
  obtain ⟨as, ha, hq⟩ := h
  obtain ⟨bs, hb, hr⟩ := h'
  have hn : bytes as ≤ bytes bs := by
    rw [hq, hr] at hle
    simp only [pass_eq] at hle
    omega
  rw [ha] at hb
  rcases List.append_eq_append_iff.1 hb with ⟨cs, rfl, hc⟩ | ⟨cs, rfl, hc⟩
  · refine ⟨cs, hc, ?_⟩
    rw [hr, hq, pass_pass]
    rfl
  · -- `as` is the longer: it has no more bytes than `bs`, so what it has beyond `bs` is empty.
    have hcs : cs = [] := bytes_eq_zero.1 (by rw [bytes_append] at hn; omega)
    subst hcs
    rw [List.append_nil] at hq
    rw [List.nil_append] at hc
    have hqr : q = r := by rw [hq, hr, hc]
    exact hqr ▸ Reaches.refl q

theorem Reaches.eq_of_offset_eq (h : p.Reaches q) (heq : p.offset = q.offset) : p = q := by
  obtain ⟨cs, hp, hq⟩ := h
  have hcs : cs = [] := by
    rw [hq] at heq
    simp only [pass_eq] at heq
    exact bytes_eq_zero.1 (by omega)
  subst hcs
  rw [List.nil_append] at hp
  rw [hq, ← hp]
  simp [pass_eq]

/-- The place after the first character of `p` reaches all that `p` does, except `p`. -/
theorem Reaches.cons_cases {c : Char} {cs : List Char} (h : p.Reaches q) (hr : p.rest = c :: cs) :
    q = p ∨ Reaches ⟨p.offset + c.utf8Size, some c, cs⟩ q := by
  obtain ⟨ds, hp, hd⟩ := id h
  cases ds with
  | nil => exact .inl (h.eq_of_offset_eq (by rw [hd]; simp [pass_eq])).symm
  | cons d ds =>
    rw [hr] at hp
    simp only [List.cons_append, List.cons.injEq] at hp
    obtain ⟨rfl, hp⟩ := hp
    refine .inr ((Reaches.one hr).linear h ?_)
    rw [hd]
    simp only [pass_eq, bytes_cons]
    omega

theorem Reaches.eq_of_rest_nil (h : p.Reaches q) (hr : p.rest = []) : q = p := by
  obtain ⟨ds, hp, hd⟩ := id h
  rw [hr] at hp
  have hds : ds = [] := (List.append_eq_nil_iff.1 hp.symm).1
  exact (h.eq_of_offset_eq (by rw [hd, hds]; simp [pass_eq])).symm

/-- A place before the end of what follows has one of its characters before it. -/
theorem Reaches.head_mem {cs more : List Char} (h : p.Reaches q) (hr : p.rest = cs ++ more)
    (hlt : q.offset < p.offset + bytes cs) : ∃ d ds, q.rest = d :: ds ∧ d ∈ cs := by
  obtain ⟨es, hp, hq⟩ := h
  rw [hr] at hp
  rcases List.append_eq_append_iff.1 hp with ⟨fs, rfl, hm⟩ | ⟨fs, rfl, hm⟩
  · rw [hq] at hlt
    simp only [pass_eq, bytes_append] at hlt
    omega
  · cases fs with
    | nil =>
      rw [hq] at hlt
      simp only [pass_eq, List.append_nil] at hlt
      omega
    | cons d ds => exact ⟨d, ds ++ more, hm, by simp⟩

/-- Places of one text with one offset are the same place. -/
theorem Reaches.unique (h : p.Reaches q) (h' : p.Reaches r) (heq : q.offset = r.offset) : q = r :=
  (h.linear h' (Nat.le_of_eq heq)).eq_of_offset_eq heq

theorem Reaches.finish_eq (h : p.Reaches q) : q.finish = p.finish := by
  obtain ⟨cs, hp, hq⟩ := h
  have : q.finish = (p.pass cs q.rest).pass q.rest [] := by rw [← hq]; rfl
  rw [this, pass_pass, ← hp]
  rfl

theorem Reaches.to_finish (h : p.Reaches q) : q.Reaches p.finish := h.finish_eq ▸ Reaches.finish q

theorem Reaches.finish_offset (h : p.Reaches q) : q.offset ≤ p.finish.offset := h.to_finish.offset_le

theorem pass_of_ne_nil {before : Option Char} {cs rest more : List Char} (h : cs ≠ []) :
    pass ⟨p.offset, before, rest⟩ cs more = p.pass cs more := by
  rw [pass_eq, pass_eq, List.getLast?_eq_some_getLast h]
  rfl

/-- A place with text before it, counted from `p`, does not depend on what stands before `p`. -/
theorem Reaches.of_before {b : Option Char} (h : Reaches ⟨p.offset, b, p.rest⟩ q)
    (hlt : p.offset < q.offset) : p.Reaches q := by
  obtain ⟨cs, hp, hq⟩ := h
  refine ⟨cs, hp, ?_⟩
  have hne : cs ≠ [] := by
    rintro rfl
    rw [hq] at hlt
    simp [pass_eq] at hlt
  exact hq.trans (pass_of_ne_nil hne)

theorem atEnd_iff (p : Place) : p.atEnd = true ↔ p.rest = [] := by simp [atEnd]

theorem finish_of_atEnd (h : p.rest = []) : p.finish = p := by
  cases p
  simp_all [finish, pass_eq]

theorem offset_lt_finish (h : p.rest ≠ []) : p.offset < p.finish.offset := by
  have := bytes_pos h
  simp only [finish, pass_eq]
  omega

/-! ## The text between two places -/

theorem charsBelow_append (cs rest : List Char) :
    ∀ here, charsBelow (here + bytes cs) here (cs ++ rest) = cs := by
  induction cs with
  | nil => intro here; cases rest <;> simp [charsBelow]
  | cons c cs ih =>
    intro here
    have := c.utf8Size_pos
    rw [bytes_cons, List.cons_append, charsBelow, if_pos (by omega), ← Nat.add_assoc, ih]

/-- The characters between two places depend on no more than the offset of the second. -/
theorem charsTo_eq {cs rest : List Char} (hp : p.rest = cs ++ rest) (hq : q.offset = p.offset + bytes cs) :
    p.charsTo q = cs := by
  rw [charsTo, hp, hq, charsBelow_append]

theorem Reaches.rest_eq (h : p.Reaches q) : p.rest = p.charsTo q ++ q.rest := by
  obtain ⟨cs, hp, hq⟩ := h
  rw [charsTo_eq hp (by rw [hq]; rfl), hp]

theorem Reaches.offset_eq (h : p.Reaches q) : q.offset = p.offset + bytes (p.charsTo q) := by
  obtain ⟨cs, hp, hq⟩ := h
  rw [charsTo_eq hp (by rw [hq]; rfl)]
  rw [hq]
  rfl

theorem cut_pass {cs rest : List Char} (h : p.rest = cs ++ rest) :
    p.cut (p.pass cs rest) = ⟨p.offset, none, cs⟩ := by
  rw [cut, charsTo_eq h rfl]

/-- The end of a gap that has been cut out of its text has the offset of the end of the gap. -/
theorem Reaches.finish_cut (h : p.Reaches q) : (p.cut q).finish.offset = q.offset := by
  rw [h.offset_eq]
  rfl

/-! ## Places of a text -/

/-- The place stands in the text: its offset counts the bytes before it, and what it knows to
follow is a stretch of the text, if perhaps not all of it. -/
def Lies (text : List Char) (p : Place) : Prop :=
  ∃ pre post, text = pre ++ p.rest ++ post ∧ p.offset = bytes pre

variable {text : List Char}

theorem Lies.start (text : List Char) : Lies text (.start text) := ⟨[], [], by simp [Place.start]⟩

theorem Lies.reaches (h : Lies text p) (hpq : p.Reaches q) : Lies text q := by
  obtain ⟨pre, post, ht, ho⟩ := h
  refine ⟨pre ++ p.charsTo q, post, ?_, ?_⟩
  · rw [ht, hpq.rest_eq]
    simp [List.append_assoc]
  · rw [hpq.offset_eq, ho, bytes_append]

theorem Lies.cut (h : Lies text p) (hpq : p.Reaches q) : Lies text (p.cut q) := by
  obtain ⟨pre, post, ht, ho⟩ := h
  refine ⟨pre, q.rest ++ post, ?_, ho⟩
  rw [ht, hpq.rest_eq]
  simp [Place.cut, List.append_assoc]

theorem Lies.of_start_reaches (h : (Place.start text).Reaches p) : Lies text p :=
  (Lies.start text).reaches h

/-! ## Looking for an offset -/

/-- A place of the text is the first one at or after its own offset. -/
theorem Reaches.seekFrom_eq (h : p.Reaches q) : seekFrom q.offset p.offset p.before p.rest = some q := by
  induction hr : p.rest generalizing p with
  | nil =>
    obtain rfl := h.eq_of_rest_nil hr
    rw [seekFrom, if_pos (Nat.le_refl _), ← hr]
  | cons c cs ih =>
    rcases h.cons_cases hr with rfl | hq
    · rw [seekFrom, if_pos (Nat.le_refl _), ← hr]
    · have hlt : ¬ q.offset ≤ p.offset := by
        have := c.utf8Size_pos
        have := hq.offset_le
        simp only at this
        omega
      rw [seekFrom, if_neg hlt]
      exact ih hq rfl

/-- What is found when looking for an offset is a place of the text. -/
theorem reaches_of_seekFrom {n : Nat} (h : seekFrom n p.offset p.before p.rest = some q) : p.Reaches q := by
  induction hr : p.rest generalizing p with
  | nil =>
    rw [hr, seekFrom] at h
    split at h
    · cases h
      rw [← hr]
      exact .refl p
    · cases h
  | cons c cs ih =>
    rw [hr, seekFrom] at h
    split at h
    · cases h
      rw [← hr]
      exact .refl p
    · exact (Reaches.one hr).trans (ih (p := ⟨p.offset + c.utf8Size, some c, cs⟩) h rfl)

theorem finish_start_offset (text : List Char) : (Place.start text).finish.offset = bytes text := by
  simp [Place.start, finish, pass_eq]

end Place

theorem Span.offset_lt {s : Span} (h : s.start.Reaches s.stop) (hne : s.isEmpty = false) :
    s.start.offset < s.stop.offset := by
  have := h.offset_le
  simp only [Span.isEmpty, beq_eq_false_iff_ne] at hne
  omega

theorem Span.text_eq {a b : Place} {cs rest : List Char} (ha : a.rest = cs ++ rest)
    (hb : b.offset = a.offset + bytes cs) : (Span.mk a b).text = .ofList cs := by
  rw [Span.text, Place.textTo, Place.charsTo_eq ha hb]

/-- Where the text of a span stands in the text around it. -/
theorem Span.text_slice {text : List Char} {s : Span} (h : Place.Lies text s.start)
    (hs : s.start.Reaches s.stop) :
    ∃ pre post, text = pre ++ s.start.charsTo s.stop ++ post ∧ s.start.offset = bytes pre ∧
      s.stop.offset = bytes (pre ++ s.start.charsTo s.stop) := by
  obtain ⟨pre, post, ht, ho⟩ := h
  refine ⟨pre, s.stop.rest ++ post, ?_, ho, ?_⟩
  · rw [ht, hs.rest_eq]
    simp [List.append_assoc]
  · rw [hs.offset_eq, ho, bytes_append]

end Lexicolor.Text
