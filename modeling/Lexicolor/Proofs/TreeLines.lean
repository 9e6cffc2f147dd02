/-
The tree of lines, read back. A line ends before any line feed and says everything of its token but its
children and what lies beyond the thirtieth character of its text (`line_eq_iff`): its parts are parted by
spaces and points that none of them holds, and every escape can be told from what follows it
(`escapeChar_append_inj`). The lines stand in the order of the walk, each indented by its depth (`outline`),
and the depths of a walk decide which token is inside which (`outline_append`). So two lists of tokens are
printed alike only if they are alike as far as the lines show them (`treeviz_read_back`).
-/
import Mathlib.Data.List.Forall2
import Lexicolor.Format.Treeviz
import Lexicolor.Proofs.Nesting
import Lexicolor.Proofs.Splitting

namespace Lexicolor.Format

variable {c d : Char} {cs ds : List Char} {m n : Nat} {t u : Token} {ts us : List Token}

/-! ## Texts -/

/-- No escape begins another, and a character that stands for itself begins none. -/
theorem escapeChar_append_inj (h : escapeChar c ++ cs = escapeChar d ++ ds) : c = d ∧ cs = ds := by
  unfold escapeChar at h
  split at h <;> split at h <;> simp_all [eq_comm]

theorem escapeChar_ne_nil (c : Char) : escapeChar c ≠ [] := by
  unfold escapeChar
  split <;> simp

theorem escapeChar_newLine (c : Char) : '\n' ∉ escapeChar c := by
  unfold escapeChar
  split <;> simp_all [eq_comm]

theorem escaped_inj {cs ds : List Char} (h : cs.flatMap escapeChar = ds.flatMap escapeChar) : cs = ds := by
  induction cs generalizing ds with
  | nil =>
    cases ds with
    | nil => rfl
    | cons d ds => simp [escapeChar_ne_nil] at h
  | cons c cs ih =>
    cases ds with
    | nil => simp [escapeChar_ne_nil] at h
    | cons d ds =>
      rw [List.flatMap_cons, List.flatMap_cons] at h
      obtain ⟨rfl, hrest⟩ := escapeChar_append_inj h
      rw [ih hrest]

/-- The texts are the same, if they are shown in full, or both are cut and begin with the same characters. -/
def ShownAlike (s t : String) : Prop :=
  (s.length ≤ shownLength ∧ s = t) ∨
    (shownLength < s.length ∧ shownLength < t.length ∧ s.toList.take shownLength = t.toList.take shownLength)

theorem shorten_of_le (h : cs.length ≤ shownLength) : shorten cs = cs := if_neg (Nat.not_lt.2 h)

theorem shorten_of_lt (h : shownLength < cs.length) : shorten cs = cs.take shownLength ++ ['.', '.', '.'] := if_pos h

/-- A text that is cut is shown with more characters than any that is not. -/
theorem shorten_length : (shorten cs).length ≤ shownLength ↔ cs.length ≤ shownLength := by
  by_cases h : cs.length ≤ shownLength
  · rw [shorten_of_le h]
  · have h' := Nat.lt_of_not_le h
    simp only [shorten_of_lt h', List.length_append, List.length_take, List.length_cons, List.length_nil]
    omega

/-- **What is shown of a text** is the text or what a longer one begins with. -/
theorem shorten_eq_iff {s t : String} : shorten s.toList = shorten t.toList ↔ ShownAlike s t := by
  rw [ShownAlike, ← String.length_toList, ← String.length_toList]
  constructor
  · intro h
    have hlength : s.toList.length ≤ shownLength ↔ t.toList.length ≤ shownLength := by
      rw [← shorten_length, h, shorten_length]
    by_cases hs : s.toList.length ≤ shownLength
    · rw [shorten_of_le hs, shorten_of_le (hlength.1 hs)] at h
      exact .inl ⟨hs, String.toList_inj.1 h⟩
    · have ht := Nat.lt_of_not_le fun ht => hs (hlength.2 ht)
      have hs := Nat.lt_of_not_le hs
      rw [shorten_of_lt hs, shorten_of_lt ht] at h
      exact .inr ⟨hs, ht, List.append_cancel_right h⟩
  · rintro (⟨-, rfl⟩ | ⟨hs, ht, h⟩)
    · rfl
    · rw [shorten_of_lt hs, shorten_of_lt ht, h]

/-! ## Lines -/

/-- The characters of the line of a token: the indentation, the icon, the name of the scope, the two ends of
the range, and the text between quotes. -/
theorem line_toList (depth : Nat) (t : Token) : (line depth t).toList =
    List.replicate (2 * depth) ' ' ++ ((icon t.scope).toList ++ ' ' :: (t.scope.name.toList ++ ' ' ::
      (Nat.toDigits 10 t.start ++ '.' :: '.' :: (Nat.toDigits 10 t.stop ++ ' ' :: '"' ::
        ((shorten t.text.toList).flatMap escapeChar ++ ['"']))))) := by
  simp [line, String.toList_append]

theorem icon_single (s : Scope) : ∃ c, (icon s).toList = [c] ∧ c ≠ ' ' ∧ c ≠ '\n' := by
  cases s <;> exact ⟨_, rfl, by decide, by decide⟩

theorem name_plain (s : Scope) : ' ' ∉ s.name.toList ∧ '\n' ∉ s.name.toList := by
  cases s <;> decide

theorem name_inj {s r : Scope} (h : s.name = r.name) : s = r := by
  have hs := s.ofName?_name
  rw [h, r.ofName?_name] at hs
  exact (Option.some.inj hs).symm

/-- Digits end before a character that is none. -/
theorem toDigits_append_inj (hc : c.isDigit = false)
    (h : Nat.toDigits 10 m ++ c :: cs = Nat.toDigits 10 n ++ c :: ds) : m = n ∧ cs = ds := by
  have hdigit : ∀ {k : Nat}, ∀ d ∈ Nat.toDigits 10 k, d.isDigit = true := fun d hd =>
    Nat.isDigit_of_mem_toDigits (by omega) (by omega) hd
  have hstop : ∀ {es : List Char} d es', c :: es = d :: es' → d.isDigit = false := by
    rintro es d es' he
    exact (List.cons.inj he).1 ▸ hc
  obtain ⟨hnumber, hrest⟩ := Stock.append_eq_append_of_keep h hdigit hstop hdigit hstop
  have hvalue := congrArg (Nat.ofDigitChars 10 · 0) hnumber
  simp only [Nat.ofDigitChars_toDigits (show 1 < 10 by omega) (show 10 ≤ 10 by omega)] at hvalue
  exact ⟨hvalue, (List.cons.inj hrest).2⟩

/-- A part of a line ends at the first space. -/
theorem append_space_inj {as bs : List Char} (ha : ' ' ∉ as) (hb : ' ' ∉ bs)
    (h : as ++ ' ' :: cs = bs ++ ' ' :: ds) : as = bs ∧ cs = ds := by
  have hkeep : ∀ {es : List Char}, ' ' ∉ es → ∀ e ∈ es, decide (e ≠ ' ') = true := fun hes e he =>
    decide_eq_true fun heq => hes (heq ▸ he)
  have hstop : ∀ {es : List Char} e es', ' ' :: es = e :: es' → decide (e ≠ ' ') = false := by
    rintro es e es' he
    rw [← (List.cons.inj he).1]
    rfl
  obtain ⟨hpart, hrest⟩ := Stock.append_eq_append_of_keep h (hkeep ha) hstop (hkeep hb) hstop
  exact ⟨hpart, (List.cons.inj hrest).2⟩

/-- The tokens are alike but for their children and what their texts have beyond what is shown. -/
structure EntryAlike (t u : Token) : Prop where
  scope : t.scope = u.scope
  start : t.start = u.start
  stop : t.stop = u.stop
  text : ShownAlike t.text u.text

/-- **A line says** the depth of its token and all of the token that is shown. -/
theorem line_eq_iff : line m t = line n u ↔ m = n ∧ EntryAlike t u := by
  rw [← String.toList_inj, line_toList, line_toList]
  constructor
  · intro h
    obtain ⟨c, hc, hspace, -⟩ := icon_single t.scope
    obtain ⟨d, hd, hspace', -⟩ := icon_single u.scope
    rw [hc, hd] at h
    -- The icon ends the indentation.
    have hpad : ∀ k, ∀ e ∈ List.replicate k ' ', (e == ' ') = true := by simp
    obtain ⟨hdepth, h⟩ := Stock.append_eq_append_of_keep h (hpad _) (by simpa using hspace) (hpad _)
      (by simpa using hspace')
    obtain ⟨-, h⟩ := append_space_inj (by simpa using hspace.symm) (by simpa using hspace'.symm) h
    obtain ⟨hname, h⟩ := append_space_inj (name_plain _).1 (name_plain _).1 h
    obtain ⟨hstart, h⟩ := toDigits_append_inj (by decide) h
    obtain ⟨hstop, h⟩ := toDigits_append_inj (by decide) (List.cons.inj h).2
    have htext := escaped_inj (List.append_cancel_right (List.cons.inj h).2)
    have hlength := congrArg List.length hdepth
    simp only [List.length_replicate] at hlength
    exact ⟨by omega, name_inj (String.toList_inj.1 hname), hstart, hstop, shorten_eq_iff.1 htext⟩
  · rintro ⟨rfl, hscope, hstart, hstop, htext⟩
    rw [hscope, hstart, hstop, shorten_eq_iff.2 htext]

theorem line_ne_nil (depth : Nat) (t : Token) : (line depth t).toList ≠ [] := by simp [line_toList]

/-- **A line is one line.** -/
theorem line_newLine (depth : Nat) (t : Token) : '\n' ∉ (line depth t).toList := by
  have hdigits : ∀ k, '\n' ∉ Nat.toDigits 10 k := fun k hk =>
    absurd (Nat.isDigit_of_mem_toDigits (by omega) (by omega) hk) (by decide)
  have htext : '\n' ∉ (shorten t.text.toList).flatMap escapeChar := fun hmem => by
    obtain ⟨c, -, hc⟩ := List.mem_flatMap.1 hmem
    exact escapeChar_newLine c hc
  obtain ⟨c, hc, -, hicon⟩ := icon_single t.scope
  rw [line_toList, hc]
  simp [hicon.symm, (name_plain t.scope).2, hdigits, htext]

/-! ## The walk with its depths -/

mutual

/-- The token and all its descendants in the order of the walk, each with its depth. -/
def outlineOf (depth : Nat) : Token → List (Nat × Token)
  | ⟨scope, start, stop, text, children⟩ =>
    (depth, ⟨scope, start, stop, text, children⟩) :: outline (depth + 1) children

def outline (depth : Nat) : List Token → List (Nat × Token)
  | [] => []
  | t :: ts => outlineOf depth t ++ outline depth ts

end

theorem outlineOf_eq (depth : Nat) (t : Token) : outlineOf depth t = (depth, t) :: outline (depth + 1) t.children := by
  cases t
  rw [outlineOf]

mutual

theorem outlineOf_walk (depth : Nat) : ∀ t : Token, (outlineOf depth t).map (·.2) = t.walk
  | ⟨_, _, _, _, children⟩ => by rw [outlineOf, List.map_cons, outline_walk, Token.walk]

/-- Without the depths the outline is the walk. -/
theorem outline_walk (depth : Nat) : ∀ ts : List Token, (outline depth ts).map (·.2) = Token.walkAll ts
  | [] => rfl
  | t :: ts => by rw [outline, List.map_append, outlineOf_walk, outline_walk, Token.walkAll]

end

mutual

theorem linesOf_eq (depth : Nat) : ∀ t : Token, linesOf depth t = (outlineOf depth t).map fun e => line e.1 e.2
  | ⟨_, _, _, _, children⟩ => by rw [linesOf, outlineOf, List.map_cons, linesOfAll_eq]

/-- There is one line for each token of the walk. -/
theorem linesOfAll_eq (depth : Nat) : ∀ ts : List Token,
    linesOfAll depth ts = (outline depth ts).map fun e => line e.1 e.2
  | [] => rfl
  | t :: ts => by rw [linesOfAll, outline, List.map_append, linesOf_eq, linesOfAll_eq]

end

/-! ## Trees -/

mutual

/-- The tokens have one shape, and token by token they are alike as far as lines show. -/
def Alike : Token → Token → Prop
  | ⟨scope, start, stop, text, children⟩, u =>
    EntryAlike ⟨scope, start, stop, text, children⟩ u ∧ AllAlike children u.children

def AllAlike : List Token → List Token → Prop
  | [], [] => True
  | t :: ts, u :: us => Alike t u ∧ AllAlike ts us
  | _, _ => False

end

theorem alike_iff : Alike t u ↔ EntryAlike t u ∧ AllAlike t.children u.children := by
  cases t
  rw [Alike]

/-- The entries of two outlines are printed as the same line. -/
def LineAlike (e f : Nat × Token) : Prop := e.1 = f.1 ∧ EntryAlike e.2 f.2

/-- What follows is not so deep. -/
def Returns (depth : Nat) (es : List (Nat × Token)) : Prop := ∀ e ∈ es.head?, e.1 < depth

theorem Returns.outline {depth : Nat} {es : List (Nat × Token)} (h : Returns depth es) (ts : List Token) :
    Returns (depth + 1) (outline depth ts ++ es) := by
  cases ts with
  | nil => exact fun e he => Nat.lt_succ_of_lt (h e he)
  | cons t ts =>
    rw [Format.outline, outlineOf_eq]
    rintro e ⟨⟩
    exact Nat.lt_succ_self depth

theorem sizeOf_children_lt (t : Token) : sizeOf t.children < sizeOf t := by
  cases t
  simp only [Token.mk.sizeOf_spec]
  omega

/-- **The depths of a walk decide the trees**: what stands before all that is not so deep is inside. -/
theorem outline_append : ∀ (ts us : List Token) {depth : Nat} {es fs : List (Nat × Token)}, Returns depth es →
    Returns depth fs → List.Forall₂ LineAlike (outline depth ts ++ es) (outline depth us ++ fs) →
    AllAlike ts us ∧ List.Forall₂ LineAlike es fs
  | [], [], _, _, _, _, _, h => ⟨trivial, h⟩
  | [], u :: us, depth, es, fs, hes, _, h => by
    rw [outline, outline, outlineOf_eq, List.nil_append, List.cons_append, List.cons_append] at h
    cases h with
    | cons he _ => exact absurd he.1 (Nat.ne_of_lt (hes _ rfl))
  | t :: ts, [], depth, es, fs, _, hfs, h => by
    rw [outline, outline, outlineOf_eq, List.nil_append, List.cons_append, List.cons_append] at h
    cases h with
    | cons he _ => exact absurd he.1.symm (Nat.ne_of_lt (hfs _ rfl))
  | t :: ts, u :: us, depth, es, fs, hes, hfs, h => by
    rw [outline, outline, outlineOf_eq, outlineOf_eq, List.cons_append, List.cons_append, List.cons_append,
      List.cons_append, List.append_assoc, List.append_assoc] at h
    cases h with
    | cons hentry hrest =>
      obtain ⟨hchildren, hrest⟩ := outline_append t.children u.children (hes.outline ts) (hfs.outline us) hrest
      obtain ⟨hsiblings, hrest⟩ := outline_append ts us hes hfs hrest
      exact ⟨⟨alike_iff.2 ⟨hentry.2, hchildren⟩, hsiblings⟩, hrest⟩
termination_by ts => sizeOf ts
decreasing_by
  · have := sizeOf_children_lt t
    simp only [List.cons.sizeOf_spec]
    omega
  · simp only [List.cons.sizeOf_spec]
    omega

mutual

theorem Alike.linesOf (depth : Nat) : ∀ {t u : Token}, Alike t u → linesOf depth t = linesOf depth u
  | ⟨_, _, _, _, _⟩, ⟨_, _, _, _, _⟩, h => by
    rw [Format.linesOf, Format.linesOf, line_eq_iff.2 ⟨rfl, h.1⟩, AllAlike.linesOfAll (depth + 1) h.2]

/-- Trees that are alike are printed as the same lines. -/
theorem AllAlike.linesOfAll (depth : Nat) : ∀ {ts us : List Token}, AllAlike ts us →
    linesOfAll depth ts = linesOfAll depth us
  | [], [], _ => rfl
  | _ :: _, _ :: _, h => by rw [Format.linesOfAll, Format.linesOfAll, Alike.linesOf depth h.1, AllAlike.linesOfAll depth h.2]

end

/-- **The lines decide the trees**, as far as lines show them. -/
theorem linesOfAll_eq_iff {depth : Nat} : linesOfAll depth ts = linesOfAll depth us ↔ AllAlike ts us := by
  refine ⟨fun h => ?_, fun h => h.linesOfAll depth⟩
  have hentries : List.Forall₂ LineAlike (outline depth ts) (outline depth us) := by
    rw [linesOfAll_eq, linesOfAll_eq, ← List.forall₂_eq_eq_eq, List.forall₂_map_left_iff,
      List.forall₂_map_right_iff] at h
    exact h.imp fun e f he => line_eq_iff.1 he
  have hnone : Returns depth [] := by simp [Returns]
  have happended : List.Forall₂ LineAlike (outline depth ts ++ []) (outline depth us ++ []) := by
    rwa [List.append_nil, List.append_nil]
  exact (outline_append ts us hnone hnone happended).1

/-! ## The whole text -/

/-- **The text of some tokens** is parted by line feeds into the lines of the walk. -/
theorem splitOn_treeviz (h : ts ≠ []) :
    (treeviz ts).toList.splitOn '\n' = (linesOfAll 0 ts).map String.toList := by
  rw [treeviz, String.toList_intercalate]
  refine List.splitOn_intercalate '\n' (fun l hl => ?_) ?_
  · rw [linesOfAll_eq, List.map_map] at hl
    obtain ⟨e, -, rfl⟩ := List.mem_map.1 hl
    exact line_newLine e.1 e.2
  · obtain ⟨t, ts, rfl⟩ := List.exists_cons_of_ne_nil h
    rw [linesOfAll_eq, outline, outlineOf_eq]
    simp

theorem treeviz_cons_ne (t : Token) (ts : List Token) : treeviz (t :: ts) ≠ "" := by
  intro h
  have hsplit := splitOn_treeviz (List.cons_ne_nil t ts)
  rw [h, linesOfAll_eq, outline, outlineOf_eq] at hsplit
  have hhead := congrArg List.head? hsplit
  exact line_ne_nil 0 t (by simpa using hhead.symm)

/-- **The tree of lines can be read back.** Two lists of tokens are printed as the same text exactly if they
have one shape and, token by token, the same scope and range and texts that are shown alike; and the text of
a list that is not empty has one line for each token of the walk, in this order. -/
theorem treeviz_read_back (ts us : List Token) :
    (treeviz ts = treeviz us ↔ AllAlike ts us) ∧
    (ts ≠ [] → (treeviz ts).toList.splitOn '\n' = (outline 0 ts).map (fun e => (line e.1 e.2).toList) ∧
      (outline 0 ts).map (·.2) = Token.walkAll ts) := by
  refine ⟨⟨fun h => ?_, fun h => ?_⟩, fun h => ⟨?_, outline_walk 0 ts⟩⟩
  · cases ts with
    | nil =>
      cases us with
      | nil => trivial
      | cons u us => exact absurd h.symm (treeviz_cons_ne u us)
    | cons t ts =>
      cases us with
      | nil => exact absurd h (treeviz_cons_ne t ts)
      | cons u us =>
        have hlines := splitOn_treeviz (List.cons_ne_nil t ts)
        rw [h, splitOn_treeviz (List.cons_ne_nil u us)] at hlines
        exact linesOfAll_eq_iff.1 (List.map_injective_iff.2 (fun _ _ => String.toList_inj.1) hlines.symm)
  · rw [treeviz, treeviz, linesOfAll_eq_iff.2 h]
  · rw [splitOn_treeviz h, linesOfAll_eq, List.map_map]
    rfl

end Lexicolor.Format
