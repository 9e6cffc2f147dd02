/-
Paths and their directories. Slashes and single points at the end of a path name nothing
(`filter_splitAt_dropTrailing`), so a path that names a file lies in a directory, and with an extension it
lies in the same one (`parent?_withExtension?`). A directory has no slash at its end unless it is the root
(`parent?_trim`); two directories that place one relative path alike are therefore the same (`join_inj`).
-/
import Lexicolor.Files.Path

namespace Lexicolor.Files

variable {path base base' dir : String}

/-! ## Components -/

theorem splitAt_ne_nil (p : Char → Bool) : ∀ cs, splitAt p cs ≠ []
  | [] => List.cons_ne_nil _ _
  | c :: cs => by
    rw [splitAt]
    split
    · exact List.cons_ne_nil _ _
    · split <;> exact List.cons_ne_nil _ _

/-- A separator parts the pieces before it from those after it. -/
theorem splitAt_append {p : Char → Bool} {c : Char} (hc : p c = true) (ds : List Char) :
    ∀ cs, splitAt p (cs ++ c :: ds) = splitAt p cs ++ splitAt p ds
  | [] => by
    obtain ⟨piece, rest, h⟩ := List.exists_cons_of_ne_nil (splitAt_ne_nil p ds)
    simp [splitAt, h, hc]
  | d :: cs => by
    obtain ⟨piece, rest, h⟩ := List.exists_cons_of_ne_nil (splitAt_ne_nil p cs)
    rw [List.cons_append, splitAt, splitAt, splitAt_append hc ds cs, h]
    cases p d <;> rfl

/-- A piece names something or goes up. -/
def isComponent (c : List Char) : Bool := !c.isEmpty && c != ['.']

theorem components_eq (path : String) : components path = (splitAt isSlash path.toList).filter isComponent := rfl

/-- What is dropped at the end of a path names nothing. -/
theorem filter_splitAt_dropTrailing (n : Nat) (cs : List Char) :
    (splitAt isSlash (dropTrailing n cs)).filter isComponent = (splitAt isSlash cs).filter isComponent := by
  induction n generalizing cs with
  | zero => rfl
  | succ n ih =>
    rw [dropTrailing]
    split
    · next x rest h =>
      have hcs : cs = (x :: rest).reverse ++ '/' :: [] := by rw [← List.reverse_cons, ← h, List.reverse_reverse]
      rw [ih, hcs, List.dropLast_concat, splitAt_append rfl]
      simp [splitAt, isComponent]
    · next rest h =>
      have hcs : cs = rest.reverse ++ '/' :: ['.'] := by simpa using congrArg List.reverse h
      split
      · next hrest =>
        rw [hcs, List.isEmpty_iff.1 hrest]
        rfl
      · have hdrop : cs.dropLast.dropLast = rest.reverse := by
          rw [hcs, List.append_cons, List.dropLast_concat, List.dropLast_concat]
        rw [ih, hdrop, hcs, splitAt_append rfl]
        simp [splitAt, isComponent, isSlash]
    · rfl

/-- A path that names a file is not all slashes and points. -/
theorem trimmed_of_fileName? {name : List Char} (h : fileName? path = some name) :
    dropTrailing path.toList.length path.toList ≠ [] ∧ dropTrailing path.toList.length path.toList ≠ ['/'] := by
  have hcomponents : components path ≠ [] := fun he => by simp [fileName?, he] at h
  rw [components_eq, ← filter_splitAt_dropTrailing path.toList.length] at hcomponents
  constructor <;> intro he <;> rw [he] at hcomponents <;> exact hcomponents (by decide)

/-! ## Directories -/

theorem dropTrailing_slash {n : Nat} {cs : List Char} (hn : cs.length ≤ n)
    (h : (dropTrailing n cs).getLast? = some '/') : dropTrailing n cs = ['/'] := by
  induction n generalizing cs with
  | zero =>
    rw [List.length_eq_zero_iff.1 (Nat.le_zero.1 hn)] at h
    cases h
  | succ n ih =>
    rw [dropTrailing] at h ⊢
    split at h
    · exact ih (by simp; omega) h
    · split at h
      · next hrest => rw [if_pos hrest]
      · next hrest =>
        rw [if_neg hrest]
        exact ih (by simp; omega) h
    · next hslash _ =>
      have hrev : cs.reverse.head? = some '/' := by rw [List.head?_reverse, h]
      cases hcs : cs.reverse with
      | nil => rw [hcs] at hrev; cases hrev
      | cons c ds =>
        rw [hcs] at hrev
        cases hrev
        cases ds with
        | nil => simpa using congrArg List.reverse hcs
        | cons d ds => exact absurd hcs (hslash d ds)

/-- A text without a slash at its end, or the root. -/
def Trim (base : String) : Prop := base.toList.getLast?.any isSlash = true → base = "/"

/-- **A directory has no slash at its end**, unless it is the root. -/
theorem parent?_trim (h : parent? path = some dir) : Trim dir := by
  intro hslash
  rw [parent?] at h
  split at h
  · cases h
  · cases h
    rw [String.toList_ofList] at hslash
    obtain ⟨c, hc, hcslash⟩ := (Option.any_eq_true _ _).1 hslash
    rw [eq_of_beq hcslash] at hc
    rw [dropTrailing_slash (Nat.le_refl _) hc]

/-- The path up to its last slash, without what is dropped at the end. -/
def directoryOf (cs : List Char) : String :=
  let kept := (cs.reverse.dropWhile (!isSlash ·)).reverse
  String.ofList (dropTrailing kept.length kept)

theorem parent?_eq (path : String) : parent? path =
    if dropTrailing path.toList.length path.toList = [] ∨ dropTrailing path.toList.length path.toList = ['/'] then none
    else some (directoryOf (dropTrailing path.toList.length path.toList)) := by
  simp [parent?, directoryOf]

/-- **A path and the path with the usual extension** lie in one directory. -/
theorem parent?_withExtension? {found : String} (h : withExtension? path "toml" = some found) :
    parent? found = parent? path := by
  obtain ⟨name, hname, hfound⟩ := Option.map_eq_some_iff.1 h
  obtain ⟨hne, hroot⟩ := trimmed_of_fileName? hname
  rw [parent?_eq path, if_neg (not_or.2 ⟨hne, hroot⟩)]
  simp only at hfound
  generalize dropTrailing path.toList.length path.toList = trimmed at hfound ⊢
  have hchars : found.toList = trimmed ++ ".toml".toList := by simp [← hfound]
  have hrev : found.toList.reverse = 'l' :: 'm' :: 'o' :: 't' :: '.' :: trimmed.reverse := by simp [hchars]
  have hkeep : dropTrailing found.toList.length found.toList = found.toList := by
    cases hlength : found.toList.length with
    | zero => rfl
    | succ n =>
      rw [dropTrailing]
      split
      · next heq => rw [hrev] at heq; cases heq
      · next heq => rw [hrev] at heq; cases heq
      · rfl
  have hlong : ¬(found.toList = [] ∨ found.toList = ['/']) := by
    rintro (he | he) <;> rw [he] at hrev <;> cases hrev
  rw [parent?_eq, hkeep, if_neg hlong, directoryOf, hrev, directoryOf]
  simp [isSlash]

/-! ## Joined paths -/

/-- What joining puts before a relative path. -/
def lead (base : String) : List Char :=
  if base.isEmpty then [] else if base.toList.getLast?.any isSlash then base.toList else base.toList ++ ['/']

theorem join_absolute (h : isAbsolute path = true) : join base path = path := by simp [join, h]

theorem toList_join (h : isAbsolute path = false) : (join base path).toList = lead base ++ path.toList := by
  rw [join, h, lead, Bool.false_or]
  split
  · rfl
  · split <;> simp

theorem Trim.lead_cases (h : Trim base) : (base = "" ∧ lead base = []) ∨ (base = "/" ∧ lead base = ['/']) ∨
    (base ≠ "" ∧ lead base = base.toList ++ ['/']) := by
  by_cases hempty : base = ""
  · exact .inl ⟨hempty, by rw [hempty]; rfl⟩
  · by_cases hroot : base = "/"
    · exact .inr (.inl ⟨hroot, by rw [hroot]; rfl⟩)
    · have hlast : ¬base.toList.getLast?.any isSlash = true := fun hl => hroot (h hl)
      exact .inr (.inr ⟨hempty, by rw [lead, if_neg (by simpa using hempty), if_neg hlast]⟩)

theorem Trim.lead_inj (h : Trim base) (h' : Trim base') (heq : lead base = lead base') : base = base' := by
  have hshort : ∀ {b : String}, b ≠ "" → b.toList ++ ['/'] ≠ ['/'] := by
    intro b hb he
    exact hb (by simpa using he)
  rcases h.lead_cases with ⟨rfl, hl⟩ | ⟨rfl, hl⟩ | ⟨hne, hl⟩ <;>
    rcases h'.lead_cases with ⟨rfl, hl'⟩ | ⟨rfl, hl'⟩ | ⟨hne', hl'⟩ <;>
    replace heq := hl.symm.trans (heq.trans hl')
  case inl.inl | inr.inl.inr.inl => rfl
  case inr.inl.inr.inr => exact absurd heq.symm (hshort hne')
  case inr.inr.inr.inl => exact absurd heq (hshort hne)
  case inr.inr.inr.inr => exact String.toList_inj.1 (List.append_cancel_right heq)
  all_goals simp at heq

/-- **Directories that place one relative path alike** are the same. -/
theorem Trim.join_inj (h : Trim base) (h' : Trim base') (hpath : isAbsolute path = false)
    (heq : join base path = join base' path) : base = base' := by
  have hchars := congrArg String.toList heq
  rw [toList_join hpath, toList_join hpath] at hchars
  exact h.lead_inj h' (List.append_cancel_right hchars)

end Lexicolor.Files
