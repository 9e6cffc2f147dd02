/-
The class of a word. A table answers with the first class that lists the word, as the case mode
compares words (`KeywordTable.lookup_eq_find?`): both its indexes hold the words of the classes in
order, one as they are listed and one in lower case.

A valid grammar lists no word in two classes. In a grammar that tells case apart, nothing more is
needed for the order of the classes to make no difference. In one that ignores case, two classes may
list two words that are equal but for case; validation compares words as they are listed, so it does
not report this (`overlap_unreported`), and there is no other way in which a word of a valid grammar
can be in two classes (`listed_once_iff`).
-/
import Mathlib.Data.List.Basic
import Lexicolor.Grammar.Validation
import Lexicolor.Grammar.Stock

namespace Lexicolor

open Text (lowercase)

variable {t : KeywordTable} {w : String} {c d : WordClass} {ignoreCase : Bool}

namespace KeywordTable

/-- A word as it is compared. -/
def form (ignoreCase : Bool) (w : String) : String := if ignoreCase then lowercase w else w

/-- The class lists the word, or one that is equal to it in the case mode. -/
def Lists (t : KeywordTable) (ignoreCase : Bool) (c : WordClass) (w : String) : Prop :=
  ∃ v ∈ t.words c, form ignoreCase v = form ignoreCase w

instance : Decidable (t.Lists ignoreCase c w) := inferInstanceAs (Decidable (∃ v ∈ t.words c, _))

/-- The indexes are those of the lists. -/
def Indexed (t : KeywordTable) : Prop := ofSorted t.keyword t.builtIn t.literal = t

theorem ofSorted_indexed (keyword builtIn literal : List String) : (ofSorted keyword builtIn literal).Indexed := rfl

theorem ofWords_indexed (keyword builtIn literal : List String) : (ofWords keyword builtIn literal).Indexed :=
  ofSorted_indexed ..

/-! ## Looking a word up -/

/-- The entries of one class answer with the class, if a word of it has the key. -/
theorem lookup_class (f : String → String) (ws : List String) (c : WordClass) (key : String) :
    (ws.map fun w => (f w, c)).lookup key = if ∃ w ∈ ws, f w = key then some c else none := by
  induction ws with
  | nil => simp
  | cons v ws ih =>
    rw [List.map_cons, List.lookup_cons, ih]
    by_cases hv : f v = key
    · simp [hv]
    · have hk : (key == f v) = false := by simpa using fun he => hv he.symm
      simp [hk, hv]

/-- The entries of all classes answer with the first class that has the key. -/
theorem lookup_classes (f : String → String) (key : String) :
    ((t.keyword.map fun w => (f w, WordClass.keyword)) ++ (t.builtIn.map fun w => (f w, WordClass.builtIn)) ++
      (t.literal.map fun w => (f w, WordClass.literal))).lookup key =
      WordClass.all.find? fun c => decide (∃ w ∈ t.words c, f w = key) := by
  rw [List.lookup_append, List.lookup_append, lookup_class, lookup_class, lookup_class]
  simp only [WordClass.all, words, List.find?_cons, List.find?_nil]
  by_cases h1 : ∃ w ∈ t.keyword, f w = key
  · simp [h1]
  · by_cases h2 : ∃ w ∈ t.builtIn, f w = key
    · simp [h1, h2]
    · by_cases h3 : ∃ w ∈ t.literal, f w = key
      · simp [h1, h2, h3]
      · simp [h1, h2, h3]

/-- **A word has the first class that lists it**, in the case mode. -/
theorem lookup_eq_find? (h : t.Indexed) (w : String) (ignoreCase : Bool) :
    t.lookup w ignoreCase = WordClass.all.find? fun c => decide (t.Lists ignoreCase c w) := by
  have hi : t.index = (ofSorted t.keyword t.builtIn t.literal).index := congrArg index h.symm
  have hf : t.folded = (ofSorted t.keyword t.builtIn t.literal).folded := congrArg folded h.symm
  cases ignoreCase with
  | false =>
    simp only [lookup, hi, Bool.false_eq_true, if_false]
    exact lookup_classes id w
  | true =>
    simp only [lookup, hf, if_true]
    have hmap : (ofSorted t.keyword t.builtIn t.literal).folded =
        (t.keyword.map fun w => (lowercase w, WordClass.keyword)) ++
        (t.builtIn.map fun w => (lowercase w, WordClass.builtIn)) ++
        (t.literal.map fun w => (lowercase w, WordClass.literal)) := by
      simp [ofSorted, Function.comp_def]
    rw [hmap]
    exact lookup_classes lowercase (lowercase w)

/-- If only one class can list the word, it is the one that is found. -/
theorem lookup_eq_some_iff (h : t.Indexed)
    (hone : ∀ c d, t.Lists ignoreCase c w → t.Lists ignoreCase d w → c = d) :
    t.lookup w ignoreCase = some c ↔ t.Lists ignoreCase c w := by
  rw [lookup_eq_find? h]
  constructor
  · intro hc
    simpa using List.find?_some hc
  · intro hc
    cases hfind : WordClass.all.find? fun c => decide (t.Lists ignoreCase c w) with
    | none =>
      have hall : c ∈ WordClass.all := by cases c <;> simp [WordClass.all]
      have hnone := List.find?_eq_none.1 hfind c hall
      simp [hc] at hnone
    | some d =>
      have hd : t.Lists ignoreCase d w := by simpa using List.find?_some hfind
      rw [hone d c hd hc]

/-! ## Words in two classes -/

/-- Nothing is reported exactly when no word is listed, as it stands, in two classes. -/
theorem duplicates_eq_nil_iff : t.duplicates = [] ↔ ∀ w c d, w ∈ t.words c → w ∈ t.words d → c = d := by
  simp only [duplicates, shared, List.append_eq_nil_iff, List.map_eq_nil_iff, List.filter_eq_nil_iff,
    List.contains_iff_mem]
  constructor
  · rintro ⟨⟨h1, h2⟩, h3⟩ w c d hc hd
    cases c <;> cases d
    case keyword.builtIn => exact absurd hd (h1 w hc)
    case builtIn.keyword => exact absurd hc (h1 w hd)
    case keyword.literal => exact absurd hd (h2 w hc)
    case literal.keyword => exact absurd hc (h2 w hd)
    case builtIn.literal => exact absurd hd (h3 w hc)
    case literal.builtIn => exact absurd hc (h3 w hd)
    all_goals rfl
  · intro h
    refine ⟨⟨fun w hc hd => ?_, fun w hc hd => ?_⟩, fun w hc hd => ?_⟩
    · cases h w .keyword .builtIn hc hd
    · cases h w .keyword .literal hc hd
    · cases h w .builtIn .literal hc hd

end KeywordTable

namespace Grammar

variable {g : Grammar}

theorem duplicates_of_isValid (h : g.isValid = true) : g.keywords.duplicates = [] := by
  have hnil : g.problems = [] := List.isEmpty_iff.1 h
  simp only [problems, List.append_eq_nil_iff, List.map_eq_nil_iff] at hnil
  exact hnil.1.2

/-- The class lists the word, or one that is equal to it in the case mode of the grammar. -/
def Lists (g : Grammar) (c : WordClass) (w : String) : Prop := g.keywords.Lists g.caseInsensitive c w

instance : Decidable (g.Lists c w) := inferInstanceAs (Decidable (g.keywords.Lists _ c w))

theorem lists_iff_mem (h : g.caseInsensitive = false) : g.Lists c w ↔ w ∈ g.keywords.words c := by
  simp [Lists, KeywordTable.Lists, KeywordTable.form, h]

/-- The scope of a word is that of the first class that lists it, or identifier if none does. -/
theorem wordScope_eq (hk : g.keywords.Indexed) (w : String) : g.wordScope w =
    ((WordClass.all.find? fun c => decide (g.Lists c w)).map WordClass.scope).getD .identifier := by
  have hc : g.classify w = WordClass.all.find? fun c => decide (g.Lists c w) := KeywordTable.lookup_eq_find? hk ..
  rw [wordScope, ← hc]
  cases g.classify w <;> rfl

/-- **When a word is in one class only.** In a valid grammar no word is equal, in the case mode, to
words of two classes exactly if the grammar tells case apart or no two words of two classes have the
same lower case; then classifying a word says which class lists it. -/
theorem listed_once_iff (g : Grammar) (hk : g.keywords.Indexed) (hv : g.isValid = true) :
    ((∀ w c d, g.Lists c w → g.Lists d w → c = d) ↔ (g.caseInsensitive = true →
      ∀ c d, ∀ v ∈ g.keywords.words c, ∀ w ∈ g.keywords.words d, lowercase v = lowercase w → c = d)) ∧
    ((∀ w c d, g.Lists c w → g.Lists d w → c = d) → ∀ w c, g.classify w = some c ↔ g.Lists c w) := by
  have hdup := KeywordTable.duplicates_eq_nil_iff.1 (duplicates_of_isValid hv)
  refine ⟨⟨fun hone hci c d v hc w hd he => ?_, fun hclash w c d hc hd => ?_⟩, fun hone w c => ?_⟩
  · have hv : g.Lists c w := ⟨v, hc, by simp [KeywordTable.form, hci, he]⟩
    have hw : g.Lists d w := ⟨w, hd, rfl⟩
    exact hone w c d hv hw
  · obtain ⟨v, hv, hvw⟩ := hc
    obtain ⟨u, hu, huw⟩ := hd
    have he : KeywordTable.form g.caseInsensitive v = KeywordTable.form g.caseInsensitive u := hvw.trans huw.symm
    cases hci : g.caseInsensitive with
    | false =>
      have he : v = u := by simpa [KeywordTable.form, hci] using he
      exact hdup v c d hv (he ▸ hu)
    | true =>
      have he : lowercase v = lowercase u := by simpa [KeywordTable.form, hci] using he
      exact hclash hci c d v hv u hu he
  · exact KeywordTable.lookup_eq_some_iff hk (hone w)

/-- A grammar of which only the case mode and the word lists matter. -/
def listing (ignoreCase : Bool) (keyword builtIn : List String) : Grammar :=
  { (default : Grammar) with
    name := "listing"
    caseInsensitive := ignoreCase
    identifier := Stock.identifier
    keywords := .ofWords keyword builtIn [] }

/-- Words of two classes in a grammar that ignores case, no two of them equal but for case. -/
theorem listed_once_ignoring_case :
    let g := listing true ["If"] ["Print"]
    (g.keywords.Indexed ∧ g.isValid = true) ∧ (∀ w c, g.classify w = some c ↔ g.Lists c w) ∧
      g.classify "PRINT" = some .builtIn := by
  intro g
  have hk : g.keywords.Indexed := rfl
  have hv : g.isValid = true := by decide +kernel
  obtain ⟨hiff, hclassify⟩ := listed_once_iff g hk hv
  have hapart : ∀ c d, ∀ v ∈ g.keywords.words c, ∀ w ∈ g.keywords.words d, lowercase v = lowercase w → c = d := by
    intro c d
    cases c <;> cases d <;> decide +kernel
  exact ⟨⟨hk, hv⟩, hclassify (hiff.2 fun _ => hapart), by decide +kernel⟩

/-- Two words that are equal but for case, in two classes of a grammar that ignores case: the grammar
is valid, and both classes list the word. -/
theorem overlap_unreported :
    ¬ ∀ g : Grammar, g.keywords.Indexed → g.isValid = true →
      ∀ w c d, g.Lists c w → g.Lists d w → c = d := by
  intro h
  have hsame := h (listing true ["If"] ["if"]) rfl (by decide +kernel) "if" .keyword .builtIn
    (by decide +kernel) (by decide +kernel)
  cases hsame

end Grammar

end Lexicolor
