/-
Word tables as they are built. A table starts empty; words are put into its classes, as the words of a text
or one by one, and now and then the table is written down and read back (`Step`). No step fails, and each
leaves a table whose lists are sorted and whose indexes are made from the lists (`Faithful.step`). So the
words that were put in, each in its class, say all about the table (`Faithful.ext`): lookups are answered
from them, and neither their order nor repetitions leave a trace (`ofSteps_table`).

Words that two classes list are reported pair of classes by pair. Of two classes the first wins, unless the
word is also in a class before both: then the pair names a class that loses twice (`duplicates_winner_iff`).
-/
import Mathlib.Data.List.Sort
import Lexicolor.Proofs.FaithfulGrammars
import Lexicolor.Proofs.WordClasses

namespace Lexicolor

open Data (Decoded)
open Text (lowercase)

/-- The class takes precedence over the other. -/
def WordClass.Before (c d : WordClass) : Prop := [c, d].Sublist all

namespace WordClass

variable {c d : WordClass}

instance : Decidable (c.Before d) := inferInstanceAs (Decidable ([c, d].Sublist all))

theorem not_before_keyword : ¬c.Before keyword := by cases c <;> decide

theorem before_builtIn : c.Before builtIn ↔ c = keyword := by cases c <;> decide

theorem before_literal : c.Before literal ↔ c = keyword ∨ c = builtIn := by cases c <;> decide

theorem Before.ne (h : c.Before d) : d ≠ c := by
  rintro rfl
  revert h
  cases d <;> decide

/-- Of two classes one comes first. -/
theorem before_or_before (h : c ≠ d) : c.Before d ∨ d.Before c := by
  revert h
  cases c <;> cases d <;> decide

/-- Three classes, one before the other, are all that there are. -/
theorem Before.all_of_before {e : WordClass} (h : e.Before c) (h' : c.Before d) : ∀ f, f = e ∨ f = c ∨ f = d := by
  cases c with
  | keyword => exact absurd h not_before_keyword
  | builtIn =>
    obtain rfl := before_builtIn.1 h
    cases d with
    | literal => intro f; cases f <;> simp
    | _ => exact absurd h' (by decide)
  | literal => cases d <;> exact absurd h' (by decide)

end WordClass

namespace KeywordTable

variable {t t' : KeywordTable} {c d : WordClass} {w : String}

/-! ## Tables and texts -/

/-- The text of a table. -/
def toJson (t : KeywordTable) : String := Json.pretty (Grammar.Record.keywords t)

/-- The table that a text writes; nothing may follow it. -/
def ofJson (text : String) : Decoded KeywordTable := do
  let document := Json.read text
  let t ← Grammar.Record.readKeywords .top document.value
  if document.trailing then Data.failFault .malformed
  return t

theorem Faithful.ofJson_toJson (h : t.Faithful) : ofJson t.toJson = .ok t := by
  have hread : Grammar.Record.readKeywords .top (Grammar.Record.keywords t) = .ok t :=
    Grammar.Record.readKeywords_keywords rfl rfl h
  simp only [ofJson, toJson, Json.read_pretty (Grammar.Record.plain_keywords t), hread, bind, Except.bind]
  rfl

/-! ## Faithful tables -/

theorem Faithful.indexed (h : t.Faithful) : t.Indexed := by
  have hofWords : ofWords t.keyword t.builtIn t.literal = t := h
  rw [← hofWords]
  exact ofWords_indexed ..

theorem ofSorted_faithful {keyword builtIn literal : List String} (hk : keyword.Pairwise (· < ·))
    (hb : builtIn.Pairwise (· < ·)) (hl : literal.Pairwise (· < ·)) :
    (ofSorted keyword builtIn literal).Faithful := by
  have hsort : ∀ {ws : List String}, ws.Pairwise (· < ·) → sortWords ws = ws := fun h => foldl_insertWord_append h
  show ofSorted (sortWords keyword) (sortWords builtIn) (sortWords literal) = _
  rw [hsort hk, hsort hb, hsort hl]

theorem Faithful.sorted (h : t.Faithful) (c : WordClass) : (t.words c).Pairwise (· < ·) := by
  have hofWords : ofWords t.keyword t.builtIn t.literal = t := h
  rw [← hofWords]
  cases c <;> exact sortWords_sorted _

/-- **The words say all about a table.** -/
theorem Faithful.ext (h : t.Faithful) (h' : t'.Faithful) (hwords : ∀ c w, w ∈ t.words c ↔ w ∈ t'.words c) :
    t = t' := by
  have hlist : ∀ c, t.words c = t'.words c := fun c => (h.sorted c).eq_of_mem_iff (h'.sorted c) (hwords c)
  have hofWords : ofWords t.keyword t.builtIn t.literal = t := h
  have hofWords' : ofWords t'.keyword t'.builtIn t'.literal = t' := h'
  rw [← hofWords, ← hofWords']
  have hk : t.keyword = t'.keyword := hlist .keyword
  have hb : t.builtIn = t'.builtIn := hlist .builtIn
  have hl : t.literal = t'.literal := hlist .literal
  rw [hk, hb, hl]

theorem words_eq_of_beq (h : (t == t') = true) (c : WordClass) : t.words c = t'.words c := by
  have hlists : (t.keyword == t'.keyword && t.builtIn == t'.builtIn && t.literal == t'.literal) = true := h
  simp only [Bool.and_eq_true, beq_iff_eq] at hlists
  obtain ⟨⟨hk, hb⟩, hl⟩ := hlists
  cases c with
  | keyword => exact hk
  | builtIn => exact hb
  | literal => exact hl

theorem isEmpty_iff_size (h : t.Indexed) : t.isEmpty = true ↔ t.size = 0 := by
  have hindex : t.index = (ofSorted t.keyword t.builtIn t.literal).index := congrArg index h.symm
  rw [isEmpty, hindex, List.isEmpty_iff, size, ofSorted]
  simp only [List.append_eq_nil_iff, List.map_eq_nil_iff, Nat.add_eq_zero_iff, List.length_eq_zero_iff]

theorem lists_false : t.Lists false c w ↔ w ∈ t.words c := by simp [Lists, form]

theorem lists_true : t.Lists true c w ↔ ∃ v ∈ t.words c, lowercase v = lowercase w := by simp [Lists, form]

/-! ## Steps -/

/-- What is done to a table while it is built. -/
inductive Step where
  /-- The words of a text are put into a class. -/
  | addText (c : WordClass) (text : String)
  | addAll (c : WordClass) (ws : List String)
  /-- The table is written as a text and read back. -/
  | throughJson
  /-- The table is made into a record and back, whatever the record was kept in. -/
  | throughRecord

def step (t : KeywordTable) : Step → Decoded KeywordTable
  | .addText c text => .ok (t.withWords c text)
  | .addAll c ws => .ok (t.insertAll c ws)
  | .throughJson => ofJson t.toJson
  | .throughRecord => Grammar.Record.readKeywords .whole (Grammar.Record.keywords t)

/-- The table that some steps build. -/
def ofSteps (steps : List Step) : Decoded KeywordTable := steps.foldlM step empty

/-- The words that a step puts into a class. -/
def Step.added (d : WordClass) : Step → List String
  | addText c text => if d = c then Text.words text else []
  | addAll c ws => if d = c then ws else []
  | throughJson => []
  | throughRecord => []

/-- A step put the word into the class. -/
def Inserted (steps : List Step) (c : WordClass) (w : String) : Prop := ∃ s ∈ steps, w ∈ s.added c

theorem insertAll_faithful (h : t.Faithful) (c : WordClass) (ws : List String) : (t.insertAll c ws).Faithful := by
  have hsorted : ∀ d, (if d = c then ws.foldl (fun set w => insertWord w set) (t.words d) else t.words d).Pairwise
      (· < ·) := by
    intro d
    split
    · exact foldl_insertWord_sorted ws (h.sorted d)
    · exact h.sorted d
  exact ofSorted_faithful (hsorted .keyword) (hsorted .builtIn) (hsorted .literal)

theorem mem_words_insertAll (t : KeywordTable) (c d : WordClass) (ws : List String) (w : String) :
    w ∈ (t.insertAll c ws).words d ↔ w ∈ t.words d ∨ w ∈ if d = c then ws else [] := by
  have hwords : (t.insertAll c ws).words d =
      if d = c then ws.foldl (fun set w => insertWord w set) (t.words d) else t.words d := by
    cases d <;> rfl
  rw [hwords]
  split
  · exact mem_foldl_insertWord
  · simp

/-- **One step** leaves a faithful table with the words it adds. -/
theorem Faithful.step (h : t.Faithful) (s : Step) : ∃ t', t.step s = .ok t' ∧ t'.Faithful ∧
    ∀ d w, w ∈ t'.words d ↔ w ∈ t.words d ∨ w ∈ s.added d := by
  cases s with
  | addText c text => exact ⟨_, rfl, insertAll_faithful h c _, fun d w => mem_words_insertAll t c d _ w⟩
  | addAll c ws => exact ⟨_, rfl, insertAll_faithful h c ws, fun d w => mem_words_insertAll t c d ws w⟩
  | throughJson => exact ⟨t, h.ofJson_toJson, h, by simp [Step.added]⟩
  | throughRecord =>
    exact ⟨t, Grammar.Record.readKeywords_keywords rfl rfl h, h, by simp [Step.added]⟩

/-- **All steps** leave a faithful table with the words that were put in. -/
theorem ofSteps_faithful (steps : List Step) : ∃ t, ofSteps steps = .ok t ∧ t.Faithful ∧
    ∀ c w, w ∈ t.words c ↔ Inserted steps c w := by
  have hrun : ∀ {t : KeywordTable}, t.Faithful → ∃ t', steps.foldlM KeywordTable.step t = .ok t' ∧ t'.Faithful ∧
      ∀ c w, w ∈ t'.words c ↔ w ∈ t.words c ∨ Inserted steps c w := by
    induction steps with
    | nil => exact fun h => ⟨_, rfl, h, by simp [Inserted]⟩
    | cons s steps ih =>
      intro t h
      obtain ⟨t₁, hs, h₁, hadded⟩ := h.step s
      obtain ⟨t₂, hsteps, h₂, hinserted⟩ := ih h₁
      refine ⟨t₂, ?_, h₂, fun c w => ?_⟩
      · rw [List.foldlM_cons, hs]
        exact hsteps
      · rw [hinserted, hadded, or_assoc]
        simp [Inserted]
  obtain ⟨t, ht, h, hwords⟩ := hrun (t := empty) rfl
  refine ⟨t, ht, h, fun c w => ?_⟩
  have hempty : w ∉ empty.words c := by cases c <;> exact List.not_mem_nil
  rw [hwords, or_iff_right hempty]

/-- **Tables of words.** Any steps build a table. Its lists hold what was put in; a word has the first class
that lists it or, ignoring case, the first that lists a word with its lower case; and a table that lists
nothing is empty. Steps that put in the same words build the same table, and equal tables answer alike. -/
theorem ofSteps_table (steps : List Step) : ∃ t, ofSteps steps = .ok t ∧
    (∀ c w, w ∈ t.words c ↔ Inserted steps c w) ∧
    (∀ w, t.lookup w false = [.keyword, .builtIn, .literal].find? fun c => decide (w ∈ t.words c)) ∧
    (∀ w, t.lookup w true = [.keyword, .builtIn, .literal].find? fun c =>
      decide (∃ v ∈ t.words c, lowercase v = lowercase w)) ∧
    (t.isEmpty = true ↔ t.size = 0) ∧
    ∀ steps', ∃ t', ofSteps steps' = .ok t' ∧
      ((∀ c w, Inserted steps' c w ↔ Inserted steps c w) → t' = t) ∧
      ((t' == t) = true → ∀ w ignoreCase, t'.lookup w ignoreCase = t.lookup w ignoreCase) := by
  obtain ⟨t, ht, h, hwords⟩ := ofSteps_faithful steps
  refine ⟨t, ht, hwords, fun w => ?_, fun w => ?_, isEmpty_iff_size h.indexed, fun steps' => ?_⟩
  · simp only [lookup_eq_find? h.indexed, lists_false, WordClass.all]
  · simp only [lookup_eq_find? h.indexed, lists_true, WordClass.all]
  obtain ⟨t', ht', h', hwords'⟩ := ofSteps_faithful steps'
  refine ⟨t', ht', fun hsame => h'.ext h fun c w => ?_, fun hbeq w ignoreCase => ?_⟩
  · rw [hwords', hsame, hwords]
  · have heq : t' = t := h'.ext h fun c w => by rw [words_eq_of_beq hbeq]
    rw [heq]

/-! ## Words of several classes -/

theorem mem_shared {c' d' : WordClass} :
    (w, c', d') ∈ t.shared c d ↔ (c' = c ∧ d' = d) ∧ w ∈ t.words c ∧ w ∈ t.words d := by
  simp only [shared, List.mem_map, List.mem_filter, List.contains_iff_mem, Prod.mk.injEq]
  constructor
  · rintro ⟨v, hv, rfl, rfl, rfl⟩
    exact ⟨⟨rfl, rfl⟩, hv⟩
  · rintro ⟨⟨rfl, rfl⟩, hw⟩
    exact ⟨w, hw, rfl, rfl, rfl⟩

/-- **What is reported**: the words that two classes list, with the one that comes first. -/
theorem mem_duplicates_iff : (w, c, d) ∈ t.duplicates ↔ c.Before d ∧ w ∈ t.words c ∧ w ∈ t.words d := by
  simp only [duplicates, List.mem_append, mem_shared]
  constructor
  · rintro ((⟨⟨rfl, rfl⟩, hw⟩ | ⟨⟨rfl, rfl⟩, hw⟩) | ⟨⟨rfl, rfl⟩, hw⟩)
    · exact ⟨by decide, hw⟩
    · exact ⟨by decide, hw⟩
    · exact ⟨by decide, hw⟩
  · rintro ⟨hbefore, hw⟩
    cases d with
    | keyword => exact absurd hbefore WordClass.not_before_keyword
    | builtIn =>
      obtain rfl := WordClass.before_builtIn.1 hbefore
      exact .inl (.inl ⟨⟨rfl, rfl⟩, hw⟩)
    | literal =>
      rcases WordClass.before_literal.1 hbefore with rfl | rfl
      · exact .inl (.inr ⟨⟨rfl, rfl⟩, hw⟩)
      · exact .inr ⟨⟨rfl, rfl⟩, hw⟩

/-- **The class that wins** lists the word, and no class before it does. -/
theorem lookup_eq_some_iff_first (h : t.Indexed) :
    t.lookup w false = some c ↔ w ∈ t.words c ∧ ∀ e : WordClass, e.Before c → w ∉ t.words e := by
  rw [lookup_eq_find? h]
  simp only [lists_false, WordClass.all, List.find?_cons, List.find?_nil]
  by_cases hk : w ∈ t.words .keyword
  · cases c <;> simp [hk, WordClass.not_before_keyword, WordClass.before_builtIn, WordClass.before_literal]
  by_cases hb : w ∈ t.words .builtIn
  · cases c <;> simp [hk, hb, WordClass.before_builtIn, WordClass.before_literal]
  by_cases hl : w ∈ t.words .literal
  · cases c <;> simp [hk, hb, hl, WordClass.before_literal]
  · cases c <;> simp [hk, hb, hl]

/-- **The winner of a report.** The reported words are exactly those that several classes list, each reported
for every two of them with the class that comes first. That class wins unless one before it lists the word
too; so every report names the class that wins exactly if no word is in all three classes. -/
theorem duplicates_winner_iff (t : KeywordTable) (h : t.Indexed) :
    (∀ w, (∃ c d, (w, c, d) ∈ t.duplicates) ↔ ∃ c d, c ≠ d ∧ w ∈ t.words c ∧ w ∈ t.words d) ∧
    (∀ w c d, (w, c, d) ∈ t.duplicates → w ∈ t.words c ∧ w ∈ t.words d ∧ d ≠ c ∧
      (t.lookup w false = some c ↔ ∀ e : WordClass, e.Before c → w ∉ t.words e)) ∧
    ((∀ w c d, (w, c, d) ∈ t.duplicates → t.lookup w false = some c) ↔ ∀ w, ∃ c, w ∉ t.words c) := by
  refine ⟨fun w => ⟨?_, ?_⟩, fun w c d hdup => ?_, fun hfirst w => ?_, fun hmissing w c d hdup => ?_⟩
  · rintro ⟨c, d, hdup⟩
    obtain ⟨hbefore, hc, hd⟩ := mem_duplicates_iff.1 hdup
    exact ⟨c, d, hbefore.ne.symm, hc, hd⟩
  · rintro ⟨c, d, hne, hc, hd⟩
    rcases WordClass.before_or_before hne with hbefore | hbefore
    · exact ⟨c, d, mem_duplicates_iff.2 ⟨hbefore, hc, hd⟩⟩
    · exact ⟨d, c, mem_duplicates_iff.2 ⟨hbefore, hd, hc⟩⟩
  · obtain ⟨hbefore, hc, hd⟩ := mem_duplicates_iff.1 hdup
    exact ⟨hc, hd, hbefore.ne, (lookup_eq_some_iff_first h).trans (and_iff_right hc)⟩
  · -- A word of all three classes would be reported for the last two, and the second does not win.
    by_contra hall
    push Not at hall
    have hdup : (w, .builtIn, .literal) ∈ t.duplicates := mem_duplicates_iff.2 ⟨by decide, hall _, hall _⟩
    exact ((lookup_eq_some_iff_first h).1 (hfirst _ _ _ hdup)).2 .keyword (by decide) (hall _)
  · obtain ⟨hbefore, hc, hd⟩ := mem_duplicates_iff.1 hdup
    refine (lookup_eq_some_iff_first h).2 ⟨hc, fun e he hw => ?_⟩
    obtain ⟨f, hf⟩ := hmissing w
    rcases he.all_of_before hbefore f with rfl | rfl | rfl
    · exact hf hw
    · exact hf hc
    · exact hf hd

/-- Two words in two classes each: both are reported, and the class that comes first wins. -/
theorem duplicates_winner_pairs :
    let t := ofWords ["if", "print"] ["len", "print", "true"] ["true"]
    t.Indexed ∧ ("print", .keyword, .builtIn) ∈ t.duplicates ∧ ("true", .builtIn, .literal) ∈ t.duplicates ∧
      t.lookup "print" false = some .keyword ∧ t.lookup "true" false = some .builtIn := by
  intro t
  have hk : t.Indexed := rfl
  have hprint : ("print", .keyword, .builtIn) ∈ t.duplicates := by decide +kernel
  have htrue : ("true", .builtIn, .literal) ∈ t.duplicates := by decide +kernel
  obtain ⟨-, -, hfirst⟩ := duplicates_winner_iff t hk
  have hmissing : ∀ w, ∃ c, w ∉ t.words c := by
    intro w
    by_cases hw : w ∈ t.words .keyword
    · have hwords : ∀ v ∈ t.words .keyword, v ∉ t.words .literal := by decide +kernel
      exact ⟨.literal, hwords w hw⟩
    · exact ⟨.keyword, hw⟩
  have hwins := hfirst.2 hmissing
  exact ⟨hk, hprint, htrue, hwins _ _ _ hprint, hwins _ _ _ htrue⟩

/-- A word of all three classes is reported with a class that loses twice as the one that wins. -/
theorem loser_reported_winning :
    ¬ ∀ t : KeywordTable, t.Indexed → ∀ w c d, (w, c, d) ∈ t.duplicates → t.lookup w false = some c := by
  intro h
  have hwins := h (ofWords ["a"] ["a"] ["a"]) rfl "a" .builtIn .literal (by decide +kernel)
  exact absurd hwins (by decide +kernel)

end KeywordTable

end Lexicolor
