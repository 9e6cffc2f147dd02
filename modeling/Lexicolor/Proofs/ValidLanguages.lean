/-
Which languages are valid. A grammar is valid if it and its aliases have names, no word is in two of its
lists, and its identifier pattern matches every listed word in full (`Grammar.isValid_iff`); the built-in
language is (`Piyathon.grammar_isValid`).

A registration puts one grammar in and leaves the others, so grammars that were validated when they were
loaded keep all languages valid, whichever of them they replace and whatever reader read their patterns
(`Languages.withFiles_valid`). The check
looks at what is left in the end: it fails exactly if one of these grammars has a problem, and then it can
only have been loaded without validation (`CommandLine.check_validated`).
-/
import Lexicolor.CommandLine
import Lexicolor.Proofs.FaithfulGrammars
import Lexicolor.Proofs.Identifiers
import Lexicolor.Proofs.SortedTables
import Lexicolor.Proofs.WordClasses

namespace Lexicolor

/-! ## Valid grammars -/

theorem Grammar.isValid_iff {g : Grammar} : g.isValid = true ↔ Text.isAllBlank g.name = false ∧
    g.aliases.any Text.isAllBlank = false ∧ g.keywords.duplicates = [] ∧
    ∀ c, ∀ w ∈ g.keywords.words c, g.identifier.matchesFully w = true := by
  have hall : ∀ c, c ∈ WordClass.all := by intro c; cases c <;> decide
  rw [isValid, List.isEmpty_iff, problems]
  simp only [List.append_eq_nil_iff, List.map_eq_nil_iff, List.flatMap_eq_nil_iff, List.filter_eq_nil_iff,
    Bool.not_eq_true', Bool.not_eq_false, and_assoc, ite_eq_right_iff, List.cons_ne_nil, imp_false,
    Bool.not_eq_true, hall, true_imp_iff]

/-- The words of a table were in the list that was given for their class. -/
theorem KeywordTable.mem_words_ofWords {keyword builtIn literal : List String} {c : WordClass} {w : String}
    (h : w ∈ (ofWords keyword builtIn literal).words c) : w ∈ match c with
      | .keyword => keyword
      | .builtIn => builtIn
      | .literal => literal := by
  cases c <;> exact mem_sortWords.1 h

namespace Stock

instance : ∀ cs, Decidable (IsIdentifier cs)
  | [] => isFalse fun h => h.ne_nil rfl
  | c :: ds => decidable_of_iff (thaiLetter.contains c = true ∧ ds.all thaiLetterOrDigit.contains = true)
      (by simp [IsIdentifier])

end Stock

namespace Piyathon

/-- **The built-in language is valid.** -/
theorem grammar_isValid : grammar.isValid = true := by
  refine Grammar.isValid_iff.2 ⟨by decide +kernel, by decide +kernel, ?_, fun c w hw => ?_⟩
  · have h1 : ∀ w ∈ keywords, w ∉ builtIns := by decide +kernel
    have h2 : ∀ w ∈ keywords, w ∉ literals := by decide +kernel
    have h3 : ∀ w ∈ builtIns, w ∉ literals := by decide +kernel
    refine KeywordTable.duplicates_eq_nil_iff.2 fun w c d hc hd => ?_
    have hc := KeywordTable.mem_words_ofWords hc
    have hd := KeywordTable.mem_words_ofWords hd
    cases c <;> cases d
    case keyword.builtIn => exact absurd hd (h1 w hc)
    case builtIn.keyword => exact absurd hc (h1 w hd)
    case keyword.literal => exact absurd hd (h2 w hc)
    case literal.keyword => exact absurd hc (h2 w hd)
    case builtIn.literal => exact absurd hd (h3 w hc)
    case literal.builtIn => exact absurd hc (h3 w hd)
    all_goals rfl
  · have h1 : ∀ w ∈ keywords, Stock.IsIdentifier w.toList := by decide +kernel
    have h2 : ∀ w ∈ builtIns, Stock.IsIdentifier w.toList := by decide +kernel
    have h3 : ∀ w ∈ literals, Stock.IsIdentifier w.toList := by decide +kernel
    refine Stock.matchesFully_identifier.2 ?_
    have hw := KeywordTable.mem_words_ofWords hw
    cases c
    case keyword => exact h1 w hw
    case builtIn => exact h2 w hw
    case literal => exact h3 w hw

end Piyathon

/-! ## Valid languages -/

namespace Languages

variable {r r' : Languages} {g : Grammar} {reader : Regex.Reader} {read : String → Id Files.Entry}

/-- Every grammar that is registered is valid. -/
def AllValid (r : Languages) : Prop := ∀ e ∈ r.grammars, e.2.isValid = true

/-- One registration: what it replaces is gone, and all else stays. -/
theorem AllValid.register (h : r.AllValid) (name : String) (hg : g.isValid = true) :
    (r.register name g).AllValid := by
  intro e he
  rcases SortedTable.mem_put he with rfl | he
  · exact hg
  · exact h e he

theorem builtin_valid : builtin.AllValid := by
  have hempty : empty.AllValid := fun e he => by cases he
  exact hempty.register Piyathon.name Piyathon.grammar_isValid

theorem loadValidated_valid {path : String} (h : Grammar.loadValidated read path reader = .ok g) :
    g.isValid = true := by
  rw [Grammar.loadValidated] at h
  change (match Grammar.load read path reader with
    | .error e => .error e
    | .ok g => if g.isValid then .ok g else .error (.invalid g.problems)) = Except.ok g at h
  split at h
  · cases h
  · split at h
    · next hv => cases h; exact hv
    · cases h

/-- **Any number of files**, each validated when it is loaded. -/
theorem withFiles_valid : ∀ {paths : List String} {r : Languages}, r.AllValid →
    withFiles reader read true r paths = .ok r' → r'.AllValid
  | [], r, hr, h => by
    cases h
    exact hr
  | path :: paths, r, hr, h => by
    rw [withFiles] at h
    change (match Grammar.loadValidated read path reader with
      | .error e => .error (.grammarFile e)
      | .ok g => withFiles reader read true (r.register g.name g) paths) = Except.ok r' at h
    split at h
    · cases h
    · next g hg => exact withFiles_valid (hr.register g.name (loadValidated_valid hg)) h

theorem ofSettings_valid {s : Settings} (hs : s.validateGrammars = true) (h : ofSettings read s reader = .ok r) :
    r.AllValid := by
  rw [ofSettings, hs] at h
  exact withFiles_valid builtin_valid h

end Languages

namespace CommandLine

variable {r : Languages} {reader : Regex.Reader} {read : String → Id Files.Entry}

theorem check_code_eq_zero_iff : (check r).code = 0 ↔ r.AllValid := by
  simp [check, Languages.AllValid]

theorem check_code_ne_zero_iff : (check r).code ≠ 0 ↔ ∃ e ∈ r.grammars, e.2.isValid = false := by
  rw [ne_eq, check_code_eq_zero_iff, Languages.AllValid]
  simp

/-- Asked to check, the program ends with the check of the languages that the request leads to. -/
theorem run_check {environment : List (String × String)} {args : List String} {q : Request} {s : Settings}
    (hq : Request.ofArguments args = .ok q) (htask : q.task = .check)
    (hr : q.prepare reader read environment = .ok (s, r)) : run read environment args reader = check r := by
  rw [run, hq]
  change (match q.perform reader read environment with
    | .error e => ⟨1, "", unlines ["Error: " ++ e.message]⟩
    | .ok report => report) = check r
  have hperform : q.perform reader read environment = .ok (check r) := by
    rw [Request.perform, htask]
    change (match q.prepare reader read environment with
      | .error e => .error e
      | .ok (_, r) => .ok (check r)) = Except.ok (check r)
    rw [hr]
  rw [hperform]

/-- **The check and validation agree.** Whatever the settings name, whatever it replaces and whatever reader
reads the patterns: if grammars are validated when they are loaded, every grammar that is left is valid and
the check succeeds. In any case the check fails exactly if a grammar that is left is not valid; and this is
what the program does when it is asked to check with arguments and an environment that lead to these
settings. -/
theorem check_validated (reader : Regex.Reader) {s : Settings} (h : Languages.ofSettings read s reader = .ok r) :
    (s.validateGrammars = true → r.AllValid ∧ (check r).code = 0) ∧
    ((check r).code ≠ 0 ↔ ∃ e ∈ r.grammars, e.2.isValid = false) ∧
    (∀ environment args q, Request.ofArguments args = .ok q → q.task = .check →
      q.prepare reader read environment = .ok (s, r) → run read environment args reader = check r) := by
  refine ⟨fun hs => ?_, check_code_ne_zero_iff, fun environment args q hq htask hr => run_check hq htask hr⟩
  have hvalid := Languages.ofSettings_valid hs h
  exact ⟨hvalid, check_code_eq_zero_iff.2 hvalid⟩

/-- Two grammars for the name of the built-in language, the second of which lists a word that is none. -/
def replacing (path : String) : Id Files.Entry :=
  if path = "words.json" then
    .file "\x7b\"name\": \"PIYATHON\", \"identifier\": \"[a-z]+\", \"keywords\": \x7b\"keyword\": [\"if\"]\x7d\x7d".toUTF8
  else if path = "numbers.json" then
    .file "\x7b\"name\": \"PIYATHON\", \"identifier\": \"[a-z]+\", \"keywords\": \x7b\"keyword\": [\"12\"]\x7d\x7d".toUTF8
  else .missing

/-- A valid grammar in place of the built-in one, and one that is not and that was not validated. -/
theorem check_validated_replaced :
    ((Languages.ofSettings replacing ⟨"pi", true, ["words.json"], "json"⟩).toOption.map fun r =>
      (r.names, (check r).code)) = some (["piyathon"], 0) ∧
    ((Languages.ofSettings replacing ⟨"pi", false, ["words.json", "numbers.json"], "json"⟩).toOption.map fun r =>
      (r.names, (check r).code)) = some (["piyathon"], 1) := by
  refine ⟨?_, by decide +kernel⟩
  have hnames : (Languages.ofSettings replacing ⟨"pi", true, ["words.json"], "json"⟩).toOption.map Languages.names =
      some ["piyathon"] := by decide +kernel
  cases h : Languages.ofSettings replacing ⟨"pi", true, ["words.json"], "json"⟩ with
  | error e => rw [h] at hnames; cases hnames
  | ok r =>
    rw [h] at hnames
    have hcode := ((check_validated Regex.Expr.read h).1 rfl).2
    simpa [hcode, Except.toOption] using hnames

end CommandLine

end Lexicolor
