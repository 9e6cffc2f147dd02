/-
How a loader is prepared, step by step. A step adds a file or a grammar, renames the environment or sets a
value (`Loader.step`). Steps that succeed leave in the loader what they say, each kind in the order in which
it was called (`Loader.ofSteps_eq`). So files and other steps do not see each other: only the order among
the files and the order among the others count (`buildSteps_congr`).

Built settings are the decoded values of all layers, with the paths of their grammars taken from a
directory and the grammars of the steps after them (`buildSteps_eq_ok`).
-/
import Lexicolor.Settings.Loader

namespace Lexicolor.Settings

/-- One call of whoever prepares a loader. -/
inductive Step where
  | file (path : String) (required : Bool)
  | environmentName (name : String)
  | grammarFile (path : String)
  | set (key : String) (value : Value)

namespace Step

/-- The choice of a format, which sets a value. -/
def format (name : String) : Step := .set "output.format" (.text .program name)

/-- The file that a step adds, and whether it must be there. -/
@[simp] def file? : Step → Option (String × Bool)
  | file path required => some (path, required)
  | _ => none

@[simp] def grammarFile? : Step → Option String
  | grammarFile path => some path
  | _ => none

@[simp] def environmentName? : Step → Option String
  | environmentName name => some name
  | _ => none

/-- What a step sets, and where; nothing under a key that is no path. -/
@[simp] def override? : Step → Option (KeyPath × Value)
  | set key value => (KeyPath.read? key).map (·, value)
  | _ => none

/-- A step that sets something does so under a path. -/
@[simp] def isProper : Step → Bool
  | set key _ => (KeyPath.read? key).isSome
  | _ => true

end Step

/-- A path taken from a directory, if there is one. -/
def placedIn (directory : Option String) (path : String) : String :=
  match directory with
  | some dir => Files.join dir path
  | none => path

namespace Loader

variable {l : Loader} {s : Step} {steps steps' : List Step}

def step (l : Loader) : Step → Except SettingsError Loader
  | .file path true => .ok (l.withFile path)
  | .file path false => .ok (l.withOptionalFile path)
  | .environmentName name => .ok (l.withEnvironmentName name)
  | .grammarFile path => .ok (l.withGrammarFile path)
  | .set key value => l.set key value

/-- The loader after some steps; the first step that fails ends them. -/
def ofSteps (steps : List Step) : Except SettingsError Loader := steps.foldlM step start

/-! ## What steps leave in a loader -/

/-- What the caller has set, with one more setting: its path comes last, and only once. -/
def overriding (overrides : List (KeyPath × Value)) (p : KeyPath × Value) : List (KeyPath × Value) :=
  overrides.filter (·.1 != p.1) ++ [p]

theorem mem_foldl_overriding {p : KeyPath × Value} {ps : List (KeyPath × Value)} : ∀ {overrides : List (KeyPath × Value)},
    p ∈ ps.foldl overriding overrides → p ∈ overrides ∨ p ∈ ps := by
  induction ps with
  | nil => exact fun h => .inl h
  | cons q ps ih =>
    intro overrides h
    rcases ih h with h | h
    · rcases List.mem_append.1 h with h | h
      · exact .inl (List.mem_filter.1 h).1
      · exact .inr (List.mem_singleton.1 h ▸ List.mem_cons_self)
    · exact .inr (List.mem_cons_of_mem _ h)

/-- An override among others is still there, once, after overrides of other paths. -/
theorem foldl_overriding_middle {p : KeyPath × Value} {ps : List (KeyPath × Value)} (h : ∀ q ∈ ps, q.1 ≠ p.1) :
    ∀ before behind : List (KeyPath × Value), ∃ before' behind',
      ps.foldl overriding (before ++ behind) = before' ++ behind' ∧
      ps.foldl overriding (before ++ p :: behind) = before' ++ p :: behind' := by
  induction ps with
  | nil => exact fun before behind => ⟨before, behind, rfl, rfl⟩
  | cons q ps ih =>
    intro before behind
    have hkept : (p.1 != q.1) = true := by simpa using (h q List.mem_cons_self).symm
    have hq : overriding (before ++ behind) q = before.filter (·.1 != q.1) ++ overriding behind q := by
      simp [overriding]
    have hq' : overriding (before ++ p :: behind) q = before.filter (·.1 != q.1) ++ p :: overriding behind q := by
      rw [overriding, List.filter_append, List.filter_cons, if_pos hkept, List.append_assoc, List.cons_append]
      rfl
    rw [List.foldl_cons, List.foldl_cons, hq, hq']
    exact ih (fun q' hq' => h q' (List.mem_cons_of_mem _ hq')) _ _

/-- The loader with everything that some steps say, kind by kind. -/
def after (l : Loader) (steps : List Step) : Loader where
  files := l.files ++ steps.filterMap Step.file?
  overrides := (steps.filterMap Step.override?).foldl overriding l.overrides
  environmentName := (steps.filterMap Step.environmentName?).getLast?.getD l.environmentName
  grammarFiles := l.grammarFiles ++ steps.filterMap Step.grammarFile?

theorem after_nil : l.after [] = l := by simp [after]

theorem after_singleton (l : Loader) (s : Step) : l.after [s] = {
    files := l.files ++ s.file?.toList
    overrides := s.override?.toList.foldl overriding l.overrides
    environmentName := s.environmentName?.getD l.environmentName
    grammarFiles := l.grammarFiles ++ s.grammarFile?.toList } := by
  have htoList : ∀ {α : Type} (f : Step → Option α), [s].filterMap f = (f s).toList := by
    intro α f
    rw [List.filterMap_cons]
    cases f s <;> rfl
  simp only [after, htoList]
  cases s.environmentName? <;> rfl

theorem after_cons : l.after (s :: steps) = (l.after [s]).after steps := by
  rw [← List.singleton_append]
  simp only [after, List.filterMap_append, List.append_assoc, List.foldl_append, List.getLast?_append]
  cases (steps.filterMap Step.environmentName?).getLast? <;> rfl

theorem step_eq (l : Loader) (s : Step) :
    l.step s = if s.isProper then .ok (l.after [s]) else .error .badKey := by
  rw [after_singleton]
  cases s with
  | file path required => cases required <;> simp [step, withFile, withOptionalFile]
  | environmentName name => simp [step, withEnvironmentName]
  | grammarFile path => simp [step, withGrammarFile]
  | set key value =>
    simp only [step, Loader.set, Step.isProper, Step.file?, Step.override?, Step.environmentName?, Step.grammarFile?]
    split <;> simp [*, overriding]

theorem foldlM_step (l : Loader) (steps : List Step) :
    steps.foldlM step l = if steps.all Step.isProper then .ok (l.after steps) else .error .badKey := by
  induction steps generalizing l with
  | nil => simp [after_nil, pure, Except.pure]
  | cons s steps ih =>
    rw [List.foldlM_cons, step_eq, List.all_cons, @after_cons l s steps]
    cases s.isProper with
    | false => rfl
    | true => exact ih (l.after [s])

/-- **All steps**: a loader that holds what they say, unless one of them is not proper. -/
theorem ofSteps_eq (steps : List Step) :
    ofSteps steps = if steps.all Step.isProper then .ok (start.after steps) else .error .badKey :=
  foldlM_step start steps

theorem ofSteps_eq_ok : ofSteps steps = .ok l ↔ steps.all Step.isProper = true ∧ l = start.after steps := by
  rw [ofSteps_eq]
  split <;> simp [*, eq_comm]

/-! ## The order of the steps -/

/-- The steps that add a file, in their order. -/
def fileSteps (steps : List Step) : List Step := steps.filter (·.file?.isSome)

/-- The steps that add no file, in their order. -/
def otherSteps (steps : List Step) : List Step := steps.filter (·.file?.isNone)

theorem filterMap_fileSteps : (fileSteps steps).filterMap Step.file? = steps.filterMap Step.file? := by
  rw [fileSteps, List.filterMap_filter]
  congr 1
  funext s
  cases s.file? <;> rfl

/-- What files do not say is found among the other steps. -/
theorem filterMap_otherSteps {α : Type} {f : Step → Option α} (hf : ∀ s, s.file?.isSome → f s = none) :
    (otherSteps steps).filterMap f = steps.filterMap f := by
  rw [otherSteps, List.filterMap_filter]
  congr 1
  funext s
  cases hs : s.file? with
  | none => rfl
  | some x => exact (hf s (by rw [hs]; rfl)).symm

theorem all_isProper_otherSteps : (otherSteps steps).all Step.isProper = steps.all Step.isProper := by
  rw [otherSteps, List.all_filter]
  congr 1
  funext s
  cases s <;> rfl

/-- **The files and the other steps do not see each other**: any two orders in which the files come in one
order and the other steps come in one order leave the same loader, or fail alike. -/
theorem ofSteps_congr (hfiles : fileSteps steps = fileSteps steps') (hothers : otherSteps steps = otherSteps steps') :
    ofSteps steps = ofSteps steps' := by
  have hkind : ∀ {α : Type} {f : Step → Option α}, (∀ s, s.file?.isSome → f s = none) →
      steps.filterMap f = steps'.filterMap f := fun hf => by
    rw [← filterMap_otherSteps hf, hothers, filterMap_otherSteps hf]
  have hfile : steps.filterMap Step.file? = steps'.filterMap Step.file? := by
    rw [← filterMap_fileSteps, hfiles, filterMap_fileSteps]
  have hname := @hkind _ Step.environmentName? fun s hs => by cases s <;> first | rfl | cases hs
  have hgrammar := @hkind _ Step.grammarFile? fun s hs => by cases s <;> first | rfl | cases hs
  have hover := @hkind _ Step.override? fun s hs => by cases s <;> first | rfl | cases hs
  rw [ofSteps_eq, ofSteps_eq, ← all_isProper_otherSteps, hothers, all_isProper_otherSteps]
  simp only [after, hfile, hname, hgrammar, hover]

end Loader

/-! ## What the files give -/

variable {read : String → Id Files.Entry} {root root' : Value}

/-- The layer of a file; nothing if it cannot be read. -/
def layerOf (read : String → Id Files.Entry) (f : String × Bool) : List (String × Value) :=
  match (fileLayer read f.1 f.2).run with
  | .error _ => []
  | .ok layer => layer

/-- **Layered files**: the layers over each other, in their order; none of them fails. -/
theorem overlayFiles_eq_ok {files : List (String × Bool)} (h : (overlayFiles read root files).run = .ok root') :
    root' = (files.map (layerOf read)).foldl Value.overlay root ∧
    ∀ f ∈ files, (fileLayer read f.1 f.2).run = .ok (layerOf read f) := by
  induction files generalizing root with
  | nil =>
    cases h
    exact ⟨rfl, fun f hf => absurd hf List.not_mem_nil⟩
  | cons f files ih =>
    obtain ⟨path, required⟩ := f
    rw [overlayFiles] at h
    change (match (fileLayer read path required).run with
      | .error e => .error e
      | .ok layer => (overlayFiles read (root.overlay layer) files).run) = Except.ok root' at h
    split at h
    · cases h
    next layer hlayer =>
    have hof : layerOf read (path, required) = layer := by rw [layerOf, hlayer]
    obtain ⟨hroot, hfiles⟩ := ih h
    refine ⟨by rw [hroot, List.map_cons, List.foldl_cons, hof], fun f hf => ?_⟩
    rcases List.mem_cons.1 hf with rfl | hf
    · rw [hof]
      exact hlayer
    · exact hfiles f hf

/-! ## Built settings -/

variable {environment : List (String × String)} {steps steps' : List Step} {s given : Settings}

/-- The settings that some steps lead to. -/
def buildSteps (read : String → Id Files.Entry) (environment : List (String × String)) (steps : List Step) :
    Decoded Settings :=
  match Loader.ofSteps steps with
  | .error e => .error e
  | .ok l => l.build read environment

theorem buildSteps_congr (hfiles : Loader.fileSteps steps = Loader.fileSteps steps')
    (hothers : Loader.otherSteps steps = Loader.otherSteps steps') :
    buildSteps read environment steps = buildSteps read environment steps' := by
  rw [buildSteps, buildSteps, Loader.ofSteps_congr hfiles hothers]

/-- The settings as the layers give them, before a path is taken from a directory. -/
def configured (read : String → Id Files.Entry) (environment : List (String × String)) (steps : List Step) :
    Decoded Settings :=
  match ((Loader.start.after steps).values read environment).run with
  | .error e => .error e
  | .ok root => decode root

theorem configured_eq_ok : configured read environment steps = .ok given ↔
    ∃ root, ((Loader.start.after steps).values read environment).run = .ok root ∧ decode root = .ok given := by
  rw [configured]
  split <;> simp [*]

/-- The files that the steps add, in their order. -/
def files (steps : List Step) : List (String × Bool) := steps.filterMap Step.file?

/-- **The values of all layers**: the files over the defaults, the environment over them, and on top what
the caller has set. -/
theorem values_eq_ok (h : ((Loader.start.after steps).values read environment).run = .ok root) :
    root = ((Loader.start.after steps).overrides.foldl (fun root (path, v) => path.set v root)
      ((((files steps).map (layerOf read)).foldl Value.overlay (Value.emptyTable.overlay defaults)).overlay
        (Environment.layer (Loader.start.after steps).environmentName environment))) ∧
    ∀ f ∈ files steps, (fileLayer read f.1 f.2).run = .ok (layerOf read f) := by
  rw [Loader.values] at h
  change (match (overlayFiles read (Value.emptyTable.overlay defaults) (files steps)).run with
    | .error e => .error e
    | .ok root => .ok ((Loader.start.after steps).overrides.foldl (fun root (path, v) => path.set v root)
        (root.overlay (Environment.layer (Loader.start.after steps).environmentName environment)))) =
    Except.ok root at h
  split at h
  · cases h
  next base hbase =>
  obtain ⟨rfl, hfiles⟩ := overlayFiles_eq_ok hbase
  exact ⟨(Except.ok.inj h).symm, hfiles⟩

theorem Loader.finish_eq (l : Loader) (base : Option String) (given : Settings) : l.finish base given =
    if Text.isAllBlank given.defaultLanguage then .error .blankLanguage
    else .ok { given with grammarFiles := given.grammarFiles.map (placedIn base) ++ l.grammarFiles } := rfl

/-- **Built settings** are what the layers give, with the paths of grammars taken from the directory of the
files and the grammars of the steps behind them. -/
theorem buildSteps_eq_ok (h : buildSteps read environment steps = .ok s) :
    ∃ given, configured read environment steps = .ok given ∧ Text.isAllBlank given.defaultLanguage = false ∧
      s = { given with
        grammarFiles := given.grammarFiles.map (placedIn (baseFrom read none (files steps))) ++
          steps.filterMap Step.grammarFile? } := by
  rw [buildSteps] at h
  cases hl : Loader.ofSteps steps with
  | error e => rw [hl] at h; cases h
  | ok l =>
  obtain ⟨-, rfl⟩ := Loader.ofSteps_eq_ok.1 hl
  rw [hl] at h
  change ((Loader.start.after steps).build read environment).run = .ok s at h
  rw [Loader.build, Id.run_bind] at h
  cases hroot : ((Loader.start.after steps).values read environment).run with
  | error e => rw [hroot] at h; cases h
  | ok root =>
  rw [hroot] at h
  cases hgiven : decode root with
  | error e => simp only [hgiven] at h; cases h
  | ok given =>
  simp only [hgiven] at h
  change (Loader.start.after steps).finish (baseFrom read none (files steps)).run given = .ok s at h
  rw [Loader.finish_eq] at h
  split at h
  · cases h
  next hblank =>
    exact ⟨given, configured_eq_ok.2 ⟨root, hroot, hgiven⟩, by simpa using hblank, (Except.ok.inj h).symm⟩

end Lexicolor.Settings
