/-
Where the paths of grammars lead. A file is layered from its path or, where no file is, from the path with
the usual extension; a file that need not be there and is no text gives nothing (`layeredAt?`). The paths in
the settings are meant to be taken from the directory of the last file that was layered. The loader takes
them from that of the last file that must be there or is there under its own name, which is the same
directory unless a file that need not be there is found under the usual extension only, or is no text
(`grammarFiles_placed_iff`).
-/
import Lexicolor.Proofs.LoaderSteps
import Lexicolor.Proofs.FilePaths

namespace Lexicolor.Settings

open Files (isAbsolute parent? Trim)

variable {read : String → Id Files.Entry} {environment : List (String × String)} {steps : List Step}
  {s : Settings} {path found : String} {fs : List (String × Bool)} {d d' : Option String}

/-! ## Files that are layered -/

theorem findFile_eq (read : String → Id Files.Entry) (path : String) : (findFile read path).run =
    if (read path).run.isFile then some (path, (read path).run)
    else match Files.withExtension? path "toml" with
      | none => none
      | some found => if (read found).run.isFile then some (found, (read found).run) else none := by
  unfold findFile
  change (if (read path).run.isFile = true then some (path, (read path).run)
    else (match Files.withExtension? path "toml" with
      | none => pure none
      | some path => do
        let entry ← read path
        return if entry.isFile then some (path, entry) else none : Id (Option (String × Files.Entry))).run) = _
  cases Files.withExtension? path "toml" <;> rfl

/-- The path at which a file is found whose contents are layered: the path itself or, where no file is, the
path with the usual extension. None if there is no file, or none that is a text. -/
def layeredAt? (read : String → Id Files.Entry) (path : String) : Option String :=
  match (findFile read path).run with
  | some (found, entry) => if entry.text.isOk then some found else none
  | none => none

/-- A file that must be there is layered, or the layers fail. -/
theorem layeredAt?_isSome {layer : List (String × Value)} (h : (fileLayer read path true).run = .ok layer) :
    (layeredAt? read path).isSome = true := by
  unfold fileLayer at h
  rw [Id.run_bind] at h
  rw [layeredAt?]
  cases hfind : (findFile read path).run with
  | none => rw [hfind] at h; cases h
  | some p =>
    obtain ⟨found, entry⟩ := p
    rw [hfind] at h
    cases htext : entry.text with
    | error reason => simp only [htext] at h; cases h
    | ok text => simp only [htext]; rfl

/-- The directory of the last file that is layered. -/
def layeredDirectory (read : String → Id Files.Entry) (fs : List (String × Bool)) : Option String :=
  (fs.filterMap fun f => layeredAt? read f.1).getLast?.bind parent?

/-- What counts as the last file for the loader: a file that must be there, or is there under its own name. -/
def counts (read : String → Id Files.Entry) (f : String × Bool) : Bool := f.2 || (read f.1).run.isFile

def countedDirectory (read : String → Id Files.Entry) (fs : List (String × Bool)) : Option String :=
  (fs.filter (counts read)).getLast?.bind fun f => parent? f.1

theorem baseFrom_eq (base : Option String) (fs : List (String × Bool)) : (baseFrom read base fs).run =
    match (fs.filter (counts read)).getLast? with
    | some f => parent? f.1
    | none => base := by
  induction fs generalizing base with
  | nil => rfl
  | cons f fs ih =>
    have hstep : (baseFrom read base (f :: fs)).run =
        (baseFrom read (if counts read f then parent? f.1 else base) fs).run := rfl
    rw [hstep, ih]
    cases hf : counts read f with
    | false => rw [List.filter_cons_of_neg (by simp [hf])]; rfl
    | true =>
      rw [List.filter_cons_of_pos hf, List.getLast?_cons]
      cases (fs.filter (counts read)).getLast? <;> rfl

theorem baseFrom_none (fs : List (String × Bool)) : (baseFrom read none fs).run = countedDirectory read fs := by
  rw [baseFrom_eq, countedDirectory]
  cases (fs.filter (counts read)).getLast? <;> rfl

theorem parent?_layeredAt? (h : layeredAt? read path = some found) : parent? found = parent? path := by
  rw [layeredAt?, findFile_eq] at h
  by_cases hfile : (read path).run.isFile = true
  · simp only [hfile, if_true, Option.ite_none_right_eq_some, Option.some.injEq] at h
    rw [h.2]
  · cases hext : Files.withExtension? path "toml" with
    | none => simp [hfile, hext] at h
    | some other =>
      have hother : other = found := by
        by_cases hthere : (read other).run.isFile = true
        · simp only [hfile, hext, hthere, if_true, if_false, Bool.false_eq_true, Option.ite_none_right_eq_some,
            Option.some.injEq] at h
          exact h.2
        · simp [hfile, hext, hthere] at h
      exact Files.parent?_withExtension? (hother ▸ hext)

theorem layeredDirectory_eq (fs : List (String × Bool)) : layeredDirectory read fs =
    (fs.filter fun f => (layeredAt? read f.1).isSome).getLast?.bind fun f => parent? f.1 := by
  have hparents : (fs.filterMap fun f => layeredAt? read f.1).map parent? =
      (fs.filter fun f => (layeredAt? read f.1).isSome).map fun f => parent? f.1 := by
    induction fs with
    | nil => rfl
    | cons f fs ih =>
      cases hf : layeredAt? read f.1 with
      | none => simp [hf, ih]
      | some found => simp [hf, ih, parent?_layeredAt? hf]
  have hbind : ∀ {α : Type} (o : Option α) (p : α → Option String), o.bind p = (o.map p).bind id := by
    intro α o p
    rw [Option.bind_map]
    rfl
  rw [layeredDirectory, hbind, ← List.getLast?_map, hparents, List.getLast?_map, ← hbind]

/-- **Which directory it is.** The two agree if no file that need not be there is found under the usual
extension only, and all that are there are texts. -/
theorem countedDirectory_eq (hlayers : ∀ f ∈ fs, (fileLayer read f.1 f.2).run = .ok (layerOf read f))
    (hsame : ∀ f ∈ fs, f.2 = false → (read f.1).run.isFile = (layeredAt? read f.1).isSome) :
    countedDirectory read fs = layeredDirectory read fs := by
  have hfilter : fs.filter (counts read) = fs.filter fun f => (layeredAt? read f.1).isSome := by
    refine List.filter_congr fun f hf => ?_
    obtain ⟨path, required⟩ := f
    cases required with
    | false => exact hsame _ hf rfl
    | true => rw [layeredAt?_isSome (hlayers _ hf)]; rfl
  rw [countedDirectory, layeredDirectory_eq, hfilter]

/-! ## Placed paths -/

theorem placedIn_absolute (h : isAbsolute path = true) : placedIn d path = path := by
  cases d with
  | none => rfl
  | some dir => exact Files.join_absolute h

theorem placedIn_eq_join : placedIn d path = Files.join (d.getD "") path := by
  cases d with
  | none => simp [placedIn, Files.join]
  | some dir => rfl

/-- A directory of a path, or none. -/
def IsDirectory (d : Option String) : Prop := ∃ path : Option String, d = path.bind parent?

theorem IsDirectory.trim (h : IsDirectory d) : Trim (d.getD "") := by
  obtain ⟨path, rfl⟩ := h
  cases hd : path.bind parent? with
  | none => intro h; cases h
  | some dir =>
    obtain ⟨p, -, hp⟩ := Option.bind_eq_some_iff.1 hd
    exact Files.parent?_trim hp

theorem countedDirectory_isDirectory : IsDirectory (countedDirectory read fs) := by
  refine ⟨(fs.filter (counts read)).getLast?.map (·.1), ?_⟩
  rw [countedDirectory, Option.bind_map]
  rfl

/-- A path is placed alike by two directories exactly if it is absolute or they are the same. -/
theorem placedIn_eq_iff (h : IsDirectory d) (h' : IsDirectory d') :
    placedIn d path = placedIn d' path ↔ isAbsolute path = true ∨ d.getD "" = d'.getD "" := by
  rw [placedIn_eq_join, placedIn_eq_join]
  constructor
  · intro heq
    cases hpath : isAbsolute path with
    | true => exact .inl rfl
    | false => exact .inr (h.trim.join_inj h'.trim hpath heq)
  · rintro (hpath | heq)
    · rw [← placedIn_eq_join, ← placedIn_eq_join, placedIn_absolute hpath, placedIn_absolute hpath]
    · rw [heq]

/-- **Where the paths of grammars lead.** The paths that the layers give are taken from the directory that
counts, absolute ones stay as they are (`placedIn_absolute`), and the paths of the steps follow as they were
given. They are those that the directory of the last layered file gives exactly if there is no relative path
or it is the same directory; and so it is if each file that need not be there is layered exactly if it is
there under its own name. -/
theorem grammarFiles_placed_iff (h : buildSteps read environment steps = .ok s) :
    ∃ given, configured read environment steps = .ok given ∧
      s.grammarFiles = given.grammarFiles.map (placedIn (countedDirectory read (files steps))) ++
        steps.filterMap Step.grammarFile? ∧
      (s.grammarFiles = given.grammarFiles.map (placedIn (layeredDirectory read (files steps))) ++
          steps.filterMap Step.grammarFile? ↔
        (∀ path ∈ given.grammarFiles, isAbsolute path = true) ∨
          (countedDirectory read (files steps)).getD "" = (layeredDirectory read (files steps)).getD "") ∧
      ((∀ f ∈ files steps, f.2 = false → (read f.1).run.isFile = (layeredAt? read f.1).isSome) →
        countedDirectory read (files steps) = layeredDirectory read (files steps)) := by
  obtain ⟨given, hgiven, -, rfl⟩ := buildSteps_eq_ok h
  obtain ⟨root, hroot, -⟩ := configured_eq_ok.1 hgiven
  have hlayers := (values_eq_ok hroot).2
  have hbase : baseFrom read none (files steps) = countedDirectory read (files steps) := baseFrom_none _
  refine ⟨given, hgiven, by rw [hbase], ?_, countedDirectory_eq hlayers⟩
  rw [hbase, List.append_cancel_right_eq, List.map_inj_left]
  have heach : ∀ path, placedIn (countedDirectory read (files steps)) path =
      placedIn (layeredDirectory read (files steps)) path ↔ isAbsolute path = true ∨
        (countedDirectory read (files steps)).getD "" = (layeredDirectory read (files steps)).getD "" :=
    fun path => placedIn_eq_iff countedDirectory_isDirectory ⟨_, rfl⟩
  constructor
  · intro hall
    by_cases hsame : (countedDirectory read (files steps)).getD "" = (layeredDirectory read (files steps)).getD ""
    · exact .inr hsame
    · exact .inl fun path hpath => ((heach path).1 (hall path hpath)).resolve_right hsame
  · rintro (habsolute | hsame) path hpath
    · exact (heach path).2 (.inl (habsolute path hpath))
    · exact (heach path).2 (.inr hsame)

/-- One file, which names a relative and an absolute path. -/
def confFiles (path : String) : Id Files.Entry :=
  if path = "conf/main.toml" then
    .file "[engine]\ngrammar_files = [\"g.yaml\", \"/abs/other.json\"]\n".toUTF8
  else .missing

/-- A file that must be there, one that is not there, and one more grammar. -/
theorem grammarFiles_placed_conf :
    let steps := [.file "conf/main.toml" true, .file "local" false, .grammarFile "extra.yaml"]
    ∃ s given, buildSteps confFiles [] steps = .ok s ∧ configured confFiles [] steps = .ok given ∧
      s.grammarFiles = given.grammarFiles.map (placedIn (some "conf")) ++ ["extra.yaml"] ∧
      s.grammarFiles = ["conf/g.yaml", "/abs/other.json", "extra.yaml"] := by
  intro steps
  have hbuild : (buildSteps confFiles [] steps).toOption.map Settings.grammarFiles =
      some ["conf/g.yaml", "/abs/other.json", "extra.yaml"] := by decide +kernel
  have hlayered : layeredDirectory confFiles (files steps) = some "conf" := by decide +kernel
  cases hs : buildSteps confFiles [] steps with
  | error e => rw [hs] at hbuild; cases hbuild
  | ok s =>
    obtain ⟨given, hgiven, -, hiff, hsame⟩ := grammarFiles_placed_iff hs
    have hpaths := hiff.2 (.inr (congrArg (Option.getD · "") (hsame (by decide +kernel))))
    rw [hlayered] at hpaths
    rw [hs] at hbuild
    exact ⟨s, given, rfl, hgiven, hpaths, Option.some.inj hbuild⟩

/-- A file that is there under the usual extension only. -/
def onlyExtended (path : String) : Id Files.Entry :=
  if path = "conf/one.toml" then .file "[engine]\ngrammar_files = [\"g.yaml\"]\n".toUTF8 else .missing

/-- **Not always the directory of the last layered file**: what `conf/one.toml` says is layered, and its path
is not taken from `conf`. -/
theorem grammarFiles_elsewhere : ¬∀ (read : String → Id Files.Entry) (environment : List (String × String))
    (steps : List Step) (s : Settings), buildSteps read environment steps = .ok s →
      ∃ given, configured read environment steps = .ok given ∧
        s.grammarFiles = given.grammarFiles.map (placedIn (layeredDirectory read (files steps))) ++
          steps.filterMap Step.grammarFile? := by
  intro h
  have hbuild : (buildSteps onlyExtended [] [.file "conf/one" false]).toOption.map Settings.grammarFiles =
      some ["g.yaml"] := by decide +kernel
  have hlayered : layeredDirectory onlyExtended (files [.file "conf/one" false]) = some "conf" := by decide +kernel
  cases hs : buildSteps onlyExtended [] [.file "conf/one" false] with
  | error e => rw [hs] at hbuild; cases hbuild
  | ok s =>
    rw [hs] at hbuild
    have hplaced : s.grammarFiles = ["g.yaml"] := Option.some.inj hbuild
    obtain ⟨given, hgiven, hpaths⟩ := h onlyExtended [] [.file "conf/one" false] s hs
    obtain ⟨given', hgiven', -, rfl⟩ := buildSteps_eq_ok hs
    obtain rfl : given = given' := Except.ok.inj (hgiven.symm.trans hgiven')
    have hunplaced : given.grammarFiles = ["g.yaml"] := by
      change given.grammarFiles.map id ++ [] = ["g.yaml"] at hplaced
      rwa [List.append_nil, List.map_id] at hplaced
    rw [hplaced, hlayered, hunplaced] at hpaths
    exact absurd hpaths (by decide +kernel)

end Lexicolor.Settings
