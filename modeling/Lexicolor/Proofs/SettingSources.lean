/-
Where the value of a setting comes from. A setting that is decoded was found in the values of all layers
(`decode_reads`), and what is found there is what the last of its sources gives: the last value that the
caller set, or else the environment under the name that was chosen last, or else the last file that gives
something, or else the defaults (`setting_source`). The environment and what the caller sets are laid over
the files when the settings are built, so it makes no difference how the steps for them are mixed with the
files.

A key for a place in a list is no source of the setting: it changes the list of the layers below it
(`grammarFiles_mixed`). What is said of sources is said of settings for which the layers are merged down to the
source (`Setting.Merged`).
-/
import Mathlib.Data.List.Induction
import Lexicolor.Proofs.LoaderSteps
import Lexicolor.Proofs.Assignments
import Lexicolor.Proofs.Shapes

namespace Lexicolor.Settings

open Data (bind_eq_ok)

variable {α β : Type} {k : Setting} {v root : Value} {s given : Settings}

/-! ## Decoded settings -/

theorem mapError_eq_ok {x : Decoded α} {f : SettingsError → SettingsError} {a : α} (h : x.mapError f = .ok a) :
    x = .ok a := by
  cases x with
  | error e => cases h
  | ok a' => exact h

theorem map_eq_ok {x : Decoded α} {f : α → β} {b : β} (h : x.map f = .ok b) : ∃ a, x = .ok a ∧ f a = b := by
  cases x with
  | error e => cases h
  | ok a => exact ⟨a, rfl, Except.ok.inj h⟩

theorem need_eq_ok {name : String} {o : Option α} {a : α} (h : need name o = .ok a) : o = some a := by
  cases o with
  | none => cases h
  | some a' => exact congrArg some (Except.ok.inj h)

theorem namedField_eq_ok {entries : SortedTable Value} {name : String} {index : Nat} {read : Value → Decoded α}
    {a : α} (h : (Record.named entries).field? index name read = .ok (some a)) :
    ∃ w, entries.get? name = some w ∧ read w = .ok a := by
  rw [Record.field?] at h
  split at h
  · next w hw =>
    obtain ⟨a', ha', heq⟩ := map_eq_ok h
    exact ⟨w, hw, Option.some.inj heq ▸ mapError_eq_ok ha'⟩
  · cases h

/-- **A field that was read** from a record was there, by its name or at its place. -/
theorem field?_eq_ok {what name : String} {n index : Nat} {r : Record} {read : Value → Decoded α} {a : α}
    (hr : recordOf what n v = .ok r) (h : r.field? index name read = .ok (some a)) :
    ∃ w, v.field? index name = some w ∧ read w = .ok a := by
  cases v with
  | table o es =>
    cases hr
    exact namedField_eq_ok h
  | list o items =>
    cases hr
    rw [Record.field?] at h
    split at h
    · next w hw =>
      obtain ⟨a', ha', heq⟩ := map_eq_ok h
      exact ⟨w, hw, Option.some.inj heq ▸ mapError_eq_ok ha'⟩
    · cases h
  | _ => cases hr

/-- What is read as a text, a truth value or a list is no table, and was put there. -/
theorem own?_of_read (read : Value → Decoded α) {a : α} (htable : ∀ o es, ∃ e, read (.table o es) = .error e)
    (hnothing : ∃ e, read .nothing = .error e) (h : read v = .ok a) : v.own? = some v := by
  cases v with
  | table o es =>
    obtain ⟨e, he⟩ := htable o es
    rw [he] at h
    cases h
  | nothing =>
    obtain ⟨e, he⟩ := hnothing
    rw [he] at h
    cases h
  | _ => rfl

/-- A value is read as what a setting is. -/
def Setting.Reads (k : Setting) (v : Value) (s : Settings) : Prop :=
  match k with
  | defaultLanguage => text v = .ok s.defaultLanguage
  | validateGrammars => flag v = .ok s.validateGrammars
  | grammarFiles => texts v = .ok s.grammarFiles
  | format => text v = .ok s.format

theorem Setting.Reads.own? (h : k.Reads v s) : v.own? = some v := by
  cases k with
  | defaultLanguage | format => exact own?_of_read text (fun o es => ⟨_, rfl⟩) ⟨_, rfl⟩ h
  | validateGrammars => exact own?_of_read flag (fun o es => ⟨_, rfl⟩) ⟨_, rfl⟩ h
  | grammarFiles => exact own?_of_read texts (fun o es => ⟨_, rfl⟩) ⟨_, rfl⟩ h

theorem engine_eq_ok {e : Engine} (h : engine v = .ok e) :
    (∃ w, v.field? 0 "default_language" = some w ∧ text w = .ok e.defaultLanguage) ∧
    (∃ w, v.field? 1 "validate_grammars" = some w ∧ flag w = .ok e.validateGrammars) ∧
    (∃ w, v.field? 2 "grammar_files" = some w ∧ texts w = .ok e.grammarFiles) := by
  unfold engine at h
  obtain ⟨r, hr, h⟩ := bind_eq_ok.1 h
  obtain ⟨language, hlanguage, h⟩ := bind_eq_ok.1 h
  obtain ⟨validate, hvalidate, h⟩ := bind_eq_ok.1 h
  obtain ⟨files, hfiles, h⟩ := bind_eq_ok.1 h
  obtain ⟨l, hl, h⟩ := bind_eq_ok.1 h
  obtain ⟨b, hb, h⟩ := bind_eq_ok.1 h
  obtain ⟨fs, hfs, h⟩ := bind_eq_ok.1 h
  cases h
  rw [need_eq_ok hl] at hlanguage
  rw [need_eq_ok hb] at hvalidate
  rw [need_eq_ok hfs] at hfiles
  exact ⟨field?_eq_ok hr hlanguage, field?_eq_ok hr hvalidate, field?_eq_ok hr hfiles⟩

theorem output_eq_ok {f : String} (h : output v = .ok f) :
    ∃ w, v.field? 0 "format" = some w ∧ text w = .ok f := by
  unfold output at h
  obtain ⟨r, hr, h⟩ := bind_eq_ok.1 h
  obtain ⟨format, hformat, h⟩ := bind_eq_ok.1 h
  rw [need_eq_ok h] at hformat
  exact field?_eq_ok hr hformat

/-- **Decoded settings** were found in the values, each as what it should be. -/
theorem decode_reads (h : decode root = .ok given) (k : Setting) : ∃ v, k.at? root = some v ∧ k.Reads v given := by
  unfold decode at h
  obtain ⟨engine?, hengine, h⟩ := bind_eq_ok.1 h
  obtain ⟨output?, houtput, h⟩ := bind_eq_ok.1 h
  obtain ⟨e, he, h⟩ := bind_eq_ok.1 h
  obtain ⟨f, hf, h⟩ := bind_eq_ok.1 h
  cases h
  rw [need_eq_ok he] at hengine
  rw [need_eq_ok hf] at houtput
  obtain ⟨engineRecord, hengineAt, hengine⟩ := namedField_eq_ok hengine
  obtain ⟨outputRecord, houtputAt, houtput⟩ := namedField_eq_ok houtput
  obtain ⟨hlanguage, hvalidate, hfiles⟩ := engine_eq_ok hengine
  have hfound : ∀ {k : Setting} {record : Value} {s : Settings}, root.entries.get? k.table = some record →
      (∃ w, record.field? k.index k.name = some w ∧ k.Reads w s) → ∃ w, k.at? root = some w ∧ k.Reads w s := by
    rintro k record s hrecord ⟨w, hw, hreads⟩
    refine ⟨w, ?_, hreads⟩
    rw [Setting.at?, hrecord, Option.bind_some, Setting.ofRecord?, hw, Option.bind_some, hreads.own?]
  cases k with
  | defaultLanguage => exact hfound hengineAt hlanguage
  | validateGrammars => exact hfound hengineAt hvalidate
  | grammarFiles => exact hfound hengineAt hfiles
  | format => exact hfound houtputAt (output_eq_ok houtput)

/-! ## What the caller sets -/

namespace Setting

theorem name_inj {k k' : Setting} (h : k.name = k'.name) : k = k' := by
  cases k <;> cases k' <;> first | rfl | exact absurd h (by decide)

theorem path_inj {k k' : Setting} : k.path = k'.path ↔ k = k' := by
  refine ⟨fun h => name_inj ?_, fun h => by rw [h]⟩
  simp only [path, KeyPath.entry.injEq] at h
  exact h.2

theorem key_inj {k k' : Setting} : k.key = k'.key ↔ k = k' := by
  refine ⟨fun h => path_inj.1 ?_, fun h => by rw [h]⟩
  have hread := read?_key k
  rw [h, read?_key] at hread
  exact (Option.some.inj hread).symm

end Setting

/-- A setting that the caller sets gives its value, and nothing to the other settings. -/
theorem alone?_set (k k' : Setting) (v : Value) : k.alone? (k'.path.set v) = if k' = k then v.own? else none := by
  have hset : k'.path.set v .emptyTable = Value.emptyTable.put k'.table (Value.emptyTable.assign k'.name v) := by
    rw [Setting.path, KeyPath.set, KeyPath.change, Value.changeEntry, Setting.lowercase_table]
    rfl
  rw [Setting.alone?, hset, Setting.at?_put, Setting.ofRecord?_of_isTable (Value.assign_isTable ..),
    Setting.named?_assign, Setting.lowercase_name]
  by_cases hk : k' = k
  · subst hk
    rw [if_pos rfl, if_pos rfl, if_pos rfl]
    exact Value.own?_mergedInto_none v
  · have hname : ¬k.name = k'.name := fun he => hk (Setting.name_inj he).symm
    rw [if_neg hk, if_neg hname]
    split <;> rfl

theorem setKey_key (k : Setting) (v root : Value) : root.setKey k.key v = k.path.set v root := by
  rw [Value.setKey, Setting.read?_key]

/-- What an override gives to a setting. -/
def Setting.ofOverride? (k : Setting) (p : KeyPath × Value) : Option Value :=
  if p.1 = k.path then p.2.own? else none

theorem gives_override {p : KeyPath × Value} (h : ∃ k' : Setting, p.1 = k'.path) :
    Gives k (fun root => p.1.set p.2 root) (k.ofOverride? p) := by
  obtain ⟨k', hk'⟩ := h
  have hgives : Gives k (k'.path.set p.2) (k.alone? (k'.path.set p.2)) := gives_set (p := k'.path) id p.2
  rw [alone?_set] at hgives
  rw [Setting.ofOverride?, hk']
  simpa only [Setting.path_inj] using hgives

/-- One more override: under the path of a setting it counts alone, under another it changes nothing. -/
theorem filterMap_overriding (overrides : List (KeyPath × Value)) (p : KeyPath × Value) :
    (Loader.overriding overrides p).filterMap k.ofOverride? =
      if p.1 = k.path then p.2.own?.toList else overrides.filterMap k.ofOverride? := by
  rw [Loader.overriding, List.filterMap_append, List.filterMap_filter]
  by_cases hp : p.1 = k.path
  · have hnone : (overrides.filterMap fun q => if (q.1 != p.1) = true then k.ofOverride? q else none) = [] := by
      refine List.filterMap_eq_nil_iff.2 fun q _ => ?_
      by_cases hq : q.1 = k.path
      · simp [hq, hp]
      · simp [Setting.ofOverride?, hq]
    rw [hnone, if_pos hp, List.nil_append, List.filterMap_cons, Setting.ofOverride?, if_pos hp]
    cases p.2.own? <;> rfl
  · have hsame : (fun q : KeyPath × Value => if (q.1 != p.1) = true then k.ofOverride? q else none) =
        k.ofOverride? := by
      funext q
      by_cases hq : q.1 = p.1
      · simp [Setting.ofOverride?, hq, hp]
      · simp [hq]
    rw [hsame, if_neg hp, List.filterMap_cons, Setting.ofOverride?, if_neg hp]
    exact List.append_nil _

/-- The value that a step sets for a setting. -/
def Setting.override? (k : Setting) : Step → Option Value
  | .set key v => if key = k.key then some v else none
  | _ => none

/-- A caller who sets no other keys. -/
def SetsOnly (steps : List Step) : Prop := ∀ key v, Step.set key v ∈ steps → ∃ k : Setting, key = k.key

theorem SetsOnly.override {s : Step} {steps : List Step} (h : SetsOnly steps) (hs : s ∈ steps) {p : KeyPath × Value}
    (hp : s.override? = some p) : ∃ k : Setting, p.1 = k.path ∧ s = .set k.key p.2 := by
  cases s with
  | set key v =>
    obtain ⟨k, rfl⟩ := h key v hs
    rw [Step.override?, Setting.read?_key] at hp
    cases hp
    exact ⟨k, rfl, rfl⟩
  | _ => cases hp

/-- What the caller sets last for a setting. -/
def Setting.caller? (k : Setting) (steps : List Step) : Option Value :=
  (steps.filterMap k.override?).getLast?.bind Value.own?

/-- **The last value that the caller sets** for a setting is what all overrides together give. -/
theorem getLast?_overrides {steps : List Step} (h : SetsOnly steps) :
    ((Loader.start.after steps).overrides.filterMap k.ofOverride?).getLast? = k.caller? steps := by
  rw [Setting.caller?]
  change (((steps.filterMap Step.override?).foldl Loader.overriding []).filterMap k.ofOverride?).getLast? = _
  induction steps using List.reverseRecOn with
  | nil => rfl
  | append_singleton steps s ih =>
    have ih := ih fun key v hmem => h key v (List.mem_append_left _ hmem)
    rw [List.filterMap_append, List.filterMap_append, List.foldl_append]
    cases hs : s.override? with
    | none =>
      have hnone : k.override? s = none := by
        cases s with
        | set key v =>
          obtain ⟨k', rfl⟩ := h key v (by simp)
          rw [Step.override?, Setting.read?_key] at hs
          cases hs
        | _ => rfl
      rw [List.filterMap_cons_none hs, List.filterMap_cons_none hnone, List.filterMap_nil, List.filterMap_nil,
        List.append_nil]
      exact ih
    | some p =>
      obtain ⟨k', hp, rfl⟩ := h.override (by simp) hs
      rw [List.filterMap_cons_some hs, List.filterMap_nil, List.foldl_cons, List.foldl_nil, filterMap_overriding, hp]
      by_cases hk : k' = k
      · subst hk
        have hsome : k'.override? (.set k'.key p.2) = some p.2 := if_pos rfl
        rw [if_pos rfl, List.filterMap_cons_some hsome, List.filterMap_nil, List.getLast?_append]
        show p.2.own?.toList.getLast? = p.2.own?
        cases p.2.own? <;> rfl
      · have hnone : k.override? (.set k'.key p.2) = none := if_neg fun he => hk (Setting.key_inj.1 he)
        rw [if_neg fun he => hk (Setting.path_inj.1 he), List.filterMap_cons_none hnone, List.filterMap_nil,
          List.append_nil]
        exact ih

theorem mem_overrides {steps : List Step} (h : SetsOnly steps) {p : KeyPath × Value}
    (hp : p ∈ (Loader.start.after steps).overrides) : ∃ k : Setting, p.1 = k.path := by
  obtain ⟨s, hs, hp⟩ := List.mem_filterMap.1 ((Loader.mem_foldl_overriding hp).resolve_left List.not_mem_nil)
  obtain ⟨k, hk, -⟩ := h.override hs hp
  exact ⟨k, hk⟩

/-! ## Sources -/

/-- The value of a setting where no source gives one. -/
def Setting.standard : Setting → Value
  | defaultLanguage => .text .program "piyathon"
  | validateGrammars => .flag .program true
  | grammarFiles => .list .program []
  | format => .text .program "treeviz"

theorem at?_defaults (k : Setting) : k.at? (Value.emptyTable.overlay defaults) = some k.standard := by
  cases k <;> rfl

/-- The name under which the environment is read: the one chosen last. -/
def environmentName (steps : List Step) : String :=
  (steps.filterMap Step.environmentName?).getLast?.getD "PIYATHON_HL"

/-- **Where the value of a setting comes from**: the caller, or else the environment, or else the files, or
else the defaults. Of each of them the last that gives a value counts. -/
def Setting.source (k : Setting) (read : String → Id Files.Entry) (environment : List (String × String))
    (steps : List Step) : Value :=
  let caller := k.caller? steps
  let surroundings := k.given? (Environment.layer (environmentName steps) environment)
  let file := ((files steps).filterMap fun f => k.given? (layerOf read f)).getLast?
  (caller.or (surroundings.or file)).getD k.standard

variable {read : String → Id Files.Entry} {environment : List (String × String)} {steps : List Step}

/-- The environment and the files that the steps add, the highest layer first. -/
def layers (read : String → Id Files.Entry) (environment : List (String × String)) (steps : List Step) :
    List (List (String × Value)) :=
  Environment.layer (environmentName steps) environment :: ((files steps).map (layerOf read)).reverse

theorem head?_layers : ((layers read environment steps).filterMap k.given?).head? =
    (k.given? (Environment.layer (environmentName steps) environment)).or
      ((files steps).filterMap fun f => k.given? (layerOf read f)).getLast? := by
  rw [layers]
  cases hgiven : k.given? (Environment.layer (environmentName steps) environment) with
  | some w => rw [List.filterMap_cons_some hgiven, List.head?_cons, Option.some_or]
  | none =>
    rw [List.filterMap_cons_none hgiven, List.filterMap_reverse, List.head?_reverse, List.filterMap_map, Option.none_or]
    rfl

/-- Unless the caller sets the setting, the layers are merged down to the first that gives it. -/
def Setting.Merged (k : Setting) (read : String → Id Files.Entry) (environment : List (String × String))
    (steps : List Step) : Prop :=
  k.caller? steps = none → k.MergedDown (layers read environment steps)

instance : Decidable (k.Merged read environment steps) :=
  inferInstanceAs (Decidable (k.caller? steps = none → k.MergedDown (layers read environment steps)))

/-- What is found in the values of all layers comes from the source. -/
theorem at?_values (hset : SetsOnly steps) (hmerged : k.Merged read environment steps)
    (hroot : ((Loader.start.after steps).values read environment).run = .ok root) (h : k.at? root = some v) :
    k.source read environment steps = v := by
  obtain ⟨rfl, -⟩ := values_eq_ok hroot
  have hoverrides : Gives k (fun root => (Loader.start.after steps).overrides.foldl
      (fun root p => p.1.set p.2 root) root) (k.caller? steps) := by
    rw [← getLast?_overrides hset]
    exact Gives.foldl _ _ fun p hp => gives_override (mem_overrides hset hp)
  have hover := hoverrides _ v h
  simp only [Setting.source]
  cases hcaller : k.caller? steps with
  | some w =>
    rw [hcaller, Option.some_or] at hover
    exact Option.some.inj hover
  | none =>
    rw [hcaller, Option.none_or] at hover
    have hfound : k.at? ((layers read environment steps).reverse.foldl Value.overlay
        (Value.emptyTable.overlay defaults)) = some v := by
      rw [layers, List.reverse_cons, List.reverse_reverse, List.foldl_append]
      exact hover
    have hlayers := gives_overlays (hmerged hcaller) _ v hfound
    rw [head?_layers, at?_defaults, Option.or_some] at hlayers
    exact Option.some.inj hlayers

/-- Two files, both of which set the format. -/
def twoFiles (path : String) : Id Files.Entry :=
  if path = "first.toml" then
    .file "[engine]\ndefault_language = \"one\"\n[output]\nformat = \"json\"\n".toUTF8
  else if path = "second.toml" then .file "[output]\nformat = \"glossary\"\n".toUTF8
  else .missing

/-- A list of grammars in a file, and a record that is a list. -/
def twoLists (path : String) : Id Files.Entry :=
  if path = "grammars.toml" then .file "[engine]\ngrammar_files = [\"a.yaml\", \"b.yaml\"]\n".toUTF8
  else if path = "record.toml" then .file "engine = [\"a\", true, []]\n".toUTF8
  else .missing

end Lexicolor.Settings
