/-
Settings from variables and from the caller. The text of a variable is read as a truth value or a number if
it looks like one, and a setting that is a text has it written again (`Environment.reprinted`); a text that
the caller sets stays as it is. But for that it makes no difference which of them gives the setting, if
nothing else does: the values of all layers agree but for the setting, and hold it by values that are read
alike (`Loader.atop_agree`). So a variable and an override with the same text build the same settings exactly
if the text is what is written again (`variable_as_override`).
-/
import Lexicolor.Proofs.SettingSources
import Lexicolor.Proofs.Sparing

namespace Lexicolor.Settings

variable {k : Setting} {read : String → Id Files.Entry} {x y : Value}

/-! ## Texts of variables -/

namespace Environment

/-- What is left of a text that was read as a truth value, an integer or a floating-point number, if it is
one, and written again. -/
def reprinted (text : String) : String :=
  let word := Text.lowercase text
  if word = "true" ∨ word = "false" then word
  else
    match Decimal.int64? text.toList, Decimal.float? text.toList with
    | some n, _ => toString n
    | none, some x => Decimal.plain x
    | none, none => text

theorem text_value (s : String) : text (value s) = .ok (reprinted s) := by
  simp only [value, reprinted, beq_iff_eq]
  by_cases htrue : Text.lowercase s = "true"
  · simp [htrue, text]
  by_cases hfalse : Text.lowercase s = "false"
  · simp [hfalse, text]
  simp only [htrue, hfalse, if_false, or_self]
  cases Decimal.int64? s.toList with
  | some n => rfl
  | none => cases Decimal.float? s.toList <;> rfl

theorem own?_value (s : String) : (value s).own? = some (value s) := by
  simp only [value]
  split
  · rfl
  split
  · rfl
  split <;> rfl

theorem layer_append (front : String) (e e' : List (String × String)) :
    layer front (e ++ e') = layer front e ++ layer front e' := List.filterMap_append ..

theorem layer_cons {front name key : String} (h : key? front name = some key) (s : String)
    (e : List (String × String)) : layer front ((name, s) :: e) = (key, value s) :: layer front e := by
  have hentry : (key? front name).map (·, value s) = some (key, value s) := by rw [h, Option.map_some]
  exact List.filterMap_cons_some hentry

theorem mem_layer {front : String} {e : List (String × String)} {p : String × Value} (h : p ∈ layer front e) :
    ∃ v ∈ e, key? front v.1 = some p.1 := by
  obtain ⟨v, hv, hp⟩ := List.mem_filterMap.1 h
  obtain ⟨key, hkey, rfl⟩ := Option.map_eq_some_iff.1 hp
  exact ⟨v, hv, hkey⟩

end Environment

/-! ## Building -/

namespace Loader

variable {l l' : Loader} {e e' : List (String × String)}

/-- The values of the environment and the caller on top of those of the files. -/
def atop (l : Loader) (e : List (String × String)) (base : Value) : Value :=
  l.overrides.foldl (fun root p => p.1.set p.2 root) (base.overlay (Environment.layer l.environmentName e))

theorem build_eq (l : Loader) (e : List (String × String)) : (l.build read e).run =
    match (overlayFiles read (Value.emptyTable.overlay defaults) l.files).run with
    | .error reason => .error reason
    | .ok base =>
      match decode (l.atop e base) with
      | .error reason => .error reason
      | .ok s => l.finish (baseFrom read none l.files).run s := by
  rw [build, Id.run_bind, values, Id.run_bind]
  cases (overlayFiles read (Value.emptyTable.overlay defaults) l.files).run with
  | error reason => rfl
  | ok base =>
    change (match decode (l.atop e base) with
      | .error reason => (pure (.error reason) : Id (Decoded Settings))
      | .ok s => do return l.finish (← baseFrom read none l.files) s).run =
      match decode (l.atop e base) with
      | .error reason => .error reason
      | .ok s => l.finish (baseFrom read none l.files).run s
    cases decode (l.atop e base) <;> rfl

/-- Loaders with the same files and grammars build the same, if their values are decoded alike. -/
theorem build_congr (hfiles : l.files = l'.files) (hgrammars : l.grammarFiles = l'.grammarFiles)
    (h : ∀ base, decode (l.atop e base) = decode (l'.atop e' base)) : (l.build read e).run = (l'.build read e').run := by
  rw [build_eq, build_eq, hfiles]
  cases (overlayFiles read (Value.emptyTable.overlay defaults) l'.files).run with
  | error reason => rfl
  | ok base =>
    simp only [h base]
    cases decode (l'.atop e' base) with
    | error reason => rfl
    | ok s => simp only [finish, hgrammars]

end Loader

/-! ## One setting, given in two ways -/

/-- Nothing in an environment and among the steps gives the setting, or takes its place. -/
structure Setting.Untouched (k : Setting) (e : List (String × String)) (steps : List Step) : Prop where
  environment : ∀ v ∈ e, ∀ key, Environment.key? (environmentName steps) v.1 = some key → k.IsApart key
  steps : ∀ key v, Step.set key v ∈ steps → k.IsApart key

variable {e e' : List (String × String)} {steps steps' : List Step} {name v : String}

theorem Setting.Untouched.spares_layer (h : k.Untouched e steps) :
    ∀ p ∈ Environment.layer (environmentName steps) e, Spares k (·.setKey p.1 p.2) := by
  intro p hp
  obtain ⟨v, hv, hkey⟩ := Environment.mem_layer hp
  exact (h.environment v hv p.1 hkey).spares_setKey p.2

theorem Setting.Untouched.avoids (h : k.Untouched e steps) {p : KeyPath × Value}
    (hp : p ∈ steps.filterMap Step.override?) : p.1.Avoids k := by
  obtain ⟨s, hs, hp⟩ := List.mem_filterMap.1 hp
  cases s with
  | set key w =>
    obtain ⟨path, hpath, rfl⟩ := Option.map_eq_some_iff.1 hp
    exact (h.steps key w hs).avoids hpath
  | _ => cases hp

theorem Setting.Untouched.right (h : k.Untouched (e ++ e') steps) : k.Untouched e' steps :=
  ⟨fun v hv => h.environment v (List.mem_append_right _ hv), h.steps⟩

/-- The step by which the caller sets a setting to a text. -/
def Setting.given (k : Setting) (v : String) : Step := .set k.key (.text .program v)

theorem Setting.override?_given (k : Setting) (v : String) : (k.given v).override? = some (k.path, .text .program v) := by
  rw [given, Step.override?, Setting.read?_key]
  rfl

/-- The overrides of steps that leave a setting untouched, and those of the same steps with one more between
them that gives it: one is added, and all others avoid the setting. -/
theorem overrides_given (h : k.Untouched e (steps ++ steps')) (v : String) : ∃ before behind,
    (Loader.start.after (steps ++ steps')).overrides = before ++ behind ∧
    (Loader.start.after (steps ++ k.given v :: steps')).overrides = before ++ (k.path, .text .program v) :: behind ∧
    ∀ p ∈ before ++ behind, p.1.Avoids k := by
  have hne : ∀ p ∈ (steps ++ steps').filterMap Step.override?, p.1 ≠ k.path := fun p hp => (h.avoids hp).ne_path
  rw [List.filterMap_append, List.forall_mem_append] at hne
  have hfilter : ∀ p ∈ (steps.filterMap Step.override?).foldl Loader.overriding [], (p.1 != k.path) = true := by
    intro p hp
    simpa using hne.1 p ((Loader.mem_foldl_overriding hp).resolve_left List.not_mem_nil)
  obtain ⟨before, behind, hwithout, hwith⟩ := Loader.foldl_overriding_middle (p := (k.path, .text .program v)) hne.2
    ((steps.filterMap Step.override?).foldl Loader.overriding []) []
  rw [List.append_nil] at hwithout
  have hoverrides : (Loader.start.after (steps ++ steps')).overrides = before ++ behind := by
    show ((steps ++ steps').filterMap Step.override?).foldl Loader.overriding [] = _
    rw [List.filterMap_append, List.foldl_append, hwithout]
  refine ⟨before, behind, hoverrides, ?_, fun p hp => ?_⟩
  · show ((steps ++ k.given v :: steps').filterMap Step.override?).foldl Loader.overriding [] = _
    rw [List.filterMap_append, List.filterMap_cons_some (k.override?_given v), List.foldl_append, List.foldl_cons,
      Loader.overriding, List.filter_eq_self.2 hfilter, hwith]
  · rw [← hoverrides] at hp
    exact h.avoids ((Loader.mem_foldl_overriding hp).resolve_left List.not_mem_nil)

theorem environmentName_given (k : Setting) (steps steps' : List Step) (v : String) :
    environmentName (steps ++ k.given v :: steps') = environmentName (steps ++ steps') := by
  have hnone : (k.given v).environmentName? = none := rfl
  rw [environmentName, List.filterMap_append, List.filterMap_cons_none hnone, ← List.filterMap_append, environmentName]

/-- **A variable or an override**: the values of all layers agree but for the setting, which they hold by what
the variable or the override says. -/
theorem atop_agree (hvariable : Environment.key? (environmentName (steps ++ steps')) name = some k.key)
    (h : k.Untouched (e ++ e') (steps ++ steps')) (v w : String) (base : Value) :
    let a := (Loader.start.after (steps ++ steps')).atop (e ++ (name, v) :: e') base
    let b := (Loader.start.after (steps ++ k.given w :: steps')).atop (e ++ e') base
    AgreeBut k a b ∧ Holds k (Environment.value v) a ∧ Holds k (.text .program w) b := by
  obtain ⟨before, behind, hwithout, hwith, havoids⟩ := overrides_given h w
  obtain ⟨hbefore, hbehind⟩ := List.forall_mem_append.1 fun p hp => (havoids p hp).spares_set p.2
  have hlayer := h.right.spares_layer
  have hname : (Loader.start.after (steps ++ steps')).environmentName = environmentName (steps ++ steps') := rfl
  have hname' : (Loader.start.after (steps ++ k.given w :: steps')).environmentName =
      environmentName (steps ++ steps') := environmentName_given k steps steps' w
  simp only [Loader.atop, hwithout, hwith, hname, hname', Value.overlay_eq, Environment.layer_append,
    Environment.layer_cons hvariable, List.foldl_append, List.foldl_cons]
  generalize (Environment.layer (environmentName (steps ++ steps')) e).foldl (fun root p => root.setKey p.1 p.2) base =
    root
  -- The variable counts before the rest of the environment and the override among the others, which spare
  -- both the setting and the agreement of all else.
  rw [setKey_key]
  have hown : (Value.text .program w).own? = some (.text .program w) := rfl
  have hagree := ((AgreeBut.set_path (Environment.own?_value v) root).foldl hlayer).foldl hbefore
  exact ⟨(hagree.trans (AgreeBut.set_path hown _).symm).foldl hbehind,
    (((Holds.set_path (Environment.own?_value v) root).foldl hlayer).foldl hbefore).foldl hbehind,
    (Holds.set_path hown _).foldl hbehind⟩

/-! ## The settings that are built -/

theorem filterMap_given {α : Type} {f : Step → Option α} (hf : f (k.given v) = none) (steps steps' : List Step) :
    (steps ++ k.given v :: steps').filterMap f = (steps ++ steps').filterMap f := by
  rw [List.filterMap_append, List.filterMap_cons_none hf, List.filterMap_append]

theorem all_isProper_given (k : Setting) (v : String) (steps steps' : List Step) :
    (steps ++ k.given v :: steps').all Step.isProper = (steps ++ steps').all Step.isProper := by
  have hproper : (k.given v).isProper = true := by rw [Setting.given, Step.isProper, Setting.read?_key]; rfl
  rw [List.all_append, List.all_cons, hproper, Bool.true_and, List.all_append]

/-- A variable builds what an override with its text, written again, builds. -/
theorem buildSteps_variable (hk : k.IsText)
    (hvariable : Environment.key? (environmentName (steps ++ steps')) name = some k.key)
    (h : k.Untouched (e ++ e') (steps ++ steps')) (v : String) :
    buildSteps read (e ++ (name, v) :: e') (steps ++ steps') =
      buildSteps read (e ++ e') (steps ++ k.given (Environment.reprinted v) :: steps') := by
  rw [buildSteps, buildSteps, Loader.ofSteps_eq, Loader.ofSteps_eq, all_isProper_given]
  by_cases hproper : (steps ++ steps').all Step.isProper = true
  · rw [if_pos hproper, if_pos hproper]
    refine Loader.build_congr ?_ ?_ fun base => ?_
    · simp only [Loader.after, filterMap_given (f := Step.file?) rfl]
    · simp only [Loader.after, filterMap_given (f := Step.grammarFile?) rfl]
    · obtain ⟨hagree, hx, hy⟩ := atop_agree hvariable h v (Environment.reprinted v) base
      exact decode_congr hk hagree hx hy (Environment.text_value v)
  · rw [if_neg hproper, if_neg hproper]

/-- Built settings are read from the value that all layers together hold. -/
theorem reads_of_buildSteps {s : Settings} (hk : k.IsText) (h : buildSteps read e steps = .ok s) (hx : x.own? = some x)
    (hholds : ∀ base, Holds k x ((Loader.start.after steps).atop e base)) : k.Reads x s := by
  obtain ⟨given, hgiven, -, rfl⟩ := buildSteps_eq_ok h
  obtain ⟨root, hroot, hdecode⟩ := configured_eq_ok.1 hgiven
  obtain ⟨w, hw, hreads⟩ := decode_reads hdecode k
  rw [(values_eq_ok hroot).1] at hw
  obtain rfl : w = x := Option.some.inj (hw.symm.trans ((hholds _).at?.trans hx))
  rcases hk with rfl | rfl
  · exact hreads
  · exact hreads

theorem Setting.Reads.text_eq {s : Settings} (hk : k.IsText) (hx : k.Reads x s) (hy : k.Reads y s) : text x = text y := by
  rcases hk with rfl | rfl
  · exact Eq.trans hx (Eq.symm hy)
  · exact Eq.trans hx (Eq.symm hy)

/-- **A variable and an override.** If nothing else gives a setting that is a text, then a variable of the
setting builds what the caller builds who sets it to the variable's text as that is written again after it
was read as a truth value or a number; so it builds the same as an override with the text itself exactly if
the text is written again as it stands. -/
theorem variable_as_override (read : String → Id Files.Entry) (hk : k.IsText)
    (hvariable : Environment.key? (environmentName (steps ++ steps')) name = some k.key)
    (h : k.Untouched (e ++ e') (steps ++ steps')) (v : String) :
    let byVariable := buildSteps read (e ++ (name, v) :: e') (steps ++ steps')
    let byCaller := fun w => buildSteps read (e ++ e') (steps ++ .set k.key (.text .program w) :: steps')
    byVariable = byCaller (Environment.reprinted v) ∧
    ∀ s, byVariable = .ok s → (byCaller v = .ok s ↔ Environment.reprinted v = v) := by
  intro byVariable byCaller
  have hsame : byVariable = byCaller (Environment.reprinted v) := buildSteps_variable hk hvariable h v
  refine ⟨hsame, fun s hs => ⟨fun hcaller => ?_, fun heq => ?_⟩⟩
  · have hx := reads_of_buildSteps hk hs (Environment.own?_value v) fun base => (atop_agree hvariable h v v base).2.1
    have hy := reads_of_buildSteps hk hcaller rfl fun base => (atop_agree hvariable h v v base).2.2
    have htext := hx.text_eq hk hy
    rw [Environment.text_value] at htext
    exact Except.ok.inj htext
  · rw [← hs, hsame, heq]

/-- A numeral is written again without its zeros and a word as it stands, beside a file and another variable. -/
theorem variable_as_override_numeral :
    let e := [("APP_ENGINE__VALIDATE_GRAMMARS", "no")]
    let steps := [.environmentName "APP", .file "first.toml" true]
    let byVariable := fun v => buildSteps twoFiles (e ++ ("APP_OUTPUT__FORMAT", v) :: []) (steps ++ [])
    let byCaller := fun w => buildSteps twoFiles (e ++ []) (steps ++ .set "output.format" (.text .program w) :: [])
    byVariable "-007" = .ok ⟨"one", false, [], "-7"⟩ ∧ byVariable "-007" = byCaller "-7" ∧
      byVariable "-007" ≠ byCaller "-007" ∧ byVariable "glossary" = byCaller "glossary" := by
  intro e steps byVariable byCaller
  have hvariable : Environment.key? (environmentName (steps ++ [])) "APP_OUTPUT__FORMAT" = some Setting.format.key := by
    decide +kernel
  have huntouched : Setting.format.Untouched (e ++ []) (steps ++ []) := by
    refine ⟨fun v hv key hkey => ?_, fun key w hw => ?_⟩
    · obtain rfl := List.mem_singleton.1 hv
      obtain rfl : key = "engine.validate_grammars" := by
        have hkey' : Environment.key? (environmentName (steps ++ [])) "APP_ENGINE__VALIDATE_GRAMMARS" =
            some "engine.validate_grammars" := by decide +kernel
        exact Option.some.inj (hkey.symm.trans hkey')
      decide +kernel
    · simp [steps] at hw
  have hbuild : byVariable "-007" = .ok ⟨"one", false, [], "-7"⟩ := by decide +kernel
  have hnumeral : Environment.reprinted "-007" = "-7" := by decide +kernel
  have hword : Environment.reprinted "glossary" = "glossary" := by decide +kernel
  obtain ⟨hsame, hiff⟩ := variable_as_override twoFiles (.inr rfl) hvariable huntouched "-007"
  obtain ⟨hsame', -⟩ := variable_as_override twoFiles (.inr rfl) hvariable huntouched "glossary"
  rw [hnumeral] at hsame
  rw [hword] at hsame'
  refine ⟨hbuild, hsame, fun heq => ?_, hsame'⟩
  have hkept := (hiff _ hbuild).1 (heq.symm.trans hbuild)
  rw [hnumeral] at hkept
  exact absurd hkept (by decide)

/-- Zeros before a number are kept by an override, and lost by a variable. -/
theorem zeros_dropped :
    ¬ ∀ v, buildSteps (fun _ => .missing) [("PIYATHON_HL_OUTPUT__FORMAT", v)] [] =
      buildSteps (fun _ => .missing) [] [.format v] := by
  intro h
  have hvariable : buildSteps (fun _ => .missing) [("PIYATHON_HL_OUTPUT__FORMAT", "007")] [] =
      .ok ⟨"piyathon", true, [], "7"⟩ := by decide +kernel
  have hcaller : buildSteps (fun _ => .missing) [] [.format "007"] = .ok ⟨"piyathon", true, [], "007"⟩ := by
    decide +kernel
  have heq := h "007"
  rw [hvariable, hcaller] at heq
  exact absurd heq (by decide)

end Lexicolor.Settings
