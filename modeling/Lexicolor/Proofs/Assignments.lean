/-
What an assignment does to a setting. A setting is a field of one of two records (`Setting`), and a table of
values holds it under the name of its record and its own, or at its place if the record is a list
(`Setting.at?`). Below, each kind of assignment either leaves a field of a record alone, or takes it away with
the record around it, or decides what it is, whatever stood there (`Settles`): tables are merged into what is
there, entry by entry, and everything else replaces it. So what is found at a setting after an assignment is
what the assignment gives by itself, or what was found there before (`Gives`), and so it is after any number of
assignments: the last one that gives something wins (`Gives.foldl`).

Only two kinds of keys are different, because what they do depends on the list that they meet: those that go
through a place in the list that a setting is, and those that count from the end of its record
(`KeyPath.Mixes`). They are harmless where a layer above them gives the setting, so of layers over each other
no more need be merged than those down to the first that gives it (`Setting.MergedDown`).
-/
import Lexicolor.Settings.Loader
import Lexicolor.Proofs.SortedTables

namespace Lexicolor.Settings

theorem getLast?_filterMap_cons {α β : Type} (f : α → Option β) (a : α) (l : List α) :
    ((a :: l).filterMap f).getLast? = (l.filterMap f).getLast?.or (f a) := by
  cases ha : f a with
  | none => rw [List.filterMap_cons_none ha, Option.or_none]
  | some b =>
    rw [List.filterMap_cons_some ha, List.getLast?_cons]
    cases (l.filterMap f).getLast? <;> rfl

/-- The fields of the two records that settings are read from. -/
inductive Setting where
  | defaultLanguage
  | validateGrammars
  | grammarFiles
  | format
deriving DecidableEq

namespace Setting

/-- The record of a setting. -/
def table : Setting → String
  | format => "output"
  | _ => "engine"

def name : Setting → String
  | defaultLanguage => "default_language"
  | validateGrammars => "validate_grammars"
  | grammarFiles => "grammar_files"
  | format => "format"

/-- The place of a setting in its record, if that is given as a list. -/
def index : Setting → Nat
  | defaultLanguage => 0
  | validateGrammars => 1
  | grammarFiles => 2
  | format => 0

def key (k : Setting) : String := k.table ++ "." ++ k.name

def path (k : Setting) : KeyPath := .entry (.name k.table) k.name

theorem read?_key (k : Setting) : KeyPath.read? k.key = some k.path := by cases k <;> decide +kernel

theorem lowercase_table (k : Setting) : Text.lowercase k.table = k.table := by cases k <;> decide +kernel

theorem lowercase_name (k : Setting) : Text.lowercase k.name = k.name := by cases k <;> decide +kernel

end Setting

/-! ## Values of settings -/

namespace Value

variable {v t : Value} {name key : String}

/-- What a value is for a setting: itself, unless it is a table, which only brings its entries, or fills a
place in a list that nothing was put into. -/
def own? : Value → Option Value
  | table _ _ | nothing => none
  | v => some v

/-- A field of a record, by its name or by its place. -/
def field? (v : Value) (index : Nat) (name : String) : Option Value :=
  match v with
  | list _ items => items[index]?
  | v => v.entries.get? name

/-- A value is a table. -/
def IsTable (v : Value) : Prop := ∃ o es, v = table o es

theorem IsTable.own? (h : v.IsTable) : v.own? = none := by
  obtain ⟨o, es, rfl⟩ := h
  rfl

theorem put_isTable (key : String) (entry v : Value) : (v.put key entry).IsTable := ⟨_, _, rfl⟩

theorem entries_put (key : String) (entry v : Value) : (v.put key entry).entries = SortedTable.put key entry v.entries :=
  rfl

theorem get?_put (key other : String) (entry v : Value) :
    (v.put key entry).entries.get? other = if other = key then some entry else v.entries.get? other := by
  rw [entries_put]
  split
  · next h => rw [h, SortedTable.get?_put_self]
  · next h => exact SortedTable.get?_put_of_ne entry h

theorem entries_asTable (v : Value) : v.asTable.entries = v.entries := by cases v <;> rfl

/-! ## Assigned values -/

/-- What stands under a name once a value is assigned to it: a table is merged into what stood there. -/
def mergedInto (old : Option Value) : Value → Value
  | table _ es => assignAll (old.getD emptyTable) es
  | v => v

theorem assign_eq (t : Value) (name : String) (v : Value) : t.assign name v =
    t.put (Text.lowercase name) (mergedInto (t.entries.get? (Text.lowercase name)) v) := by
  cases v <;> simp [assign, mergedInto]

theorem assign_isTable (t : Value) (name : String) (v : Value) : (t.assign name v).IsTable := by
  rw [assign_eq]
  exact put_isTable ..

theorem IsTable.assignAll (h : t.IsTable) : ∀ es : List (String × Value), (t.assignAll es).IsTable := by
  intro es
  induction es generalizing t with
  | nil => simpa [Value.assignAll] using h
  | cons e es ih =>
    rw [Value.assignAll]
    exact ih (assign_isTable ..)

theorem isTable_or_mergedInto (v : Value) : v.IsTable ∨ ∀ old, mergedInto old v = v := by
  cases v with
  | table o es => exact .inl ⟨o, es, rfl⟩
  | _ => exact .inr fun old => rfl

theorem mergedInto_of_own? {old : Option Value} (h : v.own? = some v) : mergedInto old v = v := by
  cases v with
  | table o es => cases h
  | _ => rfl

/-- What is assigned decides what a name then stands for, except that an empty table changes nothing. -/
theorem own?_mergedInto (v : Value) : (∀ old, (mergedInto old v).own? = old.bind own?) ∨
    ∃ c, ∀ old, (mergedInto old v).own? = c := by
  rcases v.isTable_or_mergedInto with ⟨o, es, rfl⟩ | hsame
  · cases es with
    | nil =>
      refine .inl fun old => ?_
      simp only [mergedInto, assignAll]
      cases old <;> rfl
    | cons e es =>
      refine .inr ⟨none, fun old => ?_⟩
      rw [mergedInto, assignAll]
      exact ((assign_isTable ..).assignAll es).own?
  · exact .inr ⟨v.own?, fun old => by rw [hsame]⟩

theorem own?_mergedInto_none (v : Value) : (mergedInto none v).own? = v.own? := by
  rcases v.isTable_or_mergedInto with ⟨o, es, rfl⟩ | hsame
  · have htable : emptyTable.IsTable := ⟨_, _, rfl⟩
    exact (htable.assignAll es).own?
  · rw [hsame]

end Value

/-! ## A field of a record -/

variable {k : Setting} {f g : Value → Value}

namespace Setting

/-- A setting in its record. -/
def ofRecord? (k : Setting) (record : Value) : Option Value := (record.field? k.index k.name).bind Value.own?

/-- A setting in its record by its name. -/
def named? (k : Setting) (record : Value) : Option Value := (record.entries.get? k.name).bind Value.own?

/-- **What a table of values holds for a setting.** -/
def at? (k : Setting) (root : Value) : Option Value := (root.entries.get? k.table).bind k.ofRecord?

theorem ofRecord?_of_isTable {record : Value} (h : record.IsTable) : k.ofRecord? record = k.named? record := by
  obtain ⟨o, es, rfl⟩ := h
  rfl

/-- A record that is no table has no named fields. -/
theorem ofRecord?_of_named? {record w : Value} (h : k.named? record = some w) : k.ofRecord? record = some w := by
  cases record with
  | table o es => exact h
  | _ => cases h

/-- A record that is no list has no items. -/
theorem ofRecord?_of_items {record w : Value} (h : (record.items[k.index]?).bind Value.own? = some w) :
    k.ofRecord? record = some w := by
  cases record with
  | list o items => exact h
  | _ => cases h

theorem named?_asTable (record : Value) : k.named? record.asTable = k.named? record := by
  rw [named?, named?, Value.entries_asTable]

end Setting

/-- A change leaves a named field alone, or decides what it is. -/
def SettlesName (k : Setting) (f : Value → Value) : Prop :=
  (∀ t, k.named? (f t) = k.named? t) ∨ ∃ c, ∀ t, k.named? (f t) = c

theorem SettlesName.comp (hf : SettlesName k f) (hg : SettlesName k g) : SettlesName k (fun t => g (f t)) := by
  rcases hg with hkeep | ⟨c, hc⟩
  · rcases hf with hkeep' | ⟨c, hc⟩
    · exact .inl fun t => by rw [hkeep, hkeep']
    · exact .inr ⟨c, fun t => by rw [hkeep, hc]⟩
  · exact .inr ⟨c, fun t => hc (f t)⟩

theorem Setting.named?_assign (t : Value) (name : String) (v : Value) : k.named? (t.assign name v) =
    if k.name = Text.lowercase name then (Value.mergedInto (t.entries.get? k.name) v).own? else k.named? t := by
  rw [named?, Value.assign_eq, Value.get?_put]
  by_cases hname : k.name = Text.lowercase name
  · simp [hname]
  · simp [hname, named?]

theorem settlesName_assign (name : String) (v : Value) : SettlesName k (·.assign name v) := by
  by_cases hname : k.name = Text.lowercase name
  · rcases Value.own?_mergedInto v with hkeep | ⟨c, hc⟩
    · exact .inl fun t => by rw [Setting.named?_assign, if_pos hname, hkeep, Setting.named?]
    · exact .inr ⟨c, fun t => by rw [Setting.named?_assign, if_pos hname, hc]⟩
  · exact .inl fun t => by rw [Setting.named?_assign, if_neg hname]

theorem settlesName_assignAll (es : List (String × Value)) : SettlesName k (·.assignAll es) := by
  induction es with
  | nil => exact .inl fun t => by simp only [Value.assignAll]
  | cons e es ih =>
    have hcomp := (settlesName_assign (k := k) e.1 e.2).comp ih
    simpa only [Value.assignAll] using hcomp

/-- A change of a record leaves a setting alone or takes it away, or it decides what it is. -/
def Settles (k : Setting) (f : Value → Value) : Prop :=
  (∀ record w, k.ofRecord? (f record) = some w → k.ofRecord? record = some w) ∨ ∃ c, ∀ record, k.ofRecord? (f record) = c

/-- What the change leaves for a setting does not depend on what it changes. -/
def Fixed (f : Value → Value) : Prop := ∃ c, ∀ v, (f v).own? = c

theorem Fixed.of_isTable (h : ∀ v, (f v).IsTable) : Fixed f := ⟨none, fun v => (h v).own?⟩

/-- A record that becomes a table loses what it had as a list. -/
theorem SettlesName.settles (h : SettlesName k f) (htable : ∀ record, (f record).IsTable) : Settles k f := by
  rcases h with hkeep | ⟨c, hc⟩
  · refine .inl fun record w hw => ?_
    rw [Setting.ofRecord?_of_isTable (htable record), hkeep] at hw
    exact Setting.ofRecord?_of_named? hw
  · exact .inr ⟨c, fun record => by rw [Setting.ofRecord?_of_isTable (htable record), hc]⟩

theorem Value.changeEntry_isTable (f : Value → Value) (name : String) (v : Value) : (v.changeEntry f name).IsTable :=
  Value.put_isTable ..

/-- A change of an entry of a record. -/
theorem settles_changeEntry {name : String} (hf : k.name = Text.lowercase name → Fixed f) :
    Settles k (Value.changeEntry f name) := by
  refine SettlesName.settles ?_ (Value.changeEntry_isTable f name)
  by_cases hname : k.name = Text.lowercase name
  · obtain ⟨c, hc⟩ := hf hname
    refine .inr ⟨c, fun t => ?_⟩
    rw [Setting.named?, Value.changeEntry, Value.get?_put, if_pos hname]
    exact hc _
  · refine .inl fun t => ?_
    rw [Setting.named?, Value.changeEntry, Value.get?_put, if_neg hname, Setting.named?]

/-- Places that nothing was put into hold no setting. -/
theorem own?_filled (items : List Value) (m i : Nat) :
    ((items ++ List.replicate m Value.nothing)[i]?).bind Value.own? = (items[i]?).bind Value.own? := by
  rw [List.getElem?_append]
  split
  · rfl
  · next hi =>
    rw [List.getElem?_replicate, List.getElem?_eq_none (not_lt.1 hi)]
    split <;> rfl

/-- A change of an item, not counted from the end, of a record that is, or becomes, a list. A setting at another
place is left alone if the record was a list. -/
theorem settles_changeItem {i : Int} (hi : ¬ i < 0) (hf : i = k.index → Fixed f) :
    Settles k (Value.changeItem f i) := by
  obtain ⟨n, rfl⟩ := Int.eq_ofNat_of_zero_le (not_lt.1 hi)
  have hat : ∀ record : Value, k.ofRecord? (record.changeItem f n) =
      (((record.items ++ List.replicate (n + 1 - record.items.length) Value.nothing).modify n f)[k.index]?).bind
        Value.own? := fun record => rfl
  by_cases hn : n = k.index
  · obtain ⟨c, hc⟩ := hf (congrArg Int.ofNat hn)
    refine .inr ⟨c, fun record => ?_⟩
    have hlength : n < (record.items ++ List.replicate (n + 1 - record.items.length) Value.nothing).length := by
      rw [List.length_append, List.length_replicate]
      omega
    rw [hat, ← hn, List.getElem?_modify_eq, List.getElem?_eq_getElem hlength]
    exact hc _
  · refine .inl fun record w hw => Setting.ofRecord?_of_items ?_
    rwa [hat, List.getElem?_modify_ne _ _ hn, own?_filled] at hw

/-! ## A setting in a table of values -/

/-- **What a change gives to a setting**: what is found there afterwards is that or, where it gives nothing,
what was found there before. -/
def Gives (k : Setting) (f : Value → Value) (given : Option Value) : Prop :=
  ∀ root w, k.at? (f root) = some w → given.or (k.at? root) = some w

variable {given given' : Option Value}

theorem Gives.comp (hf : Gives k f given) (hg : Gives k g given') : Gives k (fun root => g (f root)) (given'.or given) := by
  intro root w hw
  rw [Option.or_assoc]
  have h := hg (f root) w hw
  cases given' with
  | some v => exact h
  | none => exact hf root w h

/-- **The last change that gives something** decides what is found. -/
theorem Gives.foldl {α : Type} (change : Value → α → Value) (gives : α → Option Value) {es : List α}
    (h : ∀ e ∈ es, Gives k (fun root => change root e) (gives e)) :
    Gives k (fun root => es.foldl change root) (es.filterMap gives).getLast? := by
  induction es with
  | nil => exact fun root w hw => hw
  | cons e es ih =>
    have hcomp := (h e List.mem_cons_self).comp (ih fun e' he => h e' (List.mem_cons_of_mem _ he))
    rw [getLast?_filterMap_cons]
    exact hcomp

/-! ## What an assignment gives by itself -/

/-- What a change gives to a setting where nothing was before. -/
def Setting.alone? (k : Setting) (f : Value → Value) : Option Value := k.at? (f .emptyTable)

/-- A change that gives nothing: it leaves a setting alone or takes it away. -/
theorem Gives.alone_of_kept (h : ∀ root w, k.at? (f root) = some w → k.at? root = some w) :
    Gives k f (k.alone? f) := by
  have halone : k.alone? f = none := Option.eq_none_iff_forall_ne_some.2 fun w hw => by cases h .emptyTable w hw
  intro root w hw
  rw [halone, Option.none_or]
  exact h root w hw

theorem Gives.alone_of_const {c : Option Value} (h : ∀ root, k.at? (f root) = c) : Gives k f (k.alone? f) := by
  have halone : k.alone? f = c := h .emptyTable
  intro root w hw
  rw [halone, ← h root, hw, Option.some_or]

/-- A change of the record of a setting; `empty` stands for it where there is none. -/
theorem Gives.alone_of_record (empty : Value) (hempty : k.ofRecord? empty = none)
    (hf : ∀ root, k.at? (f root) = k.ofRecord? (g ((root.entries.get? k.table).getD empty)))
    (hsettles : Settles k g) : Gives k f (k.alone? f) := by
  rcases hsettles with hkeep | ⟨c, hc⟩
  · refine .alone_of_kept fun root w hw => ?_
    rw [hf] at hw
    have hrecord := hkeep _ w hw
    rw [Setting.at?]
    cases hget : root.entries.get? k.table with
    | none => rw [hget, Option.getD_none, hempty] at hrecord; cases hrecord
    | some record =>
      rw [hget, Option.getD_some] at hrecord
      exact hrecord
  · exact .alone_of_const fun root => by rw [hf, hc]

theorem Setting.at?_put (key : String) (entry root : Value) :
    k.at? (root.put key entry) = if k.table = key then k.ofRecord? entry else k.at? root := by
  rw [Setting.at?, Value.get?_put]
  by_cases hkey : k.table = key
  · rw [if_pos hkey, if_pos hkey, Option.bind_some]
  · rw [if_neg hkey, if_neg hkey, Setting.at?]

theorem gives_assign (name : String) (v : Value) : Gives k (·.assign name v) (k.alone? (·.assign name v)) := by
  by_cases hname : k.table = Text.lowercase name
  · have hat : ∀ root : Value, k.at? (root.assign name v) =
        k.ofRecord? (Value.mergedInto (root.entries.get? k.table) v) := by
      intro root
      rw [Value.assign_eq, Setting.at?_put, if_pos hname, hname]
    rcases v.isTable_or_mergedInto with ⟨o, es, rfl⟩ | hsame
    · refine .alone_of_record (g := (·.assignAll es)) .emptyTable rfl (fun root => by rw [hat, Value.mergedInto]) ?_
      cases es with
      | nil => exact .inl fun record w hw => by simpa only [Value.assignAll] using hw
      | cons e es =>
        refine (settlesName_assignAll (e :: es)).settles fun t => ?_
        rw [Value.assignAll]
        exact (Value.assign_isTable ..).assignAll es
    · exact .alone_of_const fun root => by rw [hat, hsame]
  · exact .alone_of_kept fun root w hw => by rwa [Value.assign_eq, Setting.at?_put, if_neg hname] at hw

/-- A change of an entry of the root. -/
theorem gives_changeEntry {name : String} (hf : k.table = Text.lowercase name → Settles k f) :
    Gives k (Value.changeEntry f name) (k.alone? (Value.changeEntry f name)) := by
  by_cases hname : k.table = Text.lowercase name
  · refine .alone_of_record .nothing rfl (fun root => ?_) (hf hname)
    rw [Value.changeEntry, Setting.at?_put, if_pos hname, hname]
  · exact .alone_of_kept fun root w hw => by rwa [Value.changeEntry, Setting.at?_put, if_neg hname] at hw

/-! ## Paths -/

namespace KeyPath

/-- The path of the record of a setting. -/
def IsRecord (k : Setting) : KeyPath → Prop
  | name s => k.table = Text.lowercase s
  | _ => False

/-- The path of a setting, by its name or by its place. A place that is counted from the end of the record may
be that of any setting. -/
def IsField (k : Setting) : KeyPath → Prop
  | name _ => False
  | entry table s => table.IsRecord k ∧ k.name = Text.lowercase s
  | item list i => list.IsRecord k ∧ (i < 0 ∨ i = k.index)

/-- The path goes through a place in the list that a setting is, or through one that is counted from the end of
its record: a value that is set there is mixed with the list below it. -/
def Mixes (k : Setting) : KeyPath → Prop
  | name _ => False
  | entry table _ => table.Mixes k
  | item list i => list.Mixes k ∨ list.IsField k ∨ list.IsRecord k ∧ i < 0

instance decidableIsRecord (k : Setting) : ∀ p : KeyPath, Decidable (p.IsRecord k)
  | name s => inferInstanceAs (Decidable (k.table = Text.lowercase s))
  | entry _ _ | item _ _ => isFalse id

instance decidableIsField (k : Setting) : ∀ p : KeyPath, Decidable (p.IsField k)
  | name _ => isFalse id
  | entry table s => inferInstanceAs (Decidable (table.IsRecord k ∧ k.name = Text.lowercase s))
  | item list i => inferInstanceAs (Decidable (list.IsRecord k ∧ (i < 0 ∨ i = k.index)))

instance decidableMixes (k : Setting) : ∀ p : KeyPath, Decidable (p.Mixes k)
  | name _ => isFalse id
  | entry table _ => decidableMixes k table
  | item list i =>
    have := decidableMixes k list
    inferInstanceAs (Decidable (list.Mixes k ∨ list.IsField k ∨ list.IsRecord k ∧ i < 0))

end KeyPath

/-- A change somewhere below the root. Where the path leads to the setting itself, what the change leaves must
not depend on what was there. -/
theorem gives_change : ∀ {p : KeyPath} {f : Value → Value}, ¬ p.Mixes k → (p.IsRecord k → Settles k f) →
    (p.IsField k → Fixed f) → Gives k (p.change f) (k.alone? (p.change f))
  | .name s, f, _, hrecord, _ => gives_changeEntry hrecord
  | .entry p s, f, hmixes, _, hfield =>
    gives_change (p := p) hmixes (fun hp => settles_changeEntry fun hname => hfield ⟨hp, hname⟩)
      fun _ => .of_isTable (Value.changeEntry_isTable f s)
  | .item p i, f, hmixes, _, hfield => by
    obtain ⟨hp, hown, hend⟩ : ¬ p.Mixes k ∧ ¬ p.IsField k ∧ ¬ (p.IsRecord k ∧ i < 0) := by
      simpa [KeyPath.Mixes] using hmixes
    exact gives_change (p := p) hp
      (fun hrecord => settles_changeItem (fun hi => hend ⟨hrecord, hi⟩) fun hi => hfield ⟨hrecord, .inr hi⟩)
      fun h => absurd h hown

/-- What a value set at the end of a path does to a setting. -/
theorem gives_set {p : KeyPath} (h : ¬ p.Mixes k) (v : Value) : Gives k (p.set v) (k.alone? (p.set v)) := by
  cases p with
  | name s => exact gives_assign s v
  | entry p s =>
    have htable : ∀ t : Value, (t.asTable.assign s v).IsTable := fun t => Value.assign_isTable ..
    have hname : SettlesName k fun t : Value => t.asTable.assign s v :=
      SettlesName.comp (.inl Setting.named?_asTable) (settlesName_assign s v)
    exact gives_change (p := p) h (fun _ => hname.settles htable) fun _ => .of_isTable htable
  | item p i =>
    have hfixed : Fixed fun _ => v := ⟨v.own?, fun _ => rfl⟩
    exact gives_change (p := .item p i) h False.elim fun _ => hfixed

theorem gives_setKey {key : String} (h : ∀ p ∈ KeyPath.read? key, ¬ p.Mixes k) (v : Value) :
    Gives k (·.setKey key v) (k.alone? (·.setKey key v)) := by
  unfold Value.setKey
  cases hpath : KeyPath.read? key with
  | none => exact gives_assign key v
  | some p => exact gives_set (h p hpath) v

/-! ## Layers -/

/-- What a layer gives to a setting: the last of its entries that gives something. -/
def Setting.given? (k : Setting) (layer : List (String × Value)) : Option Value :=
  (layer.filterMap fun e => k.alone? (·.setKey e.1 e.2)).getLast?

/-- A layer is merged into those below it: none of its keys mixes the setting. -/
def Setting.MergedIn (k : Setting) (layer : List (String × Value)) : Prop :=
  ∀ e ∈ layer, ∀ p ∈ KeyPath.read? e.1, ¬ p.Mixes k

instance (layer : List (String × Value)) : Decidable (k.MergedIn layer) :=
  inferInstanceAs (Decidable (∀ e ∈ layer, ∀ p ∈ KeyPath.read? e.1, ¬ p.Mixes k))

theorem Value.overlay_eq (root : Value) (layer : List (String × Value)) :
    root.overlay layer = layer.foldl (fun root e => root.setKey e.1 e.2) root := rfl

theorem gives_overlay {layer : List (String × Value)} (h : k.MergedIn layer) :
    Gives k (·.overlay layer) (k.given? layer) := by
  have hentries : ∀ e ∈ layer, Gives k (fun root : Value => root.setKey e.1 e.2) (k.alone? (·.setKey e.1 e.2)) :=
    fun e he => gives_setKey (h e he) e.2
  simp only [Value.overlay_eq, Setting.given?]
  exact Gives.foldl _ _ hentries

/-- The layers, the highest first, are merged down to the first that gives the setting. -/
def Setting.MergedDown (k : Setting) : List (List (String × Value)) → Prop
  | [] => True
  | layer :: below => k.MergedIn layer ∧ (k.given? layer = none → k.MergedDown below)

instance decidableMergedDown : ∀ layers, Decidable (k.MergedDown layers)
  | [] => isTrue trivial
  | layer :: below =>
    have := decidableMergedDown below
    inferInstanceAs (Decidable (k.MergedIn layer ∧ (k.given? layer = none → k.MergedDown below)))

/-- **Layers over each other**: the highest that gives something decides what is found. -/
theorem gives_overlays {layers : List (List (String × Value))} (h : k.MergedDown layers) :
    Gives k (fun root => layers.reverse.foldl Value.overlay root) (layers.filterMap k.given?).head? := by
  induction layers with
  | nil => exact fun root w hw => hw
  | cons layer below ih =>
    obtain ⟨hlayer, hbelow⟩ := h
    intro root w hw
    have hw : k.at? ((below.reverse.foldl Value.overlay root).overlay layer) = some w := by simpa using hw
    have hgives := gives_overlay hlayer _ w hw
    cases hgiven : k.given? layer with
    | some v => simpa [hgiven] using hgives
    | none =>
      rw [hgiven, Option.none_or] at hgives
      rw [List.filterMap_cons_none hgiven]
      exact ih (hbelow hgiven) root w hgives

end Lexicolor.Settings
