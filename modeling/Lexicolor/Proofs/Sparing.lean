/-
Changes that spare a setting. Setting a value at a path that neither leads to a setting nor ends on the way
to it (`KeyPath.Avoids`) puts one entry into another table, or one field beside the setting into its record
(`Spares`): so it keeps what the setting holds (`Holds.spare`), and two tables of values that hold the same but
for the setting go on doing so (`AgreeBut.spare`).

If both then hold the setting, by values that are read alike, they are decoded alike (`decode_congr`). So it
does not matter when the value of a setting is put in, as long as nothing else is put in its place.
-/
import Lexicolor.Proofs.Assignments

namespace Lexicolor.Settings

variable {k : Setting} {a b c root v x y : Value}

/-- The record of a setting, as far as there is one. -/
def Setting.record (k : Setting) (root : Value) : Value := (root.entries.get? k.table).getD .nothing

/-! ## Agreement -/

/-- The two hold the same but for one setting. -/
structure AgreeBut (k : Setting) (a b : Value) : Prop where
  table : ∀ key, key ≠ k.table → a.entries.get? key = b.entries.get? key
  field : ∀ name, name ≠ k.name → (k.record a).entries.get? name = (k.record b).entries.get? name

theorem AgreeBut.symm (h : AgreeBut k a b) : AgreeBut k b a :=
  ⟨fun key hkey => (h.table key hkey).symm, fun name hname => (h.field name hname).symm⟩

theorem AgreeBut.trans (h : AgreeBut k a b) (h' : AgreeBut k b c) : AgreeBut k a c :=
  ⟨fun key hkey => (h.table key hkey).trans (h'.table key hkey),
    fun name hname => (h.field name hname).trans (h'.field name hname)⟩

/-- The setting is a field of a table, and this is its value. -/
def Holds (k : Setting) (x root : Value) : Prop :=
  ∃ record, root.entries.get? k.table = some record ∧ record.IsTable ∧ record.entries.get? k.name = some x

theorem Holds.at? (h : Holds k x root) : k.at? root = x.own? := by
  obtain ⟨record, hrecord, htable, hx⟩ := h
  rw [Setting.at?, hrecord, Option.bind_some, Setting.ofRecord?_of_isTable htable, Setting.named?, hx,
    Option.bind_some]

theorem Setting.record_put_of_ne {key : String} (h : key ≠ k.table) (entry root : Value) :
    k.record (root.put key entry) = k.record root := by
  rw [record, Value.get?_put, if_neg (Ne.symm h), record]

theorem Setting.record_put (record root : Value) : k.record (root.put k.table record) = record := by
  rw [Setting.record, Value.get?_put, if_pos rfl, Option.getD_some]

/-! ## Setting the value itself -/

theorem Value.put_asTable (key : String) (entry v : Value) : v.asTable.put key entry = v.put key entry := by
  cases v <;> rfl

/-- A value that is no table is put into the record of the setting. -/
theorem Setting.set_path (hv : v.own? = some v) (root : Value) :
    k.path.set v root = root.put k.table ((k.record root).put k.name v) := by
  have hassign : ∀ record : Value, record.asTable.assign k.name v = record.put k.name v := by
    intro record
    rw [Value.assign_eq, lowercase_name, Value.mergedInto_of_own? hv, Value.put_asTable]
  rw [path, KeyPath.set, KeyPath.change, Value.changeEntry, lowercase_table, hassign]
  rfl

theorem Holds.set_path (hv : v.own? = some v) (root : Value) : Holds k v (k.path.set v root) := by
  rw [Setting.set_path hv]
  refine ⟨(k.record root).put k.name v, ?_, Value.put_isTable .., ?_⟩
  · rw [Value.get?_put, if_pos rfl]
  · rw [Value.get?_put, if_pos rfl]

theorem AgreeBut.set_path (hv : v.own? = some v) (root : Value) : AgreeBut k (k.path.set v root) root := by
  rw [Setting.set_path hv]
  refine ⟨fun key hkey => ?_, fun name hname => ?_⟩
  · rw [Value.get?_put, if_neg hkey]
  · rw [Setting.record_put, Value.get?_put, if_neg hname]

/-! ## Setting other values -/

/-- A change puts one entry into another table, or one field beside the setting into its record; what it puts
there depends on what stood there alone. -/
def Spares (k : Setting) (f : Value → Value) : Prop :=
  (∃ key, key ≠ k.table ∧ ∃ g : Option Value → Value, ∀ root, f root = root.put key (g (root.entries.get? key))) ∨
  ∃ name, name ≠ k.name ∧ ∃ g : Option Value → Value, ∀ root,
    f root = root.put k.table ((k.record root).put name (g ((k.record root).entries.get? name)))

variable {f : Value → Value}

theorem Holds.spare (hf : Spares k f) (h : Holds k x root) : Holds k x (f root) := by
  obtain ⟨record, hrecord, htable, hx⟩ := h
  rcases hf with ⟨key, hkey, g, hf⟩ | ⟨name, hname, g, hf⟩
  · refine ⟨record, ?_, htable, hx⟩
    rw [hf, Value.get?_put, if_neg (Ne.symm hkey), hrecord]
  · have hk : k.record root = record := by rw [Setting.record, hrecord, Option.getD_some]
    refine ⟨(k.record root).put name (g ((k.record root).entries.get? name)), ?_, Value.put_isTable .., ?_⟩
    · rw [hf, Value.get?_put, if_pos rfl]
    · rw [Value.get?_put, if_neg (Ne.symm hname), hk, hx]

theorem AgreeBut.spare (hf : Spares k f) (h : AgreeBut k a b) : AgreeBut k (f a) (f b) := by
  rcases hf with ⟨key, hkey, g, hf⟩ | ⟨name, hname, g, hf⟩
  · refine ⟨fun other hother => ?_, fun name hname => ?_⟩
    · rw [hf, hf, Value.get?_put, Value.get?_put, h.table key hkey, h.table other hother]
    · rw [hf, hf, Setting.record_put_of_ne hkey, Setting.record_put_of_ne hkey, h.field name hname]
  · refine ⟨fun key hkey => ?_, fun other hother => ?_⟩
    · rw [hf, hf, Value.get?_put, Value.get?_put, if_neg hkey, if_neg hkey, h.table key hkey]
    · rw [hf, hf, Setting.record_put, Setting.record_put, Value.get?_put, Value.get?_put, h.field name hname,
        h.field other hother]

section Changes

variable {α : Type} {change : Value → α → Value} {es : List α}

theorem Holds.foldl (hes : ∀ e ∈ es, Spares k (change · e)) (h : Holds k x root) : Holds k x (es.foldl change root) :=
  List.foldlRecOn es change h fun _ h e he => h.spare (hes e he)

theorem AgreeBut.foldl (hes : ∀ e ∈ es, Spares k (change · e)) (h : AgreeBut k a b) :
    AgreeBut k (es.foldl change a) (es.foldl change b) :=
  List.foldl_rel h fun e he _ _ h => h.spare (hes e he)

end Changes

/-! ## Paths beside a setting -/

/-- A path neither leads to the setting, or to a place in it, nor ends on the way to it. -/
def KeyPath.Avoids (k : Setting) : KeyPath → Prop
  | .name s => Text.lowercase s ≠ k.table
  | .entry (.name t) s => Text.lowercase t ≠ k.table ∨ Text.lowercase s ≠ k.name
  | .entry table _ => table.Avoids k
  | .item list _ => list.Avoids k

instance KeyPath.decidableAvoids (k : Setting) : ∀ p : KeyPath, Decidable (p.Avoids k)
  | .name s => inferInstanceAs (Decidable (Text.lowercase s ≠ k.table))
  | .entry (.name t) s => inferInstanceAs (Decidable (Text.lowercase t ≠ k.table ∨ Text.lowercase s ≠ k.name))
  | .entry (.entry t s) _ => decidableAvoids k (.entry t s)
  | .entry (.item l i) _ => decidableAvoids k (.item l i)
  | .item l _ => decidableAvoids k l

/-- A change of an entry spares a setting unless the entry is its record, or is changed otherwise than beside
the setting. -/
theorem spares_changeEntry {t name : String} {h : Value → Value} {g : Option Value → Value}
    (hpath : Text.lowercase t ≠ k.table ∨ name ≠ k.name)
    (hh : ∀ record, h record = record.put name (g (record.entries.get? name))) :
    Spares k (Value.changeEntry h t) := by
  by_cases ht : Text.lowercase t = k.table
  · refine .inr ⟨name, hpath.resolve_left (not_not_intro ht), g, fun root => ?_⟩
    rw [Value.changeEntry, ht, hh]
    rfl
  · exact .inl ⟨_, ht, fun o => h (o.getD .nothing), fun root => rfl⟩

theorem KeyPath.Avoids.spares_change : ∀ {p : KeyPath}, p.Avoids k → ∀ f, Spares k (p.change f)
  | .name _, h, f => .inl ⟨_, h, fun o => f (o.getD .nothing), fun _ => rfl⟩
  | .entry (.name _) _, h, f => spares_changeEntry (g := fun o => f (o.getD .nothing)) h fun _ => rfl
  | .entry (.entry t s) s', h, f => spares_change (p := .entry t s) h (Value.changeEntry f s')
  | .entry (.item l i) s, h, f => spares_change (p := .item l i) h (Value.changeEntry f s)
  | .item l i, h, f => spares_change (p := l) h (Value.changeItem f i)

/-- **A value at a path that avoids the setting** spares it. -/
theorem KeyPath.Avoids.spares_set (v : Value) : ∀ {p : KeyPath}, p.Avoids k → Spares k (p.set v)
  | .name s, h => .inl ⟨_, h, fun o => Value.mergedInto o v, fun root => Value.assign_eq root s v⟩
  | .entry (.name t) s, h => by
    show Spares k (Value.changeEntry (fun record => record.asTable.assign s v) t)
    refine spares_changeEntry (g := fun o => Value.mergedInto o v) h fun record => ?_
    rw [Value.assign_eq, Value.put_asTable, Value.entries_asTable]
  | .entry (.entry t s) s', h => spares_change (p := .entry t s) h (fun w => w.asTable.assign s' v)
  | .entry (.item l i) s, h => spares_change (p := .item l i) h (fun w => w.asTable.assign s v)
  | .item l i, h => spares_change (p := l) h (Value.changeItem (fun _ => v) i)

/-- A key names no path that leads to the setting or ends on the way to it. -/
def Setting.IsApart (k : Setting) (key : String) : Prop := ((KeyPath.read? key).getD (.name key)).Avoids k

instance (key : String) : Decidable (k.IsApart key) := inferInstanceAs (Decidable (KeyPath.Avoids ..))

theorem Setting.IsApart.spares_setKey {key : String} (h : k.IsApart key) (v : Value) : Spares k (·.setKey key v) := by
  have hset : (fun root : Value => root.setKey key v) = ((KeyPath.read? key).getD (.name key)).set v := by
    funext root
    rw [Value.setKey]
    cases KeyPath.read? key <;> rfl
  rw [hset]
  exact h.spares_set v

theorem Setting.IsApart.avoids {key : String} {p : KeyPath} (h : k.IsApart key) (hp : KeyPath.read? key = some p) :
    p.Avoids k := by
  rw [IsApart, hp] at h
  exact h

theorem KeyPath.Avoids.ne_path {p : KeyPath} (h : p.Avoids k) : p ≠ k.path := by
  rintro rfl
  rcases h with h | h
  · exact h k.lowercase_table
  · exact h k.lowercase_name

/-! ## Decoding -/

/-- The settings that are texts. -/
def Setting.IsText (k : Setting) : Prop := k = .defaultLanguage ∨ k = .format

theorem field?_congr {α : Type} {es es' : SortedTable Value} {name : String} {index : Nat} {read : Value → Decoded α}
    (h : (es.get? name).map read = (es'.get? name).map read) :
    (Record.named es).field? index name read = (Record.named es').field? index name read := by
  simp only [Record.field?]
  cases hes : es.get? name <;> cases hes' : es'.get? name <;> simp_all

section Records

variable {o o' : Origin} {es es' : SortedTable Value}

theorem engine_congr (hlanguage : (es.get? "default_language").map text = (es'.get? "default_language").map text)
    (hvalidate : es.get? "validate_grammars" = es'.get? "validate_grammars")
    (hfiles : es.get? "grammar_files" = es'.get? "grammar_files") : engine (.table o es) = engine (.table o' es') := by
  simp only [engine, recordOf, bind, Except.bind]
  rw [field?_congr hlanguage, field?_congr (congrArg _ hvalidate), field?_congr (congrArg _ hfiles)]

theorem output_congr (hformat : (es.get? "format").map text = (es'.get? "format").map text) :
    output (.table o es) = output (.table o' es') := by
  simp only [output, recordOf, bind, Except.bind]
  rw [field?_congr hformat]

end Records

/-- **Values that agree but for a setting**, which both hold by values that are read as one text, are decoded
alike. -/
theorem decode_congr (hk : k.IsText) (h : AgreeBut k a b) (hx : Holds k x a) (hy : Holds k y b)
    (htext : text x = text y) : decode a = decode b := by
  obtain ⟨r, hr, ⟨o, es, rfl⟩, hx⟩ := hx
  obtain ⟨r', hr', ⟨o', es', rfl⟩, hy⟩ := hy
  have hx : SortedTable.get? es k.name = some x := hx
  have hy : SortedTable.get? es' k.name = some y := hy
  have hown : (SortedTable.get? es k.name).map text = (SortedTable.get? es' k.name).map text := by
    rw [hx, hy, Option.map_some, Option.map_some, htext]
  have hfield : ∀ name, name ≠ k.name → SortedTable.get? es name = SortedTable.get? es' name := by
    intro name hname
    have h := h.field name hname
    rw [Setting.record, Setting.record, hr, hr'] at h
    exact h
  have hrecords : (a.entries.get? "engine").map engine = (b.entries.get? "engine").map engine ∧
      (a.entries.get? "output").map output = (b.entries.get? "output").map output := by
    rcases hk with rfl | rfl
    · have hengine : engine (.table o es) = engine (.table o' es') :=
        engine_congr hown (hfield _ (by decide)) (hfield _ (by decide))
      refine ⟨?_, by rw [h.table "output" (by decide)]⟩
      rw [show a.entries.get? "engine" = _ from hr, show b.entries.get? "engine" = _ from hr', Option.map_some,
        Option.map_some, hengine]
    · have houtput : output (.table o es) = output (.table o' es') := output_congr hown
      refine ⟨by rw [h.table "engine" (by decide)], ?_⟩
      rw [show a.entries.get? "output" = _ from hr, show b.entries.get? "output" = _ from hr', Option.map_some,
        Option.map_some, houtput]
  obtain ⟨hengine, houtput⟩ := hrecords
  simp only [decode]
  rw [field?_congr hengine, field?_congr houtput]

end Lexicolor.Settings
