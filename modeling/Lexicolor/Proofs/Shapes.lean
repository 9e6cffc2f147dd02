/-
Records and their fields. An object that holds all fields of a shape in order is read field by field
(`Shape.decode_object`). The other way around, whatever way a record was written, what each field
makes of it and nothing else decides what was read, and no required field is left out: an invariant
of the fields that have come is enough (`Shape.decode_ok`).

A value read whole has been looked through for faults before (`Value.fault?`); what that says of its
parts is `fault?_arr` and `fault?_obj`.
-/
import Mathlib.Data.List.Nodup
import Lexicolor.Data.Decode

namespace Lexicolor.Data

variable {α β : Type}

theorem bind_eq_ok {ε : Type} {x : Except ε α} {f : α → Except ε β} {b : β} :
    x >>= f = .ok b ↔ ∃ a, x = .ok a ∧ f a = .ok b := by
  cases x with
  | error e => exact ⟨fun h => (by cases h), fun ⟨a, h, _⟩ => (by cases h)⟩
  | ok a => exact ⟨fun h => ⟨a, rfl, h⟩, fun ⟨a', h, hf⟩ => (by cases h; exact hf)⟩

/-- What was made of a part was made of a part that was read. -/
theorem bind_pure_ok {r : Decoded α} {set : α → β} {b : β} (h : (do return set (← r)) = .ok b) :
    ∃ a, r = .ok a ∧ set a = b := by
  obtain ⟨a, hr, h⟩ := bind_eq_ok.1 h
  exact ⟨a, hr, Except.ok.inj h⟩

theorem orFault_eq_ok {f : Option Fault} : orFault f = .ok () ↔ f = none := by
  cases f with
  | none => exact ⟨fun _ => rfl, fun _ => rfl⟩
  | some f => exact ⟨fun h => (by cases h), fun h => (by cases h)⟩

/-! ## Faults of a value that is read whole -/

theorem faultIn_eq_none {limit : Option Nat} {items : List Value} :
    Value.faultIn limit items = none ↔ ∀ v ∈ items, v.fault? limit = none := by
  induction items with
  | nil => simp [Value.faultIn]
  | cons v vs ih => simp [Value.faultIn, Option.or_eq_none_iff, ih]

theorem faultAmong_eq_none {n : Nat} {members : List (Key × Value)} :
    Value.faultAmong (some n) members = none ↔ ∀ m ∈ members, m.1 ≠ .other ∧ m.2.fault? (some n) = none := by
  induction members with
  | nil => simp [Value.faultAmong]
  | cons m ms ih =>
    obtain ⟨key, v⟩ := m
    by_cases hk : key = .other
    · simp [Value.faultAmong, hk]
    · simp [Value.faultAmong, Option.or_eq_none_iff, ih, hk]

/-- A list without fault: it is not too deep, and neither is any of its items. -/
theorem fault?_arr {n : Nat} {items : List Value} {fault : Option Fault} :
    (Value.arr items fault).fault? (some n) = none ↔
      1 < n ∧ (∀ v ∈ items, v.fault? (some (n - 1)) = none) ∧ fault = none := by
  by_cases h : n ≤ 1
  · simp [Value.fault?, h, Nat.not_lt.2 h]
  · simp [Value.fault?, h, Nat.not_le.1 h, Option.or_eq_none_iff, faultIn_eq_none]

/-- An object without fault: it is not too deep, and neither is any of its members. -/
theorem fault?_obj {n : Nat} {members : List (Key × Value)} {fault : Option Fault} :
    (Value.obj members fault).fault? (some n) = none ↔
      1 < n ∧ (∀ m ∈ members, m.1 ≠ .other ∧ m.2.fault? (some (n - 1)) = none) ∧ fault = none := by
  by_cases h : n ≤ 1
  · simp [Value.fault?, h, Nat.not_lt.2 h]
  · simp [Value.fault?, h, Nat.not_le.1 h, Option.or_eq_none_iff, faultAmong_eq_none]

theorem fault?_list {n : Nat} {items : List Value} : (Value.list items).fault? (some n) = none ↔
    1 < n ∧ ∀ v ∈ items, v.fault? (some (n - 1)) = none := by
  rw [Value.list, fault?_arr, and_iff_left rfl]

theorem fault?_object {n : Nat} {members : List (String × Value)} :
    (Value.object members).fault? (some n) = none ↔
      1 < n ∧ ∀ m ∈ members, m.2.fault? (some (n - 1)) = none := by
  rw [Value.object, fault?_obj, and_iff_left rfl, List.forall_mem_map]
  simp

/-! ## Levels -/

variable {mode inner : Mode}

theorem enter_direct {n : Nat} {inner : Mode} (h : (Mode.direct n).enter = .ok inner) :
    1 < n ∧ inner = .direct (n - 1) := by
  rw [Mode.enter] at h
  split at h
  · cases h
  · next hn => exact ⟨Nat.not_le.1 hn, (Except.ok.inj h).symm⟩

/-- The value is read with `n` levels left, or it was looked through with so many left. -/
def Within (mode : Mode) (n : Nat) (v : Value) : Prop := mode = .direct n ∨ mode = .whole ∧ v.fault? (some n) = none

namespace Within

variable {n : Nat} {v : Value} {fault : Option Fault}

theorem arr {items : List Value} (h : Within mode n (.arr items fault)) (henter : mode.enter = .ok inner) :
    1 < n ∧ ∀ w ∈ items, Within inner (n - 1) w := by
  rcases h with rfl | ⟨rfl, h⟩
  · obtain ⟨hn, rfl⟩ := enter_direct henter
    exact ⟨hn, fun w _ => .inl rfl⟩
  · obtain rfl := Except.ok.inj henter
    obtain ⟨hn, hitems, -⟩ := fault?_arr.1 h
    exact ⟨hn, fun w hw => .inr ⟨rfl, hitems w hw⟩⟩

theorem obj {members : List (Key × Value)} (h : Within mode n (.obj members fault))
    (henter : mode.enter = .ok inner) : 1 < n ∧ ∀ m ∈ members, Within inner (n - 1) m.2 := by
  rcases h with rfl | ⟨rfl, h⟩
  · obtain ⟨hn, rfl⟩ := enter_direct henter
    exact ⟨hn, fun w _ => .inl rfl⟩
  · obtain rfl := Except.ok.inj henter
    obtain ⟨hn, hmembers, -⟩ := fault?_obj.1 h
    exact ⟨hn, fun m hm => .inr ⟨rfl, (hmembers m hm).2⟩⟩

/-- A value that is held has no fault. -/
theorem hold (h : Within mode n v) (hold : Data.hold mode v = .ok ()) : v.fault? (some n) = none := by
  rcases h with rfl | ⟨rfl, h⟩
  · exact orFault_eq_ok.1 hold
  · exact h

end Within

/-! ## Lists -/

variable {item : Mode → Value → Decoded α}

/-- A list whose items are read one by one. -/
theorem listOf_list (henter : mode.enter = .ok inner) {write : α → Value} {as : List α}
    (h : ∀ a ∈ as, item inner (write a) = .ok a) : listOf item mode (.list (as.map write)) = .ok as := by
  have hitems : (as.map write).mapM (item inner) = .ok as := by
    induction as with
    | nil => rfl
    | cons a as ih =>
      obtain ⟨ha, has⟩ := List.forall_mem_cons.1 h
      rw [List.map_cons, List.mapM_cons, ha, ih has]
      rfl
  simp only [Value.list, listOf, henter, hitems, bind, Except.bind]
  rfl

theorem mapM_ok_mem {f : Value → Decoded α} : ∀ {vs : List Value} {as : List α}, vs.mapM f = .ok as →
    ∀ a ∈ as, ∃ v ∈ vs, f v = .ok a
  | [], as, h, a, ha => by
    obtain rfl := Except.ok.inj h
    cases ha
  | v :: vs, as, h, a, ha => by
    rw [List.mapM_cons, bind_eq_ok] at h
    obtain ⟨b, hb, h⟩ := h
    obtain ⟨bs, hbs, h⟩ := bind_eq_ok.1 h
    obtain rfl := Except.ok.inj h
    rcases List.mem_cons.1 ha with rfl | ha
    · exact ⟨v, by simp, hb⟩
    · obtain ⟨w, hw, h⟩ := mapM_ok_mem hbs a ha
      exact ⟨w, by simp [hw], h⟩

theorem wrongType_ne_ok {v : Value} {expected : String} {a : α} : wrongType v expected ≠ .ok a := by
  cases v <;> exact fun h => by cases h

/-- What was read as a list was read item by item, one level further in. -/
theorem listOf_ok {n : Nat} {v : Value} {as : List α} (h : listOf item mode v = .ok as) (hv : Within mode n v) :
    1 < n ∧ ∃ inner, mode.enter = .ok inner ∧ ∀ a ∈ as, ∃ w, Within inner (n - 1) w ∧ item inner w = .ok a := by
  unfold listOf at h
  split at h
  · next items fault =>
    obtain ⟨inner, henter, h⟩ := bind_eq_ok.1 h
    obtain ⟨bs, hbs, h⟩ := bind_eq_ok.1 h
    obtain ⟨_, -, h⟩ := bind_eq_ok.1 h
    obtain rfl := Except.ok.inj h
    obtain ⟨hn, hitems⟩ := hv.arr henter
    refine ⟨hn, inner, henter, fun a ha => ?_⟩
    obtain ⟨w, hw, h⟩ := mapM_ok_mem hbs a ha
    exact ⟨w, hitems w hw, h⟩
  · exact absurd h wrongType_ne_ok

/-! ## Records -/

namespace Shape

variable {s : Shape α} {a b : α}

theorem fieldOf_name {field : String} (h : field ∈ s.fields.map (·.1)) :
    s.fieldOf (.name field) = .ok (some field) := by
  obtain ⟨f, hf, rfl⟩ := List.mem_map.1 h
  have hany : (s.fields.any (·.1 == f.1)) = true := List.any_eq_true.2 ⟨f, hf, by simp⟩
  simp [fieldOf, hany]

/-- Members that name different fields, none of which has come before, are read one by one. -/
theorem fromMembers_names : ∀ {members : List (String × Value)} (seen : List String) {a b : α},
    (∀ m ∈ members, m.1 ∈ s.fields.map (·.1) ∧ m.1 ∉ seen) → (members.map (·.1)).Nodup →
    members.foldlM (fun a m => s.set inner a m.1 m.2) a = .ok b →
    s.fromMembers inner (members.map fun (k, v) => (.name k, v)) seen a =
      .ok (b, (members.map (·.1)).reverse ++ seen)
  | [], _, _, _, _, _, h => by
    obtain rfl := Except.ok.inj h
    rfl
  | (k, v) :: ms, seen, a, b, hms, hnodup, h => by
    obtain ⟨⟨hk, hseen⟩, hms⟩ := List.forall_mem_cons.1 hms
    obtain ⟨hknot, hnodup⟩ := List.nodup_cons.1 hnodup
    rw [List.foldlM_cons, bind_eq_ok] at h
    obtain ⟨a', ha', h⟩ := h
    have ih := fromMembers_names (k :: seen) (fun m hm => ⟨(hms m hm).1, fun hmem => by
      rcases List.mem_cons.1 hmem with he | hmem
      · exact hknot (List.mem_map.2 ⟨m, hm, he⟩)
      · exact (hms m hm).2 hmem⟩) hnodup h
    simp only at hk hseen ha'
    simp only [List.map_cons, fromMembers, fieldOf_name hk, bind, Except.bind, List.contains_iff_mem, hseen,
      if_false, ha', List.reverse_cons, List.append_assoc, List.singleton_append]
    exact ih

/-- **An object that holds all fields** of a record in order is read field by field. -/
theorem decode_object (henter : mode.enter = .ok inner) {members : List (String × Value)}
    (hnames : members.map (·.1) = s.fields.map (·.1)) (hnodup : (s.fields.map (·.1)).Nodup)
    (h : members.foldlM (fun a m => s.set inner a m.1 m.2) s.blank = .ok a) :
    s.decode mode (.object members) = .ok a := by
  have hmembers := fromMembers_names []
    (fun m hm => ⟨hnames ▸ List.mem_map_of_mem hm, by simp⟩) (hnames ▸ hnodup) h
  have hmissing : s.missing? ((members.map (·.1)).reverse ++ []) = none := by
    rw [missing?, Option.map_eq_none_iff, List.find?_eq_none]
    intro f hf
    have hmem : f.1 ∈ members.map (·.1) := hnames ▸ List.mem_map_of_mem hf
    simp [hmem]
  simp only [Value.object, decode, henter, bind, Except.bind, hmembers, hmissing]
  rfl

theorem fieldOf_ok {key : Key} {field : String} (h : s.fieldOf key = .ok (some field)) :
    ∃ r, (field, r) ∈ s.fields := by
  cases key with
  | name name =>
    have h := Except.ok.inj h
    split at h
    · next hany =>
      obtain rfl := Option.some.inj h
      obtain ⟨f, hf, he⟩ := List.any_eq_true.1 hany
      exact ⟨f.2, eq_of_beq he ▸ hf⟩
    · cases h
  | position n =>
    obtain ⟨f, hf, rfl⟩ := Option.map_eq_some_iff.1 (Except.ok.inj h)
    exact ⟨f.2, List.mem_of_getElem? hf⟩
  | other => cases h

theorem fromItems_nil {fault : Option Fault} {index : Nat} {items : List Value}
    (h : s.fromItems inner fault index [] items a = .ok b) : a = b := by
  unfold fromItems at h
  cases items with
  | nil =>
    obtain ⟨_, -, h⟩ := bind_eq_ok.1 h
    exact Except.ok.inj h
  | cons v vs =>
    cases inner <;> cases h

section Invariant

/- `Q` holds of every part of a value, and `P` of what has been read of a record and the fields that
have come for it. -/
variable {Q : Value → Prop} {P : List String → α → Prop}

theorem fromItems_ok (step : ∀ seen a field v b, Q v → (∃ r, (field, r) ∈ s.fields) → P seen a →
      s.set inner a field v = .ok b → P (field :: seen) b) {fault : Option Fault} :
    ∀ {fields : List (String × Bool)} {index : Nat} {items : List Value} {seen : List String} {a b : α},
      (∀ f ∈ fields, f ∈ s.fields) → (∀ v ∈ items, Q v) → P seen a →
      s.fromItems inner fault index fields items a = .ok b →
      ∃ come, P come b ∧ (∀ f ∈ seen, f ∈ come) ∧ ∀ f, (f, true) ∈ fields → f ∈ come
  | [], index, items, seen, a, b, _, _, hP, h => by
    obtain rfl := fromItems_nil h
    exact ⟨seen, hP, fun f hf => hf, fun f hf => by cases hf⟩
  | (field, required) :: fields, index, [], seen, a, b, hf, hQ, hP, h => by
    rw [fromItems] at h
    obtain ⟨_, -, h⟩ := bind_eq_ok.1 h
    split at h
    · cases h
    · next hr =>
      obtain ⟨come, hcome, hseen, hreq⟩ := fromItems_ok step (fun f hm => hf f (by simp [hm])) hQ hP h
      refine ⟨come, hcome, hseen, fun f hf => ?_⟩
      rcases List.mem_cons.1 hf with he | hf
      · exact absurd (Prod.mk.inj he).2.symm hr
      · exact hreq f hf
  | (field, required) :: fields, index, v :: vs, seen, a, b, hf, hQ, hP, h => by
    rw [fromItems] at h
    obtain ⟨a', ha', h⟩ := bind_eq_ok.1 h
    obtain ⟨hfield, hf⟩ := List.forall_mem_cons.1 hf
    obtain ⟨hv, hQ⟩ := List.forall_mem_cons.1 hQ
    obtain ⟨come, hcome, hseen, hreq⟩ := fromItems_ok step hf hQ (step _ _ _ _ _ hv ⟨_, hfield⟩ hP ha') h
    refine ⟨come, hcome, fun f hf => hseen f (by simp [hf]), fun f hf => ?_⟩
    rcases List.mem_cons.1 hf with he | hf
    · exact hseen f (by simp [(Prod.mk.inj he).1])
    · exact hreq f hf

theorem fromMembers_ok (step : ∀ seen a field v b, Q v → (∃ r, (field, r) ∈ s.fields) → P seen a →
      s.set inner a field v = .ok b → P (field :: seen) b) :
    ∀ {members : List (Key × Value)} {seen come : List String} {a b : α}, (∀ m ∈ members, Q m.2) → P seen a →
      s.fromMembers inner members seen a = .ok (b, come) → P come b
  | [], seen, come, a, b, _, hP, h => by
    obtain ⟨rfl, rfl⟩ := Prod.mk.inj (Except.ok.inj h)
    exact hP
  | (key, v) :: ms, seen, come, a, b, hQ, hP, h => by
    obtain ⟨hv, hQ⟩ := List.forall_mem_cons.1 hQ
    rw [fromMembers] at h
    obtain ⟨field?, hfield, h⟩ := bind_eq_ok.1 h
    cases field? with
    | none =>
      obtain ⟨_, -, h⟩ := bind_eq_ok.1 h
      exact fromMembers_ok step hQ hP h
    | some field =>
      simp only at h
      split at h
      · cases h
      · obtain ⟨a', ha', h⟩ := bind_eq_ok.1 h
        exact fromMembers_ok step hQ (step _ _ _ _ _ hv (fieldOf_ok hfield) hP ha') h

theorem missing?_eq_none {come : List String} (h : s.missing? come = none) :
    ∀ f, (f, true) ∈ s.fields → f ∈ come := by
  intro f hf
  rw [missing?, Option.map_eq_none_iff, List.find?_eq_none] at h
  simpa using h _ hf

/-- **What reading a record does**, however it was written: it sets fields one after the other, each from
a part of the value one level further in, and every required field is among them. -/
theorem decode_ok {n : Nat} {v : Value} (h : s.decode mode v = .ok a) (hv : Within mode n v)
    (blank : P [] s.blank)
    (step : ∀ inner seen a field w b, mode.enter = .ok inner → Within inner (n - 1) w →
      (∃ r, (field, r) ∈ s.fields) → P seen a → s.set inner a field w = .ok b → P (field :: seen) b) :
    1 < n ∧ ∃ come, P come a ∧ ∀ f, (f, true) ∈ s.fields → f ∈ come := by
  unfold decode at h
  split at h
  · obtain ⟨inner, henter, h⟩ := bind_eq_ok.1 h
    obtain ⟨hn, hitems⟩ := hv.arr henter
    obtain ⟨come, hcome, -, hreq⟩ := fromItems_ok (fun seen a field w b => step inner seen a field w b henter)
      (fun f hf => hf) hitems blank h
    exact ⟨hn, come, hcome, hreq⟩
  · obtain ⟨inner, henter, h⟩ := bind_eq_ok.1 h
    obtain ⟨⟨b, come⟩, hb, h⟩ := bind_eq_ok.1 h
    obtain ⟨_, -, h⟩ := bind_eq_ok.1 h
    obtain ⟨hn, hmembers⟩ := hv.obj henter
    have hcome := fromMembers_ok (fun seen a field w b => step inner seen a field w b henter)
      hmembers blank hb
    cases hmissing : s.missing? come with
    | some name =>
      rw [hmissing] at h
      cases h
    | none =>
      rw [hmissing] at h
      obtain rfl := Except.ok.inj h
      exact ⟨hn, come, hcome, missing?_eq_none hmissing⟩
  · exact absurd h wrongType_ne_ok

end Invariant

end Shape

/-! ## Records that say of which kind they are -/

theorem forM_eq_ok {f : Value → Decoded Unit} : ∀ {vs : List Value}, vs.forM f = .ok () → ∀ v ∈ vs, f v = .ok ()
  | [], _, v, hv => by cases hv
  | w :: ws, h, v, hv => by
    obtain ⟨_, hw, h⟩ := bind_eq_ok.1 h
    rcases List.mem_cons.1 hv with rfl | hv
    · exact hw
    · exact forM_eq_ok h v hv

section Tagged

variable {n : Nat} {what tag name kind : String} {variants : List String} {v rest : Value}

theorem tagged_go_ok : ∀ {members rest : List (Key × Value)} {name? name : Option String},
    tagged.go tag variants inner members name? = .ok (name, rest) →
    ∀ m ∈ rest, m ∈ members ∧ m.1 ≠ .other ∧ hold inner m.2 = .ok ()
  | [], rest, name?, name, h => by
    obtain ⟨-, rfl⟩ := Prod.mk.inj (Except.ok.inj h)
    simp
  | (key, v) :: ms, rest, name?, name, h => by
    by_cases hk : key = .other
    · subst hk
      cases h
    rw [tagged.go] at h
    · split at h
      · simp only at h
        split at h
        · cases h
        · obtain ⟨k, -, h⟩ := bind_eq_ok.1 h
          exact fun m hm => (tagged_go_ok h m hm).imp_left (List.mem_cons_of_mem _)
      · obtain ⟨_, hhold, h⟩ := bind_eq_ok.1 h
        obtain ⟨⟨k, ms'⟩, hgo, h⟩ := bind_eq_ok.1 h
        obtain ⟨-, rfl⟩ := Prod.mk.inj (Except.ok.inj h)
        refine List.forall_mem_cons.2 ⟨⟨by simp, hk, hhold⟩, fun m hm => ?_⟩
        exact (tagged_go_ok hgo m hm).imp_left (List.mem_cons_of_mem _)
    · exact hk

/-- What is left of a value after its kind was read has no fault. -/
theorem tagged_ok (h : tagged what tag variants mode v = .ok (name, rest)) (hv : Within mode n v) :
    rest.fault? (some n) = none := by
  unfold tagged at h
  split at h
  · next items fault =>
    obtain ⟨inner, henter, h⟩ := bind_eq_ok.1 h
    obtain ⟨hn, hitems⟩ := hv.arr henter
    cases items with
    | nil =>
      obtain ⟨_, -, h⟩ := bind_eq_ok.1 h
      cases h
    | cons first items =>
      obtain ⟨k, -, h⟩ := bind_eq_ok.1 h
      obtain ⟨_, hhold, h⟩ := bind_eq_ok.1 h
      obtain ⟨_, -, h⟩ := bind_eq_ok.1 h
      obtain ⟨-, rfl⟩ := Prod.mk.inj (Except.ok.inj h)
      refine fault?_arr.2 ⟨hn, fun w hw => ?_, rfl⟩
      exact (hitems w (by simp [hw])).hold (forM_eq_ok hhold w hw)
  · next members fault =>
    obtain ⟨inner, henter, h⟩ := bind_eq_ok.1 h
    obtain ⟨⟨name?, ms⟩, hgo, h⟩ := bind_eq_ok.1 h
    obtain ⟨_, -, h⟩ := bind_eq_ok.1 h
    obtain ⟨hn, hmembers⟩ := hv.obj henter
    cases name? with
    | none => cases h
    | some k =>
      obtain ⟨-, rfl⟩ := Prod.mk.inj (Except.ok.inj h)
      refine fault?_obj.2 ⟨hn, fun m hm => ?_, rfl⟩
      obtain ⟨hmem, hkey, hhold⟩ := tagged_go_ok hgo m hm
      exact ⟨hkey, (hmembers m hmem).hold hhold⟩
  · exact absurd h wrongType_ne_ok

theorem tagged_go_object : ∀ {members : List (String × Value)},
    (∀ m ∈ members, m.1 ≠ tag ∧ hold inner m.2 = .ok ()) →
    tagged.go tag variants inner (members.map fun (k, v) => (.name k, v)) (some kind) =
      .ok (some kind, members.map fun (k, v) => (.name k, v))
  | [], _ => rfl
  | (k, v) :: ms, h => by
    obtain ⟨⟨hk, hhold⟩, hms⟩ := List.forall_mem_cons.1 h
    have hk : k ≠ tag := hk
    simp only [List.map_cons, tagged.go, Key.name.injEq, hk, if_false, hhold, tagged_go_object hms, bind,
      Except.bind, pure, Except.pure]

/-- **An object that begins with its kind** is read as its kind and the other members. -/
theorem tagged_object (henter : mode.enter = .ok inner) (hkind : kind ∈ variants)
    {members : List (String × Value)} (h : ∀ m ∈ members, m.1 ≠ tag ∧ hold inner m.2 = .ok ()) :
    tagged what tag variants mode (.object ((tag, .str kind) :: members)) = .ok (kind, .object members) := by
  have hname : variantName inner variants (.str kind) = .ok kind := by
    cases inner <;> simp [variantName, hkind]
  simp only [Value.object, tagged, henter, List.map_cons, tagged.go, if_true, Option.isSome_none,
    Bool.false_eq_true, if_false, hname, tagged_go_object h, bind, Except.bind, orFault, pure, Except.pure]

end Tagged

end Lexicolor.Data
