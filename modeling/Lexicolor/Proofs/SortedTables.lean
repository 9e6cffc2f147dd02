/-
Tables as maps. What a table answers after several keys were bound to one value, and after the
entries with some values were dropped. Dropping an entry uncovers no other entry of its key because
a table that `put` has made has its keys in increasing order (`Ordered`); and two such tables that
answer alike are one table (`Ordered.ext`).
-/
import Mathlib.Data.List.Sort
import Mathlib.Data.String.Basic
import Lexicolor.SortedTable

namespace Lexicolor.SortedTable

variable {α : Type} {t : SortedTable α} {key k : String} {value : α}

/-- The keys increase. -/
def Ordered (t : SortedTable α) : Prop := t.Pairwise fun a b => a.1 < b.1

theorem Ordered.nil : Ordered ([] : SortedTable α) := List.Pairwise.nil

/-- The keys of a table with one more entry are those of the table and the new one. -/
theorem mem_put {e : String × α} : ∀ {t : SortedTable α}, e ∈ put key value t → e = (key, value) ∨ e ∈ t
  | [], h => by simpa [put] using h
  | (k, v) :: rest, h => by
    unfold put at h
    split at h
    · exact List.mem_cons.1 h
    · split at h
      · exact (List.mem_cons.1 h).imp_right (List.mem_cons_of_mem _)
      · rcases List.mem_cons.1 h with rfl | h
        · exact .inr (by simp)
        · exact (mem_put h).imp_right (List.mem_cons_of_mem _)

theorem Ordered.put (key : String) (value : α) : ∀ {t : SortedTable α}, t.Ordered → (put key value t).Ordered
  | [], _ => List.pairwise_singleton ..
  | (k, v) :: rest, h => by
    obtain ⟨hk, hrest⟩ := List.pairwise_cons.1 h
    unfold SortedTable.put
    split
    · next hlt =>
      refine List.pairwise_cons.2 ⟨fun e he => ?_, h⟩
      rcases List.mem_cons.1 he with rfl | he
      · exact hlt
      · exact String.lt_trans hlt (hk e he)
    · next hge =>
      split
      · next heq => exact List.pairwise_cons.2 ⟨heq ▸ hk, hrest⟩
      · next hne =>
        have hlt : k < key := lt_of_le_of_ne (not_lt.1 hge) (Ne.symm hne)
        refine List.pairwise_cons.2 ⟨fun e he => ?_, Ordered.put key value hrest⟩
        rcases mem_put he with rfl | he
        · exact hlt
        · exact hk e he

theorem Ordered.filter (keep : String × α → Bool) (h : t.Ordered) : Ordered (t.filter keep) :=
  List.Pairwise.filter keep h

theorem Ordered.foldl_put (keys : List String) (value : α) : ∀ {t : SortedTable α}, t.Ordered →
    Ordered (keys.foldl (fun t k => SortedTable.put k value t) t) := by
  induction keys with
  | nil => exact id
  | cons key keys ih => exact fun h => ih (h.put key value)

@[simp] theorem get?_nil (k : String) : get? ([] : SortedTable α) k = none := rfl

theorem get?_eq_none_of_lt (h : ∀ e ∈ t, k < e.1) : t.get? k = none := by
  induction t with
  | nil => rfl
  | cons e t ih =>
    obtain ⟨j, v⟩ := e
    have hne : j ≠ k := fun he => String.lt_irrefl k (by simpa [he] using h (j, v) (by simp))
    rw [get?, if_neg hne, ih fun e he => h e (List.mem_cons_of_mem _ he)]

/-- **A table some of whose entries are dropped** answers what it answered, if that is kept. -/
theorem Ordered.get?_filter (keep : α → Bool) {k : String} : ∀ {t : SortedTable α}, t.Ordered →
    get? (t.filter fun e => keep e.2) k = (t.get? k).filter keep
  | [], _ => rfl
  | (j, v) :: rest, h => by
    obtain ⟨hj, hrest⟩ := List.pairwise_cons.1 h
    have ih := Ordered.get?_filter keep (k := k) hrest
    rw [List.filter_cons]
    by_cases hjk : j = k
    · subst hjk
      cases hv : keep v with
      | true => simp [get?, Option.filter, hv]
      | false =>
        -- The entry is dropped, and no other entry has its key.
        simp [get?, Option.filter, hv, ih, get?_eq_none_of_lt hj]
    · cases hv : keep v with
      | true => simp [get?, hjk, ih]
      | false => simp [get?, hjk, ih]

/-- Several keys bound to one value have it, and the other keys have what they had. -/
theorem get?_foldl_put {keys : List String} : ∀ {t : SortedTable α},
    get? (keys.foldl (fun t k => put k value t) t) k = if k ∈ keys then some value else t.get? k := by
  induction keys with
  | nil => simp
  | cons key keys ih =>
    intro t
    rw [List.foldl_cons, ih]
    by_cases hmem : k ∈ keys
    · simp [hmem]
    · by_cases hk : k = key
      · subst hk
        simp [get?_put_self]
      · simp [hmem, hk, get?_put_of_ne value hk]

/-- What a table answers it holds. -/
theorem mem_of_get? : ∀ {t : SortedTable α}, t.get? k = some value → (k, value) ∈ t
  | [], h => by simp at h
  | (j, v) :: rest, h => by
    rw [get?] at h
    by_cases hj : j = k
    · subst hj
      simp only [if_true, Option.some.injEq] at h
      simp [h]
    · rw [if_neg hj] at h
      exact List.mem_cons_of_mem _ (mem_of_get? h)

/-- An entry of a table whose keys increase is what the table answers for its key. -/
theorem Ordered.get?_of_mem : ∀ {t : SortedTable α}, t.Ordered → (k, value) ∈ t → t.get? k = some value
  | (j, v) :: rest, h, hmem => by
    obtain ⟨hj, hrest⟩ := List.pairwise_cons.1 h
    rcases List.mem_cons.1 hmem with heq | hmem
    · cases heq
      rw [get?, if_pos rfl]
    · have hne : j ≠ k := ne_of_lt (hj (k, value) hmem)
      rw [get?, if_neg hne, Ordered.get?_of_mem hrest hmem]

/-- **What a table answers says all about it**, if its keys increase. -/
theorem Ordered.ext {u : SortedTable α} (ht : t.Ordered) (hu : u.Ordered) (h : ∀ k, t.get? k = u.get? k) : t = u := by
  have : Std.Asymm fun a b : String × α => a.1 < b.1 := ⟨fun _ _ => lt_asymm⟩
  have hmem : ∀ e, e ∈ t ↔ e ∈ u := by
    rintro ⟨k, v⟩
    constructor
    · exact fun he => mem_of_get? (h k ▸ ht.get?_of_mem he)
    · exact fun he => mem_of_get? (h k ▸ hu.get?_of_mem he)
  exact List.Pairwise.eq_of_mem_iff ht hu hmem

/-- The keys are what a table answers. -/
theorem mem_keys_iff {t : SortedTable α} : k ∈ t.keys ↔ ∃ value, t.get? k = some value := by
  induction t with
  | nil => simp [keys]
  | cons e t ih =>
    obtain ⟨j, v⟩ := e
    have hkeys : k ∈ keys ((j, v) :: t) ↔ k = j ∨ k ∈ keys t := List.mem_cons
    rw [hkeys, get?]
    by_cases hj : j = k
    · simp [hj]
    · rw [if_neg hj, or_iff_right (Ne.symm hj), ih]

/-- An entry of a table in which several keys were bound to one value is a new one or an old one. -/
theorem mem_foldl_put {keys : List String} {e : String × α} : ∀ {t : SortedTable α},
    e ∈ keys.foldl (fun t k => put k value t) t → (e.1 ∈ keys ∧ e.2 = value) ∨ e ∈ t := by
  induction keys with
  | nil => exact fun h => .inr h
  | cons key keys ih =>
    intro t h
    rw [List.foldl_cons] at h
    rcases ih h with ⟨hmem, hv⟩ | h
    · exact .inl ⟨List.mem_cons_of_mem _ hmem, hv⟩
    · rcases mem_put h with rfl | h
      · exact .inl ⟨by simp, rfl⟩
      · exact .inr h

end Lexicolor.SortedTable
