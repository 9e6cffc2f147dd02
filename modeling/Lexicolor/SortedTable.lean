/-
Tables from texts to values, kept in increasing order of their keys. Insertion makes one pass
and replaces the value of a key that is there already, so look-ups need no invariant.
-/

namespace Lexicolor

abbrev SortedTable (α : Type) := List (String × α)

namespace SortedTable

variable {α : Type}

/-- The table with a key bound to a value. -/
def put (key : String) (value : α) : SortedTable α → SortedTable α
  | [] => [(key, value)]
  | (k, v) :: rest =>
    if key < k then (key, value) :: (k, v) :: rest
    else if key = k then (key, value) :: rest
    else (k, v) :: put key value rest

/-- The value of a key. -/
def get? : SortedTable α → String → Option α
  | [], _ => none
  | (k, v) :: rest, key => if k = key then some v else get? rest key

/-- The keys in order. -/
def keys (t : SortedTable α) : List String := t.map (·.1)

theorem get?_put_self (t : SortedTable α) (key : String) (value : α) :
    (put key value t).get? key = some value := by
  induction t with
  | nil => simp [put, get?]
  | cons p t ih =>
    obtain ⟨k, v⟩ := p
    unfold put
    split
    · simp [get?]
    · split
      · simp [get?]
      · next h => simp [get?, Ne.symm h, ih]

theorem get?_put_of_ne {t : SortedTable α} {key other : String} (value : α) (h : other ≠ key) :
    (put key value t).get? other = t.get? other := by
  induction t with
  | nil => simp [put, get?, Ne.symm h]
  | cons p t ih =>
    obtain ⟨k, v⟩ := p
    unfold put
    split
    · simp [get?, Ne.symm h]
    · split
      · next hk => subst hk; simp [get?, Ne.symm h]
      · simp [get?, ih]

end SortedTable

end Lexicolor
