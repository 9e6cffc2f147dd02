/-
The order of a walk. Equal tokens may stand at several places of a tree, so a token inside a tree is told
by its address, the numbers of the children on the way down to it. With its addresses (`addressed`) a walk
has one entry for each address of the tree (`mem_addressed`), and the addresses increase as words of a
dictionary do (`addressed_sorted`): an address comes before those that go on from it, and one that goes
through a child before those that go through a later sibling. A search for a scope goes through the tree in
the same order (`findChild_eq`), so it finds the first token of the walk that has the scope
(`walk_in_order`).
-/
import Mathlib.Data.List.Lex
import Lexicolor.Proofs.Nesting

namespace Lexicolor.Token

/-! ## Searching -/

mutual

/-- **A search goes through the tree as a walk does**: a child is searched to the bottom before its next
sibling. -/
theorem findChild_eq (scope : Scope) : ∀ t : Token,
    t.findChild scope = (walkAll t.children).find? (·.scope = scope)
  | ⟨_, _, _, _, children⟩ => by rw [findChild, findIn_eq scope children]

theorem findIn_eq (scope : Scope) : ∀ ts : List Token, findIn ts scope = (walkAll ts).find? (·.scope = scope)
  | [] => rfl
  | t :: ts => by
    rw [findIn, walkAll, walk_eq, List.cons_append, List.find?_cons, List.find?_append, ← findChild_eq scope t,
      ← findIn_eq scope ts]
    by_cases h : t.scope = scope
    · simp [h]
    · cases t.findChild scope <;> simp [h]

end

/-! ## Addresses -/

/-- The way from a token down to one inside it: the numbers of the children that it goes through. -/
abbrev Address := List Nat

/-- The token at an address, if the way does not leave the tree. -/
def tokenAt? (t : Token) : Address → Option Token
  | [] => some t
  | i :: a => t.children[i]?.bind fun c => c.tokenAt? a

mutual

/-- The token and all its descendants in the order of the walk, each with its address. -/
def addressed : Token → List (Address × Token)
  | ⟨scope, start, stop, text, children⟩ =>
    ([], ⟨scope, start, stop, text, children⟩) :: addressedFrom 0 children

/-- The same for siblings, of which the first has the given number. -/
def addressedFrom (i : Nat) : List Token → List (Address × Token)
  | [] => []
  | t :: ts => t.addressed.map (fun e => (i :: e.1, e.2)) ++ addressedFrom (i + 1) ts

end

mutual

/-- Without the addresses it is the walk. -/
theorem addressed_walk : ∀ t : Token, t.addressed.map (·.2) = t.walk
  | ⟨_, _, _, _, children⟩ => by rw [addressed, List.map_cons, addressedFrom_walk 0 children, walk]

theorem addressedFrom_walk (i : Nat) : ∀ ts : List Token, (addressedFrom i ts).map (·.2) = walkAll ts
  | [] => rfl
  | t :: ts => by
    rw [addressedFrom, List.map_append, List.map_map, Function.comp_def, addressed_walk t,
      addressedFrom_walk (i + 1) ts, walkAll]

end

mutual

/-- **The entries** are the addresses of the tree, each with the token that stands there. -/
theorem mem_addressed : ∀ (t : Token) (a : Address) (u : Token), (a, u) ∈ t.addressed ↔ t.tokenAt? a = some u
  | ⟨_, _, _, _, children⟩, [], u => by
    simp [addressed, tokenAt?, mem_addressedFrom 0 children, eq_comm]
  | ⟨_, _, _, _, children⟩, i :: a, u => by
    simp [addressed, tokenAt?, mem_addressedFrom 0 children]

theorem mem_addressedFrom (i : Nat) : ∀ (ts : List Token) (a : Address) (u : Token), (a, u) ∈ addressedFrom i ts ↔
    ∃ j b, a = (i + j) :: b ∧ ts[j]?.bind (fun c => c.tokenAt? b) = some u
  | [], a, u => by simp [addressedFrom]
  | t :: ts, a, u => by
    rw [addressedFrom, List.mem_append, List.mem_map, mem_addressedFrom (i + 1) ts a u]
    constructor
    · rintro (⟨⟨b, v⟩, hb, heq⟩ | ⟨j, b, rfl, hb⟩)
      · obtain ⟨rfl, rfl⟩ := Prod.mk.inj heq
        exact ⟨0, b, rfl, (mem_addressed t b v).1 hb⟩
      · exact ⟨j + 1, b, by rw [Nat.add_right_comm, Nat.add_assoc], hb⟩
    · rintro ⟨j, b, rfl, hb⟩
      cases j with
      | zero => exact .inl ⟨(b, u), (mem_addressed t b u).2 hb, rfl⟩
      | succ j => exact .inr ⟨j, b, by rw [Nat.add_right_comm, Nat.add_assoc], hb⟩

end

/-! ## The order of addresses -/

theorem lt_inside (a : Address) (i : Nat) (b : Address) : a < a ++ i :: b := by
  have h : a ++ [] < a ++ i :: b := List.append_left_lt (List.nil_lt_cons i b)
  rwa [List.append_nil] at h

theorem lt_aside (a : Address) {i j : Nat} (b c : Address) (h : i < j) : a ++ i :: b < a ++ j :: c :=
  List.append_left_lt (List.cons_lt_cons_iff.2 (.inl h))

mutual

/-- **Addresses increase** along the walk. -/
theorem addressed_sorted : ∀ t : Token, t.addressed.Pairwise fun e f => e.1 < f.1
  | ⟨_, _, _, _, children⟩ => by
    rw [addressed]
    refine List.pairwise_cons.2 ⟨fun e he => ?_, addressedFrom_sorted 0 children⟩
    obtain ⟨j, b, ha, -⟩ := (mem_addressedFrom 0 children e.1 e.2).1 he
    exact ha ▸ List.nil_lt_cons (0 + j) b

theorem addressedFrom_sorted (i : Nat) : ∀ ts : List Token, (addressedFrom i ts).Pairwise fun e f => e.1 < f.1
  | [] => .nil
  | t :: ts => by
    rw [addressedFrom]
    refine List.pairwise_append.2 ⟨?_, addressedFrom_sorted (i + 1) ts, fun e he f hf => ?_⟩
    · exact List.pairwise_map.2 ((addressed_sorted t).imp List.cons_lt_cons_self.2)
    · -- What follows stands at a later sibling or inside one.
      obtain ⟨e, -, rfl⟩ := List.mem_map.1 he
      obtain ⟨j, b, ha, -⟩ := (mem_addressedFrom (i + 1) ts f.1 f.2).1 hf
      rw [ha]
      exact lt_aside [] e.1 b (by omega)

end

theorem addressed_nodup (t : Token) : (t.addressed.map (·.1)).Nodup :=
  List.pairwise_map.2 ((addressed_sorted t).imp fun h => ne_of_lt h)

/-- An entry with a lesser address comes earlier. -/
theorem addressed_lt {t u v : Token} {m n : Nat} {a b : Address} (hm : t.addressed[m]? = some (a, u))
    (hn : t.addressed[n]? = some (b, v)) (h : a < b) : m < n := by
  obtain ⟨hm, hma⟩ := List.getElem?_eq_some_iff.1 hm
  obtain ⟨hn, hnb⟩ := List.getElem?_eq_some_iff.1 hn
  rcases Nat.lt_trichotomy m n with hlt | rfl | hlt
  · exact hlt
  · exact absurd (congrArg Prod.fst (hma.symm.trans hnb)) (ne_of_lt h)
  · have hba := List.pairwise_iff_getElem.1 (addressed_sorted t) n m hn hm hlt
    rw [hma, hnb] at hba
    exact absurd h (lt_asymm hba)

/-- **Walks and searches.** A search for a scope finds the first token of the walk after the root that has
the scope, and nothing if there is none. The walk lists what stands at the addresses of the tree, each
address once: the token itself and all its descendants. A token comes before those that stand at longer
addresses which go on from its own, and after its earlier siblings and all that stands inside them. -/
theorem walk_in_order (t : Token) :
    (∃ inner, t.walk = t :: inner ∧ ∀ scope, t.findChild scope = inner.find? (·.scope = scope)) ∧
    t.addressed.map (·.2) = t.walk ∧ (t.addressed.map (·.1)).Nodup ∧
    (∀ a u, (a, u) ∈ t.addressed ↔ t.tokenAt? a = some u) ∧
    (∀ (m n : Nat) a i b u v, t.addressed[m]? = some (a, u) → t.addressed[n]? = some (a ++ i :: b, v) → m < n) ∧
    ∀ (m n : Nat) a (i j : Nat) b u v, i < j → t.addressed[m]? = some (a ++ i :: b, u) →
      t.addressed[n]? = some (a ++ [j], v) → m < n := by
  refine ⟨⟨walkAll t.children, walk_eq t, fun scope => findChild_eq scope t⟩, addressed_walk t, addressed_nodup t,
    mem_addressed t, fun m n a i b u v hm hn => ?_, fun m n a i j b u v hij hm hn => ?_⟩
  · exact addressed_lt hm hn (lt_inside a i b)
  · exact addressed_lt hm hn (lt_aside a b [] hij)

/-- A title inside the first child is found before the one that is the second child. -/
example :
    let deep : Token := ⟨.title, 1, 2, "e", []⟩
    let t : Token := ⟨.function, 0, 6, "def f:", [⟨.keyword, 0, 3, "def", [deep]⟩, ⟨.title, 4, 5, "f", []⟩]⟩
    t.findChild .title = some deep ∧ t.addressed.map (·.1) = [[], [0], [0, 0], [1]] := ⟨rfl, rfl⟩

end Lexicolor.Token
