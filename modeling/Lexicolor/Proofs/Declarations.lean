/-
Nothing stale leads to a language. Every entry of the aliases and of the extensions leads to a name
that is registered, and the grammar that is kept under the name now declares the entry (`Declares`);
a registration drops the entries that the earlier grammar of its name has brought before it adds its
own, so it keeps this (`Declares.bring`), and so does any number of registrations
(`Declares.brought`).

What is asked for is therefore declared by what is answered (`answer_declared`).
-/
import Lexicolor.Proofs.Registrations

namespace Lexicolor.Languages

open Text (lowercase)

variable {r : Languages} {rs : List Registration} {claims : Registration → List String}
  {declared : Grammar → List String} {t : SortedTable String} {gs : SortedTable Grammar} {x k : String}

/-- The name under which the grammar is kept that a name or an alias leads to. -/
def leadsTo? (r : Languages) (name : String) : Option String :=
  if (r.grammars.get? (lowercase name)).isSome then some (lowercase name) else r.aliases.get? (lowercase name)

theorem get?_eq_bind (r : Languages) (name : String) : r.get? name = (r.leadsTo? name).bind r.grammars.get? := by
  unfold get? leadsTo?
  cases h : r.grammars.get? (lowercase name) with
  | none => simp [h]
  | some g => simp [h]

/-- Every entry of a table leads to a registered name, and the grammar under that name declares it. -/
def Declares (declared : Grammar → List String) (t : SortedTable String) (gs : SortedTable Grammar) : Prop :=
  ∀ x k, (x, k) ∈ t → ∃ g, gs.get? k = some g ∧ x ∈ declared g

namespace Declares

theorem nil : Declares declared [] gs := fun x k h => by simp at h

theorem of_get? (h : Declares declared t gs) (hx : t.get? x = some k) : ∃ g, gs.get? k = some g ∧ x ∈ declared g :=
  h x k (SortedTable.mem_of_get? hx)

/-- One registration: what is left of the table leads to other names, whose grammars stay. -/
theorem bring (h : Declares declared t gs) (hc : ∀ s, ∀ x ∈ claims s, x ∈ declared s.grammar) (s : Registration) :
    Declares declared (Languages.bring claims t s) (gs.put s.key s.grammar) := by
  intro x k hmem
  rcases SortedTable.mem_foldl_put hmem with ⟨hx, hk⟩ | hmem
  · have hk : k = s.key := hk
    subst hk
    exact ⟨s.grammar, SortedTable.get?_put_self .., hc s x hx⟩
  · obtain ⟨hmem, hne⟩ := List.mem_filter.1 hmem
    have hne : k ≠ s.key := by simpa using hne
    obtain ⟨g, hg, hx⟩ := h x k hmem
    exact ⟨g, (SortedTable.get?_put_of_ne s.grammar hne).trans hg, hx⟩

/-- Any number of registrations. -/
theorem brought (hc : ∀ s, ∀ x ∈ claims s, x ∈ declared s.grammar) : ∀ (rs : List Registration)
    {t : SortedTable String} {gs : SortedTable Grammar}, Declares declared t gs →
    Declares declared (rs.foldl (Languages.bring claims) t) (rs.foldl (fun t s => t.put s.key s.grammar) gs)
  | [], _, _, h => h
  | s :: rs, _, _, h => brought hc rs (h.bring hc s)

end Declares

theorem aliases_declared (rs : List Registration) :
    Declares (fun g => g.aliases.map lowercase) (after rs).aliases (after rs).grammars := by
  rw [after_aliases, after_grammars]
  refine Declares.brought (fun s x hx => ?_) rs .nil
  exact (List.mem_filter.1 hx).1

theorem extensions_declared (rs : List Registration) :
    Declares (fun g => g.extensions.map extensionKey) (after rs).extensions (after rs).grammars := by
  rw [after_extensions, after_grammars]
  exact Declares.brought (fun s x hx => hx) rs .nil

/-- **What is asked for is declared by what is answered.** After any registrations, a grammar that is
found is kept under a name `k` that leads there: `k` is what was asked for, or what was asked for is
an alias that the grammar kept under `k` now declares, or an extension. Every alias and extension that
is kept leads to a registered name. -/
theorem answer_declared (rs : List Registration) :
    (∀ n g, (after rs).get? n = some g → ∃ k, (after rs).leadsTo? n = some k ∧
      (after rs).grammars.get? k = some g ∧ (lowercase n = k ∨ ∃ a ∈ g.aliases, lowercase n = lowercase a)) ∧
    (∀ e g, (after rs).findByExtension e = some g → ∃ k, (after rs).extensions.get? (extensionKey e) = some k ∧
      (after rs).grammars.get? k = some g ∧ ∃ x ∈ g.extensions, extensionKey e = extensionKey x) ∧
    (∀ x k, (x, k) ∈ (after rs).aliases ∨ (x, k) ∈ (after rs).extensions →
      ((after rs).grammars.get? k).isSome = true) := by
  refine ⟨fun n g h => ?_, fun e g h => ?_, fun x k h => ?_⟩
  · rw [get?_eq_bind, Option.bind_eq_some_iff] at h
    obtain ⟨k, hk, hg⟩ := h
    refine ⟨k, hk, hg, ?_⟩
    unfold leadsTo? at hk
    split at hk
    · exact .inl (Option.some.inj hk)
    · obtain ⟨g', hg', hmem⟩ := (aliases_declared rs).of_get? hk
      have he : g' = g := Option.some.inj (hg'.symm.trans hg)
      subst he
      obtain ⟨a, ha, hn⟩ := List.mem_map.1 hmem
      exact .inr ⟨a, ha, hn.symm⟩
  · obtain ⟨k, hk, hg⟩ := Option.bind_eq_some_iff.1 h
    obtain ⟨g', hg', hmem⟩ := (extensions_declared rs).of_get? hk
    have he : g' = g := Option.some.inj (hg'.symm.trans hg)
    subst he
    obtain ⟨x, hx, hn⟩ := List.mem_map.1 hmem
    exact ⟨k, hk, hg, x, hx, hn.symm⟩
  · rcases h with h | h
    · obtain ⟨g, hg, -⟩ := aliases_declared rs x k h
      simp [hg]
    · obtain ⟨g, hg, -⟩ := extensions_declared rs x k h
      simp [hg]

end Lexicolor.Languages
