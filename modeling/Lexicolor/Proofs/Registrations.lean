/-
What the languages answer after registrations. Registering a grammar answers for its name, its
aliases and its extensions, whatever was registered before (`register_found`); only an alias that
is the name of another language leads to that language.

After any number of registrations an alias or an extension leads to the registration that claimed it
last, until a grammar is registered under that name again (`get?_brought_isSome_iff`). What another
language had claimed before does not come back then: a language can be registered and its alias lead
nowhere (`alias_forgotten`), and this is the only way in which it can (`declared_resolves_iff`).
-/
import Lexicolor.Languages
import Lexicolor.Proofs.Lowercase
import Lexicolor.Proofs.SortedTables

namespace Lexicolor

/-- A grammar and the name it is registered under. -/
structure Registration where
  name : String
  grammar : Grammar
deriving Inhabited

namespace Registration

/-- The name that the grammar is kept under. -/
def key (s : Registration) : String := Text.lowercase s.name

/-- The aliases that the registration claims; the name itself is none. -/
def aliasKeys (s : Registration) : List String := (s.grammar.aliases.map Text.lowercase).filter (· != s.key)

/-- The extensions that the registration claims. -/
def extensionKeys (s : Registration) : List String := s.grammar.extensions.map Languages.extensionKey

theorem mem_aliasKeys {s : Registration} {a : String} (ha : a ∈ s.grammar.aliases)
    (hne : Text.lowercase a ≠ s.key) : Text.lowercase a ∈ s.aliasKeys :=
  List.mem_filter.2 ⟨List.mem_map_of_mem ha, by simpa using hne⟩

end Registration

namespace Languages

open Text (lowercase)

variable {r : Languages} {s : Registration} {claims : Registration → List String} {t : SortedTable String}
  {x k : String}

/-- What a registration makes of the names that aliases, or extensions, lead to: what led to its name
is dropped, and what it claims leads there. -/
def bring (claims : Registration → List String) (t : SortedTable String) (s : Registration) : SortedTable String :=
  (claims s).foldl (fun t k => t.put k s.key) (t.filter fun e => e.2 != s.key)

theorem bring_ordered (h : t.Ordered) (s : Registration) : (bring claims t s).Ordered :=
  SortedTable.Ordered.foldl_put _ _ (h.filter _)

theorem get?_bring (h : t.Ordered) : (bring claims t s).get? x =
    if x ∈ claims s then some s.key else (t.get? x).filter (· != s.key) := by
  unfold bring
  rw [SortedTable.get?_foldl_put, h.get?_filter (· != s.key)]

/-- The languages after registrations one after the other. -/
def after (rs : List Registration) : Languages := rs.foldl (fun r s => r.register s.name s.grammar) empty

/-- A grammar of which only the aliases and the extensions matter. -/
def declaring (aliases extensions : List String) : Grammar := { (default : Grammar) with aliases, extensions }

/-! ## One registration -/

/-- The case of an extension makes no difference to its key. -/
theorem extensionKey_eq_of_lowercase_eq {x y : String} (h : lowercase y = lowercase x) :
    extensionKey y = extensionKey x := by
  have key : ∀ z : String, extensionKey z = .ofList ((lowercase z).toList.dropWhile (· == '.')) := by
    intro z
    rw [extensionKey, lowercase, lowercase, String.toList_ofList, String.toList_ofList, Text.dropWhile_lowerFrom]
  rw [key, key, h]

theorem get?_register_grammars (name : String) (g : Grammar) : (r.register name g).grammars.get? k =
    if k = lowercase name then some g else r.grammars.get? k := by
  by_cases h : k = lowercase name
  · rw [if_pos h, h]
    exact SortedTable.get?_put_self ..
  · rw [if_neg h]
    exact SortedTable.get?_put_of_ne g h

/-- What the registration claims leads to its grammar, whatever the table held before. -/
theorem get?_bring_of_mem (hx : x ∈ claims s) : (bring claims t s).get? x = some s.key := by
  unfold bring
  rw [SortedTable.get?_foldl_put, if_pos hx]

/-- **The last registration answers** for its name, for its aliases and for its extensions, in
whatever case they are asked for. An alias that is the name of another language leads to that
language, because names come before aliases. -/
theorem register_found (r : Languages) (name : String) (g : Grammar) :
    (∀ n, lowercase n = lowercase name → (r.register name g).get? n = some g) ∧
    (∀ a ∈ g.aliases, ∀ n, lowercase n = lowercase a →
      (r.grammars.get? (lowercase a) = none ∨ lowercase a = lowercase name →
        (r.register name g).get? n = some g) ∧
      (∀ other, r.grammars.get? (lowercase a) = some other → lowercase a ≠ lowercase name →
        (r.register name g).get? n = some other)) ∧
    (∀ x ∈ g.extensions, ∀ y, lowercase y = lowercase x → (r.register name g).findByExtension y = some g) := by
  have hself : (r.register name g).grammars.get? (lowercase name) = some g := by
    rw [get?_register_grammars, if_pos rfl]
  refine ⟨fun n hn => ?_, fun a ha n hn => ⟨fun h => ?_, fun other ho hne => ?_⟩, fun x hx y hy => ?_⟩
  · rw [get?, hn, hself, Option.some_or]
  · by_cases hname : lowercase a = lowercase name
    · rw [get?, hn, hname, hself, Option.some_or]
    · have hnone : r.grammars.get? (lowercase a) = none := h.resolve_right hname
      have hclaim : (r.register name g).aliases.get? (lowercase a) = some (lowercase name) :=
        get?_bring_of_mem (s := ⟨name, g⟩) (Registration.mem_aliasKeys ha hname)
      rw [get?, hn, get?_register_grammars, if_neg hname, hnone, Option.none_or, hclaim, Option.bind_some, hself]
  · rw [get?, hn, get?_register_grammars, if_neg hne, ho, Option.some_or]
  · have hmem : extensionKey x ∈ Registration.extensionKeys ⟨name, g⟩ := List.mem_map_of_mem hx
    have hclaim : (r.register name g).extensions.get? (extensionKey x) = some (lowercase name) :=
      get?_bring_of_mem (s := ⟨name, g⟩) hmem
    rw [findByExtension, extensionKey_eq_of_lowercase_eq hy, hclaim, Option.bind_some, hself]

/-- A language found under its name, its alias and its extension, each written in another case. -/
theorem register_found_folded :
    let r := after [⟨"other", declaring ["x"] ["ext"]⟩]
    let g := declaring ["X"] [".Ext"]
    lowercase "NAME" = lowercase "Name" ∧ lowercase "x" = lowercase "X" ∧ lowercase ".EXT" = lowercase ".Ext" ∧
      (r.register "Name" g).get? "NAME" = some g ∧ (r.register "Name" g).get? "x" = some g ∧
      (r.register "Name" g).findByExtension ".EXT" = some g := by
  intro r g
  obtain ⟨hname, halias, hextension⟩ := register_found r "Name" g
  have h1 : lowercase "NAME" = lowercase "Name" := by decide +kernel
  have h2 : lowercase "x" = lowercase "X" := by decide +kernel
  have h3 : lowercase ".EXT" = lowercase ".Ext" := by decide +kernel
  exact ⟨h1, h2, h3, hname "NAME" h1, (halias "X" (by decide) "x" h2).1 (.inl rfl),
    hextension ".Ext" (by decide) ".EXT" h3⟩

/-- An alias that is the name of another language leads to the other language still. -/
theorem alias_of_other_name :
    ¬ ∀ (rs : List Registration) (name : String) (g : Grammar),
      (∀ n, lowercase n = lowercase name → ((after rs).register name g).get? n = some g) ∧
      (∀ a ∈ g.aliases, ∀ n, lowercase n = lowercase a → ((after rs).register name g).get? n = some g) ∧
      (∀ x ∈ g.extensions, ∀ y, lowercase y = lowercase x →
        ((after rs).register name g).findByExtension y = some g) := by
  intro h
  have hfound := (h [⟨"other", declaring [] []⟩] "name" (declaring ["other"] [])).2.1 "other" (by decide) "other" rfl
  have hother : ((after [⟨"other", declaring [] []⟩]).register "name" (declaring ["other"] [])).get? "other" =
      some (declaring [] []) := rfl
  rw [hother] at hfound
  exact absurd (congrArg Grammar.aliases (Option.some.inj hfound)) (by decide)

/-! ## Any number of registrations -/

/-- The last registration that claims the key is followed by another one under its name. -/
def Forgotten (claims : Registration → List String) (x : String) : List Registration → Prop
  | [] => False
  | s :: later => (x ∈ claims s ∧ (∀ u ∈ later, x ∉ claims u) ∧ ∃ u ∈ later, u.key = s.key) ∨
      Forgotten claims x later

instance decidableForgotten (claims : Registration → List String) (x : String) :
    ∀ rs, Decidable (Forgotten claims x rs)
  | [] => inferInstanceAs (Decidable False)
  | _ :: later =>
    have := decidableForgotten claims x later
    inferInstanceAs (Decidable (_ ∨ _))

/-- What is forgotten was claimed. -/
theorem Forgotten.claimed : ∀ {rs : List Registration}, Forgotten claims x rs → ∃ s ∈ rs, x ∈ claims s
  | s :: _, .inl h => ⟨s, by simp, h.1⟩
  | _ :: _, .inr h => by
    obtain ⟨s, hs, hx⟩ := h.claimed
    exact ⟨s, by simp [hs], hx⟩

variable {rs : List Registration}

theorem foldl_register_grammars : ∀ (rs : List Registration) (r : Languages),
    (rs.foldl (fun r s => r.register s.name s.grammar) r).grammars =
      rs.foldl (fun t s => t.put s.key s.grammar) r.grammars
  | [], _ => rfl
  | s :: rs, r => foldl_register_grammars rs (r.register s.name s.grammar)

theorem foldl_register_aliases : ∀ (rs : List Registration) (r : Languages),
    (rs.foldl (fun r s => r.register s.name s.grammar) r).aliases =
      rs.foldl (bring Registration.aliasKeys) r.aliases
  | [], _ => rfl
  | s :: rs, r => foldl_register_aliases rs (r.register s.name s.grammar)

theorem foldl_register_extensions : ∀ (rs : List Registration) (r : Languages),
    (rs.foldl (fun r s => r.register s.name s.grammar) r).extensions =
      rs.foldl (bring Registration.extensionKeys) r.extensions
  | [], _ => rfl
  | s :: rs, r => foldl_register_extensions rs (r.register s.name s.grammar)

/-- What no registration claims leads where it led, if nothing was registered under that name. -/
theorem get?_brought_of_not_mem : ∀ {rs : List Registration} {t : SortedTable String}, t.Ordered →
    (∀ s ∈ rs, x ∉ claims s) →
    (rs.foldl (bring claims) t).get? x = (t.get? x).filter fun k => rs.all fun s => k != s.key
  | [], t, _, _ => by cases h : t.get? x <;> simp [Option.filter, h]
  | s :: rs, t, ht, h => by
    rw [List.foldl_cons, get?_brought_of_not_mem (bring_ordered ht s) fun u hu => h u (by simp [hu]),
      get?_bring ht, if_neg (h s (by simp)), Option.filter_filter]
    rfl

/-- **What was claimed leads somewhere**, unless it is forgotten. -/
theorem get?_brought_isSome_iff : ∀ {rs : List Registration} {t : SortedTable String}, t.Ordered →
    (∃ s ∈ rs, x ∈ claims s) → (((rs.foldl (bring claims) t).get? x).isSome = true ↔ ¬ Forgotten claims x rs)
  | [], _, _, h => by simp at h
  | s :: rs, t, ht, h => by
    rw [List.foldl_cons]
    by_cases hlater : ∃ u ∈ rs, x ∈ claims u
    · rw [get?_brought_isSome_iff (bring_ordered ht s) hlater, Forgotten]
      obtain ⟨u, hu, hx⟩ := hlater
      have hlast : ¬ ∀ u ∈ rs, x ∉ claims u := fun hn => hn u hu hx
      simp [hlast]
    · have hnone : ∀ u ∈ rs, x ∉ claims u := fun u hu hx => hlater ⟨u, hu, hx⟩
      have hs : x ∈ claims s := by
        obtain ⟨u, hu, hx⟩ := h
        rcases List.mem_cons.1 hu with rfl | hu
        · exact hx
        · exact absurd hx (hnone u hu)
      have hkept : ¬ Forgotten claims x rs := fun hf => hlater hf.claimed
      rw [get?_brought_of_not_mem (bring_ordered ht s) hnone, get?_bring_of_mem hs, Forgotten]
      have hall : (rs.all fun u => s.key != u.key) = true ↔ ¬ ∃ u ∈ rs, u.key = s.key := by
        simp only [List.all_eq_true, bne_iff_ne, ne_eq, not_exists, not_and]
        exact ⟨fun h u hu he => h u hu he.symm, fun h u hu he => h u hu he.symm⟩
      simp only [Option.isSome_filter, Option.any_some, hall, hs, hkept, true_and, or_false,
        and_iff_right (a := ∀ u ∈ rs, x ∉ claims u) hnone]

/-- Whatever a key leads to is the name of a registration. -/
theorem get?_brought_mem : ∀ {rs : List Registration} {t : SortedTable String}, t.Ordered →
    (rs.foldl (bring claims) t).get? x = some k → t.get? x = some k ∨ ∃ s ∈ rs, s.key = k
  | [], _, _, h => .inl h
  | s :: rs, t, ht, h => by
    rcases get?_brought_mem (bring_ordered ht s) h with h | ⟨u, hu, hk⟩
    · rw [get?_bring ht] at h
      split at h
      · exact .inr ⟨s, by simp, Option.some.inj h⟩
      · exact .inl (Option.filter_eq_some_iff.1 h).1
    · exact .inr ⟨u, by simp [hu], hk⟩

/-- **A language is known** under the name of every registration, and what is known was registered. -/
theorem get?_grammars_eq_some : ∀ {rs : List Registration} {t : SortedTable Grammar} {g : Grammar},
    (rs.foldl (fun t s => t.put s.key s.grammar) t).get? k = some g →
    t.get? k = some g ∨ ∃ s ∈ rs, s.key = k ∧ s.grammar = g
  | [], _, _, h => .inl h
  | s :: rs, t, g, h => by
    rcases get?_grammars_eq_some (t := t.put s.key s.grammar) h with h | ⟨u, hu, hk⟩
    · by_cases hk : k = s.key
      · subst hk
        rw [SortedTable.get?_put_self] at h
        exact .inr ⟨s, by simp, rfl, Option.some.inj h⟩
      · rw [SortedTable.get?_put_of_ne s.grammar hk] at h
        exact .inl h
    · exact .inr ⟨u, by simp [hu], hk⟩

theorem get?_grammars_isSome : ∀ {rs : List Registration} {t : SortedTable Grammar},
    (t.get? k).isSome = true ∨ (∃ s ∈ rs, s.key = k) →
    ((rs.foldl (fun t s => t.put s.key s.grammar) t).get? k).isSome = true
  | [], _, h => by simpa using h
  | s :: rs, t, h => by
    refine get?_grammars_isSome (t := t.put s.key s.grammar) ?_
    by_cases hk : k = s.key
    · subst hk
      exact .inl (by rw [SortedTable.get?_put_self]; rfl)
    · rw [SortedTable.get?_put_of_ne s.grammar hk]
      refine h.imp_right fun ⟨u, hu, huk⟩ => ?_
      rcases List.mem_cons.1 hu with rfl | hu
      · exact absurd huk.symm hk
      · exact ⟨u, hu, huk⟩

theorem after_grammars (rs : List Registration) :
    (after rs).grammars = rs.foldl (fun t s => SortedTable.put s.key s.grammar t) [] :=
  foldl_register_grammars rs empty

theorem after_aliases (rs : List Registration) :
    (after rs).aliases = rs.foldl (bring Registration.aliasKeys) [] := foldl_register_aliases rs empty

theorem after_extensions (rs : List Registration) :
    (after rs).extensions = rs.foldl (bring Registration.extensionKeys) [] := foldl_register_extensions rs empty

theorem get?_after_isSome_iff : ((after rs).grammars.get? k).isSome = true ↔ ∃ s ∈ rs, s.key = k := by
  rw [after_grammars]
  constructor
  · intro h
    obtain ⟨g, hg⟩ := Option.isSome_iff_exists.1 h
    obtain ⟨s, hs, hk, -⟩ := (get?_grammars_eq_some hg).resolve_left (by simp)
    exact ⟨s, hs, hk⟩
  · exact fun h => get?_grammars_isSome (.inr h)

/-- Following a key leads to a language exactly if the key leads anywhere. -/
theorem bind_brought_isSome_iff : ((((rs.foldl (bring claims) []).get? x).bind (after rs).grammars.get?).isSome = true ↔
    ((rs.foldl (bring claims) []).get? x).isSome = true) := by
  cases h : (rs.foldl (bring claims) []).get? x with
  | none => rfl
  | some k =>
    obtain ⟨s, hs, hk⟩ := (get?_brought_mem .nil h).resolve_left (by simp)
    rw [Option.bind_some, get?_after_isSome_iff]
    exact ⟨fun _ => rfl, fun _ => ⟨s, hs, hk⟩⟩

/-- **What a registered language declares leads somewhere** unless it is forgotten: that is, unless
the registration that claimed it last is followed by another one under its name. An alias that is
the name of a language leads to that language in any case. -/
theorem declared_resolves_iff (rs : List Registration) (k : String) (g : Grammar)
    (h : (after rs).grammars.get? k = some g) :
    (∀ a ∈ g.aliases, (after rs).has a = true ↔
      (∃ s ∈ rs, s.key = lowercase a) ∨ ¬ Forgotten Registration.aliasKeys (lowercase a) rs) ∧
    (∀ e ∈ g.extensions, ((after rs).findByExtension e).isSome = true ↔
      ¬ Forgotten Registration.extensionKeys (extensionKey e) rs) := by
  obtain ⟨s, hs, hk, rfl⟩ : ∃ s ∈ rs, s.key = k ∧ s.grammar = g := by
    rw [after_grammars] at h
    exact (get?_grammars_eq_some h).resolve_left (by simp)
  refine ⟨fun a ha => ?_, fun e he => ?_⟩
  · rw [has, get?, Option.isSome_or, Bool.or_eq_true, get?_after_isSome_iff, after_aliases, bind_brought_isSome_iff]
    by_cases hname : lowercase a = s.key
    · exact ⟨fun _ => .inl ⟨s, hs, hname.symm⟩, fun _ => .inl ⟨s, hs, hname.symm⟩⟩
    · rw [get?_brought_isSome_iff .nil ⟨s, hs, Registration.mem_aliasKeys ha hname⟩]
  · rw [findByExtension, after_extensions, bind_brought_isSome_iff,
      get?_brought_isSome_iff .nil ⟨s, hs, List.mem_map_of_mem he⟩]

/-- Two languages that claim one alias and one extension: both lead to the second language. -/
theorem declared_resolves_shared :
    let rs : List Registration := [⟨"First", declaring ["X"] [".ext"]⟩, ⟨"Second", declaring ["x"] ["EXT"]⟩]
    (after rs).grammars.get? "first" = some (declaring ["X"] [".ext"]) ∧
      (after rs).has "X" = true ∧ ((after rs).findByExtension ".ext").isSome = true := by
  intro rs
  have h : (after rs).grammars.get? "first" = some (declaring ["X"] [".ext"]) := rfl
  obtain ⟨ha, he⟩ := declared_resolves_iff rs "first" _ h
  exact ⟨h, (ha "X" (by decide)).2 (.inr (by decide +kernel)), (he ".ext" (by decide)).2 (by decide +kernel)⟩

/-- The second language takes the alias of the first over, and gives it up when it is registered
again: the first is registered still, and declares an alias that leads nowhere. -/
theorem alias_forgotten :
    ¬ ∀ (rs : List Registration) (k : String) (g : Grammar), (after rs).grammars.get? k = some g →
      (∀ a ∈ g.aliases, (after rs).has a = true) ∧
      (∀ e ∈ g.extensions, ((after rs).findByExtension e).isSome = true) := by
  intro h
  have := (h [⟨"first", declaring ["x"] []⟩, ⟨"second", declaring ["x"] []⟩, ⟨"second", declaring [] []⟩]
    "first" (declaring ["x"] []) rfl).1 "x" (by decide)
  exact absurd this (by decide +kernel)

end Languages

end Lexicolor
