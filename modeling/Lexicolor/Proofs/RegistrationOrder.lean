/-
When the order of registrations leaves no trace. The three tables of the languages have increasing
keys after any registrations (`after_ordered`), so what they answer says all about them. A grammar
registered again under its name drops just what it brought and brings it again (`bring_again`). Of two
registrations that claim nothing in common each drops only what earlier ones had brought under its own
name, and neither drops or takes over what the other brings (`bring_comm`), even if an alias of the
one is the name of the other. So in both cases the languages are the same ones (`answers_of_order`).
-/
import Lexicolor.Proofs.Registrations

namespace Lexicolor.Languages

open Text (lowercase)

variable {r r' : Languages} {s u : Registration} {t : SortedTable String}

/-! ## Tables in order -/

/-- The keys of all three tables increase. -/
structure Ordered (r : Languages) : Prop where
  grammars : r.grammars.Ordered
  aliases : r.aliases.Ordered
  extensions : r.extensions.Ordered

theorem empty_ordered : empty.Ordered := ⟨.nil, .nil, .nil⟩

theorem Ordered.register (h : r.Ordered) (s : Registration) : (r.register s.name s.grammar).Ordered where
  grammars := h.grammars.put ..
  aliases := show (bring Registration.aliasKeys r.aliases s).Ordered from bring_ordered h.aliases s
  extensions := show (bring Registration.extensionKeys r.extensions s).Ordered from bring_ordered h.extensions s

theorem foldl_register_ordered : ∀ (rs : List Registration) {r : Languages}, r.Ordered →
    (rs.foldl (fun r s => r.register s.name s.grammar) r).Ordered
  | [], _, h => h
  | s :: rs, _, h => foldl_register_ordered rs (h.register s)

theorem after_ordered (rs : List Registration) : (after rs).Ordered := foldl_register_ordered rs empty_ordered

/-- Languages in order are told from what their tables answer. -/
theorem Ordered.ext (h : r.Ordered) (h' : r'.Ordered) (hg : ∀ k, r.grammars.get? k = r'.grammars.get? k)
    (ha : r.aliases = r'.aliases) (he : r.extensions = r'.extensions) : r = r' := by
  obtain ⟨gs, as, es⟩ := r
  obtain ⟨gs', as', es'⟩ := r'
  obtain rfl : gs = gs' := SortedTable.Ordered.ext h.grammars h'.grammars hg
  obtain rfl : as = as' := ha
  obtain rfl : es = es' := he
  rfl

/-! ## Two registrations -/

/-- **What is brought again** is what was brought. -/
theorem bring_again (claims : Registration → List String) (h : t.Ordered) (s : Registration) :
    bring claims (bring claims t s) s = bring claims t s := by
  have hs : (bring claims t s).Ordered := bring_ordered h s
  refine SortedTable.Ordered.ext (bring_ordered hs s) hs fun x => ?_
  rw [get?_bring hs, get?_bring h]
  by_cases hx : x ∈ claims s
  · rw [if_pos hx, if_pos hx]
  · rw [if_neg hx, if_neg hx, Option.filter_filter]
    simp only [Bool.and_self]

/-- **Claims that have nothing in common** can be brought in either order. -/
theorem bring_comm (claims : Registration → List String) (h : t.Ordered) (hne : s.key ≠ u.key)
    (hdisjoint : (claims s).Disjoint (claims u)) :
    bring claims (bring claims t s) u = bring claims (bring claims t u) s := by
  have hs : (bring claims t s).Ordered := bring_ordered h s
  have hu : (bring claims t u).Ordered := bring_ordered h u
  refine SortedTable.Ordered.ext (bring_ordered hs u) (bring_ordered hu s) fun x => ?_
  rw [get?_bring hs, get?_bring hu, get?_bring h, get?_bring h]
  by_cases hxs : x ∈ claims s
  · have hxu : x ∉ claims u := fun hx => hdisjoint hxs hx
    rw [if_pos hxs, if_neg hxu, if_pos hxs, Option.filter_some_pos (by simpa using hne)]
  · by_cases hxu : x ∈ claims u
    · rw [if_neg hxs, if_pos hxu, if_neg hxs, if_pos hxu, Option.filter_some_pos (by simpa using hne.symm)]
    · rw [if_neg hxs, if_neg hxu, if_neg hxs, if_neg hxu, Option.filter_filter, Option.filter_filter]
      simp only [Bool.and_comm]

theorem register_again (h : r.Ordered) (s : Registration) :
    (r.register s.name s.grammar).register s.name s.grammar = r.register s.name s.grammar := by
  refine ((h.register s).register s).ext (h.register s) (fun k => ?_) ?_ ?_
  · rw [get?_register_grammars, get?_register_grammars]
    split <;> rfl
  · exact bring_again Registration.aliasKeys h.aliases s
  · exact bring_again Registration.extensionKeys h.extensions s

theorem register_comm (h : r.Ordered) (hne : s.key ≠ u.key) (ha : s.aliasKeys.Disjoint u.aliasKeys)
    (he : s.extensionKeys.Disjoint u.extensionKeys) :
    (r.register s.name s.grammar).register u.name u.grammar =
      (r.register u.name u.grammar).register s.name s.grammar := by
  refine ((h.register s).register u).ext ((h.register u).register s) (fun k => ?_) ?_ ?_
  · have hnames : lowercase s.name ≠ lowercase u.name := hne
    rw [get?_register_grammars, get?_register_grammars, get?_register_grammars, get?_register_grammars]
    by_cases hs : k = lowercase s.name
    · have hu : k ≠ lowercase u.name := fun hk => hnames (hs.symm.trans hk)
      rw [if_pos hs, if_neg hu, if_pos hs]
    · rw [if_neg hs, if_neg hs]
  · exact bring_comm Registration.aliasKeys h.aliases hne ha
  · exact bring_comm Registration.extensionKeys h.extensions hne he

/-! ## After any registrations -/

/-- Look-ups by name or alias and by extension are answered alike, and the same names are listed. -/
structure AnswerAlike (r r' : Languages) : Prop where
  get? : ∀ n, r.get? n = r'.get? n
  findByExtension : ∀ e, r.findByExtension e = r'.findByExtension e
  names : r.names = r'.names

theorem AnswerAlike.refl (r : Languages) : r.AnswerAlike r := ⟨fun _ => rfl, fun _ => rfl, rfl⟩

theorem after_append_pair (rs : List Registration) (s u : Registration) : after (rs ++ [s, u]) =
    ((after rs).register s.name s.grammar).register u.name u.grammar := by
  rw [after, List.foldl_append]
  rfl

theorem after_append_single (rs : List Registration) (s : Registration) :
    after (rs ++ [s]) = (after rs).register s.name s.grammar := by
  rw [after, List.foldl_append]
  rfl

/-- **The order of registrations leaves no trace** where they have nothing in common. After any
registrations, one that is made twice in a row answers as if it was made once; and two under names that
differ in more than case, of which no alias and no extension is declared by both, answer alike in both
orders. What was registered before does not matter, nor whether an alias of the one is the name of the
other. -/
theorem answers_of_order (rs : List Registration) :
    (∀ s, (after (rs ++ [s, s])).AnswerAlike (after (rs ++ [s]))) ∧
    (∀ s u, lowercase s.name ≠ lowercase u.name →
      (s.grammar.aliases.map lowercase).Disjoint (u.grammar.aliases.map lowercase) →
      (s.grammar.extensions.map extensionKey).Disjoint (u.grammar.extensions.map extensionKey) →
      (after (rs ++ [s, u])).AnswerAlike (after (rs ++ [u, s]))) := by
  refine ⟨fun s => ?_, fun s u hne ha he => ?_⟩
  · rw [after_append_pair, after_append_single, register_again (after_ordered rs)]
    exact .refl _
  · -- What a registration claims as aliases is among the aliases that its grammar declares.
    have hclaims : s.aliasKeys.Disjoint u.aliasKeys := fun x hs hu =>
      ha (List.mem_filter.1 hs).1 (List.mem_filter.1 hu).1
    rw [after_append_pair, after_append_pair, register_comm (after_ordered rs) hne hclaims he]
    exact .refl _

/-- Two languages that each have the name of the other as an alias, after a third that had claimed an alias
of the first, and an earlier grammar under the name of the second. -/
theorem answers_of_order_crossed :
    let rs : List Registration := [⟨"third", declaring ["x"] ["ext"]⟩, ⟨"SECOND", declaring ["z"] ["y"]⟩]
    let s : Registration := ⟨"First", declaring ["second", "X"] [".a"]⟩
    let u : Registration := ⟨"Second", declaring ["FIRST", "y"] ["EXT"]⟩
    (lowercase s.name ≠ lowercase u.name ∧
      (s.grammar.aliases.map lowercase).Disjoint (u.grammar.aliases.map lowercase) ∧
      (s.grammar.extensions.map extensionKey).Disjoint (u.grammar.extensions.map extensionKey)) ∧
    (after (rs ++ [s, u])).AnswerAlike (after (rs ++ [u, s])) ∧
    ((after (rs ++ [u, s])).get? "x").map (·.aliases) = some s.grammar.aliases ∧
    ((after (rs ++ [u, s])).get? "second").map (·.aliases) = some u.grammar.aliases ∧
    ((after (rs ++ [u, s])).findByExtension "ext").map (·.aliases) = some u.grammar.aliases := by
  intro rs s u
  have hne : lowercase s.name ≠ lowercase u.name := by decide +kernel
  have ha : ∀ a ∈ s.grammar.aliases.map lowercase, a ∉ u.grammar.aliases.map lowercase := by decide +kernel
  have he : ∀ e ∈ s.grammar.extensions.map extensionKey, e ∉ u.grammar.extensions.map extensionKey := by
    decide +kernel
  have horder := (answers_of_order rs).2 s u hne (List.disjoint_left.2 fun a => ha a) (List.disjoint_left.2 fun e => he e)
  exact ⟨⟨hne, List.disjoint_left.2 fun a => ha a, List.disjoint_left.2 fun e => he e⟩, horder, by decide +kernel,
    by decide +kernel, by decide +kernel⟩

end Lexicolor.Languages
