/-
Formats under their names, after any number of additions (`FormatRegistry.Holds`). A registry keeps under a
name the formatter that was added last under it (`Holds.get?_eq`), and a query looks its lower case up. So a
query finds the last formatter with a name in lower case that is equal to it but for case, and a formatter
whose name has capitals is listed and handed back, but never found (`resolve_added`).
-/
import Lexicolor.Format.Registry
import Lexicolor.Proofs.SortedTables

namespace Lexicolor

namespace Text

theorem lowerAsciiChar_lowerAsciiChar (c : Char) : lowerAsciiChar (lowerAsciiChar c) = lowerAsciiChar c := by
  by_cases hc : 'A' ≤ c ∧ c ≤ 'Z'
  · -- The image of a capital lies beyond the capitals.
    have himage : ∀ n ≤ 90, 65 ≤ n → 90 < (Char.ofNat (n + 32)).toNat := by decide
    refine if_neg fun h => ?_
    have hle : (lowerAsciiChar c).toNat ≤ 90 := h.2
    rw [lowerAsciiChar, if_pos hc] at hle
    exact Nat.not_lt.2 hle (himage c.toNat hc.2 hc.1)
  · have hsame : lowerAsciiChar c = c := if_neg hc
    rw [hsame, hsame]

theorem lowercaseAscii_lowercaseAscii (s : String) : lowercaseAscii (lowercaseAscii s) = lowercaseAscii s := by
  simp [lowercaseAscii, lowerAsciiChar_lowerAsciiChar, Function.comp_def]

end Text

open Text (lowercaseAscii lowercaseAscii_lowercaseAscii)

namespace FormatRegistry

variable {r : FormatRegistry} {fs : List Formatter} {f g : Formatter} {key n : String}

/-- A registry and the formatters that were added to it, the last one last. -/
inductive Holds : FormatRegistry → List Formatter → Prop
  | empty : Holds .empty []
  | builtin : Holds .builtin [.treeviz, .json, .glossary]
  | add {r : FormatRegistry} {fs : List Formatter} (f : Formatter) (h : Holds r fs) : Holds (r.add f).2 (fs ++ [f])

/-- The formatter that was added last under a name. -/
def lastNamed (fs : List Formatter) (name : String) : Option Formatter := (fs.filter (·.name == name)).getLast?

/-- The formatter that was added last of those whose names are in lower case and equal to a query but for
case. -/
def lastAnswering (fs : List Formatter) (query : String) : Option Formatter :=
  (fs.filter fun f => lowercaseAscii f.name == f.name && lowercaseAscii f.name == lowercaseAscii query).getLast?

/-- Some query finds the formatter. -/
def Resolves (r : FormatRegistry) (f : Formatter) : Prop := ∃ n, r.resolve n = .ok f

/-! ## What is kept under a name -/

theorem lastNamed_append (fs : List Formatter) (f : Formatter) (name : String) :
    lastNamed (fs ++ [f]) name = if name = f.name then some f else lastNamed fs name := by
  rw [lastNamed, List.filter_append, List.getLast?_append]
  by_cases hname : name = f.name
  · simp [hname]
  · simp [hname, Ne.symm hname, lastNamed]

theorem lastNamed_name (h : lastNamed fs key = some f) : f ∈ fs ∧ f.name = key := by
  simpa using List.mem_of_getLast? h

theorem exists_lastNamed_iff : (∃ f, lastNamed fs key = some f) ↔ ∃ f ∈ fs, f.name = key := by
  rw [← Option.isSome_iff_exists, lastNamed, List.getLast?_isSome, ne_eq, List.filter_eq_nil_iff]
  simp

theorem get?_add (r : FormatRegistry) (f : Formatter) (key : String) :
    (r.add f).2.formatters.get? key = if key = f.name then some f else r.formatters.get? key := by
  show (r.formatters.put f.name f).get? key = _
  split
  · next hkey => rw [hkey, SortedTable.get?_put_self]
  · next hkey => exact SortedTable.get?_put_of_ne f hkey

theorem get?_add_eq (f : Formatter) (h : r.formatters.get? key = lastNamed fs key) :
    (r.add f).2.formatters.get? key = lastNamed (fs ++ [f]) key := by rw [get?_add, lastNamed_append, h]

/-- **Under a name** a registry keeps the formatter that was added last under it. -/
theorem Holds.get?_eq (h : Holds r fs) (key : String) : r.formatters.get? key = lastNamed fs key := by
  induction h with
  | empty => rfl
  | builtin =>
    have hempty : FormatRegistry.empty.formatters.get? key = lastNamed [] key := rfl
    exact get?_add_eq .glossary (get?_add_eq .json (get?_add_eq .treeviz hempty))
  | add f _ ih => exact get?_add_eq f ih

/-! ## What a query finds -/

theorem resolve_eq_ok_iff : r.resolve n = .ok f ↔ r.formatters.get? (lowercaseAscii n) = some f := by
  rw [resolve]
  split <;> simp [*]

/-- The last formatter that answers a query is the last one under the query's lower case. -/
theorem lastAnswering_eq (fs : List Formatter) (n : String) : lastAnswering fs n = lastNamed fs (lowercaseAscii n) := by
  have hname : ∀ f : Formatter, (lowercaseAscii f.name == f.name && lowercaseAscii f.name == lowercaseAscii n) =
      (f.name == lowercaseAscii n) := by
    intro f
    rw [Bool.eq_iff_iff]
    simp only [Bool.and_eq_true, beq_iff_eq]
    constructor
    · rintro ⟨hlower, heq⟩
      rw [← hlower, heq]
    · intro heq
      rw [heq, lowercaseAscii_lowercaseAscii]
      exact ⟨rfl, rfl⟩
  simp only [lastAnswering, lastNamed, hname]

/-- A formatter is found exactly if its name is in lower case and it is the one kept under it. -/
theorem Holds.resolves_iff (h : Holds r fs) :
    r.Resolves g ↔ lowercaseAscii g.name = g.name ∧ r.formatters.get? g.name = some g := by
  constructor
  · rintro ⟨n, hn⟩
    have hget := resolve_eq_ok_iff.1 hn
    have hname : g.name = lowercaseAscii n := (lastNamed_name (h.get?_eq _ ▸ hget)).2
    rw [hname]
    exact ⟨lowercaseAscii_lowercaseAscii n, hget⟩
  · rintro ⟨hlower, hget⟩
    exact ⟨g.name, resolve_eq_ok_iff.2 (hlower.symm ▸ hget)⟩

/-- **What an addition displaces**: the formatter that it hands back, if that could be found. -/
theorem Holds.displaced_iff (h : Holds r fs) (hne : g ≠ f) :
    r.Resolves g ∧ ¬(r.add f).2.Resolves g ↔ (r.add f).1 = some g ∧ lowercaseAscii f.name = f.name := by
  have hreturned : (r.add f).1 = r.formatters.get? f.name := rfl
  rw [h.resolves_iff, (h.add f).resolves_iff, get?_add, hreturned]
  constructor
  · rintro ⟨⟨hlower, hget⟩, hgone⟩
    by_cases hname : g.name = f.name
    · rw [hname] at hlower hget
      exact ⟨hget, hlower⟩
    · rw [if_neg hname] at hgone
      exact absurd ⟨hlower, hget⟩ hgone
  · rintro ⟨hget, hlower⟩
    have hname : g.name = f.name := (lastNamed_name (h.get?_eq _ ▸ hget)).2
    rw [hname, if_pos rfl]
    exact ⟨⟨hlower, hget⟩, fun hstill => hne (Option.some.inj hstill.2).symm⟩

/-- **Formats by name.** A query finds the formatter that was added last of those whose names are in lower
case and equal to it but for case; if there is none the error lists the names of all that were added. Of the
listed names exactly those are found whose lower case is listed, so all of them if no name has capitals. An
addition hands back the formatter that was added last under the same name; if that name is in lower case, it
is the one that can no longer be found, and else there is none. -/
theorem resolve_added (h : Holds r fs) :
    (∀ n, r.resolve n = match lastAnswering fs n with
      | some f => .ok f
      | none => .error (.unknown n r.names)) ∧
    (∀ n, n ∈ r.names ↔ ∃ f ∈ fs, f.name = n) ∧
    (∀ n ∈ r.names, (∃ f, r.resolve n = .ok f) ↔ lowercaseAscii n ∈ r.names) ∧
    ∀ f, (r.add f).1 = lastNamed fs f.name ∧ ∀ g, g ≠ f →
      (r.Resolves g ∧ ¬(r.add f).2.Resolves g ↔ (r.add f).1 = some g ∧ lowercaseAscii f.name = f.name) := by
  have hnames : ∀ {n}, n ∈ r.names ↔ ∃ f, r.formatters.get? n = some f := SortedTable.mem_keys_iff
  refine ⟨fun n => ?_, fun n => ?_, fun n _ => ?_, fun f => ⟨h.get?_eq f.name, fun g hne => h.displaced_iff hne⟩⟩
  · rw [lastAnswering_eq, ← h.get?_eq]
    rfl
  · rw [hnames, h.get?_eq, exists_lastNamed_iff]
  · simp only [resolve_eq_ok_iff, hnames]

/-- A formatter that counts tokens. -/
def counting (name : String) : Formatter := ⟨name, "Token count", fun ts => .ok (toString ts.length)⟩

/-- One formatter in place of another, and one whose name has capitals: the first is found however it is
written, the second is listed and not found. -/
theorem resolve_added_capitals :
    let r := ((FormatRegistry.builtin.add (counting "json")).2.add (counting "Count")).2
    let fs := [.treeviz, .json, .glossary] ++ [counting "json"] ++ [counting "Count"]
    Holds r fs ∧ r.resolve "JSON" = .ok (counting "json") ∧
      r.resolve "count" = .error (.unknown "count" ["Count", "glossary", "json", "treeviz"]) ∧
      (FormatRegistry.builtin.add (counting "json")).1 = some .json := by
  intro r fs
  have hone : Holds .builtin [.treeviz, .json, .glossary] := .builtin
  have h : Holds r fs := (hone.add _).add _
  obtain ⟨hresolve, -⟩ := resolve_added h
  obtain ⟨-, -, -, hadd⟩ := resolve_added hone
  exact ⟨h, hresolve "JSON", hresolve "count", (hadd (counting "json")).1⟩

/-- A name with capitals is listed, but no query finds it. -/
theorem capitals_unresolved : ¬ ∀ r fs, Holds r fs → ∀ n ∈ r.names, ∃ f, r.resolve n = .ok f := by
  intro h
  have hempty : Holds .empty [] := .empty
  obtain ⟨f, hf⟩ := h _ _ (hempty.add (counting "Count")) "Count" (by decide)
  rw [resolve_eq_ok_iff] at hf
  cases hf

end FormatRegistry

end Lexicolor
