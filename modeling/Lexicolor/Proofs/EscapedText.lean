/-
Patterns made from a text. The characters that mean something in a pattern are written with a backslash,
so whatever the text is, its characters are read back one after the other (`readAlternatives_written`): a
literal is faithful, and so is a whole word, whose edges are written around it.
-/
import Lexicolor.Grammar.Stock
import Lexicolor.Proofs.FaithfulGrammars

namespace Lexicolor

namespace Regex

open Text Read

variable {n : Nat} {done : List Piece} {items : List Item} {c : Char} {cs rest : List Char}
  {names : List String} {e : Expr}

/-- A reader in the state that it starts in, but for the characters that are left and the names. -/
abbrev plainly (cs : List Char) (names : List String) : ReadState := ⟨cs, .initial, names⟩

theorem ne_of_isMeta {d : Char} (hc : isMeta c = false) (hd : isMeta d = true) : c ≠ d := by
  rintro rfl
  rw [hd] at hc
  cases hc

/-! ## Atoms -/

/-- A character that means nothing is read as itself. -/
theorem readAtom_plain (hc : isMeta c = false) :
    readAtom.run (plainly (c :: cs) names) = .ok (.one (.single c), plainly cs names) := by
  have h1 : c ≠ '\\' := ne_of_isMeta hc (by decide)
  have h2 : c ≠ '.' := ne_of_isMeta hc (by decide)
  have h3 : c ≠ '^' := ne_of_isMeta hc (by decide)
  have h4 : c ≠ '$' := ne_of_isMeta hc (by decide)
  have hstep : readAtom.run (plainly (c :: cs) names) = (literalExpr c false).run (plainly cs names) := by
    unfold readAtom
    simp [Read.flags, peek, bump]
  rw [hstep]
  rfl

/-- A character that means something stands for itself behind a backslash. -/
theorem readEscape_meta (hc : isMeta c = true) :
    readEscape.run (plainly ('\\' :: c :: cs) names) = .ok (.literal c false, plainly cs names) := by
  have hall : ("\\.+*?()|[]\x7b\x7d^$#&-~".toList.all fun c => !CharSet.asciiDigit.contains c &&
      decide (c ∉ ['x', 'u', 'U', 'd', 's', 'w', 'D', 'S', 'W'])) = true := by decide
  have hchar := List.all_eq_true.1 hall c (by simpa [isMeta] using hc)
  simp only [Bool.and_eq_true, Bool.not_eq_true', decide_eq_true_eq] at hchar
  obtain ⟨hdigit, hletters⟩ := hchar
  simp only [List.mem_cons, List.not_mem_nil, or_false, not_or] at hletters
  have hstep : readEscape.run (plainly ('\\' :: c :: cs) names) = pure (.literal c false, plainly cs names) := by
    unfold readEscape
    simp [Read.flags, peek, bump, isEscapable, hdigit, hletters, hc]
  exact hstep

/-- An edge of words is read where no braces follow, which might say more of it. -/
theorem readEscape_edge (h : rest.head? ≠ some '\x7b') :
    readEscape.run (plainly ('\\' :: 'b' :: rest) names) = .ok (.anchor (.wordEdge false), plainly rest names) := by
  have hdigit : CharSet.asciiDigit.contains 'b' = false := by decide
  have hescapable : isEscapable 'b' = false := by decide
  have hunicode : Flags.initial.unicode = true := rfl
  have hstep : readEscape.run (plainly ('\\' :: 'b' :: rest) names) =
      pure (.anchor (.wordEdge false), plainly rest names) := by
    unfold readEscape
    simp [Read.flags, peek, bump, hdigit, hescapable, hunicode, readEdge, h]
  exact hstep

/-- What follows a backslash is the atom that it makes with it. -/
theorem readAtom_escape (cs : List Char) (names : List String) : readAtom.run (plainly ('\\' :: cs) names) =
    (readEscape >>= Atom.asExpr).run (plainly ('\\' :: cs) names) := by
  unfold readAtom
  simp [Read.flags, peek]

/-! ## Rows of atoms -/

/-- An atom is put before what has been read. -/
theorem readAlternatives_atom (hc : c = '\\' ∨ isMeta c = false)
    (h : readAtom.run (plainly (c :: cs) names) = .ok (e, plainly rest names)) :
    (readAlternatives (n + 1) done items).run (plainly (c :: cs) names) =
      (readAlternatives n done (.piece ⟨e, 0⟩ :: items)).run (plainly rest names) := by
  have hne : c ∉ [')', '|', '(', '[', '?', '*', '+', '\x7b'] := by
    rcases hc with rfl | hc
    · decide
    · have hall : [')', '|', '(', '[', '?', '*', '+', '\x7b'].all isMeta = true := by decide
      intro hmem
      exact ne_of_isMeta hc (List.all_eq_true.1 hall c hmem) rfl
  simp only [List.mem_cons, List.not_mem_nil, or_false, not_or] at hne
  obtain ⟨h1, h2, h3, h4, h5, h6, h7, h8⟩ := hne
  have hverbose : Flags.initial.verbose = false := rfl
  have hstep : (readAlternatives (n + 1) done items).run (plainly (c :: cs) names) =
      (readAtom >>= fun e => readAlternatives n done (.piece ⟨e, 0⟩ :: items)).run (plainly (c :: cs) names) := by
    rw [readAlternatives]
    simp [space, peek, hverbose]
  rw [hstep, StateT.run_bind, h]
  rfl

/-- A character as it is written in a pattern. -/
def written (c : Char) : List Char := if isMeta c then ['\\', c] else [c]

theorem toList_escape (text : String) : (Pattern.escape text).toList = text.toList.flatMap written := by
  rw [Pattern.escape, String.toList_ofList]
  rfl

/-- No text begins with a brace when it is written, so an edge can stand before it. -/
theorem written_head (c : Char) (cs : List Char) : (written c ++ cs).head? ≠ some '\x7b' := by
  unfold written
  split
  · simp
  · next hc =>
    have hne : c ≠ '\x7b' := ne_of_isMeta (by simpa using hc) (by decide)
    simpa using hne

/-- No character is written as nothing, so the text of a pattern is long enough to count its parts by. -/
theorem length_le_written (cs : List Char) : cs.length ≤ (cs.flatMap written).length := by
  induction cs with
  | nil => simp
  | cons c cs ih =>
    have hc : 1 ≤ (written c).length := by unfold written; split <;> simp
    simp only [List.flatMap_cons, List.length_append, List.length_cons]
    omega

/-- The part that a character makes. -/
def piece (c : Char) : Item := .piece ⟨.one (.single c), 0⟩

theorem piece_depth {i : Item} (h : i ∈ cs.map piece) : i.depth = 0 := by
  obtain ⟨c, -, rfl⟩ := List.mem_map.1 h
  rfl

theorem filterMap_piece (cs : List Char) :
    (cs.map piece).filterMap Item.expr? = cs.map fun c => .one (.single c) := by
  induction cs with
  | nil => rfl
  | cons c cs ih => rw [List.map_cons, List.filterMap_cons, ih]; rfl

/-- **A text that is escaped** is read as its characters, one after the other. -/
theorem readAlternatives_written : ∀ (cs : List Char) {items : List Item},
    (readAlternatives (cs.length + n) done items).run (plainly (cs.flatMap written ++ rest) names) =
      (readAlternatives n done ((cs.map piece).reverse ++ items)).run (plainly rest names)
  | [], _ => by rw [List.length_nil, Nat.zero_add]; rfl
  | c :: cs, items => by
    have hlength : (c :: cs).length + n = cs.length + n + 1 := by simp only [List.length_cons]; omega
    have hitems : ((c :: cs).map piece).reverse ++ items = (cs.map piece).reverse ++ piece c :: items := by simp
    rw [hlength, hitems, ← readAlternatives_written cs, List.flatMap_cons, List.append_assoc]
    cases hc : isMeta c with
    | false =>
      rw [written, hc]
      exact readAlternatives_atom (.inr hc) (readAtom_plain hc)
    | true =>
      have hatom := readAtom_escape (c :: (cs.flatMap written ++ rest)) names
      rw [StateT.run_bind, readEscape_meta hc] at hatom
      rw [written, hc]
      exact readAlternatives_atom (.inl rfl) hatom

/-- An edge of words, as a part. -/
def edge : Item := .piece ⟨.anchor (.wordEdge false), 0⟩

theorem readAlternatives_edge (h : rest.head? ≠ some '\x7b') :
    (readAlternatives (n + 1) done items).run (plainly ('\\' :: 'b' :: rest) names) =
      (readAlternatives n done (edge :: items)).run (plainly rest names) := by
  have hatom := readAtom_escape ('b' :: rest) names
  rw [StateT.run_bind, readEscape_edge h] at hatom
  exact readAlternatives_atom (.inl rfl) hatom

/-- At the end of a text the parts are put together. -/
theorem readAlternatives_nil : (readAlternatives (n + 1) done items).run (plainly [] names) =
    .ok (choice (sequence items :: done), plainly [] names) := by
  have hverbose : Flags.initial.verbose = false := rfl
  have hstep : (readAlternatives (n + 1) done items).run (plainly [] names) =
      pure (choice (sequence items :: done), plainly [] names) := by
    rw [readAlternatives]
    simp [space, peek, hverbose]
  exact hstep

/-! ## Whole patterns -/

theorem sequence_depth (h : ∀ i ∈ items, i.depth = 0) : (sequence items).depth ≤ 1 := by
  have hmax : ∀ ds : List Nat, (∀ d ∈ ds, d = 0) → ds.foldl max 0 = 0 := by
    intro ds hds
    induction ds with
    | nil => rfl
    | cons d ds ih =>
      rw [List.forall_mem_cons] at hds
      rw [List.foldl_cons, hds.1, Nat.max_self, ih hds.2]
  have hzero := hmax (items.map Item.depth) (by simpa using h)
  simp only [sequence, hzero]
  split <;> omega

/-- A pattern is read where its text is used up, unless it is too deep. -/
theorem readPattern_shallow {p : Piece}
    (h : (readAlternatives (cs.length + 1) [] []).run (plainly cs []) = .ok (p, plainly [] []))
    (hshallow : ¬ depthLimit < p.depth) : readPattern.run (plainly cs []) = .ok (p.expr, plainly [] []) := by
  have hp : (readAlternatives (cs.length + 1) [] []).run (plainly cs []) = pure (p, plainly [] []) := h
  have hstep : readPattern.run (plainly cs []) = pure (p.expr, plainly [] []) := by
    unfold readPattern
    simp [hp, atEnd, hshallow]
  exact hstep

/-- A text whose parts come to one sequence of atoms is read as that sequence. -/
theorem read_of_items {source : String} (hitems : ∀ i ∈ items, i.depth = 0)
    (h : (readAlternatives (source.toList.length + 1) [] []).run (plainly source.toList []) =
      .ok (choice [sequence items], plainly [] [])) :
    Expr.read source = .ok (.sequence (items.reverse.filterMap Item.expr?)) := by
  have hshallow : ¬ depthLimit < (choice [sequence items]).depth := by
    have := sequence_depth hitems
    rw [depthLimit, choice]
    omega
  rw [Expr.read, readPattern_shallow h hshallow]
  rfl

end Regex

namespace Stock

open Regex Text

/-- **A literal reads back**, whatever its text. -/
theorem literal_faithful (text : String) : (literal text).Faithful Expr.read := by
  have hread : Expr.read (literal text).source =
      .ok (.sequence ((text.toList.map piece).reverse.reverse.filterMap Item.expr?)) := by
    refine read_of_items (fun i hi => piece_depth (List.mem_reverse.1 hi)) ?_
    have hsource : (literal text).source.toList = text.toList.flatMap written ++ [] := by
      rw [List.append_nil]
      exact toList_escape text
    obtain ⟨k, hk⟩ := Nat.exists_eq_add_of_le (length_le_written text.toList)
    have hfuel : (literal text).source.toList.length + 1 = text.toList.length + (k + 1) := by
      rw [hsource, List.append_nil, hk, Nat.add_assoc]
    rw [hfuel, hsource, readAlternatives_written, readAlternatives_nil, List.append_nil]
  rw [List.reverse_reverse, filterMap_piece] at hread
  exact hread

/-- **A whole word reads back**, whatever its text. -/
theorem wholeWord_faithful (text : String) : (wholeWord text).Faithful Expr.read := by
  have hread : Expr.read (wholeWord text).source = .ok (.sequence
      ((edge :: ((text.toList.map piece).reverse ++ [edge])).reverse.filterMap Item.expr?)) := by
    refine read_of_items ?_ ?_
    · simp only [List.mem_cons, List.mem_append, List.mem_reverse, List.not_mem_nil, or_false]
      rintro i (rfl | hi | rfl)
      exacts [rfl, piece_depth hi, rfl]
    have hsource : (wholeWord text).source.toList =
        '\\' :: 'b' :: (text.toList.flatMap written ++ ['\\', 'b']) := by
      rw [← toList_escape]
      simp [wholeWord]
    obtain ⟨k, hk⟩ := Nat.exists_eq_add_of_le (length_le_written text.toList)
    have hfuel : (wholeWord text).source.toList.length + 1 = text.toList.length + (k + 3 + 1) + 1 := by
      simp only [hsource, List.length_cons, List.length_append, hk, List.length_nil]
      omega
    have hhead : (text.toList.flatMap written ++ ['\\', 'b']).head? ≠ some '\x7b' := by
      cases text.toList with
      | nil => simp
      | cons c cs =>
        rw [List.flatMap_cons, List.append_assoc]
        exact written_head c _
    rw [hfuel, hsource, readAlternatives_edge hhead, readAlternatives_written, readAlternatives_edge (by simp),
      readAlternatives_nil]
  have hitems : (edge :: ((text.toList.map piece).reverse ++ [edge])).reverse =
      edge :: (text.toList.map piece ++ [edge]) := by simp
  rw [hitems, List.filterMap_cons, List.filterMap_append, filterMap_piece] at hread
  exact hread

end Stock

end Lexicolor
