/-
Gaps among spaces, in a grammar whose words are those of the stock identifier pattern: a gap that
holds a word with spaces around it gives the token of the word between plain ones
(`gapTokens_word`), and such a word runs across every place inside it (`wordAcross_word`).
-/
import Lexicolor.Proofs.Words
import Lexicolor.Proofs.Identifiers

namespace Lexicolor.Scan

open Text Regex Stock

variable {g : Grammar} {p : Place} {pad cs tail more : List Char}

/-- The token of plain text, if there is any. -/
def plain (offset : Nat) (cs : List Char) : List Token := if cs = [] then [] else [.over .plain offset cs]

/-- The token of a word. -/
def word (g : Grammar) (offset : Nat) (cs : List Char) : Token := .over (g.wordScope (.ofList cs)) offset cs

theorem word_eq (offset : Nat) (w : String) : word g offset w.toList =
    ⟨g.wordScope w, offset, offset + w.utf8ByteSize, w, []⟩ := by
  simp [word, Token.over, utf8ByteSize_eq_bytes]

theorem fillGap_nil {to_ : Place} (hp : p.rest = cs ++ more) (hto : to_.offset = p.offset + bytes cs) :
    fillGap g to_ p [] = plain p.offset cs := by
  rw [fillGap, plain]
  by_cases h : cs = []
  · subst h
    simp [hto]
  · have := bytes_pos h
    rw [if_pos (by omega), if_neg h, Token.ofSpan_eq hp hto]

theorem wordsIn_word (hg : g.identifier = identifier) {from_ to_ : Place} (hc : from_.cut to_ = p)
    (hr : p.rest = pad ++ (cs ++ tail)) (hpad : Spaces pad) (hcs : IsIdentifier cs) (htail : Spaces tail) :
    wordsIn g from_ to_ = [⟨p.pass pad (cs ++ tail), p.pass (pad ++ cs) tail⟩] := by
  have hne : (Span.mk (p.pass pad (cs ++ tail)) (p.pass (pad ++ cs) tail)).isEmpty = false := by
    have := bytes_pos hcs.ne_nil
    simp only [Span.isEmpty, Place.pass_eq, bytes_append, beq_eq_false_iff_ne]
    omega
  subst hc
  rw [wordsIn_eq, hg, allMatches_word hr hpad hcs htail]
  simp [hne]

/-- A gap with one word in it, among spaces. -/
theorem gapTokens_word (hg : g.identifier = identifier) (hr : p.rest = pad ++ (cs ++ tail) ++ more)
    (hpad : Spaces pad) (hcs : IsIdentifier cs) (htail : Spaces tail) :
    gapTokens g p (p.pass (pad ++ (cs ++ tail)) more) = plain p.offset pad ++
      word g (p.offset + bytes pad) cs :: plain (p.offset + bytes pad + bytes cs) tail := by
  have hcut := Place.cut_pass hr
  have hword : (Place.pass ⟨p.offset, none, pad ++ (cs ++ tail)⟩ (pad ++ cs) tail).offset =
      (Place.pass ⟨p.offset, none, pad ++ (cs ++ tail)⟩ pad (cs ++ tail)).offset + bytes cs := by
    simp only [Place.pass_eq, bytes_append, Nat.add_assoc]
  have hend : (p.pass (pad ++ (cs ++ tail)) more).offset =
      (Place.pass ⟨p.offset, none, pad ++ (cs ++ tail)⟩ (pad ++ cs) tail).offset + bytes tail := by
    simp only [Place.pass_eq, bytes_append, Nat.add_assoc]
  rw [gapTokens, wordsIn_word hg hcut rfl hpad hcs htail, hcut, fillGap]
  simp only [Span.text_eq rfl hword, Token.ofSpan_eq rfl hword, fillGap_nil (List.append_nil tail).symm hend]
  by_cases h : pad = []
  · subst h
    simp [plain, word, Place.pass_eq]
  · have := bytes_pos h
    have hlt : p.offset < (Place.pass ⟨p.offset, none, pad ++ (cs ++ tail)⟩ pad (cs ++ tail)).offset := by
      simp only [Place.pass_eq]
      omega
    rw [if_pos hlt, Token.ofSpan_eq rfl rfl]
    simp [plain, word, h, Place.pass_eq, Nat.add_assoc]

theorem gapTokens_spaces (hg : g.identifier = identifier) (hr : p.rest = pad ++ more) (hpad : Spaces pad) :
    gapTokens g p (p.pass pad more) = plain p.offset pad := by
  have hcut := Place.cut_pass hr
  have hw : wordsIn g p (p.pass pad more) = [] := by
    rw [wordsIn_eq, hg, hcut, allMatches_spaces hpad]
    rfl
  rw [gapTokens, hw, hcut]
  exact fillGap_nil (List.append_nil pad).symm rfl

/-- The word runs across every place after its beginning and before its end. -/
theorem wordAcross_word (hg : g.identifier = identifier) {at_ : Place} (hr : p.rest = pad ++ (cs ++ tail))
    (hpad : Spaces pad) (hcs : IsIdentifier cs) (htail : Spaces tail) (h1 : p.offset + bytes pad < at_.offset)
    (h2 : at_.offset < p.offset + bytes pad + bytes cs) :
    wordAcross g p at_ = some (p.pass (pad ++ cs) tail) := by
  have hm := allMatches_word (p := ⟨p.offset, none, p.rest⟩) hr hpad hcs htail
  have hne : pad ++ cs ≠ [] := List.append_ne_nil_of_right_ne_nil pad hcs.ne_nil
  have hstop : at_.offset < (p.pass (pad ++ cs) tail).offset := by
    simp only [Place.pass_eq, bytes_append]
    omega
  rw [Place.pass_of_ne_nil hne] at hm
  have hstart : (Place.pass ⟨p.offset, none, p.rest⟩ pad (cs ++ tail)).offset < at_.offset := h1
  simp [wordAcross, hg, hm, Match.start, Match.stop, hstart, hstop]

end Lexicolor.Scan
