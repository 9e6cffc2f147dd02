/-
JSON texts read back. A value that is made of texts, whole numbers of 64 bits, lists and keyed
members (`Plain`) is what its printed text stands for (`read_pretty`). A reader is given more text
than the value takes, so each lemma speaks of a printed part and whatever follows it; a number alone
depends on what follows (`Ends`).
-/
import Mathlib.Algebra.Group.Nat.Defs
import Mathlib.Data.List.Basic
import Lexicolor.Json.Reader
import Lexicolor.Json.Printer

namespace Lexicolor.Json

open Data (Fault Key Value)

variable {cs rest : List Char} {c : Char} {v : Value} {depth n : Nat}

/-! ## Texts -/

theorem hexValue?_hexDigit (h : n < 16) : hexValue? (hexDigit n) = some n := by
  have key : ∀ k < 16, hexValue? (hexDigit k) = some k := by decide
  exact key n h

/-- The escape of a control character names it by its number. -/
theorem readEscape_control (h : c < ' ') : readEscape
    ('u' :: '0' :: '0' :: hexDigit (c.toNat / 16) :: hexDigit (c.toNat % 16) :: cs) = .ok (.char c, cs) := by
  have hlt : c.toNat < 32 := by
    rw [Char.lt_def, UInt32.lt_iff_toNat_lt] at h
    exact h
  have hzero : hexValue? '0' = some 0 := by decide
  have hsum : c.toNat / 16 * 16 + c.toNat % 16 = c.toNat := by omega
  have hunit : readUnit ('0' :: '0' :: hexDigit (c.toNat / 16) :: hexDigit (c.toNat % 16) :: cs) =
      .ok (c.toNat, cs) := by
    rw [readUnit, hzero, hexValue?_hexDigit (by omega), hexValue?_hexDigit (by omega)]
    simp [hsum]
  have hsmall : (decide (c.toNat < 0xD800) || decide (0xDFFF < c.toNat)) = true := by
    simp only [Bool.or_eq_true, decide_eq_true_eq]
    omega
  simp only [readEscape, hunit]
  show (if _ then _ else _) = _
  rw [if_pos hsmall, Char.ofNat_toNat]
  rfl

/-- **A character as it is printed** in a text is read as itself. -/
theorem readString_escapeChar (c : Char) (n : Nat) (acc cs : List Char) :
    readString (n + 1) (some acc) (escapeChar c ++ cs) = readString n (some (c :: acc)) cs := by
  by_cases h : c ∈ ['"', '\\', '\x08', '\x0c', '\n', '\r', '\t']
  · simp only [List.mem_cons, List.not_mem_nil, or_false] at h
    rcases h with rfl | rfl | rfl | rfl | rfl | rfl | rfl <;> rfl
  · simp only [List.mem_cons, List.not_mem_nil, or_false, not_or] at h
    obtain ⟨h1, h2, h3, h4, h5, h6, h7⟩ := h
    by_cases hc : c < ' '
    · have he : escapeChar c = ['\\', 'u', '0', '0', hexDigit (c.toNat / 16), hexDigit (c.toNat % 16)] := by
        simp [escapeChar, *]
      rw [he]
      simp only [List.cons_append, List.nil_append, readString, readEscape_control hc]
      rfl
    · have he : escapeChar c = [c] := by simp [escapeChar, *]
      rw [he]
      simp [readString, h1, h2, hc]

theorem escapeChar_ne_nil (c : Char) : escapeChar c ≠ [] := by
  unfold escapeChar
  grind

theorem readString_escaped : ∀ (cs : List Char) (n : Nat) (acc : List Char),
    (cs.flatMap escapeChar).length < n → readString n (some acc) (cs.flatMap escapeChar ++ '"' :: rest) =
      .ok (some (String.ofList (acc.reverse ++ cs)), rest)
  | [], n + 1, acc, _ => by simp [readString]
  | c :: cs, n + 1, acc, h => by
    have := List.length_pos_iff.2 (escapeChar_ne_nil c)
    rw [List.flatMap_cons, List.length_append] at h
    rw [List.flatMap_cons, List.append_assoc, readString_escapeChar,
      readString_escaped cs n (c :: acc) (by omega)]
    simp

/-- **A text as it is printed** is read as itself. -/
theorem readText_escaped (s : String) :
    readText (s.toList.flatMap escapeChar ++ '"' :: rest) = .ok (some s, rest) := by
  rw [readText, readString_escaped s.toList _ [] (by simp only [List.length_append]; omega)]
  simp

/-! ## Whole numbers -/

/-- What follows a number and belongs to it no more. -/
def Ends (rest : List Char) : Prop := ∀ c cs, rest = c :: cs → digit? c = none ∧ c ≠ '.' ∧ c ≠ 'e' ∧ c ≠ 'E'

theorem Ends.nil : Ends [] := fun _ _ h => by cases h

theorem Ends.cons (h : c = '\n' ∨ c = ',') : Ends (c :: cs) := by
  intro d ds hd
  obtain ⟨rfl, rfl⟩ := List.cons.inj hd
  rcases h with rfl | rfl <;> decide

/-- The digits that a text of digits stands for. -/
def digits (cs : List Char) : List Nat := cs.map fun c => c.toNat - 48

theorem digit?_of_isDigit (h : c.isDigit = true) : digit? c = some (c.toNat - 48) := by
  have h : '0' ≤ c ∧ c ≤ '9' := by simpa [Char.isDigit, Char.le_def] using h
  rw [digit?, if_pos h]

theorem takeDigits_append : ∀ {cs : List Char}, (∀ c ∈ cs, c.isDigit = true) → Ends rest →
    takeDigits (cs ++ rest) = (digits cs, rest)
  | [], _, hrest => by
    cases rest with
    | nil => rfl
    | cons c cs =>
      rw [List.nil_append, takeDigits, (hrest c cs rfl).1]
      rfl
  | c :: cs, h, hrest => by
    have ih := takeDigits_append (fun d hd => h d (List.mem_cons_of_mem c hd)) hrest
    rw [List.cons_append, takeDigits, digit?_of_isDigit (h c List.mem_cons_self)]
    simp only [ih]
    rfl

/-- The number of a list of digits. -/
theorem foldDigits_eq : ∀ (ds : List Nat) (m : Nat), ds.foldl (fun n d => 10 * n + d) m < 2 ^ 64 →
    foldDigits m ds = (ds.foldl (fun n d => 10 * n + d) m, [])
  | [], m, _ => rfl
  | d :: ds, m, h => by
    have hle : ∀ (ds : List Nat) (m : Nat), m ≤ ds.foldl (fun n d => 10 * n + d) m := by
      intro ds
      induction ds with
      | nil => exact fun m => Nat.le_refl m
      | cons d ds ih => exact fun m => Nat.le_trans (by omega) (ih (10 * m + d))
    rw [List.foldl_cons] at h ⊢
    have := hle ds (10 * m + d)
    rw [foldDigits, if_pos (by show _ < 2 ^ 64; omega), Nat.mul_comm m 10, foldDigits_eq ds _ h]

theorem foldl_digits_toDigits (n : Nat) :
    (digits (Nat.toDigits 10 n)).foldl (fun n d => 10 * n + d) 0 = n := by
  have h := Nat.ofDigitChars_toDigits (b := 10) (n := n) (by omega) (by omega)
  rw [Nat.ofDigitChars] at h
  rw [digits, List.foldl_map]
  exact h

theorem isDigit_toDigits : ∀ c ∈ Nat.toDigits 10 n, c.isDigit = true :=
  fun _ h => Nat.isDigit_of_mem_toDigits (by omega) (by omega) h

/-- No number is written with a zero before other digits. -/
theorem toDigits_no_zero (n : Nat) : ∀ d ds, digits (Nat.toDigits 10 n) ≠ 0 :: d :: ds := by
  induction n using Nat.strongRecOn with
  | ind n ih =>
    intro d ds h
    rw [Nat.toDigits_eq_if (by omega)] at h
    split at h
    · simp [digits] at h
    · next hn =>
      have hvalue := foldl_digits_toDigits (n / 10)
      have hne : digits (Nat.toDigits 10 (n / 10)) ≠ [] := by simp [digits, Nat.toDigits_ne_nil]
      rw [digits, List.map_append, ← digits] at h
      -- The digits before the last are those of `n / 10`, which is not zero.
      cases hds : digits (Nat.toDigits 10 (n / 10)) with
      | nil => exact hne hds
      | cons e es =>
        rw [hds] at h hvalue
        simp only [List.cons_append, List.cons.injEq] at h
        obtain ⟨rfl, h⟩ := h
        cases es with
        | nil =>
          simp only [List.foldl_cons, List.foldl_nil] at hvalue
          omega
        | cons e es => exact ih (n / 10) (by omega) e es hds

/-- **A number as it is printed** is read as itself, unless what follows could belong to it. -/
theorem readNumber_toDigits (h : n < 2 ^ 64) (hrest : Ends rest) :
    readNumber false (Nat.toDigits 10 n ++ rest) = (.int n, some rest) := by
  have hvalue := foldl_digits_toDigits n
  have hfold := foldDigits_eq (digits (Nat.toDigits 10 n)) 0 (by rw [hvalue]; exact h)
  rw [hvalue] at hfold
  have hne : digits (Nat.toDigits 10 n) ≠ [] := by simp [digits, Nat.toDigits_ne_nil]
  have hwhole : readWhole (Nat.toDigits 10 n ++ rest) = .ok (digits (Nat.toDigits 10 n), rest) := by
    rw [readWhole, takeDigits_append isDigit_toDigits hrest]
    split
    · next heq => exact absurd (congrArg Prod.fst heq) hne
    · next heq => exact absurd (congrArg Prod.fst heq) (toDigits_no_zero n _ _)
    · next heq => rw [heq]
  have hfraction : readFraction rest = .ok (none, rest) := by
    unfold readFraction
    split
    · next cs => exact absurd rfl (hrest '.' cs rfl).2.1
    · rfl
  have hexponent : readExponent rest = .ok (none, rest) := by
    cases rest with
    | nil => rfl
    | cons c cs =>
      obtain ⟨-, -, he, hE⟩ := hrest c cs rfl
      simp [readExponent, he, hE]
  rw [readNumber, readNumeral, hwhole]
  simp only [hfraction, hexponent, bind, pure, Except.bind, Except.pure, Numeral.value, hfold]
  rfl

/-! ## Blanks -/

theorem skipSpace_of_not (h : isSpace c = false) : skipSpace (c :: cs) = c :: cs :=
  List.dropWhile_cons_of_neg (by simp [h])

theorem skipSpace_newLine (depth : Nat) (cs : List Char) : skipSpace (newLine depth ++ cs) = skipSpace cs := by
  have h : ∀ k, skipSpace (List.replicate k ' ' ++ cs) = skipSpace cs := by
    intro k
    induction k with
    | zero => rfl
    | succ k ih => exact ih
  exact h (2 * depth)

theorem newLine_length (depth : Nat) : (newLine depth).length = 2 * depth + 1 := by simp [newLine]

/-! ## Values -/

/-- The value is made of texts, whole numbers of 64 bits, lists and keyed members. -/
inductive Plain : Value → Prop
  | null : Plain .null
  | bool (b : Bool) : Plain (.bool b)
  | nat {n : Nat} (h : n < 2 ^ 64) : Plain (.nat n)
  | str (s : String) : Plain (.str s)
  | list {items : List Value} (h : ∀ v ∈ items, Plain v) : Plain (.list items)
  | object {members : List (String × Value)} (h : ∀ m ∈ members, Plain m.2) : Plain (.object members)

theorem ne_of_isDigit (h : c.isDigit = true) {d : Char} (hd : d.isDigit = false) : c ≠ d := by
  rintro rfl
  rw [h] at hd
  cases hd

theorem isSpace_of_isDigit (h : c.isDigit = true) : isSpace c = false := by
  simp only [isSpace, Bool.or_eq_false_iff, beq_eq_false_iff_ne]
  exact ⟨⟨⟨ne_of_isDigit h (by decide), ne_of_isDigit h (by decide)⟩, ne_of_isDigit h (by decide)⟩,
    ne_of_isDigit h (by decide)⟩

theorem toDigits_head (n : Nat) : ∃ c cs, Nat.toDigits 10 n = c :: cs ∧ c.isDigit = true := by
  obtain ⟨c, cs, h⟩ := List.exists_cons_of_ne_nil (Nat.toDigits_ne_nil (n := n) (b := 10))
  exact ⟨c, cs, h, isDigit_toDigits c (h ▸ List.mem_cons_self)⟩

/-- A printed value begins with no blank, and not as a list ends. -/
theorem chars_head (h : Plain v) (depth : Nat) :
    ∃ c cs, chars depth v = c :: cs ∧ isSpace c = false ∧ c ≠ ']' := by
  cases h with
  | null => exact ⟨_, _, rfl, by decide, by decide⟩
  | bool b => cases b <;> exact ⟨_, _, rfl, by decide, by decide⟩
  | @nat n h =>
    obtain ⟨c, cs, hcs, hc⟩ := toDigits_head n
    exact ⟨c, cs, hcs, isSpace_of_isDigit hc, ne_of_isDigit hc (by decide)⟩
  | str s => exact ⟨_, _, rfl, by decide, by decide⟩
  | @list items h => cases items <;> exact ⟨_, _, rfl, by decide, by decide⟩
  | @object members h => cases members <;> exact ⟨_, _, rfl, by decide, by decide⟩

/-- A printed value, with more text after it, is read as the value. -/
def ReadsBack (v : Value) : Prop := ∀ depth n rest, (chars depth v).length < n → Ends rest →
  readValue n (chars depth v ++ rest) = (v, some rest)

theorem ends_charsOfItems (depth : Nat) (items : List Value) (rest : List Char) :
    Ends (charsOfItems depth items ++ rest) := by
  cases items with
  | nil => exact .cons (.inl rfl)
  | cons v vs => exact .cons (.inr rfl)

theorem ends_charsOfMembers (depth : Nat) (members : List (Key × Value)) (rest : List Char) :
    Ends (charsOfMembers depth members ++ rest) := by
  cases members with
  | nil => exact .cons (.inl rfl)
  | cons v vs => exact .cons (.inr rfl)

/-- **The items of a list as they are printed** are read as the items. -/
theorem readItems_charsOfItems (depth : Nat) (rest : List Char) : ∀ {items : List Value} {n : Nat},
    (∀ v ∈ items, Plain v ∧ ReadsBack v) → (charsOfItems depth items).length < n →
    readItems n false (charsOfItems depth items ++ rest) = ((items, none), some rest)
  | [], n + 1, _, _ => by
    rw [charsOfItems, List.append_assoc, readItems, skipSpace_newLine]
    rfl
  | v :: vs, n + 1, h, hn => by
    obtain ⟨⟨hplain, hv⟩, hvs⟩ := List.forall_mem_cons.1 h
    simp only [charsOfItems, List.length_append, List.length_cons] at hn
    have hread := hv (depth + 1) n _ (by omega) (ends_charsOfItems depth vs rest)
    have ih := readItems_charsOfItems depth rest (n := n) hvs (by omega)
    obtain ⟨c, cs, hcs, hspace, hbracket⟩ := chars_head hplain (depth + 1)
    rw [hcs, List.cons_append] at hread
    have htext : charsOfItems depth (v :: vs) ++ rest =
        ',' :: (newLine (depth + 1) ++ c :: (cs ++ (charsOfItems depth vs ++ rest))) := by
      rw [charsOfItems, hcs]
      simp
    rw [htext, readItems, skipSpace_of_not (by decide)]
    simp [skipSpace_newLine, skipSpace_of_not hspace, hread, ih, hbracket]

theorem readValue_space (n : Nat) (cs : List Char) : readValue n (' ' :: cs) = readValue n cs := by
  cases n <;> simp only [readValue, show skipSpace (' ' :: cs) = skipSpace cs from rfl]

/-- The members of an object with their keys. -/
def named (members : List (String × Value)) : List (Key × Value) := members.map fun (k, v) => (.name k, v)

theorem named_cons (k : String) (v : Value) (ms : List (String × Value)) :
    named ((k, v) :: ms) = (.name k, v) :: named ms := rfl

theorem object_eq (members : List (String × Value)) : Value.object members = .obj (named members) none := rfl

/-- The text of a member and what follows it. -/
theorem charsOfMember_append (depth : Nat) (k : String) (v : Value) (rest : List Char) :
    charsOfMember depth (.name k, v) ++ rest =
      '"' :: (k.toList.flatMap escapeChar ++ '"' :: ':' :: ' ' :: (chars depth v ++ rest)) := by
  simp [charsOfMember, quoted, keyText]

/-- **The members of an object as they are printed** are read as the members. -/
theorem readMembers_charsOfMembers (depth : Nat) (rest : List Char) :
    ∀ {members : List (String × Value)} {n : Nat}, (∀ m ∈ members, ReadsBack m.2) →
      (charsOfMembers depth (named members)).length < n →
      readMembers n false (charsOfMembers depth (named members) ++ rest) = ((named members, none), some rest)
  | [], n + 1, _, _ => by
    rw [named, List.map_nil, charsOfMembers, List.append_assoc, readMembers, skipSpace_newLine]
    rfl
  | (k, v) :: ms, n + 1, h, hn => by
    obtain ⟨(hv : ReadsBack v), hms⟩ := List.forall_mem_cons.1 h
    have htext : charsOfMembers depth (named ((k, v) :: ms)) ++ rest = ',' :: (newLine (depth + 1) ++
        (charsOfMember (depth + 1) (.name k, v) ++ (charsOfMembers depth (named ms) ++ rest))) := by
      simp [named_cons, charsOfMembers]
    have hlen := congrArg List.length htext
    rw [charsOfMember_append] at htext hlen
    simp only [List.length_append, List.length_cons] at hlen hn
    have hread := hv (depth + 1) n (charsOfMembers depth (named ms) ++ rest) (by omega)
      (ends_charsOfMembers depth (named ms) rest)
    have ih := readMembers_charsOfMembers depth rest (n := n) hms (by omega)
    rw [htext, readMembers, skipSpace_of_not (by decide)]
    simp [skipSpace_newLine, skipSpace_of_not, readText_escaped, readValue_space, hread, ih, keyOf,
      named_cons, isSpace]

/-- What begins with a digit is a number. -/
theorem readValue_of_isDigit (h : c.isDigit = true) (n : Nat) (cs : List Char) :
    readValue (n + 1) (c :: cs) = readNumber false (c :: cs) := by
  have hne : ∀ {d : Char} {ds : List Char}, d.isDigit = false → ¬ c :: cs = d :: ds :=
    fun hd he => ne_of_isDigit h hd (List.cons.inj he).1
  rw [readValue, skipSpace_of_not (isSpace_of_isDigit h)]
  split
  · next he => cases he
  · next he => exact absurd he (hne (by decide))
  · next he => exact absurd he (hne (by decide))
  · next he => exact absurd he (hne (by decide))
  · next he => exact absurd he (hne (by decide))
  · next he => exact absurd he (hne (by decide))
  · next he => exact absurd he (hne (by decide))
  · next he => exact absurd he (hne (by decide))
  · next he =>
    obtain ⟨rfl, rfl⟩ := List.cons.inj he
    rw [digit?_of_isDigit h]
    rfl

theorem readsBack_list {items : List Value} (h : ∀ v ∈ items, Plain v ∧ ReadsBack v) :
    ReadsBack (.list items) := by
  intro depth n rest hn hrest
  obtain ⟨n, rfl⟩ : ∃ m, n = m + 1 := ⟨n - 1, by omega⟩
  cases items with
  | nil =>
    cases n with
    | zero => simp [Value.list, chars] at hn
    | succ n => rfl
  | cons v vs =>
    obtain ⟨⟨hplain, hv⟩, hvs⟩ := List.forall_mem_cons.1 h
    simp only [Value.list, chars, List.length_append, List.length_cons, newLine_length] at hn
    obtain ⟨n, rfl⟩ : ∃ m, n = m + 1 := ⟨n - 1, by omega⟩
    have hread := hv (depth + 1) n _ (by omega) (ends_charsOfItems depth vs rest)
    have hitems := readItems_charsOfItems depth rest (n := n) hvs (by omega)
    obtain ⟨c, cs, hcs, hspace, hbracket⟩ := chars_head hplain (depth + 1)
    rw [hcs, List.cons_append] at hread
    have htext : chars depth (.list (v :: vs)) ++ rest =
        '[' :: (newLine (depth + 1) ++ c :: (cs ++ (charsOfItems depth vs ++ rest))) := by
      rw [Value.list, chars, hcs]
      simp
    rw [htext, readValue, skipSpace_of_not (by decide)]
    simp [readItems, skipSpace_newLine, skipSpace_of_not hspace, hread, hitems, Value.list]

theorem readsBack_object {members : List (String × Value)} (h : ∀ m ∈ members, ReadsBack m.2) :
    ReadsBack (.object members) := by
  intro depth n rest hn hrest
  obtain ⟨n, rfl⟩ : ∃ m, n = m + 1 := ⟨n - 1, by omega⟩
  cases members with
  | nil =>
    cases n with
    | zero => simp [Value.object, chars] at hn
    | succ n => rfl
  | cons m ms =>
    obtain ⟨k, v⟩ := m
    obtain ⟨(hv : ReadsBack v), hms⟩ := List.forall_mem_cons.1 h
    have htext : chars depth (.object ((k, v) :: ms)) ++ rest = '\x7b' :: (newLine (depth + 1) ++
        (charsOfMember (depth + 1) (.name k, v) ++ (charsOfMembers depth (named ms) ++ rest))) := by
      simp [Value.object, named, chars]
    have hlen := congrArg List.length htext
    rw [charsOfMember_append] at htext hlen
    simp only [List.length_append, List.length_cons] at hlen hn
    obtain ⟨n, rfl⟩ : ∃ m, n = m + 1 := ⟨n - 1, by omega⟩
    have hread := hv (depth + 1) n (charsOfMembers depth (named ms) ++ rest) (by omega)
      (ends_charsOfMembers depth (named ms) rest)
    have hmembers := readMembers_charsOfMembers depth rest (n := n) hms (by omega)
    rw [htext, readValue, skipSpace_of_not (by decide)]
    simp [readMembers, skipSpace_newLine, skipSpace_of_not, readText_escaped, readValue_space, hread,
      hmembers, keyOf, isSpace, object_eq, named_cons]

/-- **A plain value as it is printed** is read as itself. -/
theorem Plain.readsBack (h : Plain v) : ReadsBack v := by
  induction h with
  | null =>
    rintro depth (_ | n) rest hn -
    · cases hn
    · rfl
  | bool b =>
    rintro depth (_ | n) rest hn -
    · cases hn
    · cases b <;> rfl
  | @nat m h =>
    rintro depth (_ | n) rest hn hrest
    · cases hn
    · obtain ⟨c, cs, hcs, hc⟩ := toDigits_head m
      show readValue (n + 1) (Nat.toDigits 10 m ++ rest) = _
      rw [hcs, List.cons_append, readValue_of_isDigit hc, ← List.cons_append, ← hcs]
      exact readNumber_toDigits h hrest
  | str s =>
    rintro depth (_ | n) rest hn -
    · cases hn
    · have htext : chars depth (.str s) ++ rest = '"' :: (s.toList.flatMap escapeChar ++ '"' :: rest) := by
        simp [chars, quoted]
      rw [htext, readValue, skipSpace_of_not (by decide)]
      simp only [readText_escaped]
  | list h ih => exact readsBack_list fun v hv => ⟨h v hv, ih v hv⟩
  | object _ ih => exact readsBack_object ih

/-- **A text that prints a plain value** is read as the value, with nothing after it. -/
theorem read_pretty (h : Plain v) : read (pretty v) = ⟨v, false⟩ := by
  have hread := h.readsBack 0 ((pretty v).length + 1) [] (by simp [pretty]) .nil
  rw [List.append_nil] at hread
  rw [read, pretty, String.toList_ofList, ← pretty, hread]
  rfl

end Lexicolor.Json
