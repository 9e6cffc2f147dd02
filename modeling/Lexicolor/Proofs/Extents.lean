/-
Where tokens lie. A token is a slice of its source when its text is what the source holds
between its two ends. Tokens tile the bytes from one offset to another when they cover them
without gap or overlap; they are nested between two offsets when they lie between them in
order, none empty, none overlapping.

Tokens that tile a source and are slices of it write it out (`Tiles.join_eq`).
-/
import Lexicolor.Token
import Lexicolor.Proofs.Places

namespace Lexicolor

open Text

/-- The text of the token is what the source holds between the token's ends. -/
def Token.IsSlice (source : String) (t : Token) : Prop :=
  ∃ before after, source = before ++ t.text ++ after ∧ before.utf8ByteSize = t.start ∧
    (before ++ t.text).utf8ByteSize = t.stop

theorem Token.ofSpan_isSlice {source : String} {s : Span} (h : Place.Lies source.toList s.start)
    (hs : s.start.Reaches s.stop) (scope : Scope) (children : List Token) :
    (Token.ofSpan scope s children).IsSlice source := by
  obtain ⟨pre, post, ht, ho, hn⟩ := s.text_slice h hs
  refine ⟨.ofList pre, .ofList post, ?_, ?_, ?_⟩
  · rw [← String.toList_inj]
    simpa [Token.ofSpan, Span.text, Place.textTo] using ht
  · rw [utf8ByteSize_ofList]
    exact ho.symm
  · rw [Token.ofSpan, Span.text, Place.textTo, ← String.ofList_append, utf8ByteSize_ofList]
    exact hn.symm

/-- A slice holds every character of the source that lies in it. -/
theorem Token.IsSlice.mem {source : String} {t : Token} {before after : List Char} {c : Char} (h : t.IsSlice source)
    (hsource : source.toList = before ++ c :: after) (hstart : t.start ≤ bytes before) (hstop : bytes before < t.stop) :
    c ∈ t.text.toList := by
  obtain ⟨pre, post, rfl, hpre, hend⟩ := h
  rw [← hpre, utf8ByteSize_eq_bytes] at hstart
  rw [← hend, utf8ByteSize_eq_bytes, String.toList_append, bytes_append] at hstop
  rw [String.toList_append, String.toList_append, List.append_assoc] at hsource
  have hwithin : ∃ as, t.text.toList ++ post.toList = as ++ c :: after ∧ bytes as < bytes t.text.toList := by
    rcases List.append_eq_append_iff.1 hsource with ⟨as, rfl, has⟩ | ⟨as, has, hrest⟩
    · rw [bytes_append] at hstop
      exact ⟨as, has, by omega⟩
    · rw [has, bytes_append] at hstart hstop
      obtain rfl : as = [] := bytes_eq_zero.1 (by omega)
      exact ⟨[], hrest.symm, by simp only [bytes_nil] at hstop ⊢; omega⟩
  obtain ⟨as, has, hlt⟩ := hwithin
  rcases List.append_eq_append_iff.1 has with ⟨bs, rfl, -⟩ | ⟨bs, hbs, hrest⟩
  · rw [bytes_append] at hlt
    omega
  · cases bs with
    | nil =>
      rw [hbs, List.append_nil] at hlt
      omega
    | cons b bs =>
      obtain ⟨rfl, -⟩ := List.cons.inj hrest
      simp [hbs]

/-- The token without children over characters that begin at an offset. -/
def Token.over (scope : Scope) (offset : Nat) (cs : List Char) : Token :=
  ⟨scope, offset, offset + bytes cs, .ofList cs, []⟩

@[simp] theorem Token.over_scope (scope : Scope) (offset : Nat) (cs : List Char) :
    (Token.over scope offset cs).scope = scope := rfl

@[simp] theorem Token.over_start (scope : Scope) (offset : Nat) (cs : List Char) :
    (Token.over scope offset cs).start = offset := rfl

@[simp] theorem Token.over_text (scope : Scope) (offset : Nat) (cs : List Char) :
    (Token.over scope offset cs).text = .ofList cs := rfl

theorem Token.ofSpan_eq {scope : Scope} {a b : Place} {cs rest : List Char} (ha : a.rest = cs ++ rest)
    (hb : b.offset = a.offset + bytes cs) : Token.ofSpan scope ⟨a, b⟩ [] = .over scope a.offset cs := by
  rw [Token.ofSpan, Span.text_eq ha hb]
  simp only [Token.over, hb]

/-! ## Nesting -/

/-- The tokens lie between `a` and `b` in order: none is empty, and each begins at or after the
end of the one before. -/
def Nested : Nat → List Token → Nat → Prop
  | a, [], b => a ≤ b
  | a, t :: ts, b => a ≤ t.start ∧ t.start < t.stop ∧ Nested t.stop ts b

namespace Nested

variable {a b c : Nat} {ts us : List Token}

theorem le : ∀ {a ts}, Nested a ts b → a ≤ b
  | _, [], h => h
  | _, _ :: _, ⟨h1, h2, h3⟩ => by
    have := h3.le
    omega

theorem weaken {a' : Nat} (h : Nested a ts b) (ha : a' ≤ a) : Nested a' ts b := by
  cases ts with
  | nil => exact Nat.le_trans ha h
  | cons t ts => exact ⟨Nat.le_trans ha h.1, h.2⟩

theorem extend : ∀ {a ts}, Nested a ts b → b ≤ c → Nested a ts c
  | _, [], h, hc => Nat.le_trans h hc
  | _, _ :: _, ⟨h1, h2, h3⟩, hc => ⟨h1, h2, h3.extend hc⟩

theorem append : ∀ {a ts}, Nested a ts b → Nested b us c → Nested a (ts ++ us) c
  | _, [], h, h' => h'.weaken h
  | _, _ :: _, ⟨h1, h2, h3⟩, h' => ⟨h1, h2, h3.append h'⟩

/-- Every token lies between the two offsets. -/
theorem mem : ∀ {a ts} {t : Token}, Nested a ts b → t ∈ ts → a ≤ t.start ∧ t.start < t.stop ∧ t.stop ≤ b
  | _, [], _, _, ht => by simp at ht
  | _, u :: us, t, ⟨h1, h2, h3⟩, ht => by
    rcases List.mem_cons.1 ht with rfl | ht
    · exact ⟨h1, h2, h3.le⟩
    · obtain ⟨h4, h5, h6⟩ := h3.mem ht
      exact ⟨by omega, h5, h6⟩

/-- Of two of the tokens one ends before the other begins. -/
theorem apart {t u : Token} : ∀ {a ts}, Nested a ts b → t ∈ ts → u ∈ ts → t ≠ u → t.stop ≤ u.start ∨ u.stop ≤ t.start
  | _, [], _, ht, _, _ => by cases ht
  | _, v :: ts, ⟨_, _, h⟩, ht, hu, hne => by
    rcases List.mem_cons.1 ht with rfl | ht'
    · rcases List.mem_cons.1 hu with rfl | hu'
      · exact absurd rfl hne
      · exact .inl (h.mem hu').1
    · rcases List.mem_cons.1 hu with rfl | hu'
      · exact .inr (h.mem ht').1
      · exact h.apart ht' hu' hne

end Nested

/-! ## Tiling -/

/-- The tokens cover the bytes from `a` to `b`: the first begins at `a`, each next one where the
one before ends, the last ends at `b`, and none is empty. -/
def Tiles : Nat → List Token → Nat → Prop
  | a, [], b => a = b
  | a, t :: ts, b => t.start = a ∧ a < t.stop ∧ Tiles t.stop ts b

namespace Tiles

variable {a b c : Nat} {ts us : List Token}

theorem append : ∀ {a ts}, Tiles a ts b → Tiles b us c → Tiles a (ts ++ us) c
  | _, [], rfl, h' => h'
  | _, _ :: _, ⟨h1, h2, h3⟩, h' => ⟨h1, h2, h3.append h'⟩

theorem one {t : Token} (h : t.start < t.stop) : Tiles t.start [t] t.stop := ⟨rfl, h, rfl⟩

theorem length_le : ∀ {a ts}, Tiles a ts b → a + ts.length ≤ b
  | _, [], h => by simp only [Tiles] at h; simp [h]
  | _, t :: ts, ⟨_, h2, h3⟩ => by
    have := h3.length_le
    simp only [List.length_cons]
    omega

theorem nested : ∀ {a b : Nat} {ts : List Token}, Tiles a ts b → Nested a ts b
  | _, _, [], h => Nat.le_of_eq h
  | _, _, _ :: _, ⟨h1, h2, h3⟩ => ⟨Nat.le_of_eq h1.symm, by omega, h3.nested⟩

/-- Every byte of the stretch lies in one of the tokens. -/
theorem exists_mem {k : Nat} : ∀ {a ts}, Tiles a ts b → a ≤ k → k < b → ∃ t ∈ ts, t.start ≤ k ∧ k < t.stop
  | _, [], h, ha, hb => by
    simp only [Tiles] at h
    omega
  | _, t :: ts, ⟨h1, _, h3⟩, ha, hb => by
    by_cases hk : k < t.stop
    · exact ⟨t, List.mem_cons_self, by omega, hk⟩
    · obtain ⟨u, hu, hin⟩ := h3.exists_mem (Nat.le_of_not_lt hk) hb
      exact ⟨u, List.mem_cons_of_mem t hu, hin⟩

theorem ne_nil (h : Tiles a ts b) (hlt : a < b) : ts ≠ [] := by
  rintro rfl
  simp only [Tiles] at h
  omega

/-- Slices that tile a stretch of the source write out what the source holds there. -/
theorem join_append {source : String} : ∀ {a ts} {before after : String}, Tiles a ts b →
    (∀ t ∈ ts, t.IsSlice source) → source = before ++ after → before.utf8ByteSize = a →
    ∃ rest, after = String.join (ts.map (·.text)) ++ rest ∧
      (before ++ String.join (ts.map (·.text))).utf8ByteSize = b
  | _, [], before, after, h, _, _, hb => ⟨after, by simp, by simpa [hb] using (show _ = b from h)⟩
  | _, t :: ts, before, after, ⟨h1, _, h3⟩, hs, hsrc, hb => by
    obtain ⟨pre, post, ht, hp, hn⟩ := hs t (by simp)
    -- What precedes the token has the size of what precedes the stretch, so the two agree.
    have hlists : before.toList ++ after.toList = pre.toList ++ (t.text ++ post).toList := by
      rw [← String.toList_append, ← hsrc, ht]
      simp
    obtain ⟨hpre, hpost⟩ := eq_of_append_eq_of_bytes_eq hlists (by
      rw [← utf8ByteSize_eq_bytes, ← utf8ByteSize_eq_bytes, hb, hp, h1])
    obtain rfl := String.toList_inj.1 hpre
    obtain rfl := String.toList_inj.1 hpost
    obtain ⟨rest, hrest, hsize⟩ := h3.join_append (fun u hu => hs u (by simp [hu])) ht hn
    refine ⟨rest, ?_, ?_⟩
    · rw [hrest, List.map_cons, String.join_cons, String.append_assoc]
    · rw [List.map_cons, String.join_cons, ← String.append_assoc]
      exact hsize

/-- A slice of a tiling is not empty. -/
theorem text_length_pos {source : String} {t : Token} (h : Tiles a ts b) (ht : t ∈ ts)
    (hs : t.IsSlice source) : 0 < t.text.length := by
  obtain ⟨pre, post, -, hp, hn⟩ := hs
  obtain ⟨-, hlt, -⟩ := h.nested.mem ht
  rw [String.utf8ByteSize_append] at hn
  rw [Nat.pos_iff_ne_zero, ne_eq, String.length_eq_zero_iff, ← String.utf8ByteSize_eq_zero_iff]
  omega

theorem length_le_join : ∀ {ts : List Token}, (∀ t ∈ ts, 0 < t.text.length) →
    ts.length ≤ (String.join (ts.map (·.text))).length
  | [], _ => by simp
  | t :: ts, h => by
    have ih := length_le_join fun u hu => h u (List.mem_cons_of_mem t hu)
    have := h t (by simp)
    rw [List.map_cons, String.join_cons, String.length_append, List.length_cons]
    omega

/-- Slices that tile the beginning of a source are no more than its characters. -/
theorem length_le_source {source : String} (h : Tiles 0 ts b) (hs : ∀ t ∈ ts, t.IsSlice source) :
    ts.length ≤ source.length := by
  have h0 : source = "" ++ source := by simp
  obtain ⟨rest, hrest, -⟩ := h.join_append hs h0 (by simp)
  have hlen := congrArg String.length hrest
  have := length_le_join fun t ht => h.text_length_pos ht (hs t ht)
  rw [String.length_append] at hlen
  omega

/-- **Slices that tile a source write it out.** -/
theorem join_eq {source : String} (h : Tiles 0 ts source.utf8ByteSize) (hs : ∀ t ∈ ts, t.IsSlice source) :
    String.join (ts.map (·.text)) = source := by
  have h0 : source = "" ++ source := by simp
  obtain ⟨rest, hrest, hsize⟩ := h.join_append hs h0 (by simp)
  have hr : rest = "" := by
    rw [← String.utf8ByteSize_eq_zero_iff]
    have := congrArg String.utf8ByteSize hrest
    rw [String.empty_append] at hsize
    rw [String.utf8ByteSize_append] at this
    omega
  rw [hr, String.append_empty] at hrest
  exact hrest.symm

end Tiles

end Lexicolor
