/-
Headers of Piyathon: functions and classes. A header begins with its anchor, which is the first of
its children; it ends at the first colon; and before that colon its title is the first name that
stands right after a blank (`IsTitle`, `Runs.blockHeader`). Whatever else stands inside a header is
dropped, but for its own anchor where that is repeated (`header_words`).
-/
import Lexicolor.Proofs.PiyathonStrings
import Lexicolor.Proofs.BlockHeaders

namespace Lexicolor

open Text Regex Stock

namespace Scan

variable {g : Grammar} {p : Place} {m : Match} {t : TitleRule} {table : KeywordTable} {ts : List Token} {last : Place}

/-! ## The title -/

/-- The token covers the first name that stands right after a blank before any colon of a text,
which begins at an offset. The name is taken as long as it is. -/
def IsTitle (offset : Nat) (text : List Char) (u : Token) : Prop :=
  ∃ xs name tail, text = xs ++ (name ++ tail) ∧ IsIdentifier name ∧ Stops tail ∧
    NameAfter (beforeColon text) xs ∧
    (∀ ys, NameAfter (beforeColon text) ys → xs.length ≤ ys.length) ∧
    u = .over .title (offset + bytes xs) name

/-- If the colon is found before a title, no name stands right after a blank before it. -/
theorem not_nameAfter_of_colon {xs : List Char}
    (h : ∀ m, titlePattern.findFrom p = some m → (terminator colon p).start.offset < m.start.offset) :
    ¬ NameAfter (beforeColon p.rest) xs := by
  intro hxs
  obtain ⟨hxs, hcolon⟩ := nameAfter_beforeColon.1 hxs
  cases hm : titlePattern.findFrom p with
  | none => exact title_not_found.1 hm xs hxs
  | some m =>
    obtain ⟨lead, blanks, name, tail, hr, -, -, -, -, rfl, hfirst⟩ := title_found hm
    have hle := hfirst xs hxs
    obtain ⟨bs, b, c, cs, -, hsplit, -, -⟩ := hxs
    have hbegins : lead <+: xs := by
      refine List.prefix_of_prefix_length_le ⟨_, hr.symm⟩ ⟨_, hsplit.symm⟩ (Nat.le_trans ?_ hle)
      simp
    have hlead := bytes_le_of_not_mem hr fun hc => hcolon (hbegins.subset hc)
    have hlt : (terminator colon p).start.offset < p.offset + bytes lead := h _ hm
    rw [colon_terminator_offset] at hlt
    omega

/-- **A title that begins before the colon** ends before it, so all of it is kept. -/
theorem titleToken_isTitle {relevance : Nat} (hm : titlePattern.findFrom p = some m)
    (hl : leads m (colon.findFrom p) = true) : ∃ u, IsTitle p.offset p.rest u ∧
      titleToken ⟨titlePattern, relevance, true⟩ m (colon.findFrom p) = ([u], m.stop) := by
  have hle := leads_terminator hl (Pattern.findFrom_ahead hm).1
  obtain ⟨lead, blanks, name, tail, hr, hne, hblanks, hname, htail, rfl, hfirst⟩ := title_found hm
  rw [colon_terminator_offset] at hle
  have hlead : ':' ∉ lead := not_mem_of_bytes_le hr (Nat.le_of_add_le_add_left hle)
  have hcolon : ':' ∉ lead ++ blanks := by
    intro hc
    rcases List.mem_append.1 hc with hc | hc
    · exact hlead hc
    · exact absurd (hblanks _ hc) (by decide)
  have hafter : NameAfter (beforeColon p.rest) (lead ++ blanks) := by
    refine nameAfter_beforeColon.2 ⟨?_, hcolon⟩
    rw [hr]
    exact nameAfter_append hne hblanks hname
  refine ⟨.over .title (p.offset + bytes (lead ++ blanks)) name, ⟨lead ++ blanks, name, tail, by simp [hr], hname,
    htail, hafter, fun ys hys => hfirst ys (nameAfter_beforeColon.1 hys).1, rfl⟩, ?_⟩
  have hwhole : p.rest = lead ++ (blanks ++ name) ++ tail := by simp [hr]
  have hbytes := bytes_le_of_not_mem hwhole fun hc => by
    simp only [List.mem_append] at hc hcolon
    exact hc.elim (fun hc => hcolon (.inl hc)) fun hc => hc.elim (fun hc => hcolon (.inr hc)) hname.not_mem.2
  rw [titleToken_titleMatch hname.ne_nil]
  · simp only [titleMatch, Match.stop, Place.pass_eq, bytes_append, Nat.add_assoc]
  · rw [colon_terminator_offset]
    simp only [Place.pass_eq, Nat.add_assoc, ← bytes_append]
    omega

/-- **The body of a block header**: words of its table around its title, if there is one. -/
theorem Runs.blockHeader {relevance : Nat}
    (h : Runs g ⟨colon, some table⟩ [] p (some ⟨titlePattern, relevance, true⟩) ts last) :
    ∃ (title : Option Token) (words words' : List Token), ts = words ++ title.toList ++ words' ∧
      (∀ u ∈ words ++ words', ∃ q r, u ∈ listedWords g table q r) ∧
      (title.isSome ↔ ∃ xs, NameAfter (beforeColon p.rest) xs) ∧
      ∀ u, title = some u → IsTitle p.offset p.rest u := by
  rcases h.titled with ⟨rfl, -, hnone⟩ | ⟨m, inner, hm, hl, next, rfl⟩
  · refine ⟨none, listedWords g table p (terminator colon p).start, [], by simp [bodyWords],
      fun u hu => ⟨_, _, by simpa using hu⟩, ?_, fun u hu => by cases hu⟩
    simpa using fun xs => not_nameAfter_of_colon hnone
  · obtain ⟨u, hu, htoken⟩ := titleToken_isTitle hm hl
    have htoken : titleToken ⟨titlePattern, relevance, true⟩ m (Pattern.findFrom (Body.finish ⟨colon, some table⟩) p) =
        ([u], m.stop) := htoken
    rw [htoken] at next ⊢
    obtain ⟨rfl, -⟩ := next.untitled
    refine ⟨some u, listedWords g table p _, listedWords g table m.stop _, rfl, fun v hv => ?_, ?_,
      fun v hv => Option.some.inj hv ▸ hu⟩
    · rcases List.mem_append.1 hv with hv | hv
      · exact ⟨_, _, hv⟩
      · exact ⟨_, _, hv⟩
    · obtain ⟨xs, -, -, -, -, -, hafter, -⟩ := hu
      simpa using ⟨xs, hafter⟩

end Scan

/-! ## Headers of Piyathon -/

namespace Piyathon

open Scan

variable {h : Scope × String} {source : String} {p q : Place} {m : Match} {t : Token}

theorem anchor_isIdentifier : ∀ h ∈ headers, IsIdentifier h.2.toList :=
  forall_headers (matchesFully_identifier.1 (by decide +kernel)) (matchesFully_identifier.1 (by decide +kernel))

/-- **The words of a header** are all its anchor. -/
theorem header_words (hh : h ∈ headers)
    (ht : t ∈ listedWords grammar (KeywordTable.empty.withWords .keyword h.2) p q) :
    t.scope = .keyword ∧ t.text = h.2 ∧ t.children = [] := by
  obtain ⟨w, -, c, hc, rfl⟩ := mem_listedWords ht
  obtain ⟨hw, rfl⟩ := (lookup_anchor (anchor_isIdentifier h hh)).1 hc
  exact ⟨rfl, hw.symm, rfl⟩

/-- The token begins where the source has the anchor, and its children are those of a header: the anchor
comes first, and then the title, if there is one, with more of the anchor around it. -/
def IsHeader (source : String) (anchor : String) (t : Token) : Prop :=
  ∃ before rest, source.toList = before ++ (anchor.toList ++ rest) ∧ t.start = bytes before ∧
    ∃ (title : Option Token) (words words' : List Token),
      t.children = .over .keyword t.start anchor.toList :: (words ++ title.toList ++ words') ∧
      (∀ u ∈ words ++ words', u.scope = .keyword ∧ u.text = anchor ∧ u.children = []) ∧
      (title.isSome ↔ ∃ xs, NameAfter (beforeColon rest) xs) ∧
      ∀ u, title = some u → IsTitle (t.start + bytes anchor.toList) rest u

/-- Nothing but a header has the scope of one. -/
theorem header_origin (hh : h ∈ headers) (ht : t ∈ Token.walkAll (tokenize grammar source)) (hs : t.scope = h.1) :
    ∃ (rule : HeaderRule) (m : Match), Rule.header rule = blockHeader h.1 h.2 ∧
      (Place.start source.toList).Reaches m.start ∧ rule.begin_.matchHere m.start = some m ∧
      (applyHeader grammar true rule m.span).1 = some t := by
  obtain ⟨u, hu, ht⟩ := Token.mem_walkAll.1 ht
  rcases (Tokens.tokenize_sound grammar source u hu t ht).origin with hleaf | ⟨finish, m, hbodied⟩
  · have hscope : h.1 ∈ [Scope.string, .function, .classDef] := by
      rcases header_scope h hh with h | h <;> simp [h]
    exact absurd hs (leaf_scope_ne hleaf h.1 hscope)
  · cases hbodied with
    | @region scope variants contains v _ _ occurs _ _ _ made =>
      rw [applyRegion_token _ _ _ made, Token.ofSpan_scope, region_scope occurs] at hs
      rcases header_scope h hh with h | h <;> simp [← hs] at h
    | @header rule _ _ occurs place found made =>
      obtain ⟨h', hh', heq⟩ := header_cases occurs
      have hdistinct : ∀ h ∈ headers, ∀ h' ∈ headers, h.1 = h'.1 → h = h' := by decide
      have hscope : rule.scope = h'.1 := congrArg HeaderRule.scope (Rule.header.inj heq)
      rw [applyHeader_token _ _ made, Token.ofSpan_scope, hscope] at hs
      rw [← hdistinct h' hh' h hh hs]
      exact ⟨rule, m, heq, place, found, made⟩

/-- **The children of a header** of Piyathon, wherever it stands. The first is its anchor. It has a title
exactly if a name stands right after a blank before the first colon, or before the end of the text, and the
title is the first such name, as long as it is. All others are its anchor again, as a keyword. -/
theorem header_children (source : String) (h : Scope × String) (hh : h ∈ headers) (t : Token)
    (ht : t ∈ Token.walkAll (tokenize grammar source)) (hs : t.scope = h.1) : IsHeader source h.2 t := by
  obtain ⟨rule, m, hrule, hm, hfound, hmade⟩ := header_origin hh ht hs
  obtain rfl := Rule.header.inj hrule
  obtain ⟨c, cs, hc, -⟩ := anchor_first _ hh
  obtain ⟨rest, hr, -, -, hspan⟩ := (wholeWord_matchHere (by simp [hc])).1 hfound
  have hstop : m.stop = m.start.pass h.2.toList rest := congrArg Match.stop hspan
  have hruns := scanBodyFrom_rules grammar ⟨colon, some (KeywordTable.empty.withWords .keyword h.2)⟩ []
    (some ⟨titlePattern, 0, true⟩) m.stop
  obtain ⟨title, words, words', hts, hwords, htitle, his⟩ := hruns.blockHeader
  have hsource := hm.rest_eq
  rw [hr] at hsource
  have hstart := hm.offset_eq
  have hrest : m.stop.rest = rest := by rw [hstop]; rfl
  have hoffset : m.stop.offset = m.start.offset + bytes h.2.toList := by rw [hstop]; rfl
  rw [hrest] at htitle his
  rw [hoffset] at his
  have htoken := applyHeader_token _ _ hmade
  have hfirst := listedWords_anchor grammar_identifier (anchor_isIdentifier h hh) hr
  rw [← hstop] at hfirst
  subst htoken
  refine ⟨_, rest, hsource, hstart.trans (Nat.zero_add _), title, words, words', ?_, fun u hu => ?_, htitle, his⟩
  · exact congrArg₂ (· ++ ·) hfirst hts
  · obtain ⟨q, r, hu⟩ := hwords u hu
    exact header_words hh hu

/-- The anchor is not the title where no blank stands before it. -/
theorem header_children_repeated : ∃ t ∈ Token.walkAll (tokenize grammar "ชั้น(ชั้น) ก1:"),
    t.scope = .classDef ∧ IsHeader "ชั้น(ชั้น) ก1:" classAnchor t ∧
      t.children.map (fun u => (u.scope, u.text)) = [(.keyword, "ชั้น"), (.keyword, "ชั้น"), (.title, "ก1")] := by
  have h : ((Token.walkAll (tokenize grammar "ชั้น(ชั้น) ก1:")).find? (·.scope = .classDef)).map
      (fun t => t.children.map fun u => (u.scope, u.text)) =
      some [(.keyword, "ชั้น"), (.keyword, "ชั้น"), (.title, "ก1")] := by decide +kernel
  obtain ⟨t, ht, hchildren⟩ := Option.map_eq_some_iff.1 h
  have hscope : t.scope = .classDef := by simpa using List.find?_some ht
  exact ⟨t, List.mem_of_find?_eq_some ht, hscope,
    header_children _ (.classDef, classAnchor) (by simp [headers]) t (List.mem_of_find?_eq_some ht) hscope, hchildren⟩

end Piyathon

end Lexicolor
