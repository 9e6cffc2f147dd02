/-
Block headers in any grammar whose words are those of the stock identifier pattern. The table of such
a header lists its anchor and nothing else (`lookup_anchor`), so the anchor is the one word where the
header begins (`listedWords_anchor`); a name after blanks is its title, as long as it is
(`Runs.titled_here`). So an anchor, a blank, a name and a colon make a header with these two inside,
wherever the anchor stands as a whole word (`applyHeader_heading`). Words are cut with the identifier
pattern but whole words end at word edges, and some characters of identifiers are no word characters:
a header begins at the start of its text exactly if its anchor begins and ends with a word character.
-/
import Lexicolor.Proofs.Passages
import Lexicolor.Proofs.SpacedWords
import Lexicolor.Proofs.Titles
import Lexicolor.Proofs.WordClasses

namespace Lexicolor

open Text Regex

/-! ## The table of a header -/

/-- Characters that are not blank go to the word that is being read. -/
theorem Text.wordsFrom_run {cs : List Char} (h : ∀ c ∈ cs, isBlank c = false) (d : Char) (word : List Char) :
    wordsFrom (d :: word) cs = [(d :: word).reverse ++ cs] := by
  induction cs generalizing d word with
  | nil => simp only [wordsFrom, List.append_nil]
  | cons c cs ih =>
    obtain ⟨hc, hcs⟩ := List.forall_mem_cons.1 h
    have hstep : wordsFrom (d :: word) (c :: cs) = wordsFrom (c :: d :: word) cs := by
      simp only [wordsFrom, hc, Bool.false_eq_true, if_false]
    rw [hstep, ih hcs, List.reverse_cons, List.append_assoc, List.singleton_append]

/-- A text without blanks is one word. -/
theorem Text.words_run {w : String} (h : ∀ c ∈ w.toList, isBlank c = false) (hne : w.toList ≠ []) :
    Text.words w = [w] := by
  obtain ⟨c, cs, hw⟩ := List.exists_cons_of_ne_nil hne
  rw [hw] at h
  obtain ⟨hc, hcs⟩ := List.forall_mem_cons.1 h
  rw [Text.words, hw, wordsFrom, hc, if_neg Bool.false_ne_true, wordsFrom_run hcs]
  simp [← hw]

namespace Stock

variable {anchor w : String} {c : WordClass} {ignoreCase : Bool}

/-- The table of a header lists the anchor alone. -/
theorem anchor_table (h : IsIdentifier anchor.toList) :
    KeywordTable.empty.withWords .keyword anchor = .ofSorted [anchor] [] [] := by
  rw [KeywordTable.withWords, Text.words_run h.not_mem.1 h.ne_nil]
  rfl

/-- **The table of a header** knows its anchor, in the case mode, as a keyword. -/
theorem lookup_anchor (h : IsIdentifier anchor.toList) :
    (KeywordTable.empty.withWords .keyword anchor).lookup w ignoreCase = some c ↔
      KeywordTable.form ignoreCase anchor = KeywordTable.form ignoreCase w ∧ c = .keyword := by
  have hlists : ∀ d, (KeywordTable.ofSorted [anchor] [] []).Lists ignoreCase d w ↔
      KeywordTable.form ignoreCase anchor = KeywordTable.form ignoreCase w ∧ d = .keyword := by
    intro d
    cases d <;> simp [KeywordTable.Lists, KeywordTable.words, KeywordTable.ofSorted]
  rw [anchor_table h, KeywordTable.lookup_eq_some_iff (KeywordTable.ofSorted_indexed ..), hlists]
  exact fun c d hc hd => ((hlists c).1 hc).2.trans ((hlists d).1 hd).2.symm

end Stock

namespace Scan

open Stock

variable {g : Grammar} {p : Place} {anchor : String} {blanks cs tail rest : List Char} {ts : List Token}
  {last : Place}

/-- Where a header begins its anchor is the one word. -/
theorem listedWords_anchor (hg : g.identifier = identifier) (ha : IsIdentifier anchor.toList)
    (hr : p.rest = anchor.toList ++ rest) :
    listedWords g (KeywordTable.empty.withWords .keyword anchor) p (p.pass anchor.toList rest) =
      [.over .keyword p.offset anchor.toList] := by
  have hcut : (p.cut (p.pass anchor.toList rest)).rest = [] ++ (anchor.toList ++ []) := by simp [Place.cut_pass hr]
  have hspaces : Spaces [] := by simp [Spaces]
  have hlen : (Place.pass (p.cut (p.pass anchor.toList rest)) ([] ++ anchor.toList) []).offset =
      (Place.pass (p.cut (p.pass anchor.toList rest)) [] (anchor.toList ++ [])).offset + bytes anchor.toList := rfl
  have hlookup : (KeywordTable.empty.withWords .keyword anchor).lookup anchor g.caseInsensitive = some .keyword :=
    (lookup_anchor ha).2 ⟨rfl, rfl⟩
  rw [listedWords, wordsIn_word hg rfl hcut hspaces ha hspaces]
  simp only [List.filterMap_cons, List.filterMap_nil, Span.text_eq rfl hlen, String.ofList_toList, hlookup,
    Option.map_some, Token.ofSpan_eq rfl hlen]
  rfl

/-! ## The title -/

/-- **A name after blanks** is the title of a header that has no colon before it. -/
theorem Runs.titled_here {table : KeywordTable} {relevance : Nat}
    (h : Runs g ⟨colon, some table⟩ [] p (some ⟨titlePattern, relevance, true⟩) ts last)
    (hr : p.rest = blanks ++ (cs ++ ':' :: rest)) (hne : blanks ≠ []) (hblanks : ∀ b ∈ blanks, isBlank b = true)
    (hcs : IsIdentifier cs) :
    ts = [.over .title (p.offset + bytes blanks) cs] ∧ last = p.pass (blanks ++ (cs ++ [':'])) rest := by
  have hstops : Stops (':' :: rest) := by
    rintro c ds hc
    cases hc
    decide
  have hm : titlePattern.findFrom p = some (titleMatch p blanks cs (':' :: rest)) :=
    Pattern.findFrom_here (title_matchHere.2 ⟨blanks, cs, _, hr, hne, hblanks, hcs, hstops, rfl⟩)
  have hcolon : ':' ∉ blanks ++ cs := by
    intro hc
    rcases List.mem_append.1 hc with hc | hc
    · exact absurd (hblanks _ hc) (by decide)
    · exact hcs.not_mem.2 hc
  have hstart : (terminator colon p).start = p.pass (blanks ++ cs) (':' :: rest) := by
    have hkeep : ∀ c ∈ blanks ++ cs, decide (c ≠ ':') = true :=
      fun c hc => decide_eq_true fun he => hcolon (he ▸ hc)
    have hstop : ∀ b ds, ':' :: rest = b :: ds → decide (b ≠ ':') = false := by
      rintro b ds hb
      cases hb
      rfl
    obtain ⟨htake, hdrop⟩ := takeWhile_dropWhile_append hkeep hstop
    rw [colon_terminator, Place.passWhile, hr, ← List.append_assoc, htake, hdrop]
  have hfound : colon.findFrom (p.pass (blanks ++ cs) (':' :: rest)) =
      some ⟨⟨p.pass (blanks ++ cs) (':' :: rest), p.pass (blanks ++ (cs ++ [':'])) rest⟩, []⟩ := by
    refine Pattern.findFrom_here (colon_matchHere.2 ⟨rest, rfl, ?_⟩)
    rw [Place.pass_pass, List.append_assoc]
  rcases h.titled with ⟨-, -, hnone⟩ | ⟨m, inner, hm', -, next, rfl⟩
  · -- The colon comes after the title, so it is not what comes first.
    have hlt := hnone _ hm
    have hle : (terminator colon p).start.offset < p.offset := hlt
    rw [hstart] at hle
    simp only [Place.pass_eq] at hle
    omega
  · obtain rfl : titleMatch p blanks cs (':' :: rest) = m := Option.some.inj (hm.symm.trans hm')
    have htoken : titleToken ⟨titlePattern, relevance, true⟩ (titleMatch p blanks cs (':' :: rest))
        (Pattern.findFrom (Body.finish ⟨colon, some table⟩) p) =
        ([.over .title (p.offset + bytes blanks) cs], p.pass (blanks ++ cs) (':' :: rest)) :=
      titleToken_titleMatch hcs.ne_nil (Nat.le_of_eq (congrArg Place.offset hstart.symm))
    rw [htoken] at next ⊢
    obtain ⟨rfl, rfl⟩ := next.untitled
    have hafter : terminator colon (p.pass (blanks ++ cs) (':' :: rest)) = _ := terminator_of_some hfound
    simp only [bodyWords, hafter, Match.start, titleMatch, listedWords_self, List.nil_append, List.append_nil]
    exact ⟨trivial, trivial⟩

/-! ## The header -/

/-- The rule of a block header. -/
def headerRule (scope : Scope) (anchor : String) : HeaderRule where
  scope := scope
  begin_ := wholeWord anchor
  finish := colon
  keywords := KeywordTable.empty.withWords .keyword anchor
  title := ⟨titlePattern, 0, true⟩

theorem blockHeader_eq (scope : Scope) (anchor : String) : blockHeader scope anchor = .header (headerRule scope anchor) :=
  rfl

/-- **An anchor, blanks, a name and a colon** are a header with the anchor and the name inside. -/
theorem applyHeader_heading (scope : Scope) (hg : g.identifier = identifier) (ha : IsIdentifier anchor.toList)
    (hr : p.rest = anchor.toList ++ (blanks ++ (cs ++ ':' :: rest))) (hne : blanks ≠ [])
    (hblanks : ∀ b ∈ blanks, isBlank b = true) (hcs : IsIdentifier cs) :
    applyHeader g true (headerRule scope anchor) ⟨p, p.pass anchor.toList (blanks ++ (cs ++ ':' :: rest))⟩ =
      (some (.ofSpan scope ⟨p, p.pass (anchor.toList ++ (blanks ++ (cs ++ [':']))) rest⟩
        [.over .keyword p.offset anchor.toList, .over .title (p.offset + bytes anchor.toList + bytes blanks) cs]),
        p.pass (anchor.toList ++ (blanks ++ (cs ++ [':']))) rest) := by
  have hruns := scanBodyFrom_rules g ⟨colon, some (KeywordTable.empty.withWords .keyword anchor)⟩ []
    (some ⟨titlePattern, 0, true⟩) (p.pass anchor.toList (blanks ++ (cs ++ ':' :: rest)))
  obtain ⟨hts, hlast⟩ := hruns.titled_here rfl hne hblanks hcs
  rw [Place.pass_pass] at hlast
  have hbody : scanBodyFrom g true ⟨colon, some (KeywordTable.empty.withWords .keyword anchor)⟩ []
      (some ⟨titlePattern, 0, true⟩) (p.pass anchor.toList (blanks ++ (cs ++ ':' :: rest))) =
      ([.over .title (p.offset + bytes anchor.toList + bytes blanks) cs],
        p.pass (anchor.toList ++ (blanks ++ (cs ++ [':']))) rest) := Prod.ext hts hlast
  simp only [applyHeader, headerRule, hbody, listedWords_anchor hg ha hr]
  rfl

/-! ## A heading on its own -/

/-- The text begins and ends with a word character. -/
def WordEnds (cs : List Char) : Prop := cs.head?.any isWordChar = true ∧ cs.getLast?.any isWordChar = true

instance (cs : List Char) : Decidable (WordEnds cs) := inferInstanceAs (Decidable (_ ∧ _))

theorem edge_at_start (cs : List Char) : (Anchor.wordEdge false).holds (.start cs) = cs.head?.any isWordChar := by
  cases cs <;> simp [Anchor.holds, Place.start, Anchor.isWord]

/-- After a text that a character follows which is not a word character, there is a word edge exactly if the
text ends with a word character. -/
theorem edge_after {c : Char} (hc : isWordChar c = false) (hne : cs ≠ []) :
    (Anchor.wordEdge false).holds (p.pass cs (c :: rest)) = cs.getLast?.any isWordChar := by
  obtain ⟨ds, d, rfl⟩ := List.eq_nil_or_concat cs |>.resolve_left hne
  simp [Anchor.holds, Place.pass_eq, Anchor.isWord, hc]

/-- The anchor, a space, the name and a colon. -/
def heading (anchor name : String) : String := anchor ++ " " ++ name ++ ":"

theorem heading_toList (anchor name : String) :
    (heading anchor name).toList = anchor.toList ++ ([' '] ++ (name.toList ++ ':' :: [])) := by
  simp [heading]

/-- The anchor of a heading is a whole word exactly if it begins and ends with a word character. -/
theorem wholeWord_heading (name : String) (ha : anchor.toList ≠ []) :
    (∃ m, (wholeWord anchor).matchHere (.start (heading anchor name).toList) = some m) ↔ WordEnds anchor.toList := by
  have hrest : (Place.start (heading anchor name).toList).rest = _ := heading_toList anchor name
  have hstart : (Anchor.wordEdge false).holds (.start (heading anchor name).toList) =
      anchor.toList.head?.any isWordChar := by
    rw [edge_at_start, heading_toList, List.head?_append_of_ne_nil _ ha]
  have hafter : (Anchor.wordEdge false).holds ((Place.start (heading anchor name).toList).pass anchor.toList
      ([' '] ++ (name.toList ++ ':' :: []))) = anchor.toList.getLast?.any isWordChar :=
    edge_after (by decide +kernel) ha
  constructor
  · rintro ⟨m, hm⟩
    obtain ⟨rest, hr, h1, h2, -⟩ := (wholeWord_matchHere ha).1 hm
    obtain rfl : [' '] ++ (name.toList ++ ':' :: []) = rest := List.append_cancel_left (hrest.symm.trans hr)
    exact ⟨hstart ▸ h1, hafter ▸ h2⟩
  · rintro ⟨h1, h2⟩
    exact ⟨_, (wholeWord_matchHere ha).2 ⟨_, hrest, hstart ▸ h1, hafter ▸ h2, rfl⟩⟩

/-- The token of a heading, with its anchor and its title inside. -/
def headingToken (scope : Scope) (anchor name : String) : Token where
  scope := scope
  start := 0
  stop := (heading anchor name).utf8ByteSize
  text := heading anchor name
  children :=
    [⟨.keyword, 0, anchor.utf8ByteSize, anchor, []⟩,
      ⟨.title, anchor.utf8ByteSize + 1, anchor.utf8ByteSize + 1 + name.utf8ByteSize, name, []⟩]

/-- With a header as the only rule, nothing else occurs. -/
theorem occurs_header {r : Rule} {rule : HeaderRule} (h : r.Occurs [.header rule]) : r = .header rule := by
  simpa [Rule.occurs_singleton] using h

/-- With a header as the only rule, it is due where its anchor is a whole word. -/
theorem due_header (g : Grammar) (scope : Scope) {m : Match} (hm : (wholeWord anchor).matchHere p = some m) :
    due (alternativesFrom g true 0 [blockHeader scope anchor]) p =
      some ⟨⟨wholeWord anchor, 0, 0, applyHeader g true (headerRule scope anchor)⟩, m⟩ := by
  have hlevel : alternativesFrom g true 0 [blockHeader scope anchor] =
      [⟨wholeWord anchor, 0, 0, applyHeader g true (headerRule scope anchor)⟩] := by
    rw [blockHeader_eq, alternativesFrom, alternativesOf, alternativesFrom]
    rfl
  rw [hlevel, due_singleton, Pattern.findFrom_here hm]
  rfl

/-- A heading at the end of a text is one token, where its anchor is a whole word. -/
theorem passages_heading (scope : Scope) {m : Match} (hg : g.identifier = identifier) (ha : IsIdentifier anchor.toList)
    (hr : p.rest = anchor.toList ++ (blanks ++ (cs ++ ':' :: []))) (hne : blanks ≠ [])
    (hblanks : ∀ b ∈ blanks, isBlank b = true) (hcs : IsIdentifier cs)
    (hm : (wholeWord anchor).matchHere p = some m) :
    Passages g (alternativesFrom g true 0 [blockHeader scope anchor]) p
      [.ofSpan scope ⟨p, p.pass (anchor.toList ++ (blanks ++ (cs ++ [':']))) []⟩
        [.over .keyword p.offset anchor.toList, .over .title (p.offset + bytes anchor.toList + bytes blanks) cs]] := by
  have hdue := due_header g scope hm
  obtain ⟨rest, hrest, -, -, rfl⟩ := (wholeWord_matchHere ha.ne_nil).1 hm
  obtain rfl : blanks ++ (cs ++ ':' :: []) = rest := List.append_cancel_left (hr.symm.trans hrest)
  have happly := applyHeader_heading scope hg ha hr hne hblanks hcs
  have hpassage := passage_here (g := g) hdue rfl (congrArg Prod.fst happly)
  simp only [happly] at hpassage
  exact .last (by simp [hr, ha.ne_nil]) (congrArg Prod.fst hpassage) (by rw [hpassage]; rfl)

/-- The token of a heading, as it is read off the places of the text. -/
theorem headingToken_eq (scope : Scope) (anchor name : String) :
    Token.ofSpan scope ⟨.start (heading anchor name).toList, (Place.start (heading anchor name).toList).pass
      (anchor.toList ++ ([' '] ++ (name.toList ++ [':']))) []⟩ [.over .keyword 0 anchor.toList,
        .over .title (0 + bytes anchor.toList + bytes [' ']) name.toList] = headingToken scope anchor name := by
  have hspace : bytes [' '] = 1 := by decide
  rw [← heading_toList, Token.ofSpan, Span.text_eq (List.append_nil _).symm rfl]
  simp only [Place.pass_eq, Place.start, Token.over, headingToken, String.ofList_toList, Nat.zero_add, hspace,
    ← utf8ByteSize_eq_bytes]

/-- **When an anchor, a space, a name and a colon are one header**, with the anchor as a keyword and the name
as the title inside, in a grammar with the stock identifier pattern and this header as its only rule: exactly
if the anchor begins and ends with a word character. -/
theorem tokenize_heading_iff (g : Grammar) (scope : Scope) (anchor name : String) (hg : g.identifier = identifier)
    (hr : g.rules = [blockHeader scope anchor]) (ha : identifier.matchesFully anchor = true)
    (hn : identifier.matchesFully name = true) :
    tokenize g (heading anchor name) = [headingToken scope anchor name] ↔ WordEnds anchor.toList := by
  have ha := matchesFully_identifier.1 ha
  have hn := matchesFully_identifier.1 hn
  rw [← wholeWord_heading name ha.ne_nil]
  constructor
  · intro h
    have hmem : headingToken scope anchor name ∈ tokenize g (heading anchor name) := by simp [h]
    rcases (Tokens.tokenize_sound g _ _ hmem _ (Token.mem_walk.2 (.inl rfl))).origin with hleaf | ⟨finish, m, hbodied⟩
    · cases hleaf.children
    · -- Nothing but the header makes a token with children, and it made this one from the start of the text.
      cases hbodied with
      | region occurs =>
        rw [hr] at occurs
        cases occurs_header occurs
      | @header rule _ _ occurs place found made =>
        rw [hr] at occurs
        obtain rfl : headerRule scope anchor = rule := (Rule.header.inj (occurs_header occurs)).symm
        have hstart : m.start.offset = 0 := (congrArg Token.start (applyHeader_token _ _ made)).symm
        rw [← place.eq_of_offset_eq hstart.symm] at found
        exact ⟨m, found⟩
  · rintro ⟨m, hm⟩
    have hspace : ∀ b ∈ [' '], isBlank b = true := fun b hb => List.mem_singleton.1 hb ▸ (by decide)
    have hpassages := passages_heading scope hg ha (heading_toList anchor name) (by simp) hspace hn hm
    rw [← headingToken_eq]
    exact tokenize_eq_iff.2 (hr ▸ hpassages)

/-- A grammar with the stock identifier pattern and one header. -/
def headings (scope : Scope) (anchor : String) : Grammar where
  name := "headings"
  aliases := []
  caseInsensitive := false
  identifier := identifier
  keywords := .empty
  rules := [blockHeader scope anchor]
  extensions := []
  mimeTypes := []

/-- The currency sign is in identifiers but is no word character: it may stand inside an anchor. -/
theorem tokenize_heading_signed : ((headings .classDef "บาท฿๑").identifier = identifier ∧
      (headings .classDef "บาท฿๑").rules = [blockHeader .classDef "บาท฿๑"] ∧
      identifier.matchesFully "บาท฿๑" = true ∧ identifier.matchesFully "฿1" = true) ∧
    tokenize (headings .classDef "บาท฿๑") "บาท฿๑ ฿1:" = [⟨.classDef, 0, 21, "บาท฿๑ ฿1:",
      [⟨.keyword, 0, 15, "บาท฿๑", []⟩, ⟨.title, 16, 20, "฿1", []⟩]⟩] := by
  have ha : identifier.matchesFully "บาท฿๑" = true := by decide +kernel
  have hn : identifier.matchesFully "฿1" = true := by decide +kernel
  exact ⟨⟨rfl, rfl, ha, hn⟩,
    (tokenize_heading_iff (headings .classDef "บาท฿๑") .classDef "บาท฿๑" "฿1" rfl rfl ha hn).2 (by decide +kernel)⟩

/-- Where the currency sign alone is the anchor, the header does not begin: before and after the sign there
is no word edge. -/
theorem heading_not_begun : identifier.matchesFully "฿" = true ∧ identifier.matchesFully "ก" = true ∧
    ((tokenize (headings .function "฿") "฿ ก:").map fun t => (t.scope, t.text, t.children.length)) =
      [(.identifier, "฿", 0), (.plain, " ", 0), (.identifier, "ก", 0), (.plain, ":", 0)] ∧
    tokenize (headings .function "฿") "฿ ก:" ≠ [⟨.function, 0, 8, "฿ ก:",
      [⟨.keyword, 0, 3, "฿", []⟩, ⟨.title, 4, 7, "ก", []⟩]⟩] := by
  have h : ((tokenize (headings .function "฿") "฿ ก:").map fun t => (t.scope, t.text, t.children.length)) =
      [(.identifier, "฿", 0), (.plain, " ", 0), (.identifier, "ก", 0), (.plain, ":", 0)] := by decide +kernel
  refine ⟨by decide +kernel, by decide +kernel, h, fun he => ?_⟩
  rw [he] at h
  simp at h

end Scan

end Lexicolor
