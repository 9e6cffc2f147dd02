/-
No scan over byte offsets is at fault. Each part of it, begun at the offset of a place of the source,
gives what the same part of the scan from place to place gives: a text that is cut out is the text of
a span of the source (`slice?_lies`), a search that steps over empty matches finds what is found at
once (`find?_eq`), and a turn of a body is decided by what comes next there (`turn?_eq`) and leaves
less to do than there was (`left_lt`).
-/
import Mathlib.Data.List.Forall2
import Lexicolor.Proofs.OffsetScan
import Lexicolor.Proofs.Endings
import Lexicolor.Proofs.Passages

namespace Lexicolor.Offsets

open Text Regex Scan

variable {g : Grammar} {source : String} {p q : Place}

/-! ## Stretches of the source -/

namespace On

theorem lies (h : On source p) : Place.Lies source.toList p := .of_start_reaches h

theorem reaches (h : On source p) (hpq : p.Reaches q) : On source q := Place.Reaches.trans h hpq

theorem finish_offset (h : On source p) : p.finish.offset = source.utf8ByteSize := by
  rw [Place.Reaches.finish_eq h, Place.finish_start_offset, ← utf8ByteSize_eq_bytes]

theorem offset_le (h : On source p) : p.offset ≤ source.utf8ByteSize := by
  rw [← h.finish_offset]
  exact (Place.Reaches.finish p).offset_le

end On

theorem place?_eq (h : On source p) : place? source p.offset = some p := place?_eq_some_iff.2 ⟨h, rfl⟩

/-- **The text of a span** of the source, or of a stretch cut out of it, can be cut out by offsets. -/
theorem slice?_lies {s : Span} (h : Place.Lies source.toList s.start) (hs : s.start.Reaches s.stop) :
    slice? source s.start.offset s.stop.offset = some s.text := by
  obtain ⟨pre, post, ht, ha, hb⟩ := s.text_slice h hs
  have hr : (Place.start source.toList).rest = pre ++ (s.start.charsTo s.stop ++ post) := by
    rw [← List.append_assoc]
    exact ht
  have hr' : (Place.start source.toList).rest = (pre ++ s.start.charsTo s.stop) ++ post := ht
  have hpa : place? source s.start.offset =
      some ((Place.start source.toList).pass pre (s.start.charsTo s.stop ++ post)) := by
    rw [place?_eq_some_iff, ha]
    exact ⟨.pass hr, Nat.zero_add _⟩
  have hpb : place? source s.stop.offset =
      some ((Place.start source.toList).pass (pre ++ s.start.charsTo s.stop) post) := by
    rw [place?_eq_some_iff, hb]
    exact ⟨.pass hr', Nat.zero_add _⟩
  have htext : Place.textTo ((Place.start source.toList).pass pre (s.start.charsTo s.stop ++ post))
      ((Place.start source.toList).pass (pre ++ s.start.charsTo s.stop) post) = s.text := by
    have hchars : Place.charsTo ((Place.start source.toList).pass pre (s.start.charsTo s.stop ++ post))
        ((Place.start source.toList).pass (pre ++ s.start.charsTo s.stop) post) = s.start.charsTo s.stop := by
      refine Place.charsTo_eq rfl ?_
      simp only [Place.pass_eq, bytes_append, Nat.add_assoc]
    rw [Place.textTo, hchars]
    rfl
  simp only [slice?, hpa, hpb, Option.bind_eq_bind, Option.bind_some, if_pos hs.offset_le, htext]

theorem token?_lies {s : Span} (h : Place.Lies source.toList s.start) (hs : s.start.Reaches s.stop) (scope : Scope)
    (children : List Token) :
    token? source scope s.start.offset s.stop.offset children = some (.ofSpan scope s children) := by
  rw [token?, slice?_lies h hs]
  rfl

/-! ## Searching -/

theorem nextBoundary?_eq (h : On source p) : nextBoundary? source p.offset =
    some (match p.next? with | some q => q.offset | none => source.utf8ByteSize + 1) := by
  rw [nextBoundary?, place?_eq h]
  rfl

theorem matchHere_none_of_all {pattern : Pattern} (h : (pattern.expr.matchAt p).filter (fun _ => true) = none) :
    pattern.matchHere p = none := by
  rw [Option.filter_eq_none_iff] at h
  rw [Pattern.matchHere, Option.filter_eq_none_iff]
  exact fun m hm => absurd rfl (h m hm)

theorem matchHere_none_of_isEmpty {pattern : Pattern} {m : Match} (hm : pattern.expr.matchAt p = some m)
    (he : m.isEmpty = true) : pattern.matchHere p = none := by
  rw [Pattern.matchHere, hm, Option.filter_some, he]
  rfl

/-- An empty match is passed over together with the character after it. -/
theorem findFrom_of_isEmpty {pattern : Pattern} {m : Match}
    (hm : pattern.expr.search (fun _ => true) p = some m) (he : m.isEmpty = true) :
    pattern.findFrom p = m.start.next?.bind pattern.findFrom := by
  obtain ⟨h1, h2, h3⟩ := Expr.search_eq_some hm
  have hnone : ∀ q, p.Reaches q → q.offset ≤ m.start.offset → pattern.matchHere q = none := by
    intro q hq hle
    rcases Nat.lt_or_eq_of_le hle with hlt | heq
    · exact matchHere_none_of_all (h3 q hq hlt)
    · obtain rfl := hq.unique h1 heq
      exact matchHere_none_of_isEmpty (Option.filter_eq_some_iff.1 h2).1 he
  cases hr : m.start.rest with
  | nil =>
    rw [Place.next?, hr, Option.bind_none]
    refine Pattern.findFrom_eq_none_iff.2 fun q hq => hnone q hq ?_
    rw [← Place.finish_of_atEnd hr, h1.finish_eq]
    exact hq.finish_offset
  | cons c cs =>
    rw [Place.next?, hr, Option.bind_some]
    refine Pattern.findFrom_skip (h1.trans (.one hr)) fun q hq hlt => hnone q hq ?_
    by_contra hgt
    -- Between the match and the next place there is no other.
    rcases (h1.linear hq (by omega)).cons_cases hr with rfl | hq
    · exact hgt (Nat.le_refl _)
    · exact absurd hq.offset_le (Nat.not_le.2 hlt)

/-- **Stepping over empty matches** ends with what is found at once. -/
theorem find?_eq (pattern : Pattern) (p : Place) (h : On source p) :
    find? source pattern p.offset = some (pattern.findFrom p) := by
  rw [find?, if_neg (Nat.not_lt.2 h.offset_le)]
  simp only [place?_eq h]
  cases hs : pattern.expr.search (fun _ => true) p with
  | none =>
    have hnone : pattern.findFrom p = none :=
      Pattern.findFrom_eq_none_iff.2 fun q hq => matchHere_none_of_all (Expr.search_eq_none_iff.1 hs q hq)
    rw [hnone]
  | some m =>
    obtain ⟨h1, h2, h3⟩ := Expr.search_eq_some hs
    have hm := h.reaches h1
    cases he : m.isEmpty with
    | false =>
      have hhere : pattern.matchHere m.start = some m := by
        rw [Pattern.matchHere, (Option.filter_eq_some_iff.1 h2).1, Option.filter_some, he]
        rfl
      have hfind : pattern.findFrom p = some m :=
        Pattern.findFrom_eq_some_iff.2 ⟨h1, hhere, fun q hq hlt => matchHere_none_of_all (h3 q hq hlt)⟩
      simp [hfind, he]
    | true =>
      rw [findFrom_of_isEmpty hs he]
      simp only [he, if_true, nextBoundary?_eq hm]
      cases hn : m.start.next? with
      | none =>
        have hlt : p.offset < source.utf8ByteSize + 1 := Nat.lt_succ_of_le h.offset_le
        rw [if_pos hlt, find?, if_pos (Nat.lt_succ_self _)]
        rfl
      | some q =>
        obtain ⟨hq, hgt⟩ := Place.Reaches.of_next? hn
        have hlt : p.offset < q.offset := Nat.lt_of_le_of_lt h1.offset_le hgt
        have hlen := (h1.trans hq).length_lt hlt
        simp only [if_pos hlt, Option.bind_some]
        exact find?_eq pattern q (hm.reaches hq)
termination_by p.rest.length

/-! ## Words -/

/-- The two ends of a span. -/
def ends (s : Span) : Nat × Nat := (s.start.offset, s.stop.offset)

theorem words?_eq (g : Grammar) (h : On source p) (hpq : p.Reaches q) :
    words? g source p.offset q.offset = some ((wordsIn g p q).map ends) := by
  unfold words?
  split
  · have htext : slice? source p.offset q.offset = some (p.textTo q) := slice?_lies (s := ⟨p, q⟩) h.lies hpq
    have hcut : (⟨p.offset, none, (p.textTo q).toList⟩ : Place) = p.cut q := by
      rw [Place.textTo, String.toList_ofList]
      rfl
    rw [htext]
    simp only [Option.bind_eq_bind, Option.bind_some, hcut, wordsIn, List.map_map]
    rfl
  · next hnot =>
    have hnil : wordsIn g p q = [] := by
      refine List.eq_nil_iff_forall_not_mem.2 fun w hw => ?_
      obtain ⟨h1, h2⟩ := (wordsIn_successive g p q).mem hw
      have hlt := wordsIn_ne hw
      have hle := (h1.trans h2).finish_offset
      have hge := h1.offset_le
      rw [hpq.finish_cut] at hle
      simp only [Place.cut] at hge
      omega
    rw [hnil]
    rfl

theorem plain?_eq (hp : Place.Lies source.toList p) (hpq : p.Reaches q) :
    plain? source p.offset q.offset = some (if p.offset < q.offset then [.ofSpan .plain ⟨p, q⟩ []] else []) := by
  unfold plain?
  split
  · rw [token?_lies (s := ⟨p, q⟩) hp hpq]
    rfl
  · rfl

theorem fill?_eq {to_ : Place} : ∀ {p : Place} {ws : List Span}, Place.Lies source.toList p → Successive p ws →
    p.finish.offset = to_.offset → fill? g source to_.offset p.offset (ws.map ends) = some (fillGap g to_ p ws)
  | p, [], hp, _, hf => by
    -- The end of the gap has the offset of the end of what has been cut out for it.
    have htoken : Token.ofSpan .plain ⟨p, to_⟩ [] = Token.ofSpan .plain ⟨p, p.finish⟩ [] := by
      simp only [Token.ofSpan, Span.text, Place.textTo, Place.charsTo, hf]
    rw [List.map_nil, fill?, fillGap, ← hf, plain?_eq hp (.finish p), htoken]
  | p, w :: ws, hp, ⟨h1, h2, h3⟩, hf => by
    have hw := hp.reaches h1
    have hfinish : w.stop.finish.offset = to_.offset := by rw [(h1.trans h2).finish_eq, hf]
    have hrest := fill?_eq (hp.reaches (h1.trans h2)) h3 hfinish
    rw [List.map_cons, ends, fill?, fillGap, hrest, slice?_lies hw h2, plain?_eq hp h1]
    simp only [Option.bind_eq_bind, Option.bind_some, token?_lies hw h2]
    split
    · rfl
    · rfl

theorem gapTokens?_eq (g : Grammar) (h : On source p) (hpq : p.Reaches q) :
    gapTokens? g source p.offset q.offset = some (gapTokens g p q) := by
  rw [gapTokens?, words?_eq g h hpq]
  exact fill?_eq (h.lies.cut hpq) (wordsIn_successive g p q) hpq.finish_cut

theorem listed?_eq (table : KeywordTable) : ∀ {p : Place} {ws : List Span}, Place.Lies source.toList p →
    Successive p ws → listed? g source table (ws.map ends) = some (ws.filterMap fun w =>
      (table.lookup w.text g.caseInsensitive).map fun c => Token.ofSpan c.scope w [])
  | _, [], _, _ => rfl
  | p, w :: ws, hp, ⟨h1, h2, h3⟩ => by
    have hw := hp.reaches h1
    have hrest := listed?_eq table (hp.reaches (h1.trans h2)) h3
    rw [List.map_cons, ends, listed?, hrest, slice?_lies hw h2]
    simp only [Option.bind_eq_bind, Option.bind_some, token?_lies hw h2, List.filterMap_cons]
    cases table.lookup w.text g.caseInsensitive with
    | none => rfl
    | some c => rfl

theorem listedWords?_eq (g : Grammar) (table : KeywordTable) (h : On source p) (hpq : p.Reaches q) :
    listedWords? g source table p.offset q.offset = some (listedWords g table p q) := by
  rw [listedWords?, words?_eq g h hpq]
  exact listed?_eq table (h.lies.cut hpq) (wordsIn_successive g p q)

theorem bodyWords?_eq (g : Grammar) (body : Body) (h : On source p) (hpq : p.Reaches q) :
    bodyWords? g source body p.offset q.offset = some (bodyWords g body p q) := by
  unfold bodyWords? bodyWords
  cases body.keywords with
  | none => rfl
  | some table => exact listedWords?_eq g table h hpq

theorem wordAcross?_eq (g : Grammar) (h : On source p) (at_ : Place) :
    wordAcross? g source p.offset at_.offset = some ((wordAcross g p at_).map (·.offset)) := by
  have htext : slice? source p.offset source.utf8ByteSize = some (p.textTo p.finish) := by
    rw [← h.finish_offset]
    exact slice?_lies (s := ⟨p, p.finish⟩) h.lies (.finish p)
  have hrest : (p.textTo p.finish).toList = p.rest := by
    rw [Place.textTo, String.toList_ofList, Place.charsTo_eq (List.append_nil p.rest).symm rfl]
  rw [wordAcross?, htext]
  simp only [Option.bind_eq_bind, Option.bind_some, hrest, wordAcross, Option.map_map]
  rfl

/-! ## Choosing a rule -/

variable {f f' : Found} {c d : Candidate} {os : List Offer} {as : List Alternative}

/-- The offer begins as the alternative does, and makes the same of every beginning in the source. -/
structure Offer.Follows (source : String) (o : Offer) (a : Alternative) : Prop where
  begin_ : o.begin_ = a.begin_
  rule : o.rule = a.rule
  relevance : o.relevance = a.relevance
  make : ∀ s : Span, On source s.start → s.start.Reaches s.stop →
    o.make s.start.offset s.stop.offset = some ((a.apply s).1, (a.apply s).2.offset)

namespace Found

structure Follows (source : String) (f : Found) (c : Candidate) : Prop where
  offer : f.offer.Follows source c.alternative
  start : f.start = c.found.start.offset
  stop : f.stop = c.found.stop.offset

theorem beats_eq (h : f.Follows source c) (h' : f'.Follows source d) : f.beats f' = c.beats d := by
  unfold beats Candidate.beats
  rw [h.start, h.stop, h.offer.rule, h.offer.relevance, h'.start, h'.stop, h'.offer.rule, h'.offer.relevance]
  rfl

theorem keep_follows {b : Option Found} {e : Option Candidate} (hb : Option.Rel (Follows source) b e)
    (h : f.Follows source c) : Option.Rel (Follows source) (keep b f) (Candidate.keep e c) := by
  cases hb with
  | none => exact .some h
  | some hb =>
    simp only [keep, Candidate.keep, beats_eq h hb]
    split
    · exact .some h
    · exact .some hb

theorem foldl_keep_follows {fs : List Found} {cs : List Candidate} (h : List.Forall₂ (Follows source) fs cs) :
    ∀ {b : Option Found} {e : Option Candidate}, Option.Rel (Follows source) b e →
      Option.Rel (Follows source) (fs.foldl keep b) (cs.foldl Candidate.keep e) := by
  induction h with
  | nil => exact fun hb => hb
  | cons h _ ih => exact fun hb => ih (keep_follows hb h)

end Found

theorem finds?_follows (h : On source p) (hos : List.Forall₂ (Offer.Follows source) os as) :
    ∃ fs, finds? source p.offset os = some fs ∧ List.Forall₂ (Found.Follows source) fs
      (as.filterMap fun a => (a.begin_.findFrom p).map (⟨a, ·⟩)) := by
  induction hos with
  | nil => exact ⟨[], rfl, .nil⟩
  | @cons o a os as ho _ ih =>
    obtain ⟨fs, hfs, hrel⟩ := ih
    rw [finds?, hfs, find?_eq _ p h, ho.begin_]
    cases hm : a.begin_.findFrom p with
    | none =>
      refine ⟨fs, rfl, ?_⟩
      rw [List.filterMap_cons_none (by rw [hm]; rfl)]
      exact hrel
    | some m =>
      refine ⟨⟨o, m.start.offset, m.stop.offset⟩ :: fs, rfl, ?_⟩
      rw [List.filterMap_cons_some (by rw [hm]; rfl)]
      exact .cons ⟨ho, rfl, rfl⟩ hrel

/-- **The offer that begins next** is that of the alternative that is due. -/
theorem next?_follows (h : On source p) (hos : List.Forall₂ (Offer.Follows source) os as) :
    ∃ f, next? source os p.offset = some f ∧ Option.Rel (Found.Follows source) f (due as p) := by
  obtain ⟨fs, hfs, hrel⟩ := finds?_follows h hos
  rw [next?, hfs]
  exact ⟨_, rfl, Found.foldl_keep_follows hrel .none⟩

/-! ## Turns of a body -/

inductive Next.Follows (source : String) : Next → Event → Prop
  | rule {f : Found} {c : Candidate} (h : f.Follows source c) : Follows source (.rule f) (.rule c)
  | title (t : TitleRule) (m : Match) : Follows source (.title t m) (.title t m)
  | finish (m : Match) : Follows source (.finish m) (.finish m)
  | nothing : Follows source .nothing .nothing

theorem leads_eq (m : Match) (other : Option Match) : leads m.start.offset other = Scan.leads m other := by
  cases other <;> rfl

theorem Next.rest_follows (source : String) (title : Option (TitleRule × Match)) (finish : Option Match) :
    (Next.first.rest title finish).Follows source (Event.first.rest title finish) := by
  have hclose : (Next.first.close finish).Follows source (Event.first.close finish) := by
    cases finish with
    | none => exact .nothing
    | some m => exact .finish m
  cases title with
  | none => exact hclose
  | some t =>
    simp only [Next.first.rest, Event.first.rest, leads_eq]
    split
    · exact .title t.1 t.2
    · exact hclose

/-- What comes first is the same, told by offsets or by places. -/
theorem Next.first_follows {rule : Option Found} {due : Option Candidate}
    (h : Option.Rel (Found.Follows source) rule due) (title : Option (TitleRule × Match)) (finish : Option Match) :
    (Next.first rule title finish).Follows source (Event.first due title finish) := by
  cases h with
  | none => exact rest_follows source title finish
  | some h =>
    simp only [Next.first, Event.first, h.start, leads_eq]
    split
    · exact .rule h
    · exact rest_follows source title finish

theorem earlier_offset (p q : Place) : (earlier p q).offset = min p.offset q.offset := by
  unfold earlier
  split <;> omega

/-- **The title** is the same, told by offsets or by places. -/
theorem title?_eq {t : TitleRule} {m : Match} {finish : Option Match} (h : On source p)
    (hm : t.pattern.findFrom p = some m) (hf : ∀ e, finish = some e → p.Reaches e.start) :
    title? source t m finish = some ((titleToken t m finish).1, (titleToken t m finish).2.offset) := by
  obtain ⟨hp, hi, -⟩ := Pattern.findFrom_ahead hm
  obtain ⟨h1, h2, -⟩ := hi.group "title"
  have hname : On source (m.group "title").start := h.reaches (hp.trans h1)
  unfold title? titleToken
  cases hcut : finish.filter fun e => t.endsWithParent && e.start.offset < m.stop.offset with
  | none =>
    simp only
    split
    · rw [token?_lies hname.lies h2]
      rfl
    · rfl
  | some e =>
    have he := hf e (Option.filter_eq_some_iff.1 hcut).1
    have hlast : p.Reaches (earlier (m.group "title").stop e.start) := by
      rcases earlier_eq (m.group "title").stop e.start with h | h
      · rw [h]
        exact hp.trans (h1.trans h2)
      · rw [h]
        exact he
    simp only [← earlier_offset]
    split
    · next hlt =>
      have hreach := (hp.trans h1).linear hlast (Nat.le_of_lt hlt)
      rw [token?_lies (s := ⟨(m.group "title").start, earlier (m.group "title").stop e.start⟩) hname.lies hreach]
      rfl
    · rfl

/-- What a turn makes of what comes next at a place. -/
def turnOf (g : Grammar) (body : Body) (p : Place) (title : Option TitleRule) : Event → Turn
  | .nothing => .last (bodyWords g body p p.finish) p.finish.offset
  | .finish m => .last (bodyWords g body p m.start) m.stop.offset
  | .rule c => .on (bodyWords g body p c.found.start ++ (c.alternative.apply c.found.span).1.toList)
      (c.alternative.apply c.found.span).2.offset title
  | .title t m => .on (bodyWords g body p m.start ++ (titleToken t m (body.finish.findFrom p)).1)
      (titleToken t m (body.finish.findFrom p)).2.offset none

theorem findTitle?_eq (h : On source p) (title : Option TitleRule) : findTitle? source p.offset title =
    some (title.bind fun t => (t.pattern.findFrom p).map (t, ·)) := by
  cases title with
  | none => rfl
  | some t =>
    rw [findTitle?, find?_eq t.pattern p h]
    rfl

/-- **A turn of a body** is never at fault, and is decided by what comes next. -/
theorem turn?_eq {body : Body} {title : Option TitleRule} (h : On source p)
    (hos : List.Forall₂ (Offer.Follows source) os as) :
    turn? g source body os p.offset title = some (turnOf g body p title (body.event as p title)) := by
  obtain ⟨f, hf, hrel⟩ := next?_follows h hos
  have hnext : (Next.first f (title.bind fun t => (t.pattern.findFrom p).map (t, ·)) (body.finish.findFrom p)).Follows
      source (body.event as p title) := Next.first_follows hrel _ _
  rw [turn?, find?_eq _ p h, hf, findTitle?_eq h]
  simp only [Option.bind_eq_bind, Option.bind_some]
  generalize Next.first f _ _ = n at hnext ⊢
  generalize he : body.event as p title = e at hnext ⊢
  cases hnext with
  | nothing =>
    simp only [turnOf, ← h.finish_offset, bodyWords?_eq g body h (.finish p)]
    rfl
  | finish m =>
    have hm := (Pattern.findFrom_ahead (Body.event_finish he)).1
    simp only [turnOf, bodyWords?_eq g body h hm]
    rfl
  | @rule f c hfound =>
    obtain ⟨hm, hi, -⟩ := Pattern.findFrom_ahead (Body.event_rule he).2
    have hmake : f.offer.make c.found.start.offset c.found.stop.offset =
        some ((c.alternative.apply c.found.span).1, (c.alternative.apply c.found.span).2.offset) :=
      hfound.offer.make c.found.span (h.reaches hm) hi.reaches
    simp only [turnOf, hfound.start, hfound.stop, hmake, bodyWords?_eq g body h hm]
    rfl
  | title t m =>
    obtain ⟨-, hfind, -⟩ := Body.event_title he
    have hm := (Pattern.findFrom_ahead hfind).1
    have hahead : ∀ e, body.finish.findFrom p = some e → p.Reaches e.start :=
      fun e he => (Pattern.findFrom_ahead he).1
    have hmade := title?_eq h hfind hahead
    simp only [turnOf, bodyWords?_eq g body h hm, hmade]
    rfl

/-- **Every turn leaves less to do**: a rule passes over some text, and a title, which may pass over
none, is looked for once only. -/
theorem left_lt {body : Body} {title title' : Option TitleRule} {ts : List Token} {next : Nat} (h : On source p)
    (has : ∀ a ∈ as, a.Advances)
    (ht : turnOf g body p title (body.event as p title) = .on ts next title') :
    left source next title' < left source p.offset title := by
  have hp := h.offset_le
  cases he : body.event as p title with
  | nothing | finish m => rw [he] at ht; cases ht
  | rule c =>
    obtain ⟨hmem, hf⟩ := Body.event_rule he
    obtain ⟨hreach, hlt⟩ := (has _ hmem).passes hf
    have hle := (h.reaches hreach).offset_le
    rw [he, turnOf, Turn.on.injEq] at ht
    obtain ⟨-, rfl, rfl⟩ := ht
    unfold left
    omega
  | title t m =>
    obtain ⟨htitle, hf, -⟩ := Body.event_title he
    have hreach : p.Reaches (titleToken t m (body.finish.findFrom p)).2 := titleToken_reaches hf
    have hle := hreach.offset_le
    rw [he, turnOf, Turn.on.injEq] at ht
    obtain ⟨-, rfl, rfl⟩ := ht
    simp only [left, htitle, Option.toList_none, Option.toList_some, List.length_nil, List.length_singleton]
    omega

/-! ## Bodies -/

/-- **A run of a body** is gone through by offsets without a fault. -/
theorem body?_runs {body : Body} {title : Option TitleRule} {ts : List Token} {last : Place}
    (hos : List.Forall₂ (Offer.Follows source) os as) (has : ∀ a ∈ as, a.Advances)
    (hr : Runs g body as p title ts last) (h : On source p) :
    body? g source body os p.offset title = some (ts, last.offset) := by
  induction hr with
  | nothing he => rw [body?, turn?_eq h hos, he, turnOf]
  | finish he => rw [body?, turn?_eq h hos, he, turnOf]
  | rule he _ ih =>
    obtain ⟨hmem, hf⟩ := Body.event_rule he
    have hlt := left_lt (g := g) h has (by rw [he, turnOf])
    rw [body?, turn?_eq h hos, he, turnOf]
    simp only [if_pos hlt, ih (h.reaches ((has _ hmem).passes hf).1)]
    rfl
  | title he _ ih =>
    have hlt := left_lt (g := g) h has (by rw [he, turnOf])
    rw [body?, turn?_eq h hos, he, turnOf]
    simp only [if_pos hlt, ih (h.reaches (titleToken_reaches (Body.event_title he).2.1))]
    rfl

theorem body?_eq {body : Body} {title : Option TitleRule} (hos : List.Forall₂ (Offer.Follows source) os as)
    (has : ∀ a ∈ as, a.Advances) (h : On source p) : body? g source body os p.offset title =
      some ((scanBodyFrom g true body as title p).1, (scanBodyFrom g true body as title p).2.offset) :=
  body?_runs hos has (scanBodyFrom_runs has p title) h

/-! ## Rules -/

variable {s : Span}

theorem lexeme?_eq (scope : Option Scope) (h : On source s.start) (hs : s.start.Reaches s.stop) :
    lexeme? source scope s.start.offset s.stop.offset =
      some (scope.map fun c => Token.ofSpan c s [], s.stop.offset) := by
  cases scope with
  | none => rfl
  | some c =>
    rw [lexeme?, token?_lies h.lies hs]
    rfl

theorem region?_eq (hos : List.Forall₂ (Offer.Follows source) os as) (has : ∀ a ∈ as, a.Advances) (scope : Scope)
    (v : Variant) (h : On source s.start) (hs : s.start.Reaches s.stop) :
    region? g source scope os v s.start.offset s.stop.offset =
      some ((applyRegion g true scope as v s).1, (applyRegion g true scope as v s).2.offset) := by
  have hruns : Runs g ⟨v.finish, none⟩ as s.stop none (scanBodyFrom g true ⟨v.finish, none⟩ as none s.stop).1
      (scanBodyFrom g true ⟨v.finish, none⟩ as none s.stop).2 := scanBodyFrom_runs has s.stop none
  have hlast := hruns.reaches has
  rw [region?, body?_eq hos has (h.reaches hs), applyRegion]
  generalize scanBodyFrom g true ⟨v.finish, none⟩ as none s.stop = made at hlast ⊢
  have htoken := token?_lies (s := ⟨s.start, made.2⟩) h.lies (hs.trans hlast) scope made.1
  simp only [Option.bind_eq_bind, Option.bind_some, htoken]
  rfl

theorem header?_eq (rule : HeaderRule) (h : On source s.start) (hs : s.start.Reaches s.stop) :
    header? g source rule s.start.offset s.stop.offset =
      some ((applyHeader g true rule s).1, (applyHeader g true rule s).2.offset) := by
  have hnone : ∀ a ∈ ([] : List Alternative), a.Advances := by simp
  have hruns : Runs g ⟨rule.finish, some rule.keywords⟩ [] s.stop (some rule.title)
      (scanBodyFrom g true ⟨rule.finish, some rule.keywords⟩ [] (some rule.title) s.stop).1
      (scanBodyFrom g true ⟨rule.finish, some rule.keywords⟩ [] (some rule.title) s.stop).2 :=
    scanBodyFrom_runs hnone s.stop (some rule.title)
  have hlast := hruns.reaches hnone
  rw [header?, listedWords?_eq g _ h hs, body?_eq .nil hnone (h.reaches hs), applyHeader]
  generalize scanBodyFrom g true ⟨rule.finish, some rule.keywords⟩ [] (some rule.title) s.stop = made at hlast ⊢
  have htoken := token?_lies (s := ⟨s.start, made.2⟩) h.lies (hs.trans hlast) rule.scope
    (listedWords g rule.keywords s.start s.stop ++ made.1)
  simp only [Option.bind_eq_bind, Option.bind_some, htoken]
  rfl

mutual

theorem offersOf_follow (g : Grammar) (source : String) : ∀ (r : Rule) (n : Nat),
    List.Forall₂ (Offer.Follows source) (offersOf g source n r) (alternativesOf g true n r)
  | .lexeme scope pattern, n => by
    rw [offersOf, alternativesOf]
    exact .cons ⟨rfl, rfl, rfl, fun s h hs => lexeme?_eq scope h hs⟩ .nil
  | .region scope variants contains, n => by
    have hos := offersFrom_follow g source contains 0
    have has : ∀ a ∈ alternativesFrom g true 0 contains, a.Advances := alternativesFrom_advance contains 0
    rw [offersOf, alternativesOf]
    refine List.forall₂_map_left_iff.2 (List.forall₂_map_right_iff.2 (List.forall₂_same.2 fun v _ => ?_))
    exact ⟨rfl, rfl, rfl, fun s h hs => region?_eq hos has scope v h hs⟩
  | .header rule, n => by
    rw [offersOf, alternativesOf]
    exact .cons ⟨rfl, rfl, rfl, fun s h hs => header?_eq rule h hs⟩ .nil

/-- **What rules make of their beginnings** is never a fault, at any depth. -/
theorem offersFrom_follow (g : Grammar) (source : String) : ∀ (rs : List Rule) (n : Nat),
    List.Forall₂ (Offer.Follows source) (offersFrom g source n rs) (alternativesFrom g true n rs)
  | [], n => by
    rw [offersFrom, alternativesFrom]
    exact .nil
  | r :: rs, n => by
    rw [offersFrom, alternativesFrom]
    exact List.rel_append (offersOf_follow g source r n) (offersFrom_follow g source rs (n + 1))

end

/-! ## The top level -/

theorem step?_eq (hos : List.Forall₂ (Offer.Follows source) os as) (has : ∀ a ∈ as, a.Advances) (h : On source p) :
    step? g source os p.offset = some ((passage g as p).1, (passage g as p).2.offset) := by
  obtain ⟨f, hf, hrel⟩ := next?_follows h hos
  rw [step?, hf, passage]
  simp only [Option.bind_eq_bind, Option.bind_some]
  generalize hd : due as p = c at hrel ⊢
  cases hrel with
  | none =>
    simp only [← h.finish_offset, gapTokens?_eq g h (.finish p)]
    rfl
  | @some f c hfound =>
    obtain ⟨hmem, hfind⟩ := due_mem hd
    obtain ⟨hm, hi, -⟩ := Pattern.findFrom_ahead hfind
    simp only [hfound.start, wordAcross?_eq g h, Option.bind_some]
    cases hw : wordAcross g p c.found.start with
    | some stop =>
      obtain ⟨hstop, -⟩ := wordAcross_reaches hw hm
      simp only [Option.map_some, gapTokens?_eq g h hstop]
      rfl
    | none =>
      have hmake : f.offer.make c.found.start.offset f.stop =
          some ((c.alternative.apply c.found.span).1, (c.alternative.apply c.found.span).2.offset) := by
        rw [hfound.stop]
        exact hfound.offer.make c.found.span (h.reaches hm) hi.reaches
      have hplain := token?_lies (s := ⟨c.found.start, (c.alternative.apply c.found.span).2⟩) (h.reaches hm).lies
        (hi.reaches.trans (has _ hmem c.found.span)) .plain []
      simp only [Option.map_none, gapTokens?_eq g h hm, hmake, Option.bind_some]
      cases (c.alternative.apply c.found.span).1 with
      | none =>
        rw [hplain]
        rfl
      | some t => rfl

/-- **All steps to the end** are taken without a fault. -/
theorem tokens?_passages {ts : List Token} (hos : List.Forall₂ (Offer.Follows source) os as)
    (has : ∀ a ∈ as, a.Advances) (hp : Passages g as p ts) (h : On source p) :
    tokens? g source os p.offset = some ts := by
  induction hp with
  | @done p hr =>
    have hend : p.offset = source.utf8ByteSize := by rw [← h.finish_offset, Place.finish_of_atEnd hr]
    rw [tokens?, if_neg (Nat.not_lt.2 (Nat.le_of_eq hend.symm))]
  | @step p ts hr _ ih =>
    obtain ⟨hreach, hlt⟩ := passage_passes has g p
    have hmore : p.offset < source.utf8ByteSize := by
      rw [← h.finish_offset]
      exact Place.offset_lt_finish hr
    rw [tokens?, if_pos hmore, step?_eq hos has h]
    simp only [if_pos (hlt hr), ih (h.reaches hreach)]
    rfl

theorem exists_follows {o : Offer} (hos : List.Forall₂ (Offer.Follows source) os as) (ho : o ∈ os) :
    ∃ a ∈ as, o.Follows source a := by
  induction hos with
  | nil => cases ho
  | cons h _ ih =>
    rcases List.mem_cons.1 ho with rfl | ho
    · exact ⟨_, List.mem_cons_self, h⟩
    · obtain ⟨a, ha, hf⟩ := ih ho
      exact ⟨a, List.mem_cons_of_mem _ ha, hf⟩

/-- A match is found only from a place of the source on, and there it is what the pattern finds. -/
theorem find?_eq_some {pattern : Pattern} {n : Nat} {m : Match} (h : find? source pattern n = some (some m)) :
    ∃ p, On source p ∧ pattern.findFrom p = some m := by
  have hplace : ∃ p, place? source n = some p := by
    unfold find? at h
    split at h
    · cases h
    · split at h
      · cases h
      · next p hp => exact ⟨p, hp⟩
  obtain ⟨p, hplace⟩ := hplace
  obtain ⟨hp, rfl⟩ := place?_eq_some_iff.1 hplace
  rw [find?_eq pattern p hp, Option.some.injEq] at h
  exact ⟨p, hp, h⟩

/-- **No scan is at fault.** A text can be cut out of the source only between boundaries that are in order.
Whatever the grammar and the source, the scan by offsets never cuts a text outside of the source or
inside a character and never takes a turn that leaves no less to do, and it gives the tokens that the
scan by places gives. And whatever a rule begins with, at any depth and
anywhere in the source, what it makes of that ends between the end of the beginning and the end of the
source, at a boundary. -/
theorem tokenize_faultless (g : Grammar) (source : String) :
    (∀ a b, (slice? source a b).isSome ↔ IsBoundary source a ∧ IsBoundary source b ∧ a ≤ b) ∧
    tokenize? g source = some (tokenize g source) ∧
    ∀ (r : Rule) (n pos : Nat), ∀ o ∈ offersOf g source n r, ∀ m, find? source o.begin_ pos = some (some m) →
      ∃ a ∈ alternativesOf g true n r, ∃ token stop, a.apply m.span = (token, stop) ∧
        o.make m.start.offset m.stop.offset = some (token, stop.offset) ∧
        m.stop.offset ≤ stop.offset ∧ stop.offset ≤ source.utf8ByteSize ∧ IsBoundary source stop.offset := by
  refine ⟨fun a b => slice?_isSome_iff, ?_, fun r n pos o ho m hm => ?_⟩
  · exact tokens?_passages (offersFrom_follow g source g.rules 0) (alternativesFrom_advance g.rules 0)
      (tokenize_eq_iff.1 rfl) (.refl _)
  · obtain ⟨p, hp, hfind⟩ := find?_eq_some hm
    obtain ⟨h1, hi, -⟩ := Pattern.findFrom_ahead hfind
    obtain ⟨a, ha, hfollows⟩ := exists_follows (offersOf_follow g source r n) ho
    have hreach : m.stop.Reaches (a.apply m.span).2 := alternativesOf_advance r n a ha m.span
    have hstop : On source (a.apply m.span).2 := hp.reaches (h1.trans (hi.reaches.trans hreach))
    refine ⟨a, ha, _, _, rfl, ?_, hreach.offset_le, hstop.offset_le, isBoundary_iff.2 ⟨_, hstop, rfl⟩⟩
    exact hfollows.make m.span (hp.reaches h1) hi.reaches

end Lexicolor.Offsets
