/-
Where tokens end does not depend on labels. Two grammars of one shape (`Grammar.SameShape`) have the
same identifier pattern and rules that differ only in their scopes, in the words of their headers and
in the relevances of their titles; names, aliases, word lists and the case mode may differ in any way.
Such grammars cut every source into the same ranges (`Tokens.ranges_unlabelled`).

Two scans are followed side by side. The tokens inside a body differ in number, but nothing of them
decides where the body goes on: the same rules begin at the same places (`due_alike`), the same events
come next (`Body.event_alike`), so runs of two bodies end at one place (`Runs.same_end`), and so do the
rules that the bodies belong to (`alternativesFrom_alike`).
-/
import Mathlib.Data.List.Forall2
import Lexicolor.Proofs.Tiling
import Lexicolor.Piyathon

namespace Lexicolor

/-- The range of a token in bytes, without its label. -/
def Token.range (t : Token) : Nat × Nat := (t.start, t.stop)

@[simp] theorem Token.range_ofSpan (scope : Scope) (s : Text.Span) (children : List Token) :
    (ofSpan scope s children).range = (s.start.offset, s.stop.offset) := rfl

/-! ## Grammars of one shape -/

/-- The titles are found at the same places. -/
structure TitleRule.SameShape (t u : TitleRule) : Prop where
  pattern : t.pattern = u.pattern
  endsWithParent : t.endsWithParent = u.endsWithParent

/-- The headers differ at most in their scopes, their words and the relevances of their titles. -/
structure HeaderRule.SameShape (h k : HeaderRule) : Prop where
  begin_ : h.begin_ = k.begin_
  finish : h.finish = k.finish
  title : h.title.SameShape k.title

mutual

/-- The rules differ at most in labels; a lexeme may have no scope at all. -/
def Rule.SameShape : Rule → Rule → Prop
  | .lexeme _ p, .lexeme _ q => p = q
  | .region _ vs rs, .region _ ws qs => vs = ws ∧ Rule.SameShapes rs qs
  | .header h, .header k => h.SameShape k
  | _, _ => False

def Rule.SameShapes : List Rule → List Rule → Prop
  | [], [] => True
  | r :: rs, q :: qs => r.SameShape q ∧ Rule.SameShapes rs qs
  | _, _ => False

end

structure Grammar.SameShape (g h : Grammar) : Prop where
  identifier : g.identifier = h.identifier
  rules : Rule.SameShapes g.rules h.rules

namespace Scan

open Text Regex

variable {g h : Grammar} {remember : Bool} {as bs : List Alternative} {body body' : Body} {p q : Place}
  {title title' : Option TitleRule}

/-! ## What begins next -/

/-- The alternatives begin and end at the same places, and take the same precedence. -/
structure Alternative.Alike (a b : Alternative) : Prop where
  begin_ : a.begin_ = b.begin_
  rule : a.rule = b.rule
  relevance : a.relevance = b.relevance
  stop : ∀ s, (a.apply s).2 = (b.apply s).2

structure Candidate.Alike (c d : Candidate) : Prop where
  alternative : c.alternative.Alike d.alternative
  found : c.found = d.found

namespace Candidate

variable {b c d e : Candidate}

theorem Alike.beats (hc : c.Alike d) (he : b.Alike e) : c.beats b = d.beats e := by
  unfold Candidate.beats
  rw [hc.found, he.found, hc.alternative.rule, he.alternative.rule, hc.alternative.relevance,
    he.alternative.relevance]

theorem keep_alike {kept kept' : Option Candidate} (h : Option.Rel Alike kept kept') (hc : c.Alike d) :
    Option.Rel Alike (keep kept c) (keep kept' d) := by
  cases h with
  | none => exact .some hc
  | some he =>
    simp only [keep, hc.beats he]
    split
    · exact .some hc
    · exact .some he

theorem best_alike {cs ds : List Candidate} (h : List.Forall₂ Alike cs ds) :
    Option.Rel Alike (best cs) (best ds) := by
  have hfold : ∀ {kept kept'}, Option.Rel Alike kept kept' →
      Option.Rel Alike (cs.foldl keep kept) (ds.foldl keep kept') := by
    induction h with
    | nil => exact id
    | cons hc _ ih => exact fun hk => ih (keep_alike hk hc)
  exact hfold .none

end Candidate

theorem due_alike (h : List.Forall₂ Alternative.Alike as bs) (p : Place) :
    Option.Rel Candidate.Alike (due as p) (due bs p) := by
  refine Candidate.best_alike ?_
  induction h with
  | nil => exact .nil
  | @cons a b _ _ hab _ ih =>
    simp only [List.filterMap_cons, hab.begin_]
    cases hf : b.begin_.findFrom p with
    | none => exact ih
    | some m => exact .cons ⟨hab, rfl⟩ ih

/-! ## What comes next in a body -/

/-- The same happens at the same place. -/
inductive Event.Alike : Event → Event → Prop
  | rule {c d : Candidate} (h : c.Alike d) : Alike (.rule c) (.rule d)
  | title {t u : TitleRule} (h : t.SameShape u) (m : Match) : Alike (.title t m) (.title u m)
  | finish (m : Match) : Alike (.finish m) (.finish m)
  | nothing : Alike .nothing .nothing

theorem Event.first_alike {rule rule' : Option Candidate} {title title' : Option (TitleRule × Match)}
    (hr : Option.Rel Candidate.Alike rule rule')
    (ht : Option.Rel (fun x y => x.1.SameShape y.1 ∧ x.2 = y.2) title title') (finish : Option Match) :
    (Event.first rule title finish).Alike (Event.first rule' title' finish) := by
  have hclose : (Event.first.close finish).Alike (Event.first.close finish) := by
    cases finish with
    | none => exact .nothing
    | some m => exact .finish m
  have hrest : (Event.first.rest title finish).Alike (Event.first.rest title' finish) := by
    cases ht with
    | none => exact hclose
    | @some x y h =>
      obtain ⟨t, m⟩ := x
      obtain ⟨u, n⟩ := y
      obtain ⟨htu, rfl⟩ : t.SameShape u ∧ m = n := h
      simp only [Event.first.rest]
      split
      · exact .title htu m
      · exact hclose
  have hleads : title.map (·.2) = title'.map (·.2) := by
    cases ht with
    | none => rfl
    | some h => exact congrArg some h.2
  cases hr with
  | none => exact hrest
  | some hc =>
    simp only [Event.first, hleads, hc.found]
    split
    · exact .rule hc
    · exact hrest

theorem Body.event_alike (hb : body.finish = body'.finish) (ha : List.Forall₂ Alternative.Alike as bs)
    (ht : Option.Rel TitleRule.SameShape title title') (p : Place) :
    (body.event as p title).Alike (body'.event bs p title') := by
  unfold Body.event
  rw [hb]
  refine Event.first_alike (due_alike ha p) ?_ _
  cases ht with
  | none => exact .none
  | @some t u h =>
    simp only [Option.bind_some, h.pattern]
    cases u.pattern.findFrom p with
    | none => exact .none
    | some m => exact .some ⟨h, rfl⟩

/-! ## Where bodies and rules end -/

theorem titleToken_sameShape {t u : TitleRule} (h : t.SameShape u) (m : Match) (finish : Option Match) :
    (titleToken t m finish).2 = (titleToken u m finish).2 := by
  unfold titleToken
  rw [h.endsWithParent]

/-- **Runs of two bodies end at one place** if the bodies have the same end and the same rules but for
labels: turn by turn the same event moves both of them to the same place. -/
theorem Runs.same_end (hb : body.finish = body'.finish) (ha : List.Forall₂ Alternative.Alike as bs)
    {ts us : List Token} {last last' : Place} (hr : Runs g body as p title ts last)
    (ht : Option.Rel TitleRule.SameShape title title') (hr' : Runs h body' bs p title' us last') :
    last = last' := by
  induction hr generalizing title' us with
  | @nothing p title he =>
    have halike := Body.event_alike hb ha ht p
    rw [he] at halike
    cases hr' with
    | nothing => rfl
    | finish he' | rule he' | title he' => rw [he'] at halike; cases halike
  | @finish p title m he =>
    have halike := Body.event_alike hb ha ht p
    rw [he] at halike
    cases hr' with
    | finish he' => rw [he'] at halike; cases halike; rfl
    | nothing he' | rule he' | title he' => rw [he'] at halike; cases halike
  | @rule p title c inner last he _ ih =>
    have halike := Body.event_alike hb ha ht p
    rw [he] at halike
    cases hr' with
    | rule he' next =>
      rw [he'] at halike
      cases halike with
      | rule hc =>
        rw [← hc.found, ← hc.alternative.stop] at next
        exact ih ht next
    | nothing he' | finish he' | title he' => rw [he'] at halike; cases halike
  | @title p title t m inner last he _ ih =>
    have halike := Body.event_alike hb ha ht p
    rw [he] at halike
    cases hr' with
    | title he' next =>
      rw [he'] at halike
      cases halike with
      | title htu =>
        rw [← hb, ← titleToken_sameShape htu] at next
        exact ih .none next
    | nothing he' | finish he' | rule he' => rw [he'] at halike; cases halike

theorem Alternative.Alike.advances (ha : List.Forall₂ Alternative.Alike as bs)
    (has : ∀ a ∈ as, a.Advances) : ∀ b ∈ bs, b.Advances := by
  induction ha with
  | nil => simp
  | @cons a b _ _ hab _ ih =>
    simp only [List.forall_mem_cons] at has ⊢
    refine ⟨fun s => ?_, ih has.2⟩
    rw [← hab.stop]
    exact has.1 s

theorem scanBodyFrom_alike (hb : body.finish = body'.finish) (ha : List.Forall₂ Alternative.Alike as bs)
    (has : ∀ a ∈ as, a.Advances) (ht : Option.Rel TitleRule.SameShape title title') (p : Place) :
    (scanBodyFrom g remember body as title p).2 = (scanBodyFrom h remember body' bs title' p).2 :=
  (scanBodyFrom_runs has p title).same_end hb ha ht
    (scanBodyFrom_runs (Alternative.Alike.advances ha has) p title')

mutual

theorem alternativesOf_alike (g h : Grammar) (remember : Bool) : ∀ (r q : Rule) (n : Nat), r.SameShape q →
    List.Forall₂ Alternative.Alike (alternativesOf g remember n r) (alternativesOf h remember n q)
  | .lexeme _ p, .lexeme _ q, n, hs => .cons ⟨hs, rfl, rfl, fun _ => rfl⟩ .nil
  | .region _ vs rs, .region _ ws qs, n, hs => by
    obtain ⟨rfl, hs⟩ : vs = ws ∧ Rule.SameShapes rs qs := hs
    have hinside := alternativesFrom_alike g h remember rs qs 0 hs
    simp only [alternativesOf, List.forall₂_map_left_iff, List.forall₂_map_right_iff, List.forall₂_same]
    refine fun v _ => ⟨rfl, rfl, rfl, fun s => ?_⟩
    simp only [applyRegion_stop]
    exact scanBodyFrom_alike rfl hinside (alternativesFrom_advance rs 0) .none s.stop
  | .header r, .header q, n, hs => by
    have hs : r.SameShape q := hs
    refine .cons ⟨hs.begin_, rfl, rfl, fun s => ?_⟩ .nil
    simp only [applyHeader_stop]
    exact scanBodyFrom_alike hs.finish .nil (by simp) (.some hs.title) s.stop

/-- **Rules of one shape begin and end at the same places**, whatever words their grammars list. -/
theorem alternativesFrom_alike (g h : Grammar) (remember : Bool) : ∀ (rs qs : List Rule) (n : Nat),
    Rule.SameShapes rs qs →
    List.Forall₂ Alternative.Alike (alternativesFrom g remember n rs) (alternativesFrom h remember n qs)
  | [], [], _, _ => .nil
  | r :: rs, q :: qs, n, hs =>
    List.rel_append (alternativesOf_alike g h remember r q n hs.1)
      (alternativesFrom_alike g h remember rs qs (n + 1) hs.2)

end

/-! ## Steps -/

theorem wordsIn_sameShape (hi : g.identifier = h.identifier) (p q : Place) : wordsIn g p q = wordsIn h p q := by
  rw [wordsIn, wordsIn, hi]

theorem wordAcross_sameShape (hi : g.identifier = h.identifier) (p q : Place) :
    wordAcross g p q = wordAcross h p q := by
  rw [wordAcross, wordAcross, hi]

theorem fillGap_ranges (g h : Grammar) (to_ : Place) : ∀ (p : Place) (ws : List Span),
    (fillGap g to_ p ws).map Token.range = (fillGap h to_ p ws).map Token.range
  | p, [] => rfl
  | p, w :: ws => by
    have ih := fillGap_ranges g h to_ w.stop ws
    unfold fillGap
    split <;> simp [ih]

theorem gapTokens_ranges (hi : g.identifier = h.identifier) (p q : Place) :
    (gapTokens g p q).map Token.range = (gapTokens h p q).map Token.range := by
  rw [gapTokens, gapTokens, wordsIn_sameShape hi]
  exact fillGap_ranges g h q _ _

/-- What stands for a rule at the top level lies between the places where the rule begins and ends. -/
theorem Alternative.Covers.range {c : Candidate} (hc : c.alternative.Covers) :
    ((c.alternative.apply c.found.span).1.getD
      (.ofSpan .plain ⟨c.found.start, (c.alternative.apply c.found.span).2⟩ [])).range =
      (c.found.start.offset, (c.alternative.apply c.found.span).2.offset) := by
  obtain ⟨scope, children, ht⟩ := hc.token
  rw [ht, Token.range_ofSpan]

/-- **One step** of two scans passes over the same text in tokens of the same ranges. -/
theorem passage_alike (hi : g.identifier = h.identifier) (ha : List.Forall₂ Alternative.Alike as bs)
    (hc : ∀ a ∈ as, a.Covers) (hc' : ∀ b ∈ bs, b.Covers) (p : Place) :
    (passage g as p).1.map Token.range = (passage h bs p).1.map Token.range ∧
      (passage g as p).2 = (passage h bs p).2 := by
  have hdue := due_alike ha p
  have hcovers : ∀ c, due as p = some c → c.alternative.Covers := fun c hd => hc _ (due_mem hd).1
  have hcovers' : ∀ d, due bs p = some d → d.alternative.Covers := fun d hd => hc' _ (due_mem hd).1
  unfold passage
  generalize due as p = c at hdue hcovers
  generalize due bs p = d at hdue hcovers'
  cases hdue with
  | none => exact ⟨gapTokens_ranges hi p p.finish, rfl⟩
  | @some c d hcd =>
    have hstop : (c.alternative.apply c.found.span).2 = (d.alternative.apply d.found.span).2 := by
      rw [hcd.found, hcd.alternative.stop]
    simp only [hcd.found, wordAcross_sameShape hi]
    cases hw : wordAcross h p d.found.start with
    | some stop => exact ⟨gapTokens_ranges hi p stop, rfl⟩
    | none =>
      have hr := (hcovers c rfl).range
      have hr' := (hcovers' d rfl).range
      rw [hcd.found] at hr hstop
      refine ⟨?_, hstop⟩
      simp only [List.map_append, List.map_cons, List.map_nil, hr, hr', gapTokens_ranges hi p d.found.start]
      rw [hstop]

namespace Tokens

variable {t u : Tokens} {source : String} {given given' : List Token}

/-- The scans stand at one place, their pending tokens have the same ranges, and what is still to
come begins and ends at the same places. -/
structure SameRanges (t u : Tokens) : Prop where
  identifier : t.grammar.identifier = u.grammar.identifier
  place : t.place = u.place
  pending : t.pending.map Token.range = u.pending.map Token.range
  alternatives : List.Forall₂ Alternative.Alike t.alternatives u.alternatives

theorem start_sameRanges (hs : g.SameShape h) (remember : Bool) (source : String) :
    (start g remember source).SameRanges (start h remember source) where
  identifier := hs.identifier
  place := rfl
  pending := rfl
  alternatives := by
    simp only [alternatives, start, Level.alternatives_ofAlternatives]
    exact alternativesFrom_alike g h remember g.rules h.rules 0 hs.rules

namespace SameRanges

theorem step (hs : t.SameRanges u) (ht : Covers source t given) (hu : Covers source u given') :
    t.step.SameRanges u.step := by
  obtain ⟨hranges, hplace⟩ := passage_alike hs.identifier hs.alternatives ht.covers hu.covers t.place
  rw [step_eq ht.ready, step_eq hu.ready, ← hs.place]
  refine ⟨hs.identifier, hplace, ?_, ?_⟩
  · simp only [List.map_append, hs.pending, hranges]
  · simp only [Tokens.alternatives, Level.alternatives_next]
    exact hs.alternatives

/-- Of two scans alike both have a token pending or none has, and giving it keeps them alike. -/
theorem give {x : Token} {rest : List Token} (hs : t.SameRanges u) (hp : t.pending = x :: rest) :
    ∃ y rest', u.pending = y :: rest' ∧ x.range = y.range ∧
      ({ t with pending := rest } : Tokens).SameRanges { u with pending := rest' } := by
  have hranges := hs.pending
  rw [hp, List.map_cons] at hranges
  obtain ⟨y, rest', hu, hy, hrest⟩ := List.map_eq_cons_iff.1 hranges.symm
  exact ⟨y, rest', hu, hy.symm, hs.identifier, hs.place, hrest.symm, hs.alternatives⟩

/-- **One call** gives tokens of the same range, or none, and keeps the scans alike. -/
theorem next (hs : t.SameRanges u) (ht : Covers source t given) (hu : Covers source u given') :
    t.next.1.map Token.range = u.next.1.map Token.range ∧ t.next.2.SameRanges u.next.2 := by
  have hnone : t.pending = [] → u.pending = [] := fun hp => by
    have hranges := hs.pending
    rw [hp] at hranges
    exact List.map_eq_nil_iff.1 hranges.symm
  rcases ht.next_cases with ⟨x, rest, hp, hn⟩ | ⟨hp, hr, x, rest, hp', hn⟩ | ⟨hp, hr, hn⟩
  · obtain ⟨y, rest', hq, hxy, hs'⟩ := hs.give hp
    rw [hn, next_of_pending hq]
    exact ⟨congrArg some hxy, hs'⟩
  · obtain ⟨y, rest', hq, hxy, hs'⟩ := (hs.step ht hu).give hp'
    rw [hn, (next_of_step (hnone hp) (hs.place ▸ hr)).1 y rest' hq]
    exact ⟨congrArg some hxy, hs'⟩
  · rw [hn, next_of_atEnd (hnone hp) (hs.place ▸ hr)]
    exact ⟨rfl, hs⟩

end SameRanges

/-- Any number of calls. -/
theorem given_sameRanges (hs : g.SameShape h) (source : String) : ∀ k,
    ((start g true source).given k).map Token.range = ((start h true source).given k).map Token.range ∧
      ((start g true source).after k).SameRanges ((start h true source).after k)
  | 0 => ⟨rfl, start_sameRanges hs true source⟩
  | k + 1 => by
    obtain ⟨hranges, hafter⟩ := given_sameRanges hs source k
    obtain ⟨hnext, hafter'⟩ := hafter.next (after_covers (start_covers g true source) k)
      (after_covers (start_covers h true source) k)
    refine ⟨?_, hafter'⟩
    rw [given, given, List.map_append, List.map_append, hranges, ← Option.toList_map, ← Option.toList_map, hnext]

/-- **Labels do not decide where tokens end.** Two grammars with the same identifier pattern and rules
that differ only in scopes, also in having none, in the words of headers and in the relevances of titles
cut every source into the same ranges: after any number of calls they have given tokens of the same ranges
and stand at the same position, and so their tokens of the whole source have the same ranges. -/
theorem ranges_unlabelled (hs : g.SameShape h) (source : String) (k : Nat) :
    ((start g true source).given k).map Token.range = ((start h true source).given k).map Token.range ∧
    ((start g true source).after k).position = ((start h true source).after k).position ∧
    (tokenize g source).map Token.range = (tokenize h source).map Token.range := by
  obtain ⟨hranges, hafter⟩ := given_sameRanges hs source k
  refine ⟨hranges, congrArg Place.offset hafter.place, ?_⟩
  rw [tokenize_eq_given g (Nat.le_refl _), tokenize_eq_given h (Nat.le_refl _)]
  exact (given_sameRanges hs source source.length).1

/-- The language with other labels: it lists no words, calls its strings and headers something else,
passes over comments in silence and gives escapes a scope. -/
def relabelled : Grammar :=
  { (default : Grammar) with
    caseInsensitive := true
    identifier := Stock.identifier
    rules := [.lexeme none Stock.commentPattern, .lexeme (some .literal) Stock.numberPattern,
      .region .comment [Stock.quotedBy "'''" 10, Stock.quotedBy "\"\"\"" 10, Stock.quotedBy "'" 0,
        Stock.quotedBy "\"" 0] [.lexeme (some .number) Stock.escapePattern],
      .header ⟨.plain, Stock.wholeWord Piyathon.define, Stock.colon, .empty, ⟨Stock.titlePattern, 5, true⟩⟩,
      .header ⟨.plain, Stock.wholeWord Piyathon.classAnchor, Stock.colon, .ofWords [] ["ก"] [],
        ⟨Stock.titlePattern, 0, true⟩⟩] }

/-- The same ranges in a language and in one with other labels. -/
theorem ranges_unlabelled_piyathon :
    Piyathon.grammar.SameShape relabelled ∧
    (tokenize Piyathon.grammar "ชั้น ก: '\\'' # x").map Token.range =
      (tokenize relabelled "ชั้น ก: '\\'' # x").map Token.range ∧
    (tokenize Piyathon.grammar "ชั้น ก: '\\'' # x").map (·.scope) = [.classDef, .plain, .string, .plain, .comment] ∧
    (tokenize relabelled "ชั้น ก: '\\'' # x").map (·.scope) = [.plain, .plain, .comment, .plain, .plain] := by
  have hs : Piyathon.grammar.SameShape relabelled :=
    ⟨rfl, rfl, rfl, ⟨rfl, rfl, trivial⟩, ⟨rfl, rfl, rfl, rfl⟩, ⟨rfl, rfl, rfl, rfl⟩, trivial⟩
  exact ⟨hs, (ranges_unlabelled hs "ชั้น ก: '\\'' # x" 0).2.2, by decide +kernel, by decide +kernel⟩

end Tokens

end Scan

end Lexicolor
