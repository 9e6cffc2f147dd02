/-
What the scan of a body does, as a relation. `Runs` follows the turns of a body by searches made
afresh, with no bound on their number and no memory; `scanBody_runs` shows that the scan with
its memory and its bound is a run. So the bound is never reached, and a run is determined by
where it starts (`Runs.det`): whether searches are remembered makes no difference to what a rule
makes of its beginning (`alternativesFrom_remember`).

A body goes forward because every alternative does: it ends at or after the end of the match it
begins with (`alternativesFrom_advance`).
-/
import Lexicolor.Scan.Body
import Lexicolor.Proofs.Recall

namespace Lexicolor.Scan

open Text Regex

variable {g : Grammar} {remember : Bool} {body : Body} {as : List Alternative} {p q : Place}
  {title : Option TitleRule}

/-! ## What comes next -/

/-- What comes next in a body, by searches made for the place itself. -/
def Body.event (body : Body) (as : List Alternative) (p : Place) (title : Option TitleRule) : Event :=
  Event.first (due as p) (title.bind fun t => (t.pattern.findFrom p).map (t, ·)) (body.finish.findFrom p)

theorem Event.first_eq_rule {rule : Option Candidate} {title : Option (TitleRule × Match)}
    {finish : Option Match} {c : Candidate} (h : Event.first rule title finish = .rule c) :
    rule = some c := by
  unfold Event.first Event.first.rest Event.first.close at h
  grind

theorem Event.first_eq_title {rule : Option Candidate} {title : Option (TitleRule × Match)}
    {finish : Option Match} {t : TitleRule} {m : Match} (h : Event.first rule title finish = .title t m) :
    title = some (t, m) ∧ leads m finish = true := by
  unfold Event.first Event.first.rest Event.first.close at h
  grind

theorem Event.first_eq_finish {rule : Option Candidate} {title : Option (TitleRule × Match)}
    {finish : Option Match} {m : Match} (h : Event.first rule title finish = .finish m) :
    finish = some m := by
  unfold Event.first Event.first.rest Event.first.close at h
  grind

theorem Event.first_eq_nothing {rule : Option Candidate} {title : Option (TitleRule × Match)}
    {finish : Option Match} (h : Event.first rule title finish = .nothing) :
    rule = none ∧ title = none ∧ finish = none := by
  unfold Event.first Event.first.rest Event.first.close leads at h
  grind

theorem leads_iff {m : Match} {other : Option Match} :
    leads m other = true ↔ ∀ n, other = some n → m.start.offset ≤ n.start.offset := by
  cases other <;> simp [leads]

/-- A rule comes next only if no end is found before it. -/
theorem Event.first_rule_leads {rule : Option Candidate} {title : Option (TitleRule × Match)}
    {finish : Option Match} {c : Candidate} (h : Event.first rule title finish = .rule c) :
    leads c.found finish = true := by
  unfold Event.first Event.first.rest Event.first.close at h
  grind

/-- The end comes next only if it is found before every rule. -/
theorem Event.first_finish_lt {rule : Option Candidate} {title : Option (TitleRule × Match)}
    {finish : Option Match} {m : Match} (h : Event.first rule title finish = .finish m) {c : Candidate}
    (hc : rule = some c) : m.start.offset < c.found.start.offset := by
  unfold Event.first Event.first.rest Event.first.close leads at h
  grind

namespace Body

theorem event_rule {c : Candidate} (h : body.event as p title = .rule c) :
    c.alternative ∈ as ∧ c.alternative.begin_.findFrom p = some c.found :=
  due_mem (Event.first_eq_rule h)

theorem event_title {t : TitleRule} {m : Match} (h : body.event as p title = .title t m) :
    title = some t ∧ t.pattern.findFrom p = some m ∧ leads m (body.finish.findFrom p) = true := by
  obtain ⟨h, hl⟩ := Event.first_eq_title h
  obtain ⟨t', ht, h⟩ := Option.bind_eq_some_iff.1 h
  obtain ⟨m', hm, h⟩ := Option.map_eq_some_iff.1 h
  cases h
  exact ⟨ht, hm, hl⟩

theorem event_finish {m : Match} (h : body.event as p title = .finish m) :
    body.finish.findFrom p = some m := Event.first_eq_finish h

theorem event_nothing (h : body.event as p title = .nothing) : body.finish.findFrom p = none :=
  (Event.first_eq_nothing h).2.2

end Body

/-- After a title the scan goes on at its end, or where the end of the parent begins inside it. -/
theorem titleToken_stop (t : TitleRule) (m : Match) (finish : Option Match) :
    (titleToken t m finish).2 = m.stop ∨ ∃ e, finish = some e ∧ (titleToken t m finish).2 = e.start := by
  unfold titleToken
  cases h : finish.filter fun e => t.endsWithParent && e.start.offset < m.stop.offset with
  | none => exact .inl rfl
  | some e => exact .inr ⟨e, (Option.filter_eq_some_iff.1 h).1, rfl⟩

theorem titleToken_reaches {t : TitleRule} {m : Match} (h : t.pattern.findFrom p = some m) :
    p.Reaches (titleToken t m (body.finish.findFrom p)).2 := by
  rcases titleToken_stop t m (body.finish.findFrom p) with hs | ⟨e, he, hs⟩
  · exact hs ▸ Pattern.findFrom_stop h
  · exact hs ▸ (Pattern.findFrom_ahead he).1

/-! ## Runs -/

/-- Turns of a body from a place on, with the title if it has not been found: the tokens that
they make and where the body ends. -/
inductive Runs (g : Grammar) (body : Body) (as : List Alternative) :
    Place → Option TitleRule → List Token → Place → Prop
  | nothing {p : Place} {title : Option TitleRule} (h : body.event as p title = .nothing) :
      Runs g body as p title (bodyWords g body p p.finish) p.finish
  | finish {p : Place} {title : Option TitleRule} {m : Match} (h : body.event as p title = .finish m) :
      Runs g body as p title (bodyWords g body p m.start) m.stop
  | rule {p : Place} {title : Option TitleRule} {c : Candidate} {inner : List Token} {last : Place}
      (h : body.event as p title = .rule c)
      (next : Runs g body as (c.alternative.apply c.found.span).2 title inner last) :
      Runs g body as p title (bodyWords g body p c.found.start ++
        (c.alternative.apply c.found.span).1.toList ++ inner) last
  | title {p : Place} {title : Option TitleRule} {t : TitleRule} {m : Match} {inner : List Token}
      {last : Place} (h : body.event as p title = .title t m)
      (next : Runs g body as (titleToken t m (body.finish.findFrom p)).2 none inner last) :
      Runs g body as p title (bodyWords g body p m.start ++
        (titleToken t m (body.finish.findFrom p)).1 ++ inner) last

theorem Runs.det {ts us : List Token} {last last' : Place} (h : Runs g body as p title ts last)
    (h' : Runs g body as p title us last') : ts = us ∧ last = last' := by
  induction h generalizing us with
  | nothing h =>
    cases h' with
    | nothing => exact ⟨rfl, rfl⟩
    | finish h' | rule h' | title h' => rw [h] at h'; cases h'
  | finish h =>
    cases h' with
    | finish h' => rw [h] at h'; cases h'; exact ⟨rfl, rfl⟩
    | nothing h' | rule h' | title h' => rw [h] at h'; cases h'
  | rule h _ ih =>
    cases h' with
    | rule h' next =>
      rw [h] at h'; cases h'
      obtain ⟨rfl, rfl⟩ := ih next
      exact ⟨rfl, rfl⟩
    | nothing h' | finish h' | title h' => rw [h] at h'; cases h'
  | title h _ ih =>
    cases h' with
    | title h' next =>
      rw [h] at h'; cases h'
      obtain ⟨rfl, rfl⟩ := ih next
      exact ⟨rfl, rfl⟩
    | nothing h' | finish h' | rule h' => rw [h] at h'; cases h'

/-- The alternative ends no earlier than the match it begins with. -/
def Alternative.Advances (a : Alternative) : Prop := ∀ s : Span, s.stop.Reaches (a.apply s).2

/-- What a candidate that is due makes ends after the place. -/
theorem Alternative.Advances.passes {c : Candidate} (ha : c.alternative.Advances)
    (hf : c.alternative.begin_.findFrom p = some c.found) :
    p.Reaches (c.alternative.apply c.found.span).2 ∧
      p.offset < (c.alternative.apply c.found.span).2.offset := by
  obtain ⟨h1, h2, h3⟩ := Pattern.findFrom_ahead hf
  have h4 := ha c.found.span
  refine ⟨h1.trans (h2.reaches.trans h4), ?_⟩
  have := h1.offset_le
  have := h4.offset_le
  exact Nat.lt_of_le_of_lt h1.offset_le (Nat.lt_of_lt_of_le h3 h4.offset_le)

theorem Runs.reaches (has : ∀ a ∈ as, a.Advances) {ts : List Token} {last : Place}
    (h : Runs g body as p title ts last) : p.Reaches last := by
  induction h with
  | nothing => exact .finish _
  | finish h => exact Pattern.findFrom_stop (Body.event_finish h)
  | rule h _ ih =>
    obtain ⟨hc, hf⟩ := Body.event_rule h
    exact ((has _ hc).passes hf).1.trans ih
  | title h _ ih => exact (titleToken_reaches (Body.event_title h).2.1).trans ih

/-! ## The scan of a body is a run -/

namespace Progress

variable {s : Progress}

/-- Whatever is remembered was found from places before. -/
structure Recalls (remember : Bool) (body : Body) (s : Progress) : Prop where
  level : s.level.Recalls remember s.place
  title : ∀ t, s.title = some t → s.titleAhead.Recalls remember t.pattern s.place
  finish : s.finishAhead.Recalls remember body.finish s.place

/-- The same place with the searches of one turn made. -/
def looked (remember : Bool) (body : Body) (s : Progress) : Progress :=
  { s with
    level := (s.level.next remember s.place).2
    titleAhead := match s.title with
      | none => s.titleAhead
      | some t => (s.titleAhead.look remember t.pattern.findFrom s.place).2
    finishAhead := (s.finishAhead.look remember body.finish.findFrom s.place).2 }

theorem looked_recalls (h : s.Recalls remember body) : (s.looked remember body).Recalls remember body where
  level := Level.next_recalls h.level
  title t ht := by
    have ht : s.title = some t := ht
    simp only [looked, ht]
    exact Ahead.look_recalls (h.title t ht)
  finish := Ahead.look_recalls h.finish

/-- What is remembered at a place serves at every later one, with or without the title. -/
theorem Recalls.move (h : s.Recalls remember body) (hp : s.place.Reaches p)
    (ht : title = s.title ∨ title = none) :
    ({ s with place := p, title } : Progress).Recalls remember body where
  level := h.level.mono hp
  title t ht' := by
    rcases ht with rfl | rfl
    · exact (h.title t ht').mono hp
    · cases ht'
  finish := h.finish.mono hp

end Progress

/-- One turn of the scan is decided by searches made afresh. -/
theorem scanBody_succ {s : Progress} (h : s.Recalls remember body) (n : Nat) :
    (body.event s.level.alternatives s.place s.title = .nothing →
      scanBody g remember body (n + 1) s = (bodyWords g body s.place s.place.finish, s.place.finish)) ∧
    (∀ m, body.event s.level.alternatives s.place s.title = .finish m →
      scanBody g remember body (n + 1) s = (bodyWords g body s.place m.start, m.stop)) ∧
    (∀ c, body.event s.level.alternatives s.place s.title = .rule c →
      scanBody g remember body (n + 1) s =
        let outcome := c.alternative.apply c.found.span
        let left := scanBody g remember body n { s.looked remember body with place := outcome.2 }
        (bodyWords g body s.place c.found.start ++ outcome.1.toList ++ left.1, left.2)) ∧
    (∀ t m, body.event s.level.alternatives s.place s.title = .title t m →
      scanBody g remember body (n + 1) s =
        let made := titleToken t m (body.finish.findFrom s.place)
        let left := scanBody g remember body n { s.looked remember body with place := made.2, title := none }
        (bodyWords g body s.place m.start ++ made.1 ++ left.1, left.2)) := by
  have hf := Ahead.look_eq h.finish
  have hl := Level.next_eq h.level
  obtain ⟨place, level, title, titleAhead, finishAhead⟩ := s
  cases title with
  | none =>
    simp only [Body.event, Option.bind_none]
    refine ⟨fun he => ?_, fun m he => ?_, fun c he => ?_, fun t m he => ?_⟩
    · simp only [scanBody, hf, hl, he]
    · simp only [scanBody, hf, hl, he]
    · simp only [scanBody, hf, hl, he]
      rfl
    · simp only [scanBody, hf, hl, he]
      rfl
  | some r =>
    have ht : (titleAhead.look remember r.pattern.findFrom place).1 = r.pattern.findFrom place :=
      Ahead.look_eq (h.title r rfl)
    simp only [Body.event, Option.bind_some]
    refine ⟨fun he => ?_, fun m he => ?_, fun c he => ?_, fun t m he => ?_⟩
    · simp only [scanBody, hf, hl, ht, he]
    · simp only [scanBody, hf, hl, ht, he]
    · simp only [scanBody, hf, hl, ht, he]
      rfl
    · simp only [scanBody, hf, hl, ht, he]
      rfl

/-- **The scan of a body is a run**, its bound being more than the turns that are left: every
turn but the one that finds the title passes over some text. -/
theorem scanBody_runs (has : ∀ a ∈ as, a.Advances) : ∀ (n : Nat) (s : Progress),
    s.level.alternatives = as → s.Recalls remember body → s.place.rest.length + s.title.toList.length < n →
    Runs g body as s.place s.title (scanBody g remember body n s).1 (scanBody g remember body n s).2
  | 0, _, _, _, hn => by omega
  | n + 1, s, hl, hs, hn => by
    have hs' := Progress.looked_recalls hs
    have hl' : (s.looked remember body).level.alternatives = as := by
      rw [← hl]; exact Level.alternatives_next
    obtain ⟨hnothing, hfinish, hrule, htitle⟩ := scanBody_succ (g := g) hs n
    rw [hl] at hnothing hfinish hrule htitle
    cases he : body.event as s.place s.title with
    | nothing => exact hnothing he ▸ .nothing he
    | finish m => exact hfinish m he ▸ .finish he
    | rule c =>
      rw [hrule c he]
      obtain ⟨hc, hf⟩ := Body.event_rule he
      obtain ⟨hr, hlt⟩ := (has _ hc).passes hf
      have := hr.length_lt hlt
      exact .rule he (scanBody_runs has n
        { s.looked remember body with place := (c.alternative.apply c.found.span).2 } hl'
        (hs'.move hr (.inl rfl)) (by simp only [Progress.looked]; omega))
    | title t m =>
      rw [htitle t m he]
      obtain ⟨ht, hm, -⟩ := Body.event_title he
      have hr : s.place.Reaches (titleToken t m (body.finish.findFrom s.place)).2 := titleToken_reaches hm
      have := hr.length_le
      exact .title he (scanBody_runs has n
        { s.looked remember body with
          place := (titleToken t m (body.finish.findFrom s.place)).2, title := none } hl'
        (hs'.move hr (.inr rfl)) (by simp [ht] at hn ⊢; omega))

theorem scanBodyFrom_runs (has : ∀ a ∈ as, a.Advances) (p : Place) (title : Option TitleRule) :
    Runs g body as p title (scanBodyFrom g remember body as title p).1
      (scanBodyFrom g remember body as title p).2 := by
  refine scanBody_runs has _ ⟨p, Level.ofAlternatives as, title, Ahead.none, Ahead.none⟩
    (Level.alternatives_ofAlternatives as)
    ⟨Level.Recalls.ofAlternatives as, fun _ _ => .none, .none⟩ ?_
  cases title <;> simp

theorem scanBodyFrom_remember (has : ∀ a ∈ as, a.Advances) (p : Place) (title : Option TitleRule) :
    scanBodyFrom g true body as title p = scanBodyFrom g false body as title p := by
  have h : ∀ r, Runs g body as p title (scanBodyFrom g r body as title p).1
      (scanBodyFrom g r body as title p).2 := fun r => scanBodyFrom_runs has p title
  obtain ⟨h1, h2⟩ := (h true).det (h false)
  exact Prod.ext h1 h2

/-! ## Rules -/

theorem applyRegion_stop (scope : Scope) (v : Variant) (s : Span) :
    (applyRegion g remember scope as v s).2 = (scanBodyFrom g remember ⟨v.finish, none⟩ as none s.stop).2 :=
  rfl

theorem applyHeader_stop (rule : HeaderRule) (s : Span) :
    (applyHeader g remember rule s).2 =
      (scanBodyFrom g remember ⟨rule.finish, some rule.keywords⟩ [] (some rule.title) s.stop).2 := rfl

mutual

/-- **No rule goes back**: it ends at or after the end of the match it begins with. -/
theorem alternativesOf_advance : ∀ (r : Rule) (n : Nat),
    ∀ a ∈ alternativesOf g remember n r, a.Advances
  | .lexeme scope pattern, n, a, ha => by
    simp only [alternativesOf, List.mem_singleton] at ha
    subst ha
    exact fun s => .refl _
  | .region scope variants contains, n, a, ha => by
    simp only [alternativesOf, List.mem_map] at ha
    obtain ⟨v, -, rfl⟩ := ha
    intro s
    simp only [applyRegion_stop]
    exact (scanBodyFrom_runs (alternativesFrom_advance contains 0) s.stop none).reaches
      (alternativesFrom_advance contains 0)
  | .header rule, n, a, ha => by
    simp only [alternativesOf, List.mem_singleton] at ha
    subst ha
    intro s
    simp only [applyHeader_stop]
    exact (scanBodyFrom_runs (by simp) s.stop _).reaches (by simp)

theorem alternativesFrom_advance : ∀ (rs : List Rule) (n : Nat),
    ∀ a ∈ alternativesFrom g remember n rs, a.Advances
  | [], n, a, ha => by simp [alternativesFrom] at ha
  | r :: rs, n, a, ha => by
    simp only [alternativesFrom, List.mem_append] at ha
    rcases ha with ha | ha
    · exact alternativesOf_advance r n a ha
    · exact alternativesFrom_advance rs (n + 1) a ha

end

theorem applyRegion_remember (has : ∀ a ∈ as, a.Advances) (scope : Scope) (v : Variant) :
    applyRegion g true scope as v = applyRegion g false scope as v := by
  funext s
  unfold applyRegion
  rw [scanBodyFrom_remember has]

theorem applyHeader_remember (rule : HeaderRule) : applyHeader g true rule = applyHeader g false rule := by
  funext s
  unfold applyHeader
  rw [scanBodyFrom_remember (by simp)]

mutual

theorem alternativesOf_remember : ∀ (r : Rule) (n : Nat),
    alternativesOf g true n r = alternativesOf g false n r
  | .lexeme scope pattern, n => rfl
  | .region scope variants contains, n => by
    simp only [alternativesOf, alternativesFrom_remember contains 0,
      applyRegion_remember (alternativesFrom_advance contains 0)]
  | .header rule, n => by simp only [alternativesOf, applyHeader_remember]

/-- What rules make of their beginnings does not depend on whether searches are remembered. -/
theorem alternativesFrom_remember : ∀ (rs : List Rule) (n : Nat),
    alternativesFrom g true n rs = alternativesFrom g false n rs
  | [], n => rfl
  | r :: rs, n => by
    simp only [alternativesFrom, alternativesOf_remember r n, alternativesFrom_remember rs (n + 1)]

end

end Lexicolor.Scan
