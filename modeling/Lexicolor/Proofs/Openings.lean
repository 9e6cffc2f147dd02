/-
The rule that begins next. The openings of a level are the ways in which its rules can begin, in the order
in which they are declared (`openings`); a level holds one alternative for each (`alternativesFrom_openings`).
Asked place by place as a text is gone through, a level that remembers its searches answers each time with
the opening whose own search from the place comes first: by the place where its match begins, then by its
rule, its relevance, the length of its match and at last its place among the variants of the rule
(`answers_least`).
-/
import Mathlib.Data.List.Forall2
import Lexicolor.Scan.Body
import Lexicolor.Proofs.Precedence
import Lexicolor.Piyathon

namespace Lexicolor

open Text Regex

/-- A way in which a rule of a level can begin: the rule itself, or one of the variants of a region. -/
structure Opening where
  rule : Nat
  variant : Nat
  begin_ : Pattern
  relevance : Nat

/-- The ways in which a rule can begin, in the order in which they are declared. -/
def openingsOf (position : Nat) : Rule → List Opening
  | .lexeme _ pattern => [⟨position, 0, pattern, 0⟩]
  | .region _ variants _ => variants.mapIdx fun k v => ⟨position, k, v.begin_, v.relevance⟩
  | .header rule => [⟨position, 0, rule.begin_, 0⟩]

/-- The ways in which rules can begin, the first of them having a position among its level. -/
def openingsFrom (position : Nat) (rules : List Rule) : List Opening :=
  (rules.zipIdx position).flatMap fun (r, k) => openingsOf k r

/-- The openings of a level. -/
def openings (rules : List Rule) : List Opening := openingsFrom 0 rules

namespace Opening

variable {o o' : Opening}

/-- Whether a match of one opening is taken rather than a match of another: for an earlier place, an earlier
rule, a higher relevance, a longer match, an earlier variant, in this order. -/
def Precedes (o : Opening) (m : Match) (o' : Opening) (m' : Match) : Prop :=
  m.start.offset < m'.start.offset ∨ m.start.offset = m'.start.offset ∧ (o.rule < o'.rule ∨ o.rule = o'.rule ∧
    (o'.relevance < o.relevance ∨ o.relevance = o'.relevance ∧ (m'.span.size < m.span.size ∨
      m.span.size = m'.span.size ∧ o.variant < o'.variant)))

/-- The opening is declared before the other. -/
def Before (o o' : Opening) : Prop := o.rule < o'.rule ∨ o.rule = o'.rule ∧ o.variant < o'.variant

end Opening

theorem openingsFrom_cons (n : Nat) (r : Rule) (rs : List Rule) :
    openingsFrom n (r :: rs) = openingsOf n r ++ openingsFrom (n + 1) rs := by
  rw [openingsFrom, List.zipIdx_cons, List.flatMap_cons]
  rfl

theorem openingsOf_rule {n : Nat} {r : Rule} {o : Opening} (h : o ∈ openingsOf n r) : o.rule = n := by
  cases r with
  | lexeme scope pattern =>
    rw [List.mem_singleton.1 h]
  | region scope variants contains =>
    obtain ⟨k, hk, rfl⟩ := List.mem_mapIdx.1 h
    rfl
  | header rule =>
    rw [List.mem_singleton.1 h]

/-- The openings of a rule stand in the order of its variants. -/
theorem openingsOf_pairwise (n : Nat) (r : Rule) : (openingsOf n r).Pairwise Opening.Before := by
  cases r with
  | lexeme scope pattern => exact List.pairwise_singleton ..
  | region scope variants contains =>
    rw [openingsOf, List.pairwise_iff_getElem]
    intro i j hi hj hlt
    simp only [List.getElem_mapIdx]
    exact .inr ⟨rfl, hlt⟩
  | header rule => exact List.pairwise_singleton ..

/-- **The openings of a level** stand in the order of its rules, and of the variants of each. -/
theorem openingsFrom_pairwise : ∀ (n : Nat) (rules : List Rule),
    (openingsFrom n rules).Pairwise Opening.Before ∧ ∀ o ∈ openingsFrom n rules, n ≤ o.rule
  | n, [] => ⟨.nil, by simp [openingsFrom]⟩
  | n, r :: rs => by
    obtain ⟨hrest, hle⟩ := openingsFrom_pairwise (n + 1) rs
    rw [openingsFrom_cons]
    refine ⟨List.pairwise_append.2 ⟨openingsOf_pairwise n r, hrest, fun o ho o' ho' => .inl ?_⟩, fun o ho => ?_⟩
    · rw [openingsOf_rule ho]
      exact hle o' ho'
    · rcases List.mem_append.1 ho with ho | ho
      · exact Nat.le_of_eq (openingsOf_rule ho).symm
      · exact Nat.le_of_succ_le (hle o ho)

namespace Scan

variable {g : Grammar} {remember : Bool} {rules : List Rule} {p : Place}

/-- The alternative begins as the opening does. -/
structure Alternative.Begins (a : Alternative) (o : Opening) : Prop where
  begin_ : a.begin_ = o.begin_
  rule : a.rule = o.rule
  relevance : a.relevance = o.relevance

theorem alternativesOf_openings (n : Nat) (r : Rule) :
    List.Forall₂ Alternative.Begins (alternativesOf g remember n r) (openingsOf n r) := by
  cases r with
  | lexeme scope pattern => exact .cons ⟨rfl, rfl, rfl⟩ .nil
  | region scope variants contains =>
    rw [alternativesOf, openingsOf, List.forall₂_iff_get]
    refine ⟨by simp, fun i hi hj => ?_⟩
    simp only [List.get_eq_getElem, List.getElem_map, List.getElem_mapIdx]
    exact ⟨rfl, rfl, rfl⟩
  | header rule => exact .cons ⟨rfl, rfl, rfl⟩ .nil

/-- **A level holds an alternative for each opening**, in the order in which they are declared. -/
theorem alternativesFrom_openings : ∀ (n : Nat) (rules : List Rule),
    List.Forall₂ Alternative.Begins (alternativesFrom g remember n rules) (openingsFrom n rules)
  | _, [] => .nil
  | n, r :: rs => by
    rw [alternativesFrom, openingsFrom_cons]
    exact List.rel_append (alternativesOf_openings n r) (alternativesFrom_openings (n + 1) rs)

/-! ## The one that is due -/

/-- What is found first of all: nothing as long as no opening matches ahead, and else the match of the
opening that precedes all others, with the alternative that stands at its place in the level. -/
structure IsDue (g : Grammar) (remember : Bool) (rules : List Rule) (p : Place) (found : Option Candidate) :
    Prop where
  none_iff : found = none ↔ ∀ o ∈ openings rules, o.begin_.findFrom p = none
  least : ∀ c, found = some c → ∃ (i : Nat) (o : Opening), (openings rules)[i]? = some o ∧
    (alternativesFrom g remember 0 rules)[i]? = some c.alternative ∧ o.begin_.findFrom p = some c.found ∧
    ∀ o' ∈ openings rules, o' ≠ o → ∀ m, o'.begin_.findFrom p = some m → o.Precedes c.found o' m

/-- Nothing is due exactly if no alternative is found ahead. -/
theorem due_eq_none_iff {as : List Alternative} : due as p = none ↔ ∀ a ∈ as, a.begin_.findFrom p = none := by
  constructor
  · intro h a ha
    cases hm : a.begin_.findFrom p with
    | none => rfl
    | some m =>
      obtain ⟨c, hc, -⟩ := due_le ha hm
      rw [h] at hc
      cases hc
  · intro h
    cases hc : due as p with
    | none => rfl
    | some c =>
      obtain ⟨ha, hm⟩ := due_mem hc
      rw [h _ ha] at hm
      cases hm

namespace Alternative.Begins

variable {a a' : Alternative} {o o' : Opening} {m m' : Match}

/-- A match that beats the match of an opening declared before its own precedes it. -/
theorem precedes (h : a.Begins o) (h' : a'.Begins o')
    (hbeats : (⟨a, m⟩ : Candidate).beats ⟨a', m'⟩ = true) : o.Precedes m o' m' := by
  rw [Candidate.beats_iff] at hbeats
  simp only [h.rule, h.relevance, h'.rule, h'.relevance] at hbeats
  rw [Opening.Precedes]
  omega

/-- A match that is not beaten by that of an opening declared after its own precedes it. -/
theorem precedes_of_not_beats (h : a.Begins o) (h' : a'.Begins o') (hbefore : o.Before o')
    (hbeats : ¬ (⟨a', m'⟩ : Candidate).beats ⟨a, m⟩ = true) : o.Precedes m o' m' := by
  rw [Candidate.beats_iff] at hbeats
  simp only [h.rule, h.relevance, h'.rule, h'.relevance] at hbeats
  rw [Opening.Before] at hbefore
  rw [Opening.Precedes]
  omega

end Alternative.Begins

/-- In lists whose members correspond, each member of the one has its like in the other. -/
theorem exists_of_mem {α β : Type} {R : α → β → Prop} {as : List α} {bs : List β} {b : β}
    (h : List.Forall₂ R as bs) (hb : b ∈ bs) : ∃ a ∈ as, R a b := by
  induction h with
  | nil => cases hb
  | @cons a b' as bs hab h ih =>
    rcases List.mem_cons.1 hb with rfl | hb
    · exact ⟨a, List.mem_cons_self, hab⟩
    · obtain ⟨a', ha, hr⟩ := ih hb
      exact ⟨a', List.mem_cons_of_mem _ ha, hr⟩

/-- **What is due** by searches made from the place itself is the match of the least opening. -/
theorem due_isDue (g : Grammar) (remember : Bool) (rules : List Rule) (p : Place) :
    IsDue g remember rules p (due (alternativesFrom g remember 0 rules) p) := by
  have hbegins : List.Forall₂ Alternative.Begins (alternativesFrom g remember 0 rules) (openings rules) :=
    alternativesFrom_openings 0 rules
  constructor
  · rw [due_eq_none_iff]
    constructor
    · intro h o ho
      obtain ⟨a, ha, hb⟩ := exists_of_mem hbegins ho
      exact hb.begin_ ▸ h a ha
    · intro h a ha
      obtain ⟨o, ho, hb⟩ := exists_of_mem (R := flip Alternative.Begins) hbegins.flip ha
      exact hb.begin_ ▸ h o ho
  · intro c hc
    obtain ⟨before, after, has, hfound, hbefore, hafter⟩ := due_first hc
    -- The openings split where the alternatives do.
    have hleft := List.forall₂_take before.length hbegins
    have hright := List.forall₂_drop before.length hbegins
    rw [has, List.take_left] at hleft
    rw [has, List.drop_left, List.forall₂_cons_left_iff] at hright
    obtain ⟨o, rest, ho, hrest, hdrop⟩ := hright
    have hsplit : openings rules = (openings rules).take before.length ++ o :: rest := by
      rw [← hdrop, List.take_append_drop]
    have hordered := (openingsFrom_pairwise 0 rules).1
    rw [← openings, hsplit, List.pairwise_append, List.pairwise_cons] at hordered
    refine ⟨before.length, o, ?_, by rw [has, List.getElem?_append_right (Nat.le_refl _)]; simp,
      ho.begin_ ▸ hfound, fun o' ho' hne m hm => ?_⟩
    · rw [← List.head?_drop, hdrop, List.head?_cons]
    · rw [hsplit, List.mem_append, List.mem_cons] at ho'
      rcases ho' with ho' | rfl | ho'
      · obtain ⟨a, ha, hb⟩ := exists_of_mem hleft ho'
        exact ho.precedes hb (hbefore a ha m (hb.begin_.symm ▸ hm))
      · exact absurd rfl hne
      · obtain ⟨a, ha, hb⟩ := exists_of_mem hrest ho'
        exact ho.precedes_of_not_beats hb (hordered.2.1.1 o' ho') (hafter a ha m (hb.begin_.symm ▸ hm))

namespace Level

/-- What a level answers when it is asked place by place, each answer leaving its searches for the next. -/
def answers (remember : Bool) : Level → List Place → List (Option Candidate)
  | _, [] => []
  | level, p :: ps => (level.next remember p).1 :: answers remember (level.next remember p).2 ps

/-- A level whose searches are those of an earlier place answers as if each were made afresh. -/
theorem answers_eq : ∀ {level : Level} {o : Place} {ps : List Place}, level.Recalls remember o →
    (∀ p ∈ ps, o.Reaches p) → ps.Pairwise (fun p q => p.Reaches q) →
      level.answers remember ps = ps.map (due level.alternatives)
  | _, _, [], _, _, _ => rfl
  | level, o, p :: ps, h, hps, hordered => by
    have hp := h.mono (hps p List.mem_cons_self)
    have ⟨hahead, hlater⟩ := List.pairwise_cons.1 hordered
    rw [answers, next_eq hp, answers_eq (next_recalls hp) hahead hlater, alternatives_next, List.map_cons]

end Level

/-- **Asked place by place, never going back**, a level answers each time with the match of the opening that
precedes all others, whatever it remembers. -/
theorem answers_least (g : Grammar) (remember : Bool) (rules : List Rule) (source : String) (ps : List Place)
    (hps : ∀ p ∈ ps, (Place.start source.toList).Reaches p)
    (hordered : ps.Pairwise fun p q => p.offset ≤ q.offset) :
    List.Forall₂ (IsDue g remember rules) ps
      ((Level.ofAlternatives (alternativesFrom g remember 0 rules)).answers remember ps) := by
  have hreaches : ps.Pairwise fun p q => p.Reaches q :=
    hordered.imp_of_mem fun hp hq hle => (hps _ hp).linear (hps _ hq) hle
  rw [Level.answers_eq (Level.Recalls.ofAlternatives _) hps hreaches, Level.alternatives_ofAlternatives,
    List.forall₂_map_right_iff, List.forall₂_same]
  exact fun p _ => due_isDue g remember rules p

/-- Three quotes are taken rather than one, again from the second place, and the comment after the string. -/
theorem answers_least_quotes :
    let o := Place.start "x '''a''' #b".toList
    let p := o.pass ['x', ' '] "'''a''' #b".toList
    let q := o.pass "x '''a'''".toList " #b".toList
    let answers := (Level.ofAlternatives (alternativesFrom Piyathon.grammar true 0 Piyathon.grammar.rules)).answers
      true [o, p, q]
    List.Forall₂ (IsDue Piyathon.grammar true Piyathon.grammar.rules) [o, p, q] answers ∧
      answers.map (Option.map fun c => (c.alternative.rule, c.found.start.offset, c.found.span.size)) =
        [some (2, 2, 3), some (2, 2, 3), some (0, 10, 2)] := by
  intro o p q answers
  have hp : o.Reaches p := .pass (by decide)
  have hq : o.Reaches q := .pass (by decide)
  have hordered : [o, p, q].Pairwise fun p q => p.offset ≤ q.offset := by decide
  exact ⟨answers_least _ _ _ "x '''a''' #b" _ (by simpa using ⟨.refl o, hp, hq⟩) hordered, by decide +kernel⟩

end Scan

end Lexicolor
