import Snmpio.Lib.Runs
import Mathlib.Algebra.BigOperators.Group.List.Basic
import Mathlib.Algebra.GroupWithZero.Nat

/-
  What runs spend.

  A potential is a number that every state has in store.  If
  no step spends more than it takes from the store, and what
  comes in from outside is known, then neither does a run.

  Key definitions include:
    * `Machine.spent`
    * `Machine.Ranked`
    * `Machine.total`

  Key theorems include:
    * `Machine.run_amortized`
    * `Machine.inevitable_of_rank`
    * `Machine.Ranked.inevitable`
-/

------------------------------------------------------------
-- Costs of a Run
------------------------------------------------------------

namespace Machine

variable {σ ε : Type} {step : σ → ε → Option σ}

/- What the events cost, each in the state it happens in. -/
def spent
    (step : σ → ε → Option σ)
    (cost : σ → ε → Nat)
    (s : σ) :
    List ε → Nat
| [] => 0
| e :: rest =>
    cost s e +
      match step s e with
      | none => 0
      | some s' => spent step cost s' rest

theorem spent_concat
    {cost : σ → ε → Nat}
    {s m : σ}
    {events : List ε}
    (hRun : run step s events = some m)
    (e : ε) :
    spent step cost s (events ++ [e]) =
      spent step cost s events + cost m e := by
  induction events generalizing s with
  | nil =>
      cases hRun
      simp only [List.nil_append, spent, Nat.zero_add]
      split
      · rfl
      · rfl
  | cons first rest ih =>
      rcases run_cons.mp hRun with ⟨s₁, hFirst, hRest⟩
      simp only [List.cons_append, spent, hFirst, ih hRest,
        Nat.add_assoc]

/- What depends on the event alone is a sum over events. -/
theorem spent_eq_sum
    (cost : ε → Nat)
    {s s' : σ}
    {events : List ε}
    (hRun : run step s events = some s') :
    spent step (fun _ => cost) s events =
      (events.map cost).sum := by
  induction events generalizing s with
  | nil => rfl
  | cons first rest ih =>
      rcases run_cons.mp hRun with ⟨s₁, hFirst, hRest⟩
      simp only [spent, hFirst, ih hRest, List.map_cons,
        List.sum_cons]

/-
  If every step pays from the store and from what comes in,
  so does the whole run.
-/
theorem run_amortized
    (store : σ → Nat)
    (cost income : σ → ε → Nat)
    {s s' : σ}
    {events : List ε}
    (hPays :
      ∀ before e rest m m', events = before ++ e :: rest →
        run step s before = some m → step m e = some m' →
          cost m e + store m' ≤ store m + income m e)
    (hRun : run step s events = some s') :
    spent step cost s events + store s' ≤
      store s + spent step income s events := by
  induction events using List.reverseRecOn
    generalizing s' with
  | nil =>
      cases hRun
      simp [spent]
  | append_singleton events e ih =>
      rcases run_concat.mp hRun with ⟨m, hBefore, hStep⟩
      have hLast :=
        hPays events e [] m s' rfl hBefore hStep
      have hFirst := ih
        (fun before e' rest m m' hSplit =>
          hPays before e' (rest ++ [e]) m m' (by simp [hSplit]))
        hBefore
      rw [spent_concat hBefore, spent_concat hBefore]
      omega

/-
  If something can happen short of the goal, and whatever
  happens lowers a rank, then the goal is reached.
-/
theorem inevitable_of_rank
    {Goal : σ → Prop}
    {ok : σ → ε → Prop}
    (Holds : σ → Prop)
    (rank : σ → Nat)
    (hNext :
      ∀ s, Holds s → ¬ Goal s →
        ∃ e s', ok s e ∧ step s e = some s')
    (hKeeps :
      ∀ s e s', Holds s → ok s e → step s e = some s' →
        Holds s' ∧ rank s' < rank s)
    {s : σ}
    (hHolds : Holds s) :
    Inevitable step ok Goal s := by
  induction hRank : rank s using Nat.strongRecOn
    generalizing s with
  | ind n ih =>
      by_cases hGoal : Goal s
      · exact .here hGoal
      · refine .next (hNext s hHolds hGoal) ?_
        intro e s' hOk hStep
        rcases hKeeps s e s' hHolds hOk hStep with
          ⟨hHolds', hLess⟩
        exact ih (rank s') (hRank ▸ hLess) hHolds' rfl

/- Somebody takes a turn in the course of the events. -/
def TakesTurn
    (step : σ → ε → Option σ)
    (turn : σ → ε → Bool)
    (s : σ)
    (events : List ε) : Prop :=
  ∃ before e after m,
    events = before ++ e :: after ∧
      run step s before = some m ∧ turn m e = true

/- Events that give a turn, after which all rests. -/
def Gives
    (step : σ → ε → Option σ)
    (turn : σ → ε → Bool)
    (Rests : σ → Prop)
    (s : σ)
    (events : List ε) : Prop :=
  TakesTurn step turn s events ∧
    ∀ s', run step s events = some s' → Rests s'

theorem takesTurn_concat
    {turn : σ → ε → Bool}
    {s m : σ}
    {events : List ε}
    (hRun : run step s events = some m)
    (e : ε) :
    TakesTurn step turn s (events ++ [e]) ↔
      TakesTurn step turn s events ∨ turn m e = true := by
  constructor
  · rintro ⟨before, e', after, m', hEvents, hBefore, hTurn⟩
    rcases List.eq_nil_or_concat' after with
      rfl | ⟨rest, last, rfl⟩
    · rcases List.append_inj' hEvents rfl with ⟨rfl, hLast⟩
      cases hLast
      rw [hRun] at hBefore
      cases hBefore
      exact Or.inr hTurn
    · rw [← List.cons_append, ← List.append_assoc] at hEvents
      rcases List.append_inj' hEvents rfl with ⟨rfl, _⟩
      exact Or.inl ⟨before, e', rest, m', rfl, hBefore, hTurn⟩
  · rintro (⟨before, e', after, m', rfl, hRest⟩ | hTurn)
    · exact ⟨before, e', after ++ [e], m', by simp, hRest⟩
    · exact ⟨events, e, [], m, rfl, hRun, hTurn⟩

/- A turn lowers the count, and nothing else changes it. -/
def Counts
    (turn : Bool)
    (before after : Nat) : Prop :=
  (turn = true → after < before) ∧
    (turn = false → after = before)

theorem Counts.of_turn
    {turn : Bool}
    {before after : Nat}
    (hTurn : turn = true)
    (hLess : after < before) :
    Counts turn before after := by
  rw [hTurn]
  exact ⟨fun _ => hLess, nofun⟩

theorem Counts.of_other
    {turn : Bool}
    {before after : Nat}
    (hOther : turn = false)
    (hSame : after = before) :
    Counts turn before after := by
  rw [hOther]
  exact ⟨nofun, fun _ => hSame⟩

/-
  A rank that counts the turns: how far a run has come tells
  whether one was taken.
-/
structure Ranked
    (step : σ → ε → Option σ)
    (turn : σ → ε → Bool)
    (Holds : σ → Prop)
    (rank : σ → Nat) : Prop where
  keeps :
    ∀ s e s', Holds s → step s e = some s' → Holds s'
  counts :
    ∀ s e s', Holds s → step s e = some s' →
      Counts (turn s e) (rank s) (rank s')

theorem Ranked.run
    {turn : σ → ε → Bool}
    {Holds : σ → Prop}
    {rank : σ → Nat}
    (hRanked : Ranked step turn Holds rank)
    {s s' : σ}
    (hHolds : Holds s)
    {events : List ε}
    (hRun : run step s events = some s') :
    Holds s' ∧ rank s' ≤ rank s ∧
      (rank s' < rank s ↔ TakesTurn step turn s events) := by
  refine run_invariant
    (P := fun events s' => Holds s' ∧ rank s' ≤ rank s ∧
      (rank s' < rank s ↔ TakesTurn step turn s events))
    ⟨hHolds, Nat.le_refl _, ?_⟩ ?_ hRun
  · constructor
    · intro hLess
      exact absurd hLess (Nat.lt_irrefl _)
    · rintro ⟨before, e, after, _, hNil, _⟩
      simp at hNil
  · rintro events m e m' hBefore ⟨hThere, hLe, hIff⟩ hStep
    refine ⟨hRanked.keeps m e m' hThere hStep, ?_⟩
    rw [takesTurn_concat hBefore, ← hIff]
    have hCounts := hRanked.counts m e m' hThere hStep
    cases hTurn : turn m e with
    | true =>
        have hLess := hCounts.1 hTurn
        exact ⟨by omega, by simp; omega⟩
    | false =>
        have hSame := hCounts.2 hTurn
        exact ⟨by omega, by simp [hSame]⟩

/-
  If somebody can get to the goal from wherever all rests,
  then rounds in which they take a turn, and after which all
  rests again, lead there.
-/
theorem Ranked.inevitable
    {turn : σ → ε → Bool}
    {Holds Rests Goal : σ → Prop}
    {rank : σ → Nat}
    (hRanked : Ranked step turn Holds rank)
    (hGoal : ∀ s, Holds s → (Goal s ↔ rank s = 0))
    (hEnds :
      ∀ s, Holds s → Rests s →
        ∃ events s', Machine.run step s events = some s' ∧
          Goal s')
    {s : σ}
    (hHolds : Holds s)
    (hRests : Rests s) :
    Inevitable (Machine.run step)
      (Gives step turn (fun s => Rests s ∨ Goal s)) Goal s := by
  refine inevitable_of_rank
    (fun s => Holds s ∧ (Rests s ∨ Goal s)) rank ?_ ?_
    ⟨hHolds, Or.inl hRests⟩
  · rintro s ⟨hThere, hRests⟩ hNot
    rcases hEnds s hThere (hRests.resolve_right hNot) with
      ⟨events, s', hRun, hEnd⟩
    have hAfter := hRanked.run hThere hRun
    have hZero := (hGoal s' hAfter.1).mp hEnd
    have hLeft : rank s ≠ 0 :=
      fun hNone => hNot ((hGoal s hThere).mpr hNone)
    refine ⟨events, s', ⟨hAfter.2.2.mp (by omega), ?_⟩, hRun⟩
    intro s'' hSame
    rw [hRun] at hSame
    cases hSame
    exact Or.inr hEnd
  · rintro s events s' ⟨hThere, _⟩ ⟨hTurn, hRests'⟩ hRun
    have hAfter := hRanked.run hThere hRun
    exact ⟨⟨hAfter.1, hRests' s' hRun⟩,
      hAfter.2.2.mpr hTurn⟩

end Machine

------------------------------------------------------------
-- Totals
------------------------------------------------------------

namespace Machine

variable {α : Type}

/- What the members of a list have in store together. -/
def total
    (f : α → Nat)
    (l : List α) : Nat :=
  (l.map f).sum

theorem total_concat
    (f : α → Nat)
    (l : List α)
    (a : α) :
    total f (l ++ [a]) = total f l + f a := by
  simp [total]

theorem total_set
    (f : α → Nat)
    {l : List α}
    {i : Nat}
    {a : α}
    (hFound : l[i]? = some a)
    (b : α) :
    total f (l.set i b) + f a = total f l + f b := by
  induction l generalizing i with
  | nil => cases hFound
  | cons first rest ih =>
      cases i with
      | zero =>
          cases hFound
          simp only [List.set_cons_zero, total, List.map_cons,
            List.sum_cons]
          omega
      | succ i =>
          have hRest := ih (i := i) hFound
          simp only [total] at hRest
          simp only [List.set_cons_succ, total, List.map_cons,
            List.sum_cons]
          omega

/- Lists that agree place by place have the same total. -/
theorem total_congr
    {f : α → Nat}
    {l l' : List α}
    (hLength : l'.length = l.length)
    (hSame :
      ∀ (i : Nat) a', l'[i]? = some a' →
        ∃ a, l[i]? = some a ∧ f a' = f a) :
    total f l' = total f l := by
  unfold total
  congr 1
  refine List.ext_getElem? fun i => ?_
  rw [List.getElem?_map, List.getElem?_map]
  cases hFound : l'[i]? with
  | none =>
      rw [List.getElem?_eq_none_iff, hLength,
        ← List.getElem?_eq_none_iff] at hFound
      rw [hFound]
  | some a' =>
      rcases hSame i a' hFound with ⟨a, ha, hEq⟩
      rw [ha, Option.map_some, Option.map_some, hEq]

end Machine
