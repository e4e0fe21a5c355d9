import Snmpio.Lib.Runs

/-
  Runs and what is left of them in a log.

  A machine writes a log of what is seen of its steps.  If
  each step changes an abstract state as the log does, then
  the abstract state of a run is the replay of its log.

  Key definitions include:
    * `Machine.observed`

  Key theorems include:
    * `Machine.observed_concat`
    * `Machine.mem_observed`
    * `Machine.run_replays`
-/

------------------------------------------------------------
-- Replays
------------------------------------------------------------

namespace Machine

variable {σ ε ο α : Type} {step : σ → ε → Option σ}
variable {see : σ → ε → List ο} {s₀ s : σ} {events : List ε}

/- What is seen of a run, event by event. -/
def observed
    (step : σ → ε → Option σ)
    (see : σ → ε → List ο)
    (s : σ) :
    List ε → List ο
| [] => []
| e :: rest =>
    see s e ++
      match step s e with
      | none => []
      | some s' => observed step see s' rest

/- The log of a run is extended by what its next step shows. -/
theorem observed_concat
    (hRun : run step s₀ events = some s)
    (e : ε) :
    observed step see s₀ (events ++ [e]) =
      observed step see s₀ events ++ see s e := by
  induction events generalizing s₀ with
  | nil =>
      cases hRun
      simp only [List.nil_append, observed]
      split
      · simp
      · simp
  | cons first rest ih =>
      rcases run_cons.mp hRun with ⟨m, hFirst, hRest⟩
      simp only [List.cons_append, observed, hFirst,
        ih hRest, List.append_assoc]

/- What is in the log was seen of a step. -/
theorem mem_observed
    (hRun : run step s₀ events = some s)
    {o : ο}
    (hSeen : o ∈ observed step see s₀ events) :
    ∃ before e after m,
      events = before ++ e :: after ∧
        run step s₀ before = some m ∧ o ∈ see m e := by
  induction events using List.reverseRecOn
    generalizing s with
  | nil => cases hSeen
  | append_singleton events e ih =>
      rcases run_concat.mp hRun with ⟨m, hBefore, _⟩
      rw [observed_concat hBefore] at hSeen
      rcases List.mem_append.mp hSeen with hEarlier | hLast
      · rcases ih hBefore hEarlier with
          ⟨before, e', after, m', rfl, hFirst, hThere⟩
        exact ⟨before, e', after ++ [e], m', by simp, hFirst,
          hThere⟩
      · exact ⟨events, e, [], m, rfl, hBefore, hLast⟩

/- What each step does to the abstract state, a run does. -/
theorem run_replays
    (abstract : σ → α)
    (apply : α → ο → α)
    (hStep :
      ∀ before s e s', run step s₀ before = some s →
        step s e = some s' →
          abstract s' =
            (see s e).foldl apply (abstract s))
    (hRun : run step s₀ events = some s) :
    abstract s =
      (observed step see s₀ events).foldl apply
        (abstract s₀) := by
  induction events using List.reverseRecOn
    generalizing s with
  | nil =>
      cases hRun
      rfl
  | append_singleton events e ih =>
      rcases run_concat.mp hRun with ⟨m, hBefore, hLast⟩
      rw [observed_concat hBefore, List.foldl_append,
        ← ih hBefore]
      exact hStep events m e s hBefore hLast

end Machine
