import Mathlib.Data.List.Induction

/-
  Runs of a machine.

  A machine is a step function that refuses the events that
  cannot happen.  Invariants may mention the events so far.

  Key definitions include:
    * `Machine.run`
    * `Machine.guarded`
    * `Machine.Inevitable`

  Key theorems include:
    * `Machine.run_invariant`
    * `Machine.run_of_guarded`
    * `Machine.exists_first`
    * `Machine.Inevitable.trans`
-/

------------------------------------------------------------
-- Runs
------------------------------------------------------------

namespace Machine

variable {σ ε : Type} (step : σ → ε → Option σ)

def run
    (s : σ)
    (events : List ε) : Option σ :=
  events.foldlM step s

/- The machine, kept to the steps that meet a condition. -/
def guarded
    (ok : σ → ε → Bool)
    (s : σ)
    (e : ε) : Option σ :=
  if ok s e then step s e else none

variable {step}

theorem run_concat
    {s s' : σ}
    {events : List ε}
    {e : ε} :
    run step s (events ++ [e]) = some s' ↔
      ∃ m, run step s events = some m ∧
        step m e = some s' := by
  rw [run, List.foldlM_append, Option.bind_eq_bind,
    Option.bind_eq_some_iff]
  simp only [run, List.foldlM_cons, List.foldlM_nil,
    Option.bind_eq_bind, Option.pure_def,
    Option.bind_fun_some]

theorem run_cons
    {s s' : σ}
    {e : ε}
    {events : List ε} :
    run step s (e :: events) = some s' ↔
      ∃ m, step s e = some m ∧
        run step m events = some s' := by
  rw [run, List.foldlM_cons, Option.bind_eq_bind,
    Option.bind_eq_some_iff]
  rfl

theorem run_append
    {s s' : σ}
    {first second : List ε} :
    run step s (first ++ second) = some s' ↔
      ∃ m, run step s first = some m ∧
        run step m second = some s' := by
  rw [run, List.foldlM_append, Option.bind_eq_bind,
    Option.bind_eq_some_iff]
  rfl

/- What holds at first and is kept by steps always holds. -/
theorem run_invariant
    {P : List ε → σ → Prop}
    {s₀ : σ}
    (hInit : P [] s₀)
    (hStep :
      ∀ events s e s',
        run step s₀ events = some s → P events s →
          step s e = some s' → P (events ++ [e]) s')
    {events : List ε}
    {s : σ}
    (hRun : run step s₀ events = some s) :
    P events s := by
  induction events using List.reverseRecOn generalizing s with
  | nil =>
      cases hRun
      exact hInit
  | append_singleton events e ih =>
      rcases run_concat.mp hRun with ⟨m, hBefore, hLast⟩
      exact hStep events m e s hBefore (ih hBefore) hLast

theorem guarded_eq_some
    {ok : σ → ε → Bool}
    {s s' : σ}
    {e : ε} :
    guarded step ok s e = some s' ↔
      ok s e = true ∧ step s e = some s' := by
  unfold guarded
  split
  · simp_all
  · simp_all

/- A condition that is always met is none. -/
theorem guarded_true
    (step : σ → ε → Option σ) :
    guarded step (fun _ _ => true) = step := by
  funext s e
  exact if_pos rfl

/- A run that meets a condition is a run. -/
theorem run_of_guarded
    {ok : σ → ε → Bool}
    {s₀ : σ}
    {events : List ε}
    {s : σ}
    (hRun : run (guarded step ok) s₀ events = some s) :
    run step s₀ events = some s := by
  refine run_invariant
    (P := fun events s => run step s₀ events = some s)
    rfl ?_ hRun
  intro events s e s' _ hBefore hStep
  exact run_concat.mpr
    ⟨s, hBefore, (guarded_eq_some.mp hStep).2⟩

/- A run of events that meet it anywhere meets it. -/
theorem guarded_of_run
    {ok : σ → ε → Bool}
    {events : List ε}
    (hOk : ∀ e ∈ events, ∀ s, ok s e = true)
    {s s' : σ}
    (hRun : run step s events = some s') :
    run (guarded step ok) s events = some s' := by
  induction events generalizing s with
  | nil => exact hRun
  | cons e rest ih =>
      rcases run_cons.mp hRun with ⟨m, hStep, hRest⟩
      rw [List.forall_mem_cons] at hOk
      exact run_cons.mpr
        ⟨m, guarded_eq_some.mpr ⟨hOk.1 s, hStep⟩,
          ih hOk.2 hRest⟩

/-
  What does not hold at first and holds in the end begins to
  hold at some step.
-/
theorem exists_first
    {Q : σ → Prop}
    {s₀ : σ}
    (hInit : ¬ Q s₀)
    {events : List ε}
    {s : σ}
    (hRun : run step s₀ events = some s)
    (hEnd : Q s) :
    ∃ before e rest s₁ s₂,
      events = before ++ e :: rest ∧
        run step s₀ before = some s₁ ∧ ¬ Q s₁ ∧
        step s₁ e = some s₂ ∧ Q s₂ := by
  revert hEnd
  refine run_invariant
    (P := fun events s => Q s →
      ∃ before e rest s₁ s₂,
        events = before ++ e :: rest ∧
          run step s₀ before = some s₁ ∧ ¬ Q s₁ ∧
          step s₁ e = some s₂ ∧ Q s₂)
    (fun hQ => absurd hQ hInit) ?_ hRun
  intro events s e s' hBefore ih hStep hQ
  by_cases hQs : Q s
  · rcases ih hQs with
      ⟨before, e', rest, s₁, s₂, rfl, hFirst⟩
    exact ⟨before, e', rest ++ [e], s₁, s₂,
      by simp, hFirst⟩
  · exact ⟨events, e, [], s, s', rfl, hBefore, hQs, hStep,
      hQ⟩

end Machine

------------------------------------------------------------
-- What Has to Happen
------------------------------------------------------------

namespace Machine

variable {σ ε : Type}

/-
  Whatever happens, as long as it is allowed, leads to `P`,
  and before that something can always happen.
-/
inductive Inevitable
    (step : σ → ε → Option σ)
    (ok : σ → ε → Prop)
    (P : σ → Prop) :
    σ → Prop where
  | here
      {s : σ}
      (hHere : P s) :
      Inevitable step ok P s
  | next
      {s : σ}
      (hEnabled : ∃ e s', ok s e ∧ step s e = some s')
      (hAll :
        ∀ e s', ok s e → step s e = some s' →
          Inevitable step ok P s') :
      Inevitable step ok P s

variable {step : σ → ε → Option σ} {ok : σ → ε → Prop}
variable {P Q : σ → Prop}

theorem Inevitable.trans
    {s : σ}
    (hFirst : Inevitable step ok P s)
    (hThen : ∀ s, P s → Inevitable step ok Q s) :
    Inevitable step ok Q s := by
  induction hFirst with
  | here hHere => exact hThen _ hHere
  | next hEnabled _ ih =>
      exact .next hEnabled ih

/- Where only one thing can happen, it does. -/
theorem Inevitable.only
    {s s' : σ}
    {e : ε}
    (hOk : ok s e)
    (hStep : step s e = some s')
    (hOnly : ∀ e' m, ok s e' → step s e' = some m → e' = e)
    (hThen : Inevitable step ok P s') :
    Inevitable step ok P s := by
  refine .next ⟨e, s', hOk, hStep⟩ ?_
  intro e' m hOk' hStep'
  cases hOnly e' m hOk' hStep'
  rw [hStep] at hStep'
  cases hStep'
  exact hThen

end Machine
