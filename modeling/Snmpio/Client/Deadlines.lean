import Snmpio.Client.Failures

/-
  When an exchange is given up.

  Nothing shortens the wait for a reply but a reply that is
  accepted, a cancellation, Stopping, or a fault of a send.
  An exchange that is given up for none of these has sent
  all its copies and waited the whole timeout for each, as
  the timer counts it and while the clock lasts.  So a
  request that completes with `Timeout` can name such an
  exchange, of its own or of a discovery of its endpoint.

  Key definitions include:
    * `Excused`
    * `Due`
    * `WaitedOut`

  Key theorems include:
    * `Due.afterSend`, `Due.afterWait`
    * `scheduled_of_run`
    * `timeouts_waited_out`
-/

------------------------------------------------------------
-- Schedules
------------------------------------------------------------

namespace Snmpio

variable {ssl : OpenSsl} {c c' : Client} {task task' : Task}
variable {t : Nat} {target : Target} {x : Exchange}
variable {start now : Int} {sends : Nat} {excused : Prop}

/- How long a copy is waited for, by the timer. -/
def Target.span
    (target : Target) : Int :=
  nanoseconds target.timeout

/- An exchange need not wait for its deadline. -/
def Excused
    (c : Client)
    (task : Task)
    (ref : Nat) : Prop :=
  c.stopping = true ∨ task.cancelled ≠ {} ∨
    ∃ p, c.pendings[ref]? = some p ∧ p.answered = true

/-
  How long an exchange has lasted at least, that began at
  `start` and has sent so many copies.
-/
inductive Due
    (target : Target)
    (start : Int)
    (sends : Nat)
    (now : Int)
    (excused : Prop) :
    Point → Prop where
  | entering
      {x : Exchange}
      (hAttempt : x.attempt = 0)
      (hSends : sends = 0)
      (hPast : start ≤ now) :
      Due target start sends now excused (.entering x)
  | sending
      {x : Exchange}
      (hAttempt : x.attempt.toInt = sends)
      (hMore : (sends : Int) ≤ target.retries.toInt)
      (hPast : start + sends * target.span ≤ now) :
      Due target start sends now excused (.sending x)
  | waiting
      {x : Exchange}
      {deadline : Int}
      {soft woken : Bool}
      (hAttempt : x.attempt.toInt + 1 = sends)
      (hMore : (sends : Int) ≤ target.retries.toInt + 1)
      (hDeadline :
        min clockEnd (start + sends * target.span) ≤
          deadline)
      (hWoken : woken = true → excused ∨ deadline ≤ now)
      (hSoft : soft = true → excused) :
      Due target start sends now excused
        (.waiting x deadline soft woken)
  | leaving
      {x : Exchange}
      (hDone :
        excused ∨ x.ec.isSome = true ∨
          ((sends : Int) = target.attempts ∧
            start + target.attempts * target.span ≤ now)) :
      Due target start sends now excused (.leaving x)
  | returned
      (x : Exchange)
      (ec : Option Failure) :
      Due target start sends now excused (.returned x ec)

theorem Due.later
    {later : Int}
    {excused' : Prop}
    {point : Point}
    (hDue : Due target start sends now excused point)
    (hLater : now ≤ later)
    (hStill : excused → excused') :
    Due target start sends later excused' point := by
  cases hDue with
  | entering hAttempt hSends hPast =>
      exact .entering hAttempt hSends (hPast.trans hLater)
  | sending hAttempt hMore hPast =>
      exact .sending hAttempt hMore (hPast.trans hLater)
  | waiting hAttempt hMore hDeadline hWoken hSoft =>
      refine .waiting hAttempt hMore hDeadline ?_ ?_
      · intro hOver
        rcases hWoken hOver with hExcused | hPast
        · exact Or.inl (hStill hExcused)
        · exact Or.inr (hPast.trans hLater)
      · intro hQuiet
        exact hStill (hSoft hQuiet)
  | leaving hDone =>
      refine .leaving ?_
      rcases hDone with hExcused | hFault | ⟨hSent, hPast⟩
      · exact Or.inl (hStill hExcused)
      · exact Or.inr (Or.inl hFault)
      · exact Or.inr (Or.inr ⟨hSent, hPast.trans hLater⟩)
  | returned x ec => exact .returned x ec

/- The head of the loop over the attempts. -/
theorem Due.attempt
    (hAttempt : x.attempt.toInt = sends)
    (hReached :
      sends = 0 ∨ (sends : Int) ≤ target.retries.toInt + 1)
    (hPast : start + sends * target.span ≤ now) :
    Due target start sends now excused
      (attemptPoint target x) := by
  unfold attemptPoint
  split
  · next hMore =>
    rw [Int32.le_iff_toInt_le, hAttempt] at hMore
    exact .sending hAttempt hMore hPast
  · next hLast =>
    rw [Int32.le_iff_toInt_le, hAttempt] at hLast
    have hAll : (sends : Int) = target.attempts := by
      unfold Target.attempts
      omega
    rw [hAll] at hPast
    exact .leaving (Or.inr (Or.inr ⟨hAll, hPast⟩))

theorem Due.enter
    (hDue : Due target start sends now excused (.entering x)) :
    Due target start sends now excused
      (attemptPoint target x) := by
  cases hDue with
  | entering hAttempt hSends hPast =>
      subst hSends
      refine Due.attempt ?_ (Or.inl rfl) (by simpa using hPast)
      rw [hAttempt]
      rfl

/- A copy more is on its way, and the timer is armed. -/
theorem Due.afterSend
    (hDue :
      Due task.target start sends c.now
        (Excused c task x.pending) (.sending x)) :
    Due task.target start (sends + 1) c.now
      (Excused c task x.pending)
      (afterSend c task { x with ec := none }) := by
  cases hDue with
  | sending hAttempt hMore hPast =>
      unfold Snmpio.afterSend
      split
      · next hLeaves =>
        have hStopping : c.stopping = true := by
          simpa using hLeaves
        exact .leaving (Or.inl (Or.inl hStopping))
      · refine .waiting ?_ ?_ ?_ nofun nofun
        · push_cast
          rw [← hAttempt]
        · push_cast
          omega
        · refine le_trans ?_ (le_max_right _ _)
          refine min_le_min_left clockEnd ?_
          push_cast
          rw [add_mul, one_mul, ← add_assoc]
          exact add_le_add_left hPast task.target.span

/- A fault of a send ends it. -/
theorem Due.afterFault
    (error : SystemError) :
    Due task.target start sends now excused
      (Snmpio.afterSend c task
        { x with ec := some error }) := by
  unfold Snmpio.afterSend
  simp only [Option.isSome_some, true_or, if_true]
  exact .leaving (Or.inr (Or.inl rfl))

/- The wait is over, by its deadline unless excused. -/
theorem Due.afterWait
    {deadline : Int}
    {soft : Bool}
    {p : Pending}
    (hDue :
      Due task.target start sends c.now
        (Excused c task x.pending)
        (.waiting x deadline soft true))
    (hRetries : task.target.retries ≠ Int32.maxValue)
    (hClock : c.now < clockEnd)
    (hp : c.pendings[x.pending]? = some p) :
    Due task.target start sends c.now
      (Excused c task x.pending)
      (afterWait c task x deadline soft p) := by
  cases hDue with
  | waiting hAttempt hMore hDeadline hWoken hSoft =>
      unfold Snmpio.afterWait
      split
      · next hLeaves =>
        refine .leaving (Or.inl ?_)
        rcases hLeaves with hQuiet | hAnswered | hStops | hEnds
        · exact hSoft hQuiet
        · exact Or.inr (Or.inr ⟨p, hp, hAnswered⟩)
        · exact Or.inl hStops
        · refine Or.inr (Or.inl ?_)
          intro hNone
          rw [hNone] at hEnds
          cases hEnds
      · next hStays =>
        split
        · next hTotal =>
          refine .waiting hAttempt hMore hDeadline nofun ?_
          intro _
          refine Or.inr (Or.inl ?_)
          intro hNone
          rw [hNone] at hTotal
          cases hTotal
        · next hUntouched =>
          simp only [not_or, Bool.not_eq_true] at hStays
          have hPast : deadline ≤ c.now := by
            rcases hWoken rfl with hExcused | hPast
            · exfalso
              rcases hExcused with hStops | hEnds | hAnswered
              · rw [hStays.2.2.1] at hStops
                cases hStops
              · apply hEnds
                rw [Bool.not_eq_true] at hUntouched
                have hTerminal := hStays.2.2.2
                generalize task.cancelled = cancelled
                  at hTerminal hUntouched
                cases cancelled
                simp_all
              · rcases hAnswered with ⟨q, hq, hAnswered⟩
                rw [hp] at hq
                cases hq
                rw [hStays.2.1] at hAnswered
                cases hAnswered
            · exact hPast
          have hRange : x.attempt ≤ task.target.retries := by
            rw [Int32.le_iff_toInt_le]
            omega
          refine Due.attempt ?_ (Or.inr hMore) ?_
          · rw [← hAttempt]
            exact Exchange.again_attempt hRange hRetries
          · -- The clock has not run out, so it was the sum.
            have hReached := hDeadline.trans hPast
            rcases min_le_iff.mp hReached with hEnd | hSum
            · omega
            · exact hSum

end Snmpio

------------------------------------------------------------
-- Exchanges in a Run
------------------------------------------------------------

namespace Snmpio

variable {ssl : OpenSsl} {id : Int32} {now : Int}
variable {events : List Event} {c c' : Client}
variable {task task' : Task} {t : Nat} {x : Exchange}
variable {e : Event} {ref : Nat} {x' : Exchange}

theorem step_now
    (hStep : step ssl c e = some c') :
    c.now ≤ c'.now := by
  by_cases hStop : e = .stop
  · subst hStop
    cases hStep
    exact le_refl c.now
  · exact (step_flags hStep hStop).2.2.1

theorem run_now
    {s : Client}
    (hRun : Machine.run (step ssl) c events = some s) :
    c.now ≤ s.now := by
  refine Machine.run_invariant
    (P := fun _ s => c.now ≤ s.now) (le_refl c.now) ?_ hRun
  intro events m e m' _ hBefore hStep
  exact hBefore.trans (step_now hStep)

/- An excuse stays one. -/
theorem Excused.step
    (hExcused : Excused c task ref)
    (hStep : Snmpio.step ssl c e = some c')
    (hSame : task'.cancelled = task.cancelled) :
    Excused c' task' ref := by
  rcases hExcused with hStops | hEnds | ⟨p, hp, hAnswered⟩
  · left
    by_contra hGoing
    rw [Bool.not_eq_true] at hGoing
    rw [step_stopping hStep hGoing] at hStops
    cases hStops
  · exact Or.inr (Or.inl (hSame ▸ hEnds))
  · right
    right
    rcases step_pending hStep hp with ⟨p', hp', hOpen⟩
    refine ⟨p', hp', ?_⟩
    by_contra hNot
    rw [Bool.not_eq_true] at hNot
    rw [(hOpen hNot).1] at hAnswered
    cases hAnswered

/-
  The exchange of a coroutine began at a place in the run,
  and has kept its schedule since.
-/
def Scheduled
    (ssl : OpenSsl)
    (id : Int32)
    (now : Int)
    (events : List Event)
    (c : Client)
    (t : Nat)
    (task : Task)
    (ref : Nat) : Prop :=
  ∃ (before during : List Event) (c₁ : Client) (first : Task)
      (x : Exchange),
    events = before ++ during ∧
      Machine.run (step ssl) (fresh id now) before =
        some c₁ ∧
      c₁.tasks[t]? = some first ∧
      first.point = .entering x ∧ x.pending = ref ∧
      first.work = task.work ∧ first.target = task.target ∧
      Due task.target c₁.now (during.count (.sent t none))
        c.now (Excused c task ref) task.point

/- It goes on with the schedule, a step later. -/
theorem Scheduled.step
    (hScheduled :
      Scheduled ssl id now events c t task ref)
    (hWork : task'.work = task.work)
    (hTarget : task'.target = task.target)
    (hDue :
      ∀ start sends,
        Due task.target start sends c.now
            (Excused c task ref) task.point →
          Due task.target start
            (sends + [e].count (.sent t none)) c'.now
            (Excused c' task' ref) task'.point) :
    Scheduled ssl id now (events ++ [e]) c' t task' ref := by
  rcases hScheduled with
    ⟨before, during, c₁, first, x, rfl, hBefore, hFirst,
      hEntering, hRef, hSameWork, hSameTarget, hKept⟩
  refine ⟨before, during ++ [e], c₁, first, x,
    List.append_assoc _ _ _, hBefore, hFirst, hEntering, hRef,
    hSameWork.trans hWork.symm,
    hSameTarget.trans hTarget.symm, ?_⟩
  rw [hTarget, List.count_append]
  exact hDue _ _ hKept

/- What is no send of the coroutine adds no copy. -/
theorem Scheduled.keep
    (hScheduled :
      Scheduled ssl id now events c t task ref)
    (hWork : task'.work = task.work)
    (hTarget : task'.target = task.target)
    (hOther : e ≠ .sent t none)
    (hDue :
      ∀ start sends,
        Due task.target start sends c.now
            (Excused c task ref) task.point →
          Due task.target start sends c'.now
            (Excused c' task' ref) task'.point) :
    Scheduled ssl id now (events ++ [e]) c' t task' ref := by
  refine hScheduled.step hWork hTarget ?_
  intro start sends hKept
  rw [List.count_singleton, if_neg (by simpa using hOther)]
  exact hDue start sends hKept

/- Whatever ends a wait early is an excuse. -/
theorem Due.wake
    {target : Target}
    {start : Int}
    {sends : Nat}
    {excused : Prop}
    {point : Point}
    (hDue : Due target start sends now excused point)
    (hOver :
      ∀ x deadline soft woken,
        point = .waiting x deadline soft woken →
          excused ∨ deadline ≤ now) :
    Due target start sends now excused point.wake := by
  cases hDue with
  | waiting hAttempt hMore hDeadline _ hSoft =>
      exact .waiting hAttempt hMore hDeadline
        (fun _ => hOver _ _ _ _ rfl) hSoft
  | entering hAttempt hSends hPast =>
      exact .entering hAttempt hSends hPast
  | sending hAttempt hMore hPast =>
      exact .sending hAttempt hMore hPast
  | leaving hDone => exact .leaving hDone
  | returned x ec => exact .returned x ec

theorem Woken.due
    {deadline : Int}
    {soft woken : Bool}
    (hWoken : Woken ssl c t task e)
    (hPoint : task.point = .waiting x deadline soft woken)
    (hRun :
      Machine.run (step ssl) (fresh id now) events = some c)
    (hStep : step ssl c e = some c') :
    Excused c' task x.pending ∨ deadline ≤ c'.now := by
  cases hWoken with
  | expired hFound hPast =>
      rw [hPoint] at hFound
      cases hFound
      exact Or.inr (hPast.trans (step_now hStep))
  | answered hRoute hTimer =>
      rw [hPoint] at hTimer
      cases hTimer
      exact Or.inl
        (Or.inr (Or.inr (answered_of_accepted hStep hRoute)))
  | finished hTimer =>
      rw [hPoint] at hTimer
      cases hTimer
  | stopped hCleanup =>
      have hStopping : Excused c task x.pending :=
        Or.inl (cleanup_stopping hRun hCleanup)
      exact Or.inl (hStopping.step hStep rfl)

theorem Scheduled.moved
    {out : Outside}
    {spawned : Option Task}
    {c₁ : Client}
    (hRun :
      Machine.run (Snmpio.step ssl) (fresh id now) events = some c)
    (hAll :
      ∀ x, task.point.exchange? = some x →
        Scheduled ssl id now events c t task x.pending)
    (hMove : Move ssl out c task c₁ task' spawned)
    (hStep : Snmpio.step ssl c (.advance out) = some c')
    (hTask' : c'.tasks[t]? = some task')
    (hx' : task'.point.exchange? = some x') :
    Scheduled ssl id now (events ++ [.advance out]) c' t task'
      x'.pending := by
  have hLater := step_now hStep
  cases hMove.turn with
  | outside _ _ _ _ hAfter =>
      rw [hAfter] at hx'
      cases hx'
  | opened _ _ _ _ hPoint _ _ hUnsent _ =>
      have hBegun := Machine.run_concat.mpr ⟨c, hRun, hStep⟩
      rw [hPoint] at hx'
      cases hx'
      refine ⟨events ++ [.advance out], [], c', task', x',
        (List.append_nil _).symm, hBegun, hTask', hPoint, rfl,
        rfl, rfl, ?_⟩
      rw [hPoint]
      exact .entering hUnsent.1 rfl (le_refl c'.now)
  | @refused x ec hPoint =>
      have hBefore := hAll x (by rw [hPoint]; rfl)
      cases hx'
      refine hBefore.keep rfl rfl (by simp) ?_
      intro start sends _
      exact .returned x' (some ec)
  | registered hPoint _ _ _ _ =>
      rw [Task.goto, attemptPoint_exchange?] at hx'
      cases hx'
      have hBefore := hAll x' (by rw [hPoint]; rfl)
      refine hBefore.keep rfl rfl (by simp) ?_
      intro start sends hDue
      rw [hPoint] at hDue
      exact hDue.enter.later hLater
        (fun hExcused => hExcused.step hStep rfl)
  | @left x p hPoint _ =>
      have hBefore := hAll x (by rw [hPoint]; rfl)
      cases hx'
      refine hBefore.keep rfl rfl (by simp) ?_
      intro start sends _
      exact .returned x' _

theorem Scheduled.resumed
    {point : Point}
    (hRetries : task.target.retries ≠ Int32.maxValue)
    (hClock : c.now < clockEnd)
    (hAll :
      ∀ x, task.point.exchange? = some x →
        Scheduled ssl id now events c t task x.pending)
    (hResumes : Resumes c t task e point)
    (hStep : Snmpio.step ssl c e = some c')
    (hx' : point.exchange? = some x') :
    Scheduled ssl id now (events ++ [e]) c' t
      (task.goto point) x'.pending := by
  have hLater := step_now hStep
  have hSame :
      ∀ {x : Exchange}, task.point.exchange? = some x →
        x'.pending = x.pending := by
    intro x hx
    rcases hResumes.sameExchange.exchange x' hx' with
      ⟨z, hz, _, _, hRef⟩
    rw [hx] at hz
    cases hz
    exact hRef
  cases hResumes with
  | @sent x ec hPoint =>
      have hx : task.point.exchange? = some x := by
        rw [hPoint]
        rfl
      rw [hSame hx]
      cases ec with
      | none =>
          refine (hAll x hx).step rfl rfl ?_
          intro start sends hDue
          rw [List.count_singleton_self]
          rw [hPoint] at hDue
          exact hDue.afterSend.later hLater
            (fun hExcused => hExcused.step hStep rfl)
      | some error =>
          refine (hAll x hx).keep rfl rfl (by simp) ?_
          intro start sends _
          exact Due.afterFault (c := c) error
  | @waited x deadline soft p hPoint hp =>
      have hx : task.point.exchange? = some x := by
        rw [hPoint]
        rfl
      rw [hSame hx]
      refine (hAll x hx).keep rfl rfl nofun ?_
      intro start sends hDue
      rw [hPoint] at hDue
      exact (hDue.afterWait hRetries hClock hp).later hLater
        (fun hExcused => hExcused.step hStep rfl)
  | unparked hPoint hd =>
      unfold afterPark at hx'
      split_ifs at hx'
      all_goals cases hx'

theorem scheduled_step
    (hRun :
      Machine.run (step ssl) (fresh id now) events = some c)
    (hRetries :
      ∀ (t : Nat) (task : Task), c.tasks[t]? = some task →
        task.target.retries ≠ Int32.maxValue)
    (hClock : c.now < clockEnd)
    (hAll :
      ∀ (t : Nat) (task : Task) (x : Exchange),
        c.tasks[t]? = some task →
        task.point.exchange? = some x →
          Scheduled ssl id now events c t task x.pending)
    (hStep : step ssl c e = some c')
    (hTask' : c'.tasks[t]? = some task')
    (hx' : task'.point.exchange? = some x') :
    Scheduled ssl id now (events ++ [e]) c' t task'
      x'.pending := by
  have hLater := step_now hStep
  cases step_task hStep hTask' with
  | moved _ hTask hMove =>
      exact Scheduled.moved hRun
        (fun x hx => hAll t _ x hTask hx) hMove hStep hTask' hx'
  | spawned _ _ hMove _ =>
      rcases hMove.spawned_eq rfl with ⟨creds, rfl⟩
      cases hx'
  | requested _ _ => cases hx'
  | resumed _ hTask hResumes =>
      exact Scheduled.resumed (hRetries t _ hTask) hClock
        (fun x hx => hAll t _ x hTask hx) hResumes hStep hx'
  | raised _ _ _ => cases hx'
  | @signalled kind task cancelled _ hTask _ hCancelled =>
      have hExcused :
          Excused c'
            { task with
              cancelled := cancelled
              point := task.point.signalled } x'.pending :=
        Or.inr (Or.inl hCancelled)
      have hx : task.point.exchange? = some x' := by
        rw [← Point.signalled_congr Point.wake_exchange?]
        exact hx'
      refine (hAll t task x' hTask hx).keep rfl rfl nofun ?_
      intro start sends hDue
      have hStill := hDue.later hLater (fun _ => hExcused)
      rcases signalled_cases task.point with hSame | hWake
      · exact hSame.symm ▸ hStill
      · exact hWake.symm ▸
          hStill.wake (fun _ _ _ _ _ => Or.inl hExcused)
  | @woken _ task hTask hWoken hOther =>
      have hx : task.point.exchange? = some x' := by
        rw [← Point.wake_exchange?]
        exact hx'
      refine (hAll t task x' hTask hx).keep rfl rfl ?_ ?_
      · rintro rfl
        exact hOther rfl
      · intro start sends hDue
        refine (hDue.later hLater
          (fun hExcused => hExcused.step hStep rfl)).wake ?_
        intro y deadline soft woken hPoint
        rw [hPoint] at hx
        cases hx
        exact hWoken.due hPoint hRun hStep
  | kept hTask hOther =>
      refine (hAll t task' x' hTask hx').keep rfl rfl ?_ ?_
      · rintro rfl
        exact hOther rfl
      · intro start sends hDue
        exact hDue.later hLater
          (fun hExcused => hExcused.step hStep rfl)

/- Every exchange keeps its schedule. -/
theorem scheduled_of_run
    (hRun :
      Machine.run (step ssl) (fresh id now) events = some c)
    (hExhaustible : Exhaustible events)
    (hClock : c.now < clockEnd)
    (hTask : c.tasks[t]? = some task)
    (hx : task.point.exchange? = some x) :
    Scheduled ssl id now events c t task x.pending := by
  refine Machine.run_invariant
    (P := fun events c => Exhaustible events →
      c.now < clockEnd → ∀ (t : Nat) (task : Task) (x : Exchange),
        c.tasks[t]? = some task →
        task.point.exchange? = some x →
          Scheduled ssl id now events c t task x.pending)
    ?_ ?_ hRun hExhaustible hClock t task x hTask hx
  · intro _ _ t task x hTask
    cases hTask
  · intro events c e c' hBefore ih hStep hExhaustible hClock t
      task' x' hTask' hx'
    have hSooner : c.now < clockEnd :=
      lt_of_le_of_lt (step_now hStep) hClock
    have hEarlier : Exhaustible events := by
      intro target auth pdu hMem
      exact hExhaustible target auth pdu
        (List.mem_append_left _ hMem)
    refine scheduled_step hBefore ?_ hSooner
      (ih hEarlier hSooner) hStep hTask' hx'
    intro t task hTask
    rcases requested_of_run hBefore hTask with
      ⟨auth, pdu, hMem⟩
    exact hEarlier task.target auth pdu hMem

end Snmpio

------------------------------------------------------------
-- Timeouts
------------------------------------------------------------

namespace Snmpio

variable {ssl : OpenSsl} {id : Int32} {now : Int}
variable {events : List Event} {c c' : Client}
variable {task task' : Task} {t : Nat} {e : Errc}

/- The errors that nothing but a lack of replies makes. -/
def Errc.isOfSilence :
    Errc → Bool
| timeout => true
| decryptionFailed => true
| _ => false

theorem Errc.isLocal_of_silence
    (hSilence : e.isOfSilence = true) :
    e.isLocal = false := by
  cases e with
  | timeout => rfl
  | decryptionFailed => rfl
  | _ => cases hSilence

theorem reportError_isOfSilence
    (counter : Option UInt32) :
    (reportError counter).isOfSilence = false := by
  unfold reportError
  split
  · rfl
  · split_ifs
    all_goals rfl

/- They come up where an exchange is given up. -/
theorem Arises.of_silence
    {event : Event}
    (hArises : Arises ssl c event task e)
    (hSilence : e.isOfSilence = true) :
    ∃ x p, task.point = .leaving x ∧
      c.pendings[x.pending]? = some p ∧
      p.dropReason.getD .timeout = e ∧
      x.ec = none ∧ ¬ Excused c task x.pending := by
  have hNotLocal := Errc.isLocal_of_silence hSilence
  have hNever (hLocal : e.isLocal = true) : False := by
    rw [hNotLocal] at hLocal
    cases hLocal
  cases hArises with
  | unencodable _ _ hEncoded =>
      rw [encodeV2cMessage_eq] at hEncoded
      split at hEncoded
      · cases hEncoded
      · cases hEncoded
        cases hSilence
  | keys _ _ hKeys =>
      exact (hNever (requestKeys_local ssl _ _ _ _ hKeys)).elim
  | encoding _ _ _ _ hEncoded =>
      exact (hNever (encodeV3Message_local ssl _ _ _ _ _ _ _ _
        _ hEncoded)).elim
  | reported _ _ _ =>
      rw [reportError_isOfSilence] at hSilence
      cases hSilence
  | @unanswered x p hPoint hp hOpen hEc hCancelled hStopping =>
      refine ⟨x, p, hPoint, hp, rfl, hEc, ?_⟩
      rintro (hStops | hEnds | ⟨q, hq, hAnswered⟩)
      · rw [hStopping] at hStops
        cases hStops
      · exact hEnds hCancelled
      · rw [hp] at hq
        cases hq
        rw [hOpen] at hAnswered
        cases hAnswered
  | _ => cases hSilence

/-
  In the run, an exchange has begun at `c₁` and is given up
  at `c₂`: in between, as many copies were sent as there are
  attempts, and as many timeouts have passed, and no reply
  to it was accepted.  The reason it was left with, if any,
  is the error.
-/
def WaitedOut
    (ssl : OpenSsl)
    (id : Int32)
    (now : Int)
    (events : List Event)
    (t : Nat)
    (task : Task)
    (e : Errc) : Prop :=
  ∃ (before during after : List Event) (c₁ c₂ : Client)
      (i : Nat) (first : Task) (x : Exchange) (p : Pending),
    events = before ++ during ++ after ∧
      Machine.run (step ssl) (fresh id now) before =
        some c₁ ∧
      Machine.run (step ssl) c₁ during = some c₂ ∧
      c₁.tasks[i]? = some first ∧
      first.point = .entering x ∧
      task.Origin anyCredentials t i first ∧
      (during.count (.sent i none) : Int) =
        first.target.attempts ∧
      c₁.now + first.target.attempts * first.target.span ≤
        c₂.now ∧
      c₂.pendings[x.pending]? = some p ∧
      p.answered = false ∧
      p.dropReason = if e = .timeout then none else some e

/- Reasons are not timeouts. -/
theorem dropReason_of_silence
    {p : Pending}
    {ref : Nat}
    (hDrops : DropsKnown ssl id now events c)
    (hp : c.pendings[ref]? = some p)
    (hError : p.dropReason.getD .timeout = e) :
    p.dropReason = if e = .timeout then none else some e := by
  cases hReason : p.dropReason with
  | none =>
      rw [hReason] at hError
      cases hError
      rfl
  | some reason =>
      rw [hReason] at hError
      cases hError
      have hListed := (hDrops ref p reason hp hReason).listed.2
      rw [if_neg]
      · rfl
      · rintro rfl
        cases hListed

theorem ArisesIn.waitedOut
    (hArises :
      ArisesIn anyCredentials ssl id now events t task e)
    (hRun :
      Machine.run (step ssl) (fresh id now) events = some c)
    (hExhaustible : Exhaustible events)
    (hClock : c.now < clockEnd)
    (hSilence : e.isOfSilence = true) :
    WaitedOut ssl id now events t task e := by
  rcases hArises with
    ⟨earlier, event, after, c₂, i, origin, rfl, hOrigin,
      hUntil, hFound, _, hArises⟩
  have hSooner : c₂.now < clockEnd := by
    rcases Machine.run_append.mp hRun with ⟨m, hM, hRest⟩
    rw [hUntil] at hM
    cases hM
    exact lt_of_le_of_lt (run_now hRest) hClock
  rcases hArises.of_silence hSilence with
    ⟨x, p, hPoint, hp, hError, hEc, hNoExcuse⟩
  have hEarlier : Exhaustible earlier := by
    intro target auth pdu hMem
    exact hExhaustible target auth pdu
      (List.mem_append_left _ hMem)
  rcases scheduled_of_run hUntil hEarlier hSooner hFound
    (by rw [hPoint]; rfl) with
    ⟨before, during, c₁, first, x₁, rfl, hBefore, hFirst,
      hEntering, hRef, hWork, hTarget, hDue⟩
  rcases Machine.run_append.mp hUntil with ⟨m, hM, hDuring⟩
  rw [hBefore] at hM
  cases hM
  have hOpen : p.answered = false := by
    by_contra hAnswered
    rw [Bool.not_eq_false] at hAnswered
    exact hNoExcuse (Or.inr (Or.inr ⟨p, hp, hAnswered⟩))
  rw [hPoint] at hDue
  cases hDue with
  | leaving hDone =>
      rcases hDone with hExcused | hFault | ⟨hSent, hPast⟩
      · exact absurd hExcused hNoExcuse
      · rw [hEc] at hFault
        cases hFault
      · refine ⟨before, during, event :: after, c₁, c₂, i,
          first, x₁, p, rfl, hBefore, hDuring, hFirst, hEntering, ?_, ?_, ?_,
          ?_, hOpen,
          dropReason_of_silence (dropsKnown_of_run hUntil) hp
            hError⟩
        · refine ⟨?_, ?_⟩
          · rw [hTarget]
            exact hOrigin.endpoint
          · rw [hWork]
            exact hOrigin.who
        · rw [hTarget]
          exact hSent
        · rw [hTarget]
          exact hPast
        · rw [hRef]
          exact hp

/-
  A request completes with `Timeout`, or `DecryptionFailed`,
  only after an exchange has been waited out for it.
-/
theorem timeouts_waited_out
    {resp : Response}
    (hRun :
      Machine.run (step ssl) (fresh id now) events = some c)
    (hExhaustible : Exhaustible events)
    (hClock : c.now < clockEnd)
    (hTask : c.tasks[t]? = some task)
    (hPoint : task.point = .completed (some (.errc e)) resp)
    (hSilence : e = .timeout ∨ e = .decryptionFailed) :
    WaitedOut ssl id now events t task e := by
  have hArises :=
    (traced_of_any_run hRun).tasks t task e hTask (by
      rw [hPoint]
      rfl)
  refine hArises.waitedOut hRun hExhaustible hClock ?_
  rcases hSilence with rfl | rfl
  · rfl
  · rfl

/- Nobody answers the identity phase of a discovery. -/
def silentRun : List Event :=
  [ .request agentTarget (.credentials agentUser)
      upTimeRequest,
    ahead, ahead, ahead, ahead, ahead,
    .sent 1 none,
    .tick 2000000000,
    .expire 1, .resume 1,
    .sent 1 none,
    .tick 2000000000,
    .expire 1, .resume 1,
    ahead, ahead, ahead,
    .resume 0, ahead]

def silentTask : Task :=
  { work := .v3 agentUser 0
    target := agentTarget
    pdu := upTimeRequest
    point := .completed (some (.errc .timeout)) {} }

theorem silentRun_task :
    (Machine.run (step agentSsl) (fresh 1 0) silentRun).bind
      (fun c => (c.tasks[0]?).map (fun task =>
        (task, c.now))) = some (silentTask, 4000000000) := by
  decide +kernel

theorem timeouts_waited_out_sample :
    ∃ c,
      Machine.run (step agentSsl) (fresh 1 0) silentRun =
          some c ∧
        c.tasks[0]? = some silentTask ∧
        WaitedOut agentSsl 1 0 silentRun 0 silentTask
          .timeout := by
  rcases Option.bind_eq_some_iff.mp silentRun_task with
    ⟨c, hRun, hRest⟩
  rcases Option.map_eq_some_iff.mp hRest with
    ⟨task, hTask, hFacts⟩
  rcases Prod.mk.inj hFacts with ⟨rfl, hNow⟩
  have hClock : c.now < clockEnd := by
    rw [hNow]
    decide
  have hExhaustible : Exhaustible silentRun := by
    intro target auth pdu hMem
    have hTarget : target = agentTarget := by
      simp [silentRun, ahead] at hMem
      exact hMem.1
    rw [hTarget]
    decide
  exact ⟨c, hRun, hTask,
    timeouts_waited_out hRun hExhaustible hClock hTask rfl
      (Or.inl rfl)⟩

end Snmpio
