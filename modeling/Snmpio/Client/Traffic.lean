import Snmpio.Client.Discoveries
import Snmpio.Lib.Potential

/-
  What operations cost.

  Whatever arrives, a coroutine has only so many turns to
  take and so many datagrams to send: an exchange is sent
  once for each attempt, a request with Credentials makes at
  most two of them, and each may start a discovery, which
  makes at most two of its own.  What a request may still
  send pays for the discovery it starts.

  Key definitions include:
    * `Task.sendsLeft`
    * `Task.turnsLeft`
    * `Meter`

  Key theorems include:
    * `Meter.step`
    * `Meter.task_step`
    * `traffic_bounded`
-/

------------------------------------------------------------
-- What Is Left to Do
------------------------------------------------------------

namespace Snmpio

/- How often an exchange with the Target is sent. -/
def Target.copies
    (target : Target) : Nat :=
  target.attempts.toNat

/- How often it may be sent again. -/
def Exchange.copiesLeft
    (target : Target)
    (x : Exchange) : Nat :=
  (target.retries.toInt - x.attempt.toInt).toNat

namespace Work

/-
  What may be sent after the exchange in hand: another one
  and a discovery for it, or the time-sync phase.
-/
def sendsLater
    (copies : Nat) :
    Work → Nat
| v3 _ 0 => 3 * copies
| identify _ _ => copies
| _ => 0

/- What may be sent up to the end of the first exchange. -/
def sendsFirst
    (copies : Nat) :
    Work → Nat
| v3 _ _ => 3 * copies
| _ => copies

/- What may still come of it: a retry, a second message. -/
def turnsLater :
    Work → Nat
| v3 _ 0 => 27
| identify _ _ => 8
| _ => 0

def turnsFirst :
    Work → Nat
| v3 _ _ => 30
| _ => 9

end Work

/- The sends that are in flight or may still come. -/
def Point.sendsLeft
    (work : Work)
    (target : Target)
    (point : Point) : Nat :=
  let copies := target.copies
  let later := work.sendsLater copies
  match point with
  | start => work.sendsFirst copies + later
  | ensuring => 3 * copies + later
  | parking _ => copies + later
  | parked _ _ => copies + later
  | ensured _ => copies + later
  | entering _ => copies + later
  | sending x => x.copiesLeft target + 1 + later
  | waiting x _ false _ => x.copiesLeft target + later
  | waiting _ _ true _ => later
  | leaving _ => later
  | returned _ _ => later
  | syncing _ => copies
  | _ => 0

/- The points, numbered against the order of the code. -/
def Point.rank
    (work : Work)
    (point : Point) : Nat :=
  let later := work.turnsLater
  match point with
  | start => later + work.turnsFirst
  | ensuring => later + 29
  | parking _ => later + 11
  | parked _ _ => later + 10
  | ensured _ => later + 9
  | entering _ => later + 8
  | waiting _ _ false _ => later + 7
  | waiting _ _ true _ => later + 6
  | sending _ => later + 5
  | leaving _ => later + 4
  | returned _ _ => later + 3
  | syncing _ => later + 2
  | finishing _ => later + 1
  | _ => 0

namespace Task

def sendsLeft
    (task : Task) : Nat :=
  task.point.sendsLeft task.work task.target

/-
  The turns that may still come: three for every send, and
  those that lead down the points.
-/
def turnsLeft
    (task : Task) : Nat :=
  3 * task.sendsLeft + task.point.rank task.work

theorem sendsLeft_wake
    (task : Task)
    (cancelled : Cancellation) :
    sendsLeft
        { task with
          cancelled := cancelled
          point := task.point.wake } =
      task.sendsLeft := by
  rcases task with ⟨work, target, pdu, point, before⟩
  cases point with
  | waiting x deadline soft woken =>
      cases soft with
      | _ => rfl
  | _ => rfl

theorem turnsLeft_wake
    (task : Task)
    (cancelled : Cancellation) :
    turnsLeft
        { task with
          cancelled := cancelled
          point := task.point.wake } =
      task.turnsLeft := by
  unfold turnsLeft
  rw [sendsLeft_wake]
  rcases task with ⟨work, target, pdu, point, before⟩
  cases point with
  | waiting x deadline soft woken =>
      cases soft with
      | _ => rfl
  | _ => rfl

end Task

end Snmpio

------------------------------------------------------------
-- Attempts
------------------------------------------------------------

namespace Snmpio

variable {ssl : OpenSsl} {c c' : Client} {task task' : Task}
variable {t : Nat} {e : Event}

/- What a wake leaves as it is, a signal does. -/
theorem Point.signalled_congr
    {α : Type}
    {f : Point → α}
    (hWake : ∀ point, f point.wake = f point)
    (point : Point) :
    f point.signalled = f point := by
  rcases signalled_cases point with hSame | hWoken
  · rw [hSame]
  · rw [hWoken, hWake]

/- What coroutines keep in each of their steps always holds. -/
theorem tasks_of_run
    {P : Task → Prop}
    (hKeep :
      ∀ {c t e task'}, TaskStep ssl c t e task' →
        (∀ task, c.tasks[t]? = some task → P task) → P task')
    {id : Int32}
    {now : Int}
    {events : List Event}
    (hRun :
      Machine.run (step ssl) (fresh id now) events = some c)
    (hTask : c.tasks[t]? = some task) :
    P task := by
  refine Machine.run_invariant
    (P := fun _ c =>
      ∀ (t : Nat) (task : Task), c.tasks[t]? = some task →
        P task) ?_ ?_ hRun t task hTask
  · intro t task hTask
    cases hTask
  · intro events c e c' _ ih hStep t task hTask
    exact hKeep (step_task hStep hTask) (ih t)

/- The exchange whose attempt is under way. -/
def Point.tried? :
    Point → Option Exchange
| sending x => some x
| waiting x _ _ _ => some x
| _ => none

@[simp]
theorem Point.wake_tried?
    (point : Point) :
    point.wake.tried? = point.tried? := by
  cases point with
  | _ => rfl

/- There is an attempt under way only if there was one left. -/
def Task.InRange
    (task : Task) : Prop :=
  ∀ x, task.point.tried? = some x →
    x.attempt ≤ task.target.retries

theorem Task.InRange.of_none
    (hNone : task.point.tried? = none) :
    task.InRange := by
  intro x hx
  rw [hNone] at hx
  cases hx

/- No attempt is made beyond the retries. -/
theorem Task.InRange.attempt
    (task : Task)
    (x : Exchange) :
    (task.goto (attemptPoint task.target x)).InRange := by
  unfold attemptPoint
  split
  · next hMore =>
    intro y hy
    cases hy
    exact hMore
  · exact .of_none rfl

theorem Point.exchange?_of_tried?
    {point : Point}
    {x : Exchange}
    (hTried : point.tried? = some x) :
    point.exchange? = some x := by
  cases point with
  | sending _ => exact hTried
  | waiting _ _ _ _ => exact hTried
  | _ => cases hTried

theorem Move.inRange
    {out : Outside}
    {spawned : Option Task}
    (hMove : Move ssl out c task c' task' spawned) :
    task'.InRange := by
  cases hMove.turn with
  | outside _ _ _ _ hAfter =>
      intro x hx
      rw [Point.exchange?_of_tried? hx] at hAfter
      cases hAfter
  | opened _ _ _ _ hPoint _ _ _ _ =>
      exact .of_none (by rw [hPoint]; rfl)
  | refused _ _ => exact .of_none rfl
  | registered _ _ _ _ _ => exact .attempt task _
  | left _ _ => exact .of_none rfl

theorem Resumes.inRange
    {point : Point}
    (hResumes : Resumes c t task e point)
    (hRange : task.InRange) :
    (task.goto point).InRange := by
  cases hResumes with
  | @sent x ec hPoint =>
      unfold afterSend
      split
      · exact .of_none rfl
      · intro y hy
        cases hy
        exact hRange x (by rw [hPoint]; rfl)
  | @waited x deadline soft p hPoint hp =>
      unfold afterWait
      split
      · exact .of_none rfl
      · split
        · intro y hy
          cases hy
          exact hRange x (by rw [hPoint]; rfl)
        · exact .attempt task _
  | unparked hPoint hd =>
      unfold afterPark
      split_ifs
      all_goals exact .of_none rfl

theorem TaskStep.inRange
    (hStep : TaskStep ssl c t e task')
    (hBefore :
      ∀ task, c.tasks[t]? = some task → task.InRange) :
    task'.InRange := by
  cases hStep with
  | moved _ _ hMove => exact hMove.inRange
  | spawned _ _ hMove _ =>
      rcases hMove.spawned_eq rfl with ⟨creds, rfl⟩
      exact .of_none rfl
  | requested _ _ => exact .of_none rfl
  | resumed _ hTask hResumes =>
      exact hResumes.inRange (hBefore _ hTask)
  | raised _ _ _ => exact .of_none rfl
  | @signalled _ task _ _ hTask _ _ =>
      intro x hx
      refine hBefore task hTask x ?_
      rw [← Point.signalled_congr Point.wake_tried?]
      exact hx
  | @woken _ task hTask _ _ =>
      intro x hx
      refine hBefore task hTask x ?_
      rw [← Point.wake_tried?]
      exact hx
  | kept hTask _ => exact hBefore _ hTask

/- So it is in every run. -/
theorem inRange_of_run
    {id : Int32}
    {now : Int}
    {events : List Event}
    (hRun :
      Machine.run (step ssl) (fresh id now) events = some c)
    (hTask : c.tasks[t]? = some task) :
    task.InRange :=
  tasks_of_run TaskStep.inRange hRun hTask

end Snmpio

------------------------------------------------------------
-- Spending
------------------------------------------------------------

namespace Snmpio

variable {ssl : OpenSsl} {c c' : Client} {task task' : Task}
variable {t : Nat} {e : Event} {point : Point}
variable {x : Exchange} {creds : Credentials}

/-
  A coroutine takes a turn, and pays for it, for what it has
  sent and for what it spawns.
-/
structure Spends
    (sent : Nat)
    (task task' : Task)
    (spawned : Option Task) : Prop where
  sends :
    sent + task'.sendsLeft + spawned.elim 0 Task.sendsLeft ≤
      task.sendsLeft
  turns :
    task'.turnsLeft + spawned.elim 0 Task.turnsLeft <
      task.turnsLeft

namespace Spends

/- Three turns may follow a send; the others lead down. -/
theorem moves
    {sent : Nat}
    (hSends : sent + task'.sendsLeft ≤ task.sendsLeft)
    (hRank :
      task'.point.rank task'.work <
        task.point.rank task.work + 3 * sent) :
    Spends sent task task' none where
  sends := hSends
  turns := by
    simp only [Task.turnsLeft, Option.elim]
    omega

theorem goes
    {sent : Nat}
    {point' : Point}
    (hPoint : task.point = point)
    (hSends :
      sent + point'.sendsLeft task.work task.target ≤
        point.sendsLeft task.work task.target)
    (hRank :
      point'.rank task.work <
        point.rank task.work + 3 * sent) :
    Spends sent task (task.goto point') none := by
  subst hPoint
  exact .moves hSends hRank

/- At its end a coroutine has nothing left. -/
theorem ends
    (hLive : task.point.isOver = false)
    (hOver : point.isOver = true) :
    Spends 0 task (task.goto point) none := by
  have hPositive : 0 < task.point.rank task.work := by
    cases hPoint : task.point with
    | start =>
        cases hWork : task.work with
        | _ => simp [Point.rank, Work.turnsFirst]
    | waiting x deadline soft woken =>
        cases soft with
        | _ => simp [Point.rank]
    | completed _ _ =>
        rw [hPoint] at hLive
        cases hLive
    | threw =>
        rw [hPoint] at hLive
        cases hLive
    | ended =>
        rw [hPoint] at hLive
        cases hLive
    | _ => simp [Point.rank]
  cases point with
  | completed ec resp =>
      exact .moves (Nat.zero_le _) hPositive
  | threw => exact .moves (Nat.zero_le _) hPositive
  | ended => exact .moves (Nat.zero_le _) hPositive
  | _ => cases hOver

/- A discovery that gives up has its end to come. -/
theorem finishing
    {ec : Option Failure}
    (hRank :
      task.work.turnsLater + 1 < task.point.rank task.work) :
    Spends 0 task (task.goto (.finishing ec)) none :=
  .moves (Nat.zero_le _) hRank

end Spends

/-
  A message is opened where there is enough for its copies.
-/
theorem Opening.spends
    {keys : KeyCache}
    (hOpening : Opening c task keys c' task')
    (hLive : task.point.isOver = false)
    (hNot : ∀ engineId, task.point ≠ .syncing engineId)
    (hSends :
      task.target.copies +
          task.work.sendsLater task.target.copies ≤
        task.sendsLeft)
    (hRank :
      task.work.turnsLater + 8 < task.point.rank task.work) :
    Spends 0 task task' none := by
  cases hOpening with
  | fails _ _ hPoint =>
      cases hPoint with
      | completed _ _ => exact .ends hLive rfl
      | finishing _ _ => exact .finishing (by omega)
  | opens _ hWork =>
      rcases hWork with rfl | ⟨_, _, engineId, _, hPoint, _⟩
      · refine .moves ?_ hRank
        rw [Nat.zero_add]
        exact hSends
      · exact absurd hPoint (hNot engineId)

theorem copiesLeft_attempt
    {target : Target}
    (hFirst : x.attempt = 0)
    (hMore : x.attempt ≤ target.retries) :
    x.copiesLeft target + 1 = target.copies := by
  rw [Int32.le_iff_toInt_le, hFirst] at hMore
  have hZero : (0 : Int32).toInt = 0 := rfl
  rw [Exchange.copiesLeft, Target.copies, Target.attempts,
    hFirst]
  omega

/- An attempt more is a copy less, if the count is right. -/
theorem copiesLeft_again
    {target : Target}
    (hRetries : target.retries ≠ Int32.maxValue)
    (hRange : x.attempt ≤ target.retries)
    (hMore : x.attempt + 1 ≤ target.retries) :
    Exchange.copiesLeft target
        { x with attempt := x.attempt + 1 } + 1 =
      x.copiesLeft target := by
  have hNext := Exchange.again_attempt hRange hRetries
  rw [Exchange.again] at hNext
  rw [Int32.le_iff_toInt_le, hNext] at hMore
  unfold Exchange.copiesLeft
  rw [hNext]
  omega

/- Entering costs no send yet. -/
theorem Entry.spends
    {out : Outside}
    (hEntry : Entry out c task x c' task')
    (hPoint : task.point = .entering x)
    (hFirst : x.attempt = 0) :
    Spends 0 task task' none := by
  cases hEntry with
  | refused ec _ =>
      exact .goes hPoint (by simp [Point.sendsLeft])
        (by simp [Point.rank])
  | entered _ _ =>
      unfold attemptPoint
      split
      · next hMore =>
        have hCopies := copiesLeft_attempt hFirst hMore
        refine .goes hPoint ?_ (by simp [Point.rank])
        simp only [Point.sendsLeft]
        omega
      · exact .goes hPoint (by simp [Point.sendsLeft])
          (by simp [Point.rank])

/- Only the first attempt of a request leads to another. -/
theorem afterAnswer_spends
    {attempt : Nat}
    (hPoint : task.point = .returned x none)
    (hWork : task.work = .v3 creds attempt)
    (p : Pending) :
    Spends 0 task (afterAnswer c task creds attempt p).2
      none := by
  have hLive : task.point.isOver = false := by
    rw [hPoint]
    rfl
  unfold afterAnswer
  dsimp only
  split
  · split
    · exact .ends hLive rfl
    · split
      · next hAgain =>
        have hFirst : attempt = 0 := by omega
        subst hFirst
        refine .moves ?_ ?_
        · simp [Task.sendsLeft, Point.sendsLeft, hPoint,
            hWork, Work.sendsLater]
        · simp [Point.rank, hPoint, hWork, Work.turnsLater]
      · exact .ends hLive rfl
  · exact .ends hLive rfl

/- A retry is paid for in advance. -/
theorem afterSuccess_spends
    (hPoint : task.point = .returned x none)
    (p : Pending) :
    Spends 0 task (afterSuccess c task p).2 none := by
  have hLive : task.point.isOver = false := by
    rw [hPoint]
    rfl
  have hFinishing (ec : Option Failure) :
      Spends 0 task (task.goto (.finishing ec)) none :=
    .finishing (by simp [hPoint, Point.rank])
  unfold afterSuccess
  split
  · exact .ends hLive rfl
  · next hWork => exact afterAnswer_spends hPoint hWork p
  · next hWork =>
    unfold afterIdentify
    dsimp only
    split_ifs
    · exact hFinishing _
    · exact hFinishing _
    · refine .goes hPoint ?_ (by simp [Point.rank])
      simp [Point.sendsLeft, hWork, Work.sendsLater]
    · exact hFinishing _
  · unfold afterSync
    split_ifs
    all_goals exact hFinishing _

/- What waits for a discovery pays for it in advance. -/
theorem ensureEngine_spends
    {spawned : Option Task}
    (hPoint : task.point = .ensuring)
    (hEnsure :
      ensureEngine c task creds = (c', task', spawned)) :
    Spends 0 task task' spawned := by
  rcases ensureEngine_cases hEnsure with
    ⟨_, rfl, rfl, _⟩ | ⟨_, _, _, rfl, rfl⟩ |
      ⟨_, _, rfl, rfl⟩
  · refine .goes hPoint ?_ (by simp [Point.rank])
    simp only [Point.sendsLeft]
    omega
  · refine .goes hPoint ?_ (by simp [Point.rank])
    simp only [Point.sendsLeft]
    omega
  · constructor
    · simp only [Task.sendsLeft, Point.sendsLeft, Task.goto,
        hPoint, Option.elim, Work.sendsFirst, Work.sendsLater]
      omega
    · simp only [Task.turnsLeft, Task.sendsLeft,
        Point.sendsLeft, Point.rank, Task.goto, hPoint,
        Option.elim, Work.sendsFirst, Work.sendsLater,
        Work.turnsFirst, Work.turnsLater]
      omega

theorem startSync_spends
    (out : Outside)
    (c : Client)
    {d : Nat}
    {engineId : Octets}
    (hPoint : task.point = .syncing engineId)
    (hWork : task.work = .identify creds d) :
    Spends 0 task (startSync ssl out c task creds d engineId).2
      none := by
  have hFinishing (ec : Option Failure) :
      Spends 0 task (task.goto (.finishing ec)) none :=
    .finishing (by simp [hPoint, Point.rank])
  unfold startSync
  rcases requestKeys ssl c.keys creds engineId with
    ⟨found, keys⟩
  dsimp only
  split
  · exact hFinishing _
  · simp only [Client.takeNextId]
    split
    · exact hFinishing _
    · refine .moves ?_ ?_
      · simp [Task.sendsLeft, Point.sendsLeft, hPoint,
          Work.sendsLater]
      · simp [Point.rank, hPoint, hWork, Work.turnsLater]

/- A move never adds to what is left. -/
theorem Move.spends
    {out : Outside}
    {spawned : Option Task}
    (hMove : Move ssl out c task c' task' spawned)
    (hFirst :
      ∀ x, task.point = .entering x → x.attempt = 0) :
    Spends 0 task task' spawned := by
  have hLive {point : Point}
      (hPoint : task.point = point)
      (hPlace : point.isOver = false) :
      task.point.isOver = false := by
    rw [hPoint]
    exact hPlace
  cases hMove with
  | beginV2c hPoint hWork =>
      refine (startV2c_opening c hWork).spends
        (hLive hPoint rfl) (by simp [hPoint]) ?_ ?_
      · simp [Task.sendsLeft, Point.sendsLeft, hPoint, hWork,
          Work.sendsFirst]
      · simp [Point.rank, hPoint, hWork, Work.turnsFirst]
  | beginV3 hPoint hWork =>
      unfold startV3
      split_ifs
      · exact .ends (hLive hPoint rfl) rfl
      · exact .ends (hLive hPoint rfl) rfl
      · exact .ends (hLive hPoint rfl) rfl
      · refine .goes hPoint ?_ ?_
        · simp [Point.sendsLeft, hWork, Work.sendsFirst]
        · simp [Point.rank, hWork, Work.turnsFirst]
  | beginIdentify hPoint hWork =>
      refine (startIdentify_opening out c hWork).spends
        (hLive hPoint rfl) (by simp [hPoint]) ?_ ?_
      · simp [Task.sendsLeft, Point.sendsLeft, hPoint, hWork,
          Work.sendsFirst]
      · simp [Point.rank, hPoint, hWork, Work.turnsFirst]
  | ensure hPoint _ hEnsure =>
      exact ensureEngine_spends hPoint hEnsure
  | park hPoint _ =>
      exact .goes hPoint (by simp [Point.sendsLeft])
        (by simp [Point.rank])
  | fail hPoint _ => exact .ends (hLive hPoint rfl) rfl
  | send hPoint hWork =>
      refine (sendRequest_opening out c hWork).spends
        (hLive hPoint rfl) (by simp [hPoint]) ?_ ?_
      · simp [Task.sendsLeft, Point.sendsLeft, hPoint]
      · simp [Point.rank, hPoint]
  | @enter x hPoint =>
      exact (enterTransact_entry out c task x).spends hPoint
        (hFirst x hPoint)
  | leave hPoint _ =>
      exact .goes hPoint (by simp [Point.sendsLeft])
        (by simp [Point.rank])
  | failed hPoint =>
      unfold afterFailure
      split
      · exact .ends (hLive hPoint rfl) rfl
      · exact .ends (hLive hPoint rfl) rfl
      all_goals
        exact .finishing (by simp [Point.rank, hPoint])
  | succeeded hPoint _ => exact afterSuccess_spends hPoint _
  | beginSync hPoint hWork =>
      exact startSync_spends out c hPoint hWork
  | finish hPoint _ => exact .ends (hLive hPoint rfl) rfl

/- The sends that an event completes. -/
def Event.sends :
    Event → Nat
| .sent _ _ => 1
| _ => 0

/- A send takes one from what is left. -/
theorem afterSend_spends
    (hPoint : task.point = .sending x)
    (ec : Option SystemError) :
    Spends 1 task
      (task.goto (afterSend c task { x with ec := ec }))
      none := by
  unfold afterSend
  split
  · refine .goes hPoint ?_ (by simp [Point.rank])
    simp only [Point.sendsLeft]
    omega
  · refine .goes hPoint ?_ (by simp [Point.rank])
    simp only [Point.sendsLeft, Exchange.copiesLeft]
    omega

/- A further attempt is paid for in advance. -/
theorem afterWait_spends
    {deadline : Int}
    {soft : Bool}
    (hPoint : task.point = .waiting x deadline soft true)
    (hRange : x.attempt ≤ task.target.retries)
    (hRetries : task.target.retries ≠ Int32.maxValue)
    (p : Pending) :
    Spends 0 task
      (task.goto (afterWait c task x deadline soft p))
      none := by
  have hLeaving (y : Exchange) :
      Spends 0 task (task.goto (.leaving y)) none := by
    cases soft with
    | _ =>
        exact .goes hPoint (by simp [Point.sendsLeft])
          (by simp [Point.rank])
  unfold afterWait
  split
  · exact hLeaving x
  · next hStay =>
    have hSoft : soft = false := by
      simpa using fun h => hStay (Or.inl h)
    subst hSoft
    split
    · exact .goes hPoint (by simp [Point.sendsLeft])
        (by simp [Point.rank])
    · unfold attemptPoint
      split
      · next hMore =>
        have hCopies := copiesLeft_again hRetries hRange hMore
        refine .goes hPoint ?_ (by simp [Point.rank])
        simp only [Point.sendsLeft]
        omega
      · exact hLeaving _

theorem afterPark_spends
    {d : Nat}
    {woken : Bool}
    (hPoint : task.point = .parked d woken)
    (discovery : Discovery) :
    Spends 0 task (task.goto (afterPark c task discovery))
      none := by
  have hEnsured (ec : Option Failure) :
      Spends 0 task (task.goto (.ensured ec)) none :=
    .goes hPoint (by simp [Point.sendsLeft])
      (by simp [Point.rank])
  unfold afterPark
  split_ifs
  · exact .ends (by rw [hPoint]; rfl) rfl
  · exact hEnsured _
  · exact hEnsured _
  · exact hEnsured _

/- Going on spends no more than it has. -/
theorem Resumes.spends
    (hResumes : Resumes c t task e point)
    (hRange : task.InRange)
    (hRetries : task.target.retries ≠ Int32.maxValue) :
    Spends e.sends task (task.goto point) none := by
  cases hResumes with
  | sent ec hPoint => exact afterSend_spends hPoint ec
  | waited hPoint hp =>
      exact afterWait_spends hPoint
        (hRange _ (by rw [hPoint]; rfl)) hRetries _
  | unparked hPoint hd => exact afterPark_spends hPoint _

end Snmpio

------------------------------------------------------------
-- Meters
------------------------------------------------------------

namespace Snmpio

open Machine

variable {ssl : OpenSsl} {c c' : Client} {task task' : Task}
variable {t : Nat} {e : Event}

/- The events in which a coroutine takes a turn. -/
def Event.turns :
    Event → Nat
| .advance _ => 1
| .sent _ _ => 1
| .resume _ => 1
| _ => 0

/-
  A number that every coroutine has in store, and that pays
  for its turns.
-/
structure Meter
    (cost : Event → Nat)
    (store : Task → Nat) : Prop where
  free : ∀ e, e.turns = 0 → cost e = 0
  woken :
    ∀ (task : Task) cancelled,
      store
          { task with
            cancelled := cancelled
            point := task.point.wake } =
        store task
  cancelled :
    ∀ (task : Task) cancelled,
      store { task with cancelled := cancelled } = store task
  ended : ∀ task : Task, store (task.goto .ended) = 0
  spends :
    ∀ e task task' spawned,
      Spends e.sends task task' spawned →
        cost e + store task' + spawned.elim 0 store ≤
          store task

/- Sends are metered so. -/
theorem sends_meter :
    Meter Event.sends Task.sendsLeft where
  free := by
    intro e hFree
    cases e with
    | sent _ _ => cases hFree
    | _ => rfl
  woken := Task.sendsLeft_wake
  cancelled := fun _ _ => rfl
  ended := fun _ => rfl
  spends := fun _ _ _ _ hSpends => hSpends.sends

/- Turns are. -/
theorem turns_meter :
    Meter Event.turns Task.turnsLeft where
  free := fun _ hFree => hFree
  woken := Task.turnsLeft_wake
  cancelled := fun _ _ => rfl
  ended := fun _ => rfl
  spends := by
    intro e task task' spawned hSpends
    have hTurns := hSpends.turns
    have hOne : e.turns ≤ 1 := by
      cases e with
      | _ => simp [Event.turns]
    omega

/- What an operation has in store as it begins. -/
def Event.brings
    (store : Task → Nat) :
    Event → Nat
| .request target auth pdu =>
    store {
      work := beginWork auth
      target := target
      pdu := pdu }
| _ => 0

namespace Meter

variable {cost : Event → Nat} {store : Task → Nat}

theorem signalled
    (hMeter : Meter cost store)
    (task : Task)
    (cancelled : Cancellation) :
    store
        { task with
          cancelled := cancelled
          point := task.point.signalled } =
      store task := by
  rcases signalled_cases task.point with hKept | hWake
  · rw [hKept]
    exact hMeter.cancelled task cancelled
  · rw [hWake]
    exact hMeter.woken task cancelled

theorem nudged
    (hMeter : Meter cost store)
    (hNudged : task.Nudged task') :
    store task' = store task := by
  rcases task with ⟨work, target, pdu, point, cancelled⟩
  rcases task' with ⟨work', target', pdu', point', cancelled'⟩
  rcases hNudged with ⟨rfl, rfl, rfl, rfl, hPoint⟩
  dsimp only at hPoint
  rcases hPoint with rfl | rfl
  · rfl
  · exact hMeter.woken
      ⟨work', target', pdu', point, cancelled'⟩ cancelled'

theorem total_nudged
    (hMeter : Meter cost store)
    (hLength : c'.tasks.length = c.tasks.length)
    (hTasks :
      ∀ (t : Nat) (task' : Task),
        c'.tasks[t]? = some task' →
          ∃ task : Task,
            c.tasks[t]? = some task ∧ task.Nudged task') :
    total store c'.tasks = total store c.tasks := by
  refine total_congr hLength ?_
  intro i found hFound
  rcases hTasks i found hFound with ⟨before, hBefore, hSame⟩
  exact ⟨before, hBefore, hMeter.nudged hSame⟩

/- What waking and moving one coroutine does to the total. -/
theorem total_moved
    (hMeter : Meter cost store)
    (hTask : c.tasks[t]? = some task)
    (hLength : c'.tasks.length = c.tasks.length)
    (hTasks :
      ∀ (t : Nat) (task' : Task),
        c'.tasks[t]? = some task' →
          ∃ task : Task,
            c.tasks[t]? = some task ∧ task.Nudged task')
    (moved : Task) :
    total store (c'.tasks.set t moved) + store task =
      total store c.tasks + store moved := by
  have hBound := (List.getElem?_eq_some_iff.mp hTask).1
  have hFound : c'.tasks[t]? = some c'.tasks[t] :=
    List.getElem?_eq_getElem (by rw [hLength]; exact hBound)
  rcases hTasks t _ hFound with ⟨before, hBefore, hSame⟩
  rw [hTask] at hBefore
  cases hBefore
  rw [← hMeter.nudged hSame, total_set store hFound,
    hMeter.total_nudged hLength hTasks]

theorem advance
    (hMeter : Meter cost store)
    {out : Outside}
    (hStep : Snmpio.advance ssl out c = some c')
    (hFirst :
      ∀ (t : Nat) (task : Task) (x : Exchange),
        c.tasks[t]? = some task → task.point = .entering x →
          x.attempt = 0) :
    cost (.advance out) + total store c'.tasks ≤
      total store c.tasks := by
  rcases advance_eq hStep with
    ⟨t, rest, task, c₁, task', spawned, hStrand, hTask,
      hMove, rfl⟩
  have hSpends :=
    hMeter.spends (.advance out) task task' spawned
      (hMove.spends (fun x => hFirst t task x hTask))
  have hTotal := hMeter.total_moved hTask hMove.length
    (fun _ _ hFound => hMove.tasks hFound) task'
  cases spawned with
  | none =>
      change cost _ + total store (c₁.tasks.set t task') ≤ _
      simp only [Option.elim] at hSpends
      omega
  | some other =>
      change
        cost _ +
            total store (c₁.tasks.set t task' ++ [other]) ≤ _
      rw [total_concat]
      simp only [Option.elim] at hSpends
      omega

/- No step spends more than is there or comes with it. -/
theorem step
    (hMeter : Meter cost store)
    (hStep : Snmpio.step ssl c e = some c')
    (hFirst :
      ∀ (t : Nat) (task : Task) (x : Exchange),
        c.tasks[t]? = some task → task.point = .entering x →
          x.attempt = 0)
    (hRange :
      ∀ (t : Nat) (task : Task), c.tasks[t]? = some task →
        task.InRange ∧
          task.target.retries ≠ Int32.maxValue) :
    cost e + total store c'.tasks ≤
      total store c.tasks + e.brings store := by
  have hResumed {t : Nat} {task : Task} {point : Point}
      (hTask : c.tasks[t]? = some task)
      (hResumes : Resumes c t task e point) :
      cost e +
          total store (c.place t [] (task.goto point)).tasks ≤
        total store c.tasks + e.brings store := by
    rcases hRange t task hTask with ⟨hIn, hRetries⟩
    have hSpends := hMeter.spends e task _ none
      (hResumes.spends hIn hRetries)
    have hTotal := total_set store hTask (task.goto point)
    change cost e + total store (c.tasks.set t _) ≤ _
    simp only [Option.elim] at hSpends
    omega
  by_cases hFree : e.turns = 0
  · rw [hMeter.free e hFree]
    cases step_cases hStep with
    | advanced _ _ _ => cases hFree
    | requested _ =>
        change 0 + total store (c.tasks ++ [_]) ≤ _
        rw [total_concat]
        simp only [Event.brings]
        omega
    | @received sender datagram _ =>
        rcases receive_nudged ssl c datagram sender with
          ⟨pendings, hSame⟩
        rw [hMeter.total_nudged hSame.length hSame.tasks]
        simp only [Event.brings]
        omega
    | resumed _ _ hResumes =>
        cases hResumes with
        | _ => cases hFree
    | @raised i d rest task _ hTask _ _ =>
        let ended := finishDiscovery c task.target.endpoint d
          { failure := true }
        have hNudges :
            ∀ (i : Nat) (found : Task),
              ended.tasks[i]? = some found →
                ∃ before : Task,
                  c.tasks[i]? = some before ∧
                    before.Nudged found := by
          intro i found hFound
          rcases cancelTimers_tasks hFound with
            ⟨before, hBefore, rfl⟩
          exact ⟨before, hBefore, Task.wakeOn_nudged _ before⟩
        have hTotal := hMeter.total_moved hTask
          (List.length_map _) hNudges (task.goto .ended)
        rw [hMeter.ended] at hTotal
        change 0 + total store (ended.tasks.set i _) ≤ _
        omega
    | @signalled i _ task cancelled _ hTask _ _ =>
        have hTotal := total_set store hTask
          { task with
            cancelled := cancelled
            point := task.point.signalled }
        rw [hMeter.signalled] at hTotal
        change 0 + total store (c.tasks.set i _) ≤ _
        omega
    | nudged hNudged =>
        rw [hMeter.total_nudged hNudged.length hNudged.tasks]
        omega
  · cases e with
    | advance out => exact hMeter.advance hStep hFirst
    | sent i ec =>
        simp only [Snmpio.step] at hStep
        split_ifs at hStep
        rcases onSent_eq hStep with
          ⟨task, point, hTask, hResumes, rfl⟩
        exact hResumed hTask hResumes
    | resume i =>
        simp only [Snmpio.step] at hStep
        split_ifs at hStep
        rcases onResume_eq hStep with
          ⟨task, point, hTask, hResumes, rfl⟩
        exact hResumed hTask hResumes
    | _ => exact absurd rfl hFree

end Meter

end Snmpio

------------------------------------------------------------
-- Traffic
------------------------------------------------------------

namespace Snmpio

open Machine

variable {ssl : OpenSsl} {c c' : Client} {task task' : Task}
variable {t : Nat} {e : Event}

/- What a coroutine sends to is what a request has named. -/
theorem requested_of_run
    {id : Int32}
    {now : Int}
    {events : List Event}
    (hRun : run (step ssl) (fresh id now) events = some c)
    (hTask : c.tasks[t]? = some task) :
    ∃ auth pdu,
      Event.request task.target auth pdu ∈ events := by
  refine run_invariant
    (P := fun events c =>
      ∀ (t : Nat) (task : Task), c.tasks[t]? = some task →
        ∃ auth pdu,
          Event.request task.target auth pdu ∈ events)
    ?_ ?_ hRun t task hTask
  · intro t task hTask
    cases hTask
  · intro events c e c' _ ih hStep t task' hTask'
    have hBefore {i : Nat} {task : Task}
        (hTask : c.tasks[i]? = some task)
        (hTarget : task'.target = task.target) :
        ∃ auth pdu,
          Event.request task'.target auth pdu ∈
            events ++ [e] := by
      rcases ih i task hTask with ⟨auth, pdu, hMem⟩
      rw [hTarget]
      exact ⟨auth, pdu, List.mem_append_left _ hMem⟩
    cases step_task hStep hTask' with
    | moved _ hTask hMove => exact hBefore hTask hMove.kin.target
    | spawned _ hTask hMove _ =>
        refine hBefore hTask ?_
        rcases hMove.spawned_eq rfl with ⟨creds, rfl⟩
        rfl
    | @requested target auth pdu _ _ =>
        exact ⟨auth, pdu, by simp⟩
    | resumed _ hTask _ => exact hBefore hTask rfl
    | raised hTask _ _ => exact hBefore hTask rfl
    | signalled _ hTask _ _ => exact hBefore hTask rfl
    | woken hTask _ _ => exact hBefore hTask rfl
    | kept hTask _ => exact hBefore hTask rfl

/- Every Target that is asked can be given up on. -/
def Exhaustible
    (events : List Event) : Prop :=
  ∀ target auth pdu,
    Event.request target auth pdu ∈ events →
      target.retries ≠ Int32.maxValue

/- Every event pays from what is left. -/
theorem Meter.step_of_run
    {cost : Event → Nat}
    {store : Task → Nat}
    (hMeter : Meter cost store)
    {id : Int32}
    {now : Int}
    {events : List Event}
    (hRun :
      run (Snmpio.step ssl) (fresh id now) events = some c)
    (hExhaustible : Exhaustible events)
    (hStep : Snmpio.step ssl c e = some c') :
    cost e + total store c'.tasks ≤
      total store c.tasks + e.brings store := by
  refine hMeter.step hStep ?_ ?_
  · intro t task x hTask hPoint
    exact (unsent_of_run hRun hTask hPoint).attempt
  · intro t task hTask
    rcases requested_of_run hRun hTask with ⟨auth, pdu, hMem⟩
    exact ⟨inRange_of_run hRun hTask,
      hExhaustible task.target auth pdu hMem⟩

/- The most that an operation may send. -/
def Event.mostSends :
    Event → Nat
| .request target (.community _) _ => target.copies
| .request target (.credentials _) _ => 6 * target.copies
| _ => 0

theorem brings_sendsLeft
    (e : Event) :
    e.brings Task.sendsLeft = e.mostSends := by
  cases e with
  | request target auth pdu =>
      cases auth with
      | community value =>
          simp [Event.brings, Event.mostSends, beginWork,
            Task.sendsLeft, Point.sendsLeft, Work.sendsFirst,
            Work.sendsLater]
      | credentials creds =>
          simp only [Event.brings, Event.mostSends, beginWork,
            Task.sendsLeft, Point.sendsLeft, Work.sendsFirst,
            Work.sendsLater]
          omega
  | _ => rfl

def Point.isSending :
    Point → Bool
| sending _ => true
| _ => false

theorem countP_isSending_le
    (tasks : List Task) :
    tasks.countP (fun task => task.point.isSending) ≤
      total Task.sendsLeft tasks := by
  induction tasks with
  | nil => exact Nat.le_refl 0
  | cons task rest ih =>
      have hSplit :
          total Task.sendsLeft (task :: rest) =
            task.sendsLeft + total Task.sendsLeft rest :=
        rfl
      rw [List.countP_cons, hSplit]
      split
      · next hSending =>
        have hPositive : 0 < task.sendsLeft := by
          cases hPoint : task.point with
          | sending x =>
              simp only [Task.sendsLeft, Point.sendsLeft,
                hPoint]
              omega
          | _ =>
              rw [hPoint] at hSending
              cases hSending
        omega
      · omega

/-
  Whatever arrives, the Client has not sent more datagrams,
  those in flight included, than six exchanges for every
  request with Credentials and one for every other.
-/
theorem traffic_bounded
    {id : Int32}
    {now : Int}
    {events : List Event}
    (hRun : run (step ssl) (fresh id now) events = some c)
    (hExhaustible : Exhaustible events) :
    (events.map Event.sends).sum +
        c.tasks.countP (fun task => task.point.isSending) ≤
      (events.map Event.mostSends).sum := by
  have hPaid :
      spent (step ssl) (fun _ => Event.sends) (fresh id now)
            events +
          total Task.sendsLeft c.tasks ≤
        total Task.sendsLeft [] +
          spent (step ssl) (fun _ => Event.mostSends)
            (fresh id now) events := by
    refine run_amortized
      (fun c => total Task.sendsLeft c.tasks) _ _ ?_ hRun
    intro before e rest m m' hSplit hBefore hStep
    rw [← brings_sendsLeft]
    refine sends_meter.step_of_run hBefore ?_ hStep
    intro target auth pdu hMem
    refine hExhaustible target auth pdu ?_
    rw [hSplit]
    exact List.mem_append_left _ hMem
  rw [spent_eq_sum _ hRun, spent_eq_sum _ hRun] at hPaid
  have hFlying := countP_isSending_le c.tasks
  have hNone : total Task.sendsLeft [] = 0 := rfl
  omega

/- A request that makes three sends, of at most twelve. -/
theorem traffic_bounded_sample :
    ∃ c,
      run (step agentSsl) (fresh 1 0) answeredRun = some c ∧
        Exhaustible answeredRun ∧
        (answeredRun.map Event.sends).sum = 3 ∧
        (answeredRun.map Event.sends).sum +
            c.tasks.countP (fun task => task.point.isSending) ≤
          6 * agentTarget.copies := by
  rcases Option.bind_eq_some_iff.mp answeredRun_task with
    ⟨c, hRun, _⟩
  have hExhaustible : Exhaustible answeredRun := by
    intro target auth pdu hMem
    have hTarget : target = agentTarget := by
      simp [answeredRun, askedRun, ahead] at hMem
      exact hMem.1
    rw [hTarget]
    decide
  refine ⟨c, hRun, hExhaustible, by decide +kernel, ?_⟩
  exact Nat.le_trans (traffic_bounded hRun hExhaustible)
    (by decide +kernel)

end Snmpio
