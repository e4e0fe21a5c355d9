import Snmpio.Client.Sharing
import Snmpio.Client.Traffic

/-
  Every operation comes to an end.

  A coroutine that is not over can always get on: it runs,
  its send is about to complete, its timer to expire, or the
  discovery it waits for gets on in its place.  As it has
  only so many turns to take, it gets to its end whatever
  arrives meanwhile, if the executor goes on.

  Key definitions include:
    * `Work.reaches`
    * `Round`

  Key theorems include:
    * `runTask_some`
    * `round_exists`
    * `operations_complete`
-/

------------------------------------------------------------
-- Where Coroutines Can Be
------------------------------------------------------------

namespace Snmpio

variable {ssl : OpenSsl} {c c' : Client} {task task' : Task}
variable {t : Nat} {e : Event} {point : Point}

/- Whether the code of a coroutine has this point. -/
def Work.reaches :
    Work → Point → Bool
| sync _ _ _, .start => false
| v3 _ _, .ensuring => true
| v3 _ _, .parking _ => true
| v3 _ _, .parked _ _ => true
| v3 _ _, .ensured _ => true
| _, .ensuring => false
| _, .parking _ => false
| _, .parked _ _ => false
| _, .ensured _ => false
| identify _ _, .syncing _ => true
| _, .syncing _ => false
| identify _ _, .finishing _ => true
| sync _ _ _, .finishing _ => true
| _, .finishing _ => false
| _, _ => true

def Task.Reaches
    (task : Task) : Prop :=
  task.work.reaches task.point = true

theorem Work.reaches_finishing
    {work : Work}
    {d : Nat}
    (hDiscovery : work.discovery? = some d)
    (ec : Option Failure) :
    work.reaches (.finishing ec) = true := by
  cases work with
  | v2c _ => cases hDiscovery
  | v3 _ _ => cases hDiscovery
  | identify _ _ => rfl
  | sync _ _ _ => rfl

theorem Work.reaches_wake
    {work : Work}
    (hReaches : work.reaches point = true) :
    work.reaches point.wake = true := by
  cases point with
  | parked d woken =>
      cases work with
      | v3 _ _ => rfl
      | _ => cases hReaches
  | waiting x deadline soft woken =>
      cases work with
      | _ => rfl
  | _ => exact hReaches

/- Everybody exchanges messages. -/
theorem Work.reaches_exchange
    (work : Work)
    (hExchange : point.exchange?.isSome = true) :
    work.reaches point = true := by
  cases point with
  | entering _ =>
      cases work with
      | _ => rfl
  | sending _ =>
      cases work with
      | _ => rfl
  | waiting _ _ _ _ =>
      cases work with
      | _ => rfl
  | leaving _ =>
      cases work with
      | _ => rfl
  | returned _ _ =>
      cases work with
      | _ => rfl
  | _ => cases hExchange

theorem Work.reaches_over
    (work : Work)
    (hOver : point.isOver = true) :
    work.reaches point = true := by
  cases point with
  | completed _ _ =>
      cases work with
      | _ => rfl
  | threw =>
      cases work with
      | _ => rfl
  | ended =>
      cases work with
      | _ => rfl
  | _ => cases hOver

theorem Opening.reaches
    {keys : KeyCache}
    (hOpening : Opening c task keys c' task') :
    task'.Reaches := by
  cases hOpening with
  | fails _ _ hPoint =>
      cases hPoint with
      | completed _ _ => exact Work.reaches_over _ rfl
      | finishing _ hDiscovery =>
          exact Work.reaches_finishing hDiscovery _
  | opens _ _ => exact Work.reaches_exchange _ rfl

theorem Entry.reaches
    {out : Outside}
    {x : Exchange}
    (hEntry : Entry out c task x c' task') :
    task'.Reaches := by
  rcases hEntry.goes with
    ⟨point, rfl, rfl | rfl | ⟨ec, rfl⟩⟩
  all_goals exact Work.reaches_exchange _ rfl

theorem afterSuccess_reaches
    (c : Client)
    (task : Task)
    (p : Pending) :
    (afterSuccess c task p).2.Reaches := by
  unfold afterSuccess
  split
  · exact Work.reaches_over _ rfl
  · unfold afterAnswer
    dsimp only
    split
    · split
      · exact Work.reaches_over _ rfl
      · split
        · rfl
        · exact Work.reaches_over _ rfl
    · exact Work.reaches_over _ rfl
  · next hWork =>
    unfold afterIdentify Task.Reaches
    dsimp only
    split_ifs
    all_goals
      simp only [Task.goto, hWork]
      rfl
  · next hWork =>
    unfold afterSync Task.Reaches
    split_ifs
    all_goals
      simp only [Task.goto, hWork]
      rfl

theorem Move.reaches
    {out : Outside}
    {spawned : Option Task}
    (hMove : Move ssl out c task c' task' spawned) :
    task'.Reaches := by
  have hV3 {creds : Credentials} {attempt : Nat}
      {point : Point}
      (hWork : task.work = .v3 creds attempt)
      (hReaches :
        (Work.v3 creds attempt).reaches point = true) :
      (task.goto point).Reaches := by
    unfold Task.Reaches Task.goto
    rw [hWork]
    exact hReaches
  cases hMove with
  | beginV2c _ hWork => exact (startV2c_opening c hWork).reaches
  | beginV3 _ hWork =>
      unfold startV3
      split_ifs
      all_goals exact hV3 hWork rfl
  | beginIdentify _ hWork =>
      exact (startIdentify_opening out c hWork).reaches
  | ensure _ hWork hEnsure =>
      rcases ensureEngine_cases hEnsure with
        ⟨_, rfl, _⟩ | ⟨_, _, _, rfl, _⟩ | ⟨_, _, rfl, _⟩
      all_goals exact hV3 hWork rfl
  | park _ hWork => exact hV3 hWork rfl
  | fail _ hWork => exact hV3 hWork rfl
  | send _ hWork =>
      exact (sendRequest_opening out c hWork).reaches
  | @enter x _ =>
      exact (enterTransact_entry out c task x).reaches
  | leave _ _ => exact Work.reaches_exchange _ rfl
  | failed _ =>
      unfold afterFailure
      split
      · exact Work.reaches_over _ rfl
      · exact Work.reaches_over _ rfl
      · next hWork =>
        have hDiscovery := congrArg Work.discovery? hWork
        exact Work.reaches_finishing hDiscovery _
      · next hWork =>
        have hDiscovery := congrArg Work.discovery? hWork
        exact Work.reaches_finishing hDiscovery _
  | succeeded _ _ => exact afterSuccess_reaches c task _
  | beginSync hPoint hWork =>
      exact (startSync_opening out c hPoint hWork).reaches
  | finish _ _ => exact Work.reaches_over _ rfl

theorem Resumes.reaches
    (hResumes : Resumes c t task e point)
    (hBefore : task.Reaches) :
    (task.goto point).Reaches := by
  cases hResumes with
  | sent ec hPoint =>
      unfold afterSend
      split
      all_goals exact Work.reaches_exchange _ rfl
  | waited hPoint hp =>
      unfold afterWait attemptPoint
      split_ifs
      all_goals exact Work.reaches_exchange _ rfl
  | unparked hPoint hd =>
      unfold Task.Reaches at hBefore
      rw [hPoint] at hBefore
      unfold Task.Reaches Task.goto afterPark
      cases hWork : task.work with
      | v3 creds attempt =>
          split_ifs
          all_goals rfl
      | _ =>
          rw [hWork] at hBefore
          cases hBefore

theorem TaskStep.reaches
    (hStep : TaskStep ssl c t e task')
    (hBefore :
      ∀ task, c.tasks[t]? = some task → task.Reaches) :
    task'.Reaches := by
  cases hStep with
  | moved _ _ hMove => exact hMove.reaches
  | spawned _ _ hMove _ =>
      rcases hMove.spawned_eq rfl with ⟨creds, rfl⟩
      rfl
  | @requested _ auth _ _ _ =>
      cases auth with
      | _ => rfl
  | resumed _ hTask hResumes =>
      exact hResumes.reaches (hBefore _ hTask)
  | raised _ _ _ => exact Work.reaches_over _ rfl
  | @signalled _ task _ _ hTask _ _ =>
      have hReaches := hBefore task hTask
      unfold Task.Reaches
      rcases signalled_cases task.point with hSame | hWake
      · rw [hSame]
        exact hReaches
      · rw [hWake]
        exact Work.reaches_wake hReaches
  | woken hTask _ _ =>
      exact Work.reaches_wake (hBefore _ hTask)
  | kept hTask _ => exact hBefore _ hTask

theorem reaches_of_run
    {id : Int32}
    {now : Int}
    {events : List Event}
    (hRun :
      Machine.run (step ssl) (fresh id now) events = some c)
    (hTask : c.tasks[t]? = some task) :
    task.Reaches :=
  tasks_of_run TaskStep.reaches hRun hTask

/- So what runs has a next point. -/
theorem runTask_some
    (ssl : OpenSsl)
    (out : Outside)
    (hRuns : task.point.runs = true)
    (hReaches : task.Reaches)
    (hExchange :
      ∀ x, task.point.exchange? = some x →
        ∃ p, c.pendings[x.pending]? = some p) :
    ∃ next, runTask ssl out c task = some next := by
  rcases task with ⟨work, target, pdu, point, cancelled⟩
  unfold Task.Reaches at hReaches
  cases point with
  | start =>
      cases work with
      | sync _ _ _ => cases hReaches
      | _ => exact ⟨_, rfl⟩
  | ensuring =>
      cases work with
      | v3 _ _ => exact ⟨_, rfl⟩
      | _ => cases hReaches
  | parking _ =>
      cases work with
      | v3 _ _ => exact ⟨_, rfl⟩
      | _ => cases hReaches
  | ensured ec =>
      cases work with
      | v3 _ _ =>
          cases ec with
          | _ => exact ⟨_, rfl⟩
      | _ => cases hReaches
  | entering x =>
      cases work with
      | _ => exact ⟨_, rfl⟩
  | leaving x =>
      rcases hExchange x rfl with ⟨p, hp⟩
      cases work with
      | _ => exact ⟨_, by simp [runTask, hp]; rfl⟩
  | returned x ec =>
      rcases hExchange x rfl with ⟨p, hp⟩
      cases ec with
      | some ec =>
          cases work with
          | _ => exact ⟨_, rfl⟩
      | none =>
          cases work with
          | _ => exact ⟨_, by simp [runTask, hp]; rfl⟩
  | syncing _ =>
      cases work with
      | identify _ _ => exact ⟨_, rfl⟩
      | _ => cases hReaches
  | finishing _ =>
      cases work with
      | identify _ _ => exact ⟨_, rfl⟩
      | sync _ _ _ => exact ⟨_, rfl⟩
      | _ => cases hReaches
  | _ => cases hRuns

end Snmpio

------------------------------------------------------------
-- Rounds
------------------------------------------------------------

namespace Snmpio

open Machine

variable {ssl : OpenSsl} {c c' : Client} {task : Task}
variable {t : Nat} {id : Int32} {now : Int}
variable {events : List Event}

/- The calls that begin an operation, or Stopping. -/
def Event.isCall :
    Event → Bool
| .request _ _ _ => true
| .stop => true
| _ => false

/-
  Somebody takes a turn.  Datagrams, errors, cancellations,
  exceptions and time may come before it and after it.
-/
structure Round
    (events : List Event) : Prop where
  turn : 0 < (events.map Event.turns).sum
  uncalled : ∀ e ∈ events, e.isCall = false

/- Every Target is asked once at least, and given up on. -/
def Bounded
    (events : List Event) : Prop :=
  ∀ target auth pdu,
    Event.request target auth pdu ∈ events →
      0 ≤ target.retries ∧ target.retries ≠ Int32.maxValue

/- A turn that can be taken once time has passed. -/
def CanGoOn
    (ssl : OpenSsl)
    (c : Client) : Prop :=
  ∃ round c', Round round ∧
    run (guarded (step ssl) suspendsFirst) c round = some c'

theorem CanGoOn.of_step
    {e : Event}
    (hTurn : e.turns = 1)
    (hOk : suspendsFirst c e = true)
    (hStep : (step ssl c e).isSome = true) :
    CanGoOn ssl c := by
  rcases Option.isSome_iff_exists.mp hStep with ⟨c', hStep⟩
  refine ⟨[e], c', ⟨?_, ?_⟩, ?_⟩
  · simp [hTurn]
  · intro e' hMem
    cases List.mem_singleton.mp hMem
    cases e with
    | request _ _ _ => cases hTurn
    | stop => cases hTurn
    | _ => rfl
  · exact run_cons.mpr
      ⟨c', guarded_eq_some.mpr ⟨hOk, hStep⟩, rfl⟩

/- Its timer expires, however far the deadline is. -/
theorem CanGoOn.of_waiting
    {x : Exchange}
    {deadline : Int}
    {soft woken : Bool}
    {p : Pending}
    (hIdle : c.strand = [])
    (hTask : c.tasks[t]? = some task)
    (hPoint : task.point = .waiting x deadline soft woken)
    (hp : c.pendings[x.pending]? = some p) :
    CanGoOn ssl c := by
  let elapsed := (deadline - c.now).toNat
  let late : Client := { c with now := c.now + elapsed }
  let timed : Task :=
    task.goto (.waiting x deadline soft true)
  let due : Client :=
    { late with tasks := c.tasks.set t timed }
  have hLate : deadline ≤ c.now + elapsed := by omega
  have hBound := (List.getElem?_eq_some_iff.mp hTask).1
  have hTimed : due.tasks[t]? = some timed :=
    List.getElem?_set_self hBound
  have hExpire : step ssl late (.expire t) = some due := by
    simp only [step, onExpire]
    change (c.tasks[t]?).bind _ = _
    rw [hTask, Option.bind_some, hPoint]
    exact if_pos hLate
  have hResume :
      step ssl due (.resume t) =
        some (due.place t []
          (timed.goto
            (afterWait due timed x deadline soft p))) := by
    have hFree : due.isIdle = true := by
      change c.strand.isEmpty = true
      rw [hIdle]
      rfl
    have hFound : due.pendings[x.pending]? = some p := hp
    simp only [step, hFree, if_true, onResume, hTimed,
      Option.bind_eq_bind, Option.bind_some]
    simp only [timed, Task.goto, hFound, Option.bind_some]
  have hRun :
      run (guarded (step ssl) suspendsFirst) c
          [.tick elapsed, .expire t, .resume t] = some _ :=
    run_cons.mpr
      ⟨late, guarded_eq_some.mpr ⟨rfl, rfl⟩, run_cons.mpr
        ⟨due, guarded_eq_some.mpr ⟨rfl, hExpire⟩, run_cons.mpr
          ⟨_, guarded_eq_some.mpr ⟨rfl, hResume⟩, rfl⟩⟩⟩
  refine ⟨_, _, ⟨?_, ?_⟩, hRun⟩
  · exact Nat.one_pos
  · simp [Event.isCall]

theorem CanGoOn.of_sending
    {x : Exchange}
    (hIdle : c.strand = [])
    (hTask : c.tasks[t]? = some task)
    (hPoint : task.point = .sending x) :
    CanGoOn ssl c := by
  refine .of_step (e := .sent t none) rfl rfl ?_
  have hFree : c.isIdle = true := by
    rw [Client.isIdle, hIdle]
    rfl
  simp only [step, hFree, if_true, onSent, hTask,
    Option.bind_eq_bind, Option.bind_some, hPoint,
    Option.isSome_some]

theorem CanGoOn.of_woken
    {d : Nat}
    {discovery : Discovery}
    (hIdle : c.strand = [])
    (hTask : c.tasks[t]? = some task)
    (hPoint : task.point = .parked d true)
    (hDiscovery : c.discoveries[d]? = some discovery) :
    CanGoOn ssl c := by
  refine .of_step (e := .resume t) rfl rfl ?_
  have hFree : c.isIdle = true := by
    rw [Client.isIdle, hIdle]
    rfl
  simp only [step, hFree, if_true, onResume, hTask,
    Option.bind_eq_bind, Option.bind_some, hPoint,
    hDiscovery, Option.isSome_some]

/- Discoveries that requests are queued behind exist. -/
theorem behind_of_run
    {d : Nat}
    (hRun :
      run (guarded (step ssl) suspendsFirst) (fresh id now)
        events = some c)
    (hTask : c.tasks[t]? = some task)
    (hBehind : task.behind? = some d) :
    ∃ discovery, c.discoveries[d]? = some discovery := by
  have hJoined := queued_of_run (run_of_guarded hRun)
  have hBound := hJoined.known t task d hTask hBehind
  exact ⟨_, List.getElem?_eq_getElem hBound⟩

/- Whoever is on the strand runs. -/
theorem StrandShape.head_runs
    (hShape : StrandShape c)
    {head : Nat}
    {rest : List Nat}
    (hStrand : c.strand = head :: rest) :
    ∃ task : Task, c.tasks[head]? = some task ∧
      task.point.runs = true := by
  have hMem : head ∈ c.strand := by
    rw [hStrand]
    exact List.mem_cons_self
  rcases (hShape.runs head).mp hMem with ⟨point, hRunning⟩
  rcases Option.bind_eq_some_iff.mp hRunning with
    ⟨task, hTask, hPoint⟩
  refine ⟨task, hTask, ?_⟩
  by_contra hNot
  dsimp only at hPoint
  rw [if_neg hNot] at hPoint
  cases hPoint

/- A request that can be sent gets to its first send. -/
theorem suspendsFirst_advance
    (hStopping : c.stopping = false)
    (hRetries :
      ∀ (t : Nat) (task : Task), c.tasks[t]? = some task →
        0 ≤ task.target.retries) :
    suspendsFirst c (.advance {}) = true := by
  unfold suspendsFirst
  dsimp only
  split
  · rw [Option.all_eq_true]
    intro task hTask
    split
    · simp [hStopping, hRetries _ task hTask]
    · rfl
  · rfl

/- Unless all is done, somebody can take a turn. -/
theorem round_exists
    (hRun :
      run (guarded (step ssl) suspendsFirst) (fresh id now)
        events = some c)
    (hStopping : c.stopping = false)
    (hBounded : Bounded events)
    (hTask : c.tasks[t]? = some task)
    (hLive : task.point.isOver = false) :
    CanGoOn ssl c := by
  have hPlain := run_of_guarded hRun
  have hShape := strandShape_of_run hPlain
  have hExchange {i : Nat} {task : Task} {x : Exchange}
      (hTask : c.tasks[i]? = some task)
      (hExchange : task.point.exchange? = some x) :
      ∃ p, c.pendings[x.pending]? = some p := by
    have hSound := (sound_of_run hPlain).tasks i task hTask
    rcases hSound.exchange x hExchange with ⟨p, hp, _⟩
    exact ⟨p, hp⟩
  cases hStrand : c.strand with
  | cons head rest =>
      rcases hShape.head_runs hStrand with
        ⟨first, hFirst, hRuns⟩
      rcases runTask_some ssl {} hRuns
          (reaches_of_run hPlain hFirst)
          (fun x => hExchange hFirst) with
        ⟨⟨c₁, task₁, spawned⟩, hMove⟩
      refine .of_step (e := .advance {}) rfl ?_ ?_
      · refine suspendsFirst_advance hStopping ?_
        intro i other hOther
        rcases requested_of_run hPlain hOther with
          ⟨auth, pdu, hMem⟩
        exact (hBounded other.target auth pdu hMem).1
      · simp only [step, advance, hStrand, hFirst,
          Option.bind_eq_bind, Option.bind_some, hMove,
          Option.isSome_some]
  | nil =>
      -- Nobody runs, so what is alive is suspended.
      have hIdle {i : Nat} {task : Task}
          (hTask : c.tasks[i]? = some task) :
          task.point.runs = false := by
        have hNone := hShape.idle hStrand i
        rw [Client.running, Client.view_of_task hTask] at hNone
        by_contra hNot
        rw [if_pos (by simpa using hNot)] at hNone
        cases hNone
      have hSuspended {i : Nat} {task : Task}
          (hTask : c.tasks[i]? = some task)
          (hLive : task.point.isOver = false)
          (hWaits :
            ∀ d, task.point = .parked d false →
              CanGoOn ssl c) :
          CanGoOn ssl c := by
        have hRuns := hIdle hTask
        cases hPoint : task.point with
        | sending x => exact .of_sending hStrand hTask hPoint
        | waiting x deadline soft woken =>
            rcases hExchange hTask (by rw [hPoint]; rfl) with
              ⟨p, hp⟩
            exact .of_waiting hStrand hTask hPoint hp
        | parked d woken =>
            cases woken with
            | false => exact hWaits d hPoint
            | true =>
                rcases behind_of_run hRun hTask
                    (by rw [Task.behind?, hPoint]; rfl) with
                  ⟨discovery, hDiscovery⟩
                exact .of_woken hStrand hTask hPoint hDiscovery
        | completed _ _ =>
            rw [hPoint] at hLive
            cases hLive
        | threw =>
            rw [hPoint] at hLive
            cases hLive
        | ended =>
            rw [hPoint] at hLive
            cases hLive
        | _ =>
            rw [hPoint] at hRuns
            cases hRuns
      refine hSuspended hTask hLive ?_
      -- The discovery it waits for waits for nobody.
      intro d hPoint
      rcases parked_registered hRun hTask hPoint with
        ⟨_, _, i, runner, hRunner, hRuns, _⟩
      rcases Task.runner?_eq_some.mp hRuns with
        ⟨hAlive, hDiscovery⟩
      refine hSuspended hRunner hAlive ?_
      intro d' hParked
      rcases placed_of_run hPlain hRunner d hDiscovery with
        hPlace | hEnded
      · rw [hParked] at hPlace
        cases hPlace
      · rw [hParked] at hEnded
        cases hEnded

/- What a round does to the turns that are left. -/
theorem round_lowers
    {round : List Event}
    (hRun :
      run (guarded (step ssl) suspendsFirst) (fresh id now)
        events = some c)
    (hBounded : Bounded events)
    (hRound : Round round)
    (hAfter :
      run (guarded (step ssl) suspendsFirst) c round =
        some c') :
    total Task.turnsLeft c'.tasks <
      total Task.turnsLeft c.tasks := by
  have hPlain := run_of_guarded hRun
  have hAfter := run_of_guarded hAfter
  have hPaid :
      spent (step ssl) (fun _ => Event.turns) c round +
          total Task.turnsLeft c'.tasks ≤
        total Task.turnsLeft c.tasks +
          spent (step ssl) (fun _ _ => 0) c round := by
    refine run_amortized
      (fun c => total Task.turnsLeft c.tasks) _ _ ?_ hAfter
    intro before e rest m m' hSplit hBefore hStep
    have hUncalled {e' : Event} (hMem : e' ∈ before ++ [e]) :
        e'.isCall = false := by
      refine hRound.uncalled e' ?_
      rw [hSplit, List.append_cons]
      exact List.mem_append_left rest hMem
    have hFree : e.brings Task.turnsLeft = 0 := by
      have hThis := hUncalled
        (List.mem_append_right before (List.mem_singleton_self e))
      cases e with
      | request _ _ _ => cases hThis
      | _ => rfl
    rw [← hFree]
    refine turns_meter.step_of_run
      (run_append.mpr ⟨c, hPlain, hBefore⟩) ?_ hStep
    intro target auth pdu hMem
    rcases List.mem_append.mp hMem with hOld | hNew
    · exact (hBounded target auth pdu hOld).2
    · have hThis := hUncalled (List.mem_append_left [e] hNew)
      cases hThis
  have hTurn := hRound.turn
  rw [spent_eq_sum _ hAfter, spent_eq_sum _ hAfter] at hPaid
  have hNone : (round.map (fun _ => 0)).sum = 0 := by
    simp
  omega

/-
  Whatever arrives and however long it takes, all operations
  and discoveries get to their end, as long as the executor
  goes on.
-/
theorem operations_complete
    {id : Int32}
    {now : Int}
    {events : List Event}
    (hRun :
      run (guarded (step ssl) suspendsFirst) (fresh id now)
        events = some c)
    (hStopping : c.stopping = false)
    (hBounded : Bounded events) :
    Inevitable
      (fun c round =>
        run (guarded (step ssl) suspendsFirst) c round)
      (fun _ round => Round round)
      (fun c =>
        ∀ (t : Nat) (task : Task), c.tasks[t]? = some task →
          task.point.isOver = true)
      c := by
  refine inevitable_of_rank
    (fun c =>
      ∃ events, Bounded events ∧ c.stopping = false ∧
        run (guarded (step ssl) suspendsFirst) (fresh id now)
          events = some c)
    (fun c => total Task.turnsLeft c.tasks) ?_ ?_
    ⟨events, hBounded, hStopping, hRun⟩
  · rintro c ⟨events, hBounded, hStopping, hRun⟩ hNot
    simp only [not_forall] at hNot
    rcases hNot with ⟨t, task, hTask, hLive⟩
    exact round_exists hRun hStopping hBounded hTask
      (by simpa using hLive)
  · rintro c round c' ⟨events, hBounded, hStopping, hRun⟩
      hRound hAfter
    refine ⟨⟨events ++ round, ?_, ?_, ?_⟩,
      round_lowers hRun hBounded hRound hAfter⟩
    · intro target auth pdu hMem
      rcases List.mem_append.mp hMem with hOld | hNew
      · exact hBounded target auth pdu hOld
      · cases hRound.uncalled _ hNew
    · refine run_invariant
        (P := fun round c =>
          (∀ e ∈ round, e.isCall = false) →
            c.stopping = false)
        (fun _ => hStopping) ?_ (run_of_guarded hAfter)
        hRound.uncalled
      intro before c e c' _ ih hStep hUncalled
      have hGoing : e ≠ .stop := by
        rintro rfl
        cases hUncalled .stop (by simp)
      rw [(step_flags hStep hGoing).1]
      exact ih fun e' hMem =>
        hUncalled e' (List.mem_append_left _ hMem)
    · exact run_append.mpr ⟨c, hRun, hAfter⟩

/- The request of `queuedRun`, and its discovery. -/
theorem operations_complete_sample :
    ∃ c,
      run (guarded (step agentSsl) suspendsFirst) (fresh 1 0)
          queuedRun = some c ∧
        c.tasks.length = 2 ∧
        Inevitable
          (fun c round =>
            run (guarded (step agentSsl) suspendsFirst) c
              round)
          (fun _ round => Round round)
          (fun c =>
            ∀ (t : Nat) (task : Task),
              c.tasks[t]? = some task →
                task.point.isOver = true)
          c := by
  have hEnd :
      (run (guarded (step agentSsl) suspendsFirst)
        (fresh 1 0) queuedRun).map (fun c =>
          (c.tasks.length, c.stopping)) = some (2, false) := by
    decide +kernel
  rcases Option.map_eq_some_iff.mp hEnd with ⟨c, hRun, hThere⟩
  rw [Prod.mk.injEq] at hThere
  refine ⟨c, hRun, hThere.1, ?_⟩
  refine operations_complete hRun hThere.2 ?_
  intro target auth pdu hMem
  have hTarget : target = agentTarget := by
    simp [queuedRun, askedRun, ahead] at hMem
    exact hMem.1
  rw [hTarget]
  decide

end Snmpio
