import Snmpio.Client.Retransmission

/-
  Who runs an Engine Discovery, and who waits behind it.

  A registered discovery has one coroutine, which has not
  ended.  As long as a discovery that was started inline
  suspends before it ends, whoever waits for one waits for
  one that is registered.

  Key definitions include:
    * `Task.runner?`
    * `Task.awaits?`
    * `suspendsFirst`
    * `Attended`

  Key theorems include:
    * `Attended.finish`
    * `attended_of_run`
    * `parked_registered`
-/

------------------------------------------------------------
-- Runners and Waiters
------------------------------------------------------------

namespace Snmpio

variable {ssl : OpenSsl} {c c' : Client} {task task' : Task}
variable {point : Point} {d : Nat} {keys : KeyCache}
variable {out : Outside} {spawned : Option Task}

/- The discovery that a coroutine still carries out. -/
def Task.runner?
    (task : Task) : Option Nat :=
  if task.point.isOver then none else task.work.discovery?

/- The discovery whose end a wait still has to hear of. -/
def Point.awaits? :
    Point → Option Nat
| parking d => some d
| parked d false => some d
| _ => none

def Task.awaits?
    (task : Task) : Option Nat :=
  task.point.awaits?

/- The discovery that a request is queued behind. -/
def Point.behind? :
    Point → Option Nat
| parking d => some d
| parked d _ => some d
| _ => none

/- The discovery it is queued behind, if any. -/
def Task.behind?
    (task : Task) : Option Nat :=
  task.point.behind?

@[simp]
theorem Point.wake_behind?
    (point : Point) :
    point.wake.behind? = point.behind? := by
  cases point with
  | _ => rfl

theorem Point.behind?_of_awaits?
    (hAwaits : point.awaits? = some d) :
    point.behind? = some d := by
  cases point with
  | parking _ => exact hAwaits
  | parked _ woken =>
      cases woken with
      | true => cases hAwaits
      | false => exact hAwaits
  | _ => cases hAwaits

/- Where a discovery can be, before it ends. -/
def Point.discovers :
    Point → Bool
| start => true
| entering _ => true
| sending _ => true
| waiting _ _ _ _ => true
| leaving _ => true
| returned _ _ => true
| syncing _ => true
| finishing _ => true
| _ => false

@[simp]
theorem Point.wake_discovers
    (point : Point) :
    point.wake.discovers = point.discovers := by
  cases point with
  | _ => rfl

/- Who runs a discovery has not ended. -/
theorem Point.discovers_isOver
    (hDiscovers : point.discovers = true) :
    point.isOver = false := by
  cases point with
  | completed _ _ => cases hDiscovers
  | threw => cases hDiscovers
  | ended => cases hDiscovers
  | _ => rfl

theorem attemptPoint_discovers
    (target : Target)
    (x : Exchange) :
    (attemptPoint target x).discovers = true := by
  unfold attemptPoint
  split
  · rfl
  · rfl

theorem Task.runner?_eq_some
    {d : Nat} :
    task.runner? = some d ↔
      task.point.isOver = false ∧
        task.work.discovery? = some d := by
  unfold runner?
  split
  · next hOver => simp [hOver]
  · next hOver => simp [hOver]

theorem Point.wake_awaits?
    (hAwaits : point.wake.awaits? = some d) :
    point.awaits? = some d := by
  cases point with
  | parked _ _ => cases hAwaits
  | _ => exact hAwaits

/- A coroutine runs the same discovery as before, if any. -/
structure Task.Keeps
    (task task' : Task) : Prop where
  target : task'.target = task.target
  credentials :
    task'.work.credentials? = task.work.credentials?
  runner : task'.runner? = task.runner?

/- A coroutine waits for nothing it did not wait for. -/
structure Task.Waits
    (task task' : Task) : Prop where
  awaits :
    ∀ d, task'.awaits? = some d → task.awaits? = some d
  behind :
    ∀ d, task'.behind? = some d → task.behind? = some d

theorem Task.Keeps.refl
    (task : Task) :
    task.Keeps task :=
  ⟨rfl, rfl, rfl⟩

theorem Task.Waits.refl
    (task : Task) :
    task.Waits task :=
  ⟨fun _ => id, fun _ => id⟩

/- Who waits for nothing need not be told. -/
theorem Task.Waits.of_none
    (hNone : task'.behind? = none) :
    task.Waits task' := by
  refine ⟨?_, ?_⟩
  · intro d hAwaits
    have hBehind : task'.behind? = some d :=
      Point.behind?_of_awaits? hAwaits
    rw [hNone] at hBehind
    cases hBehind
  · intro d hBehind
    rw [hNone] at hBehind
    cases hBehind

theorem Task.Nudged.keeps
    (hNudged : task.Nudged task') :
    task.Keeps task' := by
  refine ⟨hNudged.target, ?_, ?_⟩
  · rw [hNudged.work]
  · unfold Task.runner?
    rw [hNudged.work]
    rcases hNudged.point with hSame | hWake
    · rw [hSame]
    · rw [hWake, Point.wake_isOver]

theorem Task.Waits.of_point
    (hPoint :
      task'.point = task.point ∨
        task'.point = task.point.wake) :
    task.Waits task' := by
  refine ⟨?_, ?_⟩
  · intro d hAwaits
    rcases hPoint with hSame | hWake
    · rw [Task.awaits?, ← hSame]
      exact hAwaits
    · rw [Task.awaits?, hWake] at hAwaits
      exact Point.wake_awaits? hAwaits
  · intro d hBehind
    rcases hPoint with hSame | hWake
    · rw [Task.behind?, ← hSame]
      exact hBehind
    · rw [Task.behind?, hWake, Point.wake_behind?] at hBehind
      exact hBehind

theorem Point.isOver_of_runs
    (hRuns : point.runs = true) :
    point.isOver = false := by
  cases point with
  | completed _ _ => cases hRuns
  | threw => cases hRuns
  | ended => cases hRuns
  | _ => rfl

/- Who opens an exchange waits for no discovery. -/
theorem Opening.behind?
    (hOpening : Opening c task keys c' task') :
    task'.behind? = none := by
  cases hOpening with
  | fails _ _ hPoint =>
      cases hPoint with
      | completed e _ => rfl
      | finishing e _ => rfl
  | opens _ _ => rfl

theorem Entry.behind?
    {x : Exchange}
    (hEntry : Entry out c task x c' task') :
    task'.behind? = none := by
  rcases hEntry.goes with
    ⟨point, rfl, rfl | rfl | ⟨ec, rfl⟩⟩
  · rfl
  · rfl
  · rfl

theorem Afterwards.behind?
    (hAfterwards : Afterwards task task') :
    task'.behind? = none := by
  cases hAfterwards with
  | _ => rfl

/- Only `ensureEngine` leads into its wait. -/
theorem Move.behind
    (hMove : Move ssl out c task c' task' spawned)
    (hBehind : task'.behind? = some d) :
    task.point = .ensuring ∨
      (task.point = .parking d ∧
        task'.point = .parked d false) := by
  have hNever :
      ∀ {P : Prop}, task'.behind? = none → P := by
    intro P hNone
    rw [hBehind] at hNone
    cases hNone
  cases hMove with
  | beginV2c _ hWork =>
      exact hNever (startV2c_opening c hWork).behind?
  | beginV3 _ _ =>
      unfold startV3 at hBehind
      split_ifs at hBehind
      all_goals cases hBehind
  | beginIdentify _ hWork =>
      exact hNever (startIdentify_opening out c hWork).behind?
  | ensure hPoint _ _ => exact Or.inl hPoint
  | park hPoint _ =>
      cases hBehind
      exact Or.inr ⟨hPoint, rfl⟩
  | fail _ _ => cases hBehind
  | send _ hWork =>
      exact hNever (sendRequest_opening out c hWork).behind?
  | enter _ =>
      exact hNever (enterTransact_entry out c task _).behind?
  | leave _ _ => cases hBehind
  | failed _ =>
      unfold afterFailure at hBehind
      split at hBehind
      all_goals cases hBehind
  | succeeded _ _ =>
      exact hNever (afterSuccess_afterwards c task _).behind?
  | beginSync hPoint hWork =>
      exact hNever
        (startSync_opening out c hPoint hWork).behind?
  | finish _ _ => cases hBehind

/- A discovery that opens one goes on with it. -/
theorem Opening.discovers
    (hDiscovery : task.work.discovery? = some d)
    (hOpening : Opening c task keys c' task') :
    task'.point.discovers = true := by
  cases hOpening with
  | fails _ _ hPoint =>
      cases hPoint with
      | completed e hRequest =>
          rw [hRequest] at hDiscovery
          cases hDiscovery
      | finishing e _ => rfl
  | opens _ _ => rfl

theorem Entry.discovers
    {x : Exchange}
    (hEntry : Entry out c task x c' task') :
    task'.point.discovers = true := by
  rcases hEntry.goes with
    ⟨point, rfl, rfl | rfl | ⟨ec, rfl⟩⟩
  · rfl
  · rfl
  · rfl

theorem Afterwards.discovers
    (hDiscovery : task.work.discovery? = some d)
    (hAfterwards : Afterwards task task') :
    task'.point.discovers = true := by
  cases hAfterwards with
  | completed _ _ hRequest =>
      rw [hRequest] at hDiscovery
      cases hDiscovery
  | again hWork =>
      rw [hWork] at hDiscovery
      cases hDiscovery
  | syncing _ _ => rfl
  | finishing _ _ => rfl

/- A discovery ends in `runDiscovery` only. -/
theorem Move.discovers
    (hMove : Move ssl out c task c' task' spawned)
    (hDiscovery : task.work.discovery? = some d)
    (hUnfinished : ∀ ec, task.point ≠ .finishing ec) :
    task'.point.discovers = true := by
  have hRequest :
      ∀ {creds : Credentials} {attempt : Nat},
        ¬ task.work = .v3 creds attempt := by
    intro creds attempt hWork
    rw [hWork] at hDiscovery
    cases hDiscovery
  cases hMove with
  | beginV2c _ hWork =>
      rw [hWork] at hDiscovery
      cases hDiscovery
  | beginV3 _ hWork => exact absurd hWork hRequest
  | beginIdentify _ hWork =>
      exact (startIdentify_opening out c hWork).discovers
        hDiscovery
  | ensure _ hWork _ => exact absurd hWork hRequest
  | park _ hWork => exact absurd hWork hRequest
  | fail _ hWork => exact absurd hWork hRequest
  | send _ hWork => exact absurd hWork hRequest
  | enter _ =>
      exact (enterTransact_entry out c task _).discovers
  | leave _ _ => rfl
  | failed _ =>
      unfold afterFailure
      split
      · next hWork =>
        rw [hWork] at hDiscovery
        cases hDiscovery
      · next hWork => exact absurd hWork hRequest
      · rfl
      · rfl
  | succeeded _ _ =>
      exact (afterSuccess_afterwards c task _).discovers
        hDiscovery
  | beginSync hPoint hWork =>
      exact (startSync_opening out c hPoint hWork).discovers
        hDiscovery
  | finish hPoint _ => exact absurd hPoint (hUnfinished _)

/- Only the time-sync phase is work of its own. -/
theorem Opening.work
    (hOpening : Opening c task keys c' task') :
    task'.work = task.work ∨
      ∃ creds d engineId, task.work = .identify creds d ∧
        task.point = .syncing engineId ∧
        task'.work = .sync creds d engineId := by
  cases hOpening with
  | fails _ _ _ => exact Or.inl rfl
  | opens _ hWork => exact hWork

/- What a coroutine does, and with which Credentials. -/
theorem Move.work
    (hMove : Move ssl out c task c' task' spawned) :
    task'.work = task.work ∨
      (∃ creds attempt, task.work = .v3 creds attempt ∧
        task'.work = .v3 creds (attempt + 1)) ∨
      ∃ creds d engineId, task.work = .identify creds d ∧
        task.point = .syncing engineId ∧
        task'.work = .sync creds d engineId := by
  cases hMove with
  | beginV2c _ hWork =>
      exact (startV2c_opening c hWork).work.imp_right Or.inr
  | beginV3 _ _ =>
      left
      unfold startV3
      split_ifs
      all_goals rfl
  | beginIdentify _ hWork =>
      exact (startIdentify_opening out c hWork).work.imp_right
        Or.inr
  | ensure _ _ hEnsure =>
      left
      rcases ensureEngine_cases hEnsure with
        ⟨_, rfl, _⟩ | ⟨_, _, _, rfl, _⟩ | ⟨_, _, rfl, _⟩
      all_goals rfl
  | send _ hWork =>
      exact (sendRequest_opening out c hWork).work.imp_right
        Or.inr
  | enter _ =>
      rcases (enterTransact_entry out c task _).goes with
        ⟨point, hGoes, _⟩
      rw [hGoes]
      exact Or.inl rfl
  | failed _ =>
      left
      unfold afterFailure
      split
      all_goals rfl
  | @succeeded _ p _ _ =>
      have hAfterwards := afterSuccess_afterwards c task p
      generalize (afterSuccess c task p).2 = task'
        at hAfterwards ⊢
      cases hAfterwards with
      | again hWork => exact Or.inr (Or.inl ⟨_, _, hWork, rfl⟩)
      | _ => exact Or.inl rfl
  | beginSync hPoint hWork =>
      exact (startSync_opening out c hPoint hWork).work.imp_right
        Or.inr
  | _ => exact Or.inl rfl

/- Credentials are kept for good. -/
theorem Move.credentials
    (hMove : Move ssl out c task c' task' spawned) :
    task'.work.credentials? = task.work.credentials? := by
  rcases hMove.work with
    hSame | ⟨creds, attempt, hWork, hWork'⟩ |
      ⟨creds, d, engineId, hWork, _, hWork'⟩
  · rw [hSame]
  · rw [hWork, hWork']
    rfl
  · rw [hWork, hWork']
    rfl

/- A move that ends no discovery. -/
theorem Move.keeps
    (hMove : Move ssl out c task c' task' spawned)
    (hUnfinished : ∀ ec, task.point ≠ .finishing ec) :
    task.Keeps task' := by
  refine ⟨hMove.kin.target, hMove.credentials, ?_⟩
  unfold Task.runner?
  rw [hMove.kin.discovery, Point.isOver_of_runs hMove.runs]
  cases hDiscovery : task.work.discovery? with
  | none => simp
  | some d =>
      rw [Point.discovers_isOver
        (hMove.discovers hDiscovery hUnfinished)]

/- Only `ensuring` makes anybody wait. -/
theorem Move.waits
    (hMove : Move ssl out c task c' task' spawned)
    (hOther : task.point ≠ .ensuring) :
    task.Waits task' := by
  have hParking :
      ∀ d, task'.behind? = some d →
        task.point = .parking d := by
    intro d hBehind
    rcases hMove.behind hBehind with hEnsuring | ⟨hAt, _⟩
    · exact absurd hEnsuring hOther
    · exact hAt
  refine ⟨?_, ?_⟩
  · intro d hAwaits
    rw [Task.awaits?,
      hParking d (Point.behind?_of_awaits? hAwaits)]
    rfl
  · intro d hBehind
    rw [Task.behind?, hParking d hBehind]
    rfl

end Snmpio

------------------------------------------------------------
-- Where Discoveries Are
------------------------------------------------------------

namespace Snmpio

variable {ssl : OpenSsl} {c c' : Client} {task : Task}
variable {t : Nat}

/- A discovery is in `discoverEngine`, or has ended. -/
def Task.Placed
    (task : Task) : Prop :=
  ∀ d, task.work.discovery? = some d →
    task.point.discovers = true ∨ task.point = .ended

theorem Resumes.discovers
    {e : Event}
    {point : Point}
    (hResumes : Resumes c t task e point) :
    task.point.isOver = false ∧ point.behind? = none ∧
      (point.discovers = true ∨
        task.point.discovers = false) := by
  cases hResumes with
  | sent ec hPoint =>
      rw [hPoint]
      unfold afterSend
      split
      · exact ⟨rfl, rfl, Or.inl rfl⟩
      · exact ⟨rfl, rfl, Or.inl rfl⟩
  | waited hPoint hp =>
      rw [hPoint]
      unfold afterWait
      split
      · exact ⟨rfl, rfl, Or.inl rfl⟩
      · split
        · exact ⟨rfl, rfl, Or.inl rfl⟩
        · refine ⟨rfl, ?_, Or.inl ?_⟩
          · unfold attemptPoint
            split
            · rfl
            · rfl
          · exact attemptPoint_discovers task.target _
  | unparked hPoint hd =>
      rw [hPoint]
      refine ⟨rfl, ?_, Or.inr rfl⟩
      unfold afterPark
      split_ifs
      all_goals rfl

/- Every event leaves it where its work belongs. -/
theorem TaskStep.placed
    {e : Event}
    {task' : Task}
    (hStep : TaskStep ssl c t e task')
    (hBefore :
      ∀ task, c.tasks[t]? = some task → task.Placed) :
    task'.Placed := by
  intro d hDiscovery
  cases hStep with
  | @moved out rest task _ c₁ spawned hStrand hTask hMove =>
      rw [hMove.kin.discovery] at hDiscovery
      by_cases hFinishing : ∃ ec, task.point = .finishing ec
      · rcases hFinishing with ⟨ec, hPoint⟩
        cases hMove with
        | finish _ _ => exact Or.inr rfl
        | _ hOther =>
            rw [hPoint] at hOther
            cases hOther
      · left
        refine hMove.discovers hDiscovery ?_
        intro ec hPoint
        exact hFinishing ⟨ec, hPoint⟩
  | spawned hStrand hTask hMove hNew =>
      rcases hMove.spawned_eq rfl with ⟨creds, rfl⟩
      exact Or.inl rfl
  | requested _ _ => exact Or.inl rfl
  | resumed _ hTask hResumes =>
      rcases hResumes.discovers with ⟨hLive, _, hGoes | hNot⟩
      · exact Or.inl hGoes
      · rcases hBefore _ hTask d hDiscovery with hIs | hEnded
        · rw [hNot] at hIs
          cases hIs
        · rw [hEnded] at hLive
          cases hLive
  | raised _ _ _ => exact Or.inr rfl
  | signalled _ hTask hRequest _ =>
      change Work.discovery? _ = some d at hDiscovery
      rw [hRequest] at hDiscovery
      cases hDiscovery
  | woken hTask _ _ =>
      rcases hBefore _ hTask d hDiscovery with hIs | hEnded
      · left
        change (Point.wake _).discovers = true
        rw [Point.wake_discovers]
        exact hIs
      · right
        change Point.wake _ = .ended
        rw [hEnded]
        rfl
  | kept hTask _ => exact hBefore _ hTask d hDiscovery

/- So it is in every run. -/
theorem placed_of_run
    {id : Int32}
    {now : Int}
    {events : List Event}
    (hRun :
      Machine.run (step ssl) (fresh id now) events = some c)
    (hTask : c.tasks[t]? = some task) :
    task.Placed := by
  refine Machine.run_invariant
    (P := fun _ c =>
      ∀ (t : Nat) (task : Task), c.tasks[t]? = some task →
        task.Placed) ?_ ?_ hRun t task hTask
  · intro t task hTask
    cases hTask
  · intro events c e c' _ ih hStep t task hTask
    exact (step_task hStep hTask).placed (ih t)

end Snmpio

------------------------------------------------------------
-- The Invariant
------------------------------------------------------------

namespace Snmpio

variable {ssl : OpenSsl} {c c' : Client}

/- Neither finished nor failed. -/
def Discovery.isOpen
    (discovery : Discovery) : Bool :=
  !discovery.finished && !discovery.failure

/-
  Registered discoveries and their coroutines belong to each
  other, one to one.
-/
structure Attended
    (c : Client) : Prop where
  unfinished :
    ∀ endpoint d, c.discovering.lookup endpoint = some d →
      ∃ discovery, c.discoveries[d]? = some discovery ∧
        discovery.isOpen = true
  attended :
    ∀ endpoint d, c.discovering.lookup endpoint = some d →
      ∃ (t : Nat) (task : Task), c.tasks[t]? = some task ∧
        task.runner? = some d ∧
        task.target.endpoint = endpoint
  registered :
    ∀ (t : Nat) (task : Task) d, c.tasks[t]? = some task →
      task.runner? = some d →
        c.discovering.lookup task.target.endpoint = some d
  unique :
    ∀ (t t' : Nat) (task task' : Task) d,
      c.tasks[t]? = some task → c.tasks[t']? = some task' →
        task.runner? = some d → task'.runner? = some d →
          t = t'

/- Who still waits, waits for one that is registered. -/
def Awaited
    (c : Client) : Prop :=
  ∀ (t : Nat) (task : Task) d, c.tasks[t]? = some task →
    task.awaits? = some d →
      c.discovering.lookup task.target.endpoint = some d

/- Discoveries go on, and what is new is a request. -/
structure Continues
    (c c' : Client) : Prop where
  discovering : c'.discovering = c.discovering
  discoveries : c'.discoveries = c.discoveries
  forth :
    ∀ (t : Nat) (task : Task), c.tasks[t]? = some task →
      ∃ task', c'.tasks[t]? = some task' ∧ task.Keeps task'
  back :
    ∀ (t : Nat) (task' : Task), c'.tasks[t]? = some task' →
      (∃ task, c.tasks[t]? = some task) ∨
        (task'.runner? = none ∧ task'.behind? = none)

/- Nobody waits who did not wait before. -/
def SameWaits
    (c c' : Client) : Prop :=
  ∀ (t : Nat) (task task' : Task),
    c.tasks[t]? = some task → c'.tasks[t]? = some task' →
      task.Waits task'

/- What a coroutine was, if it now has a part in this. -/
theorem Continues.before
    (hContinues : Continues c c')
    {t : Nat}
    {task' : Task}
    (hTask' : c'.tasks[t]? = some task') :
    (∃ task, c.tasks[t]? = some task ∧ task.Keeps task') ∨
      (task'.runner? = none ∧ task'.behind? = none) := by
  rcases hContinues.back t task' hTask' with
    ⟨task, hTask⟩ | hNew
  · rcases hContinues.forth t task hTask with
      ⟨found, hFound, hKeeps⟩
    rw [hTask'] at hFound
    cases hFound
    exact Or.inl ⟨task, hTask, hKeeps⟩
  · exact Or.inr hNew

/- Who runs a discovery runs it still. -/
theorem Attended.continue
    (hAttended : Attended c)
    (hContinues : Continues c c') :
    Attended c' := by
  have hRunner :
      ∀ (t : Nat) (task' : Task) d,
        c'.tasks[t]? = some task' → task'.runner? = some d →
          ∃ task, c.tasks[t]? = some task ∧
            task.runner? = some d ∧
            task'.target = task.target := by
    intro t task' d hTask' hRuns
    rcases hContinues.before hTask' with
      ⟨task, hTask, hKeeps⟩ | ⟨hNone, _⟩
    · exact ⟨task, hTask, hKeeps.runner ▸ hRuns,
        hKeeps.target⟩
    · rw [hNone] at hRuns
      cases hRuns
  refine ⟨?_, ?_, ?_, ?_⟩
  · rw [hContinues.discovering, hContinues.discoveries]
    exact hAttended.unfinished
  · intro endpoint d hFound
    rw [hContinues.discovering] at hFound
    rcases hAttended.attended endpoint d hFound with
      ⟨t, task, hTask, hRuns, hEndpoint⟩
    rcases hContinues.forth t task hTask with
      ⟨task', hTask', hKeeps⟩
    refine ⟨t, task', hTask', hKeeps.runner.trans hRuns, ?_⟩
    rw [hKeeps.target]
    exact hEndpoint
  · intro t task' d hTask' hRuns
    rcases hRunner t task' d hTask' hRuns with
      ⟨task, hTask, hRan, hTarget⟩
    rw [hContinues.discovering, hTarget]
    exact hAttended.registered t task d hTask hRan
  · intro t t' first second d hFirst hSecond hRuns hRuns'
    rcases hRunner t first d hFirst hRuns with
      ⟨task, hTask, hRan, _⟩
    rcases hRunner t' second d hSecond hRuns' with
      ⟨task', hTask', hRan', _⟩
    exact hAttended.unique t t' task task' d hTask hTask' hRan
      hRan'

theorem Awaited.continue
    (hAwaited : Awaited c)
    (hContinues : Continues c c')
    (hWaits : SameWaits c c') :
    Awaited c' := by
  intro t task' d hTask' hAwaits
  rcases hContinues.before hTask' with
    ⟨task, hTask, hKeeps⟩ | ⟨_, hNone⟩
  · rw [hContinues.discovering, hKeeps.target]
    exact hAwaited t task d hTask
      ((hWaits t task task' hTask hTask').awaits d hAwaits)
  · rw [Task.behind?,
      Point.behind?_of_awaits? hAwaits] at hNone
    cases hNone

/- A request queues behind a discovery that is registered. -/
theorem Awaited.join
    (hAwaited : Awaited c)
    {t d : Nat}
    {task : Task}
    (hFound :
      c.discovering.lookup task.target.endpoint = some d)
    (hDiscovering : c'.discovering = c.discovering)
    (hTasks :
      c'.tasks = c.tasks.set t (task.goto (.parking d))) :
    Awaited c' := by
  intro i found d' hAt hAwaits
  rw [hTasks] at hAt
  rw [hDiscovering]
  rcases getElem?_set_cases hAt with ⟨_, rfl⟩ | ⟨_, hOther⟩
  · cases hAwaits
    exact hFound
  · exact hAwaited i found d' hOther hAwaits

/- Two registered discoveries are not the same. -/
theorem Attended.inj
    (hAttended : Attended c)
    {endpoint endpoint' : Endpoint}
    {d : Nat}
    (hFound : c.discovering.lookup endpoint = some d)
    (hFound' : c.discovering.lookup endpoint' = some d) :
    endpoint = endpoint' := by
  rcases hAttended.attended endpoint d hFound with
    ⟨t, task, hTask, hRuns, rfl⟩
  rcases hAttended.attended endpoint' d hFound' with
    ⟨t', task', hTask', hRuns', rfl⟩
  have hSame :=
    hAttended.unique t t' task task' d hTask hTask' hRuns
      hRuns'
  subst hSame
  rw [hTask] at hTask'
  cases hTask'
  rfl

end Snmpio

------------------------------------------------------------
-- Beginnings and Ends
------------------------------------------------------------

namespace Snmpio

variable {ssl : OpenSsl} {c c' : Client} {t : Nat}
variable {task : Task} {d : Nat}

/- A discovery begins, with a coroutine of its own. -/
theorem Attended.begin
    (hAttended : Attended c)
    {task' runner : Task}
    {endpoint : Endpoint}
    (hTask : c.tasks[t]? = some task)
    (hNone : c.discovering.lookup endpoint = none)
    (hRequest : task.runner? = none)
    (hRequest' : task'.runner? = none)
    (hRuns : runner.runner? = some c.discoveries.length)
    (hEndpoint : runner.target.endpoint = endpoint)
    (hDiscovering :
      c'.discovering =
        c.discovering.insert endpoint c.discoveries.length)
    (hDiscoveries :
      c'.discoveries = c.discoveries ++ [({} : Discovery)])
    (hTasks : c'.tasks = c.tasks.set t task' ++ [runner]) :
    Attended c' := by
  have hBound := (List.getElem?_eq_some_iff.mp hTask).1
  -- Who runs a discovery ran it before, or is the new one.
  have hRunner :
      ∀ (i : Nat) (found : Task) d,
        c'.tasks[i]? = some found → found.runner? = some d →
          (c.tasks[i]? = some found) ∨
            (i = c.tasks.length ∧ found = runner) := by
    intro i found d hFound hFoundRuns
    rw [hTasks] at hFound
    rcases getElem?_concat_cases hFound with
      hOld | ⟨hNew, rfl⟩
    · rcases getElem?_set_cases hOld with
        ⟨_, rfl⟩ | ⟨_, hOther⟩
      · rw [hRequest'] at hFoundRuns
        cases hFoundRuns
      · exact Or.inl hOther
    · rw [List.length_set] at hNew
      exact Or.inr ⟨hNew, rfl⟩
  have hOld :
      ∀ endpoint d, c.discovering.lookup endpoint = some d →
        d < c.discoveries.length := by
    intro endpoint d hFound
    rcases hAttended.unfinished endpoint d hFound with
      ⟨discovery, hDiscovery, _⟩
    exact (List.getElem?_eq_some_iff.mp hDiscovery).1
  refine ⟨?_, ?_, ?_, ?_⟩
  · intro other d hFound
    rw [hDiscovering] at hFound
    rw [hDiscoveries]
    by_cases hSame : other = endpoint
    · subst hSame
      rw [AList.lookup_insert] at hFound
      cases hFound
      exact ⟨{}, List.getElem?_concat_length, rfl⟩
    · rw [AList.lookup_insert_ne hSame] at hFound
      rcases hAttended.unfinished other d hFound with
        ⟨discovery, hDiscovery, hOpen⟩
      exact ⟨discovery, getElem?_append_some hDiscovery _,
        hOpen⟩
  · intro other d hFound
    rw [hDiscovering] at hFound
    rw [hTasks]
    by_cases hSame : other = endpoint
    · subst hSame
      rw [AList.lookup_insert] at hFound
      cases hFound
      exact ⟨(c.tasks.set t task').length, runner,
        List.getElem?_concat_length, hRuns, hEndpoint⟩
    · rw [AList.lookup_insert_ne hSame] at hFound
      rcases hAttended.attended other d hFound with
        ⟨i, found, hFound, hFoundRuns, hFoundEndpoint⟩
      have hNot : t ≠ i := by
        rintro rfl
        rw [hTask] at hFound
        cases hFound
        rw [hRequest] at hFoundRuns
        cases hFoundRuns
      refine ⟨i, found, getElem?_append_some ?_ _, hFoundRuns,
        hFoundEndpoint⟩
      rw [List.getElem?_set_ne hNot]
      exact hFound
  · intro i found d hFound hFoundRuns
    rw [hDiscovering]
    rcases hRunner i found d hFound hFoundRuns with
      hBefore | ⟨_, rfl⟩
    · have hKnown :=
        hAttended.registered i found d hBefore hFoundRuns
      have hNot : found.target.endpoint ≠ endpoint := by
        intro hSame
        rw [hSame, hNone] at hKnown
        cases hKnown
      rw [AList.lookup_insert_ne hNot]
      exact hKnown
    · rw [hRuns] at hFoundRuns
      cases hFoundRuns
      rw [hEndpoint, AList.lookup_insert]
  · intro i j first second d hFirst hSecond hFirstRuns
      hSecondRuns
    have hNew :
        ∀ {k : Nat} {found : Task}, c.tasks[k]? = some found →
          found.runner? = some d →
            d ≠ c.discoveries.length := by
      intro k found hFound hFoundRuns
      have hKnown :=
        hAttended.registered k found d hFound hFoundRuns
      have hLess := hOld _ d hKnown
      omega
    rcases hRunner i first d hFirst hFirstRuns with
      hBefore | ⟨hAt, rfl⟩
    · rcases hRunner j second d hSecond hSecondRuns with
        hBefore' | ⟨_, rfl⟩
      · exact hAttended.unique i j first second d hBefore
          hBefore' hFirstRuns hSecondRuns
      · rw [hRuns] at hSecondRuns
        cases hSecondRuns
        exact absurd rfl (hNew hBefore hFirstRuns)
    · rcases hRunner j second d hSecond hSecondRuns with
        hBefore' | ⟨hAt', _⟩
      · rw [hRuns] at hFirstRuns
        cases hFirstRuns
        exact absurd rfl (hNew hBefore' hSecondRuns)
      · rw [hAt, hAt']

/- Who waited before, and who begins to wait. -/
theorem Awaited.begin
    (hAwaited : Awaited c)
    {task' runner : Task}
    (hNone :
      c.discovering.lookup task.target.endpoint = none)
    (hTarget : task'.target = task.target)
    (hAwaits : task'.awaits? = some c.discoveries.length)
    (hRunner : runner.awaits? = none)
    (hDiscovering :
      c'.discovering =
        c.discovering.insert task.target.endpoint
          c.discoveries.length)
    (hTasks : c'.tasks = c.tasks.set t task' ++ [runner]) :
    Awaited c' := by
  intro i found d hFound hFoundAwaits
  rw [hTasks] at hFound
  rw [hDiscovering]
  rcases getElem?_concat_cases hFound with
    hOld | ⟨_, rfl⟩
  · rcases getElem?_set_cases hOld with
      ⟨_, rfl⟩ | ⟨_, hOther⟩
    · rw [hAwaits] at hFoundAwaits
      cases hFoundAwaits
      rw [hTarget, AList.lookup_insert]
    · have hKnown := hAwaited i found d hOther hFoundAwaits
      have hNot :
          found.target.endpoint ≠ task.target.endpoint := by
        intro hSame
        rw [hSame, hNone] at hKnown
        cases hKnown
      rw [AList.lookup_insert_ne hNot]
      exact hKnown
  · rw [hRunner] at hFoundAwaits
    cases hFoundAwaits

/- What the end of a discovery leaves of the coroutines. -/
theorem finish_task
    {discovery : Discovery}
    {endpoint : Endpoint}
    {rest : List Nat}
    {i : Nat}
    {found : Task}
    (hFound :
      ((finishDiscovery c endpoint d discovery).place t rest
        (task.goto .ended)).tasks[i]? = some found) :
    (i = t ∧ found = task.goto .ended) ∨
      (i ≠ t ∧ ∃ before, c.tasks[i]? = some before ∧
        found = before.wakeOn [.done d]) := by
  rcases place_task hFound with hMoved | ⟨hNot, hOther⟩
  · exact Or.inl hMoved
  · exact Or.inr ⟨hNot, cancelTimers_tasks hOther⟩

/- What has ended is no longer registered. -/
theorem Attended.finish
    (hAttended : Attended c)
    (hTask : c.tasks[t]? = some task)
    (hRuns : task.runner? = some d)
    (discovery : Discovery)
    (rest : List Nat) :
    Attended
      ((finishDiscovery c task.target.endpoint d
        discovery).place t rest (task.goto .ended)) := by
  have hKnown := hAttended.registered t task d hTask hRuns
  -- Whoever still runs a discovery is another coroutine.
  have hRunner :
      ∀ (i : Nat) (found : Task) d',
        ((finishDiscovery c task.target.endpoint d
          discovery).place t rest
            (task.goto .ended)).tasks[i]? = some found →
          found.runner? = some d' →
            i ≠ t ∧ ∃ before, c.tasks[i]? = some before ∧
              before.runner? = some d' ∧
              found.target = before.target := by
    intro i found d' hFound hFoundRuns
    rcases finish_task hFound with
      ⟨_, rfl⟩ | ⟨hNot, before, hBefore, rfl⟩
    · cases hFoundRuns
    · have hKeeps : before.Keeps (before.wakeOn [.done d]) :=
        (Task.wakeOn_nudged _ before).keeps
      exact ⟨hNot, before, hBefore,
        hKeeps.runner ▸ hFoundRuns, hKeeps.target⟩
  have hOther :
      ∀ {endpoint : Endpoint} {d' : Nat},
        (c.discovering.erase
          task.target.endpoint).lookup endpoint = some d' →
          endpoint ≠ task.target.endpoint ∧
            c.discovering.lookup endpoint = some d' := by
    intro endpoint d' hFound
    by_cases hSame : endpoint = task.target.endpoint
    · rw [hSame, AList.lookup_erase] at hFound
      cases hFound
    · rw [AList.lookup_erase_ne hSame] at hFound
      exact ⟨hSame, hFound⟩
  refine ⟨?_, ?_, ?_, ?_⟩
  · intro endpoint d' hFound
    rcases hOther hFound with ⟨hNot, hBefore⟩
    rcases hAttended.unfinished endpoint d' hBefore with
      ⟨found, hDiscovery, hOpen⟩
    refine ⟨found, ?_, hOpen⟩
    have hDiffer : d ≠ d' := by
      rintro rfl
      exact hNot (hAttended.inj hBefore hKnown)
    change (c.discoveries.set d discovery)[d']? = _
    rw [List.getElem?_set_ne hDiffer]
    exact hDiscovery
  · intro endpoint d' hFound
    rcases hOther hFound with ⟨hNot, hBefore⟩
    rcases hAttended.attended endpoint d' hBefore with
      ⟨i, before, hAt, hBeforeRuns, hEndpoint⟩
    have hDiffer : t ≠ i := by
      rintro rfl
      rw [hTask] at hAt
      cases hAt
      exact hNot hEndpoint.symm
    have hKeeps : before.Keeps (before.wakeOn [.done d]) :=
      (Task.wakeOn_nudged _ before).keeps
    refine ⟨i, before.wakeOn [.done d], ?_,
      hKeeps.runner.trans hBeforeRuns, ?_⟩
    · change ((c.tasks.map _).set t _)[i]? = _
      rw [List.getElem?_set_ne hDiffer, List.getElem?_map, hAt]
      rfl
    · rw [hKeeps.target]
      exact hEndpoint
  · intro i found d' hFound hFoundRuns
    rcases hRunner i found d' hFound hFoundRuns with
      ⟨hNot, before, hBefore, hBeforeRuns, hTarget⟩
    have hBeforeKnown :=
      hAttended.registered i before d' hBefore hBeforeRuns
    have hDiffer :
        before.target.endpoint ≠ task.target.endpoint := by
      intro hSame
      rw [hSame, hKnown] at hBeforeKnown
      cases hBeforeKnown
      exact hNot (hAttended.unique i t before task d hBefore
        hTask hBeforeRuns hRuns)
    rw [hTarget]
    change (c.discovering.erase _).lookup _ = _
    rw [AList.lookup_erase_ne hDiffer]
    exact hBeforeKnown
  · intro i j first second d' hFirst hSecond hFirstRuns
      hSecondRuns
    rcases hRunner i first d' hFirst hFirstRuns with
      ⟨_, before, hBefore, hBeforeRuns, _⟩
    rcases hRunner j second d' hSecond hSecondRuns with
      ⟨_, before', hBefore', hBeforeRuns', _⟩
    exact hAttended.unique i j before before' d' hBefore
      hBefore' hBeforeRuns hBeforeRuns'

/-
  The end of a discovery reaches everyone who waits for it,
  unless someone is still about to.
-/
theorem Awaited.finish
    (hAwaited : Awaited c)
    (hKnown :
      c.discovering.lookup task.target.endpoint = some d)
    (hParking :
      ∀ (i : Nat) (found : Task), c.tasks[i]? = some found →
        found.point ≠ .parking d)
    (discovery : Discovery)
    (rest : List Nat) :
    Awaited
      ((finishDiscovery c task.target.endpoint d
        discovery).place t rest (task.goto .ended)) := by
  intro i found d' hFound hAwaits
  rcases finish_task hFound with
    ⟨_, rfl⟩ | ⟨_, before, hBefore, rfl⟩
  · cases hAwaits
  · have hNudged := Task.wakeOn_nudged [.done d] before
    have hKeeps : before.Keeps (before.wakeOn [.done d]) :=
      hNudged.keeps
    have hWaited : before.awaits? = some d' :=
      (Task.Waits.of_point hNudged.point).awaits d' hAwaits
    have hBeforeKnown := hAwaited i before d' hBefore hWaited
    have hDiffer :
        before.target.endpoint ≠ task.target.endpoint := by
      intro hSame
      rw [hSame, hKnown] at hBeforeKnown
      cases hBeforeKnown
      have hNot := hParking i before hBefore
      rw [Task.awaits?] at hWaited hAwaits
      unfold Task.wakeOn at hAwaits
      cases hPoint : before.point with
      | parking d' =>
          rw [hPoint] at hWaited
          cases hWaited
          exact hNot hPoint
      | parked d' woken =>
          rw [hPoint] at hWaited hAwaits
          cases woken with
          | true => cases hWaited
          | false =>
              cases hWaited
              simp [Point.timer?, Point.wake,
                Point.awaits?] at hAwaits
      | _ =>
          rw [hPoint] at hWaited
          cases hWaited
    rw [hKeeps.target]
    change (c.discovering.erase _).lookup _ = _
    rw [AList.lookup_erase_ne hDiffer]
    exact hBeforeKnown

end Snmpio

------------------------------------------------------------
-- Steps and Runs
------------------------------------------------------------

namespace Snmpio

variable {ssl : OpenSsl} {c c' : Client} {t : Nat}
variable {task task' : Task}

/- Other moves leave the discoveries as they are. -/
theorem Move.discovering_eq
    {out : Outside}
    (hMove : Move ssl out c task c' task' none)
    (hUnfinished : ∀ ec, task.point ≠ .finishing ec) :
    c'.discovering = c.discovering ∧
      c'.discoveries = c.discoveries ∧
      c'.tasks = c.tasks := by
  cases hMove.effect with
  | aside hAside =>
      exact ⟨hAside.discovering, hAside.discoveries,
        hAside.tasks⟩
  | writes _ _ => exact ⟨rfl, rfl, rfl⟩
  | finishes hPoint _ => exact absurd hPoint (hUnfinished _)

/- One coroutine moved, and kept its discovery. -/
theorem Continues.of_set
    (hTask : c.tasks[t]? = some task)
    (hKeeps : task.Keeps task')
    (hDiscovering : c'.discovering = c.discovering)
    (hDiscoveries : c'.discoveries = c.discoveries)
    (hTasks : c'.tasks = c.tasks.set t task') :
    Continues c c' := by
  have hBound := (List.getElem?_eq_some_iff.mp hTask).1
  refine ⟨hDiscovering, hDiscoveries, ?_, ?_⟩
  · intro i found hFound
    rw [hTasks]
    by_cases hSame : t = i
    · subst hSame
      rw [hTask] at hFound
      cases hFound
      exact ⟨task', List.getElem?_set_self hBound, hKeeps⟩
    · rw [List.getElem?_set_ne hSame]
      exact ⟨found, hFound, Task.Keeps.refl found⟩
  · intro i found hFound
    rw [hTasks] at hFound
    rcases getElem?_set_cases hFound with
      ⟨rfl, _⟩ | ⟨_, hOther⟩
    · exact Or.inl ⟨task, hTask⟩
    · exact Or.inl ⟨found, hOther⟩

theorem SameWaits.of_set
    (hTask : c.tasks[t]? = some task)
    (hWaits : task.Waits task')
    (hTasks : c'.tasks = c.tasks.set t task') :
    SameWaits c c' := by
  intro i found found' hFound hFound'
  rw [hTasks] at hFound'
  rcases getElem?_set_cases hFound' with
    ⟨rfl, rfl⟩ | ⟨_, hOther⟩
  · rw [hTask] at hFound
    cases hFound
    exact hWaits
  · rw [hFound] at hOther
    cases hOther
    exact Task.Waits.refl found

theorem Continues.of_nudged
    (hDiscovering : c'.discovering = c.discovering)
    (hDiscoveries : c'.discoveries = c.discoveries)
    (hLength : c'.tasks.length = c.tasks.length)
    (hTasks :
      ∀ (t : Nat) (task' : Task),
        c'.tasks[t]? = some task' →
          ∃ task : Task,
            c.tasks[t]? = some task ∧ task.Nudged task') :
    Continues c c' := by
  refine ⟨hDiscovering, hDiscoveries, ?_, ?_⟩
  · intro i found hFound
    have hBound := (List.getElem?_eq_some_iff.mp hFound).1
    rw [← hLength] at hBound
    have hAt := List.getElem?_eq_getElem hBound
    rcases hTasks i _ hAt with ⟨before, hBefore, hNudged⟩
    rw [hFound] at hBefore
    cases hBefore
    exact ⟨_, hAt, hNudged.keeps⟩
  · intro i found hFound
    rcases hTasks i found hFound with ⟨before, hBefore, _⟩
    exact Or.inl ⟨before, hBefore⟩

theorem SameWaits.of_nudged
    (hTasks :
      ∀ (t : Nat) (task' : Task),
        c'.tasks[t]? = some task' →
          ∃ task : Task,
            c.tasks[t]? = some task ∧ task.Nudged task') :
    SameWaits c c' := by
  intro i found found' hFound hFound'
  rcases hTasks i found' hFound' with
    ⟨before, hBefore, hNudged⟩
  rw [hFound] at hBefore
  cases hBefore
  exact Task.Waits.of_point hNudged.point

theorem Continues.of_request
    (target : Target)
    (auth : Auth)
    (pdu : Pdu) :
    Continues c
      (c.spawn {
        work := beginWork auth
        target := target
        pdu := pdu }) := by
  refine ⟨rfl, rfl, ?_, ?_⟩
  · intro i found hFound
    exact ⟨found, getElem?_append_some hFound _,
      Task.Keeps.refl found⟩
  · intro i found hFound
    rcases getElem?_concat_cases hFound with
      hOld | ⟨_, rfl⟩
    · exact Or.inl ⟨found, hOld⟩
    · right
      cases auth with
      | community _ => exact ⟨rfl, rfl⟩
      | credentials _ => exact ⟨rfl, rfl⟩

/- A new request waits for nobody yet. -/
theorem SameWaits.of_request
    (task : Task) :
    SameWaits c (c.spawn task) := by
  intro i found found' hFound hFound'
  have hBound := (List.getElem?_eq_some_iff.mp hFound).1
  change (c.tasks ++ [task])[i]? = some found' at hFound'
  rw [List.getElem?_append_left hBound, hFound] at hFound'
  cases hFound'
  exact Task.Waits.refl found

theorem Resumes.keeps
    {e : Event}
    {point : Point}
    (hResumes : Resumes c t task e point)
    (hPlaced : task.Placed) :
    task.Keeps (task.goto point) := by
  rcases hResumes.discovers with ⟨hLive, _, hDiscovers⟩
  refine ⟨rfl, rfl, ?_⟩
  unfold Task.runner?
  change (if point.isOver then none
    else task.work.discovery?) = _
  rw [hLive]
  cases hDiscovery : task.work.discovery? with
  | none => simp
  | some d =>
      rcases hDiscovers with hGoes | hNot
      · rw [Point.discovers_isOver hGoes]
      · rcases hPlaced d hDiscovery with hIs | hEnded
        · rw [hNot] at hIs
          cases hIs
        · rw [hEnded] at hLive
          cases hLive

/- Signals reach requests only. -/
theorem Task.signalled_keeps
    {cancelled : Cancellation}
    (hRequest : task.work.discovery? = none) :
    task.Keeps
      { task with
        cancelled := cancelled
        point := task.point.signalled } := by
  refine ⟨rfl, rfl, ?_⟩
  simp [Task.runner?, hRequest]

/- Whether `ensureEngine` finds what the Credentials need. -/
def Client.isReady
    (c : Client)
    (endpoint : Endpoint)
    (creds : Credentials) : Bool :=
  (c.cache.engineAt endpoint).any (fun engine =>
    !creds.level.isAuthenticated || engine.timeSynced)

/-
  What a step does to the discoveries and their coroutines:
  one is joined, one begins, one ends, or all go on.
-/
inductive DiscoveryStep
    (c : Client)
    (e : Event) :
    Client → Prop where
  | continued
      {c' : Client}
      (hContinues : Continues c c')
      (hWaits : SameWaits c c') :
      DiscoveryStep c e c'
  | joined
      {out : Outside}
      {t d : Nat}
      {rest : List Nat}
      {task : Task}
      {creds : Credentials}
      {attempt : Nat}
      {c' : Client}
      (hEvent : e = .advance out)
      (hStrand : c.strand = t :: rest)
      (hTask : c.tasks[t]? = some task)
      (hPoint : task.point = .ensuring)
      (hWork : task.work = .v3 creds attempt)
      (hUnready :
        c.isReady task.target.endpoint creds = false)
      (hFound :
        c.discovering.lookup task.target.endpoint = some d)
      (hContinues : Continues c c')
      (hTasks :
        c'.tasks = c.tasks.set t (task.goto (.parking d))) :
      DiscoveryStep c e c'
  | began
      {out : Outside}
      {t : Nat}
      {rest : List Nat}
      {task : Task}
      {creds : Credentials}
      {attempt : Nat}
      {c' : Client}
      (hEvent : e = .advance out)
      (hStrand : c.strand = t :: rest)
      (hTask : c.tasks[t]? = some task)
      (hPoint : task.point = .ensuring)
      (hWork : task.work = .v3 creds attempt)
      (hNone :
        c.discovering.lookup task.target.endpoint = none)
      (hDiscovering :
        c'.discovering =
          c.discovering.insert task.target.endpoint
            c.discoveries.length)
      (hDiscoveries :
        c'.discoveries = c.discoveries ++ [({} : Discovery)])
      (hTasks :
        c'.tasks =
          c.tasks.set t
            (task.goto (.parking c.discoveries.length)) ++
              [{ work := .identify creds c.discoveries.length
                 target := task.target }]) :
      DiscoveryStep c e c'
  | ended
      {t d : Nat}
      {rest : List Nat}
      {task : Task}
      {discovery : Discovery}
      (hTask : c.tasks[t]? = some task)
      (hRuns : task.runner? = some d)
      (hStrand :
        (c.strand = [] ∧ rest = [] ∧
            task.point.runs = false) ∨
          c.strand = t :: rest)
      (hWhy :
        (∃ out ec, e = .advance out ∧
            task.point = .finishing ec ∧
            discovery = { ec := ec, finished := true }) ∨
          (e = .raise t ∧ task.point.canThrow = true ∧
            discovery = { failure := true })) :
      DiscoveryStep c e
        ((finishDiscovery c task.target.endpoint d
          discovery).place t rest (task.goto .ended))

/- How a request can go on from `ensureEngine`'s start. -/
theorem ensureEngine_unready
    {creds : Credentials}
    {spawned : Option Task}
    {d : Nat}
    (hEnsure :
      ensureEngine c task creds = (c', task', spawned))
    (hParking : task'.point = .parking d) :
    c.isReady task.target.endpoint creds = false := by
  cases hReady : c.isReady task.target.endpoint creds with
  | false => rfl
  | true =>
      unfold ensureEngine at hEnsure
      unfold Client.isReady at hReady
      rw [if_pos hReady] at hEnsure
      cases hEnsure
      cases hParking

theorem Point.canThrow_isOver
    {point : Point}
    (hThrows : point.canThrow = true) :
    point.isOver = false := by
  cases point with
  | completed _ _ => cases hThrows
  | threw => cases hThrows
  | ended => cases hThrows
  | _ => rfl

/- What an event does to the discoveries. -/
theorem step_discovery
    {e : Event}
    (hStep : step ssl c e = some c')
    (hPlaced :
      ∀ (t : Nat) (task : Task), c.tasks[t]? = some task →
        task.Placed) :
    DiscoveryStep c e c' := by
  cases step_cases hStep with
  | @advanced out t rest task moved c₁ spawned hStrand hTask
      hMove =>
      by_cases hFinishing : ∃ ec, task.point = .finishing ec
      · rcases hFinishing with ⟨ec, hPoint⟩
        cases hMove with
        | finish hAt hDiscovery =>
            refine DiscoveryStep.ended hTask ?_
              (Or.inr hStrand) (Or.inl ⟨out, _, rfl, hAt, rfl⟩)
            rw [Task.runner?_eq_some, hAt]
            exact ⟨rfl, hDiscovery⟩
        | _ hOther =>
            rw [hPoint] at hOther
            cases hOther
      · have hUnfinished :
            ∀ ec, task.point ≠ .finishing ec := by
          intro ec hPoint
          exact hFinishing ⟨ec, hPoint⟩
        cases spawned with
        | none =>
            rcases hMove.discovering_eq hUnfinished with
              ⟨hDiscovering, hDiscoveries, hTasks⟩
            have hSet :
                (c₁.settle t rest moved none).tasks =
                  c.tasks.set t moved := by
              change c₁.tasks.set t moved = _
              rw [hTasks]
            have hContinues :
                Continues c (c₁.settle t rest moved none) :=
              Continues.of_set hTask (hMove.keeps hUnfinished)
                hDiscovering hDiscoveries hSet
            by_cases hEnsuring : task.point = .ensuring
            · cases hMove with
              | ensure hPoint hWork hEnsure =>
                  rcases ensureEngine_cases hEnsure with
                    ⟨rfl, rfl, _, _⟩ |
                      ⟨d, hFound, rfl, rfl, _⟩ |
                        ⟨_, _, _, hSome⟩
                  · exact DiscoveryStep.continued hContinues
                      (SameWaits.of_set hTask
                        (Task.Waits.of_none rfl) hSet)
                  · exact DiscoveryStep.joined rfl hStrand
                      hTask hPoint hWork
                      (ensureEngine_unready hEnsure rfl) hFound
                      hContinues hSet
                  · cases hSome
              | _ hPoint =>
                  rw [hEnsuring] at hPoint
                  cases hPoint
            · exact DiscoveryStep.continued hContinues
                (SameWaits.of_set hTask
                  (hMove.waits hEnsuring) hSet)
        | some other =>
            cases hMove with
            | ensure hPoint hWork hEnsure =>
                rcases ensureEngine_cases hEnsure with
                  ⟨_, _, hNo, _⟩ | ⟨_, _, _, _, hNo⟩ |
                    ⟨hNone, rfl, rfl, hSome⟩
                · cases hNo
                · cases hNo
                · cases hSome
                  refine DiscoveryStep.began rfl hStrand
                    hTask hPoint hWork hNone ?_ ?_ ?_
                  · rfl
                  · rfl
                  · rfl
  | requested _ =>
      exact DiscoveryStep.continued
        (Continues.of_request _ _ _) (SameWaits.of_request _)
  | received _ =>
      rcases receive_nudged ssl c _ _ with
        ⟨pendings, hNudged⟩
      exact DiscoveryStep.continued
        (Continues.of_nudged hNudged.discovering
          hNudged.discoveries hNudged.length hNudged.tasks)
        (SameWaits.of_nudged hNudged.tasks)
  | @resumed _ t task point _ hTask hResumes =>
      have hNone : (task.goto point).behind? = none :=
        hResumes.discovers.2.1
      exact DiscoveryStep.continued
        (Continues.of_set hTask
          (hResumes.keeps (hPlaced t task hTask)) rfl rfl rfl)
        (SameWaits.of_set hTask
          (Task.Waits.of_none hNone) rfl)
  | raised hStrand hTask hDiscovery hThrows =>
      refine DiscoveryStep.ended hTask ?_ hStrand
        (Or.inr ⟨rfl, hThrows, rfl⟩)
      exact Task.runner?_eq_some.mpr
        ⟨Point.canThrow_isOver hThrows, hDiscovery⟩
  | @signalled t kind task cancelled _ hTask hRequest _ =>
      exact DiscoveryStep.continued
        (Continues.of_set hTask
          (Task.signalled_keeps hRequest) rfl rfl rfl)
        (SameWaits.of_set hTask
          (Task.Waits.of_point (signalled_cases task.point))
          rfl)
  | nudged hNudged =>
      exact DiscoveryStep.continued
        (Continues.of_nudged hNudged.discovering
          hNudged.discoveries hNudged.length hNudged.tasks)
        (SameWaits.of_nudged hNudged.tasks)

/- Each open discovery has one coroutine that runs it. -/
theorem attended_of_run
    {id : Int32}
    {now : Int}
    {events : List Event}
    (hRun :
      Machine.run (step ssl) (fresh id now) events = some c) :
    Attended c := by
  refine Machine.run_invariant
    (P := fun _ c => Attended c) ?_ ?_ hRun
  · refine ⟨?_, ?_, ?_, ?_⟩
    · intro endpoint d hFound
      cases hFound
    · intro endpoint d hFound
      cases hFound
    · intro t task d hTask
      cases hTask
    · intro t t' task task' d hTask
      cases hTask
  · intro events c e c' hBefore hAttended hStep
    have hPlaced :
        ∀ (t : Nat) (task : Task), c.tasks[t]? = some task →
          task.Placed := by
      intro t task hTask
      exact placed_of_run hBefore hTask
    cases step_discovery hStep hPlaced with
    | continued hContinues _ =>
        exact hAttended.continue hContinues
    | joined _ _ _ _ _ _ _ hContinues _ =>
        exact hAttended.continue hContinues
    | began _ _ hTask _ hWork hNone hDiscovering
        hDiscoveries hTasks =>
        refine hAttended.begin hTask hNone ?_ ?_ ?_ ?_
          hDiscovering hDiscoveries hTasks
        · simp [Task.runner?, hWork, Work.discovery?]
        · simp [Task.runner?, Task.goto, hWork,
            Work.discovery?]
        · rfl
        · rfl
    | ended hTask hRuns _ _ =>
        exact hAttended.finish hTask hRuns _ _

end Snmpio

------------------------------------------------------------
-- Discoveries That Suspend
------------------------------------------------------------

namespace Snmpio

variable {ssl : OpenSsl} {c c' : Client} {t : Nat}
variable {task : Task}

/-
  A discovery that runs inline, above the request that has
  started it, gets to its first send: the Client is not
  Stopping, there is a socket or one can be opened, and
  there is an attempt to make.  Nothing throws meanwhile.
-/
def suspendsFirst
    (c : Client) :
    Event → Bool
| .advance out =>
    match c.strand with
    | t :: _ :: _ =>
        (c.tasks[t]?).all (fun task =>
          match task.point with
          | .entering _ =>
              !c.stopping &&
                ((c.slot task.target.endpoint.v6).isSome ||
                  out.opened.isNone) &&
                decide (0 ≤ task.target.retries)
          | _ => true)
    | _ => true
| .raise _ => decide (c.strand.length < 2)
| _ => true

/- What runs above another is a discovery, and has not sent. -/
structure Inlined
    (c : Client)
    (t : Nat)
    (below : List Nat) : Prop where
  last : below = []
  first :
    ∃ (task : Task) (creds : Credentials) (d : Nat),
      c.tasks[t]? = some task ∧
        task.work = .identify creds d ∧
        (task.point = .start ∨ ∃ x, task.point = .entering x)

/- A spawned discovery runs above who spawned it. -/
def Inline
    (c : Client) : Prop :=
  ∀ t t' below, c.strand = t :: t' :: below →
    Inlined c t below

theorem Inline.of_short
    (hShort : c.strand.length < 2) :
    Inline c := by
  intro t t' below hStrand
  rw [hStrand] at hShort
  simp only [List.length_cons] at hShort
  omega

theorem Inline.of_nudged
    (hInline : Inline c)
    (hStrand : c'.strand = c.strand)
    (hLength : c'.tasks.length = c.tasks.length)
    (hTasks :
      ∀ (t : Nat) (task' : Task),
        c'.tasks[t]? = some task' →
          ∃ task : Task,
            c.tasks[t]? = some task ∧ task.Nudged task') :
    Inline c' := by
  intro t t' below hFound
  rw [hStrand] at hFound
  rcases hInline t t' below hFound with
    ⟨hLast, task, creds, d, hTask, hWork, hPoint⟩
  have hBound := (List.getElem?_eq_some_iff.mp hTask).1
  rw [← hLength] at hBound
  have hAt := List.getElem?_eq_getElem hBound
  rcases hTasks t _ hAt with ⟨before, hBefore, hNudged⟩
  rw [hTask] at hBefore
  cases hBefore
  refine ⟨hLast, _, creds, d, hAt, ?_, ?_⟩
  · rw [hNudged.work]
    exact hWork
  · rcases hPoint with hStart | ⟨x, hEntering⟩
    · left
      rcases hNudged.point with hSame | hWake
      · rw [hSame, hStart]
      · rw [hWake, hStart]
        rfl
    · right
      refine ⟨x, ?_⟩
      rcases hNudged.point with hSame | hWake
      · rw [hSame, hEntering]
      · rw [hWake, hEntering]
        rfl

/- The identity message can always be encoded. -/
theorem startIdentify_enters
    (ssl : OpenSsl)
    (out : Outside)
    (c : Client)
    (task : Task) :
    ∃ x, (startIdentify ssl out c task).2 =
      task.goto (.entering x) := by
  unfold startIdentify
  simp only [Client.takeNextId]
  rw [encodeV3Message_noAuthNoPriv ssl rfl rfl]
  exact ⟨_, rfl⟩

/- With a Socket it suspends in its first send. -/
theorem enterTransact_sends
    {out : Outside}
    {x : Exchange}
    (hStopping : c.stopping = false)
    (hSocket :
      (c.slot task.target.endpoint.v6).isSome = true ∨
        out.opened = none)
    (hAttempt : x.attempt ≤ task.target.retries) :
    (enterTransact out c task x).2 =
      task.goto (.sending x) := by
  have hOpens :
      ∃ c', c.socketFor task.target.endpoint out.opened =
        .ok c' := by
    unfold Client.socketFor
    split
    · exact ⟨c, rfl⟩
    · next hNone =>
      rcases hSocket with hSome | hOpened
      · exact absurd hSome hNone
      · rw [hOpened]
        exact ⟨_, rfl⟩
  rcases hOpens with ⟨c', hOpens⟩
  unfold enterTransact
  rw [hStopping, hOpens, attemptPoint, if_pos hAttempt]
  rfl

/- The first coroutine moves, and stays inline or sends. -/
theorem Inline.advance
    (hInline : Inline c)
    {out : Outside}
    {rest : List Nat}
    {task' : Task}
    {spawned : Option Task}
    (hOk : suspendsFirst c (.advance out) = true)
    (hStrand : c.strand = t :: rest)
    (hTask : c.tasks[t]? = some task)
    (hUnsent :
      ∀ x, task.point = .entering x → x.attempt = 0)
    (hMove : Move ssl out c task c' task' spawned) :
    Inline (c'.settle t rest task' spawned) := by
  cases rest with
  | nil =>
      cases spawned with
      | none =>
          apply Inline.of_short
          change (if task'.point.runs then [t]
            else []).length < 2
          split
          · exact Nat.one_lt_two
          · exact Nat.two_pos
      | some other =>
          intro i j below hFound
          rcases hMove.spawner with ⟨d, hParking⟩
          rcases hMove.spawned_eq rfl with ⟨creds, rfl⟩
          change (c'.tasks.set t task').length ::
            (if task'.point.runs then [t] else []) =
              i :: j :: below at hFound
          rw [hParking] at hFound
          cases hFound
          exact ⟨rfl, _, creds, _, List.getElem?_concat_length,
            rfl, Or.inl rfl⟩
  | cons t' below =>
      rcases hInline t t' below hStrand with
        ⟨rfl, found, creds, d, hFound, hWork, hPoint⟩
      rw [hTask] at hFound
      cases hFound
      rcases hPoint with hStart | ⟨x, hEntering⟩
      · cases hMove with
        | beginIdentify _ _ =>
            rcases startIdentify_enters ssl out c task with
              ⟨x, hEnters⟩
            have hSame :
                Aside c (startIdentify ssl out c task).1 :=
              (startIdentify_opening out c hWork).aside
            intro i j below hFound
            rw [hEnters] at hFound ⊢
            -- The Client is not to be computed below.
            generalize (startIdentify ssl out c task).1 = c₁
              at hSame hFound ⊢
            cases hFound
            have hBound :=
              (List.getElem?_eq_some_iff.mp hTask).1
            rw [← hSame.tasks] at hBound
            exact ⟨rfl, _, creds, d,
              List.getElem?_set_self hBound, hWork,
              Or.inr ⟨x, rfl⟩⟩
        | beginV2c _ hOther =>
            rw [hWork] at hOther
            cases hOther
        | beginV3 _ hOther =>
            rw [hWork] at hOther
            cases hOther
        | _ hOther =>
            rw [hStart] at hOther
            cases hOther
      · simp only [suspendsFirst, hStrand, hTask,
          Option.all_some, hEntering, Bool.and_eq_true,
          Bool.or_eq_true, Bool.not_eq_true',
          decide_eq_true_eq,
          Option.isNone_iff_eq_none] at hOk
        rcases hOk with ⟨⟨hStopping, hSocket⟩, hRetries⟩
        cases hMove with
        | enter hPoint =>
            rw [hPoint] at hEntering
            cases hEntering
            have hAttempt : x.attempt ≤ task.target.retries := by
              rw [hUnsent x hPoint]
              exact hRetries
            apply Inline.of_short
            rw [enterTransact_sends hStopping hSocket hAttempt]
            exact Nat.one_lt_two
        | _ hOther =>
            rw [hEntering] at hOther
            cases hOther

/- If nothing ends inline, nobody parks too late. -/
theorem Inline.step
    (hInline : Inline c)
    {e : Event}
    (hOk : suspendsFirst c e = true)
    (hStep : Snmpio.step ssl c e = some c')
    (hUnsent :
      ∀ (t : Nat) (task : Task) (x : Exchange),
        c.tasks[t]? = some task → task.point = .entering x →
          x.attempt = 0) :
    Inline c' := by
  cases step_cases hStep with
  | advanced hStrand hTask hMove =>
      exact hInline.advance hOk hStrand hTask
        (fun x hPoint => hUnsent _ _ x hTask hPoint) hMove
  | requested hIdle =>
      apply Inline.of_short
      change (_ :: c.strand).length < 2
      rw [hIdle]
      exact Nat.one_lt_two
  | received _ =>
      rcases receive_nudged ssl c _ _ with
        ⟨pendings, hNudged⟩
      exact hInline.of_nudged hNudged.strand hNudged.length
        hNudged.tasks
  | @resumed _ t task point _ _ _ =>
      apply Inline.of_short
      change (if point.runs then [t] else []).length < 2
      split
      · exact Nat.one_lt_two
      · exact Nat.two_pos
  | @raised t d rest task hStrand _ _ _ =>
      have hShort : c.strand.length < 2 :=
        of_decide_eq_true hOk
      apply Inline.of_short
      change rest.length < 2
      rcases hStrand with ⟨_, rfl, _⟩ | hHead
      · exact Nat.two_pos
      · rw [hHead, List.length_cons] at hShort
        omega
  | signalled hIdle _ _ _ =>
      apply Inline.of_short
      change c.strand.length < 2
      rw [hIdle]
      exact Nat.two_pos
  | nudged hNudged =>
      exact hInline.of_nudged hNudged.strand hNudged.length
        hNudged.tasks

/- Nobody is about to wait when a discovery ends. -/
theorem Inline.parking
    (hInline : Inline c)
    (hShape : StrandShape c)
    {d : Nat}
    {e : Event}
    {rest : List Nat}
    {discovery : Discovery}
    (hOk : suspendsFirst c e = true)
    (hTask : c.tasks[t]? = some task)
    (hStrand :
      (c.strand = [] ∧ rest = [] ∧
          task.point.runs = false) ∨
        c.strand = t :: rest)
    (hWhy :
      (∃ out ec, e = .advance out ∧
          task.point = .finishing ec ∧
          discovery = { ec := ec, finished := true }) ∨
        (e = .raise t ∧ task.point.canThrow = true ∧
          discovery = { failure := true }))
    {i : Nat}
    {found : Task}
    (hFound : c.tasks[i]? = some found) :
    found.point ≠ .parking d := by
  intro hParking
  have hRuns : c.running i = some (.parking d) := by
    rw [Client.running, Client.view_of_task hFound, hParking]
    rfl
  have hMem := (hShape.runs i).mpr ⟨_, hRuns⟩
  have hNotHead : i ≠ t := by
    rintro rfl
    rw [hTask] at hFound
    cases hFound
    rcases hWhy with ⟨_, _, _, hPoint, _⟩ | ⟨_, hThrows, _⟩
    · rw [hPoint] at hParking
      cases hParking
    · rw [hParking] at hThrows
      cases hThrows
  rcases hStrand with ⟨hIdle, _, _⟩ | hHead
  · rw [hIdle] at hMem
    cases hMem
  · cases rest with
    | nil =>
        rw [hHead] at hMem
        exact hNotHead (List.mem_singleton.mp hMem)
    | cons t' below =>
        rcases hWhy with ⟨_, ec, _, hPoint, _⟩ | ⟨rfl, _, _⟩
        · rcases (hInline t t' below hHead).first with
            ⟨first, _, _, hFirst, _, hAt⟩
          rw [hTask] at hFirst
          cases hFirst
          rcases hAt with hStart | ⟨x, hEntering⟩
          · rw [hPoint] at hStart
            cases hStart
          · rw [hPoint] at hEntering
            cases hEntering
        · have hShort : c.strand.length < 2 :=
            of_decide_eq_true hOk
          rw [hHead] at hShort
          simp only [List.length_cons] at hShort
          omega

/- So everybody parked will be woken. -/
theorem awaited_of_run
    {id : Int32}
    {now : Int}
    {events : List Event}
    (hRun :
      Machine.run (Machine.guarded (step ssl) suspendsFirst)
        (fresh id now) events = some c) :
    Inline c ∧ Awaited c := by
  refine Machine.run_invariant
    (P := fun _ c => Inline c ∧ Awaited c) ?_ ?_ hRun
  · refine ⟨Inline.of_short Nat.two_pos, ?_⟩
    intro t task d hTask
    cases hTask
  · rintro events c e c' hBefore ⟨hInline, hAwaited⟩ hStep
    rcases Machine.guarded_eq_some.mp hStep with ⟨hOk, hStep⟩
    have hBefore := Machine.run_of_guarded hBefore
    have hAttended := attended_of_run hBefore
    refine ⟨?_, ?_⟩
    · refine hInline.step hOk hStep ?_
      intro t task x hTask hPoint
      exact (unsent_of_run hBefore hTask hPoint).attempt
    · have hPlaced :
          ∀ (t : Nat) (task : Task), c.tasks[t]? = some task →
            task.Placed := by
        intro t task hTask
        exact placed_of_run hBefore hTask
      cases step_discovery hStep hPlaced with
      | continued hContinues hWaits =>
          exact hAwaited.continue hContinues hWaits
      | joined _ _ _ _ _ _ hFound hContinues hTasks =>
          exact hAwaited.join hFound hContinues.discovering
            hTasks
      | began _ _ _ _ _ hNone hDiscovering _ hTasks =>
          refine hAwaited.begin hNone ?_ ?_ ?_ hDiscovering
            hTasks
          · rfl
          · rfl
          · rfl
      | ended hTask hRuns hStrand hWhy =>
          refine hAwaited.finish
            (hAttended.registered _ _ _ hTask hRuns) ?_ _ _
          intro i found hFound
          exact hInline.parking (strandShape_of_run hBefore)
            hOk hTask hStrand hWhy hFound

/-
  Whoever is parked behind a discovery can still be woken:
  it is registered, it has neither finished nor thrown, and
  its coroutine is alive.
-/
theorem parked_registered
    {id : Int32}
    {now : Int}
    {events : List Event}
    (hRun :
      Machine.run (Machine.guarded (step ssl) suspendsFirst)
        (fresh id now) events = some c)
    {d : Nat}
    (hTask : c.tasks[t]? = some task)
    (hParked : task.point = .parked d false) :
    c.discovering.lookup task.target.endpoint = some d ∧
      (∃ discovery, c.discoveries[d]? = some discovery ∧
        discovery.finished = false ∧
        discovery.failure = false) ∧
      ∃ (t' : Nat) (runner : Task),
        c.tasks[t']? = some runner ∧
          runner.runner? = some d ∧
          runner.target.endpoint = task.target.endpoint := by
  have hKnown :
      c.discovering.lookup task.target.endpoint = some d := by
    apply (awaited_of_run hRun).2 t task d hTask
    rw [Task.awaits?, hParked]
    rfl
  have hAttended :=
    attended_of_run (Machine.run_of_guarded hRun)
  refine ⟨hKnown, ?_, hAttended.attended _ d hKnown⟩
  rcases hAttended.unfinished _ d hKnown with
    ⟨discovery, hDiscovery, hOpen⟩
  simp only [Discovery.isOpen, Bool.and_eq_true,
    Bool.not_eq_true'] at hOpen
  exact ⟨discovery, hDiscovery, hOpen.1, hOpen.2⟩

/- The request of `askedRun`, while its Engine is asked. -/
def queuedRun : List Event :=
  askedRun.take 6

theorem queuedRun_task :
    (Machine.run
      (Machine.guarded (step agentSsl) suspendsFirst)
      (fresh 1 0) queuedRun).bind (fun c => c.tasks[0]?) =
        some {
          work := .v3 agentUser 0
          target := agentTarget
          pdu := upTimeRequest
          point := .parked 0 false } := by
  decide +kernel

/- A request queued behind its discovery. -/
theorem parked_registered_sample :
    ∃ c,
      Machine.run
          (Machine.guarded (step agentSsl) suspendsFirst)
          (fresh 1 0) queuedRun = some c ∧
        c.discovering.lookup agentEndpoint = some 0 := by
  rcases Option.bind_eq_some_iff.mp queuedRun_task with
    ⟨c, hRun, hTask⟩
  exact ⟨c, hRun, (parked_registered hRun hTask rfl).1⟩

/- Too many files are open for another socket. -/
def unopenedRun : List Event :=
  [ .request agentTarget (.credentials agentUser)
      upTimeRequest,
    ahead, ahead, ahead,
    .advance { opened := some (.other 24) },
    ahead, ahead, ahead]

/-
  The request parks behind a discovery that is over, with
  nobody left to wake it.
-/
theorem parked_stranded :
    (Machine.run (step agentSsl) (fresh 1 0)
      unopenedRun).map (fun c =>
        (c.tasks.map (fun task => task.point),
          c.discovering.lookup agentEndpoint,
          c.discoveries.map (fun discovery =>
            discovery.finished))) =
      some ([.parked 0 false, .ended], none, [true]) := by
  decide +kernel

end Snmpio
