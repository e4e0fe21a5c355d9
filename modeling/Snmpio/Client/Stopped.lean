import Snmpio.Client.Stopping

/-
  How operations end once Stopping has begun.

  A request that is in a wait ends with `ClientStopped`,
  unless a cancellation has been sent to it, and the Walk
  above it does so too.

  Key definitions include:
    * `Task.Stopped`
    * `Operations.RequestEnds`
    * `Operations.WalkEnds`

  Key theorems include:
    * `Operations.Dooms.completes`
    * `Operations.Dooms.ends`
    * `stopped_completes`
-/

------------------------------------------------------------
-- Completion
------------------------------------------------------------

namespace Snmpio

variable {ssl : OpenSsl} {c c' : Client} {s s' : Operations}
variable {t w : Nat} {task task' : Task} {e : Snmpio.Event}
variable {id : Int32} {now : Int}

theorem Task.work_cases
    (hOperation : task.work.discovery? = none) :
    (∃ community, task.work = .v2c community) ∨
      ∃ creds attempt, task.work = .v3 creds attempt := by
  cases hWork : task.work with
  | v2c community => exact Or.inl ⟨community, rfl⟩
  | v3 creds attempt => exact Or.inr ⟨creds, attempt, rfl⟩
  | identify creds d =>
      rw [hWork] at hOperation
      cases hOperation
  | sync creds d engineId =>
      rw [hWork] at hOperation
      cases hOperation

/- The coroutine moves, and is at its end or next to it. -/
theorem Task.Doomed.runTask
    (hDoomed : task.Doomed)
    (hRuns : task.point.runs = true)
    (hStopping : c.stopping = true)
    (hPending :
      ∀ x, task.point = .leaving x →
        ∃ p, c.pendings[x.pending]? = some p) :
    ∃ c₁ task₁,
      Snmpio.runTask ssl {} c task = some (c₁, task₁, none) ∧
        (task₁.point.isOver = true ∨
          ∃ x ec, task.point = .leaving x ∧
            task₁.point = .returned x ec) := by
  have hPoint := hDoomed.point
  cases hAt : task.point with
  | start =>
      refine ⟨c, task.goto
        (.completed (some (.errc .clientStopped)) {}), ?_,
        Or.inl rfl⟩
      rcases Task.work_cases hDoomed.operation with
        ⟨community, hWork⟩ | ⟨creds, attempt, hWork⟩
      · simp [Snmpio.runTask, hAt, hWork, startV2c, hStopping]
      · simp [Snmpio.runTask, hAt, hWork, startV3, hStopping]
  | leaving x =>
      rcases hPending x hAt with ⟨p, hp⟩
      refine ⟨(leaveTransact c task x p).1,
        (leaveTransact c task x p).2, ?_,
        Or.inr ⟨x, _, rfl, rfl⟩⟩
      simp only [Snmpio.runTask, hAt, hp,
        Option.bind_eq_bind, Option.bind_some]
  | returned x ec =>
      rw [hAt] at hPoint
      cases hPoint with
      | @returned _ failure _ =>
          refine ⟨c, task.goto
            (.completed (some failure.code) {}), ?_,
            Or.inl rfl⟩
          rcases Task.work_cases hDoomed.operation with
            ⟨community, hWork⟩ | ⟨creds, attempt, hWork⟩
          · simp [Snmpio.runTask, hAt, afterFailure, hWork]
          · simp [Snmpio.runTask, hAt, afterFailure, hWork]
  | ensured ec =>
      rw [hAt] at hPoint
      cases hPoint with
      | @ensured failure _ =>
          rcases hDoomed.v3 _ hAt with ⟨creds, attempt, hWork⟩
          refine ⟨c, task.goto
            (.completed (some failure.code) {}), ?_,
            Or.inl rfl⟩
          simp [Snmpio.runTask, hAt, hWork]
  | _ =>
      rw [hAt] at hPoint hRuns
      cases hPoint
      all_goals cases hRuns

/- Its turn, with nobody else on the strand. -/
theorem Task.Doomed.advance
    (hDoomed : task.Doomed)
    (hRuns : task.point.runs = true)
    (hStopping : c.stopping = true)
    (hStrand : c.strand = [t])
    (hTask : c.tasks[t]? = some task)
    (hPending :
      ∀ x, task.point = .leaving x →
        ∃ p, c.pendings[x.pending]? = some p) :
    ∃ c' task',
      Snmpio.step ssl c (.advance {}) = some c' ∧
        c'.tasks[t]? = some task' ∧ task'.Doomed ∧
        ((task'.point.isOver = true ∧ c'.strand = []) ∨
          (c'.strand = [t] ∧
            ∃ x ec, task.point = .leaving x ∧
              task'.point = .returned x ec)) := by
  obtain ⟨c₁, task₁, hRunTask, hEnd⟩ :
      ∃ c₁ task₁,
        Snmpio.runTask ssl {} c task =
            some (c₁, task₁, none) ∧
          (task₁.point.isOver = true ∨
            ∃ x ec, task.point = .leaving x ∧
              task₁.point = .returned x ec) :=
    hDoomed.runTask hRuns hStopping hPending
  have hMove := runTask_move hRunTask
  have hBound := (List.getElem?_eq_some_iff.mp hTask).1
  refine ⟨c₁.place t [] task₁, task₁, ?_,
    List.getElem?_set_self (by rw [hMove.length]; exact hBound),
    (hDoomed.move hStopping hMove).1, ?_⟩
  · simp [Snmpio.step, Snmpio.advance, hStrand, hTask,
      hRunTask, Client.settle]
  · rcases hEnd with hOver | ⟨x, ec, hLeaving, hReturned⟩
    · refine Or.inl ⟨hOver, ?_⟩
      have hRests : task₁.point.runs = false := by
        by_contra hNot
        rw [Bool.not_eq_false] at hNot
        rw [Point.isOver_of_runs hNot] at hOver
        cases hOver
      simp [Client.place, hRests]
    · refine Or.inr ⟨?_, x, ec, hLeaving, hReturned⟩
      simp [Client.place, hReturned, Point.runs]

namespace Operations

/-
  What a request can count on: its send and its waits end,
  the cleanup runs, time passes and the strand goes on.
-/
def Event.isOwedTo
    (t : Nat) :
    Event → Bool
| .client (.sent i _) => i = t
| .client (.expire i) => i = t
| .client (.resume i) => i = t
| .client (.advance _) => true
| .client .finishStopping => true
| .client (.tick _) => true
| _ => false

/- It gets to its end by that alone. -/
def Completes
    (ssl : OpenSsl)
    (s : Operations)
    (t : Nat) : Prop :=
  ∃ own s' task',
    (∀ e ∈ own, Event.isOwedTo t e = true) ∧
      Machine.run (step ssl) s own = some s' ∧
      s'.walks = s.walks ∧ s'.client.strand = [] ∧
      s'.client.tasks[t]? = some task' ∧ task'.Doomed ∧
      task'.point.isOver = true

theorem Completes.of_over
    (hIdle : s.client.strand = [])
    (hTask : s.client.tasks[t]? = some task)
    (hDoomed : task.Doomed)
    (hOver : task.point.isOver = true) :
    Completes ssl s t := by
  refine ⟨[], s, task, ?_, rfl, rfl, hIdle, hTask, hDoomed,
    hOver⟩
  intro e hMem
  cases hMem

theorem step_of_admits
    (hAdmits : s.admits e = true)
    (hStep : Snmpio.step ssl s.client e = some c') :
    s.step ssl (.client e) =
      some { s with client := c' } := by
  simp only [step, hAdmits, if_true, hStep, Option.map_some]

/- One of its events, and then the rest. -/
theorem Completes.cons
    (hOwed : Event.isOwedTo t (.client e) = true)
    (hAdmits : s.admits e = true)
    (hStep : Snmpio.step ssl s.client e = some c')
    (hAfter : Completes ssl { s with client := c' } t) :
    Completes ssl s t := by
  rcases hAfter with
    ⟨own, s', task', hOwn, hRun, hWalks, hRest⟩
  refine ⟨.client e :: own, s', task', ?_, ?_, hWalks, hRest⟩
  · intro other hOther
    rcases List.mem_cons.mp hOther with rfl | hOther
    · exact hOwed
    · exact hOwn other hOther
  · exact Machine.run_cons.mpr
      ⟨_, step_of_admits hAdmits hStep, hRun⟩

/- A coroutine that runs gets to its end at once. -/
theorem Completes.of_runs
    (hStopping : s.client.stopping = true)
    (hStrand : s.client.strand = [t])
    (hTask : s.client.tasks[t]? = some task)
    (hDoomed : task.Doomed)
    (hRuns : task.point.runs = true)
    (hPending :
      ∀ x, task.point = .leaving x →
        ∃ p, s.client.pendings[x.pending]? = some p) :
    Completes ssl s t := by
  obtain ⟨c', task', hStep, hTask', hDoomed', hEnd⟩ :=
    hDoomed.advance hRuns hStopping hStrand hTask hPending
  refine Completes.cons rfl rfl hStep ?_
  rcases hEnd with
    ⟨hOver, hIdle⟩ | ⟨hStrand', x, ec, _, hReturned⟩
  · exact Completes.of_over hIdle hTask' hDoomed' hOver
  · have hStill : c'.stopping = true :=
      (step_flags hStep nofun).1.trans hStopping
    obtain ⟨c₂, task₂, hStep₂, hTask₂, hDoomed₂, hEnd₂⟩ :=
      hDoomed'.advance (by rw [hReturned]; rfl) hStill hStrand'
        hTask' (by rw [hReturned]; nofun)
    refine Completes.cons rfl rfl hStep₂ ?_
    rcases hEnd₂ with ⟨hOver, hIdle⟩ | ⟨_, y, _, hLeaving, _⟩
    · exact Completes.of_over hIdle hTask₂ hDoomed₂ hOver
    · rw [hReturned] at hLeaving
      cases hLeaving

/- Waking leaves no Walk to go on that was not to. -/
theorem notDue_of_nudged
    (hNudged : Nudged s.client c')
    (hNotDue : s.isDue = false) :
    isDue { s with client := c' } = false := by
  by_contra hNot
  rw [Bool.not_eq_false] at hNot
  rcases List.any_eq_true.mp hNot with ⟨walk, hMem, hDue⟩
  have hDueBefore : s.isDue = true := by
    refine List.any_eq_true.mpr ⟨walk, hMem, ?_⟩
    cases hPoint : walk.point with
    | requesting =>
        rw [hPoint] at hDue
        rcases (Option.any_eq_true _ _).mp hDue with
          ⟨task', hTask', hOver⟩
        rcases hNudged.tasks _ task' hTask' with
          ⟨task, hTask, hSame⟩
        refine (Option.any_eq_true _ _).mpr ⟨task, hTask, ?_⟩
        rcases hSame.point with hPoint | hWake
        · rw [← hPoint]
          exact hOver
        · rw [hWake, Point.wake_isOver] at hOver
          exact hOver
    | _ =>
        rw [hPoint] at hDue
        cases hDue
  rw [hNotDue] at hDueBefore
  cases hDueBefore

/- A wait that is over is resumed, and that is the end. -/
theorem Completes.of_resume
    (point : Point)
    (hStopping : s.client.stopping = true)
    (hNotDue : s.isDue = false)
    (hNotHandling : s.isHandling = false)
    (hTask : s.client.tasks[t]? = some task)
    (hDoomed : (task.goto point).Doomed)
    (hRuns : point.runs = true)
    (hPending :
      ∀ x, point = .leaving x →
        ∃ p, s.client.pendings[x.pending]? = some p)
    (hEvent : e = .resume t ∨ ∃ ec, e = .sent t ec)
    (hStep :
      Snmpio.step ssl s.client e =
        some (s.client.place t [] (task.goto point))) :
    Completes ssl s t := by
  have hBound := (List.getElem?_eq_some_iff.mp hTask).1
  have hAfter :
      Completes ssl
        { s with
          client := s.client.place t [] (task.goto point) }
        t := by
    refine Completes.of_runs hStopping ?_
      (List.getElem?_set_self hBound) hDoomed hRuns hPending
    simp [Client.place, Task.goto, hRuns]
  rcases hEvent with rfl | ⟨ec, rfl⟩
  · refine Completes.cons ?_ ?_ hStep hAfter
    · simp [Event.isOwedTo]
    · simp [admits, hNotDue, hNotHandling]
  · refine Completes.cons ?_ ?_ hStep hAfter
    · simp [Event.isOwedTo]
    · simp [admits, hNotDue, hNotHandling]

/- A wait for a reply that is over. -/
theorem Completes.of_waiting
    (hStopping : s.client.stopping = true)
    (hIdle : s.client.strand = [])
    (hNotDue : s.isDue = false)
    (hNotHandling : s.isHandling = false)
    (hTask : s.client.tasks[t]? = some task)
    (hOperation : task.work.discovery? = none)
    {x : Exchange}
    {deadline : Int}
    {soft : Bool}
    (hPoint : task.point = .waiting x deadline soft true)
    {p : Pending}
    (hp : s.client.pendings[x.pending]? = some p) :
    Completes ssl s t := by
  refine Completes.of_resume (.leaving x) hStopping hNotDue
    hNotHandling hTask
    (.goto hOperation (.leaving x) (by simp)) rfl ?_
    (Or.inl rfl) ?_
  · rintro y ⟨⟩
    exact ⟨p, hp⟩
  · simp [Snmpio.step, Client.isIdle, hIdle, onResume, hTask,
      hPoint, hp, afterWait, hStopping]

/- A wait for a discovery that is over. -/
theorem Completes.of_parked
    (hStopping : s.client.stopping = true)
    (hIdle : s.client.strand = [])
    (hNotDue : s.isDue = false)
    (hNotHandling : s.isHandling = false)
    (hTask : s.client.tasks[t]? = some task)
    (hOperation : task.work.discovery? = none)
    (hQueues : task.QueuesV3)
    {d : Nat}
    (hPoint : task.point = .parked d true)
    {discovery : Discovery}
    (hFound : s.client.discoveries[d]? = some discovery)
    (hSound : discovery.failure = false) :
    Completes ssl s t := by
  have hV3 := hQueues d (by rw [Task.behind?, hPoint]; rfl)
  refine Completes.of_resume
    (.ensured (some (.errc .clientStopped)))
    hStopping hNotDue hNotHandling hTask
    ⟨hOperation, .ensured (Or.inl rfl), fun _ _ => hV3⟩ rfl
    (by simp) (Or.inl rfl) ?_
  simp [Snmpio.step, Client.isIdle, hIdle, onResume, hTask,
    hPoint, hFound, afterPark, hSound, hStopping]

/- From wherever it waits, a request gets to its end. -/
theorem Dooms.completes
    (hDooms : s.Dooms t)
    (hStops : Operations.Stops ssl id now s)
    (hIdle : s.client.strand = [])
    (hNotDue : s.isDue = false)
    (hNotHandling : s.isHandling = false) :
    Completes ssl s t := by
  rcases hDooms with ⟨task, hTask, hDoomed, hReaches⟩
  rcases hStops.inner with ⟨inner, hRun⟩
  have hStopping := hStops.stopping
  have hOperation := hDoomed.operation
  have hQueues := queuesV3_of_run hRun hTask
  have hBound := (List.getElem?_eq_some_iff.mp hTask).1
  have hPending {x : Exchange}
      (hExchange : task.point.exchange? = some x) :
      ∃ p, s.client.pendings[x.pending]? = some p := by
    rcases (sound_of_run hRun).tasks t task hTask |>.exchange
      x hExchange with ⟨p, hp, _⟩
    exact ⟨p, hp⟩
  have hRests : task.point.runs = false := by
    have hNone := (strandShape_of_run hRun).idle hIdle t
    rw [Client.running, Client.view_of_task hTask] at hNone
    by_contra hRuns
    rw [Bool.not_eq_false] at hRuns
    rw [hRuns, if_pos rfl] at hNone
    cases hNone
  have hPoint := hDoomed.point
  cases hAt : task.point with
  | sending x =>
      rcases hPending (x := x) (by rw [hAt]; rfl) with
        ⟨p, hp⟩
      refine Completes.of_resume
        (.leaving { x with ec := none }) hStopping
        hNotDue hNotHandling hTask
        (.goto hOperation (.leaving _) (by simp)) rfl ?_
        (Or.inr ⟨none, rfl⟩) ?_
      · rintro y ⟨⟩
        exact ⟨p, hp⟩
      · simp [Snmpio.step, Client.isIdle, hIdle, onSent, hTask,
          hAt, afterSend, hStopping]
  | waiting x deadline soft woken =>
      rcases hPending (x := x) (by rw [hAt]; rfl) with
        ⟨p, hp⟩
      -- Its deadline comes, if nothing else does.
      let elapsed := (deadline - s.client.now).toNat
      let later : Client :=
        { s.client with now := s.client.now + elapsed }
      let woken : Client :=
        { later with
          tasks := later.tasks.set t
            (task.goto (.waiting x deadline soft true)) }
      have hTick :
          Snmpio.step ssl s.client (.tick elapsed) =
            some later := rfl
      have hPast : deadline ≤ later.now := by
        change deadline ≤ s.client.now + elapsed
        omega
      have hExpire :
          Snmpio.step ssl later (.expire t) = some woken := by
        simp only [Snmpio.step, onExpire]
        change (s.client.tasks[t]?).bind _ = _
        rw [hTask]
        simp only [Option.bind_some, hAt]
        rw [if_pos hPast]
      refine Completes.cons rfl rfl hTick ?_
      refine Completes.cons (by simp [Event.isOwedTo]) rfl
        hExpire ?_
      have hLater : Nudged s.client later :=
        Nudged.aside s.client _ _ _ _ _
      have hWoken : Nudged later woken :=
        onExpire_nudged hExpire
      exact Completes.of_waiting hStopping hIdle
        (notDue_of_nudged (s := { s with client := later })
          hWoken (notDue_of_nudged hLater hNotDue))
        hNotHandling
        (List.getElem?_set_self hBound) hOperation rfl hp
  | parked d woken =>
      rcases hReaches.sound d woken hAt with
        ⟨discovery, hFound, hSound⟩
      cases woken with
      | true =>
          exact Completes.of_parked hStopping hIdle hNotDue
            hNotHandling hTask hOperation hQueues hAt hFound
            hSound
      | false =>
          rcases hReaches.registered d hAt with
            ⟨hCleanup, hKnown⟩
          have hStep :
              Snmpio.step ssl s.client .finishStopping =
                some s.client.finishStopping := by
            simp [Snmpio.step, Client.isIdle, hIdle, hCleanup]
          refine Completes.cons rfl ?_ hStep ?_
          · simp [admits, hNotDue]
          · exact Completes.of_parked hStopping hIdle
              (notDue_of_nudged
                (finishStopping_nudged s.client) hNotDue)
              hNotHandling
              (finishStopping_wakes hTask hAt hKnown)
              hOperation (by
                intro d' hBehind
                exact hQueues d (by
                  rw [Task.behind?, hAt]
                  rfl)) rfl hFound hSound
  | completed ec resp =>
      exact Completes.of_over hIdle hTask hDoomed
        (by rw [hAt]; rfl)
  | _ =>
      rw [hAt] at hPoint hRests
      cases hPoint
      all_goals cases hRests

end Operations

end Snmpio

------------------------------------------------------------
-- Endings
------------------------------------------------------------

namespace Snmpio

variable {ssl : OpenSsl} {s s' : Operations} {t w : Nat}
variable {walk : Walk} {id : Int32} {now : Int}

/- What a request may complete with, and no data. -/
inductive Task.Stopped
    (task : Task) : Prop where
  | stopped
      (hPoint :
        task.point =
          .completed (some (.errc .clientStopped)) {})
  | aborted
      (hPoint :
        task.point = .completed (some .operationAborted) {})
      (hSent : task.cancelled ≠ {})

/- At its end it is stopped. -/
theorem Task.Doomed.stopped
    {task : Task}
    (hDoomed : task.Doomed)
    (hOver : task.point.isOver = true) :
    task.Stopped := by
  have hPoint := hDoomed.point
  cases hAt : task.point with
  | completed ec resp =>
      rw [hAt] at hPoint
      cases hPoint with
      | completed hWhy =>
          rcases hWhy with rfl | ⟨rfl, hSent⟩
          · exact .stopped hAt
          · exact .aborted hAt hSent
  | _ =>
      rw [hAt] at hPoint hOver
      cases hPoint
      all_goals cases hOver

theorem Walk.Doomed.stopped_of_over
    (hDoomed : walk.Doomed s)
    (hOver : walk.isOutstanding = false) :
    walk.Stopped s := by
  cases hDoomed with
  | requesting hPoint _ =>
      rw [Walk.isOutstanding, hPoint] at hOver
      cases hOver
  | handling hPoint _ =>
      rw [Walk.isOutstanding, hPoint] at hOver
      cases hOver
  | ended hStopped => exact hStopped

namespace Operations

/- Events of a Walk: its request's, and its own. -/
def Event.isOwedToWalk
    (w t : Nat) :
    Event → Bool
| .goOn i => i = w
| .handled i keep => i = w && keep
| e => Event.isOwedTo t e

/- A request gets to such an end by its events alone. -/
def RequestCompletes
    (ssl : OpenSsl)
    (s : Operations)
    (t : Nat) : Prop :=
  ∃ own s' task',
    (∀ e ∈ own, Event.isOwedTo t e = true) ∧
      Machine.run (step ssl) s own = some s' ∧
      s'.client.tasks[t]? = some task' ∧ task'.Stopped

/- A Walk does. -/
def WalkCompletes
    (ssl : OpenSsl)
    (s : Operations)
    (w : Nat) : Prop :=
  ∃ t own s' walk',
    (∀ e ∈ own, Event.isOwedToWalk w t e = true) ∧
      Machine.run (step ssl) s own = some s' ∧
      s'.walks[w]? = some walk' ∧ walk'.Stopped s'

theorem Completes.request
    (hCompletes : Completes ssl s t) :
    RequestCompletes ssl s t := by
  rcases hCompletes with
    ⟨own, s', task', hOwn, hRun, _, _, hTask', hDoomed,
      hOver⟩
  exact ⟨own, s', task', hOwn, hRun, hTask',
    hDoomed.stopped hOver⟩

theorem Event.isOwedToWalk_of_owed
    {e : Event}
    (hOwed : Event.isOwedTo t e = true) :
    Event.isOwedToWalk w t e = true := by
  cases e with
  | client e => exact hOwed
  | _ => cases hOwed

theorem WalkCompletes.of_over
    (hWalk : s.walks[w]? = some walk)
    (hStopped : walk.Stopped s) :
    WalkCompletes ssl s w := by
  refine ⟨0, [], s, walk, ?_, rfl, hWalk, hStopped⟩
  intro e hMem
  cases hMem

/- The Walk takes the result its request ends with. -/
theorem WalkCompletes.of_request
    (hWalk : s.walks[w]? = some walk)
    (hPoint : walk.point = .requesting)
    (hCompletes : Completes ssl s walk.request) :
    WalkCompletes ssl s w := by
  rcases hCompletes with
    ⟨own, s', task', hOwn, hRun, hWalks, hIdle, hTask',
      hDoomed, hOver⟩
  have hWalk' : s'.walks[w]? = some walk := by
    rw [hWalks]
    exact hWalk
  have hBound := (List.getElem?_eq_some_iff.mp hWalk').1
  cases hAt : task'.point with
  | completed ec resp =>
      rcases Walk.takeResult_doomed (w := w) hTask' hDoomed
        hAt with ⟨code, hResult, hAfter⟩
      have hStep :
          s'.step ssl (.goOn w) =
            some (s'.put w (walk.takeResult s'.client
              task'.cancelled ec resp)) := by
        simp [step, Client.isIdle, hIdle, onGoOn, hWalk',
          hPoint, hTask', hAt]
      refine ⟨walk.request, own ++ [.goOn w], _,
        walk.goto (.completed (some code)), ?_,
        Machine.run_concat.mpr ⟨s', hRun, hStep⟩, ?_,
        hAfter.stopped_of_over rfl⟩
      · intro e hMem
        rcases List.mem_append.mp hMem with hMem | hMem
        · exact Event.isOwedToWalk_of_owed (hOwn e hMem)
        · rw [List.mem_singleton] at hMem
          subst hMem
          simp [Event.isOwedToWalk]
      · rw [hResult]
        exact List.getElem?_set_self hBound
  | _ =>
      have hEnd := hDoomed.point
      rw [hAt] at hEnd hOver
      cases hEnd
      all_goals cases hOver

theorem WalkCompletes.cons
    {e : Event}
    (hOwed : ∀ t, Event.isOwedToWalk w t e = true)
    (hStep : s.step ssl e = some s')
    (hAfter : WalkCompletes ssl s' w) :
    WalkCompletes ssl s w := by
  rcases hAfter with
    ⟨t, own, s₂, walk₂, hOwn, hRun, hRest⟩
  refine ⟨t, e :: own, s₂, walk₂, ?_,
    Machine.run_cons.mpr ⟨s', hStep, hRun⟩, hRest⟩
  intro other hOther
  rcases List.mem_cons.mp hOther with rfl | hOther
  · exact hOwed t
  · exact hOwn other hOther

/- The batch handler returns, and the next request ends. -/
theorem WalkCompletes.of_handling
    {task : Task}
    (hWalk : s.walks[w]? = some walk)
    (hPoint : walk.point = .handling false)
    (hTask : s.client.tasks[walk.request]? = some task)
    (hStopping : s.client.stopping = true)
    (hIdle : s.client.strand = [])
    (hNotDue : s.isDue = false) :
    WalkCompletes ssl s w := by
  have hBound := (List.getElem?_eq_some_iff.mp hWalk).1
  have hStep :
      s.step ssl (.handled w true) =
        some (s.put w (walk.next s.client task.cancelled)) := by
    simp [step, Client.isIdle, hIdle, hNotDue, onHandled,
      hWalk, hPoint, hTask, Walk.afterBatch]
  refine WalkCompletes.cons (by simp [Event.isOwedToWalk])
    hStep ?_
  have hDoomed :
      (walk.next s.client task.cancelled).2.Doomed
        (s.put w (walk.next s.client task.cancelled)) :=
    Walk.next_doomed hTask
  unfold Walk.next at hDoomed ⊢
  split at hDoomed
  · exact WalkCompletes.of_over (List.getElem?_set_self hBound)
      (hDoomed.stopped_of_over rfl)
  · refine WalkCompletes.of_request
      (List.getElem?_set_self hBound) rfl ?_
    refine Completes.of_runs hStopping ?_
      List.getElem?_concat_length
      ⟨beginWork_operation walk.auth, .start, by simp⟩ rfl
      (by rintro x ⟨⟩)
    change s.client.tasks.length :: s.client.strand = _
    rw [hIdle]

/- Wherever it is, if no other Walk is being handled. -/
theorem WalkCompletes.of_doomed
    (hWalk : s.walks[w]? = some walk)
    (hDoomed : walk.Doomed s)
    (hStops : Operations.Stops ssl id now s)
    (hIdle : s.client.strand = [])
    (hNotDue : s.isDue = false)
    (hAlone :
      s.isHandling = true → walk.point = .handling false) :
    WalkCompletes ssl s w := by
  cases hDoomed with
  | requesting hPoint hRequest =>
      have hNotHandling : s.isHandling = false := by
        by_contra hHandling
        rw [Bool.not_eq_false] at hHandling
        rw [hAlone hHandling] at hPoint
        cases hPoint
      exact WalkCompletes.of_request hWalk hPoint
        (hRequest.completes hStops hIdle hNotDue hNotHandling)
  | handling hPoint hTask =>
      exact WalkCompletes.of_handling hWalk hPoint hTask
        hStops.stopping hIdle hNotDue
  | ended hStopped =>
      exact WalkCompletes.of_over hWalk hStopped

end Operations

namespace Operations

variable {e : Event}

/- Where the turn is nobody's. -/
def Rests
    (s : Operations) : Prop :=
  s.client.strand = [] ∧ s.isDue = false

/- The request is over, with what it may complete with. -/
def RequestStopped
    (t : Nat)
    (s : Operations) : Prop :=
  ∃ task, s.client.tasks[t]? = some task ∧ task.Stopped

/- The request needs no more turns when it is over. -/
theorem Dooms.stopped_iff
    (hDooms : s.Dooms t) :
    RequestStopped t s ↔ s.turnsToStop t = 0 := by
  rcases hDooms with ⟨task, hTask, hDoomed, _⟩
  rw [turnsToStop, hTask, Option.elim_some,
    ← hDoomed.point.over_iff]
  constructor
  · rintro ⟨found, hFound, hStopped⟩
    rw [hTask] at hFound
    cases hFound
    cases hStopped with
    | stopped hPoint =>
        rw [hPoint]
        rfl
    | aborted hPoint _ =>
        rw [hPoint]
        rfl
  · intro hOver
    exact ⟨task, hTask, hDoomed.stopped hOver⟩

def walkTurnsToStop
    (s : Operations)
    (w : Nat) : Nat :=
  (s.walks[w]?).elim 0 s.turnsOfWalk

theorem walkTurnsToStop_eq
    (hWalk : s.walks[w]? = some walk) :
    s.walkTurnsToStop w = s.turnsOfWalk walk := by
  rw [walkTurnsToStop, hWalk]
  rfl

/- The Walk is over, with what it may complete with. -/
def WalkStopped
    (w : Nat)
    (s : Operations) : Prop :=
  ∃ walk, s.walks[w]? = some walk ∧ walk.Stopped s

end Operations

/- The Walk needs no more turns when it is over. -/
theorem Walk.Doomed.stopped_iff
    (hDoomed : walk.Doomed s)
    (hWalk : s.walks[w]? = some walk) :
    Operations.WalkStopped w s ↔ s.walkTurnsToStop w = 0 := by
  rw [Operations.walkTurnsToStop_eq hWalk,
    Operations.turnsOfWalk]
  constructor
  · rintro ⟨found, hFound, hStopped⟩
    rw [hWalk] at hFound
    cases hFound
    rcases hStopped.isOver with ⟨ec, hPoint⟩
    rw [hPoint]
  · intro hNone
    refine ⟨walk, hWalk, hDoomed.stopped_of_over ?_⟩
    cases hPoint : walk.point with
    | completed ec => rw [Walk.isOutstanding, hPoint]
    | threw => rw [Walk.isOutstanding, hPoint]
    | start =>
        cases hDoomed with
        | ended hStopped =>
            rcases hStopped.isOver with ⟨ec, hNot⟩
            rw [hPoint] at hNot
            cases hNot
        | _ hNot =>
            rw [hPoint] at hNot
            cases hNot
    | _ =>
        rw [hPoint] at hNone
        cases hNone

namespace Operations

variable {e : Event}

/- The events of a Walk never break the condition. -/
theorem stopsCleanly_of_owed
    (hOwed : Event.isOwedToWalk w t e = true)
    (s : Operations) :
    stopsCleanly s e = true := by
  cases e with
  | client inner =>
      cases inner with
      | stop => cases hOwed
      | raise i => cases hOwed
      | _ => rfl
  | handled i keep =>
      simp only [Event.isOwedToWalk, Bool.and_eq_true] at hOwed
      rw [stopsCleanly, hOwed.2, Bool.or_true]
  | _ => rfl

/- The turns of a request are counted down. -/
theorem ranked_request
    (t : Nat) :
    Machine.Ranked (Machine.guarded (step ssl) stopsCleanly)
      (fun s => s.lets t)
      (fun s => Stops ssl id now s ∧ s.Dooms t)
      (fun s => s.turnsToStop t) where
  keeps := by
    rintro s e s' ⟨hStops, hDooms⟩ hStep
    rcases Machine.guarded_eq_some.mp hStep with ⟨hOk, hStep⟩
    exact ⟨hStops.step hStep,
      (hDooms.step hStops hOk hStep).1⟩
  counts := by
    rintro s e s' ⟨hStops, hDooms⟩ hStep
    rcases Machine.guarded_eq_some.mp hStep with ⟨hOk, hStep⟩
    exact (hDooms.step hStops hOk hStep).2

/- So are those of a Walk. -/
theorem ranked_walk
    (w : Nat) :
    Machine.Ranked (Machine.guarded (step ssl) stopsCleanly)
      (fun s => s.letsWalk w)
      (fun s => Stops ssl id now s ∧
        ∃ walk, s.walks[w]? = some walk ∧ walk.Doomed s)
      (fun s => s.walkTurnsToStop w) where
  keeps := by
    rintro s e s' ⟨hStops, walk, hWalk, hDoomed⟩ hStep
    rcases Machine.guarded_eq_some.mp hStep with ⟨hOk, hStep⟩
    rcases hDoomed.step hWalk hStops hOk hStep with
      ⟨walk', hWalk', hDoomed', _⟩
    exact ⟨hStops.step hStep, walk', hWalk', hDoomed'⟩
  counts := by
    rintro s e s' ⟨hStops, walk, hWalk, hDoomed⟩ hStep
    rcases Machine.guarded_eq_some.mp hStep with ⟨hOk, hStep⟩
    rcases hDoomed.step hWalk hStops hOk hStep with
      ⟨walk', hWalk', _, hCounts⟩
    rw [walkTurnsToStop_eq hWalk, walkTurnsToStop_eq hWalk']
    exact hCounts

/-
  Whatever else happens, a request that gets a turn between
  one rest and the next gets to such an end.
-/
def RequestEnds
    (ssl : OpenSsl)
    (s : Operations)
    (t : Nat) : Prop :=
  Machine.Inevitable
    (Machine.run (Machine.guarded (step ssl) stopsCleanly))
    (Machine.Gives (Machine.guarded (step ssl) stopsCleanly)
      (fun s => s.lets t)
      (fun s => (s.Rests ∧ s.isHandling = false) ∨
        RequestStopped t s))
    (RequestStopped t) s

/- A Walk does, while no other Walk's batch is handled. -/
def WalkEnds
    (ssl : OpenSsl)
    (s : Operations)
    (w : Nat) : Prop :=
  Machine.Inevitable
    (Machine.run (Machine.guarded (step ssl) stopsCleanly))
    (Machine.Gives (Machine.guarded (step ssl) stopsCleanly)
      (fun s => s.letsWalk w)
      (fun s => (s.Rests ∧
        ∀ walk, s.walks[w]? = some walk →
          s.isHandling = true →
            walk.point = .handling false) ∨
        WalkStopped w s))
    (WalkStopped w) s

/- So the request is bound to end. -/
theorem Dooms.ends
    (hDooms : s.Dooms t)
    (hStops : Stops ssl id now s)
    (hRests : s.Rests)
    (hNotHandling : s.isHandling = false) :
    RequestEnds ssl s t := by
  refine (ranked_request t).inevitable
    (fun _ hHolds => hHolds.2.stopped_iff) ?_
    ⟨hStops, hDooms⟩ ⟨hRests, hNotHandling⟩
  rintro s ⟨hStops, hDooms⟩ ⟨hRests, hNotHandling⟩
  rcases (hDooms.completes hStops hRests.1 hRests.2
    hNotHandling).request with
    ⟨own, s', task', hOwn, hRun, hStopped⟩
  refine ⟨own, s', Machine.guarded_of_run ?_ hRun, task',
    hStopped⟩
  intro e hMem
  exact stopsCleanly_of_owed
    (Event.isOwedToWalk_of_owed (w := 0) (hOwn e hMem))

end Operations

/- So is the Walk. -/
theorem Walk.Doomed.ends
    (hDoomed : walk.Doomed s)
    (hWalk : s.walks[w]? = some walk)
    (hStops : Operations.Stops ssl id now s)
    (hRests : s.Rests)
    (hAlone :
      s.isHandling = true → walk.point = .handling false) :
    Operations.WalkEnds ssl s w := by
  refine (Operations.ranked_walk w).inevitable ?_ ?_
    ⟨hStops, walk, hWalk, hDoomed⟩ ⟨hRests, ?_⟩
  · rintro s ⟨_, walk, hWalk, hDoomed⟩
    exact hDoomed.stopped_iff hWalk
  · rintro s ⟨hStops, walk, hWalk, hDoomed⟩ ⟨hRests, hAlone⟩
    rcases Operations.WalkCompletes.of_doomed hWalk hDoomed
      hStops hRests.1 hRests.2 (hAlone walk hWalk) with
      ⟨t, own, s', walk', hOwn, hRun, hStopped⟩
    refine ⟨own, s', Machine.guarded_of_run ?_ hRun, walk',
      hStopped⟩
    intro e hMem
    exact Operations.stopsCleanly_of_owed (hOwn e hMem)
  · intro found hFound
    rw [hWalk] at hFound
    cases hFound
    exact hAlone

/- What Stopping took hold of, it does not let go. -/
theorem doomed_of_run
    {m : Operations}
    (hBegun : Operations.Stops ssl id now m)
    {after : List Operations.Event}
    (hAfter :
      Machine.run
        (Machine.guarded (Operations.step ssl) stopsCleanly)
        m after = some s') :
    Operations.Stops ssl id now s' ∧
      (∀ t, m.Dooms t → s'.Dooms t) ∧
      ∀ (w : Nat) (walk : Walk), m.walks[w]? = some walk →
        walk.Doomed m →
          ∃ walk', s'.walks[w]? = some walk' ∧
            walk'.Doomed s' := by
  refine Machine.run_invariant
    (P := fun _ s => Operations.Stops ssl id now s ∧
      (∀ t, m.Dooms t → s.Dooms t) ∧
      ∀ (w : Nat) (walk : Walk), m.walks[w]? = some walk →
        walk.Doomed m →
          ∃ walk', s.walks[w]? = some walk' ∧
            walk'.Doomed s) ?_ ?_ hAfter
  · exact ⟨hBegun, fun _ hDooms => hDooms,
      fun _ walk hWalk hDoomed => ⟨walk, hWalk, hDoomed⟩⟩
  · intro events s e s' _ ih hStep
    rcases ih with ⟨hStops, hRequests, hWalks⟩
    rcases Machine.guarded_eq_some.mp hStep with
      ⟨hOk, hStep⟩
    refine ⟨hStops.step hStep, ?_, ?_⟩
    · intro t hDooms
      exact ((hRequests t hDooms).step hStops hOk hStep).1
    · intro w walk hWalk hDoomed
      rcases hWalks w walk hWalk hDoomed with
        ⟨walk', hWalk', hDoomed'⟩
      rcases hDoomed'.step hWalk' hStops hOk hStep with
        ⟨next, hNext, hNextDoomed, _⟩
      exact ⟨next, hNext, hNextDoomed⟩

/-
  Every request in a wait and every Walk not yet over where
  Stopping begins completes with `ClientStopped` or with
  what a cancellation sent to it asks for, and with nothing
  else.  Wherever the strand is free, its own events take it
  there, and so does whatever happens in which it gets its
  turns.
-/
theorem stopped_completes
    {id : Int32}
    {now : Int}
    {before after : List Operations.Event}
    (hBefore :
      Machine.run (Operations.step ssl)
        { client := fresh id now } before = some s)
    (hGoing : s.client.stopping = false)
    (hAfter :
      Machine.run
        (Machine.guarded (Operations.step ssl) stopsCleanly)
        s (.client .stop :: after) = some s') :
    (∀ (t : Nat) (task : Task),
      s.client.tasks[t]? = some task →
        task.work.discovery? = none →
        task.point.isWait = true →
          ∃ task', s'.client.tasks[t]? = some task' ∧
            (task'.point.isOver = true → task'.Stopped) ∧
            (s'.client.strand = [] → s'.isDue = false →
              s'.isHandling = false →
                Operations.RequestCompletes ssl s' t ∧
                  Operations.RequestEnds ssl s' t)) ∧
    (∀ (w : Nat) (walk : Walk),
      s.walks[w]? = some walk →
        walk.isOutstanding = true →
          ∃ walk', s'.walks[w]? = some walk' ∧
            (walk'.isOutstanding = false →
              walk'.Stopped s') ∧
            (s'.client.strand = [] → s'.isDue = false →
              (s'.isHandling = true →
                walk'.point = .handling false) →
                Operations.WalkCompletes ssl s' w ∧
                  Operations.WalkEnds ssl s' w)) := by
  rcases Machine.run_cons.mp hAfter with ⟨m, hStop, hRest⟩
  rcases Machine.guarded_eq_some.mp hStop with ⟨hOk, hStep⟩
  have hHere := stopsCleanly_stop hOk hGoing
  have hStopped : m = { s with client := s.client.stop } := by
    cases hStep
    rfl
  have hBegun :=
    Machine.run_concat.mpr ⟨s, hBefore, hStep⟩
  subst hStopped
  rcases doomed_of_run ⟨⟨_, hBegun⟩, rfl⟩ hRest with
    ⟨hStops, hRequests, hWalks⟩
  rcases Operations.client_of_run hBefore with
    ⟨first, hFirst⟩
  refine ⟨?_, ?_⟩
  · intro t task hTask hOperation hWait
    rcases hRequests t
      (hHere.request hGoing hTask hOperation hWait) with
      ⟨task', hTask', hDoomed, hReaches⟩
    have hDooms : s'.Dooms t :=
      ⟨task', hTask', hDoomed, hReaches⟩
    refine ⟨task', hTask', hDoomed.stopped, ?_⟩
    intro hIdle hNotDue hNotHandling
    exact ⟨(hDooms.completes hStops hIdle hNotDue
        hNotHandling).request,
      hDooms.ends hStops ⟨hIdle, hNotDue⟩ hNotHandling⟩
  · intro w walk hWalk hOutstanding
    rcases hWalks w walk hWalk
      (hHere.walk hGoing (strandShape_of_run hFirst)
        (Operations.linked_of_run hBefore) hWalk
        hOutstanding) with ⟨walk', hWalk', hDoomed⟩
    refine ⟨walk', hWalk', hDoomed.stopped_of_over, ?_⟩
    intro hIdle hNotDue hAlone
    exact ⟨.of_doomed hWalk' hDoomed hStops hIdle hNotDue
        hAlone,
      hDoomed.ends hWalk' hStops ⟨hIdle, hNotDue⟩ hAlone⟩

theorem handlerRun_ends :
    ((Machine.run (Operations.step agentSsl)
      { client := fresh 1 0 } batchRun).bind (fun s =>
        (Machine.run
          (Machine.guarded (Operations.step agentSsl)
            stopsCleanly) s
          (.client .stop :: (stoppedRun ++ [.goOn 0]))).bind
          (fun s' =>
            (s.walks[0]?).bind (fun walk =>
              (s'.walks[0]?).map (fun walk' =>
                (s.client.stopping, walk.point,
                  walk'.isOutstanding)))))) =
      some (false, .handling false, false) := by
  decide +kernel

theorem handlerRun_rests :
    ((Machine.run (Operations.step agentSsl)
      { client := fresh 1 0 } batchRun).bind (fun s =>
        (Machine.run
          (Machine.guarded (Operations.step agentSsl)
            stopsCleanly) s [.client .stop]).bind (fun m =>
            (m.walks[0]?).map (fun walk =>
              (m.client.strand, m.isDue, walk.point))))) =
      some ([], false, .handling false) := by
  decide +kernel

/-
  The batch handler stops the Client and wants more: its
  Walk is bound to end, and so it does.
-/
theorem stopped_completes_handler :
    ∃ s m s' walk walk',
      Machine.run (Operations.step agentSsl)
          { client := fresh 1 0 } batchRun = some s ∧
        Machine.run
          (Machine.guarded (Operations.step agentSsl)
            stopsCleanly) s [.client .stop] = some m ∧
        Operations.WalkEnds agentSsl m 0 ∧
        Machine.run
          (Machine.guarded (Operations.step agentSsl)
            stopsCleanly) s
          (.client .stop :: (stoppedRun ++ [.goOn 0])) =
            some s' ∧
        s.walks[0]? = some walk ∧
        walk.point = .handling false ∧
        s'.walks[0]? = some walk' ∧ walk'.Stopped s' := by
  rcases Option.bind_eq_some_iff.mp handlerRun_ends with
    ⟨s, hBefore, hRest⟩
  rcases Option.bind_eq_some_iff.mp hRest with
    ⟨s', hAfter, hRest⟩
  rcases Option.bind_eq_some_iff.mp hRest with
    ⟨walk, hWalk, hRest⟩
  rcases Option.map_eq_some_iff.mp hRest with
    ⟨walk', hWalk', hAll⟩
  simp only [Prod.mk.injEq] at hAll
  rcases hAll with ⟨hGoing, hPoint, hOver⟩
  have hMid := handlerRun_rests
  rw [hBefore, Option.bind_some] at hMid
  rcases Option.bind_eq_some_iff.mp hMid with
    ⟨m, hStopped, hRest⟩
  rcases Option.map_eq_some_iff.mp hRest with
    ⟨now, hNow, hThere⟩
  simp only [Prod.mk.injEq] at hThere
  rcases hThere with ⟨hIdle, hNotDue, hHandling⟩
  have hOutstanding : walk.isOutstanding = true := by
    rw [Walk.isOutstanding, hPoint]
  rcases (stopped_completes hBefore hGoing hStopped).2 0 walk
    hWalk hOutstanding with ⟨found, hFound, _, hEnds⟩
  rw [hNow] at hFound
  cases hFound
  rcases (stopped_completes hBefore hGoing hAfter).2 0 walk
    hWalk hOutstanding with ⟨found, hFound, hEnded, _⟩
  rw [hWalk'] at hFound
  cases hFound
  exact ⟨s, m, s', walk, walk', hBefore, hStopped,
    (hEnds hIdle hNotDue (fun _ => hHandling)).2, hAfter,
    hWalk, hPoint, hWalk', hEnded hOver⟩

/- The Agent's next name is outside the Subtree. -/
def lastReply : Octets :=
  (encodeV2cMessage []
    { type := .response
      requestId := 1
      varbinds :=
        [⟨sysUpTime, .timeTicks 4711⟩,
          ⟨⟨[1, 3, 6, 1, 2, 1, 2, 1, 0]⟩,
            .integer 2⟩] }).1

/- A Walk up to its only batch. -/
def lastBatchRun : List Operations.Event :=
  [.walk agentTarget (.community []) ⟨[1, 3, 6, 1, 2, 1, 1]⟩
      {},
    .client ahead, .client ahead,
    .client (.sent 0 none),
    .client (.receive agentEndpoint lastReply),
    .client (.resume 0), .client ahead, .client ahead,
    .goOn 0]

/-
  A batch handler calls `stop()`.  If it wants no more, its
  Walk completes with `WalkIncomplete`; if the batch was the
  last, with success.
-/
theorem handler_outlives_stop :
    ((Machine.run (Operations.step agentSsl)
      { client := fresh 1 0 }
      (batchRun ++ [.client .stop, .client .finishStopping,
        .handled 0 false])).bind (fun s =>
          s.walks[0]?.map (fun walk =>
            (s.client.tasks.map (fun task =>
              task.cancelled), walk.point))),
      (Machine.run (Operations.step agentSsl)
        { client := fresh 1 0 }
        (lastBatchRun ++ [.client .stop,
          .client .finishStopping, .handled 0 true])).bind
        (fun s => s.walks[0]?.map (fun walk =>
          (s.client.tasks.map (fun task =>
            task.cancelled), walk.point)))) =
      (some ([{}],
          .completed (some (.errc .walkIncomplete))),
        some ([{}], .completed none)) := by
  decide +kernel

end Snmpio
