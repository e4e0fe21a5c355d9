import Snmpio.Client.Operations
import Snmpio.Client.Sharing
import Snmpio.Lib.Potential

/-
  What Stopping takes hold of.

  A request that is in a wait and the Walk above it are from
  then on bound to be stopped, and each of their turns brings
  them nearer to it.  This needs a batch handler that does
  not end the Walk by itself, and a discovery that neither
  throws nor strands those who wait for it.

  Key definitions include:
    * `Task.Doomed`
    * `Walk.Doomed`
    * `stopsCleanly`

  Key theorems include:
    * `Task.Doomed.step`
    * `Walk.Doomed.step`
    * `Operations.client_of_run`
-/

------------------------------------------------------------
-- Requests
------------------------------------------------------------

namespace Snmpio

variable {ssl : OpenSsl} {c c' : Client} {t : Nat}
variable {task task' : Task} {e : Event} {point : Point}
variable {cancelled : Cancellation} {d : Nat}

/- Requests without Credentials wait for no discovery. -/
def Task.QueuesV3
    (task : Task) : Prop :=
  ∀ d, task.behind? = some d →
    ∃ creds attempt, task.work = .v3 creds attempt

theorem TaskStep.queuesV3
    (hTaskStep : TaskStep ssl c t e task')
    (hBefore :
      ∀ task, c.tasks[t]? = some task → task.QueuesV3) :
    task'.QueuesV3 := by
  intro d hBehind
  cases hTaskStep with
  | moved _ _ hMove =>
      rcases hMove.behind hBehind with
        hEnsuring | ⟨hParking, _⟩
      · cases hMove with
        | ensure _ hWork hEnsure =>
            rcases ensureEngine_cases hEnsure with
              ⟨_, rfl, _, _⟩ | ⟨_, _, _, rfl, _⟩ |
                ⟨_, _, rfl, _⟩
            all_goals exact ⟨_, _, hWork⟩
        | _ hOther =>
            rw [hEnsuring] at hOther
            cases hOther
      · cases hMove with
        | park _ hWork => exact ⟨_, _, hWork⟩
        | _ hOther =>
            rw [hParking] at hOther
            cases hOther
  | spawned _ _ hMove _ =>
      rcases hMove.spawned_eq rfl with ⟨creds, rfl⟩
      cases hBehind
  | requested _ _ => cases hBehind
  | resumed _ _ hResumes =>
      rw [Task.behind?, Task.goto, hResumes.discovers.2.1]
        at hBehind
      cases hBehind
  | raised _ _ _ => cases hBehind
  | @signalled _ task _ _ hTask _ _ =>
      refine hBefore task hTask d ?_
      refine (Task.Waits.of_point ?_).behind d hBehind
      exact signalled_cases task.point
  | @woken _ task hTask _ _ =>
      refine hBefore task hTask d ?_
      refine (Task.Waits.of_point ?_).behind d hBehind
      exact Or.inr rfl
  | kept hTask _ => exact hBefore _ hTask d hBehind

theorem queuesV3_of_run
    {id : Int32}
    {now : Int}
    {events : List Event}
    (hRun :
      Machine.run (step ssl) (fresh id now) events = some c)
    (hTask : c.tasks[t]? = some task) :
    task.QueuesV3 := by
  refine Machine.run_invariant
    (P := fun _ c =>
      ∀ (t : Nat) (task : Task), c.tasks[t]? = some task →
        task.QueuesV3) ?_ ?_ hRun t task hTask
  · intro t task hTask
    cases hTask
  · intro events c e c' _ ih hStep t task hTask
    exact (step_task hStep hTask).queuesV3 (ih t)

/- Stopping, or a cancellation that has been sent. -/
def Cancellation.explains
    (cancelled : Cancellation)
    (failure : Failure) : Prop :=
  failure = .errc .clientStopped ∨
    (failure = .system .operationAborted ∧ cancelled ≠ {})

/- Where an operation is on its way to such an end. -/
inductive Point.Doomed
    (cancelled : Cancellation) :
    Point → Prop where
  | start : Doomed cancelled .start
  | sending (x : Exchange) : Doomed cancelled (.sending x)
  | waiting
      (x : Exchange) (deadline : Int) (soft woken : Bool) :
      Doomed cancelled (.waiting x deadline soft woken)
  | parked (d : Nat) (woken : Bool) :
      Doomed cancelled (.parked d woken)
  | leaving (x : Exchange) : Doomed cancelled (.leaving x)
  | returned
      (x : Exchange)
      {failure : Failure}
      (hWhy : cancelled.explains failure) :
      Doomed cancelled (.returned x (some failure))
  | ensured
      {failure : Failure}
      (hWhy : cancelled.explains failure) :
      Doomed cancelled (.ensured (some failure))
  | completed
      {failure : Failure}
      (hWhy : cancelled.explains failure) :
      Doomed cancelled
        (.completed (some failure.code) {})

structure Task.Doomed
    (task : Task) : Prop where
  operation : task.work.discovery? = none
  point : task.point.Doomed task.cancelled
  v3 :
    ∀ ec, task.point = .ensured ec →
      ∃ creds attempt, task.work = .v3 creds attempt

/- Only at `ensured` does it matter what is asked. -/
theorem Task.Doomed.goto
    (hOperation : task.work.discovery? = none)
    (hPoint : point.Doomed task.cancelled)
    (hApart : ∀ ec, point ≠ .ensured ec) :
    (task.goto point).Doomed where
  operation := hOperation
  point := hPoint
  v3 := fun ec hEnsured => absurd hEnsured (hApart ec)

theorem Cancellation.explains.more
    {cancelled' : Cancellation}
    {failure : Failure}
    (hWhy : cancelled.explains failure)
    (hMore : cancelled ≠ {} → cancelled' ≠ {}) :
    cancelled'.explains failure := by
  rcases hWhy with hStopped | ⟨hAborted, hSent⟩
  · exact Or.inl hStopped
  · exact Or.inr ⟨hAborted, hMore hSent⟩

theorem Point.Doomed.more
    {cancelled' : Cancellation}
    (hDoomed : point.Doomed cancelled)
    (hMore : cancelled ≠ {} → cancelled' ≠ {}) :
    point.Doomed cancelled' := by
  cases hDoomed with
  | start => exact .start
  | sending x => exact .sending x
  | waiting x deadline soft woken =>
      exact .waiting x deadline soft woken
  | parked d woken => exact .parked d woken
  | leaving x => exact .leaving x
  | returned x hWhy => exact .returned x (hWhy.more hMore)
  | ensured hWhy => exact .ensured (hWhy.more hMore)
  | completed hWhy => exact .completed (hWhy.more hMore)

theorem Point.Doomed.wake
    (hDoomed : point.Doomed cancelled) :
    point.wake.Doomed cancelled := by
  cases hDoomed with
  | waiting x deadline soft woken =>
      exact .waiting x deadline soft true
  | parked d woken => exact .parked d true
  | start => exact .start
  | sending x => exact .sending x
  | leaving x => exact .leaving x
  | returned x hWhy => exact .returned x hWhy
  | ensured hWhy => exact .ensured hWhy
  | completed hWhy => exact .completed hWhy

/- How many turns of its own are left at such a point. -/
def Point.turnsToStop :
    Point → Nat
| .sending _ => 3
| .waiting _ _ _ _ => 3
| .parked _ _ => 3
| .leaving _ => 2
| .start => 1
| .returned _ _ => 1
| .ensured _ => 1
| _ => 0

theorem Point.turnsToStop_wake
    (point : Point) :
    point.wake.turnsToStop = point.turnsToStop := by
  cases point with
  | _ => rfl

theorem Point.Doomed.over_iff
    (hDoomed : point.Doomed cancelled) :
    point.isOver = true ↔ point.turnsToStop = 0 := by
  cases hDoomed with
  | _ => simp [Point.isOver, Point.turnsToStop]

/- What `transact` returns while the Client is Stopping. -/
theorem transactResult_stopping
    (hStopping : c.stopping = true)
    (task : Task)
    (x : Exchange)
    (p : Pending) :
    ∃ failure, transactResult c task x p = some failure ∧
      task.cancelled.explains failure := by
  unfold transactResult
  split
  · next hTerminal =>
    refine ⟨_, rfl, Or.inr ⟨rfl, ?_⟩⟩
    intro hNone
    rw [hNone] at hTerminal
    cases hTerminal
  · split
    · next hAnswered => exact absurd hStopping hAnswered.2
    · split
      · next hTotal =>
        refine ⟨_, rfl, Or.inr ⟨rfl, ?_⟩⟩
        intro hNone
        rw [hNone] at hTotal
        cases hTotal
      · exact ⟨_, rfl, Or.inl rfl⟩

/- A turn brings it nearer to its end. -/
theorem Task.Doomed.move
    {out : Outside}
    {spawned : Option Task}
    (hDoomed : task.Doomed)
    (hStopping : c.stopping = true)
    (hMove : Move ssl out c task c' task' spawned) :
    task'.Doomed ∧
      task'.point.turnsToStop < task.point.turnsToStop := by
  have hPoint := hDoomed.point
  have hOperation := hDoomed.operation
  -- From the last point, with one turn left.
  have hLast {ec : ErrorCode}
      (hDoomed : (Point.completed (some ec) {}).Doomed
        task.cancelled)
      (hOne : task.point.turnsToStop = 1) :
      (task.goto (.completed (some ec) {})).Doomed ∧
        (task.goto
          (.completed (some ec) {})).point.turnsToStop <
            task.point.turnsToStop := by
    rw [hOne]
    exact ⟨.goto hOperation hDoomed (by simp), Nat.one_pos⟩
  cases hMove with
  | beginV2c hAt _ =>
      unfold startV2c
      rw [if_pos hStopping]
      exact hLast (.completed (Or.inl rfl)) (by rw [hAt]; rfl)
  | beginV3 hAt _ =>
      unfold startV3
      rw [if_pos hStopping]
      exact hLast (.completed (Or.inl rfl)) (by rw [hAt]; rfl)
  | beginIdentify _ hWork =>
      rw [hWork] at hOperation
      cases hOperation
  | fail hAt _ =>
      rw [hAt] at hPoint
      cases hPoint with
      | ensured hWhy =>
          exact hLast (.completed hWhy) (by rw [hAt]; rfl)
  | @leave x p hAt _ =>
      rcases transactResult_stopping hStopping task x p with
        ⟨failure, hResult, hWhy⟩
      change (task.goto
        (.returned x (transactResult c task x p))).Doomed ∧ _
      rw [hResult]
      refine ⟨.goto hOperation (.returned x hWhy) (by simp), ?_⟩
      rw [hAt]
      exact Nat.one_lt_two
  | @failed x ec hAt =>
      rw [hAt] at hPoint
      cases hPoint with
      | returned _ hWhy =>
          have hOne : task.point.turnsToStop = 1 := by
            rw [hAt]
            rfl
          unfold afterFailure
          split
          · exact hLast (.completed hWhy) hOne
          · exact hLast (.completed hWhy) hOne
          · next hWork =>
            rw [hWork] at hOperation
            cases hOperation
          · next hWork =>
            rw [hWork] at hOperation
            cases hOperation
  | _ hAt =>
      rw [hAt] at hPoint
      cases hPoint

/-
  A request that waits for a discovery will hear of it: it
  has not thrown, and the cleanup is still to come and finds
  it registered, or has woken the request.
-/
structure Client.Reaches
    (c : Client)
    (task : Task) : Prop where
  sound :
    ∀ d woken, task.point = .parked d woken →
      ∃ discovery, c.discoveries[d]? = some discovery ∧
        discovery.failure = false
  registered :
    ∀ d, task.point = .parked d false →
      c.cleanup = true ∧
        c.discovering.lookup task.target.endpoint = some d

theorem Task.Doomed.resume
    (hDoomed : task.Doomed)
    (hStopping : c.stopping = true)
    (hQueues : task.QueuesV3)
    (hReaches : c.Reaches task)
    (hResumes : Resumes c t task e point) :
    (task.goto point).Doomed ∧
      point.turnsToStop < task.point.turnsToStop := by
  have hOperation := hDoomed.operation
  cases hResumes with
  | @sent x ec hPoint =>
      rw [afterSend, if_pos (Or.inr hStopping), hPoint]
      exact ⟨.goto hOperation (.leaving _) (by simp),
        by simp [Point.turnsToStop]⟩
  | @waited x _ _ p hPoint _ =>
      rw [afterWait,
        if_pos (Or.inr (Or.inr (Or.inl hStopping))), hPoint]
      exact ⟨.goto hOperation (.leaving x) (by simp),
        by simp [Point.turnsToStop]⟩
  | @unparked d discovery hParked hd =>
      rcases hReaches.sound d true hParked with
        ⟨found, hFound, hSound⟩
      rw [hd] at hFound
      cases hFound
      rw [afterPark, hSound, if_neg Bool.false_ne_true,
        if_pos hStopping, hParked]
      refine ⟨⟨hOperation, .ensured (Or.inl rfl), ?_⟩,
        by simp [Point.turnsToStop]⟩
      intro _ _
      exact hQueues d (by rw [Task.behind?, hParked]; rfl)

/- Whether an event is a turn of the coroutine's own. -/
def Client.lets
    (c : Client)
    (t : Nat) :
    Event → Bool
| .advance _ => c.strand.head? = some t
| .sent i _ => i = t
| .resume i => i = t
| _ => false

theorem Client.lets_cases
    (hLets : c.lets t e = true) :
    e.resumes? = some t ∨
      ∃ out, e = .advance out ∧ c.strand.head? = some t := by
  cases e with
  | advance out =>
      exact Or.inr ⟨out, rfl, of_decide_eq_true hLets⟩
  | sent i ec =>
      exact Or.inl (congrArg some (of_decide_eq_true hLets))
  | resume i =>
      exact Or.inl (congrArg some (of_decide_eq_true hLets))
  | _ => cases hLets

/- Its turn on the strand. -/
theorem Task.Doomed.advanced
    {out : Outside}
    (hDoomed : task.Doomed)
    (hStopping : c.stopping = true)
    (hTask : c.tasks[t]? = some task)
    (hTask' : c'.tasks[t]? = some task')
    (hStep : Snmpio.step ssl c (.advance out) = some c')
    (hHead : c.strand.head? = some t) :
    task'.point.turnsToStop < task.point.turnsToStop := by
  have hBound := (List.getElem?_eq_some_iff.mp hTask).1
  rcases advance_eq hStep with
    ⟨head, rest, before, c₁, after, spawned, hStrand, hBefore,
      hMove, rfl⟩
  rw [hStrand] at hHead
  cases hHead
  rw [hTask] at hBefore
  cases hBefore
  rcases settle_task hTask' with
    ⟨_, rfl⟩ | ⟨hNot, _⟩ | ⟨hNew, _⟩
  · exact (hDoomed.move hStopping hMove).2
  · exact absurd rfl hNot
  · rw [hMove.length] at hNew
    omega

/-
  Nothing takes such an operation off its way, and its turns
  bring it on.
-/
theorem Task.Doomed.step
    (hDoomed : task.Doomed)
    (hStopping : c.stopping = true)
    (hQueues : task.QueuesV3)
    (hReaches : c.Reaches task)
    (hTask : c.tasks[t]? = some task)
    (hTask' : c'.tasks[t]? = some task')
    (hStep : Snmpio.step ssl c e = some c') :
    task'.Doomed ∧
      Machine.Counts (c.lets t e) task.point.turnsToStop
        task'.point.turnsToStop := by
  have hBound := (List.getElem?_eq_some_iff.mp hTask).1
  have hAdvanced {out : Outside}
      (hStep : Snmpio.step ssl c (.advance out) = some c') :=
    hDoomed.advanced hStopping hTask hTask' hStep
  -- Where nothing is gained, it was not its turn.
  have hOther
      (hNot : e.resumes? ≠ some t)
      (hSame :
        task'.point.turnsToStop = task.point.turnsToStop) :
      Machine.Counts (c.lets t e) task.point.turnsToStop
        task'.point.turnsToStop := by
    refine .of_other ?_ hSame
    by_contra hLets
    rw [Bool.not_eq_false] at hLets
    rcases Client.lets_cases hLets with
      hOwn | ⟨out, rfl, hHead⟩
    · exact hNot hOwn
    · have hLess := hAdvanced hStep hHead
      omega
  cases step_task hStep hTask' with
  | moved hStrand hBefore hMove =>
      rw [hTask] at hBefore
      cases hBefore
      have hAfter := hDoomed.move hStopping hMove
      exact ⟨hAfter.1,
        .of_turn (by simp [Client.lets, hStrand]) hAfter.2⟩
  | spawned _ _ _ hNew => exact absurd hNew (by omega)
  | requested _ hNew => exact absurd hNew (by omega)
  | resumed _ hBefore hResumes =>
      rw [hTask] at hBefore
      cases hBefore
      have hAfter := hDoomed.resume hStopping hQueues hReaches
        hResumes
      refine ⟨hAfter.1, .of_turn ?_ hAfter.2⟩
      cases hResumes with
      | _ => exact decide_eq_true rfl
  | raised hBefore hDiscovery _ =>
      rw [hTask] at hBefore
      cases hBefore
      rw [hDoomed.operation] at hDiscovery
      cases hDiscovery
  | signalled _ hBefore _ hCancelled =>
      rw [hTask] at hBefore
      cases hBefore
      have hMore := hDoomed.point.more (fun _ => hCancelled)
      rcases signalled_cases task.point with hSame | hWake
      · rw [hSame]
        exact ⟨⟨hDoomed.operation, hMore, hDoomed.v3⟩,
          .of_other rfl rfl⟩
      · rw [hWake]
        refine ⟨⟨hDoomed.operation, hMore.wake, ?_⟩,
          .of_other rfl (Point.turnsToStop_wake _)⟩
        intro ec hPoint
        exact hDoomed.v3 ec (Point.eq_of_wake hPoint rfl)
  | woken hBefore _ hNot =>
      rw [hTask] at hBefore
      cases hBefore
      refine ⟨⟨hDoomed.operation, hDoomed.point.wake, ?_⟩,
        hOther hNot (Point.turnsToStop_wake _)⟩
      intro ec hPoint
      exact hDoomed.v3 ec (Point.eq_of_wake hPoint rfl)
  | kept hBefore hNot =>
      rw [hTask] at hBefore
      cases hBefore
      exact ⟨hDoomed, hOther hNot rfl⟩

/- Where it is parked, it has been parked before. -/
theorem TaskStep.parked_before
    {woken : Bool}
    (hTaskStep : TaskStep ssl c t e task')
    (hTask : c.tasks[t]? = some task)
    (hParking : ∀ d, task.point ≠ .parking d)
    (hPoint : task'.point = .parked d woken) :
    ∃ before, task.point = .parked d before ∧
      (woken = false → before = false) := by
  have hBound := (List.getElem?_eq_some_iff.mp hTask).1
  have hWake :
      task.point.wake = .parked d woken →
        ∃ before, task.point = .parked d before ∧
          (woken = false → before = false) := by
    intro hPoint
    cases hAt : task.point with
    | parked d' before =>
        rw [hAt] at hPoint
        cases hPoint
        exact ⟨before, rfl, nofun⟩
    | _ =>
        rw [hAt] at hPoint
        cases hPoint
  cases hTaskStep with
  | moved _ hBefore hMove =>
      rw [hTask] at hBefore
      cases hBefore
      have hBehind : task'.behind? = some d := by
        rw [Task.behind?, hPoint]
        rfl
      rcases hMove.behind hBehind with
        hEnsuring | ⟨hAt, _⟩
      · cases hMove with
        | ensure _ _ hEnsure =>
            rcases ensureEngine_cases hEnsure with
              ⟨_, rfl, _, _⟩ | ⟨_, _, _, rfl, _⟩ |
                ⟨_, _, rfl, _⟩
            all_goals cases hPoint
        | _ hOther =>
            rw [hEnsuring] at hOther
            cases hOther
      · exact absurd hAt (hParking d)
  | spawned _ _ _ hNew => exact absurd hNew (by omega)
  | requested _ hNew => exact absurd hNew (by omega)
  | resumed _ _ hResumes =>
      cases hPoint
      cases hResumes.discovers.2.1
  | raised _ _ _ => cases hPoint
  | signalled _ hBefore _ _ =>
      rw [hTask] at hBefore
      cases hBefore
      rcases signalled_cases task.point with hSame | hWoken
      · exact ⟨woken, hSame.symm.trans hPoint, fun h => h⟩
      · exact hWake (hWoken.symm.trans hPoint)
  | woken hBefore _ _ =>
      rw [hTask] at hBefore
      cases hBefore
      exact hWake hPoint
  | kept hBefore _ =>
      rw [hTask] at hBefore
      cases hBefore
      exact ⟨woken, hPoint, fun h => h⟩

theorem Task.wakeOn_done
    {timers : List Timer}
    (hPoint : task.point = .parked d false)
    (hMem : Timer.done d ∈ timers) :
    task.wakeOn timers = task.goto (.parked d true) := by
  simp [Task.wakeOn, hPoint, Point.timer?, hMem, Point.wake,
    Task.goto]

/- The cleanup wakes who waits for a discovery. -/
theorem finishStopping_wakes
    {endpoint : Endpoint}
    (hTask : c.tasks[t]? = some task)
    (hPoint : task.point = .parked d false)
    (hFound : c.discovering.lookup endpoint = some d) :
    c.finishStopping.tasks[t]? =
      some (task.goto (.parked d true)) := by
  have hMem :
      Timer.done d ∈
        c.pending.entries.map (fun e => Timer.pending e.2) ++
          c.discovering.entries.map
            (fun e => Timer.done e.2) :=
    List.mem_append_right _ (List.mem_map.mpr
      ⟨⟨endpoint, d⟩, AList.mem_lookup_iff.mp hFound, rfl⟩)
  change (c.tasks.map (Task.wakeOn _))[t]? = _
  rw [List.getElem?_map, hTask, Option.map_some,
    Task.wakeOn_done hPoint hMem]

/- A discovery throws only where nobody waits for it. -/
theorem DiscoveryStep.sound
    {discovery : Discovery}
    (hDiscovery : DiscoveryStep c e c')
    (hCalm :
      ∀ i runner, e = .raise i → c.tasks[i]? = some runner →
        runner.work.discovery? ≠ some d)
    (hFound : c.discoveries[d]? = some discovery)
    (hSound : discovery.failure = false) :
    ∃ discovery', c'.discoveries[d]? = some discovery' ∧
      discovery'.failure = false := by
  cases hDiscovery with
  | continued hContinues _ =>
      rw [hContinues.discoveries]
      exact ⟨discovery, hFound, hSound⟩
  | joined _ _ _ _ _ _ _ hContinues _ =>
      rw [hContinues.discoveries]
      exact ⟨discovery, hFound, hSound⟩
  | began _ _ _ _ _ _ _ hDiscoveries _ =>
      rw [hDiscoveries]
      exact ⟨discovery, getElem?_append_some hFound _, hSound⟩
  | @ended i d' rest runner ended hRunner hRuns _ hWhy =>
      change ∃ discovery',
        (c.discoveries.set d' ended)[d]? = some discovery' ∧
          discovery'.failure = false
      by_cases hSame : d' = d
      · subst hSame
        have hBound := (List.getElem?_eq_some_iff.mp hFound).1
        refine ⟨ended, List.getElem?_set_self hBound, ?_⟩
        rcases hWhy with
          ⟨out, ec, _, _, rfl⟩ | ⟨hEvent, _, _⟩
        · rfl
        · have hDiscovers := (Task.runner?_eq_some.mp hRuns).2
          exact absurd hDiscovers
            (hCalm i runner hEvent hRunner)
      · exact ⟨discovery,
          (List.getElem?_set_ne hSame).trans hFound, hSound⟩

/- Its registration lasts as long as the wait for it. -/
theorem DiscoveryStep.registered
    (hDiscovery : DiscoveryStep c e c')
    (hAttended : Attended c)
    (hTask : c.tasks[t]? = some task)
    (hTask' : c'.tasks[t]? = some task')
    (hPoint : task.point = .parked d false)
    (hPoint' : task'.point = .parked d false)
    (hFound :
      c.discovering.lookup task.target.endpoint = some d) :
    c'.discovering.lookup task.target.endpoint = some d := by
  cases hDiscovery with
  | continued hContinues _ =>
      rw [hContinues.discovering]
      exact hFound
  | joined _ _ _ _ _ _ _ hContinues _ =>
      rw [hContinues.discovering]
      exact hFound
  | began _ _ _ _ _ hNone hDiscovering _ _ =>
      rw [hDiscovering, AList.lookup_insert_ne]
      · exact hFound
      · intro hSame
        rw [hSame, hNone] at hFound
        cases hFound
  | @ended i d' rest runner discovery hRunner hRuns _ _ =>
      change (c.discovering.erase
        runner.target.endpoint).lookup _ = _
      rw [AList.lookup_erase_ne]
      · exact hFound
      · intro hSame
        have hKnown :=
          hAttended.registered i runner d' hRunner hRuns
        rw [← hSame, hFound] at hKnown
        cases hKnown
        rcases finish_task hTask' with
          ⟨_, rfl⟩ | ⟨_, before, hBefore, rfl⟩
        · cases hPoint'
        · rw [hTask] at hBefore
          cases hBefore
          rw [Task.wakeOn_done hPoint
            (List.mem_singleton_self _)] at hPoint'
          cases hPoint'

theorem Client.Reaches.step
    (hReaches : c.Reaches task)
    (hDoomed : task.Doomed)
    (hAttended : Attended c)
    (hPlaced :
      ∀ (t : Nat) (task : Task), c.tasks[t]? = some task →
        task.Placed)
    (hCalm :
      ∀ i runner d, e = .raise i →
        c.tasks[i]? = some runner →
          task.behind? = some d →
            runner.work.discovery? ≠ some d)
    (hStep : Snmpio.step ssl c e = some c')
    (hTask : c.tasks[t]? = some task)
    (hTask' : c'.tasks[t]? = some task')
    (hTarget : task'.target = task.target) :
    c'.Reaches task' := by
  have hDiscovery := step_discovery hStep hPlaced
  have hBefore {d : Nat} {woken : Bool}
      (hPoint : task'.point = .parked d woken) :=
    (step_task hStep hTask').parked_before hTask
      (by
        intro d hParking
        have hPoint := hDoomed.point
        rw [hParking] at hPoint
        cases hPoint) hPoint
  refine ⟨?_, ?_⟩
  · intro d woken hPoint
    rcases hBefore hPoint with ⟨before, hAt, _⟩
    rcases hReaches.sound d before hAt with
      ⟨discovery, hFound, hSound⟩
    refine hDiscovery.sound ?_ hFound hSound
    intro i runner hEvent hRunner
    refine hCalm i runner d hEvent hRunner ?_
    rw [Task.behind?, hAt]
    rfl
  · intro d hPoint
    rcases hBefore hPoint with ⟨before, hAt, hWas⟩
    rw [hWas rfl] at hAt
    rcases hReaches.registered d hAt with
      ⟨hCleanup, hFound⟩
    rw [hTarget]
    refine ⟨?_, hDiscovery.registered hAttended hTask hTask'
      hAt hPoint hFound⟩
    by_cases hStop : e = .stop
    · subst hStop
      cases hStep
      change (c.cleanup || !c.stopping) = true
      rw [hCleanup]
      rfl
    · rcases (step_flags hStep hStop).2.2.2 with
        hSame | rfl
      · rw [hSame]
        exact hCleanup
      · -- The cleanup would have woken it.
        simp only [Snmpio.step] at hStep
        split_ifs at hStep
        cases hStep
        rw [finishStopping_wakes hTask hAt hFound] at hTask'
        cases hTask'
        cases hPoint

end Snmpio

------------------------------------------------------------
-- Walks
------------------------------------------------------------

namespace Snmpio

variable {ssl : OpenSsl} {c c' : Client} {t : Nat}
variable {e : Event} {s s' : Operations}

/- A cancellation that has been sent is not taken back. -/
def Cancellation.Grows
    (cancelled cancelled' : Cancellation) : Prop :=
  (cancelled.terminal = true → cancelled'.terminal = true) ∧
    (cancelled.total = true → cancelled'.total = true)

/- What a step leaves of a coroutine. -/
theorem TaskStep.kin
    {task task' : Task}
    (hTaskStep : TaskStep ssl c t e task')
    (hTask : c.tasks[t]? = some task) :
    task'.work.discovery? = task.work.discovery? ∧
      task'.target = task.target ∧
      (task'.cancelled = task.cancelled ∨
        ∃ kind, e = .signal t kind) := by
  have hBound := (List.getElem?_eq_some_iff.mp hTask).1
  cases hTaskStep with
  | moved _ hBefore hMove =>
      rw [hTask] at hBefore
      cases hBefore
      exact ⟨hMove.kin.discovery, hMove.kin.target,
        Or.inl hMove.kin.cancelled⟩
  | spawned _ _ _ hNew => exact absurd hNew (by omega)
  | requested _ hNew => exact absurd hNew (by omega)
  | resumed _ hBefore _ =>
      rw [hTask] at hBefore
      cases hBefore
      exact ⟨rfl, rfl, Or.inl rfl⟩
  | raised hBefore _ _ =>
      rw [hTask] at hBefore
      cases hBefore
      exact ⟨rfl, rfl, Or.inl rfl⟩
  | signalled _ hBefore _ _ =>
      rw [hTask] at hBefore
      cases hBefore
      exact ⟨rfl, rfl, Or.inr ⟨_, rfl⟩⟩
  | woken hBefore _ _ =>
      rw [hTask] at hBefore
      cases hBefore
      exact ⟨rfl, rfl, Or.inl rfl⟩
  | kept hBefore _ =>
      rw [hTask] at hBefore
      cases hBefore
      exact ⟨rfl, rfl, Or.inl rfl⟩

theorem step_cancellation
    (hStep : step ssl c e = some c')
    {task task' : Task}
    (hTask : c.tasks[t]? = some task)
    (hTask' : c'.tasks[t]? = some task') :
    task.cancelled.Grows task'.cancelled := by
  rcases ((step_task hStep hTask').kin hTask).2.2 with
    hSame | ⟨kind, rfl⟩
  · rw [hSame]
    exact ⟨fun h => h, fun h => h⟩
  · simp only [step] at hStep
    split_ifs at hStep
    simp only [onSignal, hTask, Option.bind_eq_bind,
      Option.bind_some] at hStep
    split_ifs at hStep
    cases hStep
    have hBound := (List.getElem?_eq_some_iff.mp hTask).1
    rw [List.getElem?_set_self hBound] at hTask'
    cases hTask'
    cases kind with
    | terminal => exact ⟨fun _ => rfl, fun h => h⟩
    | total => exact ⟨fun h => h, fun _ => rfl⟩

theorem beginWork_operation
    (auth : Auth) :
    (beginWork auth).discovery? = none := by
  cases auth with
  | community _ => rfl
  | credentials _ => rfl

def Walk.isOutstanding
    (walk : Walk) : Bool :=
  match walk.point with
  | .completed _ => false
  | .threw => false
  | _ => true

theorem WalkStep.linked
    {request : Nat}
    {batches : List (List Varbind)}
    {next : Client × Walk}
    (hNext : WalkStep c request batches next)
    (hRequest :
      ∃ task, c.tasks[request]? = some task ∧
        task.work.discovery? = none) :
    next.2.point ≠ .start ∧
      ∃ task, next.1.tasks[next.2.request]? = some task ∧
        task.work.discovery? = none := by
  cases hNext with
  | ended _ hPoint hSame _ =>
      rw [hPoint, hSame]
      exact ⟨nofun, hRequest⟩
  | asks target auth pdu hPoint hNew _ =>
      rw [hPoint, hNew]
      exact ⟨nofun, _, List.getElem?_concat_length,
        beginWork_operation auth⟩
  | calls _ hPoint hSame _ =>
      rw [hPoint, hSame]
      exact ⟨nofun, hRequest⟩

namespace Operations

/- The Client of a step: it stays, or it makes a step. -/
theorem step_client
    (hStep : s.step ssl e = some s') :
    s'.client = s.client ∨
      ∃ inner, Snmpio.step ssl s.client inner =
          some s'.client ∧
        (e = .client inner ∨
          ∃ target auth pdu,
            inner = .request target auth pdu) := by
  have hWalk
      {request : Nat}
      {batches : List (List Varbind)}
      {next : Client × Walk}
      (hNext : WalkStep s.client request batches next)
      (hIdle : s.client.strand = []) :
      next.1 = s.client ∨
        ∃ inner, Snmpio.step ssl s.client inner =
            some next.1 ∧
          (e = .client inner ∨
            ∃ target auth pdu,
              inner = .request target auth pdu) := by
    cases hNext with
    | ended _ _ _ _ => exact Or.inl rfl
    | asks target auth pdu _ _ _ =>
        refine Or.inr ⟨.request target auth pdu, ?_,
          Or.inr ⟨target, auth, pdu, rfl⟩⟩
        simp [Snmpio.step, Client.isIdle, hIdle]
    | calls _ _ _ _ => exact Or.inl rfl
  cases step_cases hStep with
  | client _ hInner =>
      exact Or.inr ⟨_, hInner, Or.inl rfl⟩
  | began hIdle _ =>
      exact hWalk (Walk.next_step _ s.client {}) hIdle
  | took hIdle _ _ _ _ =>
      exact hWalk (Walk.takeResult_step _ s.client _ _ _)
        hIdle
  | rethrew _ _ _ _ _ => exact Or.inl rfl
  | handled hIdle _ _ _ _ =>
      exact hWalk (Walk.afterBatch_step _ s.client _ _ _)
        hIdle

/- What the operations do to the Client is a run of it. -/
theorem client_of_run
    {id : Int32}
    {now : Int}
    {events : List Event}
    (hRun :
      Machine.run (step ssl) { client := Snmpio.fresh id now }
        events = some s) :
    ∃ inner,
      Machine.run (Snmpio.step ssl) (Snmpio.fresh id now)
        inner = some s.client := by
  refine Machine.run_invariant
    (P := fun _ s => ∃ inner,
      Machine.run (Snmpio.step ssl) (Snmpio.fresh id now)
        inner = some s.client) ⟨[], rfl⟩ ?_ hRun
  intro events s e s' _ ih hStep
  rcases ih with ⟨inner, hInner⟩
  rcases step_client hStep with
    hSame | ⟨last, hLast, _⟩
  · rw [hSame]
    exact ⟨inner, hInner⟩
  · exact ⟨inner ++ [last],
      Machine.run_concat.mpr ⟨s.client, hInner, hLast⟩⟩

/- The request of a Walk is one of the Client's. -/
def Linked
    (s : Operations) : Prop :=
  ∀ (w : Nat) (walk : Walk), s.walks[w]? = some walk →
    walk.point ≠ .start ∧
      (walk.isOutstanding = true →
        ∃ task, s.client.tasks[walk.request]? = some task ∧
          task.work.discovery? = none)

/- A request stays one of the Client's. -/
theorem step_operation
    (hStep : s.step ssl e = some s')
    (hTask :
      ∃ task, s.client.tasks[t]? = some task ∧
        task.work.discovery? = none) :
    ∃ task, s'.client.tasks[t]? = some task ∧
      task.work.discovery? = none := by
  rcases step_client hStep with hSame | ⟨inner, hInner, _⟩
  · rw [hSame]
    exact hTask
  · rcases hTask with ⟨task, hTask, hOperation⟩
    rcases step_task_exists hInner hTask with
      ⟨task', hTask'⟩
    exact ⟨task', hTask',
      ((step_task hInner hTask').kin hTask).1.trans
        hOperation⟩

theorem Linked.put
    (hLinked : s.Linked)
    {w : Nat}
    {next : Client × Walk}
    (hOld :
      ∀ {t : Nat},
        (∃ task, s.client.tasks[t]? = some task ∧
          task.work.discovery? = none) →
        ∃ task, next.1.tasks[t]? = some task ∧
          task.work.discovery? = none)
    (hNew :
      next.2.point ≠ .start ∧
        (next.2.isOutstanding = true →
          ∃ task, next.1.tasks[next.2.request]? = some task ∧
            task.work.discovery? = none)) :
    (s.put w next).Linked := by
  intro w' walk' hWalk'
  rcases getElem?_set_cases hWalk' with
    ⟨rfl, rfl⟩ | ⟨_, hOther⟩
  · exact hNew
  · rcases hLinked w' walk' hOther with ⟨hPoint, hRequest⟩
    exact ⟨hPoint, fun h => hOld (hRequest h)⟩

theorem Linked.step
    (hLinked : s.Linked)
    (hStep : s.step ssl e = some s') :
    s'.Linked := by
  have hOld {t : Nat} := step_operation hStep (t := t)
  cases step_cases hStep with
  | client _ _ =>
      intro w walk hWalk
      rcases hLinked w walk hWalk with ⟨hPoint, hRequest⟩
      exact ⟨hPoint, fun h => hOld (hRequest h)⟩
  | @began target auth base options _ _ =>
      intro w walk hWalk
      rcases getElem?_concat_cases hWalk with
        hBefore | ⟨_, rfl⟩
      · rcases hLinked w walk hBefore with
          ⟨hPoint, hRequest⟩
        exact ⟨hPoint, fun h => hOld (hRequest h)⟩
      · exact ⟨nofun, fun _ =>
          ⟨_, List.getElem?_concat_length,
            beginWork_operation auth⟩⟩
  | @took w walk _ _ _ _ hWalk hPoint _ _ =>
      rcases hLinked w walk hWalk with ⟨_, hRequest⟩
      rcases (Walk.takeResult_step walk s.client _ _ _).linked
        (hRequest (by rw [Walk.isOutstanding, hPoint])) with
        ⟨hNew, hTask⟩
      exact hLinked.put hOld ⟨hNew, fun _ => hTask⟩
  | rethrew _ hWalk _ _ _ =>
      exact hLinked.put hOld ⟨nofun, nofun⟩
  | @handled w walk _ _ _ _ _ hWalk hPoint _ =>
      rcases hLinked w walk hWalk with ⟨_, hRequest⟩
      rcases (Walk.afterBatch_step walk s.client _ _ _).linked
        (hRequest (by rw [Walk.isOutstanding, hPoint])) with
        ⟨hNew, hTask⟩
      exact hLinked.put hOld ⟨hNew, fun _ => hTask⟩

theorem linked_of_run
    {id : Int32}
    {now : Int}
    {events : List Event}
    (hRun :
      Machine.run (step ssl) { client := Snmpio.fresh id now }
        events = some s) :
    s.Linked := by
  refine Machine.run_invariant
    (P := fun _ s => s.Linked) ?_ ?_ hRun
  · intro w walk hWalk
    cases hWalk
  · intro events s e s' _ hLinked hStep
    exact hLinked.step hStep

end Operations

end Snmpio

------------------------------------------------------------
-- After Stopping Has Begun
------------------------------------------------------------

namespace Snmpio

variable {ssl : OpenSsl} {s s' : Operations} {t w : Nat}
variable {e : Operations.Event} {task : Task} {id : Int32}
variable {now : Int}

/-
  Whether a request that waits for a discovery hears of it:
  it has not thrown, and is registered if it goes on.
-/
def Client.isReached
    (c : Client)
    (task : Task) : Bool :=
  match task.point with
  | .parked d woken =>
      (c.discoveries[d]?).any (fun found => !found.failure) &&
        (woken ||
          c.discovering.lookup task.target.endpoint = some d)
  | _ => true

/-
  Stopping begins between two handlers of the strand or in a
  batch handler, with nobody behind a discovery that threw
  or is not registered, and nobody's last batch being
  handled.  After that, no discovery throws that somebody
  waits for, and batch handlers want more.
-/
def stopsCleanly
    (s : Operations) :
    Operations.Event → Bool
| .client .stop =>
    s.client.stopping ||
      (s.client.isIdle && !s.isDue &&
        s.client.tasks.all s.client.isReached &&
        s.walks.all (fun walk =>
          walk.point ≠ .handling true))
| .client (.raise t) =>
    !s.client.stopping ||
      (s.client.tasks[t]?).all (fun runner =>
        s.client.tasks.all (fun task =>
          task.behind?.all (fun d =>
            runner.work.discovery? ≠ some d)))
| .handled _ keep => !s.client.stopping || keep
| _ => true

namespace Operations

/- Stopping has begun in a run. -/
structure Stops
    (ssl : OpenSsl)
    (id : Int32)
    (now : Int)
    (s : Operations) : Prop where
  run :
    ∃ events,
      Machine.run (Operations.step ssl)
        { client := fresh id now } events = some s
  stopping : s.client.stopping = true

theorem Stops.inner
    (hStops : Stops ssl id now s) :
    ∃ inner,
      Machine.run (Snmpio.step ssl) (fresh id now) inner =
        some s.client := by
  rcases hStops.run with ⟨events, hRun⟩
  exact client_of_run hRun

theorem Stops.step
    (hStops : Stops ssl id now s)
    (hStep : s.step ssl e = some s') :
    Stops ssl id now s' := by
  rcases hStops.run with ⟨events, hRun⟩
  exact ⟨⟨events ++ [e],
    Machine.run_concat.mpr ⟨s, hRun, hStep⟩⟩,
    (step_quiet hStep hStops.stopping).2⟩

/- A request that is on its way to be stopped. -/
def Dooms
    (s : Operations)
    (t : Nat) : Prop :=
  ∃ task, s.client.tasks[t]? = some task ∧ task.Doomed ∧
    s.client.Reaches task

/- Whether an event is a turn of the request's own. -/
def lets
    (s : Operations)
    (t : Nat) :
    Event → Bool
| .client e => s.client.lets t e
| _ => false

def turnsToStop
    (s : Operations)
    (t : Nat) : Nat :=
  (s.client.tasks[t]?).elim 0
    (fun task => task.point.turnsToStop)

/- Whether an event is a turn of the Walk or its request. -/
def letsWalk
    (s : Operations)
    (w : Nat) :
    Event → Bool
| .goOn i => i = w
| .handled i _ => i = w
| e =>
    (s.walks[w]?).any (fun walk =>
      walk.point = .requesting && s.lets walk.request e)

/- It takes the result, or asks again and takes that. -/
def turnsOfWalk
    (s : Operations)
    (walk : Walk) : Nat :=
  match walk.point with
  | .requesting => s.turnsToStop walk.request + 1
  | .handling _ => 3
  | _ => 0

end Operations

/- What a Walk may complete with. -/
inductive Walk.Stopped
    (s : Operations)
    (walk : Walk) : Prop where
  | stopped
      (hPoint :
        walk.point = .completed (some (.errc .clientStopped)))
  | aborted
      {task : Task}
      (hPoint :
        walk.point = .completed (some .operationAborted))
      (hTask : s.client.tasks[walk.request]? = some task)
      (hTerminal : task.cancelled.terminal = true)
  | incomplete
      {task : Task}
      (hPoint :
        walk.point =
          .completed (some (.errc .walkIncomplete)))
      (hTask : s.client.tasks[walk.request]? = some task)
      (hTotal : task.cancelled.total = true)

/- A Walk that is on its way there, or has got there. -/
inductive Walk.Doomed
    (s : Operations)
    (walk : Walk) : Prop where
  | requesting
      (hPoint : walk.point = .requesting)
      (hRequest : s.Dooms walk.request)
  | handling
      {task : Task}
      (hPoint : walk.point = .handling false)
      (hTask : s.client.tasks[walk.request]? = some task)
  | ended
      (hStopped : walk.Stopped s)

theorem Walk.Stopped.isOver
    {walk : Walk}
    (hStopped : walk.Stopped s) :
    ∃ ec, walk.point = .completed ec := by
  cases hStopped with
  | _ hPoint => exact ⟨_, hPoint⟩

theorem stopsCleanly_raise
    (hOk : stopsCleanly s e = true)
    (hStopping : s.client.stopping = true)
    {runner : Task}
    (hTask : s.client.tasks[t]? = some task)
    {i d : Nat}
    (hEvent : e = .client (.raise i))
    (hRunner : s.client.tasks[i]? = some runner)
    (hBehind : task.behind? = some d) :
    runner.work.discovery? ≠ some d := by
  subst hEvent
  simp only [stopsCleanly, hStopping, Bool.not_true,
    Bool.false_or, hRunner, Option.all_some] at hOk
  have hOne := List.all_eq_true.mp hOk task
    (List.mem_of_getElem? hTask)
  rw [hBehind] at hOne
  simpa using hOne

theorem Operations.Dooms.step
    (hDooms : s.Dooms t)
    (hStops : Operations.Stops ssl id now s)
    (hOk : stopsCleanly s e = true)
    (hStep : s.step ssl e = some s') :
    s'.Dooms t ∧
      Machine.Counts (s.lets t e) (s.turnsToStop t)
        (s'.turnsToStop t) := by
  rcases hDooms with ⟨task, hTask, hDoomed, hReaches⟩
  rcases hStops.inner with ⟨inner, hRun⟩
  -- A step of the Client, whoever makes it.
  have hClient {last : Snmpio.Event}
      (hLast : Snmpio.step ssl s.client last = some s'.client)
      (hWhich :
        e = .client last ∨
          ∃ target auth pdu,
            last = .request target auth pdu) :
      s'.Dooms t ∧
        Machine.Counts (s.client.lets t last)
          (s.turnsToStop t) (s'.turnsToStop t) := by
    rcases step_task_exists hLast hTask with ⟨task', hTask'⟩
    have hAfter := hDoomed.step hStops.stopping
      (queuesV3_of_run hRun hTask) hReaches hTask hTask' hLast
    rw [Operations.turnsToStop, Operations.turnsToStop, hTask,
      hTask']
    refine ⟨⟨task', hTask', hAfter.1, ?_⟩, hAfter.2⟩
    refine hReaches.step hDoomed (attended_of_run hRun)
      (fun _ _ => placed_of_run hRun) ?_ hLast hTask hTask'
      ((step_task hLast hTask').kin hTask).2.1
    rintro i runner d rfl hRunner hBehind
    rcases hWhich with hEvent | ⟨_, _, _, hOther⟩
    · exact stopsCleanly_raise hOk hStops.stopping hTask
        hEvent hRunner hBehind
    · cases hOther
  by_cases hInner : ∃ last, e = .client last
  · rcases hInner with ⟨last, rfl⟩
    cases Operations.step_cases hStep with
    | client _ hLast => exact hClient hLast (Or.inl rfl)
  · have hNot : s.lets t e = false := by
      cases e with
      | client last => exact absurd ⟨last, rfl⟩ hInner
      | _ => rfl
    rcases Operations.step_client hStep with
      hSame | ⟨last, hLast, hWhich⟩
    · refine ⟨?_, .of_other hNot ?_⟩
      · rw [Operations.Dooms, hSame]
        exact ⟨task, hTask, hDoomed, hReaches⟩
      · rw [Operations.turnsToStop, hSame,
          ← Operations.turnsToStop]
    · have hAfter := hClient hLast hWhich
      rcases hWhich with rfl | ⟨_, _, _, rfl⟩
      · exact absurd ⟨last, rfl⟩ hInner
      · exact ⟨hAfter.1, .of_other hNot (hAfter.2.2 rfl)⟩

/- A Walk that stays where it is. -/
theorem Walk.Doomed.keep
    {walk : Walk}
    (hDoomed : walk.Doomed s)
    (hStops : Operations.Stops ssl id now s)
    (hOk : stopsCleanly s e = true)
    (hStep : s.step ssl e = some s') :
    walk.Doomed s' ∧
      Machine.Counts
        (walk.point = .requesting && s.lets walk.request e)
        (s.turnsOfWalk walk) (s'.turnsOfWalk walk) := by
  have hStays {task : Task}
      (hTask : s.client.tasks[walk.request]? = some task) :
      ∃ task', s'.client.tasks[walk.request]? = some task' ∧
        task.cancelled.Grows task'.cancelled := by
    rcases Operations.step_client hStep with
      hSame | ⟨last, hLast, _⟩
    · rw [hSame]
      exact ⟨task, hTask, fun h => h, fun h => h⟩
    · rcases step_task_exists hLast hTask with
        ⟨task', hTask'⟩
      exact ⟨task', hTask',
        step_cancellation hLast hTask hTask'⟩
  rw [Operations.turnsOfWalk, Operations.turnsOfWalk]
  cases hDoomed with
  | requesting hPoint hRequest =>
      have hAfter := hRequest.step hStops hOk hStep
      refine ⟨.requesting hPoint hAfter.1, ?_⟩
      simp only [hPoint, decide_true, Bool.true_and]
      exact ⟨fun h => Nat.succ_lt_succ (hAfter.2.1 h),
        fun h => congrArg (· + 1) (hAfter.2.2 h)⟩
  | handling hPoint hTask =>
      rcases hStays hTask with ⟨task', hTask', _⟩
      refine ⟨.handling hPoint hTask', ?_⟩
      rw [hPoint]
      exact .of_other rfl rfl
  | ended hStopped =>
      rcases hStopped.isOver with ⟨ec, hOver⟩
      rw [hOver]
      refine ⟨.ended ?_, .of_other rfl rfl⟩
      cases hStopped with
      | stopped hPoint => exact .stopped hPoint
      | aborted hPoint hTask hTerminal =>
          rcases hStays hTask with ⟨task', hTask', hGrows⟩
          exact .aborted hPoint hTask' (hGrows.1 hTerminal)
      | incomplete hPoint hTask hTotal =>
          rcases hStays hTask with ⟨task', hTask', hGrows⟩
          exact .incomplete hPoint hTask' (hGrows.2 hTotal)

theorem stopNow_eq_none
    {cancelled : Cancellation}
    (hNone : stopNow cancelled = none) :
    cancelled = {} := by
  rcases cancelled with ⟨terminal, total⟩
  cases terminal with
  | true => cases hNone
  | false =>
      cases total with
      | true => cases hNone
      | false => rfl

/- The head of the loop, or a result, after a cancellation. -/
theorem Walk.Doomed.of_stopNow
    {walk : Walk}
    {ec : ErrorCode}
    (hTask : s.client.tasks[walk.request]? = some task)
    (hStop : stopNow task.cancelled = some ec)
    (hPoint : walk.point = .completed (some ec)) :
    walk.Doomed s := by
  unfold stopNow at hStop
  split_ifs at hStop with hTerminal hTotal
  · cases hStop
    exact .ended (.aborted hPoint hTask hTerminal)
  · cases hStop
    exact .ended (.incomplete hPoint hTask hTotal)

/- The result of the request ends the Walk. -/
theorem Walk.takeResult_doomed
    {walk : Walk}
    (hTask : s.client.tasks[walk.request]? = some task)
    (hDoomed : task.Doomed)
    {ec : Option ErrorCode}
    {resp : Response}
    (hOver : task.point = .completed ec resp) :
    ∃ code,
      walk.takeResult s.client task.cancelled ec resp =
          (s.client, walk.goto (.completed (some code))) ∧
        (walk.goto (.completed (some code))).Doomed
          (s.put w (walk.takeResult s.client task.cancelled
            ec resp)) := by
  have hPoint := hDoomed.point
  rw [hOver] at hPoint
  generalize hEc : ec = ec' at hPoint
  generalize hResp : resp = resp' at hPoint
  cases hPoint with
  | @completed failure hWhy =>
      subst hEc hResp
      have hTurn :
          walkTurn walk.base walk.current walk.maxRepetitions
              task.cancelled s.client.stopping
              (some failure.code) [] =
            .ends (some ((stopNow task.cancelled).getD
              failure.code)) := by
        rw [walkTurn, if_neg]
        rintro ⟨hBig, _⟩
        rcases hWhy with rfl | ⟨rfl, _⟩
        · cases hBig
        · cases hBig
      have hResult :
          walk.takeResult s.client task.cancelled
              (some failure.code) {} =
            (s.client, walk.goto (.completed
              (some ((stopNow task.cancelled).getD
                failure.code)))) := by
        rw [Walk.takeResult, hTurn]
      refine ⟨_, hResult, ?_⟩
      rw [hResult]
      cases hStop : stopNow task.cancelled with
      | some ec =>
          exact .of_stopNow hTask hStop rfl
      | none =>
          refine .ended (.stopped ?_)
          rcases hWhy with rfl | ⟨_, hSent⟩
          · rfl
          · exact absurd (stopNow_eq_none hStop) hSent

/- What follows a batch, if the handler wants more. -/
theorem Walk.next_doomed
    {walk : Walk}
    (hTask : s.client.tasks[walk.request]? = some task) :
    (walk.next s.client task.cancelled).2.Doomed
      (s.put w (walk.next s.client task.cancelled)) := by
  unfold Walk.next
  split
  · next ec hStop => exact .of_stopNow hTask hStop rfl
  · refine .requesting rfl ⟨_, List.getElem?_concat_length,
      ⟨beginWork_operation walk.auth, .start, by simp⟩, ?_, ?_⟩
    · intro d woken hPoint
      cases hPoint
    · intro d hPoint
      cases hPoint

theorem Walk.Doomed.request
    {walk : Walk}
    (hDoomed : walk.Doomed s)
    (hPoint : walk.point = .requesting) :
    s.Dooms walk.request := by
  cases hDoomed with
  | requesting _ hRequest => exact hRequest
  | handling hNot _ =>
      rw [hPoint] at hNot
      cases hNot
  | ended hStopped =>
      rcases hStopped.isOver with ⟨ec, hNot⟩
      rw [hPoint] at hNot
      cases hNot

theorem Walk.Doomed.asked
    {walk : Walk}
    (hDoomed : walk.Doomed s)
    (hPoint : walk.point = .requesting)
    (hTask : s.client.tasks[walk.request]? = some task) :
    task.Doomed := by
  rcases hDoomed.request hPoint with
    ⟨found, hFound, hTaskDoomed, _⟩
  rw [hTask] at hFound
  cases hFound
  exact hTaskDoomed

theorem Walk.Doomed.not_last
    {walk : Walk}
    (hDoomed : walk.Doomed s)
    {done : Bool}
    (hPoint : walk.point = .handling done) :
    done = false := by
  cases hDoomed with
  | handling hFalse _ =>
      rw [hPoint] at hFalse
      cases hFalse
      rfl
  | requesting hNot _ =>
      rw [hPoint] at hNot
      cases hNot
  | ended hStopped =>
      rcases hStopped.isOver with ⟨ec, hNot⟩
      rw [hPoint] at hNot
      cases hNot

/- It ends at once, or asks with a new request. -/
theorem Walk.turns_next
    (s : Operations)
    (w : Nat)
    (walk : Walk)
    (cancelled : Cancellation) :
    (s.put w (walk.next s.client cancelled)).turnsOfWalk
      (walk.next s.client cancelled).2 ≤ 2 := by
  cases hStop : stopNow cancelled with
  | some ec =>
      simp [Walk.next, hStop, Operations.turnsOfWalk, Walk.goto]
  | none =>
      simp [Walk.next, hStop, Operations.turnsOfWalk,
        Operations.put, Operations.turnsToStop, Client.spawn,
        Point.turnsToStop]

theorem Walk.Doomed.step
    {walk : Walk}
    (hWalk : s.walks[w]? = some walk)
    (hDoomed : walk.Doomed s)
    (hStops : Operations.Stops ssl id now s)
    (hOk : stopsCleanly s e = true)
    (hStep : s.step ssl e = some s') :
    ∃ walk', s'.walks[w]? = some walk' ∧ walk'.Doomed s' ∧
      Machine.Counts (s.letsWalk w e) (s.turnsOfWalk walk)
        (s'.turnsOfWalk walk') := by
  have hBound := (List.getElem?_eq_some_iff.mp hWalk).1
  -- Another's turn leaves this Walk where it is.
  have hKept
      (hWalk' : s'.walks[w]? = some walk)
      (hLets :
        s.letsWalk w e =
          (walk.point = .requesting &&
            s.lets walk.request e)) :
      ∃ walk', s'.walks[w]? = some walk' ∧ walk'.Doomed s' ∧
        Machine.Counts (s.letsWalk w e) (s.turnsOfWalk walk)
          (s'.turnsOfWalk walk') := by
    rw [hLets]
    exact ⟨walk, hWalk', hDoomed.keep hStops hOk hStep⟩
  cases Operations.step_cases hStep with
  | client _ _ =>
      exact hKept hWalk (by simp [Operations.letsWalk, hWalk])
  | began _ _ =>
      exact hKept (getElem?_append_some hWalk _)
        (by simp [Operations.letsWalk, hWalk])
  | @took i found task ec resp _ hFound hPoint hTask hOver =>
      by_cases hSame : i = w
      · subst hSame
        rw [hWalk] at hFound
        cases hFound
        rcases Walk.takeResult_doomed (w := i) hTask
          (hDoomed.asked hPoint hTask) hOver with
          ⟨code, hResult, hAfter⟩
        refine ⟨walk.goto (.completed (some code)), ?_,
          hAfter, .of_turn (decide_eq_true rfl) ?_⟩
        · rw [hResult]
          exact List.getElem?_set_self hBound
        · rw [Operations.turnsOfWalk, Operations.turnsOfWalk,
            hPoint]
          exact Nat.succ_pos _
      · exact hKept ((List.getElem?_set_ne hSame).trans hWalk)
          (by simp [Operations.letsWalk, Operations.lets, hSame])
  | @rethrew i found task _ hFound hPoint hTask hOver =>
      by_cases hSame : i = w
      · subst hSame
        rw [hWalk] at hFound
        cases hFound
        have hNot := (hDoomed.asked hPoint hTask).point
        rw [hOver] at hNot
        cases hNot
      · exact hKept ((List.getElem?_set_ne hSame).trans hWalk)
          (by simp [Operations.letsWalk, Operations.lets, hSame])
  | @handled i found task done keep _ _ hFound hPoint hTask =>
      by_cases hSame : i = w
      · subst hSame
        rw [hWalk] at hFound
        cases hFound
        have hKeep : keep = true := by
          rw [stopsCleanly, hStops.stopping] at hOk
          exact hOk
        have hMore := hDoomed.not_last hPoint
        subst hKeep hMore
        refine ⟨_, List.getElem?_set_self hBound,
          Walk.next_doomed hTask,
          .of_turn (decide_eq_true rfl) ?_⟩
        have hThree : s.turnsOfWalk walk = 3 := by
          rw [Operations.turnsOfWalk, hPoint]
        rw [hThree]
        exact Nat.lt_succ_of_le
          (Walk.turns_next s i walk task.cancelled)
      · exact hKept ((List.getElem?_set_ne hSame).trans hWalk)
          (by simp [Operations.letsWalk, Operations.lets, hSame])

/- A wait: for a send, a deadline or a discovery. -/
def Point.isWait :
    Point → Bool
| .sending _ => true
| .waiting _ _ _ _ => true
| .parked _ _ => true
| _ => false

theorem Point.Doomed.of_wait
    {point : Point}
    (hWait : point.isWait = true)
    (cancelled : Cancellation) :
    point.Doomed cancelled := by
  cases point with
  | sending x => exact .sending x
  | waiting x deadline soft woken =>
      exact .waiting x deadline soft woken
  | parked d woken => exact .parked d woken
  | _ => cases hWait

/- What the condition says where Stopping begins. -/
structure StopsHere
    (s : Operations) : Prop where
  idle : s.client.strand = []
  notDue : s.isDue = false
  reached :
    ∀ (t : Nat) (task : Task),
      s.client.tasks[t]? = some task →
        s.client.isReached task = true
  notLast :
    ∀ (w : Nat) (walk : Walk), s.walks[w]? = some walk →
      walk.point ≠ .handling true

theorem stopsCleanly_stop
    (hOk : stopsCleanly s (.client .stop) = true)
    (hGoing : s.client.stopping = false) :
    StopsHere s := by
  simp only [stopsCleanly, hGoing, Bool.false_or,
    Bool.and_eq_true] at hOk
  rcases hOk with ⟨⟨⟨hIdle, hNotDue⟩, hReached⟩, hLast⟩
  refine ⟨List.isEmpty_iff.mp hIdle, by simpa using hNotDue,
    ?_, ?_⟩
  · intro t task hTask
    exact List.all_eq_true.mp hReached task
      (List.mem_of_getElem? hTask)
  · intro w walk hWalk
    have hOne := List.all_eq_true.mp hLast walk
      (List.mem_of_getElem? hWalk)
    exact of_decide_eq_true hOne

theorem Client.Reaches.of_stop
    {c : Client}
    (hReached : c.isReached task = true)
    (hGoing : c.stopping = false) :
    c.stop.Reaches task := by
  refine ⟨?_, ?_⟩
  · intro d woken hPoint
    rw [Client.isReached, hPoint, Bool.and_eq_true] at hReached
    rcases (Option.any_eq_true _ _).mp hReached.1 with
      ⟨discovery, hFound, hSound⟩
    exact ⟨discovery, hFound, by simpa using hSound⟩
  · intro d hPoint
    rw [Client.isReached, hPoint, Bool.and_eq_true] at hReached
    have hFound :
        c.discovering.lookup task.target.endpoint =
          some d := by
      simpa using hReached.2
    refine ⟨?_, hFound⟩
    change (c.cleanup || !c.stopping) = true
    rw [hGoing, Bool.not_false, Bool.or_true]

/- Stopping takes hold of every request in a wait. -/
theorem StopsHere.request
    (hHere : StopsHere s)
    (hGoing : s.client.stopping = false)
    (hTask : s.client.tasks[t]? = some task)
    (hOperation : task.work.discovery? = none)
    (hWait : task.point.isWait = true) :
    Operations.Dooms { s with client := s.client.stop } t := by
  refine ⟨task, hTask, ⟨hOperation, .of_wait hWait _, ?_⟩,
    .of_stop (hHere.reached t task hTask) hGoing⟩
  intro ec hPoint
  rw [hPoint] at hWait
  cases hWait

/- It takes hold of every Walk. -/
theorem StopsHere.walk
    (hHere : StopsHere s)
    (hGoing : s.client.stopping = false)
    (hShape : StrandShape s.client)
    (hLinked : s.Linked)
    {walk : Walk}
    (hWalk : s.walks[w]? = some walk)
    (hOutstanding : walk.isOutstanding = true) :
    walk.Doomed { s with client := s.client.stop } := by
  rcases hLinked w walk hWalk with ⟨hStart, hRequest⟩
  rcases hRequest hOutstanding with
    ⟨task, hTask, hOperation⟩
  cases hPoint : walk.point with
  | start => exact absurd hPoint hStart
  | requesting =>
      refine .requesting hPoint
        (hHere.request hGoing hTask hOperation ?_)
      -- The request does not run and is not over.
      have hRuns : task.point.runs = false := by
        have hNone := hShape.idle hHere.idle walk.request
        rw [Client.running, Client.view_of_task hTask] at hNone
        by_contra hRuns
        rw [Bool.not_eq_false] at hRuns
        rw [hRuns, if_pos rfl] at hNone
        cases hNone
      have hLive : task.point.isOver = false := by
        by_contra hOver
        rw [Bool.not_eq_false] at hOver
        have hDue : s.isDue = true := by
          refine List.any_eq_true.mpr
            ⟨walk, List.mem_of_getElem? hWalk, ?_⟩
          rw [hPoint]
          simp [hTask, hOver]
        rw [hHere.notDue] at hDue
        cases hDue
      cases hAt : task.point with
      | sending x => rfl
      | waiting x deadline soft woken => rfl
      | parked d woken => rfl
      | completed ec resp =>
          rw [hAt] at hLive
          cases hLive
      | threw =>
          rw [hAt] at hLive
          cases hLive
      | ended =>
          rw [hAt] at hLive
          cases hLive
      | _ =>
          rw [hAt] at hRuns
          cases hRuns
  | handling done =>
      cases done with
      | false => exact .handling hPoint hTask
      | true => exact absurd hPoint (hHere.notLast w walk hWalk)
  | completed ec =>
      rw [Walk.isOutstanding, hPoint] at hOutstanding
      cases hOutstanding
  | threw =>
      rw [Walk.isOutstanding, hPoint] at hOutstanding
      cases hOutstanding

end Snmpio
