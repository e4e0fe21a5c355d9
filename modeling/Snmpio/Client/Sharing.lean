import Snmpio.Client.Discoveries
import Snmpio.Client.Clocks

/-
  Requests that share a discovery, and the pair they send.

  A discovery has the Credentials of the request that has
  started it, whoever else queues behind it.  If those that
  authenticate queue behind discoveries that authenticate,
  and go on before the cache is turned against them, then
  the boots and time they send come from a clock that is
  synchronised.

  Key definitions include:
    * `joinsAlike`
    * `Joined`
    * `sparesWoken`
    * `Trusted`
    * `Timed`

  Key theorems include:
    * `joined_of_run`
    * `step_running`
    * `timed_of_run`
    * `request_pair_synced`
-/

------------------------------------------------------------
-- Queues
------------------------------------------------------------

namespace Snmpio

variable {ssl : OpenSsl} {c c' : Client}
variable {alike : Credentials → Credentials → Bool}
variable {task : Task} {d t attempt : Nat}
variable {creds : Credentials}

/-
  A request that queues behind a discovery has Credentials
  that go with those of the discovery.
-/
def joinsAlike
    (alike : Credentials → Credentials → Bool)
    (c : Client) :
    Event → Bool
| .advance _ =>
    (c.strand.head?.bind (fun t => c.tasks[t]?)).all
      (fun task =>
        match task.point, task.work with
        | .ensuring, .v3 creds _ =>
            c.isReady task.target.endpoint creds ||
              (c.discovering.lookup
                task.target.endpoint).all (fun d =>
                  c.tasks.all (fun other =>
                    decide (other.runner? ≠ some d) ||
                      other.work.credentials?.all
                        (alike creds)))
        | _, _ => true)
| _ => true

/- A request, and the discovery it is queued behind. -/
structure Task.Queued
    (alike : Credentials → Credentials → Bool)
    (task runner : Task) : Prop where
  endpoint : runner.target.endpoint = task.target.endpoint
  alike :
    ∀ creds creds',
      task.work.credentials? = some creds →
      runner.work.credentials? = some creds' →
        alike creds creds' = true

theorem Task.Queued.keep
    {task' runner runner' : Task}
    (hQueued : task.Queued alike runner)
    (hTask : task.Keeps task')
    (hRunner : runner.Keeps runner') :
    task'.Queued alike runner' := by
  refine ⟨?_, ?_⟩
  · rw [hTask.target, hRunner.target]
    exact hQueued.endpoint
  · rw [hTask.credentials, hRunner.credentials]
    exact hQueued.alike

structure Joined
    (alike : Credentials → Credentials → Bool)
    (c : Client) : Prop where
  known :
    ∀ (t : Nat) (task : Task) d, c.tasks[t]? = some task →
      task.behind? = some d → d < c.discoveries.length
  queued :
    ∀ (t t' : Nat) (task runner : Task) d,
      c.tasks[t]? = some task → task.behind? = some d →
        c.tasks[t']? = some runner →
        runner.runner? = some d → task.Queued alike runner

theorem Joined.continue
    (hJoined : Joined alike c)
    (hContinues : Continues c c')
    (hWaits : SameWaits c c') :
    Joined alike c' := by
  have hBefore :
      ∀ (t : Nat) (task' : Task) d,
        c'.tasks[t]? = some task' →
          task'.behind? = some d →
            ∃ task, c.tasks[t]? = some task ∧
              task.Keeps task' ∧ task.behind? = some d := by
    intro t task' d hTask' hBehind
    rcases hContinues.before hTask' with
      ⟨task, hTask, hKeeps⟩ | ⟨_, hNone⟩
    · exact ⟨task, hTask, hKeeps,
        (hWaits t task task' hTask hTask').behind d hBehind⟩
    · rw [hNone] at hBehind
      cases hBehind
  refine ⟨?_, ?_⟩
  · intro t task' d hTask' hBehind
    rcases hBefore t task' d hTask' hBehind with
      ⟨task, hTask, _, hBehind⟩
    rw [hContinues.discoveries]
    exact hJoined.known t task d hTask hBehind
  · intro t t' task' runner' d hTask' hBehind hRunner' hRuns
    rcases hBefore t task' d hTask' hBehind with
      ⟨task, hTask, hKeeps, hBehind⟩
    rcases hContinues.before hRunner' with
      ⟨runner, hRunner, hKeeps'⟩ | ⟨hNone, _⟩
    · rw [hKeeps'.runner] at hRuns
      exact (hJoined.queued t t' task runner d hTask hBehind
        hRunner hRuns).keep hKeeps hKeeps'
    · rw [hNone] at hRuns
      cases hRuns

/- Who runs a discovery that an endpoint is registered for. -/
theorem Attended.endpoint
    (hAttended : Attended c)
    {endpoint : Endpoint}
    {runner : Task}
    (hFound : c.discovering.lookup endpoint = some d)
    (hRunner : c.tasks[t]? = some runner)
    (hRuns : runner.runner? = some d) :
    runner.target.endpoint = endpoint :=
  hAttended.inj (hAttended.registered t runner d hRunner hRuns)
    hFound

theorem Attended.less
    (hAttended : Attended c)
    {endpoint : Endpoint}
    (hFound : c.discovering.lookup endpoint = some d) :
    d < c.discoveries.length := by
  rcases hAttended.unfinished endpoint d hFound with
    ⟨discovery, hDiscovery, _⟩
  exact (List.getElem?_eq_some_iff.mp hDiscovery).1

theorem Joined.join
    (hJoined : Joined alike c)
    (hAttended : Attended c)
    (hWork : task.work = .v3 creds attempt)
    (hFound :
      c.discovering.lookup task.target.endpoint = some d)
    (hAlike :
      ∀ other ∈ c.tasks, other.runner? = some d →
        ∀ creds', other.work.credentials? = some creds' →
          alike creds creds' = true)
    (hDiscoveries : c'.discoveries = c.discoveries)
    (hTasks :
      c'.tasks = c.tasks.set t (task.goto (.parking d))) :
    Joined alike c' := by
  have hRunner :
      ∀ (i : Nat) (runner : Task) d',
        c'.tasks[i]? = some runner →
          runner.runner? = some d' →
            c.tasks[i]? = some runner := by
    intro i runner d' hAt hRuns
    rw [hTasks] at hAt
    rcases getElem?_set_cases hAt with
      ⟨_, rfl⟩ | ⟨_, hOther⟩
    · simp [Task.runner?, Task.goto, hWork,
        Work.discovery?] at hRuns
    · exact hOther
  refine ⟨?_, ?_⟩
  · intro i found d' hAt hBehind
    rw [hDiscoveries]
    rw [hTasks] at hAt
    rcases getElem?_set_cases hAt with
      ⟨_, rfl⟩ | ⟨_, hOther⟩
    · cases hBehind
      exact hAttended.less hFound
    · exact hJoined.known i found d' hOther hBehind
  · intro i j found runner d' hAt hBehind hAt' hRuns
    have hBefore := hRunner j runner d' hAt' hRuns
    rw [hTasks] at hAt
    rcases getElem?_set_cases hAt with
      ⟨_, rfl⟩ | ⟨_, hOther⟩
    · cases hBehind
      refine ⟨hAttended.endpoint hFound hBefore hRuns, ?_⟩
      intro creds' creds'' hCreds hCreds'
      change task.work.credentials? = some creds' at hCreds
      rw [hWork] at hCreds
      cases hCreds
      exact hAlike runner (List.mem_of_getElem? hBefore) hRuns
        creds'' hCreds'
    · exact hJoined.queued i j found runner d' hOther hBehind
        hBefore hRuns

theorem Joined.begin
    (hJoined : Joined alike c)
    (hAttended : Attended c)
    (hRefl : ∀ creds, alike creds creds = true)
    (hWork : task.work = .v3 creds attempt)
    (hDiscoveries :
      c'.discoveries = c.discoveries ++ [({} : Discovery)])
    (hTasks :
      c'.tasks =
        c.tasks.set t
          (task.goto (.parking c.discoveries.length)) ++
            [{ work := .identify creds c.discoveries.length
               target := task.target }]) :
    Joined alike c' := by
  -- Old numbers are below the new one.
  have hRunner :
      ∀ (i : Nat) (runner : Task) d,
        c'.tasks[i]? = some runner →
          runner.runner? = some d →
            (c.tasks[i]? = some runner ∧
                d < c.discoveries.length) ∨
              (d = c.discoveries.length ∧
                runner.target = task.target ∧
                runner.work.credentials? = some creds) := by
    intro i runner d hAt hRuns
    rw [hTasks] at hAt
    rcases getElem?_concat_cases hAt with hOld | ⟨_, rfl⟩
    · rcases getElem?_set_cases hOld with
        ⟨_, rfl⟩ | ⟨_, hOther⟩
      · simp [Task.runner?, Task.goto, hWork,
          Work.discovery?] at hRuns
      · left
        exact ⟨hOther, hAttended.less
          (hAttended.registered i runner d hOther hRuns)⟩
    · cases hRuns
      exact Or.inr ⟨rfl, rfl, rfl⟩
  have hWaiter :
      ∀ (i : Nat) (found : Task) d,
        c'.tasks[i]? = some found → found.behind? = some d →
          (c.tasks[i]? = some found ∧
              d < c.discoveries.length) ∨
            (d = c.discoveries.length ∧
              found.target = task.target ∧
              found.work.credentials? = some creds) := by
    intro i found d hAt hBehind
    rw [hTasks] at hAt
    rcases getElem?_concat_cases hAt with hOld | ⟨_, rfl⟩
    · rcases getElem?_set_cases hOld with
        ⟨_, rfl⟩ | ⟨_, hOther⟩
      · cases hBehind
        refine Or.inr ⟨rfl, rfl, ?_⟩
        change task.work.credentials? = some creds
        rw [hWork]
        rfl
      · exact Or.inl ⟨hOther,
          hJoined.known i found d hOther hBehind⟩
    · cases hBehind
  refine ⟨?_, ?_⟩
  · intro i found d hAt hBehind
    rw [hDiscoveries, List.length_append,
      List.length_singleton]
    rcases hWaiter i found d hAt hBehind with
      ⟨_, hLess⟩ | ⟨hNew, _⟩
    · omega
    · omega
  · intro i j found runner d hAt hBehind hAt' hRuns
    rcases hWaiter i found d hAt hBehind with
      ⟨hOld, hLess⟩ | ⟨hNew, hTarget, hCreds⟩
    · rcases hRunner j runner d hAt' hRuns with
        ⟨hOld', _⟩ | ⟨hNew', _⟩
      · exact hJoined.queued i j found runner d hOld hBehind
          hOld' hRuns
      · omega
    · rcases hRunner j runner d hAt' hRuns with
        ⟨_, hLess⟩ | ⟨_, hTarget', hCreds'⟩
      · omega
      · refine ⟨?_, ?_⟩
        · rw [hTarget, hTarget']
        · intro creds₁ creds₂ h₁ h₂
          rw [hCreds] at h₁
          rw [hCreds'] at h₂
          cases h₁
          cases h₂
          exact hRefl creds

theorem Joined.finish
    (hJoined : Joined alike c)
    {endpoint : Endpoint}
    (discovery : Discovery)
    (rest : List Nat) :
    Joined alike
      ((finishDiscovery c endpoint d discovery).place t rest
        (task.goto .ended)) := by
  have hBefore :
      ∀ {i : Nat} {found : Task},
        ((finishDiscovery c endpoint d discovery).place t rest
          (task.goto .ended)).tasks[i]? = some found →
          (found.runner? = none ∧ found.behind? = none) ∨
            ∃ before, c.tasks[i]? = some before ∧
              before.Keeps found ∧ before.Waits found := by
    intro i found hFound
    rcases finish_task hFound with
      ⟨_, rfl⟩ | ⟨_, before, hAt, rfl⟩
    · exact Or.inl ⟨rfl, rfl⟩
    · have hNudged := Task.wakeOn_nudged [.done d] before
      exact Or.inr ⟨before, hAt, hNudged.keeps,
        Task.Waits.of_point hNudged.point⟩
  refine ⟨?_, ?_⟩
  · intro i found d' hFound hBehind
    change d' < (c.discoveries.set d discovery).length
    rw [List.length_set]
    rcases hBefore hFound with
      ⟨_, hNone⟩ | ⟨before, hAt, _, hWaits⟩
    · rw [hNone] at hBehind
      cases hBehind
    · exact hJoined.known i before d' hAt
        (hWaits.behind d' hBehind)
  · intro i j found runner d' hFound hBehind hRunner hRuns
    rcases hBefore hFound with
      ⟨_, hNone⟩ | ⟨before, hAt, hKeeps, hWaits⟩
    · rw [hNone] at hBehind
      cases hBehind
    · rcases hBefore hRunner with
        ⟨hNone, _⟩ | ⟨before', hAt', hKeeps', _⟩
      · rw [hNone] at hRuns
        cases hRuns
      · rw [hKeeps'.runner] at hRuns
        exact (hJoined.queued i j before before' d' hAt
          (hWaits.behind d' hBehind) hAt' hRuns).keep hKeeps
            hKeeps'

/- What the condition says of the request that queues. -/
theorem joinsAlike_spec
    {out : Outside}
    {rest : List Nat}
    (hOk : joinsAlike alike c (.advance out) = true)
    (hStrand : c.strand = t :: rest)
    (hTask : c.tasks[t]? = some task)
    (hPoint : task.point = .ensuring)
    (hWork : task.work = .v3 creds attempt)
    (hUnready : c.isReady task.target.endpoint creds = false)
    (hFound :
      c.discovering.lookup task.target.endpoint = some d)
    {other : Task}
    (hOther : other ∈ c.tasks)
    (hRuns : other.runner? = some d)
    {creds' : Credentials}
    (hCreds : other.work.credentials? = some creds') :
    alike creds creds' = true := by
  simp only [joinsAlike, hStrand, List.head?_cons,
    Option.bind_some, hTask, Option.all_some, hPoint, hWork,
    hUnready, hFound, Bool.false_or] at hOk
  have hOne := List.all_eq_true.mp hOk other hOther
  simpa [hRuns, hCreds] using hOne

theorem Joined.step
    (hJoined : Joined alike c)
    (hRefl : ∀ creds, alike creds creds = true)
    (hAttended : Attended c)
    (hPlaced :
      ∀ (t : Nat) (task : Task), c.tasks[t]? = some task →
        task.Placed)
    {e : Event}
    (hOk : joinsAlike alike c e = true)
    (hStep : Snmpio.step ssl c e = some c') :
    Joined alike c' := by
  cases step_discovery hStep hPlaced with
  | continued hContinues hWaits =>
      exact hJoined.continue hContinues hWaits
  | joined hEvent hStrand hTask hPoint hWork hUnready hFound
      hContinues hTasks =>
      subst hEvent
      refine hJoined.join hAttended hWork hFound ?_
        hContinues.discoveries hTasks
      intro other hOther hRuns creds' hCreds
      exact joinsAlike_spec hOk hStrand hTask hPoint hWork
        hUnready hFound hOther hRuns hCreds
  | began _ _ _ _ hWork _ _ hDiscoveries hTasks =>
      exact hJoined.begin hAttended hRefl hWork hDiscoveries
        hTasks
  | ended _ _ _ _ => exact hJoined.finish _ _

/- It holds in every run that meets the condition. -/
theorem joined_of_run
    (hRefl : ∀ creds, alike creds creds = true)
    {ok : Client → Event → Bool}
    (hOk :
      ∀ c e, ok c e = true → joinsAlike alike c e = true)
    {id : Int32}
    {now : Int}
    {events : List Event}
    (hRun :
      Machine.run (Machine.guarded (step ssl) ok)
        (fresh id now) events = some c) :
    Joined alike c := by
  refine Machine.run_invariant
    (P := fun _ c => Joined alike c) ?_ ?_ hRun
  · refine ⟨?_, ?_⟩
    · intro t task d hTask
      cases hTask
    · intro t t' task runner d hTask
      cases hTask
  · intro events c e c' hBefore hJoined hStep
    rcases Machine.guarded_eq_some.mp hStep with
      ⟨hMeets, hStep⟩
    have hBefore := Machine.run_of_guarded hBefore
    exact hJoined.step hRefl (attended_of_run hBefore)
      (fun _ _ => placed_of_run hBefore) (hOk c e hMeets)
      hStep

/- Any Credentials go with any, if that is the condition. -/
theorem joinsAlike_any
    (c : Client)
    (e : Event) :
    joinsAlike (fun _ _ => true) c e = true := by
  cases e with
  | advance out =>
      simp only [joinsAlike, Option.all_eq_true]
      intro task _
      split
      · simp [Option.all_eq_true]
      · rfl
  | _ => rfl

/- Any request is behind a discovery of its endpoint. -/
theorem queued_of_run
    {id : Int32}
    {now : Int}
    {events : List Event}
    (hRun :
      Machine.run (step ssl) (fresh id now) events = some c) :
    Joined (fun _ _ => true) c := by
  rw [← Machine.guarded_true (step ssl)] at hRun
  refine joined_of_run (fun _ => rfl) ?_ hRun
  intro c e _
  exact joinsAlike_any c e

end Snmpio

------------------------------------------------------------
-- Who Runs
------------------------------------------------------------

namespace Snmpio

variable {ssl : OpenSsl} {c c' : Client} {t : Nat}
variable {task task' : Task}

/- Who runs and is not about to park is first. -/
theorem StrandShape.head
    (hShape : StrandShape c)
    (hTask : c.tasks[t]? = some task)
    (hRuns : task.point.runs = true)
    (hParking : ∀ d, task.point ≠ .parking d) :
    ∃ rest, c.strand = t :: rest := by
  have hRunning : c.running t = some task.point := by
    rw [Client.running, Client.view_of_task hTask, hRuns,
      if_pos rfl]
  have hMem := (hShape.runs t).mpr ⟨_, hRunning⟩
  cases hStrand : c.strand with
  | nil =>
      rw [hStrand] at hMem
      cases hMem
  | cons head rest =>
      rw [hStrand] at hMem
      rcases List.mem_cons.mp hMem with rfl | hBelow
      · exact ⟨rest, rfl⟩
      · rcases hShape.tail t (by rw [hStrand]; exact hBelow)
          with ⟨d, hTail⟩
        rw [hRunning] at hTail
        exact absurd (Option.some.inj hTail) (hParking d)

theorem Point.wake_of_runs
    {point : Point}
    (hRuns : point.wake.runs = true) :
    point.wake = point := by
  cases point with
  | waiting _ _ _ _ => cases hRuns
  | parked _ _ => cases hRuns
  | _ => rfl

/- How a coroutine that runs has come to where it is. -/
inductive Runs
    (ssl : OpenSsl)
    (c : Client)
    (e : Event)
    (c' : Client)
    (t : Nat)
    (task' : Task) : Prop where
  | moved
      {out : Outside}
      {rest : List Nat}
      {task : Task}
      {c₁ : Client}
      {spawned : Option Task}
      (hEvent : e = .advance out)
      (hStrand : c.strand = t :: rest)
      (hTask : c.tasks[t]? = some task)
      (hMove : Move ssl out c task c₁ task' spawned)
      (hCache : c'.cache = c₁.cache) :
      Runs ssl c e c' t task'
  | stayed
      {task : Task}
      (hTask : c.tasks[t]? = some task)
      (hPoint : task'.point = task.point)
      (hWork : task'.work = task.work)
      (hTarget : task'.target = task.target)
      (hCache : c'.cache = c.cache) :
      Runs ssl c e c' t task'
  | resumed
      {task : Task}
      {point : Point}
      (hTask : c.tasks[t]? = some task)
      (hResumes : Resumes c t task e point)
      (hGoes : task' = task.goto point)
      (hCache : c'.cache = c.cache) :
      Runs ssl c e c' t task'
  | started
      (hPoint : task'.point = .start) :
      Runs ssl c e c' t task'

theorem Runs.of_nudged
    {e : Event}
    (hTask : c.tasks[t]? = some task)
    (hNudged : task.Nudged task')
    (hRuns : task'.point.runs = true)
    (hCache : c'.cache = c.cache) :
    Runs ssl c e c' t task' := by
  refine Runs.stayed hTask ?_ hNudged.work hNudged.target
    hCache
  rcases hNudged.point with hSame | hWake
  · exact hSame
  · rw [hWake] at hRuns
    rw [hWake, Point.wake_of_runs hRuns]

theorem step_running
    {e : Event}
    (hStep : step ssl c e = some c')
    (hShape : StrandShape c)
    (hTask' : c'.tasks[t]? = some task')
    (hRuns : task'.point.runs = true)
    (hParking : ∀ d, task'.point ≠ .parking d) :
    Runs ssl c e c' t task' := by
  cases step_cases hStep with
  | @advanced out head rest task moved c₁ spawned hStrand
      hTask hMove =>
      rcases settle_task hTask' with
        ⟨rfl, rfl⟩ | ⟨hNot, hOther⟩ | ⟨_, hSpawned⟩
      · exact Runs.moved rfl hStrand hTask hMove
          (settle_cache _ _ _ _ _)
      · -- Another coroutine moves, so this one is not first.
        rcases hMove.tasks hOther with
          ⟨before, hBefore, hNudged⟩
        have hSame : task'.point = before.point := by
          rcases hNudged.point with hSame | hWake
          · exact hSame
          · rw [hWake] at hRuns
            rw [hWake, Point.wake_of_runs hRuns]
        rw [hSame] at hRuns hParking
        rcases hShape.head hBefore hRuns hParking with
          ⟨rest', hFirst⟩
        rw [hStrand] at hFirst
        cases hFirst
        exact absurd rfl hNot
      · rcases hMove.spawned_eq hSpawned with ⟨creds, rfl⟩
        exact Runs.started rfl
  | requested _ =>
      rcases getElem?_concat_cases hTask' with
        hOld | ⟨_, rfl⟩
      · exact Runs.stayed hOld rfl rfl rfl rfl
      · exact Runs.started rfl
  | received _ =>
      rcases receive_nudged ssl c _ _ with
        ⟨pendings, hNudged⟩
      rcases hNudged.tasks t task' hTask' with
        ⟨task, hTask, hSame⟩
      exact Runs.of_nudged hTask hSame hRuns hNudged.cache
  | resumed _ hTask hResumes =>
      rcases place_task hTask' with ⟨rfl, rfl⟩ | ⟨_, hOther⟩
      · exact Runs.resumed hTask hResumes rfl rfl
      · exact Runs.stayed hOther rfl rfl rfl rfl
  | raised _ _ _ _ =>
      rcases place_task hTask' with ⟨rfl, rfl⟩ | ⟨_, hOther⟩
      · cases hRuns
      · rcases cancelTimers_tasks hOther with
          ⟨before, hBefore, rfl⟩
        exact Runs.of_nudged hBefore
          (Task.wakeOn_nudged _ before) hRuns rfl
  | @signalled i kind task cancelled _ hTask _ _ =>
      rcases getElem?_set_cases hTask' with
        ⟨rfl, rfl⟩ | ⟨_, hOther⟩
      · refine Runs.stayed hTask ?_ rfl rfl rfl
        change task.point.signalled.runs = true at hRuns
        change task.point.signalled = task.point
        rcases signalled_cases task.point with hSame | hWake
        · exact hSame
        · rw [hWake] at hRuns ⊢
          exact Point.wake_of_runs hRuns
      · exact Runs.stayed hOther rfl rfl rfl rfl
  | nudged hNudged =>
      rcases hNudged.tasks t task' hTask' with
        ⟨task, hTask, hSame⟩
      exact Runs.of_nudged hTask hSame hRuns hNudged.cache

end Snmpio

------------------------------------------------------------
-- Clocks That Are Trusted
------------------------------------------------------------

namespace Snmpio

variable {ssl : OpenSsl} {c c' : Client}
variable {endpoint : Endpoint}

/- The Engine at an endpoint, if any, is synchronised. -/
def Trusted
    (cache : EngineCache)
    (endpoint : Endpoint) : Prop :=
  ∀ engineId, cache.index.lookup endpoint = some engineId →
    ∃ engine, cache.engines.lookup engineId = some engine ∧
      engine.timeSynced = true

/-
  Whether taking up a reply turns the cache against requests
  to an endpoint: the identity phase points it to an Engine
  that is not synchronised, or a signed Report with lower
  boots makes its Engine one that is not.
-/
def Client.unsettles
    (c : Client)
    (task : Task)
    (p : Pending)
    (endpoint : Endpoint) : Bool :=
  match task.work with
  | .identify _ _ =>
      decide (task.target.endpoint = endpoint) &&
        !(c.cache.engines.lookup p.security.engineId).any
          (fun engine => engine.timeSynced)
  | .v3 _ _ =>
      p.replyAuthenticated &&
        decide (p.response.type = .report) &&
        decide (c.cache.index.lookup task.target.endpoint =
          c.cache.index.lookup endpoint) &&
        (c.cache.engineAt task.target.endpoint).any
          (fun engine => engine.timeSynced &&
            decide (p.security.boots < engine.boots))
  | _ => false

/- Where the index points after a reply has been taken up. -/
theorem ReplyWrite.index
    {task : Task}
    {p : Pending}
    {cache : EngineCache}
    {engineId : Octets}
    (hWrite : ReplyWrite c task p cache)
    (hIndex : cache.index.lookup endpoint = some engineId) :
    c.cache.index.lookup endpoint = some engineId ∨
      (task.target.endpoint = endpoint ∧
        engineId = p.security.engineId ∧
        ∃ creds d, task.work = .identify creds d) := by
  cases hWrite with
  | none => exact Or.inl hIndex
  | answered hWork hWrite =>
      cases hWrite with
      | none => exact Or.inl hIndex
      | forgotten =>
          left
          by_cases hSame : endpoint = task.target.endpoint
          · subst hSame
            rw [AList.lookup_erase] at hIndex
            cases hIndex
          · rw [AList.lookup_erase_ne hSame] at hIndex
            exact hIndex
      | distrusted _ _ _ _ _ _ => exact Or.inl hIndex
      | adopted _ _ _ _ => exact Or.inl hIndex
  | identified hWork _ =>
      change (c.cache.index.insert task.target.endpoint
        p.security.engineId).lookup endpoint = _ at hIndex
      by_cases hSame : endpoint = task.target.endpoint
      · subst hSame
        rw [AList.lookup_insert] at hIndex
        cases hIndex
        exact Or.inr ⟨rfl, rfl, _, _, hWork⟩
      · rw [AList.lookup_insert_ne hSame] at hIndex
        exact Or.inl hIndex
  | based _ _ _ => exact Or.inl hIndex

theorem Trusted.write
    (hTrusted : Trusted c.cache endpoint)
    {task : Task}
    {p : Pending}
    {cache : EngineCache}
    (hWrite : ReplyWrite c task p cache)
    (hSettled : c.unsettles task p endpoint = false) :
    Trusted cache endpoint := by
  intro engineId hIndex
  -- The entry the index points to, as it was before.
  have hBefore :
      (∃ engine,
          c.cache.engines.lookup engineId = some engine ∧
            engine.timeSynced = true) ∧
        (c.cache.index.lookup endpoint = some engineId ∨
          ∃ creds d, task.work = .identify creds d) := by
    rcases hWrite.index hIndex with
      hSame | ⟨hEndpoint, rfl, creds, d, hWork⟩
    · exact ⟨hTrusted engineId hSame, Or.inl hSame⟩
    · refine ⟨?_, Or.inr ⟨creds, d, hWork⟩⟩
      simp only [Client.unsettles, hWork, hEndpoint,
        decide_true, Bool.true_and,
        Bool.not_eq_false'] at hSettled
      exact (Option.any_eq_true _ _).mp hSettled
  rcases hBefore with ⟨⟨engine, hEngine, hSynced⟩, hWhere⟩
  rcases hWrite.entry engineId with
    hSame | ⟨after, hAfter, hEntry⟩
  · rw [hSame]
    exact ⟨engine, hEngine, hSynced⟩
  · refine ⟨after, hAfter, ?_⟩
    cases hEntry with
    | @distrusted _ _ held hWork hAuth hReport hHere hHeld
        hWas hLower =>
        rcases hWhere with hIndexed | ⟨creds, d, hOther⟩
        · have hAt :
              c.cache.engineAt task.target.endpoint =
                some held :=
            EngineCache.engineAt_eq_some.mpr
              ⟨engineId, hHere, hHeld⟩
          simp [Client.unsettles, hWork, hAuth, hReport,
            hHere, hIndexed, hAt, hWas, hLower] at hSettled
        · rw [hWork] at hOther
          cases hOther
    | adopted _ _ _ _ _ => rfl
    | identified _ _ hSame _ =>
        rw [hSame, hEngine]
        exact hSynced
    | based _ _ _ => rfl

theorem Trusted.step
    (hTrusted : Trusted c.cache endpoint)
    {e : Event}
    (hStep : Snmpio.step ssl c e = some c')
    (hSettled :
      ∀ t task x p, TakesUp c t task x p →
        (∃ out, e = .advance out) →
          c.unsettles task p endpoint = false) :
    Trusted c'.cache endpoint := by
  rcases (step_cases hStep).cache with
    hSame | ⟨t, task, x, p, hEvent, hTakes, hWrite⟩
  · rw [hSame]
    exact hTrusted
  · exact hTrusted.write hWrite
      (hSettled t task x p hTakes hEvent)

theorem Trusted.of_ready
    {creds : Credentials}
    (hReady : c.isReady endpoint creds = true)
    (hAuth : creds.level.isAuthenticated = true) :
    Trusted c.cache endpoint := by
  rcases (Option.any_eq_true _ _).mp hReady with
    ⟨engine, hEngine, hSynced⟩
  rcases EngineCache.engineAt_eq_some.mp hEngine with
    ⟨engineId, hIndex, hLookup⟩
  intro engineId' hIndex'
  rw [hIndex] at hIndex'
  cases hIndex'
  refine ⟨engine, hLookup, ?_⟩
  simpa [hAuth] using hSynced

end Snmpio

------------------------------------------------------------
-- Waking
------------------------------------------------------------

namespace Snmpio

variable {ssl : OpenSsl} {c c' : Client} {t d : Nat}
variable {task task' : Task}

theorem Task.wakeOn_parked
    {timers : List Timer}
    (hPoint : task.point = .parked d false)
    (hWoken : (task.wakeOn timers).point = .parked d true) :
    Timer.done d ∈ timers := by
  unfold Task.wakeOn at hWoken
  split at hWoken
  · next hAny =>
    rcases (Option.any_eq_true _ _).mp hAny with
      ⟨timer, hTimer, hMem⟩
    rw [hPoint] at hTimer
    cases hTimer
    exact of_decide_eq_true hMem
  · rw [hPoint] at hWoken
    cases hWoken

/-
  What ends the wait of a request that is parked: its own
  cancellation, Stopping, or the end of the discovery.
-/
theorem step_unparks
    {e : Event}
    (hStep : step ssl c e = some c')
    (hTask : c.tasks[t]? = some task)
    (hTask' : c'.tasks[t]? = some task')
    (hPoint : task.point = .parked d false)
    (hWoken : task'.point = .parked d true) :
    task'.cancelled ≠ {} ∨ c.cleanup = true ∨
      ∃ (i : Nat) (runner : Task),
        c.tasks[i]? = some runner ∧
          runner.runner? = some d := by
  have hKept :
      ∀ {P : Prop}, c.tasks[t]? = some task' → P := by
    intro P hSame
    rw [hTask] at hSame
    cases hSame
    rw [hPoint] at hWoken
    cases hWoken
  cases e with
  | advance out =>
      rcases advance_eq hStep with
        ⟨head, rest, first, c₁, moved, spawned, hStrand,
          hFirst, hMove, rfl⟩
      rcases settle_task hTask' with
        ⟨rfl, rfl⟩ | ⟨_, hOther⟩ | ⟨hNew, _⟩
      · rw [hTask] at hFirst
        cases hFirst
        have hRuns := hMove.runs
        rw [hPoint] at hRuns
        cases hRuns
      · rcases hMove.tasks_eq with hSame | ⟨d', hEnds, hWakes⟩
        · rw [hSame] at hOther
          exact hKept hOther
        · rw [hWakes] at hOther
          rcases cancelTimers_tasks (c := c) hOther with
            ⟨before, hBefore, rfl⟩
          rw [hTask] at hBefore
          cases hBefore
          have hMem := Task.wakeOn_parked hPoint hWoken
          cases List.mem_singleton.mp hMem
          right
          right
          refine ⟨head, first, hFirst, ?_⟩
          exact Task.runner?_eq_some.mpr
            ⟨Point.isOver_of_runs hMove.runs, hEnds⟩
      · have hBound := (List.getElem?_eq_some_iff.mp hTask).1
        rw [hMove.length] at hNew
        omega
  | request target auth pdu =>
      simp only [step] at hStep
      split_ifs at hStep
      cases hStep
      have hBound := (List.getElem?_eq_some_iff.mp hTask).1
      rcases getElem?_concat_cases hTask' with
        hOld | ⟨hNew, _⟩
      · exact hKept hOld
      · omega
  | receive sender datagram =>
      simp only [step] at hStep
      split_ifs at hStep
      cases hStep
      rw [receive_eq_route] at hTask'
      split at hTask'
      · exact hKept hTask'
      · next ref p verdict _ =>
        cases verdict with
        | drop reason =>
            cases reason with
            | none => exact hKept hTask'
            | some error => exact hKept hTask'
        | accept p' =>
            rcases cancelTimers_tasks hTask' with
              ⟨before, hBefore, rfl⟩
            change c.tasks[t]? = some before at hBefore
            rw [hTask] at hBefore
            cases hBefore
            have hMem := Task.wakeOn_parked hPoint hWoken
            cases List.mem_singleton.mp hMem
  | receiveFailed v6 =>
      simp only [step] at hStep
      split_ifs at hStep
      all_goals
        cases hStep
        exact hKept hTask'
  | sent i ec =>
      simp only [step] at hStep
      split_ifs at hStep
      rcases onSent_eq hStep with
        ⟨before, point, hBefore, hResumes, rfl⟩
      rcases place_task hTask' with ⟨rfl, rfl⟩ | ⟨_, hOther⟩
      · have hNone := hResumes.discovers.2.1
        change point = _ at hWoken
        rw [hWoken] at hNone
        cases hNone
      · exact hKept hOther
  | expire i =>
      simp only [step, onExpire, Option.bind_eq_bind,
        Option.bind_eq_some_iff] at hStep
      rcases hStep with ⟨before, hBefore, hStep⟩
      split at hStep
      · split_ifs at hStep
        cases hStep
        rcases getElem?_set_cases hTask' with
          ⟨_, rfl⟩ | ⟨_, hOther⟩
        · cases hWoken
        · exact hKept hOther
      · cases hStep
  | resume i =>
      simp only [step] at hStep
      split_ifs at hStep
      rcases onResume_eq hStep with
        ⟨before, point, hBefore, hResumes, rfl⟩
      rcases place_task hTask' with ⟨rfl, rfl⟩ | ⟨_, hOther⟩
      · have hNone := hResumes.discovers.2.1
        change point = _ at hWoken
        rw [hWoken] at hNone
        cases hNone
      · exact hKept hOther
  | signal i kind =>
      simp only [step] at hStep
      split_ifs at hStep
      rcases onSignal_eq hStep with
        ⟨before, cancelled, hBefore, _, hCancelled, rfl⟩
      rcases getElem?_set_cases hTask' with
        ⟨_, rfl⟩ | ⟨_, hOther⟩
      · exact Or.inl hCancelled
      · exact hKept hOther
  | raise i =>
      rcases onRaise_eq hStep with
        ⟨first, d', rest, hFirst, hEnds, hThrows, _, rfl⟩
      rcases finish_task hTask' with
        ⟨_, rfl⟩ | ⟨_, before, hBefore, rfl⟩
      · cases hWoken
      · rw [hTask] at hBefore
        cases hBefore
        have hMem := Task.wakeOn_parked hPoint hWoken
        cases List.mem_singleton.mp hMem
        right
        right
        refine ⟨i, first, hFirst, ?_⟩
        exact Task.runner?_eq_some.mpr
          ⟨Point.canThrow_isOver hThrows, hEnds⟩
  | stop =>
      cases hStep
      exact hKept hTask'
  | finishStopping =>
      simp only [step] at hStep
      split_ifs at hStep with h
      exact Or.inr (Or.inl h.2)
  | tick elapsed =>
      cases hStep
      exact hKept hTask'

end Snmpio

------------------------------------------------------------
-- Where Clocks Come In
------------------------------------------------------------

namespace Snmpio

variable {ssl : OpenSsl} {c c' : Client} {out : Outside}
variable {task task' : Task} {spawned : Option Task}

/- Where a coroutine relies on what has been learnt. -/
def Point.relies :
    Point → Bool
| ensured none => true
| syncing _ => true
| finishing none => true
| _ => false

theorem Opening.relies
    {keys : KeyCache}
    (hOpening : Opening c task keys c' task') :
    task'.point.relies = false := by
  cases hOpening with
  | fails _ _ hPoint =>
      cases hPoint with
      | completed e _ => rfl
      | finishing e _ => rfl
  | opens _ _ => rfl

theorem Entry.relies
    {x : Exchange}
    (hEntry : Entry out c task x c' task') :
    task'.point.relies = false := by
  rcases hEntry.goes with
    ⟨point, rfl, rfl | rfl | ⟨ec, rfl⟩⟩
  · rfl
  · rfl
  · rfl

/- It gets there from the cache or from a reply. -/
theorem Move.relies
    (hMove : Move ssl out c task c' task' spawned)
    (hRelies : task'.point.relies = true) :
    task.point = .ensuring ∨ ∃ x, task.point = .returned x none
    := by
  have hNever :
      ∀ {P : Prop}, task'.point.relies = false → P := by
    intro P hNot
    rw [hRelies] at hNot
    cases hNot
  cases hMove with
  | beginV2c _ hWork =>
      exact hNever (startV2c_opening c hWork).relies
  | beginV3 _ _ =>
      unfold startV3 at hRelies
      split_ifs at hRelies
      all_goals cases hRelies
  | beginIdentify _ hWork =>
      exact hNever (startIdentify_opening out c hWork).relies
  | ensure hPoint _ _ => exact Or.inl hPoint
  | park _ _ => cases hRelies
  | fail _ _ => cases hRelies
  | send _ hWork =>
      exact hNever (sendRequest_opening out c hWork).relies
  | enter _ =>
      exact hNever (enterTransact_entry out c task _).relies
  | leave _ _ => cases hRelies
  | failed _ =>
      unfold afterFailure at hRelies
      split at hRelies
      all_goals cases hRelies
  | succeeded hPoint _ => exact Or.inr ⟨_, hPoint⟩
  | beginSync hPoint hWork =>
      exact hNever
        (startSync_opening out c hPoint hWork).relies
  | finish _ _ => cases hRelies

/- A request goes on with an Engine that is ready. -/
theorem Move.ready
    (hMove : Move ssl out c task c' task' spawned)
    (hPoint : task'.point = .ensured none) :
    ∃ creds, task.work.credentials? = some creds ∧
      c'.isReady task.target.endpoint creds = true := by
  rcases hMove.relies (by rw [hPoint]; rfl) with
    hEnsuring | ⟨x, hReturned⟩
  · cases hMove with
    | @ensure creds _ _ _ _ _ hWork hEnsure =>
        rcases ensureEngine_cases hEnsure with
          ⟨rfl, _, _, engine, hEngine, hSynced⟩ |
            ⟨_, _, _, rfl, _⟩ | ⟨_, _, rfl, _⟩
        · refine ⟨creds, by rw [hWork]; rfl, ?_⟩
          rw [Client.isReady, hEngine, Option.any_some]
          cases hLevel : creds.level.isAuthenticated with
          | true => exact hSynced hLevel
          | false => rfl
        · cases hPoint
        · cases hPoint
    | _ hOther =>
        rw [hEnsuring] at hOther
        cases hOther
  · cases hMove with
    | @succeeded _ p _ _ =>
        have hAfterwards := afterSuccess_afterwards c task p
        generalize (afterSuccess c task p).2 = task'
          at hAfterwards hPoint
        cases hAfterwards with
        | _ => cases hPoint
    | _ hOther =>
        rw [hReturned] at hOther
        cases hOther

theorem Move.ensured
    (hMove : Move ssl out c task c' task' spawned)
    (hPoint : task'.point = .ensured none)
    {creds : Credentials}
    (hCreds : task.work.credentials? = some creds)
    (hAuth : creds.level.isAuthenticated = true) :
    Trusted c'.cache task.target.endpoint := by
  rcases hMove.ready hPoint with ⟨creds', hSame, hReady⟩
  rw [hCreds] at hSame
  cases hSame
  exact Trusted.of_ready hReady hAuth

/- What a reply leads a discovery to. -/
inductive Learns
    (c : Client)
    (task : Task)
    (p : Pending)
    (cache : EngineCache) :
    Point → Prop where
  | unsigned
      {creds : Credentials}
      {d : Nat}
      (hWork : task.work = .identify creds d)
      (hIndex :
        cache.index.lookup task.target.endpoint =
          some p.security.engineId)
      (hLevel : creds.level.isAuthenticated = false) :
      Learns c task p cache (.finishing none)
  | known
      {creds : Credentials}
      {d : Nat}
      {engine : EngineState}
      (hWork : task.work = .identify creds d)
      (hIndex :
        cache.index.lookup task.target.endpoint =
          some p.security.engineId)
      (hEngine :
        cache.engines.lookup p.security.engineId =
          some engine)
      (hSynced : engine.timeSynced = true) :
      Learns c task p cache (.finishing none)
  | named
      {creds : Credentials}
      {d : Nat}
      (hWork : task.work = .identify creds d)
      (hIndex :
        cache.index.lookup task.target.endpoint =
          some p.security.engineId) :
      Learns c task p cache (.syncing p.security.engineId)
  | based
      {creds : Credentials}
      {d : Nat}
      {engineId : Octets}
      (hWork : task.work = .sync creds d engineId)
      (hCache :
        cache =
          c.cache.recordBaseline c.now engineId p.security) :
      Learns c task p cache (.finishing none)

theorem recordIdentity_index
    (cache : EngineCache)
    (now : Int)
    (endpoint : Endpoint)
    (security : UsmParameters) :
    (cache.recordIdentity now endpoint
      security).index.lookup endpoint =
        some security.engineId :=
  AList.lookup_insert _

/- A discovery goes on because of a reply. -/
theorem Move.learns
    (hMove : Move ssl out c task c' task' spawned)
    (hPoint :
      task'.point = .finishing none ∨
        ∃ engineId, task'.point = .syncing engineId) :
    ∃ x p, task.point = .returned x none ∧
      c.pendings[x.pending]? = some p ∧
      Learns c task p c'.cache task'.point := by
  have hRelies : task'.point.relies = true := by
    rcases hPoint with hFinishing | ⟨engineId, hSyncing⟩
    · rw [hFinishing]
      rfl
    · rw [hSyncing]
      rfl
  rcases hMove.relies hRelies with
    hEnsuring | ⟨x, hReturned⟩
  · cases hMove with
    | ensure _ _ hEnsure =>
        rcases ensureEngine_cases hEnsure with
          ⟨_, rfl, _, _⟩ | ⟨_, _, _, rfl, _⟩ | ⟨_, _, rfl, _⟩
        all_goals
          rcases hPoint with hNo | ⟨_, hNo⟩
          · cases hNo
          · cases hNo
    | _ hOther =>
        rw [hEnsuring] at hOther
        cases hOther
  · cases hMove with
    | @succeeded y p hAt hp =>
        refine ⟨y, p, hAt, hp, ?_⟩
        unfold afterSuccess at hRelies ⊢
        split
        · next hWork =>
          rw [hWork] at hRelies
          cases hRelies
        · next hWork =>
          rw [hWork] at hRelies
          dsimp only at hRelies
          unfold afterAnswer at hRelies
          dsimp only at hRelies
          split at hRelies
          · split at hRelies
            · cases hRelies
            · split at hRelies
              · cases hRelies
              · cases hRelies
          · cases hRelies
        · next creds d hWork =>
          rw [hWork] at hRelies
          dsimp only at hRelies
          unfold afterIdentify at hRelies ⊢
          dsimp only at hRelies ⊢
          split_ifs at hRelies ⊢ with hEmpty hLevel hKnown
          · cases hRelies
          · rcases (Option.any_eq_true _ _).mp hKnown with
              ⟨engine, hEngine, hSynced⟩
            exact Learns.known hWork
              (recordIdentity_index _ _ _ _) hEngine hSynced
          · exact Learns.named hWork
              (recordIdentity_index _ _ _ _)
          · exact Learns.unsigned hWork
              (recordIdentity_index _ _ _ _)
              (by simpa using hLevel)
        · next creds d engineId hWork =>
          rw [hWork] at hRelies
          dsimp only at hRelies
          unfold afterSync at hRelies ⊢
          split_ifs at hRelies ⊢
          · cases hRelies
          · exact Learns.based hWork rfl
          · cases hRelies
    | _ hOther =>
        rw [hReturned] at hOther
        cases hOther

/- It has a clock to trust by its end, if it needs one. -/
theorem Learns.trusted
    {p : Pending}
    {cache : EngineCache}
    (hLearns : Learns c task p cache (.finishing none))
    {creds : Credentials}
    (hCreds : task.work.credentials? = some creds)
    (hAuth : creds.level.isAuthenticated = true)
    (hSyncs :
      ∀ creds d engineId, task.work = .sync creds d engineId →
        ∀ found,
          c.cache.index.lookup task.target.endpoint =
              some found →
            found = engineId) :
    Trusted cache task.target.endpoint := by
  cases hLearns with
  | unsigned hWork _ hLevel =>
      rw [hWork] at hCreds
      cases hCreds
      rw [hLevel] at hAuth
      cases hAuth
  | known hWork hIndex hEngine hSynced =>
      intro engineId hFound
      rw [hIndex] at hFound
      cases hFound
      exact ⟨_, hEngine, hSynced⟩
  | @based _ _ engineId hWork hCache =>
      intro found hFound
      rw [hCache] at hFound ⊢
      rw [hSyncs _ _ _ hWork found hFound]
      exact ⟨_, AList.lookup_insert _, rfl⟩

end Snmpio

------------------------------------------------------------
-- The Invariant of Clocks
------------------------------------------------------------

namespace Snmpio

variable {ssl : OpenSsl} {c c' : Client} {t : Nat}
variable {task task' : Task} {e : Event} {engineId : Octets}

def Task.authenticates
    (task : Task) : Bool :=
  task.work.credentials?.any
    (fun creds => creds.level.isAuthenticated)

theorem Task.authenticates_iff :
    task.authenticates = true ↔
      ∃ creds, task.work.credentials? = some creds ∧
        creds.level.isAuthenticated = true :=
  Option.any_eq_true _ _

/- The Engine that a discovery synchronises with. -/
def Task.syncs?
    (task : Task) : Option Octets :=
  match task.work with
  | .identify _ _ =>
      match task.point with
      | .syncing engineId => some engineId
      | _ => none
  | .sync _ _ engineId =>
      if task.point.isOver then none else some engineId
  | _ => none

theorem Task.syncs?_runner
    (hSyncs : task.syncs? = some engineId) :
    ∃ d, task.runner? = some d := by
  unfold Task.syncs? at hSyncs
  split at hSyncs
  · next creds d hWork =>
    split at hSyncs
    · next hPoint =>
      refine ⟨d, Task.runner?_eq_some.mpr ?_⟩
      rw [hPoint, hWork]
      exact ⟨rfl, rfl⟩
    · cases hSyncs
  · next creds d _ hWork =>
    split at hSyncs
    · cases hSyncs
    · next hLive =>
      rw [Bool.not_eq_true] at hLive
      refine ⟨d, Task.runner?_eq_some.mpr ?_⟩
      rw [hWork]
      exact ⟨hLive, rfl⟩
  · cases hSyncs

theorem Task.syncs?_of_sync
    {creds : Credentials}
    {d : Nat}
    (hWork : task.work = .sync creds d engineId)
    (hLive : task.point.isOver = false) :
    task.syncs? = some engineId := by
  simp [Task.syncs?, hWork, hLive]

/-
  What the coroutines rely on: while a discovery is at its
  time-sync phase, its endpoint points to no other Engine,
  and whoever goes on with an Engine that it authenticates
  to has a synchronised clock for it.
-/
structure Timed
    (c : Client) : Prop where
  syncing :
    ∀ (t : Nat) (task : Task) engineId,
      c.tasks[t]? = some task →
        task.syncs? = some engineId →
        ∀ found,
          c.cache.index.lookup task.target.endpoint =
              some found →
            found = engineId
  relying :
    ∀ (t : Nat) (task : Task), c.tasks[t]? = some task →
      task.authenticates = true →
        task.point = .ensured none ∨
            task.point = .finishing none →
          Trusted c.cache task.target.endpoint
  woken :
    ∀ (t : Nat) (task : Task) d, c.tasks[t]? = some task →
      task.authenticates = true →
        task.point = .parked d true → task.cancelled = {} →
        c.stopping = false →
        c.discoveries[d]? =
            some ({ finished := true } : Discovery) →
          Trusted c.cache task.target.endpoint

/- A coroutine that runs on was waiting for a discovery. -/
theorem Resumes.relies
    {point : Point}
    (hResumes : Resumes c t task e point)
    (hRelies : point.relies = true) :
    ∃ d, task.point = .parked d true ∧
      point = .ensured none ∧ task.cancelled = {} ∧
      c.stopping = false ∧
      c.discoveries[d]? =
        some ({ finished := true } : Discovery) := by
  cases hResumes with
  | sent ec hPoint =>
      unfold afterSend at hRelies
      split at hRelies
      · cases hRelies
      · cases hRelies
  | waited hPoint hp =>
      unfold afterWait at hRelies
      split at hRelies
      · cases hRelies
      · split at hRelies
        · cases hRelies
        · unfold attemptPoint at hRelies
          split at hRelies
          · cases hRelies
          · cases hRelies
  | @unparked d discovery hPoint hd =>
      refine ⟨d, hPoint, ?_⟩
      rcases discovery with ⟨ec, finished, failure⟩
      unfold afterPark at hRelies ⊢
      split at hRelies
      · cases hRelies
      · next hSound =>
        split at hRelies
        · cases hRelies
        · next hGoing =>
          split at hRelies
          · cases hRelies
          · next hDone =>
            dsimp only at hSound hDone hRelies
            rw [not_or, not_not, not_not] at hDone
            rw [Bool.not_eq_true] at hSound hGoing
            cases ec with
            | some error => cases hRelies
            | none =>
                rw [if_neg (by simpa using hSound),
                  if_neg (by simpa using hGoing),
                  if_neg (by simp [hDone.1, hDone.2])]
                refine ⟨rfl, hDone.1, hGoing, ?_⟩
                rw [hd, hSound, hDone.2]

/- Nobody's move ends its own wait. -/
theorem Move.asleep
    {out : Outside}
    {spawned : Option Task}
    (hMove : Move ssl out c task c' task' spawned)
    (d : Nat) :
    task'.point ≠ .parked d true := by
  intro hWoken
  have hBehind : task'.behind? = some d := by
    rw [Task.behind?, hWoken]
    rfl
  rcases hMove.behind hBehind with hEnsuring | ⟨_, hPoint⟩
  · cases hMove with
    | ensure _ _ hEnsure =>
        rcases ensureEngine_cases hEnsure with
          ⟨_, rfl, _, _⟩ | ⟨_, _, _, rfl, _⟩ | ⟨_, _, rfl, _⟩
        all_goals cases hWoken
    | _ hOther =>
        rw [hEnsuring] at hOther
        cases hOther
  · rw [hWoken] at hPoint
    cases hPoint

/- What synchronised before the step, if not by moving on. -/
theorem TaskStep.syncs
    {creds : Credentials}
    {d : Nat}
    (hStep : TaskStep ssl c t e task')
    (hWork : task'.work = .sync creds d engineId)
    (hLive : task'.point.isOver = false) :
    ∃ task, c.tasks[t]? = some task ∧
      task.syncs? = some engineId ∧
      task'.target = task.target := by
  cases hStep with
  | @moved out rest task _ c₁ spawned hStrand hTask hMove =>
      refine ⟨task, hTask, ?_, hMove.kin.target⟩
      have hLiveBefore := Point.isOver_of_runs hMove.runs
      rcases hMove.work with
        hSame | ⟨_, _, _, hOther⟩ |
          ⟨creds', d', engineId', hBefore, hPoint, hAfter⟩
      · rw [hSame] at hWork
        exact Task.syncs?_of_sync hWork hLiveBefore
      · rw [hWork] at hOther
        cases hOther
      · rw [hWork] at hAfter
        cases hAfter
        simp [Task.syncs?, hBefore, hPoint]
  | spawned hStrand hTask hMove hNew =>
      rcases hMove.spawned_eq rfl with ⟨creds', rfl⟩
      cases hWork
  | @requested target auth pdu _ _ =>
      cases auth with
      | community _ => cases hWork
      | credentials _ => cases hWork
  | @resumed _ task _ _ hTask hResumes =>
      exact ⟨task, hTask, Task.syncs?_of_sync hWork
        hResumes.discovers.1, rfl⟩
  | raised _ _ _ => cases hLive
  | @signalled _ task _ _ hTask hRequest _ =>
      change task.work = _ at hWork
      rw [hWork] at hRequest
      cases hRequest
  | @woken _ task hTask _ _ =>
      change task.point.wake.isOver = false at hLive
      rw [Point.wake_isOver] at hLive
      exact ⟨task, hTask, Task.syncs?_of_sync hWork hLive,
        rfl⟩
  | kept hTask _ =>
      exact ⟨task', hTask, Task.syncs?_of_sync hWork hLive,
        rfl⟩

end Snmpio

------------------------------------------------------------
-- Steps and Runs
------------------------------------------------------------

namespace Snmpio

variable {ssl : OpenSsl} {c c' : Client} {t : Nat}
variable {task task' : Task} {e : Event} {i d : Nat}
variable {x : Exchange}

/- Whoever authenticates, queues behind who does so too. -/
def authenticatesAlike
    (creds creds' : Credentials) : Bool :=
  !creds.level.isAuthenticated ||
    creds'.level.isAuthenticated

/- A request that can go on, and will authenticate. -/
def Task.isWoken
    (task : Task) : Bool :=
  task.authenticates &&
    match task.point with
    | .parked _ true => true
    | _ => false

/-
  No reply that is taken up turns the cache against a request
  that authenticates and has been woken, and goes on next.
-/
def sparesWoken
    (c : Client) :
    Event → Bool
| .advance _ =>
    c.takenUp.all (fun found =>
      c.tasks.all (fun waiter =>
        !waiter.isWoken ||
          !c.unsettles found.2.1 found.2.2.2
            waiter.target.endpoint))
| _ => true

def sharesSafely
    (c : Client)
    (e : Event) : Bool :=
  joinsAlike authenticatesAlike c e && sparesWoken c e

theorem sparesWoken_spec
    {out : Outside}
    {taker : Task}
    {p : Pending}
    (hOk : sparesWoken c (.advance out) = true)
    (hTakes : TakesUp c i taker x p)
    (hTask : c.tasks[t]? = some task)
    (hWoken : task.isWoken = true) :
    c.unsettles taker p task.target.endpoint = false := by
  simp only [sparesWoken, hTakes.takenUp, Option.all_some]
    at hOk
  have hOne :=
    List.all_eq_true.mp hOk task (List.mem_of_getElem? hTask)
  simpa [hWoken] using hOne

theorem Timed.syncing_step
    (hTimed : Timed c)
    (hAttended : Attended c)
    (hShape : StrandShape c)
    (hStep : step ssl c e = some c')
    {engineId : Octets}
    (hTask' : c'.tasks[t]? = some task')
    (hSyncs : task'.syncs? = some engineId)
    {found : Octets}
    (hIndex :
      c'.cache.index.lookup task'.target.endpoint =
        some found) :
    found = engineId := by
  -- One discovery runs at an endpoint, so that no other
  -- reply points it elsewhere.
  have hBefore :
      ∀ {task : Task}, c.tasks[t]? = some task →
        task.syncs? = some engineId →
        task'.target = task.target → found = engineId := by
    intro task hTask hSyncs hTarget
    rw [hTarget] at hIndex
    have hHeld := hTimed.syncing t task engineId hTask hSyncs
    rcases (step_cases hStep).cache with
      hSame | ⟨i, taker, x, p, _, hTakes, hWrite⟩
    · rw [hSame] at hIndex
      exact hHeld found hIndex
    · rcases hWrite.index hIndex with
        hSame | ⟨hEndpoint, _, creds, d, hWork⟩
      · exact hHeld found hSame
      · rcases Task.syncs?_runner hSyncs with ⟨d', hRuns⟩
        have hTaker : taker.runner? = some d := by
          rw [Task.runner?_eq_some, hTakes.point, hWork]
          exact ⟨rfl, rfl⟩
        have hFirst :=
          hAttended.registered t task d' hTask hRuns
        have hSecond := hAttended.registered i taker d
          hTakes.found hTaker
        rw [hEndpoint, hFirst] at hSecond
        cases hSecond
        have hSame := hAttended.unique i t taker task _
          hTakes.found hTask hTaker hRuns
        subst hSame
        have hFound := hTakes.found
        rw [hTask] at hFound
        cases hFound
        simp [Task.syncs?, hWork, hTakes.point] at hSyncs
  unfold Task.syncs? at hSyncs
  split at hSyncs
  · next creds d hWork =>
    split at hSyncs
    · next hPoint =>
      cases hSyncs
      have hRunning := step_running hStep hShape hTask'
        (by rw [hPoint]; rfl) (by rw [hPoint]; simp)
      cases hRunning with
      | moved _ _ _ hMove hCache =>
          rcases hMove.learns (Or.inr ⟨_, hPoint⟩) with
            ⟨x, p, _, _, hLearns⟩
          rw [hPoint] at hLearns
          rw [hMove.kin.target, hCache] at hIndex
          cases hLearns with
          | named _ hNamed =>
              rw [hNamed] at hIndex
              exact (Option.some.inj hIndex).symm
      | stayed hTask hSame hSameWork hTarget _ =>
          refine hBefore hTask ?_ hTarget
          rw [hPoint] at hSame
          rw [hWork] at hSameWork
          simp [Task.syncs?, ← hSameWork, ← hSame]
      | resumed _ hResumes hGoes _ =>
          rw [hGoes] at hPoint
          cases hPoint
          rcases hResumes.relies rfl with ⟨_, _, hOther, _⟩
          cases hOther
      | started hStart =>
          rw [hPoint] at hStart
          cases hStart
    · cases hSyncs
  · next creds d _ hWork =>
    split at hSyncs
    · cases hSyncs
    · next hLive =>
      cases hSyncs
      rw [Bool.not_eq_true] at hLive
      rcases (step_task hStep hTask').syncs hWork hLive with
        ⟨task, hTask, hSyncsBefore, hTarget⟩
      exact hBefore hTask hSyncsBefore hTarget
  · cases hSyncs

theorem Timed.relying_step
    (hTimed : Timed c)
    (hShape : StrandShape c)
    (hStep : step ssl c e = some c')
    (hTask' : c'.tasks[t]? = some task')
    (hAuth : task'.authenticates = true)
    (hPoint :
      task'.point = .ensured none ∨
        task'.point = .finishing none) :
    Trusted c'.cache task'.target.endpoint := by
  have hRuns :
      task'.point.runs = true ∧
        (∀ d, task'.point ≠ .parking d) ∧
        task'.point ≠ .start ∧ task'.point.relies = true := by
    rcases hPoint with hEnsured | hFinishing
    · rw [hEnsured]
      simp [Point.runs, Point.relies]
    · rw [hFinishing]
      simp [Point.runs, Point.relies]
  rcases hRuns with ⟨hRuns, hParking, hNotStart, hRelies⟩
  cases step_running hStep hShape hTask' hRuns hParking with
  | @moved _ _ task c₁ _ _ _ hTask hMove hCache =>
      rw [hCache, hMove.kin.target]
      rcases Task.authenticates_iff.mp hAuth with
        ⟨creds, hCreds, hLevel⟩
      rw [hMove.credentials] at hCreds
      rcases hPoint with hEnsured | hFinishing
      · exact hMove.ensured hEnsured hCreds hLevel
      · rcases hMove.learns (Or.inl hFinishing) with
          ⟨x, p, hReturned, _, hLearns⟩
        rw [hFinishing] at hLearns
        refine hLearns.trusted hCreds hLevel ?_
        intro creds' d engineId hWork
        apply hTimed.syncing t task engineId hTask
        apply Task.syncs?_of_sync hWork
        rw [hReturned]
        rfl
  | @stayed task hTask hSame hWork hTarget hCache =>
      rw [hCache, hTarget]
      refine hTimed.relying t task hTask ?_ (hSame ▸ hPoint)
      rw [Task.authenticates, ← hWork]
      exact hAuth
  | @resumed task point hTask hResumes hGoes hCache =>
      subst hGoes
      rcases hResumes.relies hRelies with
        ⟨d, hParked, _, hCancelled, hGoing, hFinished⟩
      rw [hCache]
      exact hTimed.woken t task d hTask hAuth hParked
        hCancelled hGoing hFinished
  | started hStart => exact absurd hStart hNotStart

/- A discovery that ends well has ended so for its waiters. -/
theorem Timed.woken_end
    (hTimed : Timed c)
    (hJoined : Joined authenticatesAlike c)
    {runner : Task}
    (hRunner : c.tasks[i]? = some runner)
    (hRuns : runner.runner? = some d)
    (hFinishing : runner.point = .finishing none)
    (hTask : c.tasks[t]? = some task)
    (hBehind : task.behind? = some d)
    (hAuth : task.authenticates = true) :
    Trusted c.cache task.target.endpoint := by
  have hQueued := hJoined.queued t i task runner d hTask
    hBehind hRunner hRuns
  rcases Task.authenticates_iff.mp hAuth with
    ⟨creds, hCreds, hLevel⟩
  rw [← hQueued.endpoint]
  refine hTimed.relying i runner hRunner ?_
    (Or.inr hFinishing)
  rw [Task.authenticates_iff]
  rcases Task.runner?_eq_some.mp hRuns with ⟨_, hDiscovery⟩
  cases hWork : runner.work with
  | v2c _ =>
      rw [hWork] at hDiscovery
      cases hDiscovery
  | v3 _ _ =>
      rw [hWork] at hDiscovery
      cases hDiscovery
  | identify creds' d' =>
      refine ⟨creds', rfl, ?_⟩
      have hAlike := hQueued.alike creds creds' hCreds
        (by rw [hWork]; rfl)
      simpa [authenticatesAlike, hLevel] using hAlike
  | sync creds' d' engineId =>
      refine ⟨creds', rfl, ?_⟩
      have hAlike := hQueued.alike creds creds' hCreds
        (by rw [hWork]; rfl)
      simpa [authenticatesAlike, hLevel] using hAlike

/- How a discovery has come to be over. -/
theorem DiscoveryStep.finished
    (hDiscovery : DiscoveryStep c e c')
    (hFinished :
      c'.discoveries[d]? =
        some ({ finished := true } : Discovery)) :
    c.discoveries[d]? =
        some ({ finished := true } : Discovery) ∨
      ∃ (i : Nat) (runner : Task) (rest : List Nat),
        c.tasks[i]? = some runner ∧
          runner.runner? = some d ∧
          runner.point = .finishing none ∧
          c' = (finishDiscovery c runner.target.endpoint d
            { finished := true }).place i rest
              (runner.goto .ended) := by
  cases hDiscovery with
  | continued hContinues _ =>
      rw [hContinues.discoveries] at hFinished
      exact Or.inl hFinished
  | joined _ _ _ _ _ _ _ hContinues _ =>
      rw [hContinues.discoveries] at hFinished
      exact Or.inl hFinished
  | began _ _ _ _ _ _ _ hDiscoveries _ =>
      rw [hDiscoveries] at hFinished
      rcases getElem?_concat_cases hFinished with
        hOld | ⟨_, hNew⟩
      · exact Or.inl hOld
      · cases hNew
  | @ended i d' rest runner discovery hRunner hRuns _ hWhy =>
      change (c.discoveries.set d' discovery)[d]? = _
        at hFinished
      rcases getElem?_set_cases hFinished with
        ⟨rfl, rfl⟩ | ⟨_, hOther⟩
      · rcases hWhy with
          ⟨out, ec, _, hPoint, hEnd⟩ | ⟨_, _, hEnd⟩
        · cases hEnd
          exact Or.inr ⟨i, runner, rest, hRunner, hRuns,
            hPoint, rfl⟩
        · cases hEnd
      · exact Or.inl hOther

/- Nobody runs a discovery that is over. -/
theorem Attended.over
    (hAttended : Attended c)
    {runner : Task}
    {discovery : Discovery}
    (hDiscovery : c.discoveries[d]? = some discovery)
    (hOver : discovery.isOpen = false)
    (hRunner : c.tasks[i]? = some runner) :
    runner.runner? ≠ some d := by
  intro hRuns
  have hKnown := hAttended.registered i runner d hRunner hRuns
  rcases hAttended.unfinished _ d hKnown with
    ⟨found, hFound, hOpen⟩
  rw [hDiscovery] at hFound
  cases hFound
  rw [hOver] at hOpen
  cases hOpen

/- A request that is woken and stays has been so before. -/
theorem TaskStep.woken_before
    (hTaskStep : TaskStep ssl c t e task')
    (hStep : step ssl c e = some c')
    (hTask' : c'.tasks[t]? = some task')
    (hPoint : task'.point = .parked d true)
    (hCancelled : task'.cancelled = {})
    (hCleanup : c.cleanup = false)
    (hNobody :
      ∀ (i : Nat) (runner : Task),
        c.tasks[i]? = some runner →
          runner.runner? ≠ some d) :
    ∃ task, c.tasks[t]? = some task ∧
      task.point = .parked d true ∧ task.cancelled = {} ∧
      task.work = task'.work ∧ task.target = task'.target := by
  cases hTaskStep with
  | moved _ _ hMove => exact absurd hPoint (hMove.asleep d)
  | spawned _ _ hMove _ =>
      rcases hMove.spawned_eq rfl with ⟨creds, rfl⟩
      cases hPoint
  | requested _ _ => cases hPoint
  | resumed _ _ hResumes =>
      cases hPoint
      cases hResumes.discovers.2.1
  | raised _ _ _ => cases hPoint
  | signalled _ _ _ hSignalled =>
      exact absurd hCancelled hSignalled
  | @woken _ task hTask _ _ =>
      change task.point.wake = .parked d true at hPoint
      cases hAt : task.point with
      | parked d' woken =>
          rw [hAt] at hPoint
          cases hPoint
          cases woken with
          | true =>
              exact ⟨task, hTask, hAt, hCancelled, rfl, rfl⟩
          | false =>
              have hWoken :
                  (task.goto task.point.wake).point =
                    .parked d true := by
                rw [hAt]
                rfl
              rcases step_unparks hStep hTask hTask' hAt
                hWoken with
                hSignalled | hStops | ⟨i, runner, hRunner,
                  hRuns⟩
              · exact absurd hCancelled hSignalled
              · rw [hCleanup] at hStops
                cases hStops
              · exact absurd hRuns
                  (hNobody i runner hRunner)
      | _ =>
          rw [hAt] at hPoint
          cases hPoint
  | kept hTask _ =>
      exact ⟨task', hTask, hPoint, hCancelled, rfl, rfl⟩

theorem Timed.woken_step
    (hTimed : Timed c)
    (hJoined : Joined authenticatesAlike c)
    (hAttended : Attended c)
    (hCleanup : c.cleanup = true → c.stopping = true)
    (hPlaced :
      ∀ (t : Nat) (task : Task), c.tasks[t]? = some task →
        task.Placed)
    (hOk : sparesWoken c e = true)
    (hStep : step ssl c e = some c')
    (hTask' : c'.tasks[t]? = some task')
    (hAuth : task'.authenticates = true)
    (hPoint : task'.point = .parked d true)
    (hCancelled : task'.cancelled = {})
    (hGoing : c'.stopping = false)
    (hFinished :
      c'.discoveries[d]? =
        some ({ finished := true } : Discovery)) :
    Trusted c'.cache task'.target.endpoint := by
  have hBehind : task'.behind? = some d := by
    rw [Task.behind?, hPoint]
    rfl
  rcases (step_discovery hStep hPlaced).finished hFinished with
    hOver | ⟨i, runner, rest, hRunner, hRuns, hEnd, rfl⟩
  · -- The discovery was over: the request was woken already.
    have hGoingBefore := step_stopping hStep hGoing
    have hNoCleanup : c.cleanup = false := by
      cases hSecond : c.cleanup with
      | false => rfl
      | true =>
          rw [hCleanup hSecond] at hGoingBefore
          cases hGoingBefore
    rcases (step_task hStep hTask').woken_before hStep hTask'
      hPoint hCancelled hNoCleanup
      (fun _ _ hRunner => hAttended.over hOver rfl hRunner)
      with ⟨task, hTask, hAt, hSame, hWork, hTarget⟩
    rw [Task.authenticates, ← hWork] at hAuth
    rw [← hTarget]
    have hTrusted := hTimed.woken t task d hTask hAuth hAt
      hSame hGoingBefore hOver
    refine hTrusted.step hStep ?_
    rintro i taker x p hTakes ⟨out, rfl⟩
    refine sparesWoken_spec hOk hTakes hTask ?_
    simp [Task.isWoken, Task.authenticates, hAt] at hAuth ⊢
    exact hAuth
  · -- It ends here, and well.
    rcases finish_task hTask' with
      ⟨_, rfl⟩ | ⟨_, before, hBefore, rfl⟩
    · cases hPoint
    · have hNudged := Task.wakeOn_nudged [.done d] before
      rw [hNudged.target]
      rw [Task.authenticates, hNudged.work] at hAuth
      exact hTimed.woken_end hJoined hRunner hRuns hEnd
        hBefore
        ((Task.Waits.of_point hNudged.point).behind d hBehind)
        hAuth

theorem timed_of_run
    {id : Int32}
    {now : Int}
    {events : List Event}
    (hRun :
      Machine.run (Machine.guarded (step ssl) sharesSafely)
        (fresh id now) events = some c) :
    Timed c := by
  have hRefl :
      ∀ creds, authenticatesAlike creds creds = true := by
    intro creds
    cases hLevel : creds.level.isAuthenticated with
    | true => simp [authenticatesAlike, hLevel]
    | false => simp [authenticatesAlike, hLevel]
  have hJoins :
      ∀ c e, sharesSafely c e = true →
        joinsAlike authenticatesAlike c e = true := by
    intro c e hOk
    exact (Bool.and_eq_true_iff.mp hOk).1
  refine Machine.run_invariant
    (P := fun _ c => Timed c) ?_ ?_ hRun
  · refine ⟨?_, ?_, ?_⟩
    · intro t task engineId hTask
      cases hTask
    · intro t task hTask
      cases hTask
    · intro t task d hTask
      cases hTask
  · intro events c e c' hBefore hTimed hStep
    rcases Machine.guarded_eq_some.mp hStep with ⟨hOk, hStep⟩
    have hJoined := joined_of_run hRefl hJoins hBefore
    have hSpares := (Bool.and_eq_true_iff.mp hOk).2
    have hBefore := Machine.run_of_guarded hBefore
    have hAttended := attended_of_run hBefore
    have hShape := strandShape_of_run hBefore
    refine ⟨?_, ?_, ?_⟩
    · intro t task engineId hTask hSyncs found hIndex
      exact hTimed.syncing_step hAttended hShape hStep hTask
        hSyncs hIndex
    · intro t task hTask hAuth hPoint
      exact hTimed.relying_step hShape hStep hTask hAuth hPoint
    · intro t task d hTask hAuth hPoint hCancelled hGoing
        hFinished
      exact hTimed.woken_step hJoined hAttended
        (cleanup_stopping hBefore)
        (fun _ _ => placed_of_run hBefore) hSpares hStep hTask
        hAuth hPoint hCancelled hGoing hFinished

/-
  The message that a request sends to an Engine, with the
  pair by the local clock.
-/
def SentTo
    (ssl : OpenSsl)
    (c : Client)
    (creds : Credentials)
    (engine : EngineState)
    (datagram : Octets) : Prop :=
  ∃ (id : Int32) (pdu : Pdu) (authKey privKey : Octets)
      (salt : UInt64),
    (encodeV3Message ssl
      { msgId := id, level := creds.level }
      { engineId := engine.engineId
        boots := engine.boots
        time := Int32.ofInt
          (min (engine.projected c.now) timeCeiling)
        userName := creds.userName }
      { contextEngineId := engine.engineId
        pdu := pdu }
      creds.authProtocol authKey creds.privProtocol privKey
      salt).1 = .ok datagram

theorem sendRequest_enters
    {out : Outside}
    {creds : Credentials}
    (hPoint :
      (sendRequest ssl out c task creds).2.point =
        .entering x) :
    ∃ engine,
      c.cache.engineAt task.target.endpoint = some engine ∧
        SentTo ssl c creds engine x.datagram := by
  unfold sendRequest at hPoint
  split at hPoint
  · cases hPoint
  · next engine hEngine =>
    refine ⟨engine, hEngine, ?_⟩
    dsimp only at hPoint
    split at hPoint
    · cases hPoint
    · next key privKey _ =>
      simp only [Client.takeNextId] at hPoint
      split at hPoint
      · cases hPoint
      · next datagram hEncoded =>
        cases hPoint
        exact ⟨_, _, key, privKey, out.salt, hEncoded⟩

/- Only `doRequestV3` itself begins a request's exchange. -/
theorem TaskStep.sends
    {creds : Credentials}
    {attempt : Nat}
    (hStep : TaskStep ssl c t e task')
    (hBefore :
      ∀ task, c.tasks[t]? = some task →
        task.point ≠ .entering x)
    (hPoint : task'.point = .entering x)
    (hWork : task'.work = .v3 creds attempt) :
    ∃ task out, c.tasks[t]? = some task ∧
      task.point = .ensured none ∧ task.work = task'.work ∧
      task.target = task'.target ∧
      task' = (sendRequest ssl out c task creds).2 := by
  cases hStep with
  | @moved out rest task _ c₁ spawned _ hTask hMove =>
      have hRequest :
          ∀ {P : Prop} {d : Nat},
            task.work.discovery? = some d → P := by
        intro P d hDiscovery
        rw [← hMove.kin.discovery, hWork] at hDiscovery
        cases hDiscovery
      cases hMove with
      | beginV2c _ hOther =>
          rcases (startV2c_opening c hOther).work with
            hKept | ⟨_, _, _, hIdentify, _⟩
          · rw [hWork, hOther] at hKept
            cases hKept
          · rw [hOther] at hIdentify
            cases hIdentify
      | beginV3 _ _ =>
          unfold startV3 at hPoint
          split_ifs at hPoint
          all_goals cases hPoint
      | beginIdentify _ hOther =>
          exact hRequest (d := _) (by rw [hOther]; rfl)
      | ensure _ _ hEnsure =>
          rcases ensureEngine_cases hEnsure with
            ⟨_, rfl, _⟩ | ⟨_, _, _, rfl, _⟩ | ⟨_, _, rfl, _⟩
          all_goals cases hPoint
      | park _ _ => cases hPoint
      | fail _ _ => cases hPoint
      | @send creds' attempt' hAt hSame =>
          have hKept :
              (sendRequest ssl out c task creds').2.work =
                task.work := by
            rcases (sendRequest_opening out c hSame).work with
              hKept | ⟨_, _, _, hIdentify, _⟩
            · exact hKept
            · rw [hSame] at hIdentify
              cases hIdentify
          have hCreds := hKept.symm.trans hWork
          rw [hSame] at hCreds
          cases hCreds
          have hSend :
              Move ssl out c task
                (sendRequest ssl out c task creds).1
                (sendRequest ssl out c task creds).2 none :=
            Move.send hAt hSame
          exact ⟨task, out, hTask, hAt, hKept.symm,
            hSend.kin.target.symm, rfl⟩
      | @enter y _ =>
          rcases (enterTransact_entry out c task y).goes with
            ⟨point, hGoes, rfl | rfl | ⟨ec, rfl⟩⟩
          all_goals
            rw [hGoes] at hPoint
            cases hPoint
      | leave _ _ => cases hPoint
      | failed _ =>
          unfold afterFailure at hPoint
          split at hPoint
          all_goals cases hPoint
      | @succeeded _ p _ _ =>
          have hNone := afterSuccess_exchange? c task p
          rw [hPoint] at hNone
          cases hNone
      | beginSync _ hOther =>
          exact hRequest (d := _) (by rw [hOther]; rfl)
      | finish _ _ => cases hPoint
  | spawned _ _ hMove _ =>
      rcases hMove.spawned_eq rfl with ⟨creds, rfl⟩
      cases hPoint
  | requested _ _ => cases hPoint
  | resumed _ _ hResumes =>
      have hNone := hResumes.tags.2.1
      cases hPoint
      cases hNone
  | raised _ _ _ => cases hPoint
  | @signalled _ task _ _ hTask _ _ =>
      refine absurd ?_ (hBefore _ hTask)
      change task.point.signalled = _ at hPoint
      rcases signalled_cases task.point with hSame | hWake
      · rw [← hSame]
        exact hPoint
      · exact Point.eq_of_wake (hWake ▸ hPoint) rfl
  | woken hTask _ _ =>
      exact absurd (Point.eq_of_wake hPoint rfl)
        (hBefore _ hTask)
  | kept hTask _ => exact absurd hPoint (hBefore _ hTask)

/-
  Whenever a request begins an exchange and authenticates,
  its boots and time are those of a synchronised clock.
-/
theorem request_pair_synced
    {id : Int32}
    {now : Int}
    {events : List Event}
    (hRun :
      Machine.run (Machine.guarded (step ssl) sharesSafely)
        (fresh id now) events = some c)
    (hStep : step ssl c e = some c')
    {creds : Credentials}
    {attempt : Nat}
    {x : Exchange}
    (hBefore :
      ∀ task, c.tasks[t]? = some task →
        task.point ≠ .entering x)
    (hTask' : c'.tasks[t]? = some task')
    (hPoint : task'.point = .entering x)
    (hWork : task'.work = .v3 creds attempt)
    (hAuth : creds.level.isAuthenticated = true) :
    ∃ engine,
      c.cache.engineAt task'.target.endpoint = some engine ∧
        SentTo ssl c creds engine x.datagram ∧
        engine.timeSynced = true := by
  rcases (step_task hStep hTask').sends hBefore hPoint hWork
    with ⟨task, out, hTask, hAt, hSame, hTarget, hSent⟩
  rw [hSent] at hPoint
  rcases sendRequest_enters hPoint with
    ⟨engine, hEngine, hSentTo⟩
  rw [← hTarget]
  refine ⟨engine, hEngine, hSentTo, ?_⟩
  have hTrusted :=
    (timed_of_run hRun).relying t task hTask (by
      rw [Task.authenticates_iff, hSame, hWork]
      exact ⟨creds, rfl, hAuth⟩) (Or.inl hAt)
  rcases EngineCache.engineAt_eq_some.mp hEngine with
    ⟨engineId, hIndex, hLookup⟩
  rcases hTrusted engineId hIndex with
    ⟨found, hFound, hSynced⟩
  rw [hLookup] at hFound
  cases hFound
  exact hSynced

/-
  Another request queues behind the discovery of `askedRun`
  and is, when that is over, the first to go on.
-/
def ensuredRun : List Event :=
  askedRun.take 7 ++
    [.request agentTarget (.credentials agentUser)
      upTimeRequest,
    ahead, ahead, ahead] ++
    (askedRun.drop 7).take 12 ++
    [.resume 2]

theorem ensuredRun_sends :
    (Machine.run
      (Machine.guarded (step agentSsl) sharesSafely)
      (fresh 1 0) ensuredRun).bind (fun c =>
        (step agentSsl c ahead).bind (fun c' =>
          (c'.tasks[2]?).bind (fun task' =>
            task'.point.entering?.map (fun _ =>
              (c.tasks.map (fun task => task.point),
                task'.work, task'.target))))) =
      some ([.parked 0 true, .ended, .ensured none],
        .v3 agentUser 0, agentTarget) := by
  decide +kernel

theorem request_pair_synced_sample :
    ∃ c c' x engine,
      Machine.run
          (Machine.guarded (step agentSsl) sharesSafely)
          (fresh 1 0) ensuredRun = some c ∧
        step agentSsl c ahead = some c' ∧
        c.cache.engineAt agentEndpoint = some engine ∧
        SentTo agentSsl c agentUser engine
          (Exchange.datagram x) ∧
        engine.timeSynced = true := by
  rcases Option.bind_eq_some_iff.mp ensuredRun_sends with
    ⟨c, hRun, hState⟩
  rcases Option.bind_eq_some_iff.mp hState with
    ⟨c', hStep, hState⟩
  rcases Option.bind_eq_some_iff.mp hState with
    ⟨task', hTask', hState⟩
  rcases Option.map_eq_some_iff.mp hState with
    ⟨x, hEntering, hFound⟩
  simp only [Prod.mk.injEq] at hFound
  rcases hFound with ⟨hBefore, hWork, hTarget⟩
  have hPoint : task'.point = .entering x := by
    cases hAt : task'.point with
    | entering y =>
        rw [hAt] at hEntering
        cases hEntering
        rfl
    | _ =>
        rw [hAt] at hEntering
        cases hEntering
  have hOther :
      ∀ task, c.tasks[2]? = some task →
        task.point ≠ .entering x := by
    intro task hTask hAt
    have hPoints := congrArg (fun points => points[2]?) hBefore
    rw [List.getElem?_map, hTask, Option.map_some, hAt]
      at hPoints
    cases hPoints
  rcases request_pair_synced hRun hStep hOther hTask' hPoint
    hWork rfl with ⟨engine, hEngine, hSent, hSynced⟩
  rw [hTarget] at hEngine
  exact ⟨c, c', x, engine, hRun, hStep, hEngine, hSent,
    hSynced⟩

/-
  A request queues behind the discovery that the guest's has
  started.  It ends without a time-sync phase.
-/
def mixedRun : List Event :=
  [ .request agentTarget (.credentials guest) upTimeRequest,
    ahead, ahead, ahead, ahead, ahead,
    .sent 1 none,
    .request agentTarget (.credentials agentUser)
      upTimeRequest,
    ahead, ahead, ahead,
    .receive agentEndpoint
      (agentMessage agentSsl .noAuthNoPriv 1
        { agentUsm with userName := [] }
        (usmReport usmStatsUnknownEngineIds)),
    .resume 1, ahead, ahead, ahead,
    .resume 2]

/-
  It then sends a signed message with the pair that the
  unsigned reply had.
-/
theorem request_pair_unsynced :
    (Machine.run (step agentSsl) (fresh 1 0) mixedRun).bind
      (fun c => (step agentSsl c ahead).bind (fun c' =>
        (c'.tasks[2]?).bind (fun task' =>
          task'.point.entering?.map (fun _ =>
            (task'.work,
              (c.tasks[2]?).map (fun task => task.point),
              (c.cache.engineAt agentEndpoint).map
                (fun engine => (engine.boots, engine.time,
                  engine.timeSynced))))))) =
      some (.v3 agentUser 0, some (.ensured none),
        some (5, 1000, false)) := by
  decide +kernel

end Snmpio
