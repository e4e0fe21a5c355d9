import Snmpio.Client.Sharing

/-
  The Engine that a request finds at its endpoint.

  `doRequestV3` looks its Engine up again after it has
  waited for a discovery.  Another request may have been
  told in the meantime that the Engine is unknown, and
  handling that Report erases the entry.

  Key definitions include:
    * `Task.forgets`
    * `keepsKnown`
    * `Findable`

  Key theorems include:
    * `step_known`
    * `findable_of_run`
    * `engine_found`
    * `engine_forgotten`
-/

------------------------------------------------------------
-- Forgetting
------------------------------------------------------------

namespace Snmpio

variable {ssl : OpenSsl} {c c' : Client}
variable {endpoint : Endpoint}

/- The index has an Engine for an endpoint. -/
def Known
    (cache : EngineCache)
    (endpoint : Endpoint) : Prop :=
  ∃ engineId, cache.index.lookup endpoint = some engineId

/-
  A Report that names another Engine, or an unsigned one
  that says the time is wrong.
-/
def Pending.disowns
    (p : Pending) : Bool :=
  (usmStatsCounter p.response).any (fun counter =>
    counter = usmStatsUnknownEngineIds ∨
      (counter = usmStatsNotInTimeWindows ∧
        ¬ p.replyAuthenticated))

/- A request forgets its Engine in order to ask again. -/
def Task.forgets
    (task : Task)
    (p : Pending) : Bool :=
  match task.work with
  | .v3 _ attempt =>
      attempt = 0 ∧ p.response.type = .report ∧ p.disowns
  | _ => false

theorem EngineCache.setEngineAt_index
    (cache : EngineCache)
    (engine : EngineState) :
    (cache.setEngineAt endpoint engine).index =
      cache.index := by
  unfold EngineCache.setEngineAt
  split
  · rfl
  · rfl

theorem EngineCache.observeEngineTime_index
    (cache : EngineCache)
    (now : Int)
    (security : UsmParameters) :
    (cache.observeEngineTime now endpoint security).index =
      cache.index := by
  rcases EngineCache.observeEngineTime_cases now endpoint
    security with hSame | ⟨_, _, _, _, _, hWrite⟩
  · rw [hSame]
  · rw [hWrite]

theorem handleReport_index
    (cache : EngineCache)
    (now : Int)
    (p : Pending)
    (mayRetry : Bool) :
    (handleReport cache now endpoint p mayRetry).2.index =
        cache.index ∨
      (mayRetry = true ∧ p.disowns = true ∧
        (handleReport cache now endpoint p
          mayRetry).2.index = cache.index.erase endpoint) := by
  unfold handleReport Pending.disowns
  split
  · exact Or.inl rfl
  · next counter hCounter =>
    split
    · exact Or.inl rfl
    · next hFirst =>
      split
      · exact Or.inl rfl
      · next hOther =>
        split
        · next hErases =>
          right
          refine ⟨by simpa using hFirst, ?_, rfl⟩
          rw [hCounter, Option.any_some, decide_eq_true_eq]
          by_cases hUnknown : counter = usmStatsUnknownEngineIds
          · exact Or.inl hUnknown
          · refine Or.inr
              ⟨?_, hErases.resolve_right hUnknown⟩
            by_contra hNot
            exact hOther ⟨hNot, hUnknown⟩
        · left
          split
          · exact cache.observeEngineTime_index now p.security
          · split
            · exact cache.setEngineAt_index _
            · exact cache.observeEngineTime_index now
                p.security

theorem afterAnswer_report
    (c : Client)
    (task : Task)
    (creds : Credentials)
    (attempt : Nat)
    {p : Pending}
    (hReport : p.response.type = .report) :
    (afterAnswer c task creds attempt p).1.cache =
      (handleReport c.cache c.now task.target.endpoint p
        (decide (attempt = 0))).2 := by
  unfold afterAnswer
  rw [if_pos hReport]
  dsimp only
  split
  · rfl
  · split
    · rfl
    · rfl

/- An answer leaves the index alone, or erases an entry. -/
theorem afterAnswer_index
    (c : Client)
    (task : Task)
    {creds : Credentials}
    {attempt : Nat}
    (hWork : task.work = .v3 creds attempt)
    (p : Pending) :
    (afterAnswer c task creds attempt p).1.cache.index =
        c.cache.index ∨
      (task.forgets p = true ∧
        (afterAnswer c task creds attempt p).1.cache.index =
          c.cache.index.erase task.target.endpoint) := by
  by_cases hReport : p.response.type = .report
  · rw [afterAnswer_report c task creds attempt hReport]
    rcases handleReport_index c.cache c.now p
      (decide (attempt = 0)) with
      hKept | ⟨hFirst, hDisowns, hErased⟩
    · exact Or.inl hKept
    · right
      refine ⟨?_, hErased⟩
      rw [Task.forgets, hWork]
      simpa [hReport, hDisowns] using hFirst
  · left
    unfold afterAnswer
    rw [if_neg hReport]
    dsimp only
    split
    · exact EngineCache.observeEngineTime_index _ _ _
    · rfl

theorem Known.write
    (hKnown : Known c.cache endpoint)
    (task : Task)
    (p : Pending) :
    Known (afterSuccess c task p).1.cache endpoint ∨
      (task.forgets p = true ∧
        task.target.endpoint = endpoint) := by
  unfold afterSuccess
  split
  · exact Or.inl hKnown
  · next creds attempt hWork =>
    rcases afterAnswer_index c task hWork p with
      hSame | ⟨hForgets, hErased⟩
    · left
      rw [Known, hSame]
      exact hKnown
    · by_cases hHere : task.target.endpoint = endpoint
      · exact Or.inr ⟨hForgets, hHere⟩
      · left
        rw [Known, hErased,
          AList.lookup_erase_ne (Ne.symm hHere)]
        exact hKnown
  · left
    unfold afterIdentify
    dsimp only
    split_ifs
    · exact hKnown
    all_goals
      change Known (c.cache.recordIdentity c.now
        task.target.endpoint p.security) endpoint
      by_cases hHere : endpoint = task.target.endpoint
      · rw [hHere]
        exact ⟨_, recordIdentity_index _ _ _ _⟩
      · rcases hKnown with ⟨engineId, hIndex⟩
        exact ⟨engineId,
          (AList.lookup_insert_ne hHere).trans hIndex⟩
  · left
    unfold afterSync
    split_ifs
    all_goals exact hKnown

/- An Engine is forgotten because of such a Report only. -/
theorem step_known
    {e : Event}
    (hStep : step ssl c e = some c')
    (hKnown : Known c.cache endpoint) :
    Known c'.cache endpoint ∨
      ∃ t task x p, (∃ out, e = .advance out) ∧
        TakesUp c t task x p ∧ task.forgets p = true ∧
        task.target.endpoint = endpoint := by
  have hSame (hCache : c'.cache = c.cache) :
      Known c'.cache endpoint := by
    rw [hCache]
    exact hKnown
  cases step_cases hStep with
  | advanced hStrand hTask hMove =>
      rw [settle_cache] at hSame ⊢
      cases hMove.effect with
      | aside hAside => exact Or.inl (hSame hAside.cache)
      | discovers _ _ => exact Or.inl (hSame rfl)
      | @writes x p hPoint hp =>
          rcases hKnown.write _ p with hAfter | hForgets
          · exact Or.inl hAfter
          · exact Or.inr ⟨_, _, x, p, ⟨_, rfl⟩,
              ⟨⟨_, hStrand⟩, hTask, hPoint, hp⟩, hForgets⟩
      | finishes _ _ => exact Or.inl (hSame rfl)
  | requested _ => exact Or.inl (hSame rfl)
  | received _ =>
      rcases receive_nudged ssl c _ _ with
        ⟨pendings, hNudged⟩
      exact Or.inl (hSame hNudged.cache)
  | resumed _ _ _ => exact Or.inl (hSame rfl)
  | raised _ _ _ _ => exact Or.inl (hSame rfl)
  | signalled _ _ _ _ => exact Or.inl (hSame rfl)
  | nudged hNudged => exact Or.inl (hSame hNudged.cache)

end Snmpio

------------------------------------------------------------
-- The Invariant of the Index
------------------------------------------------------------

namespace Snmpio

variable {ssl : OpenSsl} {c c' : Client} {t : Nat}
variable {task task' : Task} {e : Event}

/- What the index names, the table of Engines has. -/
def Indexed
    (cache : EngineCache) : Prop :=
  ∀ endpoint engineId,
    cache.index.lookup endpoint = some engineId →
      ∃ engine, cache.engines.lookup engineId = some engine

theorem Indexed.write
    (hIndexed : Indexed c.cache)
    {p : Pending}
    {cache : EngineCache}
    (hWrite : ReplyWrite c task p cache) :
    Indexed cache := by
  intro endpoint engineId hIndex
  rcases hWrite.index hIndex with
    hOld | ⟨_, rfl, creds, d, hWork⟩
  · rcases hIndexed endpoint engineId hOld with
      ⟨engine, hEngine⟩
    rcases hWrite.entry engineId with
      hSame | ⟨after, hAfter, _⟩
    · rw [hSame]
      exact ⟨engine, hEngine⟩
    · exact ⟨after, hAfter⟩
  · cases hWrite with
    | none => exact hIndexed endpoint _ hIndex
    | identified _ _ => exact ⟨_, AList.lookup_insert _⟩
    | answered hOther _ =>
        rw [hWork] at hOther
        cases hOther
    | based hOther _ _ =>
        rw [hWork] at hOther
        cases hOther

theorem indexed_of_run
    {id : Int32}
    {now : Int}
    {events : List Event}
    (hRun :
      Machine.run (step ssl) (fresh id now) events = some c) :
    Indexed c.cache := by
  refine Machine.run_invariant
    (P := fun _ c => Indexed c.cache) ?_ ?_ hRun
  · intro endpoint engineId hIndex
    cases hIndex
  · intro events c e c' _ ih hStep
    rcases (step_cases hStep).cache with
      hSame | ⟨t, task, x, p, _, _, hWrite⟩
    · rw [hSame]
      exact ih
    · exact ih.write hWrite

/-
  A discovery that has the identity of an Engine, and a
  request queued behind one that has ended well, count on
  the endpoint's entry.
-/
def Client.countsOn
    (c : Client)
    (task : Task) : Bool :=
  task.syncs?.isSome ||
    task.behind?.any (fun d =>
      c.discoveries[d]? =
        some ({ finished := true } : Discovery))

/- No Engine is forgotten that somebody counts on. -/
def keepsKnown
    (c : Client) :
    Event → Bool
| .advance _ =>
    c.takenUp.all (fun found =>
      !found.2.1.forgets found.2.2.2 ||
        c.tasks.all (fun task =>
          !c.countsOn task ||
            found.2.1.target.endpoint ≠
              task.target.endpoint))
| _ => true

/- Whoever counts on an Engine at an endpoint finds it. -/
structure Findable
    (c : Client) : Prop where
  relying :
    ∀ (t : Nat) (task : Task), c.tasks[t]? = some task →
      task.point.relies = true →
        Known c.cache task.target.endpoint
  counting :
    ∀ (t : Nat) (task : Task), c.tasks[t]? = some task →
      c.countsOn task = true →
        Known c.cache task.target.endpoint

theorem step_countedOn
    (hOk : keepsKnown c e = true)
    (hStep : step ssl c e = some c')
    (hTask : c.tasks[t]? = some task)
    (hCounts : c.countsOn task = true)
    (hKnown : Known c.cache task.target.endpoint) :
    Known c'.cache task.target.endpoint := by
  rcases step_known hStep hKnown with
    hAfter | ⟨i, taker, x, p, ⟨out, rfl⟩, hTakes, hForgets,
      hHere⟩
  · exact hAfter
  · have hTaken := hTakes.takenUp
    simp only [keepsKnown, hTaken, Option.all_some,
      hForgets, Bool.not_true, Bool.false_or] at hOk
    have hOne := List.all_eq_true.mp hOk task
      (List.mem_of_getElem? hTask)
    simp [hCounts, hHere] at hOne

/- What a reply leads to, it leads to with an Engine. -/
theorem Learns.known_index
    {p : Pending}
    {cache : EngineCache}
    {point : Point}
    (hLearns : Learns c task p cache point)
    (hSyncs :
      ∀ creds d engineId, task.work = .sync creds d engineId →
        Known c.cache task.target.endpoint) :
    Known cache task.target.endpoint := by
  cases hLearns with
  | unsigned _ hIndex _ => exact ⟨_, hIndex⟩
  | known _ hIndex _ _ => exact ⟨_, hIndex⟩
  | named _ hIndex => exact ⟨_, hIndex⟩
  | based hWork hCache =>
      rw [hCache]
      exact hSyncs _ _ _ hWork

/- Whom a queue has, it had before, or it is open. -/
theorem DiscoveryStep.behind
    (hDiscovery : DiscoveryStep c e c')
    (hAttended : Attended c)
    {d : Nat}
    (hTask' : c'.tasks[t]? = some task')
    (hBehind : task'.behind? = some d) :
    (∃ task, c.tasks[t]? = some task ∧
        task.behind? = some d ∧
        task'.target = task.target) ∨
      ∃ discovery, c'.discoveries[d]? = some discovery ∧
        discovery.isOpen = true := by
  cases hDiscovery with
  | continued hContinues hWaits =>
      rcases hContinues.before hTask' with
        ⟨task, hTask, hKeeps⟩ | ⟨_, hNone⟩
      · exact Or.inl ⟨task, hTask,
          (hWaits t task task' hTask hTask').behind d hBehind,
          hKeeps.target⟩
      · rw [hNone] at hBehind
        cases hBehind
  | joined _ _ _ _ _ _ hFound hContinues hTasks =>
      rw [hTasks] at hTask'
      rcases getElem?_set_cases hTask' with
        ⟨_, rfl⟩ | ⟨_, hOther⟩
      · cases hBehind
        rw [hContinues.discoveries]
        exact Or.inr (hAttended.unfinished _ d hFound)
      · exact Or.inl ⟨task', hOther, hBehind, rfl⟩
  | began _ _ _ _ _ _ _ hDiscoveries hTasks =>
      rw [hTasks] at hTask'
      rcases getElem?_concat_cases hTask' with
        hOld | ⟨_, rfl⟩
      · rcases getElem?_set_cases hOld with
          ⟨_, rfl⟩ | ⟨_, hOther⟩
        · cases hBehind
          rw [hDiscoveries]
          exact Or.inr ⟨{}, by simp, rfl⟩
        · exact Or.inl ⟨task', hOther, hBehind, rfl⟩
      · cases hBehind
  | @ended i d' _ _ _ _ _ _ _ =>
      rcases finish_task hTask' with
        ⟨_, rfl⟩ | ⟨_, before, hBefore, rfl⟩
      · cases hBehind
      · have hNudged := Task.wakeOn_nudged [.done d'] before
        exact Or.inl ⟨before, hBefore,
          (Task.Waits.of_point hNudged.point).behind d
            hBehind, hNudged.target⟩

theorem Findable.relying_step
    (hFindable : Findable c)
    (hShape : StrandShape c)
    (hStep : step ssl c e = some c')
    (hTask' : c'.tasks[t]? = some task')
    (hRelies : task'.point.relies = true) :
    Known c'.cache task'.target.endpoint := by
  obtain ⟨hRuns, hParking, hStart⟩ :
      task'.point.runs = true ∧
        (∀ d, task'.point ≠ .parking d) ∧
        task'.point ≠ .start := by
    cases hPoint : task'.point with
    | ensured ec => simp [Point.runs]
    | syncing engineId => simp [Point.runs]
    | finishing ec => simp [Point.runs]
    | _ =>
        rw [hPoint] at hRelies
        cases hRelies
  cases step_running hStep hShape hTask' hRuns hParking with
  | @moved _ _ task c₁ _ _ _ hTask hMove hCache =>
      rw [hCache, hMove.kin.target]
      by_cases hEnsured : task'.point = .ensured none
      · rcases hMove.ready hEnsured with ⟨creds, _, hReady⟩
        rcases (Option.any_eq_true _ _).mp hReady with
          ⟨engine, hEngine, _⟩
        rcases EngineCache.engineAt_eq_some.mp hEngine with
          ⟨engineId, hIndex, _⟩
        exact ⟨engineId, hIndex⟩
      · have hLearns :
            task'.point = .finishing none ∨
              ∃ engineId, task'.point = .syncing engineId := by
          cases hPoint : task'.point with
          | ensured ec =>
              cases ec with
              | none => exact absurd hPoint hEnsured
              | some error =>
                  rw [hPoint] at hRelies
                  cases hRelies
          | syncing engineId => exact Or.inr ⟨engineId, rfl⟩
          | finishing ec =>
              cases ec with
              | none => exact Or.inl rfl
              | some error =>
                  rw [hPoint] at hRelies
                  cases hRelies
          | _ =>
              rw [hPoint] at hRelies
              cases hRelies
        rcases hMove.learns hLearns with
          ⟨x, p, hReturned, _, hLearns⟩
        refine hLearns.known_index ?_
        intro creds d engineId hWork
        refine hFindable.counting t task hTask ?_
        rw [Client.countsOn, Task.syncs?_of_sync hWork
          (by rw [hReturned]; rfl)]
        rfl
  | @stayed task hTask hSame hWork hTarget hCache =>
      rw [hCache, hTarget]
      exact hFindable.relying t task hTask (hSame ▸ hRelies)
  | @resumed task point hTask hResumes hGoes hCache =>
      subst hGoes
      rcases hResumes.relies hRelies with
        ⟨d, hParked, _, _, _, hFinished⟩
      rw [hCache]
      refine hFindable.counting t task hTask ?_
      simp [Client.countsOn, Task.behind?, hParked,
        Point.behind?, hFinished]
  | started hNew => exact absurd hNew hStart

theorem Findable.counting_step
    (hFindable : Findable c)
    (hAttended : Attended c)
    (hShape : StrandShape c)
    (hJoined : Joined (fun _ _ => true) c)
    (hPlaced :
      ∀ (t : Nat) (task : Task), c.tasks[t]? = some task →
        task.Placed)
    (hOk : keepsKnown c e = true)
    (hStep : step ssl c e = some c')
    (hTask' : c'.tasks[t]? = some task')
    (hCounts : c'.countsOn task' = true) :
    Known c'.cache task'.target.endpoint := by
  have hBefore {task : Task}
      (hTask : c.tasks[t]? = some task)
      (hCounts : c.countsOn task = true)
      (hTarget : task'.target = task.target) :
      Known c'.cache task'.target.endpoint := by
    rw [hTarget]
    exact step_countedOn hOk hStep hTask hCounts
      (hFindable.counting t task hTask hCounts)
  rw [Client.countsOn, Bool.or_eq_true] at hCounts
  rcases hCounts with hSyncs | hQueued
  · rcases Option.isSome_iff_exists.mp hSyncs with
      ⟨engineId, hSyncs⟩
    unfold Task.syncs? at hSyncs
    split at hSyncs
    · split at hSyncs
      · next hPoint =>
        exact hFindable.relying_step hShape hStep hTask'
          (by rw [hPoint]; rfl)
      · cases hSyncs
    · next hWork =>
      split at hSyncs
      · cases hSyncs
      · next hLive =>
        rw [Bool.not_eq_true] at hLive
        rcases (step_task hStep hTask').syncs hWork hLive with
          ⟨task, hTask, hSyncsBefore, hTarget⟩
        refine hBefore hTask ?_ hTarget
        rw [Client.countsOn, hSyncsBefore]
        rfl
    · cases hSyncs
  · rcases (Option.any_eq_true _ _).mp hQueued with
      ⟨d, hBehind', hFinished⟩
    rw [decide_eq_true_eq] at hFinished
    have hDiscovery := step_discovery hStep hPlaced
    rcases hDiscovery.behind hAttended hTask' hBehind' with
      ⟨task, hTask, hBehind, hTarget⟩ |
      ⟨discovery, hFound, hOpen⟩
    · rcases hDiscovery.finished hFinished with
        hOver | ⟨i, runner, rest, hRunner, hRuns, hEnd, rfl⟩
      · refine hBefore hTask ?_ hTarget
        simp [Client.countsOn, hBehind, hOver]
      · -- It ends here, and well, for all its queue.
        rw [hTarget, ← (hJoined.queued t i task runner d
          hTask hBehind hRunner hRuns).endpoint]
        exact hFindable.relying i runner hRunner
          (by rw [hEnd]; rfl)
    · rw [hFinished] at hFound
      cases hFound
      cases hOpen

/- It holds in every run in which no such Report comes. -/
theorem findable_of_run
    {id : Int32}
    {now : Int}
    {events : List Event}
    (hRun :
      Machine.run (Machine.guarded (step ssl) keepsKnown)
        (fresh id now) events = some c) :
    Findable c := by
  have hJoins :
      ∀ c e, keepsKnown c e = true →
        joinsAlike (fun _ _ => true) c e = true := by
    intro c e _
    cases e with
    | advance out =>
        rw [joinsAlike, Option.all_eq_true]
        intro task _
        split
        · rw [Bool.or_eq_true, Option.all_eq_true]
          right
          intro d _
          simp
        · rfl
    | _ => rfl
  refine Machine.run_invariant
    (P := fun _ c => Findable c) ?_ ?_ hRun
  · refine ⟨?_, ?_⟩
    · intro t task hTask
      cases hTask
    · intro t task hTask
      cases hTask
  · intro events c e c' hBefore hFindable hStep
    rcases Machine.guarded_eq_some.mp hStep with ⟨hOk, hStep⟩
    have hJoined :=
      joined_of_run (fun _ => rfl) hJoins hBefore
    have hBefore := Machine.run_of_guarded hBefore
    have hShape := strandShape_of_run hBefore
    refine ⟨?_, ?_⟩
    · intro t task hTask hRelies
      exact hFindable.relying_step hShape hStep hTask hRelies
    · intro t task hTask hCounts
      exact hFindable.counting_step (attended_of_run hBefore)
        hShape hJoined (fun _ _ => placed_of_run hBefore) hOk
        hStep hTask hCounts

/- A request that goes on after `ensureEngine` finds it. -/
theorem engine_found
    {id : Int32}
    {now : Int}
    {events : List Event}
    (hRun :
      Machine.run (Machine.guarded (step ssl) keepsKnown)
        (fresh id now) events = some c)
    (hTask : c.tasks[t]? = some task)
    (hPoint : task.point = .ensured none) :
    ∃ engine,
      c.cache.engineAt task.target.endpoint =
        some engine := by
  rcases (findable_of_run hRun).relying t task hTask
    (by rw [hPoint]; rfl) with ⟨engineId, hIndex⟩
  rcases indexed_of_run (Machine.run_of_guarded hRun) _ _
    hIndex with ⟨engine, hEngine⟩
  exact ⟨engine, EngineCache.engineAt_eq_some.mpr
    ⟨engineId, hIndex, hEngine⟩⟩

theorem ensuredRun_known :
    (Machine.run
      (Machine.guarded (step agentSsl) keepsKnown)
      (fresh 1 0) ensuredRun).bind (fun c =>
        (c.tasks[2]?).map (fun task =>
          (task.target.endpoint, task.point))) =
      some (agentEndpoint, .ensured none) := by
  decide +kernel

theorem engine_found_sample :
    ∃ c engine,
      Machine.run
          (Machine.guarded (step agentSsl) keepsKnown)
          (fresh 1 0) ensuredRun = some c ∧
        c.cache.engineAt agentEndpoint = some engine := by
  rcases Option.bind_eq_some_iff.mp ensuredRun_known with
    ⟨c, hRun, hState⟩
  rcases Option.map_eq_some_iff.mp hState with
    ⟨task, hTask, hBoth⟩
  rw [Prod.mk.injEq] at hBoth
  rcases hBoth with ⟨hEndpoint, hPoint⟩
  rcases engine_found hRun hTask hPoint with
    ⟨engine, hEngine⟩
  rw [hEndpoint] at hEngine
  exact ⟨c, engine, hRun, hEngine⟩

/-
  While the discovery is at its time-sync phase, the guest's
  request is told in clear that the Engine is unknown.
-/
def forgottenRun : List Event :=
  askedRun.take 14 ++
    [.request agentTarget (.credentials guest) upTimeRequest,
    ahead, ahead, ahead, ahead,
    .sent 2 none,
    .receive agentEndpoint
      (agentMessage agentSsl .noAuthNoPriv 3 strayUsm
        (usmReport usmStatsUnknownEngineIds)),
    .resume 2, ahead, ahead, ahead, ahead] ++
    (askedRun.drop 14).take 6

/- The discovery succeeds, and its request finds nothing. -/
theorem engine_forgotten :
    (Machine.run (step agentSsl) (fresh 1 0)
      forgottenRun).bind (fun c =>
        (step agentSsl c ahead).bind (fun c' =>
          (c.tasks[0]?).bind (fun task =>
            (c'.tasks[0]?).map (fun task' =>
              (task.point,
                (c.cache.engineAt agentEndpoint).isSome,
                c.discoveries[0]?, task'.point))))) =
      some (.ensured none, false,
        some { finished := true },
        .completed (some (.errc .unknownEngineId)) {}) := by
  decide +kernel

end Snmpio
