import Snmpio.Client.Machine

/-
  What a step of the Client can do.

  Every step moves the running coroutine, resumes one that
  was suspended, begins or ends one, delivers a datagram, or
  changes nothing but flags and waits.  Invariants are
  proved from `step_cases`, and never from `step` itself.

  Key definitions include:
    * `Nudged`
    * `Resumes`
    * `StepCase`
    * `TaskStep`
    * `Opening`, `Entry`, `Afterwards`
    * `Move`, `Effect`

  Key theorems include:
    * `settle_task`
    * `receive_cases`
    * `step_cases`
    * `step_task`
    * `runTask_move`
    * `Move.effect`
    * `Move.write`
-/

------------------------------------------------------------
-- Points
------------------------------------------------------------

namespace Snmpio

namespace Point

/- The exchange a coroutine is in. -/
def exchange? :
    Point → Option Exchange
| entering x => some x
| leaving x => some x
| returned x _ => some x
| sending x => some x
| waiting x _ _ _ => some x
| _ => none

/- Waking does not touch the exchange. -/
@[simp]
theorem wake_exchange?
    (point : Point) :
    point.wake.exchange? = point.exchange? := by
  cases point with
  | _ => rfl

@[simp]
theorem wake_runs
    (point : Point) :
    point.wake.runs = point.runs := by
  cases point with
  | _ => rfl

end Point

/- A task with the same work, woken at most. -/
structure Task.Nudged
    (task task' : Task) : Prop where
  work : task'.work = task.work
  target : task'.target = task.target
  pdu : task'.pdu = task.pdu
  cancelled : task'.cancelled = task.cancelled
  point :
    task'.point = task.point ∨
      task'.point = task.point.wake

namespace Task

theorem Nudged.refl
    (task : Task) :
    task.Nudged task :=
  ⟨rfl, rfl, rfl, rfl, Or.inl rfl⟩

/- A timer at most wakes who waits for it. -/
theorem wakeOn_nudged
    (timers : List Timer)
    (task : Task) :
    task.Nudged (task.wakeOn timers) := by
  unfold wakeOn
  split
  · exact ⟨rfl, rfl, rfl, rfl, Or.inr rfl⟩
  · exact Nudged.refl task

end Task

end Snmpio

------------------------------------------------------------
-- Tasks
------------------------------------------------------------

namespace Snmpio

variable {α : Type} {i : Nat}

/- Coroutines keep their place when one is added. -/
theorem getElem?_append_some
    {l : List α}
    {a : α}
    (hFound : l[i]? = some a)
    (more : List α) :
    (l ++ more)[i]? = some a := by
  rw [List.getElem?_append_left, hFound]
  exact (List.getElem?_eq_some_iff.mp hFound).1

/- The one that moved, or another. -/
theorem getElem?_set_cases
    {l : List α}
    {j : Nat}
    {a found : α}
    (hFound : (l.set i a)[j]? = some found) :
    (j = i ∧ found = a) ∨
      (j ≠ i ∧ l[j]? = some found) := by
  rw [List.getElem?_set] at hFound
  split at hFound
  · next hSame =>
    split at hFound
    · cases hFound
      exact Or.inl ⟨hSame.symm, rfl⟩
    · cases hFound
  · next hOther =>
    exact Or.inr ⟨fun h => hOther h.symm, hFound⟩

/- One of those before, or the new one. -/
theorem getElem?_concat_cases
    {l : List α}
    {a found : α}
    (hFound : (l ++ [a])[i]? = some found) :
    l[i]? = some found ∨ (i = l.length ∧ found = a) := by
  rw [List.getElem?_append] at hFound
  split at hFound
  · exact Or.inl hFound
  · rw [List.getElem?_singleton] at hFound
    split at hFound
    · cases hFound
      exact Or.inr ⟨by omega, rfl⟩
    · cases hFound

/-
  Nothing differs but the sockets, the flags of Stopping,
  the clock, and tasks that were nudged.
-/
structure Nudged
    (c c' : Client) : Prop where
  pending : c'.pending = c.pending
  cache : c'.cache = c.cache
  discovering : c'.discovering = c.discovering
  keys : c'.keys = c.keys
  nextId : c'.nextId = c.nextId
  pendings : c'.pendings = c.pendings
  discoveries : c'.discoveries = c.discoveries
  strand : c'.strand = c.strand
  length : c'.tasks.length = c.tasks.length
  tasks :
    ∀ (t : Nat) (task' : Task), c'.tasks[t]? = some task' →
      ∃ task : Task,
        c.tasks[t]? = some task ∧ task.Nudged task'

/- The flags, the Sockets and the clock are apart. -/
theorem Nudged.aside
    (c : Client)
    (stopping cleanup : Bool)
    (v4 v6 : Option Socket)
    (now : Int) :
    Nudged c
      { c with
        stopping := stopping
        cleanup := cleanup
        v4 := v4
        v6 := v6
        now := now } where
  pending := rfl
  cache := rfl
  discovering := rfl
  keys := rfl
  nextId := rfl
  pendings := rfl
  discoveries := rfl
  strand := rfl
  length := rfl
  tasks := fun _ task hTask =>
    ⟨task, hTask, Task.Nudged.refl task⟩

/- One coroutine is woken. -/
theorem Nudged.set
    {c : Client}
    {t : Nat}
    {task task' : Task}
    (hTask : c.tasks[t]? = some task)
    (hNudged : task.Nudged task') :
    Nudged c { c with tasks := c.tasks.set t task' } where
  pending := rfl
  cache := rfl
  discovering := rfl
  keys := rfl
  nextId := rfl
  pendings := rfl
  discoveries := rfl
  strand := rfl
  length := List.length_set
  tasks := by
    intro i found hFound
    rcases getElem?_set_cases hFound with
      ⟨rfl, rfl⟩ | ⟨_, hOther⟩
    · exact ⟨task, hTask, hNudged⟩
    · exact ⟨found, hOther, Task.Nudged.refl found⟩

/- Whoever waits for one of the timers is woken. -/
theorem cancelTimers_tasks
    {c : Client}
    {timers : List Timer}
    {t : Nat}
    {task' : Task}
    (hTask : (c.cancelTimers timers).tasks[t]? = some task') :
    ∃ task, c.tasks[t]? = some task ∧
      task' = task.wakeOn timers := by
  simp only [Client.cancelTimers, List.getElem?_map,
    Option.map_eq_some_iff] at hTask
  rcases hTask with ⟨task, hTask, hWoken⟩
  exact ⟨task, hTask, hWoken.symm⟩

theorem Nudged.cancelTimers
    (c : Client)
    (timers : List Timer) :
    Nudged c (c.cancelTimers timers) where
  pending := rfl
  cache := rfl
  discovering := rfl
  keys := rfl
  nextId := rfl
  pendings := rfl
  discoveries := rfl
  strand := rfl
  length := List.length_map _
  tasks := by
    intro t task' hTask
    rcases cancelTimers_tasks hTask with ⟨task, hFound, rfl⟩
    exact ⟨task, hFound, Task.wakeOn_nudged timers task⟩

/- Where the tasks are once one has moved. -/
theorem settle_task
    {c : Client}
    {t : Nat}
    {rest : List Nat}
    {task : Task}
    {spawned : Option Task}
    {found : Task}
    (hFound :
      (c.settle t rest task spawned).tasks[i]? =
        some found) :
    (i = t ∧ found = task) ∨
      (i ≠ t ∧ c.tasks[i]? = some found) ∨
      (i = c.tasks.length ∧ spawned = some found) := by
  have hPlaced :
      ∀ found, (c.tasks.set t task)[i]? = some found →
        (i = t ∧ found = task) ∨
          (i ≠ t ∧ c.tasks[i]? = some found) ∨
          (i = c.tasks.length ∧ spawned = some found) := by
    intro found hFound
    rcases getElem?_set_cases hFound with hMoved | hOther
    · exact Or.inl hMoved
    · exact Or.inr (Or.inl hOther)
  cases spawned with
  | none => exact hPlaced found hFound
  | some other =>
      rcases getElem?_concat_cases hFound with
        hOld | ⟨hLast, rfl⟩
      · exact hPlaced found hOld
      · right
        right
        refine ⟨?_, rfl⟩
        rw [hLast]
        exact List.length_set

section

variable (c : Client) (t : Nat) (rest : List Nat)
variable (task : Task) (spawned : Option Task)

/- Nothing changes but the coroutines and the strand. -/
theorem settle_frame
    {f : Client → α}
    (hFrame :
      ∀ (c : Client) (tasks : List Task) (strand : List Nat),
        f { c with tasks := tasks, strand := strand } = f c) :
    f (c.settle t rest task spawned) = f c := by
  cases spawned with
  | none => exact hFrame c _ _
  | some other => exact hFrame c _ _

theorem settle_cache :
    (c.settle t rest task spawned).cache = c.cache :=
  settle_frame c t rest task spawned (fun _ _ _ => rfl)

theorem settle_keys :
    (c.settle t rest task spawned).keys = c.keys :=
  settle_frame c t rest task spawned (fun _ _ _ => rfl)

theorem settle_pendings :
    (c.settle t rest task spawned).pendings = c.pendings :=
  settle_frame c t rest task spawned (fun _ _ _ => rfl)

theorem settle_discoveries :
    (c.settle t rest task spawned).discoveries =
      c.discoveries :=
  settle_frame c t rest task spawned (fun _ _ _ => rfl)

theorem settle_nextId :
    (c.settle t rest task spawned).nextId = c.nextId :=
  settle_frame c t rest task spawned (fun _ _ _ => rfl)

theorem settle_slot
    (v6 : Bool) :
    (c.settle t rest task spawned).slot v6 = c.slot v6 :=
  settle_frame c t rest task spawned (f := (Client.slot · v6))
    (fun _ _ _ => rfl)

end

/- A coroutine is put back, and the others stay. -/
theorem place_task
    {c : Client}
    {t : Nat}
    {rest : List Nat}
    {task : Task}
    {found : Task}
    (hFound : (c.place t rest task).tasks[i]? = some found) :
    (i = t ∧ found = task) ∨
      (i ≠ t ∧ c.tasks[i]? = some found) := by
  have hSettled :
      (c.settle t rest task none).tasks[i]? = some found :=
    hFound
  rcases settle_task hSettled with
    hMoved | hOther | ⟨_, hNone⟩
  · exact Or.inl hMoved
  · exact Or.inr hOther
  · cases hNone

end Snmpio

------------------------------------------------------------
-- Deliveries
------------------------------------------------------------

namespace Snmpio

variable {ssl : OpenSsl} {c : Client}

/- The exchange that a datagram names, and its verdict. -/
def Client.route
    (ssl : OpenSsl)
    (c : Client)
    (datagram : Octets)
    (sender : Endpoint) :
    Option (Nat × Pending × Verdict) := do
  let version ← messageVersion datagram
  if version = versionV2c then
    let msg ← (decodeV2cMessage datagram).1
    if msg.pdu.type ≠ .response then none
    else
      let (ref, p) ← c.findPending msg.pdu.requestId
      some (ref, p, judgeV2c p sender msg)
  else if version = versionV3 then
    let msg ← (decodeV3Message datagram).1
    let (ref, p) ← c.findPending msg.header.msgId
    some (ref, p,
      judgeV3 ssl c.cache c.now p datagram sender msg)
  else none

/- A datagram is judged first, and then acted upon. -/
theorem receive_eq_route
    (ssl : OpenSsl)
    (c : Client)
    (datagram : Octets)
    (sender : Endpoint) :
    c.receive ssl datagram sender =
      match c.route ssl datagram sender with
      | none => c
      | some (ref, p, verdict) =>
          c.applyVerdict ref p verdict := by
  unfold Client.receive Client.route
  cases messageVersion datagram with
  | none => rfl
  | some version =>
      simp only [Option.bind_eq_bind, Option.bind_some]
      split
      · unfold Client.deliverV2c
        cases (decodeV2cMessage datagram).1 with
        | none => rfl
        | some msg =>
            simp only [Option.bind_some]
            split
            · rfl
            · cases c.findPending msg.pdu.requestId with
              | none => rfl
              | some found => rfl
      · split
        · unfold Client.deliverV3
          cases (decodeV3Message datagram).1 with
          | none => rfl
          | some msg =>
              simp only [Option.bind_some]
              cases c.findPending msg.header.msgId with
              | none => rfl
              | some found => rfl
        · rfl

/- Every id leads to an exchange of that id. -/
def Registered
    (c : Client) : Prop :=
  ∀ key ref, c.pending.lookup key = some ref →
    ∃ p, c.pendings[ref]? = some p ∧ p.requestId = key

/- What a datagram did to the exchange it named. -/
inductive Delivered
    (ssl : OpenSsl)
    (sender : Endpoint)
    (datagram : Octets)
    (p p' : Pending) : Prop where
  | dropped
      (hSame : ∃ e, p' = { p with dropReason := some e })
  | accepted
      (hAsked : p'.asked = p.asked)
      (hAnswered : p'.answered = true)
      (hReply : Answered ssl p' sender datagram)

/- Who is found has asked under this id. -/
theorem findPending_spec
    (hRegistered : Registered c)
    {key : Int32}
    {ref : Nat}
    {p : Pending}
    (hFound : c.findPending key = some (ref, p)) :
    c.pendings[ref]? = some p ∧ p.requestId = key := by
  simp only [Client.findPending, Option.bind_eq_bind,
    Option.pure_def, Option.bind_eq_some_iff,
    Option.some.injEq, Prod.mk.injEq] at hFound
  rcases hFound with ⟨ref', hRef, p', hp, rfl, rfl⟩
  rcases hRegistered key ref' hRef with ⟨q, hq, hKey⟩
  rw [hp] at hq
  cases hq
  exact ⟨hp, hKey⟩

/-
  One exchange at most is touched, and then the wait on its
  timer.
-/
def DeliveredTo
    (ssl : OpenSsl)
    (sender : Endpoint)
    (datagram : Octets)
    (c c' : Client) : Prop :=
  c' = c ∨
    ∃ ref p p', c.pendings[ref]? = some p ∧
      Delivered ssl sender datagram p p' ∧
      Nudged { c with pendings := c.pendings.set ref p' } c'

/- An accepted reply is stored, another dropped. -/
theorem applyVerdict_cases
    {ref : Nat}
    {p : Pending}
    (hp : c.pendings[ref]? = some p)
    {verdict : Verdict}
    {sender : Endpoint}
    {datagram : Octets}
    (hAccept :
      ∀ p', verdict = .accept p' →
        Delivered ssl sender datagram p p') :
    DeliveredTo ssl sender datagram c
      (c.applyVerdict ref p verdict) := by
  cases verdict with
  | drop reason =>
      cases reason with
      | none => exact Or.inl rfl
      | some e =>
          right
          exact ⟨ref, p, _, hp, Delivered.dropped ⟨e, rfl⟩,
            Nudged.aside _ _ _ _ _ _⟩
  | accept p' =>
      right
      exact ⟨ref, p, p', hp, hAccept p' rfl,
        Nudged.cancelTimers _ _⟩

/- The Community path, up to what it stores. -/
theorem deliverV2c_cases
    (hRegistered : Registered c)
    (datagram : Octets)
    (sender : Endpoint) :
    DeliveredTo ssl sender datagram c
      (c.deliverV2c datagram sender) := by
  unfold Client.deliverV2c
  split
  · exact Or.inl rfl
  · next msg hDecoded =>
    split_ifs with hType
    · exact Or.inl rfl
    · rw [ne_eq, not_not] at hType
      split
      · exact Or.inl rfl
      · next ref p hFound =>
        rcases findPending_spec hRegistered hFound with
          ⟨hp, hKey⟩
        apply applyVerdict_cases hp
        intro p' hAccept
        rcases judgeV2c_accept hDecoded hType hKey.symm
          hAccept with ⟨hAsked, hAnswered, _, hReply⟩
        exact Delivered.accepted hAsked hAnswered hReply

/- The USM path, up to what it stores. -/
theorem deliverV3_cases
    (hRegistered : Registered c)
    (datagram : Octets)
    (sender : Endpoint) :
    DeliveredTo ssl sender datagram c
      (c.deliverV3 ssl datagram sender) := by
  unfold Client.deliverV3
  split
  · exact Or.inl rfl
  · next msg hDecoded =>
    split
    · exact Or.inl rfl
    · next ref p hFound =>
      rcases findPending_spec hRegistered hFound with
        ⟨hp, hKey⟩
      apply applyVerdict_cases hp
      intro p' hAccept
      rcases judgeV3_accept hDecoded hKey.symm hAccept with
        ⟨hAsked, hAnswered, _, hReply⟩
      exact Delivered.accepted hAsked hAnswered hReply

/- A datagram is ignored, or delivered to one exchange. -/
theorem receive_cases
    (hRegistered : Registered c)
    (datagram : Octets)
    (sender : Endpoint) :
    DeliveredTo ssl sender datagram c
      (c.receive ssl datagram sender) := by
  unfold Client.receive
  split
  · exact Or.inl rfl
  · split_ifs with hV2c hV3
    · exact deliverV2c_cases hRegistered datagram sender
    · exact deliverV3_cases hRegistered datagram sender
    · exact Or.inl rfl

end Snmpio

------------------------------------------------------------
-- Moves
------------------------------------------------------------

namespace Snmpio

variable {ssl : OpenSsl} {task task' : Task}
variable {creds : Credentials} {d : Nat} {c c' : Client}
variable {out : Outside} {spawned : Option Task}

/-
  Ids, keys, sockets and exchanges may differ, but not the
  Engines, the discoveries or the coroutines.
-/
structure Aside
    (c c' : Client) : Prop where
  stopping : c'.stopping = c.stopping
  cleanup : c'.cleanup = c.cleanup
  cache : c'.cache = c.cache
  discovering : c'.discovering = c.discovering
  discoveries : c'.discoveries = c.discoveries
  tasks : c'.tasks = c.tasks
  strand : c'.strand = c.strand
  now : c'.now = c.now

theorem Aside.refl
    (c : Client) :
    Aside c c :=
  ⟨rfl, rfl, rfl, rfl, rfl, rfl, rfl, rfl⟩

/- The id that `nextId` issues after this one. -/
def nextAfter
    (id : Int32) : Int32 :=
  if id = Int32.maxValue then 1 else id + 1

/-
  An exchange as it is made: only v3 asks for a digest, and
  only what asks for one has a privacy key.
-/
structure Pending.Fresh
    (p : Pending) : Prop where
  answered : p.answered = false
  dropReason : p.dropReason = none
  unsigned : p.replyAuthenticated = false
  plain : p.v3 = false → p.authRequired = false
  keyless : p.authRequired = false → p.privKey = []

/- Where a coroutine goes that cannot send its message. -/
inductive Work.GivesUp
    (work : Work) :
    Point → Prop where
  | completed
      (e : Errc)
      (hRequest : work.discovery? = none) :
      GivesUp work (.completed (some (.errc e)) {})
  | finishing
      (e : Errc)
      {d : Nat}
      (hDiscovery : work.discovery? = some d) :
      GivesUp work (.finishing (some (.errc e)))

/-
  A coroutine that has a message to send gives up, perhaps
  with an id issued in vain, or opens an exchange.
-/
inductive Opening
    (c : Client)
    (task : Task)
    (keys : KeyCache) :
    Client → Task → Prop where
  | fails
      (nextId : Int32)
      {point : Point}
      (hId :
        nextId = c.nextId ∨ nextId = nextAfter c.nextId)
      (hPoint : task.work.GivesUp point) :
      Opening c task keys
        { c with
          keys := keys
          nextId := nextId }
        (task.goto point)
  | opens
      {datagram : Octets}
      {p : Pending}
      {work : Work}
      (hFresh : p.Fresh)
      (hWork :
        work = task.work ∨
          ∃ creds d engineId,
            task.work = .identify creds d ∧
              task.point = .syncing engineId ∧
              work = .sync creds d engineId) :
      Opening c task keys
        { c with
          keys := keys
          nextId := nextAfter c.nextId
          pendings := c.pendings ++ [p] }
        { task with
          work := work
          point := .entering {
            datagram := datagram
            key := c.nextId
            pending := c.pendings.length } }

/- It fails at once, or has a message to send. -/
theorem startV2c_opening
    (c : Client)
    {community : Octets}
    (hWork : task.work = .v2c community) :
    Opening c task c.keys (startV2c c task community).1
      (startV2c c task community).2 := by
  have hGivesUp (e : Errc) :
      task.work.GivesUp (.completed (some (.errc e)) {}) :=
    .completed e (congrArg Work.discovery? hWork)
  unfold startV2c
  split
  · exact .fails c.nextId (Or.inl rfl) (hGivesUp _)
  · simp only [Client.takeNextId]
    split
    · exact .fails _ (Or.inr rfl) (hGivesUp _)
    · exact .opens
        ⟨rfl, rfl, rfl, fun _ => rfl, fun _ => rfl⟩
        (Or.inl rfl)

/- So does the first message of a discovery, -/
theorem startIdentify_opening
    (out : Outside)
    (c : Client)
    (hWork : task.work = .identify creds d) :
    Opening c task c.keys (startIdentify ssl out c task).1
      (startIdentify ssl out c task).2 := by
  unfold startIdentify
  simp only [Client.takeNextId]
  split
  · exact .fails _ (Or.inr rfl)
      (.finishing _ (congrArg Work.discovery? hWork))
  · exact .opens
      ⟨rfl, rfl, rfl, fun hNot => absurd hNot (by simp),
        fun _ => rfl⟩
      (Or.inl rfl)

/- and the second, which has keys. -/
theorem startSync_opening
    (out : Outside)
    (c : Client)
    {engineId : Octets}
    (hPoint : task.point = .syncing engineId)
    (hWork : task.work = .identify creds d) :
    Opening c task (requestKeys ssl c.keys creds engineId).2
      (startSync ssl out c task creds d engineId).1
      (startSync ssl out c task creds d engineId).2 := by
  have hGivesUp (e : Errc) :
      task.work.GivesUp (.finishing (some (.errc e))) :=
    .finishing e (congrArg Work.discovery? hWork)
  unfold startSync
  rcases requestKeys ssl c.keys creds engineId with
    ⟨found, keys⟩
  dsimp only
  split
  · exact .fails c.nextId (Or.inl rfl) (hGivesUp _)
  · simp only [Client.takeNextId]
    split
    · exact .fails _ (Or.inr rfl) (hGivesUp _)
    · exact .opens
        ⟨rfl, rfl, rfl, fun hNot => absurd hNot (by simp),
          fun hNot => absurd hNot (by simp)⟩
        (Or.inr ⟨creds, d, engineId, hWork, hPoint, rfl⟩)

/- The keys are those of the Engine, if there is one. -/
theorem sendRequest_opening
    (out : Outside)
    (c : Client)
    {attempt : Nat}
    (hWork : task.work = .v3 creds attempt) :
    Opening c task
      ((c.cache.engineAt task.target.endpoint).elim c.keys
        (fun engine =>
          (requestKeys ssl c.keys creds engine.engineId).2))
      (sendRequest ssl out c task creds).1
      (sendRequest ssl out c task creds).2 := by
  have hGivesUp (e : Errc) :
      task.work.GivesUp (.completed (some (.errc e)) {}) :=
    .completed e (congrArg Work.discovery? hWork)
  unfold sendRequest
  cases c.cache.engineAt task.target.endpoint with
  | none => exact .fails c.nextId (Or.inl rfl) (hGivesUp _)
  | some engine =>
      have hKeyless
          (hOpen : creds.level.isAuthenticated = false) :
          ∀ key privKey,
            (requestKeys ssl c.keys creds engine.engineId).1 =
                .ok (key, privKey) →
              privKey = [] :=
        fun _ _ =>
          requestKeys_keyless ssl c.keys hOpen engine.engineId
      dsimp only [Option.elim]
      generalize
        requestKeys ssl c.keys creds engine.engineId = result
        at hKeyless ⊢
      rcases result with ⟨found, keys⟩
      dsimp only at hKeyless ⊢
      split
      · exact .fails c.nextId (Or.inl rfl) (hGivesUp _)
      · simp only [Client.takeNextId]
        split
        · exact .fails _ (Or.inr rfl) (hGivesUp _)
        · exact .opens
            ⟨rfl, rfl, rfl, fun hNot => absurd hNot (by simp),
              fun hOpen => hKeyless hOpen _ _ rfl⟩
            (Or.inl rfl)

/- Nothing is registered before the transaction. -/
theorem Opening.aside
    {keys : KeyCache}
    (hOpening : Opening c task keys c' task') :
    Aside c c' := by
  cases hOpening with
  | fails _ _ _ =>
      exact ⟨rfl, rfl, rfl, rfl, rfl, rfl, rfl, rfl⟩
  | opens _ _ =>
      exact ⟨rfl, rfl, rfl, rfl, rfl, rfl, rfl, rfl⟩

/- Opening a Socket touches nothing else. -/
theorem socketFor_aside
    {endpoint : Endpoint}
    {opened : Option SystemError}
    (hSocket : c.socketFor endpoint opened = .ok c') :
    Aside c c' ∧ c'.pending = c.pending ∧
      c'.pendings = c.pendings ∧ c'.keys = c.keys := by
  unfold Client.socketFor at hSocket
  split at hSocket
  · cases hSocket
    exact ⟨Aside.refl c, rfl, rfl, rfl⟩
  · split at hSocket
    · cases hSocket
    · split at hSocket
      all_goals
        cases hSocket
        exact ⟨⟨rfl, rfl, rfl, rfl, rfl, rfl, rfl, rfl⟩,
          rfl, rfl, rfl⟩

/- An id is bound, and nothing else happens. -/
theorem registerPending_aside
    (c : Client)
    (key : Int32)
    (ref : Nat) :
    Aside c (c.registerPending key ref) := by
  unfold Client.registerPending
  split
  · exact Aside.refl c
  · exact ⟨rfl, rfl, rfl, rfl, rfl, rfl, rfl, rfl⟩

theorem Aside.trans
    {c'' : Client}
    (hFirst : Aside c c')
    (hSecond : Aside c' c'') :
    Aside c c'' where
  stopping := hSecond.stopping.trans hFirst.stopping
  cleanup := hSecond.cleanup.trans hFirst.cleanup
  cache := hSecond.cache.trans hFirst.cache
  discovering := hSecond.discovering.trans hFirst.discovering
  discoveries := hSecond.discoveries.trans hFirst.discoveries
  tasks := hSecond.tasks.trans hFirst.tasks
  strand := hSecond.strand.trans hFirst.strand
  now := hSecond.now.trans hFirst.now

/- An exchange is refused, or entered into the table. -/
inductive Entry
    (out : Outside)
    (c : Client)
    (task : Task)
    (x : Exchange) :
    Client → Task → Prop where
  | refused
      (ec : Failure)
      (hEc : ec = .errc .clientStopped ∨ ∃ e, ec = .system e) :
      Entry out c task x c
        (task.goto (.returned x (some ec)))
  | entered
      {c₁ : Client}
      (hStopping : c.stopping = false)
      (hSocket :
        c.socketFor task.target.endpoint out.opened =
          .ok c₁) :
      Entry out c task x
        (c₁.registerPending x.key x.pending)
        (task.goto (attemptPoint task.target x))

/- It registers and sends, or it fails. -/
theorem enterTransact_entry
    (out : Outside)
    (c : Client)
    (task : Task)
    (x : Exchange) :
    Entry out c task x (enterTransact out c task x).1
      (enterTransact out c task x).2 := by
  unfold enterTransact
  split
  · exact .refused _ (Or.inl rfl)
  · next hStopping =>
    split
    · exact .refused _ (Or.inr ⟨_, rfl⟩)
    · next hSocket =>
      exact .entered (Bool.eq_false_of_not_eq_true hStopping)
        hSocket

/- Without an attempt to make, it leaves at once. -/
theorem attemptPoint_cases
    (target : Target)
    (x : Exchange) :
    attemptPoint target x = .sending x ∨
      attemptPoint target x = .leaving x := by
  unfold attemptPoint
  split
  · exact Or.inl rfl
  · exact Or.inr rfl

theorem Entry.aside
    {x : Exchange}
    (hEntry : Entry out c task x c' task') :
    Aside c c' := by
  cases hEntry with
  | refused _ _ => exact Aside.refl c
  | entered _ hSocket =>
      exact (socketFor_aside hSocket).1.trans
        (registerPending_aside _ x.key x.pending)

/- Where it leads: to a send, or out of `transact`. -/
theorem Entry.goes
    {x : Exchange}
    (hEntry : Entry out c task x c' task') :
    ∃ point, task' = task.goto point ∧
      (point = .sending x ∨ point = .leaving x ∨
        ∃ ec, point = .returned x (some ec)) := by
  cases hEntry with
  | refused ec _ =>
      exact ⟨_, rfl, Or.inr (Or.inr ⟨ec, rfl⟩)⟩
  | entered _ _ =>
      rcases attemptPoint_cases task.target x with
        hSending | hLeaving
      · exact ⟨_, rfl, Or.inl hSending⟩
      · exact ⟨_, rfl, Or.inr (Or.inl hLeaving)⟩

/- What an answered exchange writes into the cache. -/
inductive ReplyWrite
    (c : Client)
    (task : Task)
    (p : Pending) :
    EngineCache → Prop where
  | none : ReplyWrite c task p c.cache
  | answered
      {creds : Credentials}
      {attempt : Nat}
      {cache : EngineCache}
      (hWork : task.work = .v3 creds attempt)
      (hWrite :
        AnswerWrite c.cache c.now task.target.endpoint p
          cache) :
      ReplyWrite c task p cache
  | identified
      {creds : Credentials}
      {d : Nat}
      (hWork : task.work = .identify creds d)
      (hEngineId : p.security.engineId ≠ []) :
      ReplyWrite c task p
        (c.cache.recordIdentity c.now task.target.endpoint
          p.security)
  | based
      {creds : Credentials}
      {d : Nat}
      {engineId : Octets}
      (hWork : task.work = .sync creds d engineId)
      (hAuthenticated : p.replyAuthenticated = true)
      (hBoots : p.security.boots ≠ bootsCeiling) :
      ReplyWrite c task p
        (c.cache.recordBaseline c.now engineId p.security)

/- An answer may correct the clock of its engine. -/
theorem afterAnswer_write
    (c : Client)
    (task : Task)
    (creds : Credentials)
    (attempt : Nat)
    (p : Pending) :
    AnswerWrite c.cache c.now task.target.endpoint p
      (afterAnswer c task creds attempt p).1.cache := by
  unfold afterAnswer
  dsimp only
  split
  · next hReport =>
    have hWrite :
        AnswerWrite c.cache c.now task.target.endpoint p
          (handleReport c.cache c.now task.target.endpoint p
            (attempt = 0)).2 :=
      handleReport_write hReport _
    split
    · exact hWrite
    · split
      · exact hWrite
      · exact hWrite
  · dsimp only
    split
    · next hAuthenticated =>
      exact observeEngineTime_write hAuthenticated
    · exact AnswerWrite.none

/- The first Report may name an engine. -/
theorem afterIdentify_write
    (hWork : task.work = .identify creds d)
    (p : Pending) :
    ReplyWrite c task p
      (afterIdentify c task creds p).1.cache := by
  unfold afterIdentify
  dsimp only
  split
  · exact ReplyWrite.none
  · next hEngineId =>
    have hWrite := ReplyWrite.identified (c := c) hWork
      hEngineId
    split
    · exact hWrite
    · split
      · exact hWrite
      · exact hWrite

/- The second may set its clock. -/
theorem afterSync_write
    {engineId : Octets}
    (hWork : task.work = .sync creds d engineId)
    (p : Pending) :
    ReplyWrite c task p
      (afterSync c task engineId p).1.cache := by
  unfold afterSync
  split
  · exact ReplyWrite.none
  · next hAuthenticated =>
    rw [not_not] at hAuthenticated
    split
    · exact ReplyWrite.none
    · next hBoots =>
      exact ReplyWrite.based hWork hAuthenticated hBoots

/- Nothing else of a reply goes into the cache. -/
theorem afterSuccess_write
    (c : Client)
    (task : Task)
    (p : Pending) :
    ReplyWrite c task p (afterSuccess c task p).1.cache := by
  unfold afterSuccess
  split
  · exact ReplyWrite.none
  · next creds attempt hWork =>
    exact ReplyWrite.answered hWork
      (afterAnswer_write c task creds attempt p)
  · next creds d hWork => exact afterIdentify_write hWork p
  · next creds d engineId hWork =>
    exact afterSync_write hWork p

/- An answered exchange changes the cache only. -/
theorem afterSuccess_client
    (c : Client)
    (task : Task)
    (p : Pending) :
    (afterSuccess c task p).1 =
      { c with cache := (afterSuccess c task p).1.cache } := by
  unfold afterSuccess
  split
  · rfl
  · unfold afterAnswer
    dsimp only
    split
    · split
      · rfl
      · split
        · rfl
        · rfl
    · rfl
  · unfold afterIdentify
    dsimp only
    split
    · rfl
    · split
      · rfl
      · split
        · rfl
        · rfl
  · unfold afterSync
    split
    · rfl
    · split
      · rfl
      · rfl

/-
  A request finds its Engine ready, or queues behind the
  discovery of its endpoint, or starts one.
-/
theorem ensureEngine_cases
    (hEnsure :
      ensureEngine c task creds = (c', task', spawned)) :
    (c' = c ∧ task' = task.goto (.ensured none) ∧
        spawned = none ∧
        ∃ engine,
          c.cache.engineAt task.target.endpoint =
              some engine ∧
            (creds.level.isAuthenticated = true →
              engine.timeSynced = true)) ∨
      (∃ d, c.discovering.lookup task.target.endpoint =
            some d ∧
          c' = c ∧ task' = task.goto (.parking d) ∧
          spawned = none) ∨
      (c.discovering.lookup task.target.endpoint = none ∧
        c' = { c with
          discoveries := c.discoveries ++ [{}]
          discovering :=
            c.discovering.insert task.target.endpoint
              c.discoveries.length } ∧
        task' = task.goto (.parking c.discoveries.length) ∧
        spawned = some {
          work := .identify creds c.discoveries.length
          target := task.target }) := by
  unfold ensureEngine at hEnsure
  dsimp only at hEnsure
  split at hEnsure
  · next hReady =>
    left
    cases hEnsure
    refine ⟨rfl, rfl, rfl, ?_⟩
    rcases hEngine :
      c.cache.engineAt task.target.endpoint with _ | engine
    · rw [hEngine] at hReady
      cases hReady
    · rw [hEngine] at hReady
      refine ⟨engine, rfl, ?_⟩
      intro hLevel
      simpa [hLevel] using hReady
  · split at hEnsure
    · next d hFound =>
      right
      left
      cases hEnsure
      exact ⟨d, hFound, rfl, rfl, rfl⟩
    · next hNone =>
      right
      right
      cases hEnsure
      exact ⟨hNone, rfl, rfl, rfl⟩

/- The moves of a running coroutine. -/
inductive Move
    (ssl : OpenSsl)
    (out : Outside)
    (c : Client)
    (task : Task) :
    Client → Task → Option Task → Prop where
  | beginV2c
      {community : Octets}
      (hPoint : task.point = .start)
      (hWork : task.work = .v2c community) :
      Move ssl out c task
        (startV2c c task community).1
        (startV2c c task community).2 none
  | beginV3
      {creds : Credentials}
      {attempt : Nat}
      (hPoint : task.point = .start)
      (hWork : task.work = .v3 creds attempt) :
      Move ssl out c task c (startV3 c task creds) none
  | beginIdentify
      {creds : Credentials}
      {d : Nat}
      (hPoint : task.point = .start)
      (hWork : task.work = .identify creds d) :
      Move ssl out c task
        (startIdentify ssl out c task).1
        (startIdentify ssl out c task).2 none
  | ensure
      {creds : Credentials}
      {attempt : Nat}
      {c' : Client}
      {task' : Task}
      {spawned : Option Task}
      (hPoint : task.point = .ensuring)
      (hWork : task.work = .v3 creds attempt)
      (hEnsure :
        ensureEngine c task creds = (c', task', spawned)) :
      Move ssl out c task c' task' spawned
  | park
      {creds : Credentials}
      {attempt d : Nat}
      (hPoint : task.point = .parking d)
      (hWork : task.work = .v3 creds attempt) :
      Move ssl out c task c (task.goto (.parked d false)) none
  | fail
      {creds : Credentials}
      {attempt : Nat}
      {ec : Failure}
      (hPoint : task.point = .ensured (some ec))
      (hWork : task.work = .v3 creds attempt) :
      Move ssl out c task c
        (task.goto (.completed (some ec.code) {})) none
  | send
      {creds : Credentials}
      {attempt : Nat}
      (hPoint : task.point = .ensured none)
      (hWork : task.work = .v3 creds attempt) :
      Move ssl out c task
        (sendRequest ssl out c task creds).1
        (sendRequest ssl out c task creds).2 none
  | enter
      {x : Exchange}
      (hPoint : task.point = .entering x) :
      Move ssl out c task
        (enterTransact out c task x).1
        (enterTransact out c task x).2 none
  | leave
      {x : Exchange}
      {p : Pending}
      (hPoint : task.point = .leaving x)
      (hp : c.pendings[x.pending]? = some p) :
      Move ssl out c task
        (leaveTransact c task x p).1
        (leaveTransact c task x p).2 none
  | failed
      {x : Exchange}
      {ec : Failure}
      (hPoint : task.point = .returned x (some ec)) :
      Move ssl out c task c (afterFailure task ec) none
  | succeeded
      {x : Exchange}
      {p : Pending}
      (hPoint : task.point = .returned x none)
      (hp : c.pendings[x.pending]? = some p) :
      Move ssl out c task
        (afterSuccess c task p).1
        (afterSuccess c task p).2 none
  | beginSync
      {creds : Credentials}
      {d : Nat}
      {engineId : Octets}
      (hPoint : task.point = .syncing engineId)
      (hWork : task.work = .identify creds d) :
      Move ssl out c task
        (startSync ssl out c task creds d engineId).1
        (startSync ssl out c task creds d engineId).2 none
  | finish
      {ec : Option Failure}
      {d : Nat}
      (hPoint : task.point = .finishing ec)
      (hDiscovery : task.work.discovery? = some d) :
      Move ssl out c task
        (finishDiscovery c task.target.endpoint d
          { ec := ec, finished := true })
        (task.goto .ended) none

/- The code between two suspensions is one of these. -/
theorem runTask_move
    (hMove :
      runTask ssl out c task = some (c', task', spawned)) :
    Move ssl out c task c' task' spawned := by
  unfold runTask at hMove
  dsimp only at hMove
  split at hMove
  · next hPoint hWork =>
    simp only [Option.some.injEq, Prod.mk.injEq] at hMove
    rcases hMove with ⟨rfl, rfl, rfl⟩
    exact Move.beginV2c hPoint hWork
  · next hPoint hWork =>
    simp only [Option.some.injEq, Prod.mk.injEq] at hMove
    rcases hMove with ⟨rfl, rfl, rfl⟩
    exact Move.beginV3 hPoint hWork
  · next hPoint hWork =>
    simp only [Option.some.injEq, Prod.mk.injEq] at hMove
    rcases hMove with ⟨rfl, rfl, rfl⟩
    exact Move.beginIdentify hPoint hWork
  · next hPoint hWork =>
    exact Move.ensure hPoint hWork (Option.some.inj hMove)
  · next hPoint hWork =>
    simp only [Option.some.injEq, Prod.mk.injEq] at hMove
    rcases hMove with ⟨rfl, rfl, rfl⟩
    exact Move.park hPoint hWork
  · next hPoint hWork =>
    simp only [Option.some.injEq, Prod.mk.injEq] at hMove
    rcases hMove with ⟨rfl, rfl, rfl⟩
    exact Move.fail hPoint hWork
  · next hPoint hWork =>
    simp only [Option.some.injEq, Prod.mk.injEq] at hMove
    rcases hMove with ⟨rfl, rfl, rfl⟩
    exact Move.send hPoint hWork
  · next hPoint =>
    simp only [Option.some.injEq, Prod.mk.injEq] at hMove
    rcases hMove with ⟨rfl, rfl, rfl⟩
    exact Move.enter hPoint
  · next hPoint =>
    rw [Option.bind_eq_bind,
      Option.bind_eq_some_iff] at hMove
    rcases hMove with ⟨p, hp, hMove⟩
    simp only [Option.some.injEq, Prod.mk.injEq] at hMove
    rcases hMove with ⟨rfl, rfl, rfl⟩
    exact Move.leave hPoint hp
  · next hPoint =>
    simp only [Option.some.injEq, Prod.mk.injEq] at hMove
    rcases hMove with ⟨rfl, rfl, rfl⟩
    exact Move.failed hPoint
  · next hPoint =>
    rw [Option.bind_eq_bind,
      Option.bind_eq_some_iff] at hMove
    rcases hMove with ⟨p, hp, hMove⟩
    simp only [Option.some.injEq, Prod.mk.injEq] at hMove
    rcases hMove with ⟨rfl, rfl, rfl⟩
    exact Move.succeeded hPoint hp
  · next hPoint hWork =>
    simp only [Option.some.injEq, Prod.mk.injEq] at hMove
    rcases hMove with ⟨rfl, rfl, rfl⟩
    exact Move.beginSync hPoint hWork
  · next hPoint hWork =>
    simp only [Option.some.injEq, Prod.mk.injEq] at hMove
    rcases hMove with ⟨rfl, rfl, rfl⟩
    exact Move.finish hPoint (by rw [hWork]; rfl)
  · next hPoint hWork =>
    simp only [Option.some.injEq, Prod.mk.injEq] at hMove
    rcases hMove with ⟨rfl, rfl, rfl⟩
    exact Move.finish hPoint (by rw [hWork]; rfl)
  · cases hMove

/- What a move does to all but the coroutine that moves. -/
inductive Effect
    (c : Client)
    (task : Task) :
    Client → Option Task → Prop where
  | aside
      {c' : Client}
      (hAside : Aside c c') :
      Effect c task c' none
  | discovers
      (creds : Credentials)
      (hPoint : task.point = .ensuring) :
      Effect c task
        { c with
          discoveries := c.discoveries ++ [{}]
          discovering :=
            c.discovering.insert task.target.endpoint
              c.discoveries.length }
        (some {
          work := .identify creds c.discoveries.length
          target := task.target })
  | writes
      {x : Exchange}
      {p : Pending}
      (hPoint : task.point = .returned x none)
      (hp : c.pendings[x.pending]? = some p) :
      Effect c task
        { c with cache := (afterSuccess c task p).1.cache }
        none
  | finishes
      {ec : Option Failure}
      {d : Nat}
      (hPoint : task.point = .finishing ec)
      (hDiscovery : task.work.discovery? = some d) :
      Effect c task
        (finishDiscovery c task.target.endpoint d
          { ec := ec, finished := true })
        none

/- What such a move does outside its coroutine. -/
theorem Move.effect
    (hMove : Move ssl out c task c' task' spawned) :
    Effect c task c' spawned := by
  cases hMove with
  | beginV2c _ hWork =>
      exact .aside (startV2c_opening c hWork).aside
  | beginIdentify _ hWork =>
      exact .aside (startIdentify_opening out c hWork).aside
  | @ensure creds _ _ _ _ hPoint _ hEnsure =>
      rcases ensureEngine_cases hEnsure with
        ⟨rfl, _, rfl, _⟩ | ⟨_, _, rfl, _, rfl⟩ |
          ⟨_, rfl, _, rfl⟩
      · exact .aside (Aside.refl _)
      · exact .aside (Aside.refl _)
      · exact .discovers creds hPoint
  | send _ hWork =>
      exact .aside (sendRequest_opening out c hWork).aside
  | enter _ =>
      exact .aside (enterTransact_entry out c task _).aside
  | leave _ _ =>
      exact .aside ⟨rfl, rfl, rfl, rfl, rfl, rfl, rfl, rfl⟩
  | succeeded hPoint hp =>
      rw [afterSuccess_client]
      exact .writes hPoint hp
  | beginSync hPoint hWork =>
      exact .aside (startSync_opening out c hPoint hWork).aside
  | finish hPoint hDiscovery =>
      exact .finishes hPoint hDiscovery
  | _ => exact .aside (Aside.refl c)

/- Only an answered exchange writes into the cache. -/
theorem Move.write
    (hMove : Move ssl out c task c' task' spawned) :
    c'.cache = c.cache ∨
      ∃ x p, task.point = .returned x none ∧
        c.pendings[x.pending]? = some p ∧
        ReplyWrite c task p c'.cache := by
  cases hMove.effect with
  | aside hAside => exact Or.inl hAside.cache
  | discovers _ _ => exact Or.inl rfl
  | writes hPoint hp =>
      exact Or.inr ⟨_, _, hPoint, hp,
        afterSuccess_write c task _⟩
  | finishes _ _ => exact Or.inl rfl

/- Moving keeps what a coroutine was asked to do. -/
structure Task.Kin
    (task task' : Task) : Prop where
  target : task'.target = task.target
  pdu : task'.pdu = task.pdu
  cancelled : task'.cancelled = task.cancelled
  discovery :
    task'.work.discovery? = task.work.discovery?

theorem Task.goto_kin
    (task : Task)
    (point : Point) :
    task.Kin (task.goto point) :=
  ⟨rfl, rfl, rfl, rfl⟩

/- Where a coroutine goes from an answered exchange. -/
inductive Afterwards
    (task : Task) :
    Task → Prop where
  | completed
      (ec : Option ErrorCode)
      (resp : Response)
      (hRequest : task.work.discovery? = none) :
      Afterwards task (task.goto (.completed ec resp))
  | again
      {creds : Credentials}
      {attempt : Nat}
      (hWork : task.work = .v3 creds attempt) :
      Afterwards task
        { task with
          work := .v3 creds (attempt + 1)
          point := .ensuring }
  | syncing
      (engineId : Octets)
      {d : Nat}
      (hDiscovery : task.work.discovery? = some d) :
      Afterwards task (task.goto (.syncing engineId))
  | finishing
      (ec : Option Failure)
      {d : Nat}
      (hDiscovery : task.work.discovery? = some d) :
      Afterwards task (task.goto (.finishing ec))

/- It completes, asks once more or goes on. -/
theorem afterSuccess_afterwards
    (c : Client)
    (task : Task)
    (p : Pending) :
    Afterwards task (afterSuccess c task p).2 := by
  have hIs {work : Work}
      (hWork : task.work = work) :
      task.work.discovery? = work.discovery? :=
    congrArg Work.discovery? hWork
  unfold afterSuccess
  split
  · next hWork => exact .completed _ _ (hIs hWork)
  · next hWork =>
    unfold afterAnswer
    dsimp only
    split
    · split
      · exact .completed _ _ (hIs hWork)
      · split
        · exact .again hWork
        · exact .completed _ _ (hIs hWork)
    · exact .completed _ _ (hIs hWork)
  · next hWork =>
    unfold afterIdentify
    dsimp only
    split_ifs
    · exact .finishing _ (hIs hWork)
    · exact .finishing _ (hIs hWork)
    · exact .syncing _ (hIs hWork)
    · exact .finishing _ (hIs hWork)
  · next hWork =>
    unfold afterSync
    split_ifs
    all_goals exact .finishing _ (hIs hWork)

theorem Afterwards.kin
    (hAfterwards : Afterwards task task') :
    task.Kin task' := by
  cases hAfterwards with
  | again hWork => exact ⟨rfl, rfl, rfl, by rw [hWork]; rfl⟩
  | _ => exact task.goto_kin _

theorem Opening.kin
    {keys : KeyCache}
    (hOpening : Opening c task keys c' task') :
    task.Kin task' := by
  cases hOpening with
  | fails _ _ _ => exact task.goto_kin _
  | opens _ hWork =>
      rcases hWork with rfl | ⟨creds, d, engineId, hWork, _, rfl⟩
      · exact ⟨rfl, rfl, rfl, rfl⟩
      · exact ⟨rfl, rfl, rfl, by rw [hWork]; rfl⟩

/- It stays the same operation. -/
theorem Move.kin
    (hMove : Move ssl out c task c' task' spawned) :
    task.Kin task' := by
  cases hMove with
  | beginV2c _ hWork => exact (startV2c_opening c hWork).kin
  | beginV3 _ _ =>
      unfold startV3
      split_ifs
      all_goals exact task.goto_kin _
  | beginIdentify _ hWork =>
      exact (startIdentify_opening out c hWork).kin
  | ensure _ _ hEnsure =>
      rcases ensureEngine_cases hEnsure with
        ⟨_, rfl, _⟩ | ⟨_, _, _, rfl, _⟩ | ⟨_, _, rfl, _⟩
      all_goals exact task.goto_kin _
  | send _ hWork => exact (sendRequest_opening out c hWork).kin
  | enter _ =>
      rcases (enterTransact_entry out c task _).goes with
        ⟨point, hGoes, _⟩
      rw [hGoes]
      exact task.goto_kin point
  | failed _ =>
      unfold afterFailure
      split
      all_goals exact task.goto_kin _
  | succeeded _ _ =>
      exact (afterSuccess_afterwards c task _).kin
  | beginSync hPoint hWork =>
      exact (startSync_opening out c hPoint hWork).kin
  | _ => exact task.goto_kin _

/- What is spawned is the discovery of the endpoint. -/
theorem Move.spawned_eq
    {other : Task}
    (hMove : Move ssl out c task c' task' spawned)
    (hSpawned : spawned = some other) :
    ∃ creds, other = {
      work := .identify creds c.discoveries.length
      target := task.target } := by
  cases hMove.effect with
  | discovers creds _ =>
      cases hSpawned
      exact ⟨creds, rfl⟩
  | _ => cases hSpawned

/- Moving wakes those behind a discovery that is over. -/
theorem Move.tasks_eq
    (hMove : Move ssl out c task c' task' spawned) :
    c'.tasks = c.tasks ∨
      ∃ d, task.work.discovery? = some d ∧
        c'.tasks = c.tasks.map (Task.wakeOn [.done d]) := by
  cases hMove.effect with
  | aside hAside => exact Or.inl hAside.tasks
  | discovers _ _ => exact Or.inl rfl
  | writes _ _ => exact Or.inl rfl
  | finishes _ hDiscovery => exact Or.inr ⟨_, hDiscovery, rfl⟩

/- At most it wakes others. -/
theorem Move.tasks
    (hMove : Move ssl out c task c' task' spawned)
    {i : Nat}
    {found : Task}
    (hFound : c'.tasks[i]? = some found) :
    ∃ before : Task,
      c.tasks[i]? = some before ∧ before.Nudged found := by
  rcases hMove.tasks_eq with hSame | ⟨d, _, hWoken⟩
  · rw [hSame] at hFound
    exact ⟨found, hFound, Task.Nudged.refl found⟩
  · rw [hWoken] at hFound
    rcases cancelTimers_tasks (c := c) hFound with
      ⟨before, hBefore, rfl⟩
    exact ⟨before, hBefore, Task.wakeOn_nudged _ before⟩

theorem Move.length
    (hMove : Move ssl out c task c' task' spawned) :
    c'.tasks.length = c.tasks.length := by
  rcases hMove.tasks_eq with hSame | ⟨d, _, hWoken⟩
  · rw [hSame]
  · rw [hWoken, List.length_map]

end Snmpio

------------------------------------------------------------
-- Steps
------------------------------------------------------------

namespace Snmpio

variable {ssl : OpenSsl} {c c' : Client} {t : Nat}
variable {e : Event}

/- Where a suspended coroutine goes on. -/
inductive Resumes
    (c : Client)
    (t : Nat)
    (task : Task) :
    Event → Point → Prop where
  | sent
      {x : Exchange}
      (ec : Option SystemError)
      (hPoint : task.point = .sending x) :
      Resumes c t task (.sent t ec)
        (afterSend c task { x with ec := ec })
  | waited
      {x : Exchange}
      {deadline : Int}
      {soft : Bool}
      {p : Pending}
      (hPoint : task.point = .waiting x deadline soft true)
      (hp : c.pendings[x.pending]? = some p) :
      Resumes c t task (.resume t)
        (afterWait c task x deadline soft p)
  | unparked
      {d : Nat}
      {discovery : Discovery}
      (hPoint : task.point = .parked d true)
      (hd : c.discoveries[d]? = some discovery) :
      Resumes c t task (.resume t)
        (afterPark c task discovery)

/- What one event does, case by case. -/
inductive StepCase
    (ssl : OpenSsl)
    (c : Client) :
    Event → Client → Prop where
  | advanced
      {out : Outside}
      {t : Nat}
      {rest : List Nat}
      {task task' : Task}
      {c' : Client}
      {spawned : Option Task}
      (hStrand : c.strand = t :: rest)
      (hTask : c.tasks[t]? = some task)
      (hMove : Move ssl out c task c' task' spawned) :
      StepCase ssl c (.advance out)
        (c'.settle t rest task' spawned)
  | requested
      {target : Target}
      {auth : Auth}
      {pdu : Pdu}
      (hIdle : c.strand = []) :
      StepCase ssl c (.request target auth pdu)
        (c.spawn {
          work := beginWork auth
          target := target
          pdu := pdu })
  | received
      {sender : Endpoint}
      {datagram : Octets}
      (hIdle : c.strand = []) :
      StepCase ssl c (.receive sender datagram)
        (c.receive ssl datagram sender)
  | resumed
      {e : Event}
      {t : Nat}
      {task : Task}
      {point : Point}
      (hIdle : c.strand = [])
      (hTask : c.tasks[t]? = some task)
      (hResumes : Resumes c t task e point) :
      StepCase ssl c e (c.place t [] (task.goto point))
  | raised
      {t d : Nat}
      {rest : List Nat}
      {task : Task}
      (hStrand :
        (c.strand = [] ∧ rest = [] ∧
            task.point.runs = false) ∨
          c.strand = t :: rest)
      (hTask : c.tasks[t]? = some task)
      (hDiscovery : task.work.discovery? = some d)
      (hThrows : task.point.canThrow = true) :
      StepCase ssl c (.raise t)
        ((finishDiscovery c task.target.endpoint d
          { failure := true }).place t rest
            (task.goto .ended))
  | signalled
      {t : Nat}
      {kind : Signal}
      {task : Task}
      {cancelled : Cancellation}
      (hIdle : c.strand = [])
      (hTask : c.tasks[t]? = some task)
      (hRequest : task.work.discovery? = none)
      (hCancelled : cancelled ≠ {}) :
      StepCase ssl c (.signal t kind)
        { c with
          tasks := c.tasks.set t
            { task with
              cancelled := cancelled
              point := task.point.signalled } }
  | nudged
      {e : Event}
      {c' : Client}
      (hNudged : Nudged c c') :
      StepCase ssl c e c'

/- A signal wakes at most, and does not move. -/
theorem signalled_cases
    (point : Point) :
    point.signalled = point ∨
      point.signalled = point.wake := by
  cases point with
  | waiting x deadline soft woken =>
      cases soft with
      | true => exact Or.inl rfl
      | false => exact Or.inr rfl
  | parked d woken => exact Or.inr rfl
  | _ => exact Or.inl rfl

/- The head of the strand makes its move. -/
theorem advance_eq
    {out : Outside}
    (hStep : advance ssl out c = some c') :
    ∃ t rest task c₁ task' spawned,
      c.strand = t :: rest ∧ c.tasks[t]? = some task ∧
        Move ssl out c task c₁ task' spawned ∧
        c' = c₁.settle t rest task' spawned := by
  unfold advance at hStep
  split at hStep
  · cases hStep
  · next t rest hStrand =>
    simp only [Option.bind_eq_bind,
      Option.bind_eq_some_iff] at hStep
    rcases hStep with
      ⟨task, hTask, ⟨c₁, task', spawned⟩, hMove, hSettle⟩
    cases hSettle
    exact ⟨t, rest, task, c₁, task', spawned, hStrand, hTask,
      runTask_move hMove, rfl⟩

/- The send is over, and the coroutine goes on. -/
theorem onSent_eq
    {ec : Option SystemError}
    (hStep : onSent c t ec = some c') :
    ∃ task point, c.tasks[t]? = some task ∧
      Resumes c t task (.sent t ec) point ∧
      c' = c.place t [] (task.goto point) := by
  simp only [onSent, Option.bind_eq_bind,
    Option.bind_eq_some_iff] at hStep
  rcases hStep with ⟨task, hTask, hStep⟩
  split at hStep
  · next x hPoint =>
    cases hStep
    exact ⟨task, _, hTask, Resumes.sent ec hPoint, rfl⟩
  · cases hStep

/- A deadline wakes, and does no more. -/
theorem onExpire_nudged
    (hStep : onExpire c t = some c') :
    Nudged c c' := by
  simp only [onExpire, Option.bind_eq_bind,
    Option.bind_eq_some_iff] at hStep
  rcases hStep with ⟨task, hTask, hStep⟩
  split at hStep
  · next x deadline soft woken hPoint =>
    split_ifs at hStep
    cases hStep
    apply Nudged.set hTask
    refine ⟨rfl, rfl, rfl, rfl, Or.inr ?_⟩
    rw [hPoint]
    rfl
  · cases hStep

/- Who was woken goes on. -/
theorem onResume_eq
    (hStep : onResume c t = some c') :
    ∃ task point, c.tasks[t]? = some task ∧
      Resumes c t task (.resume t) point ∧
      c' = c.place t [] (task.goto point) := by
  simp only [onResume, Option.bind_eq_bind,
    Option.bind_eq_some_iff] at hStep
  rcases hStep with ⟨task, hTask, hStep⟩
  split at hStep
  · next x deadline soft hPoint =>
    rw [Option.bind_eq_some_iff] at hStep
    rcases hStep with ⟨p, hp, hStep⟩
    cases hStep
    exact ⟨task, _, hTask, Resumes.waited hPoint hp, rfl⟩
  · next d hPoint =>
    rw [Option.bind_eq_some_iff] at hStep
    rcases hStep with ⟨discovery, hd, hStep⟩
    cases hStep
    exact ⟨task, _, hTask, Resumes.unparked hPoint hd, rfl⟩
  · cases hStep

/- Only requests can be cancelled from outside. -/
theorem onSignal_eq
    {kind : Signal}
    (hStep : onSignal c t kind = some c') :
    ∃ task cancelled, c.tasks[t]? = some task ∧
      task.work.discovery? = none ∧ cancelled ≠ {} ∧
      c' = { c with
        tasks := c.tasks.set t
          { task with
            cancelled := cancelled
            point := task.point.signalled } } := by
  simp only [onSignal, Option.bind_eq_bind,
    Option.bind_eq_some_iff] at hStep
  rcases hStep with ⟨task, hTask, hStep⟩
  split at hStep
  · cases hStep
  · next hRequest =>
    cases hStep
    rw [Bool.not_eq_true, Option.isSome_eq_false_iff,
      Option.isNone_iff_eq_none] at hRequest
    refine ⟨task, _, hTask, hRequest, ?_, rfl⟩
    cases kind with
    | terminal => simp
    | total => simp

/- Only discoveries throw, and their cleanup runs. -/
theorem onRaise_eq
    (hStep : onRaise c t = some c') :
    ∃ task d rest, c.tasks[t]? = some task ∧
      task.work.discovery? = some d ∧
      task.point.canThrow = true ∧
      ((c.strand = [] ∧ rest = [] ∧
          task.point.runs = false) ∨
        c.strand = t :: rest) ∧
      c' = (finishDiscovery c task.target.endpoint d
        { failure := true }).place t rest
          (task.goto .ended) := by
  simp only [onRaise, Option.bind_eq_bind,
    Option.bind_eq_some_iff] at hStep
  rcases hStep with
    ⟨task, hTask, d, hDiscovery, rest, hRest, hStep⟩
  split at hStep
  · next hThrows =>
    cases hStep
    refine ⟨task, d, rest, hTask, hDiscovery, hThrows, ?_,
      rfl⟩
    unfold Client.beneath at hRest
    split at hRest
    · next hStrand =>
      split at hRest
      · cases hRest
      · next hRuns =>
        cases hRest
        rw [Bool.not_eq_true] at hRuns
        exact Or.inl ⟨hStrand, rfl, hRuns⟩
    · next head rest' hStrand =>
      split at hRest
      · next hHead =>
        cases hRest
        rw [hHead] at hStrand
        exact Or.inr hStrand
      · cases hRest
  · cases hStep

/- The cleanup wakes everybody who waits. -/
theorem finishStopping_nudged
    (c : Client) :
    Nudged c c.finishStopping := by
  rcases Nudged.cancelTimers
    { c with
      cleanup := false
      v4 := c.v4.map (fun _ => .closed)
      v6 := c.v6.map (fun _ => .closed) }
    (c.pending.entries.map (fun e => Timer.pending e.2) ++
      c.discovering.entries.map
        (fun e => Timer.done e.2)) with
    ⟨h₁, h₂, h₃, h₄, h₅, h₆, h₇, h₈, h₉, hTasks⟩
  exact ⟨h₁, h₂, h₃, h₄, h₅, h₆, h₇, h₈, h₉, hTasks⟩

/- Whatever the event, it is one of the cases. -/
theorem step_cases
    (hStep : step ssl c e = some c') :
    StepCase ssl c e c' := by
  have hIdle : c.isIdle = true → c.strand = [] :=
    List.isEmpty_iff.mp
  cases e with
  | advance out =>
      rcases advance_eq hStep with
        ⟨t, rest, task, c₁, task', spawned, hStrand, hTask,
          hMove, rfl⟩
      exact StepCase.advanced hStrand hTask hMove
  | request target auth pdu =>
      simp only [step] at hStep
      split_ifs at hStep with h
      cases hStep
      exact StepCase.requested (hIdle h)
  | receive sender datagram =>
      simp only [step] at hStep
      split_ifs at hStep with h
      cases hStep
      exact StepCase.received (hIdle h.1)
  | receiveFailed v6 =>
      simp only [step] at hStep
      split_ifs at hStep
      all_goals
        cases hStep
        exact StepCase.nudged (Nudged.aside c _ _ _ _ _)
  | sent t ec =>
      simp only [step] at hStep
      split_ifs at hStep with h
      rcases onSent_eq hStep with
        ⟨task, point, hTask, hResumes, rfl⟩
      exact StepCase.resumed (hIdle h) hTask hResumes
  | expire t => exact StepCase.nudged (onExpire_nudged hStep)
  | resume t =>
      simp only [step] at hStep
      split_ifs at hStep with h
      rcases onResume_eq hStep with
        ⟨task, point, hTask, hResumes, rfl⟩
      exact StepCase.resumed (hIdle h) hTask hResumes
  | signal t kind =>
      simp only [step] at hStep
      split_ifs at hStep with h
      rcases onSignal_eq hStep with
        ⟨task, cancelled, hTask, hRequest, hCancelled, rfl⟩
      exact StepCase.signalled (hIdle h) hTask hRequest
        hCancelled
  | raise t =>
      rcases onRaise_eq hStep with
        ⟨task, d, rest, hTask, hDiscovery, hThrows, hStrand,
          rfl⟩
      exact StepCase.raised hStrand hTask hDiscovery hThrows
  | stop =>
      cases hStep
      exact StepCase.nudged (Nudged.aside c _ _ _ _ _)
  | finishStopping =>
      simp only [step] at hStep
      split_ifs at hStep with h
      cases hStep
      exact StepCase.nudged (finishStopping_nudged c)
  | tick elapsed =>
      cases hStep
      exact StepCase.nudged (Nudged.aside c _ _ _ _ _)

/- A datagram fills one slot, and may wake. -/
theorem receive_nudged
    (ssl : OpenSsl)
    (c : Client)
    (datagram : Octets)
    (sender : Endpoint) :
    ∃ pendings,
      Nudged { c with pendings := pendings }
        (c.receive ssl datagram sender) := by
  rw [receive_eq_route]
  split
  · exact ⟨_, Nudged.aside c _ _ _ _ _⟩
  · next ref p verdict _ =>
    cases verdict with
    | drop reason =>
        cases reason with
        | none => exact ⟨_, Nudged.aside c _ _ _ _ _⟩
        | some e =>
            exact ⟨c.pendings.set ref
              { p with dropReason := some e },
              Nudged.aside _ _ _ _ _ _⟩
    | accept p' =>
        exact ⟨c.pendings.set ref p',
          Nudged.cancelTimers _ _⟩

/- Coroutines are never forgotten. -/
theorem step_length
    (hStep : step ssl c e = some c') :
    c.tasks.length ≤ c'.tasks.length := by
  cases step_cases hStep with
  | @advanced out t rest task task' c₁ spawned _ _ hMove =>
      rw [← hMove.length]
      cases spawned with
      | none => exact Nat.le_of_eq List.length_set.symm
      | some other =>
          simp only [Client.settle, Client.spawn,
            Client.place, List.length_append, List.length_set]
          omega
  | requested _ =>
      simp only [Client.spawn, List.length_append]
      omega
  | received _ =>
      rcases receive_nudged ssl c _ _ with
        ⟨pendings, hNudged⟩
      exact Nat.le_of_eq hNudged.length.symm
  | resumed _ _ _ => exact Nat.le_of_eq List.length_set.symm
  | raised _ _ _ _ =>
      simp [Client.place, finishDiscovery,
        Client.cancelTimers]
  | signalled _ _ _ _ =>
      exact Nat.le_of_eq List.length_set.symm
  | nudged hNudged => exact Nat.le_of_eq hNudged.length.symm

/- No coroutine is ever removed. -/
theorem step_task_exists
    (hStep : step ssl c e = some c')
    {task : Task}
    (hTask : c.tasks[t]? = some task) :
    ∃ task', c'.tasks[t]? = some task' := by
  have hBound := (List.getElem?_eq_some_iff.mp hTask).1
  have hLength := step_length hStep
  exact ⟨_, List.getElem?_eq_getElem (by omega)⟩

end Snmpio

------------------------------------------------------------
-- Steps of a Coroutine
------------------------------------------------------------

namespace Snmpio

variable {ssl : OpenSsl} {c c' : Client} {t : Nat}
variable {task' : Task}

/- Why a wait is over. -/
inductive Woken
    (ssl : OpenSsl)
    (c : Client)
    (t : Nat)
    (task : Task) :
    Event → Prop where
  | expired
      {x : Exchange}
      {deadline : Int}
      {soft woken : Bool}
      (hPoint : task.point = .waiting x deadline soft woken)
      (hPast : deadline ≤ c.now) :
      Woken ssl c t task (.expire t)
  | answered
      {sender : Endpoint}
      {datagram : Octets}
      {ref : Nat}
      {p p' : Pending}
      (hRoute :
        c.route ssl datagram sender =
          some (ref, p, .accept p'))
      (hTimer : task.point.timer? = some (.pending ref)) :
      Woken ssl c t task (.receive sender datagram)
  | finished
      {e : Event}
      {d : Nat}
      (hTimer : task.point.timer? = some (.done d)) :
      Woken ssl c t task e
  | stopped
      (hCleanup : c.cleanup = true) :
      Woken ssl c t task .finishStopping

/- The coroutine that an event resumes. -/
def Event.resumes? :
    Event → Option Nat
| .sent t _ => some t
| .resume t => some t
| _ => none

/- What a step can do to one coroutine. -/
inductive TaskStep
    (ssl : OpenSsl)
    (c : Client)
    (t : Nat) :
    Event → Task → Prop where
  | moved
      {out : Outside}
      {rest : List Nat}
      {task task' : Task}
      {c' : Client}
      {spawned : Option Task}
      (hStrand : c.strand = t :: rest)
      (hTask : c.tasks[t]? = some task)
      (hMove : Move ssl out c task c' task' spawned) :
      TaskStep ssl c t (.advance out) task'
  | spawned
      {out : Outside}
      {head : Nat}
      {rest : List Nat}
      {task task' other : Task}
      {c' : Client}
      (hStrand : c.strand = head :: rest)
      (hTask : c.tasks[head]? = some task)
      (hMove : Move ssl out c task c' task' (some other))
      (hNew : t = c.tasks.length) :
      TaskStep ssl c t (.advance out) other
  | requested
      {target : Target}
      {auth : Auth}
      {pdu : Pdu}
      (hIdle : c.strand = [])
      (hNew : t = c.tasks.length) :
      TaskStep ssl c t (.request target auth pdu)
        { work := beginWork auth
          target := target
          pdu := pdu }
  | resumed
      {e : Event}
      {task : Task}
      {point : Point}
      (hIdle : c.strand = [])
      (hTask : c.tasks[t]? = some task)
      (hResumes : Resumes c t task e point) :
      TaskStep ssl c t e (task.goto point)
  | raised
      {d : Nat}
      {task : Task}
      (hTask : c.tasks[t]? = some task)
      (hDiscovery : task.work.discovery? = some d)
      (hThrows : task.point.canThrow = true) :
      TaskStep ssl c t (.raise t) (task.goto .ended)
  | signalled
      {kind : Signal}
      {task : Task}
      {cancelled : Cancellation}
      (hIdle : c.strand = [])
      (hTask : c.tasks[t]? = some task)
      (hRequest : task.work.discovery? = none)
      (hCancelled : cancelled ≠ {}) :
      TaskStep ssl c t (.signal t kind)
        { task with
          cancelled := cancelled
          point := task.point.signalled }
  | woken
      {e : Event}
      {task : Task}
      (hTask : c.tasks[t]? = some task)
      (hWoken : Woken ssl c t task e)
      (hOther : e.resumes? ≠ some t) :
      TaskStep ssl c t e (task.goto task.point.wake)
  | kept
      {e : Event}
      {task : Task}
      (hTask : c.tasks[t]? = some task)
      (hOther : e.resumes? ≠ some t) :
      TaskStep ssl c t e task

/- Timers that are cancelled wake those who wait on them. -/
theorem TaskStep.of_wakeOn
    {e : Event}
    {task : Task}
    (hTask : c.tasks[t]? = some task)
    (timers : List Timer)
    (hWoken :
      ∀ timer ∈ timers, task.point.timer? = some timer →
        Woken ssl c t task e)
    (hOther : e.resumes? ≠ some t) :
    TaskStep ssl c t e (task.wakeOn timers) := by
  unfold Task.wakeOn
  split
  · next hAny =>
    rcases (Option.any_eq_true _ _).mp hAny with
      ⟨timer, hTimer, hMem⟩
    exact TaskStep.woken hTask
      (hWoken timer (of_decide_eq_true hMem) hTimer) hOther
  · exact TaskStep.kept hTask hOther

/- What becomes of each coroutine at a move, -/
theorem advance_task
    {out : Outside}
    (hStep : advance ssl out c = some c')
    (hTask' : c'.tasks[t]? = some task') :
    TaskStep ssl c t (.advance out) task' := by
  rcases advance_eq hStep with
    ⟨head, rest, task, c₁, moved, spawned, hStrand, hTask,
      hMove, rfl⟩
  rcases settle_task hTask' with
    ⟨rfl, rfl⟩ | ⟨_, hOther⟩ | ⟨hNew, rfl⟩
  · exact TaskStep.moved hStrand hTask hMove
  · rcases hMove.tasks_eq with hSame | ⟨d, _, hWoken⟩
    · rw [hSame] at hOther
      exact TaskStep.kept hOther nofun
    · rw [hWoken] at hOther
      rcases cancelTimers_tasks (c := c) hOther with
        ⟨before, hBefore, rfl⟩
      refine TaskStep.of_wakeOn hBefore [.done d] ?_ nofun
      intro timer hMem hTimer
      rw [List.mem_singleton.mp hMem] at hTimer
      exact Woken.finished hTimer
  · exact TaskStep.spawned hStrand hTask hMove
      (hNew.trans hMove.length)

/- at a datagram, -/
theorem receive_task
    {sender : Endpoint}
    {datagram : Octets}
    (hTask' :
      (c.receive ssl datagram sender).tasks[t]? =
        some task') :
    TaskStep ssl c t (.receive sender datagram) task' := by
  rw [receive_eq_route] at hTask'
  split at hTask'
  · exact TaskStep.kept hTask' nofun
  · next ref p verdict hRoute =>
    cases verdict with
    | drop reason =>
        cases reason with
        | none => exact TaskStep.kept hTask' nofun
        | some e => exact TaskStep.kept hTask' nofun
    | accept p' =>
        rcases cancelTimers_tasks hTask' with
          ⟨task, hTask, rfl⟩
        change c.tasks[t]? = some task at hTask
        refine TaskStep.of_wakeOn hTask [.pending ref] ?_ nofun
        intro timer hMem hTimer
        rw [List.mem_singleton.mp hMem] at hTimer
        exact Woken.answered hRoute hTimer

/- and at a deadline. -/
theorem onExpire_task
    {i : Nat}
    (hStep : onExpire c i = some c')
    (hTask' : c'.tasks[t]? = some task') :
    TaskStep ssl c t (.expire i) task' := by
  simp only [onExpire, Option.bind_eq_bind,
    Option.bind_eq_some_iff] at hStep
  rcases hStep with ⟨task, hTask, hStep⟩
  split at hStep
  · next x deadline soft woken hPoint =>
    split_ifs at hStep with hPast
    cases hStep
    rcases getElem?_set_cases hTask' with
      ⟨rfl, rfl⟩ | ⟨_, hOther⟩
    · have hWoken : Woken ssl c t task (.expire t) :=
        Woken.expired hPoint hPast
      have hStep := TaskStep.woken hTask hWoken nofun
      rw [hPoint] at hStep
      exact hStep
    · exact TaskStep.kept hOther nofun
  · cases hStep

/- A coroutine is where it is by one of these. -/
theorem step_task
    {e : Event}
    (hStep : step ssl c e = some c')
    (hTask' : c'.tasks[t]? = some task') :
    TaskStep ssl c t e task' := by
  have hIdle : c.isIdle = true → c.strand = [] :=
    List.isEmpty_iff.mp
  cases e with
  | advance out => exact advance_task hStep hTask'
  | request target auth pdu =>
      simp only [step] at hStep
      split_ifs at hStep with h
      cases hStep
      rcases getElem?_concat_cases hTask' with
        hOld | ⟨hNew, rfl⟩
      · exact TaskStep.kept hOld nofun
      · exact TaskStep.requested (hIdle h) hNew
  | receive sender datagram =>
      simp only [step] at hStep
      split_ifs at hStep with h
      cases hStep
      exact receive_task hTask'
  | receiveFailed v6 =>
      simp only [step] at hStep
      split_ifs at hStep
      all_goals
        cases hStep
        exact TaskStep.kept hTask' nofun
  | sent i ec =>
      simp only [step] at hStep
      split_ifs at hStep with h
      rcases onSent_eq hStep with
        ⟨task, point, hTask, hResumes, rfl⟩
      rcases place_task hTask' with ⟨rfl, rfl⟩ | ⟨hNot, hOther⟩
      · exact TaskStep.resumed (hIdle h) hTask hResumes
      · refine TaskStep.kept hOther ?_
        intro hSame
        exact hNot (Option.some.inj hSame).symm
  | expire i => exact onExpire_task hStep hTask'
  | resume i =>
      simp only [step] at hStep
      split_ifs at hStep with h
      rcases onResume_eq hStep with
        ⟨task, point, hTask, hResumes, rfl⟩
      rcases place_task hTask' with ⟨rfl, rfl⟩ | ⟨hNot, hOther⟩
      · exact TaskStep.resumed (hIdle h) hTask hResumes
      · refine TaskStep.kept hOther ?_
        intro hSame
        exact hNot (Option.some.inj hSame).symm
  | signal i kind =>
      simp only [step] at hStep
      split_ifs at hStep with h
      rcases onSignal_eq hStep with
        ⟨task, cancelled, hTask, hRequest, hCancelled, rfl⟩
      rcases getElem?_set_cases hTask' with
        ⟨rfl, rfl⟩ | ⟨_, hOther⟩
      · exact TaskStep.signalled (hIdle h) hTask hRequest
          hCancelled
      · exact TaskStep.kept hOther nofun
  | raise i =>
      rcases onRaise_eq hStep with
        ⟨task, d, rest, hTask, hDiscovery, hThrows, _, rfl⟩
      rcases place_task hTask' with ⟨rfl, rfl⟩ | ⟨_, hOther⟩
      · exact TaskStep.raised hTask hDiscovery hThrows
      · rcases cancelTimers_tasks hOther with
          ⟨before, hBefore, rfl⟩
        change c.tasks[t]? = some before at hBefore
        refine TaskStep.of_wakeOn hBefore [.done d] ?_ nofun
        intro timer hMem hTimer
        rw [List.mem_singleton.mp hMem] at hTimer
        exact Woken.finished hTimer
  | stop =>
      cases hStep
      exact TaskStep.kept hTask' nofun
  | finishStopping =>
      simp only [step] at hStep
      split_ifs at hStep with h
      cases hStep
      rcases cancelTimers_tasks hTask' with ⟨task, hTask, rfl⟩
      change c.tasks[t]? = some task at hTask
      refine TaskStep.of_wakeOn hTask _ ?_ nofun
      intro _ _ _
      exact Woken.stopped h.2
  | tick elapsed =>
      cases hStep
      exact TaskStep.kept hTask' nofun

end Snmpio
