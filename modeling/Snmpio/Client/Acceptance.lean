import Snmpio.Client.Steps

/-
  The invariant of every run: of every exchange it says whom
  it was asked of and with which keys, and of every answer
  from which datagram it came.

  Key definitions include:
    * `Asks`
    * `TaskSound`
    * `Sound`

  Key theorems include:
    * `Move.sound`
    * `sound_of_run`
-/

------------------------------------------------------------
-- Exchanges
------------------------------------------------------------

namespace Snmpio

variable (ssl : OpenSsl)

/-
  The message of an exchange carries a PDU to an Engine,
  sealed with the two keys.
-/
def AddressedTo
    (creds : Credentials)
    (engineId authKey privKey : Octets)
    (pdu : Pdu)
    (datagram : Octets) : Prop :=
  ∃ (usm : UsmParameters) (scopedPdu : ScopedPdu)
      (salt : UInt64),
    usm.engineId = engineId ∧
      scopedPdu.pdu = pdu ∧
      (encodeV3Message ssl
        { msgId := pdu.requestId, level := creds.level } usm
        scopedPdu creds.authProtocol authKey
        creds.privProtocol privKey salt).1 = .ok datagram

/- The keys are those of the Credentials and the Engine. -/
structure SealedFor
    (creds : Credentials)
    (engineId : Octets)
    (a : Pending)
    (pdu : Pdu)
    (datagram : Octets) : Prop where
  v3 : a.v3 = true
  engineId_eq : a.engineId = engineId
  engineId_ne : engineId ≠ []
  authProtocol : a.authProtocol = creds.authProtocol
  privProtocol : a.privProtocol = creds.privProtocol
  authKey : requestAuthKey ssl creds engineId = .ok a.authKey
  privKey : requestPrivKey ssl creds engineId = .ok a.privKey
  addressed :
    AddressedTo ssl creds engineId a.authKey a.privKey pdu
      datagram

/- What each kind of coroutine asks for. -/
def Asks
    (work : Work)
    (pdu : Pdu)
    (a : Pending)
    (key : Int32)
    (datagram : Octets) : Prop :=
  match work with
  | .v2c community =>
      a.v3 = false ∧ a.community = community ∧
        encodeV2cMessage community
          { pdu with requestId := key } = (datagram, none)
  | .v3 creds _ =>
      SealedFor ssl creds a.engineId a
          { pdu with requestId := key } datagram ∧
        a.authRequired = creds.level.isAuthenticated
  | .identify _ _ => a.v3 = true ∧ a.authRequired = false
  | .sync creds _ engineId =>
      SealedFor ssl creds engineId a
          { type := .get, requestId := key } datagram ∧
        creds.level.isAuthenticated = true

/- An exchange asks what its operation is to ask. -/
structure ExchangeSound
    (task : Task)
    (x : Exchange)
    (a : Pending) : Prop where
  key_eq : a.requestId = x.key
  sender_eq : a.sender = task.target.endpoint
  asks : Asks ssl task.work task.pdu a x.key x.datagram

end Snmpio

------------------------------------------------------------
-- The Invariant
------------------------------------------------------------

namespace Snmpio

variable {point : Point} {task : Task} {c : Client}

/- The Credentials of a v3 coroutine. -/
def Work.credentials? :
    Work → Option Credentials
| v2c _ => none
| v3 creds _ => some creds
| identify creds _ => some creds
| sync creds _ _ => some creds

namespace Point

/- Where an operation has ended. -/
def isOver :
    Point → Bool
| completed _ _ => true
| threw => true
| ended => true
| _ => false

@[simp]
theorem wake_isOver
    (point : Point) :
    point.wake.isOver = point.isOver := by
  cases point with
  | _ => rfl

/- Only what waits on a timer is woken. -/
theorem eq_of_wake
    {woken : Point}
    (hWake : point.wake = woken)
    (hTimer : woken.timer? = none) :
    point = woken := by
  subst hWake
  cases point with
  | waiting _ _ _ _ => cases hTimer
  | parked _ _ => cases hTimer
  | _ => rfl

end Point

/- A task off its timers was not moved by a nudge. -/
theorem Task.Nudged.point_eq
    {task' : Task}
    (hNudged : task.Nudged task')
    (hPoint : task'.point = point)
    (hTimer : point.timer? = none) :
    task.point = point := by
  rcases hNudged.point with hSame | hWake
  · rw [← hSame]
    exact hPoint
  · exact Point.eq_of_wake (hWake ▸ hPoint) hTimer

/- Engines are filed under their own id. -/
def EngineCache.Sound
    (cache : EngineCache) : Prop :=
  ∀ engineId engine,
    cache.engines.lookup engineId = some engine →
      engine.engineId = engineId ∧ engineId ≠ []

variable (ssl : OpenSsl)

/- What holds of a coroutine wherever it is. -/
structure TaskSound
    (c : Client)
    (task : Task) : Prop where
  usable :
    ∀ creds, task.work.credentials? = some creds →
      creds.Usable ∨ task.point.isOver = true ∨
        (task.point = .start ∧ task.work.discovery? = none)
  exchange :
    ∀ x, task.point.exchange? = some x →
      ∃ p, c.pendings[x.pending]? = some p ∧
        ExchangeSound ssl task x p.asked
  answered :
    ∀ x, task.point = .returned x none →
      ∃ p, c.pendings[x.pending]? = some p ∧
        p.answered = true
  syncing :
    ∀ creds d engineId, task.work = .identify creds d →
      task.point = .syncing engineId →
        engineId ∈ c.cache.engines ∧
          creds.level.isAuthenticated = true
  known :
    ∀ creds d engineId, task.work = .sync creds d engineId →
      engineId ∈ c.cache.engines

/- The part of the invariant that is not about tasks. -/
structure Core
    (events : List Event)
    (c : Client) : Prop where
  keys : c.keys.Sound ssl
  cache : c.cache.Sound
  registered : Registered c
  answers :
    ∀ (ref : Nat) (p : Pending),
      c.pendings[ref]? = some p → p.answered = true →
        ∃ sender datagram,
          Event.receive sender datagram ∈ events ∧
            Answered ssl p sender datagram

/- What holds of the Client and all its coroutines. -/
structure Sound
    (events : List Event)
    (c : Client) : Prop where
  core : Core ssl events c
  tasks :
    ∀ (t : Nat) (task : Task),
      c.tasks[t]? = some task → TaskSound ssl c task

/- Exchanges keep what they asked, Engines stay known. -/
structure Grows
    (c c' : Client) : Prop where
  pendings :
    ∀ (ref : Nat) (p : Pending),
      c.pendings[ref]? = some p →
        ∃ p', c'.pendings[ref]? = some p' ∧
          p'.asked = p.asked ∧
          (p.answered = true → p'.answered = true)
  engines :
    ∀ engineId, engineId ∈ c.cache.engines →
      engineId ∈ c'.cache.engines

variable {ssl}

/- Nothing is forgotten where nothing is written. -/
theorem Grows.of_eq
    {c' : Client}
    (hPendings : c'.pendings = c.pendings)
    (hCache : c'.cache = c.cache) :
    Grows c c' where
  pendings := by
    intro ref p hp
    rw [hPendings]
    exact ⟨p, hp, rfl, id⟩
  engines := by
    intro engineId hKnown
    rw [hCache]
    exact hKnown

/- What is not forgotten still serves. -/
theorem TaskSound.grow
    {c' : Client}
    (hTask : TaskSound ssl c task)
    (hGrows : Grows c c') :
    TaskSound ssl c' task where
  usable := hTask.usable
  exchange := by
    intro x hx
    rcases hTask.exchange x hx with ⟨p, hp, hSound⟩
    rcases hGrows.pendings _ p hp with ⟨p', hp', hAsked, _⟩
    exact ⟨p', hp', hAsked ▸ hSound⟩
  answered := by
    intro x hx
    rcases hTask.answered x hx with ⟨p, hp, hAnswered⟩
    rcases hGrows.pendings _ p hp with ⟨p', hp', _, hStays⟩
    exact ⟨p', hp', hStays hAnswered⟩
  syncing := by
    intro creds d engineId hWork hPoint
    rcases hTask.syncing creds d engineId hWork hPoint with
      ⟨hKnown, hLevel⟩
    exact ⟨hGrows.engines engineId hKnown, hLevel⟩
  known := by
    intro creds d engineId hWork
    exact hGrows.engines engineId
      (hTask.known creds d engineId hWork)

/- Waking changes nothing of it. -/
theorem TaskSound.nudge
    {task' : Task}
    (hTask : TaskSound ssl c task)
    (hNudged : task.Nudged task') :
    TaskSound ssl c task' := by
  have hExchange :
      task'.point.exchange? = task.point.exchange? := by
    rcases hNudged.point with hSame | hWake
    · rw [hSame]
    · rw [hWake, Point.wake_exchange?]
  have hOver : task'.point.isOver = task.point.isOver := by
    rcases hNudged.point with hSame | hWake
    · rw [hSame]
    · rw [hWake, Point.wake_isOver]
  refine ⟨?_, ?_, ?_, ?_, ?_⟩
  · intro creds hCreds
    rw [hNudged.work] at hCreds ⊢
    rw [hOver]
    rcases hTask.usable creds hCreds with
      hUsable | hEnd | ⟨hStart, hNone⟩
    · exact Or.inl hUsable
    · exact Or.inr (Or.inl hEnd)
    · right
      right
      refine ⟨?_, hNone⟩
      rcases hNudged.point with hSame | hWake
      · rw [hSame, hStart]
      · rw [hWake, hStart]
        rfl
  · intro x hx
    rw [hExchange] at hx
    rcases hTask.exchange x hx with ⟨p, hp, hSound⟩
    refine ⟨p, hp, hSound.key_eq, ?_, ?_⟩
    · rw [hNudged.target]
      exact hSound.sender_eq
    · rw [hNudged.work, hNudged.pdu]
      exact hSound.asks
  · intro x hx
    exact hTask.answered x (hNudged.point_eq hx rfl)
  · intro creds d engineId hWork hPoint
    exact hTask.syncing creds d engineId
      (hNudged.work ▸ hWork) (hNudged.point_eq hPoint rfl)
  · intro creds d engineId hWork
    exact hTask.known creds d engineId (hNudged.work ▸ hWork)

/- A cancellation signal changes no more than a nudge. -/
theorem TaskSound.cancel
    (hTask : TaskSound ssl c task)
    (cancelled : Cancellation) :
    TaskSound ssl c
      { task with
        cancelled := cancelled
        point := task.point.signalled } := by
  have hMarked :
      TaskSound ssl c { task with cancelled := cancelled } :=
    ⟨hTask.usable, fun x hx => by
      rcases hTask.exchange x hx with ⟨p, hp, hSound⟩
      exact ⟨p, hp, hSound.key_eq, hSound.sender_eq,
        hSound.asks⟩, hTask.answered, hTask.syncing,
      hTask.known⟩
  exact hMarked.nudge
    ⟨rfl, rfl, rfl, rfl, signalled_cases task.point⟩

/- A coroutine outside of exchanges is sound. -/
theorem TaskSound.goto
    (hTask : TaskSound ssl c task)
    (hUsable :
      point.isOver = true ∨
        ∀ creds, task.work.credentials? = some creds →
          creds.Usable)
    (hExchange : point.exchange? = none)
    (hSyncing : ∀ engineId, point ≠ .syncing engineId) :
    TaskSound ssl c (task.goto point) where
  usable := by
    intro creds hCreds
    rcases hUsable with hOver | hUsable
    · exact Or.inr (Or.inl hOver)
    · exact Or.inl (hUsable creds hCreds)
  exchange := by
    intro x hx
    rw [Task.goto, hExchange] at hx
    cases hx
  answered := by
    intro x hx
    change point = .returned x none at hx
    rw [hx] at hExchange
    cases hExchange
  syncing := by
    intro creds d engineId _ hPoint
    exact absurd hPoint (hSyncing engineId)
  known := hTask.known

/- At the end there is nothing to keep. -/
theorem TaskSound.over
    (hTask : TaskSound ssl c task)
    (hOver : point.isOver = true) :
    TaskSound ssl c (task.goto point) := by
  refine hTask.goto (Or.inl hOver) ?_ ?_
  · cases point with
    | completed _ _ => rfl
    | threw => rfl
    | ended => rfl
    | _ => cases hOver
  · rintro engineId rfl
    cases hOver

/- A coroutine in an exchange that is sound. -/
theorem TaskSound.of_exchange
    {x : Exchange}
    {p : Pending}
    (hUsable :
      ∀ creds, task.work.credentials? = some creds →
        creds.Usable)
    (hPoint : task.point.exchange? = some x)
    (hp : c.pendings[x.pending]? = some p)
    (hSound : ExchangeSound ssl task x p.asked)
    (hAnswered :
      task.point = .returned x none → p.answered = true)
    (hKnown :
      ∀ creds d engineId, task.work = .sync creds d engineId →
        engineId ∈ c.cache.engines) :
    TaskSound ssl c task where
  usable := fun creds hCreds =>
    Or.inl (hUsable creds hCreds)
  exchange := by
    intro x' hx'
    rw [hPoint] at hx'
    cases hx'
    exact ⟨p, hp, hSound⟩
  answered := by
    intro x' hx'
    rw [hx'] at hPoint
    cases hPoint
    exact ⟨p, hp, hAnswered hx'⟩
  syncing := by
    intro creds d engineId _ hSyncing
    rw [hSyncing] at hPoint
    cases hPoint
  known := hKnown

/- Past its start and before its end, Credentials work. -/
theorem TaskSound.credentials
    (hTask : TaskSound ssl c task)
    (hOver : task.point.isOver = false)
    (hStart :
      task.point ≠ .start ∨ task.work.discovery? ≠ none) :
    ∀ creds, task.work.credentials? = some creds →
      creds.Usable := by
  intro creds hCreds
  rcases hTask.usable creds hCreds with
    hUsable | hEnd | ⟨hPoint, hNone⟩
  · exact hUsable
  · rw [hOver] at hEnd
    cases hEnd
  · rcases hStart with hStart | hStart
    · exact absurd hPoint hStart
    · exact absurd hNone hStart

end Snmpio

------------------------------------------------------------
-- Opening Exchanges
------------------------------------------------------------

namespace Snmpio

variable {ssl : OpenSsl} {events : List Event} {c : Client}

theorem Core.of_eq
    {c' : Client}
    (hCore : Core ssl events c)
    (hKeys : c'.keys.Sound ssl)
    (hCache : c'.cache = c.cache)
    (hPending : c'.pending = c.pending)
    (hPendings : c'.pendings = c.pendings) :
    Core ssl events c' where
  keys := hKeys
  cache := hCache ▸ hCore.cache
  registered := by
    unfold Registered
    rw [hPending, hPendings]
    exact hCore.registered
  answers := by
    rw [hPendings]
    exact hCore.answers

/- What a move has to keep. -/
structure Moved
    (ssl : OpenSsl)
    (events : List Event)
    (c c' : Client)
    (task' : Task) : Prop where
  core : Core ssl events c'
  grows : Grows c c'
  task : TaskSound ssl c' task'

/- A move that changes nothing the invariant is about. -/
theorem Moved.of_eq
    {c' : Client}
    {task' : Task}
    (hCore : Core ssl events c)
    (hTask : TaskSound ssl c task')
    (hKeys : c'.keys.Sound ssl)
    (hCache : c'.cache = c.cache)
    (hPending : c'.pending = c.pending)
    (hPendings : c'.pendings = c.pendings) :
    Moved ssl events c c' task' where
  core := hCore.of_eq hKeys hCache hPending hPendings
  grows := Grows.of_eq hPendings hCache
  task := hTask.grow (Grows.of_eq hPendings hCache)

/- An exchange is opened, perhaps with new keys cached. -/
theorem Moved.open
    {task' : Task}
    {keys : KeyCache}
    {nextId : Int32}
    {x : Exchange}
    {p : Pending}
    (hCore : Core ssl events c)
    (hKeys : keys.Sound ssl)
    (hFresh : p.answered = false)
    (hUsable :
      ∀ creds, task'.work.credentials? = some creds →
        creds.Usable)
    (hPoint : task'.point = .entering x)
    (hRef : x.pending = c.pendings.length)
    (hSound : ExchangeSound ssl task' x p.asked)
    (hKnown :
      ∀ creds d engineId, task'.work = .sync creds d engineId →
        engineId ∈ c.cache.engines) :
    Moved ssl events c
      { c with
        keys := keys
        nextId := nextId
        pendings := c.pendings ++ [p] } task' where
  core := {
    keys := hKeys
    cache := hCore.cache
    registered := by
      intro key ref hLookup
      rcases hCore.registered key ref hLookup with
        ⟨q, hq, hKey⟩
      exact ⟨q, getElem?_append_some hq [p], hKey⟩
    answers := by
      intro ref q hq hAnswered
      rcases getElem?_concat_cases hq with hOld | ⟨_, rfl⟩
      · exact hCore.answers ref q hOld hAnswered
      · rw [hFresh] at hAnswered
        cases hAnswered }
  grows := {
    pendings := fun ref q hq =>
      ⟨q, getElem?_append_some hq [p], rfl, id⟩
    engines := fun _ hKnown => hKnown }
  task := by
    apply TaskSound.of_exchange hUsable (x := x) (p := p)
    · rw [hPoint]
      rfl
    · rw [hRef]
      exact List.getElem?_concat_length
    · exact hSound
    · intro hReturned
      rw [hPoint] at hReturned
      cases hReturned
    · exact hKnown

end Snmpio

------------------------------------------------------------
-- Moves
------------------------------------------------------------

namespace Snmpio

variable {ssl : OpenSsl} {events : List Event}
variable {out : Outside} {c : Client} {task : Task}
variable {creds : Credentials} {d : Nat}
variable {cache : EngineCache} {engineId : Octets}
variable {x : Exchange} {p : Pending}

/- The Community message asks what is to be asked. -/
theorem startV2c_sound
    (hCore : Core ssl events c)
    (hTask : TaskSound ssl c task)
    {community : Octets}
    (hWork : task.work = .v2c community) :
    Moved ssl events c (startV2c c task community).1
      (startV2c c task community).2 := by
  unfold startV2c
  split
  · exact Moved.of_eq hCore (hTask.over rfl) hCore.keys rfl
      rfl rfl
  · simp only [Client.takeNextId]
    split
    · exact Moved.of_eq hCore (hTask.over rfl) hCore.keys
        rfl rfl rfl
    · next datagram hEncoded =>
      refine Moved.open hCore hCore.keys rfl ?_ rfl rfl ?_ ?_
      · intro creds hCreds
        change task.work.credentials? = some creds at hCreds
        rw [hWork] at hCreds
        cases hCreds
      · refine ⟨rfl, rfl, ?_⟩
        change Asks ssl task.work task.pdu _ _ _
        rw [hWork]
        exact ⟨rfl, rfl, hEncoded⟩
      · intro creds d engineId hSync
        exact hTask.known creds d engineId hSync

/- Credentials that cannot be used are refused here. -/
theorem startV3_sound
    (hCore : Core ssl events c)
    (hTask : TaskSound ssl c task)
    {attempt : Nat}
    (hWork : task.work = .v3 creds attempt) :
    Moved ssl events c c (startV3 c task creds) := by
  refine Moved.of_eq hCore ?_ hCore.keys rfl rfl rfl
  unfold startV3
  split
  · exact hTask.over rfl
  · split
    · exact hTask.over rfl
    · next hPriv =>
      split
      · exact hTask.over rfl
      · next hAuth =>
        refine hTask.goto (Or.inr ?_) rfl (by simp)
        intro creds' hCreds
        rw [hWork] at hCreds
        cases hCreds
        exact ⟨fun hLevel hNone => hAuth ⟨hLevel, hNone⟩,
          fun hLevel hNone => hPriv ⟨hLevel, hNone⟩⟩

/- The first message of a discovery names nobody. -/
theorem startIdentify_sound
    (hCore : Core ssl events c)
    (hTask : TaskSound ssl c task)
    (hPoint : task.point = .start)
    (hWork : task.work = .identify creds d) :
    Moved ssl events c (startIdentify ssl out c task).1
      (startIdentify ssl out c task).2 := by
  have hUsable :=
    hTask.credentials (by rw [hPoint]; rfl)
      (Or.inr (by rw [hWork]; simp [Work.discovery?]))
  unfold startIdentify
  simp only [Client.takeNextId]
  split
  · refine Moved.of_eq hCore ?_ hCore.keys rfl rfl rfl
    exact hTask.goto (Or.inr hUsable) rfl (by simp)
  · refine Moved.open hCore hCore.keys rfl hUsable rfl rfl
      ?_ hTask.known
    refine ⟨rfl, rfl, ?_⟩
    change Asks ssl task.work task.pdu _ _ _
    rw [hWork]
    exact ⟨rfl, rfl⟩

theorem EngineCache.Sound.ne_nil
    (hCache : cache.Sound)
    (hKnown : engineId ∈ cache.engines) :
    engineId ≠ [] := by
  rcases Option.isSome_iff_exists.mp
    (AList.lookup_isSome.mpr hKnown) with ⟨engine, hEngine⟩
  exact (hCache engineId engine hEngine).2

/- The second is signed with the engine's keys. -/
theorem startSync_sound
    (hCore : Core ssl events c)
    (hTask : TaskSound ssl c task)
    (hPoint : task.point = .syncing engineId)
    (hWork : task.work = .identify creds d) :
    Moved ssl events c
      (startSync ssl out c task creds d engineId).1
      (startSync ssl out c task creds d engineId).2 := by
  have hUsable :=
    hTask.credentials (by rw [hPoint]; rfl)
      (Or.inl (by rw [hPoint]; simp))
  have hCreds : creds.Usable :=
    hUsable creds (by rw [hWork]; rfl)
  rcases hTask.syncing creds d engineId hWork hPoint with
    ⟨hKnown, hLevel⟩
  rcases hFound : requestKeys ssl c.keys creds engineId with
    ⟨found, keys⟩
  have hSpec := requestKeys_spec hCore.keys hCreds engineId
  rw [hFound] at hSpec
  have hFails :
      ∀ ec, TaskSound ssl c (task.goto (.finishing ec)) := by
    intro ec
    exact hTask.goto (Or.inr hUsable) rfl (by simp)
  unfold startSync
  rw [hFound]
  dsimp only
  split
  · exact Moved.of_eq hCore (hFails _) hSpec.1 rfl rfl rfl
  · next key privKey =>
    rcases hSpec.2 key privKey rfl with ⟨hKey, hPrivKey⟩
    simp only [Client.takeNextId]
    split
    · exact Moved.of_eq hCore (hFails _) hSpec.1 rfl rfl rfl
    · next datagram hEncoded =>
      refine Moved.open hCore hSpec.1 rfl ?_ rfl rfl ?_ ?_
      · intro creds' hCreds'
        cases hCreds'
        exact hCreds
      · exact ⟨rfl, rfl, {
          v3 := rfl
          engineId_eq := rfl
          engineId_ne := hCore.cache.ne_nil hKnown
          authProtocol := rfl
          privProtocol := rfl
          authKey := hKey
          privKey := hPrivKey
          addressed := ⟨_, _, out.salt, rfl, rfl, hEncoded⟩ },
          hLevel⟩
      · intro creds' d' engineId' hSync
        cases hSync
        exact hKnown

/- A request is signed with the engine's keys. -/
theorem sendRequest_sound
    (hCore : Core ssl events c)
    (hTask : TaskSound ssl c task)
    {attempt : Nat}
    (hPoint : task.point = .ensured none)
    (hWork : task.work = .v3 creds attempt) :
    Moved ssl events c (sendRequest ssl out c task creds).1
      (sendRequest ssl out c task creds).2 := by
  have hUsable :=
    hTask.credentials (by rw [hPoint]; rfl)
      (Or.inl (by rw [hPoint]; simp))
  have hCreds : creds.Usable :=
    hUsable creds (by rw [hWork]; rfl)
  unfold sendRequest
  split
  · exact Moved.of_eq hCore (hTask.over rfl) hCore.keys rfl
      rfl rfl
  · next engine hEngine =>
    rcases EngineCache.engineAt_eq_some.mp hEngine with
      ⟨engineId, _, hLookup⟩
    rcases hCore.cache engineId engine hLookup with
      ⟨hEq, hNe⟩
    rcases hFound :
      requestKeys ssl c.keys creds engine.engineId with
      ⟨found, keys⟩
    have hSpec :=
      requestKeys_spec hCore.keys hCreds engine.engineId
    rw [hFound] at hSpec
    dsimp only
    split
    · exact Moved.of_eq hCore (hTask.over rfl) hSpec.1 rfl rfl
        rfl
    · next key privKey =>
      rcases hSpec.2 key privKey rfl with ⟨hKey, hPrivKey⟩
      simp only [Client.takeNextId]
      split
      · exact Moved.of_eq hCore (hTask.over rfl) hSpec.1 rfl
          rfl rfl
      · next datagram hEncoded =>
        refine Moved.open hCore hSpec.1 rfl hUsable rfl rfl
          ?_ hTask.known
        refine ⟨rfl, rfl, ?_⟩
        change Asks ssl task.work task.pdu _ _ _
        rw [hWork]
        exact ⟨{
          v3 := rfl
          engineId_eq := rfl
          engineId_ne := by
            change engine.engineId ≠ []
            rw [hEq]
            exact hNe
          authProtocol := rfl
          privProtocol := rfl
          authKey := hKey
          privKey := hPrivKey
          addressed := ⟨_, _, out.salt, rfl, rfl, hEncoded⟩ },
          rfl⟩

/- The same exchange at another point. -/
theorem TaskSound.continue
    (hTask : TaskSound ssl c task)
    {x' : Exchange}
    {point : Point}
    (hPoint : task.point.exchange? = some x)
    (hNext : point.exchange? = some x')
    (hKey : x'.key = x.key)
    (hDatagram : x'.datagram = x.datagram)
    (hRef : x'.pending = x.pending)
    (hAnswered :
      ∀ p, c.pendings[x.pending]? = some p →
        point = .returned x' none → p.answered = true) :
    TaskSound ssl c (task.goto point) := by
  rcases hTask.exchange x hPoint with ⟨p, hp, hSound⟩
  have hUsable := by
    refine hTask.credentials ?_ ?_
    · cases hOver : task.point with
      | completed _ _ => rw [hOver] at hPoint; cases hPoint
      | threw => rw [hOver] at hPoint; cases hPoint
      | ended => rw [hOver] at hPoint; cases hPoint
      | _ => rfl
    · left
      intro hStart
      rw [hStart] at hPoint
      cases hPoint
  refine TaskSound.of_exchange hUsable hNext (hRef ▸ hp) ?_
    (hAnswered p hp) hTask.known
  refine ⟨?_, hSound.sender_eq, ?_⟩
  · rw [hKey]
    exact hSound.key_eq
  · rw [hKey, hDatagram]
    exact hSound.asks

theorem attemptPoint_exchange?
    (target : Target)
    (x : Exchange) :
    (attemptPoint target x).exchange? = some x := by
  unfold attemptPoint
  split
  · rfl
  · rfl

theorem attemptPoint_ne_returned
    (target : Target)
    (x x' : Exchange)
    (ec : Option Failure) :
    attemptPoint target x ≠ .returned x' ec := by
  unfold attemptPoint
  split
  · simp
  · simp

/- The id is bound to who asked under it. -/
theorem registerPending_core
    (hCore : Core ssl events c)
    {key : Int32}
    {ref : Nat}
    (hp : c.pendings[ref]? = some p)
    (hKey : p.requestId = key) :
    Core ssl events (c.registerPending key ref) := by
  unfold Client.registerPending
  split
  · exact hCore
  · refine ⟨hCore.keys, hCore.cache, ?_, hCore.answers⟩
    intro key' ref' hLookup
    by_cases hSame : key' = key
    · subst hSame
      rw [AList.lookup_insert] at hLookup
      cases hLookup
      exact ⟨p, hp, hKey⟩
    · rw [AList.lookup_insert_ne hSame] at hLookup
      exact hCore.registered key' ref' hLookup

/- The exchange goes on to the wire as it is. -/
theorem enterTransact_sound
    (hCore : Core ssl events c)
    (hTask : TaskSound ssl c task)
    (hPoint : task.point = .entering x) :
    Moved ssl events c (enterTransact out c task x).1
      (enterTransact out c task x).2 := by
  have hExchange : task.point.exchange? = some x := by
    rw [hPoint]
    rfl
  have hFails :
      ∀ ec, TaskSound ssl c
        (task.goto (.returned x (some ec))) := by
    intro ec
    exact hTask.continue hExchange rfl rfl rfl rfl (by simp)
  unfold enterTransact
  split
  · exact Moved.of_eq hCore (hFails _) hCore.keys rfl rfl rfl
  · split
    · exact Moved.of_eq hCore (hFails _) hCore.keys rfl rfl
        rfl
    · next c' hSocket =>
      rcases socketFor_aside hSocket with
        ⟨hAside, hPending, hPendings, hKeys⟩
      rcases hTask.exchange x hExchange with ⟨p, hp, hSound⟩
      have hCore' : Core ssl events c' :=
        hCore.of_eq (hKeys ▸ hCore.keys) hAside.cache hPending
          hPendings
      have hGrows :
          Grows c (c'.registerPending x.key x.pending) := by
        apply Grows.of_eq
        · rw [← hPendings]
          unfold Client.registerPending
          split
          · rfl
          · rfl
        · rw [← hAside.cache]
          exact (registerPending_aside c' _ _).cache
      have hKey : p.requestId = x.key := hSound.key_eq
      refine ⟨registerPending_core hCore' (hPendings ▸ hp)
        hKey, hGrows, ?_⟩
      apply TaskSound.grow _ hGrows
      refine hTask.continue hExchange
        (attemptPoint_exchange? task.target x) rfl rfl rfl ?_
      intro _ _ hReturned
      exact absurd hReturned
        (attemptPoint_ne_returned task.target x x none)

/- Success means that a reply was stored. -/
theorem transactResult_answered
    (hResult : transactResult c task x p = none) :
    p.answered = true := by
  unfold transactResult at hResult
  split_ifs at hResult with hAborted hAnswered
  · exact hAnswered.1
  · split at hResult
    all_goals cases hResult

/- The reply stays for who asked. -/
theorem leaveTransact_sound
    (hCore : Core ssl events c)
    (hTask : TaskSound ssl c task)
    (hPoint : task.point = .leaving x)
    (hp : c.pendings[x.pending]? = some p) :
    Moved ssl events c (leaveTransact c task x p).1
      (leaveTransact c task x p).2 := by
  have hGrows :
      Grows c { c with pending := c.pending.erase x.key } :=
    Grows.of_eq rfl rfl
  refine ⟨⟨hCore.keys, hCore.cache, ?_, hCore.answers⟩,
    hGrows, ?_⟩
  · intro key ref hLookup
    by_cases hSame : key = x.key
    · subst hSame
      rw [leaveTransact, AList.lookup_erase] at hLookup
      cases hLookup
    · rw [leaveTransact, AList.lookup_erase_ne hSame]
        at hLookup
      exact hCore.registered key ref hLookup
  · apply TaskSound.grow _ hGrows
    refine hTask.continue (by rw [hPoint]; rfl) rfl rfl rfl
      rfl ?_
    intro q hq hReturned
    rw [hp] at hq
    cases hq
    injection hReturned with _ hResult
    exact transactResult_answered hResult

/- A failure completes, or ends the discovery. -/
theorem afterFailure_sound
    (hTask : TaskSound ssl c task)
    {ec : Failure}
    (hPoint : task.point = .returned x (some ec)) :
    TaskSound ssl c (afterFailure task ec) := by
  have hUsable :=
    hTask.credentials (by rw [hPoint]; rfl)
      (Or.inl (by rw [hPoint]; simp))
  unfold afterFailure
  split
  · exact hTask.over rfl
  · exact hTask.over rfl
  · exact hTask.goto (Or.inr hUsable) rfl (by simp)
  · exact hTask.goto (Or.inr hUsable) rfl (by simp)

/- An entry replaced under its own engineID. -/
theorem EngineCache.Sound.insert
    (hCache : cache.Sound)
    {engine : EngineState}
    (hEngineId : engine.engineId = engineId)
    (hNe : engineId ≠ [])
    (index : AList (fun _ : Endpoint => Octets)) :
    EngineCache.Sound
      { engines := cache.engines.insert engineId engine
        index := index } := by
  intro other found hFound
  by_cases hSame : other = engineId
  · subst hSame
    rw [AList.lookup_insert] at hFound
    cases hFound
    exact ⟨hEngineId, hNe⟩
  · rw [AList.lookup_insert_ne hSame] at hFound
    exact hCache other found hFound

/- Whatever a reply writes, the cache stays sound. -/
theorem ReplyWrite.sound
    (hWrite : ReplyWrite c task p cache)
    (hCache : c.cache.Sound)
    (hTask : TaskSound ssl c task) :
    cache.Sound ∧
      ∀ engineId, engineId ∈ c.cache.engines →
        engineId ∈ cache.engines := by
  have hInsert :
      ∀ (e : Octets) (engine : EngineState) (other : Octets),
        other ∈ c.cache.engines →
          other ∈ c.cache.engines.insert e engine := by
    intro e engine other hKnown
    exact (AList.mem_insert _).mpr (Or.inr hKnown)
  cases hWrite with
  | none => exact ⟨hCache, fun _ hKnown => hKnown⟩
  | answered _ hWrite =>
      cases hWrite with
      | none => exact ⟨hCache, fun _ hKnown => hKnown⟩
      | forgotten => exact ⟨hCache, fun _ hKnown => hKnown⟩
      | distrusted _ _ _ hEngine _ _ =>
          rcases hCache _ _ hEngine with ⟨hEq, hNe⟩
          refine ⟨?_, hInsert _ _⟩
          apply hCache.insert _ hNe
          exact hEq
      | adopted _ _ hEngine _ =>
          rcases hCache _ _ hEngine with ⟨hEq, hNe⟩
          refine ⟨?_, hInsert _ _⟩
          apply hCache.insert _ hNe
          exact hEq
  | identified _ hEngineId =>
      refine ⟨?_, hInsert _ _⟩
      apply hCache.insert _ hEngineId
      split
      · rfl
      · rfl
  | based hWork _ _ =>
      have hKnown := hTask.known _ _ _ hWork
      rcases Option.isSome_iff_exists.mp
        (AList.lookup_isSome.mpr hKnown) with
        ⟨engine, hEngine⟩
      refine ⟨?_, hInsert _ _⟩
      apply hCache.insert _ (hCache.ne_nil hKnown)
      rw [hEngine]
      exact (hCache _ engine hEngine).1

/- One more attempt keeps the Credentials. -/
theorem afterAnswer_task
    (hTask : TaskSound ssl c task)
    (hUsable : creds.Usable)
    (attempt : Nat)
    (p : Pending) :
    TaskSound ssl c
      (afterAnswer c task creds attempt p).2 := by
  unfold afterAnswer
  dsimp only
  split
  · split
    · exact hTask.over rfl
    · split
      · refine ⟨?_, ?_, ?_, ?_, ?_⟩
        · intro creds' hCreds
          cases hCreds
          exact Or.inl hUsable
        · intro x hx
          cases hx
        · intro x hx
          cases hx
        · intro creds' d engineId hOther
          cases hOther
        · intro creds' d engineId hOther
          cases hOther
      · exact hTask.over rfl
  · exact hTask.over rfl

/- The engine that was named is in the cache. -/
theorem afterIdentify_task
    (hTask : TaskSound ssl c task)
    (hWork : task.work = .identify creds d)
    (hUsable :
      ∀ creds', task.work.credentials? = some creds' →
        creds'.Usable)
    (hGrows : Grows c (afterIdentify c task creds p).1) :
    TaskSound ssl (afterIdentify c task creds p).1
      (afterIdentify c task creds p).2 := by
  have hFinish :
      ∀ ec, TaskSound ssl (afterIdentify c task creds p).1
        (task.goto (.finishing ec)) := by
    intro ec
    exact (hTask.goto (Or.inr hUsable) rfl (by simp)).grow
      hGrows
  revert hFinish hGrows
  unfold afterIdentify
  dsimp only
  split
  · intro _ hFinish
    exact hFinish _
  · split
    · intro _ hFinish
      exact hFinish _
    · next hLevel =>
      split
      · intro _ hFinish
        exact hFinish _
      · intro hGrows _
        rw [not_not] at hLevel
        refine ⟨?_, ?_, ?_, ?_, ?_⟩
        · intro creds' hCreds
          exact Or.inl (hUsable creds' hCreds)
        · intro x hx
          cases hx
        · intro x hx
          cases hx
        · intro creds' d' engineId hSame hPoint
          change task.work = .identify creds' d' at hSame
          rw [hWork] at hSame
          cases hSame
          cases hPoint
          exact ⟨(AList.mem_insert _).mpr (Or.inl rfl),
            hLevel⟩
        · intro creds' d' engineId hOther
          change task.work = .sync creds' d' engineId
            at hOther
          rw [hWork] at hOther
          cases hOther

/- Whatever the reply, the operation goes on soundly. -/
theorem afterSuccess_sound
    (hCore : Core ssl events c)
    (hTask : TaskSound ssl c task)
    (hPoint : task.point = .returned x none) :
    Moved ssl events c (afterSuccess c task p).1
      (afterSuccess c task p).2 := by
  have hUsable :=
    hTask.credentials (by rw [hPoint]; rfl)
      (Or.inl (by rw [hPoint]; simp))
  have hClient := afterSuccess_client c task p
  rcases (afterSuccess_write c task p).sound hCore.cache
    hTask with ⟨hCache, hEngines⟩
  have hGrows : Grows c (afterSuccess c task p).1 := by
    refine ⟨?_, hEngines⟩
    rw [hClient]
    exact fun ref q hq => ⟨q, hq, rfl, id⟩
  refine ⟨?_, hGrows, ?_⟩
  · rw [hClient]
    exact ⟨hCore.keys, hCache, hCore.registered,
      hCore.answers⟩
  · revert hGrows
    unfold afterSuccess
    split
    · intro hGrows
      exact (hTask.over rfl).grow hGrows
    · next creds attempt hWork =>
      intro hGrows
      exact (afterAnswer_task hTask
        (hUsable creds (by rw [hWork]; rfl)) attempt p).grow
        hGrows
    · next creds d hWork =>
      intro hGrows
      exact afterIdentify_task hTask hWork hUsable hGrows
    · next creds d engineId hWork =>
      intro hGrows
      refine TaskSound.grow ?_ hGrows
      unfold afterSync
      split
      · exact hTask.goto (Or.inr hUsable) rfl (by simp)
      · split
        · exact hTask.goto (Or.inr hUsable) rfl (by simp)
        · exact hTask.goto (Or.inr hUsable) rfl (by simp)

/- A running coroutine keeps the invariant. -/
theorem Move.sound
    {c' : Client}
    {task' : Task}
    {spawned : Option Task}
    (hMove : Move ssl out c task c' task' spawned)
    (hCore : Core ssl events c)
    (hTask : TaskSound ssl c task) :
    Moved ssl events c c' task' ∧
      ∀ other, spawned = some other →
        TaskSound ssl c' other := by
  have hAlone :
      ∀ c', ∀ other, (none : Option Task) = some other →
        TaskSound ssl c' other := by
    intro c' other hNone
    cases hNone
  cases hMove with
  | beginV2c hPoint hWork =>
      exact ⟨startV2c_sound hCore hTask hWork, hAlone _⟩
  | beginV3 hPoint hWork =>
      exact ⟨startV3_sound hCore hTask hWork, hAlone _⟩
  | beginIdentify hPoint hWork =>
      exact ⟨startIdentify_sound hCore hTask hPoint hWork,
        hAlone _⟩
  | ensure hPoint hWork hEnsure =>
      have hUsable :=
        hTask.credentials (by rw [hPoint]; rfl)
          (Or.inl (by rw [hPoint]; simp))
      rcases ensureEngine_cases hEnsure with
        ⟨rfl, rfl, rfl, _⟩ | ⟨d, _, rfl, rfl, rfl⟩ |
          ⟨_, rfl, rfl, rfl⟩
      · refine ⟨Moved.of_eq hCore ?_ hCore.keys rfl rfl rfl,
          hAlone _⟩
        exact hTask.goto (Or.inr hUsable) rfl (by simp)
      · refine ⟨Moved.of_eq hCore ?_ hCore.keys rfl rfl rfl,
          hAlone _⟩
        exact hTask.goto (Or.inr hUsable) rfl (by simp)
      · refine ⟨Moved.of_eq hCore ?_ hCore.keys rfl rfl rfl,
          ?_⟩
        · exact hTask.goto (Or.inr hUsable) rfl (by simp)
        · intro other hOther
          cases hOther
          refine ⟨?_, ?_, ?_, ?_, ?_⟩
          · intro creds' hCreds
            exact Or.inl (hUsable creds' (by
              rw [hWork]
              exact hCreds))
          · intro x hx
            cases hx
          · intro x hx
            cases hx
          · intro creds' d' engineId _ hSyncing
            cases hSyncing
          · intro creds' d' engineId hOther
            cases hOther
  | park hPoint hWork =>
      have hUsable :=
        hTask.credentials (by rw [hPoint]; rfl)
          (Or.inl (by rw [hPoint]; simp))
      refine ⟨Moved.of_eq hCore ?_ hCore.keys rfl rfl rfl,
        hAlone _⟩
      exact hTask.goto (Or.inr hUsable) rfl (by simp)
  | fail hPoint hWork =>
      exact ⟨Moved.of_eq hCore (hTask.over rfl) hCore.keys rfl
        rfl rfl, hAlone _⟩
  | send hPoint hWork =>
      exact ⟨sendRequest_sound hCore hTask hPoint hWork,
        hAlone _⟩
  | enter hPoint =>
      exact ⟨enterTransact_sound hCore hTask hPoint,
        hAlone _⟩
  | leave hPoint hp =>
      exact ⟨leaveTransact_sound hCore hTask hPoint hp,
        hAlone _⟩
  | failed hPoint =>
      exact ⟨Moved.of_eq hCore (afterFailure_sound hTask hPoint)
        hCore.keys rfl rfl rfl, hAlone _⟩
  | succeeded hPoint hp =>
      exact ⟨afterSuccess_sound hCore hTask hPoint, hAlone _⟩
  | beginSync hPoint hWork =>
      exact ⟨startSync_sound hCore hTask hPoint hWork,
        hAlone _⟩
  | finish hPoint hDiscovery =>
      exact ⟨Moved.of_eq hCore (hTask.over rfl) hCore.keys rfl
        rfl rfl, hAlone _⟩

end Snmpio

------------------------------------------------------------
-- Runs
------------------------------------------------------------

namespace Snmpio

variable {ssl : OpenSsl} {events : List Event} {c : Client}
variable {c' : Client} {t : Nat} {task' : Task}
variable {sender : Endpoint} {datagram : Octets}
variable {p : Pending}

/- A longer history explains no less. -/
theorem Core.more
    (hCore : Core ssl events c)
    (e : Event) :
    Core ssl (events ++ [e]) c := by
  refine ⟨hCore.keys, hCore.cache, hCore.registered, ?_⟩
  intro ref p hp hAnswered
  rcases hCore.answers ref p hp hAnswered with
    ⟨sender, datagram, hMem, hReply⟩
  exact ⟨sender, datagram, List.mem_append_left _ hMem,
    hReply⟩

/- Waking keeps it. -/
theorem Sound.nudge
    (hSound : Sound ssl events c)
    (hNudged : Nudged c c') :
    Sound ssl events c' := by
  have hGrows : Grows c c' :=
    Grows.of_eq hNudged.pendings hNudged.cache
  refine ⟨hSound.core.of_eq (hNudged.keys ▸ hSound.core.keys)
    hNudged.cache hNudged.pending hNudged.pendings, ?_⟩
  intro t task' hTask'
  rcases hNudged.tasks t task' hTask' with
    ⟨task, hTask, hSame⟩
  exact ((hSound.tasks t task hTask).grow hGrows).nudge hSame

/- The head of the strand keeps it. -/
theorem Sound.advance
    {out : Outside}
    {rest : List Nat}
    {task : Task}
    {spawned : Option Task}
    (hSound : Sound ssl events c)
    (hTask : c.tasks[t]? = some task)
    (hMove : Move ssl out c task c' task' spawned) :
    Sound ssl events (c'.settle t rest task' spawned) := by
  rcases hMove.sound hSound.core (hSound.tasks t task hTask)
    with ⟨hMoved, hSpawned⟩
  have hSettled :
      ∀ found, TaskSound ssl c' found →
        TaskSound ssl (c'.settle t rest task' spawned)
          found := by
    intro found hFound
    apply hFound.grow
    cases spawned with
    | none => exact Grows.of_eq rfl rfl
    | some other => exact Grows.of_eq rfl rfl
  refine ⟨?_, ?_⟩
  · cases spawned with
    | none =>
        exact hMoved.core.of_eq hMoved.core.keys rfl rfl rfl
    | some other =>
        exact hMoved.core.of_eq hMoved.core.keys rfl rfl rfl
  · intro i found hFound
    apply hSettled
    rcases settle_task hFound with
      ⟨_, rfl⟩ | ⟨_, hOther⟩ | ⟨_, hOther⟩
    · exact hMoved.task
    · rcases hMove.tasks hOther with ⟨before, hBefore, hSame⟩
      exact ((hSound.tasks i before hBefore).grow
        hMoved.grows).nudge hSame
    · exact hSpawned found hOther

/- What a delivered datagram leaves in the exchange. -/
theorem Delivered.asked
    {p' : Pending}
    (hDelivered : Delivered ssl sender datagram p p') :
    p'.asked = p.asked ∧
      (p.answered = true → p'.answered = true) := by
  cases hDelivered with
  | dropped hSame =>
      rcases hSame with ⟨e, rfl⟩
      exact ⟨rfl, id⟩
  | accepted hAsked hAnswered _ =>
      exact ⟨hAsked, fun _ => hAnswered⟩

/- The reason for a drop is no part of the answer. -/
theorem Answered.drop
    (hReply : Answered ssl p sender datagram)
    (reason : Option Errc) :
    Answered ssl { p with dropReason := reason } sender
      datagram := by
  unfold Answered at hReply ⊢
  dsimp only
  split
  · next hV3 =>
    rw [if_pos hV3] at hReply
    rcases hReply with ⟨msg, opened, h⟩
    exact ⟨msg, opened, {
      decoded := h.decoded
      sender_eq := h.sender_eq
      msgId_eq := h.msgId_eq
      opens := h.opens
      response_eq := h.response_eq
      security_eq := h.security_eq
      checked := h.checked
      verified := h.verified
      type_eq := h.type_eq
      requestId_eq := h.requestId_eq
      engineId_eq := h.engineId_eq
      authenticated := h.authenticated }⟩
  · next hV2c =>
    rw [if_neg hV2c] at hReply
    rcases hReply with ⟨msg, h⟩
    exact ⟨msg, {
      decoded := h.decoded
      sender_eq := h.sender_eq
      type_eq := h.type_eq
      requestId_eq := h.requestId_eq
      community_eq := h.community_eq
      response_eq := h.response_eq }⟩

/- A delivery to one exchange keeps the invariant. -/
theorem Sound.deliver
    {ref : Nat}
    {p' : Pending}
    (hSound : Sound ssl events c)
    (hp : c.pendings[ref]? = some p)
    (hDelivered : Delivered ssl sender datagram p p') :
    Sound ssl (events ++ [.receive sender datagram])
      { c with pendings := c.pendings.set ref p' } := by
  rcases hDelivered.asked with ⟨hAsked, hStays⟩
  have hBound := (List.getElem?_eq_some_iff.mp hp).1
  have hGrows :
      Grows c { c with pendings := c.pendings.set ref p' } := by
    refine ⟨?_, fun _ hKnown => hKnown⟩
    intro ref' q hq
    by_cases hSame : ref' = ref
    · subst hSame
      rw [hp] at hq
      cases hq
      exact ⟨p', List.getElem?_set_self hBound, hAsked,
        hStays⟩
    · refine ⟨q, ?_, rfl, id⟩
      rw [List.getElem?_set_ne (Ne.symm hSame)]
      exact hq
  refine ⟨⟨hSound.core.keys, hSound.core.cache, ?_, ?_⟩, ?_⟩
  · intro key ref' hLookup
    rcases hSound.core.registered key ref' hLookup with
      ⟨q, hq, hKey⟩
    rcases hGrows.pendings ref' q hq with ⟨q', hq', hSame, _⟩
    have hId : q'.asked.requestId = q.asked.requestId :=
      congrArg Pending.requestId hSame
    exact ⟨q', hq', hId.trans hKey⟩
  · intro ref' q hq hAnswered
    have hBefore := (hSound.core.more
      (.receive sender datagram)).answers
    rcases getElem?_set_cases hq with ⟨rfl, rfl⟩ | ⟨_, hq⟩
    · cases hDelivered with
      | dropped hSame =>
          rcases hSame with ⟨e, rfl⟩
          rcases hBefore ref' p hp hAnswered with
            ⟨sender', datagram', hMem, hReply⟩
          exact ⟨sender', datagram', hMem, hReply.drop _⟩
      | accepted _ _ hReply =>
          exact ⟨sender, datagram, by simp, hReply⟩
    · exact hBefore ref' q hq hAnswered
  · intro t task hTask
    exact (hSound.tasks t task hTask).grow hGrows

/- A coroutine that is resumed keeps the invariant. -/
theorem Resumes.sound
    {e : Event}
    {task : Task}
    {point : Point}
    (hResumes : Resumes c t task e point)
    (hTask : TaskSound ssl c task) :
    TaskSound ssl c (task.goto point) := by
  cases hResumes with
  | sent ec hPoint =>
      have hExchange := congrArg Point.exchange? hPoint
      unfold afterSend
      split
      · exact hTask.continue hExchange rfl rfl rfl rfl
          (by simp)
      · exact hTask.continue hExchange rfl rfl rfl rfl
          (by simp)
  | waited hPoint hp =>
      have hExchange := congrArg Point.exchange? hPoint
      unfold afterWait
      split
      · exact hTask.continue hExchange rfl rfl rfl rfl
          (by simp)
      · split
        · exact hTask.continue hExchange rfl rfl rfl rfl
            (by simp)
        · refine hTask.continue hExchange
            (attemptPoint_exchange? _ _) rfl rfl rfl ?_
          intro _ _ hReturned
          exact absurd hReturned
            (attemptPoint_ne_returned _ _ _ _)
  | unparked hPoint hd =>
      have hUsable :=
        hTask.credentials (by rw [hPoint]; rfl)
          (Or.inl (by rw [hPoint]; simp))
      unfold afterPark
      split
      · exact hTask.over rfl
      · split
        · exact hTask.goto (Or.inr hUsable) rfl (by simp)
        · split
          · exact hTask.goto (Or.inr hUsable) rfl (by simp)
          · exact hTask.goto (Or.inr hUsable) rfl (by simp)

/- A new request has not used its Credentials yet. -/
theorem beginWork_sound
    (c : Client)
    (target : Target)
    (auth : Auth)
    (pdu : Pdu) :
    TaskSound ssl c
      { work := beginWork auth, target := target, pdu := pdu }
    where
  usable := by
    intro creds _
    right
    right
    cases auth with
    | community value => exact ⟨rfl, rfl⟩
    | credentials creds => exact ⟨rfl, rfl⟩
  exchange := by
    intro x hx
    cases hx
  answered := by
    intro x hx
    cases hx
  syncing := by
    intro creds d engineId _ hPoint
    cases hPoint
  known := by
    intro creds d engineId hWork
    cases auth with
    | community value => cases hWork
    | credentials creds => cases hWork

/- One coroutine moves, the Client is otherwise the same. -/
theorem Sound.set
    (hSound : Sound ssl events c)
    (hTask' : TaskSound ssl c task') :
    Sound ssl events
      { c with tasks := c.tasks.set t task' } := by
  refine ⟨hSound.core.of_eq hSound.core.keys rfl rfl rfl, ?_⟩
  intro i found hFound
  rcases getElem?_set_cases hFound with
    ⟨_, rfl⟩ | ⟨_, hOther⟩
  · exact hTask'.grow (Grows.of_eq rfl rfl)
  · exact (hSound.tasks i found hOther).grow
      (Grows.of_eq rfl rfl)

/- So does who was resumed. -/
theorem Sound.place
    (hSound : Sound ssl events c)
    (hTask' : TaskSound ssl c task')
    (rest : List Nat) :
    Sound ssl events (c.place t rest task') := by
  have hSet := hSound.set (t := t) hTask'
  refine ⟨hSet.core.of_eq hSet.core.keys rfl rfl rfl, ?_⟩
  intro i found hFound
  exact (hSet.tasks i found hFound).grow
    (Grows.of_eq rfl rfl)

/- A new coroutine joins. -/
theorem Sound.spawn
    (hSound : Sound ssl events c)
    (hTask' : TaskSound ssl c task') :
    Sound ssl events (c.spawn task') := by
  have hGrows : Grows c (c.spawn task') :=
    Grows.of_eq rfl rfl
  refine ⟨hSound.core.of_eq hSound.core.keys rfl rfl rfl, ?_⟩
  intro i found hFound
  apply TaskSound.grow _ hGrows
  rcases getElem?_concat_cases hFound with hOld | ⟨_, rfl⟩
  · exact hSound.tasks i found hOld
  · exact hTask'

/- Whoever waits for a discovery is woken. -/
theorem Sound.finishDiscovery
    (hSound : Sound ssl events c)
    (endpoint : Endpoint)
    (d : Nat)
    (discovery : Discovery) :
    Sound ssl events
      (finishDiscovery c endpoint d discovery) := by
  refine ⟨hSound.core.of_eq hSound.core.keys rfl rfl rfl, ?_⟩
  intro t task' hTask'
  rcases cancelTimers_tasks hTask' with ⟨task, hTask, rfl⟩
  refine TaskSound.nudge ?_ (Task.wakeOn_nudged _ task)
  exact (hSound.tasks t task hTask).grow
    (Grows.of_eq rfl rfl)

/- Every event keeps it. -/
theorem Sound.step
    {e : Event}
    (hSound : Sound ssl events c)
    (hStep : step ssl c e = some c') :
    Sound ssl (events ++ [e]) c' := by
  have hMore : Sound ssl (events ++ [e]) c :=
    ⟨hSound.core.more e, hSound.tasks⟩
  cases step_cases hStep with
  | advanced hStrand hTask hMove =>
      exact hMore.advance hTask hMove
  | requested hIdle =>
      exact hMore.spawn (beginWork_sound c _ _ _)
  | received hIdle =>
      rcases receive_cases hSound.core.registered _ _ with
        hSame | ⟨ref, p, p', hp, hDelivered, hNudged⟩
      · rw [hSame]
        exact hMore
      · exact (hSound.deliver hp hDelivered).nudge hNudged
  | resumed hIdle hTask hResumes =>
      exact hMore.place
        (hResumes.sound (hSound.tasks _ _ hTask)) []
  | raised hStrand hTask _ _ =>
      exact (hMore.finishDiscovery _ _ _).place
        (((hSound.tasks _ _ hTask).over rfl).grow
          (Grows.of_eq rfl rfl)) _
  | signalled hIdle hTask _ _ =>
      exact hMore.set
        ((hSound.tasks _ _ hTask).cancel _)
  | nudged hNudged => exact hMore.nudge hNudged

/- So it holds in every run. -/
theorem sound_of_run
    {id : Int32}
    {now : Int}
    (hRun :
      Machine.run (step ssl) (fresh id now) events = some c) :
    Sound ssl events c := by
  refine Machine.run_invariant (P := Sound ssl) ?_ ?_ hRun
  · refine ⟨⟨?_, ?_, ?_, ?_⟩, ?_⟩
    · intro name key hLookup
      cases hLookup
    · intro engineId engine hLookup
      cases hLookup
    · intro key ref hLookup
      cases hLookup
    · intro ref p hp
      cases hp
    · intro t task hTask
      cases hTask
  · intro events s e s' _ hSound hStep
    exact hSound.step hStep

end Snmpio
