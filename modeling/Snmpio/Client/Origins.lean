import Snmpio.Client.Completion

/-
  Where the library's own errors come from.

  An error comes up at one move of one coroutine, and is
  handed on from there: from an exchange to its coroutine,
  from a discovery to the requests that are queued behind
  it.  So every error that a coroutine has come to has an
  origin in the run, in itself or in a discovery of its
  endpoint, and its code says what happened there.

  Key definitions include:
    * `Task.letter?`
    * `Arises`
    * `ComesUp`
    * `ArisesIn`

  Key theorems include:
    * `Move.arises`
    * `traced_of_run`
    * `dropsKnown_of_run`
-/

------------------------------------------------------------
-- Errors of Coroutines
------------------------------------------------------------

namespace Snmpio

variable {e : Errc}

/- The error that a coroutine has come to. -/
def Point.failure? :
    Point → Option Errc
| ensured (some (.errc e)) => some e
| returned _ (some (.errc e)) => some e
| finishing (some (.errc e)) => some e
| completed (some (.errc e)) _ => some e
| _ => none

@[simp]
theorem Point.wake_failure?
    (point : Point) :
    point.wake.failure? = point.failure? := by
  cases point with
  | _ => rfl

/- A code that is an error of the library's own. -/
theorem completed_failure?
    {ec : Failure}
    {resp : Response}
    (hFailure :
      (Point.completed (some ec.code) resp).failure? =
        some e) :
    ec = .errc e := by
  cases ec with
  | errc found =>
      cases hFailure
      rfl
  | system found =>
      cases found with
      | operationAborted => cases hFailure
      | other code => cases hFailure

/- A Report is an error, or reason to ask again. -/
theorem handleReport_error
    {cache : EngineCache}
    {now : Int}
    {sender : Endpoint}
    {p : Pending}
    {mayRetry : Bool}
    (hError :
      (handleReport cache now sender p mayRetry).1 = some e) :
    e = reportError (usmStatsCounter p.response) := by
  unfold handleReport at hError
  split at hError
  · next hCounter =>
    cases hError
    rw [hCounter]
  · next counter hCounter =>
    rw [hCounter]
    split at hError
    · cases hError
      rfl
    · split at hError
      · cases hError
        rfl
      · split at hError
        · cases hError
        · split at hError
          · cases hError
          · split at hError
            · cases hError
            · cases hError

/- Asking again is for the first attempt only. -/
theorem handleReport_last
    (cache : EngineCache)
    (now : Int)
    (sender : Endpoint)
    (p : Pending) :
    (handleReport cache now sender p false).1 =
      some (reportError (usmStatsCounter p.response)) := by
  unfold handleReport
  split
  · next hNone => rw [hNone]
  · next counter hCounter =>
    rw [hCounter]
    simp

/- A failed exchange fails its coroutine in the same way. -/
theorem afterFailure_failure?
    {task : Task}
    {ec : Failure}
    (hFailure :
      (afterFailure task ec).point.failure? = some e) :
    ec = .errc e := by
  unfold afterFailure at hFailure
  split at hFailure
  · exact completed_failure? hFailure
  · exact completed_failure? hFailure
  all_goals
    cases ec with
    | errc found =>
        cases hFailure
        rfl
    | system _ => cases hFailure

end Snmpio

------------------------------------------------------------
-- Origins
------------------------------------------------------------

namespace Snmpio

variable {ssl : OpenSsl} {c c' : Client} {task task' : Task}
variable {t : Nat} {event : Event} {e : Errc}
variable {creds : Credentials} {attempt : Nat}
variable {out : Outside} {x : Exchange} {p : Pending}

/- Where a coroutine looks at the flag of Stopping. -/
def Point.minds :
    Point → Bool
| start => true
| entering _ => true
| leaving _ => true
| parked _ _ => true
| _ => false

/-
  What a coroutine is about to encode for an Engine: its
  request, with the Engine's clock as it is now, or the
  message of a time-sync phase.
-/
def Task.letter?
    (c : Client)
    (task : Task) : Option (UsmParameters × ScopedPdu) :=
  match task.point, task.work with
  | .ensured none, .v3 creds _ =>
      (c.cache.engineAt task.target.endpoint).map
        (fun engine =>
          ({ engineId := engine.engineId
             boots := engine.boots
             time := Int32.ofInt
               (min (engine.projected c.now) timeCeiling)
             userName := creds.userName },
           { contextEngineId := engine.engineId
             pdu := { task.pdu with requestId := c.nextId } }))
  | .syncing engineId, .identify creds _ =>
      some
        ({ engineId := engineId, userName := creds.userName },
          discoveryScopedPdu c.nextId engineId)
  | _, _ => none

theorem Task.letter?_request
    {engine : EngineState}
    (hPoint : task.point = .ensured none)
    (hWork : task.work = .v3 creds attempt)
    (hEngine :
      c.cache.engineAt task.target.endpoint = some engine) :
    task.letter? c = some
      ({ engineId := engine.engineId
         boots := engine.boots
         time := Int32.ofInt
           (min (engine.projected c.now) timeCeiling)
         userName := creds.userName },
       { contextEngineId := engine.engineId
         pdu := { task.pdu with requestId := c.nextId } }) := by
  simp only [letter?, hPoint, hWork, hEngine,
    Option.map_some]

theorem Task.letter?_sync
    {d : Nat}
    {engineId : Octets}
    (hPoint : task.point = .syncing engineId)
    (hWork : task.work = .identify creds d) :
    task.letter? c = some
      ({ engineId := engineId, userName := creds.userName },
        discoveryScopedPdu c.nextId engineId) := by
  simp only [letter?, hPoint, hWork]

/-
  How an error comes up in a coroutine, which until then had
  none: each case is a place of the source that makes one.
-/
inductive Arises
    (ssl : OpenSsl)
    (c : Client)
    (event : Event)
    (task : Task) :
    Errc → Prop where
  -- At every place that looks at the flag of Stopping.
  | stopped
      (hMinds : task.point.minds = true)
      (hStopping : c.stopping = true) :
      Arises ssl c event task .clientStopped
  -- In making a message.
  | unencodable
      {community : Octets}
      {e : Errc}
      (hPoint : task.point = .start)
      (hWork : task.work = .v2c community)
      (hEncoded :
        (encodeV2cMessage community
          { task.pdu with requestId := c.nextId }).2 =
            some e) :
      Arises ssl c event task e
  | withoutPrivacy
      {creds : Credentials}
      {attempt : Nat}
      (hPoint : task.point = .start)
      (hWork : task.work = .v3 creds attempt)
      (hLevel : creds.level.isEncrypted = true)
      (hNone : creds.privProtocol = .none) :
      Arises ssl c event task .unsupportedPrivProtocol
  | withoutDigest
      {creds : Credentials}
      {attempt : Nat}
      (hPoint : task.point = .start)
      (hWork : task.work = .v3 creds attempt)
      (hLevel : creds.level.isAuthenticated = true)
      (hNone : creds.authProtocol = .none)
      (hHas :
        ¬ (creds.level.isEncrypted = true ∧
          creds.privProtocol = .none)) :
      Arises ssl c event task .unsupportedAuthProtocol
  | keys
      {creds : Credentials}
      {usm : UsmParameters}
      {scopedPdu : ScopedPdu}
      {e : Errc}
      (hCreds : task.work.credentials? = some creds)
      (hLetter : task.letter? c = some (usm, scopedPdu))
      (hKeys :
        (requestKeys ssl c.keys creds usm.engineId).1 =
          .error e) :
      Arises ssl c event task e
  | encoding
      {out : Outside}
      {creds : Credentials}
      {usm : UsmParameters}
      {scopedPdu : ScopedPdu}
      {authKey privKey : Octets}
      {e : Errc}
      (hEvent : event = .advance out)
      (hCreds : task.work.credentials? = some creds)
      (hLetter : task.letter? c = some (usm, scopedPdu))
      (hKeys :
        (requestKeys ssl c.keys creds usm.engineId).1 =
          .ok (authKey, privKey))
      (hEncoded :
        (encodeV3Message ssl
          { msgId := c.nextId, level := creds.level } usm
          scopedPdu creds.authProtocol authKey
          creds.privProtocol privKey out.salt).1 =
            .error e) :
      Arises ssl c event task e
  -- For lack of an Engine, or of its id.
  | forgotten
      {creds : Credentials}
      {attempt : Nat}
      (hWork : task.work = .v3 creds attempt)
      (hPoint : task.point = .ensured none)
      (hNone :
        c.cache.engineAt task.target.endpoint = none) :
      Arises ssl c event task .unknownEngineId
  | unnamed
      {creds : Credentials}
      {d : Nat}
      {x : Exchange}
      {p : Pending}
      (hWork : task.work = .identify creds d)
      (hPoint : task.point = .returned x none)
      (hp : c.pendings[x.pending]? = some p)
      (hEngineId : p.security.engineId = []) :
      Arises ssl c event task .unknownEngineId
  -- By a reply.
  | outworn
      {creds : Credentials}
      {d : Nat}
      {engineId : Octets}
      {x : Exchange}
      {p : Pending}
      (hWork : task.work = .sync creds d engineId)
      (hPoint : task.point = .returned x none)
      (hp : c.pendings[x.pending]? = some p)
      (hBoots : p.security.boots = bootsCeiling) :
      Arises ssl c event task .notInTimeWindow
  | reported
      {x : Exchange}
      {p : Pending}
      (hPoint : task.point = .returned x none)
      (hp : c.pendings[x.pending]? = some p)
      (hKind :
        (∃ creds attempt, task.work = .v3 creds attempt ∧
            p.response.type = .report ∧
            (handleReport c.cache c.now task.target.endpoint
              p (attempt = 0)).1.isSome = true) ∨
          ∃ creds d engineId,
            task.work = .sync creds d engineId ∧
              p.replyAuthenticated = false) :
      Arises ssl c event task
        (reportError (usmStatsCounter p.response))
  -- For lack of one: `transact` has left its loop.
  | unanswered
      {x : Exchange}
      {p : Pending}
      (hPoint : task.point = .leaving x)
      (hp : c.pendings[x.pending]? = some p)
      (hOpen : p.answered = false)
      (hEc : x.ec = none)
      (hCancelled : task.cancelled = {})
      (hStopping : c.stopping = false) :
      Arises ssl c event task (p.dropReason.getD .timeout)

theorem startV2c_arises
    {community : Octets}
    (hPoint : task.point = .start)
    (hWork : task.work = .v2c community)
    (hFailure :
      (startV2c c task community).2.point.failure? = some e) :
    Arises ssl c event task e := by
  unfold startV2c at hFailure
  split at hFailure
  · next hStopping =>
    cases hFailure
    exact .stopped (by rw [hPoint]; rfl) hStopping
  · simp only [Client.takeNextId] at hFailure
    split at hFailure
    · next hEncoded =>
      cases hFailure
      exact .unencodable hPoint hWork
        (congrArg Prod.snd hEncoded)
    · cases hFailure

theorem startV3_arises
    (hPoint : task.point = .start)
    (hWork : task.work = .v3 creds attempt)
    (hFailure :
      (startV3 c task creds).point.failure? = some e) :
    Arises ssl c event task e := by
  unfold startV3 at hFailure
  split at hFailure
  · next hStopping =>
    cases hFailure
    exact .stopped (by rw [hPoint]; rfl) hStopping
  · split at hFailure
    · next hLacks =>
      cases hFailure
      exact .withoutPrivacy hPoint hWork hLacks.1 hLacks.2
    · next hHas =>
      split at hFailure
      · next hLacks =>
        cases hFailure
        exact .withoutDigest hPoint hWork hLacks.1 hLacks.2
          hHas
      · cases hFailure

theorem sendRequest_arises
    (hPoint : task.point = .ensured none)
    (hWork : task.work = .v3 creds attempt)
    (hFailure :
      (sendRequest ssl out c task creds).2.point.failure? =
        some e) :
    Arises ssl c (.advance out) task e := by
  have hCreds : task.work.credentials? = some creds := by
    rw [hWork]
    rfl
  unfold sendRequest at hFailure
  split at hFailure
  · next hNone =>
    cases hFailure
    exact .forgotten hWork hPoint hNone
  · next engine hEngine =>
    have hLetter := Task.letter?_request hPoint hWork hEngine
    dsimp only at hFailure
    split at hFailure
    · next hKeys =>
      cases hFailure
      exact .keys hCreds hLetter hKeys
    · next hKeys =>
      simp only [Client.takeNextId] at hFailure
      split at hFailure
      · next hEncoded =>
        cases hFailure
        exact .encoding rfl hCreds hLetter hKeys hEncoded
      · cases hFailure

theorem startSync_arises
    {d : Nat}
    {engineId : Octets}
    (hPoint : task.point = .syncing engineId)
    (hWork : task.work = .identify creds d)
    (hFailure :
      (startSync ssl out c task creds d
        engineId).2.point.failure? = some e) :
    Arises ssl c (.advance out) task e := by
  have hCreds : task.work.credentials? = some creds := by
    rw [hWork]
    rfl
  have hLetter := Task.letter?_sync (c := c) hPoint hWork
  unfold startSync at hFailure
  dsimp only at hFailure
  split at hFailure
  · next hKeys =>
    cases hFailure
    exact .keys hCreds hLetter hKeys
  · next hKeys =>
    simp only [Client.takeNextId] at hFailure
    split at hFailure
    · next hEncoded =>
      cases hFailure
      exact .encoding rfl hCreds hLetter hKeys hEncoded
    · cases hFailure

theorem enterTransact_arises
    (hPoint : task.point = .entering x)
    (hFailure :
      (enterTransact out c task x).2.point.failure? =
        some e) :
    Arises ssl c event task e := by
  unfold enterTransact at hFailure
  split at hFailure
  · next hStopping =>
    cases hFailure
    exact .stopped (by rw [hPoint]; rfl) hStopping
  · split at hFailure
    · cases hFailure
    · rcases attemptPoint_cases task.target x with
        hSending | hLeaving
      · rw [Task.goto, hSending] at hFailure
        cases hFailure
      · rw [Task.goto, hLeaving] at hFailure
        cases hFailure

theorem leaveTransact_arises
    (hPoint : task.point = .leaving x)
    (hp : c.pendings[x.pending]? = some p)
    (hFailure :
      (leaveTransact c task x p).2.point.failure? = some e) :
    Arises ssl c event task e := by
  change (Point.returned x
    (transactResult c task x p)).failure? = _ at hFailure
  unfold transactResult at hFailure
  split at hFailure
  · cases hFailure
  · next hTerminal =>
    split at hFailure
    · cases hFailure
    · next hOpen =>
      split at hFailure
      · cases hFailure
      · next hTotal =>
        split at hFailure
        · next hStopping =>
          cases hFailure
          exact .stopped (by rw [hPoint]; rfl) hStopping
        · next hStopping =>
          split at hFailure
          · cases hFailure
          · next hEc =>
            cases hFailure
            have hCancelled : task.cancelled = {} := by
              generalize task.cancelled = cancelled
                at hTerminal hTotal
              rcases cancelled with ⟨terminal, total⟩
              simp_all
            exact .unanswered hPoint hp (by simp_all) hEc
              hCancelled (by simp_all)

theorem afterAnswer_arises
    (hPoint : task.point = .returned x none)
    (hp : c.pendings[x.pending]? = some p)
    (hWork : task.work = .v3 creds attempt)
    (hFailure :
      (afterAnswer c task creds attempt p).2.point.failure? =
        some e) :
    Arises ssl c event task e := by
  unfold afterAnswer at hFailure
  dsimp only at hFailure
  split at hFailure
  · next hReport =>
    split at hFailure
    · next hError =>
      cases hFailure
      rw [handleReport_error hError]
      exact .reported hPoint hp
        (Or.inl ⟨creds, attempt, hWork, hReport,
          Option.isSome_of_eq_some hError⟩)
    · next hAgain =>
      split at hFailure
      · cases hFailure
      · next hLast =>
        have hLater : decide (attempt = 0) = false := by
          simp
          omega
        rw [hLater, handleReport_last] at hAgain
        cases hAgain
  · unfold toResult at hFailure
    dsimp only at hFailure
    split at hFailure
    · cases hFailure
    · cases hFailure

theorem afterSuccess_arises
    (hPoint : task.point = .returned x none)
    (hp : c.pendings[x.pending]? = some p)
    (hFailure :
      (afterSuccess c task p).2.point.failure? = some e) :
    Arises ssl c event task e := by
  unfold afterSuccess at hFailure
  split at hFailure
  · unfold toResult at hFailure
    dsimp only at hFailure
    split at hFailure
    · cases hFailure
    · cases hFailure
  · next hWork =>
    exact afterAnswer_arises hPoint hp hWork hFailure
  · next hWork =>
    unfold afterIdentify at hFailure
    dsimp only at hFailure
    split_ifs at hFailure with hEngineId
    · cases hFailure
      exact .unnamed hWork hPoint hp hEngineId
    all_goals cases hFailure
  · next hWork =>
    unfold afterSync at hFailure
    split at hFailure
    · next hUnsigned =>
      cases hFailure
      exact .reported hPoint hp
        (Or.inr ⟨_, _, _, hWork, by simpa using hUnsigned⟩)
    · split at hFailure
      · next hBoots =>
        cases hFailure
        exact .outworn hWork hPoint hp hBoots
      · cases hFailure

/- An error comes up in a move, or was there before it. -/
theorem Move.arises
    {spawned : Option Task}
    (hMove : Move ssl out c task c' task' spawned)
    (hFailure : task'.point.failure? = some e) :
    task.point.failure? = some e ∨
      Arises ssl c (.advance out) task e := by
  cases hMove with
  | beginV2c hPoint hWork =>
      exact Or.inr (startV2c_arises hPoint hWork hFailure)
  | beginV3 hPoint hWork =>
      exact Or.inr (startV3_arises hPoint hWork hFailure)
  | beginIdentify _ _ =>
      rcases startIdentify_enters ssl out c task with
        ⟨x, hEnters⟩
      rw [hEnters] at hFailure
      cases hFailure
  | ensure _ _ hEnsure =>
      rcases ensureEngine_cases hEnsure with
        ⟨_, rfl, _⟩ | ⟨_, _, _, rfl, _⟩ | ⟨_, _, rfl, _⟩
      all_goals cases hFailure
  | park _ _ => cases hFailure
  | fail hPoint _ =>
      left
      rw [hPoint, completed_failure? hFailure]
      rfl
  | send hPoint hWork =>
      exact Or.inr (sendRequest_arises hPoint hWork hFailure)
  | enter hPoint =>
      exact Or.inr (enterTransact_arises hPoint hFailure)
  | leave hPoint hp =>
      exact Or.inr (leaveTransact_arises hPoint hp hFailure)
  | failed hPoint =>
      left
      rw [hPoint, afterFailure_failure? hFailure]
      rfl
  | succeeded hPoint hp =>
      exact Or.inr (afterSuccess_arises hPoint hp hFailure)
  | beginSync hPoint hWork =>
      exact Or.inr (startSync_arises hPoint hWork hFailure)
  | finish _ _ => cases hFailure

/- One that is resumed stops, or hears of a discovery. -/
theorem Resumes.arises
    {point : Point}
    (hResumes : Resumes c t task event point)
    (hFailure : point.failure? = some e) :
    Arises ssl c event task e ∨
      ∃ d discovery, task.behind? = some d ∧
        c.discoveries[d]? = some discovery ∧
        discovery.finished = true ∧
        discovery.ec = some (.errc e) := by
  cases hResumes with
  | sent ec hPoint =>
      unfold afterSend at hFailure
      split at hFailure
      all_goals cases hFailure
  | waited hPoint hp =>
      unfold afterWait attemptPoint at hFailure
      split_ifs at hFailure
      all_goals cases hFailure
  | @unparked d discovery hPoint hd =>
      unfold afterPark at hFailure
      split_ifs at hFailure with hFailed hStopping hAborted
      · cases hFailure
      · cases hFailure
        exact Or.inl
          (.stopped (by rw [hPoint]; rfl) hStopping)
      · cases hFailure
      · right
        rw [not_or] at hAborted
        refine ⟨d, discovery, ?_, hd, not_not.mp hAborted.2, ?_⟩
        · rw [Task.behind?, hPoint]
          rfl
        · cases hEc : discovery.ec with
          | none =>
              rw [hEc] at hFailure
              cases hFailure
          | some found =>
              rw [hEc] at hFailure
              cases found with
              | errc found =>
                  cases hFailure
                  rfl
              | system found => cases hFailure

end Snmpio

------------------------------------------------------------
-- Origins in a Run
------------------------------------------------------------

namespace Snmpio

variable {ssl : OpenSsl}
variable {alike : Credentials → Credentials → Bool}
variable {id : Int32} {now : Int} {events : List Event}
variable {c c' : Client} {task task' : Task} {t : Nat}
variable {e : Errc} {d : Nat}

/-
  Where the errors of a coroutine may come up: in itself, as
  it was then, or for a request in a discovery of its
  endpoint, under Credentials that go with its own.
-/
structure Task.Origin
    (alike : Credentials → Credentials → Bool)
    (t : Nat)
    (task : Task)
    (i : Nat)
    (origin : Task) : Prop where
  endpoint : origin.target.endpoint = task.target.endpoint
  who :
    (i = t ∧
        origin.work.discovery? = task.work.discovery? ∧
        origin.work.credentials? = task.work.credentials?) ∨
      (task.work.discovery? = none ∧
        origin.work.discovery?.isSome = true ∧
        ∃ creds creds',
          task.work.credentials? = some creds ∧
            origin.work.credentials? = some creds' ∧
            alike creds creds' = true)

/-
  After some events an error comes up in a coroutine, at the
  next one: that is when it fails, and for this reason.
-/
structure ComesUp
    (ssl : OpenSsl)
    (id : Int32)
    (now : Int)
    (before : List Event)
    (event : Event)
    (c : Client)
    (i : Nat)
    (origin : Task)
    (e : Errc) : Prop where
  reached :
    Machine.run (step ssl) (fresh id now) before = some c
  found : c.tasks[i]? = some origin
  fails :
    ∃ c' origin', step ssl c event = some c' ∧
      c'.tasks[i]? = some origin' ∧
      origin'.point.failure? = some e
  arises : Arises ssl c event origin e

/- An error of a coroutine has come up in a run. -/
def ArisesIn
    (alike : Credentials → Credentials → Bool)
    (ssl : OpenSsl)
    (id : Int32)
    (now : Int)
    (events : List Event)
    (t : Nat)
    (task : Task)
    (e : Errc) : Prop :=
  ∃ (before : List Event) (event : Event)
      (after : List Event) (c : Client) (i : Nat)
      (origin : Task),
    events = before ++ event :: after ∧
      task.Origin alike t i origin ∧
      ComesUp ssl id now before event c i origin e

theorem ArisesIn.later
    (hArises : ArisesIn alike ssl id now events t task e)
    (more : List Event) :
    ArisesIn alike ssl id now (events ++ more) t task e := by
  rcases hArises with
    ⟨before, event, after, c, i, origin, rfl, hArises⟩
  exact ⟨before, event, after ++ more, c, i, origin,
    by simp, hArises⟩

/- The coroutine goes on, and stays what it is. -/
theorem ArisesIn.keep
    (hArises : ArisesIn alike ssl id now events t task e)
    (hTarget : task'.target = task.target)
    (hDiscovery :
      task'.work.discovery? = task.work.discovery?)
    (hCreds :
      task'.work.credentials? = task.work.credentials?) :
    ArisesIn alike ssl id now events t task' e := by
  rcases hArises with
    ⟨before, event, after, c, i, origin, hEvents,
      ⟨hEndpoint, hWho⟩, hComes⟩
  refine ⟨before, event, after, c, i, origin, hEvents,
    ⟨?_, ?_⟩, hComes⟩
  · rw [hTarget]
    exact hEndpoint
  · rw [hDiscovery, hCreds]
    exact hWho

/- A request is told what came up in its discovery. -/
theorem ArisesIn.share
    {i : Nat}
    {runner : Task}
    (hArises : ArisesIn alike ssl id now events i runner e)
    (hRuns : runner.work.discovery? = some d)
    (hRequest : task.work.discovery? = none)
    {creds creds' : Credentials}
    (hCreds : task.work.credentials? = some creds)
    (hCreds' : runner.work.credentials? = some creds')
    (hAlike : alike creds creds' = true)
    (hEndpoint :
      runner.target.endpoint = task.target.endpoint) :
    ArisesIn alike ssl id now events t task e := by
  rcases hArises with
    ⟨before, event, after, c, j, origin, hEvents,
      ⟨hAt, hWho⟩, hComes⟩
  refine ⟨before, event, after, c, j, origin, hEvents,
    ⟨hAt.trans hEndpoint, Or.inr ⟨hRequest, ?_⟩⟩, hComes⟩
  rcases hWho with ⟨_, hSame, hWith⟩ | ⟨hNone, _⟩
  · rw [hSame, hRuns, hWith]
    exact ⟨rfl, creds, creds', hCreds, hCreds', hAlike⟩
  · rw [hRuns] at hNone
    cases hNone

/-
  Coroutines that have failed, and requests behind
  discoveries that have, did so for an error that came up.
-/
structure Traced
    (alike : Credentials → Credentials → Bool)
    (ssl : OpenSsl)
    (id : Int32)
    (now : Int)
    (events : List Event)
    (c : Client) : Prop where
  tasks :
    ∀ (t : Nat) (task : Task) e, c.tasks[t]? = some task →
      task.point.failure? = some e →
        ArisesIn alike ssl id now events t task e
  waiting :
    ∀ (t : Nat) (task : Task) d discovery e,
      c.tasks[t]? = some task → task.behind? = some d →
      c.discoveries[d]? = some discovery →
      discovery.finished = true →
      discovery.ec = some (.errc e) →
        ArisesIn alike ssl id now events t task e

theorem Traced.step_tasks
    (hTraced : Traced alike ssl id now events c)
    (hRun :
      Machine.run (step ssl) (fresh id now) events = some c)
    {event : Event}
    (hStep : Snmpio.step ssl c event = some c')
    (hTask' : c'.tasks[t]? = some task')
    (hFailure : task'.point.failure? = some e) :
    ArisesIn alike ssl id now (events ++ [event]) t task'
      e := by
  have hHere :
      ∀ {task : Task}, c.tasks[t]? = some task →
        Arises ssl c event task e →
          ArisesIn alike ssl id now (events ++ [event]) t task
            e := by
    intro task hTask hArises
    exact ⟨events, event, [], c, t, task, rfl,
      ⟨rfl, Or.inl ⟨rfl, rfl, rfl⟩⟩,
      ⟨hRun, hTask, ⟨c', task', hStep, hTask', hFailure⟩,
        hArises⟩⟩
  have hBefore :
      ∀ {task : Task}, c.tasks[t]? = some task →
        task.point.failure? = some e →
          ArisesIn alike ssl id now (events ++ [event]) t task
            e := by
    intro task hTask hOld
    exact (hTraced.tasks t task e hTask hOld).later [event]
  cases step_task hStep hTask' with
  | moved _ hTask hMove =>
      refine ArisesIn.keep ?_ hMove.kin.target
        hMove.kin.discovery hMove.credentials
      rcases hMove.arises hFailure with hOld | hArises
      · exact hBefore hTask hOld
      · exact hHere hTask hArises
  | spawned _ _ hMove _ =>
      rcases hMove.spawned_eq rfl with ⟨creds, rfl⟩
      cases hFailure
  | requested _ _ => cases hFailure
  | @resumed _ task _ _ hTask hResumes =>
      have hIn : ArisesIn alike ssl id now (events ++ [event])
          t task e := by
        rcases hResumes.arises hFailure with
          hArises | ⟨d, discovery, hBehind, hd, hFinished, hEc⟩
        · exact hHere hTask hArises
        · exact (hTraced.waiting t task d discovery e hTask
            hBehind hd hFinished hEc).later [event]
      exact hIn.keep rfl rfl rfl
  | raised _ _ _ => cases hFailure
  | signalled _ hTask _ _ =>
      refine ArisesIn.keep (hBefore hTask ?_) rfl rfl rfl
      rw [← Point.signalled_congr Point.wake_failure?]
      exact hFailure
  | woken hTask _ _ =>
      refine ArisesIn.keep (hBefore hTask ?_) rfl rfl rfl
      rw [← Point.wake_failure?]
      exact hFailure
  | kept hTask _ => exact hBefore hTask hFailure

/- Only requests with Credentials queue. -/
theorem Task.Reaches.queues
    (hReaches : task.Reaches)
    (hBehind : task.behind? = some d) :
    ∃ creds attempt, task.work = .v3 creds attempt := by
  rcases task with ⟨work, target, pdu, point, cancelled⟩
  cases work with
  | v3 creds attempt => exact ⟨creds, attempt, rfl⟩
  | _ =>
      cases point with
      | parking _ => cases hReaches
      | parked _ _ => cases hReaches
      | _ => cases hBehind

/- Who is queued is not over. -/
theorem Task.runner?_of_behind
    (hBehind : task.behind? = some d) :
    task.runner? = task.work.discovery? := by
  rcases task with ⟨work, target, pdu, point, cancelled⟩
  cases point with
  | parking _ => rfl
  | parked _ _ => rfl
  | _ => cases hBehind

/- Discoveries have Credentials. -/
theorem Task.runner?_credentials
    (hRuns : task.runner? = some d) :
    ∃ creds, task.work.credentials? = some creds := by
  have hDiscovery := (Task.runner?_eq_some.mp hRuns).2
  cases hWork : task.work with
  | identify creds _ => exact ⟨creds, rfl⟩
  | sync creds _ _ => exact ⟨creds, rfl⟩
  | _ =>
      rw [hWork] at hDiscovery
      cases hDiscovery

/- Who waits for a discovery is told why it failed. -/
theorem Traced.told
    (hTraced : Traced alike ssl id now events c)
    (hRun :
      Machine.run (step ssl) (fresh id now) events = some c)
    (hJoined : Joined alike c)
    {i : Nat}
    {runner : Task}
    (hTask : c.tasks[t]? = some task)
    (hBehind : task.behind? = some d)
    (hRunner : c.tasks[i]? = some runner)
    (hRuns : runner.runner? = some d)
    (hFailed : runner.point.failure? = some e) :
    ArisesIn alike ssl id now events t task e := by
  have hQueued :=
    hJoined.queued t i task runner d hTask hBehind hRunner
      hRuns
  rcases (reaches_of_run hRun hTask).queues hBehind with
    ⟨creds, attempt, hWork⟩
  rcases Task.runner?_credentials hRuns with ⟨creds', hCreds'⟩
  have hCreds := congrArg Work.credentials? hWork
  exact (hTraced.tasks i runner e hRunner hFailed).share
    (Task.runner?_eq_some.mp hRuns).2
    (congrArg Work.discovery? hWork) hCreds hCreds'
    (hQueued.alike creds creds' hCreds hCreds')
    hQueued.endpoint

/- Requests are behind discoveries of their endpoint. -/
theorem Traced.step_waiting
    (hTraced : Traced alike ssl id now events c)
    (hRun :
      Machine.run (step ssl) (fresh id now) events = some c)
    (hJoined : Joined alike c)
    {event : Event}
    (hStep : DiscoveryStep c event c')
    {discovery : Discovery}
    (hTask : c'.tasks[t]? = some task)
    (hBehind : task.behind? = some d)
    (hd : c'.discoveries[d]? = some discovery)
    (hFinished : discovery.finished = true)
    (hEc : discovery.ec = some (.errc e)) :
    ArisesIn alike ssl id now events t task e := by
  cases hStep with
  | continued hContinues hWaits =>
      rw [hContinues.discoveries] at hd
      rcases hContinues.before hTask with
        ⟨before, hBefore, hKeeps⟩ | ⟨_, hNone⟩
      · have hBehind' :=
          (hWaits t before task hBefore hTask).behind d hBehind
        refine ArisesIn.keep
          (hTraced.waiting t before d discovery e hBefore
            hBehind' hd hFinished hEc)
          hKeeps.target ?_ hKeeps.credentials
        rw [← Task.runner?_of_behind hBehind,
          ← Task.runner?_of_behind hBehind']
        exact hKeeps.runner
      · rw [hNone] at hBehind
        cases hBehind
  | joined _ _ _ _ _ _ hFound hContinues hTasks =>
      rw [hContinues.discoveries] at hd
      rw [hTasks] at hTask
      rcases getElem?_set_cases hTask with
        ⟨_, rfl⟩ | ⟨_, hOther⟩
      · -- The discovery is registered, so it is not over.
        cases hBehind
        rcases (attended_of_run hRun).unfinished _ d hFound with
          ⟨found, hAt, hOpen⟩
        rw [hd] at hAt
        cases hAt
        simp [Discovery.isOpen, hFinished] at hOpen
      · exact hTraced.waiting t task d discovery e hOther
          hBehind hd hFinished hEc
  | began _ _ _ _ _ _ _ hDiscoveries hTasks =>
      rw [hDiscoveries] at hd
      rcases getElem?_concat_cases hd with hOld | ⟨_, rfl⟩
      · rw [hTasks] at hTask
        rcases getElem?_concat_cases hTask with
          hBefore | ⟨_, rfl⟩
        · rcases getElem?_set_cases hBefore with
            ⟨_, rfl⟩ | ⟨_, hOther⟩
          · cases hBehind
            rw [List.getElem?_length] at hOld
            cases hOld
          · exact hTraced.waiting t task d discovery e hOther
              hBehind hOld hFinished hEc
        · cases hBehind
      · cases hFinished
  | @ended i d' rest runner ended hRunner hRuns _ hWhy =>
      rcases finish_task hTask with
        ⟨_, rfl⟩ | ⟨_, before, hBefore, rfl⟩
      · cases hBehind
      · have hNudged := Task.wakeOn_nudged [.done d'] before
        have hBehind' : before.behind? = some d :=
          (Task.Waits.of_point hNudged.point).behind d hBehind
        have hIn : ArisesIn alike ssl id now events t before
            e := by
          change (c.discoveries.set d' ended)[d]? = _ at hd
          rcases getElem?_set_cases hd with
            ⟨rfl, rfl⟩ | ⟨_, hOther⟩
          · rcases hWhy with
              ⟨out, ec, _, hPoint, hEnd⟩ | ⟨_, _, hEnd⟩
            · cases hEnd
              cases hEc
              refine hTraced.told hRun hJoined hBefore hBehind'
                hRunner hRuns ?_
              rw [hPoint]
              rfl
            · cases hEnd
              cases hFinished
          · exact hTraced.waiting t before d discovery e hBefore
              hBehind' hOther hFinished hEc
        exact hIn.keep hNudged.target
          (congrArg Work.discovery? hNudged.work)
          (congrArg Work.credentials? hNudged.work)

/- It holds in every run that meets the condition. -/
theorem traced_of_run
    (hRefl : ∀ creds, alike creds creds = true)
    {ok : Client → Event → Bool}
    (hOk :
      ∀ c e, ok c e = true → joinsAlike alike c e = true)
    (hRun :
      Machine.run (Machine.guarded (step ssl) ok)
        (fresh id now) events = some c) :
    Traced alike ssl id now events c := by
  refine Machine.run_invariant
    (P := Traced alike ssl id now) ?_ ?_ hRun
  · refine ⟨?_, ?_⟩
    · intro t task e hTask
      cases hTask
    · intro t task d discovery e hTask
      cases hTask
  · intro events c event c' hBefore hTraced hStep
    have hJoined := joined_of_run hRefl hOk hBefore
    rcases Machine.guarded_eq_some.mp hStep with ⟨_, hStep⟩
    have hBefore := Machine.run_of_guarded hBefore
    refine ⟨?_, ?_⟩
    · intro t task e hTask hFailure
      exact hTraced.step_tasks hBefore hStep hTask hFailure
    · intro t task d discovery e hTask hBehind hd hFinished hEc
      have hCase := step_discovery hStep
        (fun _ _ => placed_of_run hBefore)
      exact (hTraced.step_waiting hBefore hJoined hCase hTask
        hBehind hd hFinished hEc).later [event]

end Snmpio

------------------------------------------------------------
-- Where Reasons Come From
------------------------------------------------------------

namespace Snmpio

variable {ssl : OpenSsl} {id : Int32} {now : Int}
variable {events : List Event} {c c' : Client}

/- In the run a datagram was dropped for an exchange. -/
def DroppedIn
    (ssl : OpenSsl)
    (id : Int32)
    (now : Int)
    (events : List Event)
    (ref : Nat)
    (a : Pending)
    (e : Errc) : Prop :=
  ∃ (before : List Event) (sender : Endpoint)
      (datagram : Octets) (after : List Event) (c : Client)
      (p : Pending),
    events = before ++ .receive sender datagram :: after ∧
      Machine.run (step ssl) (fresh id now) before =
        some c ∧
      p.asked = a ∧
      c.route ssl datagram sender =
        some (ref, p, .drop (some e))

theorem DroppedIn.later
    {ref : Nat}
    {a : Pending}
    {e : Errc}
    (hDropped : DroppedIn ssl id now events ref a e)
    (more : List Event) :
    DroppedIn ssl id now (events ++ more) ref a e := by
  rcases hDropped with
    ⟨before, sender, datagram, after, c, p, rfl, hDropped⟩
  exact ⟨before, sender, datagram, after ++ more, c, p,
    by simp, hDropped⟩

/- Only a v3 message is dropped with a reason. -/
theorem DroppedIn.judged
    {ref : Nat}
    {a : Pending}
    {e : Errc}
    (hDropped : DroppedIn ssl id now events ref a e) :
    ∃ cache now p datagram sender msg, p.asked = a ∧
      judgeV3 ssl cache now p datagram sender msg =
        .drop (some e) := by
  rcases hDropped with
    ⟨before, sender, datagram, after, c, p, _, _, hAsked,
      hRoute⟩
  rcases (route_cases hRoute).2 with
    ⟨msg, _, _, hDrop⟩ | ⟨msg, _, _, hDrop⟩
  · unfold judgeV2c at hDrop
    split_ifs at hDrop
    all_goals cases hDrop
  · exact ⟨c.cache, c.now, p, datagram, sender, msg, hAsked,
      hDrop.symm⟩

/- Every reason was left by a datagram that was dropped. -/
def DropsKnown
    (ssl : OpenSsl)
    (id : Int32)
    (now : Int)
    (events : List Event)
    (c : Client) : Prop :=
  ∀ (ref : Nat) (p : Pending) (e : Errc),
    c.pendings[ref]? = some p → p.dropReason = some e →
      DroppedIn ssl id now events ref p.asked e

theorem DropsKnown.step
    {e : Event}
    (hKnown : DropsKnown ssl id now events c)
    (hRun :
      Machine.run (Snmpio.step ssl) (fresh id now) events =
        some c)
    (hStep : Snmpio.step ssl c e = some c') :
    DropsKnown ssl id now (events ++ [e]) c' := by
  have hBefore :
      ∀ {ref : Nat} {p : Pending} {reason : Errc},
        c.pendings[ref]? = some p →
          p.dropReason = some reason →
          DroppedIn ssl id now (events ++ [e]) ref p.asked
            reason := by
    intro ref p reason hp hReason
    exact (hKnown ref p reason hp hReason).later [e]
  intro ref p reason hp hReason
  have hCase := step_pendings hStep
  generalize c'.pendings = pendings at hCase hp
  cases hCase with
  | kept _ => exact hBefore hp hReason
  | opened hFresh =>
      rcases getElem?_concat_cases hp with hOld | ⟨_, rfl⟩
      · exact hBefore hOld hReason
      · rw [hFresh.dropReason] at hReason
        cases hReason
  | @dropped sender datagram found q reason' hRoute =>
      rcases getElem?_set_cases hp with
        ⟨rfl, rfl⟩ | ⟨_, hOther⟩
      · cases hReason
        exact ⟨events, sender, datagram, [], c, q, rfl, hRun,
          rfl, hRoute⟩
      · exact hBefore hOther hReason
  | @accepted sender datagram found q q' hRoute =>
      rcases getElem?_set_cases hp with
        ⟨rfl, rfl⟩ | ⟨_, hOther⟩
      · rcases route_accept_dropReason hRoute with
          ⟨hSame, hAsked⟩
        rw [hSame] at hReason
        rw [hAsked]
        exact hBefore (route_cases hRoute).1 hReason
      · exact hBefore hOther hReason

theorem dropsKnown_of_run
    (hRun :
      Machine.run (step ssl) (fresh id now) events = some c) :
    DropsKnown ssl id now events c := by
  refine Machine.run_invariant
    (P := DropsKnown ssl id now) ?_ ?_ hRun
  · intro ref p e hp
    cases hp
  · intro events c e c' hBefore hKnown hStep
    exact hKnown.step hBefore hStep

end Snmpio
