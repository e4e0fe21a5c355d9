import Snmpio.Client.Authority
import Snmpio.Client.Blame
import Snmpio.Client.Directory
import Snmpio.Message.Outcomes

/-
  What is on the wire is what was asked.

  Whoever receives a datagram of the Client reads in it the
  PDU of the request under the user's name and at the level
  of the Credentials, sealed with their keys for an Engine
  that the endpoint itself has named; or one of the two
  messages of a discovery, of which the first gives nothing
  of the Credentials away.

  Key definitions include:
    * `Penned`
    * `Lettered`
    * `Utters`

  Key theorems include:
    * `Move.lettered`
    * `lettered_of_run`
    * `sent_as_asked`
-/

------------------------------------------------------------
-- Messages
------------------------------------------------------------

namespace Snmpio

/- The message of an exchange, as it was encoded. -/
inductive Penned
    (ssl : OpenSsl)
    (events : List Event)
    (endpoint : Endpoint)
    (pdu : Pdu)
    (key : Int32)
    (datagram : Octets) :
    Work → Prop where
  | community
      {community : Octets}
      (hEncode :
        encodeV2cMessage community
          { pdu with requestId := key } = (datagram, none)) :
      Penned ssl events endpoint pdu key datagram
        (.v2c community)
  | request
      {creds : Credentials}
      {attempt : Nat}
      {engineId authKey privKey : Octets}
      {boots time : Int32}
      {salt : UInt64}
      (hNamed : NamedIn events endpoint engineId)
      (hAuthKey :
        requestAuthKey ssl creds engineId = .ok authKey)
      (hPrivKey :
        requestPrivKey ssl creds engineId = .ok privKey)
      (hEncode :
        (encodeV3Message ssl
          { msgId := key, level := creds.level }
          { engineId := engineId
            boots := boots
            time := time
            userName := creds.userName }
          { contextEngineId := engineId
            pdu := { pdu with requestId := key } }
          creds.authProtocol authKey creds.privProtocol
          privKey salt).1 = .ok datagram) :
      Penned ssl events endpoint pdu key datagram
        (.v3 creds attempt)
  | identity
      {creds : Credentials}
      {d : Nat}
      {salt : UInt64}
      (hEncode :
        (encodeV3Message ssl { msgId := key } {}
          (discoveryScopedPdu key []) .none [] .none []
          salt).1 = .ok datagram) :
      Penned ssl events endpoint pdu key datagram
        (.identify creds d)
  | baseline
      {creds : Credentials}
      {d : Nat}
      {engineId authKey privKey : Octets}
      {salt : UInt64}
      (hNamed : NamedIn events endpoint engineId)
      (hAuthKey :
        requestAuthKey ssl creds engineId = .ok authKey)
      (hPrivKey :
        requestPrivKey ssl creds engineId = .ok privKey)
      (hEncode :
        (encodeV3Message ssl
          { msgId := key, level := creds.level }
          { engineId := engineId
            userName := creds.userName }
          (discoveryScopedPdu key engineId)
          creds.authProtocol authKey creds.privProtocol
          privKey salt).1 = .ok datagram) :
      Penned ssl events endpoint pdu key datagram
        (.sync creds d engineId)

/- The Engine whose clock is asked for next. -/
def Point.syncing? :
    Point → Option Octets
| syncing engineId => some engineId
| _ => none

/- What a coroutine sends, and is about to send. -/
structure Lettered
    (ssl : OpenSsl)
    (events : List Event)
    (task : Task) : Prop where
  syncing :
    ∀ engineId, task.point = .syncing engineId →
      NamedIn events task.target.endpoint engineId
  penned :
    ∀ x, task.point.exchange? = some x →
      Penned ssl events task.target.endpoint task.pdu x.key
        x.datagram task.work

section

variable {ssl : OpenSsl} {events : List Event}
variable {task task' : Task}

/- An engine that was named stays named. -/
theorem NamedIn.later
    {endpoint : Endpoint}
    {engineId : Octets}
    (hNamed : NamedIn events endpoint engineId)
    (later : List Event) :
    NamedIn (events ++ later) endpoint engineId := by
  rcases hNamed with ⟨datagram, msg, hMem, hFound⟩
  exact ⟨datagram, msg, List.mem_append_left _ hMem, hFound⟩

theorem Penned.later
    {endpoint : Endpoint}
    {pdu : Pdu}
    {key : Int32}
    {datagram : Octets}
    {work : Work}
    (hPenned :
      Penned ssl events endpoint pdu key datagram work)
    (later : List Event) :
    Penned ssl (events ++ later) endpoint pdu key datagram
      work := by
  cases hPenned with
  | community hEncode => exact .community hEncode
  | request hNamed hAuthKey hPrivKey hEncode =>
      exact .request (hNamed.later later) hAuthKey hPrivKey
        hEncode
  | identity hEncode => exact .identity hEncode
  | baseline hNamed hAuthKey hPrivKey hEncode =>
      exact .baseline (hNamed.later later) hAuthKey hPrivKey
        hEncode

theorem Lettered.later
    (hLettered : Lettered ssl events task)
    (later : List Event) :
    Lettered ssl (events ++ later) task := by
  refine ⟨?_, ?_⟩
  · intro engineId hPoint
    exact (hLettered.syncing engineId hPoint).later later
  · intro x hx
    exact (hLettered.penned x hx).later later

/- A coroutine with nothing to send. -/
theorem Lettered.of_none
    (hNone : task.point.exchange? = none)
    (hSyncing : task.point.syncing? = none) :
    Lettered ssl events task := by
  refine ⟨?_, ?_⟩
  · intro engineId hPoint
    rw [hPoint] at hSyncing
    cases hSyncing
  · intro x hx
    rw [hNone] at hx
    cases hx

/- A coroutine with a message to send. -/
theorem Lettered.of_penned
    {x : Exchange}
    (hPoint : task.point.exchange? = some x)
    (hPenned :
      Penned ssl events task.target.endpoint task.pdu x.key
        x.datagram task.work) :
    Lettered ssl events task := by
  refine ⟨?_, ?_⟩
  · intro engineId hSyncing
    rw [hSyncing] at hPoint
    cases hPoint
  · intro x' hx'
    rw [hPoint] at hx'
    cases hx'
    exact hPenned

/- The message stays what it is through the attempts. -/
theorem Lettered.keep
    (hLettered : Lettered ssl events task)
    (hSame : task.SameExchange task')
    (hTarget : task'.target = task.target)
    (hPdu : task'.pdu = task.pdu)
    (hSyncing :
      ∀ engineId, task'.point = .syncing engineId →
        task.point = .syncing engineId) :
    Lettered ssl events task' := by
  refine ⟨?_, ?_⟩
  · intro engineId hPoint
    rw [hTarget]
    exact hLettered.syncing engineId
      (hSyncing engineId hPoint)
  · intro x' hx'
    rcases hSame.exchange x' hx' with
      ⟨x, hx, hKey, hDatagram, _⟩
    rw [hTarget, hPdu, hSame.work, hKey, hDatagram]
    exact hLettered.penned x hx

end

end Snmpio

------------------------------------------------------------
-- Moves
------------------------------------------------------------

namespace Snmpio

variable {ssl : OpenSsl} {events : List Event}
variable {out : Outside} {c c' : Client} {task task' : Task}
variable {creds : Credentials}

/- The message is in the Community of the request. -/
theorem startV2c_lettered
    {community : Octets}
    (hWork : task.work = .v2c community) :
    Lettered ssl events (startV2c c task community).2 := by
  unfold startV2c
  split
  · exact Lettered.of_none rfl rfl
  · simp only [Client.takeNextId]
    split
    · exact Lettered.of_none rfl rfl
    · next hEncode =>
      refine Lettered.of_penned rfl ?_
      change Penned _ _ _ _ _ _ task.work
      rw [hWork]
      exact .community hEncode

/- The first message names no user. -/
theorem startIdentify_lettered
    {d : Nat}
    (hWork : task.work = .identify creds d) :
    Lettered ssl events (startIdentify ssl out c task).2 := by
  unfold startIdentify
  simp only [Client.takeNextId]
  split
  · exact Lettered.of_none rfl rfl
  · next hEncode =>
    refine Lettered.of_penned rfl ?_
    change Penned _ _ _ _ _ _ task.work
    rw [hWork]
    exact .identity hEncode

/- The message is for the engine of its endpoint. -/
theorem sendRequest_lettered
    (hCore : Core ssl events c)
    {attempt : Nat}
    (hWork : task.work = .v3 creds attempt)
    (hUsable : creds.Usable)
    (hDirectory :
      ∀ engineId,
        c.cache.index.lookup task.target.endpoint =
            some engineId →
          NamedIn events task.target.endpoint engineId) :
    Lettered ssl events
      (sendRequest ssl out c task creds).2 := by
  unfold sendRequest
  split
  · exact Lettered.of_none rfl rfl
  · next engine hEngine =>
    rcases EngineCache.engineAt_eq_some.mp hEngine with
      ⟨engineId, hIndex, hLookup⟩
    have hName := (hCore.cache engineId engine hLookup).1
    have hSpec := requestKeys_spec hCore.keys hUsable
      engine.engineId
    dsimp only
    split
    · exact Lettered.of_none rfl rfl
    · next key privKey hFound =>
      rcases hSpec.2 key privKey hFound with
        ⟨hAuthKey, hPrivKey⟩
      simp only [Client.takeNextId]
      split
      · exact Lettered.of_none rfl rfl
      · next hEncode =>
        refine Lettered.of_penned rfl ?_
        change Penned _ _ _ _ _ _ task.work
        rw [hWork]
        refine .request ?_ hAuthKey hPrivKey hEncode
        rw [hName]
        exact hDirectory engineId hIndex

/- The second message is for the engine just named. -/
theorem startSync_lettered
    (hCore : Core ssl events c)
    {d : Nat}
    {engineId : Octets}
    (hUsable : creds.Usable)
    (hNamed :
      NamedIn events task.target.endpoint engineId) :
    Lettered ssl events
      (startSync ssl out c task creds d engineId).2 := by
  have hSpec := requestKeys_spec hCore.keys hUsable engineId
  unfold startSync
  dsimp only
  split
  · exact Lettered.of_none rfl rfl
  · next key privKey hFound =>
    rcases hSpec.2 key privKey hFound with
      ⟨hAuthKey, hPrivKey⟩
    simp only [Client.takeNextId]
    split
    · exact Lettered.of_none rfl rfl
    · next hEncode =>
      refine Lettered.of_penned rfl ?_
      exact .baseline hNamed hAuthKey hPrivKey hEncode

/- Past an identity reply, the Engine has been named. -/
theorem afterSuccess_lettered
    {p : Pending}
    (hNamed :
      ∀ creds d, task.work = .identify creds d →
        NamedIn events task.target.endpoint
          p.security.engineId) :
    Lettered ssl events (afterSuccess c task p).2 := by
  unfold afterSuccess
  split
  · exact Lettered.of_none rfl rfl
  · unfold afterAnswer
    dsimp only
    split
    · split
      · exact Lettered.of_none rfl rfl
      · split
        · exact Lettered.of_none rfl rfl
        · exact Lettered.of_none rfl rfl
    · exact Lettered.of_none rfl rfl
  · next creds d hWork =>
    unfold afterIdentify
    dsimp only
    split
    · exact Lettered.of_none rfl rfl
    · split
      · exact Lettered.of_none rfl rfl
      · split
        · exact Lettered.of_none rfl rfl
        · refine ⟨?_, nofun⟩
          intro engineId hPoint
          cases hPoint
          exact hNamed creds d hWork
  · unfold afterSync
    split
    · exact Lettered.of_none rfl rfl
    · split
      · exact Lettered.of_none rfl rfl
      · exact Lettered.of_none rfl rfl

/- Nothing else is put on the wire. -/
theorem Move.lettered
    {t : Nat}
    {rest : List Nat}
    {spawned : Option Task}
    (hMove : Move ssl out c task c' task' spawned)
    (hSound : Sound ssl events c)
    (hDirectory :
      ∀ endpoint engineId,
        c.cache.index.lookup endpoint = some engineId →
          NamedIn events endpoint engineId)
    (hStrand : c.strand = t :: rest)
    (hTask : c.tasks[t]? = some task)
    (hBefore : Lettered ssl events task) :
    Lettered ssl events task' := by
  have hTaskSound := hSound.tasks t task hTask
  have hUsable :
      ∀ creds, task.work.credentials? = some creds →
        task.point ≠ .start → task.point.isOver = false →
          creds.Usable := by
    intro creds hCreds hStart hOver
    exact hTaskSound.credentials hOver (Or.inl hStart) creds
      hCreds
  cases hMove with
  | beginV2c hPoint hWork => exact startV2c_lettered hWork
  | beginV3 hPoint hWork =>
      unfold startV3
      split_ifs
      all_goals exact Lettered.of_none rfl rfl
  | beginIdentify hPoint hWork =>
      exact startIdentify_lettered hWork
  | ensure _ _ hEnsure =>
      rcases ensureEngine_cases hEnsure with
        ⟨_, rfl, _⟩ | ⟨_, _, _, rfl, _⟩ | ⟨_, _, rfl, _⟩
      all_goals exact Lettered.of_none rfl rfl
  | park _ _ => exact Lettered.of_none rfl rfl
  | fail _ _ => exact Lettered.of_none rfl rfl
  | @send creds attempt hPoint hWork =>
      refine sendRequest_lettered hSound.core hWork ?_
        (hDirectory task.target.endpoint)
      refine hUsable creds ?_ ?_ ?_
      · rw [hWork]
        rfl
      · rw [hPoint]
        nofun
      · rw [hPoint]
        rfl
  | @enter x hPoint =>
      rcases (enterTransact_entry out c task x).goes with
        ⟨point, hGoto, hGoes⟩
      rw [hGoto]
      refine hBefore.keep ⟨rfl, ?_⟩ rfl rfl ?_
      · intro x' hx'
        rw [hPoint]
        rcases hGoes with rfl | rfl | ⟨ec, rfl⟩
        all_goals
          cases hx'
          exact ⟨x, rfl, rfl, rfl, rfl⟩
      · intro engineId hSyncing
        rcases hGoes with rfl | rfl | ⟨ec, rfl⟩
        all_goals cases hSyncing
  | @leave x p hPoint hp =>
      refine hBefore.keep ⟨rfl, ?_⟩ rfl rfl nofun
      intro x' hx'
      rw [hPoint]
      cases hx'
      exact ⟨x, rfl, rfl, rfl, rfl⟩
  | failed _ =>
      unfold afterFailure
      split
      all_goals exact Lettered.of_none rfl rfl
  | @succeeded x p hPoint hp =>
      refine afterSuccess_lettered ?_
      intro creds d hWork
      exact hSound.named_in
        ⟨⟨rest, hStrand⟩, hTask, hPoint, hp⟩ hWork
  | @beginSync creds d engineId hPoint hWork =>
      refine startSync_lettered hSound.core ?_
        (hBefore.syncing engineId hPoint)
      refine hUsable creds ?_ ?_ ?_
      · rw [hWork]
        rfl
      · rw [hPoint]
        nofun
      · rw [hPoint]
        rfl
  | finish _ _ => exact Lettered.of_none rfl rfl

end Snmpio

------------------------------------------------------------
-- Runs
------------------------------------------------------------

namespace Snmpio

variable {ssl : OpenSsl} {id : Int32} {now : Int}
variable {events : List Event} {c c' : Client} {t : Nat}
variable {task : Task}

/- A nudge wakes a coroutine from a timer at most. -/
theorem Lettered.wake
    {task' : Task}
    (hBefore : Lettered ssl events task)
    (hWork : task'.work = task.work)
    (hTarget : task'.target = task.target)
    (hPdu : task'.pdu = task.pdu)
    (hPoint :
      task'.point = task.point ∨
        task'.point = task.point.wake) :
    Lettered ssl events task' := by
  refine hBefore.keep
    (Task.SameExchange.of_point hWork hPoint) hTarget hPdu ?_
  intro engineId hSyncing
  rcases hPoint with hSame | hWake
  · rw [← hSame]
    exact hSyncing
  · exact Point.eq_of_wake (hWake ▸ hSyncing) rfl

theorem Resumes.not_syncing
    {e : Event}
    {point : Point}
    (hResumes : Resumes c t task e point)
    (engineId : Octets) :
    point ≠ .syncing engineId := by
  cases hResumes with
  | sent _ _ =>
      unfold afterSend
      split
      · nofun
      · nofun
  | waited _ _ =>
      unfold afterWait attemptPoint
      split_ifs
      all_goals nofun
  | unparked _ _ =>
      unfold afterPark
      split_ifs
      all_goals nofun

/- Every event keeps it. -/
theorem lettered_step
    (hRun :
      Machine.run (step ssl) (fresh id now) events = some c)
    (hBefore :
      ∀ (t : Nat) (task : Task), c.tasks[t]? = some task →
        Lettered ssl events task)
    {e : Event}
    (hStep : TaskStep ssl c t e task) :
    Lettered ssl events task := by
  cases hStep with
  | moved hStrand hTask hMove =>
      exact hMove.lettered (sound_of_run hRun)
        (fun _ _ hIndex => directory_named_in hRun hIndex)
        hStrand hTask (hBefore t _ hTask)
  | spawned _ _ hMove _ =>
      rcases hMove.spawned_eq rfl with ⟨creds, rfl⟩
      exact Lettered.of_none rfl rfl
  | requested _ _ => exact Lettered.of_none rfl rfl
  | @resumed _ before point _ hTask hResumes =>
      refine (hBefore t before hTask).keep
        hResumes.sameExchange rfl rfl ?_
      intro engineId hSyncing
      exact absurd hSyncing (hResumes.not_syncing engineId)
  | raised _ _ _ => exact Lettered.of_none rfl rfl
  | @signalled _ before _ _ hTask _ _ =>
      exact (hBefore t before hTask).wake rfl rfl rfl
        (signalled_cases before.point)
  | @woken _ before hTask _ _ =>
      exact (hBefore t before hTask).wake rfl rfl rfl
        (Or.inr rfl)
  | kept hTask _ => exact hBefore t task hTask

theorem lettered_of_run
    (hRun :
      Machine.run (step ssl) (fresh id now) events = some c)
    (hTask : c.tasks[t]? = some task) :
    Lettered ssl events task := by
  refine Machine.run_invariant
    (P := fun events c =>
      ∀ (t : Nat) (task : Task), c.tasks[t]? = some task →
        Lettered ssl events task) ?_ ?_ hRun t task hTask
  · intro t task hTask
    cases hTask
  · intro events c e c' hBefore ih hStep t task hTask
    exact (lettered_step hBefore ih
      (step_task hStep hTask)).later [e]

end Snmpio

------------------------------------------------------------
-- What Is Read
------------------------------------------------------------

namespace Snmpio

open Ber Writer

variable {ssl : OpenSsl} {id : Int32} {now : Int}
variable {events : List Event} {c : Client} {t : Nat}
variable {task : Task} {usm : UsmParameters} {d : Octets}

/- What the receiver of a datagram finds in it. -/
inductive Utters
    (ssl : OpenSsl)
    (events : List Event)
    (endpoint : Endpoint)
    (pdu : Pdu)
    (key : Int32)
    (datagram : Octets) :
    Work → Prop where
  | community
      {community : Octets}
      (hReads :
        decodeV2cMessage datagram =
          (some {
            community := community
            pdu := { pdu with requestId := key } }, none)) :
      Utters ssl events endpoint pdu key datagram
        (.v2c community)
  | request
      {creds : Credentials}
      {attempt : Nat}
      {engineId authKey privKey : Octets}
      {boots time : Int32}
      {m : V3Message}
      (hNamed : NamedIn events endpoint engineId)
      (hAuthKey :
        requestAuthKey ssl creds engineId = .ok authKey)
      (hPrivKey :
        requestPrivKey ssl creds engineId = .ok privKey)
      (hOpens :
        Opens ssl { msgId := key, level := creds.level }
          { engineId := engineId
            boots := boots
            time := time
            userName := creds.userName }
          { contextEngineId := engineId
            pdu := { pdu with requestId := key } }
          creds.authProtocol authKey creds.privProtocol
          privKey datagram m) :
      Utters ssl events endpoint pdu key datagram
        (.v3 creds attempt)
  | identity
      {creds : Credentials}
      {d : Nat}
      {m : V3Message}
      (hOpens :
        Opens ssl { msgId := key } {}
          (discoveryScopedPdu key []) .none [] .none []
          datagram m) :
      Utters ssl events endpoint pdu key datagram
        (.identify creds d)
  | baseline
      {creds : Credentials}
      {d : Nat}
      {engineId authKey privKey : Octets}
      {m : V3Message}
      (hNamed : NamedIn events endpoint engineId)
      (hAuthKey :
        requestAuthKey ssl creds engineId = .ok authKey)
      (hPrivKey :
        requestPrivKey ssl creds engineId = .ok privKey)
      (hOpens :
        Opens ssl { msgId := key, level := creds.level }
          { engineId := engineId
            userName := creds.userName }
          (discoveryScopedPdu key engineId)
          creds.authProtocol authKey creds.privProtocol
          privKey datagram m) :
      Utters ssl events endpoint pdu key datagram
        (.sync creds d engineId)

/- What has been sealed can be encoded at all. -/
theorem encodeV3Message_encodable
    {header : V3Header}
    {s : ScopedPdu}
    {auth : AuthProtocol}
    {localizedKey privKey : Octets}
    {priv : PrivProtocol}
    {counter : UInt64}
    (hSealed :
      (encodeV3Message ssl header usm s auth localizedKey priv
        privKey counter).1 = .ok d) :
    s.pdu.isEncodable = true := by
  by_contra hBad
  rw [Bool.not_eq_true] at hBad
  have hRefused :=
    (encodeScopedPdu_emits s).refuses hBad {} rfl
  unfold encodeV3Message at hSealed
  dsimp only at hSealed
  split at hSealed
  · cases hSealed
  · split at hSealed
    · cases hSealed
    · generalize
        (if header.level.isEncrypted = true then
          privEncrypt ssl priv privKey usm.boots usm.time
            (encodeScopedPdu {} s).buf counter
        else (.ok ([], []), counter)) = sealed at hSealed
      rcases sealed with ⟨_ | ⟨ciphertext, params⟩, counter'⟩
      · cases hSealed
      · dsimp only at hSealed
        unfold sealV3Message at hSealed
        simp only [hRefused, List.findSome?_cons, id]
          at hSealed
        cases hSealed

/- Who has the keys can open what was sealed. -/
theorem opens_of_sealed
    (hSsl : ssl.Documented)
    {header : V3Header}
    {s : ScopedPdu}
    {auth : AuthProtocol}
    {localizedKey privKey : Octets}
    {priv : PrivProtocol}
    {counter : UInt64}
    (hSealed :
      (encodeV3Message ssl header usm s auth localizedKey priv
        privKey counter).1 = .ok d)
    (hModel : header.securityModel = 3)
    (hRoomy : s.pdu.isEncodable = true → Roomy usm s) :
    ∃ m, Opens ssl header usm s auth localizedKey priv privKey
      d m := by
  have hGood := encodeV3Message_encodable hSealed
  rcases encodeV3Message_needs hSealed with ⟨hAuth, hPriv⟩
  rcases encodeV3Message_builds hSsl hModel hGood hAuth hPriv
    (hRoomy hGood) localizedKey counter with
    ⟨d', m, hSealed', hOpens⟩
  rw [hSealed] at hSealed'
  cases hSealed'
  exact ⟨m, hOpens⟩

/- No field of a message is longer than the message. -/
theorem V3Form.engineId_length_le
    {m : V3Message}
    (hForm : V3Form d m) :
    m.security.engineId.length ≤ d.length := by
  rcases hForm with
    ⟨ls, content, rfl, _, version, header, params, data, rfl,
      _, _, _, ⟨ls', content', rfl, _, ls'', content'', rfl, _,
        before, digest, after, rfl,
        ⟨engineId, rest, rfl, hEngineId, _⟩, _⟩, _⟩
  have hLe := Reader.element_content_le hEngineId
  simp only [List.length_cons, List.length_append] at hLe ⊢
  omega

/- Datagrams and strings of the sizes that UDP can carry. -/
def Event.isSmall :
    Event → Bool
| receive _ datagram => decide (datagram.length ≤ 65535)
| _ => true

/- What USM and UDP allow. -/
def Work.Small :
    Work → Prop
| v2c community => community.length ≤ 65535
| v3 creds _ => creds.userName.length ≤ 65535
| identify creds _ => creds.userName.length ≤ 65535
| sync creds _ _ => creds.userName.length ≤ 65535

theorem NamedIn.length_le
    {endpoint : Endpoint}
    {engineId : Octets}
    (hNamed : NamedIn events endpoint engineId)
    (hSmall : ∀ e ∈ events, e.isSmall = true) :
    engineId.length ≤ 65535 := by
  rcases hNamed with ⟨datagram, msg, hMem, hDecoded, rfl⟩
  have hClear := (decodeV3Message_isSome_iff datagram).mp
    (Option.isSome_of_eq_some hDecoded)
  have hForm : V3Form datagram msg :=
    V3Form.of_decode (Prod.ext hDecoded hClear)
  exact hForm.engineId_length_le.trans
    (of_decide_eq_true (hSmall _ hMem))

/- Small enough to be written in one piece. -/
theorem v2cBytes_length_lt
    {community : Octets}
    {pdu : Pdu}
    (hGood : pdu.isEncodable = true)
    (hFits : pdu.Fits)
    (hCommunity : community.length ≤ 65535) :
    (v2cBytes ⟨community, pdu⟩).length < 2 ^ 32 := by
  have hPdu := pduBytes_length_le hGood hFits
  have hVersion := integerElement_length_le versionV2c
  have hString :
      (elementBytes Tag.octetString community).length ≤
        community.length + 6 :=
    elementBytes_length_le _ (by omega)
  have hContent :
      (v2cContentBytes ⟨community, pdu⟩).length ≤ 200000 := by
    simp only [v2cContentBytes, List.length_append]
    omega
  have hAll :
      (v2cBytes ⟨community, pdu⟩).length ≤
        (v2cContentBytes ⟨community, pdu⟩).length + 6 :=
    elementBytes_length_le _ (by omega)
  omega

theorem discoveryScopedPdu_roomy
    {engineId : Octets}
    (hEngineId : usm.engineId.length ≤ 65535)
    (hUserName : usm.userName.length ≤ 65535)
    (hParams : usm.privParams = [])
    (hContext : engineId.length ≤ 65535)
    (key : Int32) :
    Roomy usm (discoveryScopedPdu key engineId) := by
  refine roomy_of_fits hEngineId hUserName hParams hContext
    rfl ?_
  change (({} : Writer).varbindList []).buf.length ≤ 65535
  decide

/-
  In every run with datagrams of the sizes UDP can carry,
  what a coroutine sends is read by its receiver as what it
  was asked to send.
-/
theorem sent_as_asked
    (hSsl : ssl.Documented)
    (hRun :
      Machine.run (step ssl) (fresh id now) events = some c)
    (hSmall : ∀ e ∈ events, e.isSmall = true)
    (hTask : c.tasks[t]? = some task)
    {x : Exchange}
    (hPoint : task.point = .sending x)
    (hFits : task.pdu.Fits)
    (hNames : task.work.Small) :
    Utters ssl events task.target.endpoint task.pdu x.key
      x.datagram task.work := by
  have hExchange : task.point.exchange? = some x := by
    rw [hPoint]
    rfl
  have hPenned :=
    (lettered_of_run hRun hTask).penned x hExchange
  generalize task.work = work at hPenned hNames ⊢
  cases hPenned with
  | @community community hEncode =>
      refine .community ?_
      rw [encodeV2cMessage_eq] at hEncode
      split at hEncode
      · next hGood =>
        rw [← (Prod.mk.inj hEncode).1]
        exact decodeV2cMessage_v2cBytes hGood
          (v2cBytes_length_lt hGood hFits hNames)
      · cases (Prod.mk.inj hEncode).2
  | request hNamed hAuthKey hPrivKey hEncode =>
      have hLength := hNamed.length_le hSmall
      rcases opens_of_sealed hSsl hEncode rfl
        (fun hGood => roomy_of_fits hLength hNames rfl hLength
          hGood hFits) with ⟨m, hOpens⟩
      exact .request hNamed hAuthKey hPrivKey hOpens
  | identity hEncode =>
      rcases opens_of_sealed hSsl hEncode rfl
        (fun _ => discoveryScopedPdu_roomy (Nat.zero_le _)
          (Nat.zero_le _) rfl (Nat.zero_le _) _) with
        ⟨m, hOpens⟩
      exact .identity hOpens
  | @baseline creds d engineId _ _ _ hNamed hAuthKey hPrivKey
      hEncode =>
      have hLength := hNamed.length_le hSmall
      have hRoomy :
          Roomy
            { engineId := engineId
              userName := creds.userName }
            (discoveryScopedPdu x.key engineId) := by
        apply discoveryScopedPdu_roomy
        · exact hLength
        · exact hNames
        · rfl
        · exact hLength
      rcases opens_of_sealed hSsl hEncode rfl
        (fun _ => hRoomy) with ⟨m, hOpens⟩
      exact .baseline hNamed hAuthKey hPrivKey hOpens

/- The request of `askedRun`, about to be sent. -/
theorem askedRun_sends :
    ((Machine.run (step agentDocumentedSsl) (fresh 1 0)
      askedRun.dropLast).bind (fun c =>
        c.tasks[0]?.bind (fun task =>
          match task.point with
          | .sending x =>
              some (task.work, task.pdu, x.key,
                askedRun.dropLast.all Event.isSmall)
          | _ => none))) =
      some (.v3 agentUser 0, upTimeRequest, 3, true) := by
  decide +kernel

/- The first message of a run. -/
theorem sent_as_asked_sample :
    ∃ c task x,
      Machine.run (step agentDocumentedSsl) (fresh 1 0)
          askedRun.dropLast = some c ∧
        c.tasks[0]? = some task ∧
        task.point = .sending x ∧
        Utters agentDocumentedSsl askedRun.dropLast
          task.target.endpoint upTimeRequest 3 x.datagram
          (.v3 agentUser 0) := by
  rcases Option.bind_eq_some_iff.mp askedRun_sends with
    ⟨c, hRun, hRest⟩
  rcases Option.bind_eq_some_iff.mp hRest with
    ⟨task, hTask, hRest⟩
  split at hRest
  · next x hPoint =>
    simp only [Option.some.injEq, Prod.mk.injEq] at hRest
    rcases hRest with ⟨hWork, hPdu, hKey, hSmall⟩
    refine ⟨c, task, x, hRun, hTask, hPoint, ?_⟩
    rw [← hWork, ← hPdu, ← hKey]
    refine sent_as_asked agentDocumentedSsl_documented hRun
      (List.all_eq_true.mp hSmall) hTask hPoint ?_ ?_
    · rw [hPdu]
      decide
    · rw [hWork]
      change agentUser.userName.length ≤ 65535
      decide
  · cases hRest

end Snmpio
