import Snmpio.Client.Acceptance
import Snmpio.Message.V3RoundTrip

/-
  A request completes with data only if a datagram from its
  Target answered one of its own exchanges.

  The step that completes it takes up the reply its exchange
  holds, and the invariant of that state says which datagram
  the reply came from.

  Key definitions include:
    * `MatchesV2c`
    * `MatchesV3`
    * `Matches`

  Key theorems include:
    * `Move.completed`
    * `StepCase.completed`
    * `completed_attributed`
-/

------------------------------------------------------------
-- Completion
------------------------------------------------------------

namespace Snmpio

/- Success, or the error-status of the Agent. -/
def completesWithData :
    Option ErrorCode → Bool
| none => true
| some (.agent _) => true
| some _ => false

/- Completed with the Varbinds of a Response. -/
def Point.hasData :
    Point → Bool
| completed ec _ => completesWithData ec
| _ => false

/- A failure brings no data. -/
theorem Failure.code_completesWithData
    (ec : Failure) :
    completesWithData (some ec.code) = false := by
  cases ec with
  | errc e => rfl
  | system e =>
      cases e with
      | operationAborted => rfl
      | other code => rfl

variable {ssl : OpenSsl}

/- Nothing is known before anything is sent. -/
theorem Opening.hasData
    {c c' : Client}
    {task task' : Task}
    {keys : KeyCache}
    (hOpening : Opening c task keys c' task') :
    task'.point.hasData = false := by
  cases hOpening with
  | fails _ _ hPoint =>
      cases hPoint with
      | completed e _ => rfl
      | finishing e _ => rfl
  | opens _ _ => rfl

theorem startV3_hasData
    (c : Client)
    (task : Task)
    (creds : Credentials) :
    (startV3 c task creds).point.hasData = false := by
  unfold startV3
  split
  · rfl
  · split
    · rfl
    · split
      · rfl
      · rfl

/- Nor when it is sent. -/
theorem Entry.hasData
    {out : Outside}
    {c c' : Client}
    {task task' : Task}
    {x : Exchange}
    (hEntry : Entry out c task x c' task') :
    task'.point.hasData = false := by
  rcases hEntry.goes with
    ⟨point, rfl, rfl | rfl | ⟨ec, rfl⟩⟩
  · rfl
  · rfl
  · rfl

/- Nor when the exchange failed. -/
theorem afterFailure_hasData
    (task : Task)
    (ec : Failure) :
    (afterFailure task ec).point.hasData = false := by
  unfold afterFailure
  split
  · exact ec.code_completesWithData
  · exact ec.code_completesWithData
  · rfl
  · rfl

end Snmpio

------------------------------------------------------------
-- Completing Steps
------------------------------------------------------------

namespace Snmpio

variable {ssl : OpenSsl} {ec : Option ErrorCode}
variable {resp : Response} {c : Client} {task : Task}

/- Which replies are the result of a request. -/
def Concludes
    (work : Work)
    (p : Pending) : Prop :=
  match work with
  | .v2c _ => True
  | .v3 _ _ => p.response.type ≠ .report
  | .identify _ _ => False
  | .sync _ _ _ => False

/- The request takes up the reply of its exchange. -/
structure Takes
    (c : Client)
    (task : Task)
    (ec : Option ErrorCode)
    (resp : Response)
    (x : Exchange)
    (p : Pending) : Prop where
  point : task.point = .returned x none
  found : c.pendings[x.pending]? = some p
  result : toResult p.response = (ec, resp)
  concludes : Concludes task.work p

/- A USM request completes with what was stored. -/
theorem afterAnswer_completed
    {creds : Credentials}
    {attempt : Nat}
    {p : Pending}
    (hPoint :
      (afterAnswer c task creds attempt p).2.point =
        .completed ec resp)
    (hData : completesWithData ec = true) :
    (afterAnswer c task creds attempt p).2 =
        task.goto (.completed ec resp) ∧
      toResult p.response = (ec, resp) ∧
      p.response.type ≠ .report := by
  revert hPoint
  unfold afterAnswer
  dsimp only
  split
  · split
    · intro hPoint
      cases hPoint
      cases hData
    · split
      · intro hPoint
        cases hPoint
      · intro hPoint
        cases hPoint
        cases hData
  · next hType =>
    intro hPoint
    injection hPoint with hEc hResp
    subst hEc hResp
    exact ⟨rfl, rfl, hType⟩

/- A discovery has no data to complete with. -/
theorem afterIdentify_hasData
    (c : Client)
    (task : Task)
    (creds : Credentials)
    (p : Pending) :
    (afterIdentify c task creds p).2.point.hasData =
      false := by
  unfold afterIdentify
  dsimp only
  split
  · rfl
  · split
    · rfl
    · split
      · rfl
      · rfl

theorem afterSync_hasData
    (c : Client)
    (task : Task)
    (engineId : Octets)
    (p : Pending) :
    (afterSync c task engineId p).2.point.hasData =
      false := by
  unfold afterSync
  split
  · rfl
  · split
    · rfl
    · rfl

/- So does every request, by its own reply. -/
theorem afterSuccess_completed
    {p : Pending}
    (hPoint :
      (afterSuccess c task p).2.point = .completed ec resp)
    (hData : completesWithData ec = true) :
    (afterSuccess c task p).2 =
        task.goto (.completed ec resp) ∧
      toResult p.response = (ec, resp) ∧
      Concludes task.work p := by
  have hNever :
      ∀ point : Point, point = .completed ec resp →
        point.hasData = false → False := by
    rintro point rfl hNone
    rw [Point.hasData, hData] at hNone
    cases hNone
  revert hPoint
  unfold afterSuccess
  split
  · next community hWork =>
    intro hPoint
    injection hPoint with hEc hResp
    subst hEc hResp
    rw [hWork]
    exact ⟨rfl, rfl, trivial⟩
  · next creds attempt hWork =>
    intro hPoint
    rw [hWork]
    exact afterAnswer_completed hPoint hData
  · intro hPoint
    exact (hNever _ hPoint
      (afterIdentify_hasData c task _ p)).elim
  · intro hPoint
    exact (hNever _ hPoint
      (afterSync_hasData c task _ p)).elim

/- Only a reply that is taken up completes with data. -/
theorem Move.completed
    {out : Outside}
    {c' : Client}
    {task' : Task}
    {spawned : Option Task}
    (hMove : Move ssl out c task c' task' spawned)
    (hPoint : task'.point = .completed ec resp)
    (hData : completesWithData ec = true) :
    task' = task.goto (.completed ec resp) ∧
      ∃ x p, Takes c task ec resp x p := by
  have hNever :
      ∀ {P : Prop}, task'.point.hasData = false → P := by
    intro P hNone
    rw [hPoint, Point.hasData, hData] at hNone
    cases hNone
  cases hMove with
  | beginV2c _ hWork =>
      exact hNever (startV2c_opening c hWork).hasData
  | beginV3 _ _ => exact hNever (startV3_hasData c task _)
  | beginIdentify _ hWork =>
      exact hNever (startIdentify_opening out c hWork).hasData
  | ensure _ _ hEnsure =>
      apply hNever
      rcases ensureEngine_cases hEnsure with
        ⟨_, rfl, _⟩ | ⟨_, _, _, rfl, _⟩ | ⟨_, _, rfl, _⟩
      all_goals rfl
  | park _ _ => exact hNever rfl
  | fail _ _ => exact hNever (Failure.code_completesWithData _)
  | send _ hWork =>
      exact hNever (sendRequest_opening out c hWork).hasData
  | enter _ =>
      exact hNever (enterTransact_entry out c task _).hasData
  | leave _ _ => exact hNever rfl
  | failed _ => exact hNever (afterFailure_hasData task _)
  | succeeded hReturned hp =>
      rcases afterSuccess_completed hPoint hData with
        ⟨hTask', hResult, hConcludes⟩
      exact ⟨hTask', _, _, hReturned, hp, hResult,
        hConcludes⟩
  | beginSync hAt hWork =>
      exact hNever (startSync_opening out c hAt hWork).hasData
  | finish _ _ => exact hNever rfl

/- A wait that is over completes nothing. -/
theorem Resumes.not_hasData
    {t : Nat}
    {e : Event}
    {point : Point}
    (hResumes : Resumes c t task e point) :
    point.hasData = false := by
  cases hResumes with
  | sent ec hPoint =>
      unfold afterSend
      split
      · rfl
      · rfl
  | waited hPoint hp =>
      unfold afterWait
      split
      · rfl
      · split
        · rfl
        · unfold attemptPoint
          split
          · rfl
          · rfl
  | unparked hPoint hd =>
      unfold afterPark
      split
      · rfl
      · split
        · rfl
        · split
          · rfl
          · rfl

end Snmpio

------------------------------------------------------------
-- Attribution
------------------------------------------------------------

namespace Snmpio

variable {ssl : OpenSsl} {ec : Option ErrorCode}
variable {resp : Response}

/- A task that has completed was so before, or takes up. -/
theorem TaskStep.completed
    {c : Client}
    {e : Event}
    {t : Nat}
    {task' : Task}
    (hStep : TaskStep ssl c t e task')
    (hPoint : task'.point = .completed ec resp)
    (hData : completesWithData ec = true) :
    ∃ task, c.tasks[t]? = some task ∧
      task'.work = task.work ∧
      task'.target = task.target ∧
      task'.pdu = task.pdu ∧
      (task.point = .completed ec resp ∨
        ∃ x p, Takes c task ec resp x p) := by
  have hNever :
      ∀ {P : Prop}, task'.point.hasData = false → P := by
    intro P hNone
    rw [hPoint, Point.hasData, hData] at hNone
    cases hNone
  cases hStep with
  | moved hStrand hTask hMove =>
      rcases hMove.completed hPoint hData with
        ⟨hSame, hTakes⟩
      rw [hSame]
      exact ⟨_, hTask, rfl, rfl, rfl, Or.inr hTakes⟩
  | spawned _ hTask hMove _ =>
      rcases hMove.spawned_eq rfl with ⟨creds, rfl⟩
      exact hNever rfl
  | requested _ _ => exact hNever rfl
  | resumed hIdle hTask hResumes =>
      exact hNever hResumes.not_hasData
  | raised hTask _ _ => exact hNever rfl
  | @signalled kind task cancelled _ hTask _ _ =>
      refine ⟨task, hTask, rfl, rfl, rfl, Or.inl ?_⟩
      rcases signalled_cases task.point with hSame | hWake
      · rw [← hSame]
        exact hPoint
      · exact Point.eq_of_wake (hWake ▸ hPoint) rfl
  | woken hTask _ _ =>
      exact ⟨_, hTask, rfl, rfl, rfl,
        Or.inl (Point.eq_of_wake hPoint rfl)⟩
  | kept hTask _ =>
      exact ⟨_, hTask, rfl, rfl, rfl, Or.inl hPoint⟩

/-
  The v2c datagram holds a Response to the request: the id is
  that of the exchange, the Community that of the request.
-/
structure MatchesV2c
    (community : Octets)
    (request : Pdu)
    (x : Exchange)
    (datagram : Octets)
    (msg : V2cMessage)
    (pdu : Pdu) : Prop where
  asked :
    encodeV2cMessage community
      { request with requestId := x.key } = (x.datagram, none)
  decoded : (decodeV2cMessage datagram).1 = some msg
  pdu_eq : msg.pdu = pdu
  type_eq : pdu.type = .response
  requestId_eq : pdu.requestId = x.key
  community_eq : msg.community = community

/-
  The v3 datagram holds a Response to the exchange, from the
  Engine the exchange was addressed to.  If the request is
  authenticated the datagram was verified, and if it came
  encrypted it was opened, each with the request's own key.
-/
structure MatchesV3
    (ssl : OpenSsl)
    (creds : Credentials)
    (request : Pdu)
    (x : Exchange)
    (datagram : Octets)
    (engineId authKey privKey : Octets)
    (msg : V3Message)
    (pdu : Pdu) : Prop where
  asked :
    AddressedTo ssl creds engineId authKey privKey
      { request with requestId := x.key } x.datagram
  decoded : (decodeV3Message datagram).1 = some msg
  msgId_eq : msg.header.msgId = x.key
  type_eq : pdu.type = .response
  requestId_eq : pdu.requestId = x.key
  engineId_eq : msg.security.engineId = engineId
  authKey_eq : requestAuthKey ssl creds engineId = .ok authKey
  privKey_eq : requestPrivKey ssl creds engineId = .ok privKey
  verified :
    creds.level.isAuthenticated = true →
      verifyAuth ssl datagram msg creds.authProtocol authKey =
        .ok ()
  plain :
    msg.header.level.isEncrypted = false →
      msg.scopedPdu.pdu = pdu
  decrypted :
    msg.header.level.isEncrypted = true →
      ∃ opened,
        decryptScopedPdu ssl msg creds.privProtocol privKey =
            .ok opened ∧
          opened.scopedPdu.pdu = pdu

/- The datagram answers the exchange of the request. -/
def Matches
    (ssl : OpenSsl)
    (task : Task)
    (x : Exchange)
    (datagram : Octets)
    (pdu : Pdu) : Prop :=
  match task.work with
  | .v2c community =>
      ∃ msg, MatchesV2c community task.pdu x datagram msg pdu
  | .v3 creds _ =>
      ∃ engineId authKey privKey msg,
        MatchesV3 ssl creds task.pdu x datagram engineId
          authKey privKey msg pdu
  | _ => False

/- What was stored is a reply that came for it. -/
theorem Sound.matches
    {events : List Event}
    {c : Client}
    (hSound : Sound ssl events c)
    {t : Nat}
    {task : Task}
    (hTask : c.tasks[t]? = some task)
    {x : Exchange}
    {p : Pending}
    (hTakes : Takes c task ec resp x p) :
    ∃ datagram,
      Event.receive task.target.endpoint datagram ∈ events ∧
        Matches ssl task x datagram p.response := by
  have hTaskSound := hSound.tasks t task hTask
  have hExchange : task.point.exchange? = some x := by
    rw [hTakes.point]
    rfl
  rcases hTaskSound.exchange x hExchange with
    ⟨p₁, hp₁, hAsked⟩
  rcases hTaskSound.answered x hTakes.point with
    ⟨p₂, hp₂, hAnswered⟩
  rw [hTakes.found] at hp₁ hp₂
  cases hp₁
  cases hp₂
  rcases hSound.core.answers x.pending p hTakes.found
    hAnswered with ⟨sender, datagram, hMem, hReply⟩
  have hSender : p.sender = task.target.endpoint :=
    hAsked.sender_eq
  have hKey : p.requestId = x.key := hAsked.key_eq
  have hAsks := hAsked.asks
  have hConcludes := hTakes.concludes
  unfold Matches
  unfold Answered at hReply
  unfold Asks at hAsks
  unfold Concludes at hConcludes
  split at hAsks
  · next community hWork =>
    rcases hAsks with ⟨hV2c, hCommunity, hEncoded⟩
    have hVersion : p.v3 = false := hV2c
    rw [hVersion, if_neg Bool.false_ne_true] at hReply
    rcases hReply with ⟨msg, hMsg⟩
    rw [hWork]
    rw [hMsg.sender_eq, hSender] at hMem
    refine ⟨datagram, hMem, msg, {
      asked := hEncoded
      decoded := hMsg.decoded
      pdu_eq := hMsg.response_eq.symm
      type_eq := ?_
      requestId_eq := ?_
      community_eq := hMsg.community_eq.trans hCommunity }⟩
    · rw [hMsg.response_eq]
      exact hMsg.type_eq
    · rw [hMsg.response_eq, ← hKey]
      exact hMsg.requestId_eq
  · next creds attempt hWork =>
    rcases hAsks with ⟨hSealed, hRequired⟩
    have hVersion : p.v3 = true := hSealed.v3
    rw [hVersion, if_pos rfl] at hReply
    rcases hReply with ⟨msg, opened, hMsg⟩
    rw [hWork] at hConcludes ⊢
    rw [hMsg.sender_eq, hSender] at hMem
    refine ⟨datagram, hMem, p.engineId, p.authKey, p.privKey,
      msg, {
      asked := hSealed.addressed
      decoded := hMsg.decoded
      msgId_eq := hMsg.msgId_eq.trans hKey
      type_eq := hMsg.type_eq hConcludes
      requestId_eq := (hMsg.requestId_eq hConcludes).trans hKey
      engineId_eq :=
        hMsg.engineId_eq hConcludes hSealed.engineId_ne
      authKey_eq := hSealed.authKey
      privKey_eq := hSealed.privKey
      verified := ?_
      plain := ?_
      decrypted := ?_ }⟩
    · intro hLevel
      have hProtocol : p.authProtocol = creds.authProtocol :=
        hSealed.authProtocol
      rw [← hProtocol]
      exact hMsg.verified (hMsg.authenticated hConcludes
        (hRequired.trans hLevel))
    · intro hPlain
      have hOpens := hMsg.opens
      rw [openScopedPdu, hPlain,
        if_neg Bool.false_ne_true] at hOpens
      cases hOpens
      exact hMsg.response_eq.symm
    · intro hEncrypted
      have hOpens := hMsg.opens
      have hProtocol : p.privProtocol = creds.privProtocol :=
        hSealed.privProtocol
      rw [openScopedPdu, if_pos hEncrypted, hProtocol]
        at hOpens
      exact ⟨opened, hOpens, hMsg.response_eq.symm⟩
  · next hWork =>
    rw [hWork] at hConcludes
    exact hConcludes.elim
  · next hWork =>
    rw [hWork] at hConcludes
    exact hConcludes.elim

/-
  Whatever the network does, the data a request completes
  with are those of a datagram that came from its Target and
  answered an exchange the request was in.
-/
theorem completed_attributed
    {id : Int32}
    {now : Int}
    {events : List Event}
    {c : Client}
    (hRun :
      Machine.run (step ssl) (fresh id now) events = some c)
    {t : Nat}
    {task : Task}
    (hTask : c.tasks[t]? = some task)
    (hPoint : task.point = .completed ec resp)
    (hData : completesWithData ec = true) :
    ∃ (before rest : List Event) (c₁ : Client) (asker : Task)
        (x : Exchange) (datagram : Octets) (pdu : Pdu),
      events = before ++ rest ∧
        Machine.run (step ssl) (fresh id now) before =
          some c₁ ∧
        c₁.tasks[t]? = some asker ∧
        asker.work = task.work ∧
        asker.target = task.target ∧
        asker.pdu = task.pdu ∧
        asker.point.exchange? = some x ∧
        Event.receive task.target.endpoint datagram ∈ before ∧
        Matches ssl asker x datagram pdu ∧
        ec = (if pdu.errorStatus ≠ 0 then
          some (.agent pdu.errorStatus) else none) ∧
        resp.varbinds = pdu.varbinds ∧
        resp.errorIndex = pdu.errorIndex := by
  -- The first state in which the request has completed.
  rcases Machine.exists_first
    (Q := fun c => ∃ found : Task,
      c.tasks[t]? = some found ∧ found.work = task.work ∧
        found.target = task.target ∧ found.pdu = task.pdu ∧
        found.point = .completed ec resp)
    (by simp [fresh]) hRun
    ⟨task, hTask, rfl, rfl, rfl, hPoint⟩ with
    ⟨before, e, rest, c₁, c₂, hEvents, hBefore, hNot, hStep,
      found, hFound, hWork, hTarget, hPdu, hDone⟩
  have hSound := sound_of_run hBefore
  rcases (step_task hStep hFound).completed hDone hData with
    ⟨asker, hAsker, hWork', hTarget', hPdu', hOver | hTakes⟩
  · refine absurd ⟨asker, hAsker, ?_, ?_, ?_, hOver⟩ hNot
    · rw [← hWork', hWork]
    · rw [← hTarget', hTarget]
    · rw [← hPdu', hPdu]
  · rcases hTakes with ⟨x, p, hTakes⟩
    rcases hSound.matches hAsker hTakes with
      ⟨datagram, hMem, hMatches⟩
    rw [← hTarget', hTarget] at hMem
    have hResult := Prod.mk.inj hTakes.result
    refine ⟨before, e :: rest, c₁, asker, x, datagram,
      p.response, hEvents, hBefore, hAsker, ?_, ?_, ?_, ?_,
      hMem, hMatches, hResult.1.symm, ?_, ?_⟩
    · rw [← hWork', hWork]
    · rw [← hTarget', hTarget]
    · rw [← hPdu', hPdu]
    · rw [hTakes.point]
      rfl
    · rw [← hResult.2]
    · rw [← hResult.2]

end Snmpio

------------------------------------------------------------
-- An Agent
------------------------------------------------------------

namespace Snmpio

/- An Agent that a v3 user asks for its uptime. -/
def agentEndpoint : Endpoint :=
  { address := [192, 0, 2, 1] }

def agentTarget : Target :=
  { endpoint := agentEndpoint }

def agentEngineId : Octets :=
  [0x80, 0x00, 0x1F, 0x88, 0x01]

/- The user `ops`, with the password `authpass`. -/
def agentUser : Credentials :=
  { userName := [0x6F, 0x70, 0x73]
    level := .authNoPriv
    authProtocol := .md5
    authPassword :=
      [0x61, 0x75, 0x74, 0x68, 0x70, 0x61, 0x73, 0x73] }

def agentUsm : UsmParameters :=
  { engineId := agentEngineId
    boots := 5
    time := 1000
    userName := agentUser.userName }

def sysUpTime : Oid :=
  ⟨[1, 3, 6, 1, 2, 1, 1, 3, 0]⟩

def upTimeRequest : Pdu :=
  { varbinds := [⟨sysUpTime, .null⟩] }

def upTimeResponse
    (id : Int32) : Pdu :=
  { type := .response
    requestId := id
    varbinds := [⟨sysUpTime, .timeTicks 4711⟩] }

def usmReport
    (counter : UInt32) : Pdu :=
  { type := .report
    varbinds :=
      [⟨⟨usmStatsPrefix.subids ++ [counter, 0]⟩,
        .counter32 1⟩] }

/- The MD5 key of the password, and localized to the Engine. -/
def agentMasterKey : Octets :=
  [0xEB, 0x81, 0x36, 0x0F, 0x73, 0xAD, 0xF8, 0xD6,
    0x96, 0x7E, 0xAA, 0xDE, 0xC0, 0x3D, 0xFF, 0x45]

/- The key of the Agent's user, localized. -/
def agentKey : Octets :=
  [0xDD, 0x10, 0xA4, 0x46, 0x2B, 0xBF, 0x41, 0x48,
    0x6C, 0xBB, 0x3B, 0x6E, 0x5A, 0xEB, 0x54, 0x7A]

/- The octets of a message with an open ScopedPDU. -/
def agentMessage
    (ssl : OpenSsl)
    (level : SecurityLevel)
    (id : Int32)
    (usm : UsmParameters)
    (pdu : Pdu) : Octets :=
  ((encodeV3Message ssl { msgId := id, level := level } usm
    { contextEngineId := usm.engineId, pdu := pdu }
    .md5 agentKey .none [] 0).1.toOption).getD []

/- What the time-sync phase puts into its message. -/
def syncUsm : UsmParameters :=
  { engineId := agentEngineId
    userName := agentUser.userName }

/-
  The HMAC-MD5 under that key of the messages that are signed
  in the runs of that Agent.  An OpenSSL that only copies
  leaves their digest blank.
-/
def agentMacs : List (Octets × Octets) :=
  let blank := agentMessage OpenSsl.copying .authNoPriv
  [(blank 2 syncUsm { requestId := 2 },
    [0xFD, 0xF4, 0xDC, 0xE1, 0x11, 0x9E, 0x9E, 0xCD,
      0x6F, 0x44, 0xF6, 0x8E, 0x22, 0x5C, 0x05, 0x55]),
  (blank 2 agentUsm (usmReport usmStatsNotInTimeWindows),
    [0xBE, 0x3A, 0x33, 0x15, 0x9F, 0x98, 0xCA, 0x8A,
      0x95, 0xC0, 0xD9, 0xCC, 0x8F, 0xB6, 0x5B, 0x6A]),
  (blank 3 agentUsm { upTimeRequest with requestId := 3 },
    [0x54, 0x83, 0xBC, 0x51, 0xA3, 0x9E, 0xB6, 0x50,
      0xBF, 0x73, 0x3B, 0x37, 0x61, 0x2E, 0x65, 0x20]),
  (blank 3 agentUsm (upTimeResponse 3),
    [0x2A, 0x8F, 0x28, 0xAF, 0x5A, 0xFA, 0x90, 0xEE,
      0xD2, 0x01, 0xE9, 0x96, 0x22, 0xF3, 0x3B, 0x89]),
  (blank 3 { agentUsm with boots := 4 } (upTimeResponse 3),
    [0x5D, 0x3B, 0x0E, 0x86, 0x06, 0x3E, 0xE1, 0x0F,
      0xE8, 0xDB, 0x05, 0x3F, 0xD4, 0x18, 0xF8, 0xEC]),
  (blank 3 syncUsm { requestId := 3 },
    [0x25, 0x6D, 0x42, 0x1E, 0xF6, 0x1D, 0x9E, 0xC6,
      0xF7, 0x2F, 0x4E, 0xAB, 0x63, 0xAF, 0x32, 0x90]),
  (blank 4 syncUsm { requestId := 4 },
    [0xB3, 0x57, 0x0E, 0x3D, 0x00, 0x11, 0x68, 0xB0,
      0xCE, 0xB1, 0xC8, 0x05, 0xA1, 0xA5, 0x7D, 0x56]),
  (blank 3 agentUsm (usmReport usmStatsNotInTimeWindows),
    [0x0C, 0x8F, 0x6F, 0x20, 0x40, 0x52, 0xEE, 0x06,
      0x28, 0x21, 0xD3, 0x1F, 0x44, 0x37, 0x57, 0x70]),
  (blank 4 { agentUsm with time := 1001 }
      (usmReport usmStatsNotInTimeWindows),
    [0xBD, 0x23, 0x42, 0x46, 0xD0, 0xDB, 0x1E, 0x15,
      0x87, 0xF1, 0xC1, 0x7E, 0xD4, 0x54, 0xCE, 0xC1]),
  (blank 3 { agentUsm with time := 1010 } (upTimeResponse 3),
    [0x43, 0x91, 0x46, 0x48, 0x57, 0xB3, 0x9E, 0x25,
      0xFB, 0x22, 0x1E, 0xF7, 0x08, 0x37, 0x23, 0xCB])]

/- An OpenSSL that has the true values for that Agent. -/
def agentSsl : OpenSsl :=
  { OpenSsl.copying with
    digest := fun _ parts =>
      match parts with
      | [_, _, _] => some agentKey
      | _ => some agentMasterKey
    hmac := fun _ _ _ message =>
      some ((agentMacs.lookup message).getD
        (List.replicate 16 0)) }

/- The coroutine at the head goes on. -/
def ahead : Event := .advance {}

/- A request up to the wait for its Response. -/
def askedRun : List Event :=
  [ -- The request starts a discovery and parks behind it.
    .request agentTarget (.credentials agentUser)
      upTimeRequest,
    ahead, ahead, ahead, ahead, ahead,
    -- The identity phase.
    .sent 1 none,
    .receive agentEndpoint
      (agentMessage agentSsl .noAuthNoPriv 1
        { agentUsm with userName := [] }
        (usmReport usmStatsUnknownEngineIds)),
    .resume 1, ahead, ahead, ahead, ahead,
    -- The time-sync phase.
    .sent 1 none,
    .receive agentEndpoint
      (agentMessage agentSsl .authNoPriv 2 agentUsm
        (usmReport usmStatsNotInTimeWindows)),
    .resume 1, ahead, ahead, ahead,
    -- The request itself.
    .resume 0, ahead, ahead,
    .sent 0 none]

def answeredRun : List Event :=
  askedRun ++
    [.receive agentEndpoint
      (agentMessage agentSsl .authNoPriv 3 agentUsm
        (upTimeResponse 3)),
    .resume 0, ahead, ahead]

def answeredTask : Task :=
  { work := .v3 agentUser 0
    target := agentTarget
    pdu := upTimeRequest
    point := .completed none
      { varbinds := [⟨sysUpTime, .timeTicks 4711⟩] } }

/- The request completes with what the Agent said. -/
theorem answeredRun_task :
    (Machine.run (step agentSsl) (fresh 1 0)
      answeredRun).bind (fun c => c.tasks[0]?) =
        some answeredTask := by
  decide +kernel

/- An authenticated Response, and who gets it. -/
theorem completed_attributed_sample :
    ∃ c asker x datagram pdu,
      Machine.run (step agentSsl) (fresh 1 0) answeredRun =
          some c ∧
        c.tasks[0]? = some answeredTask ∧
        asker.work = .v3 agentUser 0 ∧
        Event.receive agentEndpoint datagram ∈ answeredRun ∧
        Matches agentSsl asker x datagram pdu ∧
        pdu.varbinds = [⟨sysUpTime, .timeTicks 4711⟩] := by
  rcases Option.bind_eq_some_iff.mp answeredRun_task with
    ⟨c, hRun, hTask⟩
  rcases completed_attributed hRun hTask rfl rfl with
    ⟨before, rest, c₁, asker, x, datagram, pdu, hEvents, _, _,
      hWork, _, _, _, hMem, hMatches, _, hVarbinds, _⟩
  refine ⟨c, asker, x, datagram, pdu, hRun, hTask, hWork, ?_,
    hMatches, hVarbinds.symm⟩
  rw [hEvents]
  exact List.mem_append_left _ hMem

end Snmpio
