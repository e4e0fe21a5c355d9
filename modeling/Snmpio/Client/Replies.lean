import Snmpio.Client.Engines

/-
  Replies: which datagram answers an exchange, and what the
  answer means.

  Everything that makes a datagram unusable drops it, and
  the exchange stays outstanding.  `judgeV2c` and `judgeV3`
  are the parts of `deliverV2c` and `deliverV3` that come
  after the exchange has been found.

  Key definitions include:
    * `Pending`
    * `judgeV2c`
    * `judgeV3`
    * `handleReport`
    * `toResult`

  Key theorems include:
    * `judgeV2c_accept`
    * `judgeV3_accept`
    * `handleReport_write`
-/

------------------------------------------------------------
-- Exchanges
------------------------------------------------------------

namespace Snmpio

/-
  One outstanding exchange.  `sender` is the source's
  `from`.  The timer is kept with whoever waits on it.
-/
structure Pending where
  sender : Endpoint
  community : Octets := []
  v3 : Bool := false
  authRequired : Bool := false
  authProtocol : AuthProtocol := .none
  privProtocol : PrivProtocol := .none
  authKey : Octets := []
  privKey : Octets := []
  engineId : Octets := []
  requestId : Int32 := 0
  response : Pdu := {}
  security : UsmParameters := {}
  answered : Bool := false
  replyAuthenticated : Bool := false
  timeSyncPhase : Bool := false
  dropReason : Option Errc := none
  deriving DecidableEq

/- The exchange without what came back for it. -/
def Pending.asked
    (p : Pending) : Pending :=
  { p with
    response := {}
    security := {}
    answered := false
    replyAuthenticated := false
    dropReason := none }

/- What a datagram does to the exchange it names. -/
inductive Verdict where
  | drop (reason : Option Errc)
  | accept (p : Pending)
  deriving DecidableEq

end Snmpio

------------------------------------------------------------
-- Delivery
------------------------------------------------------------

namespace Snmpio

def judgeV2c
    (p : Pending)
    (sender : Endpoint)
    (msg : V2cMessage) : Verdict :=
  if p.v3 then .drop none
  else if sender ≠ p.sender ∨
      msg.community ≠ p.community then
    .drop none
  else
    .accept { p with response := msg.pdu, answered := true }

/- A Report that is neither signed nor encrypted. -/
def exemptFromAuth
    (msg : V3Message) : Bool :=
  ¬ msg.header.level.isEncrypted ∧
    ¬ msg.header.level.isAuthenticated ∧
    msg.scopedPdu.pdu.type = .report

variable (ssl : OpenSsl)

/- The message with its ScopedPDU open, if it can be. -/
def openScopedPdu
    (p : Pending)
    (msg : V3Message) : Except Errc V3Message :=
  if msg.header.level.isEncrypted then
    decryptScopedPdu ssl msg p.privProtocol p.privKey
  else .ok msg

/- The checks that follow once the message is open. -/
def judgeOpened
    (cache : EngineCache)
    (now : Int)
    (p : Pending)
    (sender : Endpoint)
    (authenticated : Bool)
    (msg : V3Message) : Verdict :=
  let pdu := msg.scopedPdu.pdu
  let isReport := pdu.type = .report
  if p.timeSyncPhase ∧ ¬ authenticated ∧
      reportsNotInTimeWindows pdu then
    .drop (some .notInTimeWindow)
  else if ¬ isReport ∧ p.engineId ≠ [] ∧
      msg.security.engineId ≠ p.engineId then
    .drop none
  else if ¬ isReport ∧ pdu.requestId ≠ p.requestId then
    .drop none
  else if ¬ isReport ∧ pdu.type ≠ .response then
    .drop none
  else if ¬ isReport ∧ p.authRequired ∧
      ¬ cache.timely now sender msg.security then
    .drop (some .notInTimeWindow)
  else
    .accept { p with
      security := msg.security
      response := pdu
      replyAuthenticated := authenticated
      answered := true }

def judgeV3
    (cache : EngineCache)
    (now : Int)
    (p : Pending)
    (datagram : Octets)
    (sender : Endpoint)
    (msg : V3Message) : Verdict :=
  if ¬ p.v3 then .drop none
  else if sender ≠ p.sender then .drop none
  else
    let authenticated := p.authRequired && !exemptFromAuth msg
    if authenticated ∧
        verifyAuth ssl datagram msg p.authProtocol p.authKey ≠
          .ok () then
      .drop (some .authFailed)
    else
      match openScopedPdu ssl p msg with
      | .error _ => .drop (some .decryptionFailed)
      | .ok msg =>
          judgeOpened cache now p sender authenticated msg

end Snmpio

------------------------------------------------------------
-- Accepted Datagrams
------------------------------------------------------------

namespace Snmpio

variable (ssl : OpenSsl) {p p' : Pending}
variable {sender : Endpoint} {msg : V3Message}

/- The exchange holds the Response in this v2c datagram. -/
structure AnsweredV2c
    (p : Pending)
    (sender : Endpoint)
    (datagram : Octets)
    (msg : V2cMessage) : Prop where
  decoded : (decodeV2cMessage datagram).1 = some msg
  sender_eq : sender = p.sender
  type_eq : msg.pdu.type = .response
  requestId_eq : msg.pdu.requestId = p.requestId
  community_eq : msg.community = p.community
  response_eq : p.response = msg.pdu

/-
  The exchange holds the reply in this v3 datagram, which
  was verified if the exchange says so.
-/
structure AnsweredV3
    (p : Pending)
    (sender : Endpoint)
    (datagram : Octets)
    (msg opened : V3Message) : Prop where
  decoded : (decodeV3Message datagram).1 = some msg
  sender_eq : sender = p.sender
  msgId_eq : msg.header.msgId = p.requestId
  opens : openScopedPdu ssl p msg = .ok opened
  response_eq : p.response = opened.scopedPdu.pdu
  security_eq : p.security = msg.security
  checked :
    p.replyAuthenticated =
      (p.authRequired && !exemptFromAuth msg)
  verified :
    p.replyAuthenticated = true →
      verifyAuth ssl datagram msg p.authProtocol p.authKey =
        .ok ()
  type_eq :
    p.response.type ≠ .report → p.response.type = .response
  requestId_eq :
    p.response.type ≠ .report →
      p.response.requestId = p.requestId
  engineId_eq :
    p.response.type ≠ .report → p.engineId ≠ [] →
      msg.security.engineId = p.engineId
  authenticated :
    p.response.type ≠ .report → p.authRequired = true →
      p.replyAuthenticated = true

/- The reply an exchange holds is that of this datagram. -/
def Answered
    (p : Pending)
    (sender : Endpoint)
    (datagram : Octets) : Prop :=
  if p.v3 then
    ∃ msg opened, AnsweredV3 ssl p sender datagram msg opened
  else ∃ msg, AnsweredV2c p sender datagram msg

variable {ssl}

theorem judgeV2c_accept
    {datagram : Octets}
    {msg : V2cMessage}
    (hDecoded : (decodeV2cMessage datagram).1 = some msg)
    (hType : msg.pdu.type = .response)
    (hId : msg.pdu.requestId = p.requestId)
    (hAccept : judgeV2c p sender msg = .accept p') :
    p'.asked = p.asked ∧ p'.answered = true ∧
      p'.replyAuthenticated = p.replyAuthenticated ∧
      Answered ssl p' sender datagram := by
  unfold judgeV2c at hAccept
  split at hAccept
  · cases hAccept
  · next hV3 =>
    split at hAccept
    · cases hAccept
    · next hSame =>
      rw [not_or, not_not, not_not] at hSame
      cases hAccept
      refine ⟨rfl, rfl, rfl, ?_⟩
      rw [Answered, if_neg hV3]
      exact ⟨msg, {
        decoded := hDecoded
        sender_eq := hSame.1
        type_eq := hType
        requestId_eq := hId
        community_eq := hSame.2
        response_eq := rfl }⟩

/- Opening a message changes its ScopedPDU only. -/
theorem openScopedPdu_security
    {opened : V3Message}
    (hOpen : openScopedPdu ssl p msg = .ok opened) :
    opened.security = msg.security := by
  unfold openScopedPdu decryptScopedPdu at hOpen
  split at hOpen
  · rcases hPlain :
      privDecrypt ssl p.privProtocol p.privKey
        msg.security.boots msg.security.time
        msg.security.privParams msg.encryptedPdu with
      e | plain
    · rw [hPlain] at hOpen
      cases hOpen
    · rw [hPlain] at hOpen
      dsimp only [bind, Except.bind] at hOpen
      split at hOpen
      · cases hOpen
      · cases hOpen
        rfl
  · cases hOpen
    rfl

/- A message exempt from verification is an open Report. -/
theorem openScopedPdu_exempt
    {opened : V3Message}
    (hOpen : openScopedPdu ssl p msg = .ok opened)
    (hExempt : exemptFromAuth msg = true) :
    opened.scopedPdu.pdu.type = .report := by
  simp only [exemptFromAuth, decide_eq_true_eq] at hExempt
  rw [openScopedPdu, if_neg hExempt.1] at hOpen
  cases hOpen
  exact hExempt.2.2

/- What passes the checks on an open message. -/
theorem judgeOpened_accept
    {cache : EngineCache}
    {now : Int}
    {authenticated : Bool}
    (hAccept :
      judgeOpened cache now p sender authenticated msg =
        .accept p') :
    p' = { p with
        security := msg.security
        response := msg.scopedPdu.pdu
        replyAuthenticated := authenticated
        answered := true } ∧
      (msg.scopedPdu.pdu.type ≠ .report →
        (p.engineId ≠ [] →
          msg.security.engineId = p.engineId) ∧
        msg.scopedPdu.pdu.requestId = p.requestId ∧
        msg.scopedPdu.pdu.type = .response ∧
        (p.authRequired = true →
          cache.timely now sender msg.security = true)) := by
  unfold judgeOpened at hAccept
  dsimp only at hAccept
  split_ifs at hAccept with hSync hEngine hId hType hTime
  cases hAccept
  refine ⟨rfl, ?_⟩
  intro hData
  refine ⟨?_, ?_, ?_, ?_⟩
  · intro hNonempty
    by_contra hNe
    exact hEngine ⟨hData, hNonempty, hNe⟩
  · by_contra hNe
    exact hId ⟨hData, hNe⟩
  · by_contra hNe
    exact hType ⟨hData, hNe⟩
  · intro hRequired
    by_contra hNe
    exact hTime ⟨hData, hRequired, hNe⟩

/-
  An accepted v3 datagram answers the exchange, and is
  marked as authenticated exactly if it was verified.
-/
theorem judgeV3_accept
    {cache : EngineCache}
    {now : Int}
    {datagram : Octets}
    (hDecoded : (decodeV3Message datagram).1 = some msg)
    (hId : msg.header.msgId = p.requestId)
    (hAccept :
      judgeV3 ssl cache now p datagram sender msg =
        .accept p') :
    p'.asked = p.asked ∧ p'.answered = true ∧
      p'.replyAuthenticated =
        (p.authRequired && !exemptFromAuth msg) ∧
      Answered ssl p' sender datagram := by
  unfold judgeV3 at hAccept
  dsimp only at hAccept
  split_ifs at hAccept with hV2c hSender hVerify
  rcases hOpen : openScopedPdu ssl p msg with e | opened
  · rw [hOpen] at hAccept
    cases hAccept
  · rw [hOpen] at hAccept
    rcases judgeOpened_accept hAccept with ⟨rfl, hData⟩
    refine ⟨rfl, rfl, rfl, ?_⟩
    rw [ne_eq, not_not] at hSender
    rw [Answered, if_pos hV2c]
    refine ⟨msg, opened, {
      decoded := hDecoded
      sender_eq := hSender
      msgId_eq := hId
      opens := hOpen
      response_eq := rfl
      security_eq := openScopedPdu_security hOpen
      checked := rfl
      verified := ?_
      type_eq := fun h => (hData h).2.2.1
      requestId_eq := fun h => (hData h).2.1
      engineId_eq := ?_
      authenticated := ?_ }⟩
    · intro hAuthenticated
      by_contra hFails
      exact hVerify ⟨hAuthenticated, hFails⟩
    · intro h hNonempty
      rw [← openScopedPdu_security hOpen]
      exact (hData h).1 hNonempty
    · intro h hRequired
      cases hExempt : exemptFromAuth msg with
      | true =>
          exact absurd (openScopedPdu_exempt hOpen hExempt) h
      | false => simpa using hRequired

end Snmpio

------------------------------------------------------------
-- Results
------------------------------------------------------------

namespace Snmpio

structure Response where
  varbinds : List Varbind := []
  errorIndex : Int32 := 0
  deriving DecidableEq

def toResult
    (response : Pdu) : Option ErrorCode × Response :=
  (if response.errorStatus ≠ 0 then
      some (.agent response.errorStatus)
    else none,
    { varbinds := response.varbinds
      errorIndex := response.errorIndex })

/-
  The error a Report means for the request that provoked it,
  or none when it is worth asking again, and the cache.
-/
def handleReport
    (cache : EngineCache)
    (now : Int)
    (sender : Endpoint)
    (p : Pending)
    (mayRetry : Bool) : Option Errc × EngineCache :=
  match usmStatsCounter p.response with
  | none => (some (reportError none), cache)
  | some counter =>
      if ¬ mayRetry then
        (some (reportError (some counter)), cache)
      else if counter ≠ usmStatsNotInTimeWindows ∧
          counter ≠ usmStatsUnknownEngineIds then
        (some (reportError (some counter)), cache)
      else if ¬ p.replyAuthenticated ∨
          counter = usmStatsUnknownEngineIds then
        (none,
          { cache with index := cache.index.erase sender })
      else
        match cache.engineAt sender with
        | none =>
            (none,
              cache.observeEngineTime now sender p.security)
        | some engine =>
            if engine.timeSynced ∧
                p.security.boots < engine.boots then
              (none,
                cache.setEngineAt sender
                  { engine with timeSynced := false })
            else
              (none,
                cache.observeEngineTime now sender
                  p.security)

/-
  What an answered request may do to the cache: forget which
  Engine is at the endpoint, and with an authenticated reply
  distrust that Engine's clock or adopt a pair for it.
-/
inductive AnswerWrite
    (cache : EngineCache)
    (now : Int)
    (endpoint : Endpoint)
    (p : Pending) :
    EngineCache → Prop where
  | none : AnswerWrite cache now endpoint p cache
  | forgotten :
      AnswerWrite cache now endpoint p
        { cache with index := cache.index.erase endpoint }
  | distrusted
      {engineId : Octets}
      {engine : EngineState}
      (hAuthenticated : p.replyAuthenticated = true)
      (hReport : p.response.type = .report)
      (hIndex : cache.index.lookup endpoint = some engineId)
      (hEngine : cache.engines.lookup engineId = some engine)
      (hSynced : engine.timeSynced = true)
      (hLower : p.security.boots < engine.boots) :
      AnswerWrite cache now endpoint p
        { cache with
          engines := cache.engines.insert engineId
            { engine with timeSynced := false } }
  | adopted
      {engineId : Octets}
      {engine : EngineState}
      (hAuthenticated : p.replyAuthenticated = true)
      (hIndex : cache.index.lookup endpoint = some engineId)
      (hEngine :
        cache.engines.lookup engineId = some engine)
      (hNotLower :
        ¬ Lower p.security.boots p.security.time engine) :
      AnswerWrite cache now endpoint p
        { cache with
          engines := cache.engines.insert engineId
            { engine with
              boots := p.security.boots
              time := p.security.time
              learnt := now
              timeSynced := true } }

theorem observeEngineTime_write
    {cache : EngineCache}
    {now : Int}
    {endpoint : Endpoint}
    {p : Pending}
    (hAuthenticated : p.replyAuthenticated = true) :
    AnswerWrite cache now endpoint p
      (cache.observeEngineTime now endpoint p.security) := by
  rcases EngineCache.observeEngineTime_cases now endpoint
    p.security with
    hSame | ⟨engineId, engine, hIndex, hEngine, hNotLower,
      hAdopted⟩
  · rw [hSame]
    exact AnswerWrite.none
  · rw [hAdopted]
    exact AnswerWrite.adopted hAuthenticated hIndex hEngine
      hNotLower

theorem handleReport_write
    {cache : EngineCache}
    {now : Int}
    {endpoint : Endpoint}
    {p : Pending}
    (hReport : p.response.type = .report)
    (mayRetry : Bool) :
    AnswerWrite cache now endpoint p
      (handleReport cache now endpoint p mayRetry).2 := by
  unfold handleReport
  split
  · exact AnswerWrite.none
  · next counter _ =>
    split
    · exact AnswerWrite.none
    · split
      · exact AnswerWrite.none
      · split
        · exact AnswerWrite.forgotten
        · next hKeep =>
          rw [not_or, not_not] at hKeep
          split
          · exact observeEngineTime_write hKeep.1
          · next engine hEngine =>
            split
            · next hLower =>
              rcases EngineCache.engineAt_eq_some.mp
                hEngine with ⟨engineId, hIndex, hLookup⟩
              rw [EngineCache.setEngineAt, hIndex]
              exact AnswerWrite.distrusted hKeep.1 hReport
                hIndex hLookup hLower.1 hLower.2
            · exact observeEngineTime_write hKeep.1

end Snmpio
