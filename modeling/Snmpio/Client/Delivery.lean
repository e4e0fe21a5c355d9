import Snmpio.Client.Retransmission

/-
  What an honest Agent answers is never lost, and what
  nobody has signed is never decrypted.

  The datagram an Agent builds for an exchange is routed to
  the `Pending` of that exchange and passes every check on
  the way, whatever else is outstanding.

  Key definitions include:
    * `reachesCipher`
    * `judgeV3Calls`
    * `Work.level`
    * `Genuine`
    * `Taken`

  Key theorems include:
    * `decrypted_after_verified`
    * `judgeV3_genuine`
    * `genuine_reply_taken`
-/

------------------------------------------------------------
-- Exchanges without a Digest
------------------------------------------------------------

namespace Snmpio

variable {ssl : OpenSsl} {c c' : Client} {p : Pending}

/- Nothing of SNMPv2c is ever said to be authenticated. -/
def Pending.Plain
    (p : Pending) : Prop :=
  p.v3 = false →
    p.authRequired = false ∧ p.replyAuthenticated = false

theorem Pending.Fresh.plain_reply
    (hFresh : p.Fresh) :
    p.Plain :=
  fun hV2c => ⟨hFresh.plain hV2c, hFresh.unsigned⟩

theorem judgeV2c_plain
    {p' : Pending}
    {sender : Endpoint}
    {msg : V2cMessage}
    (hPlain : p.Plain)
    (hAccept : judgeV2c p sender msg = .accept p') :
    p'.Plain := by
  unfold judgeV2c at hAccept
  split_ifs at hAccept
  cases hAccept
  exact hPlain

theorem judgeV3_plain
    {cache : EngineCache}
    {now : Int}
    {p' : Pending}
    {datagram : Octets}
    {sender : Endpoint}
    {msg : V3Message}
    (hAccept :
      judgeV3 ssl cache now p datagram sender msg =
        .accept p') :
    p'.Plain := by
  unfold judgeV3 at hAccept
  dsimp only at hAccept
  split_ifs at hAccept with hV3
  split at hAccept
  · cases hAccept
  · rcases judgeOpened_accept hAccept with ⟨rfl, _⟩
    intro hV2c
    rw [hV3] at hV2c
    cases hV2c

theorem step_plain
    {e : Event}
    (hStep : step ssl c e = some c')
    (hPlain :
      ∀ (ref : Nat) (p : Pending),
        c.pendings[ref]? = some p → p.Plain)
    (ref : Nat)
    (p : Pending)
    (hp : c'.pendings[ref]? = some p) :
    p.Plain := by
  have hCase := step_pendings hStep
  generalize c'.pendings = pendings at hCase hp
  cases hCase with
  | kept _ => exact hPlain ref p hp
  | opened hFresh =>
      rcases getElem?_concat_cases hp with hOld | ⟨_, rfl⟩
      · exact hPlain ref p hOld
      · exact hFresh.plain_reply
  | @dropped _ _ found q reason hRoute =>
      rcases getElem?_set_cases hp with
        ⟨_, rfl⟩ | ⟨_, hOther⟩
      · exact hPlain found q (route_cases hRoute).1
      · exact hPlain ref p hOther
  | @accepted _ _ found q q' hRoute =>
      rcases getElem?_set_cases hp with
        ⟨_, rfl⟩ | ⟨_, hOther⟩
      · rcases route_cases hRoute with ⟨hq, hJudged⟩
        rcases hJudged with
          ⟨msg, _, _, hAccept⟩ | ⟨msg, _, _, hAccept⟩
        · exact judgeV2c_plain (hPlain found q hq)
            hAccept.symm
        · exact judgeV3_plain hAccept.symm
      · exact hPlain ref p hOther

theorem plain_of_run
    {id : Int32}
    {now : Int}
    {events : List Event}
    (hRun :
      Machine.run (step ssl) (fresh id now) events = some c)
    {ref : Nat}
    (hp : c.pendings[ref]? = some p) :
    p.Plain := by
  refine Machine.run_invariant
    (P := fun _ c =>
      ∀ (ref : Nat) (p : Pending),
        c.pendings[ref]? = some p → p.Plain) ?_ ?_ hRun ref p hp
  · intro ref p hNone
    cases hNone
  · intro _ c e c' _ ih hStep
    exact step_plain hStep ih

end Snmpio

------------------------------------------------------------
-- Encrypted Replies
------------------------------------------------------------

namespace Snmpio

variable {ssl : OpenSsl} {c : Client} {p : Pending}
variable {cache : EngineCache} {now : Int}
variable {datagram : Octets} {sender : Endpoint}
variable {msg : V3Message}

/- The check of the key that `privDecrypt` starts with. -/
def passesKeyCheck
    (p : PrivProtocol)
    (privKey : Octets) : Bool :=
  ¬ (privKey.length < privKeySize p ∨ privKeySize p = 0)

/-
  The way of `deliverV3` to the cipher, once the datagram is
  decoded and its exchange found.
-/
def reachesCipher
    (ssl : OpenSsl)
    (p : Pending)
    (datagram : Octets)
    (sender : Endpoint)
    (msg : V3Message) : Bool :=
  p.v3 ∧ sender = p.sender ∧
    (p.authRequired ∧ ¬ exemptFromAuth msg →
      verifyAuth ssl datagram msg p.authProtocol p.authKey =
        .ok ()) ∧
    msg.header.level.isEncrypted ∧
    passesKeyCheck p.privProtocol p.privKey

/- What `deliverV3` calls, with what `verifyAuth` returns. -/
inductive CryptoCall where
  | verifyAuth (verified : Bool)
  | cipher
  deriving DecidableEq

/- `judgeV3`, with its calls in their order. -/
def judgeV3Calls
    (ssl : OpenSsl)
    (cache : EngineCache)
    (now : Int)
    (p : Pending)
    (datagram : Octets)
    (sender : Endpoint)
    (msg : V3Message) : Verdict × List CryptoCall :=
  if ¬ p.v3 then (.drop none, [])
  else if sender ≠ p.sender then (.drop none, [])
  else
    let authenticated := p.authRequired && !exemptFromAuth msg
    let verified : Bool :=
      verifyAuth ssl datagram msg p.authProtocol p.authKey =
        .ok ()
    let calls :=
      if authenticated then [.verifyAuth verified] else []
    if authenticated ∧ ¬ verified then
      (.drop (some .authFailed), calls)
    else
      let calls :=
        if msg.header.level.isEncrypted ∧
            passesKeyCheck p.privProtocol p.privKey then
          calls ++ [.cipher]
        else calls
      match openScopedPdu ssl p msg with
      | .error _ => (.drop (some .decryptionFailed), calls)
      | .ok msg =>
          (judgeOpened cache now p sender authenticated msg,
            calls)

/- The calls leave no trace in what is done. -/
theorem judgeV3Calls_fst :
    (judgeV3Calls ssl cache now p datagram sender msg).1 =
      judgeV3 ssl cache now p datagram sender msg := by
  unfold judgeV3Calls judgeV3
  simp only [decide_eq_true_eq, ne_eq]
  split_ifs
  all_goals try rfl
  all_goals
    cases openScopedPdu ssl p msg with
    | error e => rfl
    | ok opened => rfl

/- The cipher is called exactly where the way leads to it. -/
theorem cipher_mem_judgeV3Calls :
    CryptoCall.cipher ∈
        (judgeV3Calls ssl cache now p datagram sender msg).2 ↔
      reachesCipher ssl p datagram sender msg = true := by
  rw [reachesCipher, decide_eq_true_eq]
  unfold judgeV3Calls
  cases openScopedPdu ssl p msg with
  | error e =>
      simp only [decide_eq_true_eq]
      split_ifs <;> simp_all
  | ok opened =>
      simp only [decide_eq_true_eq]
      split_ifs <;> simp_all

/- There is no other call after, and one before. -/
theorem judgeV3Calls_snd
    (hRequired : p.authRequired = true)
    (hReaches :
      reachesCipher ssl p datagram sender msg = true) :
    (judgeV3Calls ssl cache now p datagram sender msg).2 =
      [.verifyAuth true, .cipher] := by
  rw [reachesCipher, decide_eq_true_eq] at hReaches
  rcases hReaches with
    ⟨hV3, hSender, hVerified, hEncrypted, hPasses⟩
  have hExempt : exemptFromAuth msg = false := by
    simp [exemptFromAuth, hEncrypted]
  have hOk :
      verifyAuth ssl datagram msg p.authProtocol p.authKey =
        .ok () :=
    hVerified ⟨hRequired, by simp [hExempt]⟩
  unfold judgeV3Calls
  cases openScopedPdu ssl p msg with
  | error e =>
      simp [hV3, hSender, hRequired, hExempt, hOk, hEncrypted,
        hPasses]
  | ok opened =>
      simp [hV3, hSender, hRequired, hExempt, hOk, hEncrypted,
        hPasses]

/- Without authentication an exchange has no privacy key. -/
theorem keyless_of_run
    {id : Int32}
    {events : List Event}
    (hRun :
      Machine.run (step ssl) (fresh id now) events = some c)
    {ref : Nat}
    (hp : c.pendings[ref]? = some p) :
    p.authRequired = false → p.privKey = [] := by
  refine Machine.run_invariant
    (P := fun _ c =>
      ∀ (ref : Nat) (p : Pending),
        c.pendings[ref]? = some p →
          p.authRequired = false → p.privKey = [])
    ?_ ?_ hRun ref p hp
  · intro ref p hNone
    cases hNone
  · intro _ c e c' _ ih hStep ref p' hp'
    rcases step_asked hStep hp' with
      hFresh | ⟨p, hp, hAsked⟩
    · exact hFresh.keyless
    · intro hOpen
      have hRequired :
          p'.asked.authRequired = p.asked.authRequired :=
        congrArg Pending.authRequired hAsked
      have hKey : p'.asked.privKey = p.asked.privKey :=
        congrArg Pending.privKey hAsked
      change p'.asked.privKey = []
      rw [hKey]
      exact ih ref p hp (hRequired.symm.trans hOpen)

/- An empty key never passes. -/
theorem passesKeyCheck_nil
    (p : PrivProtocol) :
    passesKeyCheck p [] = false := by
  cases p with
  | _ => rfl

theorem openScopedPdu_keyless
    (hEncrypted : msg.header.level.isEncrypted = true)
    (hCheck :
      passesKeyCheck p.privProtocol p.privKey = false) :
    openScopedPdu ssl p msg =
      .error .unsupportedPrivProtocol := by
  have hRefused :
      p.privKey.length < privKeySize p.privProtocol ∨
        privKeySize p.privProtocol = 0 := by
    simpa only [passesKeyCheck, decide_eq_false_iff_not,
      not_not] using hCheck
  rw [openScopedPdu, if_pos hEncrypted, decryptScopedPdu,
    privDecrypt, if_pos hRefused]
  rfl

/- Verifying a digest takes nothing but the HMAC. -/
theorem verifyAuth_congr
    {ssl' : OpenSsl}
    (hHmac : ssl'.hmac = ssl.hmac)
    (auth : AuthProtocol)
    (key : Octets) :
    verifyAuth ssl' datagram msg auth key =
      verifyAuth ssl datagram msg auth key := by
  unfold verifyAuth authDigest
  rw [hHmac]

/- Short of the cipher, nothing depends on it. -/
theorem judgeV3_congr
    (hShort :
      reachesCipher ssl p datagram sender msg = false)
    {ssl' : OpenSsl}
    (hHmac : ssl'.hmac = ssl.hmac) :
    judgeV3 ssl' cache now p datagram sender msg =
      judgeV3 ssl cache now p datagram sender msg := by
  unfold judgeV3
  simp only [verifyAuth_congr hHmac]
  split_ifs with hV3 hSender hVerify
  · rfl
  · rfl
  · have hOpen :
        openScopedPdu ssl' p msg = openScopedPdu ssl p msg := by
      cases hEncrypted : msg.header.level.isEncrypted with
      | false => simp [openScopedPdu, hEncrypted]
      | true =>
          have hCheck :
              passesKeyCheck p.privProtocol p.privKey =
                false := by
            by_contra hPasses
            rw [reachesCipher, decide_eq_false_iff_not]
              at hShort
            refine hShort ⟨hV3, not_not.mp hSender, ?_,
              hEncrypted, by simpa using hPasses⟩
            intro hSigned
            by_contra hFails
            exact hVerify ⟨by simpa using hSigned, hFails⟩
          rw [openScopedPdu_keyless hEncrypted hCheck,
            openScopedPdu_keyless hEncrypted hCheck]
    rw [hOpen]
  · rfl

/-
  Whatever exchange the Client has made and whatever arrives
  for it: the cipher is reached only with a digest that was
  verified for that exchange, it has no say otherwise, and
  an exchange without authentication drops what is
  encrypted.  In the order of the calls, the digest has been
  verified before the cipher is called.
-/
theorem decrypted_after_verified
    {id : Int32}
    {start : Int}
    {events : List Event}
    (hRun :
      Machine.run (step ssl) (fresh id start) events = some c)
    {ref : Nat}
    (hp : c.pendings[ref]? = some p)
    (cache : EngineCache)
    (now : Int)
    (datagram : Octets)
    (sender : Endpoint)
    (msg : V3Message) :
    (reachesCipher ssl p datagram sender msg = true →
      verifyAuth ssl datagram msg p.authProtocol p.authKey =
        .ok ()) ∧
      (reachesCipher ssl p datagram sender msg = false →
        ∀ ssl' : OpenSsl, ssl'.hmac = ssl.hmac →
          judgeV3 ssl' cache now p datagram sender msg =
            judgeV3 ssl cache now p datagram sender msg) ∧
      (msg.header.level.isEncrypted = true →
        p.authRequired = false →
          ∃ reason,
            judgeV3 ssl cache now p datagram sender msg =
              .drop reason) ∧
      let calls :=
        judgeV3Calls ssl cache now p datagram sender msg
      calls.1 =
          judgeV3 ssl cache now p datagram sender msg ∧
        (CryptoCall.cipher ∈ calls.2 ↔
          reachesCipher ssl p datagram sender msg = true) ∧
        (CryptoCall.cipher ∈ calls.2 →
          calls.2 = [.verifyAuth true, .cipher]) := by
  have hKeyless := keyless_of_run hRun hp
  have hRefused (hOpen : p.authRequired = false) :
      passesKeyCheck p.privProtocol p.privKey = false := by
    rw [hKeyless hOpen]
    exact passesKeyCheck_nil p.privProtocol
  have hRequired
      (hReaches :
        reachesCipher ssl p datagram sender msg = true) :
      p.authRequired = true := by
    by_contra hOpen
    rw [reachesCipher, decide_eq_true_eq,
      hRefused (by simpa using hOpen)] at hReaches
    cases hReaches.2.2.2.2
  refine ⟨?_, ?_, ?_, judgeV3Calls_fst,
    cipher_mem_judgeV3Calls, ?_⟩
  · intro hReaches
    have hRequired := hRequired hReaches
    rw [reachesCipher, decide_eq_true_eq] at hReaches
    rcases hReaches with ⟨_, _, hVerified, hEncrypted, _⟩
    refine hVerified ⟨hRequired, ?_⟩
    simp [exemptFromAuth, hEncrypted]
  · intro hShort ssl' hHmac
    exact judgeV3_congr hShort hHmac
  · intro hEncrypted hOpen
    have hClosed :
        openScopedPdu ssl p msg =
          .error .unsupportedPrivProtocol :=
      openScopedPdu_keyless hEncrypted (hRefused hOpen)
    unfold judgeV3
    simp only [hOpen, Bool.false_and, Bool.false_eq_true,
      false_and, if_false, hClosed]
    split_ifs
    all_goals exact ⟨_, rfl⟩
  · intro hMem
    have hReaches := cipher_mem_judgeV3Calls.mp hMem
    exact judgeV3Calls_snd (hRequired hReaches) hReaches

/- An encrypted message with the id of an identity phase. -/
def sealedReport : Octets :=
  ((encodeV3Message OpenSsl.copying
    { msgId := 1, level := .authPriv } agentUsm
    { contextEngineId := agentEngineId
      pdu := usmReport usmStatsUnknownEngineIds }
    .md5 agentKey .aes128 agentKey 0).1.toOption).getD []

theorem askedRun_identity :
    ((Machine.run (step agentSsl) (fresh 1 0) askedRun).bind
      (fun c => c.pendings[0]?.bind (fun p =>
        (decodeV3Message sealedReport).1.map (fun msg =>
          (p.authRequired,
            msg.header.level.isEncrypted))))) =
      some (false, true) := by
  decide +kernel

/- The Agent's user, who wants privacy as well. -/
def privateUser : Credentials :=
  { agentUser with
    level := .authPriv
    privProtocol := .aes128
    privPassword := agentUser.authPassword }

def privateRun : List Event :=
  .request agentTarget (.credentials privateUser)
    upTimeRequest :: askedRun.tail

/- The sealed Response, signed with the HMAC of an OpenSSL. -/
def sealedUpTime
    (ssl : OpenSsl) : Octets :=
  ((encodeV3Message ssl { msgId := 3, level := .authPriv }
    agentUsm
    { contextEngineId := agentEngineId
      pdu := upTimeResponse 3 }
    .md5 agentKey .aes128 agentKey 0).1.toOption).getD []

/- Somebody without the key has another HMAC. -/
def forgerSsl : OpenSsl :=
  { agentSsl with
    hmac := fun _ _ _ _ => some (List.replicate 16 1) }

theorem privateRun_reaches :
    ((Machine.run (step agentSsl) (fresh 1 0)
      privateRun).bind (fun c => c.pendings[2]?.bind (fun p =>
        (decodeV3Message (sealedUpTime agentSsl)).1.bind
          (fun msg =>
            (decodeV3Message (sealedUpTime forgerSsl)).1.map
              (fun forged =>
                (reachesCipher agentSsl p
                    (sealedUpTime agentSsl) agentEndpoint msg,
                  reachesCipher agentSsl p
                    (sealedUpTime forgerSsl) agentEndpoint
                    forged)))))) =
      some (true, false) := by
  decide +kernel

/-
  An identity phase drops what is encrypted.  An exchange
  with privacy verifies its Response and then opens it, and
  what comes of a forged one is nothing that a cipher says.
-/
theorem decrypted_after_verified_sample :
    (∃ c p msg reason,
      Machine.run (step agentSsl) (fresh 1 0) askedRun =
          some c ∧
        c.pendings[0]? = some p ∧
        (decodeV3Message sealedReport).1 = some msg ∧
        judgeV3 agentSsl c.cache c.now p sealedReport
          agentEndpoint msg = .drop reason) ∧
      ∃ c p msg forged,
        Machine.run (step agentSsl) (fresh 1 0) privateRun =
            some c ∧
          c.pendings[2]? = some p ∧
          (decodeV3Message (sealedUpTime agentSsl)).1 =
            some msg ∧
          (decodeV3Message (sealedUpTime forgerSsl)).1 =
            some forged ∧
          verifyAuth agentSsl (sealedUpTime agentSsl) msg
              p.authProtocol p.authKey = .ok () ∧
          (judgeV3Calls agentSsl c.cache c.now p
              (sealedUpTime agentSsl) agentEndpoint msg).2 =
            [.verifyAuth true, .cipher] ∧
          ∀ ssl' : OpenSsl, ssl'.hmac = agentSsl.hmac →
            judgeV3 ssl' c.cache c.now p
                (sealedUpTime forgerSsl) agentEndpoint
                forged =
              judgeV3 agentSsl c.cache c.now p
                (sealedUpTime forgerSsl) agentEndpoint
                forged := by
  constructor
  · rcases Option.bind_eq_some_iff.mp askedRun_identity with
      ⟨c, hRun, hRest⟩
    rcases Option.bind_eq_some_iff.mp hRest with
      ⟨p, hp, hRest⟩
    rcases Option.map_eq_some_iff.mp hRest with
      ⟨msg, hMsg, hLevels⟩
    rw [Prod.mk.injEq] at hLevels
    rcases (decrypted_after_verified hRun hp c.cache c.now
        sealedReport agentEndpoint msg).2.2.1 hLevels.2
        hLevels.1 with ⟨reason, hDrop⟩
    exact ⟨c, p, msg, reason, hRun, hp, hMsg, hDrop⟩
  · rcases Option.bind_eq_some_iff.mp privateRun_reaches with
      ⟨c, hRun, hRest⟩
    rcases Option.bind_eq_some_iff.mp hRest with
      ⟨p, hp, hRest⟩
    rcases Option.bind_eq_some_iff.mp hRest with
      ⟨msg, hMsg, hRest⟩
    rcases Option.map_eq_some_iff.mp hRest with
      ⟨forged, hForged, hReaches⟩
    rw [Prod.mk.injEq] at hReaches
    rcases decrypted_after_verified hRun hp c.cache c.now
        (sealedUpTime agentSsl) agentEndpoint msg with
      ⟨hVerified, _, _, _, hCalls, hOrder⟩
    exact ⟨c, p, msg, forged, hRun, hp, hMsg, hForged,
      hVerified hReaches.1, hOrder (hCalls.mpr hReaches.1),
      (decrypted_after_verified hRun hp c.cache c.now
        (sealedUpTime forgerSsl) agentEndpoint
        forged).2.1 hReaches.2⟩

end Snmpio

------------------------------------------------------------
-- Genuine Replies
------------------------------------------------------------

namespace Snmpio

variable {ssl : OpenSsl} {c : Client} {t : Nat}
variable {task : Task} {x : Exchange} {p : Pending}
variable {pdu : Pdu} {datagram : Octets}

/- The level at which a v3 coroutine asks. -/
def Work.level :
    Work → SecurityLevel
| v2c _ => .noAuthNoPriv
| v3 creds _ => creds.level
| identify _ _ => .noAuthNoPriv
| sync creds _ _ => creds.level

def Work.isV2c :
    Work → Bool
| v2c _ => true
| _ => false

/-
  The datagram that an honest Agent builds around a Response
  to an exchange.  What it encrypts is of a size that the
  cipher takes: of a larger one OpenSSL may make anything,
  even a datagram that fits.
-/
inductive Genuine
    (ssl : OpenSsl)
    (c : Client)
    (task : Task)
    (x : Exchange)
    (p : Pending)
    (pdu : Pdu)
    (datagram : Octets) : Prop where
  | v2c
      (hWork : task.work.isV2c = true)
      (hBuilt :
        encodeV2cMessage p.community pdu = (datagram, none))
  | v3
      {header : V3Header}
      {usm : UsmParameters}
      {scopedPdu : ScopedPdu}
      {salt : UInt64}
      (hWork : task.work.isV2c = false)
      (hMsgId : header.msgId = x.key)
      (hLevel : header.level = task.work.level)
      (hModel : header.securityModel = securityModelUsm)
      (hEngineId :
        p.engineId = [] ∨ usm.engineId = p.engineId)
      (hTimely :
        p.authRequired = true →
          c.cache.timely c.now task.target.endpoint usm =
            true)
      (hPdu : scopedPdu.pdu = pdu)
      (hCipher :
        header.level.isEncrypted →
          (paddedPlaintext p.privProtocol
            (encodeScopedPdu {} scopedPdu).buf).length <
              2 ^ 31)
      (hBuilt :
        (encodeV3Message ssl header usm scopedPdu
          p.authProtocol p.authKey p.privProtocol p.privKey
          salt).1 = .ok datagram)

/- What the match rules compare with, as the source has it. -/
structure Awaits
    (task : Task)
    (x : Exchange)
    (p : Pending) : Prop where
  sender : p.sender = task.target.endpoint
  requestId : p.requestId = x.key
  v3 : p.v3 = !task.work.isV2c
  required :
    p.authRequired = true →
      task.work.level.isAuthenticated = true
  plain : p.Plain

theorem awaits_of_run
    {id : Int32}
    {now : Int}
    {events : List Event}
    (hRun :
      Machine.run (step ssl) (fresh id now) events = some c)
    (hTask : c.tasks[t]? = some task)
    (hExchange : task.point.exchange? = some x)
    (hp : c.pendings[x.pending]? = some p) :
    Awaits task x p := by
  have hSound := (sound_of_run hRun).tasks t task hTask
  rcases hSound.exchange x hExchange with
    ⟨q, hq, hKey, hSender, hAsks⟩
  rw [hp] at hq
  cases hq
  refine ⟨hSender, hKey, ?_, ?_, plain_of_run hRun hp⟩
  · cases hWork : task.work with
    | v2c community =>
        rw [hWork] at hAsks
        exact hAsks.1
    | v3 creds attempt =>
        rw [hWork] at hAsks
        exact hAsks.1.v3
    | identify creds d =>
        rw [hWork] at hAsks
        exact hAsks.1
    | sync creds d engineId =>
        rw [hWork] at hAsks
        exact hAsks.1.v3
  · intro hRequired
    cases hWork : task.work with
    | v2c community =>
        rw [hWork] at hAsks
        have hPlain := plain_of_run hRun hp hAsks.1
        rw [hPlain.1] at hRequired
        cases hRequired
    | v3 creds attempt =>
        rw [hWork] at hAsks
        exact hAsks.2.symm.trans hRequired
    | identify creds d =>
        rw [hWork] at hAsks
        have hNot := hAsks.2
        change p.authRequired = false at hNot
        rw [hNot] at hRequired
        cases hRequired
    | sync creds d engineId =>
        rw [hWork] at hAsks
        exact hAsks.2

/- Only the pair of the reply is asked whether it is timely. -/
theorem EngineCache.timely_congr
    (cache : EngineCache)
    (now : Int)
    (sender : Endpoint)
    {security security' : UsmParameters}
    (hBoots : security.boots = security'.boots)
    (hTime : security.time = security'.time) :
    cache.timely now sender security =
      cache.timely now sender security' := by
  unfold timely
  rw [hBoots, hTime]

/- The reply that is written into the exchange. -/
def Pending.answer
    (p : Pending)
    (security : UsmParameters)
    (pdu : Pdu) : Pending :=
  { p with
    security := security
    response := pdu
    replyAuthenticated := p.authRequired
    answered := true }

/- A sealed Response passes every check in `deliverV3`. -/
theorem judgeV3_genuine
    {header : V3Header}
    {usm : UsmParameters}
    {scopedPdu : ScopedPdu}
    {m : V3Message}
    {sender : Endpoint}
    (hOpens :
      Opens ssl header usm scopedPdu p.authProtocol p.authKey
        p.privProtocol p.privKey datagram m)
    (hV3 : p.v3 = true)
    (hSender : sender = p.sender)
    (hLevel :
      p.authRequired = true →
        header.level.isAuthenticated = true)
    (hEngineId :
      p.engineId = [] ∨ usm.engineId = p.engineId)
    (hId : scopedPdu.pdu.requestId = p.requestId)
    (hType : scopedPdu.pdu.type = .response)
    (hTimely :
      p.authRequired = true →
        c.cache.timely c.now sender usm = true) :
    judgeV3 ssl c.cache c.now p datagram sender m =
      .accept (p.answer m.security scopedPdu.pdu) := by
  have hExempt : exemptFromAuth m = false := by
    cases hEncrypted : header.level.isEncrypted with
    | true => simp [exemptFromAuth, hOpens.header_eq, hEncrypted]
    | false =>
        simp [exemptFromAuth, hOpens.plain hEncrypted, hType]
  have hVerified :
      ¬ (p.authRequired = true ∧
        verifyAuth ssl datagram m p.authProtocol p.authKey ≠
          .ok ()) := by
    rintro ⟨hRequired, hFails⟩
    exact hFails (hOpens.verified (hLevel hRequired)).2
  have hOpened :
      ∃ m', openScopedPdu ssl p m = .ok m' ∧
        m'.scopedPdu = scopedPdu := by
    rw [openScopedPdu, hOpens.header_eq]
    cases hEncrypted : header.level.isEncrypted with
    | true => exact hOpens.decrypted hEncrypted
    | false => exact ⟨m, rfl, hOpens.plain hEncrypted⟩
  rcases hOpened with ⟨m', hOpen, hScoped⟩
  have hSecurity := openScopedPdu_security hOpen
  have hNow :
      p.authRequired = true →
        c.cache.timely c.now sender m'.security = true := by
    intro hRequired
    rw [hSecurity, c.cache.timely_congr c.now sender
      hOpens.boots hOpens.time]
    exact hTimely hRequired
  have hEngine :
      p.engineId ≠ [] → m'.security.engineId = p.engineId := by
    intro hNonempty
    rw [hSecurity, hOpens.engineId]
    exact hEngineId.resolve_left hNonempty
  have hNotReport : ¬ scopedPdu.pdu.type = .report := by
    rw [hType]
    decide
  rw [judgeV3, if_neg (by rw [hV3]; decide),
    if_neg (by rw [hSender]; exact not_not_intro rfl)]
  dsimp only
  rw [hExempt, Bool.not_false, Bool.and_true, if_neg hVerified,
    hOpen]
  dsimp only
  rw [judgeOpened, hScoped, if_neg, if_neg, if_neg, if_neg, if_neg,
    hSecurity]
  · rfl
  · rintro ⟨_, hRequired, hNot⟩
    exact hNot (hNow hRequired)
  · rintro ⟨_, hNot⟩
    exact hNot hType
  · rintro ⟨_, hNot⟩
    exact hNot hId
  · rintro ⟨_, hNonempty, hNot⟩
    exact hNot (hEngine hNonempty)
  · rintro ⟨_, _, hReports⟩
    simp [reportsNotInTimeWindows, hNotReport] at hReports

/- An exchange of a coroutine that is held in `m_pending`. -/
structure OutstandingAt
    (c : Client)
    (t : Nat)
    (task : Task)
    (x : Exchange)
    (p : Pending) : Prop where
  found : c.tasks[t]? = some task
  exchange : task.point.exchange? = some x
  registered : c.pending.lookup x.key = some x.pending
  pending : c.pendings[x.pending]? = some p

/- The datagram is delivered, and answers the exchange. -/
structure Taken
    (ssl : OpenSsl)
    (c : Client)
    (t : Nat)
    (task : Task)
    (x : Exchange)
    (p : Pending)
    (pdu : Pdu)
    (datagram : Octets) : Prop where
  version :
    messageVersion datagram =
      some (if task.work.isV2c then versionV2c else versionV3)
  answered :
    ∃ p',
      (c.receive ssl datagram
          task.target.endpoint).pendings[x.pending]? =
        some p' ∧
      p'.asked = p.asked ∧ p'.answered = true ∧
      p'.response = pdu ∧
      p'.replyAuthenticated = p.authRequired
  woken :
    ∀ deadline soft woken,
      task.point = .waiting x deadline soft woken →
        (c.receive ssl datagram
            task.target.endpoint).tasks[t]? =
          some (task.goto (.waiting x deadline soft true))

theorem OutstandingAt.findPending
    {key : Int32}
    (hOutstanding : OutstandingAt c t task x p)
    (hKey : key = x.key) :
    c.findPending key = some (x.pending, p) := by
  subst hKey
  simp [Client.findPending, hOutstanding.registered,
    hOutstanding.pending]

theorem OutstandingAt.taken
    {p' : Pending}
    (hOutstanding : OutstandingAt c t task x p)
    (hVersion :
      messageVersion datagram =
        some (if task.work.isV2c then versionV2c
          else versionV3))
    (hRoute :
      c.route ssl datagram task.target.endpoint =
        some (x.pending, p, .accept p'))
    (hAsked : p'.asked = p.asked)
    (hResponse : p'.response = pdu)
    (hAuthenticated :
      p'.replyAuthenticated = p.authRequired) :
    Taken ssl c t task x p pdu datagram := by
  have hBound :=
    (List.getElem?_eq_some_iff.mp hOutstanding.pending).1
  have hReceive :
      c.receive ssl datagram task.target.endpoint =
        { c with
          pendings := c.pendings.set x.pending p'
          }.cancelTimers [.pending x.pending] := by
    rw [receive_eq_route, hRoute]
    rfl
  refine ⟨hVersion, ⟨p', ?_, hAsked, route_accepted hRoute,
    hResponse, hAuthenticated⟩, ?_⟩
  · rw [hReceive]
    exact List.getElem?_set_self hBound
  · intro deadline soft woken hPoint
    have hWakes :
        task.wakeOn [.pending x.pending] =
          task.goto (.waiting x deadline soft true) := by
      simp [Task.wakeOn, hPoint, Point.timer?, Point.wake,
        Task.goto]
    rw [hReceive, ← hWakes]
    simp [Client.cancelTimers, hOutstanding.found]

theorem OutstandingAt.taken_v2c
    {community : Octets}
    (hOutstanding : OutstandingAt c t task x p)
    (hAwaits : Awaits task x p)
    (hWork : task.work.isV2c = true)
    (hType : pdu.type = .response)
    (hId : pdu.requestId = p.requestId)
    (hGood : pdu.isEncodable = true)
    (hCommunity : community = p.community)
    (hBuilt :
      encodeV2cMessage community pdu = (datagram, none))
    (hLength : datagram.length < 2 ^ 32) :
    Taken ssl c t task x p pdu datagram := by
  rw [encodeV2cMessage_eq, if_pos hGood, Prod.mk.injEq]
    at hBuilt
  rcases hBuilt with ⟨rfl, _⟩
  have hForm := v2cBytes_form hGood hLength
  have hVersion := hForm.messageVersion_eq
  have hV2c : p.v3 = false := by
    rw [hAwaits.v3, hWork]
    rfl
  have hJudge :
      judgeV2c p task.target.endpoint ⟨community, pdu⟩ =
        .accept { p with response := pdu, answered := true } := by
    simp [judgeV2c, hV2c, hAwaits.sender, hCommunity]
  have hFound :=
    hOutstanding.findPending (hId.trans hAwaits.requestId)
  have hRoute :
      c.route ssl (v2cBytes ⟨community, pdu⟩)
          task.target.endpoint =
        some (x.pending, p, .accept
          { p with response := pdu, answered := true }) := by
    rw [Client.route, hVersion, Option.bind_eq_bind,
      Option.bind_some, if_pos rfl, hForm.decode_eq]
    simp [hType, hFound, hJudge]
  refine hOutstanding.taken ?_ hRoute rfl rfl ?_
  · rw [hVersion, hWork]
    rfl
  · rcases hAwaits.plain hV2c with ⟨hRequired, hReply⟩
    exact hReply.trans hRequired.symm

theorem OutstandingAt.taken_v3
    {header : V3Header}
    {usm : UsmParameters}
    {scopedPdu : ScopedPdu}
    {m : V3Message}
    (hOutstanding : OutstandingAt c t task x p)
    (hAwaits : Awaits task x p)
    (hWork : task.work.isV2c = false)
    (hOpens :
      Opens ssl header usm scopedPdu p.authProtocol p.authKey
        p.privProtocol p.privKey datagram m)
    (hMsgId : header.msgId = x.key)
    (hLevel : header.level = task.work.level)
    (hEngineId :
      p.engineId = [] ∨ usm.engineId = p.engineId)
    (hTimely :
      p.authRequired = true →
        c.cache.timely c.now task.target.endpoint usm = true)
    (hId : scopedPdu.pdu.requestId = p.requestId)
    (hType : scopedPdu.pdu.type = .response) :
    Taken ssl c t task x p scopedPdu.pdu datagram := by
  have hV3 : p.v3 = true := by
    rw [hAwaits.v3, hWork]
    rfl
  have hVersion := hOpens.form.messageVersion_eq
  have hJudge :=
    judgeV3_genuine (c := c) hOpens hV3 hAwaits.sender.symm
      (fun hRequired => hLevel ▸ hAwaits.required hRequired)
      hEngineId hId hType hTimely
  have hFound :=
    hOutstanding.findPending
      ((congrArg V3Header.msgId hOpens.header_eq).trans hMsgId)
  have hRoute :
      c.route ssl datagram task.target.endpoint =
        some (x.pending, p,
          .accept (p.answer m.security scopedPdu.pdu)) := by
    rw [Client.route, hVersion, Option.bind_eq_bind,
      Option.bind_some, if_neg (by decide), if_pos rfl,
      hOpens.form.decode_eq]
    simp [hFound, hJudge]
  refine hOutstanding.taken ?_ hRoute rfl rfl rfl
  rw [hVersion, hWork]
  rfl

/-
  An exchange that is outstanding takes the Response that an
  honest Agent built for it, exactly as it was built.
-/
theorem genuine_reply_taken
    (hSsl : ssl.Documented)
    {id : Int32}
    {now : Int}
    {events : List Event}
    (hRun :
      Machine.run (step ssl) (fresh id now) events = some c)
    (hOutstanding : OutstandingAt c t task x p)
    (hType : pdu.type = .response)
    (hId : pdu.requestId = p.requestId)
    (hGood :
      ∀ vb ∈ pdu.varbinds,
        vb.name.isEncodable = true ∧
          ∀ o, vb.val = .oid o → o.isEncodable = true)
    (hGenuine : Genuine ssl c task x p pdu datagram)
    (hLength : datagram.length ≤ 65535) :
    Taken ssl c t task x p pdu datagram := by
  have hAwaits := awaits_of_run hRun hOutstanding.found
    hOutstanding.exchange hOutstanding.pending
  have hEncodable := Pdu.isEncodable_of_forall hGood
  have hShort : datagram.length < 2 ^ 32 := by omega
  cases hGenuine with
  | v2c hWork hBuilt =>
      exact hOutstanding.taken_v2c hAwaits hWork hType hId
        hEncodable rfl hBuilt hShort
  | @v3 header usm scopedPdu salt hWork hMsgId hLevel hModel
      hEngineId hTimely hPdu hCipher hBuilt =>
      subst hPdu
      rcases encodeV3Message_needs hBuilt with ⟨hAuth, hPriv⟩
      rcases encodeV3Message_seals hSsl hModel hEncodable hAuth
        hPriv hCipher usm p.authKey salt with
        ⟨d, hSealed, _, hOpens⟩
      rw [hBuilt] at hSealed
      cases hSealed
      rcases hOpens hShort with ⟨m, hOpens⟩
      exact hOutstanding.taken_v3 hAwaits hWork hOpens hMsgId
        hLevel hEngineId hTimely hId hType

/- Where the Agent's key is not at stake, zeros will do. -/
def agentDocumentedSsl : OpenSsl :=
  { OpenSsl.copying with
    digest := fun p parts =>
      if p = .md5 then agentSsl.digest p parts
      else OpenSsl.copying.digest p parts
    hmac := fun p key keyLen message =>
      if p = .md5 then agentSsl.hmac p key keyLen message
      else OpenSsl.copying.hmac p key keyLen message }

theorem agentMacs_width
    (message : Octets) :
    ((agentMacs.lookup message).getD
      (List.replicate 16 0)).length = 16 := by
  cases hMac : agentMacs.lookup message with
  | none => rfl
  | some mac =>
      have hAll :
          ∀ entry ∈ agentMacs, entry.2.length = 16 := by
        simp [agentMacs]
      rcases List.lookup_eq_some_iff.mp hMac with
        ⟨before, after, hSplit, _⟩
      exact hAll (message, mac) (by simp [hSplit])

theorem agentDocumentedSsl_documented :
    agentDocumentedSsl.Documented where
  digest_width := by
    intro p hp parts
    by_cases hMd5 : p = .md5
    · subst hMd5
      change ∃ digest, agentSsl.digest .md5 parts =
        some digest ∧ digest.length = 16
      unfold agentSsl
      dsimp only
      split
      · exact ⟨agentKey, rfl, rfl⟩
      · exact ⟨agentMasterKey, rfl, rfl⟩
    · rcases OpenSsl.copying_documented.digest_width p hp parts
        with ⟨digest, hDigest, hWidth⟩
      exact ⟨digest, (if_neg hMd5).trans hDigest, hWidth⟩
  hmac_width := by
    intro p hp key keyLen message
    by_cases hMd5 : p = .md5
    · subst hMd5
      change ∃ digest, agentSsl.hmac .md5 key keyLen message =
        some digest ∧ digest.length = 16
      exact ⟨_, rfl, agentMacs_width message⟩
    · rcases OpenSsl.copying_documented.hmac_width p hp key
        keyLen message with ⟨digest, hDigest, hWidth⟩
      exact ⟨digest, (if_neg hMd5).trans hDigest, hWidth⟩
  legacy_loaded := rfl
  fetched := fun _ => rfl
  initialised := fun _ _ _ _ _ _ => rfl
  update_inverse := OpenSsl.copying_documented.update_inverse
  final_empty := fun _ _ _ _ _ _ _ _ => rfl

def upTimeScopedPdu : ScopedPdu :=
  { contextEngineId := agentEngineId
    pdu := upTimeResponse 3 }

def upTimeReply : Except Errc Octets :=
  (encodeV3Message agentDocumentedSsl
    { msgId := 3, level := .authNoPriv } agentUsm
    upTimeScopedPdu .md5 agentKey .none [] 0).1

theorem askedRun_awaits :
    ((Machine.run (step agentDocumentedSsl) (fresh 1 0)
      askedRun).bind (fun c =>
        c.tasks[0]?.bind (fun task =>
          task.point.exchange?.bind (fun x =>
            c.pendings[x.pending]?.bind (fun p =>
              upTimeReply.toOption.map (fun datagram =>
                decide (c.pending.lookup x.key =
                    some x.pending ∧
                  x.key = 3 ∧
                  task.work = .v3 agentUser 0 ∧
                  p.requestId = 3 ∧
                  p.engineId = agentEngineId ∧
                  (p.authProtocol, p.authKey) =
                    (.md5, agentKey) ∧
                  (p.privProtocol, p.privKey) = (.none, []) ∧
                  c.cache.timely c.now task.target.endpoint
                    agentUsm = true ∧
                  datagram.length ≤ 65535))))))) =
      some true := by
  decide +kernel

/- The Response for which the request waits. -/
theorem genuine_reply_taken_upTime :
    ∃ c task x p datagram,
      Machine.run (step agentDocumentedSsl) (fresh 1 0)
          askedRun = some c ∧
        OutstandingAt c 0 task x p ∧
        upTimeReply = .ok datagram ∧
        Taken agentDocumentedSsl c 0 task x p
          (upTimeResponse 3) datagram := by
  rcases Option.bind_eq_some_iff.mp askedRun_awaits with
    ⟨c, hRun, hRest⟩
  rcases Option.bind_eq_some_iff.mp hRest with
    ⟨task, hTask, hRest⟩
  rcases Option.bind_eq_some_iff.mp hRest with
    ⟨x, hExchange, hRest⟩
  rcases Option.bind_eq_some_iff.mp hRest with
    ⟨p, hp, hRest⟩
  rcases Option.map_eq_some_iff.mp hRest with
    ⟨datagram, hReply, hAll⟩
  rw [decide_eq_true_eq] at hAll
  rcases hAll with
    ⟨hRegistered, hKey, hWork, hId, hEngineId, hAuth, hPriv,
      hTimely, hLength⟩
  rw [Prod.mk.injEq] at hAuth hPriv
  have hSealed : upTimeReply = .ok datagram := by
    cases hResult : upTimeReply with
    | error e =>
        rw [hResult] at hReply
        cases hReply
    | ok d =>
        rw [hResult] at hReply
        cases hReply
        rfl
  have hOutstanding : OutstandingAt c 0 task x p :=
    ⟨hTask, hExchange, hRegistered, hp⟩
  have hGenuine :
      Genuine agentDocumentedSsl c task x p
        (upTimeResponse 3) datagram := by
    have hBuilt :
        (encodeV3Message agentDocumentedSsl
          { msgId := 3, level := .authNoPriv } agentUsm
          upTimeScopedPdu p.authProtocol p.authKey
          p.privProtocol p.privKey 0).1 = .ok datagram := by
      rw [hAuth.1, hAuth.2, hPriv.1, hPriv.2]
      exact hSealed
    exact Genuine.v3 (by rw [hWork]; rfl) hKey.symm
      (by rw [hWork]; rfl) rfl (Or.inr hEngineId.symm)
      (fun _ => hTimely) rfl
      (fun hEncrypted => by cases hEncrypted) hBuilt
  have hGood :
      ∀ vb ∈ (upTimeResponse 3).varbinds,
        vb.name.isEncodable = true ∧
          ∀ o, vb.val = .oid o → o.isEncodable = true := by
    intro vb hMem
    cases List.mem_singleton.mp hMem
    exact ⟨by decide, fun o hOid => by cases hOid⟩
  exact ⟨c, task, x, p, datagram, hRun, hOutstanding, hSealed,
    genuine_reply_taken agentDocumentedSsl_documented hRun
      hOutstanding rfl hId.symm hGood hGenuine hLength⟩

end Snmpio
