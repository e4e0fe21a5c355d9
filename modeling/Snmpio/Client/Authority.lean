import Snmpio.Client.Delivery

/-
  An Authoritative Engine that keeps to RFC 3414.

  What it is sent is opened with its own key, and what it
  answers may be any datagram that opens as the message it
  means.  The Client takes all of its answers, and whatever
  the Client builds for it can be read.

  Key definitions include:
    * `Authority`
    * `Authority.Complies`

  Key theorems include:
    * `judgeV3_report`
    * `requestKeys_ok`
    * `request_builds`
-/

------------------------------------------------------------
-- The Engine
------------------------------------------------------------

namespace Snmpio

/-
  The Engine while its clock stands still: its pair, and
  what it answers to each datagram.
-/
structure Authority where
  engineId : Octets
  boots : Int32
  time : Int32
  answer : Octets → Octets

namespace Authority

variable (ssl : OpenSsl) (E : Authority)
variable (creds : Credentials) (key privKey : Octets)

/- RFC 3414, section 3.2, step 7(a), from inside. -/
def Accepts
    (boots time : Int32) : Prop :=
  E.boots ≠ bootsCeiling ∧ boots = E.boots ∧
    time.toInt ≤ E.time.toInt + 150 ∧
    E.time.toInt ≤ time.toInt + 150

/- The reply is a message of the Engine, with its pair. -/
inductive Says
    (level : SecurityLevel)
    (msgId : Int32)
    (pdu : Pdu)
    (reply : Octets) : Prop where
  | intro
      {header : V3Header}
      {usm : UsmParameters}
      {scopedPdu : ScopedPdu}
      {m : V3Message}
      (hOpens :
        Opens ssl header usm scopedPdu creds.authProtocol key
          creds.privProtocol privKey reply m)
      (hMsgId : header.msgId = msgId)
      (hLevel : header.level = level)
      (hEngineId : usm.engineId = E.engineId)
      (hBoots : usm.boots = E.boots)
      (hTime : usm.time = E.time)
      (hPdu : scopedPdu.pdu = pdu)

def Reports
    (level : SecurityLevel)
    (msgId : Int32)
    (counter : UInt32)
    (reply : Octets) : Prop :=
  ∃ report : Pdu, report.type = .report ∧
    usmStatsCounter report = some counter ∧
    E.Says ssl creds key privKey level msgId report reply

/-
  How it answers: to a message for another Engine, or for
  none, that it is not that Engine; to an authentic message
  with a pair outside its window with its own pair; and
  otherwise with a Response.
-/
structure Complies : Prop where
  below : E.boots ≠ bootsCeiling
  named : E.engineId ≠ []
  short : E.engineId.length ≤ 32
  foreign :
    ∀ asked msg,
      (decodeV3Message asked).1 = some msg →
        msg.security.engineId ≠ E.engineId →
          E.Reports ssl creds key privKey .noAuthNoPriv
            msg.header.msgId usmStatsUnknownEngineIds
            (E.answer asked)
  untimely :
    ∀ asked header usm scopedPdu m,
      Opens ssl header usm scopedPdu creds.authProtocol key
          creds.privProtocol privKey asked m →
        header.level.isAuthenticated = true →
        usm.engineId = E.engineId →
        ¬ E.Accepts usm.boots usm.time →
          E.Reports ssl creds key privKey .authNoPriv
            header.msgId usmStatsNotInTimeWindows
            (E.answer asked)
  timely :
    ∀ asked header usm scopedPdu m,
      Opens ssl header usm scopedPdu creds.authProtocol key
          creds.privProtocol privKey asked m →
        header.level.isAuthenticated = true →
        usm.engineId = E.engineId →
        E.Accepts usm.boots usm.time →
          ∃ response : Pdu, response.type = .response ∧
            response.requestId = scopedPdu.pdu.requestId ∧
            E.Says ssl creds key privKey header.level
              header.msgId response (E.answer asked)

end Authority

end Snmpio

------------------------------------------------------------
-- Its Answers
------------------------------------------------------------

namespace Snmpio

variable {ssl : OpenSsl} {E : Authority}
variable {creds : Credentials} {key privKey reply : Octets}
variable {cache : EngineCache} {now : Int} {p p' : Pending}
variable {sender : Endpoint} {c : Client} {ref : Nat}

/-
  What an answer of the Engine leaves in the exchange:
  `signed` is whether its digest has been verified.
-/
structure Authority.Heard
    (E : Authority)
    (p p' : Pending)
    (pdu : Pdu)
    (signed : Bool) : Prop where
  asked : p'.asked = p.asked
  answered : p'.answered = true
  response : p'.response = pdu
  authenticated : p'.replyAuthenticated = signed
  engineId : p'.security.engineId = E.engineId
  boots : p'.security.boots = E.boots
  time : p'.security.time = E.time

/- A Report passes, signed or not. -/
theorem judgeV3_report
    {header : V3Header}
    {usm : UsmParameters}
    {scopedPdu : ScopedPdu}
    {auth : AuthProtocol}
    {priv : PrivProtocol}
    {m : V3Message}
    (hOpens :
      Opens ssl header usm scopedPdu auth key priv privKey
        reply m)
    (hV3 : p.v3 = true)
    (hSender : sender = p.sender)
    (hReport : scopedPdu.pdu.type = .report)
    (hOpen : header.level.isEncrypted = false)
    (hKeys :
      header.level.isAuthenticated = true →
        p.authRequired = true ∧ auth = p.authProtocol ∧
          key = p.authKey)
    (hSync :
      header.level.isAuthenticated = true ∨
        usmStatsCounter scopedPdu.pdu ≠
          some usmStatsNotInTimeWindows) :
    judgeV3 ssl cache now p reply sender m =
      .accept { p with
        security := m.security
        response := scopedPdu.pdu
        replyAuthenticated := header.level.isAuthenticated
        answered := true } := by
  have hScoped := hOpens.plain hOpen
  have hAuthenticated :
      (p.authRequired && !exemptFromAuth m) =
        header.level.isAuthenticated := by
    cases hLevel : header.level.isAuthenticated with
    | true =>
        simp [exemptFromAuth, hOpens.header_eq, hLevel,
          (hKeys hLevel).1]
    | false =>
        simp [exemptFromAuth, hOpens.header_eq, hLevel, hOpen,
          hScoped, hReport]
  have hVerified :
      ¬ (header.level.isAuthenticated = true ∧
        verifyAuth ssl reply m p.authProtocol p.authKey ≠
          .ok ()) := by
    rintro ⟨hLevel, hFails⟩
    rcases hKeys hLevel with ⟨_, rfl, rfl⟩
    exact hFails (hOpens.verified hLevel).2
  rw [judgeV3, if_neg (by rw [hV3]; decide),
    if_neg (by rw [hSender]; exact not_not_intro rfl)]
  dsimp only
  rw [hAuthenticated, if_neg hVerified, openScopedPdu,
    hOpens.header_eq, if_neg (by rw [hOpen]; decide)]
  dsimp only
  rw [judgeOpened, hScoped, if_neg, if_neg, if_neg, if_neg,
    if_neg]
  · rintro ⟨hNot, _⟩
    exact hNot hReport
  · rintro ⟨hNot, _⟩
    exact hNot hReport
  · rintro ⟨hNot, _⟩
    exact hNot hReport
  · rintro ⟨hNot, _⟩
    exact hNot hReport
  · rintro ⟨_, hNot, hReports⟩
    rcases hSync with hLevel | hOther
    · exact hNot hLevel
    · simp only [reportsNotInTimeWindows, decide_eq_true_eq]
        at hReports
      exact hOther hReports.2

/- The route of an answer that names an exchange. -/
theorem route_of_opens
    {header : V3Header}
    {usm : UsmParameters}
    {scopedPdu : ScopedPdu}
    {auth : AuthProtocol}
    {priv : PrivProtocol}
    {m : V3Message}
    (hOpens :
      Opens ssl header usm scopedPdu auth key priv privKey
        reply m)
    (hFound : c.findPending header.msgId = some (ref, p))
    (sender : Endpoint) :
    c.route ssl reply sender =
      some (ref, p,
        judgeV3 ssl c.cache c.now p reply sender m) := by
  rw [← hOpens.header_eq] at hFound
  rw [Client.route, hOpens.form.messageVersion_eq,
    Option.bind_eq_bind, Option.bind_some,
    if_neg (by decide), if_pos rfl, hOpens.form.decode_eq]
  simp [hFound]

theorem Authority.Says.heard_report
    {level : SecurityLevel}
    {msgId : Int32}
    {counter : UInt32}
    (hReports :
      E.Reports ssl creds key privKey level msgId counter
        reply)
    (hFound : c.findPending msgId = some (ref, p))
    (hV3 : p.v3 = true)
    (hOpen : level.isEncrypted = false)
    (hKeys :
      level.isAuthenticated = true →
        p.authRequired = true ∧
          creds.authProtocol = p.authProtocol ∧
          key = p.authKey)
    (hSync :
      level.isAuthenticated = true ∨
        counter ≠ usmStatsNotInTimeWindows) :
    ∃ p' report, report.type = .report ∧
      usmStatsCounter report = some counter ∧
      c.route ssl reply p.sender =
        some (ref, p, .accept p') ∧
      E.Heard p p' report level.isAuthenticated := by
  rcases hReports with ⟨report, hType, hCounter, hSays⟩
  rcases hSays with
    ⟨hOpens, rfl, rfl, hEngineId, hBoots, hTime, rfl⟩
  have hRoute := route_of_opens hOpens hFound p.sender
  rw [judgeV3_report hOpens hV3 rfl hType hOpen hKeys]
    at hRoute
  · exact ⟨_, _, hType, hCounter, hRoute, rfl, rfl, rfl, rfl,
      hOpens.engineId.trans hEngineId,
      hOpens.boots.trans hBoots, hOpens.time.trans hTime⟩
  · refine hSync.imp_right ?_
    intro hOther hSame
    rw [hCounter] at hSame
    exact hOther (Option.some.inj hSame)

theorem Authority.Says.heard_response
    {level : SecurityLevel}
    {msgId : Int32}
    {response : Pdu}
    (hSays :
      E.Says ssl creds key privKey level msgId response
        reply)
    (hFound : c.findPending msgId = some (ref, p))
    (hV3 : p.v3 = true)
    (hLevel : level.isAuthenticated = true)
    (hRequired : p.authRequired = true)
    (hAuth : p.authProtocol = creds.authProtocol)
    (hKey : p.authKey = key)
    (hPriv : p.privProtocol = creds.privProtocol)
    (hPrivKey : p.privKey = privKey)
    (hEngine : p.engineId = E.engineId)
    (hType : response.type = .response)
    (hId : response.requestId = p.requestId)
    (hTimely :
      ∀ usm : UsmParameters, usm.boots = E.boots →
        usm.time = E.time →
          c.cache.timely c.now p.sender usm = true) :
    ∃ p',
      c.route ssl reply p.sender =
        some (ref, p, .accept p') ∧
      E.Heard p p' response true := by
  rcases hSays with
    ⟨hOpens, rfl, rfl, hEngineId, hBoots, hTime, rfl⟩
  rw [← hAuth, ← hKey, ← hPriv, ← hPrivKey] at hOpens
  have hRoute := route_of_opens hOpens hFound p.sender
  rw [judgeV3_genuine (c := c) hOpens hV3 rfl
    (fun _ => hLevel) (Or.inr (hEngineId.trans hEngine.symm))
    hId hType (fun _ => hTimely _ hBoots hTime)] at hRoute
  exact ⟨_, hRoute, rfl, rfl, rfl, hRequired,
    hOpens.engineId.trans hEngineId,
    hOpens.boots.trans hBoots, hOpens.time.trans hTime⟩

end Snmpio

------------------------------------------------------------
-- Messages to It
------------------------------------------------------------

namespace Snmpio

open Ber Writer

variable {ssl : OpenSsl} {creds : Credentials} {pdu : Pdu}

/- The passwords that the Credentials' level needs. -/
structure Credentials.Valid
    (creds : Credentials) : Prop where
  usable : creds.Usable
  authPassword :
    creds.level.isAuthenticated = true →
      creds.authPassword ≠ []
  privPassword :
    creds.level.isEncrypted = true → creds.privPassword ≠ []

theorem SecurityLevel.authenticated_of_encrypted
    {level : SecurityLevel}
    (hEncrypted : level.isEncrypted = true) :
    level.isAuthenticated = true := by
  cases level with
  | authPriv => rfl
  | _ => cases hEncrypted

/- Valid Credentials have keys for every engineID. -/
theorem requestKeys_ok
    (hSsl : ssl.Documented)
    (hValid : creds.Valid)
    {keys : KeyCache}
    (hSound : keys.Sound ssl)
    (engineId : Octets) :
    ∃ key privKey,
      (requestKeys ssl keys creds engineId).1 =
          .ok (key, privKey) ∧
        KeyCache.Sound ssl
          (requestKeys ssl keys creds engineId).2 ∧
        requestAuthKey ssl creds engineId = .ok key ∧
        requestPrivKey ssl creds engineId = .ok privKey ∧
        (creds.level.isEncrypted = true →
          privKeySize creds.privProtocol ≤ privKey.length) := by
  rcases requestKeys_eq hSound hValid.usable engineId with
    ⟨hSound', hKeys⟩
  obtain ⟨key, hKey⟩ :
      ∃ key, requestAuthKey ssl creds engineId = .ok key := by
    unfold requestAuthKey
    split
    · next hLevel =>
      exact localizedAuthKey_ok hSsl.digest_width
        (hValid.usable.1 hLevel)
        (hValid.authPassword hLevel) engineId
    · exact ⟨[], rfl⟩
  obtain ⟨privKey, hPrivKey, hLong⟩ :
      ∃ privKey,
        requestPrivKey ssl creds engineId = .ok privKey ∧
          (creds.level.isEncrypted = true →
            privKeySize creds.privProtocol ≤
              privKey.length) := by
    unfold requestPrivKey
    split
    · next hLevel =>
      have hSigned :=
        SecurityLevel.authenticated_of_encrypted hLevel
      rcases localizedPrivKey_ok hSsl.digest_width
        (hValid.usable.1 hSigned) (hValid.usable.2 hLevel)
        (hValid.privPassword hLevel) engineId with
        ⟨privKey, hOk, hLong⟩
      exact ⟨privKey, hOk, fun _ => hLong⟩
    · next hLevel =>
      exact ⟨[], rfl, fun hTrue => absurd hTrue hLevel⟩
  rw [hKey, hPrivKey] at hKeys
  exact ⟨key, privKey, hKeys, hSound', hKey, hPrivKey, hLong⟩

/- A Varbind list no longer than a datagram. -/
def Pdu.Fits
    (pdu : Pdu) : Prop :=
  (({} : Writer).varbindList pdu.varbinds).buf.length ≤ 65535

instance
    (pdu : Pdu) :
    Decidable pdu.Fits :=
  inferInstanceAs (Decidable (_ ≤ _))

theorem pduBytes_length_le
    (hGood : pdu.isEncodable = true)
    (hFits : pdu.Fits) :
    (pduBytes pdu).length ≤ 65600 := by
  have hList :
      (varbindListBytes pdu.varbinds).length ≤ 65535 := by
    rw [Pdu.Fits, (varbindList_emits pdu.varbinds).writes
      hGood {} rfl] at hFits
    simpa [Writer.append] using hFits
  have hId := integerElement_length_le pdu.requestId
  have hStatus := integerElement_length_le pdu.errorStatus
  have hIndex := integerElement_length_le pdu.errorIndex
  have hContent : (pduContentBytes pdu).length ≤ 65553 := by
    simp only [pduContentBytes, List.length_append]
    omega
  have hAll :
      (pduBytes pdu).length ≤
        (pduContentBytes pdu).length + 6 :=
    elementBytes_length_le _ (by omega)
  omega

theorem roomy_of_fits
    {usm : UsmParameters}
    {engineId : Octets}
    (hEngineId : usm.engineId.length ≤ 65535)
    (hUserName : usm.userName.length ≤ 65535)
    (hParams : usm.privParams = [])
    (hContext : engineId.length ≤ 65535)
    (hGood : pdu.isEncodable = true)
    (hFits : pdu.Fits) :
    Roomy usm { contextEngineId := engineId, pdu := pdu } := by
  have hPdu := pduBytes_length_le hGood hFits
  have hEngine :
      (elementBytes Tag.octetString engineId).length ≤
        engineId.length + 6 :=
    elementBytes_length_le _ (by omega)
  have hName :
      (elementBytes Tag.octetString ([] : Octets)).length ≤
        6 :=
    elementBytes_length_le _ (by simp)
  have hScoped :
      (scopedPduBytes
        { contextEngineId := engineId, pdu := pdu }).length ≤
        131220 := by
    refine (elementBytes_length_le Tag.sequence ?_).trans ?_
    · simp only [List.length_append]
      omega
    · simp only [List.length_append]
      omega
  refine ⟨by omega, by omega, by rw [hParams]; decide, ?_⟩
  rw [encodeScopedPdu_buf hGood]
  omega

/- A request can be sent to any engineID. -/
theorem request_builds
    (hSsl : ssl.Documented)
    (hUsable : creds.Usable)
    {engineId privKey : Octets}
    (hPrivKey :
      creds.level.isEncrypted = true →
        privKeySize creds.privProtocol ≤ privKey.length)
    (hEngineId : engineId.length ≤ 65535)
    (hUserName : creds.userName.length ≤ 65535)
    (hGood : pdu.isEncodable = true)
    (hFits : pdu.Fits)
    (id boots time : Int32)
    (key : Octets)
    (salt : UInt64) :
    let header : V3Header :=
      { msgId := id, level := creds.level }
    let usm : UsmParameters :=
      { engineId := engineId
        boots := boots
        time := time
        userName := creds.userName }
    let scopedPdu : ScopedPdu :=
      { contextEngineId := engineId
        pdu := { pdu with requestId := id } }
    ∃ d m,
      (encodeV3Message ssl header usm scopedPdu
          creds.authProtocol key creds.privProtocol privKey
          salt).1 = .ok d ∧
        Opens ssl header usm scopedPdu creds.authProtocol key
          creds.privProtocol privKey d m := by
  intro header usm scopedPdu
  have hSame :
      scopedPdu.pdu.isEncodable = true ∧
        scopedPdu.pdu.Fits :=
    ⟨hGood, hFits⟩
  have hRoomy : Roomy usm scopedPdu :=
    roomy_of_fits hEngineId hUserName rfl hEngineId hSame.1
      hSame.2
  exact encodeV3Message_builds hSsl rfl hSame.1 hUsable.1
    (fun hLevel => ⟨hUsable.2 hLevel, hPrivKey hLevel⟩)
    hRoomy key salt

/- So can the first message of a discovery. -/
theorem identify_builds
    (hSsl : ssl.Documented)
    (id : Int32)
    (salt : UInt64) :
    ∃ d m,
      (encodeV3Message ssl { msgId := id } {}
          (discoveryScopedPdu id []) .none [] .none []
          salt).1 = .ok d ∧
        Opens ssl { msgId := id } {} (discoveryScopedPdu id [])
          .none [] .none [] d m := by
  have hFits : (discoveryScopedPdu id []).pdu.Fits := by
    change (({} : Writer).varbindList []).buf.length ≤ 65535
    decide
  have hRoomy : Roomy {} (discoveryScopedPdu id []) :=
    roomy_of_fits (Nat.zero_le _) (Nat.zero_le _) rfl
      (Nat.zero_le _) rfl hFits
  refine encodeV3Message_builds hSsl rfl rfl ?_ ?_ hRoomy []
    salt
  · intro hLevel
    cases hLevel
  · intro hLevel
    cases hLevel

end Snmpio
