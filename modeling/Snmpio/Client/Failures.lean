import Snmpio.Client.Blame

/-
  The errors that requests complete with.

  Whatever happens in a run, an error of the library has an
  origin in it.  So the errors of a request are those of the
  places that make them: of its message, of the replies to
  it, or of the operation as such.

  Key definitions include:
    * `Errc.isLocal`
    * `Work.mayFailWith`

  Key theorems include:
    * `errors_arise`
    * `encodeV3Message_local`
    * `completions_classified`
-/

------------------------------------------------------------
-- Errors of Messages
------------------------------------------------------------

namespace Snmpio

/- Every error of a computation is of this kind. -/
def OnlyFails
    {α : Type}
    (kind : Errc → Bool)
    (result : Except Errc α) : Prop :=
  ∀ e, result = .error e → kind e = true

namespace OnlyFails

variable {α β : Type} {kind : Errc → Bool}

theorem ok
    (a : α) :
    OnlyFails kind (.ok a) := by
  intro e hError
  cases hError

theorem error
    {e : Errc}
    (hKind : kind e = true) :
    OnlyFails kind (.error e : Except Errc α) := by
  intro e' hError
  cases hError
  exact hKind

theorem bind
    {first : Except Errc α}
    {next : α → Except Errc β}
    (hFirst : OnlyFails kind first)
    (hNext : ∀ a, OnlyFails kind (next a)) :
    OnlyFails kind (first.bind next) := by
  cases first with
  | error e => exact error (hFirst e rfl)
  | ok a => exact hNext a

theorem map
    {result : Except Errc α}
    (hResult : OnlyFails kind result)
    (f : α → β) :
    OnlyFails kind (result.map f) := by
  cases result with
  | error e => exact error (hResult e rfl)
  | ok a => exact ok (f a)

end OnlyFails

/- What can be wrong with a message before it is sent. -/
def Errc.isLocal :
    Errc → Bool
| oidNotEncodable => true
| unsupportedAuthProtocol => true
| unsupportedPrivProtocol => true
| legacyProviderUnavailable => true
| emptyPassword => true
| cryptoFailure => true
| _ => false

variable (ssl : OpenSsl)

/- Hashing fails through OpenSSL, or for want of it. -/
theorem digestOf_local
    (p : AuthProtocol)
    (parts : List Octets) :
    OnlyFails Errc.isLocal (digestOf ssl p parts) := by
  unfold digestOf
  split
  · exact .error rfl
  · exact .ok _

theorem passwordToKey_local
    (p : AuthProtocol)
    (password : Octets) :
    OnlyFails Errc.isLocal (passwordToKey ssl p password) := by
  unfold passwordToKey
  split
  · exact .error rfl
  · split
    · exact .error rfl
    · exact digestOf_local ssl p _

theorem localizeKey_local
    (p : AuthProtocol)
    (masterKey engineId : Octets) :
    OnlyFails Errc.isLocal
      (localizeKey ssl p masterKey engineId) := by
  unfold localizeKey
  split
  · exact .error rfl
  · exact digestOf_local ssl p _

/- An empty password is the caller's fault too. -/
theorem localizedAuthKey_local
    (creds : Credentials)
    (engineId : Octets) :
    OnlyFails Errc.isLocal
      (localizedAuthKey ssl creds engineId) := by
  refine (passwordToKey_local ssl _ _).bind ?_
  intro master
  exact localizeKey_local ssl _ master engineId

/- Reeder's extension hashes what there is of the key. -/
theorem moreKey_local
    (creds : Credentials)
    (engineId key : Octets) :
    OnlyFails Errc.isLocal (moreKey ssl creds engineId key) := by
  unfold moreKey
  split
  · refine (passwordToKey_local ssl _ _).bind ?_
    intro next
    exact localizeKey_local ssl _ next engineId
  · unfold hashOf
    split
    · exact .error rfl
    · exact digestOf_local ssl _ _

theorem extendKey_local
    (creds : Credentials)
    (engineId : Octets)
    (want : Nat)
    (key : Octets) :
    OnlyFails Errc.isLocal
      (extendKey ssl creds engineId want key) := by
  fun_induction extendKey ssl creds engineId want key with
  | case1 key _ e hMore =>
      exact .error (moreKey_local ssl creds engineId key e hMore)
  | case2 _ _ _ => exact .error rfl
  | case3 _ _ _ _ _ ih => exact ih
  | case4 _ _ => exact .ok _

theorem localizedPrivKey_local
    (creds : Credentials)
    (engineId : Octets) :
    OnlyFails Errc.isLocal
      (localizedPrivKey ssl creds engineId) := by
  unfold localizedPrivKey
  dsimp only
  split
  · exact .error rfl
  · refine (passwordToKey_local ssl _ _).bind ?_
    intro master
    refine (localizeKey_local ssl _ master engineId).bind ?_
    intro key
    refine (extendKey_local ssl creds engineId _ key).bind ?_
    intro long
    exact .ok _

/- What was cached does not fail. -/
theorem requestKeys_local
    (keys : KeyCache)
    (creds : Credentials)
    (engineId : Octets) :
    OnlyFails Errc.isLocal
      (requestKeys ssl keys creds engineId).1 := by
  intro e hError
  rcases requestKeys_error hError with hAuth | hPriv
  · unfold requestAuthKey at hAuth
    split at hAuth
    · exact localizedAuthKey_local ssl creds engineId e hAuth
    · cases hAuth
  · unfold requestPrivKey at hPriv
    split at hPriv
    · exact localizedPrivKey_local ssl creds engineId e hPriv
    · cases hPriv

/- So does the digest of a message. -/
theorem authDigest_local
    (p : AuthProtocol)
    (key message : Octets) :
    OnlyFails Errc.isLocal (authDigest ssl p key message) := by
  unfold authDigest
  split
  · exact .error rfl
  · split
    · exact .error rfl
    · split
      · exact .error rfl
      · exact .ok _

/- The cipher's faults are all one error. -/
theorem crypt_local
    (p : PrivProtocol)
    (privKey iv input : Octets)
    (encrypt : Bool) :
    OnlyFails Errc.isLocal
      (crypt ssl p privKey iv input encrypt) := by
  unfold crypt
  split
  · exact .error rfl
  · split
    · split
      · exact .error rfl
      · exact .error rfl
    · split
      · exact .error rfl
      · dsimp only
        split
        · exact .ok _
        · exact .error rfl

/- The salt counter is written whatever happens. -/
theorem privEncrypt_local
    (p : PrivProtocol)
    (privKey : Octets)
    (boots time : Int32)
    (plaintext : Octets)
    (counter : UInt64) :
    OnlyFails Errc.isLocal
      (privEncrypt ssl p privKey boots time plaintext
        counter).1 := by
  unfold privEncrypt
  split
  · exact .error rfl
  · exact (crypt_local ssl p privKey _ _ true).map _

/- A PDU that cannot be encoded is refused in the end. -/
theorem sealV3Message_local
    (header : V3Header)
    (usm : UsmParameters)
    (scopedPdu : ScopedPdu)
    (auth : AuthProtocol)
    (localizedKey ciphertext privParams : Octets) :
    OnlyFails Errc.isLocal
      (sealV3Message ssl header usm auth localizedKey
        (encodeScopedPdu {} scopedPdu) ciphertext
        privParams) := by
  have hEmits := encodeScopedPdu_emits scopedPdu
  cases hGood : scopedPdu.pdu.isEncodable with
  | true =>
      rw [hGood] at hEmits
      rw [hEmits.fresh, sealV3Message_eq]
      dsimp only
      split
      · exact .ok _
      · exact (authDigest_local ssl auth _ _).map _
  | false =>
      have hRefused := hEmits.refuses hGood {} rfl
      unfold sealV3Message
      simp only [hRefused, List.findSome?_cons, id]
      exact .error rfl

/- Sealing a message fails only for local causes. -/
theorem encodeV3Message_local
    (header : V3Header)
    (usm : UsmParameters)
    (scopedPdu : ScopedPdu)
    (auth : AuthProtocol)
    (localizedKey : Octets)
    (priv : PrivProtocol)
    (privKey : Octets)
    (counter : UInt64) :
    OnlyFails Errc.isLocal
      (encodeV3Message ssl header usm scopedPdu auth
        localizedKey priv privKey counter).1 := by
  unfold encodeV3Message
  dsimp only
  split
  · exact .error rfl
  · split
    · exact .error rfl
    · refine OnlyFails.bind ?_ ?_
      · split
        · exact privEncrypt_local ssl priv privKey _ _ _ counter
        · exact .ok _
      · rintro ⟨ciphertext, privParams⟩
        exact sealV3Message_local ssl header usm scopedPdu auth
          localizedKey ciphertext privParams

end Snmpio

------------------------------------------------------------
-- Origins of Errors
------------------------------------------------------------

namespace Snmpio

variable {ssl : OpenSsl} {id : Int32} {now : Int}
variable {events : List Event} {c : Client} {task : Task}
variable {t : Nat} {e : Errc}

/- Any Credentials may share a discovery. -/
abbrev anyCredentials
    (_ _ : Credentials) : Bool :=
  true

/- The failures of a run, whosever Credentials they are. -/
theorem traced_of_any_run
    (hRun :
      Machine.run (step ssl) (fresh id now) events = some c) :
    Traced anyCredentials ssl id now events c := by
  rw [← Machine.guarded_true (step ssl)] at hRun
  refine traced_of_run (fun _ => rfl) ?_ hRun
  intro c e _
  exact joinsAlike_any c e

/-
  Whatever happens, an error of the library that a request
  completes with has come up in the run.
-/
theorem errors_arise
    {resp : Response}
    (hRun :
      Machine.run (step ssl) (fresh id now) events = some c)
    (hTask : c.tasks[t]? = some task)
    (hPoint : task.point = .completed (some (.errc e)) resp) :
    ArisesIn anyCredentials ssl id now events t task e := by
  refine (traced_of_any_run hRun).tasks t task e hTask ?_
  rw [hPoint]
  rfl

/- The guest's error has come up in the discovery. -/
theorem errors_arise_sample :
    ∃ c,
      Machine.run (step agentSsl) (fresh 1 0) spoiledRun =
          some c ∧
        c.tasks[2]? = some spoiledTask ∧
        ArisesIn anyCredentials agentSsl 1 0 spoiledRun 2
          spoiledTask .emptyPassword := by
  rcases Option.bind_eq_some_iff.mp spoiledRun_task with
    ⟨c, hRun, hTask⟩
  exact ⟨c, hRun, hTask, errors_arise hRun hTask rfl⟩

end Snmpio

------------------------------------------------------------
-- The Errors of Requests
------------------------------------------------------------

namespace Snmpio

variable {ssl : OpenSsl} {id : Int32} {now : Int}
variable {events : List Event} {c c' : Client}
variable {task task' : Task} {t : Nat} {e : Errc}
variable {work : Work} {status : Int32}

/- What a Report, or a reply that was dropped, may mean. -/
def Errc.isOfReplies :
    Errc → Bool
| unsupportedSecurityLevel => true
| notInTimeWindow => true
| unknownUserName => true
| unknownEngineId => true
| authFailed => true
| decryptionFailed => true
| decryptionError => true
| unexpectedReport => true
| _ => false

/- What any operation may come to. -/
def Errc.isOfOperations :
    Errc → Bool
| timeout => true
| clientStopped => true
| oidNotEncodable => true
| _ => false

/- The rest takes Credentials. -/
def Work.mayFailWith
    (work : Work)
    (e : Errc) : Bool :=
  e.isOfOperations ||
    (work.credentials?.isSome && (e.isLocal || e.isOfReplies))

/- Any operation may run out of time, for one. -/
theorem Work.mayFailWith_of_operations
    (work : Work)
    (hAny : e.isOfOperations = true) :
    work.mayFailWith e = true := by
  simp [mayFailWith, hAny]

/- Only USM has keys and digests to fail with. -/
theorem Work.mayFailWith_of_local
    (hCreds : work.credentials?.isSome = true)
    (hLocal : e.isLocal = true) :
    work.mayFailWith e = true := by
  simp [mayFailWith, hCreds, hLocal]

/- Only USM has Reports to fail with. -/
theorem Work.mayFailWith_of_replies
    (hCreds : work.credentials?.isSome = true)
    (hReplies : e.isOfReplies = true) :
    work.mayFailWith e = true := by
  simp [mayFailWith, hCreds, hReplies]

/- An unknown counter has an error of its own. -/
theorem reportError_isOfReplies
    (counter : Option UInt32) :
    (reportError counter).isOfReplies = true := by
  unfold reportError
  split
  · rfl
  · split_ifs
    all_goals rfl

/- Only v3 exchanges are told why a reply was dropped. -/
theorem DroppedIn.listed
    {ref : Nat}
    {a : Pending}
    (hDropped : DroppedIn ssl id now events ref a e) :
    a.v3 = true ∧ e.isOfReplies = true := by
  rcases hDropped.judged with
    ⟨cache, now, p, datagram, sender, msg, hAsked, hDrop⟩
  unfold judgeV3 at hDrop
  dsimp only at hDrop
  split at hDrop
  · cases hDrop
  · next hV3 =>
    refine ⟨?_, ?_⟩
    · rw [← hAsked]
      exact not_not.mp hV3
    · split at hDrop
      · cases hDrop
      · split at hDrop
        · cases hDrop
          rfl
        · split at hDrop
          · cases hDrop
            rfl
          · unfold judgeOpened at hDrop
            dsimp only at hDrop
            split_ifs at hDrop
            · cases hDrop
              rfl
            · cases hDrop
            · cases hDrop
            · cases hDrop
            · cases hDrop
              rfl

/- What comes up in a coroutine is among its errors. -/
theorem Arises.listed
    {event : Event}
    (hArises : Arises ssl c event task e)
    (hRun :
      Machine.run (step ssl) (fresh id now) events = some c)
    (hTask : c.tasks[t]? = some task) :
    task.work.mayFailWith e = true := by
  have hSome {creds : Credentials}
      (hCreds : task.work.credentials? = some creds) :
      task.work.credentials?.isSome = true := by
    rw [hCreds]
    rfl
  cases hArises with
  | stopped _ _ => exact Work.mayFailWith_of_operations _ rfl
  | unencodable _ _ hEncoded =>
      rw [encodeV2cMessage_eq] at hEncoded
      split at hEncoded
      · cases hEncoded
      · cases hEncoded
        exact Work.mayFailWith_of_operations _ rfl
  | withoutPrivacy _ hWork _ _ =>
      rw [hWork]
      rfl
  | withoutDigest _ hWork _ _ _ =>
      rw [hWork]
      rfl
  | keys hCreds _ hKeys =>
      exact Work.mayFailWith_of_local (hSome hCreds)
        (requestKeys_local ssl _ _ _ _ hKeys)
  | encoding _ hCreds _ _ hEncoded =>
      exact Work.mayFailWith_of_local (hSome hCreds)
        (encodeV3Message_local ssl _ _ _ _ _ _ _ _ _ hEncoded)
  | forgotten hWork _ _ =>
      rw [hWork]
      rfl
  | unnamed hWork _ _ _ =>
      rw [hWork]
      rfl
  | outworn hWork _ _ _ =>
      rw [hWork]
      rfl
  | reported _ _ hKind =>
      refine Work.mayFailWith_of_replies ?_
        (reportError_isOfReplies _)
      rcases hKind with
        ⟨creds, attempt, hWork, _⟩ | ⟨creds, d, engineId, hWork, _⟩
      · rw [hWork]
        rfl
      · rw [hWork]
        rfl
  | @unanswered x p hPoint hp _ _ _ _ =>
      cases hReason : p.dropReason with
      | none => exact Work.mayFailWith_of_operations _ rfl
      | some reason =>
          rcases (dropsKnown_of_run hRun _ p reason hp
            hReason).listed with ⟨hV3, hReplies⟩
          refine Work.mayFailWith_of_replies ?_ hReplies
          have hx : task.point.exchange? = some x := by
            rw [hPoint]
            rfl
          rcases ((sound_of_run hRun).tasks t task
            hTask).exchange x hx with ⟨q, hq, hExchange⟩
          rw [hp] at hq
          cases hq
          have hAsks := hExchange.asks
          cases hWork : task.work with
          | v2c community =>
              rw [hWork] at hAsks
              rw [hAsks.1] at hV3
              cases hV3
          | _ => rfl

/- Who has Credentials may fail as a discovery does. -/
theorem Task.Origin.listed
    {i : Nat}
    {origin : Task}
    {alike : Credentials → Credentials → Bool}
    (hOrigin : task.Origin alike t i origin)
    (hListed : origin.work.mayFailWith e = true) :
    task.work.mayFailWith e = true := by
  rcases hOrigin.who with
    ⟨_, _, hSame⟩ | ⟨_, _, creds, _, hCreds, _⟩
  · rw [Work.mayFailWith, ← hSame]
    exact hListed
  · rw [Work.mayFailWith, Bool.or_eq_true,
      Bool.and_eq_true] at hListed
    rcases hListed with hAny | ⟨_, hOwn⟩
    · exact task.work.mayFailWith_of_operations hAny
    · simp [Work.mayFailWith, hCreds, hOwn]

/- Whatever the cause, its error is on the list. -/
theorem ArisesIn.listed
    {alike : Credentials → Credentials → Bool}
    (hArises : ArisesIn alike ssl id now events t task e) :
    task.work.mayFailWith e = true := by
  rcases hArises with
    ⟨before, event, after, c, i, origin, _, hOrigin, hComes⟩
  exact hOrigin.listed
    (hComes.arises.listed hComes.reached hComes.found)

/- `toResult` takes an error-status of zero for success. -/
theorem status_of_run
    {resp : Response}
    (hRun :
      Machine.run (step ssl) (fresh id now) events = some c)
    (hTask : c.tasks[t]? = some task)
    (hPoint :
      task.point = .completed (some (.agent status)) resp) :
    status ≠ 0 := by
  refine Machine.run_invariant
    (P := fun _ c =>
      ∀ (t : Nat) (task : Task), c.tasks[t]? = some task →
        task.point = .completed (some (.agent status)) resp →
          status ≠ 0)
    ?_ ?_ hRun t task hTask hPoint
  · intro t task hTask
    cases hTask
  · intro events c event c' _ ih hStep t task' hTask' hPoint
    rcases (step_task hStep hTask').completed hPoint rfl with
      ⟨before, hBefore, _, _, _, hOver | ⟨x, p, hTakes⟩⟩
    · exact ih t before hBefore hOver
    · have hResult := (Prod.mk.inj hTakes.result).1
      split at hResult
      · next hNonzero =>
        cases hResult
        exact hNonzero
      · cases hResult

/- The names of error-statuses are those from 0 to 18. -/
theorem ErrorStatus.ofInt?_eq_none
    {value : Int}
    (hNone : ofInt? value = none) :
    value < 0 ∨ 18 < value := by
  unfold ofInt? at hNone
  split at hNone
  all_goals cases hNone
  simp only [imp_false] at *
  omega

/- No other number stands for success. -/
theorem ErrorStatus.ofInt?_eq_noError
    {value : Int}
    (hZero : ofInt? value = some .noError) :
    value = 0 := by
  unfold ofInt? at hZero
  split at hZero
  all_goals cases hZero
  rfl

/- So only zero is classified as such, -/
theorem classifyErrorStatus_eq_ok
    (hOk : classifyErrorStatus status = .ok) :
    status = 0 := by
  unfold classifyErrorStatus at hOk
  split at hOk
  all_goals cases hOk
  next hZero =>
    exact Int32.toInt_inj.mp
      (ErrorStatus.ofInt?_eq_noError hZero)

/- and only what RFC 3416 does not name is left out. -/
theorem classifyErrorStatus_eq_unclassified
    (hNone : classifyErrorStatus status = .unclassified) :
    status.toInt < 0 ∨ 18 < status.toInt := by
  unfold classifyErrorStatus at hNone
  split at hNone
  all_goals cases hNone
  next hUnnamed =>
    exact ErrorStatus.ofInt?_eq_none hUnnamed

/- Each of the library's errors has a class. -/
theorem classifyErrc_ne
    (e : Errc) :
    classifyErrc e ≠ .ok ∧ classifyErrc e ≠ .unclassified := by
  cases e with
  | _ => exact ⟨by decide, by decide⟩

/- Each of the system's has one. -/
theorem classifySystem_ne
    (fault : SystemFault) :
    classifySystem fault ≠ .ok ∧
      classifySystem fault ≠ .unclassified := by
  cases fault with
  | _ => exact ⟨by decide, by decide⟩

/- Of its own errors, the Client holds these to be final. -/
theorem Work.mayFailWith_fatal
    (hListed : work.mayFailWith e = true)
    (hFatal : classifyErrc e = .fatal) :
    e = .clientStopped ∨ e = .cryptoFailure ∨
      e = .unexpectedReport := by
  cases e with
  | clientStopped => exact Or.inl rfl
  | cryptoFailure => exact Or.inr (Or.inl rfl)
  | unexpectedReport => exact Or.inr (Or.inr rfl)
  | _ =>
      first
      | exact absurd hFatal (by decide)
      | simp [mayFailWith, Errc.isOfOperations, Errc.isLocal,
          Errc.isOfReplies] at hListed

/-
  What a request completes with, and what `classify` makes
  of it: success alone is `Ok`; the library's own errors are
  those of its kind, none of them of the decoders, so that
  three at most are `Fatal`; and `Unclassified` is left to an
  error-status that has no name, or to a foreign category.
-/
theorem completions_classified
    (fault : Nat → SystemFault)
    {ec : Option ErrorCode}
    {resp : Response}
    (hRun :
      Machine.run (step ssl) (fresh id now) events = some c)
    (hTask : c.tasks[t]? = some task)
    (hPoint : task.point = .completed ec resp) :
    (classify fault ec = .ok ↔ ec = none) ∧
      (∀ e, ec = some (.errc e) →
        task.work.mayFailWith e = true ∧
          (classify fault ec = .fatal →
            e = .clientStopped ∨ e = .cryptoFailure ∨
              e = .unexpectedReport)) ∧
      (classify fault ec = .unclassified →
        (∃ status, ec = some (.agent status) ∧
            (status.toInt < 0 ∨ 18 < status.toInt)) ∨
          ∃ code, ec = some (.system code) ∧
            fault code = .foreign) := by
  refine ⟨⟨?_, ?_⟩, ?_, ?_⟩
  · intro hOk
    rcases ec with _ | ⟨e | status | _ | code⟩
    · rfl
    · exact absurd hOk (classifyErrc_ne e).1
    · have hZero := classifyErrorStatus_eq_ok hOk
      exact absurd hZero (status_of_run hRun hTask hPoint)
    · cases hOk
    · simp only [classify] at hOk
      split at hOk
      · cases hOk
      · exact absurd hOk (classifySystem_ne _).1
  · rintro rfl
    rfl
  · rintro e rfl
    have hListed : task.work.mayFailWith e = true := by
      refine ((traced_of_any_run hRun).tasks t task e hTask
        ?_).listed
      rw [hPoint]
      rfl
    exact ⟨hListed, Work.mayFailWith_fatal hListed⟩
  · intro hNone
    rcases ec with _ | ⟨e | status | _ | code⟩
    · cases hNone
    · exact absurd hNone (classifyErrc_ne e).2
    · exact Or.inl ⟨status, rfl,
        classifyErrorStatus_eq_unclassified hNone⟩
    · cases hNone
    · simp only [classify] at hNone
      split at hNone
      · next hForeign => exact Or.inr ⟨code, rfl, hForeign⟩
      · exact absurd hNone (classifySystem_ne _).2

/- A Report that the user name is unknown. -/
theorem completions_classified_sample :
    ∃ c,
      Machine.run (step agentSsl) (fresh 1 0) strangerRun =
          some c ∧
        c.tasks[0]? = some strangerTask ∧
        strangerTask.work.mayFailWith .unknownUserName =
          true := by
  rcases Option.bind_eq_some_iff.mp strangerRun_task with
    ⟨c, hGuarded, hTask⟩
  have hRun := Machine.run_of_guarded hGuarded
  have hClassified := completions_classified
    (fun _ => .otherCondition) hRun hTask rfl
  exact ⟨c, hRun, hTask, (hClassified.2.1 _ rfl).1⟩

end Snmpio
