import Snmpio.Client.Origins

/-
  Whose Credentials an error is about.

  Errors of a key, of a message, or of a reply to a message
  belong to the Credentials these were made with.  A request
  completes with such an error because of its own, as long
  as it shares a discovery with requests under the same, and
  nothing encrypted is sent to the identity phase, which has
  none.

  Key definitions include:
    * `Errc.isOfCredentials`
    * `Spoken`
    * `Faults`
    * `Blames`

  Key theorems include:
    * `spoken_of_run`
    * `Arises.faults`
    * `completed_by_own_credentials`
-/

------------------------------------------------------------
-- Errors of Credentials
------------------------------------------------------------

namespace Snmpio

variable {ssl : OpenSsl}

/- The errors that Credentials can be the reason of. -/
def Errc.isOfCredentials :
    Errc → Bool
| emptyPassword => true
| unsupportedAuthProtocol => true
| unsupportedPrivProtocol => true
| unsupportedSecurityLevel => true
| unknownUserName => true
| authFailed => true
| decryptionFailed => true
| decryptionError => true
| _ => false

/- The message names the user at the user's level. -/
def Names
    (ssl : OpenSsl)
    (creds : Credentials)
    (id : Int32)
    (message : Octets) : Prop :=
  ∃ (usm : UsmParameters) (scopedPdu : ScopedPdu)
      (authKey privKey : Octets) (salt : UInt64),
    usm.userName = creds.userName ∧
      (encodeV3Message ssl
        { msgId := id, level := creds.level } usm scopedPdu
        creds.authProtocol authKey creds.privProtocol privKey
        salt).1 = .ok message

/- The message of an exchange is built with Credentials. -/
structure BuiltWith
    (ssl : OpenSsl)
    (creds : Credentials)
    (a : Pending)
    (message : Octets) : Prop where
  named : Names ssl creds a.requestId message
  keyed :
    ∃ engineId pdu, SealedFor ssl creds engineId a pdu message

/- No message can be encoded with Credentials. -/
def Refuses
    (ssl : OpenSsl)
    (creds : Credentials)
    (e : Errc) : Prop :=
  ∀ (id : Int32) (usm : UsmParameters)
      (scopedPdu : ScopedPdu) (authKey privKey : Octets)
      (salt : UInt64),
    (encodeV3Message ssl
      { msgId := id, level := creds.level } usm scopedPdu
      creds.authProtocol authKey creds.privProtocol privKey
      salt).1 = .error e

/- Only deriving a key can fail, not finding one. -/
theorem cachedKey_error
    {keys : KeyCache}
    {name : KeyName}
    {derived : Except Errc Octets}
    {e : Errc}
    (hError : (cachedKey keys name derived).1 = .error e) :
    derived = .error e := by
  unfold cachedKey at hError
  split at hError
  · cases hError
  · split at hError
    · exact hError
    · cases hError

theorem requestKeys_error
    {keys : KeyCache}
    {creds : Credentials}
    {engineId : Octets}
    {e : Errc}
    (hError :
      (requestKeys ssl keys creds engineId).1 = .error e) :
    requestAuthKey ssl creds engineId = .error e ∨
      requestPrivKey ssl creds engineId = .error e := by
  unfold requestKeys at hError
  unfold requestAuthKey requestPrivKey
  dsimp only at hError
  split at hError
  · next key hKey =>
    left
    split at hKey
    · next hLevel =>
      rw [if_pos hLevel]
      cases hError
      exact cachedKey_error hKey
    · cases hKey
  · right
    split at hError
    · next hLevel =>
      rw [if_pos hLevel]
      cases hPriv :
        (localizedPrivacyKey ssl _ creds engineId).1 with
      | error e' =>
          rw [hPriv] at hError
          cases hError
          exact cachedKey_error hPriv
      | ok key =>
          rw [hPriv] at hError
          cases hError
    · cases hError

end Snmpio

------------------------------------------------------------
-- What Exchanges Say
------------------------------------------------------------

namespace Snmpio

variable {ssl : OpenSsl} {c c' : Client} {t : Nat}
variable {task task' : Task} {e : Event} {now : Int}
variable {p : Pending}

/- The Credentials that a coroutine's messages name. -/
def Work.speaker? :
    Work → Option Credentials
| v3 creds _ => some creds
| sync creds _ _ => some creds
| _ => none

/- The exchange of an identity phase, not spoilt yet. -/
structure Pending.IsIdentity
    (p : Pending) : Prop where
  v3 : p.v3 = true
  engineId : p.engineId = []
  authRequired : p.authRequired = false
  timeSyncPhase : p.timeSyncPhase = false
  dropReason : p.dropReason = none

/- What a coroutine's exchange says, and to whom. -/
structure Spoken
    (ssl : OpenSsl)
    (pendings : List Pending)
    (task : Task) : Prop where
  named :
    ∀ creds x, task.work.speaker? = some creds →
      task.point.exchange? = some x →
        Names ssl creds x.key x.datagram
  identity :
    ∀ creds d x, task.work = .identify creds d →
      task.point.exchange? = some x →
        ∃ p, pendings[x.pending]? = some p ∧ p.IsIdentity
  signed :
    ∀ creds d engineId x,
      task.work = .sync creds d engineId →
      task.point.exchange? = some x →
        ∃ p, pendings[x.pending]? = some p ∧
          p.authRequired = true

/- The same exchange, maybe at another attempt. -/
structure Task.SameExchange
    (task task' : Task) : Prop where
  work : task'.work = task.work
  exchange :
    ∀ x', task'.point.exchange? = some x' →
      ∃ x, task.point.exchange? = some x ∧
        x'.key = x.key ∧ x'.datagram = x.datagram ∧
        x'.pending = x.pending

theorem Task.SameExchange.of_eq
    (hWork : task'.work = task.work)
    (hExchange :
      task'.point.exchange? = task.point.exchange?) :
    task.SameExchange task' := by
  refine ⟨hWork, ?_⟩
  intro x hx
  rw [hExchange] at hx
  exact ⟨x, hx, rfl, rfl, rfl⟩

theorem Spoken.of_none
    {pendings : List Pending}
    (hNone : task.point.exchange? = none) :
    Spoken ssl pendings task := by
  refine ⟨?_, ?_, ?_⟩
  · intro creds x _ hx
    rw [hNone] at hx
    cases hx
  · intro creds d x _ hx
    rw [hNone] at hx
    cases hx
  · intro creds d engineId x _ hx
    rw [hNone] at hx
    cases hx

theorem Spoken.keep
    {pendings pendings' : List Pending}
    (hSpoken : Spoken ssl pendings task)
    (hSame : task.SameExchange task')
    (hPendings :
      ∀ (ref : Nat) (p : Pending),
        pendings[ref]? = some p →
          ∃ p' : Pending, pendings'[ref]? = some p' ∧
            p'.asked = p.asked ∧
            (p.IsIdentity → p'.IsIdentity)) :
    Spoken ssl pendings' task' := by
  refine ⟨?_, ?_, ?_⟩
  · intro creds x' hSpeaker hx'
    rcases hSame.exchange x' hx' with
      ⟨x, hx, hKey, hDatagram, _⟩
    rw [hSame.work] at hSpeaker
    rw [hKey, hDatagram]
    exact hSpoken.named creds x hSpeaker hx
  · intro creds d x' hWork hx'
    rcases hSame.exchange x' hx' with ⟨x, hx, _, _, hRef⟩
    rw [hSame.work] at hWork
    rcases hSpoken.identity creds d x hWork hx with
      ⟨p, hp, hIdentity⟩
    rcases hPendings x.pending p hp with
      ⟨p', hp', _, hKept⟩
    rw [hRef]
    exact ⟨p', hp', hKept hIdentity⟩
  · intro creds d engineId x' hWork hx'
    rcases hSame.exchange x' hx' with ⟨x, hx, _, _, hRef⟩
    rw [hSame.work] at hWork
    rcases hSpoken.signed creds d engineId x hWork hx with
      ⟨p, hp, hRequired⟩
    rcases hPendings x.pending p hp with
      ⟨p', hp', hAsked, _⟩
    rw [hRef]
    exact ⟨p', hp',
      (congrArg Pending.authRequired hAsked).trans hRequired⟩

theorem Task.SameExchange.of_point
    (hWork : task'.work = task.work)
    (hPoint :
      task'.point = task.point ∨
        task'.point = task.point.wake) :
    task.SameExchange task' := by
  refine Task.SameExchange.of_eq hWork ?_
  rcases hPoint with hSame | hWake
  · rw [hSame]
  · rw [hWake, Point.wake_exchange?]

theorem Resumes.sameExchange
    {point : Point}
    (hResumes : Resumes c t task e point) :
    task.SameExchange (task.goto point) := by
  cases hResumes with
  | @sent x ec hPoint =>
      refine ⟨rfl, ?_⟩
      intro x' hx'
      change (afterSend c task _).exchange? = some x' at hx'
      unfold afterSend at hx'
      rw [hPoint]
      split at hx'
      · cases hx'
        exact ⟨x, rfl, rfl, rfl, rfl⟩
      · cases hx'
        exact ⟨x, rfl, rfl, rfl, rfl⟩
  | @waited x deadline soft p hPoint hp =>
      refine ⟨rfl, ?_⟩
      intro x' hx'
      change (afterWait c task x deadline soft p).exchange? =
        some x' at hx'
      unfold afterWait at hx'
      rw [hPoint]
      split at hx'
      · cases hx'
        exact ⟨x, rfl, rfl, rfl, rfl⟩
      · split at hx'
        · cases hx'
          exact ⟨x, rfl, rfl, rfl, rfl⟩
        · rw [attemptPoint_exchange?] at hx'
          cases hx'
          exact ⟨x, rfl, rfl, rfl, rfl⟩
  | unparked hPoint hd =>
      refine ⟨rfl, ?_⟩
      intro x' hx'
      change (afterPark c task _).exchange? = some x' at hx'
      unfold afterPark at hx'
      split_ifs at hx'
      all_goals cases hx'

/- A move goes on with an exchange, or begins one. -/
theorem Move.spoken
    {out : Outside}
    {spawned : Option Task}
    (hMove : Move ssl out c task c' task' spawned) :
    (c'.pendings = c.pendings ∧ task.SameExchange task') ∨
      Spoken ssl c'.pendings task' := by
  cases hMove with
  | beginV2c hPoint hWork =>
      right
      unfold startV2c
      split
      · exact Spoken.of_none rfl
      · simp only [Client.takeNextId]
        split
        · exact Spoken.of_none rfl
        · refine ⟨?_, ?_, ?_⟩
          · intro creds x hSpeaker
            change task.work.speaker? = some creds at hSpeaker
            rw [hWork] at hSpeaker
            cases hSpeaker
          · intro creds d x hIdentify
            change task.work = _ at hIdentify
            rw [hWork] at hIdentify
            cases hIdentify
          · intro creds d engineId x hSync
            change task.work = _ at hSync
            rw [hWork] at hSync
            cases hSync
  | beginV3 hPoint hWork =>
      right
      apply Spoken.of_none
      unfold startV3
      split_ifs
      all_goals rfl
  | beginIdentify hPoint hWork =>
      right
      unfold startIdentify
      simp only [Client.takeNextId]
      split
      · exact Spoken.of_none rfl
      · refine ⟨?_, ?_, ?_⟩
        · intro creds x hSpeaker
          change task.work.speaker? = some creds at hSpeaker
          rw [hWork] at hSpeaker
          cases hSpeaker
        · intro creds d x _ hx
          cases hx
          exact ⟨_, List.getElem?_concat_length,
            rfl, rfl, rfl, rfl, rfl⟩
        · intro creds d engineId x hSync
          change task.work = _ at hSync
          rw [hWork] at hSync
          cases hSync
  | ensure _ _ hEnsure =>
      right
      rcases ensureEngine_cases hEnsure with
        ⟨_, rfl, _⟩ | ⟨_, _, _, rfl, _⟩ | ⟨_, _, rfl, _⟩
      all_goals exact Spoken.of_none rfl
  | park _ _ => exact Or.inr (Spoken.of_none rfl)
  | fail _ _ => exact Or.inr (Spoken.of_none rfl)
  | @send creds attempt hPoint hWork =>
      right
      unfold sendRequest
      split
      · exact Spoken.of_none rfl
      · dsimp only
        split
        · exact Spoken.of_none rfl
        · simp only [Client.takeNextId]
          split
          · exact Spoken.of_none rfl
          · next hEncoded =>
            refine ⟨?_, ?_, ?_⟩
            · intro creds' x hSpeaker hx
              change task.work.speaker? = some creds'
                at hSpeaker
              rw [hWork] at hSpeaker
              cases hSpeaker
              cases hx
              exact ⟨_, _, _, _, out.salt, rfl, hEncoded⟩
            · intro creds' d x hIdentify
              change task.work = _ at hIdentify
              rw [hWork] at hIdentify
              cases hIdentify
            · intro creds' d engineId x hSync
              change task.work = _ at hSync
              rw [hWork] at hSync
              cases hSync
  | @enter x hPoint =>
      left
      unfold enterTransact
      split
      · exact ⟨rfl, .of_eq rfl (by rw [hPoint]; rfl)⟩
      · split
        · exact ⟨rfl, .of_eq rfl (by rw [hPoint]; rfl)⟩
        · next c₁ hSocket =>
          refine ⟨?_, .of_eq rfl ?_⟩
          · rw [(registerPending_eq _ _ _).1]
            exact (socketFor_aside hSocket).2.2.1
          · rw [hPoint]
            exact attemptPoint_exchange? task.target x
  | @leave x p hPoint hp =>
      exact Or.inl ⟨rfl, .of_eq rfl (by rw [hPoint]; rfl)⟩
  | failed _ =>
      right
      apply Spoken.of_none
      unfold afterFailure
      split
      all_goals rfl
  | @succeeded _ p _ _ =>
      exact Or.inr
        (Spoken.of_none (afterSuccess_exchange? c task p))
  | @beginSync creds d engineId hPoint hWork =>
      right
      unfold startSync
      dsimp only
      split
      · exact Spoken.of_none rfl
      · simp only [Client.takeNextId]
        split
        · exact Spoken.of_none rfl
        · next hEncoded =>
          refine ⟨?_, ?_, ?_⟩
          · intro creds' x hSpeaker hx
            cases hSpeaker
            cases hx
            exact ⟨_, _, _, _, out.salt, rfl, hEncoded⟩
          · intro creds' d' x hIdentify
            cases hIdentify
          · intro creds' d' engineId' x _ hx
            cases hx
            exact ⟨_, List.getElem?_concat_length, rfl⟩
  | finish _ _ => exact Or.inr (Spoken.of_none rfl)

/- No encrypted message answers an identity phase. -/
def opensIdentity
    (ssl : OpenSsl)
    (c : Client) :
    Event → Bool
| .receive sender datagram =>
    (c.route ssl datagram sender).all (fun found =>
      !(found.2.1.v3 && decide (found.2.1.engineId = []) &&
        decide (sender = found.2.1.sender) &&
        (decodeV3Message datagram).1.any
          (fun msg => msg.header.level.isEncrypted)))
| _ => true

/- An open message leaves no reason with an identity phase. -/
theorem judgeV3_identity
    {cache : EngineCache}
    {datagram : Octets}
    {sender : Endpoint}
    {msg : V3Message}
    {reason : Errc}
    (hIdentity : p.IsIdentity)
    (hOpen :
      sender = p.sender →
        msg.header.level.isEncrypted = false) :
    judgeV3 ssl cache now p datagram sender msg ≠
      .drop (some reason) := by
  intro hDrop
  unfold judgeV3 at hDrop
  rw [if_neg (not_not_intro hIdentity.v3)] at hDrop
  split at hDrop
  · cases hDrop
  · next hSender =>
    rw [ne_eq, not_not] at hSender
    have hPlain := hOpen hSender
    simp only [hIdentity.authRequired, Bool.false_and,
      Bool.false_eq_true, false_and, if_false, openScopedPdu,
      hPlain] at hDrop
    unfold judgeOpened at hDrop
    simp only [hIdentity.timeSyncPhase, hIdentity.authRequired,
      Bool.false_eq_true, false_and, and_false,
      if_false] at hDrop
    split_ifs at hDrop
    all_goals cases hDrop

theorem judgeV3_keeps_identity
    {cache : EngineCache}
    {p' : Pending}
    {datagram : Octets}
    {sender : Endpoint}
    {msg : V3Message}
    (hIdentity : p.IsIdentity)
    (hAccept :
      judgeV3 ssl cache now p datagram sender msg =
        .accept p') :
    p'.IsIdentity := by
  unfold judgeV3 at hAccept
  dsimp only at hAccept
  split_ifs at hAccept
  split at hAccept
  · cases hAccept
  · rcases judgeOpened_accept hAccept with ⟨rfl, _⟩
    exact ⟨hIdentity.v3, hIdentity.engineId,
      hIdentity.authRequired, hIdentity.timeSyncPhase,
      hIdentity.dropReason⟩

/- A v2c message does nothing to a v3 exchange. -/
theorem judgeV2c_v3
    (hV3 : p.v3 = true)
    (sender : Endpoint)
    (msg : V2cMessage) :
    judgeV2c p sender msg = .drop none := by
  rw [judgeV2c, if_pos hV3]

/- What a step leaves of an exchange. -/
theorem step_identity
    {ref : Nat}
    (hp : c.pendings[ref]? = some p)
    (hOk : opensIdentity ssl c e = true)
    (hStep : step ssl c e = some c') :
    ∃ p' : Pending, c'.pendings[ref]? = some p' ∧
      p'.asked = p.asked ∧ (p.IsIdentity → p'.IsIdentity) := by
  have hBound := (List.getElem?_eq_some_iff.mp hp).1
  have hCase := step_pendings hStep
  generalize c'.pendings = pendings at hCase ⊢
  cases hCase with
  | kept _ => exact ⟨p, hp, rfl, id⟩
  | opened _ =>
      exact ⟨p, getElem?_append_some hp _, rfl, id⟩
  | @dropped sender datagram found q reason hRoute =>
      by_cases hSame : found = ref
      · subst hSame
        rcases route_cases hRoute with ⟨hq, hJudged⟩
        rw [hp] at hq
        cases hq
        refine ⟨_, List.getElem?_set_self hBound, rfl, ?_⟩
        intro hIdentity
        rcases hJudged with
          ⟨msg, _, _, hDrop⟩ | ⟨msg, hMsg, _, hDrop⟩
        · rw [judgeV2c_v3 hIdentity.v3] at hDrop
          cases hDrop
        · refine absurd hDrop.symm
            (judgeV3_identity hIdentity ?_)
          intro hSender
          subst hSender
          simpa [opensIdentity, hRoute, hIdentity.v3,
            hIdentity.engineId, hMsg] using hOk
      · exact ⟨p, (List.getElem?_set_ne hSame).trans hp,
          rfl, id⟩
  | @accepted sender datagram found q q' hRoute =>
      by_cases hSame : found = ref
      · subst hSame
        refine ⟨q', List.getElem?_set_self hBound, ?_⟩
        rcases route_cases hRoute with ⟨hq, hJudged⟩
        rw [hp] at hq
        cases hq
        refine ⟨(route_accept_dropReason hRoute).2, ?_⟩
        intro hIdentity
        rcases hJudged with
          ⟨msg, _, _, hAccept⟩ | ⟨msg, _, _, hAccept⟩
        · rw [judgeV2c_v3 hIdentity.v3] at hAccept
          cases hAccept
        · exact judgeV3_keeps_identity hIdentity hAccept.symm
      · exact ⟨p, (List.getElem?_set_ne hSame).trans hp,
          rfl, id⟩

theorem Spoken.step
    (hBefore :
      ∀ (t : Nat) (task : Task), c.tasks[t]? = some task →
        Spoken ssl c.pendings task)
    (hOk : opensIdentity ssl c e = true)
    (hStep : Snmpio.step ssl c e = some c')
    (hTask' : c'.tasks[t]? = some task') :
    Spoken ssl c'.pendings task' := by
  have hKeep :
      ∀ {task : Task}, c.tasks[t]? = some task →
        task.SameExchange task' →
          Spoken ssl c'.pendings task' := by
    intro task hTask hSame
    refine (hBefore t task hTask).keep hSame ?_
    intro ref p hp
    exact step_identity hp hOk hStep
  have hNudge :
      ∀ {task : Task}, c.tasks[t]? = some task →
        task.Nudged task' → Spoken ssl c'.pendings task' := by
    intro task hTask hNudged
    exact hKeep hTask
      (Task.SameExchange.of_point hNudged.work hNudged.point)
  cases step_cases hStep with
  | @advanced out head rest task moved c₁ spawned hStrand
      hTask hMove =>
      rcases settle_task hTask' with
        ⟨rfl, rfl⟩ | ⟨_, hOther⟩ | ⟨_, hSpawned⟩
      · rcases hMove.spoken with ⟨_, hSame⟩ | hSpoken
        · exact hKeep hTask hSame
        · rw [settle_pendings]
          exact hSpoken
      · rcases hMove.tasks hOther with
          ⟨before, hFound, hNudged⟩
        exact hNudge hFound hNudged
      · rcases hMove.spawned_eq hSpawned with ⟨creds, rfl⟩
        exact Spoken.of_none rfl
  | requested _ =>
      rcases getElem?_concat_cases hTask' with
        hOld | ⟨_, rfl⟩
      · exact hNudge hOld (Task.Nudged.refl _)
      · exact Spoken.of_none rfl
  | received _ =>
      rcases receive_nudged ssl c _ _ with
        ⟨pendings, hNudged⟩
      rcases hNudged.tasks t task' hTask' with
        ⟨task, hTask, hSame⟩
      exact hNudge hTask hSame
  | resumed _ hTask hResumes =>
      rcases place_task hTask' with ⟨rfl, rfl⟩ | ⟨_, hOther⟩
      · exact hKeep hTask hResumes.sameExchange
      · exact hNudge hOther (Task.Nudged.refl _)
  | raised _ _ _ _ =>
      rcases finish_task hTask' with
        ⟨_, rfl⟩ | ⟨_, before, hFound, rfl⟩
      · exact Spoken.of_none rfl
      · exact hNudge hFound (Task.wakeOn_nudged _ before)
  | @signalled i kind task cancelled _ hTask _ _ =>
      rcases getElem?_set_cases hTask' with
        ⟨rfl, rfl⟩ | ⟨_, hOther⟩
      · exact hKeep hTask
          (Task.SameExchange.of_point rfl
            (signalled_cases task.point))
      · exact hNudge hOther (Task.Nudged.refl _)
  | nudged hNudged =>
      rcases hNudged.tasks t task' hTask' with
        ⟨task, hTask, hSame⟩
      exact hNudge hTask hSame

/- It holds in every run that meets the condition. -/
theorem spoken_of_run
    {ok : Client → Event → Bool}
    (hOk :
      ∀ c e, ok c e = true → opensIdentity ssl c e = true)
    {id : Int32}
    {events : List Event}
    (hRun :
      Machine.run (Machine.guarded (step ssl) ok)
        (fresh id now) events = some c)
    (hTask : c.tasks[t]? = some task) :
    Spoken ssl c.pendings task := by
  refine Machine.run_invariant
    (P := fun _ c =>
      ∀ (t : Nat) (task : Task), c.tasks[t]? = some task →
        Spoken ssl c.pendings task) ?_ ?_ hRun t task hTask
  · intro t task hTask
    cases hTask
  · intro events c e c' _ ih hStep t task hTask
    rcases Machine.guarded_eq_some.mp hStep with
      ⟨hMeets, hStep⟩
    exact Spoken.step ih (hOk c e hMeets) hStep hTask

end Snmpio

------------------------------------------------------------
-- Faults
------------------------------------------------------------

namespace Snmpio

variable {ssl : OpenSsl} {id : Int32} {now : Int}
variable {events : List Event} {event : Event} {c : Client}
variable {t : Nat} {task : Task} {creds : Credentials}
variable {e : Errc}

/- What is said with Credentials' keys, and names them. -/
theorem Sound.builtWith
    (hSound : Sound ssl events c)
    (hTask : c.tasks[t]? = some task)
    (hSpoken : Spoken ssl c.pendings task)
    (hSpeaker : task.work.speaker? = some creds)
    {x : Exchange}
    {p : Pending}
    (hx : task.point.exchange? = some x)
    (hp : c.pendings[x.pending]? = some p) :
    BuiltWith ssl creds p.asked x.datagram := by
  rcases (hSound.tasks t task hTask).exchange x hx with
    ⟨p', hp', hExchange⟩
  rw [hp] at hp'
  cases hp'
  have hAsks := hExchange.asks
  refine ⟨?_, ?_⟩
  · rw [hExchange.key_eq]
    exact hSpoken.named creds x hSpeaker hx
  · cases hWork : task.work with
    | v2c community =>
        rw [hWork] at hSpeaker
        cases hSpeaker
    | v3 creds' attempt =>
        rw [hWork] at hSpeaker hAsks
        cases hSpeaker
        exact ⟨_, _, hAsks.1⟩
    | identify creds' d =>
        rw [hWork] at hSpeaker
        cases hSpeaker
    | sync creds' d engineId =>
        rw [hWork] at hSpeaker hAsks
        cases hSpeaker
        exact ⟨_, _, hAsks.1⟩

/- A reply that is not signed, and had to be, is a Report. -/
theorem Answered.isReport
    {p : Pending}
    {sender : Endpoint}
    {datagram : Octets}
    (hAnswered : Answered ssl p sender datagram)
    (hV3 : p.v3 = true)
    (hRequired : p.authRequired = true)
    (hUnsigned : p.replyAuthenticated = false) :
    p.response.type = .report := by
  unfold Answered at hAnswered
  rw [if_pos hV3] at hAnswered
  rcases hAnswered with ⟨msg, opened, hAnswered⟩
  by_contra hOther
  have hSigned := hAnswered.authenticated hOther hRequired
  rw [hUnsigned] at hSigned
  cases hSigned

/-
  An error that comes up in a coroutine is the fault of its
  Credentials: no message can be encoded with them, or no
  key derived that the coroutine's message is to be sealed
  with, or that message not be encoded; or its exchange, the
  message of which is built with them, has been answered by
  a Report, or left with a reply that was dropped.
-/
inductive Faults
    (ssl : OpenSsl)
    (id : Int32)
    (now : Int)
    (events : List Event)
    (event : Event)
    (c : Client)
    (task : Task)
    (creds : Credentials)
    (e : Errc) : Prop where
  | refused
      (hPoint : task.point = .start)
      (hRefused : Refuses ssl creds e)
  | derived
      {usm : UsmParameters}
      {scopedPdu : ScopedPdu}
      (hLetter : task.letter? c = some (usm, scopedPdu))
      (hKey :
        requestAuthKey ssl creds usm.engineId = .error e ∨
          requestPrivKey ssl creds usm.engineId = .error e)
  | encoded
      {out : Outside}
      {usm : UsmParameters}
      {scopedPdu : ScopedPdu}
      {authKey privKey : Octets}
      (hEvent : event = .advance out)
      (hLetter : task.letter? c = some (usm, scopedPdu))
      (hAuth :
        requestAuthKey ssl creds usm.engineId = .ok authKey)
      (hPriv :
        requestPrivKey ssl creds usm.engineId = .ok privKey)
      (hEncoded :
        (encodeV3Message ssl
          { msgId := c.nextId, level := creds.level } usm
          scopedPdu creds.authProtocol authKey
          creds.privProtocol privKey out.salt).1 = .error e)
  | reported
      {x : Exchange}
      {p : Pending}
      {sender : Endpoint}
      {datagram : Octets}
      (hPoint : task.point = .returned x none)
      (hp : c.pendings[x.pending]? = some p)
      (hBuilt : BuiltWith ssl creds p.asked x.datagram)
      (hReceived : Event.receive sender datagram ∈ events)
      (hAnswered : Answered ssl p sender datagram)
      (hReport : p.response.type = .report)
      (hError :
        e = reportError (usmStatsCounter p.response))
  | dropped
      {x : Exchange}
      {p : Pending}
      (hPoint : task.point = .leaving x)
      (hp : c.pendings[x.pending]? = some p)
      (hBuilt : BuiltWith ssl creds p.asked x.datagram)
      (hDropped :
        DroppedIn ssl id now events x.pending p.asked e)

/- Credentials of a coroutine with a letter can be used. -/
theorem Sound.usable_of_letter
    (hSound : Sound ssl events c)
    (hTask : c.tasks[t]? = some task)
    (hCreds : task.work.credentials? = some creds)
    {letter : UsmParameters × ScopedPdu}
    (hLetter : task.letter? c = some letter) :
    creds.Usable := by
  rcases (hSound.tasks t task hTask).usable creds hCreds with
    hUsable | hOver | ⟨hStart, _⟩
  · exact hUsable
  · unfold Task.letter? at hLetter
    split at hLetter
    · next hPoint _ =>
      rw [hPoint] at hOver
      cases hOver
    · next hPoint _ =>
      rw [hPoint] at hOver
      cases hOver
    · cases hLetter
  · unfold Task.letter? at hLetter
    rw [hStart] at hLetter
    cases hLetter

/- Errors of Credentials are the fault of Credentials. -/
theorem Arises.faults
    (hArises : Arises ssl c event task e)
    (hListed : e.isOfCredentials = true)
    (hRun :
      Machine.run (step ssl) (fresh id now) events = some c)
    (hTask : c.tasks[t]? = some task)
    (hSpoken : Spoken ssl c.pendings task)
    (hCreds : task.work.credentials? = some creds) :
    Faults ssl id now events event c task creds e := by
  have hSound := sound_of_run hRun
  cases hArises with
  | unencodable _ hWork _ =>
      rw [hWork] at hCreds
      cases hCreds
  | withoutPrivacy hPoint hWork hLevel hNone =>
      rw [hWork] at hCreds
      cases hCreds
      refine .refused hPoint ?_
      intro id usm scopedPdu authKey privKey salt
      rw [encodeV3Message, if_pos ⟨hLevel, hNone⟩]
  | withoutDigest hPoint hWork hLevel hNone hHas =>
      rw [hWork] at hCreds
      cases hCreds
      refine .refused hPoint ?_
      intro id usm scopedPdu authKey privKey salt
      rw [encodeV3Message, if_neg hHas, if_pos ⟨hLevel, hNone⟩]
  | keys hWith hLetter hKeys =>
      rw [hCreds] at hWith
      cases hWith
      exact .derived hLetter (requestKeys_error hKeys)
  | encoding hEvent hWith hLetter hKeys hEncoded =>
      rw [hCreds] at hWith
      cases hWith
      have hUsable :=
        hSound.usable_of_letter hTask hCreds hLetter
      rcases (requestKeys_spec hSound.core.keys hUsable
        _).2 _ _ hKeys with ⟨hAuth, hPriv⟩
      exact .encoded hEvent hLetter hAuth hPriv hEncoded
  | @reported x p hPoint hp hKind =>
      have hx : task.point.exchange? = some x := by
        rw [hPoint]
        rfl
      have hSpeaker : task.work.speaker? = some creds := by
        rcases hKind with
          ⟨creds', attempt, hWork, _⟩ |
            ⟨creds', d, engineId, hWork, _⟩
        · rw [hWork] at hCreds ⊢
          exact hCreds
        · rw [hWork] at hCreds ⊢
          exact hCreds
      have hBuilt :=
        hSound.builtWith hTask hSpoken hSpeaker hx hp
      rcases (hSound.tasks t task hTask).answered x hPoint with
        ⟨p', hp', hAnswered⟩
      rw [hp] at hp'
      cases hp'
      rcases hSound.core.answers _ p hp hAnswered with
        ⟨sender, datagram, hReceived, hAnswer⟩
      refine .reported hPoint hp hBuilt hReceived hAnswer ?_
        rfl
      rcases hKind with
        ⟨_, attempt, _, hReport, _⟩ |
          ⟨creds', d, engineId, hWork, hUnsigned⟩
      · exact hReport
      · rcases hSpoken.signed creds' d engineId x hWork hx with
          ⟨p', hp', hRequired⟩
        rw [hp] at hp'
        cases hp'
        rcases hBuilt.keyed with ⟨_, _, hSealed⟩
        exact hAnswer.isReport hSealed.v3 hRequired hUnsigned
  | @unanswered x p hPoint hp _ _ _ _ =>
      have hx : task.point.exchange? = some x := by
        rw [hPoint]
        rfl
      cases hReason : p.dropReason with
      | none =>
          rw [hReason] at hListed
          cases hListed
      | some reason =>
          have hSpeaker : task.work.speaker? = some creds := by
            cases hWork : task.work with
            | v2c community =>
                rw [hWork] at hCreds
                cases hCreds
            | identify creds' d =>
                -- Nothing is left with an identity phase.
                rcases hSpoken.identity creds' d x hWork hx
                  with ⟨p', hp', hIdentity⟩
                rw [hp] at hp'
                cases hp'
                rw [hIdentity.dropReason] at hReason
                cases hReason
            | _ =>
                rw [hWork] at hCreds
                exact hCreds
          exact .dropped hPoint hp
            (hSound.builtWith hTask hSpoken hSpeaker hx hp)
            (dropsKnown_of_run hRun _ p reason hp hReason)
  | _ => cases hListed

/- The coroutines that run with the same Credentials. -/
def sameCredentials
    (creds creds' : Credentials) : Bool :=
  decide (creds = creds')

/-
  An error of a request has come up in the run under its own
  Credentials, and was their fault: in its own coroutine, or
  in that of a discovery of its endpoint.
-/
def Blames
    (ssl : OpenSsl)
    (id : Int32)
    (now : Int)
    (events : List Event)
    (t : Nat)
    (task : Task)
    (creds : Credentials)
    (e : Errc) : Prop :=
  ∃ (before : List Event) (event : Event)
      (after : List Event) (c : Client) (i : Nat)
      (origin : Task),
    events = before ++ event :: after ∧
      task.Origin sameCredentials t i origin ∧
      origin.work.credentials? = some creds ∧
      ComesUp ssl id now before event c i origin e ∧
      Faults ssl id now before event c origin creds e

/- Its origin has the Credentials of the request. -/
theorem Task.Origin.sameCredentials
    {i : Nat}
    {origin : Task}
    (hOrigin : task.Origin sameCredentials t i origin)
    (hCreds : task.work.credentials? = some creds) :
    origin.work.credentials? = some creds := by
  rcases hOrigin.who with
    ⟨_, _, hSame⟩ | ⟨_, _, own, found, hOwn, hFound, hAlike⟩
  · rw [hSame]
    exact hCreds
  · rw [hCreds] at hOwn
    cases hOwn
    rw [hFound, of_decide_eq_true hAlike]

/-
  Requests share a discovery only under the same
  Credentials, and what answers an identity phase is open.
-/
def blamesOwn
    (ssl : OpenSsl)
    (c : Client)
    (e : Event) : Bool :=
  joinsAlike sameCredentials c e &&
    opensIdentity ssl c e

end Snmpio

------------------------------------------------------------
-- Requests and Their Credentials
------------------------------------------------------------

namespace Snmpio

open Ber Writer

variable {ssl : OpenSsl} {events : List Event} {c : Client}
variable {task : Task}

/-
  A request completes with an error of Credentials only
  because of its own.
-/
theorem completed_by_own_credentials
    {id : Int32}
    {now : Int}
    {t : Nat}
    {creds : Credentials}
    {attempt : Nat}
    {e : Errc}
    {resp : Response}
    (hRun :
      Machine.run (Machine.guarded (step ssl) (blamesOwn ssl))
        (fresh id now) events = some c)
    (hTask : c.tasks[t]? = some task)
    (hWork : task.work = .v3 creds attempt)
    (hPoint : task.point = .completed (some (.errc e)) resp)
    (hListed : e.isOfCredentials = true) :
    Blames ssl id now events t task creds e := by
  have hTraced :
      Traced sameCredentials ssl id now events c := by
    refine traced_of_run (fun _ => decide_eq_true rfl) ?_ hRun
    intro c e hOk
    exact (Bool.and_eq_true_iff.mp hOk).1
  have hFailure : task.point.failure? = some e := by
    rw [hPoint]
    rfl
  rcases hTraced.tasks t task e hTask hFailure with
    ⟨before, event, after, m, i, origin, rfl, hOrigin, hComes⟩
  have hCreds : origin.work.credentials? = some creds :=
    hOrigin.sameCredentials
      (congrArg Work.credentials? hWork)
  refine ⟨before, event, after, m, i, origin, rfl, hOrigin,
    hCreds, hComes, ?_⟩
  -- The run up to there meets the condition, too.
  rcases Machine.run_append.mp hRun with ⟨m', hBefore, _⟩
  have hSame := Machine.run_of_guarded hBefore
  rw [hComes.reached] at hSame
  cases hSame
  refine hComes.arises.faults hListed hComes.reached
    hComes.found (spoken_of_run ?_ hBefore hComes.found) hCreds
  intro c e hOk
  exact (Bool.and_eq_true_iff.mp hOk).2

/- The Agent does not know the user of its time-sync phase. -/
def strangerRun : List Event :=
  askedRun.take 14 ++
    [.receive agentEndpoint
      (agentMessage agentSsl .noAuthNoPriv 2 agentUsm
        (usmReport usmStatsUnknownUserNames)),
    .resume 1, ahead, ahead, ahead,
    .resume 0, ahead]

def strangerTask : Task :=
  { work := .v3 agentUser 0
    target := agentTarget
    pdu := upTimeRequest
    point := .completed (some (.errc .unknownUserName)) {} }

theorem strangerRun_task :
    (Machine.run
      (Machine.guarded (step agentSsl) (blamesOwn agentSsl))
      (fresh 1 0) strangerRun).bind (fun c => c.tasks[0]?) =
        some strangerTask := by
  decide +kernel

theorem completed_by_own_credentials_sample :
    ∃ c,
      Machine.run
          (Machine.guarded (step agentSsl)
            (blamesOwn agentSsl))
          (fresh 1 0) strangerRun = some c ∧
        c.tasks[0]? = some strangerTask ∧
        Blames agentSsl 1 0 strangerRun 0 strangerTask
          agentUser .unknownUserName := by
  rcases Option.bind_eq_some_iff.mp strangerRun_task with
    ⟨c, hRun, hTask⟩
  exact ⟨c, hRun, hTask,
    completed_by_own_credentials hRun hTask rfl rfl rfl⟩

/- An open message cannot be encoded only for its OIDs. -/
theorem encodeV3Message_open_error
    {header : V3Header}
    {usm : UsmParameters}
    {scopedPdu : ScopedPdu}
    {auth : AuthProtocol}
    {priv : PrivProtocol}
    {authKey privKey : Octets}
    {salt : UInt64}
    {e : Errc}
    (hLevel : header.level = .noAuthNoPriv)
    (hError :
      (encodeV3Message ssl header usm scopedPdu auth authKey
        priv privKey salt).1 = .error e) :
    e = .oidNotEncodable := by
  have hEncrypted : header.level.isEncrypted = false := by
    rw [hLevel]
    rfl
  have hSigned : header.level.isAuthenticated = false := by
    rw [hLevel]
    rfl
  have hEmits := encodeScopedPdu_emits scopedPdu
  simp only [encodeV3Message, hEncrypted, hSigned,
    Bool.false_eq_true, false_and, if_false,
    Except.bind] at hError
  cases hGood : scopedPdu.pdu.isEncodable with
  | true =>
      rw [hGood] at hEmits
      rw [hEmits.fresh, sealV3Message_eq] at hError
      simp [hSigned] at hError
  | false =>
      have hRefused := hEmits.refuses hGood {} rfl
      unfold sealV3Message at hError
      simp only [hRefused, List.findSome?_cons, id] at hError
      cases hError
      rfl

/- Who has no password is never told that it is empty. -/
theorem not_blames_emptyPassword
    {id : Int32}
    {now : Int}
    {t : Nat}
    {creds : Credentials}
    (hLevel : creds.level = .noAuthNoPriv) :
    ¬ Blames ssl id now events t task creds
      .emptyPassword := by
  rintro ⟨before, event, after, c, i, origin, _, _, _, _,
    hFaults⟩
  cases hFaults with
  | refused _ hRefused =>
      cases encodeV3Message_open_error hLevel
        (hRefused 0 {} {} [] [] 0)
  | derived _ hKey =>
      rw [requestAuthKey, requestPrivKey, hLevel] at hKey
      rcases hKey with hAuth | hPriv
      · cases hAuth
      · cases hPriv
  | encoded _ _ _ _ hEncoded =>
      cases encodeV3Message_open_error hLevel hEncoded
  | reported _ _ _ _ _ _ hError =>
      unfold reportError at hError
      split at hError
      · cases hError
      · split_ifs at hError
  | dropped _ _ _ hDropped =>
      rcases hDropped.judged with
        ⟨cache, now, p, datagram, sender, msg, _, hDrop⟩
      unfold judgeV3 at hDrop
      dsimp only at hDrop
      split_ifs at hDrop
      · cases hDrop
      · cases hDrop
      · split at hDrop
        · cases hDrop
        · unfold judgeOpened at hDrop
          dsimp only at hDrop
          split_ifs at hDrop
          all_goals cases hDrop
      · cases hDrop

/- A user whose password has been left empty. -/
def forgetful : Credentials :=
  { agentUser with authPassword := [] }

/-
  The guest, who authenticates nothing, queues behind the
  discovery that the forgetful user has started.
-/
def spoiledRun : List Event :=
  [ .request agentTarget (.credentials forgetful)
      upTimeRequest,
    ahead, ahead, ahead, ahead, ahead,
    .sent 1 none,
    .request agentTarget (.credentials guest) upTimeRequest,
    ahead, ahead, ahead,
    .receive agentEndpoint
      (agentMessage agentSsl .noAuthNoPriv 1
        { agentUsm with userName := [] }
        (usmReport usmStatsUnknownEngineIds)),
    .resume 1, ahead, ahead, ahead, ahead,
    .resume 2, ahead]

def spoiledTask : Task :=
  { work := .v3 guest 0
    target := agentTarget
    pdu := upTimeRequest
    point := .completed (some (.errc .emptyPassword)) {} }

theorem spoiledRun_task :
    (Machine.run (step agentSsl) (fresh 1 0)
      spoiledRun).bind (fun c => c.tasks[2]?) =
        some spoiledTask := by
  decide +kernel

/- The guest's request fails for the other's password. -/
theorem failed_by_another :
    ∃ c,
      Machine.run (step agentSsl) (fresh 1 0) spoiledRun =
          some c ∧
        c.tasks[2]? = some spoiledTask ∧
        ¬ Blames agentSsl 1 0 spoiledRun 2 spoiledTask guest
          .emptyPassword := by
  rcases Option.bind_eq_some_iff.mp spoiledRun_task with
    ⟨c, hRun, hTask⟩
  exact ⟨c, hRun, hTask, not_blames_emptyPassword rfl⟩

end Snmpio
