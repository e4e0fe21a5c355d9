import Snmpio.Client.Acceptance
import Snmpio.Message.Keys

/-
  The key cache is transparent.

  One map holds the keys of every user, both those that
  authenticate and those of the ciphers.  What a call finds
  in it is what the call would have derived, whatever calls
  came before.

  Key definitions include:
    * `KeyCall`, `KeyCall.Made`
    * `cacheAfter`
    * `callsAlong`

  Key theorems include:
    * `KeyCall.run_spec`
    * `cacheAfter_sound`
    * `callsAlong_spec`
    * `key_cache_transparent`
-/

------------------------------------------------------------
-- Calls
------------------------------------------------------------

namespace Snmpio

variable {keys : KeyCache}

/- A key that is asked for. -/
inductive KeyCall where
  | auth
      (creds : Credentials)
      (engineId : Octets)
  | priv
      (creds : Credentials)
      (engineId : Octets)

section

variable (ssl : OpenSsl)

namespace KeyCall

def run
    (keys : KeyCache) :
    KeyCall → Except Errc Octets × KeyCache
| auth creds engineId => localizedKey ssl keys creds engineId
| priv creds engineId =>
    localizedPrivacyKey ssl keys creds engineId

/- The same key without a cache. -/
def fresh :
    KeyCall → Except Errc Octets
| auth creds engineId => localizedAuthKey ssl creds engineId
| priv creds engineId => localizedPrivKey ssl creds engineId

/-
  A call for a key that the level needs, with Credentials
  that passed the checks of `doRequestV3`.
-/
def Made :
    KeyCall → Prop
| auth creds _ =>
    creds.level.isAuthenticated = true ∧ creds.Usable
| priv creds _ =>
    creds.level.isEncrypted = true ∧ creds.Usable

end KeyCall

/- The cache after some calls. -/
def cacheAfter
    (keys : KeyCache)
    (calls : List KeyCall) : KeyCache :=
  calls.foldl (fun keys call => (call.run ssl keys).2) keys

end

variable {ssl : OpenSsl}

theorem KeyCache.sound_empty :
    KeyCache.Sound ssl ∅ := by
  intro name key hFound
  cases hFound

/- A key that cannot be derived is not cached. -/
theorem cachedKey_failed
    {name : KeyName}
    {derived : Except Errc Octets}
    {e : Errc}
    (hError : derived = .error e) :
    (cachedKey keys name derived).2 = keys := by
  subst hError
  unfold cachedKey
  split
  · rfl
  · rfl

/- A failure is not cached. -/
theorem KeyCall.run_failed
    {call : KeyCall}
    {e : Errc}
    (hError : call.fresh ssl = .error e)
    (keys : KeyCache) :
    (call.run ssl keys).2 = keys := by
  cases call with
  | auth creds engineId => exact cachedKey_failed hError
  | priv creds engineId => exact cachedKey_failed hError

/- Cached or not, it is the key of the password. -/
theorem KeyCall.run_spec
    {call : KeyCall}
    (hMade : call.Made)
    (hSound : keys.Sound ssl) :
    (call.run ssl keys).1 = call.fresh ssl ∧
      KeyCache.Sound ssl (call.run ssl keys).2 := by
  cases call with
  | auth creds engineId =>
      exact cachedKey_spec hSound (derives_auth creds engineId)
  | priv creds engineId =>
      rcases hMade with ⟨hLevel, hUsable⟩
      -- A cipher keeps the lookup off the other kind's rows.
      exact cachedKey_spec hSound
        (derives_priv (hUsable.2 hLevel) engineId)

/- However many are asked for. -/
theorem cacheAfter_sound
    {calls : List KeyCall}
    (hMade : ∀ call ∈ calls, call.Made)
    (hSound : keys.Sound ssl) :
    KeyCache.Sound ssl (cacheAfter ssl keys calls) := by
  induction calls generalizing keys with
  | nil => exact hSound
  | cons call calls ih =>
      rcases List.forall_mem_cons.mp hMade with
        ⟨hCall, hCalls⟩
      exact ih hCalls (KeyCall.run_spec hCall hSound).2

end Snmpio

------------------------------------------------------------
-- The Calls of a Client
------------------------------------------------------------

namespace Snmpio

variable {c c' : Client} {task task' : Task}

section

variable (ssl : OpenSsl)

/-
  The calls for the keys of a message.  A privacy key is not
  asked for once the other has failed.
-/
def requestCalls
    (keys : KeyCache)
    (creds : Credentials)
    (engineId : Octets) : List KeyCall :=
  if creds.level.isAuthenticated then
    match (localizedKey ssl keys creds engineId).1 with
    | .error _ => [.auth creds engineId]
    | .ok _ =>
        .auth creds engineId ::
          (if creds.level.isEncrypted then
            [.priv creds engineId]
          else [])
  else if creds.level.isEncrypted then [.priv creds engineId]
  else []

/- The calls of a coroutine that runs. -/
def taskCalls
    (c : Client)
    (task : Task) : List KeyCall :=
  match task.point, task.work with
  | .ensured none, .v3 creds _ =>
      match c.cache.engineAt task.target.endpoint with
      | none => []
      | some engine =>
          requestCalls ssl c.keys creds engine.engineId
  | .syncing engineId, .identify creds _ =>
      requestCalls ssl c.keys creds engineId
  | _, _ => []

/- The keys that an event asks for. -/
def stepCalls
    (c : Client) :
    Event → List KeyCall
| .advance _ =>
    match c.strand with
    | [] => []
    | t :: _ =>
        match c.tasks[t]? with
        | none => []
        | some task => taskCalls ssl c task
| _ => []

/- All the calls of a run, in order. -/
def callsAlong :
    Client → List Event → List KeyCall
| _, [] => []
| c, e :: events =>
    stepCalls ssl c e ++
      match step ssl c e with
      | none => []
      | some c' => callsAlong c' events

end

variable {ssl : OpenSsl}

/- Keys are asked for usable Credentials only. -/
theorem requestCalls_made
    {creds : Credentials}
    (hUsable : creds.Usable)
    (keys : KeyCache)
    (engineId : Octets) :
    ∀ call ∈ requestCalls ssl keys creds engineId,
      call.Made := by
  have hPriv :
      creds.level.isEncrypted = true →
        (KeyCall.priv creds engineId).Made :=
    fun hLevel => ⟨hLevel, hUsable⟩
  unfold requestCalls
  split
  · next hLevel =>
    have hAuth : (KeyCall.auth creds engineId).Made :=
      ⟨hLevel, hUsable⟩
    split
    · simpa using hAuth
    · split
      · next hEncrypted =>
        simpa using ⟨hAuth, hPriv hEncrypted⟩
      · simpa using hAuth
  · split
    · next hEncrypted => simpa using hPriv hEncrypted
    · simp

/- No other calls touch the cache on the way. -/
theorem requestKeys_calls
    (keys : KeyCache)
    (creds : Credentials)
    (engineId : Octets) :
    (requestKeys ssl keys creds engineId).2 =
      cacheAfter ssl keys
        (requestCalls ssl keys creds engineId) := by
  unfold requestKeys requestCalls
  by_cases hLevel : creds.level.isAuthenticated = true
  · simp only [if_pos hLevel]
    rcases hKey : localizedKey ssl keys creds engineId with
      ⟨key, keys'⟩
    have hRun :
        ((KeyCall.auth creds engineId).run ssl keys).2 =
          keys' :=
      congrArg Prod.snd hKey
    cases key with
    | error e => exact hRun.symm
    | ok key =>
        simp only [cacheAfter, List.foldl_cons, hRun]
        split
        · rfl
        · rfl
  · simp only [if_neg hLevel]
    split
    · rfl
    · rfl

theorem Opening.keys_eq
    {keys : KeyCache}
    (hOpening : Opening c task keys c' task') :
    c'.keys = keys := by
  cases hOpening with
  | fails _ _ _ => rfl
  | opens _ _ => rfl

theorem Entry.keys_eq
    {out : Outside}
    {x : Exchange}
    (hEntry : Entry out c task x c' task') :
    c'.keys = c.keys := by
  cases hEntry with
  | refused _ _ => rfl
  | @entered c₁ _ hSocket =>
      rcases socketFor_aside hSocket with ⟨_, _, _, hKeys⟩
      unfold Client.registerPending
      split
      · exact hKeys
      · exact hKeys

/- A move asks for these and for no others. -/
theorem Move.keys
    {out : Outside}
    {spawned : Option Task}
    (hMove : Move ssl out c task c' task' spawned) :
    c'.keys =
      cacheAfter ssl c.keys (taskCalls ssl c task) := by
  unfold taskCalls
  cases hMove with
  | beginV2c hPoint hWork =>
      rw [hPoint, (startV2c_opening c hWork).keys_eq]
      rfl
  | beginIdentify hPoint hWork =>
      rw [hPoint, (startIdentify_opening out c hWork).keys_eq]
      rfl
  | ensure hPoint hWork hEnsure =>
      rw [hPoint]
      rcases ensureEngine_cases hEnsure with
        ⟨rfl, _⟩ | ⟨_, _, rfl, _⟩ | ⟨_, rfl, _⟩
      all_goals rfl
  | send hPoint hWork =>
      rw [hPoint, hWork,
        (sendRequest_opening out c hWork).keys_eq]
      cases c.cache.engineAt task.target.endpoint with
      | none => rfl
      | some engine => exact requestKeys_calls c.keys _ _
  | enter hPoint =>
      rw [hPoint, (enterTransact_entry out c task _).keys_eq]
      rfl
  | succeeded hPoint hp =>
      rw [hPoint, afterSuccess_client]
      rfl
  | beginSync hPoint hWork =>
      rw [hPoint, hWork,
        (startSync_opening out c hPoint hWork).keys_eq]
      exact requestKeys_calls c.keys _ _
  | _ hPoint =>
      rw [hPoint]
      rfl

/- What happens outside the coroutines derives no key. -/
theorem step_keys_quiet
    {e : Event}
    (hStep : step ssl c e = some c')
    (hQuiet : ∀ out, e ≠ .advance out) :
    c'.keys = c.keys := by
  cases step_cases hStep with
  | advanced _ _ _ => exact absurd rfl (hQuiet _)
  | received _ =>
      rcases receive_nudged ssl c _ _ with
        ⟨pendings, hNudged⟩
      exact hNudged.keys
  | nudged hNudged => exact hNudged.keys
  | _ => rfl

/- So does an event. -/
theorem step_keys
    {e : Event}
    (hStep : step ssl c e = some c') :
    c'.keys = cacheAfter ssl c.keys (stepCalls ssl c e) := by
  cases e with
  | advance out =>
      rcases advance_eq hStep with
        ⟨t, rest, task, c₁, task', spawned, hStrand, hTask,
          hMove, rfl⟩
      rw [settle_keys, hMove.keys]
      simp only [stepCalls, hStrand, hTask]
  | _ =>
      exact step_keys_quiet hStep (by simp)

end Snmpio

------------------------------------------------------------
-- Runs
------------------------------------------------------------

namespace Snmpio

variable {ssl : OpenSsl} {c : Client} {events : List Event}

theorem taskCalls_made
    {task : Task}
    (hTask : TaskSound ssl c task) :
    ∀ call ∈ taskCalls ssl c task, call.Made := by
  have hUsable :
      ∀ creds, task.work.credentials? = some creds →
        task.point.isOver = false → task.point ≠ .start →
          creds.Usable :=
    fun creds hCreds hOver hStart =>
      hTask.credentials hOver (Or.inl hStart) creds hCreds
  unfold taskCalls
  split
  · next hPoint hWork =>
    split
    · simp
    · refine requestCalls_made (hUsable _ ?_ ?_ ?_) _ _
      · rw [hWork]
        rfl
      · rw [hPoint]
        rfl
      · simp [hPoint]
  · next hPoint hWork =>
    refine requestCalls_made (hUsable _ ?_ ?_ ?_) _ _
    · rw [hWork]
      rfl
    · rw [hPoint]
      rfl
    · simp [hPoint]
  · simp

/- Only usable Credentials get this far. -/
theorem stepCalls_made
    (hSound : Sound ssl events c)
    (e : Event) :
    ∀ call ∈ stepCalls ssl c e, call.Made := by
  cases e with
  | advance out =>
      unfold stepCalls
      dsimp only
      split
      · simp
      · split
        · simp
        · next hTask =>
          exact taskCalls_made (hSound.tasks _ _ hTask)
  | _ => simp [stepCalls]

/- Counted event by event. -/
theorem callsAlong_concat
    {c' : Client}
    (hRun : Machine.run (step ssl) c events = some c')
    (e : Event) :
    callsAlong ssl c (events ++ [e]) =
      callsAlong ssl c events ++ stepCalls ssl c' e := by
  induction events generalizing c with
  | nil =>
      cases hRun
      simp only [List.nil_append, callsAlong]
      split
      · simp
      · simp
  | cons first events ih =>
      rcases Machine.run_cons.mp hRun with
        ⟨m, hFirst, hRest⟩
      simp only [List.cons_append, callsAlong, hFirst,
        ih hRest, List.append_assoc]

/- A Client's cache is the trace of the calls it made. -/
theorem callsAlong_spec
    {id : Int32}
    {now : Int}
    (hRun :
      Machine.run (step ssl) (fresh id now) events = some c) :
    (∀ call ∈ callsAlong ssl (fresh id now) events,
        call.Made) ∧
      c.keys =
        cacheAfter ssl ∅
          (callsAlong ssl (fresh id now) events) := by
  refine Machine.run_invariant
    (P := fun events c =>
      (∀ call ∈ callsAlong ssl (fresh id now) events,
          call.Made) ∧
        c.keys =
          cacheAfter ssl ∅
            (callsAlong ssl (fresh id now) events))
    ?_ ?_ hRun
  · exact ⟨by simp [callsAlong], rfl⟩
  · rintro events c e c' hBefore ⟨hMade, hKeys⟩ hStep
    rw [callsAlong_concat hBefore e]
    refine ⟨?_, ?_⟩
    · intro call hCall
      rcases List.mem_append.mp hCall with hOld | hNew
      · exact hMade call hOld
      · exact stepCalls_made (sound_of_run hBefore) e call hNew
    · rw [step_keys hStep, hKeys]
      exact List.foldl_append.symm

/-
  After whatever calls, a call returns what a derivation of
  its own would, and one that fails caches nothing.  The
  calls of a Client are of this kind, and its cache is what
  they leave.
-/
theorem key_cache_transparent
    (ssl : OpenSsl)
    (calls : List KeyCall)
    (hMade : ∀ call ∈ calls, call.Made) :
    (∀ before call after,
        calls = before ++ call :: after →
          (call.run ssl (cacheAfter ssl ∅ before)).1 =
              call.fresh ssl ∧
            ∀ e, call.fresh ssl = .error e →
              (call.run ssl (cacheAfter ssl ∅ before)).2 =
                cacheAfter ssl ∅ before) ∧
      ∀ id now events c,
        Machine.run (step ssl) (fresh id now) events =
            some c →
          (∀ call ∈ callsAlong ssl (fresh id now) events,
              call.Made) ∧
            c.keys =
              cacheAfter ssl ∅
                (callsAlong ssl (fresh id now) events) := by
  refine ⟨?_, fun _ _ _ _ hRun => callsAlong_spec hRun⟩
  intro before call after hSplit
  subst hSplit
  rcases List.forall_mem_append.mp hMade with
    ⟨hBefore, hRest⟩
  have hSound :
      KeyCache.Sound ssl (cacheAfter ssl ∅ before) :=
    cacheAfter_sound hBefore KeyCache.sound_empty
  have hCall : call.Made :=
    hRest call List.mem_cons_self
  exact ⟨(KeyCall.run_spec hCall hSound).1,
    fun e hError => KeyCall.run_failed hError _⟩

/- A user of the RFC's Engine with one password for both. -/
def mapleCredentials : Credentials :=
  { level := .authPriv
    authProtocol := .md5
    authPassword := maplePassword
    privProtocol := .aes192
    privPassword := maplePassword }

/- The password of RFC 3414, twice and once more. -/
def mapleCalls : List KeyCall :=
  [.auth mapleCredentials (List.replicate 11 0 ++ [2]),
    .priv mapleCredentials (List.replicate 11 0 ++ [2]),
    .auth { mapleCredentials with authPassword := [] }
      (List.replicate 11 0 ++ [2])]

/-
  The password's first key is not taken for the second, and
  a user without a password leaves both cached.
-/
theorem key_cache_transparent_maple :
    ((KeyCall.priv mapleCredentials
        (List.replicate 11 0 ++ [2])).run OpenSsl.maple
          (cacheAfter OpenSsl.maple ∅
            (mapleCalls.take 1))).1 =
        localizedPrivKey OpenSsl.maple mapleCredentials
          (List.replicate 11 0 ++ [2]) ∧
      cacheAfter OpenSsl.maple ∅ mapleCalls =
        cacheAfter OpenSsl.maple ∅ (mapleCalls.take 2) := by
  have hMade : ∀ call ∈ mapleCalls, call.Made := by
    unfold mapleCalls
    simp only [List.forall_mem_cons]
    exact ⟨⟨rfl, by decide, by decide⟩,
      ⟨rfl, by decide, by decide⟩,
      ⟨rfl, by decide, by decide⟩,
      by simp⟩
  have hCalls :=
    (key_cache_transparent OpenSsl.maple mapleCalls hMade).1
  refine ⟨(hCalls (mapleCalls.take 1) _ _ rfl).1, ?_⟩
  exact (hCalls (mapleCalls.take 2) _ [] rfl).2
    .emptyPassword rfl

end Snmpio
