import Snmpio.Client.Rediscovery

/-
  How a Client finds back to the Engine of a Target.

  Whatever the cache holds, an authenticated request to a
  Target at which only its Engine answers leaves that Engine
  in the cache, and the next one is answered.  This is said
  of every order in which the steps of the Client may come.

  One thing is in the way: a time that has been projected
  beyond what a message can carry is sent as the ceiling,
  but judged as it is.

  Key definitions include:
    * `Authority.Leads`
    * `EngineState.Clipped`
    * `Client.Ready`

  Key theorems include:
    * `healing_inevitable`
    * `second_request_answered`
    * `clipped_response_dropped`
-/

------------------------------------------------------------
-- What the Cache Comes To
------------------------------------------------------------

namespace Snmpio

/- The time that a request carries. -/
def EngineState.sentTime
    (engine : EngineState)
    (now : Int) : Int32 :=
  Int32.ofInt (min (engine.projected now) timeCeiling)

theorem timeCeiling_eq : timeCeiling = 2 ^ 31 - 1 :=
  rfl

theorem EngineState.sentTime_toInt
    (engine : EngineState)
    {now : Int}
    (hLeast : -2 ^ 31 ≤ engine.projected now) :
    (engine.sentTime now).toInt =
      min (engine.projected now) timeCeiling := by
  rw [sentTime, timeCeiling_eq]
  exact Int32.toInt_ofInt_of_le (by omega) (by omega)

/-
  The Engine finds the ceiling in its window, and is itself
  outside the one that is around the projection.
-/
def EngineState.Clipped
    (engine : EngineState)
    (now : Int)
    (E : Authority) : Prop :=
  timeCeiling ≤ E.time.toInt + timeWindowSeconds ∧
    E.time.toInt + timeWindowSeconds < engine.projected now

/- Entries are found under their own engineIDs. -/
def EngineCache.Keyed
    (cache : EngineCache) : Prop :=
  ∀ engineId engine,
    cache.engines.lookup engineId = some engine →
      engine.engineId = engineId ∧ engineId.length ≤ 65535

namespace Authority

variable (E : Authority)

/- A trusted pair of its boots is not ahead of its time. -/
def Leads
    (cache : EngineCache) : Prop :=
  ∀ engine, cache.engines.lookup E.engineId = some engine →
    engine.timeSynced = true → engine.boots = E.boots →
      engine.time ≤ E.time

def Unclipped
    (cache : EngineCache)
    (now : Int) : Prop :=
  ∀ engine, cache.engines.lookup E.engineId = some engine →
    engine.timeSynced = true → engine.boots = E.boots →
      ¬ engine.Clipped now E

/- What the Client holds right after it has heard from it. -/
def stateAt
    (now : Int) : EngineState :=
  { engineId := E.engineId
    boots := E.boots
    time := E.time
    learnt := now
    timeSynced := true }

/- It is the Engine at the endpoint, with this entry. -/
structure Placed
    (cache : EngineCache)
    (endpoint : Endpoint)
    (engine : EngineState) : Prop where
  keyed : cache.Keyed
  index : cache.index.lookup endpoint = some E.engineId
  entry : cache.engines.lookup E.engineId = some engine

end Authority

variable {E : Authority} {cache : EngineCache} {now : Int}
variable {endpoint : Endpoint} {engine : EngineState}
variable {usm : UsmParameters}

theorem EngineCache.Keyed.insert
    (hKeyed : cache.Keyed)
    (hShort : E.engineId.length ≤ 65535)
    (hEngineId : engine.engineId = E.engineId)
    (index : AList (fun _ : Endpoint => Octets)) :
    EngineCache.Keyed
      { engines := cache.engines.insert E.engineId engine
        index := index } := by
  intro other found hFound
  by_cases hSame : other = E.engineId
  · subst hSame
    rw [AList.lookup_insert] at hFound
    cases hFound
    exact ⟨hEngineId, hShort⟩
  · rw [AList.lookup_insert_ne hSame] at hFound
    exact hKeyed other found hFound

theorem EngineCache.Keyed.placed
    (hKeyed : cache.Keyed)
    (hShort : E.engineId.length ≤ 65535)
    (hEngineId : engine.engineId = E.engineId)
    {index : AList (fun _ : Endpoint => Octets)}
    (hIndex : index.lookup endpoint = some E.engineId) :
    E.Placed
      { engines := cache.engines.insert E.engineId engine
        index := index } endpoint engine :=
  ⟨hKeyed.insert hShort hEngineId index, hIndex,
    AList.lookup_insert _⟩

namespace Authority.Placed

variable (hPlaced : E.Placed cache endpoint engine)

include hPlaced

theorem engineAt :
    cache.engineAt endpoint = some engine :=
  EngineCache.engineAt_eq_some.mpr
    ⟨E.engineId, hPlaced.index, hPlaced.entry⟩

theorem engineId : engine.engineId = E.engineId :=
  (hPlaced.keyed _ _ hPlaced.entry).1

theorem short : E.engineId.length ≤ 65535 :=
  (hPlaced.keyed _ _ hPlaced.entry).2

/- Its entry is replaced. -/
theorem set
    {engine' : EngineState}
    (hEngineId : engine'.engineId = E.engineId) :
    E.Placed (cache.setEngineAt endpoint engine') endpoint
      engine' := by
  rw [EngineCache.setEngineAt, hPlaced.index]
  exact hPlaced.keyed.placed hPlaced.short hEngineId
    hPlaced.index

/- A pair that is not before the entry's is adopted. -/
theorem observe
    (hBelow : E.boots ≠ bootsCeiling)
    (hBoots : ¬ E.boots < engine.boots)
    (hTime : engine.boots = E.boots → engine.time ≤ E.time)
    (hHeardBoots : usm.boots = E.boots)
    (hHeardTime : usm.time = E.time) :
    E.Placed (cache.observeEngineTime now endpoint usm)
      endpoint (E.stateAt now) := by
  unfold EngineCache.observeEngineTime
  rw [hPlaced.engineAt, hHeardBoots, hHeardTime]
  dsimp only
  rw [if_neg hBelow, if_neg hBoots, if_neg]
  · rw [hPlaced.engineId]
    exact hPlaced.set rfl
  · rintro ⟨hSame, hLess⟩
    exact absurd hLess
      (Int32.not_lt.mpr (hTime hSame.symm))

end Authority.Placed

/- What a discovery writes over a pair that is trusted. -/
theorem EngineCache.discovered_synced
    (hEntry : cache.engines.lookup E.engineId = some engine)
    (hEngineId : engine.engineId = E.engineId)
    (hSynced : engine.timeSynced = true) :
    cache.discovered now endpoint E =
      { engines := cache.engines.insert E.engineId engine
        index := cache.index.insert endpoint E.engineId } := by
  have hSame :
      { engine with engineId := E.engineId } = engine := by
    rw [← hEngineId]
  have hIdentity :
      cache.recordIdentity now endpoint E.usm =
        { engines := cache.engines.insert E.engineId engine
          index :=
            cache.index.insert endpoint E.engineId } := by
    unfold recordIdentity
    dsimp only [Authority.usm]
    rw [hEntry, Option.getD_some,
      if_neg (not_not_intro hSynced), hSame]
  unfold discovered
  rw [hIdentity]
  dsimp only
  rw [AList.lookup_insert, Option.any_some, if_pos hSynced]

/- What it writes over one that is not. -/
theorem EngineCache.discovered_unsynced
    (hUnsynced :
      ((cache.engines.lookup E.engineId).getD {}).timeSynced =
        false) :
    cache.discovered now endpoint E =
      { engines :=
          cache.engines.insert E.engineId (E.stateAt now)
        index := cache.index.insert endpoint E.engineId } := by
  have hIdentity :
      cache.recordIdentity now endpoint E.usm =
        { engines := cache.engines.insert E.engineId
            { E.stateAt now with timeSynced := false }
          index :=
            cache.index.insert endpoint E.engineId } := by
    unfold recordIdentity Authority.stateAt
    dsimp only [Authority.usm]
    rw [if_pos (by rw [hUnsynced]; decide), hUnsynced]
  unfold discovered
  rw [hIdentity]
  dsimp only
  rw [AList.lookup_insert, if_neg (by simp), recordBaseline]
  dsimp only
  rw [AList.lookup_insert, AList.insert_insert]
  rfl

/-
  A discovery puts the Engine in its place, with a trusted
  pair: the one it had, or the one it has told.
-/
theorem EngineCache.Keyed.discovered
    (hKeyed : cache.Keyed)
    (hShort : E.engineId.length ≤ 65535)
    (now : Int)
    (endpoint : Endpoint) :
    ∃ engine,
      E.Placed (cache.discovered now endpoint E) endpoint
          engine ∧
        engine.timeSynced = true ∧
        (engine = E.stateAt now ∨
          cache.engines.lookup E.engineId = some engine) := by
  have hIndex :=
    AList.lookup_insert cache.index (a := endpoint)
      (b := E.engineId)
  cases hHeld :
    ((cache.engines.lookup E.engineId).getD {}).timeSynced with
  | true =>
      cases hEntry : cache.engines.lookup E.engineId with
      | none =>
          rw [hEntry] at hHeld
          cases hHeld
      | some engine =>
          rw [hEntry] at hHeld
          have hEngineId := (hKeyed _ _ hEntry).1
          rw [discovered_synced hEntry hEngineId hHeld]
          exact ⟨engine,
            hKeyed.placed hShort hEngineId hIndex, hHeld,
            Or.inr rfl⟩
  | false =>
      rw [discovered_unsynced hHeld]
      exact ⟨E.stateAt now, hKeyed.placed hShort rfl hIndex,
        rfl, Or.inl rfl⟩

/- Without a trusted pair it is the one it has told. -/
theorem Authority.Placed.discovered
    (hPlaced : E.Placed cache endpoint engine)
    (hUnsynced : engine.timeSynced = false) :
    E.Placed (cache.discovered now endpoint E) endpoint
      (E.stateAt now) := by
  have hHeld :
      ((cache.engines.lookup E.engineId).getD {}).timeSynced =
        false := by
    rw [hPlaced.entry]
    exact hUnsynced
  rw [EngineCache.discovered_unsynced hHeld]
  exact hPlaced.keyed.placed hPlaced.short rfl
    (AList.lookup_insert _)

theorem projected_stateAt
    (E : Authority)
    (now : Int) :
    (E.stateAt now).projected now = E.time.toInt := by
  simp [EngineState.projected, Authority.stateAt]

/- The Engine finds its own pair in its window. -/
theorem Authority.accepts_stateAt
    (hBelow : E.boots ≠ bootsCeiling)
    (now : Int) :
    E.Accepts (E.stateAt now).boots
      ((E.stateAt now).sentTime now) := by
  have hMost : E.time.toInt ≤ timeCeiling :=
    Int32.toInt_le E.time
  have hSent : (E.stateAt now).sentTime now = E.time := by
    rw [EngineState.sentTime, projected_stateAt,
      min_eq_left hMost, Int32.ofInt_toInt]
  rw [hSent]
  exact ⟨hBelow, rfl, by omega, by omega⟩

theorem Authority.not_clipped_stateAt
    (E : Authority)
    (now : Int) :
    ¬ (E.stateAt now).Clipped now E := by
  rintro ⟨_, hBeyond⟩
  rw [projected_stateAt, timeWindowSeconds] at hBeyond
  omega

/-
  What the Engine has accepted it may answer, unless the
  time had been clipped.
-/
theorem Authority.Placed.timely
    (hPlaced : E.Placed cache endpoint engine)
    (hWithin :
      engine.timeSynced = true → engine.boots = E.boots →
        ¬ engine.Clipped now E)
    (hAccepts :
      E.Accepts engine.boots (engine.sentTime now))
    (hBoots : usm.boots = E.boots)
    (hTime : usm.time = E.time) :
    cache.timely now endpoint usm = true := by
  rcases hAccepts with ⟨hBelow, hSame, hAbove, _⟩
  cases hSynced : engine.timeSynced with
  | false =>
      unfold EngineCache.timely
      rw [hPlaced.engineAt]
      dsimp only
      rw [hSynced, if_pos (by decide)]
  | true =>
      rw [EngineCache.timely_eq hPlaced.engineAt hSynced,
        hBoots, hTime]
      refine ⟨hBelow, hSame ▸ hBelow, Or.inr ⟨hSame.symm, ?_⟩⟩
      by_contra hLate
      have hLeast : -2 ^ 31 ≤ E.time.toInt :=
        Int32.le_toInt E.time
      unfold timeWindowSeconds at hLate
      rw [engine.sentTime_toInt (by omega)] at hAbove
      refine hWithin hSynced hSame ⟨?_, ?_⟩
      · unfold timeWindowSeconds
        omega
      · unfold timeWindowSeconds
        omega

end Snmpio

------------------------------------------------------------
-- Attempts
------------------------------------------------------------

namespace Snmpio

variable {ssl : OpenSsl} {E : Authority} {c c' : Client}
variable {P : Client → Prop} {r attempt : Nat}
variable {task task' : Task} {creds : Credentials}
variable {key privKey : Octets} {engine : EngineState}
variable {x : Exchange} {p p' : Pending}
variable {cache : EngineCache}

/- A Client with nothing to do, that can be asked. -/
structure Client.Ready
    (ssl : OpenSsl)
    (endpoint : Endpoint)
    (c : Client) : Prop where
  going : c.stopping = false
  socket :
    c.slot endpoint.v6 = none ∨
      c.slot endpoint.v6 = some .listening
  keys : c.keys.Sound ssl
  clear : c.Clear
  vacant : c.discovering.lookup endpoint = none
  idle : c.strand = []
  rest :
    ∀ (i : Nat) (task : Task), c.tasks[i]? = some task →
      task.point.isOver = true

/- A Pdu that can be sent. -/
structure Pdu.Sendable
    (pdu : Pdu) : Prop where
  encodable : pdu.isEncodable = true
  fits : pdu.Fits

/- The Engine's Response to a request with this Pdu. -/
def Authority.Answers
    (ssl : OpenSsl)
    (E : Authority)
    (creds : Credentials)
    (key privKey : Octets)
    (pdu response : Pdu) : Prop :=
  response.type = .response ∧
    ∃ (id boots time : Int32) (asked : Octets) (m : V3Message),
      Opens ssl { msgId := id, level := creds.level }
        { engineId := E.engineId
          boots := boots
          time := time
          userName := creds.userName }
        { contextEngineId := E.engineId
          pdu := { pdu with requestId := id } }
        creds.authProtocol key creds.privProtocol privKey
        asked m ∧
      E.Says ssl creds key privKey creds.level id response
        (E.answer asked)

theorem sendRequest_eq
    {out : Outside}
    {datagram : Octets}
    (hSigned : creds.level.isAuthenticated = true)
    (hEngine :
      c.cache.engineAt task.target.endpoint = some engine)
    (hKeys :
      (requestKeys ssl c.keys creds engine.engineId).1 =
        .ok (key, privKey))
    (hBuilt :
      (encodeV3Message ssl
          { msgId := c.nextId, level := creds.level }
          { engineId := engine.engineId
            boots := engine.boots
            time := engine.sentTime c.now
            userName := creds.userName }
          { contextEngineId := engine.engineId
            pdu := { task.pdu with requestId := c.nextId } }
          creds.authProtocol key creds.privProtocol privKey
          out.salt).1 = .ok datagram) :
    sendRequest ssl out c task creds =
      (Client.opening
          { c with
            keys :=
              (requestKeys ssl c.keys creds
                engine.engineId).2 }
          (creds.asking task.target.endpoint key privKey
            engine.engineId c.nextId false),
        task.goto (.entering {
          datagram := datagram
          key := c.nextId
          pending := c.pendings.length })) := by
  unfold EngineState.sentTime at hBuilt
  unfold sendRequest Client.takeNextId
  rw [hEngine]
  dsimp only
  rw [hKeys]
  dsimp only
  rw [hBuilt, hSigned]
  rfl

/- The request moves, and nobody else. -/
theorem Interlude.move
    (hInterlude : Interlude ssl c r task)
    (hScene : Scene ssl c' r task' [r])
    (hClear : c'.Clear)
    (hTarget : task'.target = task.target)
    (hOthers : ∀ i, i ≠ r → c'.tasks[i]? = c.tasks[i]?)
    (hDiscovering : c'.discovering = c.discovering) :
    Interlude ssl c' r task' where
  scene := hScene
  clear := hClear
  vacant := by
    rw [hDiscovering, hTarget]
    exact hInterlude.vacant
  rest := fun i other hOther hNe =>
    hInterlude.rest i other
      ((hOthers i hNe).symm.trans hOther) hNe

/- A request that has its Engine is sent, and answered. -/
theorem send_inevitable
    {R : Pending → Prop}
    (hSsl : ssl.Documented)
    (hAccount : Account ssl E creds key privKey)
    (hInterlude : Interlude ssl c r task)
    (hPoint : task.point = .ensured none)
    (hWork : task.work = .v3 creds attempt)
    (hEngine :
      c.cache.engineAt task.target.endpoint = some engine)
    (hShort : engine.engineId.length ≤ 65535)
    (hPdu : task.pdu.Sendable)
    (hRoute :
      ∀ (c₁ : Client) (ref : Nat)
        (key privKey datagram : Octets) (m : V3Message),
        requestAuthKey ssl creds engine.engineId = .ok key →
        requestPrivKey ssl creds engine.engineId =
          .ok privKey →
        Opens ssl { msgId := c.nextId, level := creds.level }
          { engineId := engine.engineId
            boots := engine.boots
            time := engine.sentTime c.now
            userName := creds.userName }
          { contextEngineId := engine.engineId
            pdu := { task.pdu with requestId := c.nextId } }
          creds.authProtocol key creds.privProtocol privKey
          datagram m →
        c₁.cache = c.cache → c₁.now = c.now →
        c₁.findPending c.nextId =
          some (ref, creds.asking task.target.endpoint key
            privKey engine.engineId c.nextId false) →
          ∃ p',
            c₁.route ssl (E.answer datagram)
                task.target.endpoint =
              some (ref, creds.asking task.target.endpoint
                key privKey engine.engineId c.nextId false,
                .accept p') ∧
            R p')
    (hThen :
      ∀ c' x p', R p' →
        Interlude ssl c' r (task.goto (.returned x none)) →
        c'.cache = c.cache → c'.now = c.now →
        c'.pendings[x.pending]? = some p' →
          Machine.Inevitable (step ssl) E.Serves P c') :
    Machine.Inevitable (step ssl) E.Serves P c := by
  have hScene := hInterlude.scene
  refine hScene.step_inevitable (by rw [hPoint]; rfl) ?_
  intro out _
  rcases requestKeys_ok hSsl hAccount.valid hScene.keys
    engine.engineId with
    ⟨key', privKey', hKeys, hSound, hKey, hPrivKey, hLong⟩
  rcases request_builds hSsl hAccount.valid.usable hLong
    hShort hAccount.userName hPdu.encodable hPdu.fits c.nextId
    engine.boots (engine.sentTime c.now) key' out.salt with
    ⟨datagram, m, hBuilt, hOpens⟩
  let p : Pending :=
    creds.asking task.target.endpoint key' privKey'
      engine.engineId c.nextId false
  let x : Exchange :=
    { datagram := datagram
      key := c.nextId
      pending := c.pendings.length }
  let opened : Client :=
    Client.opening
      { c with
        keys :=
          (requestKeys ssl c.keys creds engine.engineId).2 }
      p
  have hRun :
      runTask ssl out c task =
        some (opened, task.goto (.entering x), none) := by
    unfold runTask
    rw [hPoint, hWork]
    dsimp only
    rw [sendRequest_eq hAccount.signed hEngine hKeys hBuilt]
  refine ⟨_, _, hRun, ?_⟩
  refine transact_inevitable (R := R)
    (hScene.become hSound p rfl rfl rfl) rfl rfl
    hInterlude.clear (c.opening_pending p) ?_ ?_
  · intro c₁ hCache hNow hFound
    exact hRoute c₁ _ key' privKey' datagram m hKey hPrivKey
      hOpens hCache hNow hFound
  · intro c' p' hR hReturned hFrame hFound hClear
    refine hThen c' _ p' hR ?_ hFrame.cache hFrame.now hFound
    refine hInterlude.move hReturned hClear rfl ?_
      hFrame.discovering
    intro i hNe
    rw [hFrame.others i hNe]
    exact List.getElem?_set_ne (fun hEq => hNe hEq.symm)

/- The request ends. -/
theorem Interlude.completed
    (hInterlude : Interlude ssl c r task)
    (cache : EngineCache)
    (ec : Option ErrorCode)
    (resp : Response) :
    let done : Task := task.goto (.completed ec resp)
    let c' : Client :=
      ({ c with cache := cache } : Client).place r [] done
    c'.Ready ssl task.target.endpoint ∧
      c'.tasks[r]? = some done := by
  intro done c'
  have hScene := hInterlude.scene
  refine ⟨⟨hScene.going, hScene.socket, hScene.keys,
    hInterlude.clear, hInterlude.vacant, rfl, ?_⟩,
    List.getElem?_set_self
      (List.getElem?_eq_some_iff.mp hScene.found).1⟩
  intro i other hOther
  rcases place_task hOther with ⟨_, rfl⟩ | ⟨hNe, hOld⟩
  · rfl
  · exact hInterlude.rest i other hOld hNe

/- Or it is tried again. -/
theorem Interlude.again
    (hInterlude : Interlude ssl c r task)
    (cache : EngineCache)
    (creds : Credentials)
    (attempt : Nat) :
    let next : Task :=
      { task with
        work := .v3 creds attempt
        point := .ensuring }
    Interlude ssl
      (({ c with cache := cache } : Client).place r [] next)
      r next := by
  intro next
  have hScene := hInterlude.scene
  refine hInterlude.move
    ⟨hScene.going, hScene.socket, hScene.keys,
      List.getElem?_set_self
        (List.getElem?_eq_some_iff.mp hScene.found).1,
      (Frame.place c r [] next).alone hScene.alone, rfl,
      hScene.retries, hScene.timeout, hScene.calm⟩
    hInterlude.clear rfl (Frame.place c r [] next).others rfl

/- A first attempt that asked another Engine forgets it. -/
theorem handleReport_foreign
    {now : Int}
    {endpoint : Endpoint}
    (hCounter :
      usmStatsCounter p.response =
        some usmStatsUnknownEngineIds) :
    handleReport cache now endpoint p true =
      (none,
        { cache with index := cache.index.erase endpoint }) := by
  unfold handleReport
  rw [hCounter]
  dsimp only
  rw [if_neg (by decide), if_neg (by decide),
    if_pos (Or.inr rfl)]

/- A signed Report distrusts the entry, or renews it. -/
theorem handleReport_untimely
    {now : Int}
    {endpoint : Endpoint}
    (hEngine : cache.engineAt endpoint = some engine)
    (hSynced : engine.timeSynced = true)
    (hCounter :
      usmStatsCounter p.response =
        some usmStatsNotInTimeWindows)
    (hSigned : p.replyAuthenticated = true) :
    handleReport cache now endpoint p true =
      (none,
        if p.security.boots < engine.boots then
          cache.setEngineAt endpoint
            { engine with timeSynced := false }
        else
          cache.observeEngineTime now endpoint p.security) := by
  unfold handleReport
  rw [hCounter]
  dsimp only
  rw [if_neg (by decide), if_neg (by decide), if_neg, hEngine]
  · dsimp only
    by_cases hLower : p.security.boots < engine.boots
    · rw [if_pos ⟨hSynced, hLower⟩, if_pos hLower]
    · rw [if_neg (fun h => hLower h.2), if_neg hLower]
  · rintro (hNot | hOther)
    · exact hNot hSigned
    · exact absurd hOther (by decide)

theorem afterAnswer_retry
    (hType : p.response.type = .report)
    (hReport :
      handleReport c.cache c.now task.target.endpoint p true =
        (none, cache)) :
    afterAnswer c task creds 0 p =
      ({ c with cache := cache },
        { task with
          work := .v3 creds 1
          point := .ensuring }) := by
  unfold afterAnswer
  dsimp only
  rw [if_pos hType, decide_eq_true rfl, hReport]
  rfl

/- The second attempt's Report is the result. -/
theorem afterAnswer_final
    (hType : p.response.type = .report)
    {counter : UInt32}
    (hCounter : usmStatsCounter p.response = some counter) :
    afterAnswer c task creds 1 p =
      (c, task.goto
        (.completed
          (some (.errc (reportError (some counter)))) {})) := by
  have hReport :
      handleReport c.cache c.now task.target.endpoint p
          false =
        (some (reportError (some counter)), c.cache) := by
    unfold handleReport
    rw [hCounter]
    dsimp only
    rw [if_pos (by decide)]
  unfold afterAnswer
  dsimp only
  rw [if_pos hType, decide_eq_false (by decide), hReport]

theorem afterAnswer_response
    (hType : p.response.type = .response)
    (hSigned : p.replyAuthenticated = true) :
    afterAnswer c task creds attempt p =
      ({ c with
        cache :=
          c.cache.observeEngineTime c.now
            task.target.endpoint p.security },
        task.goto
          (.completed (toResult p.response).1
            (toResult p.response).2)) := by
  unfold afterAnswer
  dsimp only
  rw [if_neg (by rw [hType]; decide), if_pos hSigned]

/- The end of an attempt. -/
theorem answered_inevitable
    (hInterlude : Interlude ssl c r task)
    (hPoint : task.point = .returned x none)
    (hWork : task.work = .v3 creds attempt)
    (hFound : c.pendings[x.pending]? = some p)
    {next : Client × Task}
    (hAfter : afterAnswer c task creds attempt p = next)
    (hThen :
      Machine.Inevitable (step ssl) E.Serves P
        (next.1.place r [] next.2)) :
    Machine.Inevitable (step ssl) E.Serves P c := by
  refine hInterlude.scene.step_inevitable
    (by rw [hPoint]; rfl) ?_
  intro out _
  refine ⟨next.1, next.2, ?_, hThen⟩
  simp only [runTask, hPoint, hWork, hFound,
    Option.bind_eq_bind, Option.bind_some, afterSuccess,
    hAfter]

/- An attempt at the Engine itself. -/
theorem own_inevitable
    (hSsl : ssl.Documented)
    (hAccount : Account ssl E creds key privKey)
    (hInterlude : Interlude ssl c r task)
    (hPoint : task.point = .ensured none)
    (hWork : task.work = .v3 creds attempt)
    (hPlaced : E.Placed c.cache task.target.endpoint engine)
    (hWithin :
      engine.timeSynced = true → engine.boots = E.boots →
        ¬ engine.Clipped c.now E)
    (hPdu : task.pdu.Sendable)
    (hAnswered :
      E.Accepts engine.boots (engine.sentTime c.now) →
        ∀ c' x p,
          E.Answers ssl creds key privKey task.pdu
            p.response →
          p.replyAuthenticated = true →
          p.security.boots = E.boots →
          p.security.time = E.time →
          Interlude ssl c' r (task.goto (.returned x none)) →
          c'.cache = c.cache → c'.now = c.now →
          c'.pendings[x.pending]? = some p →
            Machine.Inevitable (step ssl) E.Serves P c')
    (hRefused :
      ¬ E.Accepts engine.boots (engine.sentTime c.now) →
        ∀ c' x p,
          p.response.type = .report →
          usmStatsCounter p.response =
            some usmStatsNotInTimeWindows →
          p.replyAuthenticated = true →
          p.security.boots = E.boots →
          p.security.time = E.time →
          Interlude ssl c' r (task.goto (.returned x none)) →
          c'.cache = c.cache → c'.now = c.now →
          c'.pendings[x.pending]? = some p →
            Machine.Inevitable (step ssl) E.Serves P c') :
    Machine.Inevitable (step ssl) E.Serves P c := by
  have hEngineId := hPlaced.engineId
  refine send_inevitable hSsl hAccount hInterlude hPoint hWork
    hPlaced.engineAt (hEngineId ▸ hPlaced.short) hPdu
    (R := fun p' => ∃ asked m,
      Opens ssl { msgId := c.nextId, level := creds.level }
        { engineId := E.engineId
          boots := engine.boots
          time := engine.sentTime c.now
          userName := creds.userName }
        { contextEngineId := E.engineId
          pdu := { task.pdu with requestId := c.nextId } }
        creds.authProtocol key creds.privProtocol privKey
        asked m ∧
      E.Treats ssl creds key privKey engine.boots
        (engine.sentTime c.now) asked
        (creds.asking task.target.endpoint key privKey
          E.engineId c.nextId false) p') ?_ ?_
  · intro c₁ ref key' privKey' datagram m hKey hPrivKey hOpens
      hCache hNow hFound
    rw [hEngineId] at hKey hPrivKey hOpens hFound ⊢
    cases hKey.symm.trans hAccount.authKey
    cases hPrivKey.symm.trans hAccount.privKey
    rcases hAccount.treats hOpens rfl hFound (by
      intro hAccepts usm hBoots hTime
      rw [hCache, hNow]
      exact hPlaced.timely hWithin hAccepts hBoots hTime) with
      ⟨p', hRoute, hTreats⟩
    exact ⟨p', hRoute, datagram, m, hOpens, hTreats⟩
  · rintro c' x p' ⟨asked, m, hOpens, hTreats⟩ hReturned
      hCache hNow hFound
    cases hTreats with
    | untimely hOutside hType hCounter hHeard =>
        exact hRefused hOutside c' x p'
          (hHeard.response ▸ hType)
          (hHeard.response ▸ hCounter) hHeard.authenticated
          hHeard.boots hHeard.time hReturned hCache hNow
          hFound
    | timely hInside hType hSays hHeard =>
        refine hAnswered hInside c' x p' ?_
          hHeard.authenticated hHeard.boots hHeard.time
          hReturned hCache hNow hFound
        rw [hHeard.response]
        exact ⟨hType, _, _, _, asked, m, hOpens, hSays⟩

/- A first attempt at another Engine. -/
theorem foreign_inevitable
    (hSsl : ssl.Documented)
    (hAccount : Account ssl E creds key privKey)
    (hInterlude : Interlude ssl c r task)
    (hPoint : task.point = .ensured none)
    (hWork : task.work = .v3 creds 0)
    (hEngine :
      c.cache.engineAt task.target.endpoint = some engine)
    (hShort : engine.engineId.length ≤ 65535)
    (hForeign : engine.engineId ≠ E.engineId)
    (hPdu : task.pdu.Sendable)
    (hThen :
      ∀ c',
        Interlude ssl c' r
          { task with
            work := .v3 creds 1
            point := .ensuring } →
        c'.cache =
          { c.cache with
            index :=
              c.cache.index.erase task.target.endpoint } →
        c'.now = c.now →
          Machine.Inevitable (step ssl) E.Serves P c') :
    Machine.Inevitable (step ssl) E.Serves P c := by
  refine send_inevitable hSsl hAccount hInterlude hPoint hWork
    hEngine hShort hPdu
    (R := fun p' => p'.response.type = .report ∧
      usmStatsCounter p'.response =
        some usmStatsUnknownEngineIds) ?_ ?_
  · intro c₁ ref key' privKey' datagram m _ _ hOpens _ _
      hFound
    have hOther : m.security.engineId ≠ E.engineId := by
      rw [hOpens.engineId]
      exact hForeign
    have hReports := hAccount.complies.foreign datagram m
      (by rw [hOpens.form.decode_eq]) hOther
    rw [hOpens.header_eq] at hReports
    rcases Authority.Says.heard_report hReports hFound rfl rfl
      nofun (Or.inr (by decide)) with
      ⟨p', report, hType, hCounter, hRoute, hHeard⟩
    exact ⟨p', hRoute, hHeard.response ▸ hType,
      hHeard.response ▸ hCounter⟩
  · rintro c' x p' ⟨hType, hCounter⟩ hReturned hCache hNow
      hFound
    refine answered_inevitable hReturned rfl hWork hFound
      (afterAnswer_retry hType
        (handleReport_foreign hCounter)) ?_
    refine hThen _ (hReturned.again _ creds 1) ?_ hNow
    change { c'.cache with
      index := c'.cache.index.erase task.target.endpoint } = _
    rw [hCache]

/- An Engine that is known need not be discovered. -/
theorem known_inevitable
    (hInterlude : Interlude ssl c r task)
    (hPoint : task.point = .ensuring)
    (hWork : task.work = .v3 creds attempt)
    (hEngine :
      c.cache.engineAt task.target.endpoint = some engine)
    (hSynced : engine.timeSynced = true)
    (hThen :
      ∀ c', Interlude ssl c' r (task.goto (.ensured none)) →
        c'.cache = c.cache → c'.now = c.now →
          Machine.Inevitable (step ssl) E.Serves P c') :
    Machine.Inevitable (step ssl) E.Serves P c := by
  refine hInterlude.scene.step_inevitable
    (by rw [hPoint]; rfl) ?_
  intro out _
  refine ⟨c, task.goto (.ensured none), ?_, ?_⟩
  · simp only [runTask, hPoint, hWork, ensureEngine]
    rw [hEngine, Option.any_some, hSynced, Bool.or_true,
      if_pos rfl]
  · exact hThen _ (hInterlude.move
      (hInterlude.scene.goto [] (.ensured none))
      hInterlude.clear rfl (Frame.place c r [] _).others rfl)
      rfl rfl

end Snmpio

------------------------------------------------------------
-- Requests
------------------------------------------------------------

namespace Snmpio

variable {ssl : OpenSsl} {E : Authority} {c c' : Client}
variable {P : Client → Prop} {r attempt : Nat} {task : Task}
variable {creds : Credentials} {key privKey : Octets}
variable {engine : EngineState} {now : Int}
variable {endpoint : Endpoint} {pdu : Pdu}
variable {cache : EngineCache}

/- The Client trusts a pair of the Engine's. -/
def Authority.Known
    (E : Authority)
    (cache : EngineCache)
    (endpoint : Endpoint) : Prop :=
  ∃ engine, E.Placed cache endpoint engine ∧
    engine.timeSynced = true

/- What a request comes to, whether or not it succeeds. -/
structure Authority.Settles
    (ssl : OpenSsl)
    (E : Authority)
    (endpoint : Endpoint)
    (now : Int)
    (r : Nat)
    (c : Client) : Prop where
  ready : c.Ready ssl endpoint
  now : c.now = now
  known : E.Known c.cache endpoint
  leads : E.Leads c.cache
  completed :
    ∃ task ec resp, c.tasks[r]? = some task ∧
      task.point = .completed ec resp

/- And if it does. -/
structure Authority.Satisfies
    (ssl : OpenSsl)
    (E : Authority)
    (creds : Credentials)
    (key privKey : Octets)
    (pdu : Pdu)
    (endpoint : Endpoint)
    (now : Int)
    (r : Nat)
    (c : Client) : Prop where
  settles : E.Settles ssl endpoint now r c
  answered :
    ∃ task response, c.tasks[r]? = some task ∧
      task.point = .completed (toResult response).1
        (toResult response).2 ∧
      E.Answers ssl creds key privKey pdu response

theorem Authority.Placed.leads
    (hPlaced : E.Placed cache endpoint engine)
    (hTime :
      engine.timeSynced = true → engine.boots = E.boots →
        engine.time ≤ E.time) :
    E.Leads cache := by
  intro found hFound
  rw [hPlaced.entry] at hFound
  cases hFound
  exact hTime

/- An Engine that has just told its pair is placed with it. -/
theorem Authority.Placed.fresh
    (hPlaced : E.Placed cache endpoint (E.stateAt now)) :
    E.Known cache endpoint ∧ E.Leads cache :=
  ⟨⟨_, hPlaced, rfl⟩,
    hPlaced.leads (fun _ _ => Int32.le_refl _)⟩

/- An attempt that the Engine accepts. -/
theorem satisfied_inevitable
    (hBelow : E.boots ≠ bootsCeiling)
    (hInterlude : Interlude ssl c r task)
    {x : Exchange}
    {p : Pending}
    (hPoint : task.point = .returned x none)
    (hWork : task.work = .v3 creds attempt)
    (hPlaced : E.Placed c.cache task.target.endpoint engine)
    (hLeads : E.Leads c.cache)
    (hSynced : engine.timeSynced = true)
    (hBoots : engine.boots = E.boots)
    (hAnswers :
      E.Answers ssl creds key privKey task.pdu p.response)
    (hSigned : p.replyAuthenticated = true)
    (hHeardBoots : p.security.boots = E.boots)
    (hHeardTime : p.security.time = E.time)
    (hFound : c.pendings[x.pending]? = some p) :
    Machine.Inevitable (step ssl) E.Serves
      (E.Satisfies ssl creds key privKey task.pdu
        task.target.endpoint c.now r) c := by
  refine answered_inevitable hInterlude hPoint hWork hFound
    (afterAnswer_response hAnswers.1 hSigned) (.here ?_)
  have hObserved :
      E.Placed
        (c.cache.observeEngineTime c.now task.target.endpoint
          p.security)
        task.target.endpoint (E.stateAt c.now) :=
    hPlaced.observe hBelow
      (by rw [hBoots]; exact Int32.lt_irrefl)
      (hLeads engine hPlaced.entry hSynced) hHeardBoots
      hHeardTime
  rcases hInterlude.completed
    (c.cache.observeEngineTime c.now task.target.endpoint
      p.security)
    (toResult p.response).1 (toResult p.response).2 with
    ⟨hReady, hDone⟩
  exact ⟨⟨hReady, rfl, hObserved.fresh.1, hObserved.fresh.2,
    _, _, _, hDone, rfl⟩, _, _, hDone, rfl, hAnswers⟩

/- With the Engine's own pair, it accepts. -/
theorem fresh_inevitable
    (hSsl : ssl.Documented)
    (hAccount : Account ssl E creds key privKey)
    (hInterlude : Interlude ssl c r task)
    (hPoint : task.point = .ensured none)
    (hWork : task.work = .v3 creds attempt)
    (hPlaced :
      E.Placed c.cache task.target.endpoint
        (E.stateAt c.now))
    (hPdu : task.pdu.Sendable) :
    Machine.Inevitable (step ssl) E.Serves
      (E.Satisfies ssl creds key privKey task.pdu
        task.target.endpoint c.now r) c := by
  have hBelow := hAccount.complies.below
  have hLeads := hPlaced.fresh.2
  refine own_inevitable hSsl hAccount hInterlude hPoint hWork
    hPlaced (fun _ _ => E.not_clipped_stateAt c.now) hPdu ?_
    ?_
  · intro _ c' x p hAnswers hSigned hBoots hTime hReturned
      hCache hNow hFound
    rw [← hCache] at hPlaced hLeads
    rw [← hNow]
    have hDone :=
      satisfied_inevitable hBelow hReturned rfl hWork
        hPlaced hLeads rfl rfl hAnswers hSigned hBoots hTime
        hFound
    exact hDone
  · intro hRefused
    exact absurd (E.accepts_stateAt hBelow c.now) hRefused

/- A first attempt heals what a second one needs. -/
theorem healing_inevitable
    (hSsl : ssl.Documented)
    (hAccount : Account ssl E creds key privKey)
    (hInterlude : Interlude ssl c r task)
    (hPoint : task.point = .ensured none)
    (hWork : task.work = .v3 creds 0)
    (hPlaced : E.Placed c.cache task.target.endpoint engine)
    (hSynced : engine.timeSynced = true)
    (hLeads : E.Leads c.cache)
    (hUnclipped : E.Unclipped c.cache c.now)
    (hPdu : task.pdu.Sendable) :
    Machine.Inevitable (step ssl) E.Serves
      (E.Satisfies ssl creds key privKey task.pdu
        task.target.endpoint c.now r) c := by
  have hBelow := hAccount.complies.below
  refine own_inevitable hSsl hAccount hInterlude hPoint hWork
    hPlaced (hUnclipped engine hPlaced.entry) hPdu ?_ ?_
  · intro hAccepts c' x p hAnswers hSigned hBoots hTime
      hReturned hCache hNow hFound
    rw [← hCache] at hPlaced hLeads
    rw [← hNow]
    have hDone :=
      satisfied_inevitable hBelow hReturned rfl hWork
        hPlaced hLeads hSynced hAccepts.2.1 hAnswers hSigned
        hBoots hTime hFound
    exact hDone
  · intro _ c' x p hType hCounter hSigned hBoots hTime
      hReturned hCache hNow hFound
    rw [← hCache] at hPlaced hLeads
    rw [← hNow]
    refine answered_inevitable hReturned rfl hWork hFound
      (afterAnswer_retry hType
        (handleReport_untimely hPlaced.engineAt hSynced
          hCounter hSigned)) ?_
    have hAgain := hReturned.again
      (if p.security.boots < engine.boots then
        c'.cache.setEngineAt task.target.endpoint
          { engine with timeSynced := false }
      else
        c'.cache.observeEngineTime c'.now task.target.endpoint
          p.security) creds 1
    by_cases hLower : p.security.boots < engine.boots
    · -- The pair is forgotten, and discovered again.
      rw [if_pos hLower] at hAgain ⊢
      have hForgotten :
          E.Placed
            (c'.cache.setEngineAt task.target.endpoint
              { engine with timeSynced := false })
            task.target.endpoint
            { engine with timeSynced := false } :=
        hPlaced.set hPlaced.engineId
      refine discovery_inevitable hSsl hAccount hAgain rfl rfl
        (by
          change ((c'.cache.setEngineAt task.target.endpoint
            { engine with timeSynced := false }).engineAt
              task.target.endpoint).any _ = false
          rw [hForgotten.engineAt]
          rfl) ?_
      intro c₁ hEnsured hCache₁ hNow₁
      have hFresh :
          E.Placed c₁.cache task.target.endpoint
            (E.stateAt c₁.now) := by
        rw [hCache₁, hNow₁]
        exact hForgotten.discovered rfl
      have hDone :=
        fresh_inevitable hSsl hAccount hEnsured rfl rfl hFresh
          hPdu
      rw [hNow₁] at hDone
      exact hDone
    · -- The Engine's pair is adopted.
      rw [if_neg hLower] at hAgain ⊢
      have hAdopted :
          E.Placed
            (c'.cache.observeEngineTime c'.now
              task.target.endpoint p.security)
            task.target.endpoint (E.stateAt c'.now) :=
        hPlaced.observe hBelow (hBoots ▸ hLower)
          (hLeads engine hPlaced.entry hSynced) hBoots hTime
      refine known_inevitable hAgain rfl rfl
        hAdopted.engineAt rfl ?_
      intro c₁ hEnsured hCache₁ hNow₁
      have hFresh :
          E.Placed c₁.cache task.target.endpoint
            (E.stateAt c₁.now) := by
        rw [hCache₁, hNow₁]
        exact hAdopted
      have hDone :=
        fresh_inevitable hSsl hAccount hEnsured rfl rfl hFresh
          hPdu
      rw [hNow₁] at hDone
      exact hDone

/- A second attempt leaves the Engine known. -/
theorem last_inevitable
    (hSsl : ssl.Documented)
    (hAccount : Account ssl E creds key privKey)
    (hInterlude : Interlude ssl c r task)
    (hPoint : task.point = .ensured none)
    (hWork : task.work = .v3 creds 1)
    (hPlaced : E.Placed c.cache task.target.endpoint engine)
    (hSynced : engine.timeSynced = true)
    (hLeads : E.Leads c.cache)
    (hUnclipped : E.Unclipped c.cache c.now)
    (hPdu : task.pdu.Sendable) :
    Machine.Inevitable (step ssl) E.Serves
      (E.Settles ssl task.target.endpoint c.now r) c := by
  have hBelow := hAccount.complies.below
  refine own_inevitable hSsl hAccount hInterlude hPoint hWork
    hPlaced (hUnclipped engine hPlaced.entry) hPdu ?_ ?_
  · intro hAccepts c' x p hAnswers hSigned hBoots hTime
      hReturned hCache hNow hFound
    rw [← hCache] at hPlaced hLeads
    rw [← hNow]
    refine (satisfied_inevitable hBelow hReturned rfl hWork
      hPlaced hLeads hSynced hAccepts.2.1 hAnswers hSigned
      hBoots hTime hFound).trans ?_
    exact fun c₁ hDone => .here hDone.settles
  · intro _ c' x p hType hCounter hSigned hBoots hTime
      hReturned hCache hNow hFound
    refine answered_inevitable hReturned rfl hWork hFound
      (afterAnswer_final hType hCounter) (.here ?_)
    rcases hReturned.completed c'.cache
      (some (.errc (reportError
        (some usmStatsNotInTimeWindows)))) {} with
      ⟨hReady, hDone⟩
    rw [← hCache] at hPlaced hLeads
    exact ⟨hReady, hNow, ⟨engine, hPlaced, hSynced⟩, hLeads, _,
      _, _, hDone, rfl⟩

/- A discovery changes nothing about the Engine's pair. -/
theorem EngineCache.Keyed.rediscovered
    (hKeyed : cache.Keyed)
    (hShort : E.engineId.length ≤ 65535)
    (hLeads : E.Leads cache)
    (hUnclipped : E.Unclipped cache now)
    (endpoint : Endpoint) :
    ∃ engine,
      E.Placed (cache.discovered now endpoint E) endpoint
          engine ∧
        engine.timeSynced = true ∧
        E.Leads (cache.discovered now endpoint E) ∧
        E.Unclipped (cache.discovered now endpoint E) now := by
  rcases hKeyed.discovered hShort now endpoint with
    ⟨engine, hPlaced, hSynced, hOrigin⟩
  have hBoth :
      (engine.timeSynced = true → engine.boots = E.boots →
          engine.time ≤ E.time) ∧
        (engine.timeSynced = true → engine.boots = E.boots →
          ¬ engine.Clipped now E) := by
    rcases hOrigin with rfl | hOld
    · exact ⟨fun _ _ => Int32.le_refl _,
        fun _ _ => E.not_clipped_stateAt now⟩
    · exact ⟨hLeads engine hOld, hUnclipped engine hOld⟩
  refine ⟨engine, hPlaced, hSynced, hPlaced.leads hBoth.1, ?_⟩
  intro found hFound
  rw [hPlaced.entry] at hFound
  cases hFound
  exact hBoth.2

theorem EngineCache.engineAt_erase
    (cache : EngineCache)
    (endpoint : Endpoint) :
    EngineCache.engineAt
      { cache with index := cache.index.erase endpoint }
      endpoint = none := by
  rw [engineAt, AList.lookup_erase, Option.bind_none]

/- An Engine is trusted at the endpoint, or none is. -/
theorem EngineCache.trusted_cases
    (cache : EngineCache)
    (endpoint : Endpoint) :
    (cache.engineAt endpoint).any
        (fun engine => engine.timeSynced) = false ∨
      ∃ engine, cache.engineAt endpoint = some engine ∧
        engine.timeSynced = true := by
  cases hEngine : cache.engineAt endpoint with
  | none => exact Or.inl rfl
  | some engine =>
      cases hSynced : engine.timeSynced with
      | false => exact Or.inl hSynced
      | true => exact Or.inr ⟨engine, rfl, hSynced⟩

theorem EngineCache.Keyed.short
    (hKeyed : cache.Keyed)
    (hEngine : cache.engineAt endpoint = some engine) :
    engine.engineId.length ≤ 65535 := by
  rcases engineAt_eq_some.mp hEngine with
    ⟨engineId, _, hLookup⟩
  rcases hKeyed engineId engine hLookup with ⟨rfl, hShort⟩
  exact hShort

theorem EngineCache.Keyed.placed_of_engineAt
    (hKeyed : cache.Keyed)
    (hEngine : cache.engineAt endpoint = some engine)
    (hEngineId : engine.engineId = E.engineId) :
    E.Placed cache endpoint engine := by
  rcases engineAt_eq_some.mp hEngine with
    ⟨engineId, hIndex, hLookup⟩
  have hSame := (hKeyed engineId engine hLookup).1
  rw [hEngineId] at hSame
  subst hSame
  exact ⟨hKeyed, hIndex, hLookup⟩

/- Unless another Engine is trusted, the request succeeds. -/
theorem ensuring_satisfies
    (hSsl : ssl.Documented)
    (hAccount : Account ssl E creds key privKey)
    (hInterlude : Interlude ssl c r task)
    (hPoint : task.point = .ensuring)
    (hWork : task.work = .v3 creds 0)
    (hKeyed : c.cache.Keyed)
    (hLeads : E.Leads c.cache)
    (hUnclipped : E.Unclipped c.cache c.now)
    (hPdu : task.pdu.Sendable)
    (hNear :
      ∀ engine,
        c.cache.engineAt task.target.endpoint = some engine →
          engine.timeSynced = true →
            engine.engineId = E.engineId) :
    Machine.Inevitable (step ssl) E.Serves
      (E.Satisfies ssl creds key privKey task.pdu
        task.target.endpoint c.now r) c := by
  have hShort := hAccount.complies.short
  rcases c.cache.trusted_cases task.target.endpoint with
    hUnknown | ⟨engine, hEngine, hSynced⟩
  · refine discovery_inevitable hSsl hAccount hInterlude
      hPoint hWork hUnknown ?_
    intro c₁ hEnsured hCache hNow
    rcases hKeyed.rediscovered (by omega) hLeads hUnclipped
      task.target.endpoint with
      ⟨engine, hPlaced, hSynced, hLeads', hUnclipped'⟩
    rw [← hCache] at hPlaced hLeads' hUnclipped'
    rw [← hNow] at hUnclipped' ⊢
    have hDone :=
      healing_inevitable hSsl hAccount hEnsured rfl hWork
        hPlaced hSynced hLeads' hUnclipped' hPdu
    exact hDone
  · have hPlaced :=
      hKeyed.placed_of_engineAt hEngine
        (hNear engine hEngine hSynced)
    refine known_inevitable hInterlude hPoint hWork hEngine
      hSynced ?_
    intro c₁ hEnsured hCache hNow
    rw [← hCache] at hPlaced hLeads hUnclipped
    rw [← hNow] at hUnclipped ⊢
    have hDone :=
      healing_inevitable hSsl hAccount hEnsured rfl hWork
        hPlaced hSynced hLeads hUnclipped hPdu
    exact hDone

/- In any case it leaves the Engine known. -/
theorem ensuring_settles
    (hSsl : ssl.Documented)
    (hAccount : Account ssl E creds key privKey)
    (hInterlude : Interlude ssl c r task)
    (hPoint : task.point = .ensuring)
    (hWork : task.work = .v3 creds 0)
    (hKeyed : c.cache.Keyed)
    (hLeads : E.Leads c.cache)
    (hUnclipped : E.Unclipped c.cache c.now)
    (hPdu : task.pdu.Sendable) :
    Machine.Inevitable (step ssl) E.Serves
      (E.Settles ssl task.target.endpoint c.now r) c := by
  by_cases hNear :
      ∀ engine,
        c.cache.engineAt task.target.endpoint = some engine →
          engine.timeSynced = true →
            engine.engineId = E.engineId
  · refine (ensuring_satisfies hSsl hAccount hInterlude hPoint
      hWork hKeyed hLeads hUnclipped hPdu hNear).trans ?_
    exact fun c₁ hDone => .here hDone.settles
  · -- The first attempt is spent on another Engine.
    simp only [not_forall] at hNear
    rcases hNear with ⟨engine, hEngine, hSynced, hForeign⟩
    have hShort := hAccount.complies.short
    refine known_inevitable hInterlude hPoint hWork hEngine
      hSynced ?_
    intro c₁ hEnsured hCache₁ hNow₁
    rw [← hCache₁] at hEngine hKeyed hLeads hUnclipped
    rw [← hNow₁] at hUnclipped ⊢
    refine foreign_inevitable hSsl hAccount hEnsured rfl hWork
      hEngine (hKeyed.short hEngine) hForeign hPdu ?_
    intro c₂ hAgain hCache₂ hNow₂
    have hUnknown :
        (c₂.cache.engineAt task.target.endpoint).any
          (fun engine => engine.timeSynced) = false := by
      rw [hCache₂]
      exact congrArg _ (EngineCache.engineAt_erase _ _)
    refine discovery_inevitable hSsl hAccount hAgain rfl rfl
      hUnknown ?_
    intro c₃ hEnsured₃ hCache₃ hNow₃
    have hKept :
        c₂.cache.Keyed ∧ E.Leads c₂.cache ∧
          E.Unclipped c₂.cache c₂.now := by
      rw [hCache₂, hNow₂]
      exact ⟨hKeyed, hLeads, hUnclipped⟩
    rcases hKept.1.rediscovered (by omega) hKept.2.1 hKept.2.2
      task.target.endpoint with
      ⟨engine', hPlaced, hSynced', hLeads', hUnclipped'⟩
    rw [← hNow₂, ← hNow₃]
    have hDone :=
      last_inevitable hSsl hAccount hEnsured₃ rfl rfl
        (hCache₃ ▸ hPlaced) hSynced' (hCache₃ ▸ hLeads')
        (hCache₃ ▸ hNow₃ ▸ hUnclipped') hPdu
    exact hDone

/- A request that a Client with nothing to do begins. -/
theorem request_inevitable
    {target : Target}
    (hRetries : 0 ≤ target.retries)
    (hTimeout : target.Waits c.now)
    (hReady : c.Ready ssl target.endpoint)
    (hValid : creds.Valid)
    (hRequest :
      step ssl c (.request target (.credentials creds) pdu) =
        some c')
    (hThen :
      ∀ c₁,
        Interlude ssl c₁ c.tasks.length
          { work := .v3 creds 0
            target := target
            pdu := pdu
            point := .ensuring } →
        c₁.cache = c.cache → c₁.now = c.now →
          Machine.Inevitable (step ssl) E.Serves P c₁) :
    Machine.Inevitable (step ssl) E.Serves P c' := by
  let task : Task :=
    { work := .v3 creds 0, target := target, pdu := pdu }
  have hSpawned : c.spawn task = c' := by
    simp only [step, Client.isIdle, hReady.idle,
      List.isEmpty_nil, if_true] at hRequest
    exact Option.some.inj hRequest
  subst hSpawned
  have hRest :
      ∀ i other, (c.spawn task).tasks[i]? = some other →
        i ≠ c.tasks.length → other.point.isOver = true := by
    intro i other hOther hNe
    rcases getElem?_concat_cases hOther with hOld | ⟨hIs, _⟩
    · exact hReady.rest i other hOld
    · exact absurd hIs hNe
  have hScene :
      Scene ssl (c.spawn task) c.tasks.length task
        [c.tasks.length] := by
    refine ⟨hReady.going, hReady.socket, hReady.keys,
      List.getElem?_concat_length, ?_, ?_, hRetries, hTimeout,
      rfl⟩
    · intro i other hOther hNe
      exact Point.isInert_of_isOver (hRest i other hOther hNe)
    · change c.tasks.length :: c.strand = _
      rw [hReady.idle]
  refine hScene.step_inevitable rfl ?_
  intro out _
  have hStart :
      startV3 (c.spawn task) task creds =
        task.goto .ensuring := by
    rw [startV3, if_neg, if_neg, if_neg]
    · rintro ⟨hLevel, hNone⟩
      exact hValid.usable.1 hLevel hNone
    · rintro ⟨hLevel, hNone⟩
      exact hValid.usable.2 hLevel hNone
    · rw [hScene.going]
      decide
  refine ⟨c.spawn task, task.goto .ensuring, ?_, ?_⟩
  · simp only [runTask, task]
    exact congrArg (fun next => some (c.spawn task, next, none))
      hStart
  · have hBegun :
        Interlude ssl (c.spawn task) c.tasks.length task :=
      ⟨hScene, hReady.clear, hReady.vacant, hRest⟩
    exact hThen _ (hBegun.move (hScene.goto [] .ensuring)
      hReady.clear rfl (Frame.place _ _ [] _).others rfl) rfl
      rfl

end Snmpio

------------------------------------------------------------
-- Two Requests
------------------------------------------------------------

namespace Snmpio

variable {ssl : OpenSsl} {E : Authority} {c c' : Client}
variable {creds : Credentials} {key privKey : Octets}
variable {pdu : Pdu}

/-
  The same Engine, at a later request.  It may have been
  restarted, but not into boots that the Client already has
  a later time for.
-/
structure Authority.Remains
    (E E' : Authority)
    (cache : EngineCache)
    (now : Int) : Prop where
  engineId : E'.engineId = E.engineId
  later : E'.boots = E.boots → E.time ≤ E'.time
  leads : E'.boots ≠ E.boots → E'.Leads cache
  unclipped : E'.Unclipped cache now

theorem Authority.Remains.leads_of
    {E' : Authority}
    {cache : EngineCache}
    {now : Int}
    (hRemains : E.Remains E' cache now)
    (hLeads : E.Leads cache) :
    E'.Leads cache := by
  by_cases hBoots : E'.boots = E.boots
  · intro engine hEntry hSynced hSame
    rw [hRemains.engineId] at hEntry
    exact Int32.le_trans
      (hLeads engine hEntry hSynced (hSame.trans hBoots))
      (hRemains.later hBoots)
  · exact hRemains.leads hBoots

/-
  Of two requests to a Target at which only its Engine
  answers, the second completes with its Response.
-/
theorem second_request_answered
    (hSsl : ssl.Documented)
    {target : Target}
    (hRetries : 0 ≤ target.retries)
    (hTimeout : target.Waits c.now)
    (hReady : c.Ready ssl target.endpoint)
    (hKeyed : c.cache.Keyed)
    (hLeads : E.Leads c.cache)
    (hUnclipped : E.Unclipped c.cache c.now)
    (hAccount : Account ssl E creds key privKey)
    (hPdu : pdu.Sendable)
    (hFirst :
      step ssl c (.request target (.credentials creds) pdu) =
        some c') :
    Machine.Inevitable (step ssl) E.Serves
      (fun c₁ =>
        E.Settles ssl target.endpoint c.now c.tasks.length
            c₁ ∧
          ∀ (elapsed : Nat) (E' : Authority)
            (creds' : Credentials) (key' privKey' : Octets)
            (pdu' : Pdu) (c₂ c₃ : Client),
            target.Waits (c₁.now + elapsed) →
            E.Remains E' c₁.cache (c₁.now + elapsed) →
            Account ssl E' creds' key' privKey' →
            pdu'.Sendable →
            step ssl c₁ (.tick elapsed) = some c₂ →
            step ssl c₂
                (.request target (.credentials creds') pdu') =
              some c₃ →
              Machine.Inevitable (step ssl) E'.Serves
                (E'.Satisfies ssl creds' key' privKey' pdu'
                  target.endpoint (c₁.now + elapsed)
                  c₁.tasks.length) c₃) c' := by
  refine request_inevitable hRetries hTimeout hReady
    hAccount.valid hFirst ?_
  intro c₀ hBegun hCache₀ hNow₀
  rw [← hCache₀] at hKeyed hLeads hUnclipped
  rw [← hNow₀] at hUnclipped ⊢
  refine (ensuring_settles hSsl hAccount hBegun rfl rfl hKeyed
    hLeads hUnclipped hPdu).trans ?_
  intro c₁ hSettles
  refine .here ⟨hSettles, ?_⟩
  intro elapsed E' creds' key' privKey' pdu' c₂ c₃ hTimeout'
    hRemains hAccount' hPdu' hTick hSecond
  cases hTick
  have hReady₁ := hSettles.ready
  have hReady₂ :
      Client.Ready ssl target.endpoint
        { c₁ with now := c₁.now + elapsed } :=
    ⟨hReady₁.going, hReady₁.socket, hReady₁.keys,
      hReady₁.clear, hReady₁.vacant, hReady₁.idle,
      hReady₁.rest⟩
  rcases hSettles.known with ⟨engine, hPlaced, _⟩
  refine request_inevitable hRetries hTimeout' hReady₂
    hAccount'.valid hSecond ?_
  intro c₄ hAgain hCache hNow
  have hDone :=
    ensuring_satisfies hSsl hAccount' hAgain rfl rfl
      (hCache ▸ hPlaced.keyed)
      (hCache ▸ hRemains.leads_of hSettles.leads)
      (hCache ▸ hNow ▸ hRemains.unclipped) hPdu' ?_
  · rw [hNow] at hDone
    exact hDone
  · intro other hOther _
    rw [hCache] at hOther
    have hSame := hPlaced.engineAt.symm.trans hOther
    cases hSame
    exact hPlaced.engineId.trans hRemains.engineId.symm

end Snmpio

------------------------------------------------------------
-- An Agent's Clock
------------------------------------------------------------

namespace Snmpio

variable {usm : UsmParameters}

def clockUsm
    (time : Int32) : UsmParameters :=
  { agentUsm with time := time }

/- More of the messages that are signed, as in `agentMacs`. -/
def clockMacs : List (Octets × Octets) :=
  let blank := agentMessage OpenSsl.copying .authNoPriv
  [(blank 2 (clockUsm 2146483747)
      (usmReport usmStatsNotInTimeWindows),
    [0xB9, 0x73, 0x6C, 0xE6, 0xB2, 0xDC, 0xD8, 0xE1,
      0x43, 0x14, 0x75, 0xC2, 0x07, 0xF7, 0x3B, 0x5C]),
  (blank 3 (clockUsm 2146483747)
      { upTimeRequest with requestId := 3 },
    [0xA6, 0x15, 0x44, 0x31, 0xE7, 0x9D, 0xB2, 0xE2,
      0xC6, 0x3D, 0x23, 0x9C, 0xD7, 0x0D, 0xEB, 0x72]),
  (blank 3 (clockUsm 2146483747) (upTimeResponse 3),
    [0xBB, 0x09, 0x25, 0xDA, 0xFD, 0x19, 0x44, 0xC2,
      0xB5, 0x03, 0x19, 0x83, 0xE6, 0x91, 0x12, 0x7A]),
  (blank 4 (clockUsm 2147483647)
      { upTimeRequest with requestId := 4 },
    [0x99, 0xEE, 0xA0, 0x72, 0x8F, 0xBE, 0xEC, 0x7D,
      0x25, 0xCD, 0x10, 0xCD, 0x5A, 0x18, 0x59, 0xE4]),
  (blank 4 (clockUsm 2147483547) (upTimeResponse 4),
    [0x93, 0x90, 0x28, 0x8C, 0x0B, 0x22, 0xDF, 0x7D,
      0x60, 0x97, 0x5D, 0xEE, 0x9F, 0xC3, 0x55, 0xDD]),
  (blank 4 (clockUsm 1010)
      { upTimeRequest with requestId := 4 },
    [0xA1, 0x02, 0x89, 0xE3, 0x16, 0x26, 0xD9, 0xBA,
      0xCF, 0x34, 0x2F, 0xA5, 0x80, 0xBF, 0xF3, 0xD8]),
  (blank 4 (clockUsm 1010) (upTimeResponse 4),
    [0x05, 0x12, 0x1E, 0xF3, 0xAA, 0xF2, 0x97, 0x53,
      0x80, 0x76, 0xBF, 0x60, 0xB1, 0xC1, 0x6E, 0x79])]

def clockSsl : OpenSsl :=
  { agentDocumentedSsl with
    hmac := fun p key keyLen message =>
      match p, clockMacs.lookup message with
      | .md5, some mac => some mac
      | _, _ => agentDocumentedSsl.hmac p key keyLen message }

theorem clockSsl_documented :
    clockSsl.Documented where
  digest_width := agentDocumentedSsl_documented.digest_width
  hmac_width := by
    intro p hp key keyLen message
    have hAgent :=
      agentDocumentedSsl_documented.hmac_width p hp key keyLen
        message
    unfold clockSsl
    dsimp only
    split
    · next mac hMac =>
      have hAll :
          ∀ entry ∈ clockMacs, entry.2.length = 16 := by
        simp [clockMacs]
      rcases List.lookup_eq_some_iff.mp hMac with
        ⟨before, after, hSplit, _⟩
      exact ⟨mac, rfl,
        hAll (message, mac) (by simp [hSplit])⟩
    · exact hAgent
  legacy_loaded := rfl
  fetched := fun _ => rfl
  initialised := fun _ _ _ _ _ _ => rfl
  update_inverse := OpenSsl.copying_documented.update_inverse
  final_empty := fun _ _ _ _ _ _ _ _ => rfl

/- The Agent, when its clock shows this time. -/
def clockAgent
    (time : Int32) : Authority :=
  { engineId := agentEngineId
    boots := agentUsm.boots
    time := time
    answer := fun asked =>
      match (decodeV3Message asked).1 with
      | none => []
      | some msg =>
          let id := msg.header.msgId
          let security := msg.security
          let unsigned := fun counter =>
            agentMessage clockSsl .noAuthNoPriv id
              { clockUsm time with userName := [] }
              (usmReport counter)
          if security.engineId ≠ agentEngineId then
            unsigned usmStatsUnknownEngineIds
          else if verifyAuth clockSsl asked msg .md5 agentKey ≠
              .ok () then
            unsigned usmStatsWrongDigests
          else if security.boots = agentUsm.boots ∧
              security.time.toInt ≤ time.toInt + 150 ∧
              time.toInt ≤ security.time.toInt + 150 then
            agentMessage clockSsl .authNoPriv id
              (clockUsm time)
              (upTimeResponse msg.scopedPdu.pdu.requestId)
          else
            agentMessage clockSsl .authNoPriv id
              (clockUsm time)
              (usmReport usmStatsNotInTimeWindows) }

theorem agentMessage_opens
    {ssl : OpenSsl}
    (hSsl : ssl.Documented)
    {level : SecurityLevel}
    (hOpen : level.isEncrypted = false)
    (hEngineId : usm.engineId.length ≤ 65535)
    (hUserName : usm.userName.length ≤ 65535)
    (hParams : usm.privParams = [])
    {pdu : Pdu}
    (hPdu : pdu.Sendable)
    (id : Int32) :
    ∃ m,
      Opens ssl { msgId := id, level := level } usm
        { contextEngineId := usm.engineId, pdu := pdu } .md5
        agentKey .none [] (agentMessage ssl level id usm pdu)
        m := by
  rcases encodeV3Message_builds hSsl
    (show V3Header.securityModel
      { msgId := id, level := level } = 3 from rfl)
    hPdu.encodable (fun _ => show AuthProtocol.md5 ≠ .none by
      decide)
    (fun hLevel => absurd hLevel (by rw [hOpen]; decide))
    (roomy_of_fits hEngineId hUserName hParams hEngineId
      hPdu.encodable hPdu.fits) agentKey 0 with
    ⟨d, m, hBuilt, hOpens⟩
  have hMessage : agentMessage ssl level id usm pdu = d := by
    rw [agentMessage, hBuilt]
    rfl
  rw [hMessage]
  exact ⟨m, hOpens⟩

theorem upTimeResponse_sendable
    (id : Int32) :
    (upTimeResponse id).Sendable := by
  have hAny : (upTimeResponse 0).Sendable :=
    ⟨by decide, by decide⟩
  exact ⟨hAny.encodable, hAny.fits⟩

theorem upTimeRequest_sendable : upTimeRequest.Sendable :=
  ⟨by decide, by decide⟩

/- Whatever the Agent signs is a message of the Engine. -/
theorem clockAgent_says
    (time : Int32)
    {level : SecurityLevel}
    (hOpen : level.isEncrypted = false)
    (hUsm :
      usm = clockUsm time ∨
        usm = { clockUsm time with userName := [] })
    {pdu : Pdu}
    (hPdu : pdu.Sendable)
    (id : Int32) :
    (clockAgent time).Says clockSsl agentUser agentKey [] level
      id pdu (agentMessage clockSsl level id usm pdu) := by
  have hName : agentUser.userName.length ≤ 65535 := by decide
  have hShort :
      usm.engineId = agentEngineId ∧
        usm.boots = agentUsm.boots ∧ usm.time = time ∧
        usm.userName.length ≤ 65535 ∧ usm.privParams = [] := by
    rcases hUsm with rfl | rfl
    · exact ⟨rfl, rfl, rfl, hName, rfl⟩
    · exact ⟨rfl, rfl, rfl, Nat.zero_le _, rfl⟩
  rcases hShort with
    ⟨hEngineId, hBoots, hTime, hUserName, hParams⟩
  rcases agentMessage_opens clockSsl_documented hOpen
    (by rw [hEngineId]; decide) hUserName hParams hPdu id with
    ⟨m, hOpens⟩
  exact .intro hOpens rfl rfl hEngineId hBoots hTime rfl

/- The user has no privacy, and so opens no such message. -/
theorem agentUser_open
    {header : V3Header}
    {scopedPdu : ScopedPdu}
    {asked : Octets}
    {m : V3Message}
    (hOpens :
      Opens clockSsl header usm scopedPdu .md5 agentKey .none
        [] asked m) :
    header.level.isEncrypted = false := by
  cases hLevel : header.level.isEncrypted with
  | false => rfl
  | true =>
      rcases hOpens.decrypted hLevel with ⟨m', hDecrypted, _⟩
      have hNone : privKeySize .none = 0 := rfl
      rw [decryptScopedPdu, privDecrypt,
        if_pos (Or.inr hNone)] at hDecrypted
      cases hDecrypted

/- How the Agent answers what the user has signed. -/
theorem clockAgent_answer
    (time : Int32)
    {header : V3Header}
    {scopedPdu : ScopedPdu}
    {asked : Octets}
    {m : V3Message}
    (hOpens :
      Opens clockSsl header usm scopedPdu .md5 agentKey .none
        [] asked m)
    (hSigned : header.level.isAuthenticated = true)
    (hEngineId : usm.engineId = agentEngineId) :
    (clockAgent time).answer asked =
      if usm.boots = agentUsm.boots ∧
          usm.time.toInt ≤ time.toInt + 150 ∧
          time.toInt ≤ usm.time.toInt + 150 then
        agentMessage clockSsl .authNoPriv header.msgId
          (clockUsm time)
          (upTimeResponse m.scopedPdu.pdu.requestId)
      else
        agentMessage clockSsl .authNoPriv header.msgId
          (clockUsm time)
          (usmReport usmStatsNotInTimeWindows) := by
  have hSame := hOpens.engineId.trans hEngineId
  unfold clockAgent
  dsimp only
  rw [hOpens.form.decode_eq]
  dsimp only
  rw [if_neg (not_not_intro hSame),
    if_neg (not_not_intro (hOpens.verified hSigned).2),
    hOpens.boots, hOpens.time, hOpens.header_eq]

theorem clockAgent_complies
    (time : Int32) :
    (clockAgent time).Complies clockSsl agentUser agentKey
      [] where
  below := show agentUsm.boots ≠ bootsCeiling by decide
  named := show agentEngineId ≠ [] by decide
  short := show agentEngineId.length ≤ 32 by decide
  foreign := by
    intro asked msg hDecoded hForeign
    have hAnswer :
        (clockAgent time).answer asked =
          agentMessage clockSsl .noAuthNoPriv msg.header.msgId
            { clockUsm time with userName := [] }
            (usmReport usmStatsUnknownEngineIds) := by
      unfold clockAgent
      dsimp only
      rw [hDecoded]
      exact if_pos hForeign
    rw [hAnswer]
    exact ⟨_, rfl, by decide, clockAgent_says time rfl
      (Or.inr rfl) ⟨by decide, by decide⟩ _⟩
  untimely := by
    intro asked header usm scopedPdu m hOpens hSigned hEngineId
      hOutside
    have hBelow : agentUsm.boots ≠ bootsCeiling := by decide
    have hLate :
        ¬ (usm.boots = agentUsm.boots ∧
          usm.time.toInt ≤ time.toInt + 150 ∧
          time.toInt ≤ usm.time.toInt + 150) :=
      fun hInside => hOutside ⟨hBelow, hInside⟩
    rw [clockAgent_answer time hOpens hSigned hEngineId,
      if_neg hLate]
    exact ⟨_, rfl, by decide, clockAgent_says time rfl
      (Or.inl rfl) ⟨by decide, by decide⟩ _⟩
  timely := by
    intro asked header usm scopedPdu m hOpens hSigned hEngineId
      hInside
    have hPlain := agentUser_open hOpens
    have hLevel : header.level = .authNoPriv := by
      cases hIs : header.level with
      | noAuthNoPriv =>
          rw [hIs] at hSigned
          cases hSigned
      | authNoPriv => rfl
      | authPriv =>
          rw [hIs] at hPlain
          cases hPlain
    have hWindow :
        usm.boots = agentUsm.boots ∧
          usm.time.toInt ≤ time.toInt + 150 ∧
          time.toInt ≤ usm.time.toInt + 150 :=
      hInside.2
    rw [clockAgent_answer time hOpens hSigned hEngineId,
      if_pos hWindow, hOpens.plain hPlain, hLevel]
    exact ⟨upTimeResponse scopedPdu.pdu.requestId, rfl, rfl,
      clockAgent_says time rfl (Or.inl rfl)
        (upTimeResponse_sendable _) _⟩

theorem agentKey_localized :
    requestAuthKey clockSsl agentUser agentEngineId =
      .ok agentKey := by
  decide +kernel

theorem clockAgent_account
    (time : Int32) :
    Account clockSsl (clockAgent time) agentUser agentKey [] :=
  ⟨clockAgent_complies time,
    ⟨⟨fun _ => by decide, fun hLevel => by cases hLevel⟩,
      fun _ => by decide, fun hLevel => by cases hLevel⟩,
    rfl, by decide, agentKey_localized, rfl⟩

theorem fresh_ready :
    (fresh 1 0).Ready clockSsl agentEndpoint where
  going := rfl
  socket := Or.inl rfl
  keys := fun _ _ hFound => by cases hFound
  clear := fun _ => rfl
  vacant := rfl
  idle := rfl
  rest := fun _ _ hFound => by cases hFound

theorem agentTarget_waits
    {now : Int}
    (hClock : now < clockEnd) :
    agentTarget.Waits now :=
  ⟨by decide, by decide, hClock⟩

/- Ten seconds lie between the two requests. -/
theorem second_request_answered_upTime :
    ∃ c, step clockSsl (fresh 1 0)
          (.request agentTarget (.credentials agentUser)
            upTimeRequest) = some c ∧
      Machine.Inevitable (step clockSsl)
        (clockAgent 1000).Serves
        (fun c₁ => ∃ c₂ c₃,
          step clockSsl c₁ (.tick 10000000000) = some c₂ ∧
            step clockSsl c₂
                (.request agentTarget (.credentials agentUser)
                  upTimeRequest) = some c₃ ∧
            Machine.Inevitable (step clockSsl)
              (clockAgent 1010).Serves
              ((clockAgent 1010).Satisfies clockSsl agentUser
                agentKey [] upTimeRequest agentEndpoint
                (c₁.now + 10000000000) c₁.tasks.length)
              c₃) c := by
  refine ⟨_, rfl, ?_⟩
  refine (second_request_answered clockSsl_documented
    (show 0 ≤ agentTarget.retries by decide)
    (agentTarget_waits (by decide)) fresh_ready
    (fun _ _ hFound => by cases hFound)
    (fun _ hFound => by cases hFound)
    (fun _ hFound => by cases hFound)
    (clockAgent_account 1000) upTimeRequest_sendable
    rfl).trans ?_
  rintro c₁ ⟨hSettles, hSecond⟩
  have hAgain :
      step clockSsl
          { c₁ with now := c₁.now + (10000000000 : Nat) }
          (.request agentTarget (.credentials agentUser)
            upTimeRequest) =
        some (Client.spawn
          { c₁ with now := c₁.now + (10000000000 : Nat) }
          { work := .v3 agentUser 0
            target := agentTarget
            pdu := upTimeRequest }) := by
    simp only [step, Client.isIdle, hSettles.ready.idle,
      List.isEmpty_nil, if_true]
    rfl
  refine .here ⟨_, _, rfl, hAgain, ?_⟩
  refine hSecond 10000000000 (clockAgent 1010) agentUser
    agentKey [] upTimeRequest _ _
    (agentTarget_waits ?_) ⟨rfl, fun _ => by decide,
      fun hNe => absurd rfl hNe, ?_⟩
    (clockAgent_account 1010) upTimeRequest_sendable rfl
    hAgain
  · rw [hSettles.now]
    decide
  · rintro engine _ _ _ ⟨hCeiling, _⟩
    exact absurd hCeiling (by decide)

/-
  The Agent's clock is a million seconds from its ceiling,
  less a hundred, when the Client first hears of it.
-/
def nearRun : List Event :=
  let answer := (clockAgent 2146483747).answer
  let signed := agentMessage clockSsl .authNoPriv
  [.request agentTarget (.credentials agentUser)
      upTimeRequest,
    ahead, ahead, ahead, ahead, ahead,
    .sent 1 none,
    .receive agentEndpoint
      (answer (agentMessage clockSsl .noAuthNoPriv 1 {}
        { requestId := 1 })),
    .resume 1, ahead, ahead, ahead, ahead,
    .sent 1 none,
    .receive agentEndpoint
      (answer (signed 2 syncUsm { requestId := 2 })),
    .resume 1, ahead, ahead, ahead,
    .resume 0, ahead, ahead,
    .sent 0 none,
    .receive agentEndpoint
      (answer (signed 3 (clockUsm 2146483747)
        { upTimeRequest with requestId := 3 })),
    .resume 0, ahead, ahead]

/- Its Response to a request that carries the ceiling. -/
def lateReply : Event :=
  .receive agentEndpoint
    ((clockAgent 2147483547).answer
      (agentMessage clockSsl .authNoPriv 4
        (clockUsm 2147483647)
        { upTimeRequest with requestId := 4 }))

/-
  The next request comes a million seconds later, and the
  Agent has lost two hundred of them.
-/
def lateRun : List Event :=
  [.tick 1000000000000000,
    .request agentTarget (.credentials agentUser)
      upTimeRequest,
    ahead, ahead, ahead, ahead,
    .sent 2 none, lateReply]

/- The request is sent once more, and waits again. -/
def latestRun : List Event :=
  [.tick 2000000000, .expire 2, .resume 2,
    .sent 2 none, lateReply,
    .tick 2000000000, .expire 2, .resume 2, ahead, ahead]

/- What is left when the Response has been dropped. -/
def lateExchange : Exchange :=
  { datagram :=
      agentMessage clockSsl .authNoPriv 4
        (clockUsm 2147483647)
        { upTimeRequest with requestId := 4 }
    key := 4
    pending := 3 }

def latePending : Pending :=
  { agentUser.asking agentEndpoint agentKey [] agentEngineId 4
      false with
    dropReason := some .notInTimeWindow }

theorem lateRun_facts :
    ((Machine.run (step clockSsl) (fresh 1 0)
      nearRun).bind (fun c₁ =>
        (Machine.run (step clockSsl) c₁ lateRun).bind
          (fun c₂ =>
            (Machine.run (step clockSsl) c₂ latestRun).map
              (fun c₃ => decide (
                c₁.tasks[0]? = some answeredTask ∧
                c₁.cache.engines.lookup agentEngineId =
                  some ((clockAgent 2146483747).stateAt 0) ∧
                c₂.strand = [] ∧
                c₂.tasks.map
                  (fun task => task.point.isInert) =
                    [true, true, false] ∧
                c₂.tasks[2]? = some
                  { work := .v3 agentUser 0
                    target := agentTarget
                    pdu := upTimeRequest
                    point := .waiting lateExchange
                      (c₂.now + 2000000000) false false } ∧
                c₂.pendings[3]? = some latePending ∧
                c₂.route clockSsl
                    ((clockAgent 2147483547).answer
                      lateExchange.datagram) agentEndpoint =
                  some (3, latePending,
                    .drop (some .notInTimeWindow)) ∧
                c₃.tasks[2]? = some
                  { work := .v3 agentUser 0
                    target := agentTarget
                    pdu := upTimeRequest
                    point := .completed
                      (some (.errc .notInTimeWindow))
                      {} }))))) =
      some true := by
  decide +kernel

/- A datagram dropped a second time changes nothing. -/
theorem receive_dropped
    {ssl : OpenSsl}
    {c : Client}
    {datagram : Octets}
    {sender : Endpoint}
    {ref : Nat}
    {p : Pending}
    {reason : Errc}
    (hRoute :
      c.route ssl datagram sender =
        some (ref, p, .drop (some reason)))
    (hp : c.pendings[ref]? = some p)
    (hDropped : p.dropReason = some reason) :
    c.receive ssl datagram sender = c := by
  rcases List.getElem?_eq_some_iff.mp hp with ⟨hBound, rfl⟩
  rw [receive_eq_route, hRoute]
  dsimp only [Client.applyVerdict]
  rw [← hDropped, List.set_getElem_self]

theorem clipped_response_dropped :
    let E := clockAgent 2146483747
    let E' := clockAgent 2147483547
    Account clockSsl E agentUser agentKey [] ∧
      Account clockSsl E' agentUser agentKey [] ∧
      (fresh 1 0).Ready clockSsl agentEndpoint ∧
      ∃ c₁ c₂ c₃,
        -- The first request is answered.
        Machine.run (step clockSsl) (fresh 1 0) nearRun =
            some c₁ ∧
          c₁.tasks[0]? = some answeredTask ∧
          E'.Leads c₁.cache ∧
          -- The second one has had its Response, and waits.
          Machine.run (step clockSsl) c₁ lateRun = some c₂ ∧
          (∃ task x, c₂.tasks[2]? = some task ∧
            task.point =
              .waiting x (c₂.now + 2000000000) false false) ∧
          (∀ e c', E'.Serves c₂ e →
            step clockSsl c₂ e = some c' → c' = c₂) ∧
          -- It completes once its time is over.
          Machine.run (step clockSsl) c₂ latestRun = some c₃ ∧
          ∃ task, c₃.tasks[2]? = some task ∧
            task.point = .completed
              (some (.errc .notInTimeWindow)) {} := by
  intro E E'
  refine ⟨clockAgent_account _, clockAgent_account _,
    fresh_ready, ?_⟩
  rcases Option.bind_eq_some_iff.mp lateRun_facts with
    ⟨c₁, hFirst, hRest⟩
  rcases Option.bind_eq_some_iff.mp hRest with
    ⟨c₂, hSecond, hRest⟩
  rcases Option.map_eq_some_iff.mp hRest with
    ⟨c₃, hThird, hFacts⟩
  rw [decide_eq_true_eq] at hFacts
  rcases hFacts with
    ⟨hAnswered, hEntry, hIdle, hInert, hTask, hp, hRoute,
      hDone⟩
  refine ⟨c₁, c₂, c₃, hFirst, hAnswered, ?_, hSecond,
    ⟨_, _, hTask, rfl⟩, ?_, hThird, _, hDone, rfl⟩
  · intro engine hFound _ _
    rw [show E'.engineId = agentEngineId from rfl, hEntry]
      at hFound
    cases hFound
    decide
  · intro e c' hServes hStep
    have hAlone : c₂.Alone 2 := by
      intro i other hOther hNe
      have hAt :
          (c₂.tasks.map
            (fun task => task.point.isInert))[i]? =
              some other.point.isInert := by
        rw [List.getElem?_map, hOther]
        rfl
      rw [hInert] at hAt
      match i, hNe, hAt with
      | 0, _, hAt => exact (Option.some.inj hAt).symm
      | 1, _, hAt => exact (Option.some.inj hAt).symm
      | 2, hNe, _ => exact absurd rfl hNe
    rcases idle_cases hIdle hTask hAlone hServes hStep with
      ⟨_, _, hNot⟩ | ⟨x, deadline, soft, hSame, rfl⟩ |
        ⟨_, ⟨_, _, _, hNot⟩ | ⟨_, hNot⟩⟩ |
        ⟨_, deadline, _, _, hSame, hPast⟩
    · cases hNot
    · cases hSame
      simp only [step] at hStep
      split at hStep
      · cases hStep
        exact receive_dropped hRoute hp rfl
      · cases hStep
    · cases hNot
    · cases hNot
    · cases hSame
      omega

end Snmpio
