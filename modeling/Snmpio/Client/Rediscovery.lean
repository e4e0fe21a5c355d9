import Snmpio.Client.Serving

/-
  A discovery that the Engine answers.

  Its two phases, and the request that waits for them, are
  followed to their end: the Engine is then in the cache,
  with the pair that had been trusted, or else with its own.

  Key definitions include:
    * `EngineCache.discovered`
    * `Errand`

  Key theorems include:
    * `discovery_inevitable`
-/

------------------------------------------------------------
-- The Cache
------------------------------------------------------------

namespace Snmpio

/- What a message of the Engine says about it. -/
def Authority.usm
    (E : Authority) : UsmParameters :=
  { engineId := E.engineId
    boots := E.boots
    time := E.time }

namespace EngineCache

variable {cache : EngineCache} {now : Int}
variable {endpoint : Endpoint} {engineId : Octets}
variable {usm usm' : UsmParameters}

theorem recordIdentity_congr
    (hEngineId : usm.engineId = usm'.engineId)
    (hBoots : usm.boots = usm'.boots)
    (hTime : usm.time = usm'.time) :
    cache.recordIdentity now endpoint usm =
      cache.recordIdentity now endpoint usm' := by
  unfold recordIdentity
  rw [hEngineId, hBoots, hTime]

theorem recordBaseline_congr
    (hBoots : usm.boots = usm'.boots)
    (hTime : usm.time = usm'.time) :
    cache.recordBaseline now engineId usm =
      cache.recordBaseline now engineId usm' := by
  unfold recordBaseline
  rw [hBoots, hTime]

/- A pair that is not trusted excludes nothing. -/
theorem timely_recordIdentity
    {sender : UsmParameters}
    (hUnsynced :
      ((cache.recordIdentity now endpoint
          sender).engines.lookup sender.engineId).any
        (fun engine => engine.timeSynced) = false) :
    (cache.recordIdentity now endpoint sender).timely now
      endpoint usm = true := by
  unfold recordIdentity at hUnsynced ⊢
  dsimp only at hUnsynced ⊢
  rw [AList.lookup_insert, Option.any_some] at hUnsynced
  unfold timely engineAt
  dsimp only
  rw [AList.lookup_insert, Option.bind_some,
    AList.lookup_insert]
  dsimp only
  rw [hUnsynced, if_pos (by decide)]

/- What a discovery answered by the Engine writes. -/
def discovered
    (cache : EngineCache)
    (now : Int)
    (endpoint : Endpoint)
    (E : Authority) : EngineCache :=
  let known := cache.recordIdentity now endpoint E.usm
  if (known.engines.lookup E.engineId).any
      (fun engine => engine.timeSynced) then
    known
  else known.recordBaseline now E.engineId E.usm

end EngineCache

end Snmpio

------------------------------------------------------------
-- The Identity Phase
------------------------------------------------------------

namespace Snmpio

variable {ssl : OpenSsl} {E : Authority} {c c' : Client}
variable {P : Client → Prop} {t r d : Nat}
variable {rest strand : List Nat} {task parent : Task}
variable {creds : Credentials} {key privKey : Octets}
variable {x : Exchange} {p : Pending}

/- Another coroutine is put where it does not matter. -/
theorem Frame.aside
    (hFrame : Frame t c c')
    (hNe : r ≠ t)
    (hParent : c.tasks[r]? = some parent)
    (rest rest' : List Nat)
    (other : Task) :
    Frame t (c.place r rest other) (c'.place r rest' other) := by
  refine ⟨hFrame.cache, hFrame.now, hFrame.keys,
    hFrame.discoveries, hFrame.discovering, ?_⟩
  intro i hOther
  have hParent' : c'.tasks[r]? = some parent :=
    (hFrame.others r hNe).trans hParent
  by_cases hSame : i = r
  · subst hSame
    have hHere :
        (c.place i rest other).tasks[i]? = some other :=
      List.getElem?_set_self
        (List.getElem?_eq_some_iff.mp hParent).1
    rw [hHere]
    exact List.getElem?_set_self
      (List.getElem?_eq_some_iff.mp hParent').1
  · have hThere :
        (c.place r rest other).tasks[i]? = c.tasks[i]? :=
      List.getElem?_set_ne (fun hEq => hSame hEq.symm)
    rw [hThere, ← hFrame.others i hOther]
    exact List.getElem?_set_ne (fun hEq => hSame hEq.symm)

theorem Scene.aside
    (hScene : Scene ssl c t task strand)
    (hNe : r ≠ t)
    {other : Task}
    (hInert : other.point.isInert = true)
    (rest : List Nat) :
    Scene ssl (c.place r rest other) t task
      (if other.point.runs then r :: rest else rest) := by
  refine ⟨hScene.going, hScene.socket, hScene.keys, ?_, ?_,
    rfl, hScene.retries, hScene.timeout, hScene.calm⟩
  · exact (List.getElem?_set_ne hNe).trans hScene.found
  · intro i found hFound hOther
    rcases place_task hFound with ⟨rfl, rfl⟩ | ⟨_, hOld⟩
    · exact hInert
    · exact hScene.alone i found hOld hOther

/- A coroutine moves without anybody else. -/
theorem Scene.step_inevitable
    (hScene : Scene ssl c t task (t :: rest))
    (hRuns : task.point.runs = true)
    (hNext :
      ∀ out : Outside, out.opened = none →
        ∃ c₁ task₁,
          runTask ssl out c task = some (c₁, task₁, none) ∧
            Machine.Inevitable (step ssl) E.Serves P
              (c₁.place t rest task₁)) :
    Machine.Inevitable (step ssl) E.Serves P c := by
  refine inevitable_advance hScene.strand hScene.found
    (hScene.still ?_) ?_
  · intro x deadline soft woken hWaiting
    rw [hWaiting] at hRuns
    cases hRuns
  · intro out hOpened
    rcases hNext out hOpened with ⟨c₁, task₁, hRun, hThen⟩
    exact ⟨c₁, task₁, none, hRun, hThen⟩

/- The parent of a discovery suspends. -/
theorem park_inevitable
    (hScene : Scene ssl c t task [r])
    {attempt : Nat}
    (hPoint : task.point = .sending x)
    (hParent : c.tasks[r]? = some parent)
    (hParking : parent.point = .parking d)
    (hWork : parent.work = .v3 creds attempt)
    (hThen :
      Machine.Inevitable (step ssl) E.Serves P
        (c.place r [] (parent.goto (.parked d false)))) :
    Machine.Inevitable (step ssl) E.Serves P c := by
  refine inevitable_advance hScene.strand hParent
    (hScene.still (by rw [hPoint]; nofun)) ?_
  intro out _
  refine ⟨c, parent.goto (.parked d false), none, ?_, hThen⟩
  simp only [runTask, hParking, hWork]

/- An exchange is made ready. -/
def Client.opening
    (c : Client)
    (p : Pending) : Client :=
  { c.takeNextId.2 with pendings := c.pendings ++ [p] }

theorem Client.opening_pending
    (c : Client)
    (p : Pending) :
    (c.opening p).pendings[c.pendings.length]? = some p :=
  List.getElem?_concat_length

theorem Scene.opening
    (hScene : Scene ssl c t task strand)
    (p : Pending) :
    Scene ssl (c.opening p) t task strand :=
  ⟨hScene.going, hScene.socket, hScene.keys, hScene.found,
    hScene.alone, hScene.strand, hScene.retries,
    hScene.timeout, hScene.calm⟩

theorem Frame.opening
    (t : Nat)
    (c : Client)
    (p : Pending) :
    Frame t c (c.opening p) :=
  ⟨rfl, rfl, rfl, rfl, rfl, fun _ _ => rfl⟩

theorem startIdentify_eq
    {out : Outside}
    {datagram : Octets}
    (hBuilt :
      (encodeV3Message ssl { msgId := c.nextId } {}
          (discoveryScopedPdu c.nextId []) .none [] .none []
          out.salt).1 = .ok datagram) :
    startIdentify ssl out c task =
      (c.opening {
          sender := task.target.endpoint
          v3 := true
          requestId := c.nextId },
        task.goto (.entering {
          datagram := datagram
          key := c.nextId
          pending := c.pendings.length })) := by
  unfold startIdentify Client.takeNextId
  dsimp only
  rw [hBuilt]
  rfl

/- The identity phase hears who the Engine is. -/
theorem identity_inevitable
    (hSsl : ssl.Documented)
    (hComplies : E.Complies ssl creds key privKey)
    (hScene : Scene ssl c t task [t, r])
    (hClear : c.Clear)
    (hPoint : task.point = .start)
    (hWork : task.work = .identify creds d)
    (hNe : r ≠ t)
    {attempt : Nat}
    (hParent : c.tasks[r]? = some parent)
    (hParking : parent.point = .parking d)
    (hParentWork : parent.work = .v3 creds attempt)
    (hThen :
      ∀ c' x p p' report,
        E.Heard p p' report false →
        Scene ssl c' t (task.goto (.returned x none)) [t] →
        Frame t
          (c.place r [] (parent.goto (.parked d false))) c' →
        c'.pendings[x.pending]? = some p' → c'.Clear →
          Machine.Inevitable (step ssl) E.Serves P c') :
    Machine.Inevitable (step ssl) E.Serves P c := by
  refine hScene.step_inevitable (by rw [hPoint]; rfl) ?_
  intro out _
  rcases identify_builds hSsl c.nextId out.salt with
    ⟨datagram, m, hBuilt, hOpens⟩
  let p : Pending :=
    { sender := task.target.endpoint
      v3 := true
      requestId := c.nextId }
  let x : Exchange :=
    { datagram := datagram
      key := c.nextId
      pending := c.pendings.length }
  have hRun :
      runTask ssl out c task =
        some (c.opening p, task.goto (.entering x), none) := by
    unfold runTask
    rw [hPoint, hWork]
    dsimp only
    rw [startIdentify_eq hBuilt]
  refine ⟨_, _, hRun, ?_⟩
  refine enter_inevitable
    ((hScene.opening p).goto [r] (.entering x)) rfl rfl hClear
    ?_
  intro c₁ hSending hEntered hPendings hHolds hSocket
  have hFrame : Frame t c c₁ :=
    ((Frame.opening t c p).trans
      (Frame.place _ t [r] _)).trans hEntered
  have hParent₁ : c₁.tasks[r]? = some parent :=
    (hFrame.others r hNe).trans hParent
  refine park_inevitable hSending rfl hParent₁ hParking
    hParentWork ?_
  let parked : Task := parent.goto (.parked d false)
  -- Its message names no engineID.
  have hForeign : m.security.engineId ≠ E.engineId := by
    rw [hOpens.engineId]
    exact fun hNil => hComplies.named hNil.symm
  have hReports := hComplies.foreign datagram m
    (by rw [hOpens.form.decode_eq]) hForeign
  rw [hOpens.header_eq] at hReports
  have hp₁ : c₁.pendings[x.pending]? = some p := by
    rw [hPendings]
    exact c.opening_pending p
  rcases Authority.Says.heard_report
    (c := c₁.place r [] parked)
    hReports (hHolds.findPending hp₁) rfl rfl nofun
    (Or.inr (by decide)) with
    ⟨p', report, _, _, hRoute, hHeard⟩
  refine exchange_inevitable
    (hSending.aside hNe (show parked.point.isInert = true
      from rfl) [])
    rfl hSocket hHolds hp₁ hRoute ?_
  intro c' hReturned hLast hFound hClear'
  exact hThen c' _ p p' report hHeard hReturned
    ((hFrame.aside hNe hParent [] [] _).trans hLast) hFound
    hClear'

end Snmpio

------------------------------------------------------------
-- The Time-Sync Phase
------------------------------------------------------------

namespace Snmpio

variable {ssl : OpenSsl} {E : Authority} {c c' : Client}
variable {P : Client → Prop} {t r d : Nat}
variable {task task' parent : Task} {creds : Credentials}
variable {key privKey : Octets} {x : Exchange}
variable {p p' : Pending}

/- A user the Engine knows, with the keys they share. -/
structure Account
    (ssl : OpenSsl)
    (E : Authority)
    (creds : Credentials)
    (key privKey : Octets) : Prop where
  complies : E.Complies ssl creds key privKey
  valid : creds.Valid
  signed : creds.level.isAuthenticated = true
  userName : creds.userName.length ≤ 65535
  authKey : requestAuthKey ssl creds E.engineId = .ok key
  privKey : requestPrivKey ssl creds E.engineId = .ok privKey

/- The exchange of a message that is signed. -/
def Credentials.asking
    (creds : Credentials)
    (sender : Endpoint)
    (key privKey engineId : Octets)
    (requestId : Int32)
    (timeSyncPhase : Bool) : Pending :=
  { sender := sender
    v3 := true
    authRequired := true
    authProtocol := creds.authProtocol
    privProtocol := creds.privProtocol
    authKey := key
    privKey := privKey
    engineId := engineId
    requestId := requestId
    timeSyncPhase := timeSyncPhase }

/- How the Engine answers a user's message. -/
inductive Authority.Treats
    (ssl : OpenSsl)
    (E : Authority)
    (creds : Credentials)
    (key privKey : Octets)
    (boots time : Int32)
    (asked : Octets)
    (p p' : Pending) : Prop where
  | untimely
      {report : Pdu}
      (hOutside : ¬ E.Accepts boots time)
      (hType : report.type = .report)
      (hCounter :
        usmStatsCounter report = some usmStatsNotInTimeWindows)
      (hHeard : E.Heard p p' report true)
  | timely
      {response : Pdu}
      (hInside : E.Accepts boots time)
      (hType : response.type = .response)
      (hSays :
        E.Says ssl creds key privKey creds.level p.requestId
          response (E.answer asked))
      (hHeard : E.Heard p p' response true)

theorem Account.treats
    (hAccount : Account ssl E creds key privKey)
    {sender : Endpoint}
    {id boots time : Int32}
    {sync : Bool}
    {pdu : Pdu}
    {asked : Octets}
    {m : V3Message}
    {ref : Nat}
    (hOpens :
      Opens ssl { msgId := id, level := creds.level }
        { engineId := E.engineId
          boots := boots
          time := time
          userName := creds.userName }
        { contextEngineId := E.engineId
          pdu := { pdu with requestId := id } }
        creds.authProtocol key creds.privProtocol privKey
        asked m)
    (hp :
      p = creds.asking sender key privKey E.engineId id sync)
    (hFound : c.findPending id = some (ref, p))
    (hTimely :
      E.Accepts boots time →
        ∀ usm : UsmParameters, usm.boots = E.boots →
          usm.time = E.time →
            c.cache.timely c.now sender usm = true) :
    ∃ p',
      c.route ssl (E.answer asked) sender =
          some (ref, p, .accept p') ∧
        E.Treats ssl creds key privKey boots time asked p
          p' := by
  subst hp
  by_cases hInside : E.Accepts boots time
  · rcases hAccount.complies.timely asked _ _ _ m hOpens
      hAccount.signed rfl hInside with
      ⟨response, hType, hId, hSays⟩
    rcases hSays.heard_response hFound rfl hAccount.signed rfl
      rfl rfl rfl rfl rfl hType hId (hTimely hInside) with
      ⟨p', hRoute, hHeard⟩
    exact ⟨p', hRoute, .timely hInside hType hSays hHeard⟩
  · have hReports := hAccount.complies.untimely asked _ _ _ m
      hOpens hAccount.signed rfl hInside
    rcases Authority.Says.heard_report hReports hFound rfl rfl
      (fun _ => ⟨rfl, rfl, rfl⟩) (Or.inl rfl) with
      ⟨p', report, hType, hCounter, hRoute, hHeard⟩
    exact ⟨p', hRoute,
      .untimely hInside hType hCounter hHeard⟩

/- A discovery whose parent is suspended. -/
structure Errand
    (ssl : OpenSsl)
    (c : Client)
    (t : Nat)
    (task : Task)
    (r : Nat)
    (parent : Task)
    (d : Nat) : Prop where
  scene : Scene ssl c t task [t]
  clear : c.Clear
  ne : r ≠ t
  parked : c.tasks[r]? = some (parent.goto (.parked d false))
  calm : parent.cancelled = {}
  target : task.target = parent.target
  rest :
    ∀ i other, c.tasks[i]? = some other → i ≠ t → i ≠ r →
      other.point.isOver = true
  known : d < c.discoveries.length

/- It stays one while the discovery moves. -/
theorem Errand.move
    (hErrand : Errand ssl c t task r parent d)
    (hScene : Scene ssl c' t task' [t])
    (hClear : c'.Clear)
    (hTarget : task'.target = task.target)
    (hOthers : ∀ i, i ≠ t → c'.tasks[i]? = c.tasks[i]?)
    (hDiscoveries : c'.discoveries = c.discoveries) :
    Errand ssl c' t task' r parent d where
  scene := hScene
  clear := hClear
  ne := hErrand.ne
  parked := (hOthers r hErrand.ne).trans hErrand.parked
  calm := hErrand.calm
  target := hTarget.trans hErrand.target
  rest := fun i other hOther hNe =>
    hErrand.rest i other ((hOthers i hNe).symm.trans hOther)
      hNe
  known := hDiscoveries ▸ hErrand.known

theorem startSync_eq
    {out : Outside}
    {engineId datagram : Octets}
    (hKeys :
      (requestKeys ssl c.keys creds engineId).1 =
        .ok (key, privKey))
    (hBuilt :
      (encodeV3Message ssl
          { msgId := c.nextId, level := creds.level }
          { engineId := engineId, userName := creds.userName }
          (discoveryScopedPdu c.nextId engineId)
          creds.authProtocol key creds.privProtocol privKey
          out.salt).1 = .ok datagram) :
    startSync ssl out c task creds d engineId =
      (Client.opening
          { c with
            keys :=
              (requestKeys ssl c.keys creds engineId).2 }
          (creds.asking task.target.endpoint key privKey
            engineId c.nextId true),
        { task with
          work := .sync creds d engineId
          point := .entering {
            datagram := datagram
            key := c.nextId
            pending := c.pendings.length } }) := by
  unfold startSync Client.takeNextId
  dsimp only
  rw [hKeys]
  dsimp only
  rw [hBuilt]
  rfl

/- The same task, in another part of its code. -/
theorem Scene.become
    (hScene : Scene ssl c t task [t])
    {keys : KeyCache}
    (hKeys : keys.Sound ssl)
    (p : Pending)
    (hRuns : task'.point.runs = true)
    (hTarget : task'.target = task.target)
    (hCalm : task'.cancelled = task.cancelled) :
    Scene ssl
      (({ c with keys := keys } : Client).opening p |>.place t
        [] task') t task' [t] := by
  refine ⟨hScene.going, hTarget ▸ hScene.socket, hKeys,
    List.getElem?_set_self
      (List.getElem?_eq_some_iff.mp hScene.found).1,
    (Frame.place c t [] task').alone hScene.alone, ?_,
    hTarget ▸ hScene.retries, hTarget ▸ hScene.timeout,
    hCalm.trans hScene.calm⟩
  exact if_pos hRuns

/- The time-sync phase hears the Engine's pair. -/
theorem sync_inevitable
    (hSsl : ssl.Documented)
    (hAccount : Account ssl E creds key privKey)
    (hErrand : Errand ssl c t task r parent d)
    (hPoint : task.point = .syncing E.engineId)
    (hWork : task.work = .identify creds d)
    (hTimely :
      ∀ usm,
        c.cache.timely c.now task.target.endpoint usm = true)
    (hThen :
      ∀ c' task',
        task'.point = .finishing none →
        task'.work.discovery? = some d →
        Errand ssl c' t task' r parent d →
        c'.cache =
          c.cache.recordBaseline c.now E.engineId E.usm →
        c'.now = c.now →
          Machine.Inevitable (step ssl) E.Serves P c') :
    Machine.Inevitable (step ssl) E.Serves P c := by
  have hScene := hErrand.scene
  refine hScene.step_inevitable (by rw [hPoint]; rfl) ?_
  intro out _
  rcases requestKeys_ok hSsl hAccount.valid hScene.keys
    E.engineId with
    ⟨key', privKey', hKeys, hSound, hKey, hPrivKey, hLong⟩
  cases hKey.symm.trans hAccount.authKey
  cases hPrivKey.symm.trans hAccount.privKey
  have hShort := hAccount.complies.short
  have hFits : Pdu.Fits { type := .get } := by
    change (({} : Ber.Writer).varbindList []).buf.length ≤
      65535
    decide
  rcases request_builds hSsl hAccount.valid.usable hLong
    (show E.engineId.length ≤ 65535 by omega)
    hAccount.userName (show Pdu.isEncodable { type := .get } =
      true from rfl) hFits c.nextId 0 0 key out.salt with
    ⟨datagram, m, hBuilt, hOpens⟩
  let p : Pending :=
    creds.asking task.target.endpoint key privKey E.engineId
      c.nextId true
  let x : Exchange :=
    { datagram := datagram
      key := c.nextId
      pending := c.pendings.length }
  let asking : Task :=
    { task with
      work := .sync creds d E.engineId
      point := .entering x }
  let opened : Client :=
    Client.opening
      { c with
        keys := (requestKeys ssl c.keys creds E.engineId).2 }
      p
  have hRun :
      runTask ssl out c task =
        some (opened, asking, none) := by
    unfold runTask
    rw [hPoint, hWork]
    dsimp only
    rw [startSync_eq hKeys hBuilt]
  refine ⟨_, _, hRun, ?_⟩
  refine transact_inevitable
    (hScene.become hSound p rfl rfl rfl) rfl rfl
    hErrand.clear
    (R := E.Treats ssl creds key privKey 0 0 datagram p)
    (c.opening_pending p) ?_ ?_
  · intro c₁ hCache hNow hFound
    refine hAccount.treats hOpens rfl hFound ?_
    intro _ usm _ _
    rw [hCache, hNow]
    exact hTimely usm
  · intro c' p' hTreats hReturned hFrame hFound hClear
    have hOthers :
        ∀ i, i ≠ t → c'.tasks[i]? = c.tasks[i]? := by
      intro i hNe
      rw [hFrame.others i hNe]
      exact List.getElem?_set_ne (fun hEq => hNe hEq.symm)
    have hCache : c'.cache = c.cache := hFrame.cache
    have hNow : c'.now = c.now := hFrame.now
    obtain ⟨hSigned, hBoots, hTime⟩ :
        p'.replyAuthenticated = true ∧
          p'.security.boots = E.boots ∧
          p'.security.time = E.time := by
      cases hTreats with
      | untimely _ _ _ hHeard =>
          exact ⟨hHeard.authenticated, hHeard.boots,
            hHeard.time⟩
      | timely _ _ _ hHeard =>
          exact ⟨hHeard.authenticated, hHeard.boots,
            hHeard.time⟩
    refine hReturned.step_inevitable rfl ?_
    intro out _
    let done : Task :=
      asking.goto (.finishing none)
    let heard : Client :=
      { c' with
        cache :=
          c'.cache.recordBaseline c'.now E.engineId
            p'.security }
    have hAfter :
        afterSync c' (asking.goto
            (.returned { x with ec := none } none))
            E.engineId p' =
          (heard, done) := by
      rw [afterSync, if_neg (not_not_intro hSigned), if_neg]
      · rfl
      · rw [hBoots]
        exact hAccount.complies.below
    refine ⟨heard, done, ?_, ?_⟩
    · simp only [runTask, Task.goto, hFound,
        Option.bind_eq_bind, Option.bind_some, afterSuccess]
      exact congrArg (fun next : Client × Task =>
        some (next.1, next.2, none)) hAfter
    · have hHeard : Scene ssl heard t
          (asking.goto (.returned { x with ec := none } none))
          [t] :=
        ⟨hReturned.going, hReturned.socket, hReturned.keys,
          hReturned.found, hReturned.alone, hReturned.strand,
          hReturned.retries, hReturned.timeout,
          hReturned.calm⟩
      refine hThen _ done rfl rfl
        (hErrand.move (hHeard.goto [] (.finishing none))
          hClear rfl ?_ hFrame.discoveries) ?_ hNow
      · intro i hNe
        rw [← hOthers i hNe]
        exact List.getElem?_set_ne (fun hEq => hNe hEq.symm)
      · change c'.cache.recordBaseline c'.now E.engineId
          p'.security = _
        rw [hCache, hNow]
        exact EngineCache.recordBaseline_congr hBoots hTime

end Snmpio

------------------------------------------------------------
-- Whole Discoveries
------------------------------------------------------------

namespace Snmpio

variable {ssl : OpenSsl} {E : Authority} {c c' : Client}
variable {P : Client → Prop} {t r d : Nat}
variable {task task' parent : Task} {creds : Credentials}
variable {key privKey : Octets}

/- A request, between its exchanges. -/
structure Interlude
    (ssl : OpenSsl)
    (c : Client)
    (r : Nat)
    (task : Task) : Prop where
  scene : Scene ssl c r task [r]
  clear : c.Clear
  vacant : c.discovering.lookup task.target.endpoint = none
  rest :
    ∀ i other, c.tasks[i]? = some other → i ≠ r →
      other.point.isOver = true

theorem Point.isInert_of_isOver
    {point : Point}
    (hOver : point.isOver = true) :
    point.isInert = true := by
  cases point with
  | parked d woken => cases hOver
  | parking d => cases hOver
  | _ => exact hOver

theorem Task.wakeOn_over
    (hOver : task.point.isOver = true)
    (timers : List Timer) :
    task.wakeOn timers = task := by
  unfold Task.wakeOn
  cases hPoint : task.point with
  | completed ec resp => rfl
  | threw => rfl
  | ended => rfl
  | _ =>
      rw [hPoint] at hOver
      cases hOver

/- The discovery ends, and the request goes on. -/
theorem finish_inevitable
    (hErrand : Errand ssl c t task r parent d)
    (hPoint : task.point = .finishing none)
    (hWork : task.work.discovery? = some d)
    (hThen :
      ∀ c',
        Interlude ssl c' r (parent.goto (.ensured none)) →
        c'.cache = c.cache → c'.now = c.now →
          Machine.Inevitable (step ssl) E.Serves P c') :
    Machine.Inevitable (step ssl) E.Serves P c := by
  have hScene := hErrand.scene
  refine hScene.step_inevitable (by rw [hPoint]; rfl) ?_
  intro out _
  let finished : Client :=
    finishDiscovery c task.target.endpoint d
      { ec := none, finished := true }
  have hRun :
      runTask ssl out c task =
        some (finished, task.goto .ended, none) := by
    cases hIs : task.work with
    | v2c community =>
        rw [hIs] at hWork
        cases hWork
    | v3 creds attempt =>
        rw [hIs] at hWork
        cases hWork
    | identify creds d' =>
        rw [hIs] at hWork
        cases hWork
        simp only [runTask, hPoint, hIs]
        rfl
    | sync creds d' engineId =>
        rw [hIs] at hWork
        cases hWork
        simp only [runTask, hPoint, hIs]
        rfl
  refine ⟨_, _, hRun, ?_⟩
  let idle : Client := finished.place t [] (task.goto .ended)
  let woken : Task := parent.goto (.parked d true)
  have hParent : idle.tasks[r]? = some woken := by
    refine (List.getElem?_set_ne hErrand.ne.symm).trans ?_
    change (c.tasks.map (Task.wakeOn [.done d]))[r]? = _
    rw [List.getElem?_map, hErrand.parked, Option.map_some]
    simp [Task.wakeOn, Task.goto, Point.timer?, Point.wake,
      woken]
  have hRest :
      ∀ i other, idle.tasks[i]? = some other → i ≠ r →
        other.point.isOver = true := by
    intro i other hOther hNe
    rcases place_task hOther with ⟨_, rfl⟩ | ⟨hNot, hOld⟩
    · rfl
    · change (c.tasks.map (Task.wakeOn [.done d]))[i]? = _
        at hOld
      rw [List.getElem?_map, Option.map_eq_some_iff] at hOld
      rcases hOld with ⟨old, hOld, rfl⟩
      have hOver := hErrand.rest i old hOld hNot hNe
      rw [Task.wakeOn_over hOver]
      exact hOver
  have hAlone : idle.Alone r := fun i other hOther hNe =>
    Point.isInert_of_isOver (hRest i other hOther hNe)
  have hDiscovery :
      idle.discoveries[d]? =
        some { ec := none, finished := true } :=
    List.getElem?_set_self hErrand.known
  have hGoing : idle.stopping = false := hScene.going
  have hPark :
      afterPark idle woken { ec := none, finished := true } =
        .ensured none := by
    rw [afterPark, if_neg (by decide),
      if_neg (by rw [hGoing]; decide), if_neg]
    rintro (hCancelled | hUnfinished)
    · exact hCancelled hErrand.calm
    · exact hUnfinished rfl
  have hResume :
      onResume idle r =
        some (idle.place r [] (parent.goto (.ensured none))) := by
    rw [← hPark]
    simp only [onResume, hParent, Option.bind_eq_bind,
      Option.bind_some, hDiscovery, woken, Task.goto]
  refine inevitable_resume rfl hParent hAlone
    (Or.inr ⟨d, rfl⟩) hResume ?_
  have hWoken : Scene ssl idle r woken [] :=
    ⟨hGoing, hErrand.target ▸ hScene.socket, hScene.keys,
      hParent, hAlone, rfl, hErrand.target ▸ hScene.retries,
      hErrand.target ▸ hScene.timeout, hErrand.calm⟩
  refine hThen _ ⟨hWoken.goto [] (.ensured none),
    hErrand.clear, ?_, ?_⟩ rfl rfl
  · change (c.discovering.erase task.target.endpoint).lookup
      parent.target.endpoint = none
    rw [hErrand.target]
    exact AList.lookup_erase _ _
  · intro i other hOther hNe
    rcases place_task hOther with ⟨hEq, _⟩ | ⟨_, hOld⟩
    · exact absurd hEq hNe
    · exact hRest i other hOld hNe

/- From the identity to the end. -/
theorem identified_inevitable
    (hSsl : ssl.Documented)
    (hAccount : Account ssl E creds key privKey)
    (hErrand : Errand ssl c t task r parent d)
    {x : Exchange}
    {p p' : Pending}
    {report : Pdu}
    (hPoint : task.point = .returned x none)
    (hWork : task.work = .identify creds d)
    (hHeard : E.Heard p p' report false)
    (hFound : c.pendings[x.pending]? = some p')
    (hThen :
      ∀ c',
        Interlude ssl c' r (parent.goto (.ensured none)) →
        c'.cache =
          c.cache.discovered c.now task.target.endpoint E →
        c'.now = c.now →
          Machine.Inevitable (step ssl) E.Serves P c') :
    Machine.Inevitable (step ssl) E.Serves P c := by
  have hScene := hErrand.scene
  refine hScene.step_inevitable (by rw [hPoint]; rfl) ?_
  intro out _
  have hNamed : p'.security.engineId ≠ [] := by
    rw [hHeard.engineId]
    exact hAccount.complies.named
  let known : EngineCache :=
    c.cache.recordIdentity c.now task.target.endpoint E.usm
  have hKnown :
      c.cache.recordIdentity c.now task.target.endpoint
        p'.security = known :=
    EngineCache.recordIdentity_congr hHeard.engineId
      hHeard.boots hHeard.time
  let heard : Client := { c with cache := known }
  have hHeardScene : Scene ssl heard t task [t] :=
    ⟨hScene.going, hScene.socket, hScene.keys, hScene.found,
      hScene.alone, hScene.strand, hScene.retries,
      hScene.timeout, hScene.calm⟩
  have hMoved
      (point : Point)
      (hRuns : point.runs = true) :
      Errand ssl (heard.place t [] (task.goto point)) t
        (task.goto point) r parent d := by
    have hNext := hHeardScene.goto [] point
    rw [if_pos hRuns] at hNext
    exact hErrand.move hNext hErrand.clear rfl
      (Frame.place heard t [] _).others rfl
  have hRun
      {next : Client × Task}
      (hAfter : afterIdentify c task creds p' = next) :
      runTask ssl out c task =
        some (next.1, next.2, none) := by
    simp only [runTask, hPoint, hWork, hFound,
      Option.bind_eq_bind, Option.bind_some, afterSuccess,
      hAfter]
  unfold EngineCache.discovered at hThen
  dsimp only at hThen
  cases hSynced :
    (known.engines.lookup E.engineId).any
      (fun engine => engine.timeSynced) with
  | true =>
      have hAfter :
          afterIdentify c task creds p' =
            (heard, task.goto (.finishing none)) := by
        unfold afterIdentify
        dsimp only
        rw [if_neg hNamed, hKnown, hHeard.engineId,
          if_neg (not_not_intro hAccount.signed),
          if_pos hSynced]
      refine ⟨_, _, hRun hAfter, ?_⟩
      refine finish_inevitable (hMoved _ rfl) rfl
        (by rw [Task.goto, hWork]; rfl) ?_
      intro c' hInterlude hCache hNow
      refine hThen c' hInterlude ?_ hNow
      rw [hCache, if_pos hSynced]
      rfl
  | false =>
      have hAfter :
          afterIdentify c task creds p' =
            (heard, task.goto (.syncing E.engineId)) := by
        unfold afterIdentify
        dsimp only
        rw [if_neg hNamed, hKnown, hHeard.engineId,
          if_neg (not_not_intro hAccount.signed),
          if_neg (by rw [hSynced]; decide)]
      refine ⟨_, _, hRun hAfter, ?_⟩
      refine sync_inevitable hSsl hAccount (hMoved _ rfl) rfl
        hWork ?_ ?_
      · intro usm
        exact EngineCache.timely_recordIdentity hSynced
      · intro c₁ task₁ hPoint₁ hWork₁ hErrand₁ hCache₁ hNow₁
        refine finish_inevitable hErrand₁ hPoint₁ hWork₁ ?_
        intro c' hInterlude hCache hNow
        refine hThen c' hInterlude ?_ (hNow.trans hNow₁)
        rw [hCache, hCache₁, if_neg (by rw [hSynced]; decide)]
        rfl

/- A request that starts one waits it out. -/
theorem discovery_inevitable
    (hSsl : ssl.Documented)
    (hAccount : Account ssl E creds key privKey)
    (hInterlude : Interlude ssl c r task)
    (hPoint : task.point = .ensuring)
    {attempt : Nat}
    (hWork : task.work = .v3 creds attempt)
    (hUnknown :
      (c.cache.engineAt task.target.endpoint).any
        (fun engine => engine.timeSynced) = false)
    (hThen :
      ∀ c', Interlude ssl c' r (task.goto (.ensured none)) →
        c'.cache =
          c.cache.discovered c.now task.target.endpoint E →
        c'.now = c.now →
          Machine.Inevitable (step ssl) E.Serves P c') :
    Machine.Inevitable (step ssl) E.Serves P c := by
  have hScene := hInterlude.scene
  have hBound := (List.getElem?_eq_some_iff.mp hScene.found).1
  refine inevitable_advance hScene.strand hScene.found
    (hScene.still (by rw [hPoint]; nofun)) ?_
  intro out _
  let d := c.discoveries.length
  let begun : Client :=
    { c with
      discoveries := c.discoveries ++ [{}]
      discovering :=
        c.discovering.insert task.target.endpoint d }
  let child : Task :=
    { work := .identify creds d
      target := task.target }
  have hUnready :
      ¬ ((c.cache.engineAt task.target.endpoint).any
        (fun engine => !creds.level.isAuthenticated ||
          engine.timeSynced) = true) := by
    rw [hAccount.signed]
    simpa using hUnknown
  have hRun :
      runTask ssl out c task =
        some (begun, task.goto (.parking d), some child) := by
    simp only [runTask, hPoint, hWork, ensureEngine]
    rw [if_neg hUnready, hInterlude.vacant]
  refine ⟨_, _, _, hRun, ?_⟩
  let parking : Client :=
    begun.place r [] (task.goto (.parking d))
  let t := c.tasks.length
  have hLength : parking.tasks.length = t :=
    List.length_set
  have hNe : r ≠ t := Nat.ne_of_lt hBound
  have hSpawned
      {i : Nat}
      {other : Task}
      (hOther : (parking.spawn child).tasks[i]? = some other)
      (hNot : i ≠ t) :
      parking.tasks[i]? = some other := by
    rcases getElem?_concat_cases hOther with hOld | ⟨hIs, _⟩
    · exact hOld
    · exact absurd (hIs.trans hLength) hNot
  have hParent :
      (parking.spawn child).tasks[r]? =
        some (task.goto (.parking d)) := by
    refine (List.getElem?_append_left ?_).trans ?_
    · rw [hLength]
      exact hBound
    · exact List.getElem?_set_self hBound
  have hChild :
      Scene ssl (parking.spawn child) t child [t, r] := by
    refine ⟨hScene.going, hScene.socket, hScene.keys, ?_, ?_,
      ?_, hScene.retries, hScene.timeout, rfl⟩
    · rw [← hLength]
      exact List.getElem?_concat_length
    · intro i other hOther hNot
      rcases place_task (hSpawned hOther hNot) with
        ⟨_, rfl⟩ | ⟨hElse, hOld⟩
      · rfl
      · exact Point.isInert_of_isOver
          (hInterlude.rest i other hOld hElse)
    · change parking.tasks.length :: [r] = [t, r]
      rw [hLength]
  refine identity_inevitable hSsl hAccount.complies hChild
    hInterlude.clear rfl rfl hNe hParent rfl hWork ?_
  intro c₁ x p p' report hHeard hReturned hFrame hFound hClear
  have hErrand :
      Errand ssl c₁ t (child.goto (.returned x none)) r task
        d := by
    refine ⟨hReturned, hClear, hNe, ?_, hScene.calm, rfl, ?_,
      ?_⟩
    · rw [hFrame.others r hNe]
      exact List.getElem?_set_self
        (List.getElem?_eq_some_iff.mp hParent).1
    · intro i other hOther hNot hElse
      rw [hFrame.others i hNot] at hOther
      rcases place_task hOther with ⟨hIs, _⟩ | ⟨_, hOld⟩
      · exact absurd hIs hElse
      · rcases place_task (hSpawned hOld hNot) with
          ⟨hIs, _⟩ | ⟨_, hOlder⟩
        · exact absurd hIs hElse
        · exact hInterlude.rest i other hOlder hElse
    · rw [hFrame.discoveries]
      change d < (c.discoveries ++ [({} : Discovery)]).length
      simp [d]
  refine identified_inevitable hSsl hAccount hErrand rfl rfl
    hHeard hFound ?_
  intro c' hDone hCache hNow
  have hSame : c₁.cache = c.cache ∧ c₁.now = c.now :=
    ⟨hFrame.cache, hFrame.now⟩
  rw [hSame.1, hSame.2] at hCache
  exact hThen c' hDone hCache (hNow.trans hSame.2)

end Snmpio
