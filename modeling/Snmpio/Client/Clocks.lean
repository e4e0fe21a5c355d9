import Snmpio.Client.Attribution

/-
  The clocks of the Engines: which steps write them, and on
  whose word.

  Only a step that takes up the reply of an exchange writes
  into the cache, and `EntryWrite` lists what it can do to
  the entry of one Engine.

  Key definitions include:
    * `TakesUp`
    * `EntryWrite`
    * `KeepsClocks`
    * `SignedBy`

  Key theorems include:
    * `step_entry`
    * `unverified_keeps_clocks`
    * `clock_written_by_its_engine_iff`
    * `clock_lowered_iff`
    * `response_timely`
-/

------------------------------------------------------------
-- Writes
------------------------------------------------------------

namespace Snmpio

variable {ssl : OpenSsl} {c : Client} {t : Nat}
variable {task : Task} {x : Exchange} {p : Pending}

/- The next step of the strand takes up this reply. -/
structure TakesUp
    (c : Client)
    (t : Nat)
    (task : Task)
    (x : Exchange)
    (p : Pending) : Prop where
  running : ∃ rest, c.strand = t :: rest
  found : c.tasks[t]? = some task
  point : task.point = .returned x none
  pending : c.pendings[x.pending]? = some p

theorem TakesUp.unique
    {t' : Nat}
    {task' : Task}
    {x' : Exchange}
    {p' : Pending}
    (hTakes : TakesUp c t task x p)
    (hTakes' : TakesUp c t' task' x' p') :
    t' = t ∧ task' = task ∧ x' = x ∧ p' = p := by
  rcases hTakes.running with ⟨rest, hStrand⟩
  rcases hTakes'.running with ⟨rest', hStrand'⟩
  rw [hStrand] at hStrand'
  cases hStrand'
  have hTask := hTakes'.found
  rw [hTakes.found] at hTask
  cases hTask
  have hPoint := hTakes'.point
  rw [hTakes.point] at hPoint
  cases hPoint
  have hPending := hTakes'.pending
  rw [hTakes.pending] at hPending
  cases hPending
  exact ⟨rfl, rfl, rfl, rfl⟩

/- That reply, if there is one, computed. -/
def Client.takenUp
    (c : Client) :
    Option (Nat × Task × Exchange × Pending) := do
  let t ← c.strand.head?
  let task ← c.tasks[t]?
  match task.point with
  | .returned x none =>
      let p ← c.pendings[x.pending]?
      some (t, task, x, p)
  | _ => none

theorem Client.takenUp_eq_some
    (hTaken : c.takenUp = some (t, task, x, p)) :
    TakesUp c t task x p := by
  rcases Option.bind_eq_some_iff.mp hTaken with
    ⟨head, hHead, hTaken⟩
  rcases Option.bind_eq_some_iff.mp hTaken with
    ⟨found, hFound, hTaken⟩
  split at hTaken
  · next hPoint =>
    rcases Option.bind_eq_some_iff.mp hTaken with
      ⟨reply, hReply, hTaken⟩
    simp only [Option.some.injEq, Prod.mk.injEq] at hTaken
    rcases hTaken with ⟨rfl, rfl, rfl, rfl⟩
    exact ⟨List.head?_eq_some_iff.mp hHead, hFound, hPoint,
      hReply⟩
  · cases hTaken

theorem TakesUp.takenUp
    (hTakes : TakesUp c t task x p) :
    c.takenUp = some (t, task, x, p) := by
  rcases hTakes.running with ⟨rest, hStrand⟩
  simp [Client.takenUp, hStrand, hTakes.found,
    hTakes.point, hTakes.pending]

/- The cache is written by taking up a reply only. -/
theorem StepCase.cache
    {c' : Client}
    {e : Event}
    (hCase : StepCase ssl c e c') :
    c'.cache = c.cache ∨
      ∃ t task x p, (∃ out, e = .advance out) ∧
        TakesUp c t task x p ∧
        ReplyWrite c task p c'.cache := by
  cases hCase with
  | advanced hStrand hTask hMove =>
      rw [settle_cache]
      rcases hMove.write with
        hSame | ⟨x, p, hPoint, hp, hWrite⟩
      · exact Or.inl hSame
      · right
        exact ⟨_, _, x, p, ⟨_, rfl⟩,
          ⟨⟨_, hStrand⟩, hTask, hPoint, hp⟩, hWrite⟩
  | requested hIdle => exact Or.inl rfl
  | received hIdle =>
      rcases receive_nudged ssl c _ _ with
        ⟨pendings, hNudged⟩
      exact Or.inl hNudged.cache
  | resumed hIdle hTask hResumes => exact Or.inl rfl
  | raised hStrand hTask _ _ => exact Or.inl rfl
  | signalled _ _ _ _ => exact Or.inl rfl
  | nudged hNudged => exact Or.inl hNudged.cache

/- What taking up a reply can do to the entry of an Engine. -/
inductive EntryWrite
    (c : Client)
    (task : Task)
    (p : Pending)
    (engineId : Octets) :
    EngineState → Prop where
  | distrusted
      {creds : Credentials}
      {attempt : Nat}
      {engine : EngineState}
      (hWork : task.work = .v3 creds attempt)
      (hAuthenticated : p.replyAuthenticated = true)
      (hReport : p.response.type = .report)
      (hIndex :
        c.cache.index.lookup task.target.endpoint =
          some engineId)
      (hEngine :
        c.cache.engines.lookup engineId = some engine)
      (hSynced : engine.timeSynced = true)
      (hLower : p.security.boots < engine.boots) :
      EntryWrite c task p engineId
        { engine with timeSynced := false }
  | adopted
      {creds : Credentials}
      {attempt : Nat}
      {engine : EngineState}
      (hWork : task.work = .v3 creds attempt)
      (hAuthenticated : p.replyAuthenticated = true)
      (hIndex :
        c.cache.index.lookup task.target.endpoint =
          some engineId)
      (hEngine :
        c.cache.engines.lookup engineId = some engine)
      (hNotLower :
        ¬ Lower p.security.boots p.security.time engine) :
      EntryWrite c task p engineId
        { engine with
          boots := p.security.boots
          time := p.security.time
          learnt := c.now
          timeSynced := true }
  | identified
      {creds : Credentials}
      {d : Nat}
      {engine : EngineState}
      (hWork : task.work = .identify creds d)
      (hEngineId : p.security.engineId = engineId)
      (hSynced :
        engine.timeSynced =
          (c.cache.engines.lookup engineId).any
            (fun before => before.timeSynced))
      (hKept :
        ∀ before,
          c.cache.engines.lookup engineId = some before →
            before.timeSynced = true →
              engine = { before with engineId := engineId }) :
      EntryWrite c task p engineId engine
  | based
      {creds : Credentials}
      {d : Nat}
      (hWork : task.work = .sync creds d engineId)
      (hAuthenticated : p.replyAuthenticated = true)
      (hBoots : p.security.boots ≠ bootsCeiling) :
      EntryWrite c task p engineId
        { (c.cache.engines.lookup engineId).getD {} with
          boots := p.security.boots
          time := p.security.time
          learnt := c.now
          timeSynced := true }

/- One entry is inserted, the others stay. -/
theorem lookup_insert_cases
    (engines : AList (fun _ : Octets => EngineState))
    (key engineId : Octets)
    (engine : EngineState) :
    (engines.insert key engine).lookup engineId =
        engines.lookup engineId ∨
      (engineId = key ∧
        (engines.insert key engine).lookup engineId =
          some engine) := by
  by_cases hSame : engineId = key
  · subst hSame
    exact Or.inr ⟨rfl, AList.lookup_insert _⟩
  · exact Or.inl (AList.lookup_insert_ne hSame)

theorem ReplyWrite.entry
    {cache : EngineCache}
    (hWrite : ReplyWrite c task p cache)
    (engineId : Octets) :
    cache.engines.lookup engineId =
        c.cache.engines.lookup engineId ∨
      ∃ after, cache.engines.lookup engineId = some after ∧
        EntryWrite c task p engineId after := by
  cases hWrite with
  | none => exact Or.inl rfl
  | answered hWork hWrite =>
      cases hWrite with
      | none => exact Or.inl rfl
      | forgotten => exact Or.inl rfl
      | @distrusted key engine hAuth hReport hIndex hEngine
          hSynced hLower =>
          rcases lookup_insert_cases c.cache.engines key
            engineId { engine with timeSynced := false } with
            hSame | ⟨rfl, hFound⟩
          · exact Or.inl hSame
          · exact Or.inr ⟨_, hFound, EntryWrite.distrusted
              hWork hAuth hReport hIndex hEngine hSynced
              hLower⟩
      | @adopted key engine hAuth hIndex hEngine hNotLower =>
          rcases lookup_insert_cases c.cache.engines key
            engineId
            { engine with
              boots := p.security.boots
              time := p.security.time
              learnt := c.now
              timeSynced := true } with
            hSame | ⟨rfl, hFound⟩
          · exact Or.inl hSame
          · exact Or.inr ⟨_, hFound, EntryWrite.adopted hWork
              hAuth hIndex hEngine hNotLower⟩
  | identified hWork hEngineId =>
      rcases lookup_insert_cases c.cache.engines
        p.security.engineId engineId _ with
        hSame | ⟨hKey, hFound⟩
      · exact Or.inl hSame
      · right
        refine ⟨_, hFound, EntryWrite.identified hWork
          hKey.symm ?_ ?_⟩
        · rw [hKey]
          cases hBefore :
            c.cache.engines.lookup p.security.engineId with
          | none => rfl
          | some before =>
              cases hSynced : before.timeSynced with
              | true => simp [hSynced]
              | false => simp [hSynced]
        · intro before hBefore hSynced
          rw [hKey] at hBefore ⊢
          simp [hBefore, hSynced]
  | @based creds d key hWork hAuth hBoots =>
      rcases lookup_insert_cases c.cache.engines key engineId
        { (c.cache.engines.lookup key).getD {} with
          boots := p.security.boots
          time := p.security.time
          learnt := c.now
          timeSynced := true } with
        hSame | ⟨rfl, hFound⟩
      · exact Or.inl hSame
      · exact Or.inr ⟨_, hFound, EntryWrite.based hWork hAuth
          hBoots⟩

/- Entries change by taking up a reply only. -/
theorem step_entry
    {c' : Client}
    {e : Event}
    (hStep : step ssl c e = some c')
    (engineId : Octets) :
    c'.cache.engines.lookup engineId =
        c.cache.engines.lookup engineId ∨
      ∃ t task x p after, (∃ out, e = .advance out) ∧
        TakesUp c t task x p ∧
        c'.cache.engines.lookup engineId = some after ∧
        EntryWrite c task p engineId after := by
  rcases (step_cases hStep).cache with
    hSame | ⟨t, task, x, p, hEvent, hTakes, hWrite⟩
  · rw [hSame]
    exact Or.inl rfl
  · rcases hWrite.entry engineId with
      hSame | ⟨after, hAfter, hEntry⟩
    · exact Or.inl hSame
    · exact Or.inr ⟨t, task, x, p, after, hEvent, hTakes,
        hAfter, hEntry⟩

end Snmpio

------------------------------------------------------------
-- Unverified Replies
------------------------------------------------------------

namespace Snmpio

variable {ssl : OpenSsl} {id : Int32} {now : Int}
variable {events : List Event} {p : Pending} {c : Client}
variable {task : Task}

/- Trusted clocks stay as they are, and none becomes one. -/
structure KeepsClocks
    (cache cache' : EngineCache) : Prop where
  kept :
    ∀ engineId engine,
      cache.engines.lookup engineId = some engine →
        engine.timeSynced = true →
          cache'.engines.lookup engineId = some engine
  unsynced :
    ∀ engineId engine,
      cache'.engines.lookup engineId = some engine →
        engine.timeSynced = true →
          ∃ before,
            cache.engines.lookup engineId = some before ∧
              before.timeSynced = true

theorem KeepsClocks.refl
    (cache : EngineCache) :
    KeepsClocks cache cache where
  kept := fun _ _ hEngine _ => hEngine
  unsynced := fun _ engine hEngine hSynced =>
    ⟨engine, hEngine, hSynced⟩

/- The datagram's digest was verified for this exchange. -/
def DigestVerified
    (ssl : OpenSsl)
    (p : Pending)
    (datagram : Octets) : Prop :=
  ∃ msg, (decodeV3Message datagram).1 = some msg ∧
    p.authRequired = true ∧
    exemptFromAuth msg = false ∧
    verifyAuth ssl datagram msg p.authProtocol p.authKey =
      .ok ()

/- The flag of an exchange is the verdict on its reply. -/
theorem Answered.digestVerified
    {sender : Endpoint}
    {datagram : Octets}
    (hReply : Answered ssl p sender datagram)
    (hV3 : p.v3 = true)
    (hAuthenticated : p.replyAuthenticated = true) :
    DigestVerified ssl p datagram := by
  rw [Answered, if_pos hV3] at hReply
  rcases hReply with ⟨msg, opened, hMsg⟩
  have hChecked := hMsg.checked
  rw [hAuthenticated] at hChecked
  have hBoth := Bool.and_eq_true_iff.mp hChecked.symm
  exact ⟨msg, hMsg.decoded, hBoth.1, by simpa using hBoth.2,
    hMsg.verified hAuthenticated⟩

/- The reply that is taken up came in a datagram. -/
theorem Sound.reply
    (hSound : Sound ssl events c)
    {t : Nat}
    {x : Exchange}
    (hTakes : TakesUp c t task x p) :
    ExchangeSound ssl task x p.asked ∧
      ∃ sender datagram,
        Event.receive sender datagram ∈ events ∧
          Answered ssl p sender datagram := by
  have hTask := hSound.tasks t task hTakes.found
  have hExchange : task.point.exchange? = some x := by
    rw [hTakes.point]
    rfl
  rcases hTask.exchange x hExchange with ⟨p₁, hp₁, hAsked⟩
  rcases hTask.answered x hTakes.point with
    ⟨p₂, hp₂, hAnswered⟩
  rw [hTakes.pending] at hp₁ hp₂
  cases hp₁
  cases hp₂
  exact ⟨hAsked, hSound.core.answers x.pending p
    hTakes.pending hAnswered⟩

/- A v2c reply is taken up without any write. -/
theorem ReplyWrite.of_v2c
    {cache : EngineCache}
    (hWrite : ReplyWrite c task p cache)
    {community : Octets}
    (hWork : task.work = .v2c community) :
    cache = c.cache := by
  cases hWrite with
  | none => rfl
  | answered hOther _ =>
      rw [hWork] at hOther
      cases hOther
  | identified hOther _ =>
      rw [hWork] at hOther
      cases hOther
  | based hOther _ _ =>
      rw [hWork] at hOther
      cases hOther

/- Without the flag, no trusted clock is touched. -/
theorem ReplyWrite.keepsClocks
    {cache : EngineCache}
    (hWrite : ReplyWrite c task p cache)
    (hCache : c.cache.Sound)
    (hUnsigned : p.replyAuthenticated = false) :
    KeepsClocks c.cache cache := by
  have hNever :
      ∀ {P : Prop}, p.replyAuthenticated = true → P := by
    intro P hAuthenticated
    rw [hUnsigned] at hAuthenticated
    cases hAuthenticated
  constructor
  · intro engineId engine hEngine hSynced
    rcases hWrite.entry engineId with
      hSame | ⟨after, hAfter, hEntry⟩
    · rw [hSame]
      exact hEngine
    · cases hEntry with
      | distrusted _ hAuth _ _ _ _ _ => exact hNever hAuth
      | adopted _ hAuth _ _ _ => exact hNever hAuth
      | identified _ _ _ hKept =>
          rw [hAfter, hKept engine hEngine hSynced]
          rw [← (hCache engineId engine hEngine).1]
      | based _ hAuth _ => exact hNever hAuth
  · intro engineId engine hEngine hSynced
    rcases hWrite.entry engineId with
      hSame | ⟨after, hAfter, hEntry⟩
    · rw [hSame] at hEngine
      exact ⟨engine, hEngine, hSynced⟩
    · rw [hAfter] at hEngine
      cases hEngine
      cases hEntry with
      | distrusted _ hAuth _ _ _ _ _ => exact hNever hAuth
      | adopted _ hAuth _ _ _ => exact hNever hAuth
      | identified _ _ hFlag _ =>
          rw [hSynced] at hFlag
          exact (Option.any_eq_true _ _).mp hFlag.symm
      | based _ hAuth _ => exact hNever hAuth

/-
  Delivering a datagram writes no clock.  A reply whose
  digest was not verified leaves every trusted clock as it
  is, and makes none trusted, when it is taken up.  No other
  step writes at all.
-/
theorem unverified_keeps_clocks
    {c c' : Client}
    {e : Event}
    (hRun :
      Machine.run (step ssl) (fresh id now) events = some c)
    (hStep : step ssl c e = some c') :
    (∀ sender datagram, e = .receive sender datagram →
      c'.cache = c.cache) ∧
    (∀ out t task x p, e = .advance out →
      TakesUp c t task x p →
        ∃ sender datagram,
          Event.receive sender datagram ∈ events ∧
            Answered ssl p sender datagram ∧
            (¬ DigestVerified ssl p datagram →
              KeepsClocks c.cache c'.cache)) ∧
    ((∀ t task x p, ¬ TakesUp c t task x p) →
      c'.cache = c.cache) := by
  have hSound := sound_of_run hRun
  have hCache := (step_cases hStep).cache
  refine ⟨?_, ?_, ?_⟩
  · rintro sender datagram rfl
    rcases hCache with hSame | ⟨_, _, _, _, ⟨_, hEvent⟩, _⟩
    · exact hSame
    · cases hEvent
  · rintro out t task x p rfl hTakes
    rcases hSound.reply hTakes with
      ⟨hAsked, sender, datagram, hMem, hReply⟩
    refine ⟨sender, datagram, hMem, hReply, ?_⟩
    intro hUnverified
    rcases hCache with
      hSame | ⟨t', task', x', p', _, hTakes', hWrite⟩
    · rw [hSame]
      exact KeepsClocks.refl c.cache
    · rcases hTakes.unique hTakes' with ⟨rfl, rfl, rfl, rfl⟩
      cases hFlag : p'.replyAuthenticated with
      | false =>
          exact hWrite.keepsClocks hSound.core.cache hFlag
      | true =>
          have hAsks := hAsked.asks
          unfold Asks at hAsks
          cases hWork : task'.work with
          | v2c community =>
              rw [hWrite.of_v2c hWork]
              exact KeepsClocks.refl c.cache
          | v3 creds attempt =>
              rw [hWork] at hAsks
              exact absurd (hReply.digestVerified hAsks.1.v3
                hFlag) hUnverified
          | identify creds d =>
              rw [hWork] at hAsks
              exact absurd (hReply.digestVerified hAsks.1
                hFlag) hUnverified
          | sync creds d engineId =>
              rw [hWork] at hAsks
              exact absurd (hReply.digestVerified hAsks.1.v3
                hFlag) hUnverified
  · intro hNone
    rcases hCache with hSame | ⟨t, task, x, p, _, hTakes, _⟩
    · exact hSame
    · exact absurd hTakes (hNone t task x p)

/- A user without keys asks the same Agent. -/
def guest : Credentials :=
  { userName := [0x67] }

/- Another Engine, which has no part in the request. -/
def strayUsm : UsmParameters :=
  { engineId := [0x80, 0x00, 0x1F, 0x88, 0x02]
    boots := 1
    time := 10 }

/-
  While the request of `askedRun` waits, the guest's is told
  in clear that the Engine is another one.
-/
def reportedRun : List Event :=
  askedRun ++
    [.request agentTarget (.credentials guest) upTimeRequest,
    ahead, ahead, ahead, ahead,
    .sent 2 none,
    .receive agentEndpoint
      (agentMessage agentSsl .noAuthNoPriv 4 strayUsm
        (usmReport usmStatsUnknownEngineIds)),
    .resume 2, ahead]

theorem reportedRun_takenUp :
    (Machine.run (step agentSsl) (fresh 1 0)
      reportedRun).bind (fun c =>
        (step agentSsl c ahead).bind (fun _ =>
          c.takenUp.map (fun found =>
            (found.2.1.work, found.2.2.2.authRequired,
              (c.cache.engines.lookup agentEngineId).map
                (fun engine => engine.timeSynced))))) =
      some (.v3 guest 0, false, some true) := by
  decide +kernel

/- The guest's Report leaves the trusted clock alone. -/
theorem unverified_keeps_clocks_report :
    ∃ c c' t task x p engine,
      Machine.run (step agentSsl) (fresh 1 0) reportedRun =
          some c ∧
        step agentSsl c ahead = some c' ∧
        TakesUp c t task x p ∧
        task.work = .v3 guest 0 ∧
        c.cache.engines.lookup agentEngineId = some engine ∧
        engine.timeSynced = true ∧
        KeepsClocks c.cache c'.cache := by
  rcases Option.bind_eq_some_iff.mp reportedRun_takenUp with
    ⟨c, hRun, hState⟩
  rcases Option.bind_eq_some_iff.mp hState with
    ⟨c', hStep, hState⟩
  rcases Option.map_eq_some_iff.mp hState with
    ⟨⟨t, task, x, p⟩, hTaken, hFound⟩
  simp only [Prod.mk.injEq] at hFound
  rcases hFound with ⟨hWork, hRequired, hEngine⟩
  rcases Option.map_eq_some_iff.mp hEngine with
    ⟨engine, hEngine, hSynced⟩
  have hTakes := Client.takenUp_eq_some hTaken
  rcases (unverified_keeps_clocks hRun hStep).2.1 _ t task x p
    rfl hTakes with ⟨_, datagram, _, _, hKeeps⟩
  refine ⟨c, c', t, task, x, p, engine, hRun, hStep, hTakes,
    hWork, hEngine, hSynced, hKeeps ?_⟩
  rintro ⟨_, _, hMust, _⟩
  rw [hRequired] at hMust
  cases hMust

end Snmpio

------------------------------------------------------------
-- Whose Clock
------------------------------------------------------------

namespace Snmpio

variable {ssl : OpenSsl} {id : Int32} {now : Int}
variable {events : List Event}

/-
  The reply answers an exchange that was addressed to this
  Engine, and its digest verified under the key that the
  Credentials give for the Engine.
-/
structure SignedBy
    (ssl : OpenSsl)
    (events : List Event)
    (task : Task)
    (x : Exchange)
    (p : Pending)
    (engineId : Octets)
    (creds : Credentials)
    (datagram : Octets)
    (msg : V3Message) : Prop where
  credentials : task.work.credentials? = some creds
  asked : p.engineId = engineId
  addressed :
    ∃ privKey pdu, pdu.requestId = x.key ∧
      AddressedTo ssl creds engineId p.authKey privKey pdu
        x.datagram
  received :
    Event.receive task.target.endpoint datagram ∈ events
  decoded : (decodeV3Message datagram).1 = some msg
  msgId_eq : msg.header.msgId = x.key
  security_eq : p.security = msg.security
  key : localizedAuthKey ssl creds engineId = .ok p.authKey
  verified :
    verifyAuth ssl datagram msg creds.authProtocol
      p.authKey = .ok ()

/- A signed reply was signed by the Engine it was asked of. -/
theorem Sound.signedBy
    {c : Client}
    (hSound : Sound ssl events c)
    {t : Nat}
    {task : Task}
    {x : Exchange}
    {p : Pending}
    (hTakes : TakesUp c t task x p)
    {creds : Credentials}
    {pdu : Pdu}
    (hCreds : task.work.credentials? = some creds)
    (hSealed :
      SealedFor ssl creds p.engineId p.asked pdu x.datagram)
    (hPdu : pdu.requestId = x.key)
    (hLevel : creds.level.isAuthenticated = true)
    (hAuthenticated : p.replyAuthenticated = true) :
    ∃ datagram msg,
      SignedBy ssl events task x p p.engineId creds datagram
        msg := by
  rcases hSound.reply hTakes with
    ⟨hAsked, sender, datagram, hMem, hReply⟩
  have hV3 : p.v3 = true := hSealed.v3
  rw [Answered, if_pos hV3] at hReply
  rcases hReply with ⟨msg, opened, hMsg⟩
  have hSender : p.sender = task.target.endpoint :=
    hAsked.sender_eq
  have hKey : p.requestId = x.key := hAsked.key_eq
  have hProtocol : p.authProtocol = creds.authProtocol :=
    hSealed.authProtocol
  have hAuthKey := hSealed.authKey
  rw [requestAuthKey, if_pos hLevel] at hAuthKey
  rw [hMsg.sender_eq, hSender] at hMem
  refine ⟨datagram, msg, {
    credentials := hCreds
    asked := rfl
    addressed := ⟨_, pdu, hPdu, hSealed.addressed⟩
    received := hMem
    decoded := hMsg.decoded
    msgId_eq := hMsg.msgId_eq.trans hKey
    security_eq := hMsg.security_eq
    key := hAuthKey
    verified := ?_ }⟩
  rw [← hProtocol]
  exact hMsg.verified hAuthenticated

/-
  A step that writes the clock of an Engine on the word of an
  authenticated reply has it from that Engine, exactly if the
  endpoint still leads to the Engine that was asked.  Only a
  request can be led astray: the time-sync phase writes the
  entry of the Engine it addressed.
-/
theorem clock_written_by_its_engine_iff
    {c c' : Client}
    {e : Event}
    {t : Nat}
    {task : Task}
    {x : Exchange}
    {p : Pending}
    {engineId : Octets}
    (hRun :
      Machine.run (step ssl) (fresh id now) events = some c)
    (hStep : step ssl c e = some c')
    (hTakes : TakesUp c t task x p)
    (hAuthenticated : p.replyAuthenticated = true)
    (hWritten :
      c'.cache.engines.lookup engineId ≠
        c.cache.engines.lookup engineId) :
    (∃ creds datagram msg,
        SignedBy ssl events task x p engineId creds datagram
          msg) ↔
      ∀ creds attempt, task.work = .v3 creds attempt →
        c.cache.index.lookup task.target.endpoint =
          some p.engineId := by
  have hSound := sound_of_run hRun
  rcases hSound.reply hTakes with
    ⟨hAsked, _, _, _, hReply⟩
  rcases step_entry hStep engineId with
    hSame | ⟨t', task', x', p', after, _, hTakes', _, hEntry⟩
  · exact absurd hSame hWritten
  rcases hTakes.unique hTakes' with ⟨rfl, rfl, rfl, rfl⟩
  have hAsks := hAsked.asks
  unfold Asks at hAsks
  -- What a request writes is the entry its endpoint leads to.
  have hRequest :
      ∀ creds attempt, task'.work = .v3 creds attempt →
        c.cache.index.lookup task'.target.endpoint =
            some engineId →
          ((∃ creds datagram msg,
            SignedBy ssl events task' x' p' engineId creds
              datagram msg) ↔
            ∀ creds attempt,
              task'.work = .v3 creds attempt →
                c.cache.index.lookup task'.target.endpoint =
                  some p'.engineId) := by
    intro creds attempt hWork hIndex
    rw [hWork] at hAsks
    rcases hAsks with ⟨hSealed, hRequired⟩
    constructor
    · rintro ⟨creds', datagram, msg, hSigned⟩ _ _ _
      rw [hIndex, hSigned.asked]
    · intro hLed
      have hSame := hLed creds attempt hWork
      rw [hIndex] at hSame
      cases hSame
      have hLevel : creds.level.isAuthenticated = true := by
        cases hLevel : creds.level.isAuthenticated with
        | true => rfl
        | false =>
            have hNot : p'.authRequired = false :=
              hRequired.trans hLevel
            have hV3 : p'.v3 = true := hSealed.v3
            rcases hReply.digestVerified hV3 hAuthenticated
              with ⟨_, _, hMust, _⟩
            rw [hNot] at hMust
            cases hMust
      exact ⟨creds, hSound.signedBy hTakes'
        (by rw [hWork]; rfl) hSealed rfl hLevel
        hAuthenticated⟩
  cases hEntry with
  | distrusted hWork _ _ hIndex _ _ _ =>
      exact hRequest _ _ hWork hIndex
  | adopted hWork _ hIndex _ _ =>
      exact hRequest _ _ hWork hIndex
  | identified hWork _ _ _ =>
      -- The identity phase accepts nothing as signed.
      rw [hWork] at hAsks
      rcases hReply.digestVerified hAsks.1 hAuthenticated with
        ⟨_, _, hMust, _⟩
      have hNot : p'.authRequired = false := hAsks.2
      rw [hNot] at hMust
      cases hMust
  | based hWork _ _ =>
      rw [hWork] at hAsks
      rcases hAsks with ⟨hSealed, hLevel⟩
      have hEngine : p'.engineId = engineId :=
        hSealed.engineId_eq
      constructor
      · intro _ creds attempt hOther
        rw [hWork] at hOther
        cases hOther
      · intro _
        subst hEngine
        exact ⟨_, hSound.signedBy hTakes'
          (by rw [hWork]; rfl) hSealed rfl hLevel
          hAuthenticated⟩

/- What an entry says of an Engine's clock. -/
structure Clock where
  boots : Int32
  time : Int32
  synced : Bool
  deriving DecidableEq

def Client.clock
    (c : Client)
    (engineId : Octets) : Option Clock :=
  (c.cache.engines.lookup engineId).map (fun engine =>
    ⟨engine.boots, engine.time, engine.timeSynced⟩)

theorem Client.lookup_ne_of_clock_ne
    {c c' : Client}
    {engineId : Octets}
    (hClock : c'.clock engineId ≠ c.clock engineId) :
    c'.cache.engines.lookup engineId ≠
      c.cache.engines.lookup engineId := by
  intro hSame
  apply hClock
  rw [Client.clock, Client.clock, hSame]

/- The time-sync phase, about to take up its reply. -/
theorem syncedRun_clock :
    (Machine.run (step agentSsl) (fresh 1 0)
      (askedRun.take 17)).bind (fun c =>
        (step agentSsl c ahead).bind (fun c' =>
          c.takenUp.map (fun found =>
            (found.2.1.work,
              found.2.2.2.replyAuthenticated,
              c.clock agentEngineId,
              c'.clock agentEngineId)))) =
      some (.sync agentUser 0 agentEngineId, true,
        some ⟨5, 1000, false⟩, some ⟨5, 1000, true⟩) := by
  decide +kernel

/- The Response to the request, ten seconds later. -/
def laterRun : List Event :=
  askedRun ++
    [.receive agentEndpoint
      (agentMessage agentSsl .authNoPriv 3
        { agentUsm with time := 1010 } (upTimeResponse 3)),
    .resume 0, ahead]

theorem laterRun_clock :
    (Machine.run (step agentSsl) (fresh 1 0)
      laterRun).bind (fun c =>
        (step agentSsl c ahead).bind (fun c' =>
          c.takenUp.map (fun found =>
            (found.2.1.work,
              decide (c.cache.index.lookup
                  found.2.1.target.endpoint =
                some found.2.2.2.engineId ∧
                found.2.2.2.replyAuthenticated = true),
              c.clock agentEngineId,
              c'.clock agentEngineId)))) =
      some (.v3 agentUser 0, true,
        some ⟨5, 1000, true⟩, some ⟨5, 1010, true⟩) := by
  decide +kernel

/-
  The Agent's clock is trusted on the Agent's word, and the
  later one that a Response brings as well.
-/
theorem clock_written_by_its_engine_sample :
    (∃ c c' t task x p creds datagram msg,
      Machine.run (step agentSsl) (fresh 1 0)
          (askedRun.take 17) = some c ∧
        step agentSsl c ahead = some c' ∧
        TakesUp c t task x p ∧
        c'.clock agentEngineId ≠ c.clock agentEngineId ∧
        SignedBy agentSsl (askedRun.take 17) task x p
          agentEngineId creds datagram msg) ∧
      ∃ c c' t task x p creds datagram msg,
        Machine.run (step agentSsl) (fresh 1 0) laterRun =
            some c ∧
          step agentSsl c ahead = some c' ∧
          TakesUp c t task x p ∧
          task.work = .v3 agentUser 0 ∧
          c'.clock agentEngineId ≠ c.clock agentEngineId ∧
          SignedBy agentSsl laterRun task x p agentEngineId
            creds datagram msg := by
  constructor
  · rcases Option.bind_eq_some_iff.mp syncedRun_clock with
      ⟨c, hRun, hState⟩
    rcases Option.bind_eq_some_iff.mp hState with
      ⟨c', hStep, hState⟩
    rcases Option.map_eq_some_iff.mp hState with
      ⟨⟨t, task, x, p⟩, hTaken, hFound⟩
    simp only [Prod.mk.injEq] at hFound
    rcases hFound with ⟨hWork, hAuth, hBefore, hAfter⟩
    have hTakes := Client.takenUp_eq_some hTaken
    have hClock :
        c'.clock agentEngineId ≠ c.clock agentEngineId := by
      rw [hBefore, hAfter]
      decide
    rcases (clock_written_by_its_engine_iff hRun hStep hTakes
      hAuth (Client.lookup_ne_of_clock_ne hClock)).mpr
        (by simp [hWork]) with
      ⟨creds, datagram, msg, hSigned⟩
    exact ⟨c, c', t, task, x, p, creds, datagram, msg, hRun,
      hStep, hTakes, hClock, hSigned⟩
  · rcases Option.bind_eq_some_iff.mp laterRun_clock with
      ⟨c, hRun, hState⟩
    rcases Option.bind_eq_some_iff.mp hState with
      ⟨c', hStep, hState⟩
    rcases Option.map_eq_some_iff.mp hState with
      ⟨⟨t, task, x, p⟩, hTaken, hFound⟩
    simp only [Prod.mk.injEq, decide_eq_true_eq] at hFound
    rcases hFound with
      ⟨hWork, ⟨hIndex, hAuth⟩, hBefore, hAfter⟩
    have hTakes := Client.takenUp_eq_some hTaken
    have hClock :
        c'.clock agentEngineId ≠ c.clock agentEngineId := by
      rw [hBefore, hAfter]
      decide
    -- The endpoint still leads to the Engine that was asked.
    rcases (clock_written_by_its_engine_iff hRun hStep hTakes
      hAuth (Client.lookup_ne_of_clock_ne hClock)).mpr
        (fun _ _ _ => hIndex) with
      ⟨creds, datagram, msg, hSigned⟩
    exact ⟨c, c', t, task, x, p, creds, datagram, msg, hRun,
      hStep, hTakes, hWork, hClock, hSigned⟩

/- The guest's request parks behind a new discovery. -/
def parkedRun : List Event :=
  reportedRun ++ [ahead, ahead, ahead, ahead, ahead]

/-
  That discovery leads the endpoint to the other Engine, and
  then the first request's signed Response arrives.
-/
def strayRun : List Event :=
  parkedRun ++
    [.sent 3 none,
    .receive agentEndpoint
      (agentMessage agentSsl .noAuthNoPriv 5 strayUsm
        (usmReport usmStatsUnknownEngineIds)),
    .resume 3, ahead, ahead, ahead,
    .receive agentEndpoint
      (agentMessage agentSsl .authNoPriv 3 agentUsm
        (upTimeResponse 3)),
    .resume 0, ahead]

theorem strayRun_clock :
    (Machine.run (step agentSsl) (fresh 1 0)
      strayRun).bind (fun c =>
        (step agentSsl c ahead).bind (fun c' =>
          c.takenUp.map (fun found =>
            (found.2.2.2.engineId,
              found.2.2.2.replyAuthenticated,
              c.clock strayUsm.engineId,
              c'.clock strayUsm.engineId)))) =
      some (agentEngineId, true,
        some ⟨1, 10, false⟩, some ⟨5, 1000, true⟩) := by
  decide +kernel

/-
  The clock of one Engine is trusted on the word of another:
  what the Agent signed becomes the other Engine's clock.
-/
theorem clock_written_by_another_engine :
    ∃ c c' t task x p,
      Machine.run (step agentSsl) (fresh 1 0) strayRun =
          some c ∧
        step agentSsl c ahead = some c' ∧
        TakesUp c t task x p ∧
        p.replyAuthenticated = true ∧
        p.engineId = agentEngineId ∧
        c.clock strayUsm.engineId = some ⟨1, 10, false⟩ ∧
        c'.clock strayUsm.engineId = some ⟨5, 1000, true⟩ ∧
        ¬ ∃ creds datagram msg,
          SignedBy agentSsl strayRun task x p
            strayUsm.engineId creds datagram msg := by
  rcases Option.bind_eq_some_iff.mp strayRun_clock with
    ⟨c, hRun, hState⟩
  rcases Option.bind_eq_some_iff.mp hState with
    ⟨c', hStep, hState⟩
  rcases Option.map_eq_some_iff.mp hState with
    ⟨⟨t, task, x, p⟩, hTaken, hFound⟩
  simp only [Prod.mk.injEq] at hFound
  rcases hFound with ⟨hEngine, hAuth, hBefore, hAfter⟩
  refine ⟨c, c', t, task, x, p, hRun, hStep,
    Client.takenUp_eq_some hTaken, hAuth, hEngine, hBefore,
    hAfter, ?_⟩
  rintro ⟨creds, datagram, msg, hSigned⟩
  have hSame := hEngine.symm.trans hSigned.asked
  revert hSame
  decide

end Snmpio

------------------------------------------------------------
-- The Order of Pairs
------------------------------------------------------------

namespace Snmpio

variable {ssl : OpenSsl}

theorem not_lower_self
    (engine : EngineState) :
    ¬ Lower engine.boots engine.time engine := by
  rintro (hBoots | ⟨_, hTime⟩)
  · exact Int32.lt_irrefl hBoots
  · exact Int32.lt_irrefl hTime

/- What a step makes of a reply that is taken up. -/
theorem step_takesUp
    {c c' : Client}
    {out : Outside}
    {t : Nat}
    {task : Task}
    {x : Exchange}
    {p : Pending}
    (hStep : step ssl c (.advance out) = some c')
    (hTakes : TakesUp c t task x p) :
    c'.cache = (afterSuccess c task p).1.cache := by
  rcases hTakes.running with ⟨rest, hStrand⟩
  have hMove :
      runTask ssl out c task =
        some ((afterSuccess c task p).1,
          (afterSuccess c task p).2, none) := by
    unfold runTask
    rw [hTakes.point]
    dsimp only
    rw [hTakes.pending]
    rfl
  simp only [step, advance, hStrand, hTakes.found, hMove,
    Option.bind_eq_bind, Option.bind_some,
    Option.some.injEq] at hStep
  rw [← hStep, settle_cache]

/- A time-sync reply that puts a trusted clock back. -/
structure PutsBack
    (c : Client)
    (engineId : Octets)
    (engine : EngineState)
    (t : Nat)
    (task : Task)
    (x : Exchange)
    (p : Pending) : Prop where
  takes : TakesUp c t task x p
  work : ∃ creds d, task.work = .sync creds d engineId
  authenticated : p.replyAuthenticated = true
  boots : p.security.boots ≠ bootsCeiling
  lower : Lower p.security.boots p.security.time engine

/- A signed Report with lower boots than a trusted clock. -/
structure Distrusts
    (c : Client)
    (engineId : Octets)
    (engine : EngineState)
    (t : Nat)
    (task : Task)
    (x : Exchange)
    (p : Pending) : Prop where
  takes : TakesUp c t task x p
  work : ∃ creds attempt, task.work = .v3 creds attempt
  authenticated : p.replyAuthenticated = true
  report : p.response.type = .report
  index :
    c.cache.index.lookup task.target.endpoint =
      some engineId
  lower : p.security.boots < engine.boots

/-
  A step lowers the pair of a clock that it finds and leaves
  trusted, exactly if it takes up a time-sync reply with a
  lower pair.  A trusted clock is never lost, and only a
  signed Report with lower boots makes it distrusted, with
  its pair as it was.
-/
theorem clock_lowered_iff
    {c c' : Client}
    {e : Event}
    {engineId : Octets}
    {engine : EngineState}
    (hStep : step ssl c e = some c')
    (hEngine :
      c.cache.engines.lookup engineId = some engine)
    (hSynced : engine.timeSynced = true) :
    ∃ engine',
      c'.cache.engines.lookup engineId = some engine' ∧
        (engine'.timeSynced = true →
          (Lower engine'.boots engine'.time engine ↔
            (∃ out, e = .advance out) ∧
              ∃ t task x p,
                PutsBack c engineId engine t task x p)) ∧
        (engine'.timeSynced = false →
          engine' = { engine with timeSynced := false } ∧
            ∃ t task x p,
              Distrusts c engineId engine t task x p) := by
  -- A reply that puts the clock back is what is written.
  have hBack :
      ∀ engine', c'.cache.engines.lookup engineId =
          some engine' →
        ((∃ out, e = .advance out) ∧
          ∃ t task x p,
            PutsBack c engineId engine t task x p) →
          Lower engine'.boots engine'.time engine := by
    rintro engine' hEngine'
      ⟨⟨out, rfl⟩, t, task, x, p, hTakes, ⟨creds, d, hWork⟩,
        hAuth, hBoots, hLower⟩
    rw [step_takesUp hStep hTakes] at hEngine'
    unfold afterSuccess at hEngine'
    rw [hWork] at hEngine'
    dsimp only at hEngine'
    rw [afterSync, if_neg (not_not_intro hAuth),
      if_neg hBoots] at hEngine'
    simp only [EngineCache.recordBaseline,
      AList.lookup_insert, Option.some.injEq] at hEngine'
    rw [← hEngine']
    exact hLower
  rcases step_entry hStep engineId with
    hSame | ⟨t, task, x, p, after, hEvent, hTakes, hAfter,
      hEntry⟩
  · rw [hEngine] at hSame
    refine ⟨engine, hSame, ?_, ?_⟩
    · intro _
      exact ⟨fun hLower =>
        absurd hLower (not_lower_self engine),
        hBack engine hSame⟩
    · intro hNot
      rw [hSynced] at hNot
      cases hNot
  · refine ⟨after, hAfter, ?_, ?_⟩
    · intro hStill
      refine ⟨?_, hBack after hAfter⟩
      intro hLower
      cases hEntry with
      | distrusted _ _ _ _ _ _ _ => cases hStill
      | adopted _ _ _ hBefore hNotLower =>
          rw [hEngine] at hBefore
          cases hBefore
          exact absurd hLower hNotLower
      | identified _ _ _ hKept =>
          rw [hKept engine hEngine hSynced] at hLower
          exact absurd hLower (not_lower_self engine)
      | based hWork hAuth hBoots =>
          exact ⟨hEvent, t, task, x, p, hTakes,
            ⟨_, _, hWork⟩, hAuth, hBoots, hLower⟩
    · intro hNot
      cases hEntry with
      | distrusted hWork hAuth hReport hIndex hBefore _
          hLower =>
          rw [hEngine] at hBefore
          cases hBefore
          exact ⟨rfl, t, task, x, p, hTakes, ⟨_, _, hWork⟩,
            hAuth, hReport, hIndex, hLower⟩
      | adopted _ _ _ _ _ => cases hNot
      | identified _ _ hFlag _ =>
          rw [hNot, hEngine] at hFlag
          simp [hSynced] at hFlag
      | based _ _ _ => cases hNot

/- The Agent of `askedRun`, at a second address. -/
def secondEndpoint : Endpoint :=
  { address := [192, 0, 2, 2] }

/-
  The Agent is asked at both addresses at once, and answers
  the time-sync phase of the second discovery a second later
  than that of the first.  Its replies overtake each other.
-/
def overtakenRun : List Event :=
  [ -- Two requests, each behind a discovery of its own.
    .request agentTarget (.credentials agentUser)
      upTimeRequest,
    ahead, ahead, ahead, ahead, ahead,
    .sent 1 none,
    .request { endpoint := secondEndpoint }
      (.credentials agentUser) upTimeRequest,
    ahead, ahead, ahead, ahead, ahead,
    .sent 3 none,
    -- Both identity phases.
    .receive agentEndpoint
      (agentMessage agentSsl .noAuthNoPriv 1
        { agentUsm with userName := [] }
        (usmReport usmStatsUnknownEngineIds)),
    .resume 1, ahead, ahead, ahead, ahead,
    .sent 1 none,
    .receive secondEndpoint
      (agentMessage agentSsl .noAuthNoPriv 2
        { agentUsm with userName := [] }
        (usmReport usmStatsUnknownEngineIds)),
    .resume 3, ahead, ahead, ahead, ahead,
    .sent 3 none,
    -- The later time-sync reply is taken up first.
    .receive secondEndpoint
      (agentMessage agentSsl .authNoPriv 4
        { agentUsm with time := 1001 }
        (usmReport usmStatsNotInTimeWindows)),
    .resume 3, ahead, ahead, ahead,
    .receive agentEndpoint
      (agentMessage agentSsl .authNoPriv 3 agentUsm
        (usmReport usmStatsNotInTimeWindows)),
    .resume 1, ahead]

theorem overtakenRun_clock :
    (Machine.run (step agentSsl) (fresh 1 0)
      overtakenRun).bind (fun c =>
        (step agentSsl c ahead).map (fun c' =>
          (c.clock agentEngineId,
            c'.clock agentEngineId))) =
      some (some ⟨5, 1001, true⟩,
        some ⟨5, 1000, true⟩) := by
  decide +kernel

/- The entry that a clock was read from. -/
theorem Client.clock_eq_some
    {c : Client}
    {engineId : Octets}
    {clock : Clock}
    (hClock : c.clock engineId = some clock) :
    ∃ engine,
      c.cache.engines.lookup engineId = some engine ∧
        clock =
          ⟨engine.boots, engine.time, engine.timeSynced⟩ := by
  rcases Option.map_eq_some_iff.mp hClock with
    ⟨engine, hEngine, hRead⟩
  exact ⟨engine, hEngine, hRead.symm⟩

/- Two clocks, of which the second is behind. -/
theorem overtakenRun_lower :
    ∃ c c' engine engine',
      Machine.run (step agentSsl) (fresh 1 0) overtakenRun =
          some c ∧
        step agentSsl c ahead = some c' ∧
        c.cache.engines.lookup agentEngineId = some engine ∧
        c'.cache.engines.lookup agentEngineId =
          some engine' ∧
        engine.timeSynced = true ∧
        engine'.timeSynced = true ∧
        Lower engine'.boots engine'.time engine := by
  rcases Option.bind_eq_some_iff.mp overtakenRun_clock with
    ⟨c, hRun, hState⟩
  rcases Option.map_eq_some_iff.mp hState with
    ⟨c', hStep, hClocks⟩
  rcases Prod.mk.inj hClocks with ⟨hBefore, hAfter⟩
  rcases Client.clock_eq_some hBefore with
    ⟨engine, hEngine, hRead⟩
  rcases Client.clock_eq_some hAfter with
    ⟨engine', hEngine', hRead'⟩
  injection hRead with hBoots hTime hSynced
  injection hRead' with hBoots' hTime' hSynced'
  refine ⟨c, c', engine, engine', hRun, hStep, hEngine,
    hEngine', hSynced.symm, hSynced'.symm, Or.inr ⟨?_, ?_⟩⟩
  · rw [← hBoots, ← hBoots']
  · rw [← hTime, ← hTime']
    decide

/- The clock goes back by a second, trusted throughout. -/
theorem clock_lowered_by_time_sync :
    ¬ ∀ c c' engine engine',
      Machine.run (step agentSsl) (fresh 1 0) overtakenRun =
          some c →
        step agentSsl c ahead = some c' →
        c.cache.engines.lookup agentEngineId = some engine →
        c'.cache.engines.lookup agentEngineId =
          some engine' →
        engine.timeSynced = true →
        engine'.timeSynced = true →
        ¬ Lower engine'.boots engine'.time engine := by
  rcases overtakenRun_lower with
    ⟨c, c', engine, engine', hRun, hStep, hEngine, hEngine',
      hSynced, hSynced', hLower⟩
  intro hNever
  exact hNever c c' engine engine' hRun hStep hEngine hEngine'
    hSynced hSynced' hLower

/-
  The step that does it takes up a time-sync reply.  What a
  Response brings is not lower, and no reply puts it back.
-/
theorem clock_lowered_sample :
    (∃ c c' engine t task x p,
      Machine.run (step agentSsl) (fresh 1 0) overtakenRun =
          some c ∧
        step agentSsl c ahead = some c' ∧
        c.cache.engines.lookup agentEngineId = some engine ∧
        engine.timeSynced = true ∧
        PutsBack c agentEngineId engine t task x p) ∧
      ∃ c c' engine,
        Machine.run (step agentSsl) (fresh 1 0) laterRun =
            some c ∧
          step agentSsl c ahead = some c' ∧
          c.cache.engines.lookup agentEngineId =
            some engine ∧
          engine.timeSynced = true ∧
          c'.clock agentEngineId ≠ c.clock agentEngineId ∧
          ¬ ∃ t task x p,
            PutsBack c agentEngineId engine t task x p := by
  constructor
  · rcases overtakenRun_lower with
      ⟨c, c', engine, engine', hRun, hStep, hEngine, hEngine',
        hSynced, hSynced', hLower⟩
    rcases clock_lowered_iff hStep hEngine hSynced with
      ⟨found, hFound, hLowered, _⟩
    rw [hEngine'] at hFound
    cases hFound
    rcases ((hLowered hSynced').mp hLower).2 with
      ⟨t, task, x, p, hBack⟩
    exact ⟨c, c', engine, t, task, x, p, hRun, hStep, hEngine,
      hSynced, hBack⟩
  · rcases Option.bind_eq_some_iff.mp laterRun_clock with
      ⟨c, hRun, hState⟩
    rcases Option.bind_eq_some_iff.mp hState with
      ⟨c', hStep, hState⟩
    rcases Option.map_eq_some_iff.mp hState with
      ⟨_, _, hFound⟩
    simp only [Prod.mk.injEq] at hFound
    rcases hFound with ⟨_, _, hBefore, hAfter⟩
    rcases Client.clock_eq_some hBefore with
      ⟨engine, hEngine, hRead⟩
    injection hRead with hBoots hTime hSynced
    rcases clock_lowered_iff hStep hEngine hSynced.symm with
      ⟨engine', hEngine', hLowered, _⟩
    have hRead' := hAfter
    rw [Client.clock, hEngine', Option.map_some,
      Option.some.injEq] at hRead'
    injection hRead' with hBoots' hTime' hSynced'
    refine ⟨c, c', engine, hRun, hStep, hEngine, hSynced.symm,
      by rw [hBefore, hAfter]; decide, ?_⟩
    intro hBack
    have hLower := (hLowered hSynced').mpr ⟨⟨_, rfl⟩, hBack⟩
    rw [hBoots', hTime', Lower, ← hBoots, ← hTime] at hLower
    revert hLower
    decide

end Snmpio

------------------------------------------------------------
-- Timely Responses
------------------------------------------------------------

namespace Snmpio

variable {ssl : OpenSsl}

/- `deliverV3` accepts the datagram for this exchange. -/
structure AcceptsV3
    (ssl : OpenSsl)
    (c : Client)
    (sender : Endpoint)
    (datagram : Octets)
    (ref : Nat)
    (p p' : Pending)
    (msg : V3Message) : Prop where
  version : messageVersion datagram = some versionV3
  decoded : (decodeV3Message datagram).1 = some msg
  found : c.findPending msg.header.msgId = some (ref, p)
  verdict :
    judgeV3 ssl c.cache c.now p datagram sender msg =
      .accept p'

/- What an accepted message says of the judged exchange. -/
theorem judgeV3_timely
    {cache : EngineCache}
    {now : Int}
    {p p' : Pending}
    {datagram : Octets}
    {sender : Endpoint}
    {msg : V3Message}
    (hAccept :
      judgeV3 ssl cache now p datagram sender msg =
        .accept p')
    (hResponse : p'.response.type ≠ .report)
    (hRequired : p.authRequired = true) :
    cache.timely now sender p'.security = true := by
  unfold judgeV3 at hAccept
  dsimp only at hAccept
  split_ifs at hAccept with hV2c hSender hVerify
  rcases hOpen : openScopedPdu ssl p msg with e | opened
  · rw [hOpen] at hAccept
    cases hAccept
  · rw [hOpen] at hAccept
    rcases judgeOpened_accept hAccept with ⟨rfl, hData⟩
    exact (hData hResponse).2.2.2 hRequired

/-
  A Response that is accepted while the endpoint leads to the
  Engine it was asked of is no replay by that Engine's clock.
-/
theorem response_timely
    {c : Client}
    {sender : Endpoint}
    {datagram : Octets}
    {ref : Nat}
    {p p' : Pending}
    {msg : V3Message}
    {engine : EngineState}
    (hAccepts :
      AcceptsV3 ssl c sender datagram ref p p' msg)
    (hResponse : p'.response.type ≠ .report)
    (hRequired : p.authRequired = true)
    (hEngine :
      c.cache.engines.lookup p.engineId = some engine)
    (hSynced : engine.timeSynced = true)
    (hIndex :
      c.cache.index.lookup sender = some p.engineId) :
    p'.security.boots ≠ bootsCeiling ∧
      ¬ p'.security.boots < engine.boots ∧
      (p'.security.boots = engine.boots →
        engine.projected c.now - timeWindowSeconds ≤
          p'.security.time.toInt) := by
  apply EngineCache.timely_synced _ hSynced
  · exact judgeV3_timely hAccepts.verdict hResponse hRequired
  · rw [EngineCache.engineAt_eq_some]
    exact ⟨p.engineId, hIndex, hEngine⟩

/- The Agent's Response, from before its last restart. -/
def replayedResponse : Octets :=
  agentMessage agentSsl .authNoPriv 3
    { agentUsm with boots := 4 } (upTimeResponse 3)

/- The verdict of `deliverV3` on a datagram, computed. -/
def Client.verdictV3
    (ssl : OpenSsl)
    (c : Client)
    (sender : Endpoint)
    (datagram : Octets) :
    Option (Nat × Pending × Pending × V3Message) := do
  let version ← messageVersion datagram
  let msg ← (decodeV3Message datagram).1
  let (ref, p) ← c.findPending msg.header.msgId
  match judgeV3 ssl c.cache c.now p datagram sender msg with
  | .drop _ => none
  | .accept p' =>
      if version = versionV3 then some (ref, p, p', msg)
      else none

theorem Client.verdictV3_eq_some
    {c : Client}
    {sender : Endpoint}
    {datagram : Octets}
    {ref : Nat}
    {p p' : Pending}
    {msg : V3Message}
    (hVerdict :
      c.verdictV3 ssl sender datagram =
        some (ref, p, p', msg)) :
    AcceptsV3 ssl c sender datagram ref p p' msg := by
  rcases Option.bind_eq_some_iff.mp hVerdict with
    ⟨version, hVersion, hVerdict⟩
  rcases Option.bind_eq_some_iff.mp hVerdict with
    ⟨decoded, hDecoded, hVerdict⟩
  rcases Option.bind_eq_some_iff.mp hVerdict with
    ⟨⟨found, before⟩, hFound, hVerdict⟩
  dsimp only at hVerdict
  split at hVerdict
  · cases hVerdict
  · next hJudged =>
    split_ifs at hVerdict with hV3
    simp only [Option.some.injEq, Prod.mk.injEq] at hVerdict
    rcases hVerdict with ⟨rfl, rfl, rfl, rfl⟩
    exact ⟨hV3 ▸ hVersion, hDecoded, hFound, hJudged⟩

/- The genuine Response of `answeredRun` is accepted. -/
theorem askedRun_verdict :
    (Machine.run (step agentSsl) (fresh 1 0)
      askedRun).bind (fun c =>
        (c.verdictV3 agentSsl agentEndpoint
          (agentMessage agentSsl .authNoPriv 3 agentUsm
            (upTimeResponse 3))).map (fun (_, p, p', _) =>
              (decide (p'.response.type ≠ .report ∧
                p.authRequired = true), p.engineId,
                c.clock agentEngineId,
                c.cache.index.lookup agentEndpoint))) =
      some (true, agentEngineId,
        some ⟨5, 1000, true⟩, some agentEngineId) := by
  decide +kernel

theorem response_timely_sample :
    ∃ c ref p p' msg engine,
      Machine.run (step agentSsl) (fresh 1 0) askedRun =
          some c ∧
        AcceptsV3 agentSsl c agentEndpoint
          (agentMessage agentSsl .authNoPriv 3 agentUsm
            (upTimeResponse 3)) ref p p' msg ∧
        c.cache.engines.lookup p.engineId = some engine ∧
        ¬ p'.security.boots < engine.boots := by
  rcases Option.bind_eq_some_iff.mp askedRun_verdict with
    ⟨c, hRun, hState⟩
  rcases Option.map_eq_some_iff.mp hState with
    ⟨⟨ref, p, p', msg⟩, hVerdict, hFound⟩
  simp only [Prod.mk.injEq, decide_eq_true_eq] at hFound
  rcases hFound with
    ⟨⟨hResponse, hRequired⟩, hAsked, hClock, hIndex⟩
  rcases Client.clock_eq_some hClock with
    ⟨engine, hEngine, hRead⟩
  injection hRead with _ _ hSynced
  have hAccepts := Client.verdictV3_eq_some hVerdict
  rw [← hAsked] at hEngine hIndex
  exact ⟨c, ref, p, p', msg, engine, hRun, hAccepts, hEngine,
    (response_timely hAccepts hResponse hRequired hEngine
      hSynced.symm hIndex).2.1⟩

theorem parkedRun_verdict :
    (Machine.run (step agentSsl) (fresh 1 0)
      parkedRun).bind (fun c =>
        (step agentSsl c
          (.receive agentEndpoint replayedResponse)).bind
            (fun _ =>
          (c.verdictV3 agentSsl agentEndpoint
            replayedResponse).map (fun (_, p, p', _) =>
              (decide (p'.response.type ≠ .report ∧
                p.authRequired = true), p.engineId,
                c.clock agentEngineId,
                p'.security.boots)))) =
      some (true, agentEngineId,
        some ⟨5, 1000, true⟩, 4) := by
  decide +kernel

/-
  Once the guest's Report has led the endpoint nowhere, the
  first request takes a Response from before the Agent's
  last restart, with the Agent's clock still trusted.
-/
theorem response_replayed :
    ∃ c c' ref p p' msg engine,
      Machine.run (step agentSsl) (fresh 1 0) parkedRun =
          some c ∧
        step agentSsl c
          (.receive agentEndpoint replayedResponse) =
            some c' ∧
        AcceptsV3 agentSsl c agentEndpoint replayedResponse
          ref p p' msg ∧
        p'.response.type ≠ .report ∧
        p.authRequired = true ∧
        c.cache.engines.lookup p.engineId = some engine ∧
        engine.timeSynced = true ∧
        p'.security.boots < engine.boots := by
  rcases Option.bind_eq_some_iff.mp parkedRun_verdict with
    ⟨c, hRun, hState⟩
  rcases Option.bind_eq_some_iff.mp hState with
    ⟨c', hStep, hState⟩
  rcases Option.map_eq_some_iff.mp hState with
    ⟨⟨ref, p, p', msg⟩, hVerdict, hFound⟩
  simp only [Prod.mk.injEq, decide_eq_true_eq] at hFound
  rcases hFound with
    ⟨⟨hResponse, hRequired⟩, hAsked, hClock, hBoots⟩
  rcases Client.clock_eq_some hClock with
    ⟨engine, hEngine, hRead⟩
  injection hRead with hCached _ hSynced
  rw [← hAsked] at hEngine
  refine ⟨c, c', ref, p, p', msg, engine, hRun, hStep,
    Client.verdictV3_eq_some hVerdict, hResponse, hRequired,
    hEngine, hSynced.symm, ?_⟩
  rw [hBoots, ← hCached]
  decide

end Snmpio
