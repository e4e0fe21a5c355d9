import Snmpio.Message.Privacy
import Snmpio.Message.V3Message
import Mathlib.Data.List.AList

/-
  What a Client remembers about the Authoritative Engines:
  their clocks, the endpoints they answer at, and the keys
  that have been localized to them.

  The maps of the source are `AList`s.  The local clock
  counts nanoseconds.

  Key definitions include:
    * `EngineCache`
    * `EngineCache.timely`
    * `EngineCache.observeEngineTime`
    * `EngineNotion`
    * `KeyCache`
    * `requestKeys`

  Key theorems include:
    * `EngineCache.timely_eq`
    * `EngineCache.observeEngineTime_cases`
    * `timely_iff_accepts_iff`
    * `requestKeys_eq`
-/

------------------------------------------------------------
-- Targets
------------------------------------------------------------

namespace Snmpio

structure Endpoint where
  v6 : Bool := false
  address : Octets
  port : UInt16 := 161
  deriving DecidableEq

/- `timeout` is in milliseconds. -/
structure Target where
  endpoint : Endpoint
  timeout : Int := 2000
  retries : Int32 := 1
  deriving DecidableEq

/- A Community, or Credentials for USM. -/
inductive Auth where
  | community (value : Octets)
  | credentials (creds : Credentials)
  deriving DecidableEq

end Snmpio

------------------------------------------------------------
-- Reports
------------------------------------------------------------

namespace Snmpio

def usmStatsPrefix : Oid :=
  ⟨[1, 3, 6, 1, 6, 3, 15, 1, 1]⟩

def usmStatsUnsupportedSecLevels : UInt32 := 1

def usmStatsNotInTimeWindows : UInt32 := 2

def usmStatsUnknownUserNames : UInt32 := 3

def usmStatsUnknownEngineIds : UInt32 := 4

def usmStatsWrongDigests : UInt32 := 5

def usmStatsDecryptionErrors : UInt32 := 6

/- The leaf of the counter that a Report names. -/
def usmStatsCounter
    (report : Pdu) : Option UInt32 :=
  match report.varbinds with
  | [] => none
  | vb :: _ =>
      if ¬ usmStatsPrefix.isPrefixOf vb.name ∨
          vb.name.size ≤ usmStatsPrefix.size then
        none
      else
        vb.name.subids[usmStatsPrefix.size]?

def reportsNotInTimeWindows
    (pdu : Pdu) : Bool :=
  pdu.type = .report ∧
    usmStatsCounter pdu = some usmStatsNotInTimeWindows

/- The error that a Report's counter stands for. -/
def reportError
    (counter : Option UInt32) : Errc :=
  match counter with
  | none => .unexpectedReport
  | some n =>
      if n = usmStatsUnsupportedSecLevels then
        .unsupportedSecurityLevel
      else if n = usmStatsNotInTimeWindows then
        .notInTimeWindow
      else if n = usmStatsUnknownUserNames then
        .unknownUserName
      else if n = usmStatsUnknownEngineIds then
        .unknownEngineId
      else if n = usmStatsWrongDigests then .authFailed
      else if n = usmStatsDecryptionErrors then
        .decryptionError
      else .unexpectedReport

end Snmpio

------------------------------------------------------------
-- Clocks
------------------------------------------------------------

namespace Snmpio

def timeWindowSeconds : Int := 150

def bootsCeiling : Int32 := Int32.maxValue

def timeCeiling : Int := Int32.maxValue.toInt

/- `learnt` is the source's `at`. -/
structure EngineState where
  engineId : Octets := []
  boots : Int32 := 0
  time : Int32 := 0
  learnt : Int := 0
  timeSynced : Bool := false
  deriving DecidableEq

/- The Engine's time by the local clock, in whole seconds. -/
def EngineState.projected
    (engine : EngineState)
    (now : Int) : Int :=
  engine.time.toInt + (now - engine.learnt).tdiv 1000000000

/- A pair that comes before the one that is held. -/
def Lower
    (boots time : Int32)
    (engine : EngineState) : Prop :=
  boots < engine.boots ∨
    (boots = engine.boots ∧ time < engine.time)

/- `index` is the source's `m_engineAt`. -/
structure EngineCache where
  engines : AList (fun _ : Octets => EngineState) := ∅
  index : AList (fun _ : Endpoint => Octets) := ∅

namespace EngineCache

variable (cache : EngineCache)

/- Looked up by endpoint, and then by its id. -/
def engineAt
    (endpoint : Endpoint) : Option EngineState :=
  (cache.index.lookup endpoint).bind
    (fun engineId => cache.engines.lookup engineId)

/- Replaces the entry that `engineAt` found. -/
def setEngineAt
    (endpoint : Endpoint)
    (engine : EngineState) : EngineCache :=
  match cache.index.lookup endpoint with
  | none => cache
  | some engineId =>
      { cache with
        engines := cache.engines.insert engineId engine }

/- RFC 3414 3.2(7)(b), against the clock projected. -/
def timely
    (now : Int)
    (sender : Endpoint)
    (security : UsmParameters) : Bool :=
  match cache.engineAt sender with
  -- Nothing yet to disagree with.
  | none => true
  | some engine =>
      if ¬ engine.timeSynced then true
      else if security.boots = bootsCeiling ∨
          engine.boots = bootsCeiling then
        false
      else if security.boots ≠ engine.boots then
        engine.boots < security.boots
      else
        engine.projected now - timeWindowSeconds ≤
          security.time.toInt

/- A pair that is not behind is taken over. -/
def observeEngineTime
    (now : Int)
    (sender : Endpoint)
    (security : UsmParameters) : EngineCache :=
  match cache.engineAt sender with
  | none => cache
  | some engine =>
      if security.boots = bootsCeiling then cache
      else if security.boots < engine.boots then cache
      else if security.boots = engine.boots ∧
          security.time < engine.time then
        cache
      else
        cache.setEngineAt sender
          { engine with
            boots := security.boots
            time := security.time
            learnt := now
            timeSynced := true }

/- What discovery's first phase writes. -/
def recordIdentity
    (now : Int)
    (endpoint : Endpoint)
    (security : UsmParameters) : EngineCache :=
  let engineId := security.engineId
  let engine : EngineState :=
    { (cache.engines.lookup engineId).getD {} with
      engineId := engineId }
  let engine :=
    if ¬ engine.timeSynced then
      { engine with
        boots := security.boots
        time := security.time
        learnt := now }
    else engine
  { index := cache.index.insert endpoint engineId
    engines := cache.engines.insert engineId engine }

/- What discovery's time-sync phase writes. -/
def recordBaseline
    (now : Int)
    (engineId : Octets)
    (security : UsmParameters) : EngineCache :=
  { cache with
    engines := cache.engines.insert engineId
      { (cache.engines.lookup engineId).getD {} with
        boots := security.boots
        time := security.time
        learnt := now
        timeSynced := true } }

variable {cache}

theorem engineAt_eq_some
    {endpoint : Endpoint}
    {engine : EngineState} :
    cache.engineAt endpoint = some engine ↔
      ∃ engineId, cache.index.lookup endpoint = some engineId ∧
        cache.engines.lookup engineId = some engine :=
  Option.bind_eq_some_iff

/- What `timely` answers about a clock that is trusted. -/
theorem timely_eq
    {now : Int}
    {sender : Endpoint}
    {security : UsmParameters}
    {engine : EngineState}
    (hEngine : cache.engineAt sender = some engine)
    (hSynced : engine.timeSynced = true) :
    cache.timely now sender security = true ↔
      security.boots ≠ bootsCeiling ∧
        engine.boots ≠ bootsCeiling ∧
        (engine.boots < security.boots ∨
          (security.boots = engine.boots ∧
            engine.projected now - timeWindowSeconds ≤
              security.time.toInt)) := by
  unfold timely
  rw [hEngine]
  dsimp only
  rw [if_neg (not_not_intro hSynced)]
  split_ifs with hCeiling hBoots
  · simp only [false_iff]
    rintro ⟨hReceived, hHeld, _⟩
    rcases hCeiling with hIs | hIs
    · exact hReceived hIs
    · exact hHeld hIs
  · rw [not_or] at hCeiling
    rw [decide_eq_true_eq]
    constructor
    · intro hMore
      exact ⟨hCeiling.1, hCeiling.2, Or.inl hMore⟩
    · rintro ⟨_, _, hMore | ⟨hSame, _⟩⟩
      · exact hMore
      · exact absurd hSame hBoots
  · rw [not_or] at hCeiling
    rw [ne_eq, not_not] at hBoots
    rw [decide_eq_true_eq]
    constructor
    · intro hWindow
      exact ⟨hCeiling.1, hCeiling.2, Or.inr ⟨hBoots, hWindow⟩⟩
    · rintro ⟨_, _, hMore | ⟨_, hWindow⟩⟩
      · rw [hBoots] at hMore
        exact absurd hMore Int32.lt_irrefl
      · exact hWindow

/- What a timely pair is, next to one that is trusted. -/
theorem timely_synced
    {now : Int}
    {sender : Endpoint}
    {security : UsmParameters}
    {engine : EngineState}
    (hEngine : cache.engineAt sender = some engine)
    (hSynced : engine.timeSynced = true)
    (hTimely : cache.timely now sender security = true) :
    security.boots ≠ bootsCeiling ∧
      ¬ security.boots < engine.boots ∧
      (security.boots = engine.boots →
        engine.projected now - timeWindowSeconds ≤
          security.time.toInt) := by
  rcases (timely_eq hEngine hSynced).mp hTimely with
    ⟨hReceived, _, hMore | ⟨hSame, hWindow⟩⟩
  · refine ⟨hReceived, Int32.lt_asymm hMore, ?_⟩
    intro hSame
    rw [hSame] at hMore
    exact absurd hMore Int32.lt_irrefl
  · refine ⟨hReceived, ?_, fun _ => hWindow⟩
    rw [hSame]
    exact Int32.lt_irrefl

/- An observed pair is adopted, or nothing happens. -/
theorem observeEngineTime_cases
    (now : Int)
    (sender : Endpoint)
    (security : UsmParameters) :
    cache.observeEngineTime now sender security = cache ∨
      ∃ engineId engine,
        cache.index.lookup sender = some engineId ∧
          cache.engines.lookup engineId = some engine ∧
          ¬ Lower security.boots security.time engine ∧
          cache.observeEngineTime now sender security =
            { cache with
              engines := cache.engines.insert engineId
                { engine with
                  boots := security.boots
                  time := security.time
                  learnt := now
                  timeSynced := true } } := by
  unfold observeEngineTime
  split
  · exact Or.inl rfl
  · next engine hEngine =>
    rcases engineAt_eq_some.mp hEngine with
      ⟨engineId, hIndex, hLookup⟩
    split_ifs with hCeiling hBoots hTime
    · exact Or.inl rfl
    · exact Or.inl rfl
    · exact Or.inl rfl
    · right
      refine ⟨engineId, engine, hIndex, hLookup, ?_, ?_⟩
      · exact not_or.mpr ⟨hBoots, hTime⟩
      · rw [setEngineAt, hIndex]

end EngineCache

end Snmpio

------------------------------------------------------------
-- RFC 3414, Section 3.2, Step 7(b)
------------------------------------------------------------

namespace Snmpio

/-
  What RFC 3414 has a receiver hold about an Authoritative
  Engine: the notions of its boots and of its time, which
  runs, and the latest time that was received.
-/
structure EngineNotion where
  boots : Int
  time : Int
  latestReceived : Int

namespace EngineNotion

/- The notion is replaced by a later pair. -/
def update
    (notion : EngineNotion)
    (boots time : Int) : EngineNotion :=
  if notion.boots < boots ∨
      (boots = notion.boots ∧ notion.latestReceived < time) then
    { boots := boots
      time := time
      latestReceived := time }
  else notion

/- The pair is outside the time window of a notion. -/
def Untimely
    (notion : EngineNotion)
    (boots time : Int) : Prop :=
  notion.boots = 2 ^ 31 - 1 ∨ boots < notion.boots ∨
    (boots = notion.boots ∧ time < notion.time - 150)

instance
    (notion : EngineNotion)
    (boots time : Int) :
    Decidable (notion.Untimely boots time) :=
  inferInstanceAs (Decidable (_ ∨ _ ∨ _))

/- Whether a message with the pair is in the time window. -/
def Accepts
    (notion : EngineNotion)
    (boots time : Int) : Prop :=
  ¬ (notion.update boots time).Untimely boots time

instance
    (notion : EngineNotion)
    (boots time : Int) :
    Decidable (notion.Accepts boots time) :=
  inferInstanceAs (Decidable (¬ _))

end EngineNotion

def EngineState.notion
    (engine : EngineState)
    (now : Int) : EngineNotion :=
  { boots := engine.boots.toInt
    time := engine.projected now
    latestReceived := engine.time.toInt }

/-
  A pair of the present boots that is later than the cached
  one, and more than the window behind its projection.
-/
def EngineState.LagsBehind
    (engine : EngineState)
    (now : Int)
    (security : UsmParameters) : Prop :=
  security.boots = engine.boots ∧
    engine.boots ≠ bootsCeiling ∧
    engine.time < security.time ∧
    security.time.toInt <
      engine.projected now - timeWindowSeconds

/- A pair that is later is in the window, below the ceiling. -/
theorem EngineNotion.accepts_later
    {notion : EngineNotion}
    {boots time : Int}
    (hLater :
      notion.boots < boots ∨
        (boots = notion.boots ∧
          notion.latestReceived < time)) :
    notion.Accepts boots time ↔ boots ≠ 2 ^ 31 - 1 := by
  unfold Accepts Untimely
  rw [update, if_pos hLater]
  constructor
  · intro hAccepts hCeiling
    exact hAccepts (Or.inl hCeiling)
  · rintro hBelow (hCeiling | hLess | ⟨_, hLess⟩)
    · exact hBelow hCeiling
    · exact lt_irrefl boots hLess
    · dsimp only at hLess
      omega

/- Any other pair is compared with the notion as it is. -/
theorem EngineNotion.accepts_earlier
    {notion : EngineNotion}
    {boots time : Int}
    (hEarlier :
      ¬ (notion.boots < boots ∨
        (boots = notion.boots ∧
          notion.latestReceived < time))) :
    notion.Accepts boots time ↔
      ¬ notion.Untimely boots time := by
  unfold Accepts
  rw [update, if_neg hEarlier]

theorem bootsCeiling_toInt :
    bootsCeiling.toInt = 2 ^ 31 - 1 :=
  rfl

/-
  `timely` is the RFC's rule but for pairs that are later
  than the cached one and lag behind its projection, which
  the RFC adopts before it looks at the window.
-/
theorem timely_iff_accepts_iff
    {cache : EngineCache}
    {now : Int}
    {sender : Endpoint}
    {security : UsmParameters}
    {engine : EngineState}
    (hEngine : cache.engineAt sender = some engine)
    (hSynced : engine.timeSynced = true) :
    (cache.timely now sender security = true ↔
        (engine.notion now).Accepts security.boots.toInt
          security.time.toInt) ↔
      ¬ engine.LagsBehind now security := by
  rw [EngineCache.timely_eq hEngine hSynced]
  have hBoots :
      security.boots = engine.boots ↔
        security.boots.toInt = engine.boots.toInt :=
    Int32.toInt_inj.symm
  have hReceived :
      security.boots = bootsCeiling ↔
        security.boots.toInt = 2 ^ 31 - 1 := by
    rw [← bootsCeiling_toInt]
    exact Int32.toInt_inj.symm
  have hHeld :
      engine.boots = bootsCeiling ↔
        engine.boots.toInt = 2 ^ 31 - 1 := by
    rw [← bootsCeiling_toInt]
    exact Int32.toInt_inj.symm
  have hMost : engine.boots.toInt ≤ 2 ^ 31 - 1 :=
    Int32.toInt_le engine.boots
  have hMost' : security.boots.toInt ≤ 2 ^ 31 - 1 :=
    Int32.toInt_le security.boots
  unfold EngineState.LagsBehind timeWindowSeconds
  rw [Int32.lt_iff_toInt_lt, Int32.lt_iff_toInt_lt, hBoots]
  simp only [ne_eq, hReceived, hHeld]
  by_cases hLater :
      (engine.notion now).boots < security.boots.toInt ∨
        (security.boots.toInt = (engine.notion now).boots ∧
          (engine.notion now).latestReceived <
            security.time.toInt)
  · rw [EngineNotion.accepts_later hLater]
    dsimp only [EngineState.notion] at hLater
    omega
  · rw [EngineNotion.accepts_earlier hLater]
    unfold EngineNotion.Untimely
    dsimp only [EngineState.notion] at hLater ⊢
    omega

/- An Engine that has been heard of at the instant zero. -/
def heardEngine : EngineState :=
  { engineId := [0x80, 0x00, 0x1F, 0x88, 0x01]
    boots := 5
    time := 1000
    timeSynced := true }

/- One Engine, heard a while ago. -/
def heardCache
    (endpoint : Endpoint) : EngineCache :=
  { engines := AList.singleton heardEngine.engineId heardEngine
    index := AList.singleton endpoint heardEngine.engineId }

theorem timely_iff_accepts_iff_replay :
    let endpoint : Endpoint := { address := [192, 0, 2, 1] }
    let replayed : UsmParameters := { boots := 5, time := 800 }
    (heardCache endpoint).engineAt endpoint =
        some heardEngine ∧
      ((heardCache endpoint).timely 0 endpoint replayed =
          true ↔
        (heardEngine.notion 0).Accepts 5 800) :=
  ⟨rfl, (timely_iff_accepts_iff rfl rfl).mpr
    (by unfold EngineState.LagsBehind; decide)⟩

/-
  A thousand seconds later the Engine says that two hundred
  have passed.
-/
theorem timely_refuses_later_pair :
    let endpoint : Endpoint := { address := [192, 0, 2, 1] }
    let slow : UsmParameters := { boots := 5, time := 1200 }
    (heardCache endpoint).engineAt endpoint =
        some heardEngine ∧
      (heardCache endpoint).timely 1000000000000 endpoint
          slow = false ∧
      (heardEngine.notion 1000000000000).Accepts 5 1200 := by
  decide

end Snmpio

------------------------------------------------------------
-- Localized Keys
------------------------------------------------------------

namespace Snmpio

variable {creds : Credentials} {keys : KeyCache}

/- The engineID, the hash, the secret and the cipher. -/
abbrev KeyName :=
  Octets × AuthProtocol × Octets × PrivProtocol

abbrev KeyCache := AList (fun _ : KeyName => Octets)

/- The cached key, or else the derived one, then cached. -/
def cachedKey
    (keys : KeyCache)
    (name : KeyName)
    (derived : Except Errc Octets) :
    Except Errc Octets × KeyCache :=
  match keys.lookup name with
  | some key => (.ok key, keys)
  | none =>
      match derived with
      | .error e => (.error e, keys)
      | .ok key => (.ok key, keys.insert name key)

section

variable (ssl : OpenSsl)

def localizedKey
    (keys : KeyCache)
    (creds : Credentials)
    (engineId : Octets) : Except Errc Octets × KeyCache :=
  cachedKey keys
    (engineId, creds.authProtocol, creds.authPassword, .none)
    (localizedAuthKey ssl creds engineId)

def localizedPrivacyKey
    (keys : KeyCache)
    (creds : Credentials)
    (engineId : Octets) : Except Errc Octets × KeyCache :=
  cachedKey keys
    (engineId, creds.authProtocol, creds.privPassword,
      creds.privProtocol)
    (localizedPrivKey ssl creds engineId)

/-
  The keys a message at the Credentials' level is sealed
  with.  One that the level does not need is empty.
-/
def requestKeys
    (keys : KeyCache)
    (creds : Credentials)
    (engineId : Octets) :
    Except Errc (Octets × Octets) × KeyCache :=
  let (key, keys) :=
    if creds.level.isAuthenticated then
      localizedKey ssl keys creds engineId
    else (.ok [], keys)
  match key with
  | .error e => (.error e, keys)
  | .ok key =>
      let (privKey, keys) :=
        if creds.level.isEncrypted then
          localizedPrivacyKey ssl keys creds engineId
        else (.ok [], keys)
      (privKey.map (fun privKey => (key, privKey)), keys)

/- What the keys of such a message are, cached or not. -/
def requestAuthKey
    (creds : Credentials)
    (engineId : Octets) : Except Errc Octets :=
  if creds.level.isAuthenticated then
    localizedAuthKey ssl creds engineId
  else .ok []

def requestPrivKey
    (creds : Credentials)
    (engineId : Octets) : Except Errc Octets :=
  if creds.level.isEncrypted then
    localizedPrivKey ssl creds engineId
  else .ok []

/- The key a row of the cache stands for. -/
def derives
    (name : KeyName) : Except Errc Octets :=
  let (engineId, auth, secret, priv) := name
  if priv = .none then
    localizedAuthKey ssl
      { authProtocol := auth, authPassword := secret }
      engineId
  else
    localizedPrivKey ssl
      { authProtocol := auth
        privProtocol := priv
        privPassword := secret }
      engineId

/- Every cached key is the one of its name. -/
def KeyCache.Sound
    (keys : KeyCache) : Prop :=
  ∀ name key,
    keys.lookup name = some key → derives ssl name = .ok key

/- The levels the Credentials claim have their protocols. -/
def Credentials.Usable
    (creds : Credentials) : Prop :=
  (creds.level.isAuthenticated = true →
      creds.authProtocol ≠ .none) ∧
    (creds.level.isEncrypted = true →
      creds.privProtocol ≠ .none)

variable {ssl}

theorem derives_auth
    (creds : Credentials)
    (engineId : Octets) :
    derives ssl (engineId, creds.authProtocol,
        creds.authPassword, .none) =
      localizedAuthKey ssl creds engineId :=
  rfl

theorem derives_priv
    (hPriv : creds.privProtocol ≠ .none)
    (engineId : Octets) :
    derives ssl (engineId, creds.authProtocol,
        creds.privPassword, creds.privProtocol) =
      localizedPrivKey ssl creds engineId := by
  have hExtend :
      extendKey ssl
          { authProtocol := creds.authProtocol
            privProtocol := creds.privProtocol
            privPassword := creds.privPassword } =
        extendKey ssl creds := by
    funext engineId want key
    apply extendKey_congr
    intro _
    rfl
  rw [derives, if_neg hPriv]
  unfold localizedPrivKey
  rw [hExtend]

/- A cached key is as good as a derived one. -/
theorem cachedKey_spec
    (hSound : keys.Sound ssl)
    {name : KeyName}
    {derived : Except Errc Octets}
    (hName : derives ssl name = derived) :
    (cachedKey keys name derived).1 = derived ∧
      KeyCache.Sound ssl (cachedKey keys name derived).2 := by
  unfold cachedKey
  cases hFound : keys.lookup name with
  | some key =>
      have hKey := hSound name key hFound
      exact ⟨hKey.symm.trans hName, hSound⟩
  | none =>
      cases derived with
      | error e => exact ⟨rfl, hSound⟩
      | ok key =>
          refine ⟨rfl, ?_⟩
          intro other found hOther
          by_cases hSame : other = name
          · subst hSame
            rw [AList.lookup_insert] at hOther
            cases hOther
            exact hName
          · rw [AList.lookup_insert_ne hSame] at hOther
            exact hSound other found hOther

/- The same where the level may not need the key. -/
theorem neededKey_spec
    (hSound : keys.Sound ssl)
    {needed : Bool}
    {name : KeyName}
    {derived : Except Errc Octets}
    (hName : needed = true → derives ssl name = derived)
    {found : Except Errc Octets × KeyCache}
    (hFound :
      (if needed then cachedKey keys name derived
        else (.ok [], keys)) = found) :
    found.1 = (if needed then derived else .ok []) ∧
      KeyCache.Sound ssl found.2 := by
  subst hFound
  cases needed with
  | false => exact ⟨rfl, hSound⟩
  | true => exact cachedKey_spec hSound (hName rfl)

/- Without authentication there is no privacy key. -/
theorem requestKeys_keyless
    (ssl : OpenSsl)
    (keys : KeyCache)
    (hOpen : creds.level.isAuthenticated = false)
    (engineId : Octets)
    {key privKey : Octets}
    (hFound :
      (requestKeys ssl keys creds engineId).1 =
        .ok (key, privKey)) :
    privKey = [] := by
  have hPlain : creds.level.isEncrypted = false := by
    cases hLevel : creds.level with
    | authPriv =>
        rw [hLevel] at hOpen
        cases hOpen
    | _ => rfl
  unfold requestKeys at hFound
  simp only [hPlain] at hFound
  split at hFound
  · cases hFound
  · cases hFound
    rfl

/- The keys are those of the Credentials and the Engine. -/
theorem requestKeys_eq
    (hSound : keys.Sound ssl)
    (hUsable : creds.Usable)
    (engineId : Octets) :
    KeyCache.Sound ssl
        (requestKeys ssl keys creds engineId).2 ∧
      (requestKeys ssl keys creds engineId).1 =
        (requestAuthKey ssl creds engineId).bind (fun key =>
          (requestPrivKey ssl creds engineId).map
            (fun privKey => (key, privKey))) := by
  unfold requestKeys localizedKey localizedPrivacyKey
  split
  next key keys' hFound =>
  rcases neededKey_spec hSound
    (fun _ => derives_auth creds engineId) hFound with
    ⟨hKey, hSound'⟩
  rw [requestAuthKey, ← hKey]
  cases key with
  | error e => exact ⟨hSound', rfl⟩
  | ok key =>
      dsimp only at hKey hSound' ⊢
      rcases hFoundPriv :
        (if creds.level.isEncrypted then
          cachedKey keys'
            (engineId, creds.authProtocol,
              creds.privPassword, creds.privProtocol)
            (localizedPrivKey ssl creds engineId)
        else (.ok [], keys')) with ⟨privKey, keys''⟩
      rcases neededKey_spec hSound'
        (fun h => derives_priv (hUsable.2 h) engineId)
        hFoundPriv with ⟨hPriv, hSound''⟩
      rw [requestPrivKey, ← hPriv]
      exact ⟨hSound'', rfl⟩

/- Keys come out as if they were not cached. -/
theorem requestKeys_spec
    (hSound : keys.Sound ssl)
    (hUsable : creds.Usable)
    (engineId : Octets) :
    KeyCache.Sound ssl
        (requestKeys ssl keys creds engineId).2 ∧
      ∀ key privKey,
        (requestKeys ssl keys creds engineId).1 =
            .ok (key, privKey) →
          requestAuthKey ssl creds engineId = .ok key ∧
            requestPrivKey ssl creds engineId =
              .ok privKey := by
  rcases requestKeys_eq hSound hUsable engineId with
    ⟨hSound', hEq⟩
  refine ⟨hSound', ?_⟩
  intro key privKey hOk
  rw [hEq] at hOk
  cases hKey : requestAuthKey ssl creds engineId with
  | error e =>
      rw [hKey] at hOk
      cases hOk
  | ok found =>
      cases hPriv : requestPrivKey ssl creds engineId with
      | error e =>
          rw [hKey, hPriv] at hOk
          cases hOk
      | ok foundPriv =>
          rw [hKey, hPriv] at hOk
          cases hOk
          exact ⟨rfl, rfl⟩

end

end Snmpio
