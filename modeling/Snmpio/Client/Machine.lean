import Snmpio.Client.Replies
import Snmpio.Client.Walk
import Snmpio.Lib.Runs

/-
  The Client as a machine.

  Everything but the flag of Stopping lives on one strand.
  A coroutine is a `Task` at a `Point` of its code, between
  two places where something else may be seen to happen.
  The strand holds the Tasks that run: the first one moves,
  and the others started it inline and wait for it to
  suspend.  Handlers are entered when the strand is idle,
  while another thread may call `stop` at any time.

  Objects held by `shared_ptr` are numbered in the order of
  their creation.  Asio is modelled by what the source
  relies on: cancelling a timer wakes the waits that are
  pending on it, `co_spawn` runs a coroutine at once up to
  its first suspension, and sends and timer waits always
  suspend.

  Key definitions include:
    * `Task`
    * `Client`
    * `ensureEngine`
    * `runTask`
    * `Event`
    * `step`
-/

------------------------------------------------------------
-- Coroutines
------------------------------------------------------------

namespace Snmpio

/- The faults of sockets and timers. -/
inductive SystemError where
  | operationAborted
  | other (code : Nat)
  deriving DecidableEq

/-
  Why an exchange or a discovery failed.  The Agent's own
  error-status is no failure of either.
-/
inductive Failure where
  | errc (e : Errc)
  | system (e : SystemError)
  deriving DecidableEq

def Failure.code :
    Failure → ErrorCode
| errc e => .errc e
| system .operationAborted => .operationAborted
| system (.other code) => .system code

/-
  What the local variables of `transact` hold: `pending` is
  the number of a `Pending`.  `attempt` wraps around where
  the overflow of an `int` leaves it undefined.
-/
structure Exchange where
  datagram : Octets
  key : Int32
  pending : Nat
  attempt : Int32 := 0
  ec : Option SystemError := none
  deriving DecidableEq

/-
  The coroutines: `doRequestV2c`, `doRequestV3` in one of
  its two attempts, and `runDiscovery` in one of its two
  phases.
-/
inductive Work where
  | v2c (community : Octets)
  | v3 (creds : Credentials) (attempt : Nat)
  | identify (creds : Credentials) (discovery : Nat)
  | sync
      (creds : Credentials) (discovery : Nat)
      (engineId : Octets)
  deriving DecidableEq

/- The discovery that a coroutine carries out. -/
def Work.discovery? :
    Work → Option Nat
| identify _ d => some d
| sync _ d _ => some d
| _ => none

inductive Point where
  -- On the strand.
  | start
  | ensuring
  | parking (discovery : Nat)
  | ensured (ec : Option Failure)
  | entering (x : Exchange)
  | leaving (x : Exchange)
  | returned (x : Exchange) (ec : Option Failure)
  | syncing (engineId : Octets)
  | finishing (ec : Option Failure)
  -- Suspended.
  | sending (x : Exchange)
  | waiting
      (x : Exchange) (deadline : Int) (soft woken : Bool)
  | parked (discovery : Nat) (woken : Bool)
  -- Over.
  | completed (ec : Option ErrorCode) (resp : Response)
  | threw
  | ended
  deriving DecidableEq

/- The timers that are waited on, by what owns them. -/
inductive Timer where
  | pending (ref : Nat)
  | done (discovery : Nat)
  deriving DecidableEq

namespace Point

def runs :
    Point → Bool
| start => true
| ensuring => true
| parking _ => true
| ensured _ => true
| entering _ => true
| leaving _ => true
| returned _ _ => true
| syncing _ => true
| finishing _ => true
| _ => false

/- The timer that a wait is on. -/
def timer? :
    Point → Option Timer
| waiting x _ _ _ => some (.pending x.pending)
| parked d _ => some (.done d)
| _ => none

def wake :
    Point → Point
| waiting x deadline soft _ => waiting x deadline soft true
| parked d _ => parked d true
| point => point

end Point

structure Task where
  work : Work
  target : Target
  pdu : Pdu := {}
  point : Point := .start
  cancelled : Cancellation := {}
  deriving DecidableEq

namespace Task

def goto
    (task : Task)
    (point : Point) : Task :=
  { task with point := point }

/- Its wait completes if it is on one of these timers. -/
def wakeOn
    (timers : List Timer)
    (task : Task) : Task :=
  if task.point.timer?.any (fun timer => timer ∈ timers) then
    { task with point := task.point.wake }
  else task

end Task

end Snmpio

------------------------------------------------------------
-- The Client
------------------------------------------------------------

namespace Snmpio

/- A receive loop ends at the first error it gets. -/
inductive Socket where
  | listening
  | silent
  | closed
  deriving DecidableEq

def Socket.fail :
    Socket → Socket
| listening => silent
| socket => socket

structure Discovery where
  ec : Option Failure := none
  finished : Bool := false
  failure : Bool := false
  deriving DecidableEq

/-
  The members of `Client::Impl`, the objects they share with
  the coroutines, the coroutines, and the local clock.
  `cleanup` is `finishStopping`, dispatched and not yet run.
-/
structure Client where
  stopping : Bool := false
  cleanup : Bool := false
  v4 : Option Socket := none
  v6 : Option Socket := none
  pending : AList (fun _ : Int32 => Nat) := ∅
  cache : EngineCache := {}
  discovering : AList (fun _ : Endpoint => Nat) := ∅
  keys : KeyCache := ∅
  nextId : Int32
  pendings : List Pending := []
  discoveries : List Discovery := []
  tasks : List Task := []
  strand : List Nat := []
  now : Int := 0

/- What a step is told from outside the Client. -/
structure Outside where
  -- Why a socket cannot be opened.
  opened : Option SystemError := none
  -- The salt counter, which the process shares.
  salt : UInt64 := 0
  deriving DecidableEq

namespace Client

variable (c : Client)

def takeNextId : Int32 × Client :=
  (c.nextId,
    { c with
      nextId :=
        if c.nextId = Int32.maxValue then 1
        else c.nextId + 1 })

def cancelTimers
    (timers : List Timer) : Client :=
  { c with tasks := c.tasks.map (Task.wakeOn timers) }

/- `stop`, up to the dispatch. -/
def stop : Client :=
  { c with
    stopping := true
    cleanup := c.cleanup || !c.stopping }

def finishStopping : Client :=
  let timers :=
    c.pending.entries.map (fun e => Timer.pending e.2) ++
      c.discovering.entries.map (fun e => Timer.done e.2)
  { c with
    cleanup := false
    v4 := c.v4.map (fun _ => .closed)
    v6 := c.v6.map (fun _ => .closed) }.cancelTimers timers

/- The socket of an address family, if it was opened. -/
def slot
    (v6 : Bool) : Option Socket :=
  if v6 then c.v6 else c.v4

def socketFor
    (endpoint : Endpoint)
    (opened : Option SystemError) :
    Except SystemError Client :=
  if (c.slot endpoint.v6).isSome then .ok c
  else
    match opened with
    | some e => .error e
    | none =>
        .ok (if endpoint.v6 then
            { c with v6 := some .listening }
          else { c with v4 := some .listening })

/- `m_pending.emplace`: a key that is taken stays. -/
def registerPending
    (key : Int32)
    (ref : Nat) : Client :=
  if key ∈ c.pending then c
  else { c with pending := c.pending.insert key ref }

/- Makes the `Pending` of an exchange about to begin. -/
def openExchange
    (key : Int32)
    (datagram : Octets)
    (p : Pending) : Client × Exchange :=
  ({ c with pendings := c.pendings ++ [p] },
    { datagram := datagram
      key := key
      pending := c.pendings.length })

end Client

end Snmpio

------------------------------------------------------------
-- Receiving
------------------------------------------------------------

namespace Snmpio

namespace Client

variable (ssl : OpenSsl) (c : Client)

def applyVerdict
    (ref : Nat)
    (p : Pending) :
    Verdict → Client
| .drop none => c
| .drop (some reason) =>
    { c with
      pendings := c.pendings.set ref
        { p with dropReason := some reason } }
| .accept p' =>
    { c with
      pendings := c.pendings.set ref p' }.cancelTimers
        [.pending ref]

/- The exchange registered under an id. -/
def findPending
    (key : Int32) : Option (Nat × Pending) := do
  let ref ← c.pending.lookup key
  let p ← c.pendings[ref]?
  return (ref, p)

def deliverV2c
    (datagram : Octets)
    (sender : Endpoint) : Client :=
  match (decodeV2cMessage datagram).1 with
  | none => c
  | some msg =>
      if msg.pdu.type ≠ .response then c
      else
        match c.findPending msg.pdu.requestId with
        | none => c
        | some (ref, p) =>
            c.applyVerdict ref p (judgeV2c p sender msg)

def deliverV3
    (datagram : Octets)
    (sender : Endpoint) : Client :=
  match (decodeV3Message datagram).1 with
  | none => c
  | some msg =>
      match c.findPending msg.header.msgId with
      | none => c
      | some (ref, p) =>
          c.applyVerdict ref p
            (judgeV3 ssl c.cache c.now p datagram sender msg)

/- One round of `receiveLoop`. -/
def receive
    (datagram : Octets)
    (sender : Endpoint) : Client :=
  match messageVersion datagram with
  | none => c
  | some version =>
      if version = versionV2c then
        c.deliverV2c datagram sender
      else if version = versionV3 then
        c.deliverV3 ssl datagram sender
      else c

end Client

end Snmpio

------------------------------------------------------------
-- Exchanging
------------------------------------------------------------

namespace Snmpio

/- The head of the loop over the attempts. -/
def attemptPoint
    (target : Target)
    (x : Exchange) : Point :=
  if x.attempt ≤ target.retries then .sending x
  else .leaving x

/- `transact`, up to its first send. -/
def enterTransact
    (out : Outside)
    (c : Client)
    (task : Task)
    (x : Exchange) : Client × Task :=
  if c.stopping then
    (c, task.goto (.returned x (some (.errc .clientStopped))))
  else
    match c.socketFor task.target.endpoint out.opened with
    | .error e =>
        (c, task.goto (.returned x (some (.system e))))
    | .ok c =>
        (c.registerPending x.key x.pending,
          task.goto (attemptPoint task.target x))

/- The last instant of the clock, in 64 bits. -/
def clockEnd : Int := 2 ^ 63 - 1

/-
  Milliseconds as the timer's nanoseconds.  The product is
  of 64 bits, and wraps around where its overflow is
  undefined.
-/
def nanoseconds
    (timeout : Int) : Int :=
  (timeout * 1000000).bmod (2 ^ 64)

/- `expires_after`: Asio's sum stays within the clock. -/
def expiresAfter
    (now timeout : Int) : Int :=
  max (-2 ^ 63) (min clockEnd (now + nanoseconds timeout))

/- After a send: leave, or arm the timer and wait. -/
def afterSend
    (c : Client)
    (task : Task)
    (x : Exchange) : Point :=
  if x.ec.isSome ∨ c.stopping then .leaving x
  else
    .waiting x (expiresAfter c.now task.target.timeout)
      false false

/- After a wait: leave, wait out the rest, or send again. -/
def afterWait
    (c : Client)
    (task : Task)
    (x : Exchange)
    (deadline : Int)
    (soft : Bool)
    (p : Pending) : Point :=
  if soft ∨ p.answered ∨ c.stopping ∨
      task.cancelled.terminal then
    .leaving x
  else if task.cancelled.total then
    .waiting x deadline true false
  else
    attemptPoint task.target
      { x with attempt := x.attempt + 1 }

/- What `transact` returns, once it has left the loop. -/
def transactResult
    (c : Client)
    (task : Task)
    (x : Exchange)
    (p : Pending) : Option Failure :=
  if task.cancelled.terminal then
    some (.system .operationAborted)
  else if p.answered ∧ ¬ c.stopping then none
  else if task.cancelled.total then
    some (.system .operationAborted)
  else if c.stopping then some (.errc .clientStopped)
  else
    match x.ec with
    | some e => some (.system e)
    | none => some (.errc (p.dropReason.getD .timeout))

def leaveTransact
    (c : Client)
    (task : Task)
    (x : Exchange)
    (p : Pending) : Client × Task :=
  ({ c with pending := c.pending.erase x.key },
    task.goto (.returned x (transactResult c task x p)))

end Snmpio

------------------------------------------------------------
-- Engine Discovery
------------------------------------------------------------

namespace Snmpio

variable (ssl : OpenSsl)

def discoveryScopedPdu
    (requestId : Int32)
    (contextEngineId : Octets) : ScopedPdu :=
  { contextEngineId := contextEngineId
    pdu := { type := .get, requestId := requestId } }

/-
  `ensureEngine`, up to the wait.  The coroutine it spawns
  is returned too, to be run at once.
-/
def ensureEngine
    (c : Client)
    (task : Task)
    (creds : Credentials) : Client × Task × Option Task :=
  let endpoint := task.target.endpoint
  if (c.cache.engineAt endpoint).any (fun engine =>
      !creds.level.isAuthenticated || engine.timeSynced) then
    (c, task.goto (.ensured none), none)
  else
    match c.discovering.lookup endpoint with
    | some d => (c, task.goto (.parking d), none)
    | none =>
        let d := c.discoveries.length
        ({ c with
          discoveries := c.discoveries ++ [{}]
          discovering := c.discovering.insert endpoint d },
          task.goto (.parking d),
          some {
            work := .identify creds d
            target := task.target })

/- `ensureEngine`, after the wait. -/
def afterPark
    (c : Client)
    (task : Task)
    (discovery : Discovery) : Point :=
  if discovery.failure then .threw
  else if c.stopping then
    .ensured (some (.errc .clientStopped))
  else if task.cancelled ≠ {} ∨ ¬ discovery.finished then
    .ensured (some (.system .operationAborted))
  else .ensured discovery.ec

/- `discoverEngine`, up to the identity exchange. -/
def startIdentify
    (out : Outside)
    (c : Client)
    (task : Task) : Client × Task :=
  let (id, c) := c.takeNextId
  match (encodeV3Message ssl { msgId := id } {}
      (discoveryScopedPdu id []) .none [] .none []
      out.salt).1 with
  | .error e =>
      (c, task.goto (.finishing (some (.errc e))))
  | .ok datagram =>
      let (c, x) := c.openExchange id datagram {
        sender := task.target.endpoint
        v3 := true
        requestId := id }
      (c, task.goto (.entering x))

/- From the identity reply to the time-sync phase. -/
def afterIdentify
    (c : Client)
    (task : Task)
    (creds : Credentials)
    (p : Pending) : Client × Task :=
  let engineId := p.security.engineId
  if engineId = [] then
    (c, task.goto (.finishing (some (.errc .unknownEngineId))))
  else
    let cache :=
      c.cache.recordIdentity c.now task.target.endpoint
        p.security
    let c := { c with cache := cache }
    if ¬ creds.level.isAuthenticated then
      (c, task.goto (.finishing none))
    else if (cache.engines.lookup engineId).any
        (fun engine => engine.timeSynced) then
      (c, task.goto (.finishing none))
    else
      (c, task.goto (.syncing engineId))

/- `discoverEngine`, up to the time-sync exchange. -/
def startSync
    (out : Outside)
    (c : Client)
    (task : Task)
    (creds : Credentials)
    (discovery : Nat)
    (engineId : Octets) : Client × Task :=
  let (found, keys) := requestKeys ssl c.keys creds engineId
  let c := { c with keys := keys }
  match found with
  | .error e =>
      (c, task.goto (.finishing (some (.errc e))))
  | .ok (key, privKey) =>
      let (id, c) := c.takeNextId
      match (encodeV3Message ssl
          { msgId := id, level := creds.level }
          { engineId := engineId, userName := creds.userName }
          (discoveryScopedPdu id engineId)
          creds.authProtocol key creds.privProtocol privKey
          out.salt).1 with
      | .error e =>
          (c, task.goto (.finishing (some (.errc e))))
      | .ok datagram =>
          let (c, x) := c.openExchange id datagram {
            sender := task.target.endpoint
            v3 := true
            authRequired := true
            authProtocol := creds.authProtocol
            privProtocol := creds.privProtocol
            authKey := key
            privKey := privKey
            engineId := engineId
            requestId := id
            timeSyncPhase := true }
          (c, { task with
            work := .sync creds discovery engineId
            point := .entering x })

/- From the time-sync reply to the end. -/
def afterSync
    (c : Client)
    (task : Task)
    (engineId : Octets)
    (p : Pending) : Client × Task :=
  if ¬ p.replyAuthenticated then
    (c, task.goto (.finishing
      (some (.errc (reportError
        (usmStatsCounter p.response))))))
  else if p.security.boots = bootsCeiling then
    (c, task.goto (.finishing (some (.errc .notInTimeWindow))))
  else
    ({ c with
      cache :=
        c.cache.recordBaseline c.now engineId p.security },
      task.goto (.finishing none))

/- `runDiscovery`, after `discoverEngine`. -/
def finishDiscovery
    (c : Client)
    (endpoint : Endpoint)
    (d : Nat)
    (discovery : Discovery) : Client :=
  { c with
    discoveries := c.discoveries.set d discovery
    discovering := c.discovering.erase endpoint }.cancelTimers
      [.done d]

end Snmpio

------------------------------------------------------------
-- Requests
------------------------------------------------------------

namespace Snmpio

variable (ssl : OpenSsl)

/- `doRequestV2c`, up to its exchange. -/
def startV2c
    (c : Client)
    (task : Task)
    (community : Octets) : Client × Task :=
  if c.stopping then
    (c, task.goto
      (.completed (some (.errc .clientStopped)) {}))
  else
    let (id, c) := c.takeNextId
    match encodeV2cMessage community
        { task.pdu with requestId := id } with
    | (_, some e) =>
        (c, task.goto (.completed (some (.errc e)) {}))
    | (datagram, none) =>
        let (c, x) := c.openExchange id datagram {
          sender := task.target.endpoint
          community := community
          requestId := id }
        (c, task.goto (.entering x))

/- `doRequestV3`, up to its loop. -/
def startV3
    (c : Client)
    (task : Task)
    (creds : Credentials) : Task :=
  if c.stopping then
    task.goto (.completed (some (.errc .clientStopped)) {})
  else if creds.level.isEncrypted ∧
      creds.privProtocol = .none then
    task.goto
      (.completed (some (.errc .unsupportedPrivProtocol)) {})
  else if creds.level.isAuthenticated ∧
      creds.authProtocol = .none then
    task.goto
      (.completed (some (.errc .unsupportedAuthProtocol)) {})
  else task.goto .ensuring

/- From `ensureEngine`'s success to the exchange. -/
def sendRequest
    (out : Outside)
    (c : Client)
    (task : Task)
    (creds : Credentials) : Client × Task :=
  match c.cache.engineAt task.target.endpoint with
  | none =>
      (c, task.goto
        (.completed (some (.errc .unknownEngineId)) {}))
  | some engine =>
      let projected := min (engine.projected c.now) timeCeiling
      let (found, keys) :=
        requestKeys ssl c.keys creds engine.engineId
      let c := { c with keys := keys }
      match found with
      | .error e =>
          (c, task.goto (.completed (some (.errc e)) {}))
      | .ok (key, privKey) =>
          let (id, c) := c.takeNextId
          match (encodeV3Message ssl
              { msgId := id, level := creds.level }
              { engineId := engine.engineId
                boots := engine.boots
                time := Int32.ofInt projected
                userName := creds.userName }
              { contextEngineId := engine.engineId
                pdu := { task.pdu with requestId := id } }
              creds.authProtocol key creds.privProtocol
              privKey out.salt).1 with
          | .error e =>
              (c, task.goto (.completed (some (.errc e)) {}))
          | .ok datagram =>
              let (c, x) := c.openExchange id datagram {
                sender := task.target.endpoint
                v3 := true
                authRequired := creds.level.isAuthenticated
                authProtocol := creds.authProtocol
                privProtocol := creds.privProtocol
                authKey := key
                privKey := privKey
                engineId := engine.engineId
                requestId := id }
              (c, task.goto (.entering x))

/- The end of an attempt that has been answered. -/
def afterAnswer
    (c : Client)
    (task : Task)
    (creds : Credentials)
    (attempt : Nat)
    (p : Pending) : Client × Task :=
  let endpoint := task.target.endpoint
  if p.response.type = .report then
    let (failure, cache) :=
      handleReport c.cache c.now endpoint p (attempt = 0)
    let c := { c with cache := cache }
    match failure with
    | some e =>
        (c, task.goto (.completed (some (.errc e)) {}))
    | none =>
        if attempt + 1 < 2 then
          (c, { task with
            work := .v3 creds (attempt + 1)
            point := .ensuring })
        else
          (c, task.goto
            (.completed (some (.errc .unexpectedReport)) {}))
  else
    let cache :=
      if p.replyAuthenticated then
        c.cache.observeEngineTime c.now endpoint p.security
      else c.cache
    let (ec, resp) := toResult p.response
    ({ c with cache := cache }, task.goto (.completed ec resp))

end Snmpio

------------------------------------------------------------
-- Steps
------------------------------------------------------------

namespace Snmpio

variable (ssl : OpenSsl)

/- What follows a `transact` that failed. -/
def afterFailure
    (task : Task)
    (ec : Failure) : Task :=
  match task.work with
  | .v2c _ => task.goto (.completed (some ec.code) {})
  | .v3 _ _ => task.goto (.completed (some ec.code) {})
  | .identify _ _ => task.goto (.finishing (some ec))
  | .sync _ _ _ => task.goto (.finishing (some ec))

/- What follows a `transact` that was answered. -/
def afterSuccess
    (c : Client)
    (task : Task)
    (p : Pending) : Client × Task :=
  match task.work with
  | .v2c _ =>
      let (ec, resp) := toResult p.response
      (c, task.goto (.completed ec resp))
  | .v3 creds attempt => afterAnswer c task creds attempt p
  | .identify creds _ => afterIdentify c task creds p
  | .sync _ _ engineId => afterSync c task engineId p

/-
  The running coroutine moves to its next point, and may
  have spawned another.
-/
def runTask
    (out : Outside)
    (c : Client)
    (task : Task) : Option (Client × Task × Option Task) :=
  let alone := fun (next : Client × Task) =>
    some (next.1, next.2, none)
  match task.point, task.work with
  | .start, .v2c community =>
      alone (startV2c c task community)
  | .start, .v3 creds _ => alone (c, startV3 c task creds)
  | .start, .identify _ _ =>
      alone (startIdentify ssl out c task)
  | .ensuring, .v3 creds _ =>
      some (ensureEngine c task creds)
  | .parking d, .v3 _ _ =>
      alone (c, task.goto (.parked d false))
  | .ensured (some ec), .v3 _ _ =>
      alone (c, task.goto (.completed (some ec.code) {}))
  | .ensured none, .v3 creds _ =>
      alone (sendRequest ssl out c task creds)
  | .entering x, _ => alone (enterTransact out c task x)
  | .leaving x, _ => do
      let p ← c.pendings[x.pending]?
      alone (leaveTransact c task x p)
  | .returned _ (some ec), _ =>
      alone (c, afterFailure task ec)
  | .returned x none, _ => do
      let p ← c.pendings[x.pending]?
      alone (afterSuccess c task p)
  | .syncing engineId, .identify creds d =>
      alone (startSync ssl out c task creds d engineId)
  | .finishing ec, .identify _ d =>
      alone (finishDiscovery c task.target.endpoint d
        { ec := ec, finished := true }, task.goto .ended)
  | .finishing ec, .sync _ d _ =>
      alone (finishDiscovery c task.target.endpoint d
        { ec := ec, finished := true }, task.goto .ended)
  | _, _ => none

inductive Signal where
  | terminal
  | total
  deriving DecidableEq

inductive Event where
  -- The strand's first coroutine moves.
  | advance (out : Outside)
  -- An operation begins.
  | request (target : Target) (auth : Auth) (pdu : Pdu)
  -- What the sockets report.
  | receive (sender : Endpoint) (datagram : Octets)
  | receiveFailed (v6 : Bool)
  | sent (t : Nat) (ec : Option SystemError)
  -- A wait expires; a wait that is over is resumed.
  | expire (t : Nat)
  | resume (t : Nat)
  -- A cancellation; an exception in a discovery.
  | signal (t : Nat) (kind : Signal)
  | raise (t : Nat)
  -- Stopping, and its second half.
  | stop
  | finishStopping
  -- Nanoseconds pass.
  | tick (elapsed : Nat)
  deriving DecidableEq

namespace Client

variable (c : Client)

/- The task moves, and stays on the strand while it runs. -/
def place
    (t : Nat)
    (rest : List Nat)
    (task : Task) : Client :=
  { c with
    tasks := c.tasks.set t task
    strand := if task.point.runs then t :: rest else rest }

def spawn
    (task : Task) : Client :=
  { c with
    tasks := c.tasks ++ [task]
    strand := c.tasks.length :: c.strand }

/- The task moves, and what it spawned runs first. -/
def settle
    (t : Nat)
    (rest : List Nat)
    (task : Task)
    (spawned : Option Task) : Client :=
  match spawned with
  | none => c.place t rest task
  | some other => (c.place t rest task).spawn other

def isIdle : Bool :=
  c.strand.isEmpty

end Client

def advance
    (out : Outside)
    (c : Client) : Option Client := do
  match c.strand with
  | [] => none
  | t :: rest =>
      let task ← c.tasks[t]?
      let (c, task, spawned) ← runTask ssl out c task
      some (c.settle t rest task spawned)

def beginWork :
    Auth → Work
| .community value => .v2c value
| .credentials creds => .v3 creds 0

def onSent
    (c : Client)
    (t : Nat)
    (ec : Option SystemError) : Option Client := do
  let task ← c.tasks[t]?
  match task.point with
  | .sending x =>
      some (c.place t []
        (task.goto (afterSend c task { x with ec := ec })))
  | _ => none

def onExpire
    (c : Client)
    (t : Nat) : Option Client := do
  let task ← c.tasks[t]?
  match task.point with
  | .waiting x deadline soft _ =>
      if deadline ≤ c.now then
        some { c with
          tasks := c.tasks.set t
            (task.goto (.waiting x deadline soft true)) }
      else none
  | _ => none

def onResume
    (c : Client)
    (t : Nat) : Option Client := do
  let task ← c.tasks[t]?
  match task.point with
  | .waiting x deadline soft true =>
      let p ← c.pendings[x.pending]?
      some (c.place t []
        (task.goto (afterWait c task x deadline soft p)))
  | .parked d true =>
      let discovery ← c.discoveries[d]?
      some (c.place t []
        (task.goto (afterPark c task discovery)))
  | _ => none

/- The wait that a cancellation signal completes. -/
def Point.signalled :
    Point → Point
| .waiting x deadline false _ =>
    .waiting x deadline false true
| .parked d _ => .parked d true
| point => point

/- Only operations can be cancelled, not a discovery. -/
def onSignal
    (c : Client)
    (t : Nat)
    (kind : Signal) : Option Client := do
  let task ← c.tasks[t]?
  if task.work.discovery?.isSome then none
  else
    let cancelled :=
      match kind with
      | .terminal => { task.cancelled with terminal := true }
      | .total => { task.cancelled with total := true }
    some { c with
      tasks := c.tasks.set t
        { task with
          cancelled := cancelled
          point := task.point.signalled } }

/-
  Whether an exception can leave a discovery here: while it
  is in `discoverEngine`, running or about to be resumed.
-/
def Point.canThrow :
    Point → Bool
| .start => true
| .entering _ => true
| .leaving _ => true
| .returned _ _ => true
| .syncing _ => true
| .sending _ => true
| .waiting _ _ _ true => true
| _ => false

/- What else is on the strand while a task runs. -/
def Client.beneath
    (c : Client)
    (t : Nat)
    (point : Point) : Option (List Nat) :=
  match c.strand with
  | [] => if point.runs then none else some []
  | head :: rest => if head = t then some rest else none

def onRaise
    (c : Client)
    (t : Nat) : Option Client := do
  let task ← c.tasks[t]?
  let d ← task.work.discovery?
  let rest ← c.beneath t task.point
  if task.point.canThrow then
    let c := finishDiscovery c task.target.endpoint d
      { failure := true }
    some (c.place t rest (task.goto .ended))
  else none

def step
    (c : Client) :
    Event → Option Client
| .advance out => advance ssl out c
| .request target auth pdu =>
    if c.isIdle then
      some (c.spawn {
        work := beginWork auth
        target := target
        pdu := pdu })
    else none
| .receive sender datagram =>
    if c.isIdle ∧ c.slot sender.v6 = some .listening then
      some (c.receive ssl datagram sender)
    else none
| .receiveFailed v6 =>
    if c.isIdle then
      if v6 then
        some { c with v6 := c.v6.map Socket.fail }
      else
        some { c with v4 := c.v4.map Socket.fail }
    else none
| .sent t ec => if c.isIdle then onSent c t ec else none
| .expire t => onExpire c t
| .resume t => if c.isIdle then onResume c t else none
| .signal t kind =>
    if c.isIdle then onSignal c t kind else none
| .raise t => onRaise c t
| .stop => some c.stop
| .finishStopping =>
    if c.isIdle ∧ c.cleanup then some c.finishStopping
    else none
| .tick elapsed => some { c with now := c.now + elapsed }

/- A Client as it is made. -/
def fresh
    (nextId : Int32)
    (now : Int) : Client :=
  { nextId := nextId
    now := now }

end Snmpio
