import Snmpio.Client.Answers

/-
  The Client with its Walks.

  A Walk awaits one request after the other, and goes on in
  the same strand handler in which a request completes.  Its
  batch handler is code of the caller: while that runs, it
  may call `stop`, cancel or begin operations, and nothing
  else is handled on the strand.

  Key definitions include:
    * `walkTurn`
    * `Walk`
    * `Operations`
    * `Operations.step`
    * `Quiet`

  Key theorems include:
    * `takeReply_eq_turn`
    * `Operations.step_cases`
    * `quiet_after_stopping`
-/

------------------------------------------------------------
-- Turns of a Walk
------------------------------------------------------------

namespace Snmpio

/-
  What a Walk makes of a reply: it asks again for less, it
  ends, or it has a batch, which may be empty, and whether
  that is the last one.
-/
inductive WalkTurn where
  | again (maxRepetitions : Int32)
  | ends (ec : Option ErrorCode)
  | scanned
      (done : Bool) (current : Oid) (batch : List Varbind)

def walkTurn
    (base current : Oid)
    (maxRepetitions : Int32)
    (cancelled : Cancellation)
    (stopping : Bool)
    (ec : Option ErrorCode)
    (varbinds : List Varbind) : WalkTurn :=
  if ec = some tooBig ∧ maxRepetitions > 1 then
    .again (maxRepetitions / 2)
  else
    match ec with
    | some ec => .ends (some ((stopNow cancelled).getD ec))
    | none =>
        if stopping then .ends (some (.errc .clientStopped))
        else if varbinds.isEmpty then
          .ends (some (.errc .missingVarbind))
        else
          match scanBatch base current [] varbinds with
          | .error e => .ends (some (.errc e))
          | .ok (done, current, batch) =>
              .scanned done current batch

/- It is what `takeReply` does, up to the batch handler. -/
theorem takeReply_eq_turn
    {σ τ : Type}
    (env : WalkEnv σ)
    (onBatch : List Varbind → τ → Bool × τ)
    (base : Oid)
    (ec : Option ErrorCode)
    (resp : Pdu)
    (w : WalkState σ τ) :
    takeReply env onBatch base ec resp w =
      match walkTurn base w.current w.maxRepetitions
          (env.cancelled w.world) (env.stopping w.world) ec
          resp.varbinds with
      | .again maxRepetitions =>
          .inl { w with maxRepetitions := maxRepetitions }
      | .ends ec => .inr (ec, w)
      | .scanned done current batch =>
          let (keep, handler) :=
            if batch.isEmpty then (true, w.handler)
            else onBatch batch w.handler
          let w :=
            { w with current := current, handler := handler }
          if ¬ keep then
            .inr (some (.errc .walkIncomplete), w)
          else if done then .inr (none, w)
          else .inl w := by
  unfold takeReply walkTurn
  split
  · rfl
  · cases ec with
    | some ec =>
        dsimp only
        cases stopNow (env.cancelled w.world) with
        | some stop => rfl
        | none => rfl
    | none =>
        unfold takeBatch
        dsimp only
        split
        · rfl
        · split
          · rfl
          · cases scanBatch base w.current []
              resp.varbinds with
            | error e => rfl
            | ok found => rfl

end Snmpio

------------------------------------------------------------
-- Operations
------------------------------------------------------------

namespace Snmpio

/- Where a Walk is. -/
inductive WalkPoint where
  | start
  | requesting
  -- The batch handler runs, maybe for the last time.
  | handling (done : Bool)
  | completed (ec : Option ErrorCode)
  | threw
  deriving DecidableEq

/-
  The local variables of `doWalk`.  `request` is the Task of
  its last request, and `batches` is what the batch handler
  has been given so far.
-/
structure Walk where
  target : Target
  auth : Auth
  base : Oid
  current : Oid
  maxRepetitions : Int32
  request : Nat := 0
  batches : List (List Varbind) := []
  point : WalkPoint := .start

namespace Walk

def goto
    (walk : Walk)
    (point : WalkPoint) : Walk :=
  { walk with point := point }

/- The head of the loop, and the request of a round. -/
def next
    (walk : Walk)
    (c : Client)
    (cancelled : Cancellation) : Client × Walk :=
  match stopNow cancelled with
  | some ec => (c, walk.goto (.completed (some ec)))
  | none =>
      (c.spawn {
        work := beginWork walk.auth
        target := walk.target
        pdu := walkRequest walk.current walk.maxRepetitions },
        { walk with
          request := c.tasks.length
          point := .requesting })

/- What follows a batch, once the handler has returned. -/
def afterBatch
    (walk : Walk)
    (c : Client)
    (cancelled : Cancellation)
    (done keep : Bool) : Client × Walk :=
  if ¬ keep then
    (c, walk.goto (.completed (some (.errc .walkIncomplete))))
  else if done then (c, walk.goto (.completed none))
  else walk.next c cancelled

/- What follows the result of the round's request. -/
def takeResult
    (walk : Walk)
    (c : Client)
    (cancelled : Cancellation)
    (ec : Option ErrorCode)
    (resp : Response) : Client × Walk :=
  match walkTurn walk.base walk.current walk.maxRepetitions
      cancelled c.stopping ec resp.varbinds with
  | .again maxRepetitions =>
      { walk with maxRepetitions := maxRepetitions }.next c
        cancelled
  | .ends ec => (c, walk.goto (.completed ec))
  | .scanned done current batch =>
      let walk := { walk with current := current }
      if batch.isEmpty then
        walk.afterBatch c cancelled done true
      else
        (c, { walk with
          batches := walk.batches ++ [batch]
          point := .handling done })

end Walk

/- A Client with the Walks above it. -/
structure Operations where
  client : Client
  walks : List Walk := []

namespace Operations

variable (ssl : OpenSsl) (s : Operations)

/- A Walk whose request is over goes on before all else. -/
def isDue : Bool :=
  s.walks.any (fun walk =>
    match walk.point with
    | .requesting =>
        (s.client.tasks[walk.request]?).any (fun task =>
          task.point.isOver)
    | _ => false)

/- Whether a batch handler is running. -/
def isHandling : Bool :=
  s.walks.any (fun walk =>
    match walk.point with
    | .handling _ => true
    | _ => false)

/-
  Whether the strand is free for an event.  A batch handler
  may call the Client, but has the strand for itself.
-/
def admits :
    Snmpio.Event → Bool
| .receive _ _ => !s.isDue && !s.isHandling
| .receiveFailed _ => !s.isDue && !s.isHandling
| .sent _ _ => !s.isDue && !s.isHandling
| .resume _ => !s.isDue && !s.isHandling
| .raise _ =>
    !s.client.isIdle || (!s.isDue && !s.isHandling)
| .request _ _ _ => !s.isDue
| .signal _ _ => !s.isDue
| .finishStopping => !s.isDue
| _ => true

inductive Event where
  | client (e : Snmpio.Event)
  -- A Walk begins.
  | walk
      (target : Target) (auth : Auth) (base : Oid)
      (options : WalkOptions)
  -- Its request is over; its batch handler returns.
  | goOn (w : Nat)
  | handled (w : Nat) (keep : Bool)

def put
    (w : Nat)
    (next : Client × Walk) : Operations :=
  { client := next.1
    walks := s.walks.set w next.2 }

/- A Walk begins with its first request. -/
def onWalk
    (target : Target)
    (auth : Auth)
    (base : Oid)
    (options : WalkOptions) : Operations :=
  let walk : Walk :=
    { target := target
      auth := auth
      base := base
      current := base
      maxRepetitions := options.maxRepetitions }
  let next := walk.next s.client {}
  { client := next.1
    walks := s.walks ++ [next.2] }

/- The Walk takes the result of its request. -/
def onGoOn
    (w : Nat) : Option Operations := do
  let walk ← s.walks[w]?
  match walk.point with
  | .requesting =>
      let task ← s.client.tasks[walk.request]?
      match task.point with
      | .completed ec resp =>
          some (s.put w (walk.takeResult s.client
            task.cancelled ec resp))
      | .threw => some (s.put w (s.client, walk.goto .threw))
      | _ => none
  | _ => none

/- The batch handler has returned. -/
def onHandled
    (w : Nat)
    (keep : Bool) : Option Operations := do
  let walk ← s.walks[w]?
  match walk.point with
  | .handling done =>
      let task ← s.client.tasks[walk.request]?
      some (s.put w (walk.afterBatch s.client task.cancelled
        done keep))
  | _ => none

def step :
    Event → Option Operations
| .client e =>
    if s.admits e then
      (Snmpio.step ssl s.client e).map (fun client =>
        { s with client := client })
    else none
| .walk target auth base options =>
    if s.client.isIdle ∧ ¬ s.isDue then
      some (s.onWalk target auth base options)
    else none
| .goOn w => if s.client.isIdle then s.onGoOn w else none
| .handled w keep =>
    if s.client.isIdle ∧ ¬ s.isDue then s.onHandled w keep
    else none

end Operations

end Snmpio

------------------------------------------------------------
-- Cases of a Step
------------------------------------------------------------

namespace Snmpio

variable {ssl : OpenSsl}

namespace Operations

/- What the steps are, with what they have looked at. -/
inductive StepCase
    (ssl : OpenSsl)
    (s : Operations) :
    Event → Operations → Prop where
  | client
      {e : Snmpio.Event}
      {c' : Client}
      (hAdmits : s.admits e = true)
      (hStep : Snmpio.step ssl s.client e = some c') :
      StepCase ssl s (.client e) { s with client := c' }
  | began
      {target : Target}
      {auth : Auth}
      {base : Oid}
      {options : WalkOptions}
      (hIdle : s.client.strand = [])
      (hNotDue : s.isDue = false) :
      StepCase ssl s (.walk target auth base options)
        (s.onWalk target auth base options)
  | took
      {w : Nat}
      {walk : Walk}
      {task : Task}
      {ec : Option ErrorCode}
      {resp : Response}
      (hIdle : s.client.strand = [])
      (hWalk : s.walks[w]? = some walk)
      (hPoint : walk.point = .requesting)
      (hTask : s.client.tasks[walk.request]? = some task)
      (hOver : task.point = .completed ec resp) :
      StepCase ssl s (.goOn w)
        (s.put w (walk.takeResult s.client task.cancelled ec
          resp))
  | rethrew
      {w : Nat}
      {walk : Walk}
      {task : Task}
      (hIdle : s.client.strand = [])
      (hWalk : s.walks[w]? = some walk)
      (hPoint : walk.point = .requesting)
      (hTask : s.client.tasks[walk.request]? = some task)
      (hOver : task.point = .threw) :
      StepCase ssl s (.goOn w)
        (s.put w (s.client, walk.goto .threw))
  | handled
      {w : Nat}
      {walk : Walk}
      {task : Task}
      {done keep : Bool}
      (hIdle : s.client.strand = [])
      (hNotDue : s.isDue = false)
      (hWalk : s.walks[w]? = some walk)
      (hPoint : walk.point = .handling done)
      (hTask : s.client.tasks[walk.request]? = some task) :
      StepCase ssl s (.handled w keep)
        (s.put w (walk.afterBatch s.client task.cancelled
          done keep))

/- What a step can do. -/
theorem step_cases
    {s s' : Operations}
    {e : Event}
    (hStep : s.step ssl e = some s') :
    StepCase ssl s e s' := by
  cases e with
  | client e =>
      simp only [step] at hStep
      split at hStep
      · next hAdmits =>
        rcases Option.map_eq_some_iff.mp hStep with
          ⟨c', hInner, rfl⟩
        exact StepCase.client hAdmits hInner
      · cases hStep
  | walk target auth base options =>
      simp only [step] at hStep
      split at hStep
      · next hFree =>
        cases hStep
        exact StepCase.began
          (List.isEmpty_iff.mp hFree.1)
          (by simpa using hFree.2)
      · cases hStep
  | goOn w =>
      simp only [step] at hStep
      split at hStep
      · next hIdle =>
        rcases Option.bind_eq_some_iff.mp hStep with
          ⟨walk, hWalk, hStep⟩
        split at hStep
        · next hPoint =>
          rcases Option.bind_eq_some_iff.mp hStep with
            ⟨task, hTask, hStep⟩
          split at hStep
          · next hOver =>
            cases hStep
            exact StepCase.took (List.isEmpty_iff.mp hIdle)
              hWalk hPoint hTask hOver
          · next hOver =>
            cases hStep
            exact StepCase.rethrew
              (List.isEmpty_iff.mp hIdle) hWalk hPoint hTask
              hOver
          · cases hStep
        · cases hStep
      · cases hStep
  | handled w keep =>
      simp only [step] at hStep
      split at hStep
      · next hFree =>
        rcases Option.bind_eq_some_iff.mp hStep with
          ⟨walk, hWalk, hStep⟩
        split at hStep
        · next hPoint =>
          rcases Option.bind_eq_some_iff.mp hStep with
            ⟨task, hTask, hStep⟩
          cases hStep
          exact StepCase.handled
            (List.isEmpty_iff.mp hFree.1)
            (by simpa using hFree.2) hWalk hPoint hTask
        · cases hStep
      · cases hStep

end Operations

/- What a Walk may come to, and with which Client. -/
inductive WalkStep
    (c : Client)
    (request : Nat)
    (batches : List (List Varbind)) :
    Client × Walk → Prop where
  | ended
      {walk' : Walk}
      (ec : Option ErrorCode)
      (hPoint : walk'.point = .completed ec)
      (hRequest : walk'.request = request)
      (hBatches : walk'.batches = batches) :
      WalkStep c request batches (c, walk')
  | asks
      {walk' : Walk}
      (target : Target)
      (auth : Auth)
      (pdu : Pdu)
      (hPoint : walk'.point = .requesting)
      (hRequest : walk'.request = c.tasks.length)
      (hBatches : walk'.batches = batches) :
      WalkStep c request batches
        (c.spawn {
          work := beginWork auth
          target := target
          pdu := pdu }, walk')
  | calls
      {walk' : Walk}
      {done : Bool}
      {batch : List Varbind}
      (hGoing : c.stopping = false)
      (hPoint : walk'.point = .handling done)
      (hRequest : walk'.request = request)
      (hBatches : walk'.batches = batches ++ [batch]) :
      WalkStep c request batches (c, walk')

theorem Walk.next_step
    (walk : Walk)
    (c : Client)
    (cancelled : Cancellation) :
    WalkStep c walk.request walk.batches
      (walk.next c cancelled) := by
  unfold Walk.next
  split
  · exact WalkStep.ended _ rfl rfl rfl
  · exact WalkStep.asks _ _ _ rfl rfl rfl

theorem Walk.afterBatch_step
    (walk : Walk)
    (c : Client)
    (cancelled : Cancellation)
    (done keep : Bool) :
    WalkStep c walk.request walk.batches
      (walk.afterBatch c cancelled done keep) := by
  unfold Walk.afterBatch
  split
  · exact WalkStep.ended _ rfl rfl rfl
  · split
    · exact WalkStep.ended _ rfl rfl rfl
    · exact walk.next_step c cancelled

/- There is a batch only while the Client is not Stopping. -/
theorem walkTurn_scanned
    {base current current' : Oid}
    {maxRepetitions : Int32}
    {cancelled : Cancellation}
    {stopping done : Bool}
    {ec : Option ErrorCode}
    {varbinds batch : List Varbind}
    (hTurn :
      walkTurn base current maxRepetitions cancelled stopping
        ec varbinds = .scanned done current' batch) :
    stopping = false := by
  unfold walkTurn at hTurn
  split at hTurn
  · cases hTurn
  · cases ec with
    | some ec => cases hTurn
    | none =>
        dsimp only at hTurn
        split at hTurn
        · cases hTurn
        · next hGoing => simpa using hGoing

/- A result ends it, asks again or calls back. -/
theorem Walk.takeResult_step
    (walk : Walk)
    (c : Client)
    (cancelled : Cancellation)
    (ec : Option ErrorCode)
    (resp : Response) :
    WalkStep c walk.request walk.batches
      (walk.takeResult c cancelled ec resp) := by
  unfold Walk.takeResult
  split
  · next maxRepetitions _ =>
    exact Walk.next_step
      { walk with maxRepetitions := maxRepetitions } c
      cancelled
  · exact WalkStep.ended _ rfl rfl rfl
  · next done current batch hTurn =>
    dsimp only
    split
    · exact Walk.afterBatch_step
        { walk with current := current } c cancelled done true
    · exact WalkStep.calls (walkTurn_scanned hTurn) rfl rfl
        rfl

end Snmpio

------------------------------------------------------------
-- Quiet
------------------------------------------------------------

namespace Snmpio

variable {ssl : OpenSsl} {c c' : Client} {task task' : Task}
variable {e : Event}

/-
  No send begins and no socket is opened: what is in flight
  afterwards has been in flight before.
-/
structure Client.Quiet
    (c c' : Client) : Prop where
  sends :
    ∀ (t : Nat) (task' : Task) (x : Exchange),
      c'.tasks[t]? = some task' → task'.point = .sending x →
        ∃ task, c.tasks[t]? = some task ∧
          task.point = .sending x
  sockets : ∀ v6, c.slot v6 = none → c'.slot v6 = none
  listening :
    ∀ v6, c'.slot v6 = some .listening →
      c.slot v6 = some .listening

theorem Client.Quiet.refl
    (c : Client) :
    c.Quiet c where
  sends := fun _ task _ hTask hPoint => ⟨task, hTask, hPoint⟩
  sockets := fun _ hNone => hNone
  listening := fun _ hListening => hListening

/- A request that has not begun sends nothing. -/
theorem Client.Quiet.spawn
    (c : Client)
    (hStart : task.point = .start) :
    c.Quiet (c.spawn task) where
  sends := by
    intro t task' x hTask' hPoint
    rcases getElem?_concat_cases hTask' with
      hOld | ⟨_, rfl⟩
    · exact ⟨task', hOld, hPoint⟩
    · rw [hStart] at hPoint
      cases hPoint
  sockets := fun _ hNone => hNone
  listening := fun _ hListening => hListening

theorem Opening.slot
    {keys : KeyCache}
    (hOpening : Opening c task keys c' task')
    (v6 : Bool) :
    c'.slot v6 = c.slot v6 := by
  cases hOpening with
  | fails _ _ _ => rfl
  | opens _ _ => rfl

/- A coroutine of a Client that is Stopping opens nothing. -/
theorem Move.sockets
    {out : Outside}
    {spawned : Option Task}
    (hMove : Move ssl out c task c' task' spawned)
    (hStopping : c.stopping = true)
    (v6 : Bool) :
    c'.slot v6 = c.slot v6 := by
  cases hMove with
  | beginV2c _ hWork =>
      exact (startV2c_opening c hWork).slot v6
  | beginIdentify _ hWork =>
      exact (startIdentify_opening out c hWork).slot v6
  | ensure _ _ hEnsure =>
      rcases ensureEngine_cases hEnsure with
        ⟨rfl, _⟩ | ⟨_, _, rfl, _⟩ | ⟨_, rfl, _⟩
      all_goals rfl
  | send _ hWork =>
      exact (sendRequest_opening out c hWork).slot v6
  | enter _ =>
      unfold enterTransact
      rw [if_pos hStopping]
  | succeeded _ _ =>
      rw [afterSuccess_client]
      rfl
  | beginSync hPoint hWork =>
      exact (startSync_opening out c hPoint hWork).slot v6
  | _ => rfl

theorem receive_slot
    (ssl : OpenSsl)
    (c : Client)
    (datagram : Octets)
    (sender : Endpoint)
    (v6 : Bool) :
    (c.receive ssl datagram sender).slot v6 = c.slot v6 := by
  rw [receive_eq_route]
  split
  · rfl
  · next ref p verdict _ =>
    cases verdict with
    | drop reason =>
        cases reason with
        | none => rfl
        | some e => rfl
    | accept p' => rfl

/- A socket stays as it is, falls silent or is closed. -/
theorem step_slot
    (hStep : step ssl c e = some c')
    (hStopping : c.stopping = true)
    (v6 : Bool) :
    c'.slot v6 = c.slot v6 ∨
      c'.slot v6 = (c.slot v6).map Socket.fail ∨
      c'.slot v6 = (c.slot v6).map (fun _ => .closed) := by
  cases e with
  | advance out =>
      rcases advance_eq hStep with
        ⟨t, rest, task, c₁, task', spawned, _, _, hMove, rfl⟩
      left
      rw [settle_slot]
      exact hMove.sockets hStopping v6
  | request target auth pdu =>
      simp only [step] at hStep
      split_ifs at hStep
      cases hStep
      exact Or.inl rfl
  | receive sender datagram =>
      simp only [step] at hStep
      split_ifs at hStep
      cases hStep
      exact Or.inl (receive_slot ssl c datagram sender v6)
  | receiveFailed other =>
      simp only [step] at hStep
      split_ifs at hStep with _ hOther
      · cases hStep
        cases v6 with
        | true => exact Or.inr (Or.inl rfl)
        | false => exact Or.inl rfl
      · cases hStep
        cases v6 with
        | true => exact Or.inl rfl
        | false => exact Or.inr (Or.inl rfl)
  | finishStopping =>
      simp only [step] at hStep
      split_ifs at hStep
      cases hStep
      right
      right
      cases v6 with
      | true => rfl
      | false => rfl
  | stop =>
      cases hStep
      exact Or.inl rfl
  | tick elapsed =>
      cases hStep
      exact Or.inl rfl
  | expire t =>
      rcases Option.bind_eq_some_iff.mp hStep with
        ⟨task, _, hStep⟩
      split at hStep
      · split_ifs at hStep
        cases hStep
        exact Or.inl rfl
      · cases hStep
  | sent t ec =>
      simp only [step] at hStep
      split_ifs at hStep
      rcases onSent_eq hStep with ⟨_, _, _, _, rfl⟩
      exact Or.inl rfl
  | resume t =>
      simp only [step] at hStep
      split_ifs at hStep
      rcases onResume_eq hStep with ⟨_, _, _, _, rfl⟩
      exact Or.inl rfl
  | signal t kind =>
      simp only [step] at hStep
      split_ifs at hStep
      rcases onSignal_eq hStep with ⟨_, _, _, _, _, rfl⟩
      exact Or.inl rfl
  | raise t =>
      rcases onRaise_eq hStep with
        ⟨_, _, _, _, _, _, _, rfl⟩
      exact Or.inl rfl

/- A send that is in flight has been in flight before. -/
theorem step_sends
    (hStep : step ssl c e = some c')
    (hStopping : c.stopping = true)
    {t : Nat}
    {x : Exchange}
    (hTask' : c'.tasks[t]? = some task')
    (hPoint : task'.point = .sending x) :
    ∃ task, c.tasks[t]? = some task ∧
      task.point = .sending x := by
  cases step_task hStep hTask' with
  | moved _ _ hMove =>
      cases hMove.turn with
      | outside _ _ _ _ hAfter =>
          rw [hPoint] at hAfter
          cases hAfter
      | opened _ _ _ _ hEntering _ _ _ _ =>
          rw [hPoint] at hEntering
          cases hEntering
      | refused _ _ => cases hPoint
      | registered _ hGoing _ _ _ =>
          rw [hStopping] at hGoing
          cases hGoing
      | left _ _ => cases hPoint
  | spawned _ _ hMove _ =>
      rcases hMove.spawned_eq rfl with ⟨creds, rfl⟩
      cases hPoint
  | requested _ _ => cases hPoint
  | @resumed _ _ point _ _ hResumes =>
      change point = .sending x at hPoint
      rcases hResumes.goes_on (x := x)
        (by rw [hPoint]; rfl) (by rw [hPoint]; nofun) with
        ⟨_, hGoing, _⟩
      rw [hStopping] at hGoing
      cases hGoing
  | raised _ _ _ => cases hPoint
  | @signalled _ task _ _ hTask _ _ =>
      change task.point.signalled = _ at hPoint
      refine ⟨task, hTask, ?_⟩
      rcases signalled_cases task.point with hSame | hWake
      · rw [← hSame]
        exact hPoint
      · exact Point.eq_of_wake (hWake ▸ hPoint) rfl
  | woken hTask _ _ =>
      exact ⟨_, hTask, Point.eq_of_wake hPoint rfl⟩
  | kept hTask _ => exact ⟨task', hTask, hPoint⟩

/- While Stopping, nothing new goes out. -/
theorem step_quiet
    (hStep : step ssl c e = some c')
    (hStopping : c.stopping = true) :
    c.Quiet c' := by
  refine ⟨?_, ?_, ?_⟩
  · intro t task' x hTask' hPoint
    exact step_sends hStep hStopping hTask' hPoint
  · intro v6 hNone
    rcases step_slot hStep hStopping v6 with
      hSame | hFailed | hClosed
    · rw [hSame, hNone]
    · rw [hFailed, hNone, Option.map_none]
    · rw [hClosed, hNone, Option.map_none]
  · intro v6 hListening
    rcases step_slot hStep hStopping v6 with
      hSame | hFailed | hClosed
    · rw [← hSame]
      exact hListening
    · rw [hFailed] at hListening
      rcases Option.map_eq_some_iff.mp hListening with
        ⟨socket, hSocket, hFails⟩
      cases socket with
      | listening => cases hFails
      | silent => cases hFails
      | closed => cases hFails
    · rw [hClosed] at hListening
      rcases Option.map_eq_some_iff.mp hListening with
        ⟨socket, _, hFails⟩
      cases hFails

/- A Walk that goes on sends nothing either. -/
theorem WalkStep.quiet
    {request : Nat}
    {batches : List (List Varbind)}
    {next : Client × Walk}
    (hNext : WalkStep c request batches next)
    (hStopping : c.stopping = true) :
    c.Quiet next.1 ∧ next.2.batches = batches ∧
      next.1.stopping = true := by
  cases hNext with
  | ended _ _ _ hBatches =>
      exact ⟨Client.Quiet.refl c, hBatches, hStopping⟩
  | asks _ _ _ _ _ hBatches =>
      exact ⟨Client.Quiet.spawn c rfl, hBatches, hStopping⟩
  | calls hGoing _ _ _ =>
      rw [hStopping] at hGoing
      cases hGoing

namespace Operations

/- Nor does a batch handler get a batch. -/
structure Quiet
    (s s' : Operations) : Prop where
  client : s.client.Quiet s'.client
  batches :
    ∀ (w : Nat) (walk' : Walk), s'.walks[w]? = some walk' →
      walk'.batches =
        ((s.walks[w]?).map (fun walk => walk.batches)).getD []

theorem put_quiet
    {s : Operations}
    {w : Nat}
    {walk : Walk}
    {next : Client × Walk}
    (hWalk : s.walks[w]? = some walk)
    (hClient : s.client.Quiet next.1)
    (hBatches : next.2.batches = walk.batches) :
    s.Quiet (s.put w next) := by
  refine ⟨hClient, ?_⟩
  intro w' walk' hWalk'
  rcases getElem?_set_cases hWalk' with
    ⟨rfl, rfl⟩ | ⟨_, hOther⟩
  · rw [hWalk]
    exact hBatches
  · rw [hOther]
    rfl

/- A step of a Client that is Stopping. -/
theorem step_quiet
    {s s' : Operations}
    (hStep : s.step ssl e = some s')
    (hStopping : s.client.stopping = true) :
    s.Quiet s' ∧ s'.client.stopping = true := by
  cases step_cases hStep with
  | @client e c' _ hInner =>
      refine ⟨⟨Snmpio.step_quiet hInner hStopping, ?_⟩, ?_⟩
      · intro w walk' hWalk'
        rw [hWalk']
        rfl
      · by_contra hGoing
        have hBefore :=
          step_stopping hInner (by simpa using hGoing)
        rw [hStopping] at hBefore
        cases hBefore
  | @began target auth base options _ _ =>
      rcases (Walk.next_step
        { target := target
          auth := auth
          base := base
          current := base
          maxRepetitions := options.maxRepetitions }
        s.client {}).quiet hStopping with
        ⟨hClient, hBatches, hAfter⟩
      refine ⟨⟨hClient, ?_⟩, hAfter⟩
      intro w walk' hWalk'
      rcases getElem?_concat_cases hWalk' with
        hOld | ⟨rfl, rfl⟩
      · rw [hOld]
        rfl
      · rw [List.getElem?_eq_none (le_refl _)]
        exact hBatches
  | took _ hWalk _ _ _ =>
      rcases (Walk.takeResult_step _ s.client _ _ _).quiet
        hStopping with ⟨hClient, hBatches, hAfter⟩
      exact ⟨put_quiet hWalk hClient hBatches, hAfter⟩
  | rethrew _ hWalk _ _ _ =>
      exact ⟨put_quiet hWalk (Client.Quiet.refl _) rfl,
        hStopping⟩
  | handled _ _ hWalk _ _ =>
      rcases (Walk.afterBatch_step _ s.client _ _ _).quiet
        hStopping with ⟨hClient, hBatches, hAfter⟩
      exact ⟨put_quiet hWalk hClient hBatches, hAfter⟩

end Operations

/-
  Once Stopping has begun, no later step begins a send,
  opens a socket or calls a batch handler.
-/
theorem quiet_after_stopping
    {s m s' : Operations}
    {events : List Operations.Event}
    {e : Operations.Event}
    (hStopping : s.client.stopping = true)
    (hRun :
      Machine.run (Operations.step ssl) s events = some m)
    (hStep : m.step ssl e = some s') :
    m.Quiet s' := by
  have hStill : m.client.stopping = true := by
    refine Machine.run_invariant
      (P := fun _ m => m.client.stopping = true)
      hStopping ?_ hRun
    intro events m e m' _ hStill hStep
    exact (Operations.step_quiet hStep hStill).2
  exact (Operations.step_quiet hStep hStill).1

/- The Agent has one more name in the Subtree. -/
def roundReply : Octets :=
  (encodeV2cMessage [] (upTimeResponse 1)).1

/- A Walk up to its first batch. -/
def batchRun : List Operations.Event :=
  [.walk agentTarget (.community []) ⟨[1, 3, 6, 1, 2, 1, 1]⟩
      {},
    .client ahead, .client ahead,
    .client (.sent 0 none),
    .client (.receive agentEndpoint roundReply),
    .client (.resume 0), .client ahead, .client ahead,
    .goOn 0]

/- The batch handler stops the Client, and wants more. -/
def stoppedRun : List Operations.Event :=
  [.client .finishStopping, .handled 0 true, .client ahead]

theorem stoppedRun_ends :
    ((Machine.run (Operations.step agentSsl)
      { client := fresh 1 0 }
      (batchRun ++ [.client .stop])).bind (fun s =>
        (Machine.run (Operations.step agentSsl) s
          stoppedRun).bind (fun m =>
            (m.step agentSsl (.goOn 0)).bind (fun s' =>
              (s'.walks[0]?).map (fun walk =>
                (s.client.stopping, walk.batches.length,
                  walk.point)))))) =
      some (true, 1,
        .completed (some (.errc .clientStopped))) := by
  decide +kernel

/- A handler that calls `stop()`. -/
theorem quiet_after_stopping_handler :
    ∃ s m s',
      Machine.run (Operations.step agentSsl)
          { client := fresh 1 0 }
          (batchRun ++ [.client .stop]) = some s ∧
        s.client.stopping = true ∧
        Machine.run (Operations.step agentSsl) s stoppedRun =
          some m ∧
        m.step agentSsl (.goOn 0) = some s' ∧
        m.Quiet s' := by
  rcases Option.bind_eq_some_iff.mp stoppedRun_ends with
    ⟨s, hBefore, hRest⟩
  rcases Option.bind_eq_some_iff.mp hRest with
    ⟨m, hRun, hRest⟩
  rcases Option.bind_eq_some_iff.mp hRest with
    ⟨s', hStep, hRest⟩
  rcases Option.map_eq_some_iff.mp hRest with
    ⟨walk, _, hAll⟩
  rw [Prod.mk.injEq] at hAll
  exact ⟨s, m, s', hBefore, hAll.1, hRun, hStep,
    quiet_after_stopping hAll.1 hRun hStep⟩

end Snmpio
