import Snmpio.Client.Stopping

/-
  The Walks of the Client are the Walks of `doWalk`.

  Among requests, discoveries, datagrams and other Walks, a
  Walk ends as `doWalk` does, and has given its handler the
  same batches.  What `doWalk` needs of its surroundings is
  in a script: the replies, each of which is the result of a
  request of its own for the PDU that `doWalk` asks for, and
  the verdicts of the batch handler.

  Key definitions include:
    * `Script`
    * `Walk.ComesFrom`
    * `Walk.Replied`
    * `Walk.Follows`

  Key theorems include:
    * `playWalk_next`
    * `Operations.follows_of_run`
    * `walks_refine_doWalk`
-/

------------------------------------------------------------
-- Scripts
------------------------------------------------------------

namespace Snmpio

/-
  What came of the request of a round, whether Stopping had
  begun by then, and the cancellation that the Walk sees
  next.
-/
structure WalkReply where
  request : Nat
  ec : Option ErrorCode
  resp : Response
  stopping : Bool
  cancelled : Cancellation

/-
  What the Client showed of a request that was over, in one
  of the states that were seen.
-/
def WalkReply.Shown
    (seen : Client → Prop)
    (reply : WalkReply)
    (P : Client → Task → Prop) : Prop :=
  ∃ c task, seen c ∧
    c.tasks[reply.request]? = some task ∧
    task.point = .completed reply.ec reply.resp ∧ P c task

structure Script where
  cancelled : Cancellation := {}
  stopping : Bool := false
  asked : List Pdu := []
  replies : List WalkReply := []

/- Surroundings that keep to a script. -/
def scripted : WalkEnv Script where
  cancelled := Script.cancelled
  stopping := Script.stopping
  doRequest := fun pdu world =>
    match world.replies with
    | [] =>
        ((none, {}),
          { world with asked := world.asked ++ [pdu] })
    | reply :: rest =>
        ((reply.ec, { varbinds := reply.resp.varbinds }),
          { cancelled := reply.cancelled
            stopping := reply.stopping
            asked := world.asked ++ [pdu]
            replies := rest })

structure Audience where
  verdicts : List Bool := []
  batches : List (List Varbind) := []

/- A batch handler that keeps to a script. -/
def Audience.hear
    (batch : List Varbind)
    (audience : Audience) : Bool × Audience :=
  (audience.verdicts.headD true,
    { verdicts := audience.verdicts.tail
      batches := audience.batches ++ [batch] })

def playWalk
    (base : Oid)
    (rounds : Nat)
    (w : WalkState Script Audience) :
    Option (Option ErrorCode × WalkState Script Audience) :=
  doWalk scripted Audience.hear base rounds w

/- A Walk at its beginning, with all that is to come. -/
def openingWalk
    (base : Oid)
    (options : WalkOptions)
    (replies : List WalkReply)
    (verdicts : List Bool) : WalkState Script Audience :=
  { world := { replies := replies }
    handler := { verdicts := verdicts }
    current := base
    maxRepetitions := options.maxRepetitions }

/- On whose behalf a request is made. -/
def Work.auth? :
    Work → Option Auth
| v2c community => some (.community community)
| v3 creds _ => some (.credentials creds)
| _ => none

namespace Walk

variable (walk : Walk)

/- The Walk where it is now, as `doWalk` has it. -/
def standing
    (world : Script)
    (verdicts : List Bool) : WalkState Script Audience :=
  { world := world
    handler :=
      { verdicts := verdicts
        batches := walk.batches }
    current := walk.current
    maxRepetitions := walk.maxRepetitions }

/-
  `doWalk` comes to where the Walk is now, whatever follows
  in the script.
-/
def ComesFrom
    (options : WalkOptions)
    (past : List WalkReply)
    (heard : List Bool)
    (world : Script) : Prop :=
  ∀ rounds future unheard,
    playWalk walk.base (past.length + rounds)
        (openingWalk walk.base options (past ++ future)
          (heard ++ unheard)) =
      playWalk walk.base rounds
        (walk.standing { world with replies := future }
          unheard)

/- What a request is for, and on whose behalf. -/
structure Commissions
    (c : Client)
    (request : Nat)
    (pdu : Pdu)
    (task : Task) : Prop where
  found : c.tasks[request]? = some task
  target : task.target = walk.target
  auth : task.work.auth? = some walk.auth
  pdu : task.pdu = pdu

/-
  The reply is the result of a request for the PDU, and its
  flags are those that the Walk has seen.
-/
structure Replied
    (seen : Client → Prop)
    (c : Client)
    (pdu : Pdu)
    (reply : WalkReply) : Prop where
  result :
    ∃ task, walk.Commissions c reply.request pdu task ∧
      task.point = .completed reply.ec reply.resp
  stopping :
    reply.Shown seen (fun c _ => c.stopping = reply.stopping)
  cancelled :
    reply.Shown seen (fun _ task =>
      task.cancelled = reply.cancelled)

/- The replies are those of one request after the other. -/
structure Replies
    (seen : Client → Prop)
    (c : Client)
    (asked : List Pdu)
    (past : List WalkReply) : Prop where
  order :
    past.Pairwise (fun reply later =>
      reply.request < later.request)
  replied : List.Forall₂ (walk.Replied seen c) asked past

end Walk

end Snmpio

------------------------------------------------------------
-- Rounds of the Script
------------------------------------------------------------

namespace Snmpio

variable {c c' : Client} {walk : Walk}
variable {options : WalkOptions} {past : List WalkReply}
variable {heard : List Bool} {world : Script}

/- What a batch is followed by, once the verdict is given. -/
def Walk.afterVerdict
    (walk : Walk)
    (rounds : Nat)
    (done keep : Bool)
    (world : Script)
    (verdicts : List Bool) :
    Option (Option ErrorCode × WalkState Script Audience) :=
  if ¬ keep then
    some (some (.errc .walkIncomplete),
      walk.standing world verdicts)
  else if done then
    some (none, walk.standing world verdicts)
  else
    playWalk walk.base rounds (walk.standing world verdicts)

/- `doWalk` comes to the verdict of the batch handler. -/
def Walk.ComesTo
    (walk : Walk)
    (options : WalkOptions)
    (past : List WalkReply)
    (heard : List Bool)
    (world : Script)
    (done keep : Bool) : Prop :=
  ∀ rounds future unheard,
    playWalk walk.base (past.length + rounds)
        (openingWalk walk.base options (past ++ future)
          (heard ++ unheard)) =
      walk.afterVerdict rounds done keep
        { world with replies := future } unheard

/- The script after the next reply. -/
def Script.next
    (world : Script)
    (pdu : Pdu)
    (reply : WalkReply)
    (future : List WalkReply) : Script :=
  { cancelled := reply.cancelled
    stopping := reply.stopping
    asked := world.asked ++ [pdu]
    replies := future }

/- A round with the next reply of the script. -/
theorem playWalk_next
    (walk : Walk)
    (hGoes : stopNow world.cancelled = none)
    (rounds : Nat)
    (reply : WalkReply)
    (future : List WalkReply)
    (unheard : List Bool) :
    playWalk walk.base (rounds + 1)
        (walk.standing
          { world with replies := reply :: future }
          unheard) =
      let after := world.next
        (walkRequest walk.current walk.maxRepetitions) reply
        future
      match walkTurn walk.base walk.current
          walk.maxRepetitions reply.cancelled reply.stopping
          reply.ec reply.resp.varbinds with
      | .again maxRepetitions =>
          playWalk walk.base rounds
            ({ walk with
              maxRepetitions := maxRepetitions }.standing
                after unheard)
      | .ends ec => some (ec, walk.standing after unheard)
      | .scanned done current batch =>
          if batch.isEmpty then
            { walk with current := current }.afterVerdict
              rounds done true after unheard
          else
            { walk with
              current := current
              batches := walk.batches ++
                [batch] }.afterVerdict rounds done
                  (unheard.headD true) after
                  unheard.tail := by
  have hRound :
      walkRound scripted Audience.hear walk.base
          (walk.standing
            { world with replies := reply :: future }
            unheard) =
        takeReply scripted Audience.hear walk.base reply.ec
          { varbinds := reply.resp.varbinds }
          (walk.standing
            (world.next
              (walkRequest walk.current walk.maxRepetitions)
              reply future) unheard) := by
    have hHead :
        stopNow (scripted.cancelled
          { world with replies := reply :: future }) =
            none :=
      hGoes
    rw [walkRound]
    dsimp only [Walk.standing]
    rw [hHead]
    rfl
  rw [playWalk, doWalk, hRound, takeReply_eq_turn]
  dsimp only [Walk.standing, scripted, Script.next]
  cases walkTurn walk.base walk.current walk.maxRepetitions
    reply.cancelled reply.stopping reply.ec
    reply.resp.varbinds with
  | again maxRepetitions => rfl
  | ends ec => rfl
  | scanned done current batch =>
      cases batch with
      | nil =>
          cases done with
          | true => rfl
          | false => rfl
      | cons vb rest =>
          simp only [Audience.hear, Walk.afterVerdict,
            Walk.standing, List.isEmpty_cons,
            Bool.false_eq_true, if_false]
          cases unheard.headD true with
          | false => rfl
          | true =>
              cases done with
              | true => rfl
              | false => rfl

/- A batch depends on no cancellation. -/
theorem walkTurn_scanned_any
    {base current current' : Oid}
    {maxRepetitions : Int32}
    {cancelled : Cancellation}
    {stopping done : Bool}
    {ec : Option ErrorCode}
    {varbinds batch : List Varbind}
    (hTurn :
      walkTurn base current maxRepetitions cancelled stopping
        ec varbinds = .scanned done current' batch)
    (other : Cancellation) :
    walkTurn base current maxRepetitions other stopping ec
      varbinds = .scanned done current' batch := by
  unfold walkTurn at hTurn ⊢
  cases ec with
  | some ec =>
      split at hTurn
      · cases hTurn
      · cases hTurn
  | none => exact hTurn

end Snmpio

------------------------------------------------------------
-- Requests of a Walk
------------------------------------------------------------

namespace Snmpio

variable {ssl : OpenSsl} {c c' : Client} {walk : Walk}
variable {e : Event} {task : Task} {asked : List Pdu}
variable {past : List WalkReply}
variable {seen seen' : Client → Prop}

theorem Move.auth
    {out : Outside}
    {task' : Task}
    {spawned : Option Task}
    (hMove : Move ssl out c task c' task' spawned) :
    task'.work.auth? = task.work.auth? := by
  rcases hMove.work with
    hSame | ⟨creds, attempt, hWork, hWork'⟩ |
      ⟨creds, d, engineId, hWork, _, hWork'⟩
  · rw [hSame]
  · rw [hWork, hWork']
    rfl
  · rw [hWork, hWork']
    rfl

/- What a request is for stays, and so does its result. -/
structure Task.SameRequest
    (task task' : Task) : Prop where
  target : task'.target = task.target
  pdu : task'.pdu = task.pdu
  auth : task'.work.auth? = task.work.auth?
  result :
    ∀ ec resp, task.point = .completed ec resp →
      task'.point = .completed ec resp

theorem TaskStep.same_request
    {t : Nat}
    {task' : Task}
    (hTaskStep : TaskStep ssl c t e task')
    (hTask : c.tasks[t]? = some task) :
    task.SameRequest task' := by
  have hBound := (List.getElem?_eq_some_iff.mp hTask).1
  -- Only what is not over can get anywhere.
  have hLive {point : Point}
      (hOver : task.point.isOver = false) :
      ∀ ec resp, task.point = .completed ec resp →
        point = .completed ec resp := by
    intro ec resp hPoint
    rw [hPoint] at hOver
    cases hOver
  cases hTaskStep with
  | moved _ hBefore hMove =>
      rw [hTask] at hBefore
      cases hBefore
      exact ⟨hMove.kin.target, hMove.kin.pdu, hMove.auth,
        hLive (Point.isOver_of_runs hMove.runs)⟩
  | spawned _ _ _ hNew => exact absurd hNew (by omega)
  | requested _ hNew => exact absurd hNew (by omega)
  | resumed _ hBefore hResumes =>
      rw [hTask] at hBefore
      cases hBefore
      exact ⟨rfl, rfl, rfl, hLive hResumes.discovers.1⟩
  | raised hBefore _ hThrows =>
      rw [hTask] at hBefore
      cases hBefore
      exact ⟨rfl, rfl, rfl,
        hLive (Point.canThrow_isOver hThrows)⟩
  | signalled _ hBefore _ _ =>
      rw [hTask] at hBefore
      cases hBefore
      refine ⟨rfl, rfl, rfl, ?_⟩
      intro ec resp hPoint
      change task.point.signalled = _
      rw [hPoint]
      rfl
  | woken hBefore _ _ =>
      rw [hTask] at hBefore
      cases hBefore
      refine ⟨rfl, rfl, rfl, ?_⟩
      intro ec resp hPoint
      change task.point.wake = _
      rw [hPoint]
      rfl
  | kept hBefore _ =>
      rw [hTask] at hBefore
      cases hBefore
      exact ⟨rfl, rfl, rfl, fun _ _ hPoint => hPoint⟩

/- The Client goes on, or stays as it is. -/
def Client.GoesOn
    (c c' : Client) : Prop :=
  ∀ (t : Nat) (task : Task), c.tasks[t]? = some task →
    ∃ task', c'.tasks[t]? = some task' ∧
      task.SameRequest task'

theorem Client.GoesOn.refl
    (c : Client) :
    c.GoesOn c := by
  intro t task hTask
  exact ⟨task, hTask, rfl, rfl, rfl, fun _ _ hPoint => hPoint⟩

theorem Client.GoesOn.of_spawn
    (c : Client)
    (spawned : Task) :
    c.GoesOn (c.spawn spawned) := by
  intro t task hTask
  exact ⟨task, getElem?_append_some hTask _, rfl, rfl, rfl,
    fun _ _ hPoint => hPoint⟩

theorem Client.GoesOn.of_step
    (hStep : step ssl c e = some c') :
    c.GoesOn c' := by
  intro t task hTask
  rcases step_task_exists hStep hTask with ⟨task', hTask'⟩
  exact ⟨task', hTask',
    (step_task hStep hTask').same_request hTask⟩

theorem Client.GoesOn.of_operation
    {s s' : Operations}
    {event : Operations.Event}
    (hStep : s.step ssl event = some s') :
    s.client.GoesOn s'.client := by
  rcases Operations.step_client hStep with
    hSame | ⟨inner, hInner, _⟩
  · rw [hSame]
    exact Client.GoesOn.refl _
  · exact Client.GoesOn.of_step hInner

/- More may have been seen since. -/
theorem WalkReply.Shown.more
    {reply : WalkReply}
    {P : Client → Task → Prop}
    (hShown : reply.Shown seen P)
    (hSeen : ∀ c, seen c → seen' c) :
    reply.Shown seen' P := by
  rcases hShown with ⟨c, task, hHere, hTask⟩
  exact ⟨c, task, hSeen c hHere, hTask⟩

namespace Walk

theorem Commissions.goes_on
    {request : Nat}
    {pdu : Pdu}
    (hTask : walk.Commissions c request pdu task)
    (hGoes : c.GoesOn c') :
    ∃ task', walk.Commissions c' request pdu task' ∧
      ∀ ec resp, task.point = .completed ec resp →
        task'.point = .completed ec resp := by
  rcases hGoes request task hTask.found with
    ⟨task', hFound, hSame⟩
  exact ⟨task', ⟨hFound, hSame.target.trans hTask.target,
    hSame.auth.trans hTask.auth,
    hSame.pdu.trans hTask.pdu⟩, hSame.result⟩

theorem Replies.goes_on
    (hReplies : walk.Replies seen c asked past)
    (hGoes : c.GoesOn c')
    (hSeen : ∀ c, seen c → seen' c) :
    walk.Replies seen' c' asked past := by
  refine ⟨hReplies.order, ?_⟩
  refine hReplies.replied.imp ?_
  rintro pdu reply ⟨⟨task, hTask, hPoint⟩, hStopping,
    hCancelled⟩
  rcases hTask.goes_on hGoes with
    ⟨task', hTask', hResult⟩
  exact ⟨⟨task', hTask', hResult _ _ hPoint⟩,
    hStopping.more hSeen, hCancelled.more hSeen⟩

/- Every reply is of a request that there is. -/
theorem Replies.bound
    (hReplies : walk.Replies seen c asked past)
    {reply : WalkReply}
    (hReply : reply ∈ past) :
    reply.request < c.tasks.length := by
  have hReplied := hReplies.replied
  clear hReplies
  induction hReplied with
  | nil => cases hReply
  | cons hFirst _ ih =>
      rcases List.mem_cons.mp hReply with rfl | hRest
      · rcases hFirst.result with ⟨task, hTask, _⟩
        exact (List.getElem?_eq_some_iff.mp hTask.found).1
      · exact ih hRest

/- One more reply, of the last request. -/
theorem Replies.concat
    {pdu : Pdu}
    {reply : WalkReply}
    (hReplies : walk.Replies seen c asked past)
    (hOrder : ∀ earlier ∈ past,
      earlier.request < reply.request)
    (hReplied : walk.Replied seen c pdu reply) :
    walk.Replies seen c (asked ++ [pdu])
      (past ++ [reply]) := by
  refine ⟨?_, ?_⟩
  · refine List.pairwise_append.mpr
      ⟨hReplies.order, List.pairwise_singleton _ _, ?_⟩
    intro earlier hEarlier last hLast
    cases List.mem_singleton.mp hLast
    exact hOrder earlier hEarlier
  · exact List.rel_append hReplies.replied
      (.cons hReplied .nil)

end Walk

end Snmpio

------------------------------------------------------------
-- Walks Among Others
------------------------------------------------------------

namespace Snmpio

variable {ssl : OpenSsl} {c c' : Client}
variable {options : WalkOptions} {heard : List Bool}
variable {past : List WalkReply} {world : Script}
variable {seen seen' : Client → Prop}

/- How far `doWalk` has come with a Walk of the Client. -/
inductive Walk.Follows
    (seen : Client → Prop)
    (c : Client)
    (options : WalkOptions)
    (heard : List Bool)
    (walk : Walk) : Prop where
  | requesting
      {past : List WalkReply}
      {world : Script}
      {task : Task}
      (hPoint : walk.point = .requesting)
      (hGoes : stopNow world.cancelled = none)
      (hComes : walk.ComesFrom options past heard world)
      (hReplies : walk.Replies seen c world.asked past)
      (hOrder :
        ∀ reply ∈ past, reply.request < walk.request)
      (hTask :
        walk.Commissions c walk.request
          (walkRequest walk.current walk.maxRepetitions)
          task) :
      walk.Follows seen c options heard
  | handling
      {done : Bool}
      {asked : List Pdu}
      {past : List WalkReply}
      {pdu : Pdu}
      {reply : WalkReply}
      {world : Script}
      {task : Task}
      (hPoint : walk.point = .handling done)
      (hCalls :
        ∀ cancelled keep rounds future unheard,
          playWalk walk.base (past.length + (rounds + 1))
              (openingWalk walk.base options
                (past ++
                  { reply with cancelled := cancelled } ::
                    future)
                (heard ++ keep :: unheard)) =
            walk.afterVerdict rounds done keep
              { world with
                cancelled := cancelled
                replies := future } unheard)
      (hReplies : walk.Replies seen c asked past)
      (hAsked : world.asked = asked ++ [pdu])
      (hOrder :
        ∀ earlier ∈ past, earlier.request < reply.request)
      (hRequest : reply.request = walk.request)
      (hTask : walk.Commissions c reply.request pdu task)
      (hOver : task.point = .completed reply.ec reply.resp)
      (hStopping :
        reply.Shown seen (fun c _ =>
          c.stopping = reply.stopping)) :
      walk.Follows seen c options heard
  | completed
      {ec : Option ErrorCode}
      {rounds : Nat}
      {past : List WalkReply}
      {last : WalkState Script Audience}
      (hPoint : walk.point = .completed ec)
      (hEnds :
        playWalk walk.base rounds
          (openingWalk walk.base options past heard) =
            some (ec, last))
      (hBatches : last.handler.batches = walk.batches)
      (hReplies : walk.Replies seen c last.world.asked past) :
      walk.Follows seen c options heard
  | threw
      (hPoint : walk.point = .threw) :
      walk.Follows seen c options heard

namespace Walk

variable {walk : Walk}

theorem Follows.goes_on
    (hFollows : walk.Follows seen c options heard)
    (hGoes : c.GoesOn c')
    (hSeen : ∀ c, seen c → seen' c) :
    walk.Follows seen' c' options heard := by
  cases hFollows with
  | requesting hPoint hHead hComes hReplies hOrder hTask =>
      rcases hTask.goes_on hGoes with ⟨task', hTask', _⟩
      exact .requesting hPoint hHead hComes
        (hReplies.goes_on hGoes hSeen) hOrder hTask'
  | handling hPoint hCalls hReplies hAsked hOrder hRequest
      hTask hOver hStopping =>
      rcases hTask.goes_on hGoes with
        ⟨task', hTask', hResult⟩
      exact .handling hPoint hCalls
        (hReplies.goes_on hGoes hSeen) hAsked hOrder hRequest
        hTask' (hResult _ _ hOver) (hStopping.more hSeen)
  | completed hPoint hEnds hBatches hReplies =>
      exact .completed hPoint hEnds hBatches
        (hReplies.goes_on hGoes hSeen)
  | threw hPoint => exact .threw hPoint

/- Nobody but the Walk reads its point. -/
theorem Commissions.of_walk
    {walk' : Walk}
    {request : Nat}
    {pdu : Pdu}
    {task : Task}
    (hTask : walk.Commissions c request pdu task)
    (hTarget : walk'.target = walk.target)
    (hAuth : walk'.auth = walk.auth) :
    walk'.Commissions c request pdu task :=
  ⟨hTask.found, hTask.target.trans hTarget.symm,
    hTask.auth.trans (by rw [hAuth]), hTask.pdu⟩

theorem Replies.of_walk
    {walk' : Walk}
    {asked : List Pdu}
    (hReplies : walk.Replies seen c asked past)
    (hTarget : walk'.target = walk.target)
    (hAuth : walk'.auth = walk.auth) :
    walk'.Replies seen c asked past := by
  refine ⟨hReplies.order, hReplies.replied.imp ?_⟩
  rintro pdu reply ⟨⟨task, hTask, hPoint⟩, hStopping,
    hCancelled⟩
  exact ⟨⟨task, hTask.of_walk hTarget hAuth, hPoint⟩,
    hStopping, hCancelled⟩

theorem beginWork_auth
    (auth : Auth) :
    (beginWork auth).auth? = some auth := by
  cases auth with
  | community _ => rfl
  | credentials _ => rfl

/- The head of the loop: the Walk stops, or asks again. -/
theorem ComesFrom.next
    (hComes : walk.ComesFrom options past heard world)
    (hReplies : walk.Replies seen c world.asked past) :
    (walk.next c world.cancelled).2.Follows seen
      (walk.next c world.cancelled).1 options heard := by
  unfold Walk.next
  cases hStop : stopNow world.cancelled with
  | some ec =>
      have hComes := hComes 1 [] []
      rw [List.append_nil, List.append_nil] at hComes
      have hEnds :
          playWalk walk.base 1
              (walk.standing { world with replies := [] }
                []) =
            some (some ec,
              walk.standing { world with replies := [] }
                []) := by
        rw [playWalk, doWalk, walkRound]
        dsimp only [standing, scripted]
        rw [hStop]
      exact .completed rfl (hComes.trans hEnds) rfl
        (hReplies.of_walk rfl rfl)
  | none =>
      have hGoes := Client.GoesOn.of_spawn c {
        work := beginWork walk.auth
        target := walk.target
        pdu := walkRequest walk.current walk.maxRepetitions }
      refine .requesting rfl hStop hComes
        ((hReplies.goes_on hGoes fun _ hSeen =>
          hSeen).of_walk rfl rfl) ?_
        ⟨List.getElem?_concat_length, rfl,
          beginWork_auth walk.auth, rfl⟩
      intro reply hReply
      exact hReplies.bound hReply

/- What follows a batch, with the verdict of the handler. -/
theorem Follows.of_verdict
    {done keep : Bool}
    (hComes :
      walk.ComesTo options past heard world done keep)
    (hReplies : walk.Replies seen c world.asked past) :
    (walk.afterBatch c world.cancelled done keep).2.Follows
      seen (walk.afterBatch c world.cancelled done keep).1
      options heard := by
  have hHere := hComes 0 [] []
  rw [List.append_nil, List.append_nil] at hHere
  unfold afterBatch
  cases keep with
  | false =>
      exact .completed rfl hHere rfl
        (hReplies.of_walk rfl rfl)
  | true =>
      cases done with
      | true =>
          exact .completed rfl hHere rfl
            (hReplies.of_walk rfl rfl)
      | false => exact ComesFrom.next hComes hReplies

/- `doWalk` has the reply that the Walk has. -/
theorem ComesFrom.reply
    (hComes : walk.ComesFrom options past heard world)
    (reply : WalkReply)
    (rounds : Nat)
    (future : List WalkReply)
    (unheard : List Bool) :
    playWalk walk.base ((past ++ [reply]).length + rounds)
        (openingWalk walk.base options
          (past ++ [reply] ++ future) (heard ++ unheard)) =
      playWalk walk.base (rounds + 1)
        (walk.standing
          { world with replies := reply :: future }
          unheard) := by
  have hLength :
      (past ++ [reply]).length + rounds =
        past.length + (rounds + 1) := by
    rw [List.length_append, List.length_singleton]
    omega
  rw [hLength, List.append_assoc]
  exact hComes (rounds + 1) (reply :: future) unheard

/- What follows the result of the round's request. -/
theorem Follows.takeResult
    {task : Task}
    {ec : Option ErrorCode}
    {resp : Response}
    (hFollows : walk.Follows seen c options heard)
    (hPoint : walk.point = .requesting)
    (hTask : c.tasks[walk.request]? = some task)
    (hOver : task.point = .completed ec resp)
    (hSeen : seen c) :
    (walk.takeResult c task.cancelled ec resp).2.Follows seen
      (walk.takeResult c task.cancelled ec resp).1 options
      heard := by
  cases hFollows with
  | @requesting past world asker _ hGoes hComes hReplies hOrder
      hAsker =>
      have hFound := hAsker.found
      rw [hTask] at hFound
      cases hFound
      let reply : WalkReply :=
        { request := walk.request
          ec := ec
          resp := resp
          stopping := c.stopping
          cancelled := task.cancelled }
      let asked :=
        walkRequest walk.current walk.maxRepetitions
      have hStopping :
          reply.Shown seen (fun c _ =>
            c.stopping = reply.stopping) :=
        ⟨c, task, hSeen, hTask, hOver, rfl⟩
      have hReplied : walk.Replied seen c asked reply :=
        ⟨⟨task, hAsker, hOver⟩, hStopping,
          c, task, hSeen, hTask, hOver, rfl⟩
      have hAll := hReplies.concat hOrder hReplied
      have hNext (rounds future unheard) :=
        (hComes.reply reply rounds future unheard).trans
          (playWalk_next walk hGoes rounds reply future
            unheard)
      unfold Walk.takeResult
      cases hTurn : walkTurn walk.base walk.current
          walk.maxRepetitions task.cancelled c.stopping ec
          resp.varbinds with
      | again maxRepetitions =>
          have hComes' :
              Walk.ComesFrom
                { walk with maxRepetitions := maxRepetitions }
                options (past ++ [reply]) heard
                (world.next asked reply []) := by
            simp only [reply, hTurn] at hNext
            exact hNext
          exact hComes'.next (hAll.of_walk rfl rfl)
      | ends ec' =>
          simp only [reply, hTurn] at hNext
          have hHere := hNext 0 [] []
          rw [List.append_nil, List.append_nil] at hHere
          exact .completed rfl hHere rfl
            (hAll.of_walk rfl rfl)
      | scanned done current batch =>
          dsimp only
          split
          · next hEmpty =>
            have hVerdict :
                Walk.ComesTo { walk with current := current }
                  options (past ++ [reply]) heard
                  (world.next asked reply []) done true := by
              simp only [reply, hTurn, hEmpty, if_true]
                at hNext
              exact hNext
            have hReplies' :
                Walk.Replies { walk with current := current }
                  seen c (world.next asked reply []).asked
                  (past ++ [reply]) :=
              hAll.of_walk rfl rfl
            exact Follows.of_verdict hVerdict hReplies'
          · next hFull =>
            let walk' : Walk :=
              { walk with
                current := current
                batches := walk.batches ++ [batch]
                point := .handling done }
            have hCalls :
                ∀ cancelled keep rounds future unheard,
                  playWalk walk'.base
                      (past.length + (rounds + 1))
                      (openingWalk walk'.base options
                        (past ++
                          { reply with
                            cancelled := cancelled } :: future)
                        (heard ++ keep :: unheard)) =
                    walk'.afterVerdict rounds done keep
                      { world.next asked reply [] with
                        cancelled := cancelled
                        replies := future } unheard := by
              intro cancelled keep rounds future unheard
              refine (hComes (rounds + 1) _ _).trans ?_
              rw [playWalk_next walk hGoes]
              simp only [reply,
                walkTurn_scanned_any hTurn cancelled, hFull]
              rfl
            exact .handling rfl hCalls
              (hReplies.of_walk rfl rfl) rfl hOrder rfl
              (hAsker.of_walk rfl rfl) hOver hStopping
  | _ hPoint' =>
      rw [hPoint] at hPoint'
      cases hPoint'

/- What follows the batch handler's return. -/
theorem Follows.afterBatch
    {done : Bool}
    {task : Task}
    (hFollows : walk.Follows seen c options heard)
    (hPoint : walk.point = .handling done)
    (hTask : c.tasks[walk.request]? = some task)
    (hSeen : seen c)
    (keep : Bool) :
    (walk.afterBatch c task.cancelled done keep).2.Follows seen
      (walk.afterBatch c task.cancelled done keep).1 options
      (heard ++ [keep]) := by
  cases hFollows with
  | @handling _ asked past pdu reply world asker hPoint' hCalls
      hReplies hAsked hOrder hRequest hAsker hOver hStopping =>
      rw [hPoint] at hPoint'
      cases hPoint'
      have hFound := hAsker.found
      rw [hRequest, hTask] at hFound
      cases hFound
      -- The handler has run, and the flag is read again.
      let told : WalkReply :=
        { reply with cancelled := task.cancelled }
      have hVerdict :
          walk.ComesTo options (past ++ [told])
            (heard ++ [keep])
            { world with cancelled := task.cancelled } done
            keep := by
        intro rounds future unheard
        have hHere := hCalls task.cancelled keep rounds future
          unheard
        rw [List.append_assoc, List.append_assoc,
          List.length_append, List.length_singleton,
          Nat.add_assoc, Nat.add_comm 1 rounds]
        exact hHere
      have hReplied : walk.Replied seen c pdu told :=
        ⟨⟨task, hAsker, hOver⟩, hStopping,
          c, task, hSeen, hAsker.found, hOver, rfl⟩
      have hAll :
          walk.Replies seen c (asked ++ [pdu])
            (past ++ [told]) :=
        hReplies.concat hOrder hReplied
      rw [← hAsked] at hAll
      exact Follows.of_verdict hVerdict hAll
  | _ hPoint' =>
      rw [hPoint] at hPoint'
      cases hPoint'

end Walk

end Snmpio

------------------------------------------------------------
-- Runs
------------------------------------------------------------

namespace Snmpio

/- A Walk goes on for whom and where it was begun. -/
structure Walk.SameWalk
    (walk walk' : Walk) : Prop where
  target : walk'.target = walk.target
  auth : walk'.auth = walk.auth
  base : walk'.base = walk.base

namespace Walk

theorem next_same
    (walk : Walk)
    (c : Client)
    (cancelled : Cancellation) :
    walk.SameWalk (walk.next c cancelled).2 := by
  unfold Walk.next
  split
  · exact ⟨rfl, rfl, rfl⟩
  · exact ⟨rfl, rfl, rfl⟩

theorem afterBatch_same
    (walk : Walk)
    (c : Client)
    (cancelled : Cancellation)
    (done keep : Bool) :
    walk.SameWalk
      (walk.afterBatch c cancelled done keep).2 := by
  unfold Walk.afterBatch
  split
  · exact ⟨rfl, rfl, rfl⟩
  · split
    · exact ⟨rfl, rfl, rfl⟩
    · exact walk.next_same c cancelled

theorem takeResult_same
    (walk : Walk)
    (c : Client)
    (cancelled : Cancellation)
    (ec : Option ErrorCode)
    (resp : Response) :
    walk.SameWalk
      (walk.takeResult c cancelled ec resp).2 := by
  unfold Walk.takeResult
  split
  · next maxRepetitions _ =>
    have hSame := Walk.next_same
      { walk with maxRepetitions := maxRepetitions } c
      cancelled
    exact ⟨hSame.target, hSame.auth, hSame.base⟩
  · exact ⟨rfl, rfl, rfl⟩
  · next done current batch _ =>
    dsimp only
    split
    · have hSame := Walk.afterBatch_same
        { walk with current := current } c cancelled done true
      exact ⟨hSame.target, hSame.auth, hSame.base⟩
    · exact ⟨rfl, rfl, rfl⟩

end Walk

namespace Operations

variable {ssl : OpenSsl} {s s' : Operations} {e : Event}
variable {events : List Event} {start : Operations}

/- What the Walks were begun with, one after the other. -/
def Event.begins? :
    Event → Option (Target × Auth × Oid × WalkOptions)
| walk target auth base options =>
    some (target, auth, base, options)
| _ => none

/- What the batch handler of a Walk has returned. -/
def Event.verdict?
    (w : Nat) :
    Event → Option Bool
| handled w' keep => if w' = w then some keep else none
| _ => none

/- The Walk whose turn it is. -/
def Event.turn? :
    Event → Option Nat
| goOn w => some w
| handled w _ => some w
| _ => none

/- The states in which a Walk has taken its turns. -/
def SeenBy
    (ssl : OpenSsl)
    (start : Operations)
    (events : List Event)
    (w : Nat)
    (c : Client) : Prop :=
  ∃ before e after s,
    events = before ++ e :: after ∧
      Machine.run (step ssl) start before = some s ∧
      e.turn? = some w ∧ s.client = c

theorem SeenBy.later
    {w : Nat}
    {c : Client}
    (hSeen : SeenBy ssl start events w c)
    (e : Event) :
    SeenBy ssl start (events ++ [e]) w c := by
  rcases hSeen with ⟨before, e', after, s, rfl, hRest⟩
  exact ⟨before, e', after ++ [e], s, by simp, hRest⟩

structure Follows
    (ssl : OpenSsl)
    (start : Operations)
    (events : List Event)
    (s : Operations) : Prop where
  count :
    (events.filterMap Event.begins?).length = s.walks.length
  silent :
    ∀ w, s.walks.length ≤ w →
      events.filterMap (Event.verdict? w) = []
  walks :
    ∀ (w : Nat) (walk : Walk), s.walks[w]? = some walk →
      ∃ options,
        (events.filterMap Event.begins?)[w]? =
            some (walk.target, walk.auth, walk.base,
              options) ∧
          walk.Follows (SeenBy ssl start events w) s.client
            options (events.filterMap (Event.verdict? w))

theorem Follows.other
    (hFollows : Follows ssl start events s)
    {c : Client}
    (hGoes : s.client.GoesOn c)
    {w : Nat}
    {walk : Walk}
    (hWalk : s.walks[w]? = some walk)
    (hVerdict : e.verdict? w = none) :
    ∃ options,
      ((events ++ [e]).filterMap Event.begins?)[w]? =
          some (walk.target, walk.auth, walk.base,
            options) ∧
        walk.Follows (SeenBy ssl start (events ++ [e]) w) c
          options
          ((events ++ [e]).filterMap
            (Event.verdict? w)) := by
  rcases hFollows.walks w walk hWalk with
    ⟨options, hBegun, hWalkFollows⟩
  refine ⟨options, ?_, ?_⟩
  · rw [List.filterMap_append]
    exact getElem?_append_some hBegun _
  · rw [List.filterMap_append,
      List.filterMap_cons_none hVerdict, List.filterMap_nil,
      List.append_nil]
    exact hWalkFollows.goes_on hGoes
      fun _ hSeen => hSeen.later e

/- One Walk goes on, and the others stay where they are. -/
theorem Follows.put
    (hFollows : Follows ssl start events s)
    {w : Nat}
    {walk : Walk}
    {next : Client × Walk}
    (hGoes : s.client.GoesOn next.1)
    (hWalk : s.walks[w]? = some walk)
    (hBegins : e.begins? = none)
    (hVerdicts : ∀ other, other ≠ w →
      e.verdict? other = none)
    (hSame : walk.SameWalk next.2)
    (hNext :
      ∀ options,
        walk.Follows (SeenBy ssl start (events ++ [e]) w)
            s.client options
            (events.filterMap (Event.verdict? w)) →
          next.2.Follows (SeenBy ssl start (events ++ [e]) w)
            next.1 options
            ((events ++ [e]).filterMap
              (Event.verdict? w))) :
    Follows ssl start (events ++ [e]) (s.put w next) := by
  have hBound := (List.getElem?_eq_some_iff.mp hWalk).1
  have hBegun :
      (events ++ [e]).filterMap Event.begins? =
        events.filterMap Event.begins? := by
    rw [List.filterMap_append,
      List.filterMap_cons_none hBegins, List.filterMap_nil,
      List.append_nil]
  refine ⟨?_, ?_, ?_⟩
  · rw [hBegun, hFollows.count]
    exact List.length_set.symm
  · intro other hOther
    change (s.walks.set w next.2).length ≤ other at hOther
    rw [List.length_set] at hOther
    rw [List.filterMap_append, hFollows.silent other hOther,
      List.filterMap_cons_none (hVerdicts other (by omega))]
    rfl
  · intro other found hFound
    rcases getElem?_set_cases hFound with
      ⟨rfl, rfl⟩ | ⟨hNe, hBefore⟩
    · rcases hFollows.walks _ walk hWalk with
        ⟨options, hStart, hWalkFollows⟩
      refine ⟨options, ?_, hNext options
        (hWalkFollows.goes_on (Client.GoesOn.refl _)
          fun _ hSeen => hSeen.later e)⟩
      rw [hBegun, hSame.target, hSame.auth, hSame.base]
      exact hStart
    · exact hFollows.other hGoes hBefore
        (hVerdicts other hNe)

theorem Follows.step
    (hRun : Machine.run (step ssl) start events = some s)
    (hFollows : Follows ssl start events s)
    (hStep : s.step ssl e = some s') :
    Follows ssl start (events ++ [e]) s' := by
  have hGoes := Client.GoesOn.of_operation hStep
  have hSeen {w : Nat} (hTurn : e.turn? = some w) :
      SeenBy ssl start (events ++ [e]) w s.client :=
    ⟨events, e, [], s, rfl, hRun, hTurn, rfl⟩
  cases step_cases hStep with
  | client _ _ =>
      refine ⟨?_, ?_, ?_⟩
      · rw [List.filterMap_append, List.length_append,
          hFollows.count]
        rfl
      · intro w hw
        rw [List.filterMap_append, hFollows.silent w hw]
        rfl
      · intro w walk hWalk
        exact hFollows.other hGoes hWalk rfl
  | @began target auth base options _ _ =>
      let walk : Walk :=
        { target := target
          auth := auth
          base := base
          current := base
          maxRepetitions := options.maxRepetitions }
      have hBegun :
          (events ++
              [Event.walk target auth base options]).filterMap
                Event.begins? =
            events.filterMap Event.begins? ++
              [(target, auth, base, options)] :=
        List.filterMap_append
      have hSilent (w : Nat) :
          (events ++
              [Event.walk target auth base options]).filterMap
                (Event.verdict? w) =
            events.filterMap (Event.verdict? w) := by
        rw [List.filterMap_append]
        exact List.append_nil _
      refine ⟨?_, ?_, ?_⟩
      · change _ = (s.walks ++ [_]).length
        rw [hBegun, List.length_append, List.length_append,
          hFollows.count]
        rfl
      · intro w hw
        change (s.walks ++ [_]).length ≤ w at hw
        rw [List.length_append, List.length_singleton] at hw
        rw [hSilent]
        exact hFollows.silent w (by omega)
      · intro w found hFound
        rcases getElem?_concat_cases hFound with
          hBefore | ⟨rfl, rfl⟩
        · exact hFollows.other hGoes hBefore rfl
        · have hSame := walk.next_same s.client {}
          refine ⟨options, ?_, ?_⟩
          · rw [hBegun, hSame.target, hSame.auth, hSame.base,
              ← hFollows.count]
            exact List.getElem?_concat_length
          · rw [hSilent, hFollows.silent _ le_rfl]
            have hComes : walk.ComesFrom options [] [] {} := by
              intro rounds future unheard
              rw [List.length_nil, Nat.zero_add]
              rfl
            exact hComes.next ⟨.nil, .nil⟩
  | @took w walk task ec resp _ hWalk hPoint hTask hOver =>
      refine hFollows.put hGoes hWalk rfl (fun _ _ => rfl)
        (walk.takeResult_same _ _ _ _) ?_
      intro options hWalkFollows
      rw [List.filterMap_append]
      exact (List.append_nil _).symm ▸
        hWalkFollows.takeResult hPoint hTask hOver (hSeen rfl)
  | @rethrew w walk task _ hWalk _ _ _ =>
      refine hFollows.put hGoes hWalk rfl (fun _ _ => rfl)
        ⟨rfl, rfl, rfl⟩ ?_
      intro options _
      exact .threw rfl
  | @handled w walk task done keep _ _ hWalk hPoint hTask =>
      refine hFollows.put hGoes hWalk rfl ?_
        (walk.afterBatch_same _ _ _ _) ?_
      · intro other hOther
        exact if_neg (Ne.symm hOther)
      · intro options hWalkFollows
        have hHeard :
            [Event.handled w keep].filterMap
              (Event.verdict? w) = [keep] := by
          simp [Event.verdict?]
        rw [List.filterMap_append, hHeard]
        exact hWalkFollows.afterBatch hPoint hTask (hSeen rfl)
          keep

theorem follows_of_run
    {id : Int32}
    {now : Int}
    (hRun :
      Machine.run (step ssl) { client := Snmpio.fresh id now }
        events = some s) :
    Follows ssl { client := Snmpio.fresh id now } events
      s := by
  refine Machine.run_invariant (P := Follows ssl _) ?_ ?_ hRun
  · refine ⟨rfl, fun _ _ => rfl, ?_⟩
    intro w walk hWalk
    cases hWalk
  · intro events s e s' hBefore hFollows hStep
    exact hFollows.step hBefore hStep

end Operations

/-
  In every run of the Client with its Walks, a Walk that has
  completed has ended as `doWalk` ends, for the options the
  Walk was begun with and the verdicts its batch handler has
  given, and the handler has had the same batches.  Each
  reply on the way is the result of a new request, made for
  the PDU that `doWalk` has asked for, and its flags are the
  Client's when the Walk took a turn.
-/
theorem walks_refine_doWalk
    {ssl : OpenSsl}
    {id : Int32}
    {now : Int}
    {events : List Operations.Event}
    {s : Operations}
    (hRun :
      Machine.run (Operations.step ssl)
        { client := fresh id now } events = some s)
    {w : Nat}
    {walk : Walk}
    (hWalk : s.walks[w]? = some walk)
    {ec : Option ErrorCode}
    (hPoint : walk.point = .completed ec) :
    ∃ options rounds replies last,
      (events.filterMap Operations.Event.begins?)[w]? =
          some (walk.target, walk.auth, walk.base,
            options) ∧
        doWalk scripted Audience.hear walk.base rounds
            (openingWalk walk.base options replies
              (events.filterMap
                (Operations.Event.verdict? w))) =
          some (ec, last) ∧
        last.handler.batches = walk.batches ∧
        replies.Pairwise (fun reply later =>
          reply.request < later.request) ∧
        List.Forall₂
          (walk.Replied
            (Operations.SeenBy ssl { client := fresh id now }
              events w) s.client)
          last.world.asked replies := by
  rcases (Operations.follows_of_run hRun).walks w walk
    hWalk with ⟨options, hBegun, hFollows⟩
  cases hFollows with
  | @completed ec' rounds replies last hPoint' hEnds hBatches
      hReplies =>
      rw [hPoint] at hPoint'
      cases hPoint'
      exact ⟨options, rounds, replies, last, hBegun, hEnds,
        hBatches, hReplies.order, hReplies.replied⟩
  | _ hPoint' =>
      rw [hPoint] at hPoint'
      cases hPoint'

/- The next name is outside of the Subtree. -/
def leavingReply : Octets :=
  (encodeV2cMessage []
    { type := .response
      requestId := 2
      varbinds := [⟨⟨[1, 3, 6, 1, 2, 1, 2, 1, 0]⟩,
        .integer 3⟩] }).1

/- The Walk of `batchRun` goes on, to its end. -/
def walkedRun : List Operations.Event :=
  batchRun ++
    [.handled 0 true,
    .client ahead, .client ahead,
    .client (.sent 1 none),
    .client (.receive agentEndpoint leavingReply),
    .client (.resume 1), .client ahead, .client ahead,
    .goOn 0]

theorem walkedRun_ends :
    ((Machine.run (Operations.step agentSsl)
      { client := fresh 1 0 } walkedRun).bind (fun s =>
        (s.walks[0]?).map (fun walk =>
          (walk.point, walk.batches)))) =
      some (.completed none,
        [[⟨sysUpTime, .timeTicks 4711⟩]]) := by
  decide +kernel

theorem walks_refine_doWalk_leaving :
    ∃ s walk options rounds replies last,
      Machine.run (Operations.step agentSsl)
          { client := fresh 1 0 } walkedRun = some s ∧
        s.walks[0]? = some walk ∧
        doWalk scripted Audience.hear walk.base rounds
            (openingWalk walk.base options replies [true]) =
          some (none, last) ∧
        last.handler.batches =
          [[⟨sysUpTime, .timeTicks 4711⟩]] ∧
        List.Forall₂
          (walk.Replied
            (Operations.SeenBy agentSsl { client := fresh 1 0 }
              walkedRun 0) s.client)
          last.world.asked replies := by
  rcases Option.bind_eq_some_iff.mp walkedRun_ends with
    ⟨s, hRun, hRest⟩
  rcases Option.map_eq_some_iff.mp hRest with
    ⟨walk, hWalk, hFound⟩
  rw [Prod.mk.injEq] at hFound
  rcases walks_refine_doWalk hRun hWalk hFound.1 with
    ⟨options, rounds, replies, last, _, hEnds, hBatches, _,
      hReplied⟩
  exact ⟨s, walk, options, rounds, replies, last, hRun, hWalk,
    hEnds, hBatches.trans hFound.2, hReplied⟩

end Snmpio
