import Snmpio.Client.Delivery

/-
  An exchange from the reply it accepts to its return.

  Accepting a reply and returning from `transact` are two
  steps, and the exchange stays registered in between.

  Key definitions include:
    * `Pending.isVerified`
    * `displaces`
    * `sparesVerified`
    * `findsWaiting`
    * `Attentive`

  Key theorems include:
    * `accepted_response_final`
    * `accepted_response_displaced`
    * `no_lost_wakeup`
    * `crossed_reply_waits`
-/

------------------------------------------------------------
-- Verified Responses
------------------------------------------------------------

namespace Snmpio

variable {ssl : OpenSsl} {c c' : Client} {p : Pending}
variable {ref : Nat}

/- The exchange holds a Response with a verified digest. -/
def Pending.isVerified
    (p : Pending) : Bool :=
  p.answered ∧ p.replyAuthenticated ∧
    p.response.type = .response

/-
  A further message of the exchange's id, from the address
  it was sent to, that is exempt from the digest or has a
  right one.
-/
def displaces
    (ssl : OpenSsl)
    (c : Client)
    (sender : Endpoint)
    (datagram : Octets) : Bool :=
  match (decodeV3Message datagram).1 with
  | none => false
  | some msg =>
      (c.findPending msg.header.msgId).any (fun found =>
        found.2.isVerified ∧ sender = found.2.sender ∧
          (exemptFromAuth msg ∨
            verifyAuth ssl datagram msg
                found.2.authProtocol found.2.authKey =
              .ok ()))

/- No such message arrives for a verified Response. -/
def sparesVerified
    (ssl : OpenSsl)
    (c : Client) :
    Event → Bool
| .receive sender datagram =>
    !displaces ssl c sender datagram
| _ => true

/- What a verified Response is, from here on. -/
structure Pending.SameReply
    (p p' : Pending) : Prop where
  answered : p'.answered = p.answered
  replyAuthenticated :
    p'.replyAuthenticated = p.replyAuthenticated
  response : p'.response = p.response
  security : p'.security = p.security

theorem Pending.SameReply.isVerified
    {p' : Pending}
    (hSame : p.SameReply p')
    (hVerified : p.isVerified = true) :
    p'.isVerified = true := by
  rw [Pending.isVerified, hSame.answered,
    hSame.replyAuthenticated, hSame.response]
  exact hVerified

/- Only a v3 exchange that asks for a digest gets one. -/
theorem Pending.isVerified_v3
    {id : Int32}
    {now : Int}
    {events : List Event}
    (hRun :
      Machine.run (step ssl) (fresh id now) events = some c)
    (hp : c.pendings[ref]? = some p)
    (hVerified : p.isVerified = true) :
    p.v3 = true ∧ p.authRequired = true := by
  rw [Pending.isVerified, decide_eq_true_eq] at hVerified
  rcases hVerified with ⟨hAnswered, hSigned, _⟩
  have hV3 : p.v3 = true := by
    by_contra hNot
    have hPlain :=
      plain_of_run hRun hp (by simpa using hNot)
    rw [hPlain.2] at hSigned
    cases hSigned
  refine ⟨hV3, ?_⟩
  rcases (sound_of_run hRun).core.answers ref p hp
    hAnswered with ⟨sender, datagram, _, hReply⟩
  rw [Answered, if_pos hV3] at hReply
  rcases hReply with ⟨msg, opened, hReply⟩
  have hChecked := hReply.checked
  rw [hSigned] at hChecked
  exact (Bool.and_eq_true_iff.mp hChecked.symm).1

/- What is taken for such an exchange is one of those. -/
theorem displaces_of_route
    {sender : Endpoint}
    {datagram : Octets}
    {p' : Pending}
    (hRoute :
      c.route ssl datagram sender = some (ref, p, .accept p'))
    (hVerified : p.isVerified = true)
    (hV3 : p.v3 = true)
    (hRequired : p.authRequired = true) :
    displaces ssl c sender datagram = true := by
  rcases route_cases hRoute with ⟨hp, hJudged⟩
  rcases hJudged with
    ⟨msg, _, _, hAccept⟩ | ⟨msg, hMsg, hRef, hAccept⟩
  · rw [judgeV2c, if_pos hV3] at hAccept
    cases hAccept
  · have hFound :
        c.findPending msg.header.msgId = some (ref, p) := by
      simp [Client.findPending, hRef, hp]
    unfold judgeV3 at hAccept
    dsimp only at hAccept
    split_ifs at hAccept with hSender hVerify
    rw [displaces, hMsg]
    simp only [hFound, Option.any_some, decide_eq_true_eq]
    refine ⟨hVerified, not_not.mp hSender, ?_⟩
    by_cases hExempt : exemptFromAuth msg = true
    · exact Or.inl hExempt
    · right
      by_contra hFails
      exact hVerify ⟨by simp [hRequired, hExempt], hFails⟩

theorem step_verified
    {id : Int32}
    {now : Int}
    {events : List Event}
    (hRun :
      Machine.run (step ssl) (fresh id now) events = some c)
    (hp : c.pendings[ref]? = some p)
    (hVerified : p.isVerified = true)
    {e : Event}
    (hOk : sparesVerified ssl c e = true)
    (hStep : step ssl c e = some c') :
    ∃ p' : Pending,
      c'.pendings[ref]? = some p' ∧ p.SameReply p' := by
  have hBound := (List.getElem?_eq_some_iff.mp hp).1
  have hSelf : p.SameReply p := ⟨rfl, rfl, rfl, rfl⟩
  have hCase := step_pendings hStep
  generalize c'.pendings = pendings at hCase ⊢
  cases hCase with
  | kept _ => exact ⟨p, hp, hSelf⟩
  | opened _ => exact ⟨p, getElem?_append_some hp _, hSelf⟩
  | @dropped _ _ found q reason hRoute =>
      by_cases hSame : found = ref
      · subst hSame
        have hq := (route_cases hRoute).1
        rw [hp] at hq
        cases hq
        exact ⟨_, List.getElem?_set_self hBound,
          ⟨rfl, rfl, rfl, rfl⟩⟩
      · exact ⟨p, (List.getElem?_set_ne hSame).trans hp,
          hSelf⟩
  | @accepted sender datagram found q q' hRoute =>
      by_cases hSame : found = ref
      · subst hSame
        have hq := (route_cases hRoute).1
        rw [hp] at hq
        cases hq
        rcases Pending.isVerified_v3 hRun hp hVerified with
          ⟨hV3, hRequired⟩
        rw [sparesVerified, displaces_of_route hRoute
          hVerified hV3 hRequired] at hOk
        cases hOk
      · exact ⟨p, (List.getElem?_set_ne hSame).trans hp,
          hSelf⟩

/-
  A verified Response stays what it is, and the request that
  is answered by it completes with it.
-/
theorem accepted_response_final
    {id : Int32}
    {now : Int}
    {before after : List Event}
    (hBefore :
      Machine.run
          (Machine.guarded (step ssl) (sparesVerified ssl))
          (fresh id now) before = some c)
    {ref : Nat}
    {p : Pending}
    (hp : c.pendings[ref]? = some p)
    (hVerified : p.isVerified = true)
    (hAfter :
      Machine.run
          (Machine.guarded (step ssl) (sparesVerified ssl))
          c after = some c') :
    ∃ p' : Pending,
      c'.pendings[ref]? = some p' ∧
        p'.response = p.response ∧
        p'.security = p.security ∧
        p'.replyAuthenticated = true ∧
        ∀ (task : Task) (creds : Credentials) (attempt : Nat),
          task.work = .v3 creds attempt →
            (afterSuccess c' task p').2 =
              task.goto (.completed
                (toResult p.response).1
                (toResult p.response).2) := by
  obtain ⟨p', hp', hSame⟩ :
      ∃ p' : Pending,
        c'.pendings[ref]? = some p' ∧ p.SameReply p' := by
    refine Machine.run_invariant
      (P := fun _ c' => ∃ p' : Pending,
        c'.pendings[ref]? = some p' ∧ p.SameReply p')
      ⟨p, hp, rfl, rfl, rfl, rfl⟩ ?_ hAfter
    intro between m e m' hBetween ih hStep
    rcases ih with ⟨q, hq, hSame⟩
    rcases Machine.guarded_eq_some.mp hStep with
      ⟨hOk, hStep⟩
    have hWhole :=
      Machine.run_append.mpr ⟨c, hBefore, hBetween⟩
    rcases step_verified (Machine.run_of_guarded hWhole) hq
      (hSame.isVerified hVerified) hOk hStep with
      ⟨q', hq', hStep'⟩
    exact ⟨q', hq', hStep'.answered.trans hSame.answered,
      hStep'.replyAuthenticated.trans
        hSame.replyAuthenticated,
      hStep'.response.trans hSame.response,
      hStep'.security.trans hSame.security⟩
  have hParts := hVerified
  rw [Pending.isVerified, decide_eq_true_eq] at hParts
  refine ⟨p', hp', hSame.response, hSame.security,
    hSame.replyAuthenticated.trans hParts.2.1, ?_⟩
  intro task creds attempt hWork
  have hData : p.response.type ≠ .report := by
    rw [hParts.2.2]
    decide
  rw [afterSuccess, hWork]
  simp only [afterAnswer, hSame.response, if_neg hData]

/- The reply to the first copy meets the second one. -/
def crossedRun : List Event :=
  askedRun ++
    [.tick 2000000000, .expire 0, .resume 0,
    .receive agentEndpoint
      (agentMessage agentSsl .authNoPriv 3 agentUsm
        (upTimeResponse 3)),
    .sent 0 none]

/- An unsigned Report to the same id, from anyone. -/
def forgedReport : Event :=
  .receive agentEndpoint
    (agentMessage agentSsl .noAuthNoPriv 3
      { agentUsm with userName := [] }
      (usmReport usmStatsUnknownUserNames))

def undisturbedEnd : List Event :=
  [.tick 2000000000, .expire 0, .resume 0, ahead, ahead]

theorem crossedRun_verified :
    ((Machine.run
      (Machine.guarded (step agentSsl)
        (sparesVerified agentSsl))
      (fresh 1 0) crossedRun).bind (fun c =>
        c.pendings[2]?.bind (fun p =>
          (Machine.run
            (Machine.guarded (step agentSsl)
              (sparesVerified agentSsl))
            c undisturbedEnd).bind (fun c' =>
              c'.tasks[0]?.map (fun task =>
                (p.isVerified, task)))))) =
      some (true, answeredTask) := by
  decide +kernel

theorem accepted_response_final_crossed :
    ∃ c p c' p',
      Machine.run
          (Machine.guarded (step agentSsl)
            (sparesVerified agentSsl))
          (fresh 1 0) crossedRun = some c ∧
        c.pendings[2]? = some p ∧ p.isVerified = true ∧
        Machine.run
            (Machine.guarded (step agentSsl)
              (sparesVerified agentSsl))
            c undisturbedEnd = some c' ∧
        c'.pendings[2]? = some p' ∧
        p'.response = p.response ∧
        c'.tasks[0]? = some answeredTask := by
  rcases Option.bind_eq_some_iff.mp crossedRun_verified with
    ⟨c, hBefore, hRest⟩
  rcases Option.bind_eq_some_iff.mp hRest with
    ⟨p, hp, hRest⟩
  rcases Option.bind_eq_some_iff.mp hRest with
    ⟨c', hAfter, hRest⟩
  rcases Option.map_eq_some_iff.mp hRest with
    ⟨task, hTask, hBoth⟩
  rcases Prod.mk.inj hBoth with ⟨hVerified, rfl⟩
  rcases accepted_response_final hBefore hp hVerified hAfter
    with ⟨p', hp', hResponse, _⟩
  exact ⟨c, p, c', p', hBefore, hp, hVerified, hAfter, hp',
    hResponse, hTask⟩

/-
  The request whose Response was accepted and verified
  completes with the error of the Report that came after.
-/
theorem accepted_response_displaced :
    ((Machine.run (step agentSsl) (fresh 1 0)
      crossedRun).bind (fun c =>
        c.pendings[2]?.bind (fun p =>
          (Machine.run (step agentSsl) c
            (forgedReport :: undisturbedEnd)).bind (fun c' =>
              c'.pendings[2]?.bind (fun p' =>
                c'.tasks[0]?.map (fun task =>
                  (p.isVerified, p.response, p'.response,
                    p'.replyAuthenticated,
                    task.point))))))) =
      some (true, upTimeResponse 3,
        usmReport usmStatsUnknownUserNames, false,
        .completed (some (.errc .unknownUserName)) {}) := by
  decide +kernel

end Snmpio

------------------------------------------------------------
-- Wake-Ups
------------------------------------------------------------

namespace Snmpio

variable {ssl : OpenSsl} {c c' : Client} {t : Nat}
variable {task task' : Task} {e : Event} {p' : Pending}
variable {x : Exchange} {deadline now : Int}
variable {soft woken : Bool} {id : Int32}
variable {events : List Event}

/- The exchange whose send is in flight. -/
def Point.inFlight? :
    Point → Option Nat
| sending x => some x.pending
| _ => none

/- The exchange whose deadline is waited for. -/
def Point.awaited? :
    Point → Option Nat
| waiting x _ _ _ => some x.pending
| _ => none

/-
  No reply is accepted for an exchange while a send of it is
  in flight, and the cleanup of Stopping finds every
  exchange that waits in the table.
-/
def findsWaiting
    (ssl : OpenSsl)
    (c : Client) :
    Event → Bool
| .receive sender datagram =>
    match c.route ssl datagram sender with
    | some (ref, _, .accept _) =>
        c.tasks.all
          (fun task => task.point.inFlight? ≠ some ref)
    | _ => true
| .finishStopping =>
    c.tasks.all (fun task =>
      task.point.awaited?.all (fun ref =>
        c.pending.entries.any (fun e => e.2 = ref)))
| _ => true

/-
  A coroutine that waits for its deadline has been woken as
  soon as there is nothing to wait for.
-/
structure Attentive
    (c : Client) : Prop where
  inFlight :
    ∀ (t : Nat) (task : Task) (x : Exchange) (p : Pending),
      c.tasks[t]? = some task → task.point = .sending x →
        c.pendings[x.pending]? = some p → p.answered = false
  answered :
    ∀ (t : Nat) (task : Task) (x : Exchange) (deadline : Int)
        (soft woken : Bool) (p : Pending),
      c.tasks[t]? = some task →
        task.point = .waiting x deadline soft woken →
        c.pendings[x.pending]? = some p →
          p.answered = true → woken = true
  stopped :
    ∀ (t : Nat) (task : Task) (x : Exchange) (deadline : Int)
        (soft woken : Bool),
      c.tasks[t]? = some task →
        task.point = .waiting x deadline soft woken →
        c.stopping = true → c.cleanup = false → woken = true

/- An exchange becomes answered when a reply is accepted. -/
theorem step_answers
    (hStep : step ssl c e = some c')
    {ref : Nat}
    {p : Pending}
    (hp : c.pendings[ref]? = some p)
    (hp' : c'.pendings[ref]? = some p')
    (hOpen : p.answered = false)
    (hAnswered : p'.answered = true) :
    ∃ sender datagram q q',
      e = .receive sender datagram ∧
        c.route ssl datagram sender =
          some (ref, q, .accept q') := by
  have hSame {q : Pending}
      (hq : c.pendings[ref]? = some q)
      (hReply : q.answered = true) : False := by
    rw [hp] at hq
    cases hq
    rw [hOpen] at hReply
    cases hReply
  have hCase := step_pendings hStep
  generalize c'.pendings = pendings at hCase hp'
  cases hCase with
  | kept _ => exact (hSame hp' hAnswered).elim
  | opened hFresh =>
      rcases getElem?_concat_cases hp' with hOld | ⟨_, rfl⟩
      · exact (hSame hOld hAnswered).elim
      · rw [hFresh.answered] at hAnswered
        cases hAnswered
  | dropped hRoute =>
      rcases getElem?_set_cases hp' with
        ⟨rfl, rfl⟩ | ⟨_, hOther⟩
      · exact (hSame (route_cases hRoute).1 hAnswered).elim
      · exact (hSame hOther hAnswered).elim
  | accepted hRoute =>
      rcases getElem?_set_cases hp' with
        ⟨rfl, rfl⟩ | ⟨_, hOther⟩
      · exact ⟨_, _, _, _, rfl, hRoute⟩
      · exact (hSame hOther hAnswered).elim

theorem Task.wakeOn_waiting
    {timers : List Timer}
    (hMem : Timer.pending x.pending ∈ timers)
    (hPoint :
      (task.wakeOn timers).point =
        .waiting x deadline soft woken) :
    woken = true := by
  unfold Task.wakeOn at hPoint
  split at hPoint
  · cases hOld : task.point with
    | waiting y deadline' soft' woken' =>
        rw [hOld] at hPoint
        cases hPoint
        rfl
    | _ =>
        rw [hOld] at hPoint
        cases hPoint
  · next hNone =>
    refine absurd ?_ hNone
    rw [hPoint]
    exact decide_eq_true hMem

/- Accepting a reply wakes whoever waits for it. -/
theorem receive_wakes
    {sender : Endpoint}
    {datagram : Octets}
    {ref : Nat}
    {q q' : Pending}
    (hStep : step ssl c (.receive sender datagram) = some c')
    (hRoute :
      c.route ssl datagram sender = some (ref, q, .accept q'))
    (hTask' : c'.tasks[t]? = some task')
    (hPoint : task'.point = .waiting x deadline soft woken)
    (hRef : x.pending = ref) :
    woken = true := by
  simp only [step] at hStep
  split_ifs at hStep
  cases hStep
  rw [receive_eq_route, hRoute] at hTask'
  rcases cancelTimers_tasks hTask' with ⟨before, _, rfl⟩
  refine Task.wakeOn_waiting ?_ hPoint
  rw [hRef]
  exact List.mem_singleton_self _

/- Nobody's move ends in a wait for a deadline. -/
theorem Move.not_waiting
    {out : Outside}
    {spawned : Option Task}
    (hMove : Move ssl out c task c' task' spawned)
    (x : Exchange)
    (deadline : Int)
    (soft woken : Bool) :
    task'.point ≠ .waiting x deadline soft woken := by
  intro hPoint
  cases hMove.turn with
  | outside _ _ _ _ hAfter =>
      rw [hPoint] at hAfter
      cases hAfter
  | opened _ _ _ _ hEntering _ _ _ _ =>
      rw [hPoint] at hEntering
      cases hEntering
  | refused _ _ => cases hPoint
  | @registered _ y _ _ _ _ _ =>
      change attemptPoint task.target y = _ at hPoint
      unfold attemptPoint at hPoint
      split_ifs at hPoint
  | left _ _ => cases hPoint

/-
  A coroutine that is resumed and does not leave its
  exchange: its send is over, or its wait was and there was
  no reply.
-/
theorem Resumes.goes_on
    {point : Point}
    (hResumes : Resumes c t task e point)
    (hExchange : point.exchange? = some x)
    (hStays : point ≠ .leaving x) :
    e.resumes? = some t ∧ c.stopping = false ∧
      ((point.inFlight? = none ∧
          ∃ y, task.point = .sending y ∧
            y.pending = x.pending) ∨
        ∃ p, c.pendings[x.pending]? = some p ∧
          p.answered = false) := by
  cases hResumes with
  | @sent y ec hPoint =>
      unfold afterSend at hExchange hStays ⊢
      split_ifs at hExchange hStays ⊢ with hLeaves
      · cases hExchange
        exact absurd rfl hStays
      · cases hExchange
        refine ⟨rfl, ?_, Or.inl ⟨rfl, y, hPoint, rfl⟩⟩
        simpa using (not_or.mp hLeaves).2
  | @waited y deadline soft p hPoint hp =>
      unfold afterWait attemptPoint at hExchange hStays
      split_ifs at hExchange hStays with hLeaves
      all_goals cases hExchange
      · exact absurd rfl hStays
      all_goals
        simp only [not_or, Bool.not_eq_true] at hLeaves
        exact ⟨rfl, hLeaves.2.2.1, Or.inr ⟨p, hp,
          hLeaves.2.1⟩⟩
  | unparked _ _ =>
      unfold afterPark at hExchange
      split_ifs at hExchange
      all_goals cases hExchange

/-
  A wait for a deadline has just begun, or went on: it may
  have been woken, and stays so.
-/
theorem step_waiting
    (hStep : step ssl c e = some c')
    (hTask' : c'.tasks[t]? = some task')
    (hPoint : task'.point = .waiting x deadline soft woken) :
    (∃ task, c.tasks[t]? = some task ∧
      Resumes c t task e (.waiting x deadline soft woken)) ∨
    ∃ task before, c.tasks[t]? = some task ∧
      task.point = .waiting x deadline soft before ∧
      (before = true → woken = true) := by
  cases step_task hStep hTask' with
  | moved _ _ hMove =>
      exact absurd hPoint (hMove.not_waiting _ _ _ _)
  | spawned _ _ hMove _ =>
      rcases hMove.spawned_eq rfl with ⟨creds, rfl⟩
      cases hPoint
  | requested _ _ => cases hPoint
  | @resumed _ task point _ hTask hResumes =>
      change point = .waiting x deadline soft woken at hPoint
      exact Or.inl ⟨task, hTask, hPoint ▸ hResumes⟩
  | raised _ _ _ => cases hPoint
  | @signalled kind task cancelled _ hTask _ _ =>
      change task.point.signalled = _ at hPoint
      cases hBefore : task.point with
      | waiting y deadline' soft' before =>
          rw [hBefore] at hPoint
          cases soft' with
          | false =>
              cases hPoint
              exact Or.inr ⟨task, before, hTask, hBefore,
                fun _ => rfl⟩
          | true =>
              cases hPoint
              exact Or.inr ⟨task, woken, hTask, hBefore,
                fun h => h⟩
      | _ =>
          rw [hBefore] at hPoint
          cases hPoint
  | @woken _ task hTask _ _ =>
      change task.point.wake = _ at hPoint
      cases hBefore : task.point with
      | waiting y deadline' soft' before =>
          rw [hBefore] at hPoint
          cases hPoint
          exact Or.inr ⟨task, before, hTask, hBefore,
            fun _ => rfl⟩
      | _ =>
          rw [hBefore] at hPoint
          cases hPoint
  | kept hTask _ =>
      exact Or.inr ⟨task', woken, hTask, hPoint, fun h => h⟩

theorem Attentive.step_inFlight
    (hAttentive : Attentive c)
    (hRun :
      Machine.run (step ssl) (fresh id now) events = some c)
    (hOk : findsWaiting ssl c e = true)
    (hStep : step ssl c e = some c')
    (hTask' : c'.tasks[t]? = some task')
    (hPoint : task'.point = .sending x)
    (hp' : c'.pendings[x.pending]? = some p') :
    p'.answered = false := by
  by_contra hNot
  have hAnswered : p'.answered = true := by simpa using hNot
  -- The exchange was not answered before, so that a reply to
  -- it has just been accepted.
  have hReply {p : Pending}
      (hp : c.pendings[x.pending]? = some p)
      (hOpen : p.answered = false) :
      ∃ sender datagram q q',
        e = .receive sender datagram ∧
          c.route ssl datagram sender =
            some (x.pending, q, .accept q') :=
    step_answers hStep hp hp' hOpen hAnswered
  have hSent {task : Task}
      (hTask : c.tasks[t]? = some task)
      (hBefore : task.point = .sending x) : False := by
    rcases (sound_of_run hRun).tasks t task hTask |>.exchange
      x (by rw [hBefore]; rfl) with ⟨p, hp, _⟩
    rcases hReply hp
      (hAttentive.inFlight t task x p hTask hBefore hp) with
      ⟨sender, datagram, q, q', rfl, hRoute⟩
    rw [findsWaiting, hRoute] at hOk
    have hFree := List.all_eq_true.mp hOk task
      (List.mem_of_getElem? hTask)
    rw [hBefore] at hFree
    simp [Point.inFlight?] at hFree
  cases step_task hStep hTask' with
  | moved hStrand hTask hMove =>
      cases hMove.turn with
      | outside _ _ _ _ hAfter =>
          rw [hPoint] at hAfter
          cases hAfter
      | opened _ _ _ _ hEntering _ _ _ _ =>
          rw [hPoint] at hEntering
          cases hEntering
      | refused _ _ => cases hPoint
      | @registered _ y hEntering _ _ _ _ =>
          change attemptPoint _ y = _ at hPoint
          unfold attemptPoint at hPoint
          split_ifs at hPoint
          cases hPoint
          rcases unsent_of_run hRun hTask hEntering with
            ⟨_, _, p, hp, hOpen, _⟩
          rcases hReply hp hOpen with
            ⟨_, _, _, _, hEvent, _⟩
          cases hEvent
      | left _ _ => cases hPoint
  | spawned _ _ hMove _ =>
      rcases hMove.spawned_eq rfl with ⟨creds, rfl⟩
      cases hPoint
  | requested _ _ => cases hPoint
  | @resumed _ _ point _ hTask hResumes =>
      change point = Point.sending x at hPoint
      rcases hResumes.goes_on (x := x)
        (by rw [hPoint]; rfl) (by rw [hPoint]; simp) with
        ⟨hEvent, _, ⟨hNone, _⟩ | ⟨p, hp, hOpen⟩⟩
      · rw [hPoint] at hNone
        cases hNone
      · rcases hReply hp hOpen with ⟨_, _, _, _, rfl, _⟩
        cases hEvent
  | raised _ _ _ => cases hPoint
  | @signalled kind task cancelled _ hTask _ _ =>
      change task.point.signalled = _ at hPoint
      refine hSent hTask ?_
      rcases signalled_cases task.point with hSame | hWake
      · rw [← hSame]
        exact hPoint
      · exact Point.eq_of_wake (hWake ▸ hPoint) rfl
  | woken hTask _ _ =>
      exact hSent hTask (Point.eq_of_wake hPoint rfl)
  | kept hTask _ => exact hSent hTask hPoint

theorem Attentive.step_answered
    (hAttentive : Attentive c)
    (hRun :
      Machine.run (step ssl) (fresh id now) events = some c)
    (hStep : step ssl c e = some c')
    (hTask' : c'.tasks[t]? = some task')
    (hPoint : task'.point = .waiting x deadline soft woken)
    (hp' : c'.pendings[x.pending]? = some p')
    (hAnswered : p'.answered = true) :
    woken = true := by
  rcases step_waiting hStep hTask' hPoint with
    ⟨task, hTask, hResumes⟩ |
    ⟨task, before, hTask, hBefore, hStays⟩
  · rcases hResumes.goes_on rfl (by simp) with
      ⟨hEvent, _, hLast⟩
    obtain ⟨p, hp, hOpen⟩ :
        ∃ p, c.pendings[x.pending]? = some p ∧
          p.answered = false := by
      rcases hLast with ⟨_, y, hSending, hRef⟩ | hOpen
      · rcases (sound_of_run hRun).tasks t task hTask
          |>.exchange y (by rw [hSending]; rfl) with
          ⟨p, hp, _⟩
        refine ⟨p, hRef ▸ hp, ?_⟩
        exact hAttentive.inFlight t task y p hTask
          hSending hp
      · exact hOpen
    rcases step_answers hStep hp hp' hOpen hAnswered with
      ⟨_, _, _, _, rfl, _⟩
    cases hEvent
  · rcases (sound_of_run hRun).tasks t task hTask |>.exchange
      x (by rw [hBefore]; rfl) with ⟨p, hp, _⟩
    cases hOpen : p.answered with
    | true =>
        exact hStays (hAttentive.answered t task x _ _ _ p
          hTask hBefore hp hOpen)
    | false =>
        rcases step_answers hStep hp hp' hOpen hAnswered with
          ⟨sender, datagram, q, q', rfl, hRoute⟩
        exact receive_wakes hStep hRoute hTask' hPoint rfl

theorem Attentive.step_stopped
    (hAttentive : Attentive c)
    (hOk : findsWaiting ssl c e = true)
    (hStep : step ssl c e = some c')
    (hTask' : c'.tasks[t]? = some task')
    (hPoint : task'.point = .waiting x deadline soft woken)
    (hStopping : c'.stopping = true)
    (hDone : c'.cleanup = false) :
    woken = true := by
  have hBoth :
      e ≠ .finishStopping →
        c.stopping = true ∧ c.cleanup = false := by
    intro hOther
    by_cases hStop : e = .stop
    · subst hStop
      cases hStep
      change (c.cleanup || !c.stopping) = false at hDone
      simpa [and_comm] using hDone
    · rcases step_flags hStep hStop with
        ⟨hSame, _, _, hCleanup⟩
      exact ⟨hSame ▸ hStopping,
        (hCleanup.resolve_right hOther) ▸ hDone⟩
  by_cases hFinish : e = .finishStopping
  · subst hFinish
    simp only [step] at hStep
    split_ifs at hStep
    cases hStep
    rcases cancelTimers_tasks hTask' with ⟨task, hTask, rfl⟩
    refine Task.wakeOn_waiting ?_ hPoint
    -- It waited before, so that the guard looked at it.
    have hAwaited : task.point.awaited? = some x.pending := by
      unfold Task.wakeOn at hPoint
      split at hPoint
      · cases hBefore : task.point with
        | waiting y deadline' soft' before =>
            rw [hBefore] at hPoint
            cases hPoint
            rfl
        | _ =>
            rw [hBefore] at hPoint
            cases hPoint
      · rw [hPoint]
        rfl
    have hFound := List.all_eq_true.mp hOk task
      (List.mem_of_getElem? hTask)
    rw [hAwaited] at hFound
    rcases List.any_eq_true.mp hFound with
      ⟨entry, hEntry, hRef⟩
    refine List.mem_append_left _
      (List.mem_map.mpr ⟨entry, hEntry, ?_⟩)
    rw [of_decide_eq_true hRef]
  · rcases hBoth hFinish with ⟨hBefore, hOver⟩
    rcases step_waiting hStep hTask' hPoint with
      ⟨task, hTask, hResumes⟩ |
      ⟨task, before, hTask, hWaiting, hStays⟩
    · rcases hResumes.goes_on rfl (by simp) with ⟨_, hGoing, _⟩
      rw [hBefore] at hGoing
      cases hGoing
    · exact hStays (hAttentive.stopped t task x _ _ _ hTask
        hWaiting hBefore hOver)

theorem Attentive.step
    (hAttentive : Attentive c)
    (hRun :
      Machine.run (Snmpio.step ssl) (fresh id now) events =
        some c)
    (hOk : findsWaiting ssl c e = true)
    (hStep : Snmpio.step ssl c e = some c') :
    Attentive c' := by
  refine ⟨?_, ?_, ?_⟩
  · intro t task x p hTask hPoint hp
    exact hAttentive.step_inFlight hRun hOk hStep hTask
      hPoint hp
  · intro t task x deadline soft woken p hTask hPoint hp
      hAnswered
    exact hAttentive.step_answered hRun hStep hTask hPoint
      hp hAnswered
  · intro t task x deadline soft woken hTask hPoint
      hStopping hDone
    exact hAttentive.step_stopped hOk hStep hTask hPoint
      hStopping hDone

theorem attentive_of_run
    (hRun :
      Machine.run
          (Machine.guarded (step ssl) (findsWaiting ssl))
          (fresh id now) events = some c) :
    Attentive c := by
  refine Machine.run_invariant (P := fun _ c => Attentive c)
    ?_ ?_ hRun
  · refine ⟨?_, ?_, ?_⟩
    · intro t task x p hTask
      cases hTask
    · intro t task x deadline soft woken p hTask
      cases hTask
    · intro t task x deadline soft woken hTask
      cases hTask
  · intro events c e c' hBefore hAttentive hStep
    rcases Machine.guarded_eq_some.mp hStep with
      ⟨hOk, hStep⟩
    exact hAttentive.step (Machine.run_of_guarded hBefore)
      hOk hStep

/- Who has been woken for good leaves its exchange. -/
theorem resume_leaves
    (hIdle : c.strand = [])
    (hTask : c.tasks[t]? = some task)
    {p : Pending}
    (hPoint : task.point = .waiting x deadline soft true)
    (hp : c.pendings[x.pending]? = some p)
    (hOver : p.answered = true ∨ c.stopping = true) :
    ∃ c', step ssl c (.resume t) = some c' ∧
      c'.tasks[t]? = some (task.goto (.leaving x)) := by
  have hBound := (List.getElem?_eq_some_iff.mp hTask).1
  have hLeaves :
      afterWait c task x deadline soft p = .leaving x := by
    rw [afterWait, if_pos]
    exact Or.inr (or_assoc.mp (Or.inl hOver))
  refine ⟨c.place t [] (task.goto (.leaving x)), ?_, ?_⟩
  · simp [step, Client.isIdle, hIdle, onResume, hTask, hPoint,
      hp, hLeaves]
  · exact List.getElem?_set_self hBound

/-
  Nobody waits for a deadline once the exchange is answered
  or the cleanup of Stopping has run: the wait is over, and
  to resume it takes the exchange to its end.
-/
theorem no_lost_wakeup
    {id : Int32}
    {now : Int}
    {events : List Event}
    (hRun :
      Machine.run
          (Machine.guarded (step ssl) (findsWaiting ssl))
          (fresh id now) events = some c)
    {x : Exchange}
    {p : Pending}
    (hTask : c.tasks[t]? = some task)
    (hExchange : task.point.exchange? = some x)
    (hp : c.pendings[x.pending]? = some p) :
    (p.answered = true →
      task.point = .leaving x ∨
        (∃ ec, task.point = .returned x ec) ∨
        ∃ deadline soft,
          task.point = .waiting x deadline soft true) ∧
    (p.answered = true ∨
        (c.stopping = true ∧ c.cleanup = false) →
      ∀ (deadline : Int) (soft woken : Bool),
        task.point = .waiting x deadline soft woken →
          woken = true ∧
          (c.strand = [] →
            ∃ c', step ssl c (.resume t) = some c' ∧
              c'.tasks[t]? =
                some (task.goto (.leaving x)))) := by
  have hAttentive := attentive_of_run hRun
  have hWoken
      (hOver :
        p.answered = true ∨
          (c.stopping = true ∧ c.cleanup = false))
      {deadline : Int}
      {soft woken : Bool}
      (hPoint :
        task.point = .waiting x deadline soft woken) :
      woken = true := by
    rcases hOver with hAnswered | ⟨hStopping, hDone⟩
    · exact hAttentive.answered t task x _ _ _ p hTask hPoint
        hp hAnswered
    · exact hAttentive.stopped t task x _ _ _ hTask hPoint
        hStopping hDone
  refine ⟨?_, ?_⟩
  · intro hAnswered
    cases hPoint : task.point with
    | leaving y =>
        rw [hPoint] at hExchange
        cases hExchange
        exact Or.inl rfl
    | returned y ec =>
        rw [hPoint] at hExchange
        cases hExchange
        exact Or.inr (Or.inl ⟨ec, rfl⟩)
    | waiting y deadline soft woken =>
        rw [hPoint] at hExchange
        cases hExchange
        cases hWoken (Or.inl hAnswered) hPoint
        exact Or.inr (Or.inr ⟨deadline, soft, rfl⟩)
    | sending y =>
        rw [hPoint] at hExchange
        cases hExchange
        rw [hAttentive.inFlight t task x p hTask hPoint hp]
          at hAnswered
        cases hAnswered
    | entering y =>
        rw [hPoint] at hExchange
        cases hExchange
        rcases (unsent_of_run (Machine.run_of_guarded hRun)
          hTask hPoint).pending with ⟨q, hq, hOpen, _⟩
        rw [hp] at hq
        cases hq
        rw [hOpen] at hAnswered
        cases hAnswered
    | _ =>
        rw [hPoint] at hExchange
        cases hExchange
  · intro hOver deadline soft woken hPoint
    cases hWoken hOver hPoint
    refine ⟨rfl, fun hIdle => ?_⟩
    exact resume_leaves hIdle hTask hPoint hp
      (hOver.imp_right And.left)

/- The reply comes while its deadline is waited for. -/
def heardRun : List Event :=
  askedRun ++
    [.receive agentEndpoint
      (agentMessage agentSsl .authNoPriv 3 agentUsm
        (upTimeResponse 3))]

theorem heardRun_answered :
    ((Machine.run
      (Machine.guarded (step agentSsl) (findsWaiting agentSsl))
      (fresh 1 0) heardRun).bind (fun c =>
        c.tasks[0]?.bind (fun task =>
          task.point.exchange?.bind (fun x =>
            c.pendings[x.pending]?.map (fun p =>
              (c.strand, task.point.awaited?, x.pending,
                p.answered)))))) =
      some ([], some 2, 2, true) := by
  decide +kernel

theorem no_lost_wakeup_heard :
    ∃ c task x p,
      Machine.run
          (Machine.guarded (step agentSsl)
            (findsWaiting agentSsl))
          (fresh 1 0) heardRun = some c ∧
        c.tasks[0]? = some task ∧
        c.pendings[x.pending]? = some p ∧
        p.answered = true ∧
        ∃ deadline soft,
          task.point = .waiting x deadline soft true ∧
          ∃ c', step agentSsl c (.resume 0) = some c' ∧
            c'.tasks[0]? = some (task.goto (.leaving x)) := by
  rcases Option.bind_eq_some_iff.mp heardRun_answered with
    ⟨c, hRun, hRest⟩
  rcases Option.bind_eq_some_iff.mp hRest with
    ⟨task, hTask, hRest⟩
  rcases Option.bind_eq_some_iff.mp hRest with
    ⟨x, hExchange, hRest⟩
  rcases Option.map_eq_some_iff.mp hRest with
    ⟨p, hp, hAll⟩
  simp only [Prod.mk.injEq] at hAll
  rcases hAll with ⟨hIdle, hAwaited, _, hAnswered⟩
  rcases no_lost_wakeup hRun hTask hExchange hp with
    ⟨hPlace, hResumes⟩
  rcases hPlace hAnswered with
    hPoint | ⟨ec, hPoint⟩ | ⟨deadline, soft, hPoint⟩
  · rw [hPoint] at hAwaited
    cases hAwaited
  · rw [hPoint] at hAwaited
    cases hAwaited
  · rcases hResumes (Or.inl hAnswered) _ _ _ hPoint with
      ⟨_, hResume⟩
    exact ⟨c, task, x, p, hRun, hTask, hp, hAnswered,
      deadline, soft, hPoint, hResume hIdle⟩

/-
  The reply is accepted while the second copy is being sent,
  and the wait that begins then is not over: it is for the
  deadline.
-/
theorem crossed_reply_waits :
    ((Machine.run (step agentSsl) (fresh 1 0)
      crossedRun).bind (fun c =>
        c.tasks[0]?.bind (fun task =>
          c.pendings[2]?.map (fun p =>
            (c.strand, task.point.awaited?, p.answered,
              (step agentSsl c (.resume 0)).isSome,
              (step agentSsl c (.expire 0)).isSome))))) =
      some ([], some 2, true, false, false) := by
  decide +kernel

end Snmpio
