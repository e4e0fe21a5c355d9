import Snmpio.Client.Clocks
import Snmpio.Client.Bookkeeping

/-
  Requests that have been cancelled.

  A signal finds a request suspended.  From there it winds
  down: it sends nothing more and starts no discovery,
  unless a reply that still counts is a Report worth asking
  again for.

  Key definitions include:
    * `Point.windsDown`
    * `obeysCancellation`
    * `Quiet`

  Key theorems include:
    * `afterAnswer_windsDown`
    * `cancelled_request_quiet`
-/

------------------------------------------------------------
-- Winding Down
------------------------------------------------------------

namespace Snmpio

variable {ssl : OpenSsl}

/- Where a request that was cancelled may be. -/
def Point.windsDown :
    Point → Bool
| sending _ => true
| waiting _ _ _ _ => true
| leaving _ => true
| returned _ _ => true
| parked _ _ => true
| ensured ec => ec.isSome
| completed _ _ => true
| threw => true
| ended => true
| _ => false

theorem Point.windsDown_of_runs
    {point : Point}
    (hRuns : point.runs = false) :
    point.windsDown = true := by
  cases point with
  | sending _ => rfl
  | waiting _ _ _ _ => rfl
  | parked _ _ => rfl
  | completed _ _ => rfl
  | threw => rfl
  | ended => rfl
  | _ => cases hRuns

@[simp]
theorem Point.wake_windsDown
    (point : Point) :
    point.wake.windsDown = point.windsDown := by
  cases point with
  | _ => rfl

/- A Report after which the first attempt is repeated. -/
def Pending.retryable
    (p : Pending) : Bool :=
  decide (p.response.type = .report) &&
    (decide (usmStatsCounter p.response =
        some usmStatsNotInTimeWindows) ||
      decide (usmStatsCounter p.response =
        some usmStatsUnknownEngineIds))

theorem handleReport_retries
    {cache : EngineCache}
    {now : Int}
    {sender : Endpoint}
    {p : Pending}
    {mayRetry : Bool}
    (hReport : p.response.type = .report)
    (hRetries :
      (handleReport cache now sender p mayRetry).1 = none) :
    mayRetry = true ∧ p.retryable = true := by
  unfold handleReport at hRetries
  unfold Pending.retryable
  split at hRetries
  · cases hRetries
  · next counter hCounter =>
    rw [hCounter]
    split_ifs at hRetries with hMay hOther
    all_goals
      refine ⟨hMay, ?_⟩
      rw [not_and_or, not_not, not_not] at hOther
      simp [hReport, hOther]

/- An answer ends the request, unless it is to be repeated. -/
theorem afterAnswer_windsDown
    {c : Client}
    {task : Task}
    {creds : Credentials}
    {attempt : Nat}
    {p : Pending}
    (hOnce : ¬ (attempt = 0 ∧ p.retryable = true)) :
    (afterAnswer c task creds attempt
      p).2.point.windsDown = true := by
  unfold afterAnswer
  dsimp only
  split
  · next hReport =>
    split
    · rfl
    · next hRetries =>
      rcases handleReport_retries hReport hRetries with
        ⟨hMay, hRetryable⟩
      exact absurd ⟨of_decide_eq_true hMay, hRetryable⟩ hOnce
  · rfl

/- Discoveries are begun by requests that ensure an Engine. -/
theorem Move.discoveries
    {out : Outside}
    {c c' : Client}
    {task task' : Task}
    {spawned : Option Task}
    (hMove : Move ssl out c task c' task' spawned) :
    c'.discoveries.length = c.discoveries.length ∨
      task.point = .ensuring := by
  cases hMove.effect with
  | aside hAside =>
      rw [hAside.discoveries]
      exact Or.inl rfl
  | discovers _ hPoint => exact Or.inr hPoint
  | writes _ _ => exact Or.inl rfl
  | finishes _ _ => exact Or.inl List.length_set

end Snmpio

------------------------------------------------------------
-- Cancelled Requests
------------------------------------------------------------

namespace Snmpio

variable {ssl : OpenSsl} {c c' : Client} {task task' : Task}
variable {t : Nat} {e : Event}

def Work.isFirstAttempt :
    Work → Bool
| v3 _ attempt => attempt == 0
| _ => false

/-
  No request that was cancelled takes up a Report for which
  it would ask again.
-/
def obeysCancellation
    (c : Client) :
    Event → Bool
| .advance _ =>
    match c.takenUp with
    | none => true
    | some (_, task, _, p) =>
        decide (task.cancelled = {}) ||
          !(task.work.isFirstAttempt && p.retryable)
| _ => true

theorem Cancellation.ne_empty
    {cancelled : Cancellation}
    (hCancelled : cancelled ≠ {})
    (hTerminal : ¬ cancelled.terminal = true) :
    cancelled.total = true := by
  cases cancelled with
  | mk terminal total =>
      cases total with
      | true => rfl
      | false =>
          cases terminal with
          | true => exact absurd rfl hTerminal
          | false => exact absurd rfl hCancelled

/- A cancelled coroutine that winds down. -/
structure WoundDown
    (task : Task) : Prop where
  request : task.work.discovery? = none
  point : task.point.windsDown = true

/- What it is next, and that it does not send. -/
structure WindsOn
    (task task' : Task) : Prop where
  next : WoundDown task'
  unsent :
    ∀ x, task'.point = .sending x → task.point = .sending x

theorem WindsOn.goto
    {point : Point}
    (hRequest : task.work.discovery? = none)
    (hDown : point.windsDown = true)
    (hUnsent : ∀ x, point ≠ .sending x) :
    WindsOn task (task.goto point) :=
  ⟨⟨hRequest, hDown⟩,
    fun x hSent => absurd hSent (hUnsent x)⟩

theorem afterSuccess_windsOn
    {rest : List Nat}
    {x : Exchange}
    {p : Pending}
    (hStrand : c.strand = t :: rest)
    (hTask : c.tasks[t]? = some task)
    (hPoint : task.point = .returned x none)
    (hp : c.pendings[x.pending]? = some p)
    (hCancelled : task.cancelled ≠ {})
    (hRequest : task.work.discovery? = none)
    {out : Outside}
    (hObeys : obeysCancellation c (.advance out) = true) :
    (afterSuccess c task p).2.point.windsDown = true := by
  have hTaken : c.takenUp = some (t, task, x, p) := by
    simp [Client.takenUp, hStrand, hTask, hPoint, hp]
  simp only [obeysCancellation, hTaken, hCancelled,
    decide_false, Bool.false_or] at hObeys
  unfold afterSuccess
  split
  · rfl
  · next creds attempt hWork =>
    apply afterAnswer_windsDown
    rintro ⟨hFirst, hRetryable⟩
    rw [hWork, hFirst, hRetryable] at hObeys
    cases hObeys
  · next hWork =>
    rw [hWork] at hRequest
    cases hRequest
  · next hWork =>
    rw [hWork] at hRequest
    cases hRequest

theorem Move.windsOn
    {out : Outside}
    {c₁ : Client}
    {rest : List Nat}
    {spawned : Option Task}
    (hStrand : c.strand = t :: rest)
    (hTask : c.tasks[t]? = some task)
    (hMove : Move ssl out c task c₁ task' spawned)
    (hCancelled : task.cancelled ≠ {})
    (hDown : WoundDown task)
    (hObeys : obeysCancellation c (.advance out) = true) :
    WindsOn task task' := by
  have hRequest : task'.work.discovery? = none :=
    hMove.kin.discovery.trans hDown.request
  have hNever :
      ∀ {P : Prop} {point : Point}, task.point = point →
        point.windsDown = false → P := by
    intro P point hPoint hNot
    have hIs := hDown.point
    rw [hPoint, hNot] at hIs
    cases hIs
  cases hMove with
  | fail _ _ =>
      exact WindsOn.goto hDown.request rfl (by simp)
  | leave _ _ =>
      exact WindsOn.goto hDown.request rfl (by simp)
  | @failed x ec hPoint =>
      have hEnd :
          ∃ code resp,
            (afterFailure task ec).point =
              .completed code resp := by
        unfold afterFailure
        split
        · exact ⟨_, _, rfl⟩
        · exact ⟨_, _, rfl⟩
        · next hWork =>
          have hNone := hDown.request
          rw [hWork] at hNone
          cases hNone
        · next hWork =>
          have hNone := hDown.request
          rw [hWork] at hNone
          cases hNone
      rcases hEnd with ⟨code, resp, hEnd⟩
      refine ⟨⟨hRequest, ?_⟩, ?_⟩
      · rw [hEnd]
        rfl
      · intro x hSent
        rw [hEnd] at hSent
        cases hSent
  | @succeeded x p hPoint hp =>
      refine ⟨⟨hRequest, afterSuccess_windsOn hStrand hTask
        hPoint hp hCancelled hDown.request hObeys⟩, ?_⟩
      intro y hSent
      have hNone := afterSuccess_exchange? c task p
      rw [hSent] at hNone
      cases hNone
  | _ hPoint => exact hNever hPoint rfl

theorem Resumes.windsOn
    {point : Point}
    (hResumes : Resumes c t task e point)
    (hCancelled : task.cancelled ≠ {})
    (hRequest : task.work.discovery? = none) :
    WindsOn task (task.goto point) := by
  cases hResumes with
  | sent ec hPoint =>
      unfold afterSend
      split
      · exact WindsOn.goto hRequest rfl (by simp)
      · exact WindsOn.goto hRequest rfl (by simp)
  | waited hPoint hp =>
      unfold afterWait
      split_ifs with hLeaves hTotal
      · exact WindsOn.goto hRequest rfl (by simp)
      · exact WindsOn.goto hRequest rfl (by simp)
      · -- It would send again only if it was not cancelled.
        simp only [not_or] at hLeaves
        exact absurd
          (Cancellation.ne_empty hCancelled hLeaves.2.2.2)
          hTotal
  | unparked hPoint hd =>
      unfold afterPark
      split_ifs with hThrew hStopping hAborted
      · exact WindsOn.goto hRequest rfl (by simp)
      · exact WindsOn.goto hRequest rfl (by simp)
      · exact WindsOn.goto hRequest rfl (by simp)
      · exact absurd (Or.inl hCancelled) hAborted

/- A request that was cancelled before the step winds on. -/
theorem TaskStep.windsOn
    (hStep : TaskStep ssl c t e task')
    (hTask : c.tasks[t]? = some task)
    (hCancelled : task.cancelled ≠ {})
    (hDown : WoundDown task)
    (hObeys : obeysCancellation c e = true) :
    WindsOn task task' := by
  have hSame :
      ∀ {found : Task}, c.tasks[t]? = some found →
        found = task := by
    intro found hFound
    rw [hTask] at hFound
    exact (Option.some.inj hFound).symm
  have hNew : t ≠ c.tasks.length := by
    have hBound := (List.getElem?_eq_some_iff.mp hTask).1
    omega
  cases hStep with
  | moved hStrand hFound hMove =>
      cases hSame hFound
      exact hMove.windsOn hStrand hTask hCancelled hDown hObeys
  | spawned _ _ _ hLast => exact absurd hLast hNew
  | requested _ hLast => exact absurd hLast hNew
  | resumed _ hFound hResumes =>
      cases hSame hFound
      exact hResumes.windsOn hCancelled hDown.request
  | raised hFound hDiscovery _ =>
      cases hSame hFound
      rw [hDown.request] at hDiscovery
      cases hDiscovery
  | @signalled kind found cancelled _ hFound _ _ =>
      cases hSame hFound
      refine ⟨⟨hDown.request, ?_⟩, ?_⟩
      · rcases signalled_cases task.point with hPoint | hPoint
        · change task.point.signalled.windsDown = true
          rw [hPoint]
          exact hDown.point
        · change task.point.signalled.windsDown = true
          rw [hPoint, Point.wake_windsDown]
          exact hDown.point
      · intro x hSent
        change task.point.signalled = _ at hSent
        rcases signalled_cases task.point with hPoint | hPoint
        · rw [← hPoint]
          exact hSent
        · exact Point.eq_of_wake (hPoint ▸ hSent) rfl
  | woken hFound _ _ =>
      cases hSame hFound
      refine ⟨⟨hDown.request, ?_⟩, ?_⟩
      · rw [Task.goto, Point.wake_windsDown]
        exact hDown.point
      · intro x hSent
        exact Point.eq_of_wake hSent rfl
  | kept hFound _ =>
      cases hSame hFound
      exact ⟨hDown, fun _ hSent => hSent⟩

/- A request that is cancelled by the step winds down. -/
theorem TaskStep.windsDown
    (hStep : TaskStep ssl c t e task')
    (hShape : StrandShape c)
    (hBefore :
      ∀ task, c.tasks[t]? = some task →
        task.cancelled ≠ {} → WoundDown task)
    (hObeys : obeysCancellation c e = true)
    (hCancelled : task'.cancelled ≠ {}) :
    WoundDown task' := by
  have hOld :
      ∀ {task : Task}, c.tasks[t]? = some task →
        task'.cancelled = task.cancelled →
          WoundDown task' := by
    intro task hTask hSame
    rw [hSame] at hCancelled
    exact (hStep.windsOn hTask hCancelled
      (hBefore task hTask hCancelled) hObeys).next
  cases hStep with
  | moved _ hTask hMove =>
      exact hOld hTask hMove.kin.cancelled
  | spawned _ _ hMove _ =>
      rcases hMove.spawned_eq rfl with ⟨creds, rfl⟩
      exact absurd rfl hCancelled
  | requested _ _ => exact absurd rfl hCancelled
  | resumed _ hTask _ => exact hOld hTask rfl
  | raised hTask _ _ => exact hOld hTask rfl
  | @signalled kind task cancelled hIdle hTask hRequest _ =>
      -- Signals are handled while no coroutine runs.
      refine ⟨hRequest, ?_⟩
      have hRuns := hShape.idle hIdle t
      rw [Client.running, Client.view_of_task hTask] at hRuns
      have hDown : task.point.windsDown = true := by
        apply Point.windsDown_of_runs
        cases hPoint : task.point.runs with
        | false => rfl
        | true =>
            rw [hPoint, if_pos rfl] at hRuns
            cases hRuns
      change task.point.signalled.windsDown = true
      rcases signalled_cases task.point with hPoint | hPoint
      · rw [hPoint]
        exact hDown
      · rw [hPoint, Point.wake_windsDown]
        exact hDown
  | woken hTask _ _ => exact hOld hTask rfl
  | kept hTask _ => exact hOld hTask rfl

end Snmpio

------------------------------------------------------------
-- Runs
------------------------------------------------------------

namespace Snmpio

variable {ssl : OpenSsl} {id : Int32} {now : Int}
variable {events : List Event} {c c' : Client} {t : Nat}

theorem TaskStep.cancelled
    {e : Event}
    {task task' : Task}
    (hStep : TaskStep ssl c t e task')
    (hTask : c.tasks[t]? = some task) :
    task'.cancelled = task.cancelled ∨
      task'.cancelled ≠ {} := by
  have hSame :
      ∀ {found : Task}, c.tasks[t]? = some found →
        found = task := by
    intro found hFound
    rw [hTask] at hFound
    exact (Option.some.inj hFound).symm
  have hNew : t ≠ c.tasks.length := by
    have hBound := (List.getElem?_eq_some_iff.mp hTask).1
    omega
  cases hStep with
  | moved _ hFound hMove =>
      cases hSame hFound
      exact Or.inl hMove.kin.cancelled
  | spawned _ _ _ hLast => exact absurd hLast hNew
  | requested _ hLast => exact absurd hLast hNew
  | signalled _ _ _ hCancelled => exact Or.inr hCancelled
  | resumed _ hFound _ =>
      cases hSame hFound
      exact Or.inl rfl
  | raised hFound _ _ =>
      cases hSame hFound
      exact Or.inl rfl
  | woken hFound _ _ =>
      cases hSame hFound
      exact Or.inl rfl
  | kept hFound _ =>
      cases hSame hFound
      exact Or.inl rfl

/- A signal that was delivered is not forgotten. -/
theorem cancelled_of_signal
    (hRun :
      Machine.run (step ssl) (fresh id now) events = some c)
    {kind : Signal}
    (hSignal : Event.signal t kind ∈ events) :
    ∃ task, c.tasks[t]? = some task ∧
      task.cancelled ≠ {} := by
  revert hSignal
  refine Machine.run_invariant
    (P := fun events c => Event.signal t kind ∈ events →
      ∃ task, c.tasks[t]? = some task ∧
        task.cancelled ≠ {}) ?_ ?_ hRun
  · intro hNone
    cases hNone
  · intro events c e c' _ ih hStep hSignal
    rcases List.mem_append.mp hSignal with hOld | hLast
    · rcases ih hOld with ⟨task, hTask, hCancelled⟩
      rcases step_task_exists hStep hTask with
        ⟨task', hTask'⟩
      refine ⟨task', hTask', ?_⟩
      rcases (step_task hStep hTask').cancelled hTask with
        hSame | hNow
      · rw [hSame]
        exact hCancelled
      · exact hNow
    · cases List.mem_singleton.mp hLast
      simp only [step] at hStep
      split_ifs at hStep with hIdle
      rcases onSignal_eq hStep with
        ⟨task, cancelled, hTask, _, hCancelled, rfl⟩
      have hBound := (List.getElem?_eq_some_iff.mp hTask).1
      exact ⟨_, List.getElem?_set_self hBound, hCancelled⟩

theorem woundDown_of_run
    (hRun :
      Machine.run
        (Machine.guarded (step ssl) obeysCancellation)
        (fresh id now) events = some c) :
    ∀ (t : Nat) (task : Task), c.tasks[t]? = some task →
      task.cancelled ≠ {} → WoundDown task := by
  refine Machine.run_invariant
    (P := fun _ c =>
      ∀ (t : Nat) (task : Task), c.tasks[t]? = some task →
        task.cancelled ≠ {} → WoundDown task) ?_ ?_ hRun
  · intro t task hTask
    cases hTask
  · intro events c e c' hBefore ih hStep t task' hTask'
      hCancelled
    rcases Machine.guarded_eq_some.mp hStep with
      ⟨hObeys, hStep⟩
    exact (step_task hStep hTask').windsDown
      (strandShape_of_run (Machine.run_of_guarded hBefore))
      (ih t) hObeys hCancelled

/- Nothing more is sent, and no discovery is begun. -/
structure Quiet
    (c c' : Client)
    (t : Nat) : Prop where
  unsent :
    ∀ (task task' : Task) (x : Exchange),
      c.tasks[t]? = some task →
      c'.tasks[t]? = some task' →
      task'.point = .sending x → task.point = .sending x
  undiscovered :
    ∀ rest, c.strand = t :: rest →
      c'.discoveries.length = c.discoveries.length

theorem undiscovered
    {e : Event}
    {rest : List Nat}
    {task : Task}
    (hStep : step ssl c e = some c')
    (hStrand : c.strand = t :: rest)
    (hTask : c.tasks[t]? = some task)
    (hDown : WoundDown task) :
    c'.discoveries.length = c.discoveries.length := by
  have hBusy : ∀ {P : Prop}, c.strand = [] → P := by
    intro P hIdle
    rw [hStrand] at hIdle
    cases hIdle
  cases step_cases hStep with
  | @advanced out i below found moved c₁ spawned hHead hFound
      hMove =>
      rw [hStrand] at hHead
      cases hHead
      rw [hTask] at hFound
      cases hFound
      rw [settle_discoveries]
      rcases hMove.discoveries with hSame | hPoint
      · exact hSame
      · have hIs := hDown.point
        rw [hPoint] at hIs
        cases hIs
  | requested hIdle => exact hBusy hIdle
  | received hIdle => exact hBusy hIdle
  | resumed hIdle _ _ => exact hBusy hIdle
  | raised _ _ _ _ => exact List.length_set
  | signalled hIdle _ _ _ => exact hBusy hIdle
  | nudged hNudged => rw [hNudged.discoveries]

/-
  Once a signal has been delivered to a request, it sends
  nothing more and starts no discovery, in every run in which
  no cancelled request takes up a Report worth a retry.
-/
theorem cancelled_request_quiet
    {e : Event}
    {t : Nat}
    {kind : Signal}
    (hRun :
      Machine.run
        (Machine.guarded (step ssl) obeysCancellation)
        (fresh id now) events = some c)
    (hSignal : Event.signal t kind ∈ events)
    (hStep :
      Machine.guarded (step ssl) obeysCancellation c e =
        some c') :
    Quiet c c' t := by
  rcases Machine.guarded_eq_some.mp hStep with
    ⟨hObeys, hPlain⟩
  rcases cancelled_of_signal (Machine.run_of_guarded hRun)
    hSignal with ⟨task, hTask, hCancelled⟩
  have hDown := woundDown_of_run hRun t task hTask hCancelled
  constructor
  · intro found task' x hFound hTask' hSent
    rw [hTask] at hFound
    cases hFound
    exact ((step_task hPlain hTask').windsOn hTask hCancelled
      hDown hObeys).unsent x hSent
  · intro rest hStrand
    exact undiscovered hPlain hStrand hTask hDown

/- The request of `askedRun` is cancelled as it waits. -/
def cancelledRun : List Event :=
  askedRun ++ [.signal 0 .total]

theorem cancelledRun_resumes :
    ((Machine.run
      (Machine.guarded (step agentSsl) obeysCancellation)
      (fresh 1 0) cancelledRun).bind (fun c =>
        Machine.guarded (step agentSsl) obeysCancellation c
          (.resume 0))).isSome = true := by
  decide +kernel

/- Woken by the signal, it waits out its deadline. -/
theorem cancelled_request_quiet_sample :
    ∃ c c',
      Machine.run
          (Machine.guarded (step agentSsl) obeysCancellation)
          (fresh 1 0) cancelledRun = some c ∧
        Machine.guarded (step agentSsl) obeysCancellation c
          (.resume 0) = some c' ∧
        Quiet c c' 0 := by
  rcases Option.isSome_iff_exists.mp cancelledRun_resumes with
    ⟨c', hBoth⟩
  rcases Option.bind_eq_some_iff.mp hBoth with
    ⟨c, hRun, hStep⟩
  have hSignal : Event.signal 0 .total ∈ cancelledRun :=
    List.mem_append_right _ (List.mem_singleton_self _)
  exact ⟨c, c', hRun, hStep,
    cancelled_request_quiet hRun hSignal hStep⟩

/- The reply that still counts is a Report in clear. -/
def rediscoveringRun : List Event :=
  cancelledRun ++
    [.receive agentEndpoint
      (agentMessage agentSsl .noAuthNoPriv 3 strayUsm
        (usmReport usmStatsUnknownEngineIds)),
    .resume 0, ahead, ahead]

theorem rediscoveringRun_discoveries :
    (Machine.run (step agentSsl) (fresh 1 0)
      rediscoveringRun).bind (fun c =>
        (step agentSsl c ahead).map (fun c' =>
          (c.strand, c.discoveries.length,
            c'.discoveries.length))) =
      some ([0], 1, 2) := by
  decide +kernel

/- The cancelled request starts a new Engine Discovery. -/
theorem cancelled_request_rediscovers :
    ∃ c c',
      Machine.run (step agentSsl) (fresh 1 0)
          rediscoveringRun = some c ∧
        Event.signal 0 .total ∈ rediscoveringRun ∧
        step agentSsl c ahead = some c' ∧
        c.strand = [0] ∧
        c'.discoveries.length = c.discoveries.length + 1 ∧
        ¬ Quiet c c' 0 := by
  rcases Option.bind_eq_some_iff.mp
    rediscoveringRun_discoveries with ⟨c, hRun, hState⟩
  rcases Option.map_eq_some_iff.mp hState with
    ⟨c', hStep, hFound⟩
  simp only [Prod.mk.injEq] at hFound
  rcases hFound with ⟨hStrand, hBefore, hAfter⟩
  refine ⟨c, c', hRun, ?_, hStep, hStrand, ?_, ?_⟩
  · exact List.mem_append_left _
      (List.mem_append_right _ (List.mem_singleton_self _))
  · rw [hBefore, hAfter]
  · intro hQuiet
    have hSame := hQuiet.undiscovered [] hStrand
    rw [hBefore, hAfter] at hSame
    cases hSame

end Snmpio
