import Snmpio.Client.Attribution
import Snmpio.Client.Strand

/-
  The bookkeeping of outstanding exchanges.

  An exchange takes an id from the counter, is entered into
  `m_pending` under it, and is removed when `transact`
  returns.  The counter wraps around, so that the table is
  right as long as no exchange outlives a whole cycle.

  Key definitions include:
    * `Turn`
    * `ExchangeStep`
    * `idsIssued`
    * `Booked`

  Key theorems include:
    * `nextAfter_iterate_ne`
    * `Move.turn`
    * `step_exchange`
    * `pending_table_exact`
-/

------------------------------------------------------------
-- Ids
------------------------------------------------------------

namespace Snmpio

variable {id : Int32}

/- How many ids there are. -/
def idCount : Nat := 2147483647

theorem idCount_eq :
    (idCount : Int) = 2147483647 :=
  rfl

theorem toInt_le_idCount
    (id : Int32) :
    id.toInt ≤ 2147483647 :=
  Int32.toInt_le id

/- The counter goes from its last value to 1. -/
theorem nextAfter_toInt
    (hPositive : 1 ≤ id.toInt) :
    (nextAfter id).toInt = id.toInt % idCount + 1 := by
  have hMax := toInt_le_idCount id
  unfold nextAfter
  split
  · next hLast =>
    rw [hLast]
    rfl
  · next hOther =>
    have hLess : id.toInt ≠ 2147483647 := by
      intro hSame
      exact hOther (Int32.toInt_inj.mp hSame)
    have hOne : (1 : Int32).toInt = 1 := rfl
    rw [Int32.toInt_add, hOne, idCount_eq,
      Int.bmod_eq_of_le]
    · omega
    · omega
    · omega

/- The counter goes round in a circle. -/
theorem nextAfter_iterate_toInt
    (hPositive : 1 ≤ id.toInt)
    (n : Nat) :
    (nextAfter^[n] id).toInt =
      (id.toInt - 1 + n) % idCount + 1 := by
  have hMax := toInt_le_idCount id
  rw [idCount_eq]
  induction n with
  | zero =>
      rw [Function.iterate_zero, id_eq]
      omega
  | succ n ih =>
      rw [Function.iterate_succ_apply', nextAfter_toInt, ih,
        idCount_eq]
      · push_cast
        omega
      · rw [ih]
        omega

/- It does not come back before the end of the circle. -/
theorem nextAfter_iterate_ne
    (hPositive : 1 ≤ id.toInt)
    {n : Nat}
    (hSome : 0 < n)
    (hFew : n < idCount) :
    nextAfter^[n] id ≠ id := by
  intro hSame
  have hMax := toInt_le_idCount id
  have hValue := nextAfter_iterate_toInt hPositive n
  rw [hSame, idCount_eq] at hValue
  have hLess : (n : Int) < 2147483647 := by
    rw [← idCount_eq]
    exact_mod_cast hFew
  omega

end Snmpio

------------------------------------------------------------
-- Turns
------------------------------------------------------------

namespace Snmpio

variable {ssl : OpenSsl} {c c' : Client} {task task' : Task}

namespace Point

/- The exchange whose id has just been issued. -/
def entering? :
    Point → Option Exchange
| entering x => some x
| _ => none

/- The exchange that `transact` has registered. -/
def inside? :
    Point → Option Exchange
| sending x => some x
| waiting x _ _ _ => some x
| leaving x => some x
| _ => none

theorem wake_entering?
    (point : Point) :
    point.wake.entering? = point.entering? := by
  cases point with
  | _ => rfl

theorem wake_inside?
    (point : Point) :
    point.wake.inside? = point.inside? := by
  cases point with
  | _ => rfl

end Point

theorem attemptPoint_inside?
    (target : Target)
    (x : Exchange) :
    (attemptPoint target x).inside? = some x := by
  unfold attemptPoint
  split
  · rfl
  · rfl

theorem attemptPoint_entering?
    (target : Target)
    (x : Exchange) :
    (attemptPoint target x).entering? = none := by
  unfold attemptPoint
  split
  · rfl
  · rfl

/- What a move does with the exchange of its coroutine. -/
inductive Turn
    (c : Client)
    (task : Task) :
    Client → Task → Prop where
  -- An id may have been issued in vain.
  | outside
      {c' : Client}
      {task' : Task}
      (hTable : c'.pending = c.pending)
      (hPendings : c'.pendings = c.pendings)
      (hId :
        c'.nextId = c.nextId ∨
          c'.nextId = nextAfter c.nextId)
      (hBefore : task.point.inside? = none)
      (hAfter : task'.point.exchange? = none) :
      Turn c task c' task'
  | opened
      {c' : Client}
      {task' : Task}
      {x : Exchange}
      {p : Pending}
      (hTable : c'.pending = c.pending)
      (hPendings : c'.pendings = c.pendings ++ [p])
      (hId : c'.nextId = nextAfter c.nextId)
      (hBefore : task.point.inside? = none)
      (hPoint : task'.point = .entering x)
      (hKey : x.key = c.nextId)
      (hRef : x.pending = c.pendings.length)
      (hUnsent : x.attempt = 0 ∧ x.ec = none)
      (hFresh : p.Fresh) :
      Turn c task c' task'
  | refused
      {x : Exchange}
      (ec : Failure)
      (hPoint : task.point = .entering x) :
      Turn c task c (task.goto (.returned x (some ec)))
  | registered
      {c' : Client}
      {x : Exchange}
      (hPoint : task.point = .entering x)
      (hStopping : c.stopping = false)
      (hTable :
        c'.pending =
          (c.registerPending x.key x.pending).pending)
      (hPendings : c'.pendings = c.pendings)
      (hId : c'.nextId = c.nextId) :
      Turn c task c'
        (task.goto (attemptPoint task.target x))
  | left
      {x : Exchange}
      {p : Pending}
      (hPoint : task.point = .leaving x)
      (hp : c.pendings[x.pending]? = some p) :
      Turn c task (leaveTransact c task x p).1
        (leaveTransact c task x p).2

/- An id is taken, and nothing registered. -/
theorem Opening.turn
    {keys : KeyCache}
    (hBefore : task.point.inside? = none)
    (hOpening : Opening c task keys c' task') :
    Turn c task c' task' := by
  cases hOpening with
  | fails nextId hId hPoint =>
      refine Turn.outside rfl rfl hId hBefore ?_
      cases hPoint with
      | completed e _ => rfl
      | finishing e _ => rfl
  | opens hFresh hWork =>
      exact Turn.opened rfl rfl rfl hBefore rfl rfl rfl
        ⟨rfl, rfl⟩ hFresh

theorem startV3_turn
    (hBefore : task.point.inside? = none)
    (creds : Credentials) :
    Turn c task c (startV3 c task creds) := by
  unfold startV3
  split_ifs
  all_goals
    exact Turn.outside rfl rfl (Or.inl rfl) hBefore rfl

theorem socketFor_nextId
    {endpoint : Endpoint}
    {opened : Option SystemError}
    (hSocket : c.socketFor endpoint opened = .ok c') :
    c'.nextId = c.nextId := by
  unfold Client.socketFor at hSocket
  split at hSocket
  · cases hSocket
    rfl
  · split at hSocket
    · cases hSocket
    · split at hSocket
      all_goals
        cases hSocket
        rfl

theorem registerPending_eq
    (c : Client)
    (key : Int32)
    (ref : Nat) :
    (c.registerPending key ref).pendings = c.pendings ∧
      (c.registerPending key ref).nextId = c.nextId := by
  unfold Client.registerPending
  split
  · exact ⟨rfl, rfl⟩
  · exact ⟨rfl, rfl⟩

/- The id is registered, or nothing is. -/
theorem Entry.turn
    {out : Outside}
    {x : Exchange}
    (hPoint : task.point = .entering x)
    (hEntry : Entry out c task x c' task') :
    Turn c task c' task' := by
  cases hEntry with
  | refused ec _ => exact Turn.refused ec hPoint
  | @entered c₁ hStopping hSocket =>
      rcases socketFor_aside hSocket with
        ⟨_, hPending, hPendings, _⟩
      rcases registerPending_eq c₁ x.key x.pending with
        ⟨hRefs, hId⟩
      refine Turn.registered hPoint hStopping ?_
        (hRefs.trans hPendings)
        (hId.trans (socketFor_nextId hSocket))
      simp only [Client.registerPending, hPending]
      split
      · exact hPending
      · rfl

theorem afterFailure_exchange?
    (task : Task)
    (ec : Failure) :
    (afterFailure task ec).point.exchange? = none := by
  unfold afterFailure
  split
  all_goals rfl

/- What comes after has no exchange of its own. -/
theorem afterSuccess_exchange?
    (c : Client)
    (task : Task)
    (p : Pending) :
    (afterSuccess c task p).2.point.exchange? = none := by
  have hAfterwards := afterSuccess_afterwards c task p
  generalize (afterSuccess c task p).2 = task'
    at hAfterwards ⊢
  cases hAfterwards with
  | _ => rfl

/- Outside of exchanges, a coroutine is in none. -/
theorem Point.inside?_of_exchange?
    {point : Point}
    (hNone : point.exchange? = none) :
    point.inside? = none ∧ point.entering? = none := by
  cases point with
  | entering _ => cases hNone
  | leaving _ => cases hNone
  | sending _ => cases hNone
  | waiting _ _ _ _ => cases hNone
  | _ => exact ⟨rfl, rfl⟩

/- What a move does to the ids. -/
theorem Move.turn
    {out : Outside}
    {spawned : Option Task}
    (hMove : Move ssl out c task c' task' spawned) :
    Turn c task c' task' := by
  have hBefore :
      ∀ {point : Point}, task.point = point →
        point.inside? = none → task.point.inside? = none := by
    rintro point rfl hInside
    exact hInside
  cases hMove with
  | beginV2c hPoint hWork =>
      exact (startV2c_opening c hWork).turn
        (hBefore hPoint rfl)
  | beginV3 hPoint _ =>
      exact startV3_turn (hBefore hPoint rfl) _
  | beginIdentify hPoint hWork =>
      exact (startIdentify_opening out c hWork).turn
        (hBefore hPoint rfl)
  | ensure hPoint _ hEnsure =>
      rcases ensureEngine_cases hEnsure with
        ⟨rfl, rfl, _⟩ | ⟨_, _, rfl, rfl, _⟩ | ⟨_, rfl, rfl, _⟩
      all_goals
        exact Turn.outside rfl rfl (Or.inl rfl)
          (hBefore hPoint rfl) rfl
  | park hPoint _ =>
      exact Turn.outside rfl rfl (Or.inl rfl)
        (hBefore hPoint rfl) rfl
  | fail hPoint _ =>
      exact Turn.outside rfl rfl (Or.inl rfl)
        (hBefore hPoint rfl) rfl
  | send hPoint hWork =>
      exact (sendRequest_opening out c hWork).turn
        (hBefore hPoint rfl)
  | enter hPoint =>
      exact (enterTransact_entry out c task _).turn hPoint
  | leave hPoint hp => exact Turn.left hPoint hp
  | failed hPoint =>
      exact Turn.outside rfl rfl (Or.inl rfl)
        (hBefore hPoint rfl) (afterFailure_exchange? task _)
  | @succeeded x p hPoint hp =>
      rw [afterSuccess_client]
      exact Turn.outside rfl rfl (Or.inl rfl)
        (hBefore hPoint rfl) (afterSuccess_exchange? c task p)
  | beginSync hPoint hWork =>
      exact (startSync_opening out c hPoint hWork).turn
        (hBefore hPoint rfl)
  | finish hPoint _ =>
      exact Turn.outside rfl rfl (Or.inl rfl)
        (hBefore hPoint rfl) rfl

end Snmpio

------------------------------------------------------------
-- Exchange Steps
------------------------------------------------------------

namespace Snmpio

variable {ssl : OpenSsl} {t : Nat} {c c' : Client}

/- What tells an exchange from the others. -/
def Exchange.tag
    (x : Exchange) : Int32 × Nat :=
  (x.key, x.pending)

/- The exchange a coroutine is about to register. -/
def Client.entering
    (c : Client) : Nat → Option (Int32 × Nat) :=
  c.view (fun point => point.entering?.map Exchange.tag)

/-
  The exchange a coroutine is in, inside of `transact` and
  between its registration and its completion.
-/
def Client.inside
    (c : Client) : Nat → Option (Int32 × Nat) :=
  c.view (fun point => point.inside?.map Exchange.tag)

/- What a step does to the exchanges and their table. -/
inductive ExchangeStep
    (c c' : Client) : Prop where
  | kept
      (hTable : c'.pending = c.pending)
      (hId :
        c'.nextId = c.nextId ∨
          c'.nextId = nextAfter c.nextId)
      (hInside : c'.inside = c.inside)
      (hEntering :
        ∀ t, c'.entering t = c.entering t ∨
          c'.entering t = none)
  | opened
      {t ref : Nat}
      (hTable : c'.pending = c.pending)
      (hId : c'.nextId = nextAfter c.nextId)
      (hNone : c.inside t = none)
      (hInside : c'.inside = c.inside)
      (hEntering :
        c'.entering =
          Function.update c.entering t (some (c.nextId, ref)))
  | registered
      {t ref : Nat}
      {key : Int32}
      (hBefore : c.entering t = some (key, ref))
      (hTable :
        c'.pending = (c.registerPending key ref).pending)
      (hId : c'.nextId = c.nextId)
      (hInside :
        c'.inside =
          Function.update c.inside t (some (key, ref)))
      (hEntering :
        c'.entering = Function.update c.entering t none)
  | left
      {t ref : Nat}
      {key : Int32}
      (hBefore : c.inside t = some (key, ref))
      (hTable : c'.pending = c.pending.erase key)
      (hId : c'.nextId = c.nextId)
      (hInside :
        c'.inside = Function.update c.inside t none)
      (hEntering : c'.entering = c.entering)

theorem wake_entering_tag
    (point : Point) :
    point.wake.entering?.map Exchange.tag =
      point.entering?.map Exchange.tag := by
  rw [Point.wake_entering?]

theorem wake_inside_tag
    (point : Point) :
    point.wake.inside?.map Exchange.tag =
      point.inside?.map Exchange.tag := by
  rw [Point.wake_inside?]

theorem update_none
    {f : Nat → Option (Int32 × Nat)}
    (hNone : f t = none) :
    Function.update f t none = f := by
  rw [← hNone, Function.update_eq_self]

/- A step that moves no coroutine through `transact`. -/
theorem ExchangeStep.of_view
    (hTable : c'.pending = c.pending)
    (hId : c'.nextId = c.nextId)
    (hView :
      ∀ {f : Point → Option (Int32 × Nat)},
        (∀ point : Point, f point.wake = f point) →
          f .start = none → c'.view f = c.view f) :
    ExchangeStep c c' := by
  refine ExchangeStep.kept hTable (Or.inl hId)
    (hView wake_inside_tag rfl) ?_
  intro t
  exact Or.inl (congrFun (hView wake_entering_tag rfl) t)

/- The turn of one coroutine, for all of them. -/
theorem Turn.exchangeStep
    {c'' : Client}
    {task task' : Task}
    (hTask : c.tasks[t]? = some task)
    (hTurn : Turn c task c' task')
    (hTable : c''.pending = c'.pending)
    (hId : c''.nextId = c'.nextId)
    (hInside :
      c''.inside =
        Function.update c.inside t
          (task'.point.inside?.map Exchange.tag))
    (hEntering :
      c''.entering =
        Function.update c.entering t
          (task'.point.entering?.map Exchange.tag)) :
    ExchangeStep c c'' := by
  have hWasInside :
      c.inside t = task.point.inside?.map Exchange.tag :=
    Client.view_of_task hTask
  have hWasEntering :
      c.entering t = task.point.entering?.map Exchange.tag :=
    Client.view_of_task hTask
  -- Neither before nor after is it inside or about to be.
  have hKept :
      c'.pending = c.pending →
      (c'.nextId = c.nextId ∨
        c'.nextId = nextAfter c.nextId) →
      task.point.inside? = none →
      task'.point.inside? = none ∧
        task'.point.entering? = none →
        ExchangeStep c c'' := by
    rintro hTable' hId' hBefore ⟨hAfter, hNone⟩
    rw [hBefore] at hWasInside
    rw [hAfter] at hInside
    rw [hNone] at hEntering
    refine ExchangeStep.kept (hTable.trans hTable') ?_ ?_ ?_
    · rw [hId]
      exact hId'
    · rw [hInside]
      exact update_none hWasInside
    · intro i
      rw [hEntering]
      by_cases hSame : i = t
      · subst hSame
        exact Or.inr (Function.update_self _ _ _)
      · exact Or.inl (Function.update_of_ne hSame _ _)
  cases hTurn with
  | outside hTable' _ hId' hBefore hAfter =>
      exact hKept hTable' hId' hBefore
        (Point.inside?_of_exchange? hAfter)
  | refused ec hPoint =>
      exact hKept rfl (Or.inl rfl) (by rw [hPoint]; rfl)
        ⟨rfl, rfl⟩
  | @opened _ _ x p hTable' _ hId' hBefore hPoint hKey =>
      rw [hBefore] at hWasInside
      rw [hPoint] at hInside hEntering
      have hOpened :
          c''.entering =
            Function.update c.entering t
              (some (c.nextId, x.pending)) := by
        rw [hEntering, ← hKey]
        rfl
      refine ExchangeStep.opened (hTable.trans hTable')
        (hId.trans hId') hWasInside ?_ hOpened
      rw [hInside]
      exact update_none hWasInside
  | @registered _ x hPoint _ hTable' _ hId' =>
      rw [hPoint] at hWasEntering
      refine ExchangeStep.registered hWasEntering
        (hTable.trans hTable') (hId.trans hId') ?_ ?_
      · rw [hInside, Task.goto, attemptPoint_inside?]
        rfl
      · rw [hEntering, Task.goto, attemptPoint_entering?]
        rfl
  | @left x p hPoint hp =>
      rw [hPoint] at hWasInside hWasEntering
      refine ExchangeStep.left hWasInside hTable hId hInside ?_
      rw [hEntering]
      exact update_none hWasEntering

/- A coroutine that is resumed stays in its exchange. -/
theorem Resumes.tags
    {e : Event}
    {task : Task}
    {point : Point}
    (hResumes : Resumes c t task e point) :
    point.inside?.map Exchange.tag =
        task.point.inside?.map Exchange.tag ∧
      point.entering? = none ∧ task.point.entering? = none := by
  cases hResumes with
  | sent ec hPoint =>
      rw [hPoint]
      unfold afterSend
      split
      · exact ⟨rfl, rfl, rfl⟩
      · exact ⟨rfl, rfl, rfl⟩
  | waited hPoint hp =>
      rw [hPoint]
      unfold afterWait
      split_ifs
      · exact ⟨rfl, rfl, rfl⟩
      · exact ⟨rfl, rfl, rfl⟩
      · rw [attemptPoint_inside?, attemptPoint_entering?]
        exact ⟨rfl, rfl, rfl⟩
  | unparked hPoint hd =>
      rw [hPoint]
      unfold afterPark
      split_ifs
      all_goals exact ⟨rfl, rfl, rfl⟩

/-
  No exception leaves a `transact` that has registered: that
  is no way of returning, and the entry would stay.
-/
def returnsNormally
    (c : Client) :
    Event → Bool
| .raise t => (c.inside t).isNone
| _ => true

/- What an event does to the ids. -/
theorem step_exchange
    {e : Event}
    (hStep : step ssl c e = some c')
    (hReturns : returnsNormally c e = true) :
    ExchangeStep c c' := by
  cases step_cases hStep with
  | @advanced out t rest task task' c₁ spawned hStrand hTask
      hMove =>
      have hTable :
          (c₁.settle t rest task' spawned).pending =
            c₁.pending :=
        settle_frame c₁ t rest task' spawned (fun _ _ _ => rfl)
      exact hMove.turn.exchangeStep hTask hTable
        (settle_nextId c₁ t rest task' spawned)
        (hMove.view wake_inside_tag rfl hTask)
        (hMove.view wake_entering_tag rfl hTask)
  | requested hIdle =>
      refine ExchangeStep.of_view rfl rfl ?_
      intro f _ hStart
      exact spawn_view_none hStart
  | received hIdle =>
      rcases receive_nudged ssl c _ _ with
        ⟨pendings, hNudged⟩
      refine ExchangeStep.of_view hNudged.pending
        hNudged.nextId ?_
      intro f hWake _
      exact view_of_nudged hWake hNudged.length hNudged.tasks
  | @resumed _ t task point hIdle hTask hResumes =>
      rcases hResumes.tags with ⟨hTag, hAfter, hBefore⟩
      have hInside :
          c.inside t = task.point.inside?.map Exchange.tag :=
        Client.view_of_task hTask
      have hEntering :
          c.entering t =
            task.point.entering?.map Exchange.tag :=
        Client.view_of_task hTask
      refine ExchangeStep.kept rfl (Or.inl rfl) ?_ ?_
      · refine (set_view _ hTask rfl).trans ?_
        change Function.update c.inside t
          (point.inside?.map Exchange.tag) = c.inside
        rw [hTag, ← hInside, Function.update_eq_self]
      · intro i
        left
        refine (congrFun (set_view _ hTask rfl) i).trans ?_
        change Function.update c.entering t
          (point.entering?.map Exchange.tag) i = c.entering i
        rw [hAfter, ← hBefore, ← hEntering,
          Function.update_eq_self]
  | @raised t d rest task hStrand hTask hDiscovery hThrows =>
      refine ExchangeStep.kept rfl (Or.inl rfl) ?_ ?_
      · refine (raised_view wake_inside_tag hTask).trans ?_
        exact update_none (Option.isNone_iff_eq_none.mp
          hReturns)
      · intro i
        by_cases hSame : i = t
        · subst hSame
          right
          refine (congrFun
            (raised_view wake_entering_tag hTask) i).trans ?_
          exact Function.update_self _ _ _
        · left
          refine (congrFun
            (raised_view wake_entering_tag hTask) i).trans ?_
          exact Function.update_of_ne hSame _ _
  | @signalled t kind task cancelled _ hTask _ _ =>
      refine ExchangeStep.of_view rfl rfl ?_
      intro f hWake _
      refine (set_view f hTask rfl).trans ?_
      have hBefore : c.view f t = f task.point :=
        Client.view_of_task hTask
      have hSame : f task.point.signalled = f task.point := by
        rcases signalled_cases task.point with hPoint | hPoint
        · rw [hPoint]
        · rw [hPoint, hWake]
      rw [hSame, ← hBefore, Function.update_eq_self]
  | nudged hNudged =>
      refine ExchangeStep.of_view hNudged.pending
        hNudged.nextId ?_
      intro f hWake _
      exact view_of_nudged hWake hNudged.length hNudged.tasks

end Snmpio

------------------------------------------------------------
-- Ids Issued
------------------------------------------------------------

namespace Snmpio

variable {ssl : OpenSsl} {c c' : Client}

/- The counter takes one step at most. -/
theorem Turn.nextId
    {task task' : Task}
    (hTurn : Turn c task c' task') :
    c'.nextId = c.nextId ∨
      c'.nextId = nextAfter c.nextId := by
  cases hTurn with
  | outside _ _ hId _ _ => exact hId
  | opened _ _ hId _ _ _ _ _ _ => exact Or.inr hId
  | refused _ _ => exact Or.inl rfl
  | registered _ _ _ _ hId => exact Or.inl hId
  | left _ _ => exact Or.inl rfl

theorem step_nextId
    {e : Event}
    (hStep : step ssl c e = some c') :
    c'.nextId = c.nextId ∨
      c'.nextId = nextAfter c.nextId := by
  cases step_cases hStep with
  | advanced _ _ hMove =>
      rw [settle_nextId]
      exact hMove.turn.nextId
  | received _ =>
      rcases receive_nudged ssl c _ _ with
        ⟨pendings, hNudged⟩
      exact Or.inl hNudged.nextId
  | nudged hNudged => exact Or.inl hNudged.nextId
  | _ => exact Or.inl rfl

/- How many ids are issued along a run. -/
def idsIssued
    (ssl : OpenSsl)
    (c : Client) :
    List Event → Nat
| [] => 0
| e :: rest =>
    match step ssl c e with
    | none => 0
    | some c' =>
        (if c'.nextId = c.nextId then 0 else 1) +
          idsIssued ssl c' rest

/- Counted event by event. -/
theorem idsIssued_concat
    {m : Client}
    {events : List Event}
    {e : Event}
    (hRun : Machine.run (step ssl) c events = some m)
    (hStep : step ssl m e = some c') :
    idsIssued ssl c (events ++ [e]) =
      idsIssued ssl c events +
        (if c'.nextId = m.nextId then 0 else 1) := by
  induction events generalizing c with
  | nil =>
      cases hRun
      simp only [List.nil_append, idsIssued, hStep]
      omega
  | cons first rest ih =>
      rw [Machine.run, List.foldlM_cons, Option.bind_eq_bind,
        Option.bind_eq_some_iff] at hRun
      rcases hRun with ⟨c₁, hFirst, hRest⟩
      simp only [List.cons_append, idsIssued, hFirst, ih hRest]
      omega

/- The counter after a run. -/
theorem run_nextId
    {events : List Event}
    (hRun : Machine.run (step ssl) c events = some c') :
    c'.nextId =
      nextAfter^[idsIssued ssl c events] c.nextId := by
  induction events using List.reverseRecOn
    generalizing c' with
  | nil =>
      cases hRun
      rfl
  | append_singleton events e ih =>
      rcases Machine.run_concat.mp hRun with
        ⟨m, hBefore, hStep⟩
      rw [idsIssued_concat hBefore hStep]
      split
      · next hSame => rw [hSame, ih hBefore, Nat.add_zero]
      · next hOther =>
        have hNext := (step_nextId hStep).resolve_left hOther
        rw [hNext, ih hBefore, Function.iterate_succ_apply']

end Snmpio

------------------------------------------------------------
-- The Table
------------------------------------------------------------

namespace Snmpio

variable {ssl : OpenSsl} {start c : Client}
variable {events : List Event} {t ref : Nat} {key : Int32}
variable {c' : Client} {e : Event}

/- The id of the exchange is in use. -/
def Outstanding
    (c : Client)
    (t : Nat)
    (tag : Int32 × Nat) : Prop :=
  c.entering t = some tag ∨ c.inside t = some tag

/-
  No exchange is outstanding while the counter goes round.
-/
def FewIds
    (ssl : OpenSsl)
    (start : Client)
    (events : List Event) : Prop :=
  ∀ before during rest c₁ c₂ t tag,
    events = before ++ during ++ rest →
      Machine.run (step ssl) start before = some c₁ →
      Machine.run (step ssl) c₁ during = some c₂ →
      Outstanding c₁ t tag → Outstanding c₂ t tag →
        idsIssued ssl c₁ during < idCount

/-
  The id of this exchange was issued on the way here, when
  the counter passed it.
-/
def IssuedAlong
    (ssl : OpenSsl)
    (start : Client)
    (events : List Event)
    (c : Client)
    (t : Nat)
    (tag : Int32 × Nat) : Prop :=
  ∃ before during c₁,
    events = before ++ during ∧
      Machine.run (step ssl) start before = some c₁ ∧
      Machine.run (step ssl) c₁ during = some c ∧
      Outstanding c₁ t tag ∧ c₁.nextId = nextAfter tag.1

/- The table holds who is inside, and nobody else. -/
structure Booked
    (ssl : OpenSsl)
    (start : Client)
    (events : List Event)
    (c : Client) : Prop where
  counter : 1 ≤ c.nextId.toInt
  range :
    ∀ t tag, Outstanding c t tag → 1 ≤ tag.1.toInt
  issued :
    ∀ t tag, Outstanding c t tag →
      IssuedAlong ssl start events c t tag
  distinct :
    ∀ t t' key ref ref', Outstanding c t (key, ref) →
      Outstanding c t' (key, ref') → t = t'
  table :
    ∀ key ref, c.pending.lookup key = some ref ↔
      ∃ t, c.inside t = some (key, ref)

/- A coroutine is at one point at a time. -/
theorem entering_of_inside
    {tag : Int32 × Nat}
    (hInside : c.inside t = some tag) :
    c.entering t = none := by
  rcases Option.bind_eq_some_iff.mp hInside with
    ⟨task, hTask, hTag⟩
  have hEntering :
      c.entering t = task.point.entering?.map Exchange.tag :=
    Client.view_of_task hTask
  rw [hEntering]
  cases hPoint : task.point with
  | entering x =>
      rw [hPoint] at hTag
      cases hTag
  | _ => rfl

theorem inside_of_entering
    {tag : Int32 × Nat}
    (hEntering : c.entering t = some tag) :
    c.inside t = none := by
  cases hInside : c.inside t with
  | none => rfl
  | some other =>
      rw [entering_of_inside hInside] at hEntering
      cases hEntering

/- What is not yet registered is not in the table. -/
theorem Booked.lookup_of_entering
    (hBooked : Booked ssl start events c)
    (hEntering : c.entering t = some (key, ref)) :
    c.pending.lookup key = none := by
  cases hLookup : c.pending.lookup key with
  | none => rfl
  | some other =>
      rcases (hBooked.table key other).mp hLookup with
        ⟨t', hInside⟩
      have hSame := hBooked.distinct t t' key ref other
        (Or.inl hEntering) (Or.inr hInside)
      subst hSame
      rw [inside_of_entering hEntering] at hInside
      cases hInside

/- An id was issued once, and stays so. -/
theorem IssuedAlong.after
    {tag : Int32 × Nat}
    (hIssued : IssuedAlong ssl start events c t tag)
    (hStep : step ssl c e = some c') :
    IssuedAlong ssl start (events ++ [e]) c' t tag := by
  rcases hIssued with
    ⟨before, during, c₁, rfl, hBefore, hDuring, hOut, hNext⟩
  exact ⟨before, during ++ [e], c₁, List.append_assoc _ _ _,
    hBefore, Machine.run_concat.mpr ⟨c, hDuring, hStep⟩, hOut,
    hNext⟩

/- An exchange that outlives an issue has another id. -/
theorem IssuedAlong.key_ne
    {tag : Int32 × Nat}
    (hIssued : IssuedAlong ssl start events c t tag)
    (hFew : FewIds ssl start (events ++ [e]))
    (hStep : step ssl c e = some c')
    (hId : c'.nextId = nextAfter c.nextId)
    (hCounter : 1 ≤ c.nextId.toInt)
    (hRange : 1 ≤ tag.1.toInt)
    (hOut' : Outstanding c' t tag) :
    tag.1 ≠ c.nextId := by
  rcases hIssued with
    ⟨before, during, c₁, rfl, hBefore, hDuring, hOut, hNext⟩
  have hNew : c'.nextId ≠ c.nextId := by
    have hOne := nextAfter_iterate_ne hCounter Nat.one_pos
      (by decide)
    rw [hId]
    exact hOne
  have hFewer := hFew before (during ++ [e]) [] c₁ c' t tag
    (by simp) hBefore
    (Machine.run_concat.mpr ⟨c, hDuring, hStep⟩) hOut hOut'
  rw [idsIssued_concat hDuring hStep, if_neg hNew] at hFewer
  rw [run_nextId hDuring, hNext,
    ← Function.iterate_succ_apply nextAfter]
  exact (nextAfter_iterate_ne hRange (Nat.succ_pos _)
    hFewer).symm

/- A prefix of a run that issues few ids does so too. -/
theorem FewIds.before
    (hFew : FewIds ssl start (events ++ [e])) :
    FewIds ssl start events := by
  intro before during rest c₁ c₂ t tag hEvents
  refine hFew before during (rest ++ [e]) c₁ c₂ t tag ?_
  rw [hEvents]
  simp only [List.append_assoc]

/- The counter is never zero or negative. -/
theorem nextAfter_positive
    {id : Int32}
    (hPositive : 1 ≤ id.toInt) :
    1 ≤ (nextAfter id).toInt := by
  rw [nextAfter_toInt hPositive, idCount_eq]
  omega

theorem counter_positive
    (hCounter : 1 ≤ c.nextId.toInt)
    (hId :
      c'.nextId = c.nextId ∨
        c'.nextId = nextAfter c.nextId) :
    1 ≤ c'.nextId.toInt := by
  rcases hId with hSame | hNext
  · rw [hSame]
    exact hCounter
  · rw [hNext]
    exact nextAfter_positive hCounter

/- Nothing is outstanding that was not so before. -/
theorem Booked.fewer
    (hBooked : Booked ssl start events c)
    (hStep : step ssl c e = some c')
    (hOld :
      ∀ t tag, Outstanding c' t tag → Outstanding c t tag)
    (hTable :
      ∀ key ref, c'.pending.lookup key = some ref ↔
        ∃ t, c'.inside t = some (key, ref)) :
    Booked ssl start (events ++ [e]) c' where
  counter :=
    counter_positive hBooked.counter (step_nextId hStep)
  range := fun t tag hOut =>
    hBooked.range t tag (hOld t tag hOut)
  issued := fun t tag hOut =>
    (hBooked.issued t tag (hOld t tag hOut)).after hStep
  distinct := fun t t' key ref ref' hOut hOut' =>
    hBooked.distinct t t' key ref ref' (hOld _ _ hOut)
      (hOld _ _ hOut')
  table := hTable

/- A new id is nobody else's. -/
theorem Booked.open
    (hBooked : Booked ssl start events c)
    (hRun : Machine.run (step ssl) start events = some c)
    (hStep : step ssl c e = some c')
    (hFew : FewIds ssl start (events ++ [e]))
    (hTable : c'.pending = c.pending)
    (hId : c'.nextId = nextAfter c.nextId)
    (hNone : c.inside t = none)
    (hInside : c'.inside = c.inside)
    (hEntering :
      c'.entering =
        Function.update c.entering t
          (some (c.nextId, ref))) :
    Booked ssl start (events ++ [e]) c' := by
  -- The new exchange has the id that the counter showed.
  have hNew :
      ∀ tag, Outstanding c' t tag → tag = (c.nextId, ref) := by
    rintro tag (hTag | hTag)
    · rw [hEntering, Function.update_self] at hTag
      exact (Option.some.inj hTag).symm
    · rw [hInside, hNone] at hTag
      cases hTag
  have hOld :
      ∀ i tag, i ≠ t → Outstanding c' i tag →
        Outstanding c i tag := by
    rintro i tag hOther (hTag | hTag)
    · rw [hEntering, Function.update_of_ne hOther] at hTag
      exact Or.inl hTag
    · rw [hInside] at hTag
      exact Or.inr hTag
  have hKey :
      ∀ i tag, i ≠ t → Outstanding c' i tag →
        tag.1 ≠ c.nextId := by
    intro i tag hOther hOut
    have hBefore := hOld i tag hOther hOut
    exact (hBooked.issued i tag hBefore).key_ne hFew hStep hId
      hBooked.counter (hBooked.range i tag hBefore) hOut
  refine ⟨counter_positive hBooked.counter (Or.inr hId), ?_,
    ?_, ?_, ?_⟩
  · intro i tag hOut
    by_cases hSame : i = t
    · subst hSame
      rw [hNew tag hOut]
      exact hBooked.counter
    · exact hBooked.range i tag (hOld i tag hSame hOut)
  · intro i tag hOut
    by_cases hSame : i = t
    · subst hSame
      refine ⟨events ++ [e], [], c', (List.append_nil _).symm,
        Machine.run_concat.mpr ⟨c, hRun, hStep⟩, rfl, hOut, ?_⟩
      rw [hNew tag hOut]
      exact hId
    · exact (hBooked.issued i tag
        (hOld i tag hSame hOut)).after hStep
  · intro i i' key ref₁ ref₂ hOut hOut'
    by_cases hSame : i = t
    · by_cases hSame' : i' = t
      · rw [hSame, hSame']
      · subst hSame
        have hFirst : key = c.nextId :=
          congrArg Prod.fst (hNew _ hOut)
        exact absurd hFirst
          (hKey i' (key, ref₂) hSame' hOut')
    · by_cases hSame' : i' = t
      · subst hSame'
        have hSecond : key = c.nextId :=
          congrArg Prod.fst (hNew _ hOut')
        exact absurd hSecond (hKey i (key, ref₁) hSame hOut)
      · exact hBooked.distinct i i' key ref₁ ref₂
          (hOld i _ hSame hOut) (hOld i' _ hSame' hOut')
  · rw [hTable, hInside]
    exact hBooked.table

/- It is bound to who took it. -/
theorem Booked.register
    (hBooked : Booked ssl start events c)
    (hStep : step ssl c e = some c')
    (hBefore : c.entering t = some (key, ref))
    (hTable :
      c'.pending = (c.registerPending key ref).pending)
    (hInside :
      c'.inside =
        Function.update c.inside t (some (key, ref)))
    (hEntering :
      c'.entering = Function.update c.entering t none) :
    Booked ssl start (events ++ [e]) c' := by
  have hFree := hBooked.lookup_of_entering hBefore
  have hInsert : c'.pending = c.pending.insert key ref := by
    rw [hTable, Client.registerPending, if_neg]
    rw [← AList.lookup_isSome, hFree]
    exact Bool.false_ne_true
  refine hBooked.fewer hStep ?_ ?_
  · rintro i tag (hTag | hTag)
    · rw [hEntering] at hTag
      by_cases hSame : i = t
      · subst hSame
        rw [Function.update_self] at hTag
        cases hTag
      · rw [Function.update_of_ne hSame] at hTag
        exact Or.inl hTag
    · rw [hInside] at hTag
      by_cases hSame : i = t
      · subst hSame
        rw [Function.update_self] at hTag
        cases hTag
        exact Or.inl hBefore
      · rw [Function.update_of_ne hSame] at hTag
        exact Or.inr hTag
  · intro key' ref'
    rw [hInsert, hInside]
    constructor
    · intro hLookup
      by_cases hSame : key' = key
      · subst hSame
        rw [AList.lookup_insert] at hLookup
        cases hLookup
        exact ⟨t, Function.update_self _ _ _⟩
      · rw [AList.lookup_insert_ne hSame] at hLookup
        rcases (hBooked.table key' ref').mp hLookup with
          ⟨i, hOld⟩
        refine ⟨i, ?_⟩
        rw [Function.update_of_ne, hOld]
        rintro rfl
        rw [inside_of_entering hBefore] at hOld
        cases hOld
    · rintro ⟨i, hOld⟩
      by_cases hSame : i = t
      · subst hSame
        rw [Function.update_self] at hOld
        cases hOld
        exact AList.lookup_insert _
      · rw [Function.update_of_ne hSame] at hOld
        rw [AList.lookup_insert_ne]
        · exact (hBooked.table key' ref').mpr ⟨i, hOld⟩
        · rintro rfl
          exact hSame (hBooked.distinct i t key' ref' ref
            (Or.inr hOld) (Or.inl hBefore))

/- It is freed, and no other is. -/
theorem Booked.leave
    (hBooked : Booked ssl start events c)
    (hStep : step ssl c e = some c')
    (hBefore : c.inside t = some (key, ref))
    (hTable : c'.pending = c.pending.erase key)
    (hInside :
      c'.inside = Function.update c.inside t none)
    (hEntering : c'.entering = c.entering) :
    Booked ssl start (events ++ [e]) c' := by
  have hOther :
      ∀ i tag, c'.inside i = some tag →
        i ≠ t ∧ c.inside i = some tag := by
    intro i tag hTag
    rw [hInside] at hTag
    by_cases hSame : i = t
    · subst hSame
      rw [Function.update_self] at hTag
      cases hTag
    · rw [Function.update_of_ne hSame] at hTag
      exact ⟨hSame, hTag⟩
  refine hBooked.fewer hStep ?_ ?_
  · rintro i tag (hTag | hTag)
    · rw [hEntering] at hTag
      exact Or.inl hTag
    · exact Or.inr (hOther i tag hTag).2
  · intro key' ref'
    rw [hTable]
    constructor
    · intro hLookup
      have hKept : key' ≠ key := by
        rintro rfl
        rw [AList.lookup_erase] at hLookup
        cases hLookup
      rw [AList.lookup_erase_ne hKept] at hLookup
      rcases (hBooked.table key' ref').mp hLookup with
        ⟨i, hOld⟩
      refine ⟨i, ?_⟩
      rw [hInside, Function.update_of_ne, hOld]
      rintro rfl
      rw [hBefore] at hOld
      cases hOld
      exact hKept rfl
    · rintro ⟨i, hOld⟩
      rcases hOther i _ hOld with ⟨hSame, hWas⟩
      rw [AList.lookup_erase_ne]
      · exact (hBooked.table key' ref').mpr ⟨i, hWas⟩
      · rintro rfl
        exact hSame (hBooked.distinct i t key' ref' ref
          (Or.inr hWas) (Or.inr hBefore))

/- Every event keeps the books. -/
theorem Booked.step
    (hBooked : Booked ssl start events c)
    (hRun : Machine.run (Snmpio.step ssl) start events = some c)
    (hStep : Snmpio.step ssl c e = some c')
    (hReturns : returnsNormally c e = true)
    (hFew : FewIds ssl start (events ++ [e])) :
    Booked ssl start (events ++ [e]) c' := by
  cases step_exchange hStep hReturns with
  | kept hTable hId hInside hEntering =>
      refine hBooked.fewer hStep ?_ ?_
      · rintro t tag (hTag | hTag)
        · rcases hEntering t with hSame | hNone
          · exact Or.inl (hSame ▸ hTag)
          · rw [hNone] at hTag
            cases hTag
        · exact Or.inr (hInside ▸ hTag)
      · rw [hTable, hInside]
        exact hBooked.table
  | opened hTable hId hNone hInside hEntering =>
      exact hBooked.open hRun hStep hFew hTable hId hNone
        hInside hEntering
  | registered hBefore hTable hId hInside hEntering =>
      exact hBooked.register hStep hBefore hTable hInside
        hEntering
  | left hBefore hTable hId hInside hEntering =>
      exact hBooked.leave hStep hBefore hTable hInside
        hEntering

/- So they are right in every run. -/
theorem booked_of_run
    {id : Int32}
    {now : Int}
    (hId : 1 ≤ id.toInt)
    (hRun :
      Machine.run
        (Machine.guarded (Snmpio.step ssl) returnsNormally)
        (fresh id now) events = some c)
    (hFew : FewIds ssl (fresh id now) events) :
    Booked ssl (fresh id now) events c := by
  revert hFew
  refine Machine.run_invariant
    (P := fun events c =>
      FewIds ssl (fresh id now) events →
        Booked ssl (fresh id now) events c) ?_ ?_ hRun
  · intro _
    have hNone :
        ∀ t tag, ¬ Outstanding (fresh id now) t tag := by
      rintro t tag (hTag | hTag)
      · cases hTag
      · cases hTag
    refine ⟨hId, fun t tag hOut => absurd hOut (hNone t tag),
      fun t tag hOut => absurd hOut (hNone t tag),
      fun t _ key ref _ hOut => absurd hOut (hNone t (key, ref)),
      ?_⟩
    intro key ref
    constructor
    · intro hLookup
      cases hLookup
    · rintro ⟨t, hInside⟩
      exact absurd (Or.inr hInside) (hNone t (key, ref))
  · intro events c e c' hBefore ih hStep hFew
    rcases Machine.guarded_eq_some.mp hStep with
      ⟨hReturns, hStep⟩
    exact (ih hFew.before).step
      (Machine.run_of_guarded hBefore) hStep hReturns hFew

/-
  `transact` returns: its exchange is outstanding no more.
-/
def Concluded
    (c c' : Client)
    (t : Nat)
    (key : Int32)
    (ref : Nat) : Prop :=
  Outstanding c t (key, ref) ∧ ¬ Outstanding c' t (key, ref)

/- At its end an exchange has left the table. -/
theorem Booked.concluded
    (hBooked : Booked ssl start events c)
    (hStep : Snmpio.step ssl c e = some c')
    (hReturns : returnsNormally c e = true)
    (hConcluded : Concluded c c' t key ref) :
    c'.pending.lookup key = none ∧
      ∀ other, other ≠ key →
        c'.pending.lookup other = c.pending.lookup other := by
  rcases hConcluded with ⟨hOut, hOver⟩
  -- It was refused before it was registered.
  have hRefused :
      c'.pending = c.pending → c'.inside = c.inside →
        c'.pending.lookup key = none ∧
          ∀ other, other ≠ key →
            c'.pending.lookup other =
              c.pending.lookup other := by
    intro hTable hInside
    rw [hTable]
    refine ⟨?_, fun _ _ => rfl⟩
    rcases hOut with hEntering | hWas
    · exact hBooked.lookup_of_entering hEntering
    · exact absurd (Or.inr (hInside ▸ hWas)) hOver
  cases step_exchange hStep hReturns with
  | kept hTable _ hInside _ => exact hRefused hTable hInside
  | opened hTable _ _ hInside _ =>
      exact hRefused hTable hInside
  | @registered i _ _ hBefore _ _ hInside hEntering =>
      refine absurd ?_ hOver
      by_cases hSame : t = i
      · subst hSame
        right
        rcases hOut with hWas | hWas
        · rw [hInside, Function.update_self, ← hBefore, hWas]
        · rw [inside_of_entering hBefore] at hWas
          cases hWas
      · rcases hOut with hWas | hWas
        · left
          rw [hEntering, Function.update_of_ne hSame, hWas]
        · right
          rw [hInside, Function.update_of_ne hSame, hWas]
  | @left i ref' key' hBefore hTable _ hInside hEntering =>
      by_cases hSame : t = i
      · subst hSame
        rcases hOut with hWas | hWas
        · rw [entering_of_inside hBefore] at hWas
          cases hWas
        · rw [hBefore] at hWas
          cases hWas
          rw [hTable]
          exact ⟨AList.lookup_erase _ _,
            fun _ hOther => AList.lookup_erase_ne hOther⟩
      · refine absurd ?_ hOver
        rcases hOut with hWas | hWas
        · exact Or.inl (hEntering ▸ hWas)
        · right
          rw [hInside, Function.update_of_ne hSame, hWas]

/-
  The keys of `m_pending` are the ids of the exchanges inside
  of `transact`, each with its own `Pending`, and `transact`
  returns with its own entry gone and no other.  Ids, and the
  counter they are taken from, are in the range of a msgID.
-/
theorem pending_table_exact
    {id : Int32}
    {now : Int}
    (hId : 1 ≤ id.toInt)
    (hRun :
      Machine.run
        (Machine.guarded (Snmpio.step ssl) returnsNormally)
        (fresh id now) events = some c)
    (hFew : FewIds ssl (fresh id now) events) :
    (∀ key ref, c.pending.lookup key = some ref ↔
      ∃ t, c.inside t = some (key, ref)) ∧
    (∀ t t' key ref ref', c.inside t = some (key, ref) →
      c.inside t' = some (key, ref') → t = t') ∧
    (∀ key ref, c.pending.lookup key = some ref →
      ∃ p, c.pendings[ref]? = some p ∧ p.requestId = key) ∧
    (∀ t key ref, Outstanding c t (key, ref) →
      1 ≤ key.toInt ∧ key.toInt ≤ idCount) ∧
    (1 ≤ c.nextId.toInt ∧ c.nextId.toInt ≤ idCount) ∧
    (∀ e c' t key ref, returnsNormally c e = true →
      Snmpio.step ssl c e = some c' →
      Concluded c c' t key ref →
        c'.pending.lookup key = none ∧
          ∀ other, other ≠ key →
            c'.pending.lookup other =
              c.pending.lookup other) := by
  have hBooked := booked_of_run hId hRun hFew
  have hSound := sound_of_run (Machine.run_of_guarded hRun)
  refine ⟨hBooked.table, ?_, hSound.core.registered, ?_,
    ⟨hBooked.counter, toInt_le_idCount c.nextId⟩, ?_⟩
  · intro t t' key ref ref' hInside hInside'
    exact hBooked.distinct t t' key ref ref'
      (Or.inr hInside) (Or.inr hInside')
  · intro t key ref hOut
    exact ⟨hBooked.range t (key, ref) hOut,
      toInt_le_idCount key⟩
  · intro e c' t key ref hReturns hStep hConcluded
    exact hBooked.concluded hStep hReturns hConcluded

theorem idsIssued_le_length
    (ssl : OpenSsl)
    (c : Client)
    (events : List Event) :
    idsIssued ssl c events ≤ events.length := by
  induction events generalizing c with
  | nil => exact Nat.le_refl 0
  | cons e rest ih =>
      rw [idsIssued, List.length_cons]
      split
      · exact Nat.zero_le _
      · next c' _ =>
        have hRest := ih c'
        split
        · omega
        · omega

/- A short run issues few ids. -/
theorem FewIds.of_length
    (ssl : OpenSsl)
    (start : Client)
    (hShort : events.length < idCount) :
    FewIds ssl start events := by
  rintro before during rest c₁ c₂ t tag rfl _ _ _ _
  have hIssued := idsIssued_le_length ssl c₁ during
  rw [List.length_append, List.length_append] at hShort
  omega

theorem askedRun_pending :
    (Machine.run
      (Machine.guarded (Snmpio.step agentSsl) returnsNormally)
      (fresh 1 0) askedRun).map
        (fun c => c.pending.lookup 3) = some (some 2) := by
  decide +kernel

/- The request that waits is the one that is registered. -/
theorem pending_table_exact_sample :
    ∃ c t,
      Machine.run
          (Machine.guarded (Snmpio.step agentSsl)
            returnsNormally)
          (fresh 1 0) askedRun = some c ∧
        c.pending.lookup 3 = some 2 ∧
        c.inside t = some (3, 2) := by
  rcases Option.map_eq_some_iff.mp askedRun_pending with
    ⟨c, hRun, hLookup⟩
  have hShort : askedRun.length < idCount := by decide
  rcases ((pending_table_exact (by decide) hRun
    (FewIds.of_length agentSsl (fresh 1 0) hShort)).1 3 2).mp
      hLookup with ⟨t, hInside⟩
  exact ⟨c, t, hRun, hLookup, hInside⟩

end Snmpio
