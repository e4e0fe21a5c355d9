import Snmpio.Client.Authority

/-
  A Client that is served by one Engine.

  While only the Engine answers, and no time passes, every
  order in which the steps of the Client may come leads to
  the end of the exchange that is under way.

  Key definitions include:
    * `Authority.Serves`
    * `Scene`

  Key theorems include:
    * `exchange_inevitable`
    * `transact_inevitable`
-/

------------------------------------------------------------
-- Whose Turn It Is
------------------------------------------------------------

namespace Snmpio

variable {x : Exchange}

/-
  What happens while only the Engine answers and no time
  passes: sockets open, sends succeed, and what is waited
  for is answered, once the wait has begun.
-/
def Authority.Serves
    (E : Authority)
    (c : Client) :
    Event → Prop
| .advance out => out.opened = none
| .sent _ ec => ec = none
| .receive sender datagram =>
    ∃ (t : Nat) (task : Task) (x : Exchange) (deadline : Int)
      (soft : Bool),
      c.tasks[t]? = some task ∧
        task.point = .waiting x deadline soft false ∧
        sender = task.target.endpoint ∧
        datagram = E.answer x.datagram
| .expire _ => True
| .resume _ => True
| _ => False

/- Nothing happens to it by itself. -/
def Point.isInert :
    Point → Bool
| .parking _ => true
| .parked _ false => true
| point => point.isOver

def Client.Alone
    (c : Client)
    (t : Nat) : Prop :=
  ∀ i other, c.tasks[i]? = some other → i ≠ t →
    other.point.isInert = true

variable {ssl : OpenSsl} {E : Authority} {c c' : Client}
variable {P : Client → Prop} {t : Nat} {rest : List Nat}
variable {task : Task} {e : Event}

theorem Client.Alone.waiting
    (hAlone : c.Alone t)
    {i : Nat}
    {other : Task}
    (hOther : c.tasks[i]? = some other)
    {deadline : Int}
    {soft woken : Bool}
    (hPoint : other.point = .waiting x deadline soft woken) :
    i = t := by
  by_contra hNe
  have hInert := hAlone i other hOther hNe
  rw [hPoint] at hInert
  cases hInert

/- While the strand is busy, its first task moves. -/
theorem inevitable_advance
    (hStrand : c.strand = t :: rest)
    (hTask : c.tasks[t]? = some task)
    (hStill :
      ∀ (i : Nat) (other : Task) (x : Exchange)
        (deadline : Int) (soft woken : Bool),
        c.tasks[i]? = some other →
          other.point ≠ .waiting x deadline soft woken)
    (hNext :
      ∀ out : Outside, out.opened = none →
        ∃ c₁ task₁ spawned,
          runTask ssl out c task = some (c₁, task₁, spawned) ∧
            Machine.Inevitable (step ssl) E.Serves P
              (c₁.settle t rest task₁ spawned)) :
    Machine.Inevitable (step ssl) E.Serves P c := by
  have hBusy : c.isIdle = false := by
    rw [Client.isIdle, hStrand]
    rfl
  have hStep
      {out : Outside}
      {c₁ : Client}
      {task₁ : Task}
      {spawned : Option Task}
      (hRun :
        runTask ssl out c task = some (c₁, task₁, spawned)) :
      step ssl c (.advance out) =
        some (c₁.settle t rest task₁ spawned) := by
    simp only [step, advance, hStrand, hTask,
      Option.bind_eq_bind, Option.bind_some, hRun]
  refine .next ?_ ?_
  · rcases hNext {} rfl with ⟨c₁, task₁, spawned, hRun, _⟩
    exact ⟨.advance {}, _, rfl, hStep hRun⟩
  · intro e c' hOk hStep'
    cases e with
    | advance out =>
        rcases hNext out hOk with
          ⟨c₁, task₁, spawned, hRun, hThen⟩
        rw [hStep hRun] at hStep'
        cases hStep'
        exact hThen
    | receive sender datagram =>
        simp [step, hBusy] at hStep'
    | sent i ec => simp [step, hBusy] at hStep'
    | resume i => simp [step, hBusy] at hStep'
    | expire i =>
        simp only [step, onExpire, Option.bind_eq_bind,
          Option.bind_eq_some_iff] at hStep'
        rcases hStep' with ⟨other, hOther, hExpired⟩
        split at hExpired
        · next hPoint =>
          exact absurd hPoint (hStill _ _ _ _ _ _ hOther)
        · cases hExpired
    | _ => exact hOk.elim

/- While it is idle, one task's turn comes. -/
theorem idle_cases
    (hIdle : c.strand = [])
    (hTask : c.tasks[t]? = some task)
    (hAlone : c.Alone t)
    (hOk : E.Serves c e)
    (hStep : step ssl c e = some c') :
    (e = .sent t none ∧ ∃ x, task.point = .sending x) ∨
      (∃ x deadline soft,
        task.point = .waiting x deadline soft false ∧
          e = .receive task.target.endpoint
            (E.answer x.datagram)) ∨
      (e = .resume t ∧
        ((∃ x deadline soft,
            task.point = .waiting x deadline soft true) ∨
          ∃ d, task.point = .parked d true)) ∨
      ∃ x deadline soft woken,
        task.point = .waiting x deadline soft woken ∧
          deadline ≤ c.now := by
  have hSame {i : Nat} {other : Task}
      (hOther : c.tasks[i]? = some other)
      (hLive : other.point.isInert = false) :
      i = t ∧ other = task := by
    by_cases hEq : i = t
    · subst hEq
      rw [hTask] at hOther
      cases hOther
      exact ⟨rfl, rfl⟩
    · rw [hAlone i other hOther hEq] at hLive
      cases hLive
  cases e with
  | advance out => simp [step, advance, hIdle] at hStep
  | receive sender datagram =>
      rcases hOk with
        ⟨i, other, x, deadline, soft, hOther, hPoint, rfl,
          rfl⟩
      rcases hSame hOther (by rw [hPoint]; rfl) with
        ⟨rfl, rfl⟩
      exact Or.inr (Or.inl ⟨x, deadline, soft, hPoint, rfl⟩)
  | sent i ec =>
      cases hOk
      simp only [step, Client.isIdle, hIdle,
        List.isEmpty_nil, if_true, onSent,
        Option.bind_eq_bind, Option.bind_eq_some_iff] at hStep
      rcases hStep with ⟨other, hOther, hSent⟩
      split at hSent
      · next x hPoint =>
        rcases hSame hOther (by rw [hPoint]; rfl) with
          ⟨rfl, rfl⟩
        exact Or.inl ⟨rfl, x, hPoint⟩
      · cases hSent
  | expire i =>
      simp only [step, onExpire, Option.bind_eq_bind,
        Option.bind_eq_some_iff] at hStep
      rcases hStep with ⟨other, hOther, hExpired⟩
      split at hExpired
      · next x deadline soft woken hPoint =>
        rcases hSame hOther (by rw [hPoint]; rfl) with
          ⟨rfl, rfl⟩
        split at hExpired
        · next hPast =>
          exact Or.inr (Or.inr (Or.inr
            ⟨x, deadline, soft, woken, hPoint, hPast⟩))
        · cases hExpired
      · cases hExpired
  | resume i =>
      simp only [step, Client.isIdle, hIdle,
        List.isEmpty_nil, if_true, onResume,
        Option.bind_eq_bind, Option.bind_eq_some_iff] at hStep
      rcases hStep with ⟨other, hOther, hResumed⟩
      split at hResumed
      · next x deadline soft hPoint =>
        rcases hSame hOther (by rw [hPoint]; rfl) with
          ⟨rfl, rfl⟩
        exact Or.inr (Or.inr (Or.inl
          ⟨rfl, Or.inl ⟨x, deadline, soft, hPoint⟩⟩))
      · next d hPoint =>
        rcases hSame hOther (by rw [hPoint]; rfl) with
          ⟨rfl, rfl⟩
        exact Or.inr (Or.inr (Or.inl
          ⟨rfl, Or.inr ⟨d, hPoint⟩⟩))
      · cases hResumed
  | _ => exact hOk.elim

theorem inevitable_sent
    (hIdle : c.strand = [])
    (hTask : c.tasks[t]? = some task)
    (hAlone : c.Alone t)
    (hPoint : task.point = .sending x)
    (hThen :
      Machine.Inevitable (step ssl) E.Serves P
        (c.place t [] (task.goto
          (afterSend c task { x with ec := none })))) :
    Machine.Inevitable (step ssl) E.Serves P c := by
  have hOk : E.Serves c (.sent t none) := rfl
  refine Machine.Inevitable.only hOk ?_ ?_ hThen
  · simp [step, Client.isIdle, hIdle, onSent, hTask, hPoint]
  · intro e c' hOk' hStep
    rcases idle_cases hIdle hTask hAlone hOk' hStep with
      ⟨rfl, _⟩ | ⟨_, _, _, hNot, _⟩ |
        ⟨_, ⟨_, _, _, hNot⟩ | ⟨_, hNot⟩⟩ |
        ⟨_, _, _, _, hNot, _⟩
    · rfl
    all_goals
      rw [hPoint] at hNot
      cases hNot

theorem inevitable_receive
    (hIdle : c.strand = [])
    (hTask : c.tasks[t]? = some task)
    (hAlone : c.Alone t)
    {deadline : Int}
    {soft : Bool}
    (hPoint : task.point = .waiting x deadline soft false)
    (hEarly : c.now < deadline)
    (hSocket :
      c.slot task.target.endpoint.v6 = some .listening)
    (hThen :
      Machine.Inevitable (step ssl) E.Serves P
        (c.receive ssl (E.answer x.datagram)
          task.target.endpoint)) :
    Machine.Inevitable (step ssl) E.Serves P c := by
  have hOk :
      E.Serves c (.receive task.target.endpoint
        (E.answer x.datagram)) :=
    ⟨t, task, x, deadline, soft, hTask, hPoint, rfl, rfl⟩
  refine Machine.Inevitable.only hOk ?_ ?_ hThen
  · simp [step, Client.isIdle, hIdle, hSocket]
  · intro e c' hOk' hStep
    rcases idle_cases hIdle hTask hAlone hOk' hStep with
      ⟨_, _, hNot⟩ | ⟨y, _, _, hSame, rfl⟩ |
        ⟨_, ⟨_, _, _, hNot⟩ | ⟨_, hNot⟩⟩ |
        ⟨_, _, _, _, hSame, hPast⟩
    · rw [hPoint] at hNot
      cases hNot
    · rw [hPoint] at hSame
      cases hSame
      rfl
    · rw [hPoint] at hNot
      cases hNot
    · rw [hPoint] at hNot
      cases hNot
    · rw [hPoint] at hSame
      cases hSame
      omega

theorem inevitable_resume
    (hIdle : c.strand = [])
    (hTask : c.tasks[t]? = some task)
    (hAlone : c.Alone t)
    (hPoint :
      (∃ x deadline soft,
        task.point = .waiting x deadline soft true ∧
          c.now < deadline) ∨
        ∃ d, task.point = .parked d true)
    (hResume : onResume c t = some c')
    (hThen : Machine.Inevitable (step ssl) E.Serves P c') :
    Machine.Inevitable (step ssl) E.Serves P c := by
  have hOk : E.Serves c (.resume t) := trivial
  refine Machine.Inevitable.only hOk ?_ ?_ hThen
  · simp [step, Client.isIdle, hIdle, hResume]
  · intro e c' hOk' hStep
    rcases idle_cases hIdle hTask hAlone hOk' hStep with
      ⟨_, _, hNot⟩ | ⟨_, _, _, hNot, _⟩ | ⟨rfl, _⟩ |
        ⟨_, _, _, _, hSame, hPast⟩
    · rcases hPoint with ⟨_, _, _, hIs, _⟩ | ⟨_, hIs⟩
      all_goals
        rw [hIs] at hNot
        cases hNot
    · rcases hPoint with ⟨_, _, _, hIs, _⟩ | ⟨_, hIs⟩
      all_goals
        rw [hIs] at hNot
        cases hNot
    · rfl
    · rcases hPoint with ⟨_, _, _, hIs, hEarly⟩ | ⟨_, hIs⟩
      · rw [hIs] at hSame
        cases hSame
        omega
      · rw [hIs] at hSame
        cases hSame

end Snmpio

------------------------------------------------------------
-- Exchanges
------------------------------------------------------------

namespace Snmpio

variable {ssl : OpenSsl} {E : Authority} {c c' c'' : Client}
variable {P : Client → Prop} {t : Nat}
variable {rest strand : List Nat} {task : Task}
variable {x : Exchange} {p p' : Pending}

/-
  There is a timeout to wait for, its nanoseconds fit, and
  the clock is not at its end.
-/
structure Target.Waits
    (target : Target)
    (now : Int) : Prop where
  positive : 0 < target.timeout
  fits : target.timeout ≤ 9223372036854
  clock : now < clockEnd

/- Then a wait that begins now is not over at once. -/
theorem Target.Waits.later
    {target : Target}
    {now : Int}
    (hWaits : target.Waits now) :
    now < expiresAfter now target.timeout := by
  rcases hWaits with ⟨hPositive, hFits, hClock⟩
  have hSpan :
      nanoseconds target.timeout =
        target.timeout * 1000000 := by
    unfold nanoseconds
    exact Int.bmod_eq_of_le (by omega) (by omega)
  unfold expiresAfter
  rw [hSpan]
  omega

/- A coroutine that is being served. -/
structure Scene
    (ssl : OpenSsl)
    (c : Client)
    (t : Nat)
    (task : Task)
    (strand : List Nat) : Prop where
  going : c.stopping = false
  socket :
    c.slot task.target.endpoint.v6 = none ∨
      c.slot task.target.endpoint.v6 = some .listening
  keys : c.keys.Sound ssl
  found : c.tasks[t]? = some task
  alone : c.Alone t
  strand : c.strand = strand
  retries : 0 ≤ task.target.retries
  timeout : task.target.Waits c.now
  calm : task.cancelled = {}

/- No exchange is registered, or just one. -/
def Client.Clear
    (c : Client) : Prop :=
  ∀ key, c.pending.lookup key = none

def Client.Holds
    (c : Client)
    (key : Int32)
    (ref : Nat) : Prop :=
  ∀ other, c.pending.lookup other =
    if other = key then some ref else none

theorem Client.Holds.findPending
    {key : Int32}
    {ref : Nat}
    (hHolds : c.Holds key ref)
    (hp : c.pendings[ref]? = some p) :
    c.findPending key = some (ref, p) := by
  have hFound : c.pending.lookup key = some ref := by
    rw [hHolds key, if_pos rfl]
  simp [Client.findPending, hFound, hp]

/- What a step of a coroutine leaves as it is. -/
structure Frame
    (t : Nat)
    (c c' : Client) : Prop where
  cache : c'.cache = c.cache
  now : c'.now = c.now
  keys : c'.keys = c.keys
  discoveries : c'.discoveries = c.discoveries
  discovering : c'.discovering = c.discovering
  others : ∀ i, i ≠ t → c'.tasks[i]? = c.tasks[i]?

theorem Frame.trans
    (hFirst : Frame t c c')
    (hThen : Frame t c' c'') :
    Frame t c c'' where
  cache := hThen.cache.trans hFirst.cache
  now := hThen.now.trans hFirst.now
  keys := hThen.keys.trans hFirst.keys
  discoveries := hThen.discoveries.trans hFirst.discoveries
  discovering := hThen.discovering.trans hFirst.discovering
  others := fun i hNe =>
    (hThen.others i hNe).trans (hFirst.others i hNe)

theorem Frame.alone
    (hFrame : Frame t c c')
    (hAlone : c.Alone t) :
    c'.Alone t := by
  intro i other hOther hNe
  rw [hFrame.others i hNe] at hOther
  exact hAlone i other hOther hNe

theorem Frame.place
    (c : Client)
    (t : Nat)
    (rest : List Nat)
    (task : Task) :
    Frame t c (c.place t rest task) where
  cache := rfl
  now := rfl
  keys := rfl
  discoveries := rfl
  discovering := rfl
  others := fun _ hNe =>
    List.getElem?_set_ne (fun hEq => hNe hEq.symm)

/- The coroutine goes on to a point of its own code. -/
theorem Scene.goto
    (hScene : Scene ssl c t task strand)
    (rest : List Nat)
    (point : Point) :
    Scene ssl (c.place t rest (task.goto point)) t
      (task.goto point)
      (if point.runs then t :: rest else rest) where
  going := hScene.going
  socket := hScene.socket
  keys := hScene.keys
  found :=
    List.getElem?_set_self
      (List.getElem?_eq_some_iff.mp hScene.found).1
  alone := (Frame.place c t rest _).alone hScene.alone
  strand := rfl
  retries := hScene.retries
  timeout := hScene.timeout
  calm := hScene.calm

/- Nobody waits for a deadline, but for the one who runs. -/
theorem Scene.still
    (hScene : Scene ssl c t task strand)
    (hPoint :
      ∀ x deadline soft woken,
        task.point ≠ .waiting x deadline soft woken) :
    ∀ (i : Nat) (other : Task) (x : Exchange)
      (deadline : Int) (soft woken : Bool),
      c.tasks[i]? = some other →
        other.point ≠ .waiting x deadline soft woken := by
  intro i other x deadline soft woken hOther hWaiting
  cases hScene.alone.waiting hOther hWaiting
  rw [hScene.found] at hOther
  cases hOther
  exact hPoint x deadline soft woken hWaiting

theorem socketFor_ok
    {endpoint : Endpoint}
    (hSocket :
      c.slot endpoint.v6 = none ∨
        c.slot endpoint.v6 = some .listening) :
    ∃ v4 v6,
      c.socketFor endpoint none =
          .ok { c with v4 := v4, v6 := v6 } ∧
        Client.slot { c with v4 := v4, v6 := v6 }
          endpoint.v6 = some .listening := by
  unfold Client.socketFor
  rcases hSocket with hNone | hOpen
  · rw [hNone, if_neg (by decide)]
    cases hFamily : endpoint.v6 with
    | true => exact ⟨c.v4, some .listening, rfl, rfl⟩
    | false => exact ⟨some .listening, c.v6, rfl, rfl⟩
  · rw [hOpen, if_pos (by decide)]
    exact ⟨c.v4, c.v6, rfl, hOpen⟩

/- The exchange is registered, and its first copy sent. -/
theorem enter_inevitable
    (hScene : Scene ssl c t task (t :: rest))
    (hPoint : task.point = .entering x)
    (hFirst : x.attempt = 0)
    (hClear : c.Clear)
    (hThen :
      ∀ c', Scene ssl c' t (task.goto (.sending x)) rest →
        Frame t c c' → c'.pendings = c.pendings →
        c'.Holds x.key x.pending →
        c'.slot task.target.endpoint.v6 = some .listening →
          Machine.Inevitable (step ssl) E.Serves P c') :
    Machine.Inevitable (step ssl) E.Serves P c := by
  refine inevitable_advance hScene.strand hScene.found
    (hScene.still (by rw [hPoint]; simp)) ?_
  intro out hOpened
  rcases socketFor_ok hScene.socket with
    ⟨v4, v6, hSocketFor, hListening⟩
  have hNew : x.key ∉ c.pending := by
    rw [← AList.lookup_eq_none]
    exact hClear x.key
  let entered : Client :=
    { c with
      v4 := v4
      v6 := v6
      pending := c.pending.insert x.key x.pending }
  have hEnter :
      enterTransact out c task x =
        (entered, task.goto (.sending x)) := by
    rw [enterTransact, if_neg (by rw [hScene.going]; decide),
      hOpened, hSocketFor]
    dsimp only
    rw [Client.registerPending, if_neg hNew, attemptPoint,
      if_pos (by rw [hFirst]; exact hScene.retries)]
  have hRun :
      runTask ssl out c task =
        some (entered, task.goto (.sending x), none) := by
    simp only [runTask, hPoint, hEnter]
  refine ⟨_, _, _, hRun, ?_⟩
  have hEntered : Scene ssl entered t task (t :: rest) :=
    ⟨hScene.going, Or.inr hListening, hScene.keys,
      hScene.found, hScene.alone, hScene.strand,
      hScene.retries, hScene.timeout, hScene.calm⟩
  have hFrame : Frame t c entered :=
    ⟨rfl, rfl, rfl, rfl, rfl, fun _ _ => rfl⟩
  refine hThen _ (hEntered.goto rest (.sending x))
    (hFrame.trans (Frame.place entered t rest _)) rfl ?_
    hListening
  intro other
  change (c.pending.insert x.key x.pending).lookup other = _
  split
  · next hSame =>
    subst hSame
    exact AList.lookup_insert c.pending
  · next hNe =>
    rw [AList.lookup_insert_ne hNe]
    exact hClear other

/- A timer of an exchange wakes nobody else. -/
theorem Task.wakeOn_inert
    {other : Task}
    (hInert : other.point.isInert = true)
    (ref : Nat) :
    other.wakeOn [.pending ref] = other := by
  unfold Task.wakeOn
  rw [if_neg]
  cases hPoint : other.point with
  | waiting y deadline soft woken =>
      rw [hPoint] at hInert
      cases hInert
  | parked d woken => simp [Point.timer?]
  | _ => simp [Point.timer?]

/- An accepted datagram ends the wait it answers. -/
def Client.take
    (c : Client)
    (ref : Nat)
    (p : Pending) : Client :=
  { c with pendings := c.pendings.set ref p }.cancelTimers
    [.pending ref]

theorem Scene.take
    (hScene : Scene ssl c t task strand)
    {deadline : Int}
    {soft woken : Bool}
    (hPoint : task.point = .waiting x deadline soft woken)
    (p : Pending) :
    Scene ssl (c.take x.pending p) t
        (task.goto (.waiting x deadline soft true)) strand ∧
      Frame t c (c.take x.pending p) := by
  have hFrame : Frame t c (c.take x.pending p) := by
    refine ⟨rfl, rfl, rfl, rfl, rfl, ?_⟩
    intro i hNe
    simp only [Client.take, Client.cancelTimers,
      List.getElem?_map]
    cases hOther : c.tasks[i]? with
    | none => rfl
    | some other =>
        have hInert := hScene.alone i other hOther hNe
        rw [Option.map_some, Task.wakeOn_inert hInert]
  have hWoken :
      task.wakeOn [.pending x.pending] =
        task.goto (.waiting x deadline soft true) := by
    simp [Task.wakeOn, hPoint, Point.timer?, Point.wake,
      Task.goto]
  refine ⟨⟨hScene.going, hScene.socket, hScene.keys, ?_,
    hFrame.alone hScene.alone, hScene.strand, hScene.retries,
    hScene.timeout, hScene.calm⟩, hFrame⟩
  simp only [Client.take, Client.cancelTimers,
    List.getElem?_map, hScene.found, Option.map_some, hWoken]

theorem Scene.resume
    (hScene : Scene ssl c t task strand)
    {deadline : Int}
    {soft : Bool}
    (hPoint : task.point = .waiting x deadline soft true)
    (hp : c.pendings[x.pending]? = some p)
    (hAnswered : p.answered = true) :
    onResume c t =
      some (c.place t [] (task.goto (.leaving x))) := by
  have hWait :
      afterWait c task x deadline soft p = .leaving x := by
    rw [afterWait, if_pos (Or.inr (Or.inl hAnswered))]
  simp only [onResume, hScene.found, Option.bind_eq_bind,
    Option.bind_some, hPoint, hp, hWait]

/- An exchange that has its reply is left. -/
theorem leave_inevitable
    (hScene : Scene ssl c t task [t])
    (hPoint : task.point = .leaving x)
    (hp : c.pendings[x.pending]? = some p)
    (hAnswered : p.answered = true)
    (hHolds : c.Holds x.key x.pending)
    (hThen :
      ∀ c', Scene ssl c' t (task.goto (.returned x none))
          [t] →
        Frame t c c' → c'.pendings = c.pendings →
        c'.Clear →
          Machine.Inevitable (step ssl) E.Serves P c') :
    Machine.Inevitable (step ssl) E.Serves P c := by
  refine inevitable_advance hScene.strand hScene.found
    (hScene.still (by rw [hPoint]; simp)) ?_
  intro out _
  have hResult : transactResult c task x p = none := by
    rw [transactResult, hScene.calm, if_neg (by decide),
      if_pos ⟨hAnswered, by rw [hScene.going]; decide⟩]
  let left : Client :=
    { c with pending := c.pending.erase x.key }
  have hRun :
      runTask ssl out c task =
        some (left, task.goto (.returned x none), none) := by
    simp only [runTask, hPoint, hp, Option.bind_eq_bind,
      Option.bind_some, leaveTransact, hResult]
    rfl
  refine ⟨_, _, _, hRun, ?_⟩
  have hLeft : Scene ssl left t task [t] :=
    ⟨hScene.going, hScene.socket, hScene.keys, hScene.found,
      hScene.alone, hScene.strand, hScene.retries,
      hScene.timeout, hScene.calm⟩
  have hFrame : Frame t c left :=
    ⟨rfl, rfl, rfl, rfl, rfl, fun _ _ => rfl⟩
  refine hThen _ (hLeft.goto [] (.returned x none))
    (hFrame.trans (Frame.place left t [] _)) rfl ?_
  intro other
  change (c.pending.erase x.key).lookup other = none
  by_cases hSame : other = x.key
  · subst hSame
    exact AList.lookup_erase x.key c.pending
  · rw [AList.lookup_erase_ne hSame, hHolds other,
      if_neg hSame]

/- It is answered, and `transact` returns. -/
theorem exchange_inevitable
    (hScene : Scene ssl c t task [])
    (hPoint : task.point = .sending x)
    (hSocket :
      c.slot task.target.endpoint.v6 = some .listening)
    (hHolds : c.Holds x.key x.pending)
    (hp : c.pendings[x.pending]? = some p)
    (hRoute :
      c.route ssl (E.answer x.datagram)
          task.target.endpoint =
        some (x.pending, p, .accept p'))
    (hThen :
      ∀ c', Scene ssl c' t
          (task.goto (.returned { x with ec := none } none))
          [t] →
        Frame t c c' → c'.pendings[x.pending]? = some p' →
        c'.Clear →
          Machine.Inevitable (step ssl) E.Serves P c') :
    Machine.Inevitable (step ssl) E.Serves P c := by
  have hBound := (List.getElem?_eq_some_iff.mp hp).1
  let y : Exchange := { x with ec := none }
  let deadline : Int :=
    expiresAfter c.now task.target.timeout
  have hEarly : c.now < deadline := hScene.timeout.later
  -- The wait begins.
  have hSent :
      afterSend c task y = .waiting y deadline false false := by
    simp [afterSend, y, deadline, hScene.going]
  refine inevitable_sent hScene.strand hScene.found
    hScene.alone hPoint ?_
  rw [hSent]
  have hWaiting :=
    hScene.goto [] (.waiting y deadline false false)
  -- The answer ends it.
  refine inevitable_receive hWaiting.strand hWaiting.found
    hWaiting.alone rfl hEarly hSocket ?_
  let waiting : Client :=
    c.place t [] (task.goto (.waiting y deadline false false))
  have hReceive :
      waiting.receive ssl (E.answer x.datagram)
          task.target.endpoint =
        waiting.take y.pending p' := by
    have hSame :
        waiting.route ssl (E.answer x.datagram)
            task.target.endpoint =
          c.route ssl (E.answer x.datagram)
            task.target.endpoint :=
      rfl
    rw [receive_eq_route, hSame, hRoute]
    rfl
  refine hReceive ▸ ?_
  rcases hWaiting.take rfl p' with ⟨hTaken, hTakenFrame⟩
  have hFound :
      (waiting.take y.pending p').pendings[y.pending]? =
        some p' :=
    List.getElem?_set_self hBound
  have hAnswered := route_accepted hRoute
  refine inevitable_resume hTaken.strand hTaken.found
    hTaken.alone (Or.inl ⟨y, deadline, false, rfl, hEarly⟩)
    (hTaken.resume rfl hFound hAnswered) ?_
  refine leave_inevitable (hTaken.goto [] (.leaving y)) rfl
    hFound hAnswered hHolds ?_
  intro c' hReturned hFrame hPendings hClear
  have hAll :
      Frame t c c' :=
    ((Frame.place c t [] _).trans hTakenFrame).trans
      ((Frame.place _ t [] _).trans hFrame)
  refine hThen c' hReturned hAll ?_ hClear
  rw [hPendings]
  exact hFound

/- Both, if it has the strand for itself. -/
theorem transact_inevitable
    {R : Pending → Prop}
    (hScene : Scene ssl c t task [t])
    (hPoint : task.point = .entering x)
    (hFirst : x.attempt = 0)
    (hClear : c.Clear)
    (hp : c.pendings[x.pending]? = some p)
    (hRoute :
      ∀ c₁ : Client, c₁.cache = c.cache → c₁.now = c.now →
        c₁.findPending x.key = some (x.pending, p) →
          ∃ p',
            c₁.route ssl (E.answer x.datagram)
                task.target.endpoint =
              some (x.pending, p, .accept p') ∧ R p')
    (hThen :
      ∀ c' p', R p' →
        Scene ssl c' t
          (task.goto (.returned { x with ec := none } none))
          [t] →
        Frame t c c' → c'.pendings[x.pending]? = some p' →
        c'.Clear →
          Machine.Inevitable (step ssl) E.Serves P c') :
    Machine.Inevitable (step ssl) E.Serves P c := by
  refine enter_inevitable hScene hPoint hFirst hClear ?_
  intro c₁ hSending hEntered hPendings hHolds hSocket
  rw [← hPendings] at hp
  rcases hRoute c₁ hEntered.cache hEntered.now
    (hHolds.findPending hp) with ⟨p', hRouted, hR⟩
  refine exchange_inevitable hSending rfl hSocket hHolds hp
    hRouted ?_
  intro c' hReturned hFrame hFound hClear'
  exact hThen c' p' hR hReturned (hEntered.trans hFrame)
    hFound hClear'

end Snmpio
