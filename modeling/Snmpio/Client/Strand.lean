import Snmpio.Client.Steps

/-
  The strand, and what can be read off the coroutines.

  Only one coroutine moves at a time.  Those below it have
  spawned it, and wait for it to suspend.

  Key definitions include:
    * `Client.view`
    * `StrandShape`

  Key theorems include:
    * `Move.view`
    * `strandShape_of_run`
-/

------------------------------------------------------------
-- Views
------------------------------------------------------------

namespace Snmpio

variable {ssl : OpenSsl} {α : Type} {c c' : Client}
variable {t : Nat} {task task' : Task} {rest : List Nat}

/- What can be read off the points of the coroutines. -/
def Client.view
    (f : Point → Option α)
    (c : Client)
    (t : Nat) : Option α :=
  (c.tasks[t]?).bind (fun task => f task.point)

theorem Client.view_of_task
    {f : Point → Option α}
    (hTask : c.tasks[t]? = some task) :
    c.view f t = f task.point := by
  rw [view, hTask, Option.bind_some]

/- Nudging shows in no view that waking does not show in. -/
theorem view_of_nudged
    {f : Point → Option α}
    (hWake : ∀ point : Point, f point.wake = f point)
    (hLength : c'.tasks.length = c.tasks.length)
    (hTasks :
      ∀ (t : Nat) (task' : Task),
        c'.tasks[t]? = some task' →
          ∃ task : Task,
            c.tasks[t]? = some task ∧ task.Nudged task') :
    c'.view f = c.view f := by
  funext t
  cases hTask' : c'.tasks[t]? with
  | none =>
      have hNone : c.tasks[t]? = none := by
        rw [List.getElem?_eq_none_iff] at hTask' ⊢
        omega
      rw [Client.view, Client.view, hTask', hNone]
  | some task' =>
      rcases hTasks t task' hTask' with ⟨task, hTask, hSame⟩
      rw [Client.view_of_task hTask',
        Client.view_of_task hTask]
      rcases hSame.point with hPoint | hPoint
      · rw [hPoint]
      · rw [hPoint, hWake]

/- One coroutine has moved. -/
theorem set_view
    (f : Point → Option α)
    (hTask : c.tasks[t]? = some task)
    (hTasks : c'.tasks = c.tasks.set t task') :
    c'.view f =
      Function.update (c.view f) t (f task'.point) := by
  have hBound := (List.getElem?_eq_some_iff.mp hTask).1
  funext i
  unfold Client.view
  rw [hTasks]
  by_cases hSame : i = t
  · subst hSame
    rw [Function.update_self, List.getElem?_set_self hBound]
    rfl
  · rw [Function.update_of_ne hSame,
      List.getElem?_set_ne (fun h => hSame h.symm)]

theorem view_length
    (f : Point → Option α)
    (c : Client) :
    c.view f c.tasks.length = none := by
  rw [Client.view, List.getElem?_eq_none (Nat.le_refl _),
    Option.bind_none]

/- One has been added. -/
theorem spawn_view
    (f : Point → Option α)
    (c : Client)
    (task : Task) :
    (c.spawn task).view f =
      Function.update (c.view f) c.tasks.length
        (f task.point) := by
  funext i
  unfold Client.view Client.spawn
  by_cases hSame : i = c.tasks.length
  · rw [hSame, Function.update_self,
      List.getElem?_concat_length, Option.bind_some]
  · rw [Function.update_of_ne hSame]
    by_cases hOld : i < c.tasks.length
    · rw [List.getElem?_append_left hOld]
    · have hNone : (c.tasks ++ [task])[i]? = none := by
        rw [List.getElem?_eq_none_iff, List.length_append,
          List.length_singleton]
        omega
      rw [hNone, List.getElem?_eq_none (l := c.tasks)
        (by omega)]

/- What is not seen at its start is not seen spawned. -/
theorem spawn_view_none
    {f : Point → Option α}
    (hNone : f task.point = none) :
    (c.spawn task).view f = c.view f := by
  rw [spawn_view, hNone, ← view_length f c,
    Function.update_eq_self]

theorem place_view
    {f : Point → Option α}
    (hTask : c.tasks[t]? = some task) :
    (c.place t rest task').view f =
      Function.update (c.view f) t (f task'.point) :=
  set_view f hTask rfl

/- A move shows for its coroutine only. -/
theorem Move.place_view
    {f : Point → Option α}
    (hWake : ∀ point : Point, f point.wake = f point)
    {out : Outside}
    {spawned : Option Task}
    (hTask : c.tasks[t]? = some task)
    (hMove : Move ssl out c task c' task' spawned)
    (rest : List Nat) :
    (c'.place t rest task').view f =
      Function.update (c.view f) t (f task'.point) := by
  have hBound := (List.getElem?_eq_some_iff.mp hTask).1
  rw [← hMove.length] at hBound
  rw [Snmpio.place_view (List.getElem?_eq_getElem hBound),
    view_of_nudged hWake hMove.length
      (fun _ _ => hMove.tasks)]

/- The view of a whole turn. -/
theorem Move.view
    {f : Point → Option α}
    (hWake : ∀ point : Point, f point.wake = f point)
    (hStart : f .start = none)
    {out : Outside}
    {spawned : Option Task}
    (hTask : c.tasks[t]? = some task)
    (hMove : Move ssl out c task c' task' spawned) :
    (c'.settle t rest task' spawned).view f =
      Function.update (c.view f) t (f task'.point) := by
  rw [← hMove.place_view hWake hTask rest]
  cases hSpawned : spawned with
  | none => rfl
  | some other =>
      rcases hMove.spawned_eq hSpawned with ⟨creds, rfl⟩
      exact spawn_view_none hStart

/- A discovery that throws shows for its coroutine only. -/
theorem raised_view
    {f : Point → Option α}
    (hWake : ∀ point : Point, f point.wake = f point)
    {d : Nat}
    (hTask : c.tasks[t]? = some task) :
    ((finishDiscovery c task.target.endpoint d
        { failure := true }).place t rest
          (task.goto .ended)).view f =
      Function.update (c.view f) t (f .ended) := by
  have hFinished :
      (finishDiscovery c task.target.endpoint d
        { failure := true }).tasks[t]? =
          some (task.wakeOn [.done d]) := by
    change (c.tasks.map _)[t]? = _
    rw [List.getElem?_map, hTask]
    rfl
  have hSame :
      (finishDiscovery c task.target.endpoint d
        { failure := true }).view f = c.view f := by
    refine view_of_nudged hWake (List.length_map _) ?_
    intro i found hFound
    rcases cancelTimers_tasks hFound with
      ⟨before, hBefore, rfl⟩
    exact ⟨before, hBefore, Task.wakeOn_nudged _ before⟩
  rw [place_view hFinished, hSame]
  rfl

end Snmpio

------------------------------------------------------------
-- The Shape of the Strand
------------------------------------------------------------

namespace Snmpio

variable {ssl : OpenSsl} {c : Client} {c' : Client}
variable {t : Nat} {task : Task}

/- The point of a coroutine that runs. -/
def Client.running
    (c : Client) : Nat → Option Point :=
  c.view (fun point => if point.runs then some point else none)

theorem wake_running
    (point : Point) :
    (if point.wake.runs then some point.wake else none) =
      if point.runs then some point else none := by
  cases point with
  | _ => rfl

/- One runs; those below it are about to park. -/
structure StrandShape
    (c : Client) : Prop where
  nodup : c.strand.Nodup
  runs :
    ∀ t, t ∈ c.strand ↔ ∃ point, c.running t = some point
  tail :
    ∀ t ∈ c.strand.tail, ∃ d, c.running t = some (.parking d)

/- The strand is where it was, and so is who runs. -/
theorem StrandShape.same
    (hShape : StrandShape c)
    (hStrand : c'.strand = c.strand)
    (hRunning : c'.running = c.running) :
    StrandShape c' := by
  refine ⟨?_, ?_, ?_⟩
  · rw [hStrand]
    exact hShape.nodup
  · rw [hStrand, hRunning]
    exact hShape.runs
  · rw [hStrand, hRunning]
    exact hShape.tail

/- The first coroutine moves, with the others beneath it. -/
theorem StrandShape.move
    {rest : List Nat}
    {point : Point}
    (hNodup : (t :: rest).Nodup)
    (hRest :
      ∀ i, i ∈ rest ↔
        i ≠ t ∧ ∃ point, c.running i = some point)
    (hTail :
      ∀ i ∈ rest, ∃ d, c.running i = some (.parking d))
    (hStrand :
      c'.strand = if point.runs then t :: rest else rest)
    (hRunning :
      c'.running = Function.update c.running t
        (if point.runs then some point else none)) :
    StrandShape c' := by
  have hNot : t ∉ rest := (List.nodup_cons.mp hNodup).1
  have hOther :
      ∀ i ∈ rest, c'.running i = c.running i := by
    intro i hMem
    rw [hRunning, Function.update_of_ne]
    rintro rfl
    exact hNot hMem
  cases hRuns : point.runs with
  | true =>
      rw [hRuns, if_pos rfl] at hStrand hRunning
      refine ⟨?_, ?_, ?_⟩
      · rw [hStrand]
        exact hNodup
      · intro i
        rw [hStrand, List.mem_cons, hRest, hRunning]
        by_cases hSame : i = t
        · subst hSame
          simp
        · rw [Function.update_of_ne hSame]
          simp [hSame]
      · intro i hMem
        rw [hStrand] at hMem
        rw [hOther i hMem]
        exact hTail i hMem
  | false =>
      rw [hRuns, if_neg Bool.false_ne_true] at hStrand hRunning
      refine ⟨?_, ?_, ?_⟩
      · rw [hStrand]
        exact (List.nodup_cons.mp hNodup).2
      · intro i
        rw [hStrand, hRest, hRunning]
        by_cases hSame : i = t
        · subst hSame
          simp
        · rw [Function.update_of_ne hSame]
          simp [hSame]
      · intro i hMem
        rw [hStrand] at hMem
        have hIn := List.mem_of_mem_tail hMem
        rw [hOther i hIn]
        exact hTail i hIn

/- A discovery runs on top of who asked for it. -/
theorem StrandShape.spawn
    (hShape : StrandShape c)
    (hParking :
      ∀ t ∈ c.strand, ∃ d, c.running t = some (.parking d))
    (hStart : task.point = .start) :
    StrandShape (c.spawn task) := by
  have hRunning :
      (c.spawn task).running =
        Function.update c.running c.tasks.length
          (some .start) := by
    refine (spawn_view _ c task).trans ?_
    rw [hStart]
    rfl
  have hLast : c.running c.tasks.length = none :=
    view_length _ c
  have hNew : c.tasks.length ∉ c.strand := by
    intro hMem
    rcases hParking _ hMem with ⟨d, hRuns⟩
    rw [hLast] at hRuns
    cases hRuns
  refine ⟨List.nodup_cons.mpr ⟨hNew, hShape.nodup⟩, ?_, ?_⟩
  · intro i
    change i ∈ c.tasks.length :: c.strand ↔ _
    rw [List.mem_cons, hShape.runs, hRunning]
    by_cases hSame : i = c.tasks.length
    · subst hSame
      simp
    · rw [Function.update_of_ne hSame]
      simp [hSame]
  · intro i hMem
    change i ∈ c.strand at hMem
    rw [hRunning, Function.update_of_ne]
    · exact hParking i hMem
    · rintro rfl
      exact hNew hMem

/- Who runs besides the first is beneath it. -/
theorem StrandShape.rest
    (hShape : StrandShape c)
    {rest : List Nat}
    (hStrand : c.strand = t :: rest) :
    (t :: rest).Nodup ∧
      (∀ i, i ∈ rest ↔
        i ≠ t ∧ ∃ point, c.running i = some point) ∧
      ∀ i ∈ rest, ∃ d, c.running i = some (.parking d) := by
  have hNodup := hShape.nodup
  have hTail := hShape.tail
  rw [hStrand] at hNodup hTail
  refine ⟨hNodup, ?_, hTail⟩
  intro i
  rw [← hShape.runs, hStrand, List.mem_cons]
  constructor
  · intro hMem
    refine ⟨?_, Or.inr hMem⟩
    rintro rfl
    exact (List.nodup_cons.mp hNodup).1 hMem
  · rintro ⟨hOther, hSame | hMem⟩
    · exact absurd hSame hOther
    · exact hMem

/- Nobody runs while the strand is idle. -/
theorem StrandShape.idle
    (hShape : StrandShape c)
    (hIdle : c.strand = [])
    (t : Nat) :
    c.running t = none := by
  cases hRuns : c.running t with
  | none => rfl
  | some point =>
      have hMem := (hShape.runs t).mpr ⟨point, hRuns⟩
      rw [hIdle] at hMem
      cases hMem

theorem StrandShape.beneath_idle
    (hShape : StrandShape c)
    (hIdle : c.strand = [])
    (t : Nat) :
    [t].Nodup ∧
      (∀ i, i ∈ [] ↔
        i ≠ t ∧ ∃ point, c.running i = some point) ∧
      ∀ i ∈ ([] : List Nat),
        ∃ d, c.running i = some (.parking d) := by
  refine ⟨List.nodup_singleton t, ?_, ?_⟩
  · intro i
    rw [hShape.idle hIdle i]
    simp
  · intro i hMem
    cases hMem

/- What is spawned leaves its spawner about to park. -/
theorem Move.spawner
    {out : Outside}
    {task' other : Task}
    (hMove : Move ssl out c task c' task' (some other)) :
    ∃ d, task'.point = .parking d := by
  cases hMove with
  | ensure _ _ hEnsure =>
      rcases ensureEngine_cases hEnsure with
        ⟨_, _, hNone, _⟩ | ⟨_, _, _, _, hNone⟩ | ⟨_, _, rfl, _⟩
      · cases hNone
      · cases hNone
      · exact ⟨_, rfl⟩

/- A turn leaves it so. -/
theorem StrandShape.advance
    (hShape : StrandShape c)
    {out : Outside}
    {rest : List Nat}
    {task' : Task}
    {spawned : Option Task}
    (hStrand : c.strand = t :: rest)
    (hTask : c.tasks[t]? = some task)
    (hMove : Move ssl out c task c' task' spawned) :
    StrandShape (c'.settle t rest task' spawned) := by
  rcases hShape.rest hStrand with ⟨hNodup, hRest, hTail⟩
  have hRunning :
      (c'.place t rest task').running =
        Function.update c.running t
          (if task'.point.runs then some task'.point
            else none) :=
    hMove.place_view wake_running hTask rest
  have hPlaced : StrandShape (c'.place t rest task') :=
    StrandShape.move hNodup hRest hTail rfl hRunning
  cases hSpawned : spawned with
  | none => exact hPlaced
  | some other =>
      rw [hSpawned] at hMove
      rcases hMove.spawner with ⟨d, hPoint⟩
      rcases hMove.spawned_eq rfl with ⟨creds, rfl⟩
      refine hPlaced.spawn ?_ rfl
      intro i hMem
      rw [hRunning, hPoint]
      by_cases hSame : i = t
      · subst hSame
        exact ⟨d, Function.update_self _ _ _⟩
      · rw [Function.update_of_ne hSame]
        apply hTail
        have hIn :
            i ∈ if task'.point.runs then t :: rest
              else rest := hMem
        rw [hPoint] at hIn
        exact (List.mem_cons.mp hIn).resolve_left hSame

/- Every event does. -/
theorem StrandShape.step
    {e : Event}
    (hShape : StrandShape c)
    (hStep : Snmpio.step ssl c e = some c') :
    StrandShape c' := by
  cases step_cases hStep with
  | advanced hStrand hTask hMove =>
      exact hShape.advance hStrand hTask hMove
  | requested hIdle =>
      refine hShape.spawn ?_ rfl
      rw [hIdle]
      intro t hMem
      cases hMem
  | received hIdle =>
      rcases receive_nudged ssl c _ _ with
        ⟨pendings, hNudged⟩
      exact hShape.same hNudged.strand
        (view_of_nudged wake_running hNudged.length
          hNudged.tasks)
  | @resumed e t task point hIdle hTask hResumes =>
      rcases hShape.beneath_idle hIdle t with
        ⟨hNodup, hRest, hTail⟩
      exact StrandShape.move hNodup hRest hTail rfl
        (place_view hTask)
  | @raised t d rest task hStrand hTask _ _ =>
      have hBeneath :
          (t :: rest).Nodup ∧
            (∀ i, i ∈ rest ↔
              i ≠ t ∧ ∃ point, c.running i = some point) ∧
            ∀ i ∈ rest,
              ∃ d, c.running i = some (.parking d) := by
        rcases hStrand with ⟨hIdle, rfl, _⟩ | hHead
        · exact hShape.beneath_idle hIdle t
        · exact hShape.rest hHead
      rcases hBeneath with ⟨hNodup, hRest, hTail⟩
      exact StrandShape.move hNodup hRest hTail rfl
        (raised_view wake_running hTask)
  | @signalled t kind task cancelled _ hTask _ _ =>
      refine hShape.same rfl ?_
      refine (set_view _ hTask rfl).trans ?_
      have hBefore :
          c.running t =
            if task.point.runs then some task.point
              else none :=
        Client.view_of_task hTask
      rcases signalled_cases task.point with hPoint | hPoint
      · change Function.update c.running t
          (if task.point.signalled.runs then
            some task.point.signalled else none) = c.running
        rw [hPoint, ← hBefore, Function.update_eq_self]
      · change Function.update c.running t
          (if task.point.signalled.runs then
            some task.point.signalled else none) = c.running
        rw [hPoint, wake_running, ← hBefore,
          Function.update_eq_self]
  | nudged hNudged =>
      exact hShape.same hNudged.strand
        (view_of_nudged wake_running hNudged.length
          hNudged.tasks)

/- So it is in every run. -/
theorem strandShape_of_run
    {id : Int32}
    {now : Int}
    {events : List Event}
    (hRun :
      Machine.run (Snmpio.step ssl) (fresh id now) events =
        some c) :
    StrandShape c := by
  refine Machine.run_invariant
    (P := fun _ c => StrandShape c) ?_ ?_ hRun
  · refine ⟨List.nodup_nil, ?_, ?_⟩
    · intro t
      constructor
      · intro hMem
        cases hMem
      · rintro ⟨point, hRuns⟩
        cases hRuns
    · intro t hMem
      cases hMem
  · intro events c e c' _ hShape hStep
    exact hShape.step hStep

end Snmpio
