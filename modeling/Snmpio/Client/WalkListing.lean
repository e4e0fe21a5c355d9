import Snmpio.Client.WalkCorrectness
import Snmpio.Client.WalkRefinement

/-
  A Walk among other operations lists its Subtree.

  If the Agent has answered the requests of a Walk from its
  table, the batch handler has been given the entries below
  the base in their order, without a gap, whatever else the
  Client has done meanwhile.  If the Walk has completed
  without an error, none is missing.

  Key definitions include:
    * `subtreeAbove`
    * `Walk.AnsweredFrom`
    * `Walk.Lists`

  Key theorems include:
    * `scanBatch_lists`
    * `Operations.lists_of_run`
    * `walks_list_subtrees`
-/

------------------------------------------------------------
-- Batches
------------------------------------------------------------

namespace Snmpio

variable {table : List Varbind} {base : Oid}

/- What is left of a Subtree above a name. -/
def subtreeAbove
    (table : List Varbind)
    (base current : Oid) : List Varbind :=
  (successors table current).filter (inSubtree base)

/- A collecting Walk collects what the scan finds. -/
theorem takeBatch_collects
    {σ : Type}
    {env : WalkEnv σ}
    {resp : Pdu}
    {w : WalkState σ (List Varbind)}
    {done : Bool}
    {current : Oid}
    {batch : List Varbind}
    (hGoing : env.stopping w.world = false)
    (hNonempty : resp.varbinds.isEmpty = false)
    (hScan :
      scanBatch base w.current [] resp.varbinds =
        .ok (done, current, batch)) :
    takeBatch env collectBatch base resp w =
      let w :=
        { w with
          current := current
          handler := w.handler ++ batch }
      if done then .inr (none, w) else .inl w := by
  unfold takeBatch
  rw [hGoing, hNonempty, hScan]
  cases batch with
  | nil =>
      cases done with
      | true => simp
      | false => simp
  | cons vb rest =>
      cases done with
      | true => rfl
      | false => rfl

/-
  A batch is all that is left of the Subtree, or the first
  part of it.
-/
theorem scanBatch_lists
    (hSorted :
      table.Pairwise (fun a b => a.name < b.name))
    (hValues :
      ∀ vb ∈ table, vb.val.isException = false)
    {current current' : Oid}
    {varbinds batch : List Varbind}
    {done : Bool}
    (hCurrent : current = base ∨ base < current)
    (hAnswer : BulkAnswer table current varbinds)
    (hScan :
      scanBatch base current [] varbinds =
        .ok (done, current', batch)) :
    (done = true ∧
        batch = subtreeAbove table base current) ∨
      (done = false ∧ base < current' ∧
        batch ++ subtreeAbove table base current' =
          subtreeAbove table base current) := by
  let w : WalkState Unit (List Varbind) :=
    { world := ()
      handler := []
      current := current
      maxRepetitions := 0 }
  have hNonempty : varbinds.isEmpty = false := by
    simpa using hAnswer.1
  have hTaken :
      takeBatch (shortAgent table) collectBatch base
          { varbinds := varbinds } w = _ :=
    takeBatch_collects rfl hNonempty hScan
  -- Whoever answers from the table will do.
  have hCases :=
    takeBatch_cases hSorted hValues
      (shortAgent_answers table)
      (show w.current = base ∨ base < w.current from hCurrent)
      (show BulkAnswer table w.current
        ({ varbinds := varbinds } : Pdu).varbinds from
          hAnswer)
  rw [hTaken] at hCases
  cases done with
  | true =>
      rcases hCases with ⟨w', hSame, hAll⟩ | ⟨w', hSame, _⟩
      · cases hSame
        exact .inl ⟨rfl, hAll⟩
      · cases hSame
  | false =>
      rcases hCases with
        ⟨w', hSame, _⟩ | ⟨w', hSame, _, hAbove, hAll⟩
      · cases hSame
      · cases hSame
        exact .inr ⟨rfl, hAbove, hAll⟩

end Snmpio

------------------------------------------------------------
-- Walks Among Others
------------------------------------------------------------

namespace Snmpio

variable {table : List Varbind} {c c' : Client}

namespace Walk

variable {walk : Walk} {done : Bool} {current : Oid}
variable {ec : Option ErrorCode}

/-
  What has come of the requests to the Target, for the same
  Community or Credentials, is from the table.
-/
def AnsweredFrom
    (table : List Varbind)
    (c : Client)
    (walk : Walk) : Prop :=
  ∀ (t : Nat) (task : Task) (resp : Response),
    c.tasks[t]? = some task →
      task.target = walk.target →
      task.work.auth? = some walk.auth →
      task.point = .completed none resp →
        Answer table task.pdu
          (none, { varbinds := resp.varbinds })

theorem AnsweredFrom.before
    (hAnswered : walk.AnsweredFrom table c')
    (hGoes : c.GoesOn c') :
    walk.AnsweredFrom table c := by
  intro t task resp hTask hTarget hAuth hOver
  rcases hGoes t task hTask with ⟨task', hTask', hSame⟩
  have hAnswer :=
    hAnswered t task' resp hTask'
      (hSame.target.trans hTarget) (hSame.auth.trans hAuth)
      (hSame.result _ _ hOver)
  rw [hSame.pdu] at hAnswer
  exact hAnswer

theorem AnsweredFrom.of_same
    {walk' : Walk}
    (hAnswered : walk'.AnsweredFrom table c)
    (hSame : walk.SameWalk walk') :
    walk.AnsweredFrom table c := by
  intro t task resp hTask hTarget hAuth hOver
  exact hAnswered t task resp hTask
    (hTarget.trans hSame.target.symm)
    (hAuth.trans (by rw [hSame.auth])) hOver

/- The Response of a round is a part of the table. -/
theorem AnsweredFrom.bulk
    {task : Task}
    {request : Nat}
    {resp : Response}
    (hAnswered : walk.AnsweredFrom table c)
    (hTask :
      walk.Commissions c request
        (walkRequest walk.current walk.maxRepetitions) task)
    (hOver : task.point = .completed none resp) :
    BulkAnswer table walk.current resp.varbinds := by
  have hAnswer :=
    hAnswered request task resp hTask.found hTask.target
      hTask.auth hOver
  rw [hTask.pdu] at hAnswer
  unfold walkRequest at hAnswer
  split at hAnswer
  · exact (hAnswer walk.current .null rfl).2.bulk
  · rcases hAnswer walk.current .null rfl with
      ⟨hTooBig, _⟩ | ⟨_, hBulk⟩
    · cases hTooBig
    · exact hBulk

variable (table) (walk)

/- All that the Walk is to give to its handler. -/
def subtree : List Varbind :=
  subtreeAbove table walk.base walk.base

/- The handler has had what is not above the current name. -/
structure Partway
    (given : List Varbind) : Prop where
  above : walk.current = walk.base ∨ walk.base < walk.current
  given :
    given ++ subtreeAbove table walk.base walk.current =
      walk.subtree table

/- What the handler has been given, at every point. -/
def Gives
    (given : List Varbind) : WalkPoint → Prop
| .start | .requesting | .handling false =>
    walk.Partway table given
| .handling true | .completed none =>
    given = walk.subtree table
| .completed (some _) | .threw =>
    given <+: walk.subtree table

def Lists : Prop :=
  walk.Gives table walk.batches.flatten walk.point

variable {table} {walk}

theorem Gives.given
    {given : List Varbind}
    {point : WalkPoint}
    (hGives : walk.Gives table given point) :
    given <+: walk.subtree table := by
  unfold Gives at hGives
  split at hGives
  · exact ⟨_, hGives.given⟩
  · exact ⟨_, hGives.given⟩
  · exact ⟨_, hGives.given⟩
  · rw [hGives]
  · rw [hGives]
  · exact hGives
  · exact hGives

theorem Partway.next
    (hPartway : walk.Partway table walk.batches.flatten)
    (c : Client)
    (cancelled : Cancellation) :
    (walk.next c cancelled).2.Lists table := by
  unfold Walk.next
  split
  · exact ⟨_, hPartway.given⟩
  · exact ⟨hPartway.above, hPartway.given⟩

/- The handler has had the batch. -/
theorem Gives.afterBatch
    (hGives :
      walk.Gives table walk.batches.flatten (.handling done))
    (c : Client)
    (cancelled : Cancellation)
    (keep : Bool) :
    (walk.afterBatch c cancelled done keep).2.Lists
      table := by
  unfold Walk.afterBatch
  cases keep with
  | false => exact hGives.given
  | true =>
      cases done with
      | true => exact hGives
      | false => exact Partway.next hGives c cancelled

/- The batch of a round goes on where the last one ended. -/
theorem Partway.scanned
    (hSorted :
      table.Pairwise (fun a b => a.name < b.name))
    (hValues :
      ∀ vb ∈ table, vb.val.isException = false)
    {given varbinds batch : List Varbind}
    (hPartway : walk.Partway table given)
    (hAnswer : BulkAnswer table walk.current varbinds)
    (hScan :
      scanBatch walk.base walk.current [] varbinds =
        .ok (done, current, batch)) :
    Walk.Gives table { walk with current := current }
      (given ++ batch) (.handling done) := by
  have hGiven := hPartway.given
  rcases scanBatch_lists hSorted hValues hPartway.above
    hAnswer hScan with
    ⟨rfl, rfl⟩ | ⟨rfl, hAbove, hRest⟩
  · exact hGiven
  · refine ⟨.inr hAbove, ?_⟩
    rw [List.append_assoc]
    exact (congrArg (given ++ ·) hRest).trans hGiven

/- A batch comes from a Response without an error. -/
theorem walkTurn_eq_scanned
    {base current' : Oid}
    {maxRepetitions : Int32}
    {cancelled : Cancellation}
    {stopping : Bool}
    {varbinds batch : List Varbind}
    (hTurn :
      walkTurn base current maxRepetitions cancelled stopping
        ec varbinds = .scanned done current' batch) :
    ec = none ∧
      scanBatch base current [] varbinds =
        .ok (done, current', batch) := by
  unfold walkTurn at hTurn
  split at hTurn
  · cases hTurn
  · split at hTurn
    · cases hTurn
    · split at hTurn
      · cases hTurn
      · split at hTurn
        · cases hTurn
        · split at hTurn
          · cases hTurn
          · next hScan =>
            cases hTurn
            exact ⟨rfl, hScan⟩

/- Only a batch can be the last of a Walk without an error. -/
theorem walkTurn_ends_some
    {base : Oid}
    {maxRepetitions : Int32}
    {cancelled : Cancellation}
    {stopping : Bool}
    {varbinds : List Varbind} :
    walkTurn base current maxRepetitions cancelled stopping
      ec varbinds ≠ .ends none := by
  unfold walkTurn
  split
  · nofun
  · split
    · nofun
    · split
      · nofun
      · split
        · nofun
        · split
          · nofun
          · nofun

/- What follows the result of the round's request. -/
theorem Partway.takeResult
    (hSorted :
      table.Pairwise (fun a b => a.name < b.name))
    (hValues :
      ∀ vb ∈ table, vb.val.isException = false)
    {task : Task}
    {resp : Response}
    (hPartway : walk.Partway table walk.batches.flatten)
    (hAnswered : walk.AnsweredFrom table c)
    (hTask :
      walk.Commissions c walk.request
        (walkRequest walk.current walk.maxRepetitions) task)
    (hOver : task.point = .completed ec resp) :
    (walk.takeResult c task.cancelled ec resp).2.Lists
      table := by
  unfold Walk.takeResult
  split
  · next maxRepetitions hTurn =>
    have hSmaller :
        Walk.Partway table
          { walk with maxRepetitions := maxRepetitions }
          walk.batches.flatten :=
      ⟨hPartway.above, hPartway.given⟩
    exact hSmaller.next c task.cancelled
  · next ec' hTurn =>
    cases ec' with
    | none => exact absurd hTurn walkTurn_ends_some
    | some _ => exact ⟨_, hPartway.given⟩
  · next done current batch hTurn =>
    rcases walkTurn_eq_scanned hTurn with ⟨rfl, hScan⟩
    have hBatch :=
      hPartway.scanned hSorted hValues
        (hAnswered.bulk hTask hOver) hScan
    dsimp only
    split
    · next hEmpty =>
      rw [List.isEmpty_iff.mp hEmpty, List.append_nil]
        at hBatch
      exact hBatch.afterBatch c task.cancelled true
    · unfold Walk.Lists
      rw [List.flatten_append, List.flatten_singleton]
      cases done with
      | true => exact hBatch
      | false =>
          cases hBatch with
          | mk hAbove hGiven => exact ⟨hAbove, hGiven⟩

end Walk

end Snmpio

------------------------------------------------------------
-- Runs
------------------------------------------------------------

namespace Snmpio

variable {table : List Varbind} {ssl : OpenSsl}
variable {events : List Operations.Event}
variable {start : Operations} {s s' : Operations}
variable {e : Operations.Event}

namespace Operations

/- All Walks whose requests are answered from the table. -/
def Lists
    (table : List Varbind)
    (s : Operations) : Prop :=
  ∀ (w : Nat) (walk : Walk), s.walks[w]? = some walk →
    walk.AnsweredFrom table s.client → walk.Lists table

/- What a Walk that requests has asked for. -/
theorem Follows.commissions
    {w : Nat}
    {walk : Walk}
    {task : Task}
    (hFollows : Follows ssl start events s)
    (hWalk : s.walks[w]? = some walk)
    (hPoint : walk.point = .requesting)
    (hTask : s.client.tasks[walk.request]? = some task) :
    walk.Commissions s.client walk.request
      (walkRequest walk.current walk.maxRepetitions)
      task := by
  rcases hFollows.walks w walk hWalk with
    ⟨_, _, hWalkFollows⟩
  cases hWalkFollows with
  | requesting _ _ _ _ _ hAsker =>
      have hFound := hAsker.found
      rw [hTask] at hFound
      cases hFound
      exact hAsker
  | _ hPoint' =>
      rw [hPoint] at hPoint'
      cases hPoint'

/- One Walk goes on, and the others stay where they are. -/
theorem Lists.put
    (hLists : s.Lists table)
    {w : Nat}
    {walk : Walk}
    {next : Client × Walk}
    (hGoes : s.client.GoesOn next.1)
    (hWalk : s.walks[w]? = some walk)
    (hSame : walk.SameWalk next.2)
    (hNext :
      walk.AnsweredFrom table s.client → walk.Lists table →
        next.2.Lists table) :
    (s.put w next).Lists table := by
  intro other found hFound hAnswered
  have hBefore := hAnswered.before hGoes
  rcases getElem?_set_cases hFound with
    ⟨rfl, rfl⟩ | ⟨_, hKept⟩
  · have hAnswers := hBefore.of_same hSame
    exact hNext hAnswers (hLists _ walk hWalk hAnswers)
  · exact hLists other found hKept hBefore

theorem Lists.step
    (hSorted :
      table.Pairwise (fun a b => a.name < b.name))
    (hValues :
      ∀ vb ∈ table, vb.val.isException = false)
    (hFollows : Follows ssl start events s)
    (hLists : s.Lists table)
    (hStep : s.step ssl e = some s') :
    s'.Lists table := by
  have hGoes := Client.GoesOn.of_operation hStep
  cases step_cases hStep with
  | client _ _ =>
      intro w walk hWalk hAnswered
      exact hLists w walk hWalk (hAnswered.before hGoes)
  | began _ _ =>
      intro w found hFound hAnswered
      rcases getElem?_concat_cases hFound with
        hBefore | ⟨_, rfl⟩
      · exact hLists w found hBefore
          (hAnswered.before hGoes)
      · exact Walk.Partway.next ⟨.inl rfl, rfl⟩ _ _
  | @took w walk task ec resp _ hWalk hPoint hTask hOver =>
      refine hLists.put hGoes hWalk
        (walk.takeResult_same _ _ _ _) ?_
      intro hAnswered hWalkLists
      rw [Walk.Lists, hPoint] at hWalkLists
      exact Walk.Partway.takeResult hSorted hValues
        hWalkLists hAnswered
        (hFollows.commissions hWalk hPoint hTask) hOver
  | @rethrew w walk task _ hWalk _ _ _ =>
      refine hLists.put hGoes hWalk ⟨rfl, rfl, rfl⟩ ?_
      intro _ hWalkLists
      have hGiven :
          walk.batches.flatten <+: walk.subtree table :=
        Walk.Gives.given hWalkLists
      exact hGiven
  | @handled w walk task done keep _ _ hWalk hPoint _ =>
      refine hLists.put hGoes hWalk
        (walk.afterBatch_same _ _ _ _) ?_
      intro _ hWalkLists
      rw [Walk.Lists, hPoint] at hWalkLists
      exact hWalkLists.afterBatch s.client _ keep

theorem lists_of_run
    {id : Int32}
    {now : Int}
    (hSorted :
      table.Pairwise (fun a b => a.name < b.name))
    (hValues :
      ∀ vb ∈ table, vb.val.isException = false)
    (hRun :
      Machine.run (step ssl) { client := Snmpio.fresh id now }
        events = some s) :
    s.Lists table := by
  refine Machine.run_invariant
    (P := fun _ s => s.Lists table) ?_ ?_ hRun
  · intro w walk hWalk
    cases hWalk
  · intro events s e s' hBefore hLists hStep
    exact hLists.step hSorted hValues
      (follows_of_run hBefore) hStep

end Operations

/- The entries of the table below a name. -/
theorem subtreeAbove_self
    (table : List Varbind)
    (base : Oid) :
    subtreeAbove table base base =
      table.filter (fun vb =>
        base.isPrefixOf vb.name ∧ base ≠ vb.name) := by
  rw [subtreeAbove, successors, Ordered.above,
    List.filter_filter]
  apply List.filter_congr
  intro vb _
  by_cases hPrefix : base.isPrefixOf vb.name = true
  · simp [inSubtree, hPrefix,
      Oid.lt_iff_ne_of_isPrefixOf hPrefix]
  · simp [inSubtree, hPrefix]

/-
  In every run of the Client with its Walks, if the requests
  of a Walk that have succeeded were answered from a table,
  then its batch handler has been given the first entries of
  the table below the base, in their order and each once;
  and if the Walk has completed without an error, all of
  them.
-/
theorem walks_list_subtrees
    (hSorted :
      table.Pairwise (fun a b => a.name < b.name))
    (hValues :
      ∀ vb ∈ table, vb.val.isException = false)
    {id : Int32}
    {now : Int}
    (hRun :
      Machine.run (Operations.step ssl)
        { client := fresh id now } events = some s)
    {w : Nat}
    {walk : Walk}
    (hWalk : s.walks[w]? = some walk)
    (hAnswered : walk.AnsweredFrom table s.client) :
    let below :=
      table.filter (fun vb =>
        walk.base.isPrefixOf vb.name ∧
          walk.base ≠ vb.name)
    walk.batches.flatten <+: below ∧
      (walk.point = .completed none →
        walk.batches.flatten = below) := by
  have hLists :=
    Operations.lists_of_run hSorted hValues hRun w walk hWalk
      hAnswered
  have hBelow := subtreeAbove_self table walk.base
  dsimp only
  rw [← hBelow]
  refine ⟨Walk.Gives.given hLists, ?_⟩
  intro hPoint
  rw [Walk.Lists, hPoint] at hLists
  exact hLists

/- What the Agent of `walkedRun` has. -/
def walkedTable : List Varbind :=
  [⟨sysUpTime, .timeTicks 4711⟩,
    ⟨⟨[1, 3, 6, 1, 2, 1, 2, 1, 0]⟩, .integer 3⟩]

/- What has come is the entry after the name asked for. -/
def Task.tookNext
    (table : List Varbind)
    (task : Task) : Bool :=
  match task.pdu.varbinds, task.point with
  | [⟨o, _⟩], .completed none resp =>
      match (successors table o).head? with
      | some first => resp.varbinds == [first]
      | none => false
  | _, _ => false

theorem Task.answer_of_tookNext
    {task : Task}
    {resp : Response}
    (hNext : task.tookNext table = true)
    (hOver : task.point = .completed none resp) :
    Answer table task.pdu
      (none, { varbinds := resp.varbinds }) := by
  intro o v hAsked
  have hAnswer : NextAnswer table o resp.varbinds := by
    rw [tookNext, hAsked, hOver] at hNext
    dsimp only at hNext
    split at hNext
    · next first hFirst =>
      refine ⟨first, eq_of_beq hNext, ?_⟩
      rw [hFirst]
    · cases hNext
  split
  · exact ⟨rfl, hAnswer⟩
  · exact .inr ⟨rfl, hAnswer.bulk⟩
  · trivial

theorem walkedRun_takes_next :
    ((Machine.run (Operations.step agentSsl)
      { client := fresh 1 0 } walkedRun).bind (fun s =>
        (s.walks[0]?).map (fun walk =>
          (walk.point, walk.base,
            s.client.tasks.all
              (Task.tookNext walkedTable))))) =
      some (.completed none, ⟨[1, 3, 6, 1, 2, 1, 1]⟩,
        true) := by
  decide +kernel

theorem walks_list_subtrees_leaving :
    ∃ s walk,
      Machine.run (Operations.step agentSsl)
          { client := fresh 1 0 } walkedRun = some s ∧
        s.walks[0]? = some walk ∧
        walk.AnsweredFrom walkedTable s.client ∧
        walk.batches.flatten =
          [⟨sysUpTime, .timeTicks 4711⟩] := by
  rcases Option.bind_eq_some_iff.mp walkedRun_takes_next with
    ⟨s, hRun, hRest⟩
  rcases Option.map_eq_some_iff.mp hRest with
    ⟨walk, hWalk, hFound⟩
  rw [Prod.mk.injEq, Prod.mk.injEq] at hFound
  rcases hFound with ⟨hPoint, hBase, hTook⟩
  have hAnswered :
      walk.AnsweredFrom walkedTable s.client := by
    intro t task resp hTask _ _ hOver
    exact Task.answer_of_tookNext
      (List.all_eq_true.mp hTook task
        (List.mem_of_getElem? hTask)) hOver
  have hAll :=
    (walks_list_subtrees (by decide) (by decide) hRun hWalk
      hAnswered).2 hPoint
  rw [hBase] at hAll
  exact ⟨s, walk, hRun, hWalk, hAnswered, hAll⟩

end Snmpio
