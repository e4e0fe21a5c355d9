import Snmpio.Client.Walk
import Snmpio.Lib.Ordered

/-
  A Walk retrieves exactly its Subtree.

  The Agent is described by what it may answer, over a
  finite sorted table.  Every round either halves the batch
  size or takes a part of what is left of the Subtree, so
  the loop ends, whatever the Agent chooses.

  Key definitions include:
    * `successors`
    * `Answer`
    * `AnsweredBy`

  Key theorems include:
    * `Oid.isPrefixOf_of_between`
    * `scanBatch_append`
    * `doWalk_from`
    * `doWalkCollect_subtree`
-/

------------------------------------------------------------
-- Subtrees
------------------------------------------------------------

namespace Snmpio

open Ordered

variable {base : Oid}

namespace Oid

instance : Std.Irrefl (fun a b : Oid => a < b) where
  irrefl a := List.lt_irrefl a.subids

instance : Std.Asymm (fun a b : Oid => a < b) where
  asymm a _ hLt hGt :=
    List.lt_irrefl a.subids (List.lt_trans hLt hGt)

instance :
    Trans (fun a b : Oid => a < b) (fun a b : Oid => a < b)
      (fun a b : Oid => a < b) where
  trans hFirst hSecond := List.lt_trans hFirst hSecond

theorem subidsPrefix_iff
    (as bs : List UInt32) :
    subidsPrefix as bs = true ↔ as <+: bs := by
  induction as generalizing bs with
  | nil => simp [subidsPrefix]
  | cons a as ih =>
      cases bs with
      | nil => simp [subidsPrefix]
      | cons b bs =>
          rw [subidsPrefix, Bool.and_eq_true, beq_iff_eq,
            ih, List.cons_prefix_cons]

theorem isPrefixOf_iff
    (a b : Oid) :
    a.isPrefixOf b = true ↔ a.subids <+: b.subids :=
  subidsPrefix_iff a.subids b.subids

/- A Subtree is an interval above its base. -/
theorem isPrefixOf_of_between
    {a b : Oid}
    (hLower : base < a)
    (hUpper : a < b)
    (hPrefix : base.isPrefixOf b = true) :
    base.isPrefixOf a = true := by
  rw [isPrefixOf_iff] at hPrefix ⊢
  rcases hPrefix with ⟨t, ht⟩
  have hUpper' : a.subids < base.subids ++ t := by
    rw [ht]
    exact hUpper
  exact prefix_of_between hLower hUpper'

/- In a Subtree, only the base is not above the base. -/
theorem lt_iff_ne_of_isPrefixOf
    {a : Oid}
    (hPrefix : base.isPrefixOf a = true) :
    base < a ↔ base ≠ a := by
  constructor
  · rintro hLt rfl
    exact List.lt_irrefl base.subids hLt
  · intro hNe
    rw [isPrefixOf_iff] at hPrefix
    rcases hPrefix with ⟨t, ht⟩
    have hTail : t ≠ [] := by
      rintro rfl
      apply hNe
      cases base
      cases a
      simpa using ht
    have hLt := lt_append base.subids hTail
    rw [ht] at hLt
    exact hLt

end Oid

/- The entries above a name. -/
def successors
    (table : List Varbind)
    (o : Oid) : List Varbind :=
  above Varbind.name o table

def inSubtree
    (base : Oid)
    (vb : Varbind) : Bool :=
  base.isPrefixOf vb.name

/- What is left of the Subtree comes first. -/
theorem filter_inSubtree_eq_takeWhile
    {table : List Varbind}
    (hSorted :
      table.Pairwise (fun a b => a.name < b.name))
    {current : Oid}
    (hCurrent : current = base ∨ base < current) :
    (successors table current).filter (inSubtree base) =
      (successors table current).takeWhile
        (inSubtree base) := by
  apply filter_eq_takeWhile
  have hOrder :
      (successors table current).Pairwise
        (fun a b => a.name < b.name) :=
    above_sorted Varbind.name hSorted
  refine hOrder.imp_of_mem ?_
  intro a b ha _ hLt hPrefix
  have hAbove := ((mem_above Varbind.name).mp ha).2
  apply Oid.isPrefixOf_of_between _ hLt hPrefix
  rcases hCurrent with rfl | hBase
  · exact hAbove
  · exact List.lt_trans hBase hAbove

end Snmpio

------------------------------------------------------------
-- The Agent
------------------------------------------------------------

namespace Snmpio

def isEndOfMibView
    (vb : Varbind) : Prop :=
  vb.val = .exception .endOfMibView

/- The first successor, or endOfMibView if there is none. -/
def NextAnswer
    (table : List Varbind)
    (o : Oid)
    (varbinds : List Varbind) : Prop :=
  ∃ vb, varbinds = [vb] ∧
    match (successors table o).head? with
    | some first => vb = first
    | none => isEndOfMibView vb

/-
  Some of the successors from the first one on, and after
  the last of them endOfMibView any number of times.
-/
def BulkAnswer
    (table : List Varbind)
    (o : Oid)
    (varbinds : List Varbind) : Prop :=
  varbinds ≠ [] ∧
    ∃ entries rest markers,
      successors table o = entries ++ rest ∧
        varbinds = entries ++ markers ∧
        (∀ vb ∈ markers, isEndOfMibView vb) ∧
        (markers ≠ [] → rest = [])

/- What the Agent may answer to a request for one name. -/
def Answer
    (table : List Varbind)
    (req : Pdu)
    (reply : Option ErrorCode × Pdu) : Prop :=
  ∀ o v, req.varbinds = [⟨o, v⟩] →
    match req.type with
    | .getNext =>
        reply.1 = none ∧
          NextAnswer table o reply.2.varbinds
    | .getBulk =>
        (reply.1 = some tooBig ∧ 1 < req.errorIndex) ∨
          (reply.1 = none ∧
            BulkAnswer table o reply.2.varbinds)
    | _ => True

/- Every request is answered, and nothing stops the Walk. -/
structure AnsweredBy
    {σ : Type}
    (table : List Varbind)
    (env : WalkEnv σ) : Prop where
  not_cancelled : ∀ s, env.cancelled s = {}
  not_stopping : ∀ s, env.stopping s = false
  answers :
    ∀ req s, Answer table req (env.doRequest req s).1

/- One successor is a batch of one. -/
theorem NextAnswer.bulk
    {table : List Varbind}
    {o : Oid}
    {varbinds : List Varbind}
    (hNext : NextAnswer table o varbinds) :
    BulkAnswer table o varbinds := by
  rcases hNext with ⟨vb, rfl, hVb⟩
  refine ⟨by simp, ?_⟩
  cases hSuccessors : successors table o with
  | nil =>
      simp only [hSuccessors, List.head?_nil] at hVb
      exact ⟨[], [], [vb], rfl, rfl, by simpa using hVb,
        fun _ => rfl⟩
  | cons first rest =>
      simp only [hSuccessors, List.head?_cons] at hVb
      subst hVb
      exact ⟨[vb], rest, [], rfl, rfl, by simp, by simp⟩

/- A round's request is answered by a batch or by tooBig. -/
theorem AnsweredBy.round
    {σ : Type}
    {table : List Varbind}
    {env : WalkEnv σ}
    (hAgent : AnsweredBy table env)
    (current : Oid)
    (maxRepetitions : Int32)
    (s : σ) :
    let reply :=
      (env.doRequest
        (walkRequest current maxRepetitions) s).1
    (reply.1 = some tooBig ∧ 1 < maxRepetitions) ∨
      (reply.1 = none ∧
        BulkAnswer table current reply.2.varbinds) := by
  have hAnswer :=
    hAgent.answers (walkRequest current maxRepetitions) s
  unfold walkRequest at hAnswer ⊢
  by_cases hNext : maxRepetitions ≤ 0
  · rw [if_pos hNext] at hAnswer ⊢
    rcases hAnswer current .null rfl with ⟨hEc, hReply⟩
    exact Or.inr ⟨hEc, hReply.bulk⟩
  · rw [if_neg hNext] at hAnswer ⊢
    exact hAnswer current .null rfl

end Snmpio

------------------------------------------------------------
-- Batches
------------------------------------------------------------

namespace Snmpio

open Ordered

/- The name a scan has reached after these Varbinds. -/
def lastName
    (current : Oid)
    (varbinds : List Varbind) : Oid :=
  varbinds.foldl (fun _ vb => vb.name) current

/- A scan takes ascending entries up to the Subtree's end. -/
theorem scanBatch_append
    (base : Oid)
    {current : Oid}
    {entries : List Varbind}
    (hOrder :
      entries.Pairwise (fun a b => a.name < b.name))
    (hAbove : ∀ vb ∈ entries, current < vb.name)
    (hValues :
      ∀ vb ∈ entries, vb.val.isException = false)
    (batch more : List Varbind) :
    scanBatch base current batch (entries ++ more) =
      if entries.all (inSubtree base) then
        scanBatch base (lastName current entries)
          (batch ++ entries) more
      else
        .ok (true,
          lastName current
            (entries.takeWhile (inSubtree base)),
          batch ++ entries.takeWhile (inSubtree base)) := by
  induction entries generalizing current batch with
  | nil => simp [lastName]
  | cons vb rest ih =>
      rw [List.pairwise_cons] at hOrder
      have hValue := hValues vb List.mem_cons_self
      have hLt := hAbove vb List.mem_cons_self
      cases hIn : inSubtree base vb with
      | true =>
          have hRest :=
            ih hOrder.2 hOrder.1
              (fun x hx =>
                hValues x (List.mem_cons_of_mem vb hx))
              (batch ++ [vb])
          have hGo :
              ¬ (vb.val.isException = true ∨
                ¬ base.isPrefixOf vb.name = true) := by
            rw [hValue]
            simpa [inSubtree] using hIn
          rw [List.cons_append, scanBatch, if_neg hGo,
            if_neg (not_not_intro hLt), hRest,
            List.all_cons, hIn, Bool.true_and,
            List.takeWhile_cons_of_pos hIn]
          simp [lastName]
      | false =>
          have hStop :
              vb.val.isException = true ∨
                ¬ base.isPrefixOf vb.name = true := by
            right
            simpa [inSubtree] using hIn
          rw [List.cons_append, scanBatch, if_pos hStop,
            List.all_cons, hIn,
            List.takeWhile_cons_of_neg (by simp [hIn])]
          simp [lastName]

theorem collectBatch_eq
    (batch collected : List Varbind) :
    (if batch.isEmpty then (true, collected)
      else collectBatch batch collected) =
      (true, collected ++ batch) := by
  cases batch with
  | nil => simp
  | cons vb rest => rfl

/- Halving a batch size above one makes it smaller. -/
theorem half_lt
    {m : Int32}
    (hm : 1 < m) :
    (m / 2).toInt.toNat < m.toInt.toNat := by
  have hOne : 1 < m.toInt := Int32.lt_iff_toInt_lt.mp hm
  have hTwo : (2 : Int32).toInt = 2 := by decide
  rw [Int32.toInt_div_of_ne_right _ _ (by decide), hTwo,
    Int.tdiv_eq_ediv_of_nonneg (by omega)]
  omega

section

variable {σ : Type} {table : List Varbind} {env : WalkEnv σ}
variable {base : Oid}

/-
  A Response either ends the Walk with all that was left of
  the Subtree, or takes a part of it and leaves the rest.
-/
theorem takeBatch_cases
    (hSorted :
      table.Pairwise (fun a b => a.name < b.name))
    (hValues :
      ∀ vb ∈ table, vb.val.isException = false)
    (hAgent : AnsweredBy table env)
    {resp : Pdu}
    {w : WalkState σ (List Varbind)}
    (hCurrent : w.current = base ∨ base < w.current)
    (hAnswer : BulkAnswer table w.current resp.varbinds) :
    (∃ w', takeBatch env collectBatch base resp w =
        .inr (none, w') ∧
      w'.handler =
        w.handler ++
          (successors table w.current).filter
            (inSubtree base)) ∨
      ∃ w', takeBatch env collectBatch base resp w =
          .inl w' ∧
        (successors table w'.current).length <
          (successors table w.current).length ∧
        base < w'.current ∧
        w'.handler ++
            (successors table w'.current).filter
              (inSubtree base) =
          w.handler ++
            (successors table w.current).filter
              (inSubtree base) := by
  rcases hAnswer with ⟨hNonempty, entries, rest, markers,
    hSplit, hVarbinds, hMarkers, hRest⟩
  have hOrder :
      (entries ++ rest).Pairwise
        (fun a b => a.name < b.name) := by
    rw [← hSplit]
    exact above_sorted Varbind.name hSorted
  have hMem :
      ∀ vb ∈ entries,
        vb ∈ table ∧ w.current < vb.name := by
    intro vb hvb
    apply (mem_above Varbind.name).mp
    change vb ∈ successors table w.current
    rw [hSplit]
    exact List.mem_append_left rest hvb
  have hScan :=
    scanBatch_append base
      (List.pairwise_append.mp hOrder).1
      (fun vb hvb => (hMem vb hvb).2)
      (fun vb hvb => hValues vb (hMem vb hvb).1) [] markers
  rw [← hVarbinds] at hScan
  have hTake :=
    filter_inSubtree_eq_takeWhile hSorted hCurrent
  have hEmpty : resp.varbinds.isEmpty = false := by
    simpa using hNonempty
  unfold takeBatch
  rw [hAgent.not_stopping, if_neg (by decide),
    hEmpty, if_neg (by decide), hScan]
  by_cases hAll : entries.all (inSubtree base) = true
  · have hFilter : entries.filter (inSubtree base) =
        entries := by
      rw [List.filter_eq_self]
      exact List.all_eq_true.mp hAll
    rw [if_pos hAll]
    cases markers with
    | nil =>
        -- The last entry taken is where the next round starts.
        right
        rcases List.eq_nil_or_concat' entries with
          rfl | ⟨before, x, rfl⟩
        · exact absurd hVarbinds hNonempty
        · have hx := hMem x (by simp)
          have hNext :
              successors table x.name = rest := by
            apply above_of_split Varbind.name hSorted
            change successors table w.current =
              before ++ x :: rest
            rw [hSplit, List.append_assoc]
            rfl
          have hLast :
              lastName w.current (before ++ [x]) =
                x.name := by
            simp [lastName]
          refine ⟨{ w with
            current := x.name
            handler := w.handler ++ (before ++ [x]) },
            ?_, ?_, ?_, ?_⟩
          · simp only [scanBatch, List.nil_append,
              collectBatch_eq, hLast]
            rfl
          · simp only [hNext, hSplit, List.length_append,
              List.length_singleton]
            omega
          · rcases hCurrent with hEq | hLt
            · rw [← hEq]
              exact hx.2
            · exact List.lt_trans hLt hx.2
          · simp only [hNext]
            rw [hSplit, List.filter_append _ rest, hFilter,
              List.append_assoc]
    | cons m ms =>
        left
        have hMarker :
            m.val.isException = true ∨
              ¬ base.isPrefixOf m.name = true := by
          left
          rw [hMarkers m List.mem_cons_self]
          rfl
        refine ⟨_, by
          simp only [scanBatch, if_pos hMarker,
            List.nil_append, collectBatch_eq]
          rfl, ?_⟩
        rw [hSplit, hRest (by simp), List.append_nil,
          hFilter]
  · left
    rw [if_neg hAll]
    refine ⟨_, by
      simp only [List.nil_append, collectBatch_eq]
      rfl, ?_⟩
    rw [hTake, hSplit, takeWhile_append_of_not_all hAll]

/-
  A round halves the batch size and changes nothing else, or
  it is what becomes of a batch.
-/
theorem walkRound_cases
    (hAgent : AnsweredBy table env)
    (w : WalkState σ (List Varbind)) :
    ∃ world,
      (1 < w.maxRepetitions ∧
        walkRound env collectBatch base w =
          .inl { w with
            world := world
            maxRepetitions := w.maxRepetitions / 2 }) ∨
        ∃ resp,
          BulkAnswer table w.current resp.varbinds ∧
            walkRound env collectBatch base w =
              takeBatch env collectBatch base resp
                { w with world := world } := by
  have hRound :=
    hAgent.round w.current w.maxRepetitions w.world
  have hStop :
      stopNow (env.cancelled w.world) = none := by
    rw [hAgent.not_cancelled]
    rfl
  unfold walkRound takeReply
  rw [hStop]
  refine ⟨(env.doRequest (walkRequest w.current
    w.maxRepetitions) w.world).2, ?_⟩
  rcases hRound with ⟨hEc, hBig⟩ | ⟨hEc, hBulk⟩
  · left
    refine ⟨hBig, ?_⟩
    simp only [hEc]
    rw [if_pos (And.intro trivial hBig)]
  · right
    refine ⟨_, hBulk, ?_⟩
    simp only [hEc, reduceCtorEq, false_and, if_false]

/- The remaining Subtree is collected in the end. -/
theorem doWalk_from
    (hSorted :
      table.Pairwise (fun a b => a.name < b.name))
    (hValues :
      ∀ vb ∈ table, vb.val.isException = false)
    (hAgent : AnsweredBy table env)
    (left : Nat)
    (size : Nat)
    (w : WalkState σ (List Varbind))
    (hLeft : (successors table w.current).length = left)
    (hSize : w.maxRepetitions.toInt.toNat = size)
    (hCurrent : w.current = base ∨ base < w.current) :
    ∃ rounds w',
      (∀ more,
        doWalk env collectBatch base (rounds + more) w =
          some (none, w')) ∧
        w'.handler =
          w.handler ++
            (successors table w.current).filter
              (inSubtree base) := by
  -- Outside: what is left of the table.  Inside: the size.
  induction left using Nat.strong_induction_on
    generalizing size w with
  | _ left ihLeft =>
      induction size using Nat.strong_induction_on
        generalizing w with
      | _ size ihSize =>
          rcases walkRound_cases hAgent w with
            ⟨world, ⟨hBig, hRound⟩ | ⟨resp, hBulk, hRound⟩⟩
          · rcases ihSize _ (hSize ▸ half_lt hBig)
              { w with
                world := world
                maxRepetitions := w.maxRepetitions / 2 }
              hLeft rfl hCurrent with
              ⟨rounds, w', hRun, hHandler⟩
            refine ⟨rounds + 1, w', ?_, hHandler⟩
            intro more
            rw [Nat.add_right_comm, doWalk, hRound]
            exact hRun more
          · rcases takeBatch_cases hSorted hValues hAgent
              (w := { w with world := world }) hCurrent hBulk
              with ⟨w', hDone, hHandler⟩ |
                ⟨w', hAgain, hFewer, hNext, hHandler⟩
            · refine ⟨1, w', ?_, hHandler⟩
              intro more
              rw [Nat.add_comm, doWalk, hRound, hDone]
            · rcases ihLeft _ (hLeft ▸ hFewer) _ w' rfl rfl
                (Or.inr hNext) with
                ⟨rounds, w'', hRun, hHandler'⟩
              refine ⟨rounds + 1, w'', ?_, ?_⟩
              · intro more
                rw [Nat.add_right_comm, doWalk, hRound,
                  hAgain]
                exact hRun more
              · rw [hHandler', hHandler]

/-
  A Walk completes with exactly the entries below its base,
  in order, whatever the batch size and whatever the Agent
  chooses to truncate.
-/
theorem doWalkCollect_subtree
    (hSorted :
      table.Pairwise (fun a b => a.name < b.name))
    (hValues :
      ∀ vb ∈ table, vb.val.isException = false)
    (hAgent : AnsweredBy table env)
    (options : WalkOptions)
    (world : σ) :
    ∃ rounds, ∀ more,
      doWalkCollect env base options (rounds + more) world =
        some (none,
          table.filter (fun vb =>
            base.isPrefixOf vb.name ∧ base ≠ vb.name)) := by
  rcases doWalk_from hSorted hValues hAgent _ _
    { world := world
      handler := []
      current := base
      maxRepetitions := options.maxRepetitions }
    rfl rfl (Or.inl rfl) with ⟨rounds, w', hRun, hHandler⟩
  refine ⟨rounds, ?_⟩
  intro more
  rw [doWalkCollect, hRun more]
  simp only [reduceCtorEq, if_false, hHandler,
    List.nil_append]
  rw [successors, above, List.filter_filter]
  congr 2
  apply List.filter_congr
  intro vb _
  by_cases hPrefix : base.isPrefixOf vb.name = true
  · simp [inSubtree, hPrefix,
      Oid.lt_iff_ne_of_isPrefixOf hPrefix]
  · simp [inSubtree, hPrefix]

end

/-
  An Agent that answers at most two entries at a time, with
  endOfMibView where the table ends.
-/
def shortAgent
    (table : List Varbind) : WalkEnv Unit :=
  { cancelled := fun _ => {}
    stopping := fun _ => false
    doRequest := fun req _ =>
      let found : List Varbind :=
        match req.varbinds with
        | [⟨o, _⟩] =>
            successors table o ++
              [⟨o, .exception .endOfMibView⟩]
        | _ => []
      if req.type = .getNext then
        ((none, { req with varbinds := found.take 1 }), ())
      else if 2 < req.errorIndex then
        ((some tooBig, req), ())
      else
        ((none, { req with varbinds := found.take 2 }), ()) }

theorem shortAgent_answers
    (table : List Varbind) :
    AnsweredBy table (shortAgent table) where
  not_cancelled _ := rfl
  not_stopping _ := rfl
  answers := by
    intro req s o v hReq
    cases hType : req.type with
    | getNext =>
        cases hFound : successors table o with
        | nil =>
            simp [shortAgent, hType, hReq, NextAnswer,
              isEndOfMibView, hFound]
        | cons first rest =>
            simp [shortAgent, hType, hReq, NextAnswer,
              hFound]
    | getBulk =>
        by_cases hBig : 2 < req.errorIndex
        · left
          have hOne : (1 : Int32) < 2 := by decide
          simp only [shortAgent, hType, hBig, reduceCtorEq,
            if_false, if_true, true_and]
          exact Int32.lt_trans hOne hBig
        · right
          simp only [shortAgent, hType, hBig, hReq,
            reduceCtorEq, if_false, true_and]
          rcases hFound : successors table o with
            _ | ⟨a, _ | ⟨b, rest⟩⟩
          · exact ⟨by simp, [], [], [_], hFound, rfl,
              by simp [isEndOfMibView], fun _ => rfl⟩
          · exact ⟨by simp, [a], [], [_], hFound, rfl,
              by simp [isEndOfMibView], fun _ => rfl⟩
          · exact ⟨by simp, [a, b], rest, [], hFound, rfl,
              by simp, by simp⟩
    | get => trivial
    | set => trivial
    | response => trivial
    | report => trivial

/- Below 1.3.6, next to names before, at and after it. -/
theorem doWalkCollect_subtree_sample :
    ∃ rounds, ∀ more,
      doWalkCollect
        (shortAgent
          [⟨⟨[1, 3, 5, 9]⟩, .null⟩, ⟨⟨[1, 3, 6]⟩, .null⟩,
            ⟨⟨[1, 3, 6, 1]⟩, .integer 1⟩,
            ⟨⟨[1, 3, 6, 1, 4]⟩, .integer 2⟩,
            ⟨⟨[1, 3, 6, 2]⟩, .integer 3⟩,
            ⟨⟨[1, 3, 7]⟩, .null⟩])
        ⟨[1, 3, 6]⟩ {} (rounds + more) () =
        some (none,
          [⟨⟨[1, 3, 6, 1]⟩, .integer 1⟩,
            ⟨⟨[1, 3, 6, 1, 4]⟩, .integer 2⟩,
            ⟨⟨[1, 3, 6, 2]⟩, .integer 3⟩]) :=
  doWalkCollect_subtree (by decide) (by decide)
    (shortAgent_answers _) {} ()

end Snmpio
