import Snmpio.Client.WalkCorrectness

/-
  Walks against any Agent.

  Nothing is assumed of the Responses.  A round takes the
  Varbinds of a Response as long as they ascend inside the
  Subtree, and the first one that does not stops the Walk.

  Key definitions include:
    * `Ascends`
    * `Stops`
    * `walkRounds`
    * `recording`

  Key theorems include:
    * `ascends_or_stops`
    * `scanBatch_stops`
    * `walkRounds_logged`
    * `doWalk_batches`
    * `doWalk_ending`
-/

------------------------------------------------------------
-- Scans
------------------------------------------------------------

namespace Snmpio

variable {base current : Oid} {taken : List Varbind}

/- Varbinds that a scan takes, one after the other. -/
structure Ascends
    (base current : Oid)
    (taken : List Varbind) : Prop where
  ascending : taken.Pairwise (fun a b => a.name < b.name)
  above : ∀ vb ∈ taken, current < vb.name
  inside : ∀ vb ∈ taken, base.isPrefixOf vb.name = true
  plain : ∀ vb ∈ taken, vb.val.isException = false

/- The first Varbind that a scan does not take. -/
structure Stops
    (base current : Oid)
    (varbinds taken : List Varbind)
    (vb : Varbind)
    (rest : List Varbind) : Prop where
  split : varbinds = taken ++ vb :: rest
  ascends : Ascends base current taken
  stops :
    vb.val.isException = true ∨
      base.isPrefixOf vb.name = false ∨
      ¬ lastName current taken < vb.name

theorem Ascends.nil
    (base current : Oid) :
    Ascends base current [] where
  ascending := List.Pairwise.nil
  above := by simp
  inside := by simp
  plain := by simp

theorem Ascends.cons
    {vb : Varbind}
    (hPlain : vb.val.isException = false)
    (hInside : base.isPrefixOf vb.name = true)
    (hAbove : current < vb.name)
    (hTaken : Ascends base vb.name taken) :
    Ascends base current (vb :: taken) where
  ascending := List.pairwise_cons.mpr
    ⟨hTaken.above, hTaken.ascending⟩
  above := by
    intro other hOther
    rcases List.mem_cons.mp hOther with rfl | hOther
    · exact hAbove
    · exact List.lt_trans hAbove (hTaken.above other hOther)
  inside := by
    intro other hOther
    rcases List.mem_cons.mp hOther with rfl | hOther
    · exact hInside
    · exact hTaken.inside other hOther
  plain := by
    intro other hOther
    rcases List.mem_cons.mp hOther with rfl | hOther
    · exact hPlain
    · exact hTaken.plain other hOther

/- A scan takes every Varbind, or one stops it. -/
theorem ascends_or_stops
    (base current : Oid)
    (varbinds : List Varbind) :
    Ascends base current varbinds ∨
      ∃ taken vb rest,
        Stops base current varbinds taken vb rest := by
  induction varbinds generalizing current with
  | nil => exact Or.inl (Ascends.nil base current)
  | cons vb rest ih =>
      have hStop :
          (vb.val.isException = true ∨
            base.isPrefixOf vb.name = false ∨
            ¬ current < vb.name) →
          ∃ taken vb' rest',
            Stops base current (vb :: rest) taken vb'
              rest' := by
        intro hStops
        exact ⟨[], vb, rest, rfl, Ascends.nil base current,
          hStops⟩
      by_cases hPlain : vb.val.isException = true
      · exact Or.inr (hStop (Or.inl hPlain))
      · by_cases hInside : base.isPrefixOf vb.name = true
        · by_cases hAbove : current < vb.name
          · rw [Bool.not_eq_true] at hPlain
            rcases ih vb.name with
              hAll | ⟨taken, vb', rest', hSplit, hTaken,
                hStops⟩
            · exact Or.inl (hAll.cons hPlain hInside hAbove)
            · right
              refine ⟨vb :: taken, vb', rest', ?_,
                hTaken.cons hPlain hInside hAbove, hStops⟩
              rw [hSplit]
              rfl
          · exact Or.inr (hStop (Or.inr (Or.inr hAbove)))
        · rw [Bool.not_eq_true] at hInside
          exact Or.inr (hStop (Or.inr (Or.inl hInside)))

theorem scanBatch_ascends
    (hTaken : Ascends base current taken)
    (batch more : List Varbind) :
    scanBatch base current batch (taken ++ more) =
      scanBatch base (lastName current taken)
        (batch ++ taken) more := by
  rw [scanBatch_append base hTaken.ascending hTaken.above
    hTaken.plain, if_pos]
  rw [List.all_eq_true]
  exact hTaken.inside

/- What becomes of a batch that is stopped. -/
theorem scanBatch_stops
    {varbinds : List Varbind}
    {vb : Varbind}
    {rest : List Varbind}
    (hStops : Stops base current varbinds taken vb rest) :
    scanBatch base current [] varbinds =
      if vb.val.isException = true ∨
          base.isPrefixOf vb.name = false then
        .ok (true, lastName current taken, taken)
      else .error .nonIncreasingOid := by
  rw [hStops.split, scanBatch_ascends hStops.ascends,
    scanBatch, List.nil_append]
  simp only [Bool.not_eq_true]
  split
  · rfl
  · next hGo =>
    rw [not_or, Bool.not_eq_true, Bool.not_eq_false] at hGo
    rw [if_pos]
    rcases hStops.stops with hMarker | hOutside | hOrder
    · rw [hGo.1] at hMarker
      cases hMarker
    · rw [hGo.2] at hOutside
      cases hOutside
    · exact hOrder

end Snmpio

------------------------------------------------------------
-- The Cursor
------------------------------------------------------------

namespace Snmpio

variable {base current : Oid}

/- Where the cursor of a Walk may be. -/
def Within
    (base current : Oid) : Prop :=
  current = base ∨
    (base < current ∧ base.isPrefixOf current = true)

theorem Ascends.lastName_cases
    {taken : List Varbind}
    (hTaken : Ascends base current taken) :
    (taken = [] ∧ lastName current taken = current) ∨
      ∃ vb ∈ taken, lastName current taken = vb.name ∧
        ∀ other ∈ taken,
          other.name = vb.name ∨ other.name < vb.name := by
  rcases List.eq_nil_or_concat' taken with
    rfl | ⟨before, vb, rfl⟩
  · exact Or.inl ⟨rfl, rfl⟩
  · right
    refine ⟨vb, by simp, by simp [lastName], ?_⟩
    intro other hOther
    rcases List.mem_append.mp hOther with hOther | hOther
    · right
      exact (List.pairwise_append.mp hTaken.ascending).2.2
        other hOther vb List.mem_cons_self
    · rw [List.mem_singleton] at hOther
      exact Or.inl (by rw [hOther])

/- Above the base, wherever the cursor is. -/
theorem Within.above
    (hCurrent : Within base current)
    {name : Oid}
    (hName : current < name) :
    base < name := by
  rcases hCurrent with rfl | ⟨hLt, _⟩
  · exact hName
  · exact List.lt_trans hLt hName

theorem Within.lastName
    (hCurrent : Within base current)
    {taken : List Varbind}
    (hTaken : Ascends base current taken) :
    Within base (lastName current taken) := by
  rcases hTaken.lastName_cases with
    ⟨_, hSame⟩ | ⟨vb, hMem, hLast, _⟩
  · rw [hSame]
    exact hCurrent
  · rw [hLast]
    exact Or.inr ⟨hCurrent.above (hTaken.above vb hMem),
      hTaken.inside vb hMem⟩

/- Outside the Subtree the cursor is no better than base. -/
theorem Within.lt_iff
    (hCurrent : Within base current)
    {name : Oid}
    (hOutside : base.isPrefixOf name = false) :
    current < name ↔ base < name := by
  constructor
  · exact hCurrent.above
  · intro hBase
    rcases hCurrent with rfl | ⟨_, hPrefix⟩
    · exact hBase
    · by_contra hNot
      have hInside : base.isPrefixOf name = true := by
        rcases List.le_iff_lt_or_eq.mp hNot with hLt | hEq
        · exact Oid.isPrefixOf_of_between hBase hLt hPrefix
        · rw [Oid.isPrefixOf_iff] at hPrefix ⊢
          rw [hEq]
          exact hPrefix
      rw [hOutside] at hInside
      cases hInside

end Snmpio

------------------------------------------------------------
-- Rounds
------------------------------------------------------------

namespace Snmpio

variable {σ τ : Type} (env : WalkEnv σ)
variable (onBatch : List Varbind → τ → Bool × τ)
variable (base : Oid)

/- Where a Walk is after some rounds, if it has not ended. -/
def walkRounds :
    (rounds : Nat) → WalkState σ τ →
      WalkState σ τ ⊕ (Option ErrorCode × WalkState σ τ)
| 0, w => .inl w
| rounds + 1, w =>
    match walkRound env onBatch base w with
    | .inl w => walkRounds rounds w
    | .inr result => .inr result

def startWalk
    (base : Oid)
    (options : WalkOptions)
    (world : σ)
    (handler : τ) : WalkState σ τ :=
  { world := world
    handler := handler
    current := base
    maxRepetitions := options.maxRepetitions }

theorem doWalk_eq_walkRounds
    (rounds : Nat)
    (w : WalkState σ τ) :
    doWalk env onBatch base rounds w =
      (walkRounds env onBatch base rounds w).getRight? := by
  induction rounds generalizing w with
  | zero => rfl
  | succ rounds ih =>
      rw [doWalk, walkRounds]
      cases walkRound env onBatch base w with
      | inl w' => exact ih w'
      | inr result => rfl

/-
  What one round keeps, every Walk keeps.  A round ends, asks
  for less, or takes a Response in the world it left behind.
-/
theorem walkRounds_invariant
    {P : WalkState σ τ → Prop}
    {Q : Option ErrorCode → WalkState σ τ → Prop}
    (hEnd : ∀ (ec : ErrorCode) w, P w → Q (some ec) w)
    (hWorld :
      ∀ w world maxRepetitions, P w →
        P { w with
          world := world
          maxRepetitions := maxRepetitions })
    (hTake :
      ∀ w req s resp,
        (env.doRequest req s).1 = (none, resp) → P w →
          Sum.elim P (fun r => Q r.1 r.2)
            (takeBatch env onBatch base resp w))
    (rounds : Nat)
    {w : WalkState σ τ}
    (hStart : P w) :
    Sum.elim P (fun r => Q r.1 r.2)
      (walkRounds env onBatch base rounds w) := by
  have hRound :
      ∀ w, P w →
        Sum.elim P (fun r => Q r.1 r.2)
          (walkRound env onBatch base w) := by
    intro w hw
    unfold walkRound takeReply
    split
    · exact hEnd _ w hw
    · dsimp only
      split
      · exact hWorld w _ _ hw
      · next hReply =>
        split
        · split
          · exact hEnd _ _ (hWorld w _ _ hw)
          · exact hEnd _ _ (hWorld w _ _ hw)
        · next hEc =>
          exact hTake _ _ w.world _ (Prod.ext hEc rfl)
            (hWorld w _ w.maxRepetitions hw)
  induction rounds generalizing w with
  | zero => exact hStart
  | succ rounds ih =>
      rw [walkRounds]
      have hFirst := hRound w hStart
      cases hNext : walkRound env onBatch base w with
      | inl w' =>
          rw [hNext] at hFirst
          exact ih hFirst
      | inr result =>
          rw [hNext] at hFirst
          exact hFirst

end Snmpio

------------------------------------------------------------
-- Batches
------------------------------------------------------------

namespace Snmpio

variable {σ τ : Type}

/- The batches a handler was called with, and its answers. -/
abbrev BatchLog := List (List Varbind × Bool)

/- A handler that also keeps the log of its calls. -/
def recording
    (onBatch : List Varbind → τ → Bool × τ)
    (batch : List Varbind)
    (state : BatchLog × τ) : Bool × (BatchLog × τ) :=
  let answer := onBatch batch state.2
  (answer.1, (state.1 ++ [(batch, answer.1)], answer.2))

/- All that was handed over, in order. -/
def BatchLog.taken
    (log : BatchLog) : List Varbind :=
  (log.map Prod.fst).flatten

def WalkState.forget
    (w : WalkState σ (BatchLog × τ)) : WalkState σ τ :=
  { world := w.world
    handler := w.handler.2
    current := w.current
    maxRepetitions := w.maxRepetitions }

/- What holds of the log while a Walk goes on. -/
structure Logged
    (base current : Oid)
    (log : BatchLog) : Prop where
  within : Within base current
  ascends : Ascends base base log.taken
  reached :
    ∀ vb ∈ log.taken,
      vb.name = current ∨ vb.name < current
  nonempty : ∀ call ∈ log, call.1 ≠ []

/- Only the last call of an ended Walk may be refused. -/
def Answers
    (ec : Option ErrorCode)
    (log : BatchLog) : Prop :=
  (∀ call ∈ log, call.2 = true) ∨
    (ec = some (.errc .walkIncomplete) ∧
      ∃ before batch, log = before ++ [(batch, false)] ∧
        ∀ call ∈ before, call.2 = true)

/- A refused call is the last one, and ended the Walk. -/
theorem Answers.refused
    {ec : Option ErrorCode}
    {log before later : BatchLog}
    {call : List Varbind × Bool}
    (hAnswers : Answers ec log)
    (hSplit : log = before ++ call :: later)
    (hRefused : call.2 = false) :
    later = [] ∧ ec = some (.errc .walkIncomplete) := by
  have hNot :
      ∀ calls : BatchLog, call ∈ calls →
        ¬ ∀ call ∈ calls, call.2 = true := by
    intro calls hMem hKept
    have hCall := hKept call hMem
    rw [hRefused] at hCall
    cases hCall
  rcases hAnswers with
    hKept | ⟨hEc, earlier, batch, hLast, hKept⟩
  · exact absurd hKept (hNot log (by rw [hSplit]; simp))
  · refine ⟨?_, hEc⟩
    rw [hLast] at hSplit
    -- Every call but the last one was kept.
    rcases List.eq_nil_or_concat' later with
      rfl | ⟨rest, last, rfl⟩
    · rfl
    · rw [← List.cons_append, ← List.append_assoc] at hSplit
      have hEarlier := (List.append_inj' hSplit rfl).1
      exact absurd hKept (hNot earlier (by
        rw [hEarlier]
        simp))

theorem Logged.nil
    (base : Oid) :
    Logged base base [] where
  within := Or.inl rfl
  ascends := Ascends.nil base base
  reached := by simp [BatchLog.taken]
  nonempty := by simp

theorem BatchLog.taken_append
    (log : BatchLog)
    (batch : List Varbind)
    (keep : Bool) :
    BatchLog.taken (log ++ [(batch, keep)]) =
      log.taken ++ batch := by
  simp [BatchLog.taken]

/- A further batch ascends from the cursor. -/
theorem Logged.append
    {base current : Oid}
    {log : BatchLog}
    (hLog : Logged base current log)
    {batch : List Varbind}
    (hBatch : Ascends base current batch)
    (hNonempty : batch ≠ [])
    (keep : Bool) :
    Logged base (lastName current batch)
      (log ++ [(batch, keep)]) where
  within := hLog.within.lastName hBatch
  ascends := by
    have hBelow :
        ∀ vb ∈ log.taken, ∀ other ∈ batch,
          vb.name < other.name := by
      intro vb hMem other hOther
      have hAbove := hBatch.above other hOther
      rcases hLog.reached vb hMem with hEq | hLt
      · rw [hEq]
        exact hAbove
      · exact List.lt_trans hLt hAbove
    rw [BatchLog.taken_append]
    refine ⟨?_, ?_, ?_, ?_⟩
    · exact List.pairwise_append.mpr
        ⟨hLog.ascends.ascending, hBatch.ascending, hBelow⟩
    · intro vb hMem
      rcases List.mem_append.mp hMem with hMem | hMem
      · exact hLog.ascends.above vb hMem
      · exact hLog.within.above (hBatch.above vb hMem)
    · intro vb hMem
      rcases List.mem_append.mp hMem with hMem | hMem
      · exact hLog.ascends.inside vb hMem
      · exact hBatch.inside vb hMem
    · intro vb hMem
      rcases List.mem_append.mp hMem with hMem | hMem
      · exact hLog.ascends.plain vb hMem
      · exact hBatch.plain vb hMem
  reached := by
    rw [BatchLog.taken_append]
    rcases hBatch.lastName_cases with
      ⟨hEmpty, _⟩ | ⟨last, hLast, hName, hMax⟩
    · exact absurd hEmpty hNonempty
    · intro vb hMem
      rw [hName]
      rcases List.mem_append.mp hMem with hMem | hMem
      · right
        have hAbove := hBatch.above last hLast
        rcases hLog.reached vb hMem with hEq | hLt
        · rw [hEq]
          exact hAbove
        · exact List.lt_trans hLt hAbove
      · exact hMax vb hMem
  nonempty := by
    intro call hCall
    rcases List.mem_append.mp hCall with hCall | hCall
    · exact hLog.nonempty call hCall
    · rw [List.mem_singleton] at hCall
      rw [hCall]
      exact hNonempty

/-
  What a scan hands over ascends from the cursor, and is all
  there was unless the Walk is done.
-/
theorem scanBatch_ok
    {base current : Oid}
    {varbinds : List Varbind}
    {done : Bool}
    {reached : Oid}
    {batch : List Varbind}
    (hScan :
      scanBatch base current [] varbinds =
        .ok (done, reached, batch)) :
    Ascends base current batch ∧
      reached = lastName current batch ∧
      (done = false → batch = varbinds) := by
  rcases ascends_or_stops base current varbinds with
    hAll | ⟨taken, vb, rest, hStops⟩
  · have hWhole := scanBatch_ascends hAll [] []
    rw [List.append_nil, hScan, scanBatch,
      List.nil_append] at hWhole
    cases hWhole
    exact ⟨hAll, rfl, fun _ => rfl⟩
  · rw [scanBatch_stops hStops] at hScan
    split at hScan
    · cases hScan
      exact ⟨hStops.ascends, rfl, by simp⟩
    · cases hScan

variable (env : WalkEnv σ)
variable (onBatch : List Varbind → τ → Bool × τ)
variable (base : Oid)

/- One Response adds a batch at most. -/
theorem takeBatch_logged
    (resp : Pdu)
    {w : WalkState σ (BatchLog × τ)}
    (hLog : Logged base w.current w.handler.1)
    (hKept : ∀ call ∈ w.handler.1, call.2 = true) :
    Sum.elim
      (fun w => Logged base w.current w.handler.1 ∧
        ∀ call ∈ w.handler.1, call.2 = true)
      (fun r => Logged base r.2.current r.2.handler.1 ∧
        Answers r.1 r.2.handler.1)
      (takeBatch env (recording onBatch) base resp w) := by
  unfold takeBatch
  split
  · exact ⟨hLog, Or.inl hKept⟩
  · split
    · exact ⟨hLog, Or.inl hKept⟩
    · split
      · exact ⟨hLog, Or.inl hKept⟩
      · next done reached batch hScan =>
        rcases scanBatch_ok hScan with ⟨hBatch, rfl, _⟩
        cases hEmpty : batch.isEmpty with
        | true =>
            rw [List.isEmpty_iff] at hEmpty
            subst hEmpty
            cases done with
            | true => exact ⟨hLog, Or.inl hKept⟩
            | false => exact ⟨hLog, hKept⟩
        | false =>
            have hMore :=
              hLog.append hBatch (by simpa using hEmpty)
                (onBatch batch w.handler.2).1
            simp only [Bool.false_eq_true, if_false,
              recording]
            cases hAnswer :
              (onBatch batch w.handler.2).1 with
            | false =>
                rw [hAnswer] at hMore
                exact ⟨hMore, Or.inr ⟨rfl, _, batch, rfl,
                  hKept⟩⟩
            | true =>
                rw [hAnswer] at hMore
                have hKept' :
                    ∀ call ∈ w.handler.1 ++ [(batch, true)],
                      call.2 = true := by
                  intro call hCall
                  rcases List.mem_append.mp hCall with
                    hCall | hCall
                  · exact hKept call hCall
                  · rw [List.mem_singleton] at hCall
                    rw [hCall]
                cases done with
                | true => exact ⟨hMore, Or.inl hKept'⟩
                | false => exact ⟨hMore, hKept'⟩

/- Every Walk's log ascends in the Subtree. -/
theorem walkRounds_logged
    (rounds : Nat)
    {w : WalkState σ (BatchLog × τ)}
    (hLog : Logged base w.current w.handler.1)
    (hKept : ∀ call ∈ w.handler.1, call.2 = true) :
    Sum.elim
      (fun w => Logged base w.current w.handler.1 ∧
        ∀ call ∈ w.handler.1, call.2 = true)
      (fun r => Logged base r.2.current r.2.handler.1 ∧
        Answers r.1 r.2.handler.1)
      (walkRounds env (recording onBatch) base rounds w) := by
  refine walkRounds_invariant env (recording onBatch) base
    (Q := fun ec w => Logged base w.current w.handler.1 ∧
      Answers ec w.handler.1) ?_ ?_ ?_ rounds
    ⟨hLog, hKept⟩
  · rintro ec w ⟨hLog, hKept⟩
    exact ⟨hLog, Or.inl hKept⟩
  · intro w world maxRepetitions hw
    exact hw
  · rintro w req s resp _ ⟨hLog, hKept⟩
    exact takeBatch_logged env onBatch base resp hLog hKept

/- Recording changes nothing but the log. -/
def forgetLog :
    WalkState σ (BatchLog × τ) ⊕
        (Option ErrorCode × WalkState σ (BatchLog × τ)) →
      WalkState σ τ ⊕ (Option ErrorCode × WalkState σ τ) :=
  Sum.map WalkState.forget (Prod.map id WalkState.forget)

theorem takeBatch_recording
    (resp : Pdu)
    (w : WalkState σ (BatchLog × τ)) :
    takeBatch env onBatch base resp w.forget =
      forgetLog
        (takeBatch env (recording onBatch) base resp w) := by
  have hWorld : w.forget.world = w.world := rfl
  have hCurrent : w.forget.current = w.current := rfl
  have hHandler : w.forget.handler = w.handler.2 := rfl
  unfold takeBatch
  rw [hWorld, hCurrent]
  split
  · rfl
  · split
    · rfl
    · split
      · rfl
      · next done reached batch hScan =>
        cases batch with
        | nil =>
            cases done with
            | true => rfl
            | false => rfl
        | cons vb more =>
            simp only [List.isEmpty_cons, Bool.false_eq_true,
              if_false, recording, hHandler]
            rcases onBatch (vb :: more) w.handler.2 with
              ⟨keep, handler⟩
            cases keep with
            | false => rfl
            | true =>
                cases done with
                | true => rfl
                | false => rfl

theorem walkRound_recording
    (w : WalkState σ (BatchLog × τ)) :
    walkRound env onBatch base w.forget =
      forgetLog
        (walkRound env (recording onBatch) base w) := by
  have hWorld : w.forget.world = w.world := rfl
  have hCurrent : w.forget.current = w.current := rfl
  have hSize :
      w.forget.maxRepetitions = w.maxRepetitions := rfl
  unfold walkRound takeReply
  rw [hWorld, hCurrent, hSize]
  split
  · rfl
  · dsimp only
    split
    · rfl
    · split
      · split
        · rfl
        · rfl
      · exact takeBatch_recording env onBatch base _
          { w with world := _ }

theorem walkRounds_recording
    (rounds : Nat)
    (w : WalkState σ (BatchLog × τ)) :
    walkRounds env onBatch base rounds w.forget =
      forgetLog
        (walkRounds env (recording onBatch) base rounds
          w) := by
  induction rounds generalizing w with
  | zero => rfl
  | succ rounds ih =>
      rw [walkRounds, walkRounds, walkRound_recording]
      cases walkRound env (recording onBatch) base w with
      | inl w' => exact ih w'
      | inr result => rfl

/- The state a Walk has reached, ended or not. -/
def walkState :
    WalkState σ τ ⊕ (Option ErrorCode × WalkState σ τ) →
      WalkState σ τ :=
  Sum.elim id Prod.snd

/- The collecting handler holds what its log does. -/
theorem walkRounds_collects
    (rounds : Nat)
    {w : WalkState σ (BatchLog × List Varbind)}
    (hStart : w.handler.2 = w.handler.1.taken) :
    (walkState (walkRounds env (recording collectBatch) base
        rounds w)).handler.2 =
      BatchLog.taken
        (walkState (walkRounds env (recording collectBatch)
          base rounds w)).handler.1 := by
  have hAll :=
    walkRounds_invariant env (recording collectBatch) base
      (P := fun w => w.handler.2 = w.handler.1.taken)
      (Q := fun _ w => w.handler.2 = w.handler.1.taken)
      (fun _ _ hw => hw) (fun _ _ _ hw => hw)
      (by
        intro w req s resp _ hw
        unfold takeBatch
        split
        · exact hw
        · split
          · exact hw
          · split
            · exact hw
            · next done reached batch hScan =>
              cases batch with
              | nil =>
                  cases done with
                  | true => exact hw
                  | false => exact hw
              | cons vb more =>
                  have hMore :
                      w.handler.2 ++ (vb :: more) =
                        BatchLog.taken (w.handler.1 ++
                          [(vb :: more, true)]) := by
                    rw [BatchLog.taken_append, hw]
                  cases done with
                  | true => exact hMore
                  | false => exact hMore)
      rounds hStart
  cases hEnd :
    walkRounds env (recording collectBatch) base rounds w with
  | inl w' =>
      rw [hEnd] at hAll
      exact hAll
  | inr result =>
      rw [hEnd] at hAll
      exact hAll

/- Collecting returns what the log of its handler holds. -/
theorem doWalkCollect_log
    {options : WalkOptions}
    {world : σ}
    {rounds : Nat}
    {ec : Option ErrorCode}
    {collected : List Varbind}
    (hCollect :
      doWalkCollect env base options rounds world =
        some (ec, collected)) :
    ∃ w, walkRounds env (recording collectBatch) base rounds
        (startWalk base options world ([], [])) =
          .inr (ec, w) ∧
      collected =
        if ec = some .operationAborted then []
        else w.handler.1.taken := by
  have hForget :=
    walkRounds_recording env collectBatch base rounds
      (startWalk base options world ([], []))
  have hSame :=
    walkRounds_collects env base rounds
      (w := startWalk base options world ([], [])) rfl
  have hStart :
      doWalk env collectBatch base rounds
          { world := world
            handler := []
            current := base
            maxRepetitions := options.maxRepetitions } =
        doWalk env collectBatch base rounds
          (startWalk base options world ([], [])).forget :=
    rfl
  unfold doWalkCollect at hCollect
  rw [hStart, doWalk_eq_walkRounds, hForget] at hCollect
  cases hEnd :
    walkRounds env (recording collectBatch) base rounds
      (startWalk base options world ([], [])) with
  | inl w =>
      rw [hEnd] at hCollect
      cases hCollect
  | inr result =>
      rcases result with ⟨ec', w⟩
      rw [hEnd] at hCollect hSame
      change (if ec' = some .operationAborted then
        some (ec', []) else some (ec', w.handler.2)) =
          some (ec, collected) at hCollect
      change w.handler.2 = w.handler.1.taken at hSame
      rw [hSame] at hCollect
      split at hCollect
      · next hAborted =>
        cases hCollect
        exact ⟨w, rfl, by rw [if_pos hAborted]⟩
      · next hAborted =>
        cases hCollect
        exact ⟨w, rfl, by rw [if_neg hAborted]⟩

/-
  Whatever the Agent answers, and whether or not the Walk has
  ended: what the handler has been given ascends in the
  Subtree above the base, without markers and in batches that
  are not empty.  A refused batch is the last one and the end
  of the Walk.  Collecting keeps what it was given, unless
  the Walk was aborted.
-/
theorem doWalk_batches
    (options : WalkOptions)
    (world : σ)
    (handler : τ)
    (rounds : Nat) :
    let after :=
      walkRounds env (recording onBatch) base rounds
        (startWalk base options world ([], handler))
    let log := (walkState after).handler.1
    doWalk env onBatch base rounds
        (startWalk base options world handler) =
      (forgetLog after).getRight? ∧
    log.taken.Pairwise (fun a b => a.name < b.name) ∧
    (∀ vb ∈ log.taken,
      base < vb.name ∧ base.isPrefixOf vb.name = true ∧
        vb.val.isException = false) ∧
    (∀ call ∈ log, call.1 ≠ []) ∧
    (∀ before call later, log = before ++ call :: later →
      call.2 = false →
        later = [] ∧
          ∃ w, after =
            .inr (some (.errc .walkIncomplete), w)) ∧
    (∀ ec collected,
      doWalkCollect env base options rounds world =
          some (ec, collected) →
        ∃ w, walkRounds env (recording collectBatch) base
            rounds (startWalk base options world ([], [])) =
              .inr (ec, w) ∧
          collected =
            if ec = some .operationAborted then []
            else w.handler.1.taken) := by
  intro after log
  have hLogged :=
    walkRounds_logged env onBatch base rounds
      (w := startWalk base options world ([], handler))
      (Logged.nil base) (by simp [startWalk])
  have hLog : Logged base (walkState after).current log := by
    change Sum.elim _ _ after at hLogged
    cases hAfter : after with
    | inl w =>
        rw [hAfter] at hLogged
        simp only [log, hAfter]
        exact hLogged.1
    | inr result =>
        rw [hAfter] at hLogged
        simp only [log, hAfter]
        exact hLogged.1
  refine ⟨?_, hLog.ascends.ascending, ?_, hLog.nonempty, ?_,
    ?_⟩
  · rw [doWalk_eq_walkRounds]
    exact congrArg Sum.getRight?
      (walkRounds_recording env onBatch base rounds
        (startWalk base options world ([], handler)))
  · intro vb hMem
    exact ⟨hLog.ascends.above vb hMem,
      hLog.ascends.inside vb hMem,
      hLog.ascends.plain vb hMem⟩
  · intro before call later hSplit hRefused
    change Sum.elim _ _ after at hLogged
    cases hAfter : after with
    | inl w =>
        rw [hAfter] at hLogged
        have hAnswers : Answers none log := by
          simp only [log, hAfter]
          exact Or.inl hLogged.2
        cases (hAnswers.refused hSplit hRefused).2
    | inr result =>
        rw [hAfter] at hLogged
        have hAnswers : Answers result.1 log := by
          simp only [log, hAfter]
          exact hLogged.2
        rcases hAnswers.refused hSplit hRefused with
          ⟨hLast, hEc⟩
        exact ⟨hLast, result.2, by rw [← hEc]⟩
  · intro ec collected hCollect
    exact doWalkCollect_log env base hCollect

end Snmpio

------------------------------------------------------------
-- Endings
------------------------------------------------------------

namespace Snmpio

variable {σ τ : Type} (env : WalkEnv σ)
variable (onBatch : List Varbind → τ → Bool × τ)
variable (base : Oid)

/-
  A Varbind that does not go back behind the base: a marker,
  a name in the Subtree, or one above the base.
-/
def Onward
    (vb : Varbind) : Prop :=
  vb.val.isException = true ∨
    base.isPrefixOf vb.name = true ∨
    base < vb.name

/-
  The round that begins at `w` is answered, and the scan of
  its Response ends at a Varbind, having taken those before.
-/
structure Ending
    (w : WalkState σ τ)
    (world : σ)
    (taken : List Varbind)
    (vb : Varbind) : Prop where
  asks : stopNow (env.cancelled w.world) = none
  answered :
    ∃ resp rest,
      env.doRequest
          (walkRequest w.current w.maxRepetitions) w.world =
        ((none, resp), world) ∧
      Stops base w.current resp.varbinds taken vb rest
  running : env.stopping world = false

/- Wherever the scan of a round ends, it is onward. -/
def EndsOnward
    (start : WalkState σ τ) : Prop :=
  ∀ k w world taken vb,
    walkRounds env onBatch base k start = .inl w →
      Ending env base w world taken vb → Onward base vb

variable {start w w' : WalkState σ τ} {world : σ}
variable {taken : List Varbind} {vb : Varbind}

/- A Response that is taken whole asks for more, or fails. -/
theorem takeBatch_whole
    {resp : Pdu}
    (hAll : Ascends base w.current resp.varbinds) :
    (∃ ec, takeBatch env onBatch base resp w =
        .inr (some ec, w)) ∨
      ∃ handler,
        let next : WalkState σ τ :=
          { w with
            current := lastName w.current resp.varbinds
            handler := handler }
        takeBatch env onBatch base resp w = .inl next ∨
          takeBatch env onBatch base resp w =
            .inr (some (.errc .walkIncomplete), next) := by
  have hScan := scanBatch_ascends hAll [] []
  rw [List.append_nil, scanBatch, List.nil_append] at hScan
  unfold takeBatch
  rw [hScan]
  split
  · exact Or.inl ⟨_, rfl⟩
  · split
    · exact Or.inl ⟨_, rfl⟩
    · right
      dsimp only
      generalize (if resp.varbinds.isEmpty then
        (true, w.handler)
        else onBatch resp.varbinds w.handler) = handled
      rcases handled with ⟨keep, handler⟩
      cases keep with
      | false => exact ⟨handler, Or.inr rfl⟩
      | true => exact ⟨handler, Or.inl rfl⟩

variable {env base}

/- What the round does with its Response. -/
theorem Ending.takeBatch_eq
    (hEnding : Ending env base w world taken vb) :
    ∃ resp rest,
      Stops base w.current resp.varbinds taken vb rest ∧
        resp.varbinds.isEmpty = false ∧
        walkRound env onBatch base w =
          takeBatch env onBatch base resp
            { w with world := world } := by
  rcases hEnding.answered with ⟨resp, rest, hReply, hStops⟩
  refine ⟨resp, rest, hStops, ?_, ?_⟩
  · rw [hStops.split]
    simp
  · simp only [walkRound, hEnding.asks, hReply, takeReply,
      reduceCtorEq, false_and, if_false]

/- A marker, or a name outside, ends the Walk. -/
theorem Ending.outside
    (hEnding : Ending env base w world taken vb)
    (hOutside :
      vb.val.isException = true ∨
        base.isPrefixOf vb.name = false) :
    ∃ ec handler,
      (ec = none ∨ ec = some (.errc .walkIncomplete)) ∧
        walkRound env onBatch base w =
          .inr (ec,
            { w with
              world := world
              current := lastName w.current taken
              handler := handler }) := by
  rcases hEnding.takeBatch_eq onBatch with
    ⟨resp, rest, hStops, hNonempty, hTakes⟩
  rw [hTakes, takeBatch]
  simp only [hEnding.running, hNonempty, Bool.false_eq_true,
    if_false, scanBatch_stops hStops, if_pos hOutside]
  generalize (if taken.isEmpty then (true, w.handler)
    else onBatch taken w.handler) = handled
  rcases handled with ⟨keep, handler⟩
  cases keep with
  | false => exact ⟨_, handler, Or.inr rfl, rfl⟩
  | true => exact ⟨_, handler, Or.inl rfl, rfl⟩

/- Any other Varbind that ends the scan makes it fail. -/
theorem Ending.inside
    (hEnding : Ending env base w world taken vb)
    (hPlain : vb.val.isException = false)
    (hInside : base.isPrefixOf vb.name = true) :
    walkRound env onBatch base w =
      .inr (some (.errc .nonIncreasingOid),
        { w with world := world }) := by
  rcases hEnding.takeBatch_eq onBatch with
    ⟨resp, rest, hStops, hNonempty, hTakes⟩
  rw [hTakes, takeBatch]
  simp [hEnding.running, hNonempty, scanBatch_stops hStops,
    hPlain, hInside]

variable {onBatch}

/- A round that ends with success ends at a Varbind. -/
theorem walkRound_success
    (hRound : walkRound env onBatch base w = .inr (none, w')) :
    ∃ world taken vb, Ending env base w world taken vb ∧
      w'.current = lastName w.current taken ∧
      (vb.val.isException = true ∨
        base.isPrefixOf vb.name = false) := by
  have hSame := hRound
  unfold walkRound at hRound
  split at hRound
  · cases hRound
  · next hAsks =>
    dsimp only at hRound
    generalize hReply :
      env.doRequest (walkRequest w.current w.maxRepetitions)
        w.world = reply at hRound
    rcases reply with ⟨⟨_ | ec, resp⟩, world⟩
    · simp only [takeReply, reduceCtorEq, false_and, if_false]
        at hRound
      rcases ascends_or_stops base w.current resp.varbinds
        with hAll | ⟨taken, vb, rest, hStops⟩
      · rcases takeBatch_whole env onBatch base
          (w := { w with world := world }) hAll with
          ⟨ec, hEnds⟩ | ⟨handler, hMore | hEnds⟩
        · rw [hEnds] at hRound
          cases hRound
        · rw [hMore] at hRound
          cases hRound
        · rw [hEnds] at hRound
          cases hRound
      · have hRunning : env.stopping world = false := by
          by_contra hStopping
          rw [Bool.not_eq_false] at hStopping
          rw [takeBatch, if_pos hStopping] at hRound
          cases hRound
        have hEnding : Ending env base w world taken vb :=
          ⟨hAsks, ⟨resp, rest, hReply, hStops⟩, hRunning⟩
        by_cases hOutside :
          vb.val.isException = true ∨
            base.isPrefixOf vb.name = false
        · rcases hEnding.outside onBatch hOutside with
            ⟨ec, handler, _, hEnds⟩
          rw [hEnds] at hSame
          cases hSame
          exact ⟨world, taken, vb, hEnding, rfl, hOutside⟩
        · rw [not_or, Bool.not_eq_true, Bool.not_eq_false]
            at hOutside
          rw [hEnding.inside onBatch hOutside.1 hOutside.2] at hSame
          cases hSame
    · unfold takeReply at hRound
      split at hRound
      · cases hRound
      · dsimp only at hRound
        split at hRound
        · cases hRound
        · cases hRound

/- The next round is that of the state reached. -/
theorem walkRounds_succ
    {k : Nat}
    (hReached :
      walkRounds env onBatch base k start = .inl w) :
    walkRounds env onBatch base (k + 1) start =
      walkRound env onBatch base w := by
  induction k generalizing start with
  | zero =>
      cases hReached
      rw [walkRounds]
      cases walkRound env onBatch base w with
      | inl _ => rfl
      | inr _ => rfl
  | succ k ih =>
      rw [walkRounds] at hReached
      rw [walkRounds]
      cases hRound : walkRound env onBatch base start with
      | inl next =>
          rw [hRound] at hReached
          exact ih hReached
      | inr result =>
          rw [hRound] at hReached
          cases hReached

/- What a Walk ends with, one of its rounds ended with. -/
theorem doWalk_last
    {rounds : Nat}
    {result : Option ErrorCode × WalkState σ τ}
    (hWalk :
      doWalk env onBatch base rounds start = some result) :
    ∃ k w, walkRounds env onBatch base k start = .inl w ∧
      walkRound env onBatch base w = .inr result := by
  induction rounds generalizing start with
  | zero => cases hWalk
  | succ rounds ih =>
      rw [doWalk] at hWalk
      cases hRound : walkRound env onBatch base start with
      | inl next =>
          rw [hRound] at hWalk
          rcases ih hWalk with ⟨k, w, hReached, hLast⟩
          refine ⟨k + 1, w, ?_, hLast⟩
          rw [walkRounds, hRound]
          exact hReached
      | inr last =>
          rw [hRound] at hWalk
          cases hWalk
          exact ⟨0, start, rfl, hRound⟩

/- Every Walk's cursor is in the Subtree, or at its base. -/
theorem walkRounds_within
    {k : Nat}
    (hStart : Within base start.current)
    (hReached :
      walkRounds env onBatch base k start = .inl w) :
    Within base w.current := by
  have hInvariant :=
    walkRounds_invariant env onBatch base
      (P := fun w => Within base w.current)
      (Q := fun _ _ => True) (fun _ _ _ => trivial)
      (fun _ _ _ hw => hw) ?_ k hStart
  · rw [hReached] at hInvariant
    exact hInvariant
  · intro w req s resp _ hw
    rcases ascends_or_stops base w.current resp.varbinds with
      hAll | ⟨taken, vb, rest, hStops⟩
    · rcases takeBatch_whole env onBatch base hAll with
        ⟨ec, hEnds⟩ | ⟨handler, hMore | hEnds⟩
      · rw [hEnds]
        trivial
      · rw [hMore]
        exact hw.lastName hAll
      · rw [hEnds]
        trivial
    · -- The scan is stopped, and so the Walk ends.
      unfold takeBatch
      rw [scanBatch_stops hStops]
      split_ifs
      · trivial
      · trivial
      · dsimp only
        generalize (if taken.isEmpty then (true, w.handler)
          else onBatch taken w.handler) = handled
        rcases handled with ⟨keep, handler⟩
        cases keep with
        | false => trivial
        | true => trivial
      · trivial

/- The cursor where a round ends. -/
theorem Ending.within
    (hEnding : Ending env base w world taken vb)
    (hCurrent : Within base w.current) :
    Within base (lastName w.current taken) := by
  rcases hEnding.answered with ⟨_, _, _, hStops⟩
  exact hCurrent.lastName hStops.ascends

variable (env onBatch base)

/-
  The Varbind that ended a Walk with success is a marker or
  above the cursor, and one at or below the cursor makes the
  Walk fail, exactly if every round ends onward.
-/
theorem doWalk_ending
    (options : WalkOptions)
    (world : σ)
    (handler : τ) :
    EndsOnward env onBatch base
        (startWalk base options world handler) ↔
      (∀ rounds w',
        doWalk env onBatch base rounds
            (startWalk base options world handler) =
          some (none, w') →
          ∃ k w world' taken vb,
            walkRounds env onBatch base k
                (startWalk base options world handler) =
              .inl w ∧
            walkRound env onBatch base w = .inr (none, w') ∧
            Ending env base w world' taken vb ∧
            w'.current = lastName w.current taken ∧
            (vb.val.isException = true ∨
              w'.current < vb.name)) ∧
      (∀ k w world' taken vb,
        walkRounds env onBatch base k
            (startWalk base options world handler) =
          .inl w →
        Ending env base w world' taken vb →
        vb.val.isException = false →
        ¬ lastName w.current taken < vb.name →
          doWalk env onBatch base (k + 1)
              (startWalk base options world handler) =
            some (some (.errc .nonIncreasingOid),
              { w with world := world' })) := by
  have hWithin {k : Nat} {w : WalkState σ τ}
      (hReached :
        walkRounds env onBatch base k
          (startWalk base options world handler) = .inl w) :
      Within base w.current :=
    walkRounds_within (Or.inl rfl) hReached
  constructor
  · intro hOnward
    constructor
    · intro rounds w' hWalk
      rcases doWalk_last hWalk with ⟨k, w, hReached, hLast⟩
      rcases walkRound_success hLast with
        ⟨world', taken, vb, hEnding, hCurrent, hOutside⟩
      refine ⟨k, w, world', taken, vb, hReached, hLast,
        hEnding, hCurrent, ?_⟩
      rw [hCurrent]
      rcases hOutside with hMarker | hOutside
      · exact Or.inl hMarker
      · rw [(hEnding.within (hWithin hReached)).lt_iff hOutside]
        rcases hOnward k w world' taken vb hReached hEnding
          with hMarker | hInside | hAbove
        · exact Or.inl hMarker
        · rw [hOutside] at hInside
          cases hInside
        · exact Or.inr hAbove
    · intro k w world' taken vb hReached hEnding hPlain hBack
      have hInside : base.isPrefixOf vb.name = true := by
        by_contra hOutside
        rw [Bool.not_eq_true] at hOutside
        rcases hOnward k w world' taken vb hReached hEnding
          with hMarker | hInside | hAbove
        · rw [hPlain] at hMarker
          cases hMarker
        · rw [hOutside] at hInside
          cases hInside
        · exact hBack
            (((hEnding.within (hWithin hReached)).lt_iff
              hOutside).mpr hAbove)
      rw [doWalk_eq_walkRounds, walkRounds_succ hReached,
        hEnding.inside onBatch hPlain hInside]
      rfl
  · rintro ⟨_, hFails⟩ k w world' taken vb hReached hEnding
    by_contra hBehind
    simp only [Onward, not_or, Bool.not_eq_true] at hBehind
    rcases hBehind with ⟨hPlain, hOutside, hBelow⟩
    have hBack : ¬ lastName w.current taken < vb.name := by
      rw [(hEnding.within (hWithin hReached)).lt_iff hOutside]
      exact hBelow
    have hFailed :=
      hFails k w world' taken vb hReached hEnding hPlain hBack
    rcases hEnding.outside onBatch (Or.inr hOutside)
      with ⟨ec, handler', hEc, hEnds⟩
    rw [doWalk_eq_walkRounds, walkRounds_succ hReached, hEnds]
      at hFailed
    rcases hEc with rfl | rfl
    · cases hFailed
    · cases hFailed

/-
  An Agent whose second answer goes back behind 1.3.6, where
  more of the Subtree may lie ahead.
-/
def backwardAgent : WalkEnv Unit :=
  { cancelled := fun _ => {}
    stopping := fun _ => false
    doRequest := fun req _ =>
      ((none,
        { type := .response
          requestId := req.requestId
          varbinds :=
            [⟨⟨[1, 3, 6, 1]⟩, .integer 1⟩,
              ⟨⟨[1, 3, 5]⟩, .integer 2⟩] }), ()) }

/- Its Walk looks like a whole one. -/
theorem doWalk_backward :
    doWalkCollect backwardAgent ⟨[1, 3, 6]⟩ {} 1 () =
        some (none, [⟨⟨[1, 3, 6, 1]⟩, .integer 1⟩]) ∧
      ¬ (⟨[1, 3, 6, 1]⟩ : Oid) < ⟨[1, 3, 5]⟩ := by
  decide

end Snmpio
