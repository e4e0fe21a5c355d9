import Snmpio.Client.Bookkeeping

/-
  What `transact` does while nothing it can use comes in.

  A datagram that is dropped leaves at most its reason with
  the exchange it named.  An exchange that nothing disturbs
  sends its datagram once for every attempt, waits out each
  deadline, and returns the last such reason.

  Key definitions include:
    * `lastDrop`
    * `Undisturbed`
    * `Stage`
    * `Attempting`

  Key theorems include:
    * `receive_inert`
    * `Attempting.after`
    * `Trying.returns`
    * `transact_attempts`
-/

------------------------------------------------------------
-- Dropped Datagrams
------------------------------------------------------------

namespace Snmpio

variable {ssl : OpenSsl} {c c' : Client} {datagram : Octets}
variable {sender : Endpoint} {ref : Nat} {p p' : Pending}
variable {e : Event}

theorem findPending_eq_some
    {key : Int32}
    (hFound : c.findPending key = some (ref, p)) :
    c.pending.lookup key = some ref ∧
      c.pendings[ref]? = some p := by
  simp only [Client.findPending, Option.bind_eq_bind,
    Option.pure_def, Option.bind_eq_some_iff,
    Option.some.injEq, Prod.mk.injEq] at hFound
  rcases hFound with ⟨ref', hRef, p', hp, rfl, rfl⟩
  exact ⟨hRef, hp⟩

theorem judgeV2c_answered
    {msg : V2cMessage}
    (hAccept : judgeV2c p sender msg = .accept p') :
    p'.answered = true := by
  unfold judgeV2c at hAccept
  split_ifs at hAccept
  cases hAccept
  rfl

theorem judgeV3_answered
    {cache : EngineCache}
    {now : Int}
    {msg : V3Message}
    (hAccept :
      judgeV3 ssl cache now p datagram sender msg =
        .accept p') :
    p'.answered = true := by
  unfold judgeV3 at hAccept
  dsimp only at hAccept
  split_ifs at hAccept
  split at hAccept
  · cases hAccept
  · unfold judgeOpened at hAccept
    dsimp only at hAccept
    split_ifs at hAccept
    cases hAccept
    rfl

/- A datagram is judged for the exchange that it names. -/
theorem route_cases
    {verdict : Verdict}
    (hRoute :
      c.route ssl datagram sender = some (ref, p, verdict)) :
    c.pendings[ref]? = some p ∧
      ((∃ msg, (decodeV2cMessage datagram).1 = some msg ∧
          c.pending.lookup msg.pdu.requestId = some ref ∧
          verdict = judgeV2c p sender msg) ∨
        ∃ msg, (decodeV3Message datagram).1 = some msg ∧
          c.pending.lookup msg.header.msgId = some ref ∧
          verdict =
            judgeV3 ssl c.cache c.now p datagram sender
              msg) := by
  unfold Client.route at hRoute
  rcases Option.bind_eq_some_iff.mp hRoute with
    ⟨version, _, hRoute⟩
  split_ifs at hRoute
  · rcases Option.bind_eq_some_iff.mp hRoute with
      ⟨msg, hMsg, hRoute⟩
    split_ifs at hRoute
    rcases Option.bind_eq_some_iff.mp hRoute with
      ⟨⟨ref', p'⟩, hFound, hRoute⟩
    simp only [Option.some.injEq, Prod.mk.injEq] at hRoute
    rcases hRoute with ⟨rfl, rfl, rfl⟩
    rcases findPending_eq_some hFound with ⟨hRef, hp⟩
    exact ⟨hp, Or.inl ⟨msg, hMsg, hRef, rfl⟩⟩
  · rcases Option.bind_eq_some_iff.mp hRoute with
      ⟨msg, hMsg, hRoute⟩
    rcases Option.bind_eq_some_iff.mp hRoute with
      ⟨⟨ref', p'⟩, hFound, hRoute⟩
    simp only [Option.some.injEq, Prod.mk.injEq] at hRoute
    rcases hRoute with ⟨rfl, rfl, rfl⟩
    rcases findPending_eq_some hFound with ⟨hRef, hp⟩
    exact ⟨hp, Or.inr ⟨msg, hMsg, hRef, rfl⟩⟩

theorem route_accepted
    (hRoute :
      c.route ssl datagram sender =
        some (ref, p, .accept p')) :
    p'.answered = true := by
  rcases (route_cases hRoute).2 with
    ⟨msg, _, _, hAccept⟩ | ⟨msg, _, _, hAccept⟩
  · exact judgeV2c_answered hAccept.symm
  · exact judgeV3_answered hAccept.symm

/- What is accepted keeps the last reason. -/
theorem route_accept_dropReason
    (hRoute :
      c.route ssl datagram sender =
        some (ref, p, .accept p')) :
    p'.dropReason = p.dropReason ∧ p'.asked = p.asked := by
  rcases (route_cases hRoute).2 with
    ⟨msg, _, _, hAccept⟩ | ⟨msg, _, _, hAccept⟩
  · unfold judgeV2c at hAccept
    split_ifs at hAccept
    cases hAccept
    exact ⟨rfl, rfl⟩
  · unfold judgeV3 at hAccept
    dsimp only at hAccept
    split_ifs at hAccept
    split at hAccept
    · cases hAccept
    · rcases judgeOpened_accept hAccept.symm with ⟨rfl, _⟩
      exact ⟨rfl, rfl⟩

/- Only a v3 message leaves a reason, with whom it names. -/
theorem route_dropped
    {reason : Errc}
    (hRoute :
      c.route ssl datagram sender =
        some (ref, p, .drop (some reason))) :
    ∃ msg, (decodeV3Message datagram).1 = some msg ∧
      c.pending.lookup msg.header.msgId = some ref := by
  rcases (route_cases hRoute).2 with
    ⟨msg, _, _, hDrop⟩ | ⟨msg, hMsg, hRef, _⟩
  · unfold judgeV2c at hDrop
    split_ifs at hDrop
    all_goals cases hDrop
  · exact ⟨msg, hMsg, hRef⟩

/- Some exchange takes the datagram as its reply. -/
def Accepted
    (ssl : OpenSsl)
    (c : Client)
    (datagram : Octets)
    (sender : Endpoint) : Prop :=
  ∃ ref p p',
    c.route ssl datagram sender = some (ref, p, .accept p')

/-
  Delivering any other datagram changes nothing, or nothing
  but the reason of the exchange it named.
-/
theorem receive_inert
    (hDropped : ¬ Accepted ssl c datagram sender) :
    c.receive ssl datagram sender = c ∨
      ∃ msg ref p reason,
        (decodeV3Message datagram).1 = some msg ∧
          c.pending.lookup msg.header.msgId = some ref ∧
          c.pendings[ref]? = some p ∧
          c.receive ssl datagram sender =
            { c with
              pendings := c.pendings.set ref
                { p with dropReason := some reason } } := by
  rw [receive_eq_route]
  cases hRoute : c.route ssl datagram sender with
  | none => exact Or.inl rfl
  | some found =>
      rcases found with ⟨ref, p, verdict⟩
      cases verdict with
      | drop reason =>
          cases reason with
          | none => exact Or.inl rfl
          | some reason =>
              rcases route_dropped hRoute with
                ⟨msg, hMsg, hRef⟩
              exact Or.inr ⟨msg, ref, p, reason, hMsg, hRef,
                (route_cases hRoute).1, rfl⟩
      | accept p' => exact absurd ⟨ref, p, p', hRoute⟩ hDropped

/- The reason that an event leaves with an exchange. -/
def Client.recorded
    (ssl : OpenSsl)
    (c : Client)
    (ref : Nat) :
    Event → Option Errc
| .receive sender datagram =>
    match c.route ssl datagram sender with
    | some (found, _, .drop reason) =>
        if found = ref then reason else none
    | _ => none
| _ => none

/- The last reason that a run leaves with an exchange. -/
def lastDrop
    (ssl : OpenSsl)
    (ref : Nat)
    (c : Client) :
    List Event → Option Errc
| [] => none
| e :: rest =>
    match step ssl c e with
    | none => none
    | some c' =>
        (lastDrop ssl ref c' rest).or (c.recorded ssl ref e)

theorem lastDrop_concat
    {m : Client}
    {events : List Event}
    (hRun : Machine.run (step ssl) c events = some m)
    (hStep : step ssl m e = some c') :
    lastDrop ssl ref c (events ++ [e]) =
      (m.recorded ssl ref e).or
        (lastDrop ssl ref c events) := by
  induction events generalizing c with
  | nil =>
      cases hRun
      simp [lastDrop, hStep]
  | cons first rest ih =>
      rw [Machine.run, List.foldlM_cons, Option.bind_eq_bind,
        Option.bind_eq_some_iff] at hRun
      rcases hRun with ⟨c₁, hFirst, hRest⟩
      simp only [List.cons_append, lastDrop, hFirst,
        ih hRest, Option.or_assoc]

/- What a step does to the exchanges there are. -/
inductive PendingStep
    (ssl : OpenSsl)
    (c : Client) :
    Event → List Pending → Prop where
  | kept
      {e : Event}
      (hQuiet : ∀ ref, c.recorded ssl ref e = none) :
      PendingStep ssl c e c.pendings
  | opened
      {out : Outside}
      {p : Pending}
      (hFresh : p.Fresh) :
      PendingStep ssl c (.advance out) (c.pendings ++ [p])
  | dropped
      {sender : Endpoint}
      {datagram : Octets}
      {ref : Nat}
      {p : Pending}
      {reason : Errc}
      (hRoute :
        c.route ssl datagram sender =
          some (ref, p, .drop (some reason))) :
      PendingStep ssl c (.receive sender datagram)
        (c.pendings.set ref
          { p with dropReason := some reason })
  | accepted
      {sender : Endpoint}
      {datagram : Octets}
      {ref : Nat}
      {p p' : Pending}
      (hRoute :
        c.route ssl datagram sender =
          some (ref, p, .accept p')) :
      PendingStep ssl c (.receive sender datagram)
        (c.pendings.set ref p')

theorem receive_pendings
    (ssl : OpenSsl)
    (c : Client)
    (datagram : Octets)
    (sender : Endpoint) :
    PendingStep ssl c (.receive sender datagram)
      (c.receive ssl datagram sender).pendings := by
  rw [receive_eq_route]
  cases hRoute : c.route ssl datagram sender with
  | none =>
      refine PendingStep.kept ?_
      intro ref
      simp [Client.recorded, hRoute]
  | some routed =>
      rcases routed with ⟨ref, p, verdict⟩
      cases verdict with
      | drop reason =>
          cases reason with
          | none =>
              refine PendingStep.kept ?_
              intro ref
              simp [Client.recorded, hRoute]
          | some reason => exact PendingStep.dropped hRoute
      | accept p' => exact PendingStep.accepted hRoute

theorem step_pendings
    (hStep : step ssl c e = some c') :
    PendingStep ssl c e c'.pendings := by
  by_cases hReceive :
      ∃ sender datagram, e = .receive sender datagram
  · rcases hReceive with ⟨sender, datagram, rfl⟩
    simp only [step] at hStep
    split_ifs at hStep
    cases hStep
    exact receive_pendings ssl c datagram sender
  · have hQuiet : ∀ ref, c.recorded ssl ref e = none := by
      intro ref
      cases e with
      | receive sender datagram =>
          exact absurd ⟨sender, datagram, rfl⟩ hReceive
      | _ => rfl
    cases step_cases hStep with
    | advanced _ _ hMove =>
        rw [settle_pendings]
        cases hMove.turn with
        | outside _ hPendings _ _ _ =>
            rw [hPendings]
            exact PendingStep.kept hQuiet
        | opened _ hPendings _ _ _ _ _ _ hFresh =>
            rw [hPendings]
            exact PendingStep.opened hFresh
        | refused _ _ => exact PendingStep.kept hQuiet
        | registered _ _ _ hPendings _ =>
            rw [hPendings]
            exact PendingStep.kept hQuiet
        | left _ _ => exact PendingStep.kept hQuiet
    | received _ => exact absurd ⟨_, _, rfl⟩ hReceive
    | nudged hNudged =>
        rw [hNudged.pendings]
        exact PendingStep.kept hQuiet
    | _ => exact PendingStep.kept hQuiet

/-
  What an exchange asks for stays, and a new exchange is
  made fresh.
-/
theorem step_asked
    (hStep : step ssl c e = some c')
    (hp' : c'.pendings[ref]? = some p') :
    p'.Fresh ∨
      ∃ p, c.pendings[ref]? = some p ∧
        p'.asked = p.asked := by
  have hCase := step_pendings hStep
  generalize c'.pendings = pendings at hCase hp'
  cases hCase with
  | kept _ => exact Or.inr ⟨p', hp', rfl⟩
  | opened hFresh =>
      rcases getElem?_concat_cases hp' with hOld | ⟨_, rfl⟩
      · exact Or.inr ⟨p', hOld, rfl⟩
      · exact Or.inl hFresh
  | dropped hRoute =>
      rcases getElem?_set_cases hp' with
        ⟨rfl, rfl⟩ | ⟨_, hOther⟩
      · exact Or.inr ⟨_, (route_cases hRoute).1, rfl⟩
      · exact Or.inr ⟨p', hOther, rfl⟩
  | accepted hRoute =>
      rcases getElem?_set_cases hp' with
        ⟨rfl, rfl⟩ | ⟨_, hOther⟩
      · exact Or.inr ⟨_, (route_cases hRoute).1,
          (route_accept_dropReason hRoute).2⟩
      · exact Or.inr ⟨p', hOther, rfl⟩

/- What a step does to an exchange that is not answered. -/
theorem step_pending
    (hStep : step ssl c e = some c')
    (hp : c.pendings[ref]? = some p) :
    ∃ p', c'.pendings[ref]? = some p' ∧
      (p'.answered = false →
        p.answered = false ∧
          p'.dropReason =
            (c.recorded ssl ref e).or p.dropReason) := by
  have hBound := (List.getElem?_eq_some_iff.mp hp).1
  have hKept :
      ∀ {pendings : List Pending},
        pendings[ref]? = some p →
        c.recorded ssl ref e = none →
          ∃ p', pendings[ref]? = some p' ∧
            (p'.answered = false →
              p.answered = false ∧
                p'.dropReason =
                  (c.recorded ssl ref e).or
                    p.dropReason) := by
    intro pendings hp' hNone
    exact ⟨p, hp', fun hOpen =>
      ⟨hOpen, by rw [hNone, Option.none_or]⟩⟩
  have hCase := step_pendings hStep
  generalize c'.pendings = pendings at hCase ⊢
  cases hCase with
  | kept hQuiet => exact hKept hp (hQuiet ref)
  | opened _ => exact hKept (getElem?_append_some hp _) rfl
  | @dropped _ _ found q reason hRoute =>
      by_cases hSame : found = ref
      · subst hSame
        have hq := (route_cases hRoute).1
        rw [hp] at hq
        cases hq
        refine ⟨_, List.getElem?_set_self hBound,
          fun hOpen => ⟨hOpen, ?_⟩⟩
        simp [Client.recorded, hRoute]
      · refine hKept ((List.getElem?_set_ne hSame).trans hp) ?_
        simp [Client.recorded, hRoute, hSame]
  | @accepted _ _ found q q' hRoute =>
      by_cases hSame : found = ref
      · subst hSame
        refine ⟨q', List.getElem?_set_self hBound, ?_⟩
        intro hOpen
        rw [route_accepted hRoute] at hOpen
        cases hOpen
      · refine hKept ((List.getElem?_set_ne hSame).trans hp) ?_
        simp [Client.recorded, hRoute]

end Snmpio

------------------------------------------------------------
-- Exchanges under Way
------------------------------------------------------------

namespace Snmpio

variable {ssl : OpenSsl} {c c' : Client} {id : Int32}
variable {now : Int} {events : List Event} {task : Task}
variable {e : Event} {t : Nat} {x : Exchange}

theorem Move.flags
    {out : Outside}
    {task' : Task}
    {spawned : Option Task}
    (hMove : Move ssl out c task c' task' spawned) :
    c'.stopping = c.stopping ∧ c'.cleanup = c.cleanup ∧
      c'.now = c.now := by
  cases hMove.effect with
  | aside hAside =>
      exact ⟨hAside.stopping, hAside.cleanup, hAside.now⟩
  | discovers _ _ => exact ⟨rfl, rfl, rfl⟩
  | writes _ _ => exact ⟨rfl, rfl, rfl⟩
  | finishes _ _ => exact ⟨rfl, rfl, rfl⟩

theorem receive_flags
    (ssl : OpenSsl)
    (c : Client)
    (datagram : Octets)
    (sender : Endpoint) :
    (c.receive ssl datagram sender).stopping = c.stopping ∧
      (c.receive ssl datagram sender).cleanup = c.cleanup ∧
      (c.receive ssl datagram sender).now = c.now := by
  rw [receive_eq_route]
  split
  · exact ⟨rfl, rfl, rfl⟩
  · next ref p verdict _ =>
    cases verdict with
    | drop reason =>
        cases reason with
        | none => exact ⟨rfl, rfl, rfl⟩
        | some e => exact ⟨rfl, rfl, rfl⟩
    | accept p' => exact ⟨rfl, rfl, rfl⟩

/-
  Only `stop` sets its flags, only the cleanup clears one,
  and the clock never returns.
-/
theorem step_flags
    (hStep : step ssl c e = some c')
    (hGoing : e ≠ .stop) :
    c'.stopping = c.stopping ∧
      (c'.cleanup = true → c.cleanup = true) ∧
      c.now ≤ c'.now ∧
      (c'.cleanup = c.cleanup ∨ e = .finishStopping) := by
  have hSame :
      c'.stopping = c.stopping → c'.cleanup = c.cleanup →
        c'.now = c.now →
          c'.stopping = c.stopping ∧
            (c'.cleanup = true → c.cleanup = true) ∧
            c.now ≤ c'.now ∧
            (c'.cleanup = c.cleanup ∨
              e = .finishStopping) := by
    intro hStopping hCleanup hNow
    exact ⟨hStopping, fun h => hCleanup ▸ h,
      le_of_eq hNow.symm, Or.inl hCleanup⟩
  cases e with
  | advance out =>
      rcases advance_eq hStep with
        ⟨t, rest, task, c₁, task', spawned, _, _, hMove, rfl⟩
      rcases hMove.flags with ⟨h₁, h₂, h₃⟩
      cases spawned with
      | none => exact hSame h₁ h₂ h₃
      | some other => exact hSame h₁ h₂ h₃
  | request target auth pdu =>
      simp only [step] at hStep
      split_ifs at hStep
      cases hStep
      exact hSame rfl rfl rfl
  | receive sender datagram =>
      simp only [step] at hStep
      split_ifs at hStep
      cases hStep
      rcases receive_flags ssl c datagram sender with
        ⟨h₁, h₂, h₃⟩
      exact hSame h₁ h₂ h₃
  | receiveFailed v6 =>
      simp only [step] at hStep
      split_ifs at hStep
      all_goals
        cases hStep
        exact hSame rfl rfl rfl
  | sent t ec =>
      simp only [step] at hStep
      split_ifs at hStep
      rcases onSent_eq hStep with ⟨_, _, _, _, rfl⟩
      exact hSame rfl rfl rfl
  | expire t =>
      simp only [step, onExpire, Option.bind_eq_bind,
        Option.bind_eq_some_iff] at hStep
      rcases hStep with ⟨task, _, hStep⟩
      split at hStep
      · split_ifs at hStep
        cases hStep
        exact hSame rfl rfl rfl
      · cases hStep
  | resume t =>
      simp only [step] at hStep
      split_ifs at hStep
      rcases onResume_eq hStep with ⟨_, _, _, _, rfl⟩
      exact hSame rfl rfl rfl
  | signal t kind =>
      simp only [step] at hStep
      split_ifs at hStep
      rcases onSignal_eq hStep with ⟨_, _, _, _, _, rfl⟩
      exact hSame rfl rfl rfl
  | raise t =>
      rcases onRaise_eq hStep with
        ⟨_, _, _, _, _, _, _, rfl⟩
      exact hSame rfl rfl rfl
  | stop => exact absurd rfl hGoing
  | finishStopping =>
      simp only [step] at hStep
      split_ifs at hStep with h
      cases hStep
      exact ⟨rfl, fun _ => h.2, le_refl _, Or.inr rfl⟩
  | tick elapsed =>
      cases hStep
      refine ⟨rfl, id, ?_, Or.inl rfl⟩
      exact le_add_of_nonneg_right (Int.natCast_nonneg _)

/- Stopping is for good. -/
theorem step_stopping
    (hStep : step ssl c e = some c')
    (hGoing : c'.stopping = false) :
    c.stopping = false := by
  by_cases hStop : e = .stop
  · subst hStop
    cases hStep
    cases hGoing
  · rw [← (step_flags hStep hStop).1]
    exact hGoing

/- The second half of Stopping follows the first. -/
theorem cleanup_stopping
    (hRun :
      Machine.run (step ssl) (fresh id now) events = some c)
    (hCleanup : c.cleanup = true) :
    c.stopping = true := by
  revert hCleanup
  refine Machine.run_invariant
    (P := fun _ c => c.cleanup = true → c.stopping = true)
    ?_ ?_ hRun
  · intro hNone
    cases hNone
  · intro events c e c' _ ih hStep hCleanup
    by_cases hStop : e = .stop
    · subst hStop
      cases hStep
      rfl
    · rcases step_flags hStep hStop with ⟨hSame, hBefore, _⟩
      rw [hSame]
      exact ih (hBefore hCleanup)

/- An exchange that is about to be registered is fresh. -/
structure Unsent
    (c : Client)
    (x : Exchange) : Prop where
  attempt : x.attempt = 0
  ec : x.ec = none
  pending :
    ∃ p, c.pendings[x.pending]? = some p ∧
      p.answered = false ∧ p.dropReason = none

/- Who is about to register an exchange runs, and first. -/
theorem StrandShape.entering_head
    (hShape : StrandShape c)
    (hTask : c.tasks[t]? = some task)
    (hPoint : task.point = .entering x) :
    ∃ rest, c.strand = t :: rest := by
  have hRuns : c.running t = some (.entering x) := by
    rw [Client.running, Client.view_of_task hTask, hPoint]
    rfl
  have hMem := (hShape.runs t).mpr ⟨_, hRuns⟩
  cases hStrand : c.strand with
  | nil =>
      rw [hStrand] at hMem
      cases hMem
  | cons head rest =>
      rw [hStrand] at hMem
      rcases List.mem_cons.mp hMem with rfl | hBelow
      · exact ⟨rest, rfl⟩
      · have hTail := hShape.tail t
          (by rw [hStrand]; exact hBelow)
        rcases hTail with ⟨d, hParking⟩
        rw [hRuns] at hParking
        cases hParking

theorem step_unsent
    (hStep : step ssl c e = some c')
    (hShape : StrandShape c)
    (hBefore :
      ∀ (t : Nat) (task : Task) (x : Exchange),
        c.tasks[t]? = some task → task.point = .entering x →
          Unsent c x)
    {task' : Task}
    (hTask' : c'.tasks[t]? = some task')
    (hPoint : task'.point = .entering x) :
    Unsent c' x := by
  -- A coroutine that was already about to was first, and did
  -- not move, so that no datagram came in.
  have hOld :
      ∀ {task : Task}, c.tasks[t]? = some task →
        task.point = .entering x →
          (∀ rest, c.strand = t :: rest →
            c'.pendings = c.pendings) → Unsent c' x := by
    intro task hTask hPoint hSame
    rcases hShape.entering_head hTask hPoint with
      ⟨rest, hStrand⟩
    rcases hBefore t task x hTask hPoint with
      ⟨hAttempt, hEc, hFresh⟩
    rw [← hSame rest hStrand] at hFresh
    exact ⟨hAttempt, hEc, hFresh⟩
  have hBusy :
      ∀ {P : Prop}, c.strand = [] →
        ∀ rest, c.strand = t :: rest → P := by
    intro P hIdle rest hStrand
    rw [hIdle] at hStrand
    cases hStrand
  cases step_cases hStep with
  | @advanced out head rest task moved c₁ spawned hStrand
      hTask hMove =>
      rcases settle_task hTask' with
        ⟨rfl, rfl⟩ | ⟨hNot, hOther⟩ | ⟨_, hSpawned⟩
      · cases hMove.turn with
        | outside _ _ _ _ hAfter =>
            rw [hPoint] at hAfter
            cases hAfter
        | @opened _ _ y p _ hPendings _ _ hEntering _ hRef
            hUnsent hFresh =>
            rw [hPoint] at hEntering
            cases hEntering
            refine ⟨hUnsent.1, hUnsent.2, p, ?_,
              hFresh.answered, hFresh.dropReason⟩
            rw [settle_pendings, hPendings, hRef]
            exact List.getElem?_concat_length
        | refused _ _ => cases hPoint
        | @registered _ y _ _ _ _ _ =>
            have hNone := attemptPoint_entering? task.target y
            change attemptPoint task.target y = _ at hPoint
            rw [hPoint] at hNone
            cases hNone
        | left _ _ => cases hPoint
      · rcases hMove.tasks hOther with
          ⟨before, hFound, hNudged⟩
        refine hOld hFound (hNudged.point_eq hPoint rfl) ?_
        intro rest' hStrand'
        rw [hStrand] at hStrand'
        cases hStrand'
        exact absurd rfl hNot
      · rcases hMove.spawned_eq hSpawned with ⟨creds, rfl⟩
        cases hPoint
  | requested hIdle =>
      rcases getElem?_concat_cases hTask' with
        hFound | ⟨_, rfl⟩
      · exact hOld hFound hPoint (hBusy hIdle)
      · cases hPoint
  | received hIdle =>
      rcases receive_nudged ssl c _ _ with
        ⟨pendings, hNudged⟩
      rcases hNudged.tasks t task' hTask' with
        ⟨task, hTask, hSame⟩
      exact hOld hTask (hSame.point_eq hPoint rfl)
        (hBusy hIdle)
  | @resumed _ i task point hIdle hTask hResumes =>
      rcases place_task hTask' with ⟨rfl, rfl⟩ | ⟨_, hOther⟩
      · have hNone := hResumes.tags.2.1
        change point = _ at hPoint
        rw [hPoint] at hNone
        cases hNone
      · exact hOld hOther hPoint (hBusy hIdle)
  | raised _ hTask _ _ =>
      rcases place_task hTask' with ⟨rfl, rfl⟩ | ⟨_, hOther⟩
      · cases hPoint
      · rcases cancelTimers_tasks hOther with
          ⟨before, hFound, rfl⟩
        exact hOld hFound
          ((Task.wakeOn_nudged _ before).point_eq hPoint rfl)
          (fun _ _ => rfl)
  | @signalled i kind task cancelled hIdle hTask _ _ =>
      rcases getElem?_set_cases hTask' with
        ⟨rfl, rfl⟩ | ⟨_, hOther⟩
      · refine hOld hTask ?_ (hBusy hIdle)
        change task.point.signalled = _ at hPoint
        rcases signalled_cases task.point with hSame | hWake
        · rw [← hSame]
          exact hPoint
        · exact Point.eq_of_wake (hWake ▸ hPoint) rfl
      · exact hOld hOther hPoint (hBusy hIdle)
  | nudged hNudged =>
      rcases hNudged.tasks t task' hTask' with
        ⟨task, hTask, hSame⟩
      exact hOld hTask (hSame.point_eq hPoint rfl)
        (fun _ _ => hNudged.pendings)

theorem unsent_of_run
    (hRun :
      Machine.run (step ssl) (fresh id now) events = some c)
    (hTask : c.tasks[t]? = some task)
    (hPoint : task.point = .entering x) :
    Unsent c x := by
  refine Machine.run_invariant
    (P := fun _ c =>
      ∀ (t : Nat) (task : Task) (x : Exchange),
        c.tasks[t]? = some task → task.point = .entering x →
          Unsent c x) ?_ ?_ hRun t task x hTask hPoint
  · intro t task x hTask
    cases hTask
  · intro events c e c' hBefore ih hStep t task x hTask hPoint
    exact step_unsent hStep (strandShape_of_run hBefore) ih
      hTask hPoint

end Snmpio

------------------------------------------------------------
-- Attempts
------------------------------------------------------------

namespace Snmpio

variable {ssl : OpenSsl} {c c' : Client} {t : Nat}
variable {target : Target} {x : Exchange} {e : Event}
variable {y : Exchange} {copies waits : Nat} {now : Int}
variable {reason : Option Errc} {task task' : Task}
variable {p : Pending} {out : Outside}
variable {spawned : Option Task} {c₁ : Client}

/- How often an exchange is to be sent. -/
def Target.attempts
    (target : Target) : Int :=
  max 0 (target.retries.toInt + 1)

/- No cancellation, no Stopping and no error of a send. -/
structure Undisturbed
    (t : Nat)
    (events : List Event) : Prop where
  unsignalled : ∀ kind, Event.signal t kind ∉ events
  unstopped : Event.stop ∉ events
  sent : ∀ e, Event.sent t (some e) ∉ events

theorem Undisturbed.before
    {events : List Event}
    (hUndisturbed : Undisturbed t (events ++ [e])) :
    Undisturbed t events where
  unsignalled := fun kind hMem =>
    hUndisturbed.unsignalled kind (List.mem_append_left _ hMem)
  unstopped := fun hMem =>
    hUndisturbed.unstopped (List.mem_append_left _ hMem)
  sent := fun error hMem =>
    hUndisturbed.sent error (List.mem_append_left _ hMem)

/- The same exchange, in some attempt. -/
structure Repeats
    (x y : Exchange) : Prop where
  datagram : y.datagram = x.datagram
  pending : y.pending = x.pending
  ec : y.ec = none

/-
  Where an undisturbed exchange is, after so many copies were
  sent and so many waits for a reply were over.
-/
inductive Stage
    (target : Target)
    (x : Exchange)
    (copies waits : Nat)
    (now : Int)
    (reason : Option Errc) :
    Point → Prop where
  | sending
      {y : Exchange}
      (hSame : Repeats x y)
      (hAttempt : y.attempt.toInt = copies)
      (hWaits : waits = copies)
      (hMore : (copies : Int) ≤ target.retries.toInt) :
      Stage target x copies waits now reason (.sending y)
  | waiting
      {y : Exchange}
      {deadline : Int}
      {woken : Bool}
      (hSame : Repeats x y)
      (hAttempt : y.attempt.toInt + 1 = copies)
      (hWaits : waits + 1 = copies)
      (hMore : (copies : Int) ≤ target.retries.toInt + 1)
      (hPast : woken = true → deadline ≤ now) :
      Stage target x copies waits now reason
        (.waiting y deadline false woken)
  | leaving
      {y : Exchange}
      (hSame : Repeats x y)
      (hCopies : (copies : Int) = target.attempts)
      (hWaits : waits = copies) :
      Stage target x copies waits now reason (.leaving y)
  | returned
      {y : Exchange}
      (hSame : Repeats x y)
      (hCopies : (copies : Int) = target.attempts)
      (hWaits : waits = copies) :
      Stage target x copies waits now reason
        (.returned y (some (.errc (reason.getD .timeout))))
  | gone
      {point : Point}
      (hOver :
        ∀ y, point.exchange? = some y →
          y.pending ≠ x.pending) :
      Stage target x copies waits now reason point

/- The head of the loop, with an attempt more. -/
theorem Stage.attempt
    (hSame : Repeats x y)
    (hAttempt : y.attempt.toInt = copies)
    (hReached :
      copies = 0 ∨ (copies : Int) ≤ target.retries.toInt + 1) :
    Stage target x copies copies now reason
      (attemptPoint target y) := by
  unfold attemptPoint
  split
  · next hMore =>
    rw [Int32.le_iff_toInt_le, hAttempt] at hMore
    exact Stage.sending hSame hAttempt rfl hMore
  · next hLast =>
    rw [Int32.le_iff_toInt_le, hAttempt] at hLast
    refine Stage.leaving hSame ?_ rfl
    unfold Target.attempts
    omega

theorem Stage.afterSend
    (hStage :
      Stage target x copies waits now reason (.sending y))
    (hStopping : c.stopping = false)
    (later : Int) :
    Stage target x (copies + 1) waits later reason
      (afterSend c task { y with ec := none }) := by
  unfold Snmpio.afterSend
  rw [hStopping]
  simp only [Option.isSome_none, Bool.false_eq_true, or_self,
    if_false]
  cases hStage with
  | sending hSame hAttempt hWaits hMore =>
      refine Stage.waiting ⟨hSame.datagram, hSame.pending, rfl⟩
        ?_ ?_ ?_ (fun hNot => by cases hNot)
      · push_cast
        rw [← hAttempt]
      · rw [hWaits]
      · push_cast
        omega
  | gone hOver =>
      refine Stage.gone ?_
      intro z hz
      cases hz
      exact hOver y rfl

theorem Stage.afterWait
    {deadline : Int}
    {soft woken : Bool}
    (hStage :
      Stage target x copies waits now reason
        (.waiting y deadline soft woken))
    (hTarget : task.target = target)
    (hRetries : target.retries ≠ Int32.maxValue)
    (hStopping : c.stopping = false)
    (hCancelled : task.cancelled = {})
    (hp : c.pendings[y.pending]? = some p)
    (hOpen :
      ∀ p, c.pendings[x.pending]? = some p →
        p.answered = false)
    (later : Int)
    (more : Option Errc) :
    Stage target x copies (waits + 1) later more
      (afterWait c task y deadline soft p) := by
  cases hStage with
  | waiting hSame hAttempt hWaits hMore hPast =>
      have hUnanswered : p.answered = false :=
        hOpen p (hSame.pending ▸ hp)
      unfold Snmpio.afterWait
      rw [hUnanswered, hStopping, hCancelled, hTarget]
      simp only [Bool.false_eq_true, or_self, if_false]
      have hBound := toInt_le_idCount target.retries
      have hLess : target.retries.toInt ≠ 2147483647 := by
        intro hMax
        exact hRetries (Int32.toInt_inj.mp hMax)
      have hNext :
          (y.attempt + 1).toInt = copies := by
        have hOne : (1 : Int32).toInt = 1 := rfl
        rw [Int32.toInt_add, hOne, Int.bmod_eq_of_le]
        · exact hAttempt
        · omega
        · omega
      rw [hWaits]
      exact Stage.attempt
        ⟨hSame.datagram, hSame.pending, hSame.ec⟩ hNext
        (Or.inr hMore)
  | gone hOver =>
      refine Stage.gone ?_
      intro z hz
      have hPending : z.pending = y.pending := by
        unfold Snmpio.afterWait at hz
        split_ifs at hz
        · cases hz
          rfl
        · cases hz
          rfl
        · rw [attemptPoint_exchange?] at hz
          cases hz
          rfl
      rw [hPending]
      exact hOver y rfl

/- The exchange of a coroutine is its own, or a new one. -/
theorem Turn.pending
    (hTurn : Turn c task c' task')
    (hy : task'.point.exchange? = some y) :
    (∃ z, task.point.exchange? = some z ∧
        y.pending = z.pending) ∨
      y.pending = c.pendings.length := by
  cases hTurn with
  | outside _ _ _ _ hAfter =>
      rw [hAfter] at hy
      cases hy
  | opened _ _ _ _ hPoint _ hRef _ _ =>
      rw [hPoint] at hy
      cases hy
      exact Or.inr hRef
  | refused ec hPoint =>
      cases hy
      exact Or.inl ⟨_, by rw [hPoint]; rfl, rfl⟩
  | registered hPoint _ _ _ _ =>
      rw [Task.goto, attemptPoint_exchange?] at hy
      cases hy
      exact Or.inl ⟨_, by rw [hPoint]; rfl, rfl⟩
  | left hPoint _ =>
      cases hy
      exact Or.inl ⟨_, by rw [hPoint]; rfl, rfl⟩

theorem Move.runs
    (hMove : Move ssl out c task c' task' spawned) :
    task.point.runs = true := by
  cases hMove with
  | _ hPoint =>
      rw [hPoint]
      rfl

theorem Move.of_leaving
    (hMove : Move ssl out c task c' task' spawned)
    (hLeaving : task.point = .leaving y) :
    ∃ p, c.pendings[y.pending]? = some p ∧
      task'.point =
        .returned y (transactResult c task y p) := by
  cases hMove with
  | leave hPoint hp =>
      rw [hLeaving] at hPoint
      cases hPoint
      exact ⟨_, hp, rfl⟩
  | _ hPoint =>
      rw [hLeaving] at hPoint
      cases hPoint

theorem Move.of_failed
    (hMove : Move ssl out c task c' task' spawned)
    {ec : Failure}
    (hReturned : task.point = .returned y (some ec)) :
    task'.point.exchange? = none := by
  cases hMove with
  | failed _ => exact afterFailure_exchange? task _
  | _ hPoint =>
      rw [hReturned] at hPoint
      cases hPoint

/- What an unanswered exchange that nothing ended returns. -/
theorem transactResult_unanswered
    (hStopping : c.stopping = false)
    (hCancelled : task.cancelled = {})
    (hOpen : p.answered = false)
    (hEc : y.ec = none) :
    transactResult c task y p =
      some (.errc (p.dropReason.getD .timeout)) := by
  unfold transactResult
  rw [hStopping, hCancelled, hOpen, hEc]
  simp

/- The first coroutine moves while its exchange is at a stage. -/
theorem Stage.move
    (hMove : Move ssl out c task c' task' spawned)
    (hStage :
      Stage target x copies waits now p.dropReason task.point)
    (hStopping : c.stopping = false)
    (hCancelled : task.cancelled = {})
    (hp : c.pendings[x.pending]? = some p)
    (hOpen : p.answered = false)
    (later : Int) :
    Stage target x copies waits later p.dropReason
      task'.point := by
  have hBound := (List.getElem?_eq_some_iff.mp hp).1
  have hRuns := hMove.runs
  generalize hAt : task.point = point at hStage
  cases hStage with
  | sending _ _ _ _ =>
      rw [hAt] at hRuns
      cases hRuns
  | waiting _ _ _ _ _ =>
      rw [hAt] at hRuns
      cases hRuns
  | leaving hSame hCopies hWaits =>
      rcases hMove.of_leaving hAt with ⟨q, hq, hPoint⟩
      rw [hSame.pending, hp] at hq
      cases hq
      rw [hPoint, transactResult_unanswered hStopping
        hCancelled hOpen hSame.ec]
      exact Stage.returned hSame hCopies hWaits
  | returned hSame hCopies hWaits =>
      refine Stage.gone ?_
      rw [hMove.of_failed hAt]
      intro y hy
      cases hy
  | gone hOver =>
      -- No exchange is this one again.
      refine Stage.gone ?_
      intro y hy
      rcases hMove.turn.pending hy with ⟨z, hz, hSame⟩ | hNew
      · rw [hSame]
        exact hOver z (hAt ▸ hz)
      · omega

/- A resumed coroutine, whose exchange is at a stage. -/
theorem Stage.resume
    {point : Point}
    (hResumes : Resumes c t task e point)
    (hStage :
      Stage target x copies waits now reason task.point)
    (hTarget : task.target = target)
    (hRetries : target.retries ≠ Int32.maxValue)
    (hStopping : c.stopping = false)
    (hCancelled : task.cancelled = {})
    (hSent : ∀ error, e ≠ .sent t (some error))
    (hOpen :
      ∀ p, c.pendings[x.pending]? = some p →
        p.answered = false)
    (later : Int) :
    (e = .sent t none ∧
        Stage target x (copies + 1) waits later reason
          point) ∨
      (e = .resume t ∧
        Stage target x copies (waits + 1) later reason
          point) := by
  cases hResumes with
  | sent ec hPoint =>
      cases ec with
      | some error => exact absurd rfl (hSent error)
      | none =>
          rw [hPoint] at hStage
          exact Or.inl ⟨rfl, hStage.afterSend hStopping later⟩
  | waited hPoint hp =>
      rw [hPoint] at hStage
      exact Or.inr ⟨rfl, hStage.afterWait hTarget hRetries
        hStopping hCancelled hp hOpen later reason⟩
  | unparked hPoint hd =>
      refine Or.inr ⟨rfl, Stage.gone ?_⟩
      intro y hy
      unfold afterPark at hy
      split_ifs at hy
      all_goals cases hy

/- A wait that ends otherwise than by a reply has expired. -/
theorem Stage.wake
    {later : Int}
    (hWoken : Woken ssl c t task e)
    (hStage :
      Stage target x copies waits now reason task.point)
    (hNow : c.now = now)
    (hLater : now ≤ later)
    (hCleanup : c.cleanup = false)
    (hDropped :
      ∀ sender datagram ref p p',
        e = .receive sender datagram →
        c.route ssl datagram sender =
            some (ref, p, .accept p') →
          ref ≠ x.pending) :
    Stage target x copies waits later reason
      task.point.wake := by
  generalize hAt : task.point = point at hStage
  cases hStage with
  | sending hSame hAttempt hWaits hMore =>
      exact Stage.sending hSame hAttempt hWaits hMore
  | @waiting y deadline woken hSame hAttempt hWaits hMore
      hPast =>
      refine Stage.waiting hSame hAttempt hWaits hMore ?_
      intro _
      cases hWoken with
      | expired hPoint hExpired =>
          rw [hAt] at hPoint
          cases hPoint
          omega
      | answered hRoute hTimer =>
          rw [hAt] at hTimer
          cases hTimer
          exact absurd hSame.pending
            (hDropped _ _ _ _ _ rfl hRoute)
      | finished hTimer =>
          rw [hAt] at hTimer
          cases hTimer
      | stopped hStopped =>
          rw [hCleanup] at hStopped
          cases hStopped
  | leaving hSame hCopies hWaits =>
      exact Stage.leaving hSame hCopies hWaits
  | returned hSame hCopies hWaits =>
      exact Stage.returned hSame hCopies hWaits
  | gone hOver =>
      refine Stage.gone ?_
      intro y hy
      rw [Point.wake_exchange?] at hy
      exact hOver y hy

/- Time passes, and another reason is left. -/
theorem Stage.later
    {point : Point}
    {later : Int}
    (hStage :
      Stage target x copies waits now reason point)
    (hLater : now ≤ later)
    (more : Option Errc)
    (hReturned :
      ∀ y ec, point = .returned y ec → more = reason) :
    Stage target x copies waits later more point := by
  cases hStage with
  | sending hSame hAttempt hWaits hMore =>
      exact Stage.sending hSame hAttempt hWaits hMore
  | waiting hSame hAttempt hWaits hMore hPast =>
      refine Stage.waiting hSame hAttempt hWaits hMore ?_
      intro hWoken
      exact le_trans (hPast hWoken) hLater
  | leaving hSame hCopies hWaits =>
      exact Stage.leaving hSame hCopies hWaits
  | returned hSame hCopies hWaits =>
      rw [← hReturned _ _ rfl]
      exact Stage.returned hSame hCopies hWaits
  | gone hOver => exact Stage.gone hOver

/- A datagram that is taken as a reply answers its exchange. -/
theorem answered_of_accepted
    {sender : Endpoint}
    {datagram : Octets}
    {ref : Nat}
    {p' : Pending}
    (hStep : step ssl c (.receive sender datagram) = some c')
    (hRoute :
      c.route ssl datagram sender =
        some (ref, p, .accept p')) :
    ∃ q, c'.pendings[ref]? = some q ∧ q.answered = true := by
  simp only [step] at hStep
  split_ifs at hStep
  cases hStep
  have hp := (route_cases hRoute).1
  have hBound := (List.getElem?_eq_some_iff.mp hp).1
  refine ⟨p', ?_, route_accepted hRoute⟩
  rw [receive_eq_route, hRoute]
  exact List.getElem?_set_self hBound

/- Nothing is recorded while a coroutine runs. -/
theorem recorded_none
    {ref : Nat}
    (hStep : step ssl c e = some c')
    (hShape : StrandShape c)
    (hTask : c.tasks[t]? = some task)
    (hRuns : task.point.runs = true) :
    c.recorded ssl ref e = none := by
  cases e with
  | receive sender datagram =>
      simp only [step] at hStep
      split_ifs at hStep with hReady
      have hIdle : c.running t = none :=
        hShape.idle (List.isEmpty_iff.mp hReady.1) t
      rw [Client.running, Client.view_of_task hTask,
        if_pos hRuns] at hIdle
      cases hIdle
  | _ => rfl

/-
  An exchange that was registered in the first state, in an
  undisturbed run since then.
-/
structure Attempting
    (ssl : OpenSsl)
    (c₁ : Client)
    (t : Nat)
    (target : Target)
    (x : Exchange)
    (during : List Event)
    (p : Pending)
    (c : Client) : Prop where
  shape : StrandShape c
  unstopped : c.stopping = false
  cleanup : c.cleanup = false
  pending : c.pendings[x.pending]? = some p
  unanswered : p.answered = false
  reason : p.dropReason = lastDrop ssl x.pending c₁ during
  task :
    ∃ task, c.tasks[t]? = some task ∧
      task.target = target ∧ task.cancelled = {} ∧
      Stage target x (during.count (.sent t none))
        (during.count (.resume t)) c.now p.dropReason
        task.point

theorem Attempting.after
    {during : List Event}
    {p' : Pending}
    (hAttempting : Attempting ssl c₁ t target x during p c)
    (hBefore : Machine.run (step ssl) c₁ during = some c)
    (hStep : step ssl c e = some c')
    (hUndisturbed : Undisturbed t (during ++ [e]))
    (hRetries : target.retries ≠ Int32.maxValue)
    (hp' : c'.pendings[x.pending]? = some p')
    (hOpen' : p'.answered = false) :
    Attempting ssl c₁ t target x (during ++ [e]) p' c' := by
  rcases hAttempting with
    ⟨hShape, hStopping, hCleanup, hp, hOpen, hReason, task,
      hTask, hTarget, hCancelled, hStage⟩
  have hLast : e ∈ during ++ [e] := by simp
  have hGoing : e ≠ .stop := by
    rintro rfl
    exact hUndisturbed.unstopped hLast
  rcases step_flags hStep hGoing with
    ⟨hSame, hStill, hLater, _⟩
  rcases step_pending hStep hp with ⟨q, hq, hDrop⟩
  rw [hp'] at hq
  cases hq
  have hReason' := (hDrop hOpen').2
  have hRecorded :
      c.recorded ssl x.pending e = none →
        p'.dropReason = p.dropReason := by
    intro hNone
    rw [hReason', hNone, Option.none_or]
  rcases step_task_exists hStep hTask with ⟨task', hTask'⟩
  have hCount :
      ∀ other : Event, e ≠ other →
        (during ++ [e]).count other = during.count other := by
    intro other hOther
    rw [List.count_append, List.count_singleton]
    simp [hOther]
  have hCountSelf :
      (during ++ [e]).count e = during.count e + 1 := by
    rw [List.count_append, List.count_singleton_self]
  refine ⟨hShape.step hStep, hSame.trans hStopping, ?_, hp',
    hOpen', ?_, task', hTask', ?_⟩
  · cases hOver : c'.cleanup with
    | false => rfl
    | true =>
        rw [hStill hOver] at hCleanup
        cases hCleanup
  · rw [lastDrop_concat hBefore hStep, ← hReason]
    exact hReason'
  have hKnown :
      ∀ {other : Task}, c.tasks[t]? = some other →
        other = task := by
    intro other hOther
    rw [hTask] at hOther
    cases hOther
    rfl
  have hOld : ¬ t = c.tasks.length := by
    have hBound := (List.getElem?_eq_some_iff.mp hTask).1
    omega
  -- What leaves it where it is, or wakes it there.
  have hStay :
      ∀ {point : Point}, e.resumes? ≠ some t →
        (task.point.runs = true ∨ point.runs = false) →
        Stage target x (during.count (.sent t none))
          (during.count (.resume t)) c'.now p.dropReason
          point →
        Stage target x ((during ++ [e]).count (.sent t none))
          ((during ++ [e]).count (.resume t)) c'.now
          p'.dropReason point := by
    intro point hOther hRuns hStage
    rw [hCount (.sent t none) (by rintro rfl; exact hOther rfl),
      hCount (.resume t) (by rintro rfl; exact hOther rfl)]
    refine hStage.later (le_refl _) _ ?_
    rintro y ec rfl
    rcases hRuns with hRuns | hRuns
    · exact hRecorded (recorded_none hStep hShape hTask hRuns)
    · cases hRuns
  cases step_task hStep hTask' with
  | moved hStrand hFound hMove =>
      cases hKnown hFound
      refine ⟨hMove.kin.target.trans hTarget,
        hMove.kin.cancelled.trans hCancelled, ?_⟩
      refine hStay (by simp [Event.resumes?])
        (Or.inl hMove.runs) ?_
      exact hStage.move hMove hStopping hCancelled hp hOpen _
  | spawned _ _ _ hNew => exact absurd hNew hOld
  | requested _ hNew => exact absurd hNew hOld
  | resumed _ hFound hResumes =>
      cases hKnown hFound
      refine ⟨hTarget, hCancelled, ?_⟩
      have hSent : ∀ error, e ≠ .sent t (some error) := by
        rintro error rfl
        exact hUndisturbed.sent error hLast
      have hUnanswered :
          ∀ q, c.pendings[x.pending]? = some q →
            q.answered = false := by
        intro q hq
        rw [hp] at hq
        cases hq
        exact hOpen
      rcases hStage.resume hResumes hTarget hRetries hStopping
        hCancelled hSent hUnanswered c'.now with
        ⟨rfl, hNext⟩ | ⟨rfl, hNext⟩
      · rw [hCountSelf, hCount _ (by simp), hRecorded rfl]
        exact hNext
      · rw [hCountSelf, hCount _ (by simp), hRecorded rfl]
        exact hNext
  | raised hFound _ _ =>
      cases hKnown hFound
      refine ⟨hTarget, hCancelled, Stage.gone ?_⟩
      intro y hy
      cases hy
  | signalled _ _ _ _ =>
      exact absurd hLast (hUndisturbed.unsignalled _)
  | woken hFound hWoken hOther =>
      cases hKnown hFound
      refine ⟨hTarget, hCancelled, hStay hOther ?_ ?_⟩
      · rw [Task.goto, Point.wake_runs]
        cases task.point.runs with
        | true => exact Or.inl rfl
        | false => exact Or.inr rfl
      · refine hStage.wake hWoken rfl hLater hCleanup ?_
        rintro sender datagram ref q q' rfl hRoute rfl
        rcases answered_of_accepted hStep hRoute with
          ⟨r, hr, hAnswered⟩
        rw [hp'] at hr
        cases hr
        rw [hOpen'] at hAnswered
        cases hAnswered
  | kept hFound hOther =>
      cases hKnown hFound
      refine ⟨hTarget, hCancelled, hStay hOther ?_ ?_⟩
      · cases task.point.runs with
        | true => exact Or.inl rfl
        | false => exact Or.inr rfl
      · exact hStage.later hLater _ (fun _ _ _ => rfl)

/- The step that registers an exchange. -/
structure Registers
    (ssl : OpenSsl)
    (c c₁ : Client)
    (t : Nat)
    (task : Task)
    (x : Exchange) : Prop where
  found : c.tasks[t]? = some task
  entering : task.point = .entering x
  uncancelled : task.cancelled = {}
  step : ∃ out, Snmpio.step ssl c (.advance out) = some c₁
  registered :
    c₁.tasks[t]? =
      some (task.goto (attemptPoint task.target x))

/- Stopping would have refused it. -/
theorem Registers.before
    (hRegisters : Registers ssl c c₁ t task x)
    (hShape : StrandShape c) :
    c.stopping = false ∧ c₁.pendings = c.pendings := by
  rcases hRegisters with
    ⟨hTask, hPoint, _, ⟨out, hStep⟩, hRegistered⟩
  rcases hShape.entering_head hTask hPoint with
    ⟨rest, hStrand⟩
  rcases advance_eq hStep with
    ⟨_, _, _, c', after, spawned, hHead, hFound, hMove, rfl⟩
  rw [hStrand] at hHead
  cases hHead
  rw [hTask] at hFound
  cases hFound
  have hAfter :
      after = task.goto (attemptPoint task.target x) := by
    have hBound := (List.getElem?_eq_some_iff.mp hTask).1
    have hLength := hMove.length
    rcases settle_task hRegistered with
      ⟨_, hSame⟩ | ⟨hNot, _⟩ | ⟨hNew, _⟩
    · exact hSame.symm
    · exact absurd rfl hNot
    · omega
  have hInside :
      after.point.inside? = some x := by
    rw [hAfter]
    exact attemptPoint_inside? task.target x
  rw [settle_pendings]
  cases hMove.turn with
  | outside _ _ _ _ hOutside =>
      rw [hAfter, Task.goto, attemptPoint_exchange?] at hOutside
      cases hOutside
  | opened _ _ _ _ hEntering _ _ _ _ =>
      rw [hEntering] at hInside
      cases hInside
  | refused _ _ => cases hInside
  | registered _ hStopping _ hPendings _ =>
      exact ⟨hStopping, hPendings⟩
  | left hLeaving _ =>
      rw [hPoint] at hLeaving
      cases hLeaving

theorem Registers.attempting
    {id : Int32}
    {before : List Event}
    (hRegisters : Registers ssl c c₁ t task x)
    (hRun :
      Machine.run (Snmpio.step ssl) (fresh id now) before =
        some c) :
    ∃ p, Attempting ssl c₁ t task.target x [] p c₁ := by
  have hShape := strandShape_of_run hRun
  rcases hRegisters.before hShape with ⟨hStopping, hPendings⟩
  rcases hRegisters with
    ⟨hTask, hPoint, hCancelled, ⟨out, hStep⟩, hRegistered⟩
  rcases unsent_of_run hRun hTask hPoint with
    ⟨hAttempt, hEc, p, hp, hOpen, hReason⟩
  rcases step_flags hStep (by simp) with
    ⟨hSame, hCleanup, _⟩
  have hSettled : c₁.cleanup = false := by
    cases hOver : c₁.cleanup with
    | false => rfl
    | true =>
        rw [cleanup_stopping hRun (hCleanup hOver)]
          at hStopping
        cases hStopping
  refine ⟨p, hShape.step hStep, hSame.trans hStopping,
    hSettled, hPendings ▸ hp, hOpen, hReason, _, hRegistered,
    rfl, hCancelled, ?_⟩
  refine Stage.attempt ⟨rfl, rfl, hEc⟩ ?_ (Or.inl rfl)
  rw [hAttempt]
  rfl

/- What an undisturbed run keeps of an unanswered exchange. -/
theorem attempting_of_run
    {c₀ : Client}
    {id : Int32}
    {before during : List Event}
    (hRun :
      Machine.run (step ssl) (fresh id now) before = some c₀)
    (hRegisters : Registers ssl c₀ c₁ t task x)
    (hRetries : task.target.retries ≠ Int32.maxValue)
    (hDuring : Machine.run (step ssl) c₁ during = some c)
    (hUndisturbed : Undisturbed t during)
    (hOpen :
      ∀ p, c.pendings[x.pending]? = some p →
        p.answered = false) :
    ∃ p, Attempting ssl c₁ t task.target x during p c := by
  have hKept :
      ∃ p, c.pendings[x.pending]? = some p ∧
        (Undisturbed t during → p.answered = false →
          Attempting ssl c₁ t task.target x during p c) := by
    refine Machine.run_invariant
      (P := fun during c =>
        ∃ p, c.pendings[x.pending]? = some p ∧
          (Undisturbed t during → p.answered = false →
            Attempting ssl c₁ t task.target x during p c))
      ?_ ?_ hDuring
    · rcases hRegisters.attempting hRun with ⟨p, hFirst⟩
      exact ⟨p, hFirst.pending, fun _ _ => hFirst⟩
    · rintro during c e c' hBefore ⟨p, hp, ih⟩ hStep
      rcases step_pending hStep hp with ⟨p', hp', hDrop⟩
      refine ⟨p', hp', ?_⟩
      intro hUndisturbed hOpen'
      have hBeforeOpen := (hDrop hOpen').1
      exact (ih hUndisturbed.before hBeforeOpen).after hBefore
        hStep hUndisturbed hRetries hp' hOpen'
  rcases hKept with ⟨p, hp, hAttempting⟩
  exact ⟨p, hAttempting hUndisturbed (hOpen p hp)⟩

end Snmpio

------------------------------------------------------------
-- Going On
------------------------------------------------------------

namespace Snmpio

variable {ssl : OpenSsl} {c c' : Client} {t : Nat}
variable {task : Task} {y : Exchange}

theorem Undisturbed.append
    {first second : List Event}
    (hFirst : Undisturbed t first)
    (hSecond : Undisturbed t second) :
    Undisturbed t (first ++ second) where
  unsignalled := fun kind hMem =>
    (List.mem_append.mp hMem).elim (hFirst.unsignalled kind)
      (hSecond.unsignalled kind)
  unstopped := fun hMem =>
    (List.mem_append.mp hMem).elim hFirst.unstopped
      hSecond.unstopped
  sent := fun error hMem =>
    (List.mem_append.mp hMem).elim (hFirst.sent error)
      (hSecond.sent error)

/- An exchange that only its own events can take further. -/
structure Trying
    (c : Client)
    (t : Nat)
    (task : Task)
    (y : Exchange) : Prop where
  idle : c.strand = []
  found : c.tasks[t]? = some task
  unstopped : c.stopping = false
  uncancelled : task.cancelled = {}
  pending :
    ∃ p, c.pendings[y.pending]? = some p ∧
      p.answered = false
  attempt : y.attempt ≤ task.target.retries

/- The head of the loop again, after a wait that expired. -/
structure Retried
    (c m : Client)
    (t : Nat)
    (task : Task)
    (y : Exchange) : Prop where
  pendings : m.pendings = c.pendings
  unstopped : m.stopping = false
  found : m.tasks[t]? = some
    (task.goto (attemptPoint task.target y))
  strand :
    m.strand =
      if (attemptPoint task.target y).runs then [t] else []

def Exchange.again
    (y : Exchange) : Exchange :=
  { y with attempt := y.attempt + 1 }

/- The send is over, and the timer is armed. -/
theorem Trying.sent
    (ssl : OpenSsl)
    (hTrying : Trying c t task y)
    (hPoint : task.point = .sending y) :
    ∃ m waiting deadline,
      step ssl c (.sent t none) = some m ∧
        m.pendings = c.pendings ∧
        Trying m t waiting { y with ec := none } ∧
        waiting.target = task.target ∧
        waiting.point =
          .waiting { y with ec := none } deadline false
            false := by
  rcases hTrying with
    ⟨hIdle, hTask, hStopping, hCancelled, hp, hAttempt⟩
  have hBound := (List.getElem?_eq_some_iff.mp hTask).1
  let deadline := expiresAfter c.now task.target.timeout
  let waiting :=
    task.goto
      (.waiting { y with ec := none } deadline false false)
  have hSent :
      step ssl c (.sent t none) =
        some (c.place t [] waiting) := by
    have hStrand : c.isIdle = true := by
      rw [Client.isIdle, hIdle]
      rfl
    simp [step, hStrand, onSent, hTask, hPoint, afterSend,
      hStopping, waiting, deadline]
  refine ⟨c.place t [] waiting, waiting, deadline, hSent, rfl,
    ⟨rfl, ?_, hStopping, hCancelled, hp, hAttempt⟩, rfl, rfl⟩
  exact List.getElem?_set_self hBound

/- Time passes, the wait expires, and it is resumed. -/
theorem Trying.wait
    (ssl : OpenSsl)
    {deadline : Int}
    {woken : Bool}
    (hTrying : Trying c t task y)
    (hPoint : task.point = .waiting y deadline false woken) :
    ∃ elapsed m,
      Machine.run (step ssl) c
          [.tick elapsed, .expire t, .resume t] = some m ∧
        Retried c m t task y.again := by
  rcases hTrying with
    ⟨hIdle, hTask, hStopping, hCancelled, ⟨p, hp, hOpen⟩, _⟩
  have hBound := (List.getElem?_eq_some_iff.mp hTask).1
  let elapsed := (deadline - c.now).toNat
  let c₁ := { c with now := c.now + elapsed }
  let expired := task.goto (.waiting y deadline false true)
  let c₂ := { c₁ with tasks := c.tasks.set t expired }
  let c₃ :=
    c₂.place t []
      (task.goto (attemptPoint task.target y.again))
  have hTick : step ssl c (.tick elapsed) = some c₁ := rfl
  have hPast : deadline ≤ c₁.now := by
    change deadline ≤ c.now + ((deadline - c.now).toNat : Int)
    omega
  have hExpire : step ssl c₁ (.expire t) = some c₂ := by
    change onExpire c₁ t = some c₂
    unfold onExpire
    change ((c.tasks[t]?).bind fun task => _) = _
    rw [hTask, Option.bind_some, hPoint]
    dsimp only
    rw [if_pos hPast]
  have hWoken : c₂.tasks[t]? = some expired :=
    List.getElem?_set_self hBound
  have hAfter :
      afterWait c₂ expired y deadline false p =
        attemptPoint task.target y.again := by
    have hSame : c₂.stopping = false := hStopping
    have hKept : expired.cancelled = {} := hCancelled
    unfold afterWait
    rw [hOpen, hSame, hKept]
    simp [expired, Task.goto, Exchange.again]
  have hResume : step ssl c₂ (.resume t) = some c₃ := by
    have hStrand : c₂.isIdle = true := by
      change c.strand.isEmpty = true
      rw [hIdle]
      rfl
    simp only [step, hStrand, if_true, onResume, hWoken,
      Option.bind_eq_bind, Option.bind_some]
    change ((c.pendings[y.pending]?).bind fun p => _) = _
    rw [hp, Option.bind_some, hAfter]
    rfl
  refine ⟨elapsed, c₃, ?_, rfl, hStopping, ?_, rfl⟩
  · simp [Machine.run, hTick, hExpire, hResume]
  · apply List.getElem?_set_self
    change t < (c.tasks.set t expired).length
    rw [List.length_set]
    exact hBound

/- It is sent again, if an attempt is left. -/
theorem Retried.more
    {m : Client}
    (hRetried : Retried c m t task y.again)
    (hTrying : Trying c t task y)
    (hMore : y.again.attempt ≤ task.target.retries) :
    Trying m t (task.goto (.sending y.again)) y.again := by
  rcases hRetried with ⟨hPendings, hStopping, hTask, hStrand⟩
  rw [attemptPoint, if_pos hMore] at hTask hStrand
  exact ⟨hStrand, hTask, hStopping, hTrying.uncancelled,
    hPendings ▸ hTrying.pending, hMore⟩

/- Left to itself, the exchange returns. -/
def Returns
    (ssl : OpenSsl)
    (c : Client)
    (t ref : Nat) : Prop :=
  ∃ rest c' task y ec,
    Machine.run (step ssl) c rest = some c' ∧
      Undisturbed t rest ∧ c'.pendings = c.pendings ∧
      c'.tasks[t]? = some task ∧
      task.point = .returned y ec ∧ y.pending = ref

theorem Returns.of_run
    {ref : Nat}
    {events : List Event}
    (hRun : Machine.run (step ssl) c events = some c')
    (hUndisturbed : Undisturbed t events)
    (hPendings : c'.pendings = c.pendings)
    (hReturns : Returns ssl c' t ref) :
    Returns ssl c t ref := by
  rcases hReturns with
    ⟨rest, c₂, task, y, ec, hRest, hQuiet, hSame, hReturned⟩
  exact ⟨events ++ rest, c₂, task, y, ec,
    Machine.run_append.mpr ⟨c', hRun, hRest⟩,
    hUndisturbed.append hQuiet, hSame.trans hPendings,
    hReturned⟩

theorem Returns.of_step
    {ref : Nat}
    {e : Event}
    (hStep : step ssl c e = some c')
    (hUndisturbed : Undisturbed t [e])
    (hPendings : c'.pendings = c.pendings)
    (hReturns : Returns ssl c' t ref) :
    Returns ssl c t ref := by
  have hRun : Machine.run (step ssl) c [e] = some c' := by
    simp [Machine.run, hStep]
  exact Returns.of_run hRun hUndisturbed hPendings hReturns

theorem Retried.last
    {m : Client}
    (hRetried : Retried c m t task y)
    {p : Pending}
    (hp : c.pendings[y.pending]? = some p)
    (hLast : ¬ y.attempt ≤ task.target.retries) :
    Returns ssl m t y.pending := by
  rcases hRetried with ⟨hPendings, _, hTask, hStrand⟩
  rw [attemptPoint, if_neg hLast] at hTask hStrand
  change m.strand = [t] at hStrand
  rw [← hPendings] at hp
  have hBound := (List.getElem?_eq_some_iff.mp hTask).1
  generalize hLeaving : task.goto (.leaving y) = leaving
    at hTask
  have hPoint : leaving.point = .leaving y := by
    rw [← hLeaving]
    rfl
  have hMove :
      runTask ssl {} m leaving =
        some ((leaveTransact m leaving y p).1,
          (leaveTransact m leaving y p).2, none) := by
    simp [runTask, hPoint, hp]
  let c' :=
    (leaveTransact m leaving y p).1.place t []
      (leaveTransact m leaving y p).2
  have hStep : step ssl m (.advance {}) = some c' := by
    simp [step, advance, hStrand, hTask, hMove, Client.settle,
      c']
  refine ⟨[.advance {}], c', (leaveTransact m leaving y p).2,
    y, _, ?_, ⟨by simp, by simp, by simp⟩, rfl, ?_, rfl, rfl⟩
  · simp [Machine.run, hStep]
  · exact List.getElem?_set_self hBound

theorem Exchange.again_attempt
    {target : Target}
    (hAttempt : y.attempt ≤ target.retries)
    (hRetries : target.retries ≠ Int32.maxValue) :
    y.again.attempt.toInt = y.attempt.toInt + 1 := by
  have hBound := toInt_le_idCount target.retries
  have hLess : target.retries.toInt ≠ 2147483647 := by
    intro hMax
    exact hRetries (Int32.toInt_inj.mp hMax)
  have hLow := Int32.le_toInt y.attempt
  have hOne : (1 : Int32).toInt = 1 := rfl
  rw [Int32.le_iff_toInt_le] at hAttempt
  rw [Exchange.again, Int32.toInt_add, hOne,
    Int.bmod_eq_of_le]
  · omega
  · omega

theorem Trying.returns_waiting
    {deadline : Int}
    {woken : Bool}
    (hTrying : Trying c t task y)
    (hPoint : task.point = .waiting y deadline false woken)
    (hRetries : task.target.retries ≠ Int32.maxValue) :
    Returns ssl c t y.pending := by
  -- The attempts that are left become fewer.
  induction hLeft :
      (task.target.retries.toInt - y.attempt.toInt).toNat
        using Nat.strongRecOn
      generalizing c task y deadline woken with
  | ind left ih =>
  rcases hTrying.wait ssl hPoint with
    ⟨elapsed, m, hRun, hRetried⟩
  refine Returns.of_run hRun ⟨by simp, by simp, by simp⟩
    hRetried.pendings ?_
  rcases hTrying.pending with ⟨p, hp, _⟩
  by_cases hMore : y.again.attempt ≤ task.target.retries
  · rcases (hRetried.more hTrying hMore).sent ssl rfl with
      ⟨m', waiting, _, hSent, hPendings, hNext, hTarget,
        hWaiting⟩
    refine Returns.of_step hSent ⟨by simp, by simp, by simp⟩
      hPendings ?_
    have hCount :=
      Exchange.again_attempt hTrying.attempt hRetries
    rw [Int32.le_iff_toInt_le, hCount] at hMore
    refine ih _ ?_ (y := { y.again with ec := none }) hNext
      hWaiting ?_ rfl
    · rw [hTarget, ← hLeft]
      change (task.target.retries.toInt -
        y.again.attempt.toInt).toNat < _
      rw [hCount]
      change _ ≤ task.target.retries.toInt at hMore
      omega
    · rw [hTarget]
      exact hRetries
  · exact hRetried.last hp hMore

theorem Trying.returns
    (hTrying : Trying c t task y)
    (hPoint : task.point = .sending y)
    (hRetries : task.target.retries ≠ Int32.maxValue) :
    Returns ssl c t y.pending := by
  rcases hTrying.sent ssl hPoint with
    ⟨m, waiting, _, hSent, hPendings, hNext, hTarget,
      hWaiting⟩
  refine Returns.of_step hSent ⟨by simp, by simp, by simp⟩
    hPendings ?_
  refine hNext.returns_waiting hWaiting ?_
  rw [hTarget]
  exact hRetries

end Snmpio

------------------------------------------------------------
-- Retransmission
------------------------------------------------------------

namespace Snmpio

variable {ssl : OpenSsl} {c : Client} {t : Nat}
variable {x : Exchange}

/-
  What an undisturbed run does with an exchange that it leaves
  unanswered: how it returns, what is sent and waited for
  before that, and that it can return.
-/
structure Exhausts
    (ssl : OpenSsl)
    (c₁ : Client)
    (t : Nat)
    (target : Target)
    (x : Exchange)
    (during : List Event)
    (c : Client) : Prop where
  returned :
    ∀ task y ec, c.tasks[t]? = some task →
      task.point = .returned y ec → y.pending = x.pending →
        (during.count (.sent t none) : Int) =
            target.attempts ∧
          during.count (.resume t) =
            during.count (.sent t none) ∧
          ec = some (.errc ((lastDrop ssl x.pending c₁
            during).getD .timeout))
  sent :
    ∀ task y, c.tasks[t]? = some task →
      task.point = .sending y → y.pending = x.pending →
        y.datagram = x.datagram
  expired :
    ∀ task y deadline soft, c.tasks[t]? = some task →
      task.point = .waiting y deadline soft true →
      y.pending = x.pending → deadline ≤ c.now
  returns :
    ∀ task y, c.strand = [] → c.tasks[t]? = some task →
      task.point.exchange? = some y →
      y.pending = x.pending → Returns ssl c t x.pending

theorem Attempting.exhausts
    {c₁ : Client}
    {target : Target}
    {during : List Event}
    {p : Pending}
    (hAttempting : Attempting ssl c₁ t target x during p c)
    (hRetries : target.retries ≠ Int32.maxValue) :
    Exhausts ssl c₁ t target x during c := by
  rcases hAttempting with
    ⟨hShape, hStopping, _, hp, hOpen, hReason, task, hTask,
      hTarget, hCancelled, hStage⟩
  have hKnown :
      ∀ {other : Task} {point : Point},
        c.tasks[t]? = some other → other.point = point →
          task.point = point := by
    intro other point hOther hPoint
    rw [hTask] at hOther
    cases hOther
    exact hPoint
  generalize hAt : task.point = point at hStage hKnown
  refine ⟨?_, ?_, ?_, ?_⟩
  · intro other y ec hFound hPoint hSame
    cases hKnown hFound hPoint
    cases hStage with
    | returned _ hCopies hWaits =>
        exact ⟨hCopies, hWaits, hReason ▸ rfl⟩
    | gone hOver => exact absurd hSame (hOver y rfl)
  · intro other y hFound hPoint hSame
    cases hKnown hFound hPoint
    cases hStage with
    | sending hRepeats _ _ _ => exact hRepeats.datagram
    | gone hOver => exact absurd hSame (hOver y rfl)
  · intro other y deadline soft hFound hPoint hSame
    cases hKnown hFound hPoint
    cases hStage with
    | waiting _ _ _ _ hPast => exact hPast rfl
    | gone hOver => exact absurd hSame (hOver y rfl)
  · intro other y hIdle hFound hExchange hSame
    rw [hTask] at hFound
    cases hFound
    -- What runs is on the strand.
    have hSuspended : point.runs = false := by
      cases hRuns : point.runs with
      | false => rfl
      | true =>
          have hNone := hShape.idle hIdle t
          rw [Client.running, Client.view_of_task hTask, hAt,
            if_pos hRuns] at hNone
          cases hNone
    rw [hAt] at hExchange
    cases hStage with
    | sending hRepeats hAttempt _ hMore =>
        cases hExchange
        rw [← hSame]
        refine Trying.returns ⟨hIdle, hTask, hStopping,
          hCancelled, ⟨p, hSame ▸ hp, hOpen⟩, ?_⟩ hAt
          (hTarget ▸ hRetries)
        rw [Int32.le_iff_toInt_le, hAttempt, hTarget]
        exact hMore
    | waiting hRepeats hAttempt _ hMore _ =>
        cases hExchange
        rw [← hSame]
        refine Trying.returns_waiting ⟨hIdle, hTask, hStopping,
          hCancelled, ⟨p, hSame ▸ hp, hOpen⟩, ?_⟩ hAt
          (hTarget ▸ hRetries)
        rw [Int32.le_iff_toInt_le, hTarget]
        omega
    | leaving _ _ _ => cases hSuspended
    | returned _ _ _ => cases hSuspended
    | gone hOver => exact absurd hSame (hOver y hExchange)

/-
  A datagram that is not taken as a reply leaves at most its
  reason, and an exchange that gets no other is sent once for
  every attempt, one for each deadline, and returns the last
  reason it was left, or that it timed out.
-/
theorem transact_attempts
    (ssl : OpenSsl) :
    (∀ c datagram sender,
      ¬ Accepted ssl c datagram sender →
        c.receive ssl datagram sender = c ∨
          ∃ msg ref p reason,
            (decodeV3Message datagram).1 = some msg ∧
              c.pending.lookup msg.header.msgId = some ref ∧
              c.pendings[ref]? = some p ∧
              c.receive ssl datagram sender =
                { c with
                  pendings := c.pendings.set ref
                    { p with dropReason := some reason } }) ∧
    ∀ id now before during c₀ c₁ c t task x,
      Machine.run (step ssl) (fresh id now) before =
          some c₀ →
        Registers ssl c₀ c₁ t task x →
        task.target.retries ≠ Int32.maxValue →
        Machine.run (step ssl) c₁ during = some c →
        Undisturbed t during →
        (∀ p, c.pendings[x.pending]? = some p →
          p.answered = false) →
          Exhausts ssl c₁ t task.target x during c := by
  refine ⟨fun c datagram sender => receive_inert, ?_⟩
  intro id now before during c₀ c₁ c t task x hRun hRegisters
    hRetries hDuring hUndisturbed hOpen
  rcases attempting_of_run hRun hRegisters hRetries hDuring
    hUndisturbed hOpen with ⟨p, hAttempting⟩
  exact hAttempting.exhausts hRetries

/- The exchange that a step registers, to be computed. -/
def Client.registering
    (c c₁ : Client)
    (t : Nat) : Option (Task × Exchange) := do
  let task ← c.tasks[t]?
  let x ← task.point.entering?
  if task.cancelled = {} ∧
      c₁.tasks[t]? =
        some (task.goto (attemptPoint task.target x)) then
    some (task, x)
  else none

theorem registers_of_registering
    {c₁ : Client}
    {out : Outside}
    {task : Task}
    (hStep : step ssl c (.advance out) = some c₁)
    (hFound : c.registering c₁ t = some (task, x)) :
    Registers ssl c c₁ t task x := by
  rcases Option.bind_eq_some_iff.mp hFound with
    ⟨found, hTask, hFound⟩
  rcases Option.bind_eq_some_iff.mp hFound with
    ⟨entered, hEntering, hFound⟩
  split_ifs at hFound with hRegistered
  cases hFound
  refine ⟨hTask, ?_, hRegistered.1, ⟨out, hStep⟩,
    hRegistered.2⟩
  cases hPoint : task.point with
  | entering y =>
      rw [hPoint] at hEntering
      cases hEntering
      rfl
  | _ =>
      rw [hPoint] at hEntering
      cases hEntering

/- A request up to its registration. -/
def enteringRun : List Event :=
  askedRun.take 21

/- Its Response, with a digest that is blank. -/
def refusedRun : List Event :=
  [.sent 0 none,
    .receive agentEndpoint
      (agentMessage OpenSsl.copying .authNoPriv 3 agentUsm
        (upTimeResponse 3)),
    .tick 2000000000, .expire 0, .resume 0,
    .sent 0 none, .tick 2000000000, .expire 0, .resume 0,
    ahead]

theorem refusedRun_reason :
    ((Machine.run (step agentSsl) (fresh 1 0)
      enteringRun).bind (fun c₀ =>
        (step agentSsl c₀ ahead).bind (fun c₁ =>
          (c₀.registering c₁ 0).bind (fun found =>
            (Machine.run (step agentSsl) c₁ refusedRun).map
              (fun c =>
                (decide (found.1.target = agentTarget),
                  (c.pendings[found.2.pending]?).map
                    (fun p => p.answered),
                  lastDrop agentSsl found.2.pending c₁
                    refusedRun))))) =
      some (true, some false, some .authFailed)) := by
  decide +kernel

/- Both attempts are made, and the blank digest is blamed. -/
theorem transact_attempts_refused :
    ∃ c₀ c₁ c task x,
      Machine.run (step agentSsl) (fresh 1 0) enteringRun =
          some c₀ ∧
        Registers agentSsl c₀ c₁ 0 task x ∧
        Machine.run (step agentSsl) c₁ refusedRun = some c ∧
        Exhausts agentSsl c₁ 0 agentTarget x refusedRun c ∧
        lastDrop agentSsl x.pending c₁ refusedRun =
          some .authFailed := by
  rcases Option.bind_eq_some_iff.mp refusedRun_reason with
    ⟨c₀, hRun, hRest⟩
  rcases Option.bind_eq_some_iff.mp hRest with
    ⟨c₁, hStep, hRest⟩
  rcases Option.bind_eq_some_iff.mp hRest with
    ⟨⟨task, x⟩, hFound, hRest⟩
  rcases Option.map_eq_some_iff.mp hRest with
    ⟨c, hDuring, hEnd⟩
  simp only [Prod.mk.injEq, decide_eq_true_eq] at hEnd
  rcases hEnd with ⟨hTarget, hOpen, hReason⟩
  have hRegisters := registers_of_registering hStep hFound
  have hQuiet : Undisturbed 0 refusedRun :=
    ⟨by simp [refusedRun, ahead], by simp [refusedRun, ahead],
      by simp [refusedRun, ahead]⟩
  have hUnanswered :
      ∀ p, c.pendings[x.pending]? = some p →
        p.answered = false := by
    intro p hp
    rw [hp] at hOpen
    exact Option.some.inj hOpen
  have hExhausts := (transact_attempts agentSsl).2 1 0
    enteringRun refusedRun c₀ c₁ c 0 task x hRun hRegisters
    (by rw [hTarget]; decide) hDuring hQuiet hUnanswered
  rw [hTarget] at hExhausts
  exact ⟨c₀, c₁, c, task, x, hRun, hRegisters, hDuring,
    hExhausts, hReason⟩

/- With the most retries there are, the attempts never end. -/
theorem Trying.endless
    (ssl : OpenSsl)
    {task : Task}
    (hTrying : Trying c t task x)
    (hPoint : task.point = .sending x)
    (hRetries : task.target.retries = Int32.maxValue)
    (n : Nat) :
    ∃ events m again y,
      Machine.run (step ssl) c events = some m ∧
        Undisturbed t events ∧ m.pendings = c.pendings ∧
        events.count (.sent t none) = n ∧
        Trying m t again y ∧ again.point = .sending y ∧
        y.pending = x.pending ∧
        again.target = task.target := by
  induction n with
  | zero =>
      exact ⟨[], c, task, x, rfl, ⟨by simp, by simp, by simp⟩,
        rfl, rfl, hTrying, hPoint, rfl, rfl⟩
  | succ n ih =>
      rcases ih with
        ⟨events, m, again, y, hRun, hQuiet, hPendings, hCount,
          hAgain, hSending, hSame, hTarget⟩
      rcases hAgain.sent ssl hSending with
        ⟨m₁, waiting, _, hSent, hPendings₁, hNext, hTarget₁,
          hWaiting⟩
      rcases hNext.wait ssl hWaiting with
        ⟨elapsed, m₂, hWaited, hRetried⟩
      have hMore :
          (Exchange.again { y with ec := none }).attempt ≤
            waiting.target.retries := by
        rw [hTarget₁, hTarget, hRetries]
        exact Int32.le_maxValue _
      refine ⟨events ++ .sent t none ::
          [.tick elapsed, .expire t, .resume t], m₂, _, _, ?_,
        hQuiet.append ⟨by simp, by simp, by simp⟩,
        hRetried.pendings.trans (hPendings₁.trans hPendings),
        ?_, hRetried.more hNext hMore, rfl, hSame,
        hTarget₁.trans hTarget⟩
      · refine Machine.run_append.mpr ⟨m, hRun, ?_⟩
        rw [Machine.run, List.foldlM_cons, hSent]
        exact hWaited
      · rw [List.count_append, hCount]
        simp

/- A v2c request that may be repeated without an end. -/
def patientTarget : Target :=
  { agentTarget with
    timeout := 0
    retries := Int32.maxValue }

def patientRun : List Event :=
  [.request patientTarget (.community []) upTimeRequest, ahead]

theorem patientRun_sending :
    ((Machine.run (step agentSsl) (fresh 1 0)
      patientRun).bind (fun c₀ =>
        (step agentSsl c₀ ahead).bind (fun c₁ =>
          (c₀.registering c₁ 0).map (fun found =>
            decide (c₁.strand = [] ∧ c₁.stopping = false ∧
              found.1.target = patientTarget ∧
              found.1.cancelled = {} ∧
              found.2.attempt = 0 ∧
              (c₁.pendings[found.2.pending]?).map
                (fun p => p.answered) = some false))))) =
      some true := by
  decide +kernel

/- It is sent more often than it may be, and goes on. -/
theorem transact_overruns :
    ∃ c₀ c₁ c task x during again y,
      Machine.run (step agentSsl) (fresh 1 0) patientRun =
          some c₀ ∧
        Registers agentSsl c₀ c₁ 0 task x ∧
        Machine.run (step agentSsl) c₁ during = some c ∧
        Undisturbed 0 during ∧
        (∀ p, c.pendings[x.pending]? = some p →
          p.answered = false) ∧
        task.target.attempts <
          (during.count (.sent 0 none) : Int) ∧
        c.tasks[0]? = some again ∧
        again.point = .sending y ∧
        y.pending = x.pending := by
  rcases Option.bind_eq_some_iff.mp patientRun_sending with
    ⟨c₀, hRun, hRest⟩
  rcases Option.bind_eq_some_iff.mp hRest with
    ⟨c₁, hStep, hRest⟩
  rcases Option.map_eq_some_iff.mp hRest with
    ⟨⟨task, x⟩, hFound, hStart⟩
  rw [decide_eq_true_eq] at hStart
  rcases hStart with
    ⟨hIdle, hStopping, hTarget, hCancelled, hAttempt, hOpen⟩
  rcases Option.map_eq_some_iff.mp hOpen with
    ⟨p, hp, hUnanswered⟩
  have hRegisters := registers_of_registering hStep hFound
  have hFirst :
      attemptPoint task.target x = .sending x := by
    rw [attemptPoint, hAttempt, hTarget]
    rfl
  have hSending := hRegisters.registered
  rw [hFirst] at hSending
  have hTrying :
      Trying c₁ 0 (task.goto (.sending x)) x := by
    refine ⟨hIdle, hSending, hStopping, hCancelled,
      ⟨p, hp, hUnanswered⟩, ?_⟩
    change x.attempt ≤ task.target.retries
    rw [hAttempt, hTarget]
    decide
  have hRetries :
      (task.goto (.sending x)).target.retries =
        Int32.maxValue := by
    change task.target.retries = _
    rw [hTarget]
    rfl
  rcases hTrying.endless agentSsl rfl hRetries (2 ^ 31 + 1)
    with ⟨during, c, again, y, hDuring, hQuiet, hPendings,
      hCount, hAgain, hPoint, hSame, _⟩
  refine ⟨c₀, c₁, c, task, x, during, again, y, hRun,
    hRegisters, hDuring, hQuiet, ?_, ?_, hAgain.found, hPoint,
    hSame⟩
  · intro q hq
    rw [hPendings, hp] at hq
    cases hq
    exact hUnanswered
  · rw [hCount, hTarget]
    decide

end Snmpio
