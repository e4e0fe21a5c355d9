import Snmpio.Client.Clocks
import Snmpio.Client.Lookups
import Snmpio.Lib.Replay

/-
  Which Engine is where, as the replies have told it.

  A reply to a discovery's first message names the Engine at
  its endpoint; a Report may make a request doubt the entry
  of its endpoint.  `m_engineAt` is the replay of these
  remarks, `m_engines` has the Engines they have named, and
  each of them was in a datagram from its endpoint.

  Key definitions include:
    * `Remark`
    * `Client.remarks`
    * `Remark.enter`

  Key theorems include:
    * `step_directory`
    * `step_named`
    * `engine_directory`
-/

------------------------------------------------------------
-- Remarks
------------------------------------------------------------

namespace Snmpio

/- What a reply says about the Engine at its endpoint. -/
inductive Remark where
  | named (endpoint : Endpoint) (engineId : Octets)
  | doubted (endpoint : Endpoint)
  deriving DecidableEq

/-
  Whether a reply to a request's first attempt makes it ask
  again who is at the endpoint: a Report that the engineID
  is not known, or an unsigned one about the time.
-/
def Pending.doubts
    (p : Pending)
    (attempt : Nat) : Bool :=
  decide (p.response.type = .report) &&
    decide (attempt = 0) &&
    (decide (usmStatsCounter p.response =
        some usmStatsUnknownEngineIds) ||
      (decide (usmStatsCounter p.response =
          some usmStatsNotInTimeWindows) &&
        !p.replyAuthenticated))

/- What the coroutine hears that takes up the reply. -/
def Task.remarks
    (task : Task)
    (p : Pending) : List Remark :=
  match task.work with
  | .v2c _ => []
  | .v3 _ attempt =>
      if p.doubts attempt then
        [.doubted task.target.endpoint]
      else []
  | .identify _ _ =>
      if p.security.engineId = [] then []
      else
        [.named task.target.endpoint p.security.engineId]
  | .sync _ _ _ => []

def Client.remarks
    (c : Client) :
    Event → List Remark
| .advance _ =>
    match c.takenUp with
    | none => []
    | some (_, task, _, p) => task.remarks p
| _ => []

/- What a directory makes of a remark. -/
def Remark.enter
    (directory : Endpoint → Option Octets) :
    Remark → Endpoint → Option Octets
| named endpoint engineId =>
    Function.update directory endpoint (some engineId)
| doubted endpoint =>
    Function.update directory endpoint none

/- An entry was there before, or has been named. -/
theorem foldl_enter_eq_some
    {endpoint : Endpoint}
    {engineId : Octets}
    {remarks : List Remark}
    {directory : Endpoint → Option Octets}
    (hEntry :
      remarks.foldl Remark.enter directory endpoint =
        some engineId) :
    directory endpoint = some engineId ∨
      .named endpoint engineId ∈ remarks := by
  induction remarks generalizing directory with
  | nil => exact Or.inl hEntry
  | cons remark rest ih =>
      rcases ih hEntry with hHere | hLater
      · cases remark with
        | named other found =>
            by_cases hSame : endpoint = other
            · subst hSame
              rw [Remark.enter, Function.update_self]
                at hHere
              cases hHere
              exact Or.inr List.mem_cons_self
            · rw [Remark.enter,
                Function.update_of_ne hSame] at hHere
              exact Or.inl hHere
        | doubted other =>
            by_cases hSame : endpoint = other
            · subst hSame
              rw [Remark.enter, Function.update_self]
                at hHere
              cases hHere
            · rw [Remark.enter,
                Function.update_of_ne hSame] at hHere
              exact Or.inl hHere
      · exact Or.inr (List.mem_cons_of_mem _ hLater)

/- What it makes of the Engines that have been named. -/
def Remark.learn
    (known : Set Octets) :
    Remark → Set Octets
| named _ engineId => insert engineId known
| doubted _ => known

theorem mem_foldl_learn
    {engineId : Octets}
    {remarks : List Remark}
    {known : Set Octets} :
    engineId ∈ remarks.foldl Remark.learn known ↔
      engineId ∈ known ∨
        ∃ endpoint, .named endpoint engineId ∈ remarks := by
  induction remarks generalizing known with
  | nil => simp
  | cons remark rest ih =>
      rw [List.foldl_cons, ih]
      cases remark with
      | named endpoint other =>
          simp only [Remark.learn, Set.mem_insert_iff,
            List.mem_cons, Remark.named.injEq]
          grind
      | doubted endpoint =>
          simp [Remark.learn]

end Snmpio

------------------------------------------------------------
-- The Directory
------------------------------------------------------------

namespace Snmpio

variable {ssl : OpenSsl} {c c' : Client} {task : Task}
variable {p : Pending} {e : Event}

namespace EngineCache

variable (cache : EngineCache)

/- The Engine that the cache has at each endpoint. -/
def directory :
    Endpoint → Option Octets :=
  fun endpoint => cache.index.lookup endpoint

theorem directory_erase
    (endpoint : Endpoint) :
    directory
        { cache with index := cache.index.erase endpoint } =
      Function.update cache.directory endpoint none := by
  funext other
  by_cases hSame : other = endpoint
  · subst hSame
    rw [Function.update_self]
    exact AList.lookup_erase _ _
  · rw [Function.update_of_ne hSame]
    exact AList.lookup_erase_ne hSame

theorem directory_recordIdentity
    (now : Int)
    (endpoint : Endpoint)
    (security : UsmParameters) :
    (cache.recordIdentity now endpoint security).directory =
      Function.update cache.directory endpoint
        (some security.engineId) := by
  funext other
  by_cases hSame : other = endpoint
  · subst hSame
    rw [Function.update_self]
    exact AList.lookup_insert _
  · rw [Function.update_of_ne hSame]
    exact AList.lookup_insert_ne hSame

theorem directory_congr
    {cache cache' : EngineCache}
    (hIndex : cache'.index = cache.index) :
    cache'.directory = cache.directory := by
  unfold directory
  rw [hIndex]

/- The Engines that the cache has an entry for. -/
def known : Set Octets :=
  { engineId | engineId ∈ cache.engines }

theorem known_insert
    {engineId : Octets}
    (hKnown : engineId ∈ cache.engines)
    (engine : EngineState) :
    known
        { cache with
          engines := cache.engines.insert engineId engine } =
      cache.known := by
  ext other
  refine (AList.mem_insert _).trans ?_
  constructor
  · rintro (rfl | hOther)
    · exact hKnown
    · exact hOther
  · exact Or.inr

theorem known_recordIdentity
    (now : Int)
    (endpoint : Endpoint)
    (security : UsmParameters) :
    (cache.recordIdentity now endpoint security).known =
      insert security.engineId cache.known := by
  ext engineId
  exact AList.mem_insert _

end EngineCache

/- A Report changes the directory exactly if it doubts. -/
theorem handleReport_directory
    (cache : EngineCache)
    (now : Int)
    (endpoint : Endpoint)
    (attempt : Nat)
    (hReport : p.response.type = .report) :
    (handleReport cache now endpoint p
        (attempt = 0)).2.directory =
      if p.doubts attempt then
        Function.update cache.directory endpoint none
      else cache.directory := by
  unfold handleReport Pending.doubts
  cases hCounter : usmStatsCounter p.response with
  | none => simp
  | some counter =>
      dsimp only
      split
      · next hLater =>
        rw [if_neg]
        simp_all
      · next hFirst =>
        split
        · next hOther =>
          rw [if_neg]
          simp_all
        · next hRetries =>
          split
          · next hDoubts =>
            rw [if_pos]
            · exact cache.directory_erase endpoint
            · simp_all
              grind
          · next hTrusts =>
            rw [if_neg]
            · split
              · exact EngineCache.directory_congr
                  (cache.observeEngineTime_index _ _)
              · split
                · exact EngineCache.directory_congr
                    (cache.setEngineAt_index _)
                · exact EngineCache.directory_congr
                    (cache.observeEngineTime_index _ _)
            · simp_all

/- An answer teaches of no Engine that was not known. -/
theorem AnswerWrite.known
    {cache cache' : EngineCache}
    {now : Int}
    {endpoint : Endpoint}
    (hWrite : AnswerWrite cache now endpoint p cache') :
    cache'.known = cache.known := by
  cases hWrite with
  | none => rfl
  | forgotten => rfl
  | distrusted _ _ _ hEngine _ _ =>
      exact cache.known_insert (AList.lookup_isSome.mp
        (Option.isSome_of_eq_some hEngine)) _
  | adopted _ _ hEngine _ =>
      exact cache.known_insert (AList.lookup_isSome.mp
        (Option.isSome_of_eq_some hEngine)) _

/- What taking up a reply does to the directory. -/
theorem afterSuccess_directory
    (c : Client)
    (task : Task)
    (p : Pending) :
    (afterSuccess c task p).1.cache.directory =
      (task.remarks p).foldl Remark.enter
        c.cache.directory := by
  unfold afterSuccess Task.remarks
  cases hWork : task.work with
  | v2c community => rfl
  | v3 creds attempt =>
      dsimp only
      by_cases hReport : p.response.type = .report
      · rw [afterAnswer_report c task creds attempt hReport,
          handleReport_directory _ _ _ _ hReport,
          apply_ite (List.foldl Remark.enter _)]
        rfl
      · have hTrusts : p.doubts attempt = false := by
          simp [Pending.doubts, hReport]
        rw [hTrusts, afterAnswer, if_neg hReport]
        cases p.replyAuthenticated with
        | true =>
            exact EngineCache.directory_congr
              (c.cache.observeEngineTime_index _ _)
        | false => rfl
  | identify creds d =>
      dsimp only
      unfold afterIdentify
      dsimp only
      split
      · rfl
      · have hDirectory :=
          c.cache.directory_recordIdentity c.now
            task.target.endpoint p.security
        split
        · exact hDirectory
        · split
          · exact hDirectory
          · exact hDirectory
  | sync creds d engineId =>
      dsimp only
      unfold afterSync
      split
      · rfl
      · split
        · rfl
        · rfl

/- And to the Engines that are known. -/
theorem afterSuccess_known
    (hSync :
      ∀ creds d engineId,
        task.work = .sync creds d engineId →
          engineId ∈ c.cache.engines)
    (p : Pending) :
    (afterSuccess c task p).1.cache.known =
      (task.remarks p).foldl Remark.learn
        c.cache.known := by
  unfold afterSuccess Task.remarks
  cases hWork : task.work with
  | v2c community => rfl
  | v3 creds attempt =>
      have hRemarks :
          (if p.doubts attempt then
            [.doubted task.target.endpoint]
          else []).foldl Remark.learn c.cache.known =
            c.cache.known := by
        split
        · rfl
        · rfl
      dsimp only
      rw [hRemarks]
      exact (afterAnswer_write c task creds attempt p).known
  | identify creds d =>
      dsimp only
      unfold afterIdentify
      dsimp only
      split
      · rfl
      · have hKnown :=
          c.cache.known_recordIdentity c.now
            task.target.endpoint p.security
        split
        · exact hKnown
        · split
          · exact hKnown
          · exact hKnown
  | sync creds d engineId =>
      dsimp only
      unfold afterSync
      split
      · rfl
      · split
        · rfl
        · exact c.cache.known_insert
            (hSync creds d engineId hWork) _

end Snmpio

------------------------------------------------------------
-- Steps
------------------------------------------------------------

namespace Snmpio

variable {ssl : OpenSsl} {c c' : Client} {e : Event}

theorem Move.takes_up
    {out : Outside}
    {task task' : Task}
    {spawned : Option Task}
    {x : Exchange}
    {p : Pending}
    (hMove : Move ssl out c task c' task' spawned)
    (hPoint : task.point = .returned x none)
    (hp : c.pendings[x.pending]? = some p) :
    c' = (afterSuccess c task p).1 := by
  cases hMove with
  | succeeded hPoint' hp' =>
      rw [hPoint] at hPoint'
      cases hPoint'
      rw [hp] at hp'
      cases hp'
      rfl
  | failed hPoint' =>
      rw [hPoint] at hPoint'
      cases hPoint'
  | _ => simp_all only [reduceCtorEq]

/-
  A step takes up a reply, or it makes no remark and leaves
  the cache as it is.
-/
theorem step_takes_up
    (hStep : step ssl c e = some c') :
    (∃ t task x p, TakesUp c t task x p ∧
        c.remarks e = task.remarks p ∧
        c'.cache = (afterSuccess c task p).1.cache) ∨
      (c.remarks e = [] ∧ c'.cache = c.cache) := by
  cases e with
  | advance out =>
      rcases advance_eq hStep with
        ⟨t, rest, task, c₁, task', spawned, hStrand, hTask,
          hMove, rfl⟩
      rw [settle_cache]
      cases hTaken : c.takenUp with
      | some taken =>
          rcases taken with ⟨t', found, x, p⟩
          have hTakes := Client.takenUp_eq_some hTaken
          rcases hTakes.running with ⟨rest', hStrand'⟩
          rw [hStrand] at hStrand'
          cases hStrand'
          have hFound := hTakes.found
          rw [hTask] at hFound
          cases hFound
          left
          refine ⟨t, task, x, p, hTakes, ?_, ?_⟩
          · simp only [Client.remarks, hTaken]
          · rw [hMove.takes_up hTakes.point hTakes.pending]
      | none =>
          right
          refine ⟨by simp only [Client.remarks, hTaken], ?_⟩
          rcases hMove.write with
            hSame | ⟨x, p, hPoint, hp, _⟩
          · exact hSame
          · have hTakes : TakesUp c t task x p :=
              ⟨⟨rest, hStrand⟩, hTask, hPoint, hp⟩
            rw [hTakes.takenUp] at hTaken
            cases hTaken
  | _ =>
      refine Or.inr ⟨rfl, ?_⟩
      rcases (step_cases hStep).cache with
        hSame | ⟨_, _, _, _, ⟨out, hAdvance⟩, _⟩
      · exact hSame
      · cases hAdvance

theorem step_directory
    (hStep : step ssl c e = some c') :
    c'.cache.directory =
      (c.remarks e).foldl Remark.enter
        c.cache.directory := by
  rcases step_takes_up hStep with
    ⟨t, task, x, p, _, hRemarks, hCache⟩ |
      ⟨hRemarks, hCache⟩
  · rw [hRemarks, hCache]
    exact afterSuccess_directory c task p
  · rw [hRemarks, hCache]
    rfl

theorem step_named
    (hSync :
      ∀ (t : Nat) (task : Task), c.tasks[t]? = some task →
        ∀ creds d engineId,
          task.work = .sync creds d engineId →
            engineId ∈ c.cache.engines)
    (hStep : step ssl c e = some c') :
    c'.cache.known =
      (c.remarks e).foldl Remark.learn c.cache.known := by
  rcases step_takes_up hStep with
    ⟨t, task, x, p, hTakes, hRemarks, hCache⟩ |
      ⟨hRemarks, hCache⟩
  · rw [hRemarks, hCache]
    exact afterSuccess_known (hSync t task hTakes.found) p
  · rw [hRemarks, hCache]
    rfl

end Snmpio

------------------------------------------------------------
-- Runs
------------------------------------------------------------

namespace Snmpio

variable {ssl : OpenSsl} {c : Client} {id : Int32}
variable {now : Int} {events : List Event}
variable {endpoint : Endpoint} {engineId : Octets}

/- All that replies have said about who is where. -/
def remarksAlong
    (ssl : OpenSsl)
    (id : Int32)
    (now : Int)
    (events : List Event) : List Remark :=
  Machine.observed (step ssl) Client.remarks (fresh id now)
    events

/- A v3 datagram from an endpoint that names an Engine. -/
def NamedIn
    (events : List Event)
    (endpoint : Endpoint)
    (engineId : Octets) : Prop :=
  ∃ datagram msg, .receive endpoint datagram ∈ events ∧
    (decodeV3Message datagram).1 = some msg ∧
    msg.security.engineId = engineId

/- The name a discovery takes up was sent by its endpoint. -/
theorem Sound.named_in
    (hSound : Sound ssl events c)
    {t : Nat}
    {task : Task}
    {x : Exchange}
    {p : Pending}
    (hTakes : TakesUp c t task x p)
    {creds : Credentials}
    {d : Nat}
    (hWork : task.work = .identify creds d) :
    NamedIn events task.target.endpoint
      p.security.engineId := by
  rcases hSound.reply hTakes with
    ⟨hAsked, sender, datagram, hMem, hReply⟩
  have hAsks := hAsked.asks
  rw [hWork] at hAsks
  have hV3 : p.v3 = true := hAsks.1
  have hSender : p.sender = task.target.endpoint :=
    hAsked.sender_eq
  rw [Answered, if_pos hV3] at hReply
  rcases hReply with ⟨msg, opened, hMsg⟩
  rw [hMsg.sender_eq, hSender] at hMem
  refine ⟨datagram, msg, hMem, hMsg.decoded, ?_⟩
  rw [hMsg.security_eq]

theorem Sound.remarks_named_in
    (hSound : Sound ssl events c)
    {e : Event}
    (hNamed : .named endpoint engineId ∈ c.remarks e) :
    engineId ≠ [] ∧ NamedIn events endpoint engineId := by
  cases e with
  | advance out =>
      unfold Client.remarks at hNamed
      dsimp only at hNamed
      split at hNamed
      · cases hNamed
      · next t task x p hTaken =>
        unfold Task.remarks at hNamed
        split at hNamed
        · cases hNamed
        · split at hNamed
          · simp at hNamed
          · cases hNamed
        · next hWork =>
          split at hNamed
          · cases hNamed
          · next hName =>
            simp only [List.mem_singleton,
              Remark.named.injEq] at hNamed
            rcases hNamed with ⟨rfl, rfl⟩
            exact ⟨hName, hSound.named_in
              (Client.takenUp_eq_some hTaken) hWork⟩
        · cases hNamed
  | _ => cases hNamed

theorem directory_of_run
    (hRun :
      Machine.run (step ssl) (fresh id now) events =
        some c) :
    c.cache.directory =
      (remarksAlong ssl id now events).foldl Remark.enter
        (fun _ => none) := by
  refine Machine.run_replays
    (fun c => c.cache.directory) Remark.enter ?_ hRun
  intro before s e s' _ hStep
  exact step_directory hStep

theorem known_iff_named
    (hRun :
      Machine.run (step ssl) (fresh id now) events =
        some c)
    {engineId : Octets} :
    engineId ∈ c.cache.engines ↔
      ∃ endpoint, .named endpoint engineId ∈
        remarksAlong ssl id now events := by
  have hKnown :
      c.cache.known =
        (remarksAlong ssl id now events).foldl Remark.learn
          (fresh id now).cache.known := by
    refine Machine.run_replays
      (fun c => c.cache.known) Remark.learn ?_ hRun
    intro before s e s' hBefore hStep
    have hSound := sound_of_run hBefore
    refine step_named ?_ hStep
    intro t task hTask
    exact (hSound.tasks t task hTask).known
  change engineId ∈ c.cache.known ↔ _
  rw [hKnown, mem_foldl_learn]
  constructor
  · rintro (hNone | hNamed)
    · cases hNone
    · exact hNamed
  · exact Or.inr

theorem named_in_of_run
    (hRun :
      Machine.run (step ssl) (fresh id now) events =
        some c)
    (hNamed :
      .named endpoint engineId ∈
        remarksAlong ssl id now events) :
    engineId ≠ [] ∧ NamedIn events endpoint engineId := by
  rcases Machine.mem_observed hRun hNamed with
    ⟨before, e, after, m, rfl, hBefore, hThere⟩
  rcases (sound_of_run hBefore).remarks_named_in hThere with
    ⟨hName, datagram, msg, hMem, hFound⟩
  exact ⟨hName, datagram, msg, List.mem_append_left _ hMem,
    hFound⟩

theorem directory_named_in
    (hRun :
      Machine.run (step ssl) (fresh id now) events =
        some c)
    (hIndex :
      c.cache.index.lookup endpoint = some engineId) :
    NamedIn events endpoint engineId := by
  change c.cache.directory endpoint = _ at hIndex
  rw [directory_of_run hRun] at hIndex
  rcases foldl_enter_eq_some hIndex with hNone | hNamed
  · cases hNone
  · exact (named_in_of_run hRun hNamed).2

/-
  In every run, the Engine at an endpoint is the one that
  the last of the remarks on the endpoint has left there, an
  Engine is known exactly if it has been named, and a name
  was in a datagram from its endpoint.
-/
theorem engine_directory
    (hRun :
      Machine.run (step ssl) (fresh id now) events =
        some c) :
    c.cache.directory =
        (remarksAlong ssl id now events).foldl Remark.enter
          (fun _ => none) ∧
      (∀ engineId, engineId ∈ c.cache.engines ↔
        ∃ endpoint, .named endpoint engineId ∈
          remarksAlong ssl id now events) ∧
      ∀ endpoint engineId,
        .named endpoint engineId ∈
            remarksAlong ssl id now events →
          engineId ≠ [] ∧
            NamedIn events endpoint engineId := by
  refine ⟨directory_of_run hRun, ?_, ?_⟩
  · intro engineId
    exact known_iff_named hRun
  · intro endpoint engineId hNamed
    exact named_in_of_run hRun hNamed

theorem strayRun_remarks :
    (Machine.run (step agentSsl) (fresh 1 0)
        strayRun).isSome = true ∧
      remarksAlong agentSsl 1 0 strayRun =
        [.named agentEndpoint agentEngineId,
          .doubted agentEndpoint,
          .named agentEndpoint strayUsm.engineId] := by
  decide +kernel

/- The other Engine has taken the Agent's place. -/
theorem engine_directory_stray :
    ∃ c,
      Machine.run (step agentSsl) (fresh 1 0) strayRun =
          some c ∧
        c.cache.index.lookup agentEndpoint =
          some strayUsm.engineId ∧
        agentEngineId ∈ c.cache.engines ∧
        NamedIn strayRun agentEndpoint agentEngineId := by
  rcases strayRun_remarks with ⟨hSome, hRemarks⟩
  rcases Option.isSome_iff_exists.mp hSome with ⟨c, hRun⟩
  rcases engine_directory hRun with
    ⟨hDirectory, hKnown, hNamed⟩
  rw [hRemarks] at hDirectory hKnown hNamed
  refine ⟨c, hRun, congrFun hDirectory agentEndpoint,
    (hKnown _).mpr ⟨agentEndpoint, ?_⟩,
    (hNamed _ _ ?_).2⟩
  · exact List.mem_cons_self
  · exact List.mem_cons_self

end Snmpio
