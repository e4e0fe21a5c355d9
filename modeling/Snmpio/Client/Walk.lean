import Snmpio.Message.Pdu

/-
  The Walk of a Subtree.

  A Walk is a coroutine that sends requests and looks at its
  surroundings between them, so these are the fields of
  `WalkEnv`, over a world that every request may change.
  The batch handler keeps a state of its own.

  Key definitions include:
    * `WalkEnv`
    * `scanBatch`
    * `walkRound`
    * `doWalk`
    * `doWalkCollect`
-/

------------------------------------------------------------
-- Requests
------------------------------------------------------------

namespace Snmpio

def toVarbinds
    (oids : List Oid) : List Varbind :=
  oids.map (fun oid => ⟨oid, .null⟩)

def makePdu
    (type : PduType)
    (varbinds : List Varbind) : Pdu :=
  { type := type
    varbinds := varbinds }

def makeBulkPdu
    (varbinds : List Varbind)
    (nonRepeaters maxRepetitions : Int32) : Pdu :=
  (makePdu .getBulk varbinds).setBulkParams nonRepeaters
    maxRepetitions

/- `ErrorStatus::TooBig`. -/
def tooBig : ErrorCode := .agent 1

structure WalkOptions where
  maxRepetitions : Int32 := 10

end Snmpio

------------------------------------------------------------
-- Rounds
------------------------------------------------------------

namespace Snmpio

/- The kinds of cancellation that have been observed. -/
structure Cancellation where
  terminal : Bool := false
  total : Bool := false
  deriving DecidableEq

/- Terminal drops everything, total stops at a boundary. -/
def stopNow
    (c : Cancellation) : Option ErrorCode :=
  if c.terminal then some .operationAborted
  else if c.total then some (.errc .walkIncomplete)
  else none

structure WalkEnv
    (σ : Type) where
  cancelled : σ → Cancellation
  stopping : σ → Bool
  doRequest : Pdu → σ → (Option ErrorCode × Pdu) × σ

/- The local variables of the loop, the world and the
  handler's state. -/
structure WalkState
    (σ τ : Type) where
  world : σ
  handler : τ
  current : Oid
  maxRepetitions : Int32

/-
  The loop over a Response's Varbinds: whether the Walk is
  done, the last name taken, and the batch.
-/
def scanBatch
    (base : Oid) :
    (current : Oid) → (batch : List Varbind) →
      List Varbind → Except Errc (Bool × Oid × List Varbind)
| current, batch, [] => .ok (false, current, batch)
| current, batch, vb :: rest =>
    if vb.val.isException ∨ ¬ base.isPrefixOf vb.name then
      .ok (true, current, batch)
    else if ¬ current < vb.name then
      .error .nonIncreasingOid
    else
      scanBatch base vb.name (batch ++ [vb]) rest

def walkRequest
    (current : Oid)
    (maxRepetitions : Int32) : Pdu :=
  if maxRepetitions ≤ 0 then
    makePdu .getNext (toVarbinds [current])
  else
    makeBulkPdu (toVarbinds [current]) 0 maxRepetitions

section

variable {σ τ : Type} (env : WalkEnv σ)
variable (onBatch : List Varbind → τ → Bool × τ)
variable (base : Oid)

/- What follows a Response without an error. -/
def takeBatch
    (resp : Pdu)
    (w : WalkState σ τ) :
    WalkState σ τ ⊕ (Option ErrorCode × WalkState σ τ) :=
  if env.stopping w.world then
    .inr (some (.errc .clientStopped), w)
  else if resp.varbinds.isEmpty then
    .inr (some (.errc .missingVarbind), w)
  else
    match scanBatch base w.current [] resp.varbinds with
    | .error e => .inr (some (.errc e), w)
    | .ok (done, current, batch) =>
        let (keep, handler) :=
          if batch.isEmpty then (true, w.handler)
          else onBatch batch w.handler
        let w :=
          { w with current := current, handler := handler }
        if ¬ keep then
          .inr (some (.errc .walkIncomplete), w)
        else if done then .inr (none, w)
        else .inl w

/- What follows the reply to a round's request. -/
def takeReply
    (ec : Option ErrorCode)
    (resp : Pdu)
    (w : WalkState σ τ) :
    WalkState σ τ ⊕ (Option ErrorCode × WalkState σ τ) :=
  if ec = some tooBig ∧ w.maxRepetitions > 1 then
    .inl { w with maxRepetitions := w.maxRepetitions / 2 }
  else
    match ec with
    | some ec =>
        match stopNow (env.cancelled w.world) with
        | some stop => .inr (some stop, w)
        | none => .inr (some ec, w)
    | none => takeBatch env onBatch base resp w

/- One round of the loop: another one, or a result. -/
def walkRound
    (w : WalkState σ τ) :
    WalkState σ τ ⊕ (Option ErrorCode × WalkState σ τ) :=
  match stopNow (env.cancelled w.world) with
  | some stop => .inr (some stop, w)
  | none =>
      let req := walkRequest w.current w.maxRepetitions
      let reply := env.doRequest req w.world
      takeReply env onBatch base reply.1.1 reply.1.2
        { w with world := reply.2 }

/- The loop, for a number of rounds. -/
def doWalk :
    (rounds : Nat) → WalkState σ τ →
      Option (Option ErrorCode × WalkState σ τ)
| 0, _ => none
| rounds + 1, w =>
    match walkRound env onBatch base w with
    | .inl w => doWalk rounds w
    | .inr result => some result

end

/- The handler that collects. -/
def collectBatch
    (batch collected : List Varbind) :
    Bool × List Varbind :=
  (true, collected ++ batch)

def doWalkCollect
    {σ : Type}
    (env : WalkEnv σ)
    (base : Oid)
    (options : WalkOptions)
    (rounds : Nat)
    (world : σ) :
    Option (Option ErrorCode × List Varbind) :=
  match doWalk env collectBatch base rounds
      { world := world
        handler := []
        current := base
        maxRepetitions := options.maxRepetitions } with
  | none => none
  | some (ec, w) =>
      if ec = some .operationAborted then some (ec, [])
      else some (ec, w.handler)

end Snmpio
