import Snmpio.Client.Replies
import Snmpio.Client.WalkSafety
import Snmpio.Message.Outcomes
import Snmpio.Message.Reencoding
import Mathlib.Data.Set.Finite.List

/-
  Every Walk ends.

  A round that is followed by another has either halved the
  batch size or moved the cursor up.  No order on OIDs ends
  a climb by itself, but every name the cursor moves to has
  been decoded, and there are finitely many of those.

  Key definitions include:
    * `Pdu.ShortNames`
    * `datagramAgent`
    * `WalkState.Follows`

  Key theorems include:
    * `datagramAgent_shortNames`
    * `Oid.wellFounded_climb`
    * `walkRound_follows`
    * `doWalk_ends`
-/

------------------------------------------------------------
-- Decoded Names
------------------------------------------------------------

namespace Snmpio

open Ber

/- Names as the decoder can produce them. -/
def Pdu.ShortNames
    (p : Pdu) : Prop :=
  ∀ vb ∈ p.varbinds, vb.name.size ≤ Oid.maxSubids

/- What can be written again has them. -/
theorem Pdu.shortNames_of_isEncodable
    {p : Pdu}
    (hGood : p.isEncodable = true) :
    p.ShortNames := by
  intro vb hMem
  have hVarbind := List.all_eq_true.mp hGood vb hMem
  have hName := (Bool.and_eq_true_iff.mp hVarbind).1
  rcases (isEncodable_iff vb.name).mp hName with
    ⟨_, _, _, _, hCount, _⟩
  exact hCount

/-
  An Agent that is no more than a supply of datagrams.  Each
  request takes the next one.
-/
def datagramAgent
    (supply : Nat → Octets) : WalkEnv Nat where
  cancelled := fun _ => {}
  stopping := fun _ => false
  doRequest := fun _ n =>
    match decodeV2cMessage (supply n) with
    | (some m, _) => (((toResult m.pdu).1, m.pdu), n + 1)
    | (none, ec) => ((ec.map .errc, {}), n + 1)

/- Whatever it supplies, its names have been decoded. -/
theorem datagramAgent_shortNames
    (supply : Nat → Octets)
    (req : Pdu)
    (n : Nat)
    (resp : Pdu)
    (hReply :
      ((datagramAgent supply).doRequest req n).1 =
        (none, resp)) :
    resp.ShortNames := by
  simp only [datagramAgent] at hReply
  split at hReply
  · next m ec hDecode =>
    have hClear :=
      (decodeV2cMessage_isSome_iff (supply n)).mp
        (by rw [hDecode]; rfl)
    rw [hDecode] at hClear
    cases hClear
    cases (Prod.mk.inj hReply).2
    exact Pdu.shortNames_of_isEncodable
      (V2cForm.of_decode hDecode).isEncodable
  · cases (Prod.mk.inj hReply).2
    intro vb hMem
    cases hMem

end Snmpio

------------------------------------------------------------
-- Climbs of the Cursor
------------------------------------------------------------

namespace Snmpio

open Ordered

theorem finite_uint32 :
    Finite UInt32 :=
  Finite.of_injective
    (fun v : UInt32 => (⟨v.toNat, v.toNat_lt⟩ : Fin (2 ^ 32)))
    (fun _ _ hEq => UInt32.toNat_inj.mp (Fin.mk.inj hEq))

theorem Oid.finite_short :
    {o : Oid | o.size ≤ Oid.maxSubids}.Finite := by
  have hWords : Finite UInt32 := finite_uint32
  have hLists := List.finite_length_le UInt32 Oid.maxSubids
  have hInjective :
      Function.Injective (fun o : Oid => o.subids) := by
    rintro ⟨a⟩ ⟨b⟩ hEq
    exact congrArg Oid.mk hEq
  exact hLists.preimage hInjective.injOn

instance :
    IsStrictOrder Oid (fun a b => a < b) where
  irrefl a := List.lt_irrefl a.subids
  trans _ _ _ hFirst hSecond := List.lt_trans hFirst hSecond

/- The cursor cannot climb forever through short names. -/
theorem Oid.wellFounded_climb :
    WellFounded
      (fun b a : Oid => a < b ∧ b.size ≤ Oid.maxSubids) :=
  Ordered.wellFounded_climb Oid.finite_short

end Snmpio

------------------------------------------------------------
-- Rounds
------------------------------------------------------------

namespace Snmpio

variable {σ τ : Type}

/-
  How a round may be followed by another: it asks for less,
  or it asks for as much from a name further up.
-/
def WalkState.Follows
    (next w : WalkState σ τ) : Prop :=
  Prod.Lex (fun m n : Nat => m < n)
    (fun b a : Oid => a < b ∧ b.size ≤ Oid.maxSubids)
    (next.maxRepetitions.toInt.toNat, next.current)
    (w.maxRepetitions.toInt.toNat, w.current)

theorem WalkState.wellFounded_follows :
    WellFounded
      (fun next w : WalkState σ τ => next.Follows w) :=
  InvImage.wf
    (fun w : WalkState σ τ =>
      (w.maxRepetitions.toInt.toNat, w.current))
    (WellFounded.prod_lex Nat.lt_wfRel.wf
      Oid.wellFounded_climb)

variable (env : WalkEnv σ)
variable (onBatch : List Varbind → τ → Bool × τ)
variable (base : Oid)

/- A Response that does not end the Walk moves the cursor. -/
theorem takeBatch_climbs
    {resp : Pdu}
    {w next : WalkState σ τ}
    (hShort : resp.ShortNames)
    (hTake : takeBatch env onBatch base resp w = .inl next) :
    next.maxRepetitions = w.maxRepetitions ∧
      w.current < next.current ∧
      next.current.size ≤ Oid.maxSubids := by
  unfold takeBatch at hTake
  split at hTake
  · cases hTake
  · split at hTake
    · cases hTake
    · next hSome =>
      split at hTake
      · cases hTake
      · next done reached batch hScan =>
        generalize
          (if batch.isEmpty then (true, w.handler)
            else onBatch batch w.handler) = answer at hTake
        dsimp only at hTake
        split at hTake
        · cases hTake
        · split at hTake
          · cases hTake
          · next hDone =>
            rw [Bool.not_eq_true] at hDone
            subst hDone
            rcases Sum.inl.inj hTake with rfl
            rcases scanBatch_ok hScan with
              ⟨hAll, rfl, hBatch⟩
            rcases hBatch rfl with rfl
            rcases hAll.lastName_cases with
              ⟨hNil, _⟩ | ⟨vb, hMem, hLast, _⟩
            · rw [hNil] at hSome
              exact absurd rfl hSome
            · rw [hLast]
              exact ⟨rfl, hAll.above vb hMem, hShort vb hMem⟩

/- One round, whatever was sent and answered. -/
theorem walkRound_follows
    (hDecoded :
      ∀ req s resp,
        (env.doRequest req s).1 = (none, resp) →
          resp.ShortNames)
    {w next : WalkState σ τ}
    (hRound : walkRound env onBatch base w = .inl next) :
    next.Follows w := by
  unfold walkRound takeReply at hRound
  split at hRound
  · cases hRound
  · dsimp only at hRound
    split at hRound
    · next hTooBig =>
      rcases Sum.inl.inj hRound with rfl
      exact Prod.Lex.left _ _ (half_lt hTooBig.2)
    · split at hRound
      · split at hRound
        · cases hRound
        · cases hRound
      · next hEc =>
        have hShort :=
          hDecoded _ w.world _ (Prod.ext hEc rfl)
        rcases takeBatch_climbs env onBatch base hShort hRound
          with ⟨hSame, hClimb⟩
        unfold WalkState.Follows
        rw [hSame]
        exact Prod.Lex.right _ hClimb

/-
  Every Walk ends, whatever the Agent answers as long as
  each request is answered, with names that can be decoded.
-/
theorem doWalk_ends
    (options : WalkOptions)
    (world : σ)
    (handler : τ)
    (hDecoded :
      ∀ req s resp,
        (env.doRequest req s).1 = (none, resp) →
          resp.ShortNames) :
    ∃ rounds result,
      doWalk env onBatch base rounds
        (startWalk base options world handler) =
          some result := by
  generalize startWalk base options world handler = w
  induction w using WalkState.wellFounded_follows.induction
    with
  | h w ih =>
      cases hRound : walkRound env onBatch base w with
      | inr result =>
          exact ⟨1, result, by simp [doWalk, hRound]⟩
      | inl next =>
          have hFollows :=
            walkRound_follows env onBatch base hDecoded hRound
          rcases ih next hFollows with
            ⟨rounds, result, hWalk⟩
          exact ⟨rounds + 1, result, by
            rw [doWalk, hRound]
            exact hWalk⟩

/- An Agent that answers one name whatever it is asked. -/
def stuckAgent : WalkEnv Nat :=
  datagramAgent (fun _ =>
    (encodeV2cMessage []
      { type := .response
        varbinds := [⟨⟨[1, 3, 6]⟩, .integer 5⟩] }).1)

theorem doWalk_ends_stuckAgent :
    ∃ rounds result,
      doWalk stuckAgent collectBatch ⟨[1, 3]⟩ rounds
        (startWalk ⟨[1, 3]⟩ {} 0 []) = some result :=
  doWalk_ends stuckAgent collectBatch ⟨[1, 3]⟩ {} 0 []
    (datagramAgent_shortNames _)

end Snmpio
