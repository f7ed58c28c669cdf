import Remanence.Foundation.Words
import Remanence.Parity.Scheme

/-!
# Stripe addresses of data ordinals

An epoch interleaves its ordinals row-major: ordinal offset `i` is data
shard `i/S` of stripe `i%S`. Positions past the protected end hold implicit
zero shards.
-/

namespace Remanence.Parity

open Foundation

def dataShardsPerEpoch (scheme : ParityScheme) : Except ParityError ℕ := do
  let count := scheme.stripes*scheme.k
  rejectIf (count > u64Max) (.invariant "data shards per epoch overflows")
  rejectIf (count=0) (.invariant "data shards per epoch is zero")
  return count

def ordinalToStripeInEpoch (ordinal : ℕ) (epochId : UInt64)
    (protectedOrdinalStart realDataShardCount : ℕ) (scheme : ParityScheme) :
    Except ParityError StripeAddress := do
  let logicalDataShards ← dataShardsPerEpoch scheme
  rejectIf (realDataShardCount=0 ∨ realDataShardCount > logicalDataShards)
    (.invariant "explicit epoch real data-shard count is outside 1..=S*k")
  rejectIf (ordinal < protectedOrdinalStart)
    (.invariant "ordinal precedes explicit epoch protected range")
  let ordinalInEpoch := ordinal-protectedOrdinalStart
  rejectIf (ordinalInEpoch ≥ realDataShardCount)
    (.invariant "ordinal lies outside explicit epoch protected range")
  return ⟨epochId,UInt32.ofNat (ordinalInEpoch%scheme.stripes),
    .data (UInt16.ofNat (ordinalInEpoch/scheme.stripes))⟩

inductive EpochDataShard where
  | real (ordinal : ℕ)
  | implicitZero
deriving Repr, DecidableEq

def stripeDataShardInEpoch (addr : StripeAddress)
    (protectedOrdinalStart protectedOrdinalEndExclusive : ℕ) (scheme : ParityScheme) :
    Except ParityError EpochDataShard := do
  let stripes := scheme.stripes
  rejectIf (addr.stripeIndex.toNat ≥ stripes) (.invariant "stripe_index outside scheme")
  let dataIndex ← (match addr.position with
    | .data index =>
      if index ≥ scheme.dataBlocksPerStripe then .error (.invariant "data index outside scheme")
      else .ok index.toNat
    | .parity _ => .error (.invariant "parity shard has no data ordinal"))
  rejectIf (protectedOrdinalEndExclusive < protectedOrdinalStart)
    (.invariant "epoch protected range ends before it starts")
  let realDataShards := protectedOrdinalEndExclusive-protectedOrdinalStart
  let offset := dataIndex*stripes+addr.stripeIndex.toNat
  if offset ≥ realDataShards then return .implicitZero
  else return .real (protectedOrdinalStart+offset)

/-- A data position of the scheme holds the ordinal of its offset, or a zero past the end. -/
theorem ParityScheme.Valid.stripeDataShardInEpoch_eq {scheme : ParityScheme} (_h : scheme.Valid)
    {epochId : UInt64} {stripe : UInt32} {row : UInt16} {start count : ℕ}
    (hstripe : stripe.toNat < scheme.stripes) (hrow : row.toNat < scheme.k) :
    stripeDataShardInEpoch ⟨epochId,stripe,.data row⟩ start (start+count) scheme=
      .ok (if row.toNat*scheme.stripes+stripe.toNat < count
        then .real (start+(row.toNat*scheme.stripes+stripe.toNat)) else .implicitZero) := by
  have hindex : ¬row ≥ scheme.dataBlocksPerStripe := by
    exact not_le.mpr hrow
  simp only [stripeDataShardInEpoch,rejectIf_pos (not_le.mpr hstripe),if_neg hindex,ok_bind,
    rejectIf_pos (show ¬start+count < start by omega),Nat.add_sub_cancel_left]
  by_cases hlt : row.toNat*scheme.stripes+stripe.toNat < count
  · rw [if_neg (not_le.mpr hlt),if_pos hlt]
    rfl
  · rw [if_pos (Nat.le_of_not_lt hlt),if_neg hlt]
    rfl

end Remanence.Parity
