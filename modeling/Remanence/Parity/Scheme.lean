import Remanence.Foundation.Checked
import Mathlib.Data.UInt

/-!
# Parity schemes and the error vocabulary of the parity layer

A scheme fixes the stripe width `k+m` and the number of interleaved stripes.
`ParityScheme.validate` is the gate every codec, sidecar and recovery path passes through.
-/

namespace Remanence.Parity

open Foundation

inductive ReedSolomonError where
  | tooFewShardsPresent
  | emptyShard
  | incorrectShardSize
deriving Repr, DecidableEq

inductive StripePosition where
  | data (index : UInt16)
  | parity (index : UInt16)
deriving Repr, DecidableEq

/-- Stripe identity of a block; sidecar recovery stores the epoch id in
`neighborhood`. -/
structure StripeAddress where
  neighborhood : UInt64
  stripeIndex : UInt32
  position : StripePosition
deriving Repr, DecidableEq

structure TapeFault where
  currentMediumDamage : Bool
  message : String
deriving Repr, DecidableEq

inductive CapacityReserveCause where
  | tapeCapacity
  | paritySpoolCapacity
deriving Repr, DecidableEq

def CapacityReserveCause.debug : CapacityReserveCause → String
  | .tapeCapacity => "TapeCapacity"
  | .paritySpoolCapacity => "ParitySpoolCapacity"

inductive ParityError where
  | tapeIo (fault : TapeFault)
  | invalidScheme (message : String)
  | reedSolomon (error : ReedSolomonError)
  | unrecoverable (stripe : StripeAddress) (lostCount limit : ℕ)
  | invariant (message : String)
  | implementationLimit (context detail : String)
  | sidecarParse (message : String)
  | sidecarMetadataUnavailable (epochId : UInt64)
  | schemeMismatch (tape expected : String)
  | filemarkMapDigestMismatch
  | filemarkMapReconstruct (message : String)
  | outsideValidatedMapPrefix (ordinal prefixOrdinals : ℕ)
  /-- A request lies above the protection watermark. -/
  | unrecoverablePendingEpoch (failedOrdinal watermark : ℕ)
  | tapeIndexReplica (message : String)
  | resumeAppend (message : String)
  | closeoutCheckMismatch (expected found : UInt64)
  | sessionOpen (message : String)
  | parityMapParse (message : String)
  | replicatedControlLayout (control message : String)
  | capacityReserveExceeded (cause : CapacityReserveCause) (projectedObjectBlocks : ℕ)
    (remainingBlocks reserveBlocks remainingSpoolBytes requiredSpoolBytes : Option ℕ)
deriving Repr, DecidableEq

def ReedSolomonError.display : ReedSolomonError → String
  | .tooFewShardsPresent => "The number of shards present is smaller than number of parity "++
    "shards, cannot reconstruct missing shards"
  | .emptyShard => "The first shard provided is of zero length"
  | .incorrectShardSize => "At least one of the provided shards is not of the correct size"

def StripePosition.debug : StripePosition → String
  | .data index => s!"Data \x7b index: {index.toNat} \x7d"
  | .parity index => s!"Parity \x7b index: {index.toNat} \x7d"

def StripeAddress.debug (stripe : StripeAddress) : String :=
  s!"StripeAddress \x7b neighborhood: {stripe.neighborhood.toNat}, stripe_index: "++
    s!"{stripe.stripeIndex.toNat}, position: {stripe.position.debug} \x7d"

def ParityError.display : ParityError → String
  | .tapeIo fault => s!"tape I/O error: {fault.message}"
  | .invalidScheme message => s!"invalid parity scheme: {message}"
  | .reedSolomon error => s!"Reed-Solomon error: {error.display}"
  | .unrecoverable stripe lostCount limit =>
    s!"stripe {stripe.debug} unrecoverable: lost {lostCount} blocks (limit is {limit})"
  | .invariant message => s!"invariant violation: {message}"
  | .implementationLimit context detail => s!"implementation limit: {context} ({detail})"
  | .sidecarParse message => s!"sidecar parse error: {message}"
  | .sidecarMetadataUnavailable epochId =>
    s!"sidecar metadata unavailable for epoch {epochId.toNat} (both header copies failed); "++
      "only this epoch is parity-unavailable"
  | .schemeMismatch tape expected =>
    s!"parity scheme mismatch: bootstrap says {tape}, reader expects {expected}"
  | .filemarkMapDigestMismatch =>
    "reconstructed filemark map does not match bootstrap digest (walk truncation position: None)"
  | .filemarkMapReconstruct message => s!"filemark map could not be reconstructed: {message}"
  | .outsideValidatedMapPrefix ordinal prefixOrdinals =>
    s!"ordinal {ordinal} is outside validated map prefix ending at {prefixOrdinals}"
  | .unrecoverablePendingEpoch failedOrdinal watermark =>
    s!"ordinal {failedOrdinal} is above parity protection watermark {watermark}"
  | .tapeIndexReplica message => s!"terminal tape-index replica error: {message}"
  | .resumeAppend message => s!"resume append error: {message}"
  | .closeoutCheckMismatch expected found =>
    s!"closeout check mismatch: expected CheckValue({expected.toNat}), "++
      s!"found CheckValue({found.toNat})"
  | .sessionOpen message => s!"write session cannot open: {message}"
  | .parityMapParse message => s!"parity-map parse error: {message}"
  | .replicatedControlLayout control message =>
    s!"{control} replicated-control layout error: {message}"
  | .capacityReserveExceeded cause _ _ _ _ _ =>
    s!"starting object would exceed required reserve: {cause.debug}"

def u32Max : ℕ := 2^32-1

def u64Max : ℕ := 2^64-1

structure ParityScheme where
  id : String
  dataBlocksPerStripe : UInt16
  parityBlocksPerStripe : UInt16
  stripesPerNeighborhood : UInt32
deriving Repr, DecidableEq

namespace ParityScheme

def k (scheme : ParityScheme) : ℕ := scheme.dataBlocksPerStripe.toNat

def m (scheme : ParityScheme) : ℕ := scheme.parityBlocksPerStripe.toNat

def stripes (scheme : ParityScheme) : ℕ := scheme.stripesPerNeighborhood.toNat

def neighborhoodBlocks (scheme : ParityScheme) : ℕ := scheme.stripes*(scheme.k+scheme.m)

def validate (scheme : ParityScheme) : Except ParityError ParityScheme := do
  let k := scheme.k
  let m := scheme.m
  rejectIf (k < 2) (.invalidScheme s!"data_blocks_per_stripe = {k} (must be >= 2)")
  rejectIf (m < 1) (.invalidScheme
    "parity_blocks_per_stripe = 0 — use the bootstrap no-parity flag instead")
  rejectIf (m > k) (.invalidScheme
    s!"parity_blocks_per_stripe = {m} > data_blocks_per_stripe = {k} (use replication)")
  rejectIf (scheme.stripes < 1) (.invalidScheme "stripes_per_neighborhood = 0")
  let stripeWidth := k+m
  rejectIf (stripeWidth > 255) (.invalidScheme s!"k + m = {stripeWidth} > 255 — GF(2^8) RS limit")
  let neighborhood := scheme.neighborhoodBlocks
  rejectIf (neighborhood > u32Max) (.invalidScheme
    s!"neighborhood_blocks = S × (k + m) = {neighborhood} > u32::MAX = 4 G blocks")
  return scheme

structure Valid (scheme : ParityScheme) : Prop where
  two_le_k : 2 ≤ scheme.k
  one_le_m : 1 ≤ scheme.m
  m_le_k : scheme.m ≤ scheme.k
  one_le_stripes : 1 ≤ scheme.stripes
  width_le : scheme.k+scheme.m ≤ 255
  blocks_le : scheme.neighborhoodBlocks ≤ u32Max

/-- Validation accepts exactly the schemes that meet every constraint, and
returns the scheme it was given. -/
theorem validate_eq_ok {scheme result : ParityScheme} :
    scheme.validate=.ok result ↔ scheme.Valid ∧ result=scheme := by
  simp only [validate,eq_ok,exists_const]
  constructor
  · rintro ⟨h1,h2,h3,h4,h5,h6,h7⟩
    exact ⟨⟨by omega,by omega,by omega,by omega,by omega,by omega⟩,h7.symm⟩
  · rintro ⟨⟨h1,h2,h3,h4,h5,h6⟩,h7⟩
    exact ⟨by omega,by omega,by omega,by omega,by omega,by omega,h7.symm⟩

end ParityScheme

end Remanence.Parity
