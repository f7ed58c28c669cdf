import Remanence.Parity.Codec
import Remanence.Parity.SidecarFile

/-!
# Incremental parity of one epoch

A writer pushes whole blocks at consecutive ordinals; the parity buffers, the block CRCs and a
running check are kept. The writer check is CRC-64/XZ over the little-endian block CRCs.
-/

namespace Remanence.Parity

open Foundation Crc64 Codec Sidecar List

/-- Incremental writer check: a CRC register before the final complement. -/
structure CheckValueBuilder where
  register : UInt64
deriving Repr, DecidableEq

namespace CheckValueBuilder

def new : CheckValueBuilder := ⟨0xFFFFFFFFFFFFFFFF⟩

def push (builder : CheckValueBuilder) (blockCrc : UInt64) : CheckValueBuilder :=
  ⟨crc64XzUpdateSlice builder.register (u64Le blockCrc)⟩

def value (builder : CheckValueBuilder) : UInt64 := builder.register^^^0xFFFFFFFFFFFFFFFF

end CheckValueBuilder

def checkValue (blockCrcs : List UInt64) : UInt64 :=
  (blockCrcs.foldl CheckValueBuilder.push .new).value

structure EpochAccumulator where
  tapeUuid : FixedBytes 16
  scheme : ParityScheme
  blockSize : UInt32
  epochId : UInt64
  epochStart : UInt64
  nextOrdinal : UInt64
  codec : ReedSolomonCodec
  parityAccumulators : List (List Bytes)
  currentEpochDataCrc64s : List UInt64
  check : CheckValueBuilder
deriving DecidableEq

namespace EpochAccumulator

/-- Core payload `S*m*B+8*S*k`, checked before allocation. -/
def reservationBytes (scheme : ParityScheme) (blockSize : UInt32) : Except ParityError UInt64 :=
  let s := scheme.stripesPerNeighborhood.toUInt64
  let bytes := do
    let parity ← checkedMul64 s scheme.parityBlocksPerStripe.toUInt64
    let parityBytes ← checkedMul64 parity blockSize.toUInt64
    let data ← checkedMul64 s scheme.dataBlocksPerStripe.toUInt64
    let crcBytes ← checkedMul64 data 8
    checkedAdd64 parityBytes crcBytes
  orElseError bytes (.invariant "epoch reservation overflows")

def new (tapeUuid : FixedBytes 16) (scheme : ParityScheme) (blockSize : UInt32)
    (epochId epochStart : UInt64) : Except ParityError EpochAccumulator := do
  let _ ← scheme.validate
  rejectIf (blockSize=0) (.invariant "epoch block size is zero")
  let _ ← reservationBytes scheme blockSize
  let codec ← ReedSolomonCodec.new scheme
  return ⟨tapeUuid,scheme,blockSize,epochId,epochStart,epochStart,codec,
    replicate scheme.stripes (codec.newParityAccumulators blockSize.toNat),[],.new⟩

/-- Accumulate a full block at exactly the next ordinal. -/
def pushBlock (accumulator : EpochAccumulator) (ordinal : UInt64) (block : Bytes) :
    Except ParityError EpochAccumulator := do
  rejectIf (ordinal≠accumulator.nextOrdinal) (.invariant "epoch ordinal is not consecutive")
  let next ← orElseError (checkedAdd64 ordinal 1) (.invariant "epoch ordinal overflows")
  let offset := (ordinal-accumulator.epochStart).toNat
  let s := accumulator.scheme.stripes
  rejectIf (s*accumulator.scheme.k ≤ offset ∨ block.length≠accumulator.blockSize.toNat)
    (.invariant "epoch block exceeds geometry")
  let accumulators ← orElseError accumulator.parityAccumulators[offset%s]?
    (.invariant "epoch parity accumulators unavailable")
  let accumulators ← accumulator.codec.accumulate (offset/s) block accumulators
  let crc := dataShardCrc64 block
  return { accumulator with
    parityAccumulators := accumulator.parityAccumulators.set (offset%s) accumulators
    currentEpochDataCrc64s := accumulator.currentEpochDataCrc64s++[crc]
    check := accumulator.check.push crc
    nextOrdinal := next }

def checkValue (accumulator : EpochAccumulator) : UInt64 := accumulator.check.value

def descriptor (accumulator : EpochAccumulator) : SidecarDescriptor :=
  ⟨accumulator.tapeUuid,accumulator.epochId,accumulator.scheme.dataBlocksPerStripe,
    accumulator.scheme.parityBlocksPerStripe,accumulator.scheme.stripesPerNeighborhood,
    accumulator.blockSize,accumulator.epochStart,accumulator.nextOrdinal⟩

def intoSidecar (hash : HashFunctions) (accumulator : EpochAccumulator) :
    Except ParityError EncodedSidecarTapeFile :=
  encodeSidecarTapeFile hash accumulator.descriptor accumulator.parityAccumulators.flatten
    accumulator.currentEpochDataCrc64s

def pushBlocks : EpochAccumulator → UInt64 → List Bytes → Except ParityError EpochAccumulator
  | accumulator,_,[] => .ok accumulator
  | accumulator,ordinal,block::rest => do
    let accumulator ← accumulator.pushBlock ordinal block
    pushBlocks accumulator (ordinal+1) rest

theorem pushBlocks_append (a b : List Bytes) (accumulator : EpochAccumulator) (ordinal : UInt64) :
    pushBlocks accumulator ordinal (a++b)=pushBlocks accumulator ordinal a >>= fun next =>
      pushBlocks next (ordinal+UInt64.ofNat a.length) b := by
  induction a generalizing accumulator ordinal with
  | nil => simp [pushBlocks]
  | cons block rest ih =>
    rw [cons_append,pushBlocks,pushBlocks,length_cons,add_ofNat_succ,bind_assoc]
    refine bind_congr fun next => ?_
    exact ih next (ordinal+1)

variable {accumulator next : EpochAccumulator}

theorem pushBlock_eq_ok {ordinal : UInt64} {block : Bytes}
    (h : accumulator.pushBlock ordinal block=.ok next) :
    ordinal=accumulator.nextOrdinal ∧ block.length=accumulator.blockSize.toNat ∧
      next.nextOrdinal.toNat=ordinal.toNat+1 ∧ next.blockSize=accumulator.blockSize ∧
      next.epochStart=accumulator.epochStart ∧ next.scheme=accumulator.scheme ∧
      next.currentEpochDataCrc64s=accumulator.currentEpochDataCrc64s++[dataShardCrc64 block] ∧
      next.check=accumulator.check.push (dataShardCrc64 block) := by
  simp only [pushBlock,eq_ok,not_not,not_or, checkedAdd64_eq_some] at h
  obtain ⟨_,hordinal,next',hnext,_,⟨-,hlength⟩,_,-,_,-,rfl⟩ := h
  exact ⟨hordinal,hlength,by simpa using hnext.symm,rfl,rfl,rfl,rfl,rfl⟩

theorem pushBlocks_eq_ok {blocks : List Bytes}
    {ordinal : UInt64} (h : pushBlocks accumulator ordinal blocks=.ok next) :
    next.blockSize=accumulator.blockSize ∧
      ∀ block ∈ blocks, block.length=accumulator.blockSize.toNat := by
  induction blocks generalizing accumulator ordinal with
  | nil =>
    cases h
    exact ⟨rfl,forall_mem_nil _⟩
  | cons block rest ih =>
    rw [pushBlocks,bind_eq_ok] at h
    obtain ⟨middle,hpush,hrest⟩ := h
    obtain ⟨-,hlength,-,hsize,-⟩ := pushBlock_eq_ok hpush
    obtain ⟨hfinal,hblocks⟩ := ih hrest
    rw [hsize] at hfinal hblocks
    exact ⟨hfinal,forall_mem_cons.mpr ⟨hlength,hblocks⟩⟩

end EpochAccumulator

end Remanence.Parity
