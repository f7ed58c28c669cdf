import Remanence.Foundation.Words
import Remanence.Crc64
import Remanence.Hashing
import Remanence.Parity.Scheme

/-!
# The parity-epoch sidecar tape file

A sidecar file is a primary header/index copy of `H` blocks, `S*m` raw parity shards, a tail
copy and one footer block. The index lists shards stripe by stripe, the tape parity index by
parity index. Words are little-endian and every block of a copy ends in its CRC-64/XZ.
-/

namespace Remanence.Parity.Sidecar

open Foundation Crc64

def sidecarParse (message : String) : ParityError := .sidecarParse message

def checkedU64 (value : ℕ) (message : String) : Except ParityError ℕ :=
  if value ≤ u64Max then .ok value else .error (sidecarParse message)

def sidecarSchemaVersion : UInt32 := 2

def sidecarHeaderLen : ℕ := 0xC8

def sidecarHeaderCrcOffset : ℕ := 0xC0

def sidecarFooterVersion : UInt16 := 2

def sidecarFooterLen : ℕ := 0x88

def sidecarFooterCrcOffset : ℕ := 0x80

def parityIndexEntryLen : ℕ := 16

def dataCrcEntryLen : ℕ := 8

structure SidecarIndexCapacityLayout where
  blockCount : ℕ
  inlineEntryBytes : ℕ
deriving Repr, DecidableEq

structure IndexPackingState where
  blockCount : ℕ
  remainingBytes : ℕ
  inlineEntryBytes : ℕ
  currentBlockIsEmpty : Bool
deriving Repr, DecidableEq

/-- Placement of a run of equal entries without iterating over them. -/
def packIndexSegment (state : IndexPackingState) (spillCapacity entryCount entryLen : ℕ) :
    Except ParityError IndexPackingState :=
  if entryCount=0 then .ok state
  else do
    rejectIf (entryLen=0 ∨ spillCapacity/entryLen=0)
      (sidecarParse "sidecar block_size cannot hold a complete index entry")
    let entriesHere := min entryCount (state.remainingBytes/entryLen)
    rejectIf (entriesHere=0 ∧ state.currentBlockIsEmpty=true)
      (sidecarParse s!"sidecar block_size cannot hold a {entryLen}-byte index entry")
    let bytesHere ← checkedU64 (entriesHere*entryLen) "sidecar packed entry bytes overflow u64"
    let remainingCount := entryCount-entriesHere
    let remainingBytes := state.remainingBytes-bytesHere
    let inlineEntryBytes ← (if state.blockCount=1 then
        checkedU64 (state.inlineEntryBytes+bytesHere) "sidecar inline index bytes overflow u64"
      else .ok state.inlineEntryBytes)
    if remainingCount=0 then
      return ⟨state.blockCount,remainingBytes,inlineEntryBytes,false⟩
    else
      let entriesPerSpill := spillCapacity/entryLen
      let completeSpillBlocks := remainingCount/entriesPerSpill
      let partialSpillBlock := if remainingCount%entriesPerSpill=0 then 0 else 1
      let addedBlocks ← checkedU64 (completeSpillBlocks+partialSpillBlock)
        "sidecar added index blocks overflow u64"
      let blockCount ← checkedU64 (state.blockCount+addedBlocks)
        "sidecar index block count overflows u64"
      rejectIf (addedBlocks < 1) (sidecarParse "sidecar last-block entry offset overflows u64")
      let entriesBeforeLast ← checkedU64 ((addedBlocks-1)*entriesPerSpill)
        "sidecar last-block entry offset overflows u64"
      rejectIf (remainingCount < entriesBeforeLast)
        (sidecarParse "sidecar last-block entry count underflows")
      let entriesInLast := remainingCount-entriesBeforeLast
      let bytesInLast ← checkedU64 (entriesInLast*entryLen)
        "sidecar last-block entry bytes overflow u64"
      rejectIf (spillCapacity < bytesInLast)
        (sidecarParse "sidecar last-block remaining bytes underflow")
      return ⟨blockCount,spillCapacity-bytesInLast,inlineEntryBytes,false⟩

/-- Exact packed index geometry without iterating over entries. -/
def checkedSidecarIndexCapacityLayout (blockSize parityEntryCount dataCrcEntryCount : ℕ) :
    Except ParityError SidecarIndexCapacityLayout := do
  let trailingCrcLen := 8
  let minimumBlockSize := sidecarHeaderLen+trailingCrcLen
  rejectIf (blockSize < minimumBlockSize)
    (sidecarParse "sidecar block_size smaller than header plus trailing CRC")
  let spillCapacity := blockSize-trailingCrcLen
  let firstCapacity := spillCapacity-sidecarHeaderLen
  let initial : IndexPackingState := ⟨1,firstCapacity,0,true⟩
  let afterParity ← packIndexSegment initial spillCapacity parityEntryCount parityIndexEntryLen
  let afterData ← packIndexSegment afterParity spillCapacity dataCrcEntryCount dataCrcEntryLen
  return ⟨afterData.blockCount,afterData.inlineEntryBytes⟩

/-- Message keyed by the tape UUID for the header magic. -/
def sidecarMagicMessage : Bytes := [0x52,0x45,0x4D,0x00,0x50,0x41,0x52,0x01]

def sidecarFooterMagicMessage : Bytes :=
  [0x52,0x45,0x4D,0x00,0x50,0x41,0x52,0x46,0x4F,0x4F,0x54,0x01]

def sidecarMetadataHashDomain : Bytes := "remanence-sidecar-metadata-v1".toUTF8.data.toList

inductive SidecarCopyKind where
  | primary
  | tail
deriving Repr, DecidableEq

namespace SidecarCopyKind

def toU16 : SidecarCopyKind → UInt16
  | primary => 1
  | tail => 2

def fromU16 (value : UInt16) : Except ParityError SidecarCopyKind :=
  if value=1 then .ok primary
  else if value=2 then .ok tail
  else .error (sidecarParse s!"unsupported sidecar copy kind: {value.toNat}")

def debug : SidecarCopyKind → String
  | primary => "Primary"
  | tail => "Tail"

end SidecarCopyKind

structure SidecarDescriptor where
  tapeUuid : FixedBytes 16
  epochId : UInt64
  k : UInt16
  m : UInt16
  stripesPerEpoch : UInt32
  blockSize : UInt32
  protectedOrdinalStart : UInt64
  protectedOrdinalEndExclusive : UInt64
deriving DecidableEq

structure SidecarHeader where
  magic : FixedBytes 8
  tapeUuid : FixedBytes 16
  epochId : UInt64
  k : UInt16
  m : UInt16
  stripesPerEpoch : UInt32
  blockSize : UInt32
  schemaVersion : UInt32
  protectedOrdinalStart : UInt64
  protectedOrdinalEndExclusive : UInt64
  logicalShardCount : UInt64
  realDataShardCount : UInt64
  parityBlockCount : UInt64
  dataCrcCount : UInt64
  shardIndexBlockCount : UInt64
  inlineIndexEntryBytes : UInt64
  sidecarTotalBlockCount : UInt64
  primaryHeaderStartBlock : UInt64
  tailHeaderStartBlock : UInt64
  footerBlockIndex : UInt64
  copyKind : SidecarCopyKind
  copyGeneration : UInt32
  canonicalMetadataHash : FixedBytes 32
  headerCrc64 : UInt64
  block0Crc64 : UInt64
deriving DecidableEq

structure SidecarFooter where
  magic : FixedBytes 8
  sidecarFooterVersion : UInt16
  tapeUuid : FixedBytes 16
  epochId : UInt64
  protectedOrdinalStart : UInt64
  protectedOrdinalEndExclusive : UInt64
  sidecarHeaderBlockCount : UInt64
  parityShardBlockCount : UInt64
  sidecarTotalBlockCount : UInt64
  primaryHeaderStartBlock : UInt64
  tailHeaderStartBlock : UInt64
  canonicalMetadataHash : FixedBytes 32
  footerCrc64 : UInt64
deriving DecidableEq

structure ParityShardIndexEntry where
  stripeIndex : UInt32
  parityIndex : UInt16
  parityShardCrc64 : UInt64
deriving Repr, DecidableEq

structure SidecarIndex where
  parityEntries : List ParityShardIndexEntry
  dataShardCrc64s : List UInt64
deriving Repr, DecidableEq

structure EncodedSidecarIndex where
  header : SidecarHeader
  blocks : List Bytes
deriving DecidableEq

structure EncodedSidecarTapeFile where
  header : SidecarHeader
  index : SidecarIndex
  blocks : List Bytes
deriving DecidableEq

structure DecodedSidecarIndex where
  header : SidecarHeader
  index : SidecarIndex
deriving DecidableEq

structure DecodedSidecarTapeFile where
  header : SidecarHeader
  index : SidecarIndex
  parityShards : List Bytes
deriving DecidableEq

end Remanence.Parity.Sidecar
