import Remanence.Parity.FilemarkMap
import Mathlib.Data.FinEnum

/-!
# File rows, recovery rows and terminal layouts

Rows of the tape files a host records, with the recovery anchors of object
files, and the fixed five-file layout of a terminal tail.
-/

namespace Remanence.Parity

open Foundation

inductive ObjectRecoveryRepresentation where
  | plaintext (manifestFirstChunkLba manifestSizeBytes manifestChunkCount : UInt64)
    (manifestSha256 : FixedBytes 32)
  | encrypted (recipientEpochIds : List (FixedBytes 16)) (metadataFrameLen : UInt64)
    (keyFrameLen : UInt32)
deriving DecidableEq

structure ObjectRecoveryRow where
  tapeFileNumber : UInt64
  storedBlockCount : UInt64
  objectId : Option Bytes
  representation : ObjectRecoveryRepresentation
deriving DecidableEq

structure TapeFileEntry where
  tapeFileNumber : UInt64
  kind : TapeFileKind
  blockCount : UInt64
  physicalStartHint : Option UInt64
  objectId : Option String
  firstParityDataOrdinal : Option UInt64
  epochId : Option UInt64
  protectedOrdinalStart : Option UInt64
  protectedOrdinalEndExclusive : Option UInt64
  canonicalMetadataHash : Option (FixedBytes 32)
  objectRecoveryRow : Option ObjectRecoveryRow
deriving DecidableEq

def TapeFileEntry.toMapEntry (row : TapeFileEntry) : TapeFileMapEntry :=
  ⟨row.tapeFileNumber,row.kind,row.blockCount,row.firstParityDataOrdinal,row.protectedOrdinalStart,
    row.protectedOrdinalEndExclusive,row.epochId⟩

def rowError (message : String) : ParityError := .tapeIndexReplica message

def validateObjectRecoveryRowFields (storedBlockCount : UInt64) (objectId : Option Bytes)
    (representation : ObjectRecoveryRepresentation) (blockSizeBytes : Option UInt32) :
    Except ParityError Unit := do
  rejectIf (storedBlockCount=0) (rowError "Object recovery row stored_block_count must be positive")
  rejectIf (∃ id ∈ objectId, id.length < 1 ∨ id.length > 64 ∨ 0 ∈ id)
    (rowError "Object recovery row object_id must contain 1..=64 non-NUL bytes")
  match representation with
  | .plaintext manifestFirstChunkLba manifestSizeBytes manifestChunkCount _ =>
    rejectIf (manifestSizeBytes=0 ∨ manifestChunkCount=0)
      (rowError "plaintext manifest size/count must be positive")
    let stop ← orElseError (checkedAdd64 manifestFirstChunkLba manifestChunkCount)
      (rowError "plaintext manifest chunk range overflows")
    rejectIf (stop > storedBlockCount)
      (rowError "plaintext manifest chunk range exceeds stored block count")
    rejectIf (∃ size ∈ blockSizeBytes,
        manifestSizeBytes.toNat > manifestChunkCount.toNat*size.toNat)
      (rowError "plaintext manifest size exceeds manifest chunk capacity")
  | .encrypted recipientEpochIds metadataFrameLen keyFrameLen =>
    rejectIf (recipientEpochIds=[] ∨ recipientEpochIds.length > 8 ∨
        (∃ id ∈ recipientEpochIds, ∀ byte ∈ id.bytes, byte=0) ∨
        ¬recipientEpochIds.Nodup)
      (rowError "encrypted recipient_epoch_ids must contain 1..=8 distinct nonzero ids")
    rejectIf (metadataFrameLen < 17 ∨ metadataFrameLen > 16*1024*1024)
      (rowError "encrypted metadata_frame_len is outside REM-OBJECT bounds")
    rejectIf (keyFrameLen < 1191 ∨ keyFrameLen > 16384)
      (rowError "encrypted key_frame_len is outside REM-OBJECT bounds")

structure CheckValue where
  value : UInt64
deriving Repr, DecidableEq

def CheckValue.empty : CheckValue := ⟨0⟩

inductive CheckProvenance where
  | empty
  /-- Computed from the bytes as they were written. -/
  | originalWrite
deriving Repr, DecidableEq

structure CommitCursor where
  partition : UInt32
  lba : UInt64
deriving Repr, DecidableEq

def defaultBootstrapCandidateBlockSizes : List UInt32 := [256*1024,512*1024,1024*1024]

inductive TerminalTailComponentKind where
  | tapeIndexReplica
  | indexSeparationExtent
deriving Repr, DecidableEq

structure TerminalTailComponentPlan where
  kind : TerminalTailComponentKind
  ordinal : UInt16
  plannedTapeFileNumber : UInt64
  plannedStartLba : UInt64
  recordCount : UInt64
deriving Repr, DecidableEq

theorem exists_of_length_five {l : List α} (h : l.length=5) : ∃ a b c d e, l=[a,b,c,d,e] :=
  match l,h with
  | [a,b,c,d,e],_ => ⟨a,b,c,d,e,rfl⟩

structure TerminalTailLayout where
  partition : UInt32
  blockSize : UInt32
  components : List TerminalTailComponentPlan
  length_components : components.length=5
  expectedEodLba : UInt64
deriving DecidableEq

inductive TerminalTailLayoutError where
  | unsupportedPartition (partition : UInt32)
  | unsupportedBlockSize (blockSize : UInt32)
  | invalidRecordCount (kind : TerminalTailComponentKind) (records minimum : UInt64)
  | nonUniformRecordCount (kind : TerminalTailComponentKind) (ordinal : UInt16)
    (expected actual : UInt64)
  | arithmeticOverflow (context : String)
  | wrongComponent (index : ℕ) (expectedKind : TerminalTailComponentKind)
    (expectedOrdinal : UInt16) (actualKind : TerminalTailComponentKind) (actualOrdinal : UInt16)
  | nonDenseTapeFileNumber (index : ℕ) (expected actual : UInt64)
  | nonContiguousStart (index : ℕ) (expected actual : UInt64)
  | wrongExpectedEod (expected actual : UInt64)
  | missingComponent (kind : TerminalTailComponentKind) (ordinal : UInt16)
deriving Repr, DecidableEq

def terminalIndexBlockSizes : List UInt32 := [256*1024,512*1024,1024*1024]

def TerminalTailComponentPlan.expectedNextLba (component : TerminalTailComponentPlan) :
    Except TerminalTailLayoutError UInt64 := do
  let span ← orElseError (checkedAdd64 component.recordCount 1)
    (.arithmeticOverflow "component records plus one logical filemark")
  orElseError (checkedAdd64 component.plannedStartLba span)
    (.arithmeticOverflow "next component start LBA")

namespace TerminalTailLayout

-- the index of the first component
instance : NeZero 5 := ⟨by decide⟩

def component (layout : TerminalTailLayout) (index : Fin 5) : TerminalTailComponentPlan :=
  layout.components.get (index.cast layout.length_components.symm)

def expectedOrder : List (TerminalTailComponentKind×UInt16) :=
  [(.tapeIndexReplica,1),(.indexSeparationExtent,1),(.tapeIndexReplica,2),
    (.indexSeparationExtent,2),(.tapeIndexReplica,3)]

def checkAdjacent (index : ℕ) (component next : TerminalTailComponentPlan) :
    Except TerminalTailLayoutError Unit := do
  let expectedFile ← orElseError (checkedAdd64 component.plannedTapeFileNumber 1)
    (.arithmeticOverflow "dense terminal tape-file number")
  rejectIf (next.plannedTapeFileNumber≠expectedFile)
    (.nonDenseTapeFileNumber (index+1) expectedFile next.plannedTapeFileNumber)
  let expectedStart ← component.expectedNextLba
  rejectIf (next.plannedStartLba≠expectedStart)
    (.nonContiguousStart (index+1) expectedStart next.plannedStartLba)

def checkComponents : ℕ → List TerminalTailComponentPlan →
    List (TerminalTailComponentKind×UInt16) → Except TerminalTailLayoutError Unit
  | index,component::rest,(expectedKind,expectedOrdinal)::expected => do
    rejectIf (component.kind≠expectedKind ∨ component.ordinal≠expectedOrdinal)
      (.wrongComponent index expectedKind expectedOrdinal component.kind component.ordinal)
    rejectIf (component.recordCount < 2) (.invalidRecordCount component.kind component.recordCount 2)
    match rest with
    | next::_ => checkAdjacent index component next
    | [] => pure ()
    checkComponents (index+1) rest expected
  | _,_,_ => pure ()

/-- Components of one kind have the size of the first. -/
def checkUniform (expected : UInt64) (component : TerminalTailComponentPlan) :
    Except TerminalTailLayoutError Unit :=
  rejectIf (component.recordCount≠expected)
    (.nonUniformRecordCount component.kind component.ordinal expected component.recordCount)

/-- Order, ordinals, dense file numbers, positions and end of data. -/
def validate (layout : TerminalTailLayout) : Except TerminalTailLayoutError Unit := do
  rejectIf (layout.partition≠0) (.unsupportedPartition layout.partition)
  rejectIf (layout.blockSize ∉ terminalIndexBlockSizes) (.unsupportedBlockSize layout.blockSize)
  checkComponents 0 layout.components expectedOrder
  checkUniform (layout.component 0).recordCount (layout.component 2)
  checkUniform (layout.component 0).recordCount (layout.component 4)
  checkUniform (layout.component 1).recordCount (layout.component 3)
  let expectedEod ← (layout.component 4).expectedNextLba
  rejectIf (layout.expectedEodLba≠expectedEod) (.wrongExpectedEod expectedEod layout.expectedEodLba)

end TerminalTailLayout

inductive TerminalFinalizationTrigger where
  | reachedLowWatermark
  | hardwareEarlyWarning
  | operatorCloseOut
  | poolCloseOut
  | noPendingObjectFits
deriving Repr, DecidableEq

structure ManualTerminalFinalizationIdentity where
  operationId : FixedBytes 16
  operationKind : String
  actorFingerprint : String
  idempotencyKey : FixedBytes 16
  requestFingerprint : FixedBytes 32
  assignedPoolId : Option String
  expectedPoolId : Option String
  assignmentGeneration : UInt64
  reason : String
deriving DecidableEq

end Remanence.Parity
