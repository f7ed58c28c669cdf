import Remanence.Parity.FileRows
import Remanence.Parity.Sidecar

/-!
# Capacity authority of an open tape

One checked calculation decides whether an object may start and whether the tape can be closed:
the object and the sidecars it completes, the final partial sidecar, the parity map, three index
replicas, two separations and an allowance must fit in what remains of the capacity basis.
-/

namespace Remanence.Parity.Capacity

open Foundation Sidecar

def fitU64 (value : ℕ) (error : ParityError) : Except ParityError ℕ :=
  if value ≤ u64Max then .ok value else .error error

def reserveOverflow : ParityError := .invariant "capacity reserve arithmetic overflow"

def checkedAdd (a b : ℕ) : Except ParityError ℕ := fitU64 (a+b) reserveOverflow

def checkedMul (a b : ℕ) : Except ParityError ℕ := fitU64 (a*b) reserveOverflow

def checkedSum (values : List ℕ) : Except ParityError ℕ := values.foldlM checkedAdd 0

def divCeil (a b : ℕ) : ℕ := (a+b-1)/b

def parityMapDirectoryFixedUpperBoundBytes : ℕ := 43

def parityMapFixedUpperBoundBytes : ℕ := 325

def parityMapDirectoryEntryUpperBoundBytes : ℕ := 116

def parityMapHeaderLen : ℕ := 0xC8

def parityMapRowsUpperBound (directoryEntryCount : ℕ) : Except ParityError ℕ :=
  fitU64 (directoryEntryCount*parityMapDirectoryEntryUpperBoundBytes)
    (.parityMapParse "parity-map directory byte bound overflows u64")

def parityMapDirectoryLenUpperBound (directoryEntryCount : ℕ) : Except ParityError ℕ := do
  let rows ← parityMapRowsUpperBound directoryEntryCount
  fitU64 (parityMapDirectoryFixedUpperBoundBytes+rows)
    (.parityMapParse "parity-map directory envelope overflows u64")

def parityMapPayloadLenUpperBound (directoryEntryCount : ℕ) : Except ParityError ℕ := do
  let rows ← parityMapRowsUpperBound directoryEntryCount
  fitU64 (parityMapFixedUpperBoundBytes+rows)
    (.parityMapParse "parity-map payload byte bound overflows u64")

structure ReplicatedControlLayout where
  copyBlockCount : ℕ
  totalBlockCount : ℕ
  primaryCopyStartBlock : ℕ
  tailCopyStartBlock : ℕ
  footerBlockIndex : ℕ
deriving Repr, DecidableEq

def checkedReplicatedControlLayout (blockSize headerLen payloadLen : ℕ) (control : String) :
    Except ParityError ReplicatedControlLayout := do
  rejectIf (blockSize=0) (.replicatedControlLayout control "block size must be non-zero")
  rejectIf (blockSize < headerLen)
    (.replicatedControlLayout control "fixed header does not fit in one tape block")
  let copyBlockCount ← fitU64 (divCeil (headerLen+payloadLen) blockSize)
    (.replicatedControlLayout control "copy block count overflows u64")
  let footerBlockIndex ← fitU64 (copyBlockCount*2)
    (.replicatedControlLayout control "footer block index overflows u64")
  let totalBlockCount ← fitU64 (footerBlockIndex+1)
    (.replicatedControlLayout control "total block count overflows u64")
  return ⟨copyBlockCount,totalBlockCount,0,copyBlockCount,footerBlockIndex⟩

structure ParityMapCapacityLayout where
  payloadBoundBytes : ℕ
  blocksBeforeFilemark : ℕ
  tapeFileBlocks : ℕ
deriving Repr, DecidableEq

def checkedParityMapCapacityLayout (blockSizeBytes sidecarEntryCount filemarkBlocks : ℕ) :
    Except ParityError ParityMapCapacityLayout := do
  let payloadBoundBytes ← parityMapPayloadLenUpperBound sidecarEntryCount
  let layout ← checkedReplicatedControlLayout blockSizeBytes parityMapHeaderLen payloadBoundBytes
    "parity-map capacity bound"
  let tapeFileBlocks ← checkedAdd layout.totalBlockCount filemarkBlocks
  return ⟨payloadBoundBytes,layout.totalBlockCount,tapeFileBlocks⟩

inductive TerminalGeometryError where
  | unsupportedBlockSize (context : String) (blockSize : UInt32)
  | payload (message : String)
  | arithmeticOverflow (context : String)
  /-- A separation extent has no room for header and footer. -/
  | tooShort (records : ℕ)
deriving Repr, DecidableEq

def TerminalGeometryError.display : TerminalGeometryError → String
  | .unsupportedBlockSize context blockSize =>
    s!"invalid terminal layout for {context}: "++
      s!"unsupported terminal-index block size {blockSize.toNat}"
  | .payload message => s!"terminal index payload authority failed: {message}"
  | .arithmeticOverflow context => s!"terminal tape-index arithmetic overflow: {context}"
  | .tooShort records => s!"separation record count {records} is below 2"

def terminalIndexCapacityError (error : TerminalGeometryError) : ParityError :=
  .invalidScheme s!"terminal index capacity geometry is invalid: {error.display}"

structure TapeIndexReplicaCounts where
  structuralEntryCount : ℕ
  objectRowCount : ℕ
deriving Repr, DecidableEq

def tapeIndexPayloadStructuralSlotLen : ℕ := 64

def tapeIndexPayloadObjectRowSlotLen : ℕ := 256

def fitPayload (value : ℕ) (message : String) : Except TerminalGeometryError ℕ :=
  if value ≤ u64Max then .ok value
  else .error (.payload (ParityError.tapeIndexReplica message).display)

def checkedTapeIndexPayloadLen (counts : TapeIndexReplicaCounts) :
    Except TerminalGeometryError ℕ := do
  rejectIf (counts.structuralEntryCount < counts.objectRowCount)
    (.payload (ParityError.tapeIndexReplica (s!"Object row count {counts.objectRowCount} "++
      s!"exceeds structural entry count {counts.structuralEntryCount}")).display)
  let structuralBytes ← fitPayload
    (counts.structuralEntryCount*tapeIndexPayloadStructuralSlotLen)
    "structural slot byte count overflows u64"
  let rowBytes ← fitPayload (counts.objectRowCount*tapeIndexPayloadObjectRowSlotLen)
    "Object-row slot byte count overflows u64"
  fitPayload (structuralBytes+rowBytes) "tape-index payload length overflows u64"

structure TapeIndexReplicaLayout where
  payloadLen : ℕ
  payloadRecordCount : ℕ
  payloadPaddingBytes : ℕ
  footerBlockOffset : ℕ
  replicaRecordCount : ℕ
deriving Repr, DecidableEq

/-- Header, payload records and footer of a replica. -/
def checkedTapeIndexReplicaLayout (blockSize : UInt32) (counts : TapeIndexReplicaCounts) :
    Except TerminalGeometryError TapeIndexReplicaLayout := do
  rejectIf (blockSize ∉ terminalIndexBlockSizes) (.unsupportedBlockSize "tape index" blockSize)
  let payloadLen ← checkedTapeIndexPayloadLen counts
  let block := blockSize.toNat
  let payloadRecordCount := divCeil payloadLen block
  let payloadPaddingBytes := if payloadLen%block=0 then 0 else block-payloadLen%block
  rejectIf (u64Max < payloadRecordCount+1) (.arithmeticOverflow "footer block offset")
  rejectIf (u64Max < payloadRecordCount+2) (.arithmeticOverflow "replica record count")
  return ⟨payloadLen,payloadRecordCount,payloadPaddingBytes,payloadRecordCount+1,
    payloadRecordCount+2⟩

def defaultIndexSeparationBytes : ℕ := 2^30

def indexSeparationRecords (blockSize : UInt32) (extentBytes : ℕ) :
    Except TerminalGeometryError ℕ := do
  rejectIf (blockSize ∉ terminalIndexBlockSizes) (.unsupportedBlockSize "separation" blockSize)
  let records := divCeil extentBytes blockSize.toNat
  rejectIf (records < 2) (.tooShort records)
  return records

structure TerminalTripleCloseInput where
  projectedObjectPresent : Bool
  projectedObjectBlocks : ℕ
  blockSizeBytes : UInt32
  currentEpochFillBlocks : ℕ
  dataShardsPerEpoch : ℕ
  parityShardsPerEpoch : ℕ
  pendingCompletedSidecars : ℕ
  sidecarEntriesBeforeObject : ℕ
  structuralEntriesBeforeObject : ℕ
  objectRowsBeforeObject : ℕ
  objectFilemarkBlocks : ℕ
  sidecarFilemarkBlocks : ℕ
  parityMapFilemarkBlocks : ℕ
  replicaFilemarkBlocks : ℕ
  gapFilemarkBlocks : ℕ
  gapNominalBytes : ℕ
  safetyMarginBlocks : ℕ
  remainingTapeBlocks : ℕ
  capacityBasisBlocks : ℕ
  lowWatermarkBlocks : ℕ
  highWatermarkBlocks : ℕ
  pendingCompletedEpochParityBytes : ℕ
  remainingSpoolBytes : ℕ
deriving Repr, DecidableEq

structure TerminalTripleCloseReport where
  projectedObjectPresent : Bool
  epochsCompletedByObject : ℕ
  finalPartialSidecarNeeded : Bool
  sidecarIndexBlockCount : ℕ
  sidecarBlocksBeforeFilemark : ℕ
  sidecarTapeFileBlocks : ℕ
  sidecarsEmittedByCommit : ℕ
  sidecarBlocksEmittedByCommit : ℕ
  objectTapeFileBlocks : ℕ
  /-- Object and completed sidecars. -/
  prefixCommitChargeBlocks : ℕ
  objectRowsAfter : ℕ
  sidecarEntriesAfterCloseout : ℕ
  maximumSidecarEntriesForCapacity : ℕ
  structuralEntriesAfterCloseout : ℕ
  finalPartialSidecarBlocks : ℕ
  finalParityMapNeeded : Bool
  finalParityMapDirectoryBoundBytes : ℕ
  finalParityMapPayloadBoundBytes : ℕ
  finalParityMapBlocksBeforeFilemark : ℕ
  finalParityMapTapeFileBlocks : ℕ
  replicaPayloadBytes : ℕ
  replicaPayloadRecordCount : ℕ
  replicaRecordsBeforeFilemark : ℕ
  replicaTapeFileBlocks : ℕ
  tripleReplicaBlocks : ℕ
  gapNominalBytes : ℕ
  gapRecordsBeforeFilemark : ℕ
  gapTapeFileBlocks : ℕ
  doubleGapBlocks : ℕ
  /-- Partial sidecar and parity map. -/
  parityCloseoutChargeBlocks : ℕ
  terminalTailChargeBlocks : ℕ
  safetyMarginBlocks : ℕ
  /-- Everything closing writes, and the allowance. -/
  closeBoundBlocks : ℕ
  requiredTapeBlocks : ℕ
  requiredSpoolBytes : ℕ
deriving Repr, DecidableEq

namespace TerminalTripleCloseInput

def parityEnabled (input : TerminalTripleCloseInput) : Bool := input.parityShardsPerEpoch≠0

def checkPrefix (input : TerminalTripleCloseInput) : Except ParityError Unit := do
  rejectIf (input.capacityBasisBlocks < input.remainingTapeBlocks)
    (.invariant "terminal close remaining tape exceeds capacity basis C")
  rejectIf (input.highWatermarkBlocks ≤ input.lowWatermarkBlocks ∨
      input.capacityBasisBlocks < input.highWatermarkBlocks)
    (.invalidScheme (s!"terminal close requires L < H <= C, got L={input.lowWatermarkBlocks} "++
      s!"H={input.highWatermarkBlocks} C={input.capacityBasisBlocks}"))
  let _ ← (checkedTapeIndexReplicaLayout input.blockSizeBytes ⟨0,0⟩).mapError
    terminalIndexCapacityError
  rejectIf (input.projectedObjectPresent≠decide (input.projectedObjectBlocks≠0))
    (.invariant "terminal close projected Object presence and block charge disagree")
  rejectIf (input.gapNominalBytes≠defaultIndexSeparationBytes)
    (.invalidScheme (s!"terminal close separation extent is {input.gapNominalBytes} bytes, "++
      s!"expected exactly {defaultIndexSeparationBytes}"))
  rejectIf (input.dataShardsPerEpoch=0)
    (.invalidScheme "terminal close data_shards_per_epoch is zero")
  rejectIf (input.parityEnabled=false ∧ (input.currentEpochFillBlocks≠0 ∨
      input.pendingCompletedSidecars≠0 ∨ input.sidecarEntriesBeforeObject≠0 ∨
      input.pendingCompletedEpochParityBytes≠0))
    (.invariant "parity-off terminal close carries parity epoch, sidecar, or spool state")
  let neighborhood ← checkedAdd input.dataShardsPerEpoch input.parityShardsPerEpoch
  rejectIf (u32Max < neighborhood)
    (.invalidScheme s!"terminal close profile neighborhood {neighborhood} exceeds u32::MAX")
  rejectIf (input.dataShardsPerEpoch ≤ input.currentEpochFillBlocks)
    (.invariant "terminal close current epoch fill is outside the open epoch")
  rejectIf (input.structuralEntriesBeforeObject < input.objectRowsBeforeObject)
    (.invariant "terminal close Object rows exceed structural entries")
  rejectIf (input.structuralEntriesBeforeObject < input.sidecarEntriesBeforeObject)
    (.invariant "terminal close sidecar rows exceed structural entries")
  let recoveryRows ← checkedAdd input.objectRowsBeforeObject input.sidecarEntriesBeforeObject
  rejectIf (input.structuralEntriesBeforeObject < recoveryRows)
    (.invariant "terminal close Object and sidecar rows overlap structural entries")
  rejectIf (input.capacityBasisBlocks < input.structuralEntriesBeforeObject)
    (.invariant "terminal close committed structural entries exceed physical capacity bound")
  rejectIf (input.structuralEntriesBeforeObject=0)
    (.invariant "terminal close prefix is missing the BOT Bootstrap row")

/-- Two index copies, the parity shards and the footer. -/
def sidecarBlocks (input : TerminalTripleCloseInput) (indexBlockCount : ℕ) :
    Except ParityError ℕ := do
  let copies ← checkedMul 2 indexBlockCount
  let shards ← checkedAdd copies input.parityShardsPerEpoch
  checkedAdd shards 1

def sidecarIndex (input : TerminalTripleCloseInput) (dataShards : ℕ) :
    Except ParityError SidecarIndexCapacityLayout :=
  checkedSidecarIndexCapacityLayout input.blockSizeBytes.toNat input.parityShardsPerEpoch dataShards

def fullSidecar (input : TerminalTripleCloseInput) : Except ParityError (ℕ×ℕ×ℕ) :=
  if input.parityEnabled then do
    let layout ← input.sidecarIndex input.dataShardsPerEpoch
    let blocks ← input.sidecarBlocks layout.blockCount
    let fileBlocks ← checkedAdd blocks input.sidecarFilemarkBlocks
    return (layout.blockCount,blocks,fileBlocks)
  else return (0,0,0)

def maximumParityMap (input : TerminalTripleCloseInput) : Except ParityError (ℕ×ℕ) :=
  if input.parityEnabled then do
    let shards ← checkedAdd input.parityShardsPerEpoch 3
    let minimumSidecar ← checkedAdd shards input.sidecarFilemarkBlocks
    let maximumSidecars := input.capacityBasisBlocks/minimumSidecar
    let _ ← parityMapDirectoryLenUpperBound maximumSidecars
    let payload ← parityMapPayloadLenUpperBound maximumSidecars
    let layout ← checkedReplicatedControlLayout input.blockSizeBytes.toNat parityMapHeaderLen payload
      "maximum parity-map capacity bound"
    let fileBlocks ← (if maximumSidecars=0 then return 0
      else checkedAdd layout.totalBlockCount input.parityMapFilemarkBlocks)
    return (maximumSidecars,fileBlocks)
  else return (0,0)

/-- Charge of two separation extents: records, one file, both files. -/
def separations (input : TerminalTripleCloseInput) : Except ParityError (ℕ×ℕ×ℕ) := do
  let records ← (indexSeparationRecords input.blockSizeBytes input.gapNominalBytes).mapError
    terminalIndexCapacityError
  let fileBlocks ← checkedAdd records input.gapFilemarkBlocks
  let both ← checkedMul 2 fileBlocks
  return (records,fileBlocks,both)

def replicas (input : TerminalTripleCloseInput) (counts : TapeIndexReplicaCounts) :
    Except ParityError (TapeIndexReplicaLayout×ℕ×ℕ) := do
  let layout ← (checkedTapeIndexReplicaLayout input.blockSizeBytes counts).mapError
    terminalIndexCapacityError
  let fileBlocks ← checkedAdd layout.replicaRecordCount input.replicaFilemarkBlocks
  let triple ← checkedMul 3 fileBlocks
  return (layout,fileBlocks,triple)

/-- Worst close of the profile; returns the number of sidecars the capacity can hold. -/
def validateCapacityDerivedProfileBounds (input : TerminalTripleCloseInput)
    (maximumCompleteSidecarTapeFileBlocks : ℕ) : Except ParityError ℕ := do
  rejectIf (input.capacityBasisBlocks < input.highWatermarkBlocks)
    (.invalidScheme (s!"high watermark {input.highWatermarkBlocks} exceeds capacity basis "++
      s!"{input.capacityBasisBlocks}"))
  let closeoutBudget := input.capacityBasisBlocks-input.highWatermarkBlocks
  rejectIf (input.parityEnabled=true ∧
      input.capacityBasisBlocks < maximumCompleteSidecarTapeFileBlocks)
    (.invalidScheme (s!"maximum complete sidecar requires "++
      s!"{maximumCompleteSidecarTapeFileBlocks} blocks but capacity basis is "++
      s!"{input.capacityBasisBlocks}"))
  let (maximumSidecars,maximumParityMapBlocks) ← input.maximumParityMap
  let (_,_,maximumTriple) ← input.replicas ⟨input.capacityBasisBlocks,input.capacityBasisBlocks⟩
  let (_,_,doubleGap) ← input.separations
  let maximumClose ← checkedSum [maximumCompleteSidecarTapeFileBlocks,maximumParityMapBlocks,
    maximumTriple,doubleGap,input.safetyMarginBlocks]
  rejectIf (closeoutBudget < maximumClose)
    (.invalidScheme (s!"worst representable close requires {maximumClose} blocks but C-H "++
      s!"closeout budget is {closeoutBudget}"))
  return maximumSidecars

def projectEpochs (input : TerminalTripleCloseInput) : Except ParityError (ℕ×ℕ) :=
  if input.parityEnabled then do
    let fill ← checkedAdd input.currentEpochFillBlocks input.projectedObjectBlocks
    return (fill/input.dataShardsPerEpoch,fill%input.dataShardsPerEpoch)
  else return (0,0)

structure CloseRows where
  objectRows : ℕ
  sidecarEntries : ℕ
  structuralEntries : ℕ
deriving Repr, DecidableEq

def commitCharge (input : TerminalTripleCloseInput) (epochs sidecarTapeFileBlocks : ℕ) :
    Except ParityError (ℕ×ℕ×ℕ×ℕ) := do
  let sidecars ← checkedAdd input.pendingCompletedSidecars epochs
  let sidecarCharge ← checkedMul sidecars sidecarTapeFileBlocks
  let object ← (if input.projectedObjectPresent then
      checkedAdd input.projectedObjectBlocks input.objectFilemarkBlocks
    else return 0)
  let charge ← checkedAdd object sidecarCharge
  return (sidecars,sidecarCharge,object,charge)

def closeRows (input : TerminalTripleCloseInput) (sidecars remainder maximumSidecars : ℕ) :
    Except ParityError CloseRows := do
  let objects := if input.projectedObjectPresent then 1 else 0
  let partialCount := if remainder=0 then 0 else 1
  let objectRows ← checkedAdd input.objectRowsBeforeObject objects
  let committed ← checkedAdd input.sidecarEntriesBeforeObject sidecars
  let sidecarEntries ← checkedAdd committed partialCount
  rejectIf (maximumSidecars < input.sidecarEntriesBeforeObject) (.invariant
    "terminal close committed sidecar directory exceeds its physical capacity bound")
  let _ ← parityMapDirectoryLenUpperBound sidecarEntries
  let _ ← parityMapPayloadLenUpperBound sidecarEntries
  let parityMapCount := if sidecarEntries=0 then 0 else 1
  let withObject ← checkedAdd input.structuralEntriesBeforeObject objects
  let afterCommit ← checkedAdd withObject sidecars
  let withPartial ← checkedAdd afterCommit partialCount
  let structuralEntries ← checkedAdd withPartial parityMapCount
  return ⟨objectRows,sidecarEntries,structuralEntries⟩

def finalParityMap (input : TerminalTripleCloseInput) (sidecarEntries : ℕ) :
    Except ParityError (Option ParityMapCapacityLayout) :=
  if sidecarEntries=0 then return none
  else some <$> checkedParityMapCapacityLayout input.blockSizeBytes.toNat sidecarEntries
    input.parityMapFilemarkBlocks

def finalPartialSidecar (input : TerminalTripleCloseInput) (remainder : ℕ) : Except ParityError ℕ :=
  if remainder=0 then return 0
  else do
    let layout ← input.sidecarIndex remainder
    let blocks ← input.sidecarBlocks layout.blockCount
    checkedAdd blocks input.sidecarFilemarkBlocks

def requiredSpool (input : TerminalTripleCloseInput) (epochs sidecarBlocksBeforeFilemark : ℕ) :
    Except ParityError ℕ :=
  if input.parityEnabled then do
    let sidecarBytes ← checkedMul sidecarBlocksBeforeFilemark input.blockSizeBytes.toNat
    let completed ← checkedMul epochs sidecarBytes
    checkedAdd input.pendingCompletedEpochParityBytes completed
  else return 0

def evaluate (input : TerminalTripleCloseInput) : Except ParityError TerminalTripleCloseReport := do
  input.checkPrefix
  let (indexBlockCount,sidecarBlocksBeforeFilemark,sidecarTapeFileBlocks) ← input.fullSidecar
  let maximumSidecars ← (input.validateCapacityDerivedProfileBounds sidecarTapeFileBlocks).mapError
    fun error => .invalidScheme s!"unsafe terminal close capacity profile: {error.display}"
  let (epochs,remainder) ← input.projectEpochs
  let (sidecars,sidecarCharge,object,commit) ← input.commitCharge epochs sidecarTapeFileBlocks
  let rows ← input.closeRows sidecars remainder maximumSidecars
  let parityMap ← input.finalParityMap rows.sidecarEntries
  let parityMapFileBlocks := (parityMap.map (·.tapeFileBlocks)).getD 0
  let partialBlocks ← input.finalPartialSidecar remainder
  let (replica,replicaFileBlocks,tripleReplica) ← input.replicas
    ⟨rows.structuralEntries,rows.objectRows⟩
  let (gapRecords,gapFileBlocks,doubleGap) ← input.separations
  let parityCloseout ← checkedAdd partialBlocks parityMapFileBlocks
  let terminalTail ← checkedAdd tripleReplica doubleGap
  let closeBound ← checkedSum [parityCloseout,terminalTail,input.safetyMarginBlocks]
  let required ← checkedAdd commit closeBound
  rejectIf (required < input.projectedObjectBlocks)
    (.invariant "terminal close reserve subtraction underflow")
  rejectIf (input.remainingTapeBlocks < required) (.capacityReserveExceeded .tapeCapacity
    input.projectedObjectBlocks (some input.remainingTapeBlocks)
    (some (required-input.projectedObjectBlocks)) none none)
  let spool ← input.requiredSpool epochs sidecarBlocksBeforeFilemark
  rejectIf (input.remainingSpoolBytes < spool) (.capacityReserveExceeded .paritySpoolCapacity
    input.projectedObjectBlocks none none (some input.remainingSpoolBytes) (some spool))
  return {
    projectedObjectPresent := input.projectedObjectPresent
    epochsCompletedByObject := epochs
    finalPartialSidecarNeeded := remainder≠0
    sidecarIndexBlockCount := indexBlockCount
    sidecarBlocksBeforeFilemark := sidecarBlocksBeforeFilemark
    sidecarTapeFileBlocks := sidecarTapeFileBlocks
    sidecarsEmittedByCommit := sidecars
    sidecarBlocksEmittedByCommit := sidecarCharge
    objectTapeFileBlocks := object
    prefixCommitChargeBlocks := commit
    objectRowsAfter := rows.objectRows
    sidecarEntriesAfterCloseout := rows.sidecarEntries
    maximumSidecarEntriesForCapacity := maximumSidecars
    structuralEntriesAfterCloseout := rows.structuralEntries
    finalPartialSidecarBlocks := partialBlocks
    finalParityMapNeeded := rows.sidecarEntries≠0
    finalParityMapDirectoryBoundBytes := parityMapDirectoryFixedUpperBoundBytes+
      rows.sidecarEntries*parityMapDirectoryEntryUpperBoundBytes
    finalParityMapPayloadBoundBytes := parityMapFixedUpperBoundBytes+
      rows.sidecarEntries*parityMapDirectoryEntryUpperBoundBytes
    finalParityMapBlocksBeforeFilemark := (parityMap.map (·.blocksBeforeFilemark)).getD 0
    finalParityMapTapeFileBlocks := parityMapFileBlocks
    replicaPayloadBytes := replica.payloadLen
    replicaPayloadRecordCount := replica.payloadRecordCount
    replicaRecordsBeforeFilemark := replica.replicaRecordCount
    replicaTapeFileBlocks := replicaFileBlocks
    tripleReplicaBlocks := tripleReplica
    gapNominalBytes := input.gapNominalBytes
    gapRecordsBeforeFilemark := gapRecords
    gapTapeFileBlocks := gapFileBlocks
    doubleGapBlocks := doubleGap
    parityCloseoutChargeBlocks := parityCloseout
    terminalTailChargeBlocks := terminalTail
    safetyMarginBlocks := input.safetyMarginBlocks
    closeBoundBlocks := closeBound
    requiredTapeBlocks := required
    requiredSpoolBytes := spool }

end TerminalTripleCloseInput

structure TerminalTripleObjectReservation where
  input : TerminalTripleCloseInput
  report : TerminalTripleCloseReport
deriving Repr, DecidableEq

def TerminalTripleCloseInput.reserveObject (input : TerminalTripleCloseInput) :
    Except ParityError TerminalTripleObjectReservation := do
  rejectIf (input.projectedObjectPresent=false)
    (.invariant "terminal Object reservation requires a projected Object")
  let report ← input.evaluate
  return ⟨input,report⟩

end Remanence.Parity.Capacity
