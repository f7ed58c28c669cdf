import Remanence.Parity.Closeout
import Remanence.Parity.FileRows

/-!
# Reopening a tape for append

A committed prefix of file rows decides where new data goes. The bounded pass keeps counters,
one directory row per epoch and the objects of the open epoch; the planner works on the whole
filemark map. Both refuse a prefix whose finalization has begun.
-/

namespace Remanence.Parity.Resume

open Foundation Closeout

def resumeError (message : String) : ParityError := .resumeAppend message

def kindName : TapeFileKind → String
  | .object => "Object"
  | .paritySidecar => "ParitySidecar"
  | .parityMap => "ParityMap"
  | .bootstrap => "Bootstrap"
  | .tapeIndexReplica => "TapeIndexReplica"
  | .indexSeparationExtent => "IndexSeparationExtent"

/-- Refusal of a prefix that ends in control files. -/
def finalizationBegunError (kind : TapeFileKind) (tapeFileNumber : UInt64) : ParityError :=
  resumeError (s!"committed prefix records {kindName kind} at tape file {tapeFileNumber.toNat}: "++
    "finalization has begun, so Object admission is permanently disabled")

def withinOneOpenEpoch (unprotectedOrdinals : UInt64) (scheme : ParityScheme) : Prop :=
  unprotectedOrdinals.toNat < scheme.stripes*scheme.k

instance (unprotectedOrdinals : UInt64) (scheme : ParityScheme) :
    Decidable (withinOneOpenEpoch unprotectedOrdinals scheme) :=
  inferInstanceAs (Decidable (_ < _))

def epochDataShards (scheme : ParityScheme) : Except ParityError UInt64 :=
  orElseError ((checkedMul64 (UInt64.ofNat scheme.k) (UInt64.ofNat scheme.stripes)).filter
    fun value => 0 < value) (resumeError "epoch data-shard count overflows or is zero")

structure ResumeSidecarPlan where
  epochId : UInt64
  protectedOrdinalStart : UInt64
  protectedOrdinalEndExclusive : UInt64
deriving Repr, DecidableEq

structure ResumeAppendPlan where
  appendAfterTapeFileNumber : UInt64
  appendPosition : PhysicalPositionHint
  highestProtectedOrdinalBeforeRebuild : UInt64
  highestProtectedOrdinalAfterRebuild : UInt64
  liveEpochStart : UInt64
  nextDataOrdinal : UInt64
  nextEpochId : UInt64
  sidecarsToEmit : List ResumeSidecarPlan
deriving Repr, DecidableEq

def validateTailCoherence (tail : TapeFileMapEntry) (totalOrdinals liveEpochStart : UInt64)
    (scheme : ParityScheme) : Except ParityError Unit := do
  if tail.kind=.object then
    let first ← orElseError tail.firstParityDataOrdinal (resumeError
      s!"tail object tape file {tail.tapeFileNumber.toNat} is missing first data ordinal")
    let stop ← orElseError (checkedAdd64 first tail.blockCount) (resumeError
      s!"tail object tape file {tail.tapeFileNumber.toNat} ordinal range overflows")
    rejectIf (stop≠totalOrdinals) (resumeError
      (s!"tail object tape file {tail.tapeFileNumber.toNat} ends at ordinal {stop.toNat}, expected "++
        s!"total committed data ordinals {totalOrdinals.toNat}"))
  let liveEpochLen ← orElseError (checkedSub64 totalOrdinals liveEpochStart)
    (resumeError "live epoch start exceeds committed data ordinals")
  rejectIf (¬withinOneOpenEpoch liveEpochLen scheme) (resumeError
    s!"live epoch length {liveEpochLen.toNat} is not below the epoch size S x k")

inductive ResumePlanningMode where
  | v1Committed
  | legacyForensic
deriving Repr, DecidableEq

def addAppendPosition (lba : UInt64) (entry : TapeFileMapEntry) : Except ParityError UInt64 :=
  orElseError ((checkedAdd64 lba entry.blockCount).bind fun value => checkedAdd64 value 1)
    (resumeError "append position overflows u64")

def appendPositionAfterPrefix (entries : List TapeFileMapEntry) :
    Except ParityError PhysicalPositionHint := do
  let lba ← entries.foldlM addAppendPosition 0
  return ⟨0,lba⟩

/-- Ranges of one more sidecar row: protected end and next epoch. -/
def measureSidecar (totalOrdinals epochDataShards : UInt64) (expected : UInt64×UInt64)
    (entry : TapeFileMapEntry) : Except ParityError (UInt64×UInt64) := do
  let epochId ← orElseError entry.epochId (resumeError "sidecar is missing epoch id")
  let start ← orElseError entry.protectedOrdinalStart
    (resumeError "sidecar is missing protected range start")
  let stop ← orElseError entry.protectedOrdinalEndExclusive
    (resumeError "sidecar is missing protected range end")
  rejectIf (epochId≠expected.2) (resumeError
    (s!"sidecar epoch id {epochId.toNat} is not the expected monotonic id "++
      s!"{expected.2.toNat}"))
  rejectIf (start≠expected.1) (resumeError
    (s!"sidecar epoch {epochId.toNat} starts at ordinal {start.toNat}, expected contiguous start "++
      s!"{expected.1.toNat}"))
  rejectIf (totalOrdinals < stop) (resumeError
    (s!"sidecar epoch {epochId.toNat} ends at ordinal {stop.toNat}, beyond committed data ordinals "++
      s!"{totalOrdinals.toNat}"))
  let rangeLen ← orElseError (checkedSub64 stop start) (resumeError
    (s!"sidecar epoch {epochId.toNat} has descending range [{start.toNat}, {stop.toNat})"))
  rejectIf (rangeLen=0 ∨ epochDataShards < rangeLen) (resumeError
    (s!"sidecar epoch {epochId.toNat} range length {rangeLen.toNat} is outside 1..="++
      s!"{epochDataShards.toNat}"))
  let next ← orElseError (checkedAdd64 expected.2 1) (resumeError "sidecar epoch id overflows")
  return (stop,next)

def validateAndMeasureEpochRanges (entries : List TapeFileMapEntry)
    (totalOrdinals epochDataShards : UInt64) : Except ParityError (UInt64×UInt64) :=
  (entries.filter fun entry => entry.kind=.paritySidecar).foldlM
    (measureSidecar totalOrdinals epochDataShards) (0,0)

def isFinalizing (entry : TapeFileMapEntry) : Bool :=
  entry.kind=.parityMap || entry.kind=.tapeIndexReplica || entry.kind=.indexSeparationExtent

def planSidecar (highestBefore nextEpochId epochDataShards : UInt64) (offset : ℕ) :
    Except ParityError ResumeSidecarPlan := do
  let distance ← orElseError (checkedMul64 (UInt64.ofNat offset) epochDataShards)
    (resumeError "resume sidecar ordinal range multiplication overflows")
  let start ← orElseError (checkedAdd64 highestBefore distance)
    (resumeError "resume sidecar ordinal range overflows")
  let stop ← orElseError (checkedAdd64 start epochDataShards)
    (resumeError "resume sidecar ordinal range overflows")
  let epochId ← orElseError (checkedAdd64 nextEpochId (UInt64.ofNat offset))
    (resumeError "resume sidecar epoch id overflows")
  return ⟨epochId,start,stop⟩

def planResumeAppendFromCommittedPrefixWithMode (committedPrefix : FilemarkMap)
    (scheme : ParityScheme) (mode : ResumePlanningMode) : Except ParityError ResumeAppendPlan := do
  let _ ← scheme.validate
  let entries := committedPrefix.entries
  match entries.find? isFinalizing with
  | some finalizing => .error (finalizationBegunError finalizing.kind finalizing.tapeFileNumber)
  | none => do
    let last ← orElseError entries.getLast? (resumeError "committed prefix has no tape files")
    let appendPosition ← appendPositionAfterPrefix entries
    let epochDataShards ← epochDataShards scheme
    let totalOrdinals := UInt64.ofNat committedPrefix.totalDataOrdinals
    let (highestBefore,nextEpochId) ←
      validateAndMeasureEpochRanges entries totalOrdinals epochDataShards
    rejectIf (totalOrdinals < highestBefore) (resumeError
      (s!"protection watermark {highestBefore.toNat} exceeds committed data ordinals "++
        s!"{totalOrdinals.toNat}"))
    let rebuildDataShards := totalOrdinals-highestBefore
    rejectIf (mode=.v1Committed ∧ ¬withinOneOpenEpoch rebuildDataShards scheme) (resumeError
      (s!"committed v1 prefix has {rebuildDataShards.toNat} unprotected ordinals, "++
        s!"reaching the restart bound of one full epoch ({epochDataShards.toNat}); "++
        "multi-epoch rebuild is legacy/forensic only"))
    let fullRebuildEpochs := rebuildDataShards/epochDataShards
    let sidecarsToEmit ← (List.range fullRebuildEpochs.toNat).mapM
      (planSidecar highestBefore nextEpochId epochDataShards)
    let rebuilt ← orElseError (checkedMul64 fullRebuildEpochs epochDataShards)
      (resumeError "resume watermark multiplication overflows")
    let highestAfter ← orElseError (checkedAdd64 highestBefore rebuilt)
      (resumeError "resume watermark overflows")
    validateTailCoherence last totalOrdinals highestAfter scheme
    let liveEpochId ← orElseError (checkedAdd64 nextEpochId fullRebuildEpochs)
      (resumeError "resume live epoch id overflows")
    return ⟨last.tapeFileNumber,appendPosition,highestBefore,highestAfter,highestAfter,totalOrdinals,
      liveEpochId,sidecarsToEmit⟩

structure FileRowCursor where
  committedEntryCount : UInt64
  highestProtectedOrdinal : UInt64
  totalCommittedOrdinals : UInt64
  /-- Rows in order, or the failure of a read. -/
  entries : List (Except ParityError TapeFileEntry)

structure FrozenFileRows where
  scheme : ParityScheme
  committedEntryCount : UInt64
  highestProtectedOrdinal : UInt64
  totalCommittedOrdinals : UInt64
  replay : Except ParityError FileRowCursor

structure ResumeOpenEpochObjectExtent where
  tapeFileNumber : UInt64
  firstParityDataOrdinal : UInt64
  blockCount : UInt64
  physicalStartLba : UInt64
deriving Repr, DecidableEq

structure BoundedResumeSummary where
  scheme : ParityScheme
  committedTapeFileCount : UInt64
  lastCommittedTapeFileNumber : Option UInt64
  appendPosition : PhysicalPositionHint
  highestProtectedOrdinal : UInt64
  totalCommittedOrdinals : UInt64
  nextEpochId : UInt64
  botBootstrapCommitted : Bool
  nextParityMapSequence : UInt64
  committedObjectCount : UInt64
  sidecarDirectoryEntries : List SidecarEpochDirectoryEntry
  openEpochObjectExtents : List ResumeOpenEpochObjectExtent
deriving DecidableEq

def BoundedResumeSummary.appendPlan (summary : BoundedResumeSummary) (scheme : ParityScheme) :
    Except ParityError ResumeAppendPlan := do
  let _ ← scheme.validate
  rejectIf (scheme≠summary.scheme)
    (resumeError "resume parity scheme does not match frozen journal authority")
  let last ← orElseError summary.lastCommittedTapeFileNumber
    (resumeError "committed prefix has no tape files")
  let epochDataShards ← epochDataShards scheme
  let rebuildDataShards ← orElseError
    (checkedSub64 summary.totalCommittedOrdinals summary.highestProtectedOrdinal)
    (resumeError "protection watermark exceeds committed data ordinals")
  rejectIf (¬withinOneOpenEpoch rebuildDataShards scheme) (resumeError
    (s!"committed v1 prefix has {rebuildDataShards.toNat} unprotected ordinals, "++
      s!"reaching the restart bound of one full epoch ({epochDataShards.toNat}); "++
      "multi-epoch rebuild is legacy/forensic only"))
  return ⟨last,summary.appendPosition,summary.highestProtectedOrdinal,
    summary.highestProtectedOrdinal,summary.highestProtectedOrdinal,summary.totalCommittedOrdinals,
    summary.nextEpochId,[]⟩

def validCloseFields (entry : TapeFileMapEntry) : Bool :=
  match entry.kind with
  | .object => entry.firstParityDataOrdinal.isSome && entry.protectedOrdinalStart.isNone &&
      entry.protectedOrdinalEndExclusive.isNone && entry.epochId.isNone
  | .paritySidecar => entry.firstParityDataOrdinal.isNone && entry.protectedOrdinalStart.isSome &&
      (match entry.protectedOrdinalEndExclusive,entry.protectedOrdinalStart with
        | some stop,some start => start < stop
        | _,_ => false) && entry.epochId.isSome
  | .bootstrap => entry.blockCount=1 && entry.firstParityDataOrdinal.isNone &&
      entry.protectedOrdinalStart.isNone && entry.protectedOrdinalEndExclusive.isNone &&
      entry.epochId.isNone
  | .parityMap | .tapeIndexReplica | .indexSeparationExtent => entry.firstParityDataOrdinal.isNone &&
      entry.protectedOrdinalStart.isNone && entry.protectedOrdinalEndExclusive.isNone &&
      entry.epochId.isNone

def validateTerminalCloseEntry (entry : TapeFileEntry) (mapped : TapeFileMapEntry) :
    Except ParityError Unit := do
  rejectIf (entry.blockCount=0) (resumeError
    s!"terminal structural row {entry.tapeFileNumber.toNat} has zero blocks")
  rejectIf (validCloseFields mapped=false) (resumeError
    (s!"terminal structural row {entry.tapeFileNumber.toNat} has invalid {kindName entry.kind} "++
      "fields"))

def sidecarDirectoryEntryFromJournal (entry : TapeFileEntry) (scheme : ParityScheme) :
    Except ParityError SidecarEpochDirectoryEntry := do
  let parityBlocks := UInt64.ofNat (scheme.stripes*scheme.m)
  let replicatedIndexBlocks ← orElseError ((checkedSub64 entry.blockCount parityBlocks).bind
    fun value => checkedSub64 value 1) (resumeError
      (s!"committed sidecar tape file {entry.tapeFileNumber.toNat} has {entry.blockCount.toNat} "++
        s!"blocks, fewer than P + 1 = {parityBlocks.toNat+1}"))
  rejectIf (replicatedIndexBlocks=0 ∨ replicatedIndexBlocks%2≠0) (resumeError
    (s!"committed sidecar tape file {entry.tapeFileNumber.toNat} block count "++
      s!"{entry.blockCount.toNat} is not 2H + P + 1 with H > 0"))
  let missing (field : String) : ParityError := resumeError
    s!"committed sidecar tape file {entry.tapeFileNumber.toNat} record lacks its {field}"
  let epochId ← orElseError entry.epochId (missing "epoch id")
  let start ← orElseError entry.protectedOrdinalStart (missing "protected range start")
  let stop ← orElseError entry.protectedOrdinalEndExclusive (missing "protected range end")
  let hash ← orElseError entry.canonicalMetadataHash (missing "canonical metadata hash")
  return ⟨entry.tapeFileNumber,epochId,start,stop,entry.blockCount,replicatedIndexBlocks/2,
    parityBlocks,hash,0x02 ||| 0x04⟩

structure ReplayState where
  expectedFile : UInt64
  appendLba : UInt64
  totalDataOrdinals : UInt64
  expectedProtectedStart : UInt64
  nextEpochId : UInt64
  botBootstrapCommitted : Bool
  committedObjectCount : UInt64
  sidecarDirectoryEntries : List SidecarEpochDirectoryEntry
  openEpochObjectExtents : List ResumeOpenEpochObjectExtent
  tail : Option TapeFileMapEntry

def replayObject (journalW : UInt64) (state : ReplayState) (entry : TapeFileEntry) :
    Except ParityError ReplayState := do
  let first ← orElseError entry.firstParityDataOrdinal (resumeError
    s!"Object at tape file {state.expectedFile.toNat} lacks its first parity ordinal")
  rejectIf (first≠state.totalDataOrdinals) (resumeError
    (s!"Object at tape file {state.expectedFile.toNat} starts at ordinal {first.toNat}, expected "++
      s!"{state.totalDataOrdinals.toNat}"))
  let stop ← orElseError (checkedAdd64 first entry.blockCount) (resumeError
    s!"Object at tape file {state.expectedFile.toNat} ordinal range overflows")
  let extents := if journalW < stop then
      [⟨entry.tapeFileNumber,first,entry.blockCount,state.appendLba⟩]
    else []
  let count ← orElseError (checkedAdd64 state.committedObjectCount 1)
    (.invariant "bounded resume Object count overflows")
  return { state with
    openEpochObjectExtents := state.openEpochObjectExtents++extents
    totalDataOrdinals := stop
    committedObjectCount := count }

def replaySidecar (scheme : ParityScheme) (epochBlocks journalT : UInt64) (state : ReplayState)
    (entry : TapeFileEntry) : Except ParityError ReplayState := do
  let row ← sidecarDirectoryEntryFromJournal entry scheme
  rejectIf (row.epochId≠state.nextEpochId) (resumeError
    (s!"sidecar epoch id {row.epochId.toNat} is not the expected monotonic id "++
      s!"{state.nextEpochId.toNat}"))
  rejectIf (row.protectedOrdinalStart≠state.expectedProtectedStart) (resumeError
    (s!"sidecar epoch {state.nextEpochId.toNat} starts at ordinal "++
      s!"{row.protectedOrdinalStart.toNat}, expected contiguous start "++
      s!"{state.expectedProtectedStart.toNat}"))
  rejectIf (journalT < row.protectedOrdinalEndExclusive) (resumeError
    (s!"sidecar epoch {state.nextEpochId.toNat} ends at ordinal "++
      s!"{row.protectedOrdinalEndExclusive.toNat}, beyond committed data ordinals "++
      s!"{journalT.toNat}"))
  let protectedLen ← orElseError
    (checkedSub64 row.protectedOrdinalEndExclusive row.protectedOrdinalStart) (resumeError
      s!"sidecar epoch {state.nextEpochId.toNat} has a descending protected range")
  rejectIf (protectedLen=0 ∨ epochBlocks < protectedLen) (resumeError
    (s!"sidecar epoch {state.nextEpochId.toNat} range length {protectedLen.toNat} is outside "++
      s!"1..={epochBlocks.toNat}"))
  let next ← orElseError (checkedAdd64 state.nextEpochId 1)
    (.invariant "bounded resume epoch id overflows")
  return { state with
    expectedProtectedStart := row.protectedOrdinalEndExclusive
    nextEpochId := next
    sidecarDirectoryEntries := state.sidecarDirectoryEntries++[row] }

def replayKind (scheme : ParityScheme) (epochBlocks journalW journalT : UInt64) (state : ReplayState)
    (entry : TapeFileEntry) : Except ParityError ReplayState :=
  match entry.kind with
  | .object => replayObject journalW state entry
  | .paritySidecar => replaySidecar scheme epochBlocks journalT state entry
  | .bootstrap => do
    rejectIf (state.expectedFile≠0 ∨ state.botBootstrapCommitted=true)
      (resumeError "schema-major 2 journal contains a Bootstrap outside tape file 0")
    return { state with botBootstrapCommitted := true }
  | .parityMap | .tapeIndexReplica | .indexSeparationExtent =>
    .error (finalizationBegunError entry.kind entry.tapeFileNumber)

def replayRow (scheme : ParityScheme) (epochBlocks journalW journalT : UInt64) (state : ReplayState)
    (entry : TapeFileEntry) : Except ParityError ReplayState := do
  rejectIf (entry.tapeFileNumber≠state.expectedFile) (resumeError
    (s!"resume structural map is not dense at {state.expectedFile.toNat}: found "++
      s!"{entry.tapeFileNumber.toNat}"))
  validateTerminalCloseEntry entry entry.toMapEntry
  let state ← replayKind scheme epochBlocks journalW journalT state entry
  let lba ← orElseError ((checkedAdd64 state.appendLba entry.blockCount).bind
    fun value => checkedAdd64 value 1) (resumeError "bounded resume append position overflows")
  let next ← orElseError (checkedAdd64 state.expectedFile 1)
    (.invariant "bounded resume tape-file count overflows")
  return { state with
    appendLba := lba
    expectedFile := next
    tail := some entry.toMapEntry }

def replayRows (scheme : ParityScheme) (epochBlocks journalW journalT : UInt64)
    (entries : List (Except ParityError TapeFileEntry)) : Except ParityError ReplayState :=
  entries.foldlM (fun state entry => do
    replayRow scheme epochBlocks journalW journalT state (←entry))
    ⟨0,0,0,0,0,false,0,[],[],none⟩

def checkedBoundedResumeSummary (snapshot : FrozenFileRows) :
    Except ParityError BoundedResumeSummary := do
  let _ ← snapshot.scheme.validate
  let epochBlocks ← epochDataShards snapshot.scheme
  let journalW := snapshot.highestProtectedOrdinal
  let journalT := snapshot.totalCommittedOrdinals
  rejectIf (journalT < journalW) (resumeError
    (s!"journal committed state is incoherent: W={journalW.toNat} exceeds T={journalT.toNat}"))
  let liveOrdinals ← orElseError (checkedSub64 journalT journalW)
    (.invariant "bounded resume W/T underflows")
  rejectIf (¬withinOneOpenEpoch liveOrdinals snapshot.scheme) (resumeError
    (s!"journal committed prefix has {liveOrdinals.toNat} unprotected ordinals, exceeding the v1 "++
      s!"restart bound of one partial epoch ({epochBlocks.toNat})"))
  let replay ← snapshot.replay
  let state ← replayRows snapshot.scheme epochBlocks journalW journalT replay.entries
  rejectIf (state.expectedFile≠replay.committedEntryCount ∨
      state.expectedFile≠snapshot.committedEntryCount ∨
      state.totalDataOrdinals≠replay.totalCommittedOrdinals ∨ state.totalDataOrdinals≠journalT ∨
      state.expectedProtectedStart≠replay.highestProtectedOrdinal ∨
      state.expectedProtectedStart≠journalW) (resumeError
    (s!"bounded resume replay disagrees with checkpoint metadata: rows "++
      s!"{state.expectedFile.toNat}/{replay.committedEntryCount.toNat}/"++
      s!"{snapshot.committedEntryCount.toNat}, W {state.expectedProtectedStart.toNat}/"++
      s!"{replay.highestProtectedOrdinal.toNat}/{journalW.toNat}, T "++
      s!"{state.totalDataOrdinals.toNat}/{replay.totalCommittedOrdinals.toNat}/{journalT.toNat}"))
  rejectIf (state.expectedFile≠0 ∧ state.botBootstrapCommitted=false)
    (resumeError "schema-major 2 committed prefix lacks the sole BOT Bootstrap")
  match state.tail with
  | some tail => validateTailCoherence tail journalT journalW snapshot.scheme
  | none => pure ()
  rejectIf (journalW=journalT ∧ state.openEpochObjectExtents≠[])
    (.invariant "bounded resume retained Object extents for a closed epoch")
  return ⟨snapshot.scheme,state.expectedFile,state.tail.map (·.tapeFileNumber),⟨0,state.appendLba⟩,
    journalW,journalT,state.nextEpochId,state.botBootstrapCommitted,0,state.committedObjectCount,
    state.sidecarDirectoryEntries,state.openEpochObjectExtents⟩

def BoundedResumeSummary.uncoveredRange (summary : BoundedResumeSummary) (plan : ResumeAppendPlan)
    (check : UInt64) : UncoveredRange where
  epochId := plan.nextEpochId
  w := plan.highestProtectedOrdinalBeforeRebuild
  t := plan.nextDataOrdinal
  extents := summary.openEpochObjectExtents.map fun extent =>
    ⟨extent.tapeFileNumber,extent.firstParityDataOrdinal,extent.blockCount,extent.physicalStartLba⟩
  check := check

end Remanence.Parity.Resume
