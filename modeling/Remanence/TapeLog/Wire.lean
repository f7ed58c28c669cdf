import Remanence.Foundation.Cbor
import Remanence.TapeLog.Record

/-!
# The record encoding

Records are definite-length CBOR: a structure is a map whose keys number the fields, an
enumeration is a number, a variant with data is an array headed by its number. Readers refuse
anything else.
-/

namespace Remanence.TapeLog

open Foundation Parity

instance : Wire String where
  put s := putBytes 3 (utf8 s)
  get := do
    let bytes ← getBytes maxFrameBody 3
    match String.fromUTF8? ⟨bytes.toArray⟩ with
    | some s => return s
    | none => failure

instance : Wire Bytes where
  put bytes := putBytes 2 bytes
  get := getBytes maxFrameBody 2

def getMany {α : Type} [Wire α] : ℕ → Get (List α)
  | 0 => return []
  | n+1 => do
    let a ← Wire.get
    let rest ← getMany n
    return a::rest

instance : Wire (List (FixedBytes 16)) where
  put ids := if ids.length > 8 then none else putArray (ids.map Wire.put)
  get := do
    let n ← expect 4
    if n.toNat > 8 then failure
    getMany n.toNat

instance : Wire CheckValue where
  put check := Wire.put (⟨u64Le check.value,length_u64Le check.value⟩ : FixedBytes 8)
  get := do
    let bytes : FixedBytes 8 ← Wire.get
    return ⟨readU64Le bytes.bytes 0⟩

def checkProvenanceCode : CheckProvenance → UInt64
  | .empty => 0
  | .originalWrite => 1

instance : Wire CheckProvenance where
  put a := Wire.put (checkProvenanceCode a)
  get := getCode [.empty,.originalWrite] checkProvenanceCode

def tapeFileKindCode : TapeFileKind → UInt64
  | .object => 0
  | .paritySidecar => 1
  | .bootstrap => 2
  | .parityMap => 3
  | .tapeIndexReplica => 4
  | .indexSeparationExtent => 5

instance : Wire TapeFileKind where
  put a := Wire.put (tapeFileKindCode a)
  get := getCode [.object,.paritySidecar,.bootstrap,.parityMap,.tapeIndexReplica,
    .indexSeparationExtent] tapeFileKindCode

def terminalTailComponentKindCode : TerminalTailComponentKind → UInt64
  | .tapeIndexReplica => 4
  | .indexSeparationExtent => 5

instance : Wire TerminalTailComponentKind where
  put a := Wire.put (terminalTailComponentKindCode a)
  get := getCode [.tapeIndexReplica,.indexSeparationExtent] terminalTailComponentKindCode

def terminalFinalizationTriggerCode : TerminalFinalizationTrigger → UInt64
  | .reachedLowWatermark => 0
  | .hardwareEarlyWarning => 1
  | .operatorCloseOut => 2
  | .poolCloseOut => 3
  | .noPendingObjectFits => 4

instance : Wire TerminalFinalizationTrigger where
  put a := Wire.put (terminalFinalizationTriggerCode a)
  get := getCode [.reachedLowWatermark,.hardwareEarlyWarning,.operatorCloseOut,.poolCloseOut,
    .noPendingObjectFits] terminalFinalizationTriggerCode

def sessionEndReasonCode : SessionEndReason → UInt64
  | .cleanClose => 0
  | .abort => 1
  | .failedAppend => 2
  | .clientStall => 3
  | .driveError => 4
  | .gracefulShutdown => 5
  | .clientDisconnected => 6
  | .crashRecovered => 7
  | .closeoutFailed => 8

instance : Wire SessionEndReason where
  put a := Wire.put (sessionEndReasonCode a)
  get := getCode [.cleanClose,.abort,.failedAppend,.clientStall,.driveError,.gracefulShutdown,
    .clientDisconnected,.crashRecovered,.closeoutFailed] sessionEndReasonCode

def tailFilemarkCode : TailFilemark → UInt64
  | .present => 0
  | .absent => 1
  | .unknown => 2

instance : Wire TailFilemark where
  put a := Wire.put (tailFilemarkCode a)
  get := getCode [.present,.absent,.unknown] tailFilemarkCode

instance : Wire CommitCursor where
  put c := putFields [Wire.put c.partition,Wire.put c.lba]
  get := do
    getSize 5 2
    return ⟨← getField 0,← getField 1⟩

instance : Wire ParityScheme where
  put s := putFields [Wire.put s.id,Wire.put s.dataBlocksPerStripe,
    Wire.put s.parityBlocksPerStripe,Wire.put s.stripesPerNeighborhood]
  get := do
    getSize 5 4
    return ⟨← getField 0,← getField 1,← getField 2,← getField 3⟩

instance : Wire ObjectRecoveryRepresentation where
  put
    | .plaintext first size count sha256 => putArray [Wire.put (0 : UInt8),Wire.put first,
      Wire.put size,Wire.put count,Wire.put sha256]
    | .encrypted ids metadataLen keyLen => putArray [Wire.put (1 : UInt8),Wire.put ids,
      Wire.put metadataLen,Wire.put keyLen]
  get := do
    let n ← expect 4
    let variant : UInt8 ← Wire.get
    if n=5 ∧ variant=0 then
      return .plaintext (← Wire.get) (← Wire.get) (← Wire.get) (← Wire.get)
    else if n=4 ∧ variant=1 then return .encrypted (← Wire.get) (← Wire.get) (← Wire.get)
    else failure

instance : Wire ObjectRecoveryRow where
  put r := putFields [Wire.put r.tapeFileNumber,Wire.put r.storedBlockCount,Wire.put r.objectId,
    Wire.put r.representation]
  get := do
    getSize 5 4
    return ⟨← getField 0,← getField 1,← getField 2,← getField 3⟩

instance : Wire TapeFileEntry where
  put r := putFields [Wire.put r.tapeFileNumber,Wire.put r.kind,Wire.put r.blockCount,
    Wire.put r.physicalStartHint,Wire.put r.objectId,Wire.put r.firstParityDataOrdinal,
    Wire.put r.epochId,Wire.put r.protectedOrdinalStart,Wire.put r.protectedOrdinalEndExclusive,
    Wire.put r.canonicalMetadataHash,Wire.put r.objectRecoveryRow]
  get := do
    getSize 5 11
    return ⟨← getField 0,← getField 1,← getField 2,← getField 3,← getField 4,← getField 5,
      ← getField 6,← getField 7,← getField 8,← getField 9,← getField 10⟩

instance : Wire Initialized where
  put i := putFields [Wire.put i.tapeUuid,Wire.put i.incarnation,Wire.put i.group,
    Wire.put i.blockSize,Wire.put i.scheme,Wire.put i.bot]
  get := do
    getSize 5 6
    return ⟨← getField 0,← getField 1,← getField 2,← getField 3,← getField 4,← getField 5⟩

instance : Wire GroupRef where
  put g := putFields [Wire.put g.firstSequence,Wire.put g.startOffset,Wire.put g.frameCount,
    Wire.put g.byteCount,Wire.put g.memberCount,Wire.put g.digest]
  get := do
    getSize 5 6
    return ⟨← getField 0,← getField 1,← getField 2,← getField 3,← getField 4,← getField 5⟩

instance : Wire SidecarEpochDirectoryEntry where
  put r := putFields [Wire.put r.tapeFileNumber,Wire.put r.epochId,
    Wire.put r.protectedOrdinalStart,Wire.put r.protectedOrdinalEndExclusive,
    Wire.put r.sidecarTotalBlockCount,Wire.put r.sidecarHeaderBlockCount,
    Wire.put r.parityShardBlockCount,Wire.put r.canonicalMetadataHash,Wire.put r.flags]
  get := do
    getSize 5 9
    return ⟨← getField 0,← getField 1,← getField 2,← getField 3,← getField 4,← getField 5,
      ← getField 6,← getField 7,← getField 8⟩

instance : Wire TailIdentity where
  put
    | .object id => putArray [Wire.put (0 : UInt8),Wire.put id]
    | .sidecar hash => putArray [Wire.put (1 : UInt8),Wire.put hash]
    | .tornPrefix hash => putArray [Wire.put (2 : UInt8),Wire.put hash]
  get := do
    getSize 4 2
    let variant : UInt8 ← Wire.get
    if variant=0 then return .object (← Wire.get)
    else if variant=1 then return .sidecar (← Wire.get)
    else if variant=2 then return .tornPrefix (← Wire.get)
    else failure

instance : Wire TailFile where
  put f := putFields [Wire.put f.tapeFileNumber,Wire.put f.identity,Wire.put f.knownBlocks,
    Wire.put f.unknownBlocks,Wire.put f.filemark,Wire.put f.synchronizedBlocks,
    Wire.put f.synchronizedFilemark]
  get := do
    getSize 5 7
    return ⟨← getField 0,← getField 1,← getField 2,← getField 3,← getField 4,← getField 5,
      ← getField 6⟩

instance : Wire Chunk where
  put
    | .fileRow row => putArray [Wire.put (0 : UInt8),Wire.put row]
    | .catalog file ordinal last => putArray [Wire.put (1 : UInt8),Wire.put file,
      Wire.put ordinal,Wire.put last]
    | .planDirectory row => putArray [Wire.put (2 : UInt8),Wire.put row]
    | .tailFile file => putArray [Wire.put (3 : UInt8),Wire.put file]
  get := do
    let n ← expect 4
    let variant : UInt8 ← Wire.get
    if n=2 ∧ variant=0 then return .fileRow (← Wire.get)
    else if n=4 ∧ variant=1 then return .catalog (← Wire.get) (← Wire.get) (← Wire.get)
    else if n=2 ∧ variant=2 then return .planDirectory (← Wire.get)
    else if n=2 ∧ variant=3 then return .tailFile (← Wire.get)
    else failure

instance : Wire Continuation where
  put c := putFields [Wire.put c.group,Wire.put c.chunk]
  get := do
    getSize 5 2
    return ⟨← getField 0,← getField 1⟩

instance : Wire Committed where
  put c := putFields [Wire.put c.group,Wire.put c.cursor,Wire.put c.protectedUpTo,
    Wire.put c.total,Wire.put c.check,Wire.put c.provenance,Wire.put c.nextEpoch,
    Wire.put c.nextFile,Wire.put c.objectCount,Wire.put c.batchId,Wire.put c.sessionId,
    Wire.put c.sealDue,Wire.put c.committedAtUtc]
  get := do
    getSize 5 13
    return ⟨← getField 0,← getField 1,← getField 2,← getField 3,← getField 4,← getField 5,
      ← getField 6,← getField 7,← getField 8,← getField 9,← getField 10,← getField 11,
      ← getField 12⟩

instance : Wire SessionCursor where
  put c := putFields [Wire.put c.partition,Wire.put c.lba,Wire.put c.nextFile]
  get := do
    getSize 5 3
    return ⟨← getField 0,← getField 1,← getField 2⟩

instance : Wire SessionOpened where
  put o := putFields [Wire.put o.sessionId,Wire.put o.incarnation,Wire.put o.baseMediaSequence,
    Wire.put o.cursor,Wire.put o.openedAtUtc]
  get := do
    getSize 5 5
    return ⟨← getField 0,← getField 1,← getField 2,← getField 3,← getField 4⟩

instance : Wire SessionEnded where
  put e := putFields [Wire.put e.sessionId,Wire.put e.incarnation,Wire.put e.baseMediaSequence,
    Wire.put e.cursor,Wire.put e.endedAtUtc,Wire.put e.reason,Wire.put e.tail,
    Wire.put e.tailFileCount,Wire.put e.crashAckAuditSequence,Wire.put e.synchronizedTailBlocks,
    Wire.put e.possibleTailBlocks,Wire.put e.provedEod]
  get := do
    getSize 5 12
    return ⟨← getField 0,← getField 1,← getField 2,← getField 3,← getField 4,← getField 5,
      ← getField 6,← getField 7,← getField 8,← getField 9,← getField 10,← getField 11⟩

instance : Wire ClosedOut where
  put c := putFields [Wire.put c.group,Wire.put c.incarnation,Wire.put c.operationId,
    Wire.put c.sessionId,Wire.put c.baseMediaSequence,Wire.put c.fromW,Wire.put c.toT,
    Wire.put c.epochId,Wire.put c.sidecarFileNumber,Wire.put c.checkBefore,
    Wire.put c.cursorAfter,Wire.put c.nextFile,Wire.put c.nextEpoch,Wire.put c.completedAtUtc]
  get := do
    getSize 5 14
    return ⟨← getField 0,← getField 1,← getField 2,← getField 3,← getField 4,← getField 5,
      ← getField 6,← getField 7,← getField 8,← getField 9,← getField 10,← getField 11,
      ← getField 12,← getField 13⟩

instance : Wire TerminalTailComponentPlan where
  put c := putFields [Wire.put c.kind,Wire.put c.ordinal,Wire.put c.plannedTapeFileNumber,
    Wire.put c.plannedStartLba,Wire.put c.recordCount]
  get := do
    getSize 5 5
    return ⟨← getField 0,← getField 1,← getField 2,← getField 3,← getField 4⟩

structure FiveComponents where
  components : List TerminalTailComponentPlan
  length_components : components.length=5

instance : Wire FiveComponents where
  put c := putArray (c.components.map Wire.put)
  get := do
    getSize 4 5
    return ⟨[← Wire.get,← Wire.get,← Wire.get,← Wire.get,← Wire.get],rfl⟩

instance : Wire TerminalTailLayout where
  put l := putFields [Wire.put l.partition,Wire.put l.blockSize,
    Wire.put (FiveComponents.mk l.components l.length_components),Wire.put l.expectedEodLba]
  get := do
    getSize 5 4
    let partition ← getField 0
    let blockSize ← getField 1
    let five : FiveComponents ← getField 2
    return ⟨partition,blockSize,five.components,five.length_components,← getField 3⟩

instance : Wire ManualTerminalFinalizationIdentity where
  put m := putFields [Wire.put m.operationId,Wire.put m.operationKind,
    Wire.put m.actorFingerprint,Wire.put m.idempotencyKey,Wire.put m.requestFingerprint,
    Wire.put m.assignedPoolId,Wire.put m.expectedPoolId,Wire.put m.assignmentGeneration,
    Wire.put m.reason]
  get := do
    getSize 5 9
    return ⟨← getField 0,← getField 1,← getField 2,← getField 3,← getField 4,← getField 5,
      ← getField 6,← getField 7,← getField 8⟩

instance : Wire FinalizationPlan where
  put p := putFields [Wire.put p.group,Wire.put p.trigger,Wire.put p.manual,
    Wire.put p.editionId,Wire.put p.editionSequence,Wire.put p.editionDigest,
    Wire.put p.writerVersion,Wire.put p.writeTimestamp,Wire.put p.layout,Wire.put p.prefixEnd]
  get := do
    getSize 5 10
    return ⟨← getField 0,← getField 1,← getField 2,← getField 3,← getField 4,← getField 5,
      ← getField 6,← getField 7,← getField 8,← getField 9⟩

def encode : Record → Option Bytes
  | .initialized v => Wire.put v
  | .sessionOpened v => Wire.put v
  | .sessionEnded v => Wire.put v
  | .closedOut v => Wire.put v
  | .payloadContinuation v => Wire.put v
  | .committed v => Wire.put v
  | .finalizationDecided v => Wire.put v
  | .finalizationPrepared v => Wire.put v
  | .terminalPrefix decision commit => putArray [Wire.put decision,Wire.put commit]
  | .componentWritten decision component commit =>
    putArray [Wire.put decision,Wire.put component,Wire.put commit]
  | .sealed decision cursor editionDigest =>
    putArray [Wire.put decision,Wire.put cursor,Wire.put editionDigest]
  | .finalizationPreparationRetired prepared => Wire.put prepared
  | .finalizationRecoveryRequired plan => Wire.put plan

def getRecord : Tag → Get Record
  | .initialized => return .initialized (← Wire.get)
  | .sessionOpened => return .sessionOpened (← Wire.get)
  | .sessionEnded => return .sessionEnded (← Wire.get)
  | .closedOut => return .closedOut (← Wire.get)
  | .payloadContinuation => return .payloadContinuation (← Wire.get)
  | .committed => return .committed (← Wire.get)
  | .finalizationDecided => return .finalizationDecided (← Wire.get)
  | .finalizationPrepared => return .finalizationPrepared (← Wire.get)
  | .terminalPrefix => do
    getSize 4 2
    return .terminalPrefix (← Wire.get) (← Wire.get)
  | .componentWritten => do
    getSize 4 3
    return .componentWritten (← Wire.get) (← Wire.get) (← Wire.get)
  | .sealed => do
    getSize 4 3
    return .sealed (← Wire.get) (← Wire.get) (← Wire.get)
  | .finalizationPreparationRetired => return .finalizationPreparationRetired (← Wire.get)
  | .finalizationRecoveryRequired => return .finalizationRecoveryRequired (← Wire.get)
  | .finalizationPlanned | .unprotectedAccepted => failure

def decode (tag : Tag) (bytes : Bytes) : Except Fault Record := do
  let (record,rest) ← orElseError (getRecord tag bytes) (.invalid "CBOR schema")
  rejectIf (rest≠[]) (.invalid "trailing structural bytes")
  return record

end Remanence.TapeLog
