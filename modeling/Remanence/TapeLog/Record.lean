import Remanence.Parity.FileRows

/-!
# Records of the per-tape host log

A log is a sequence of frames. Provisional continuation records stream file
rows, catalog bytes, plan directory rows and abandoned files; every other
record closes the group of continuations before it.
-/

namespace Remanence.TapeLog

open Foundation Parity

def version : UInt16 := 2

/-- Largest sum of structural and payload bytes of a frame. -/
def maxFrameBody : ℕ := 64*1024*1024

/-- Bytes of the fixed frame start, its CRC included. -/
def prefixLen : ℕ := 28

def frameOverhead : ℕ := prefixLen+16

/-- Frame discriminators, the two reserved ones included. -/
inductive Tag where
  | initialized
  | payloadContinuation
  | committed
  /-- Barrier of the planned sidecar and map files. -/
  | terminalPrefix
  | componentWritten
  | sealed
  | finalizationDecided
  | finalizationPrepared
  | finalizationPreparationRetired
  | finalizationRecoveryRequired
  | finalizationPlanned
  | closedOut
  | sessionOpened
  | sessionEnded
  | unprotectedAccepted
deriving Repr, DecidableEq

def Tag.code : Tag → UInt16
  | .initialized => 1
  | .payloadContinuation => 2
  | .committed => 3
  | .terminalPrefix => 4
  | .componentWritten => 5
  | .sealed => 6
  | .finalizationDecided => 7
  | .finalizationPrepared => 8
  | .finalizationPreparationRetired => 9
  | .finalizationRecoveryRequired => 10
  | .finalizationPlanned => 16
  | .closedOut => 17
  | .sessionOpened => 18
  | .sessionEnded => 19
  | .unprotectedAccepted => 20

def Tag.all : List Tag :=
  [.initialized,.payloadContinuation,.committed,.terminalPrefix,.componentWritten,.sealed,
    .finalizationDecided,.finalizationPrepared,.finalizationPreparationRetired,
    .finalizationRecoveryRequired,.finalizationPlanned,.closedOut,.sessionOpened,.sessionEnded,
    .unprotectedAccepted]

/-- Tags that no frame may carry yet. -/
def Tag.reserved (tag : Tag) : Prop := tag=.finalizationPlanned ∨ tag=.unprotectedAccepted

instance (tag : Tag) : Decidable tag.reserved := inferInstanceAs (Decidable (_ ∨ _))

/-- Independently checksummed regions of a frame. -/
inductive Section where
  | start
  | structural
  | payload
deriving Repr, DecidableEq

/-- Refusals of the format and of the record grammar. -/
inductive Fault where
  | nonZeroAfterZeros (offset : UInt64)
  | crc (region : Section)
  | version (actual : UInt16)
  | unknownTag (actual : UInt16)
  | reservedTag (tag : Tag)
  | frameTooLarge
  | sequence (expected actual : UInt64)
  | secondInitialized
  | terminalFirst
  | groupMismatch
  | invalid (why : String)
  | overflow
deriving Repr, DecidableEq

structure TapeLogError where
  offset : UInt64
  sequence : Option UInt64
  fault : Fault
deriving Repr, DecidableEq

def Tag.tryFrom (value : UInt16) : Except Fault Tag :=
  orElseError (Tag.all.find? fun tag => tag.code=value) (.unknownTag value)

structure Initialized where
  tapeUuid : FixedBytes 16
  incarnation : UInt64
  group : UInt64
  blockSize : UInt32
  scheme : Option ParityScheme
  bot : TapeFileEntry
deriving DecidableEq

structure GroupRef where
  firstSequence : UInt64
  startOffset : UInt64
  frameCount : UInt64
  byteCount : UInt64
  memberCount : UInt64
  digest : FixedBytes 32
deriving DecidableEq

inductive TailFilemark where
  | present
  | absent
  | unknown
deriving Repr, DecidableEq

inductive TailIdentity where
  | object (id : String)
  | sidecar (hash : FixedBytes 32)
  | tornPrefix (hash : FixedBytes 32)
deriving DecidableEq

structure TailFile where
  tapeFileNumber : UInt64
  identity : TailIdentity
  knownBlocks : UInt64
  unknownBlocks : UInt64
  filemark : TailFilemark
  synchronizedBlocks : UInt64
  synchronizedFilemark : Bool
deriving DecidableEq

inductive Chunk where
  | fileRow (row : TapeFileEntry)
  /-- Catalog bytes of an object, in the payload section. -/
  | catalog (tapeFileNumber ordinal : UInt64) (last : Bool)
  | tailFile (file : TailFile)
  | planDirectory (row : SidecarEpochDirectoryEntry)
deriving DecidableEq

structure Continuation where
  group : UInt64
  chunk : Chunk
deriving DecidableEq

structure Committed where
  group : GroupRef
  cursor : CommitCursor
  protectedUpTo : UInt64
  total : UInt64
  check : CheckValue
  provenance : CheckProvenance
  nextEpoch : UInt64
  nextFile : UInt64
  objectCount : UInt64
  batchId : FixedBytes 16
  sessionId : Option (FixedBytes 16)
  sealDue : Option TerminalFinalizationTrigger
  committedAtUtc : String
deriving DecidableEq

structure SessionCursor where
  partition : UInt32
  lba : UInt64
  nextFile : UInt64
deriving DecidableEq

structure SessionOpened where
  sessionId : FixedBytes 16
  incarnation : UInt64
  baseMediaSequence : UInt64
  cursor : SessionCursor
  openedAtUtc : String
deriving DecidableEq

inductive SessionEndReason where
  | cleanClose
  | abort
  | failedAppend
  | clientStall
  | driveError
  | gracefulShutdown
  | clientDisconnected
  | crashRecovered
  | closeoutFailed
deriving Repr, DecidableEq

structure SessionEnded where
  sessionId : FixedBytes 16
  incarnation : UInt64
  baseMediaSequence : UInt64
  /-- Committed position; the tail starts here. -/
  cursor : SessionCursor
  endedAtUtc : String
  reason : SessionEndReason
  tail : GroupRef
  tailFileCount : UInt64
  /-- Audit reference of an operator acknowledgement. -/
  crashAckAuditSequence : Option UInt64
  synchronizedTailBlocks : UInt64
  possibleTailBlocks : UInt64
  /-- Exact end of data, once proved. -/
  provedEod : Option UInt64
deriving DecidableEq

structure ClosedOut where
  group : GroupRef
  incarnation : UInt64
  operationId : FixedBytes 16
  sessionId : Option (FixedBytes 16)
  baseMediaSequence : UInt64
  fromW : UInt64
  toT : UInt64
  epochId : UInt64
  sidecarFileNumber : UInt64
  checkBefore : CheckValue
  cursorAfter : CommitCursor
  nextFile : UInt64
  nextEpoch : UInt64
  completedAtUtc : String
deriving DecidableEq

structure FinalizationPlan where
  group : GroupRef
  trigger : TerminalFinalizationTrigger
  /-- Manual request, absent for automatic plans. -/
  manual : Option ManualTerminalFinalizationIdentity
  editionId : FixedBytes 16
  editionSequence : UInt64
  editionDigest : FixedBytes 32
  writerVersion : String
  writeTimestamp : String
  layout : TerminalTailLayout
  prefixEnd : CommitCursor
deriving DecidableEq

inductive Record where
  | initialized (init : Initialized)
  | payloadContinuation (continuation : Continuation)
  | sessionOpened (opened : SessionOpened)
  | sessionEnded (ended : SessionEnded)
  | closedOut (closed : ClosedOut)
  | committed (commit : Committed)
  | terminalPrefix (decision : UInt64) (commit : Committed)
  | componentWritten (decision : UInt64) (component : UInt8) (commit : Committed)
  | sealed (decision : UInt64) (cursor : CommitCursor) (editionDigest : FixedBytes 32)
  | finalizationDecided (plan : FinalizationPlan)
  | finalizationPrepared (plan : FinalizationPlan)
  | finalizationPreparationRetired (prepared : UInt64)
  | finalizationRecoveryRequired (plan : UInt64)
deriving DecidableEq

namespace Record

def tag : Record → Tag
  | initialized _ => .initialized
  | sessionOpened _ => .sessionOpened
  | sessionEnded _ => .sessionEnded
  | closedOut _ => .closedOut
  | payloadContinuation _ => .payloadContinuation
  | committed _ => .committed
  | terminalPrefix _ _ => .terminalPrefix
  | componentWritten _ _ _ => .componentWritten
  | sealed _ _ _ => .sealed
  | finalizationDecided _ => .finalizationDecided
  | finalizationPrepared _ => .finalizationPrepared
  | finalizationPreparationRetired _ => .finalizationPreparationRetired
  | finalizationRecoveryRequired _ => .finalizationRecoveryRequired

def closing : Record → Bool
  | payloadContinuation _ => false
  | _ => true

def isPlan : Record → Bool
  | .finalizationPrepared _ => true
  | .finalizationDecided _ => true
  | _ => false

end Record

end Remanence.TapeLog
