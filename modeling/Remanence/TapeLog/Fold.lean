import Remanence.Parity.Sidecar
import Remanence.TapeLog.Catalog
import Remanence.TapeLog.Codec

/-!
# The transactional fold

Continuations accumulate in a pending group; a closing record checks the group against the
published summary and replaces the summary. A refused frame poisons the fold and publishes
nothing.
-/

namespace Remanence.TapeLog

open Foundation Parity

structure LogServices where
  hash : HashFunctions
  /-- UTC offset of an RFC 3339 timestamp, if the text is one. -/
  rfc3339 : String → Option ℤ

/-- Part of an object file that no sidecar covers. -/
structure UncoveredExtent where
  first : UInt64
  stop : UInt64
  tapeFileNumber : UInt64
  startLba : UInt64
  committedAtUtc : String
deriving Repr, DecidableEq

structure FinalizationState where
  sequence : UInt64
  reference : GroupRef
  editionDigest : FixedBytes 32
  layout : TerminalTailLayout
  trigger : TerminalFinalizationTrigger
  prepared : Bool
  recoveryRequired : Bool
  componentsWritten : ℕ
  prefixWritten : Bool
  /-- Digest of the plan without its location. -/
  planIdentity : FixedBytes 32
  prefixDigest : FixedBytes 32
  prefixRows : UInt64
deriving DecidableEq

structure TapeSummary where
  tapeUuid : Option (FixedBytes 16) := none
  incarnation : UInt64 := 0
  version : UInt16 := TapeLog.version
  lastClosedSequence : UInt64 := 0
  closedEnd : UInt64 := 0
  blockSize : UInt32 := 0
  scheme : Option ParityScheme := none
  cursor : CommitCursor := ⟨0,0⟩
  protectedUpTo : UInt64 := 0
  total : UInt64 := 0
  check : CheckValue := .empty
  provenance : CheckProvenance := .empty
  unprotectedSince : Option String := none
  openSession : Option SessionOpened := none
  lastSessionEnd : Option SessionEnded := none
  nextEpoch : UInt64 := 0
  nextFile : UInt64 := 0
  objectCount : UInt64 := 0
  lastOrdinaryCommit : Option UInt64 := none
  lastOrdinaryRecord : Option Committed := none
  lastCloseoutRecord : Option ClosedOut := none
  lastMediaCommit : Option UInt64 := none
  barrierCount : UInt64 := 0
  ordinaryCount : UInt64 := 0
  sealDue : Option TerminalFinalizationTrigger := none
  sealed : Bool := false
  uncovered : List UncoveredExtent := []
  finalization : Option FinalizationState := none
  sidecarIdentity : Bytes := []
deriving DecidableEq

namespace TapeSummary

/-- Copy for a pending group; its extents are those of new objects only. -/
def pendingCopy (s : TapeSummary) : TapeSummary := { s with uncovered := [] }

def epochBlocks (s : TapeSummary) : UInt64 :=
  match s.scheme with
  | none => 0
  | some scheme => scheme.dataBlocksPerStripe.toUInt64*scheme.stripesPerNeighborhood.toUInt64

def isFresh (s : TapeSummary) : Prop := s.tapeUuid=none

instance (s : TapeSummary) : Decidable s.isFresh := inferInstanceAs (Decidable (_=_))

end TapeSummary

structure GroupDigest where
  reference : GroupRef
  digest : Bytes
deriving DecidableEq

structure Catalog where
  file : UInt64
  ordinal : UInt64
  validator : CatalogValidator
deriving DecidableEq

/-- Group of provisional frames that no record has closed. -/
structure Pending where
  state : TapeSummary
  group : GroupDigest
  catalog : Option Catalog := none
  members : UInt64 := 0
  rows : UInt64 := 0
  objects : UInt64 := 0
  maps : UInt64 := 0
  components : UInt64 := 0
  rowDigest : Bytes := []
  directory : Bytes := []
  directoryCount : UInt64 := 0
  directoryFile : Option UInt64 := none
  tailCount : UInt64 := 0
  tailPossible : UInt64 := 0
  tailSynchronized : UInt64 := 0
  tailUnsynchronized : Bool := false
  tailIncomplete : Bool := false
  tailTornPrefix : Bool := false
  sidecarBlocks : UInt64 := 0
deriving DecidableEq

def GroupDigest.new (firstSequence startOffset : UInt64) : GroupDigest :=
  ⟨⟨firstSequence,startOffset,0,0,0,.zero 32⟩,[]⟩

def Pending.new (summary : TapeSummary) (sequence offset : UInt64) : Pending :=
  { state := summary.pendingCopy,group := .new sequence offset }

def add (a b : UInt64) : Except Fault UInt64 := orElseError (checkedAdd64 a b) .overflow

def GroupDigest.push (group : GroupDigest) (frame : Frame) : Except Fault GroupDigest := do
  rejectIf (frame.payloadValidated=false) (.invalid "group digest needs payload validation")
  let expected ← add group.reference.firstSequence group.reference.frameCount
  rejectIf (frame.sequence≠expected) (.sequence expected frame.sequence)
  let frameCount ← add group.reference.frameCount 1
  let byteCount ← add group.reference.byteCount
    (UInt64.ofNat (frame.structural.length+frame.payload.length))
  return ⟨{ group.reference with frameCount,byteCount },
    group.digest++frame.prefixFields++frame.structural++frame.payload⟩

variable (env : LogServices)

def digest (bytes : Bytes) : FixedBytes 32 := env.hash.sha256 bytes

def Pending.reference (p : Pending) : GroupRef :=
  { p.group.reference with memberCount := p.members,digest := digest env p.group.digest }

def checkReference (p : Pending) (r : GroupRef) : Except Fault Unit :=
  rejectIf (p.reference env≠r) .groupMismatch

def requireEmpty (p : Pending) : Except Fault Unit :=
  rejectIf (p.group.reference.frameCount≠0) .groupMismatch

def mediaCommit (s : TapeSummary) (seq : UInt64) : Except Fault TapeSummary := do
  let barrierCount ← add s.barrierCount 1
  return { s with lastMediaCommit := some seq,barrierCount }

def acceptedPlan (s : TapeSummary) (seq : UInt64) : Except Fault FinalizationState :=
  orElseError (s.finalization.filter fun p => p.sequence=seq ∧ p.prepared=false)
    (.invalid "no accepted writable plan")

def identity (file epoch start stop blocks : UInt64) (hash : FixedBytes 32) : Bytes :=
  u64Le file++u64Le epoch++u64Le start++u64Le stop++u64Le blocks++hash.bytes

/-- Drop of the ordinals below a bound. -/
def trim (lower : UInt64) : List UncoveredExtent → List UncoveredExtent
  | [] => []
  | e::rest =>
    if e.stop ≤ lower then trim lower rest
    else if e.first < lower then
      { e with startLba := e.startLba+(lower-e.first),first := lower }::rest
    else e::rest

def validateTime (value : String) : Except Fault Unit := do
  rejectIf (value.utf8ByteSize > 64) (.invalid "UTC timestamp")
  let offset ← orElseError (env.rfc3339 value) (.invalid "UTC timestamp")
  rejectIf (offset≠0) (.invalid "UTC timestamp")

def validateSessionPosition (s : TapeSummary) (incarnation sequence : UInt64)
    (cursor : SessionCursor) : Except Fault Unit :=
  rejectIf (incarnation≠s.incarnation ∨ some sequence≠s.lastMediaCommit ∨
      cursor.partition≠s.cursor.partition ∨ cursor.lba≠s.cursor.lba ∨
      cursor.nextFile≠s.nextFile)
    (.invalid "session incarnation/sequence/cursor")

def checkObjectRow (s : TapeSummary) (row : TapeFileEntry) : Except Fault Unit := do
  rejectIf (s.sealDue≠none) (.invalid "Object after seal due")
  rejectIf (s.finalization≠none) (.invalid "Object after finalization")
  let id ← orElseError (row.objectId.filter fun id => id≠"" ∧ id.utf8ByteSize ≤ 64)
    (.invalid "Object identity")
  let recovery ← orElseError row.objectRecoveryRow (.invalid "Object recovery row missing")
  rejectIf (recovery.tapeFileNumber≠row.tapeFileNumber ∨
      recovery.storedBlockCount≠row.blockCount ∨ recovery.objectId≠some (utf8 id))
    (.invalid "Object recovery identity")
  (validateObjectRecoveryRowFields recovery.storedBlockCount recovery.objectId
    recovery.representation (some s.blockSize)).mapError fun _ => .invalid "Object recovery anchors"

/-- Ordinals of an object row; with parity on its uncovered part is kept. -/
def extendOrdinals (s : TapeSummary) (row : TapeFileEntry) : Except Fault TapeSummary :=
  if s.scheme≠none then do
    rejectIf (row.firstParityDataOrdinal≠some s.total) (.invalid "Object data ordinal")
    let stop ← add s.total row.blockCount
    let lower := max64 s.protectedUpTo (saturatingSub64 stop (s.epochBlocks-1))
    let first := max64 s.total lower
    let startLba ← add s.cursor.lba (first-s.total)
    return { s with
      uncovered := trim lower s.uncovered++[⟨first,stop,row.tapeFileNumber,startLba,""⟩]
      total := stop }
  else do
    rejectIf (row.firstParityDataOrdinal≠none) (.invalid "parity-off ordinal")
    let total ← add s.total row.blockCount
    return { s with total }

def applyObject (p : Pending) (row : TapeFileEntry) : Except Fault Pending := do
  checkObjectRow p.state row
  let s ← extendOrdinals p.state row
  let objectCount ← add s.objectCount 1
  let s := { s with objectCount }
  let objects ← add p.objects 1
  let tapeUuid ← orElseError s.tapeUuid (.invalid "catalog tape identity")
  let validator ← CatalogValidator.new row tapeUuid s.blockSize s.total
  return { p with state := s,objects,catalog := some ⟨row.tapeFileNumber,0,validator⟩ }

def applySidecar (p : Pending) (row : TapeFileEntry) : Except Fault Pending := do
  let s := p.state
  let sidecarBlocks ← add p.sidecarBlocks row.blockCount
  let stop ← orElseError row.protectedOrdinalEndExclusive (.invalid "sidecar coverage")
  rejectIf (s.scheme=none ∨ row.epochId≠some s.nextEpoch ∨
      row.protectedOrdinalStart≠some s.protectedUpTo ∨ stop ≤ s.protectedUpTo ∨
      stop > s.total ∨ stop-s.protectedUpTo > s.epochBlocks)
    (.invalid "sidecar coverage/epoch")
  let hash ← orElseError row.canonicalMetadataHash (.invalid "sidecar identity hash")
  let sidecarIdentity := s.sidecarIdentity++
    identity row.tapeFileNumber s.nextEpoch s.protectedUpTo stop row.blockCount hash
  let nextEpoch ← add s.nextEpoch 1
  return { p with
    sidecarBlocks
    state := { s with
      sidecarIdentity
      protectedUpTo := stop
      nextEpoch
      uncovered := trim stop s.uncovered } }

def applyParityMap (p : Pending) (row : TapeFileEntry) : Except Fault Pending := do
  rejectIf (row.canonicalMetadataHash=none ∨ p.state.scheme=none ∨ p.maps≠0)
    (.invalid "ParityMap identity")
  let maps ← add p.maps 1
  return { p with maps }

def componentFileKind : TerminalTailComponentKind → TapeFileKind
  | .tapeIndexReplica => .tapeIndexReplica
  | .indexSeparationExtent => .indexSeparationExtent

def applyComponent (p : Pending) (row : TapeFileEntry) : Except Fault Pending := do
  let plan ← orElseError p.state.finalization (.invalid "component before decision")
  let component ← orElseError plan.layout.components[plan.componentsWritten]?
    (.invalid "extra component")
  rejectIf (row.kind≠componentFileKind component.kind ∨ row.blockCount≠component.recordCount)
    (.invalid "component kind/size")
  let components ← add p.components 1
  return { p with components }

/-- Fields and position a row of any kind must have. -/
def checkRow (p : Pending) (row : TapeFileEntry) : Except Fault Unit := do
  rejectIf (p.catalog≠none) (.invalid "Object without complete catalog")
  rejectIf (row.tapeFileNumber≠p.state.nextFile ∨ row.blockCount=0 ∨
      row.physicalStartHint≠some p.state.cursor.lba)
    (.invalid "dense rows or cursor/extent agreement")
  rejectIf (row.kind≠.object ∧ (row.objectId≠none ∨ row.objectRecoveryRow≠none ∨
      row.firstParityDataOrdinal≠none))
    (.invalid "non-Object recovery fields")
  rejectIf (row.kind≠.paritySidecar ∧ (row.epochId≠none ∨ row.protectedOrdinalStart≠none ∨
      row.protectedOrdinalEndExclusive≠none))
    (.invalid "non-sidecar epoch fields")

def applyKind (p : Pending) (row : TapeFileEntry) (bot : Bool) : Except Fault Pending :=
  match row.kind with
  | .bootstrap => do
    rejectIf (bot=false) (.invalid "second BOT row")
    return p
  | .object => applyObject p row
  | .paritySidecar => applySidecar p row
  | .parityMap => applyParityMap p row
  | .tapeIndexReplica | .indexSeparationExtent => applyComponent p row

def advance (s : TapeSummary) (row : TapeFileEntry) : Except Fault TapeSummary := do
  let lba ← add (← add s.cursor.lba row.blockCount) 1
  let nextFile ← add s.nextFile 1
  return { s with cursor := { s.cursor with lba },nextFile }

def countRow (p : Pending) (row : TapeFileEntry) (bot : Bool) : Except Fault Pending :=
  if bot then .ok p
  else do
    let rows ← add p.rows 1
    let bytes ← orElseError (Wire.put row) (.invalid "row encoding")
    return { p with rows,rowDigest := p.rowDigest++bytes }

def applyRow (p : Pending) (row : TapeFileEntry) (bot : Bool) : Except Fault Pending := do
  checkRow p row
  let p ← applyKind p row bot
  rejectIf (p.maps > 0 ∧ row.kind≠.parityMap) (.invalid "file after ParityMap")
  let state ← advance p.state row
  countRow { p with state } row bot

def TailIdentity.isTornPrefix : TailIdentity → Bool
  | .tornPrefix _ => true
  | _ => false

def checkTailIdentity (file : TailFile) : Except Fault Unit :=
  match file.identity with
  | .object id => rejectIf (id="" ∨ id.utf8ByteSize > 64) (.invalid "tail Object identity")
  | .tornPrefix _ => rejectIf (file.knownBlocks=0 ∨ file.unknownBlocks≠0 ∨
      file.filemark≠.absent) (.invalid "crash torn-prefix shape")
  | .sidecar _ => .ok ()

def tailSynchronizedAfter (p : Pending) (file : TailFile) : Except Fault UInt64 :=
  if file.synchronizedBlocks > 0 ∨ file.synchronizedFilemark=true then do
    add (← add p.tailPossible file.synchronizedBlocks) (if file.synchronizedFilemark then 1 else 0)
  else .ok p.tailSynchronized

/-- An abandoned file after the committed position. -/
def applyTailFile (summary : TapeSummary) (p : Pending) (file : TailFile) :
    Except Fault Pending := do
  rejectIf (p.rows≠0 ∨ p.directoryCount≠0 ∨ p.catalog≠none ∨ p.tailIncomplete=true ∨
    summary.openSession=none) (.invalid "tail order/group")
  let expected ← add summary.nextFile p.tailCount
  rejectIf (file.tapeFileNumber≠expected) (.invalid "tail order/group")
  rejectIf (file.synchronizedBlocks > file.knownBlocks ∨
      file.synchronizedFilemark=true ∧ (file.filemark≠.present ∨
        file.synchronizedBlocks≠file.knownBlocks ∨ file.unknownBlocks≠0) ∨
      p.tailUnsynchronized=true ∧ (file.synchronizedBlocks≠0 ∨ file.synchronizedFilemark=true))
    (.invalid "tail synchronization order")
  let tailSynchronized ← tailSynchronizedAfter p file
  let tailPossible ← add (← add p.tailPossible (← add file.knownBlocks file.unknownBlocks))
    (if file.filemark≠.absent then 1 else 0)
  checkTailIdentity file
  rejectIf (file.filemark=.present ∧ (file.unknownBlocks≠0 ∨ file.knownBlocks=0))
    (.invalid "tail filemark without known data")
  let tailCount ← add p.tailCount 1
  return { p with
    tailSynchronized
    tailPossible
    tailUnsynchronized := p.tailUnsynchronized || !file.synchronizedFilemark
    tailTornPrefix := p.tailTornPrefix || file.identity.isTornPrefix
    tailIncomplete := decide (file.filemark≠.present)
    tailCount }

/-- The catalog stream after a chunk; the last one adds its members. -/
def continueCatalog (p : Pending) (catalog : Catalog) (last : Bool) : Except Fault Pending :=
  if last then do
    let members ← add p.members (← catalog.validator.finish)
    return { p with members,catalog := none }
  else .ok { p with catalog := some catalog }

def applyCatalog (p : Pending) (payload : Bytes) (tapeFileNumber ordinal : UInt64) (last : Bool) :
    Except Fault Pending := do
  let catalog ← orElseError p.catalog (.invalid "catalog without Object row")
  rejectIf (catalog.file≠tapeFileNumber ∨ catalog.ordinal≠ordinal ∨ payload=[])
    (.invalid "catalog envelope/order")
  let validator ← catalog.validator.feed payload
  let ordinal ← add catalog.ordinal 1
  continueCatalog p ⟨catalog.file,ordinal,validator⟩ last

def applyPlanDirectory (p : Pending) (row : SidecarEpochDirectoryEntry) : Except Fault Pending := do
  rejectIf (p.catalog≠none ∨ row.epochId≠p.directoryCount ∨
      (∃ file ∈ p.directoryFile, row.tapeFileNumber ≤ file) ∨
      row.protectedOrdinalEndExclusive ≤ row.protectedOrdinalStart ∨
      row.sidecarTotalBlockCount=0 ∨ row.sidecarHeaderBlockCount=0 ∨
      row.parityShardBlockCount=0 ∨ row.flags&&&(~~~7)≠0)
    (.invalid "plan directory order/shape")
  let directoryCount ← add p.directoryCount 1
  return { p with
    directory := p.directory++identity row.tapeFileNumber row.epochId row.protectedOrdinalStart
      row.protectedOrdinalEndExclusive row.sidecarTotalBlockCount row.canonicalMetadataHash
    directoryCount
    directoryFile := some row.tapeFileNumber }

def applyChunk (summary : TapeSummary) (p : Pending) (payload : Bytes) :
    Chunk → Except Fault Pending
  | .tailFile file => applyTailFile summary p file
  | .fileRow row => do
    rejectIf (p.directoryCount > 0) (.invalid "file row after plan directory")
    applyRow p row false
  | .catalog tapeFileNumber ordinal last => applyCatalog p payload tapeFileNumber ordinal last
  | .planDirectory row => applyPlanDirectory p row

def Chunk.isTailFile : Chunk → Bool
  | .tailFile _ => true
  | _ => false

def applyContinuation (summary : TapeSummary) (pending : Option Pending) (f : Frame)
    (c : Continuation) : Except Fault Pending := do
  rejectIf (summary.isFresh ∧ pending=none) (.invalid "continuation before Initialized")
  let p := pending.getD (.new summary f.sequence f.offset)
  rejectIf (c.group≠p.group.reference.firstSequence) .groupMismatch
  rejectIf (p.tailCount > 0 ∧ c.chunk.isTailFile=false) (.invalid "mixed tail and media group")
  let p ← applyChunk summary p f.payload c.chunk
  let group ← p.group.push f
  return { p with group }

/-- Publication of a media state: covered old extents go, new ones follow. -/
def publishMedia (summary state : TapeSummary) : TapeSummary :=
  let uncovered := trim state.protectedUpTo summary.uncovered++state.uncovered
  { state with uncovered,unprotectedSince := uncovered.head?.map fun e => e.committedAtUtc }

def checkScheme : Option ParityScheme → Except Fault Unit
  | none => .ok ()
  | some s => do
    rejectIf (s.id.utf8ByteSize > 65535) (.invalid "scheme ID exceeds existing header bound")
    let _ ← s.validate.mapError fun _ => Fault.invalid "parity scheme"
    return ()

def applyInitialized (summary : TapeSummary) (pending : Option Pending) (f : Frame)
    (init : Initialized) : Except Fault TapeSummary := do
  rejectIf (summary.tapeUuid≠none ∨ pending≠none) .secondInitialized
  rejectIf (f.sequence≠1 ∨ init.group≠f.sequence ∨ init.incarnation≠1 ∨
      init.tapeUuid=.zero 16 ∨ init.blockSize ∉ defaultBootstrapCandidateBlockSizes)
    (.invalid "initialization identity/geometry")
  checkScheme init.scheme
  let p := Pending.new summary f.sequence f.offset
  rejectIf (init.bot.kind≠.bootstrap ∨ init.bot.tapeFileNumber≠0 ∨ init.bot.blockCount≠1)
    (.invalid "BOT row")
  let p ← applyRow { p with state := { p.state with
    tapeUuid := some init.tapeUuid
    incarnation := 1
    blockSize := init.blockSize
    scheme := init.scheme } } init.bot true
  let state ← mediaCommit p.state f.sequence
  return publishMedia summary { state with lastClosedSequence := f.sequence,closedEnd := f.stop }

def checkUncovered (s previous : TapeSummary) (c : Committed) : Except Fault TapeSummary :=
  if s.scheme=none ∨ c.total=c.protectedUpTo then do
    rejectIf (c.check≠.empty ∨ c.provenance≠.empty) (.invalid "nonempty check for empty range")
    return s
  else do
    rejectIf (c.provenance=.empty) (.invalid "empty provenance for uncovered data")
    let uncovered := trim c.protectedUpTo s.uncovered
    rejectIf (c.total > previous.total ∧
        (uncovered.head?.map UncoveredExtent.first≠some (max64 c.protectedUpTo previous.total) ∨
          uncovered.getLast?.map UncoveredExtent.stop≠some c.total))
      (.invalid "missing uncovered extents")
    return { s with uncovered }

/-- A barrier against the pending state; the result is the state it commits. -/
def checkCommit (p : Pending) (previous : TapeSummary) (c : Committed) :
    Except Fault TapeSummary := do
  checkReference env p c.group
  validateTime env c.committedAtUtc
  let s := p.state
  rejectIf (s.isFresh ∨ c.cursor≠s.cursor ∨ c.nextFile≠s.nextFile ∨ c.nextEpoch≠s.nextEpoch ∨
      c.objectCount≠s.objectCount ∨ c.protectedUpTo≠s.protectedUpTo ∨ c.total≠s.total ∨
      c.protectedUpTo < previous.protectedUpTo ∨ c.total < previous.total)
    (.invalid "commit counters/cursor")
  rejectIf (c.protectedUpTo > c.total ∨ s.scheme≠none ∧ c.total-c.protectedUpTo ≥ s.epochBlocks)
    (.invalid "uncovered range exceeds epoch")
  rejectIf (s.scheme=none ∧ (c.protectedUpTo≠0 ∨ s.uncovered≠[])) (.invalid "parity-off state")
  let s ← checkUncovered s previous c
  rejectIf (c.sealDue=some .operatorCloseOut) (.invalid "operator seal requires manual identity")
  rejectIf (previous.sealDue≠none ∧ c.sealDue≠previous.sealDue)
    (.invalid "lost TerminalFinalizationTrigger")
  return { s with
    check := c.check
    provenance := c.provenance
    uncovered := s.uncovered.map fun e => { e with committedAtUtc := c.committedAtUtc }
    sealDue := c.sealDue }

def closeSessionOpened (s : TapeSummary) (p : Pending) (opened : SessionOpened) :
    Except Fault TapeSummary := do
  requireEmpty p
  validateSessionPosition s opened.incarnation opened.baseMediaSequence opened.cursor
  validateTime env opened.openedAtUtc
  rejectIf (opened.sessionId=.zero 16 ∨ s.openSession≠none ∨ s.finalization≠none ∨
      s.protectedUpTo≠s.total ∧ s.scheme≠none)
    (.invalid "session open transition")
  return { s with openSession := some opened,lastSessionEnd := none }

def refineSessionEnd (s : TapeSummary) (p : Pending) (ended : SessionEnded) (eod : UInt64) :
    Except Fault Unit := do
  requireEmpty p
  validateSessionPosition s ended.incarnation ended.baseMediaSequence ended.cursor
  let previous ← orElseError s.lastSessionEnd (.invalid "tail EOD without ending")
  rejectIf ({ ended with provedEod := previous.provedEod }≠previous ∨ s.openSession≠none ∨
      (∃ old ∈ previous.provedEod, old≠eod))
    (.invalid "tail EOD refinement")
  let least ← add ended.cursor.lba ended.synchronizedTailBlocks
  rejectIf (eod < least) (.invalid "tail EOD refinement")
  let most ← add ended.cursor.lba ended.possibleTailBlocks
  rejectIf (eod > most) (.invalid "tail EOD refinement")

def endSession (s : TapeSummary) (p : Pending) (ended : SessionEnded) : Except Fault Unit := do
  checkReference env p ended.tail
  validateSessionPosition s ended.incarnation ended.baseMediaSequence ended.cursor
  validateTime env ended.endedAtUtc
  rejectIf (s.openSession.map SessionOpened.sessionId≠some ended.sessionId ∨ p.rows≠0 ∨
      p.directoryCount≠0 ∨ p.tailCount≠ended.tailFileCount ∨
      p.tailPossible≠ended.possibleTailBlocks ∨
      p.tailSynchronized≠ended.synchronizedTailBlocks ∨
      p.tailTornPrefix=true ∧ ended.reason≠.crashRecovered ∨
      ended.crashAckAuditSequence=some 0 ∨
      ended.crashAckAuditSequence≠none ∧ ended.reason≠.crashRecovered)
    (.invalid "session end transition")

def checkSessionEnded (s : TapeSummary) (p : Pending) (ended : SessionEnded) : Except Fault Unit :=
  match ended.provedEod with
  | some eod => refineSessionEnd s p ended eod
  | none => endSession env s p ended

def closeSessionEnded (s : TapeSummary) (p : Pending) (ended : SessionEnded) :
    Except Fault TapeSummary := do
  checkSessionEnded env s p ended
  return { s with openSession := none,lastSessionEnd := some ended }

def responsible (s : TapeSummary) : Option (FixedBytes 16) :=
  (s.openSession.map SessionOpened.sessionId).or (s.lastSessionEnd.map SessionEnded.sessionId)

def closeoutBlocks (s : TapeSummary) (scheme : ParityScheme) : Except Fault UInt64 := do
  let parity := scheme.stripesPerNeighborhood.toUInt64*scheme.parityBlocksPerStripe.toUInt64
  let index ← (Sidecar.checkedSidecarIndexCapacityLayout s.blockSize.toNat parity.toNat
    (s.total-s.protectedUpTo).toNat).mapError fun _ => Fault.invalid "closeout sidecar geometry"
  let copies ← orElseError (checkedMul64 (UInt64.ofNat index.blockCount) 2) .overflow
  add (← add copies parity) 1

def closeClosedOut (s : TapeSummary) (p : Pending) (f : Frame) (closed : ClosedOut) :
    Except Fault TapeSummary := do
  checkReference env p closed.group
  validateTime env closed.completedAtUtc
  rejectIf (closed.incarnation≠s.incarnation ∨ closed.operationId=.zero 16 ∨
      closed.baseMediaSequence≠s.lastMediaCommit.getD 0 ∨
      closed.sessionId≠none ∧ closed.sessionId≠responsible s ∨
      s.openSession≠none ∧ closed.sessionId≠responsible s ∨ s.finalization≠none ∨
      s.scheme=none ∨ s.protectedUpTo=s.total ∨ closed.fromW≠s.protectedUpTo ∨
      closed.toT≠s.total ∨ closed.checkBefore≠s.check ∨ s.provenance≠.originalWrite ∨
      closed.epochId≠s.nextEpoch ∨ closed.sidecarFileNumber≠s.nextFile ∨ p.rows≠1 ∨
      p.objects≠0 ∨ p.maps≠0 ∨ p.components≠0 ∨ p.directoryCount≠0 ∨
      p.state.protectedUpTo≠s.total ∨ p.state.total≠s.total ∨
      closed.cursorAfter≠p.state.cursor ∨ closed.nextFile≠p.state.nextFile ∨
      closed.nextEpoch≠p.state.nextEpoch)
    (.invalid "closeout range/check/epoch/extent/session")
  let nextEpoch ← add s.nextEpoch 1
  rejectIf (closed.nextEpoch≠nextEpoch) (.invalid "closeout range/check/epoch/extent/session")
  let scheme ← orElseError s.scheme (.invalid "closeout range/check/epoch/extent/session")
  let expected ← closeoutBlocks s scheme
  rejectIf (p.sidecarBlocks≠expected) (.invalid "closeout sidecar extent")
  let state ← mediaCommit { p.state with
    check := .empty
    provenance := .empty
    lastSessionEnd := none
    lastCloseoutRecord := some closed } f.sequence
  return publishMedia s state

def closeCommitted (s : TapeSummary) (p : Pending) (f : Frame) (commit : Committed) :
    Except Fault TapeSummary := do
  rejectIf (s.finalization≠none) (.invalid "ordinary commit after finalization admission")
  rejectIf (p.maps≠0 ∨ p.components≠0 ∨ p.directoryCount≠0)
    (.invalid "ordinary commit contains terminal rows")
  rejectIf (p.objects > 0 ∧ (commit.sessionId=none ∨ commit.sessionId=some (.zero 16)))
    (.invalid "Object commit requires session id")
  rejectIf (commit.sessionId≠s.openSession.map SessionOpened.sessionId)
    (.invalid "commit for wrong session")
  let state ← checkCommit env p s commit
  let ordinaryCount ← add state.ordinaryCount 1
  let state ← mediaCommit { state with
    lastOrdinaryCommit := some f.sequence
    lastOrdinaryRecord := some commit
    lastCloseoutRecord := none
    ordinaryCount } f.sequence
  return publishMedia s state

def closeTerminalPrefix (s : TapeSummary) (p : Pending) (f : Frame) (decision : UInt64)
    (commit : Committed) : Except Fault TapeSummary := do
  let plan ← acceptedPlan s decision
  rejectIf (plan.prefixWritten=true ∨ plan.componentsWritten≠0 ∨ p.objects≠0 ∨
      p.components≠0 ∨ p.directoryCount≠0 ∨ p.maps > 1 ∨ p.rows≠plan.prefixRows ∨
      digest env p.rowDigest≠plan.prefixDigest ∨
      commit.cursor≠⟨plan.layout.partition,(plan.layout.component 0).plannedStartLba⟩)
    (.invalid "terminal prefix differs from plan")
  let state ← checkCommit env p s commit
  let state ← mediaCommit { state with
    finalization := state.finalization.map fun plan => { plan with prefixWritten := true } }
    f.sequence
  return publishMedia s state

def closeComponentWritten (s : TapeSummary) (p : Pending) (f : Frame) (decision : UInt64)
    (component : UInt8) (commit : Committed) : Except Fault TapeSummary := do
  let plan ← acceptedPlan s decision
  rejectIf (plan.prefixWritten=false ∨ component.toNat≠plan.componentsWritten ∨
    component.toNat ≥ 5 ∨ p.rows≠1 ∨ p.components≠1 ∨ p.directoryCount≠0)
    (.invalid "terminal component transition")
  let expected ← orElseError plan.layout.components[component.toNat]?
    (.invalid "terminal component transition")
  rejectIf (s.nextFile≠expected.plannedTapeFileNumber ∨ s.cursor.lba≠expected.plannedStartLba)
    (.invalid "terminal component layout")
  let stop ← add (← add expected.plannedStartLba expected.recordCount) 1
  rejectIf (commit.cursor.lba≠stop ∨ p.state.total≠s.total ∨ p.state.protectedUpTo≠s.protectedUpTo)
    (.invalid "terminal component layout")
  let state ← checkCommit env p s commit
  rejectIf (state.check≠s.check ∨ state.provenance≠s.provenance)
    (.invalid "component changed check")
  let state ← mediaCommit { state with
    finalization := state.finalization.map fun plan => { plan with
      componentsWritten := plan.componentsWritten+1
      recoveryRequired := false } } f.sequence
  return publishMedia s state

def planIdentity (plan : FinalizationPlan) : Except Fault (FixedBytes 32) := do
  let bytes ← orElseError (putAll [Wire.put plan.trigger,Wire.put plan.manual,
    Wire.put plan.editionId,Wire.put plan.editionSequence,Wire.put plan.editionDigest,
    Wire.put plan.writerVersion,Wire.put plan.writeTimestamp,Wire.put plan.layout,
    Wire.put plan.prefixEnd]) (.invalid "plan identity encoding")
  return digest env bytes

/-- Identity of a manual request, required exactly for operator decisions. -/
def checkManual (plan : FinalizationPlan) : Except Fault Unit :=
  match plan.manual with
  | some m => rejectIf (plan.trigger≠.operatorCloseOut ∨ m.operationId=.zero 16 ∨
      m.idempotencyKey=.zero 16 ∨ m.requestFingerprint=.zero 32 ∨ m.operationKind="" ∨
      m.actorFingerprint="" ∨ m.reason="" ∨ m.assignedPoolId≠m.expectedPoolId)
    (.invalid "manual acceptance identity")
  | none => rejectIf (plan.trigger=.operatorCloseOut) (.invalid "manual identity absent")

def validatePlan (plan : FinalizationPlan) (p : Pending) (s : TapeSummary) (prepared : Bool) :
    Except Fault Unit := do
  plan.layout.validate.mapError fun _ => Fault.invalid "terminal layout"
  let first := plan.layout.component 0
  rejectIf (plan.layout.blockSize≠s.blockSize ∨ plan.layout.partition≠s.cursor.partition ∨
      plan.prefixEnd≠p.state.cursor ∨ first.plannedStartLba≠plan.prefixEnd.lba ∨
      first.plannedTapeFileNumber≠p.state.nextFile ∨ plan.editionId=.zero 16 ∨
      plan.editionDigest=.zero 32 ∨ plan.editionSequence=0 ∨
      s.scheme≠none ∧ p.state.protectedUpTo≠p.state.total)
    (.invalid "terminal plan binding")
  rejectIf (plan.writerVersion.utf8ByteSize > 128 ∨
      ¬(∀ b ∈ utf8 plan.writerVersion, 32 ≤ b ∧ b ≤ 126) ∨
      plan.writeTimestamp.utf8ByteSize > 64 ∨ env.rfc3339 plan.writeTimestamp=none)
    (.invalid "plan diagnostics")
  rejectIf (prepared=true ∧ plan.manual=none) (.invalid "automatic plan cannot be provisional")
  checkManual plan
  rejectIf (s.sealDue≠none ∧ plan.manual=none ∧ some plan.trigger≠s.sealDue)
    (.invalid "automatic trigger lost seal reason")
  rejectIf (¬(p.maps=1 ↔ p.directoryCount > 0)) (.invalid "ParityMap presence/directory")
  rejectIf (p.directoryCount≠p.state.nextEpoch ∨
      digest env p.directory≠digest env p.state.sidecarIdentity)
    (.invalid "plan directory identity/coverage")

/-- A plan may only repeat the preparation it accepts. -/
def checkPrevious (s : TapeSummary) (p : Pending) (plan : FinalizationPlan) (prepared : Bool) :
    Except Fault Unit :=
  match s.finalization with
  | none => .ok ()
  | some previous => do
    rejectIf (previous.prepared=false ∨ prepared=true) (.invalid "conflicting finalization plan")
    let planIdentity ← planIdentity env plan
    rejectIf (previous.planIdentity≠planIdentity ∨ previous.layout≠plan.layout ∨
      previous.prefixDigest≠digest env p.rowDigest) (.invalid "conflicting finalization plan")

def closeFinalization (s : TapeSummary) (p : Pending) (f : Frame) (plan : FinalizationPlan)
    (prepared : Bool) : Except Fault TapeSummary := do
  checkReference env p plan.group
  rejectIf (p.objects≠0 ∨ p.components≠0 ∨ p.maps > 1 ∨ p.state.total≠s.total)
    (.invalid "plan contains non-prefix files")
  validatePlan env plan p s prepared
  checkPrevious env s p plan prepared
  let planIdentity ← planIdentity env plan
  return { s with finalization := some {
    sequence := f.sequence
    reference := plan.group
    editionDigest := plan.editionDigest
    layout := plan.layout
    trigger := plan.trigger
    prepared
    recoveryRequired := false
    componentsWritten := 0
    prefixWritten := decide (p.rows=0)
    planIdentity
    prefixDigest := digest env p.rowDigest
    prefixRows := p.rows } }

def closeSealed (s : TapeSummary) (p : Pending) (decision : UInt64) (cursor : CommitCursor)
    (editionDigest : FixedBytes 32) : Except Fault TapeSummary := do
  requireEmpty p
  let plan ← acceptedPlan s decision
  rejectIf (plan.componentsWritten≠5 ∨ cursor≠s.cursor ∨
      cursor.lba≠plan.layout.expectedEodLba ∨ editionDigest≠plan.editionDigest)
    (.invalid "seal before replica C or plan mismatch")
  return { s with
    sealed := true
    finalization := s.finalization.map fun plan => { plan with recoveryRequired := false } }

def closePreparationRetired (s : TapeSummary) (p : Pending) (prepared : UInt64) :
    Except Fault TapeSummary := do
  requireEmpty p
  rejectIf (¬∃ plan ∈ s.finalization, plan.prepared=true ∧ plan.sequence=prepared)
    (.invalid "retirement without preparation")
  return { s with finalization := none }

def closeRecoveryRequired (s : TapeSummary) (p : Pending) (plan : UInt64) :
    Except Fault TapeSummary := do
  requireEmpty p
  let state ← orElseError s.finalization (.invalid "recovery flag without plan")
  rejectIf (state.sequence≠plan) (.invalid "recovery plan reference")
  return { s with finalization := some { state with recoveryRequired := true } }

def closeRecord (s : TapeSummary) (p : Pending) (f : Frame) : Except Fault TapeSummary :=
  match f.record with
  | .sessionOpened opened => closeSessionOpened env s p opened
  | .sessionEnded ended => closeSessionEnded env s p ended
  | .closedOut closed => closeClosedOut env s p f closed
  | .committed commit => closeCommitted env s p f commit
  | .terminalPrefix decision commit => closeTerminalPrefix env s p f decision commit
  | .componentWritten decision component commit =>
    closeComponentWritten env s p f decision component commit
  | .finalizationDecided plan => closeFinalization env s p f plan false
  | .finalizationPrepared plan => closeFinalization env s p f plan true
  | .sealed decision cursor editionDigest => closeSealed s p decision cursor editionDigest
  | .finalizationPreparationRetired prepared => closePreparationRetired s p prepared
  | .finalizationRecoveryRequired plan => closeRecoveryRequired s p plan
  -- handled before the group is taken
  | .initialized _ => .error .secondInitialized
  | .payloadContinuation _ => .error .groupMismatch

def Record.isSessionEnded : Record → Bool
  | .sessionEnded _ => true
  | _ => false

def applyClosing (summary : TapeSummary) (pending : Option Pending) (f : Frame) :
    Except Fault TapeSummary := do
  rejectIf summary.isFresh .terminalFirst
  let p := pending.getD (.new summary f.sequence f.offset)
  rejectIf (p.catalog≠none) (.invalid "closing incomplete catalog")
  rejectIf (p.tailCount > 0 ∧ f.record.isSessionEnded=false) (.invalid "tail requires SessionEnded")
  let s ← closeRecord env summary p f
  return { s with lastClosedSequence := f.sequence,closedEnd := f.stop }

structure Fold where
  summary : TapeSummary := {}
  pending : Option Pending := none
  nextSequence : UInt64 := 1
  poisoned : Bool := false
deriving DecidableEq

def Fold.new : Fold := {}

def Record.isCatalog : Record → Bool
  | .payloadContinuation ⟨_,.catalog _ _ _⟩ => true
  | _ => false

namespace Fold

def applyRecord (fold : Fold) (f : Frame) (nextSequence : UInt64) : Except Fault Fold :=
  match f.record with
  | .initialized init => do
    let summary ← applyInitialized fold.summary fold.pending f init
    return { fold with summary,nextSequence }
  | .payloadContinuation c => do
    let p ← applyContinuation fold.summary fold.pending f c
    return { fold with pending := some p,nextSequence }
  | _ => do
    let summary ← applyClosing env fold.summary fold.pending f
    return { fold with summary,pending := none,nextSequence }

def apply (fold : Fold) (f : Frame) : Except Fault Fold := do
  rejectIf (f.payloadValidated=false) (.invalid "fold requires all section CRCs")
  rejectIf (f.sequence≠fold.nextSequence) (.sequence fold.nextSequence f.sequence)
  let nextSequence ← add f.sequence 1
  rejectIf (f.record.isCatalog=false ∧ f.payload≠[]) (.invalid "unexpected payload section")
  rejectIf (fold.summary.sealed=true) (.invalid "record after seal")
  fold.applyRecord env f nextSequence

def push (fold : Fold) (f : Frame) : Fold×Except TapeLogError Unit :=
  match (if fold.poisoned then .error (.invalid "fold poisoned") else fold.apply env f) with
  | .ok next => (next,.ok ())
  | .error fault => ({ fold with poisoned := true },.error ⟨f.offset,some f.sequence,fault⟩)

def pushAll (fold : Fold) : List Frame → Except TapeLogError Fold
  | [] => .ok fold
  | f::rest => match fold.push env f with
    | (next,.ok ()) => pushAll next rest
    | (_,.error e) => .error e

def zeroFilledAt : Tail → Option UInt64
  | .torn offset .zeroFilled => some offset
  | _ => none

/-- Published state and tail of a finished stream; an unclosed group is absent. -/
def finish (fold : Fold) (tail : Tail) : Except Fault (TapeSummary×Tail) := do
  rejectIf (fold.poisoned=true) (.invalid "fold poisoned")
  match fold.pending with
  | some p => return (fold.summary,
      .torn p.group.reference.startOffset (.unclosedGroup (zeroFilledAt tail)))
  | none => return (fold.summary,tail)

end Fold

def replayLoop : ℕ → Decoder → Fold → Except TapeLogError (Fold×Tail)
  | 0,decoder,_ => .error ⟨decoder.offset,none,.overflow⟩
  | fuel+1,decoder,fold => do
    match ← decoder.nextFrame with
    | .stop tail => return (fold,tail)
    | .frame f next => match fold.push env f with
      | (fold',.ok ()) => replayLoop fuel next fold'
      | (_,.error e) => throw e

/-- Validation and fold of a log; every frame has at least one byte. -/
def replay (bytes : Bytes) : Except TapeLogError (TapeSummary×Tail) := do
  let (fold,tail) ← replayLoop env (bytes.length+1) (.new bytes) .new
  (fold.finish tail).mapError fun fault => ⟨0,none,fault⟩

end Remanence.TapeLog
