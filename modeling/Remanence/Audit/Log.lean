import Remanence.Audit.Segment

/-!
# The file-backed audit log

The log writes one segment file per UTC day. Opening replays all segments and cuts a torn tail
off the newest one or starts a new one; appending rotates to a later day first and records clock
warnings. File operations succeed.
-/

namespace Remanence.Audit

open Remanence.Foundation

structure DirEntry where
  stem : String
  extension : String
  contents : Bytes
deriving Repr, DecidableEq

structure AuditDir where
  path : String
  entries : List DirEntry
deriving Repr, DecidableEq

def DirEntry.fileName (entry : DirEntry) : String := entry.stem++"."++entry.extension

namespace AuditDir

def pathOf (dir : AuditDir) (entry : DirEntry) : String := dir.path++"/"++entry.fileName

def auditSegmentPaths (dir : AuditDir) : List DirEntry :=
  dir.entries.filter fun entry => entry.extension="remaudit"

def sortedSegments (dir : AuditDir) : List DirEntry :=
  dir.auditSegmentPaths.insertionSort fun a b => a.fileName ≤ b.fileName

def find (dir : AuditDir) (segmentDate : String) : Option DirEntry :=
  dir.entries.find? fun entry => entry.stem=segmentDate ∧ entry.extension="remaudit"

def modify (dir : AuditDir) (segmentDate : String) (f : Bytes → Bytes) : AuditDir :=
  { dir with
    entries := dir.entries.map fun entry =>
      if entry.stem=segmentDate ∧ entry.extension="remaudit" then
        { entry with contents := f entry.contents }
      else entry }

def create (dir : AuditDir) (segmentDate : String) (contents : Bytes) : AuditDir :=
  { dir with entries := dir.entries++[⟨segmentDate,"remaudit",contents⟩] }

end AuditDir

def setLen (len : ℕ) (contents : Bytes) : Bytes :=
  contents.take len++List.replicate (len-contents.length) 0

structure ReplaySummary where
  terminalHash : FixedBytes 32
  nextSequence : UInt64
  segmentPrevious : List (String×FixedBytes 32)
  segmentFirstSequence : List (String×UInt64)
  latestSegmentDate : Option String
  lastTimestampUtc : Option String

def ReplaySummary.initial : ReplaySummary := ⟨FixedBytes.zero 32,1,[],[],none,none⟩

def ReplaySummary.previousHashFor (summary : ReplaySummary) (segmentDate : String) :
    Except StateError (FixedBytes 32) :=
  orElseError (summary.segmentPrevious.lookup segmentDate)
    (.auditCorrupt s!"missing segment {segmentDate}")

def ReplaySummary.firstSequenceFor (summary : ReplaySummary) (segmentDate : String) :
    Except StateError UInt64 :=
  orElseError (summary.segmentFirstSequence.lookup segmentDate)
    (.auditCorrupt s!"missing segment {segmentDate}")

def replaySegmentsFrom {σ : Type} (services : Services) (visitor : Visitor σ) (dir : AuditDir) :
    List DirEntry → ReplaySummary → σ → Except StateError (ReplaySummary×σ)
  | [],summary,visited => .ok (summary,visited)
  | entry::rest,summary,visited => do
    validateSegmentDate entry.stem
    let (segment,visited) ← replaySegment services visitor (dir.pathOf entry) entry.stem
      entry.contents (some summary.terminalHash) summary.nextSequence visited
    let summary : ReplaySummary :=
      ⟨segment.terminalHash,summary.nextSequence+segment.recordCount,
        (entry.stem,summary.terminalHash)::summary.segmentPrevious,
        (entry.stem,summary.nextSequence)::summary.segmentFirstSequence,some entry.stem,
        segment.lastTimestampUtc.or summary.lastTimestampUtc⟩
    if segment.stopped then return (summary,visited)
    replaySegmentsFrom services visitor dir rest summary visited

def replaySegments {σ : Type} (services : Services) (visitor : Visitor σ) (dir : AuditDir)
    (visited : σ) : Except StateError (ReplaySummary×σ) :=
  replaySegmentsFrom services visitor dir dir.sortedSegments .initial visited

def discardRecord : Visitor Unit := fun _ _ => ((),false)

def pushRecord : Visitor (List AuditRecord) := fun records record => (records++[record],false)

def replaySegmentsSummary (services : Services) (dir : AuditDir) :
    Except StateError ReplaySummary := do
  let (summary,_) ← replaySegments services discardRecord dir ()
  return summary

def replay (services : Services) (dir : AuditDir) : Except StateError (List AuditRecord) := do
  let (_,records) ← replaySegments services pushRecord dir []
  return records

structure FileAuditLog where
  dir : AuditDir
  segmentDate : String
  previousRecordHash : FixedBytes 32
  nextSequence : UInt64
  lastTimestampUtc : Option Timestamp
  lastMonotonic : Option ℕ
  clockForwardTolerance : Option Int
  fsync : Bool

def effectiveSegmentDate (latest : Option String) (segmentDate : String) : String :=
  (latest.filter fun latest => segmentDate < latest).getD segmentDate

def openForDate (services : Services) (dir : AuditDir) (segmentDate : String) (fsync : Bool)
    (clockForwardTolerance : Option Int) : Except StateError FileAuditLog := do
  validateSegmentDate segmentDate
  let summary ← replaySegmentsSummary services dir
  let effective := effectiveSegmentDate summary.latestSegmentDate segmentDate
  let lastTimestampUtc ← summary.lastTimestampUtc.mapM (parseTimestampUtc services)
  let dir ← match dir.find effective with
    | none => pure (dir.create effective (segmentHeader effective summary.terminalHash))
    | some entry => do
      let previousHash ← summary.previousHashFor effective
      let firstSequence ← summary.firstSequenceFor effective
      let (segment,_) ← replaySegment services discardRecord (dir.pathOf entry) effective
        entry.contents (some previousHash) firstSequence ()
      pure (dir.modify effective (setLen segment.validLen))
  return { dir,segmentDate := effective,previousRecordHash := summary.terminalHash
           nextSequence := summary.nextSequence,lastTimestampUtc,lastMonotonic := none
           clockForwardTolerance,fsync }

/-- Decimal number with leading zeros, the sign counting as one place. -/
def padded (width : ℕ) (n : Int) : String :=
  let digits := toString n.natAbs
  let sign := if n < 0 then "-" else ""
  sign++String.ofList (List.replicate (width-sign.length-digits.length) '0')++digits

def segmentDateForTimestamp (services : Services) (timestamp : Timestamp) : String :=
  let (year,month,day) := services.utcDate timestamp
  padded 4 year++"-"++padded 2 month++"-"++padded 2 day

/-- What an append reads from its environment. -/
structure Observation where
  timestampUtc : Timestamp
  monotonic : ℕ
  hostId : String
  processId : UInt32
  warningUuid : Uuid
  recordUuid : Uuid

structure AuditReceipt where
  sequence : UInt64
  recordUuid : Uuid
  recordHash : FixedBytes 32
  fsyncCompleted : Bool

/-- A signed duration of an elapsed monotonic time, whole seconds capped. -/
def durationFromStd (nanoseconds : ℕ) : Int :=
  (min (nanoseconds/10^9) (2^63-1)*10^9+nanoseconds%10^9 : ℕ)

def wholeSeconds (duration : Int) : Int := duration.tdiv (10^9)

def clockWarningEvent (event : AuditEvent) (detail : Detail) : AuditEventRecord :=
  { actor := .system,sourceLayer := .layer4,operationId := none,sessionId := none
    idempotencyKey := none,event,subject := ⟨"clock",none⟩,detail }

namespace FileAuditLog

def recordOf (services : Services) (log : FileAuditLog) (event : AuditEventRecord)
    (timestampUtc : String) (uuid : Uuid) (observed : Observation) : AuditRecord :=
  { schemaVersion := auditSchemaVersion,recordUuid := uuid,sequence := log.nextSequence
    timestampUtc,hostId := observed.hostId,processId := observed.processId
    softwareBuild := some services.softwareBuild,actor := event.actor
    sourceLayer := event.sourceLayer,operationId := event.operationId
    sessionId := event.sessionId,idempotencyKey := event.idempotencyKey,event := event.event
    subject := event.subject,detail := event.detail }

def appendRecord (services : Services) (log : FileAuditLog) (event : AuditEventRecord)
    (uuid : Uuid) (observed : Observation) :
    Except StateError (AuditReceipt×AuditRecord×FileAuditLog) := do
  validateDetailKeys event.detail
  let timestampUtc ← formatTimestampUtc services observed.timestampUtc
  let record := log.recordOf services event timestampUtc uuid observed
  let payload ← canonicalRecordCbor services record
  let hash := recordHash services log.previousRecordHash payload
  let recordLen := payload.length+recordTrailerLen
  rejectIf (2^32 ≤ recordLen) (.auditWriteFailed "audit record too large")
  rejectIf (maxRecordLen < recordLen) (.auditWriteFailed
    ("audit record length "++toString recordLen++" exceeds max "++toString maxRecordLen))
  let frame := recordFrame services log.previousRecordHash payload
  let receipt : AuditReceipt := ⟨record.sequence,record.recordUuid,hash,log.fsync⟩
  return (receipt,record,{ log with
    dir := log.dir.modify log.segmentDate (·++frame),previousRecordHash := hash
    nextSequence := log.nextSequence+1,lastTimestampUtc := some observed.timestampUtc
    lastMonotonic := some observed.monotonic })

def rotateToDate (services : Services) (log : FileAuditLog) (segmentDate : String) :
    Except StateError FileAuditLog := do
  if segmentDate=log.segmentDate then return log
  openForDate services log.dir segmentDate log.fsync log.clockForwardTolerance

def segmentDateForAppend (services : Services) (log : FileAuditLog) (timestamp : Timestamp) :
    String :=
  let candidate := segmentDateForTimestamp services timestamp
  if candidate < log.segmentDate then log.segmentDate else candidate

def clockWarning (services : Services) (log : FileAuditLog) (observed : Observation) :
    Except StateError (Option AuditEventRecord) :=
  match log.lastTimestampUtc with
  | none => .ok none
  | some previousTimestamp =>
    if observed.timestampUtc < previousTimestamp then do
      let previous ← formatTimestampUtc services previousTimestamp
      let current ← formatTimestampUtc services observed.timestampUtc
      return some (clockWarningEvent .clockRegressionObserved
        ((Detail.empty.insert "previous_timestamp_utc" (.text previous)).insert
          "observed_timestamp_utc" (.text current)))
    else
      match log.lastMonotonic,log.clockForwardTolerance with
      | some previousMonotonic,some tolerance =>
        let wallDelta := observed.timestampUtc-previousTimestamp
        let monotonicDelta := durationFromStd (observed.monotonic-previousMonotonic)
        if monotonicDelta < wallDelta ∧ tolerance < wallDelta-monotonicDelta then do
          let previous ← formatTimestampUtc services previousTimestamp
          let current ← formatTimestampUtc services observed.timestampUtc
          return some (clockWarningEvent .clockForwardJumpObserved
            (((((Detail.empty.insert "previous_timestamp_utc" (.text previous)).insert
              "observed_timestamp_utc" (.text current)).insert
              "wall_delta_seconds" (.integer (wholeSeconds wallDelta))).insert
              "monotonic_delta_seconds" (.integer (wholeSeconds monotonicDelta))).insert
              "tolerance_seconds" (.integer (wholeSeconds tolerance))))
        else .ok none
      | _,_ => .ok none

def emitClockWarningIfNeeded (services : Services) (log : FileAuditLog) (observed : Observation) :
    Except StateError (List AuditRecord×FileAuditLog) := do
  match ← log.clockWarning services observed with
  | none => return ([],log)
  | some warning =>
    let (_,record,log) ← log.appendRecord services warning observed.warningUuid observed
    return ([record],log)

def appendWithObservedClockAndRecord (services : Services) (log : FileAuditLog)
    (event : AuditEventRecord) (observed : Observation) :
    Except StateError (AuditReceipt×List AuditRecord×FileAuditLog) := do
  let log ← log.rotateToDate services (log.segmentDateForAppend services observed.timestampUtc)
  let (warnings,log) ← log.emitClockWarningIfNeeded services observed
  let (receipt,record,log) ← log.appendRecord services event observed.recordUuid observed
  return (receipt,warnings++[record],log)

def appendAll (services : Services) :
    FileAuditLog → List (AuditEventRecord×Observation) →
      Except StateError (List AuditRecord×FileAuditLog)
  | log,[] => .ok ([],log)
  | log,(event,observed)::rest => do
    let (_,records,log) ← log.appendWithObservedClockAndRecord services event observed
    let (later,log) ← appendAll services log rest
    return (records++later,log)

end FileAuditLog

end Remanence.Audit
