import Remanence.Foundation.Words
import Remanence.Stream.Restore

/-!
# Recovery of a damaged archive into a directory

A format driver reports entries, data at file offsets, damaged ranges and gaps. The sink writes
sparse files below a root and one line per result to a manifest there. Output paths are
normalised or replaced, and numbered when taken. The destination is a tree of names whose files
are inodes.
-/

namespace Remanence.Stream.Recovery

open Foundation Format

inductive EntryKind where
  | regularFile
  | directory
  | symlink
  | hardlink
  | special
deriving DecidableEq, Repr

structure NormalizedEntry where
  fileId : String
  path : String
  kind : EntryKind
  sizeBytes : Option UInt64
  adapterState : Bytes
deriving DecidableEq

inductive DamageStatus where
  | checksumFailed
  | readError
  | missing
  | unsupported
deriving DecidableEq, Repr

structure DamageRange where
  fileId : String
  start : UInt64
  stop : UInt64
  status : DamageStatus
  adapterState : Bytes

inductive ArchiveGapCause where
  | unrecognizedData
  | readError
  | missing
  | resync
  | unsupported
deriving DecidableEq, Repr

structure ArchiveGapRange where
  sourceStart : UInt64
  sourceEnd : UInt64
  cause : ArchiveGapCause
  adapterState : Bytes

structure RecoveryByteRange where
  start : UInt64
  stop : UInt64
deriving DecidableEq

def RecoveryByteRange.new (start stop : UInt64) : Option RecoveryByteRange :=
  if start < stop then some ⟨start,stop⟩ else none

def RecoveryByteRange.le (a b : RecoveryByteRange) : Bool :=
  a.start < b.start || (a.start=b.start && a.stop ≤ b.stop)

/-- Ranges in order, joined when they touch the last one. -/
def mergeRanges : List RecoveryByteRange → List RecoveryByteRange → List RecoveryByteRange
  | merged,[] => merged.reverse
  | [],range::rest => mergeRanges [range] rest
  | last::merged,range::rest =>
    if range.start ≤ last.stop then
      mergeRanges (⟨last.start,max64 last.stop range.stop⟩::merged) rest
    else mergeRanges (range::last::merged) rest

/-- Sorted ranges that neither overlap nor touch. -/
def normalizeRanges (ranges : List RecoveryByteRange) : List RecoveryByteRange :=
  mergeRanges [] ((ranges.filter fun range => range.start < range.stop).mergeSort
    RecoveryByteRange.le)

def coverFrom (expectedEnd : UInt64) : UInt64 → List RecoveryByteRange → Bool
  | _,[] => false
  | coveredUntil,range::rest =>
    if coveredUntil < range.start then false
    else if expectedEnd ≤ max64 coveredUntil range.stop then true
    else coverFrom expectedEnd (max64 coveredUntil range.stop) rest

def rangesCover (ranges : List RecoveryByteRange) (expectedEnd : UInt64) : Bool :=
  expectedEnd=0 || coverFrom expectedEnd 0 ranges

def intersectRanges (left right : RecoveryByteRange) : Option RecoveryByteRange :=
  RecoveryByteRange.new (max64 left.start right.start) (min64 left.stop right.stop)

def intersectOneWithMany (range : RecoveryByteRange) (ranges : List RecoveryByteRange) :
    List RecoveryByteRange :=
  ranges.filterMap fun other => intersectRanges range other

def intersectManyWithOne (ranges : List RecoveryByteRange) (range : RecoveryByteRange) :
    List RecoveryByteRange :=
  ranges.filterMap fun other => intersectRanges other range

def subtractCuts : RecoveryByteRange → List RecoveryByteRange → List RecoveryByteRange
  | range,[] => [range]
  | range,cut::cuts =>
    if cut.stop ≤ range.start ∨ range.stop ≤ cut.start then subtractCuts range cuts
    else
      (if range.start < cut.start then [⟨range.start,cut.start⟩] else [])++
        if range.stop ≤ max64 range.start cut.stop then []
        else subtractCuts ⟨max64 range.start cut.stop,range.stop⟩ cuts

def subtractMany (range : RecoveryByteRange) (subtract : List RecoveryByteRange) :
    List RecoveryByteRange :=
  subtractCuts range (normalizeRanges subtract)

def subtractRangeVec (ranges : List RecoveryByteRange) (subtract : RecoveryByteRange) :
    List RecoveryByteRange :=
  ranges.flatMap fun range => subtractMany range [subtract]

inductive RecoveryStatus where
  | complete
  | partialFile
  | missing
  | skipped
deriving DecidableEq, Repr

structure RecoveryDamageRecord where
  start : UInt64
  stop : UInt64
  status : String
  adapterStateHex : String

structure RecoveryArchiveGapRecord where
  runId : String
  sourceStart : UInt64
  sourceEnd : UInt64
  cause : String
  adapterStateHex : String

structure RecoveryFileRecord where
  runId : String
  fileId : String
  path : String
  outputPath : String
  entryKind : String
  declaredSize : Option UInt64
  recoveredRanges : List RecoveryByteRange
  suspectRanges : List RecoveryByteRange
  damageRanges : List RecoveryDamageRecord
  status : RecoveryStatus
  bytesWritten : UInt64
  adapterStateHex : String

inductive RecoveryManifestRecord where
  | runStart (runId formatId source startedAt : String)
  | archiveGap (record : RecoveryArchiveGapRecord)
  | file (record : RecoveryFileRecord)

def hexDigit (n : UInt8) : Char := "0123456789abcdef".toList.getD n.toNat '0'

def hexBytes (bytes : Bytes) : String :=
  String.ofList (bytes.flatMap fun byte : UInt8 => [hexDigit (byte >>> 4),hexDigit (byte &&& 0x0f)])

def entryKindName : EntryKind → String
  | .regularFile => "regular"
  | .directory => "directory"
  | .symlink => "symlink"
  | .hardlink => "hardlink"
  | .special => "special"

def damageStatusName : DamageStatus → String
  | .checksumFailed => "checksum_failed"
  | .readError => "read_error"
  | .missing => "missing"
  | .unsupported => "unsupported"

def archiveGapCauseName : ArchiveGapCause → String
  | .unrecognizedData => "unrecognized_data"
  | .readError => "read_error"
  | .missing => "missing"
  | .resync => "resync"
  | .unsupported => "unsupported"

def RecoveryArchiveGapRecord.fromGap (runId : String) (range : ArchiveGapRange) :
    RecoveryArchiveGapRecord :=
  ⟨runId,range.sourceStart,range.sourceEnd,archiveGapCauseName range.cause,
    hexBytes range.adapterState⟩

def RecoveryDamageRecord.fromDamage (range : DamageRange) : RecoveryDamageRecord :=
  ⟨range.start,range.stop,damageStatusName range.status,hexBytes range.adapterState⟩

def recoveryRecord (runId : String) (entry : NormalizedEntry) (outputPath : String)
    (recoveredRanges suspectRanges : List RecoveryByteRange)
    (damageRanges : List RecoveryDamageRecord) (status : RecoveryStatus) (bytesWritten : UInt64) :
    RecoveryFileRecord :=
  ⟨runId,entry.fileId,entry.path,outputPath,entryKindName entry.kind,entry.sizeBytes,
    normalizeRanges recoveredRanges,normalizeRanges suspectRanges,damageRanges,status,bytesWritten,
    hexBytes entry.adapterState⟩

def recoveryStatus (declaredSize : Option UInt64) (bytesWritten : UInt64)
    (recoveredRanges suspectRanges : List RecoveryByteRange) : RecoveryStatus :=
  if bytesWritten=0 then .missing
  else match declaredSize with
    | none => .partialFile
    | some size =>
      if rangesCover (normalizeRanges (recoveredRanges++suspectRanges)) size=true then .complete
      else .partialFile

def recoveryManifestRelativePath : String := ".remanence/recovery.jsonl"

def manifestNames : List String := [".remanence","recovery.jsonl"]

def archiveNames (path : String) : List Component → Except FormatError (List String)
  | [] => .ok []
  | .normal part::rest => do
    rejectIf (part="") (.invalidInput "archive path component must not be empty")
    return part::(←archiveNames path rest)
  | .curDir::rest => archiveNames path rest
  | .parentDir::_ | .rootDir::_ => .error (.invalidInput
      s!"archive path must be relative and stay inside the object: {path}")

def normalizeArchivePath (path : String) : Except FormatError String := do
  rejectIf (path="") (.invalidInput "archive path must not be empty")
  let parts ← archiveNames path (components path)
  rejectIf (parts=[]) (.invalidInput "archive path must contain a file name")
  return "/".intercalate parts

def suffixChar (ch : Char) : Char := if ch.isAlphanum ∨ ch = '-' ∨ ch = '_' then ch else '_'

def sanitizeForSuffix (value : String) : String :=
  let text := String.ofList (value.toList.map suffixChar)
  if text="" then "entry" else text

def sanitizedRecoveryPath (entry : NormalizedEntry) : String :=
  let fileId := sanitizeForSuffix entry.fileId
  let path := sanitizeForSuffix entry.path
  let leaf := if path="entry" then fileId else fileId++"_"++path
  "_remanence_recovered/"++leaf

def recoveryRelativePath (entry : NormalizedEntry) : String :=
  match normalizeArchivePath entry.path with
  | .ok relative => relative
  | .error _ => sanitizedRecoveryPath entry

inductive TreeNode where
  | directory
  | file (inode : ℕ)
  | symlink (target : String)
deriving DecidableEq

structure OutputTree where
  node : List String → Option TreeNode
  content : ℕ → Bytes
  next : ℕ

namespace OutputTree

def put (tree : OutputTree) (path : List String) (node : TreeNode) : OutputTree :=
  { tree with node := Function.update tree.node path (some node) }

def write (tree : OutputTree) (inode : ℕ) (bytes : Bytes) : OutputTree :=
  { tree with content := Function.update tree.content inode bytes }

def createFile (tree : OutputTree) (path : List String) : OutputTree :=
  { (tree.put path (.file tree.next)).write tree.next [] with next := tree.next+1 }

end OutputTree

inductive Stop where
  | error (e : FormatError)
  | diverged

def relativeNames (relative : String) : List Component → Except FormatError (List String)
  | [] => .ok []
  | .normal part::rest => return part::(←relativeNames relative rest)
  | .curDir::rest => relativeNames relative rest
  | .parentDir::_ | .rootDir::_ => .error (.parse
      s!"restore path {relative} is not a normalized relative path")

def normalizedRelativeComponents (relative : String) : Except FormatError (List String) := do
  let parts ← relativeNames relative (components relative)
  rejectIf (parts=[]) (.parse "restore path must contain a file name")
  return parts

abbrev OnTree := EStateM Stop OutputTree

def liftTree {α : Type} (result : Except FormatError α) : OnTree α :=
  match result with
  | .ok a => return a
  | .error e => throw (.error e)

section Destination

variable (rootPath : String)

def ensureRestoreDirectory (path : List String) : OnTree Unit := do
  let tree ← get
  match tree.node path with
  | some (.symlink _) =>
    throw (.error (restorePathError rootPath path "escapes destination through a symlink"))
  | some .directory => return ()
  | some (.file _) => throw (.error (restorePathError rootPath path "exists but is not a directory"))
  | none => set (tree.put path .directory)

/-- Real directories for all names, entered one after the other. -/
def ensureDirectories : List String → List String → OnTree Unit
  | _,[] => return ()
  | current,part::rest => do
    ensureRestoreDirectory rootPath (current++[part])
    ensureDirectories (current++[part]) rest

def createRestoreDirsSecure (relative : String) : OnTree (List String) := do
  let parts ← liftTree (normalizedRelativeComponents relative)
  ensureDirectories rootPath [] parts
  return parts

/-- Directories above a path, which is no link. -/
def createRestoreParentDirsSecure (relative : String) : OnTree (List String) := do
  let parts ← liftTree (normalizedRelativeComponents relative)
  ensureDirectories rootPath [] parts.dropLast
  let tree ← get
  match tree.node parts with
  | some (.symlink _) =>
    throw (.error (restorePathError rootPath parts "escapes destination through a symlink"))
  | _ => return parts

def openFile (context : String) (path : List String) : OnTree ℕ := do
  let tree ← get
  match tree.node path with
  | some (.file inode) => return inode
  | some .directory => throw (.error (formatSinkIo rootPath context path .isADirectory))
  | some (.symlink _) => throw (.error (formatSinkIo rootPath context path .loop))
  | none => do
    set (tree.createFile path)
    return tree.next

end Destination

inductive RecoveryTarget where
  | idle
  | directory
  | skipped (record : RecoveryFileRecord)
  | file (entry : NormalizedEntry) (outputPath : String) (destination : List String) (inode : ℕ)
      (bytesWritten : UInt64) (recoveredRanges suspectRanges checksumFailedRanges :
        List RecoveryByteRange) (damageRanges : List RecoveryDamageRecord)

structure RecoveryFilesystemSink where
  tree : OutputTree
  rootPath : String
  manifest : ℕ
  runId : String
  current : RecoveryTarget
  pathCollisionCounts : String → ℕ
  usedOutputPaths : List String
  files : List RecoveryFileRecord
  archiveGaps : List RecoveryArchiveGapRecord
  filesSeen : UInt64
  filesWritten : UInt64
  bytesWritten : UInt64

abbrev Recover := EStateM Stop RecoveryFilesystemSink

/-- A program on the destination inside the sink. -/
def onTree {α : Type} (x : OnTree α) : Recover α := fun s =>
  match x s.tree with
  | .ok a tree => .ok a { s with tree := tree }
  | .error e tree => .error e { s with tree := tree }

section Sink

variable (toJson : RecoveryManifestRecord → Bytes)

def writeManifestRecord (record : RecoveryManifestRecord) : Recover Unit :=
  modify fun s => { s with
    tree := s.tree.write s.manifest (s.tree.content s.manifest++toJson record++[10]) }

def candidate (relative suffix : String) (count : ℕ) : String :=
  if count=0 then relative else relative++"._"++suffix++"_"++toString count

def assignLoop (used : List String) (relative suffix : String) : ℕ → ℕ → Option (String×ℕ)
  | 0,_ => none
  | fuel+1,count =>
    if candidate relative suffix count ∈ used then assignLoop used relative suffix fuel (count+1)
    else some (candidate relative suffix count,count+1)

/-- Path chosen for an entry. The loop has one round more than there are taken paths. -/
def RecoveryFilesystemSink.assignOutputPath (s : RecoveryFilesystemSink) (relative fileId : String) :
    Option (String×RecoveryFilesystemSink) :=
  (assignLoop s.usedOutputPaths relative (sanitizeForSuffix fileId) (s.usedOutputPaths.length+1)
    (s.pathCollisionCounts relative)).map fun (path,count) =>
      (path,{ s with
        pathCollisionCounts := Function.update s.pathCollisionCounts relative count
        usedOutputPaths := path::s.usedOutputPaths })

def assignOutputPath (relative fileId : String) : Recover String := do
  let s ← get
  match s.assignOutputPath relative fileId with
  | some (path,s') => do
    set s'
    return path
  | none => throw .diverged

def maxEagerRecoverySetLenBytes : UInt64 := 64*1024*1024

def RecoveryFilesystemSink.new (tree : OutputTree) (rootPath runId formatId source startedAt : String) :
    EStateM.Result Stop OutputTree RecoveryFilesystemSink :=
  let opened : OnTree ℕ := do
    let manifestDir ← createRestoreDirsSecure rootPath ".remanence"
    openFile rootPath "open recovery manifest" (manifestDir++["recovery.jsonl"])
  match opened tree with
  | .error e tree => .error e tree
  | .ok inode tree =>
    let sink : RecoveryFilesystemSink := ⟨tree,rootPath,inode,runId,.idle,fun _ => 0,[],[],[],0,0,0⟩
    match writeManifestRecord toJson (.runStart runId formatId source startedAt) sink with
    | .ok _ sink => .ok sink sink.tree
    | .error e sink => .error e sink.tree

def preSize (inode : ℕ) (sizeBytes : Option UInt64) : OnTree Unit :=
  match sizeBytes with
  | some size =>
    if size ≤ maxEagerRecoverySetLenBytes then
      modify fun tree => tree.write inode (Disk.resize (tree.content inode) size.toNat)
    else return ()
  | none => return ()

def beginEntry (entry : NormalizedEntry) : Recover Unit := do
  let s ← get
  match s.current with
  | .idle => do
    let relative := recoveryRelativePath entry
    match entry.kind with
    | .directory => do
      let _ ← onTree (createRestoreDirsSecure s.rootPath relative)
      modify fun s => { s with current := .directory }
    | .regularFile => do
      let outputPath ← assignOutputPath relative entry.fileId
      let destination ← onTree (createRestoreParentDirsSecure s.rootPath outputPath)
      let inode ← onTree (openFile s.rootPath "open recovery file" destination)
      onTree (preSize inode entry.sizeBytes)
      modify fun s => { s with
        filesSeen := s.filesSeen+1
        current := .file entry outputPath destination inode 0 [] [] [] [] }
    | .symlink | .hardlink | .special => do
      let outputPath ← assignOutputPath relative entry.fileId
      modify fun s => { s with
        current := .skipped (recoveryRecord s.runId entry outputPath [] [] [] .skipped 0) }
  | _ => throw (.error (.parse "recovery entry began while another entry is active"))

def writeFileData (fileOffset : UInt64) (bytes : Bytes) : Recover Unit := do
  let s ← get
  match s.current with
  | .file entry outputPath destination inode written recovered suspects failed damage =>
    match checkedAdd64 fileOffset (UInt64.ofNat bytes.length) with
    | none => throw (.error (.parse "recovery file offset overflow"))
    | some endOffset =>
      if entry.sizeBytes.any (fun declaredSize => declaredSize < endOffset)=true then
        throw (.error (.parse s!"recovery data for {entry.path} extends beyond declared size"))
      else do
        let (clean,suspect) := match RecoveryByteRange.new fileOffset endOffset with
          | none => ([],[])
          | some range =>
            let suspect := intersectOneWithMany range failed
            (subtractMany range suspect,suspect)
        modify fun s => { s with
          tree := s.tree.write inode (Disk.overwrite (s.tree.content inode) fileOffset.toNat bytes)
          current := .file entry outputPath destination inode
            (written+UInt64.ofNat bytes.length) (recovered++clean) (suspects++suspect) failed damage
          bytesWritten := s.bytesWritten+UInt64.ofNat bytes.length }
  | _ => throw (.error (.parse "recovery data arrived without an active regular file"))

def RecoveryTarget.damaged (range : DamageRange) : RecoveryTarget → RecoveryTarget
  | .file entry outputPath destination inode written recovered suspects failed damage =>
    if entry.fileId=range.fileId then
      match range.status,RecoveryByteRange.new range.start range.stop with
      | .checksumFailed,some damageRange =>
        .file entry outputPath destination inode written (subtractRangeVec recovered damageRange)
          (suspects++intersectManyWithOne recovered damageRange) (failed++[damageRange])
          (damage++[.fromDamage range])
      | _,_ =>
        .file entry outputPath destination inode written recovered suspects failed
          (damage++[.fromDamage range])
    else .file entry outputPath destination inode written recovered suspects failed damage
  | target => target

def reportDamage (range : DamageRange) : Recover Unit :=
  modify fun s => { s with current := s.current.damaged range }

def reportArchiveGap (range : ArchiveGapRange) : Recover Unit := do
  let s ← get
  let record := RecoveryArchiveGapRecord.fromGap s.runId range
  set { s with archiveGaps := s.archiveGaps++[record] }
  writeManifestRecord toJson (.archiveGap record)

def endEntry (entry : NormalizedEntry) : Recover Unit := do
  let s ← get
  set { s with current := .idle }
  match s.current with
  | .idle => throw (.error (.parse "recovery entry ended without an active entry"))
  | .directory => return ()
  | .skipped record => do
    modify fun s => { s with files := s.files++[record] }
    writeManifestRecord toJson (.file record)
  | .file active outputPath _ _ written recovered suspects _ damage =>
    if active.fileId≠entry.fileId then
      throw (.error (.parse s!"recovery ended {entry.fileId} while {active.fileId} was active"))
    else do
      let recovered := normalizeRanges recovered
      let suspects := normalizeRanges suspects
      let status := recoveryStatus active.sizeBytes written recovered suspects
      let record := recoveryRecord s.runId active outputPath recovered suspects damage status written
      modify fun s => { s with
        filesWritten := if 0 < written then s.filesWritten+1 else s.filesWritten
        files := s.files++[record] }
      writeManifestRecord toJson (.file record)

inductive RecoveryEvent where
  | beginEntry (entry : NormalizedEntry)
  | writeFileData (fileOffset : UInt64) (bytes : Bytes)
  | reportDamage (range : DamageRange)
  | reportArchiveGap (range : ArchiveGapRange)
  | endEntry (entry : NormalizedEntry)

def handle : RecoveryEvent → Recover Unit
  | .beginEntry entry => beginEntry entry
  | .writeFileData fileOffset bytes => writeFileData fileOffset bytes
  | .reportDamage range => reportDamage range
  | .reportArchiveGap range => reportArchiveGap toJson range
  | .endEntry entry => endEntry toJson entry

structure Transition where
  before : RecoveryFilesystemSink
  event : RecoveryEvent
  after : RecoveryFilesystemSink

def transitions (s : RecoveryFilesystemSink) : List RecoveryEvent → List Transition
  | [] => []
  | event::events => match handle toJson event s with
    | .ok _ s' => ⟨s,event,s'⟩::transitions s' events
    | .error _ s' => [⟨s,event,s'⟩]

end Sink

end Remanence.Stream.Recovery
