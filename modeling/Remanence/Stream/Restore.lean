import Remanence.Format.Model
import Remanence.Foundation.Cbor
import Remanence.Foundation.Effects

/-!
# Restore of an object into a directory

A sink creates the entries of an archive below a restore root. Every directory on the way is
inspected before it is entered, and a last symbolic link is never opened. All file-system
operations go through one function that records them with the file system they met.
-/

namespace Remanence.Stream

open Foundation Format

def hasEmptyNativeComponent : List Char → Bool
  | a::b::rest => (a = '/' && b = '/') || hasEmptyNativeComponent (b::rest)
  | _ => false

structure NativeRestoreDestination where
  relative : List String
  /-- Names after case folding and decomposition. -/
  collisionKey : List String
deriving DecidableEq

def nativeNames (archivePath : String) : List Component → Except FormatError (List String)
  | [] => .ok []
  | .normal part::rest => do
    rejectIf (part="") (.invalidPath
      s!"restore path {archivePath.quote} contains an empty native component")
    return part::(←nativeNames archivePath rest)
  | _::_ => .error (.invalidPath
      s!"restore path {archivePath.quote} is not a normalized native relative path")

def resolveNativeRestoreDestination (nativeCollisionComponent : String → String)
    (archivePath : String) : Except FormatError NativeRestoreDestination := do
  rejectIf (archivePath="") (.invalidPath "restore path must contain a file name")
  rejectIf (archivePath.toList.head?=some '/') (.invalidPath
    s!"restore path {archivePath.quote} is absolute")
  rejectIf (hasEmptyNativeComponent archivePath.toList=true) (.invalidPath
    s!"restore path {archivePath.quote} contains an empty native component")
  let relative ← nativeNames archivePath (components archivePath)
  rejectIf (relative=[]) (.invalidPath
    s!"restore path {archivePath.quote} must contain a file name")
  return ⟨relative,relative.map nativeCollisionComponent⟩

structure FilesystemRestoreOptions where
  overwrite : Bool
  /-- Selected members or directory prefixes; empty selects all. -/
  members : List String
  includeManifest : Bool

/-- Entry of an archive, as far as the sink reads it. -/
structure RemTarStreamEntry where
  entryType : RemTarEntryType
  path : String
  sizeBytes : UInt64
  paxRecords : List (String×String)
  linkTarget : Option String

inductive RestoreTarget where
  | none
  | skip
  | directory
  | hardlink
  | symlink
  | file (destination : List String) (inode : ℕ) (hasher : Bytes) (expectedSha256 : Bytes)

structure FilesystemRestoreSink where
  disk : Disk
  /-- Operations in order, each with the file system it met. -/
  journal : List (Disk×Disk.Mutation)
  root : ℕ
  rootPath : String
  options : FilesystemRestoreOptions
  /-- Archive path of each collision key. -/
  nativeDestinations : List (List String×String)
  current : RestoreTarget
  filesWritten : UInt64
  directoriesSeen : UInt64
  symlinksWritten : UInt64
  hardlinksWritten : UInt64
  bytesWritten : UInt64

abbrev Restore := EStateM FormatError FilesystemRestoreSink

def FilesystemRestoreSink.new (disk : Disk) (root : ℕ) (rootPath : String)
    (options : FilesystemRestoreOptions) : FilesystemRestoreSink :=
  ⟨disk,[],root,rootPath,options,[],.none,0,0,0,0,0⟩

def displayPath (rootPath : String) (path : List String) : String := "/".intercalate (rootPath::path)

def restorePathError (rootPath : String) (path : List String) (message : String) : FormatError :=
  .restoreDestination s!"restore path {displayPath rootPath path} {message}"

def formatSinkIo (rootPath : String) (context : String) (path : List String) (errno : Errno) :
    FormatError :=
  .sourceIo s!"{context} at {displayPath rootPath path}" errno

def mutate (context : String) (path : List String) (m : Disk.Mutation) : Restore ℕ := fun s =>
  let recorded := { s with journal := s.journal++[(s.disk,m)] }
  match s.disk.apply s.root m with
  | .ok (disk,i) => .ok i { recorded with disk := disk }
  | .error errno => .error (formatSinkIo s.rootPath context path errno) recorded

/-- Metadata of an entry; a last link is not followed. -/
def symlinkMetadata (path : List String) : Restore (Except Errno Node) := do
  let s ← get
  return s.disk.symlinkMetadata s.root path

def refusePath {α : Type} (path : List String) (message : String) : Restore α := do
  let s ← get
  throw (restorePathError s.rootPath path message)

def failIo {α : Type} (context : String) (path : List String) (errno : Errno) : Restore α := do
  let s ← get
  throw (formatSinkIo s.rootPath context path errno)

def ensureRestoreDirectory (path : List String) : Restore Unit := do
  match ← symlinkMetadata path with
  | .ok (.symlink _) => refusePath path "escapes destination through a symlink"
  | .ok (.directory _ _) => return ()
  | .ok (.file _) => refusePath path "exists but is not a directory"
  | .error .notFound => do
    let _ ← mutate "create restore directory" path (.createDir path)
    match ← symlinkMetadata path with
    | .ok (.symlink _) => refusePath path "escapes destination through a symlink"
    | .ok _ => return ()
    | .error errno => failIo "inspect restore directory" path errno
  | .error errno => failIo "inspect restore directory" path errno

/-- Real directories for all names, entered one after the other. -/
def ensureDirectories : List String → List String → Restore Unit
  | _,[] => return ()
  | current,part::rest => do
    ensureRestoreDirectory (current++[part])
    ensureDirectories (current++[part]) rest

def createRestoreDirsSecure (relative : List String) : Restore Unit :=
  ensureDirectories [] relative

/-- A last link at a destination is refused. -/
def rejectExistingRestoreSymlink (path : List String) : Restore Unit := do
  match ← symlinkMetadata path with
  | .ok (.symlink _) => refusePath path "escapes destination through a symlink"
  | .ok _ => return ()
  | .error .notFound => return ()
  | .error errno => failIo "inspect restore path" path errno

/-- Directories above a destination, which is no link. -/
def createRestoreParentDirsSecure (relative : List String) : Restore Unit := do
  ensureDirectories [] relative.dropLast
  rejectExistingRestoreSymlink relative

def resolveExistingRestoreFileSecure (relative : List String) : Restore Unit := do
  ensureDirectories [] relative.dropLast
  match ← symlinkMetadata relative with
  | .ok (.symlink _) => refusePath relative "escapes destination through a symlink"
  | .ok (.file _) => return ()
  | .ok (.directory _ _) => refusePath relative "is not a regular file"
  | .error .notFound => refusePath relative "does not exist"
  | .error errno => failIo "inspect restore hardlink target" relative errno

/-- A free destination for a link; with the policy an existing file is removed. -/
def prepareRestoreSymlinkDestination (path : List String) (overwrite : Bool) : Restore Unit := do
  match ← symlinkMetadata path with
  | .ok (.symlink _) => refusePath path "escapes destination through a symlink"
  | .ok (.file _) =>
    if overwrite=true then do
      let _ ← mutate "remove existing restore file" path (.removeFile path)
      return ()
    else refusePath path "already exists"
  | .ok (.directory _ _) => refusePath path "already exists"
  | .error .notFound => return ()
  | .error errno => failIo "inspect restore path" path errno

def restoreMemberSelected (path : String) (members : List String) : Bool :=
  members=[] || members.any fun m => path=m || (m.toList.getLast?=some '/' && m.isPrefixOf path)

def hexNibble (byte : UInt8) : Option UInt8 :=
  if '0'.toUInt8 ≤ byte ∧ byte ≤ '9'.toUInt8 then some (byte - '0'.toUInt8)
  else if 'a'.toUInt8 ≤ byte ∧ byte ≤ 'f'.toUInt8 then some (byte - 'a'.toUInt8+10)
  else if 'A'.toUInt8 ≤ byte ∧ byte ≤ 'F'.toUInt8 then some (byte - 'A'.toUInt8+10)
  else none

def hexPairs : Bytes → Option Bytes
  | high::low::rest => do
    let h ← hexNibble high
    let l ← hexNibble low
    return (h <<< 4 ||| l)::(←hexPairs rest)
  | _ => some []

def parseSha256Hex (value : String) : Except String Bytes := do
  let bytes := utf8 value
  rejectIf (bytes.length≠64) s!"expected 64 hex characters, got {bytes.length}"
  orElseError (hexPairs bytes) "contains non-hex characters"

def expectedFileSha256 (entry : RemTarStreamEntry) : Except FormatError Bytes := do
  let value ← orElseError (entry.paxRecords.lookup "REMANENCE.file_sha256")
    (.parse s!"restore file {entry.path} is missing REMANENCE.file_sha256")
  (parseSha256Hex value).mapError fun err =>
    .parse s!"restore file {entry.path} has invalid REMANENCE.file_sha256: {err}"

def liftResult {α : Type} (result : Except FormatError α) : Restore α :=
  match result with
  | .ok a => return a
  | .error e => throw e

section Sink

variable (nativeCollisionComponent : String → String) (sha256 : Bytes → Bytes)

/-- Destination of an entry, reserved under its collision key. -/
def registerNativeDestination (archivePath : String) : Restore (List String) := do
  let resolved ← liftResult (resolveNativeRestoreDestination nativeCollisionComponent archivePath)
  let s ← get
  let previous := s.nativeDestinations.lookup resolved.collisionKey
  set { s with nativeDestinations := (resolved.collisionKey,archivePath)::
    s.nativeDestinations.filter fun entry => entry.1≠resolved.collisionKey }
  match previous with
  | some previous => throw (.restoreDestination
      (s!"restore entries {previous.quote} and {archivePath.quote} collide after native case "++
        s!"folding and Unicode normalization at {displayPath s.rootPath resolved.relative}"))
  | none => return resolved.relative

def FilesystemRestoreOptions.selects (options : FilesystemRestoreOptions)
    (entry : RemTarStreamEntry) : Bool :=
  restoreMemberSelected entry.path options.members &&
    !(entry.path=manifestPath && !options.includeManifest)

def linkTargetOf (entry : RemTarStreamEntry) (kind : String) : Restore String :=
  liftResult (orElseError entry.linkTarget
    (.parse s!"restore {kind} {entry.path} is missing target"))

def beginSelected (entry : RemTarStreamEntry) (relative : List String) : Restore Unit := do
  let s ← get
  match entry.entryType with
  | .regular => do
    let expectedSha256 ← liftResult (expectedFileSha256 entry)
    createRestoreParentDirsSecure relative
    let inode ← mutate "open restore file" relative
      (.openFile relative s.options.overwrite (!s.options.overwrite))
    modify fun s => { s with current := .file relative inode [] expectedSha256 }
  | .directory => do
    createRestoreDirsSecure relative
    modify fun s => { s with directoriesSeen := s.directoriesSeen+1,current := .directory }
  | .hardlink => do
    let target ← linkTargetOf entry "hardlink"
    let source ← liftResult (resolveNativeRestoreDestination nativeCollisionComponent target)
    resolveExistingRestoreFileSecure source.relative
    createRestoreParentDirsSecure relative
    prepareRestoreSymlinkDestination relative s.options.overwrite
    let _ ← mutate "create restore hardlink" relative (.hardLink source.relative relative)
    modify fun s => { s with hardlinksWritten := s.hardlinksWritten+1,current := .hardlink }
  | .symlink => do
    let target ← linkTargetOf entry "symlink"
    createRestoreParentDirsSecure relative
    prepareRestoreSymlinkDestination relative s.options.overwrite
    let _ ← mutate "create restore symlink" relative (.symlink target relative)
    modify fun s => { s with symlinksWritten := s.symlinksWritten+1,current := .symlink }

def beginFile (entry : RemTarStreamEntry) : Restore Unit := do
  let s ← get
  if s.options.selects entry=false then modify fun s => { s with current := .skip }
  else do
    let relative ← registerNativeDestination nativeCollisionComponent entry.path
    beginSelected nativeCollisionComponent entry relative

def writeFileData (bytes : Bytes) : Restore Unit := do
  let s ← get
  match s.current with
  | .none => throw (.parse "restore data arrived without an active file")
  | .skip => return ()
  | .directory | .hardlink | .symlink =>
    throw (.parse "restore data arrived for a zero-payload entry")
  | .file destination inode hasher expected => do
    let _ ← mutate "write restore file" destination (.writeAt destination inode hasher.length bytes)
    modify fun s => { s with
      current := .file destination inode (hasher++bytes) expected
      bytesWritten := s.bytesWritten+UInt64.ofNat bytes.length }

def endFile (entry : RemTarStreamEntry) : Restore Unit := do
  let s ← get
  set { s with current := .none }
  match s.current with
  | .none => throw (.parse "restore file ended without an active file")
  | .directory | .hardlink | .symlink | .skip => return ()
  | .file _ _ hasher expected => do
    liftResult (rejectIf (hasher.length≠entry.sizeBytes.toNat) (.parse
      (s!"restore file {entry.path} wrote {hasher.length} bytes, "++
        s!"expected {entry.sizeBytes.toNat}")))
    liftResult (rejectIf (sha256 hasher≠expected)
      (.fileDigestMismatch entry.path expected (sha256 hasher)))
    modify fun s => { s with filesWritten := s.filesWritten+1 }

inductive Event where
  | begin (entry : RemTarStreamEntry)
  | data (bytes : Bytes)
  | finish (entry : RemTarStreamEntry)

def handle : Event → Restore Unit
  | .begin entry => beginFile nativeCollisionComponent entry
  | .data bytes => writeFileData bytes
  | .finish entry => endFile sha256 entry

def restoreAll (events : List Event) : Restore Unit :=
  events.forM (handle nativeCollisionComponent sha256)

def acceptedEntries (s : FilesystemRestoreSink) : List Event → List RemTarStreamEntry
  | [] => []
  | event::events => match handle nativeCollisionComponent sha256 event s with
    | .error _ _ => []
    | .ok _ s' => (match event with
        | .begin entry => if s.options.selects entry=true then [entry] else []
        | _ => [])++acceptedEntries s' events

end Sink

end Remanence.Stream
