import Remanence.Format.Manifest
import Remanence.Format.Tar

/-!
# Planning an object

The planner counts: a global header, for every entry an extended header, a header and a padded
payload, then the manifest, two zero records and the fill of the last block. An alignment pad
makes payloads start at chunk boundaries.
-/

namespace Remanence.Format

open Foundation

def validateNonEmpty (field value : String) : Except FormatError Unit :=
  rejectIf (value="") (.invalidInput s!"{field} must not be empty")

def validatePaxValue (field value : String) : Except FormatError Unit := do
  rejectIf (0 ∈ utf8 value) (.invalidInput s!"{field} must not contain NUL")
  rejectIf (∃ byte ∈ utf8 value, byte < 0x20)
    (.invalidInput s!"{field} must not contain ASCII control characters")

def componentPath (path : String) (isDirectory : Bool) : Except FormatError String :=
  if isDirectory=true then
    if path.toList.getLast?=some '/' then .ok (String.ofList path.toList.dropLast)
    else .error (.invalidInput "directory entry path must end with '/'")
  else if path.toList.getLast?=some '/' then
    .error (.invalidInput "non-directory entry path must not end with '/'")
  else .ok path

def validateCanonicalRelativePath (path : String) (isDirectory : Bool) : Except FormatError Unit := do
  rejectIf (path.toList.head?=some '/') (.invalidInput "path must be relative")
  let inner ← componentPath path isDirectory
  rejectIf (inner="") (.invalidInput "path must not be empty")
  (pieces inner).forM fun component =>
    rejectIf (component="" ∨ component="." ∨ component="..")
      (.invalidInput ("path contains non-canonical component "++component.quote))

def allDigits (chars : List Char) : Bool := chars.all fun ch => '0' ≤ ch ∧ ch ≤ '9'

def validatePaxMtime (value : String) : Except FormatError Unit := do
  let seconds := value.toList.takeWhile (· ≠ '.')
  rejectIf (seconds=[] ∨ allDigits seconds=false)
    (.invalidInput "mtime must be non-negative decimal seconds")
  let fraction := (value.toList.dropWhile (· ≠ '.')).drop 1
  rejectIf ('.' ∈ value.toList ∧ (fraction=[] ∨ allDigits fraction=false))
    (.invalidInput "mtime fractional part must contain decimal digits")

def validateOptions (options : RemTarObjectOptions) : Except FormatError Unit := do
  validateChunkSize options.chunkSize
  validateNonEmpty "object_id" options.objectId
  validateNonEmpty "caller_object_id" options.callerObjectId
  validateNonEmpty "write_timestamp" options.writeTimestamp
  validateNonEmpty "manifest_file_id" options.manifestFileId
  rejectIf (options.encryption≠"none") (.unsupportedFeature
    ("inner REM-OBJECT stream encryption must be \"none\", got "++options.encryption.quote))

def validateEntryType (spec : RemTarFileSpec) : Except FormatError Unit :=
  match spec.entryType with
  | .regular => do
    rejectIf (spec.fileSha256=none) (.invalidInput "regular file missing file_sha256")
    rejectIf (spec.linkTarget≠none) (.invalidInput "regular file must not have link_target")
  | .hardlink => do
    rejectIf (spec.xattrs.entries≠[] ∨ spec.extensions.entries.isEmpty=false) (.invalidInput
      ("hardlink entry must not have preservation metadata; metadata resolves through "++
        "link_target"))
    rejectIf (spec.sizeBytes≠0) (.invalidInput "hardlink entry size must be zero")
    rejectIf (spec.fileSha256≠none) (.invalidInput "hardlink entry must not have file_sha256")
    let target ← orElseError spec.linkTarget (.invalidHardlinkTarget spec.path "")
    rejectIf (target="") (.invalidHardlinkTarget spec.path "")
    validatePaxValue "link_target" target
    validateCanonicalRelativePath target false
  | .symlink => do
    rejectIf (spec.sizeBytes≠0) (.invalidInput "symlink entry size must be zero")
    rejectIf (spec.fileSha256≠none) (.invalidInput "symlink entry must not have file_sha256")
    let target ← orElseError spec.linkTarget (.invalidInput "symlink entry missing link_target")
    validateNonEmpty "link_target" target
    validatePaxValue "link_target" target
  | .directory => do
    rejectIf (spec.sizeBytes≠0) (.invalidInput "directory entry size must be zero")
    rejectIf (spec.fileSha256≠none) (.invalidInput "directory entry must not have file_sha256")
    rejectIf (spec.linkTarget≠none) (.invalidInput "directory entry must not have link_target")
    rejectIf (spec.path.toList.getLast?≠some '/')
      (.invalidInput "directory entry path must end with '/'")

def validateFileSpec (spec : RemTarFileSpec) : Except FormatError Unit := do
  validateNonEmpty "path" spec.path
  validateNonEmpty "file_id" spec.fileId
  spec.xattrs.keys.forM fun name => do
    validateNonEmpty "xattr name" name
    validatePaxValue "xattr name" name
  validateEntryType spec
  rejectIf (spec.path="_remanence" ∨ "_remanence/".toList.isPrefixOf spec.path.toList=true)
    (.invalidInput "payload entries must not use reserved _remanence paths")
  rejectIf (0 ∈ utf8 spec.path) (.invalidInput "path must not contain NUL")
  rejectIf (∃ byte ∈ utf8 spec.path, byte < 0x20)
    (.invalidInput "path must not contain ASCII control characters")
  spec.mtime.forM validatePaxMtime
  validateCanonicalRelativePath spec.path (spec.entryType=.directory)

def hexLower (hash : FixedBytes 32) : String :=
  String.ofList (hash.bytes.flatMap fun byte =>
    [Nat.digitChar (byte.toNat/16),Nat.digitChar (byte.toNat%16)])

def chunkCount (sizeBytes chunkSize : ℕ) : Except FormatError ℕ := do
  validateChunkSize chunkSize
  if sizeBytes=0 then return 0
  else return (sizeBytes-1)/chunkSize+1

def globalPaxRecords (options : RemTarObjectOptions) (version : String) : PaxRecords :=
  OrderedMap.empty
    |>.insert "REMANENCE.format_id" formatId
    |>.insert "REMANENCE.schema_version" version
    |>.insert "REMANENCE.object_id" options.objectId
    |>.insert "REMANENCE.caller_object_id" options.callerObjectId
    |>.insert "REMANENCE.chunk_size" (toString options.chunkSize)
    |>.insert "REMANENCE.metadata_preservation" options.metadataPreservation.asPaxValue
    |>.insert "REMANENCE.encryption" options.encryption
    |>.insert "REMANENCE.write_timestamp" options.writeTimestamp

def streamSchemaVersion (files : List RemTarFileSpec) : String :=
  if ∃ file ∈ files, file.xattrs.entries≠[] then schemaVersionXattrs else schemaVersion

/-- Link target for the extended header, if the header record cannot hold it. -/
def linkpathRecord (spec : RemTarFileSpec) : Except FormatError (Option String) :=
  if spec.entryType=.hardlink ∨ spec.entryType=.symlink then do
    let target ← orElseError spec.linkTarget (.invalidInput "link entry missing link target")
    return if isPortableUstarLinkname target then none else some target
  else .ok none

def filePaxRecords (spec : RemTarFileSpec) (chunkSize : ℕ) (isManifest : Bool) :
    Except FormatError PaxRecords := do
  let chunks ← chunkCount spec.sizeBytes.toNat chunkSize
  let linkpath ← linkpathRecord spec
  return OrderedMap.empty
    |>.insert "path" spec.path
    |>.insert "size" (toString spec.sizeBytes.toNat)
    |>.insertSome "mtime" spec.mtime
    |>.insert "REMANENCE.file_id" spec.fileId
    |>.insertSome "REMANENCE.file_sha256" (spec.fileSha256.map hexLower)
    |>.insert "REMANENCE.chunk_count" (toString chunks)
    |>.insertSome "REMANENCE.executable" (spec.executable.map toString)
    |>.insert "REMANENCE.compression" "none"
    |>.insertSome "REMANENCE.is_manifest" (if isManifest then some "true" else none)
    |>.insertSome "linkpath" linkpath

def addOffset (left right : ℕ) : Except FormatError ℕ := fitWord (left+right) "offset overflow"

def roundUpU64 (value unit : ℕ) : Except FormatError ℕ := do
  rejectIf (unit=0) (.invalidInput "rounding unit must be non-zero")
  if value%unit=0 then return value
  else fitWord (value+(unit-value%unit)) "round-up overflow"

def entryRecords (chunkSize offset : ℕ) (spec : RemTarFileSpec) (isManifest : Bool)
    (solvedRecords : Option PaxRecords) : Except FormatError PaxRecords :=
  match solvedRecords with
  | some records => .ok records
  | none => do
    let baseRecords ← filePaxRecords spec chunkSize isManifest
    if spec.sizeBytes=0 then return baseRecords
    else withAlignmentPad offset chunkSize baseRecords

/-- Place of an entry and the offset behind it. A vector has fewer than `2^63` bytes. -/
def planOneFile (chunkSize offset : ℕ) (spec : RemTarFileSpec) (isManifest : Bool)
    (solvedRecords : Option PaxRecords) : Except FormatError (RemTarFileLayout×ℕ) := do
  let records ← entryRecords chunkSize offset spec isManifest solvedRecords
  let paxBody ← encodePaxRecords records
  let paxBodyPadded ← roundUpUsize paxBody.length tarRecordSize
  let dataOffset ← addOffset offset (tarRecordSize+paxBodyPadded+tarRecordSize)
  rejectIf (spec.sizeBytes≠0 ∧ dataOffset%chunkSize≠0)
    (.layout "file data offset is not chunk aligned")
  let chunks ← chunkCount spec.sizeBytes.toNat chunkSize
  let dataEnd ← addOffset dataOffset spec.sizeBytes.toNat
  let nextOffset ← addOffset dataEnd (tarPaddingLen spec.sizeBytes.toNat)
  return (⟨spec.entryType,spec.path,spec.fileId,spec.sizeBytes,spec.fileSha256,spec.linkTarget,
    spec.xattrs,spec.extensions,spec.executable,
    if spec.sizeBytes=0 then none else some (dataOffset/chunkSize),chunks,offset,dataOffset,
    ((records.get? padKey).map fun value => (utf8 value).length).getD 0,paxBody.length,isManifest⟩,
    nextOffset)

structure PlanState where
  offset : ℕ
  seenPaths : List String
  seenFileIds : List String
  seenRegularPaths : List String
  fileLayouts : List RemTarFileLayout

def checkHardlink (seenRegularPaths : List String) (spec : RemTarFileSpec) :
    Except FormatError Unit :=
  if spec.entryType=.hardlink then do
    let target ← orElseError spec.linkTarget (.invalidHardlinkTarget spec.path "")
    rejectIf (target ∉ seenRegularPaths) (.invalidHardlinkTarget spec.path target)
  else .ok ()

def planFile (chunkSize : ℕ) (state : PlanState) (spec : RemTarFileSpec) :
    Except FormatError PlanState := do
  validateFileSpec spec
  checkHardlink state.seenRegularPaths spec
  rejectIf (spec.path ∈ state.seenPaths)
    (.invalidInput ("duplicate payload path "++spec.path.quote))
  rejectIf (spec.fileId ∈ state.seenFileIds)
    (.invalidInput ("duplicate file_id "++spec.fileId.quote))
  let (layout,nextOffset) ← planOneFile chunkSize state.offset spec false none
  return ⟨nextOffset,spec.path::state.seenPaths,spec.fileId::state.seenFileIds,
    if spec.entryType=.regular then spec.path::state.seenRegularPaths else state.seenRegularPaths,
    state.fileLayouts++[layout]⟩

def manifestSpec (services : FormatServices) (options : RemTarObjectOptions) (manifestCbor : Bytes) :
    RemTarFileSpec where
  entryType := .regular
  path := manifestPath
  fileId := options.manifestFileId
  sizeBytes := UInt64.ofNat manifestCbor.length
  fileSha256 := some (services.hash.sha256 manifestCbor)
  linkTarget := none
  xattrs := .empty
  extensions := .empty
  mtime := none
  executable := some false

def planRemTarObject (services : FormatServices) (options : RemTarObjectOptions)
    (files : List RemTarFileSpec) : Except FormatError RemTarObjectLayout := do
  validateOptions options
  rejectIf (maxFileEntries < files.length)
    (.invalidInput "file entry count exceeds MAX_FILE_ENTRIES")
  let version := streamSchemaVersion files
  let globalBody ← encodePaxRecords (globalPaxRecords options version)
  let globalPadded ← roundUpUsize globalBody.length tarRecordSize
  let offset ← addOffset 0 (tarRecordSize+globalPadded)
  let state ← files.foldlM (planFile options.chunkSize) ⟨offset,[],[],[],[]⟩
  rejectIf (options.manifestFileId ∈ state.seenFileIds) (.invalidInput
    ("manifest file_id "++options.manifestFileId.quote++" collides with a payload file_id"))
  let manifestCbor ← encodeManifest services options state.fileLayouts
  let (manifestLayout,offset) ← planOneFile options.chunkSize state.offset
    (manifestSpec services options manifestCbor) true none
  let offset ← addOffset offset (2*tarRecordSize)
  let totalSize ← roundUpU64 offset options.chunkSize
  return ⟨options.objectId,options.callerObjectId,options.chunkSize,version,totalSize,
    totalSize/options.chunkSize,state.fileLayouts,manifestLayout,services.hash.sha256 manifestCbor,
    manifestCbor,globalBody.length⟩

end Remanence.Format
