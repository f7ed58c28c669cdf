import Remanence.Format.Layout
import Remanence.Foundation.Words

/-!
# Writing an object

The writer cuts a byte stream into body blocks for a sink. It plans every entry again at the
offset it has reached, with records that it encodes itself. Payloads come from memory or from
readers that return any number of bytes per call.
-/

namespace Remanence.Format

open Foundation

structure WriteOutcome where
  bytesWritten : UInt32
  earlyWarning : Bool
  endOfMedium : Bool
deriving DecidableEq, Repr

structure BlockSink (σ : Type) where
  writeBlock : σ → Bytes → Except FormatError (WriteOutcome×σ)

structure VecBlockSink where
  blocks : List Bytes
  nextLba : UInt64

def vecBlockSink : BlockSink VecBlockSink where
  writeBlock state block := do
    let nextLba ← orElseError (checkedAdd64 state.nextLba 1) (.tapeIo "VecBlockSink LBA overflow")
    return (⟨UInt32.ofNat block.length,false,false⟩,⟨state.blocks++[block],nextLba⟩)

/-- The bytes that are left, and how many the next calls grant; behind the script all that are asked
for. -/
structure PayloadReader where
  bytes : Bytes
  script : List (Except Errno ℕ)

def PayloadReader.read (reader : PayloadReader) (limit : ℕ) : Except Errno (Bytes×PayloadReader) :=
  match reader.script with
  | [] => .ok (reader.bytes.take limit,⟨reader.bytes.drop limit,[]⟩)
  | .ok granted::rest =>
    .ok (reader.bytes.take (min limit granted),⟨reader.bytes.drop (min limit granted),rest⟩)
  | .error errno::_ => .error errno

structure BodyBlockWriter (σ : Type) where
  sink : σ
  blockSize : ℕ
  buffer : Bytes
  blocksWritten : ℕ
  finished : Bool
  room : buffer.length < blockSize

namespace BodyBlockWriter

variable {σ : Type} (sink : BlockSink σ)

def new (state : σ) (blockSize : ℕ) : Except FormatError (BodyBlockWriter σ) := do
  validateChunkSize blockSize
  if h : 0 < blockSize then return ⟨state,blockSize,[],0,false,h⟩
  else .error (.invalidInput "chunk_size must be non-zero")

def flushFullBlock (writer : BodyBlockWriter σ) (block : Bytes) :
    Except FormatError (BodyBlockWriter σ) := do
  let (outcome,state) ← sink.writeBlock writer.sink block
  rejectIf (outcome.bytesWritten.toNat≠block.length ∨ outcome.endOfMedium=true)
    (.incompleteBlockWrite block.length outcome.bytesWritten.toNat outcome.earlyWarning
      outcome.endOfMedium)
  return { writer with
    sink := state
    buffer := []
    blocksWritten := writer.blocksWritten+1
    room := Nat.lt_of_le_of_lt (Nat.zero_le _) writer.room }

def writeBytes (writer : BodyBlockWriter σ) (bytes : Bytes) :
    Except FormatError (BodyBlockWriter σ) :=
  if bytes=[] then .ok writer
  else
    let take := min (writer.blockSize-writer.buffer.length) bytes.length
    let buffer := writer.buffer++bytes.take take
    if hroom : buffer.length < writer.blockSize then
      -- the bytes end inside this block
      .ok { writer with buffer := buffer, room := hroom }
    else do
      let flushed ← writer.flushFullBlock sink buffer
      flushed.writeBytes (bytes.drop take)
termination_by bytes.length
decreasing_by
  have hroom := writer.room
  have hlength : 0 < bytes.length := List.length_pos_iff.mpr ‹_›
  rw [List.length_drop]
  omega

def writeAll (writer : BodyBlockWriter σ) (bytes : Bytes) :
    Except FormatError (BodyBlockWriter σ) := do
  rejectIf (writer.finished=true) (.invalidInput "cannot write after finish_after_tar_eof")
  writer.writeBytes sink bytes

def finishAfterTarEof (writer : BodyBlockWriter σ) : Except FormatError (BodyBlockWriter σ) := do
  if writer.finished=true then return writer
  else if writer.buffer=[] then return { writer with finished := true }
  else
    let flushed ← writer.flushFullBlock sink
      (writer.buffer++List.replicate (writer.blockSize-writer.buffer.length) 0)
    return { flushed with finished := true }

end BodyBlockWriter

section

variable {σ : Type} (services : FormatServices) (sink : BlockSink σ)

def writePaxHeader (writer : BodyBlockWriter σ) (name : String) (typeflag : UInt8)
    (records : PaxRecords) : Except FormatError (BodyBlockWriter σ) := do
  let body ← encodePaxRecords records
  let header ← encodeHeader name body.length typeflag 0o644
  let writer ← writer.writeAll sink header
  let writer ← writer.writeAll sink body
  let padded ← roundUpUsize body.length tarRecordSize
  writer.writeAll sink (List.replicate (padded-body.length) 0)

def writeGlobalHeader (writer : BodyBlockWriter σ) (options : RemTarObjectOptions) (version : String) :
    Except FormatError (BodyBlockWriter σ) :=
  writePaxHeader sink writer "GlobalHead.0/PaxHeaders/remanence" typePaxGlobal
    (globalPaxRecords options version)

def entryHeader (spec : RemTarFileSpec) : Except FormatError Bytes :=
  match spec.entryType with
  | .regular => encodePaxBackedRegularHeader spec.path spec.sizeBytes.toNat
      (if spec.executable=some true then 0o755 else 0o644)
  | .hardlink => do
    let target ← orElseError spec.linkTarget (.invalidInput "hardlink entry missing link target")
    encodePaxBackedHardlinkHeader spec.path target (!isPortableUstarLinkname target)
  | .symlink => do
    let target ← orElseError spec.linkTarget (.invalidInput "symlink entry missing link target")
    encodePaxBackedSymlinkHeader spec.path target (!isPortableUstarLinkname target)
  | .directory => encodePaxBackedDirectoryHeader spec.path

def paxHeaderName (isManifest : Bool) : String :=
  if isManifest then "PaxHeaders.0/_remanence_manifest" else "PaxHeaders.0/remanence_file"

def writePaxAndRegularHeader (writer : BodyBlockWriter σ) (spec : RemTarFileSpec)
    (records : PaxRecords) (isManifest : Bool) : Except FormatError (BodyBlockWriter σ) := do
  let writer ← writePaxHeader sink writer (paxHeaderName isManifest) typePaxExtended records
  let header ← entryHeader spec
  writer.writeAll sink header

def writeFileEntryHeader (writer : BodyBlockWriter σ) (chunkSize : ℕ) (spec : RemTarFileSpec)
    (isManifest : Bool) : Except FormatError (BodyBlockWriter σ) := do
  let offset ← fitWord (writer.blocksWritten*chunkSize+writer.buffer.length)
    "writer byte offset overflow"
  let records ← entryRecords chunkSize offset spec isManifest none
  let _ ← planOneFile chunkSize offset spec isManifest (some records)
  writePaxAndRegularHeader sink writer spec records isManifest

def writeFilePadding (writer : BodyBlockWriter σ) (sizeBytes : ℕ) :
    Except FormatError (BodyBlockWriter σ) :=
  if tarPaddingLen sizeBytes > 0 then
    writer.writeAll sink (List.replicate (tarPaddingLen sizeBytes) 0)
  else .ok writer

def writeFileEntryFromBytes (writer : BodyBlockWriter σ) (chunkSize : ℕ) (spec : RemTarFileSpec)
    (data : Bytes) (isManifest : Bool) : Except FormatError (BodyBlockWriter σ) := do
  rejectIf (UInt64.ofNat data.length≠spec.sizeBytes)
    (.invalidInput s!"data length for {spec.path} does not match spec")
  let writer ← writeFileEntryHeader sink writer chunkSize spec isManifest
  let writer ← writer.writeAll sink data
  writeFilePadding sink writer spec.sizeBytes.toNat

def scratchLen (chunkSize : ℕ) : ℕ := max (8*1024) (min chunkSize (1024*1024))

def streamPayload (chunkSize : ℕ) (spec : RemTarFileSpec) (writer : BodyBlockWriter σ)
    (reader : PayloadReader) (seen : Bytes) (remaining : ℕ) :
    Except FormatError (BodyBlockWriter σ×Bytes) :=
  if remaining=0 then .ok (writer,seen)
  else
    match reader.read (min (scratchLen chunkSize) remaining) with
    | .error errno => .error (.sourceIo s!"reading {spec.path}" errno)
    | .ok (bytes,reader) =>
      if bytes=[] then .error (.invalidInput
        s!"stream for {spec.path} ended before {spec.sizeBytes.toNat} bytes were read")
      else do
        let writer ← writer.writeAll sink bytes
        streamPayload chunkSize spec writer reader (seen++bytes) (remaining-bytes.length)
termination_by remaining
decreasing_by
  have hlength : 0 < bytes.length := List.length_pos_iff.mpr ‹_›
  omega

def checkStreamedHash (spec : RemTarFileSpec) (seen : Bytes) : Except FormatError Unit :=
  match spec.fileSha256 with
  | some expected =>
    rejectIf (services.hash.sha256 seen≠expected)
      (.invalidInput s!"streamed data hash for {spec.path} does not match spec")
  | none =>
    rejectIf (spec.entryType=.regular)
      (.invalidInput s!"regular file {spec.path} is missing file_sha256")

def writeFileEntryFromReader (writer : BodyBlockWriter σ) (chunkSize : ℕ) (spec : RemTarFileSpec)
    (reader : PayloadReader) (isManifest : Bool) : Except FormatError (BodyBlockWriter σ) := do
  let writer ← writeFileEntryHeader sink writer chunkSize spec isManifest
  let (writer,seen) ← streamPayload sink chunkSize spec writer reader [] spec.sizeBytes.toNat
  checkStreamedHash services spec seen
  writeFilePadding sink writer spec.sizeBytes.toNat

def fileToSpec (file : RemTarFile) : RemTarFileSpec where
  entryType := .regular
  path := file.path
  fileId := file.fileId
  sizeBytes := UInt64.ofNat file.data.length
  fileSha256 := some (services.hash.sha256 file.data)
  linkTarget := none
  xattrs := .empty
  extensions := .empty
  mtime := file.mtime
  executable := file.executable

/-- What follows the payload entries: the manifest, two zero records and the fill. -/
def writeObjectEnd (writer : BodyBlockWriter σ) (options : RemTarObjectOptions)
    (layout : RemTarObjectLayout) : Except FormatError (RemTarObjectLayout×σ) := do
  let writer ← writeFileEntryFromBytes sink writer options.chunkSize
    { manifestSpec services options layout.manifestCbor with fileSha256 := some layout.manifestSha256 }
    layout.manifestCbor true
  let writer ← writer.writeAll sink (List.replicate tarRecordSize 0)
  let writer ← writer.writeAll sink (List.replicate tarRecordSize 0)
  let writer ← writer.finishAfterTarEof sink
  rejectIf (writer.blocksWritten≠layout.projectedSizeBlocks) (.layout
    (s!"writer emitted {writer.blocksWritten} blocks, layout projected "++
      s!"{layout.projectedSizeBlocks}"))
  return (layout,writer.sink)

def writeRemTarObject (state : σ) (options : RemTarObjectOptions) (files : List RemTarFile) :
    Except FormatError (RemTarObjectLayout×σ) := do
  let layout ← planRemTarObject services options (files.map (fileToSpec services))
  let writer ← BodyBlockWriter.new state options.chunkSize
  let writer ← writeGlobalHeader sink writer options layout.schemaVersion
  let writer ← files.foldlM (fun writer file => writeFileEntryFromBytes sink writer options.chunkSize
    (fileToSpec services file) file.data false) writer
  writeObjectEnd services sink writer options layout

def writeRemTarObjectFromReaders (state : σ) (options : RemTarObjectOptions)
    (files : List (RemTarFileSpec×PayloadReader)) : Except FormatError (RemTarObjectLayout×σ) := do
  let layout ← planRemTarObject services options (files.map Prod.fst)
  let writer ← BodyBlockWriter.new state options.chunkSize
  let writer ← writeGlobalHeader sink writer options layout.schemaVersion
  let writer ← files.foldlM (fun writer file => writeFileEntryFromReader services sink writer
    options.chunkSize file.1 file.2 false) writer
  writeObjectEnd services sink writer options layout

end

end Remanence.Format
