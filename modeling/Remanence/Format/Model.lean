import Remanence.Foundation.Disk
import Remanence.Foundation.OrderedMap

/-!
# Values of the object format

Offsets and counts are naturals; the arithmetic that the source checks at 64
bits is checked where it is done.
-/

namespace Remanence.Format

open Foundation

inductive FormatError where
  | invalidInput (message : String)
  | layout (message : String)
  | parse (message : String)
  | invalidPath (message : String)
  | invalidHardlinkTarget (path target : String)
  | cbor (message : String)
  | manifestInvalid (message : String)
  | unsupportedFeature (message : String)
  | fileDigestMismatch (path : String) (expected actual : Bytes)
  | ustarChecksumMismatch (stored computed : ℕ)
  | incompleteBlockWrite (expectedBytes bytesWritten : ℕ) (earlyWarning endOfMedium : Bool)
  | sourceIo (context : String) (errno : Errno)
  | restoreDestination (message : String)
  | tapeIo (message : String)
deriving DecidableEq

inductive RemTarEntryType where
  | regular
  | hardlink
  | symlink
  | directory
deriving DecidableEq, Repr

def RemTarEntryType.manifestValue : RemTarEntryType → Option String
  | .regular => none
  | .hardlink => some "hardlink"
  | .symlink => some "symlink"
  | .directory => some "directory"

def tarRecordSize : ℕ := 512

def formatId : String := "rem-object-v1"

def schemaVersion : String := "1.0"

def schemaVersionXattrs : String := "1.1"

def manifestPath : String := "_remanence/manifest.cbor"

def maxFileEntries : ℕ := 10000000

inductive RemTarCborValue where
  | unsigned (value : UInt64)
  | bytes (value : Bytes)
  | text (value : String)
  | bool (value : Bool)
  | null
  | array (items : List RemTarCborValue)
  | map (entries : List (String×RemTarCborValue))

abbrev RemTarXattrs := OrderedMap String Bytes

abbrev RemTarExtensions := OrderedMap String RemTarCborValue

abbrev BodyLba := ℕ

inductive MetadataPreservation where
  | minimal
  | archival
  | full
deriving DecidableEq, Repr

def MetadataPreservation.asPaxValue : MetadataPreservation → String
  | .minimal => "minimal"
  | .archival => "archival"
  | .full => "full"

structure RemTarObjectOptions where
  objectId : String
  callerObjectId : String
  chunkSize : ℕ
  metadataPreservation : MetadataPreservation
  encryption : String
  writeTimestamp : String
  manifestFileId : String
  extensions : RemTarExtensions

structure RemTarFileSpec where
  entryType : RemTarEntryType
  path : String
  fileId : String
  sizeBytes : UInt64
  fileSha256 : Option (FixedBytes 32)
  linkTarget : Option String
  xattrs : RemTarXattrs
  extensions : RemTarExtensions
  mtime : Option String
  executable : Option Bool

structure RemTarFile where
  path : String
  fileId : String
  data : Bytes
  /-- A slice has fewer than `2^63` bytes. -/
  data_lt : data.length < 2^63
  mtime : Option String
  executable : Option Bool

structure RemTarFileLayout where
  entryType : RemTarEntryType
  path : String
  fileId : String
  sizeBytes : UInt64
  fileSha256 : Option (FixedBytes 32)
  linkTarget : Option String
  xattrs : RemTarXattrs
  extensions : RemTarExtensions
  executable : Option Bool
  firstChunkLba : Option BodyLba
  chunkCount : ℕ
  paxHeaderOffset : ℕ
  dataOffset : ℕ
  padSpaces : ℕ
  paxBodyLen : ℕ
  isManifest : Bool

structure RemTarObjectLayout where
  objectId : String
  callerObjectId : String
  chunkSize : ℕ
  schemaVersion : String
  totalSizeBytes : ℕ
  projectedSizeBlocks : ℕ
  files : List RemTarFileLayout
  manifest : RemTarFileLayout
  manifestSha256 : FixedBytes 32
  manifestCbor : Bytes
  globalPaxBodyLen : ℕ

end Remanence.Format
