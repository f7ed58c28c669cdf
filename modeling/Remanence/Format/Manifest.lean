import Remanence.Format.Pax
import Remanence.Ciborium
import Remanence.Hashing
import Mathlib.Data.List.Sort

/-!
# The manifest

The manifest is a CBOR map of the options and the planned entries. What the library writes is
checked against the profile: shortest heads, definite lengths, text keys in order, valid texts
and at most eight levels.
-/

namespace Remanence.Format

open Foundation

structure FormatServices where
  hash : HashFunctions
  cbor : Ciborium
  written_lt : ∀ value bytes, cbor.intoWriter value=.ok bytes → bytes.length < 2^63

def canonicalTextKey (key : String) : Bytes :=
  head 3 (UInt64.ofNat (utf8 key).length)++utf8 key

def sortByCanonicalKey {β : Type} (entries : List (String×β)) : List (String×β) :=
  entries.insertionSort fun left right => canonicalTextKey left.1 ≤ canonicalTextKey right.1

def canonicalMap (entries : List (String×CborValue)) : CborValue :=
  .map ((sortByCanonicalKey entries).map fun (key,value) => (.text key,value))

mutual

def profileCborValue : RemTarCborValue → CborValue
  | .unsigned value => .integer value.toNat
  | .bytes value => .bytes value
  | .text value => .text value
  | .bool value => .bool value
  | .null => .null
  | .array items => .array (profileCborItems items)
  | .map entries => canonicalMap (profileCborEntries entries)

def profileCborItems : List RemTarCborValue → List CborValue
  | [] => []
  | item::items => profileCborValue item::profileCborItems items

def profileCborEntries : List (String×RemTarCborValue) → List (String×CborValue)
  | [] => []
  | (key,value)::entries => (key,profileCborValue value)::profileCborEntries entries

end

def extensionMap (extensions : RemTarExtensions) : CborValue :=
  canonicalMap (profileCborEntries extensions.entries)

def canonicalNameValues (names : OrderedMap String Unit) : List CborValue :=
  (sortByCanonicalKey names.entries).map fun (name,_) => .text name

def xattrNamespace (name : String) : Option String :=
  if '.' ∈ name.toList then some (String.ofList (name.toList.takeWhile (· ≠ '.'))) else none

/-- Namespaces of a file's attributes, without the user namespace. -/
def addNamespaces (names : OrderedMap String Unit) (xattrs : RemTarXattrs) : OrderedMap String Unit :=
  xattrs.keys.foldl (fun names name => match xattrNamespace name with
    | some space => if space="user" then names else names.insert space ()
    | none => names) names

def addExtensionNames (names : OrderedMap String Unit) (extensions : RemTarExtensions) :
    OrderedMap String Unit :=
  extensions.keys.foldl (fun names name => names.insert name ()) names

def metadataPreservationData (layout : RemTarFileLayout) : CborValue :=
  canonicalMap ((if layout.xattrs.entries=[] then [] else
      [("xattrs",canonicalMap (layout.xattrs.entries.map fun (name,value) => (name,.bytes value)))])++
    if layout.extensions.entries.isEmpty then [] else [("ext",extensionMap layout.extensions)])

def objectMetadata (options : RemTarObjectOptions) (files : List RemTarFileLayout) : CborValue :=
  let attributeNamespaces := files.foldl (fun names file => addNamespaces names file.xattrs) .empty
  let extensionNames := addExtensionNames
    (files.foldl (fun names file => addExtensionNames names file.extensions) .empty) options.extensions
  canonicalMap (
    (if attributeNamespaces.entries=[] then []
      else [("attribute_namespaces",.array (canonicalNameValues attributeNamespaces))])++
    (if extensionNames.entries=[] then []
      else [("extensions",.array (canonicalNameValues extensionNames))])++
    if options.extensions.entries.isEmpty then [] else [("ext",extensionMap options.extensions)])

def fileManifestEntry (layout : RemTarFileLayout) : CborValue :=
  canonicalMap ([
    ("chunk_count",.integer layout.chunkCount),
    ("executable",(layout.executable.map CborValue.bool).getD .null),
    ("file_id",.text layout.fileId),
    ("first_chunk_lba",(layout.firstChunkLba.map fun lba => CborValue.integer lba).getD .null),
    ("metadata_preservation_data",metadataPreservationData layout),
    ("path",.text layout.path),
    ("size_bytes",.integer layout.sizeBytes.toNat)]++
      (layout.fileSha256.map fun hash => ("file_sha256",CborValue.bytes hash.bytes)).toList++
      (layout.entryType.manifestValue.map fun kind => ("entry_type",CborValue.text kind)).toList++
      (layout.linkTarget.map fun target => ("link_target",CborValue.text target)).toList)

def manifestValue (options : RemTarObjectOptions) (files : List RemTarFileLayout) : CborValue :=
  canonicalMap [
    ("caller_object_id",.text options.callerObjectId),
    ("chunk_size",.integer options.chunkSize),
    ("external_references",.array []),
    ("file_entries",.array (files.map fileManifestEntry)),
    ("object_id",.text options.objectId),
    ("object_metadata",objectMetadata options files),
    ("schema_version",.integer 1)]

def manifestMaxDepth : ℕ := 8

/-- Reader over fixed bytes: its state is the position. -/
abbrev Decode (α : Type) := StateT ℕ (Except FormatError) α

namespace ProfileDecoder

def takeLen (bytes : Bytes) (len : ℕ) : Decode Bytes := fun pos => do
  rejectIf (2^64 ≤ pos+len) (.cbor "manifest offset overflow")
  rejectIf (bytes.length < pos+len) (.cbor "manifest item is truncated")
  return (slice bytes pos len,pos+len)

def takeOne (bytes : Bytes) : Decode UInt8 := fun pos =>
  match bytes[pos]? with
  | some byte => .ok (byte,pos+1)
  | none => .error (.cbor "manifest item is truncated")

def takeNumber (bytes : Bytes) (len shorter : ℕ) : Decode ℕ := do
  let digits ← takeLen bytes len
  if ofBeBytes digits ≤ shorter then throw (.cbor "manifest integer/length is not shortest")
  return ofBeBytes digits

/-- Number announced by the low bits of a first byte. -/
def takeInfo (bytes : Bytes) (info : ℕ) : Decode ℕ :=
  if info ≤ 23 then pure info
  else if info=24 then do
    let value := (←takeOne bytes).toNat
    if value < 24 then throw (.cbor "manifest integer/length is not shortest")
    return value
  else if info=25 then takeNumber bytes 2 0xff
  else if info=26 then takeNumber bytes 4 0xffff
  else if info=27 then takeNumber bytes 8 0xffffffff
  else throw (.cbor "manifest uses invalid additional info")

def readTypeLen (bytes : Bytes) : Decode (UInt8×ℕ) := do
  let first ← takeOne bytes
  let value ← takeInfo bytes (first&&&0x1f).toNat
  return (first>>>5,value)

def takeText (bytes : Bytes) (len : ℕ) (message : String) : Decode Bytes := do
  let text ← takeLen bytes len
  if (String.fromUTF8? ⟨text.toArray⟩).isNone then throw (.cbor message)
  return text

def repeatStep (step : Decode Unit) : ℕ → Decode Unit
  | 0 => pure ()
  | count+1 => do
    step
    repeatStep step count

def checkFileEntries (major : UInt8) (len : ℕ) : Except FormatError Unit := do
  rejectIf (major≠4) (.manifestInvalid "file_entries must be array")
  rejectIf (maxFileEntries < len) (.manifestInvalid "manifest file_entries exceeds MAX_FILE_ENTRIES")

def skipEntries (bytes : Bytes) (topLevel : Bool) (payload : UInt8 → ℕ → Decode Unit) :
    ℕ → Option Bytes → Decode Unit
  | 0,_ => pure ()
  | count+1,previous => do
    let start ← get
    let (major,len) ← readTypeLen bytes
    if major≠3 then throw (.cbor "manifest map key is not text")
    let key ← takeText bytes len "manifest map key is not UTF-8"
    let stop ← get
    let keyBytes := slice bytes start (stop-start)
    if ∃ before ∈ previous, keyBytes ≤ before then
      throw (.cbor "manifest map keys are not in deterministic order")
    let (valueMajor,valueLen) ← readTypeLen bytes
    if topLevel=true ∧ key=utf8 "file_entries" then checkFileEntries valueMajor valueLen
    payload valueMajor valueLen
    skipEntries bytes topLevel payload count (some keyBytes)

/-- Rest of an item behind its head, with this many levels left. -/
def skipItemPayload (bytes : Bytes) : ℕ → UInt8 → ℕ → Decode Unit
  | 0,_,_ => throw (.cbor "manifest nesting depth exceeds limit")
  | left+1,major,len =>
    if major=0 then pure ()
    else if major=2 then do
      let _ ← takeLen bytes len
    else if major=3 then do
      let _ ← takeText bytes len "manifest text string is not UTF-8"
    else if major=4 then
      repeatStep (do
        let (itemMajor,itemLen) ← readTypeLen bytes
        skipItemPayload bytes left itemMajor itemLen) len
    else if major=5 then
      skipEntries bytes (left+1=manifestMaxDepth) (skipItemPayload bytes left) len none
    else if major=7 ∧ 20 ≤ len ∧ len ≤ 22 then pure ()
    else throw (.cbor "manifest contains disallowed CBOR item")

def skipItem (bytes : Bytes) (left : ℕ) : Decode Unit := do
  let (major,len) ← readTypeLen bytes
  skipItemPayload bytes left major len

end ProfileDecoder

def validateManifestProfile (bytes : Bytes) : Except FormatError Unit := do
  let (_,pos) ← ProfileDecoder.skipItem bytes manifestMaxDepth 0
  rejectIf (pos≠bytes.length) (.cbor "manifest contains trailing bytes")

def encodeManifest (services : FormatServices) (options : RemTarObjectOptions)
    (files : List RemTarFileLayout) : Except FormatError Bytes := do
  let bytes ← (services.cbor.intoWriter (manifestValue options files)).mapError FormatError.cbor
  validateManifestProfile bytes
  return bytes

end Remanence.Format
