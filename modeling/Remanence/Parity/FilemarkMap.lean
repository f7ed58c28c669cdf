import Remanence.Foundation.Bytes
import Remanence.Foundation.Words
import Remanence.Parity.Scheme

/-!
# The filemark map

The map lists the tape files in order. A file of `n` blocks takes `n+1` physical positions, the
last one its filemark. Object files number their blocks with data ordinals; sidecar files name
the range they protect.
-/

namespace Remanence.Parity

open Foundation List

inductive TapeFileKind where
  | object
  | paritySidecar
  | parityMap
  | bootstrap
  | tapeIndexReplica
  | indexSeparationExtent
deriving Repr, DecidableEq

structure TapeFileMapEntry where
  tapeFileNumber : UInt64
  kind : TapeFileKind
  /-- Fixed-size records before the trailing filemark. -/
  blockCount : UInt64
  firstParityDataOrdinal : Option UInt64
  protectedOrdinalStart : Option UInt64
  protectedOrdinalEndExclusive : Option UInt64
  epochId : Option UInt64
deriving Repr, DecidableEq

def filemarkMapError (message : String) : ParityError := .filemarkMapReconstruct message

namespace TapeFileMapEntry

def object (tapeFileNumber blockCount firstParityDataOrdinal : UInt64) : TapeFileMapEntry :=
  ⟨tapeFileNumber,.object,blockCount,some firstParityDataOrdinal,none,none,none⟩

def paritySidecar (tapeFileNumber blockCount epochId protectedOrdinalStart
    protectedOrdinalEndExclusive : UInt64) : TapeFileMapEntry :=
  ⟨tapeFileNumber,.paritySidecar,blockCount,none,some protectedOrdinalStart,
    some protectedOrdinalEndExclusive,some epochId⟩

def bootstrap (tapeFileNumber blockCount : UInt64) : TapeFileMapEntry :=
  ⟨tapeFileNumber,.bootstrap,blockCount,none,none,none,none⟩

/-- Kind-specific fields of a row. -/
def validate (entry : TapeFileMapEntry) : Except ParityError Unit := do
  rejectIf (entry.blockCount=0)
    (filemarkMapError s!"tape file {entry.tapeFileNumber.toNat} has zero block_count")
  match entry.kind with
  | .object =>
    rejectIf (entry.firstParityDataOrdinal.isNone=true ∨ entry.protectedOrdinalStart.isSome=true ∨
        entry.protectedOrdinalEndExclusive.isSome=true ∨ entry.epochId.isSome=true)
      (filemarkMapError
        s!"object tape file {entry.tapeFileNumber.toNat} has invalid kind-specific fields")
  | .paritySidecar =>
    match entry.protectedOrdinalStart,entry.protectedOrdinalEndExclusive,entry.epochId with
    | some start,some stop,some _ =>
      rejectIf (entry.firstParityDataOrdinal.isSome=true ∨ stop ≤ start) (filemarkMapError
        s!"sidecar tape file {entry.tapeFileNumber.toNat} has invalid kind-specific fields")
    | _,_,_ => .error (filemarkMapError
        s!"sidecar tape file {entry.tapeFileNumber.toNat} is missing protected range or epoch_id")
  | .bootstrap =>
    rejectIf (entry.blockCount≠1 ∨ entry.firstParityDataOrdinal.isSome=true ∨
        entry.protectedOrdinalStart.isSome=true ∨
        entry.protectedOrdinalEndExclusive.isSome=true ∨ entry.epochId.isSome=true)
      (filemarkMapError
        s!"bootstrap tape file {entry.tapeFileNumber.toNat} has invalid kind-specific fields")
  | .parityMap | .tapeIndexReplica | .indexSeparationExtent =>
    rejectIf (entry.firstParityDataOrdinal.isSome=true ∨ entry.protectedOrdinalStart.isSome=true ∨
        entry.protectedOrdinalEndExclusive.isSome=true ∨ entry.epochId.isSome=true)
      (filemarkMapError (s!"structural control tape file {entry.tapeFileNumber.toNat} has "++
        "invalid kind-specific fields"))

end TapeFileMapEntry

structure MapCursor where
  nextObjectOrdinal : ℕ
  nextStart : Option ℕ
deriving Repr, DecidableEq

/-- One more file of the physical prefix; its filemark must fit 64 bits. -/
def pushPhysical (nextStart : Option ℕ) (blockCount : ℕ) : Option (Option ℕ) :=
  match nextStart with
  | some start =>
    if start+blockCount ≤ u64Max then
      some (if start+blockCount+1 ≤ u64Max then some (start+blockCount+1) else none)
    else none
  | none => none

def validateEntry (cursor : MapCursor) (entry : TapeFileMapEntry) (index : ℕ) :
    Except ParityError MapCursor := do
  rejectIf (entry.tapeFileNumber.toNat≠index) (filemarkMapError
    (s!"tape file numbers must be dense from 0: expected {index}, got "++
      s!"{entry.tapeFileNumber.toNat}"))
  entry.validate
  let nextStart ← orElseError (pushPhysical cursor.nextStart entry.blockCount.toNat)
    (filemarkMapError (s!"tape file {entry.tapeFileNumber.toNat} describes a record or filemark "++
      "position beyond u64 (REM-PARITY 7.2)"))
  rejectIf (index≠0 ∧ entry.kind=.bootstrap) (filemarkMapError
    "schema-major 2 filemark maps forbid Bootstrap outside tape file 0")
  if entry.kind=.object then
    let first ← orElseError entry.firstParityDataOrdinal
      (filemarkMapError "object entry missing first ordinal")
    rejectIf (first.toNat≠cursor.nextObjectOrdinal) (filemarkMapError
      (s!"object tape file {entry.tapeFileNumber.toNat} starts at ordinal {first.toNat}, "++
        s!"expected {cursor.nextObjectOrdinal}"))
    rejectIf (cursor.nextObjectOrdinal+entry.blockCount.toNat > u64Max)
      (filemarkMapError "total data ordinals overflow")
    return ⟨cursor.nextObjectOrdinal+entry.blockCount.toNat,nextStart⟩
  else return ⟨cursor.nextObjectOrdinal,nextStart⟩

def validateEntries (entries : List TapeFileMapEntry) : Except ParityError Unit := do
  let bot ← orElseError entries.head? (filemarkMapError
    "schema-major 2 filemark maps require the sole tape-file-0 BOT Bootstrap")
  rejectIf (bot.tapeFileNumber≠0 ∨ bot.kind≠.bootstrap ∨ bot.blockCount≠1) (filemarkMapError
    "schema-major 2 filemark maps require a one-block Bootstrap at tape file 0")
  let _ ← entries.zipIdx.foldlM (fun cursor (entry,index) => validateEntry cursor entry index)
    ⟨0,some 0⟩
  return ()

structure FilemarkMap where
  entries : List TapeFileMapEntry
  valid : validateEntries entries=.ok ()

structure TapeFilePosition where
  tapeFileNumber : ℕ
  blockWithinFile : ℕ
deriving Repr, DecidableEq

namespace FilemarkMap

def new (entries : List TapeFileMapEntry) : Except ParityError FilemarkMap :=
  match h : validateEntries entries with
  | .ok () => .ok ⟨entries,h⟩
  | .error error => .error error

def tapeFileCount (map : FilemarkMap) : ℕ := map.entries.length

def truncateToTapeFiles (map : FilemarkMap) (tapeFileCount : ℕ) :
    Except ParityError FilemarkMap := do
  rejectIf (tapeFileCount > map.entries.length) (filemarkMapError
    s!"prefix tape_file_count {tapeFileCount} exceeds map length {map.entries.length}")
  new (map.entries.take tapeFileCount)

def entry (map : FilemarkMap) (tapeFileNumber : ℕ) : Except ParityError TapeFileMapEntry :=
  orElseError ((map.entries[tapeFileNumber]?).filter fun e => e.tapeFileNumber.toNat=tapeFileNumber)
    (filemarkMapError s!"tape file {tapeFileNumber} is not described by the filemark map")

def entryAt (map : FilemarkMap) (position : TapeFilePosition) :
    Except ParityError TapeFileMapEntry := do
  let entry ← map.entry position.tapeFileNumber
  rejectIf (position.blockWithinFile ≥ entry.blockCount.toNat) (filemarkMapError
    (s!"block {position.blockWithinFile} is outside tape file {position.tapeFileNumber} with "++
      s!"block_count {entry.blockCount.toNat}"))
  return entry

def ordinalAt (map : FilemarkMap) (position : TapeFilePosition) :
    Except ParityError (Option ℕ) := do
  let entry ← map.entryAt position
  match entry.kind,entry.firstParityDataOrdinal with
  | .object,some first => return some (first.toNat+position.blockWithinFile)
  | _,_ => return none

def positionInEntries (ordinal : ℕ) : List TapeFileMapEntry → Except ParityError TapeFilePosition
  | [] => .error (filemarkMapError
      s!"ordinal {ordinal} is not described by the filemark map")
  | entry::rest =>
    match entry.firstParityDataOrdinal with
    | none => positionInEntries ordinal rest
    | some first =>
      if first.toNat+entry.blockCount.toNat > u64Max then
        .error (filemarkMapError
          s!"object tape file {entry.tapeFileNumber.toNat} ordinal range overflows")
      else if first.toNat ≤ ordinal ∧ ordinal < first.toNat+entry.blockCount.toNat then
        .ok ⟨entry.tapeFileNumber.toNat,ordinal-first.toNat⟩
      else positionInEntries ordinal rest

def positionForOrdinal (map : FilemarkMap) (ordinal : ℕ) : Except ParityError TapeFilePosition :=
  positionInEntries ordinal map.entries

def addPositions (acc : ℕ) (prior : TapeFileMapEntry) : Except ParityError ℕ :=
  if acc+prior.blockCount.toNat+1 ≤ u64Max then .ok (acc+prior.blockCount.toNat+1)
  else .error (filemarkMapError "physical position overflows u64")

def prefixPositions (entries : List TapeFileMapEntry) : Except ParityError ℕ :=
  entries.foldlM addPositions 0

def physicalPosition (map : FilemarkMap) (position : TapeFilePosition) : Except ParityError ℕ := do
  let _ ← map.entryAt position
  let start ← prefixPositions (map.entries.take position.tapeFileNumber)
  rejectIf (start+position.blockWithinFile > u64Max)
    (filemarkMapError "physical position overflows u64")
  return start+position.blockWithinFile

def objectOrdinalEndExclusive (entry : TapeFileMapEntry) : Option ℕ :=
  entry.firstParityDataOrdinal.bind fun first =>
    if first.toNat+entry.blockCount.toNat ≤ u64Max then some (first.toNat+entry.blockCount.toNat)
    else none

def totalDataOrdinals (map : FilemarkMap) : ℕ :=
  (map.entries.filterMap objectOrdinalEndExclusive).max?.getD 0

def maxSidecarEndExclusive (map : FilemarkMap) : ℕ :=
  (map.entries.filterMap fun entry =>
    entry.protectedOrdinalEndExclusive.map UInt64.toNat).max?.getD 0

end FilemarkMap

inductive MapScope where
  | complete (highestProtectedOrdinal : ℕ)
  | leading (mapTotalDataOrdinals highestProtectedOrdinal : ℕ)
deriving Repr, DecidableEq

namespace MapScope

def watermark : MapScope → ℕ
  | complete highestProtectedOrdinal => highestProtectedOrdinal
  | leading _ highestProtectedOrdinal => highestProtectedOrdinal

def recoverable (scope : MapScope) (ordinal : ℕ) : Except ParityError Unit := do
  match scope with
  | leading mapTotalDataOrdinals _ =>
    rejectIf (ordinal ≥ mapTotalDataOrdinals)
      (.outsideValidatedMapPrefix ordinal mapTotalDataOrdinals)
  | complete _ => pure ()
  rejectIf (ordinal ≥ scope.watermark) (.unrecoverablePendingEpoch ordinal scope.watermark)

end MapScope

structure SidecarEpochDirectoryEntry where
  tapeFileNumber : UInt64
  epochId : UInt64
  protectedOrdinalStart : UInt64
  protectedOrdinalEndExclusive : UInt64
  sidecarTotalBlockCount : UInt64
  sidecarHeaderBlockCount : UInt64
  parityShardBlockCount : UInt64
  canonicalMetadataHash : FixedBytes 32
  flags : UInt32
deriving DecidableEq

structure SidecarEpochDirectory where
  directoryScopeTapeFileCount : UInt64
  directoryScopeTotalDataOrdinals : UInt64
  directoryScopeHighestProtectedOrdinal : UInt64
  isFinalDirectory : Bool
  entries : List SidecarEpochDirectoryEntry
deriving DecidableEq

inductive MapSource where
  | catalog
  | terminalReplica
  | walk
deriving Repr, DecidableEq

structure ScopedFilemarkMap where
  map : FilemarkMap
  validatedPrefixTapeFiles : Option ℕ
  scope : MapScope
  sidecarDirectory : Option SidecarEpochDirectory
  mapSource : MapSource

def ScopedFilemarkMap.fromCatalog (map : FilemarkMap) (highestProtectedOrdinal : ℕ) :
    ScopedFilemarkMap :=
  ⟨map,none,.complete highestProtectedOrdinal,none,.catalog⟩

structure DurableBoundaryState where
  lastCommittedTapeFileNumber : Option ℕ
deriving Repr, DecidableEq

namespace DurableBoundaryState

def fromScopedMap (scopedMap : ScopedFilemarkMap) : Except ParityError DurableBoundaryState :=
  match scopedMap.validatedPrefixTapeFiles with
  | none => .ok ⟨scopedMap.map.entries.getLast?.map fun entry => entry.tapeFileNumber.toNat⟩
  | some 0 => .ok ⟨none⟩
  | some (expected+1) => do
    let entry ← orElseError scopedMap.map.entries[expected]? (filemarkMapError
      (s!"validated prefix tape_file_count {expected+1} exceeds map length "++
        s!"{scopedMap.map.entries.length}"))
    rejectIf (entry.tapeFileNumber.toNat≠expected) (filemarkMapError
      s!"validated prefix expected tape file {expected}, got {entry.tapeFileNumber.toNat}")
    return ⟨some entry.tapeFileNumber.toNat⟩

def containsCommittedTapeFile (boundary : DurableBoundaryState) (tapeFileNumber : ℕ) : Bool :=
  match boundary.lastCommittedTapeFileNumber with
  | some lastCommitted => tapeFileNumber ≤ lastCommitted
  | none => false

end DurableBoundaryState

/-- Positions of the files of a prefix as an exact number. -/
def prefixLength (entries : List TapeFileMapEntry) : ℕ :=
  (entries.map fun entry => entry.blockCount.toNat+1).sum

@[simp] theorem prefixLength_append (a b : List TapeFileMapEntry) :
    prefixLength (a++b)=prefixLength a+prefixLength b := by
  simp [prefixLength]

@[simp] theorem prefixLength_singleton (entry : TapeFileMapEntry) :
    prefixLength [entry]=entry.blockCount.toNat+1 := by
  simp [prefixLength]

theorem TapeFileMapEntry.kind_of_first {entry : TapeFileMapEntry} {first : UInt64}
    (h : entry.validate=.ok ()) (hfirst : entry.firstParityDataOrdinal=some first) :
    entry.kind=.object := by
  cases hkind : entry.kind with
  | object => rfl
  | paritySidecar =>
    simp only [TapeFileMapEntry.validate,hkind,hfirst,bind_eq_ok] at h
    obtain ⟨_,_,h⟩ := h
    split at h
    · simp at h
    · cases h
  | _ => simp [TapeFileMapEntry.validate,hkind,hfirst,rejectIf] at h

end Remanence.Parity
