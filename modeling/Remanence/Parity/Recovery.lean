import Remanence.Parity.Codec
import Remanence.Parity.FilemarkMap
import Remanence.Parity.Mapping
import Remanence.Parity.SidecarCodec

/-!
# Recovery of protected blocks from a sidecar

The tape is a function from physical addresses to records. Recovery locates the sidecar of an
ordinal, acquires its index from the footer, a directory entry or a copy on its own, reads the
members of the stripe with their CRCs, and reconstructs the block. The parser of a parity-map
file is a parameter.
-/

namespace Remanence.Parity.Recovery

open Foundation Sidecar Codec

inductive TapeRecord where
  | record (bytes : Bytes)
  | filemark
  | endOfData
  | unreadable (fault : TapeFault)
deriving Repr, DecidableEq

abbrev Tape := ℕ → TapeRecord

/-- Read of one block at an address; a record of another length is invalid
content. -/
def readRequiredBlock (tape : Tape) (lba blockSize : ℕ) : Except ParityError Bytes :=
  match tape lba with
  | .record bytes =>
    if bytes.length=blockSize then .ok bytes
    else .error (sidecarParse
      s!"recovery record is {bytes.length} bytes, not one {blockSize}-byte block")
  | .filemark => .error (sidecarParse "unexpected filemark while reading recovery block")
  | .endOfData => .error (sidecarParse "unexpected EOD while reading recovery block")
  | .unreadable fault => .error (.tapeIo fault)

def sidecarBlockError (sidecarEntry : TapeFileMapEntry) (blockWithinFile : ℕ) : ParityError :=
  sidecarParse (s!"could not read sidecar tape_file {sidecarEntry.tapeFileNumber.toNat} "++
    s!"block {blockWithinFile}")

def readSidecarBlock (tape : Tape) (scopedMap : ScopedFilemarkMap) (sidecarEntry : TapeFileMapEntry)
    (blockWithinFile blockSize : ℕ) : Except ParityError Bytes := do
  let physical ← scopedMap.map.physicalPosition
    ⟨sidecarEntry.tapeFileNumber.toNat,blockWithinFile⟩
  match readRequiredBlock tape physical blockSize with
  | .error (.tapeIo _) => .error (sidecarBlockError sidecarEntry blockWithinFile)
  | outcome => outcome

/-- Parser of a parity-map file with absent blocks, reduced to the directory. -/
abbrev ParityMapParser := List (Option Bytes) → FixedBytes 16 → Option SidecarEpochDirectory

/-- Medium damage and invalid content leave the block absent. -/
def readParityMapBlock (tape : Tape) (map : FilemarkMap) (entry : TapeFileMapEntry)
    (blockSize blockWithinFile : ℕ) : Except ParityError (Option Bytes) := do
  let physical ← map.physicalPosition ⟨entry.tapeFileNumber.toNat,blockWithinFile⟩
  match readRequiredBlock tape physical blockSize with
  | .ok block => return some block
  | .error (.tapeIo fault) =>
    if fault.currentMediumDamage then return none else .error (.tapeIo fault)
  | .error _ => return none

def readParityMapBlocks (tape : Tape) (map : FilemarkMap) (entry : TapeFileMapEntry)
    (blockSize : ℕ) : Except ParityError (List (Option Bytes)) :=
  (List.range entry.blockCount.toNat).mapM (readParityMapBlock tape map entry blockSize)

def readFinalSidecarDirectory (parse : ParityMapParser) (tape : Tape) (map : FilemarkMap)
    (tapeUuid : FixedBytes 16) (blockSize : ℕ) :
    Except ParityError (Option SidecarEpochDirectory) :=
  match map.entries.reverse.find? fun entry => entry.kind=.parityMap with
  | none => .ok none
  | some entry => do
    let blocks ← readParityMapBlocks tape map entry blockSize
    match parse blocks tapeUuid with
    | none => return none
    | some directory =>
      if directory.isFinalDirectory=false then return none
      else
        rejectIf (directory.directoryScopeTapeFileCount.toNat > map.tapeFileCount)
          .filemarkMapDigestMismatch
        return some directory

inductive SidecarMetadataHealth where
  | bothCopiesUsable
  | tailCopyLost
  | primaryHeaderLost
  | tailCopyNotRead
deriving Repr, DecidableEq

structure SidecarIndexRead where
  index : DecodedSidecarIndex
  metadataHealth : SidecarMetadataHealth
deriving DecidableEq

def sidecarMetadataUnavailableFromMapEntry (sidecarEntry : TapeFileMapEntry) : ParityError :=
  match sidecarEntry.epochId with
  | some epochId => .sidecarMetadataUnavailable epochId
  | none => sidecarParse
    s!"sidecar map entry {sidecarEntry.tapeFileNumber.toNat} is missing an epoch id"

def schemeParityBlocks (scheme : ParityScheme) : ℕ := scheme.stripes*scheme.m

/-- Header blocks and tail start that a total of `2H+P+1` blocks fixes. -/
def sidecarGeometryFromTotal (total parity : ℕ) : Option (ℕ×ℕ) :=
  if total < 1+parity then none
  else
    let rest := total-1-parity
    if rest%2≠0 ∨ rest=0 then none else some (rest/2,rest/2+parity)

inductive DirectoryEvidence where
  | absent
  | unavailable
  | available (entry : SidecarEpochDirectoryEntry)
deriving DecidableEq

def directoryEntryMatchesSidecar (entry : SidecarEpochDirectoryEntry)
    (sidecar : TapeFileMapEntry) : Bool :=
  sidecar.kind=.paritySidecar && entry.tapeFileNumber=sidecar.tapeFileNumber &&
    some entry.epochId=sidecar.epochId &&
    some entry.protectedOrdinalStart=sidecar.protectedOrdinalStart &&
    some entry.protectedOrdinalEndExclusive=sidecar.protectedOrdinalEndExclusive &&
    entry.sidecarTotalBlockCount=sidecar.blockCount

def directoryEntryAvailable (entry : SidecarEpochDirectoryEntry) (sidecar : TapeFileMapEntry)
    (parity : ℕ) : Bool :=
  directoryEntryMatchesSidecar entry sidecar && entry.sidecarHeaderBlockCount≠0 &&
    entry.sidecarHeaderBlockCount.toNat*2+parity+1=entry.sidecarTotalBlockCount.toNat

def classifyDirectory (sidecarEntry : TapeFileMapEntry) (parity : ℕ) :
    Option SidecarEpochDirectory → DirectoryEvidence
  | none => .absent
  | some directory =>
    if sidecarEntry.tapeFileNumber ≥ directory.directoryScopeTapeFileCount then .unavailable
    else
      match (directory.entries.find? fun entry =>
          entry.tapeFileNumber=sidecarEntry.tapeFileNumber).filter fun entry =>
            directoryEntryAvailable entry sidecarEntry parity with
      | some entry => .available entry
      | none => .unavailable

def directoryEvidence (scopedMap : ScopedFilemarkMap) (sidecarEntry : TapeFileMapEntry)
    (parity : ℕ) (tolerateFaults : Bool)
    (loaded : Except ParityError (Option SidecarEpochDirectory)) :
    Except ParityError DirectoryEvidence := do
  let cached ← (if scopedMap.sidecarDirectory.isNone then
      match loaded with
      | .ok directory => .ok directory
      | .error .filemarkMapDigestMismatch => .ok none
      | .error (.tapeIo fault) => if tolerateFaults then .ok none else .error (.tapeIo fault)
      | .error error => .error error
    else .ok none)
  return classifyDirectory sidecarEntry parity (scopedMap.sidecarDirectory.or cached)

def copyStartBlock (footer : SidecarFooter) : SidecarCopyKind → ℕ
  | .primary => footer.primaryHeaderStartBlock.toNat
  | .tail => footer.tailHeaderStartBlock.toNat

def directoryContradicts (footer : SidecarFooter) (parity : ℕ) : DirectoryEvidence → Bool
  | .available entry =>
    entry.canonicalMetadataHash≠footer.canonicalMetadataHash ||
      entry.sidecarHeaderBlockCount≠footer.sidecarHeaderBlockCount ||
      entry.sidecarHeaderBlockCount.toNat+parity≠footer.tailHeaderStartBlock.toNat
  | .absent => false
  | .unavailable => false

section Acquisition

variable (hash : HashFunctions) (tape : Tape) (scopedMap : ScopedFilemarkMap)
  (sidecarEntry : TapeFileMapEntry) (tapeUuid : FixedBytes 16) (blockSize : ℕ)

def readSidecarIndexCopy (footer : SidecarFooter) (expectedCopyKind : SidecarCopyKind) :
    Except ParityError DecodedSidecarIndex := do
  let startBlock := copyStartBlock footer expectedCopyKind
  let blocks ← (List.range footer.sidecarHeaderBlockCount.toNat).mapM fun offset => do
    rejectIf (startBlock+offset > u64Max) (.invariant "sidecar index block offset overflows")
    readSidecarBlock tape scopedMap sidecarEntry (startBlock+offset) blockSize
  let decoded ← parseSidecarIndexBlocks hash blocks tapeUuid
  rejectIf (decoded.header.copyKind≠expectedCopyKind) (sidecarParse
    s!"sidecar {expectedCopyKind.debug} copy decoded as {decoded.header.copyKind.debug}")
  rejectIf (decoded.header.sidecarTotalBlockCount≠footer.sidecarTotalBlockCount ∨
      decoded.header.shardIndexBlockCount≠footer.sidecarHeaderBlockCount ∨
      decoded.header.parityBlockCount≠footer.parityShardBlockCount ∨
      decoded.header.primaryHeaderStartBlock≠footer.primaryHeaderStartBlock ∨
      decoded.header.tailHeaderStartBlock≠footer.tailHeaderStartBlock ∨
      decoded.header.canonicalMetadataHash≠footer.canonicalMetadataHash)
    (sidecarParse "sidecar metadata copy does not match footer locator")
  return decoded

/-- The copies that were read, with their health. -/
def selectIndexCopy (primary tail : Except ParityError DecodedSidecarIndex) :
    Except ParityError SidecarIndexRead :=
  match primary,tail with
  | .ok primary,.ok _ => .ok ⟨primary,.bothCopiesUsable⟩
  | .ok primary,.error _ => .ok ⟨primary,.tailCopyLost⟩
  | .error _,.ok tail => .ok ⟨tail,.primaryHeaderLost⟩
  | .error _,.error _ => .error (sidecarMetadataUnavailableFromMapEntry sidecarEntry)

/-- A valid footer decides unless an available directory entry disagrees. -/
def readSidecarIndexByFooter (footer : SidecarFooter) (directory : DirectoryEvidence)
    (parity : ℕ) : Except ParityError SidecarIndexRead := do
  rejectIf (directoryContradicts footer parity directory=true)
    (sidecarMetadataUnavailableFromMapEntry sidecarEntry)
  let primary := readSidecarIndexCopy hash tape scopedMap sidecarEntry tapeUuid blockSize footer
    .primary
  let tail := readSidecarIndexCopy hash tape scopedMap sidecarEntry tapeUuid blockSize footer .tail
  selectIndexCopy sidecarEntry primary tail

def readPrimarySidecarIndexWithoutFooter : Except ParityError SidecarIndexRead := do
  let unavailable := sidecarMetadataUnavailableFromMapEntry sidecarEntry
  let block0 ← (match readSidecarBlock tape scopedMap sidecarEntry 0 blockSize with
    | .ok block => .ok block
    | .error _ => .error unavailable)
  let header ← (match parseSidecarHeaderBlock hash block0 tapeUuid with
    | .ok header => .ok header
    | .error _ => .error unavailable)
  rejectIf (header.copyKind≠.primary) unavailable
  rejectIf (sidecarEntry.blockCount≠header.sidecarTotalBlockCount) (sidecarParse
    (s!"sidecar map block_count {sidecarEntry.blockCount.toNat} does not match primary header "++
      s!"total {header.sidecarTotalBlockCount.toNat}"))
  let rest ← (List.range' 1 (header.shardIndexBlockCount.toNat-1)).mapM fun blockWithinFile =>
    readSidecarBlock tape scopedMap sidecarEntry blockWithinFile blockSize
  let decoded ← parseSidecarIndexBlocks hash (block0::rest) tapeUuid
  rejectIf (decoded.header.copyKind≠.primary)
    (sidecarParse "sidecar primary metadata copy decoded as non-primary")
  rejectIf (decoded.header.sidecarTotalBlockCount≠sidecarEntry.blockCount) (sidecarParse
    (s!"sidecar map block_count {sidecarEntry.blockCount.toNat} does not match decoded primary "++
      s!"total {decoded.header.sidecarTotalBlockCount.toNat}"))
  return ⟨decoded,.tailCopyNotRead⟩

def readTailCopyAt (startBlock headerBlockCount : ℕ) : Except ParityError DecodedSidecarIndex := do
  let blocks ← (List.range headerBlockCount).mapM fun offset => do
    let blockWithinFile := startBlock+offset
    rejectIf (blockWithinFile > u64Max) (.invariant "sidecar index block offset overflows")
    rejectIf (blockWithinFile ≥ sidecarEntry.blockCount.toNat)
      (sidecarParse "sidecar tail copy runs past the sidecar tape file")
    let physical ← scopedMap.map.physicalPosition
      ⟨sidecarEntry.tapeFileNumber.toNat,blockWithinFile⟩
    match readRequiredBlock tape physical blockSize with
    | .error (.tapeIo fault) =>
      if fault.currentMediumDamage then .error (sidecarBlockError sidecarEntry blockWithinFile)
      else .error (.tapeIo fault)
    | outcome => outcome
  let decoded ← parseSidecarIndexBlocks hash blocks tapeUuid
  rejectIf (decoded.header.copyKind≠.tail)
    (sidecarParse "sidecar tail copy decoded as a non-tail copy")
  rejectIf (decoded.header.sidecarTotalBlockCount≠sidecarEntry.blockCount) (sidecarParse
    (s!"sidecar map block_count {sidecarEntry.blockCount.toNat} does not match decoded tail "++
      s!"total {decoded.header.sidecarTotalBlockCount.toNat}"))
  return decoded

def rescueTailFromTerminalIndex (scheme : ParityScheme) :
    Except ParityError DecodedSidecarIndex := do
  let unavailable := sidecarMetadataUnavailableFromMapEntry sidecarEntry
  let (h,tailStart) ← orElseError
    (sidecarGeometryFromTotal sidecarEntry.blockCount.toNat (schemeParityBlocks scheme)) unavailable
  let decoded ← readTailCopyAt hash tape scopedMap sidecarEntry tapeUuid blockSize tailStart h
  rejectIf (decoded.header.shardIndexBlockCount.toNat≠h ∨
      some decoded.header.epochId≠sidecarEntry.epochId ∨
      some decoded.header.protectedOrdinalStart≠sidecarEntry.protectedOrdinalStart ∨
      some decoded.header.protectedOrdinalEndExclusive≠
        sidecarEntry.protectedOrdinalEndExclusive) unavailable
  return decoded

def readDirectoryTailIndex (entry : SidecarEpochDirectoryEntry) (parity : ℕ) :
    Except ParityError DecodedSidecarIndex := do
  let unavailable := sidecarMetadataUnavailableFromMapEntry sidecarEntry
  rejectIf (directoryEntryAvailable entry sidecarEntry parity=false) unavailable
  let h := entry.sidecarHeaderBlockCount.toNat
  let tailStart := h+parity
  let blocks ← (List.range h).mapM fun offset => do
    let physical ← scopedMap.map.physicalPosition
      ⟨sidecarEntry.tapeFileNumber.toNat,tailStart+offset⟩
    match readRequiredBlock tape physical blockSize with
    | .ok block => .ok block
    | .error (.tapeIo fault) =>
      if fault.currentMediumDamage then .error unavailable else .error (.tapeIo fault)
    | .error _ => .error unavailable
  let decoded ← parseSidecarIndexBlocks hash blocks tapeUuid
  rejectIf (decoded.header.copyKind≠.tail)
    (sidecarParse "sidecar tail rescue decoded a non-tail copy")
  rejectIf (decoded.header.canonicalMetadataHash≠entry.canonicalMetadataHash)
    (sidecarParse "sidecar tail copy metadata hash does not match the directory")
  rejectIf (decoded.header.sidecarTotalBlockCount≠entry.sidecarTotalBlockCount ∨
      decoded.header.shardIndexBlockCount.toNat≠h ∨
      decoded.header.parityBlockCount.toNat≠parity ∨ decoded.header.epochId≠entry.epochId ∨
      decoded.header.protectedOrdinalStart≠entry.protectedOrdinalStart ∨
      decoded.header.protectedOrdinalEndExclusive≠entry.protectedOrdinalEndExclusive) unavailable
  return decoded

/-- A rescue that validated no copy; device faults are reported as themselves. -/
def rescueFailure (error : ParityError) : ParityError :=
  match error with
  | .sidecarParse _ => sidecarMetadataUnavailableFromMapEntry sidecarEntry
  | .sidecarMetadataUnavailable _ => sidecarMetadataUnavailableFromMapEntry sidecarEntry
  | error => error

def rescued (outcome : Except ParityError DecodedSidecarIndex) :
    Except ParityError SidecarIndexRead :=
  match outcome with
  | .ok index => .ok ⟨index,.primaryHeaderLost⟩
  | .error error => .error (rescueFailure sidecarEntry error)

def readSidecarIndexWithoutFooter (scheme : ParityScheme) (directory : DirectoryEvidence) :
    Except ParityError SidecarIndexRead :=
  let unavailable := sidecarMetadataUnavailableFromMapEntry sidecarEntry
  let parity := schemeParityBlocks scheme
  let primary := readPrimarySidecarIndexWithoutFooter hash tape scopedMap sidecarEntry tapeUuid
    blockSize
  match directory with
  | .available entry =>
    let tailRescue := rescued sidecarEntry
      (readDirectoryTailIndex hash tape scopedMap sidecarEntry tapeUuid blockSize entry parity)
    match primary with
    | .ok read =>
      if read.index.header.canonicalMetadataHash=entry.canonicalMetadataHash then .ok read
      else tailRescue
    | .error _ => tailRescue
  | evidence =>
    match primary with
    | .ok read =>
      let h := read.index.header.shardIndexBlockCount.toNat
      match readTailCopyAt hash tape scopedMap sidecarEntry tapeUuid blockSize
          (min (h+parity) u64Max) h with
      | .ok tail =>
        if tail.header.canonicalMetadataHash≠read.index.header.canonicalMetadataHash ∨
            tail.index≠read.index.index then .error unavailable
        else .ok ⟨read.index,.bothCopiesUsable⟩
      | .error (.tapeIo fault) => .error (.tapeIo fault)
      | .error _ => .ok ⟨read.index,.tailCopyLost⟩
    | .error _ =>
      if evidence=.absent ∧ scopedMap.mapSource=.terminalReplica then
        rescued sidecarEntry
          (rescueTailFromTerminalIndex hash tape scopedMap sidecarEntry tapeUuid blockSize scheme)
      else .error unavailable

def readSidecarFooter : Option SidecarFooter :=
  match readSidecarBlock tape scopedMap sidecarEntry (sidecarEntry.blockCount.toNat-1) blockSize with
  | .error _ => none
  | .ok block =>
    match parseSidecarFooterBlock hash block tapeUuid with
    | .error _ => none
    | .ok footer => if footer.sidecarTotalBlockCount=sidecarEntry.blockCount then some footer else none

def readAndParseSidecarIndex (parse : ParityMapParser) (scheme : ParityScheme) :
    Except ParityError SidecarIndexRead := do
  rejectIf (sidecarEntry.blockCount=0) (sidecarParse
    s!"sidecar map entry {sidecarEntry.tapeFileNumber.toNat} has zero block_count")
  let parity := schemeParityBlocks scheme
  let loaded := readFinalSidecarDirectory parse tape scopedMap.map tapeUuid blockSize
  match readSidecarFooter hash tape scopedMap sidecarEntry tapeUuid blockSize with
  | some footer =>
    let directory ← directoryEvidence scopedMap sidecarEntry parity true loaded
    readSidecarIndexByFooter hash tape scopedMap sidecarEntry tapeUuid blockSize footer directory
      parity
  | none =>
    let directory ← directoryEvidence scopedMap sidecarEntry parity false loaded
    readSidecarIndexWithoutFooter hash tape scopedMap sidecarEntry tapeUuid blockSize scheme
      directory

end Acquisition

def debugOption : Option UInt64 → String
  | some value => s!"Some({value.toNat})"
  | none => "None"

def validateSidecarForRecovery (sidecar : DecodedSidecarIndex) (sidecarEntry : TapeFileMapEntry)
    (scheme : ParityScheme) (epochId : UInt64) (blockSize : UInt32) : Except ParityError Unit := do
  let header := sidecar.header
  rejectIf (header.epochId≠epochId) (sidecarParse
    s!"sidecar epoch {header.epochId.toNat} does not match failed epoch {epochId.toNat}")
  let descriptorRealDataShards ← orElseError
    (checkedSub64 header.protectedOrdinalEndExclusive header.protectedOrdinalStart)
    (.invariant "sidecar protected range underflows")
  rejectIf (header.realDataShardCount≠descriptorRealDataShards) (sidecarParse
    (s!"sidecar real_data_shard_count {header.realDataShardCount.toNat} does not match "++
      s!"descriptor range length {descriptorRealDataShards.toNat}"))
  rejectIf (sidecarEntry.protectedOrdinalStart≠some header.protectedOrdinalStart ∨
      sidecarEntry.protectedOrdinalEndExclusive≠some header.protectedOrdinalEndExclusive)
    (.schemeMismatch
      (s!"ordinals {header.protectedOrdinalStart.toNat}.."++
        s!"{header.protectedOrdinalEndExclusive.toNat}")
      (s!"ordinals {debugOption sidecarEntry.protectedOrdinalStart}.."++
        s!"{debugOption sidecarEntry.protectedOrdinalEndExclusive}"))
  rejectIf (header.k≠scheme.dataBlocksPerStripe ∨ header.m≠scheme.parityBlocksPerStripe ∨
      header.stripesPerEpoch≠scheme.stripesPerNeighborhood ∨ header.blockSize≠blockSize)
    (.schemeMismatch
      (s!"k={header.k.toNat} m={header.m.toNat} S={header.stripesPerEpoch.toNat} "++
        s!"block_size={header.blockSize.toNat}")
      (s!"k={scheme.k} m={scheme.m} S={scheme.stripes} block_size={blockSize.toNat}"))

def dataCrcForOrdinal (sidecar : DecodedSidecarIndex) (ordinal epochStart : ℕ) :
    Except ParityError UInt64 := do
  rejectIf (ordinal < epochStart ∨ ordinal ≥ sidecar.header.protectedOrdinalEndExclusive.toNat)
    (.invariant "requested ordinal is outside sidecar real-data range")
  orElseError sidecar.index.dataShardCrc64s[ordinal-epochStart]?
    (.invariant "sidecar data CRC entry missing")

def keepVerified (read : Except ParityError Bytes) (crc64 : Bytes → UInt64) (expected : UInt64) :
    Option Bytes :=
  match read with
  | .error _ => none
  | .ok block => if crc64 block≠expected then none else some block

/-- Data peer of a stripe; nothing when it is unreadable or fails its CRC. -/
def readVerifiedDataPeer (tape : Tape) (scopedMap : ScopedFilemarkMap)
    (sidecar : DecodedSidecarIndex) (ordinal epochStart blockSize : ℕ)
    (readBoundary : DurableBoundaryState) : Except ParityError (Option Bytes) := do
  let expectedCrc ← dataCrcForOrdinal sidecar ordinal epochStart
  let position ← scopedMap.map.positionForOrdinal ordinal
  if readBoundary.containsCommittedTapeFile position.tapeFileNumber then
    let physical ← scopedMap.map.physicalPosition position
    return keepVerified (readRequiredBlock tape physical blockSize) dataShardCrc64 expectedCrc
  else return none

/-- Parity peer of a stripe; nothing when it is unreadable or fails its CRC. -/
def readVerifiedParityPeer (tape : Tape) (scopedMap : ScopedFilemarkMap)
    (sidecarEntry : TapeFileMapEntry) (header : SidecarHeader) (entry : ParityShardIndexEntry)
    (blockSize : ℕ) : Except ParityError (Option Bytes) := do
  let blockWithinFile ← parityBlockPosition entry.stripeIndex entry.parityIndex
    header.stripesPerEpoch header.m header.shardIndexBlockCount
  let physical ← scopedMap.map.physicalPosition
    ⟨sidecarEntry.tapeFileNumber.toNat,blockWithinFile⟩
  return keepVerified (readRequiredBlock tape physical blockSize) parityShardCrc64
    entry.parityShardCrc64

/-- Missing members of a stripe. Every member has been attempted when they
are counted. -/
def lostShards (shards : List (Option Bytes)) (k : ℕ) : List StripePosition :=
  ((List.range shards.length).filter fun idx => (shards.getD idx none).isNone).map fun idx =>
    if idx < k then .data (UInt16.ofNat idx) else .parity (UInt16.ofNat (idx-k))

def findSidecarCoveringOrdinal (scopedMap : ScopedFilemarkMap) (ordinal : ℕ) :
    Except ParityError TapeFileMapEntry :=
  orElseError (scopedMap.map.entries.find? fun entry =>
      entry.kind=.paritySidecar &&
        match entry.protectedOrdinalStart,entry.protectedOrdinalEndExclusive with
        | some start,some stop => start.toNat ≤ ordinal && ordinal < stop.toNat
        | _,_ => false)
    (filemarkMapError s!"no parity sidecar range contains protected ordinal {ordinal}")

def sidecarRange (entry : TapeFileMapEntry) : Except ParityError (UInt64×UInt64×UInt64) :=
  let incomplete := filemarkMapError (s!"parity sidecar tape file {entry.tapeFileNumber.toNat} has "++
    "incomplete epoch range metadata")
  match entry.epochId,entry.protectedOrdinalStart,entry.protectedOrdinalEndExclusive with
  | some epochId,some start,some stop =>
    if start < stop then .ok (start,stop,epochId) else .error incomplete
  | _,_,_ => .error incomplete

def stripeForSidecarOrdinal (entry : TapeFileMapEntry) (ordinal : ℕ) (scheme : ParityScheme) :
    Except ParityError StripeAddress := do
  let (start,stop,epochId) ← (match entry.protectedOrdinalStart,entry.protectedOrdinalEndExclusive,
      entry.epochId with
    | some start,some stop,some epochId => .ok (start,stop,epochId)
    | _,_,_ => sidecarRange entry)
  let logicalDataShards := scheme.stripes*scheme.k
  let realDataShardCount ← orElseError
    ((checkedSub64 stop start).filter fun count => 1 ≤ count.toNat && count.toNat ≤ logicalDataShards)
    (.schemeMismatch s!"ordinals {start.toNat}..{stop.toNat}"
      s!"range length in 1..={logicalDataShards}")
  ordinalToStripeInEpoch ordinal epochId start.toNat realDataShardCount.toNat scheme

def ensureInsideDurableRecoveryBoundary (scopedMap : ScopedFilemarkMap)
    (readBoundary : DurableBoundaryState) (tapeFileNumber ordinal : ℕ) : Except ParityError Unit :=
  if readBoundary.containsCommittedTapeFile tapeFileNumber then .ok ()
  else
    match scopedMap.scope with
    | .leading mapTotalDataOrdinals _ =>
      .error (.outsideValidatedMapPrefix ordinal mapTotalDataOrdinals)
    | .complete _ => .error (.invariant
      "complete filemark map unexpectedly marked a tape file unvalidated")

structure SidecarRecoveryResult where
  failedOrdinal : ℕ
  stripe : StripeAddress
  sidecarTapeFileNumber : ℕ
  sidecarMetadataHealth : SidecarMetadataHealth
  recoveredBlock : Bytes
  lostShards : List StripePosition
deriving DecidableEq

/-- The failed member is missing, those past the protected end are zero, the others are verified. -/
def readDataMembers (tape : Tape) (scopedMap : ScopedFilemarkMap) (sidecar : DecodedSidecarIndex)
    (readBoundary : DurableBoundaryState) (scheme : ParityScheme) (failedStripe : StripeAddress)
    (failedDataIndex epochStart blockSize k : ℕ) : Except ParityError (List (Option Bytes)) :=
  (List.range k).mapM fun dataIndex =>
    if dataIndex=failedDataIndex then .ok none
    else do
      let shard ← stripeDataShardInEpoch
        ⟨failedStripe.neighborhood,failedStripe.stripeIndex,.data (UInt16.ofNat dataIndex)⟩
        epochStart sidecar.header.protectedOrdinalEndExclusive.toNat scheme
      match shard with
      | .implicitZero => return some (List.replicate blockSize 0)
      | .real ordinal =>
        readVerifiedDataPeer tape scopedMap sidecar ordinal epochStart blockSize readBoundary

def readParityMembers (tape : Tape) (scopedMap : ScopedFilemarkMap)
    (sidecarEntry : TapeFileMapEntry) (sidecar : DecodedSidecarIndex) (failedStripe : StripeAddress)
    (blockSize m : ℕ) : Except ParityError (List (Option Bytes)) :=
  (List.range m).mapM fun parityIndex =>
    match sidecar.index.parityEntries.find? fun entry =>
        entry.stripeIndex=failedStripe.stripeIndex && entry.parityIndex=UInt16.ofNat parityIndex with
    | some entry =>
      readVerifiedParityPeer tape scopedMap sidecarEntry sidecar.header entry blockSize
    | none => .ok none

def dataIndexOf (stripe : StripeAddress) : Except ParityError ℕ :=
  match stripe.position with
  | .data index => .ok index.toNat
  | .parity _ => .error (.invariant "ordinal_to_stripe returned a parity address")

/-- The members are read, the missing ones reconstructed, and the failed block is checked. -/
def rebuildOrdinal (codec : ReedSolomonCodec) (scopedMap : ScopedFilemarkMap)
    (sidecarEntry : TapeFileMapEntry) (sidecar : SidecarIndexRead)
    (failedPosition : TapeFilePosition) (failedStripe : StripeAddress)
    (failedOrdinal failedDataIndex epochStart blockSize : ℕ) (shards : List (Option Bytes)) :
    Except ParityError SidecarRecoveryResult := do
  let surviving := (shards.filter Option.isSome).length
  let lost := lostShards shards codec.k
  rejectIf (surviving < codec.k) (.unrecoverable failedStripe lost.length codec.m)
  let rebuilt ← codec.reconstruct shards
  let recovered ← orElseError (rebuilt.getD failedDataIndex none)
    (.invariant "reconstruct did not fill failed shard")
  rejectIf (recovered.length≠blockSize)
    (.invariant "reconstructed shard length does not match fixed block size")
  let expectedCrc ← dataCrcForOrdinal sidecar.index failedOrdinal epochStart
  rejectIf (dataShardCrc64 recovered≠expectedCrc)
    (.unrecoverable failedStripe lost.length codec.m)
  let _ ← scopedMap.map.physicalPosition failedPosition
  return ⟨failedOrdinal,failedStripe,sidecarEntry.tapeFileNumber.toNat,sidecar.metadataHealth,
    recovered,lost⟩

def recoverOrdinalFromSidecar (hash : HashFunctions) (parse : ParityMapParser) (tape : Tape)
    (scopedMap : ScopedFilemarkMap) (scheme : ParityScheme) (tapeUuid : FixedBytes 16)
    (blockSize : UInt32) (failedOrdinal : ℕ) :
    Except ParityError SidecarRecoveryResult := do
  let readBoundary ← DurableBoundaryState.fromScopedMap scopedMap
  scopedMap.scope.recoverable failedOrdinal
  let failedPosition ← scopedMap.map.positionForOrdinal failedOrdinal
  ensureInsideDurableRecoveryBoundary scopedMap readBoundary failedPosition.tapeFileNumber
    failedOrdinal
  let sidecarEntry ← findSidecarCoveringOrdinal scopedMap failedOrdinal
  let (epochStart,_,epochId) ← sidecarRange sidecarEntry
  ensureInsideDurableRecoveryBoundary scopedMap readBoundary sidecarEntry.tapeFileNumber.toNat
    failedOrdinal
  let sidecar ← readAndParseSidecarIndex hash tape scopedMap sidecarEntry tapeUuid blockSize.toNat
    parse scheme
  validateSidecarForRecovery sidecar.index sidecarEntry scheme epochId blockSize
  let failedStripe ← stripeForSidecarOrdinal sidecarEntry failedOrdinal scheme
  let failedDataIndex ← dataIndexOf failedStripe
  let codec ← ReedSolomonCodec.new scheme
  let k := codec.k
  let m := codec.m
  let dataShards ← readDataMembers tape scopedMap sidecar.index readBoundary scheme failedStripe
    failedDataIndex epochStart.toNat blockSize.toNat k
  let parityShards ← readParityMembers tape scopedMap sidecarEntry sidecar.index failedStripe
    blockSize.toNat m
  rebuildOrdinal codec scopedMap sidecarEntry sidecar failedPosition failedStripe failedOrdinal
    failedDataIndex epochStart.toNat blockSize.toNat (dataShards++parityShards)

end Remanence.Parity.Recovery
