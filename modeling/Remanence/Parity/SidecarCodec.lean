import Remanence.Parity.Sidecar

/-!
# Encoding and parsing of sidecar tape files

Field offsets, check order and error texts follow the source. A write
`block[a..b].copy_from_slice(x)` is a field of `writeFields`; a range read is a `slice`.
Conversions to `usize` never fail on a 64-bit host.
-/

namespace Remanence.Parity.Sidecar

open Foundation Crc64

variable (hash : HashFunctions)

def deriveMagic (tapeUuid : FixedBytes 16) (message : Bytes) : FixedBytes 8 :=
  FixedBytes.read 8 (hash.hmacSha256 tapeUuid.bytes message).bytes 0

def deriveSidecarMagic (tapeUuid : FixedBytes 16) : FixedBytes 8 :=
  deriveMagic hash tapeUuid sidecarMagicMessage

def deriveSidecarFooterMagic (tapeUuid : FixedBytes 16) : FixedBytes 8 :=
  deriveMagic hash tapeUuid sidecarFooterMagicMessage

def parityShardCrc64 (shard : Bytes) : UInt64 := crc64Xz shard

def dataShardCrc64 (block : Bytes) : UInt64 := crc64Xz block

def parityBlockPosition (stripeIndex : UInt32) (parityIndex : UInt16) (stripesPerEpoch : UInt32)
    (parityBlocksPerStripe : UInt16) (shardIndexBlockCount : UInt64) : Except ParityError ℕ := do
  rejectIf (stripeIndex ≥ stripesPerEpoch) (sidecarParse "parity stripe index must be below scheme S")
  rejectIf (parityIndex ≥ parityBlocksPerStripe)
    (sidecarParse "parity index must be below scheme m")
  checkedU64 (shardIndexBlockCount.toNat+parityIndex.toNat*stripesPerEpoch.toNat+stripeIndex.toNat)
    "sidecar parity block position overflows u64"

structure HeaderCounts where
  k : UInt16
  m : UInt16
  stripesPerEpoch : UInt32
  protectedOrdinalStart : UInt64
  protectedOrdinalEndExclusive : UInt64
  logicalShardCount : UInt64
  realDataShardCount : UInt64
  parityBlockCount : UInt64
  dataCrcCount : UInt64
  shardIndexBlockCount : UInt64
  sidecarTotalBlockCount : UInt64
  primaryHeaderStartBlock : UInt64
  tailHeaderStartBlock : UInt64
  footerBlockIndex : UInt64
  copyGeneration : UInt32

def checkedSidecarTotalBlocks (h p : UInt64) : Except ParityError UInt64 :=
  orElseError ((checkedAdd64 h p).bind fun v => (checkedAdd64 v h).bind fun v => checkedAdd64 v 1)
    (sidecarParse "sidecar total block count overflows")

def checkedSidecarShardProduct (stripes shards : UInt64) : Except ParityError UInt64 :=
  orElseError (checkedMul64 stripes shards) (sidecarParse "sidecar shard product overflows")

def validateShardCounts (counts : HeaderCounts) : Except ParityError Unit := do
  rejectIf (counts.k=0 ∨ counts.m=0 ∨ counts.stripesPerEpoch=0)
    (sidecarParse "sidecar k, m, and S must all be non-zero")
  let rangeLen ← orElseError
    (checkedSub64 counts.protectedOrdinalEndExclusive counts.protectedOrdinalStart)
    (sidecarParse "sidecar protected ordinal range is inverted")
  rejectIf (rangeLen=0) (sidecarParse "sidecar protects zero real ordinals")
  let expectedLogical := counts.stripesPerEpoch.toNat*counts.k.toNat
  rejectIf (counts.logicalShardCount.toNat≠expectedLogical) (sidecarParse
    s!"sidecar logical_shard_count {counts.logicalShardCount.toNat} != S*k {expectedLogical}")
  rejectIf (counts.realDataShardCount≠rangeLen) (sidecarParse
    s!"sidecar real_data_shard_count {counts.realDataShardCount.toNat} != range length {rangeLen.toNat}")
  rejectIf (counts.realDataShardCount > counts.logicalShardCount)
    (sidecarParse "sidecar real data count exceeds logical shard count")
  let product ← checkedSidecarShardProduct counts.stripesPerEpoch.toUInt64 counts.m.toUInt64
  rejectIf (product.toNat > u32Max) (sidecarParse "sidecar parity block count overflows u32")
  let expectedParity := product
  rejectIf (counts.parityBlockCount≠expectedParity) (sidecarParse
    s!"sidecar parity_block_count {counts.parityBlockCount.toNat} != S*m {expectedParity.toNat}")
  let expectedDataCrcCount := counts.realDataShardCount
  rejectIf (counts.dataCrcCount≠expectedDataCrcCount) (sidecarParse
    s!"sidecar data_crc_count {counts.dataCrcCount.toNat} != real data count {expectedDataCrcCount.toNat}")
  rejectIf (counts.copyGeneration≠0)
    (sidecarParse s!"unsupported sidecar copy_generation: {counts.copyGeneration.toNat}")

def validateSidecarLayout (shardIndexBlockCount parityBlockCount sidecarTotalBlockCount
    primaryHeaderStartBlock tailHeaderStartBlock footerBlockIndex : UInt64) :
    Except ParityError Unit := do
  rejectIf (shardIndexBlockCount=0) (sidecarParse "sidecar header block count is zero")
  rejectIf (primaryHeaderStartBlock≠0) (sidecarParse
    s!"sidecar primary_header_start_block {primaryHeaderStartBlock.toNat} != 0")
  let expectedTail ← orElseError (checkedAdd64 shardIndexBlockCount parityBlockCount)
    (sidecarParse "sidecar tail header start overflows")
  rejectIf (tailHeaderStartBlock≠expectedTail) (sidecarParse
    s!"sidecar tail_header_start_block {tailHeaderStartBlock.toNat} != expected {expectedTail.toNat}")
  let expectedFooter ← orElseError (checkedAdd64 expectedTail shardIndexBlockCount)
    (sidecarParse "sidecar footer block index overflows")
  rejectIf (footerBlockIndex≠expectedFooter) (sidecarParse
    s!"sidecar footer_block_index {footerBlockIndex.toNat} != expected {expectedFooter.toNat}")
  let expectedTotal ← checkedSidecarTotalBlocks shardIndexBlockCount parityBlockCount
  rejectIf (sidecarTotalBlockCount≠expectedTotal) (sidecarParse
    s!"sidecar_total_block_count {sidecarTotalBlockCount.toNat} != expected {expectedTotal.toNat}")

def validateHeaderCounts (counts : HeaderCounts) : Except ParityError Unit := do
  validateShardCounts counts
  validateSidecarLayout counts.shardIndexBlockCount counts.parityBlockCount
    counts.sidecarTotalBlockCount counts.primaryHeaderStartBlock counts.tailHeaderStartBlock
    counts.footerBlockIndex

namespace SidecarDescriptor

def rangeLen (descriptor : SidecarDescriptor) : Except ParityError UInt64 :=
  orElseError
    (checkedSub64 descriptor.protectedOrdinalEndExclusive descriptor.protectedOrdinalStart)
    (sidecarParse "sidecar protected ordinal range is inverted")

def parityBlockCount (descriptor : SidecarDescriptor) : Except ParityError UInt32 :=
  orElseError (checkedMul32 descriptor.stripesPerEpoch descriptor.m.toUInt32)
    (sidecarParse "sidecar parity block count overflows u32")

/-- Padded data width `S*k`; 48 bits never overflow. -/
def logicalShardCount (descriptor : SidecarDescriptor) : UInt64 :=
  descriptor.stripesPerEpoch.toUInt64*descriptor.k.toUInt64

end SidecarDescriptor

/-- Validation of a writer's descriptor; returns the block size. -/
def validateDescriptor (descriptor : SidecarDescriptor) : Except ParityError ℕ := do
  let blockSize := descriptor.blockSize.toNat
  rejectIf (blockSize < sidecarHeaderLen+8)
    (sidecarParse "sidecar block_size smaller than header plus trailing CRC")
  let realDataShardCount ← descriptor.rangeLen
  let parityBlockCount ← descriptor.parityBlockCount
  let dataCrcCount ← descriptor.rangeLen
  validateShardCounts
    { k := descriptor.k,m := descriptor.m,stripesPerEpoch := descriptor.stripesPerEpoch,
      protectedOrdinalStart := descriptor.protectedOrdinalStart,
      protectedOrdinalEndExclusive := descriptor.protectedOrdinalEndExclusive,
      logicalShardCount := descriptor.logicalShardCount,
      realDataShardCount := realDataShardCount,parityBlockCount := parityBlockCount.toUInt64,
      dataCrcCount := dataCrcCount,shardIndexBlockCount := 1,sidecarTotalBlockCount := 0,
      primaryHeaderStartBlock := 0,tailHeaderStartBlock := 0,footerBlockIndex := 0,
      copyGeneration := 0 }
  return blockSize

def validateIndexShape (descriptor : SidecarDescriptor) (index : SidecarIndex) :
    Except ParityError Unit := do
  let expectedParity := (← descriptor.parityBlockCount).toNat
  rejectIf (index.parityEntries.length≠expectedParity) (sidecarParse
    s!"sidecar parity index has {index.parityEntries.length} entries, expected {expectedParity}")
  let expectedData := (← descriptor.rangeLen).toNat
  rejectIf (index.dataShardCrc64s.length≠expectedData) (sidecarParse
    s!"sidecar data CRC index has {index.dataShardCrc64s.length} entries, expected {expectedData}")
  index.parityEntries.zipIdx.forM fun (entry,i) => do
    let expectedStripe := UInt32.ofNat (i/descriptor.m.toNat)
    let expectedParity := UInt16.ofNat (i%descriptor.m.toNat)
    rejectIf (entry.stripeIndex≠expectedStripe ∨ entry.parityIndex≠expectedParity) (sidecarParse
      (s!"sidecar parity index entry {i} is ({entry.stripeIndex.toNat}, {entry.parityIndex.toNat})"++
        s!", expected ({expectedStripe.toNat}, {expectedParity.toNat})"))

def SidecarHeader.descriptor (header : SidecarHeader) : SidecarDescriptor :=
  ⟨header.tapeUuid,header.epochId,header.k,header.m,header.stripesPerEpoch,header.blockSize,
    header.protectedOrdinalStart,header.protectedOrdinalEndExclusive⟩

def validateIndexOrder (header : SidecarHeader) (index : SidecarIndex) : Except ParityError Unit :=
  validateIndexShape header.descriptor index

def parityEntryBytes (entry : ParityShardIndexEntry) : Bytes :=
  u32Le entry.stripeIndex++u16Le entry.parityIndex++u16Le 0++u64Le entry.parityShardCrc64

/-- Hash of the metadata both copies share, without copy-local fields. -/
def computeCanonicalMetadataHash (descriptor : SidecarDescriptor) (index : SidecarIndex)
    (shardIndexBlockCount inlineIndexEntryBytes : UInt64) : Except ParityError (FixedBytes 32) := do
  let realDataShardCount ← descriptor.rangeLen
  let parityBlockCount := (← descriptor.parityBlockCount).toUInt64
  let logicalShardCount := descriptor.logicalShardCount
  let tailHeaderStartBlock ← orElseError (checkedAdd64 shardIndexBlockCount parityBlockCount)
    (sidecarParse "sidecar tail header start overflows")
  let footerBlockIndex ← orElseError (checkedAdd64 tailHeaderStartBlock shardIndexBlockCount)
    (sidecarParse "sidecar footer block index overflows")
  let sidecarTotalBlockCount ← checkedSidecarTotalBlocks shardIndexBlockCount parityBlockCount
  let dataCrcCount := realDataShardCount
  return hash.sha256 (sidecarMetadataHashDomain++(deriveSidecarMagic hash descriptor.tapeUuid).bytes++
    descriptor.tapeUuid.bytes++u64Le descriptor.epochId++u16Le descriptor.k++u16Le descriptor.m++
    u32Le descriptor.stripesPerEpoch++u32Le descriptor.blockSize++u32Le sidecarSchemaVersion++
    u64Le descriptor.protectedOrdinalStart++u64Le descriptor.protectedOrdinalEndExclusive++
    u64Le logicalShardCount++u64Le realDataShardCount++u64Le parityBlockCount++
    u64Le dataCrcCount++u64Le shardIndexBlockCount++u64Le inlineIndexEntryBytes++
    u64Le sidecarTotalBlockCount++u64Le 0++u64Le tailHeaderStartBlock++u64Le footerBlockIndex++
    (index.parityEntries.map parityEntryBytes).flatten++(index.dataShardCrc64s.map u64Le).flatten)

def buildHeader (descriptor : SidecarDescriptor)
    (shardIndexBlockCount inlineIndexEntryBytes : UInt64) (copyKind : SidecarCopyKind)
    (canonicalMetadataHash : FixedBytes 32) : Except ParityError SidecarHeader := do
  let realDataShardCount ← descriptor.rangeLen
  let parityBlockCount := (← descriptor.parityBlockCount).toUInt64
  let dataCrcCount := realDataShardCount
  let tailHeaderStartBlock ← orElseError (checkedAdd64 shardIndexBlockCount parityBlockCount)
    (sidecarParse "sidecar tail header start overflows")
  let footerBlockIndex ← orElseError (checkedAdd64 tailHeaderStartBlock shardIndexBlockCount)
    (sidecarParse "sidecar footer block index overflows")
  let sidecarTotalBlockCount ← checkedSidecarTotalBlocks shardIndexBlockCount parityBlockCount
  return {
    magic := deriveSidecarMagic hash descriptor.tapeUuid
    tapeUuid := descriptor.tapeUuid
    epochId := descriptor.epochId
    k := descriptor.k
    m := descriptor.m
    stripesPerEpoch := descriptor.stripesPerEpoch
    blockSize := descriptor.blockSize
    schemaVersion := sidecarSchemaVersion
    protectedOrdinalStart := descriptor.protectedOrdinalStart
    protectedOrdinalEndExclusive := descriptor.protectedOrdinalEndExclusive
    logicalShardCount := descriptor.logicalShardCount
    realDataShardCount := realDataShardCount
    parityBlockCount := parityBlockCount
    dataCrcCount := dataCrcCount
    shardIndexBlockCount := shardIndexBlockCount
    inlineIndexEntryBytes := inlineIndexEntryBytes
    sidecarTotalBlockCount := sidecarTotalBlockCount
    primaryHeaderStartBlock := 0
    tailHeaderStartBlock := tailHeaderStartBlock
    footerBlockIndex := footerBlockIndex
    copyKind := copyKind
    copyGeneration := 0
    canonicalMetadataHash := canonicalMetadataHash
    headerCrc64 := 0
    block0Crc64 := 0 }

def headerFields (header : SidecarHeader) : List (ℕ×Bytes) :=
  [(0x00,header.magic.bytes),(0x08,header.tapeUuid.bytes),(0x18,u64Le header.epochId),
    (0x20,u16Le header.k),(0x22,u16Le header.m),(0x24,u32Le header.stripesPerEpoch),
    (0x28,u32Le header.blockSize),(0x2C,u32Le header.schemaVersion),
    (0x30,u64Le header.protectedOrdinalStart),(0x38,u64Le header.protectedOrdinalEndExclusive),
    (0x40,u64Le header.logicalShardCount),(0x48,u64Le header.realDataShardCount),
    (0x50,u64Le header.parityBlockCount),(0x58,u64Le header.dataCrcCount),
    (0x60,u64Le header.shardIndexBlockCount),(0x68,u64Le header.inlineIndexEntryBytes),
    (0x70,u64Le header.sidecarTotalBlockCount),(0x78,u64Le header.primaryHeaderStartBlock),
    (0x80,u64Le header.tailHeaderStartBlock),(0x88,u64Le header.footerBlockIndex),
    (0x90,u16Le header.copyKind.toU16),(0x92,u16Le 0),(0x94,u32Le header.copyGeneration),
    (0x98,header.canonicalMetadataHash.bytes),(0xB8,u64Le 0)]

/-- Header fields written over zeroes, then the header CRC, then the block
CRC. -/
def finalizeHeaderBlock (header : SidecarHeader) (block0 : Bytes) : SidecarHeader×Bytes :=
  let cleared := writeAt block0 0 (List.replicate sidecarHeaderLen 0)
  let written := writeFields cleared (headerFields header)
  let headerCrc64 := crc64Xz (written.take sidecarHeaderCrcOffset)
  let withHeaderCrc := writeAt written sidecarHeaderCrcOffset (u64Le headerCrc64)
  let crcOffset := block0.length-8
  let block0Crc64 := crc64Xz (withHeaderCrc.take crcOffset)
  ({ header with headerCrc64 := headerCrc64,block0Crc64 := block0Crc64 },
    writeAt withHeaderCrc crcOffset (u64Le block0Crc64))

def writeTrailingCrc (block : Bytes) : Bytes :=
  let crcOffset := block.length-8
  writeAt block crcOffset (u64Le (crc64Xz (block.take crcOffset)))

inductive EntryKind where
  | parity
  | data
deriving Repr, DecidableEq

def entryLen : EntryKind → ℕ
  | .parity => parityIndexEntryLen
  | .data => dataCrcEntryLen

def entryKinds (parityCount dataCount : ℕ) : List EntryKind :=
  List.replicate parityCount .parity++List.replicate dataCount .data

inductive IndexEntry where
  | parity (entry : ParityShardIndexEntry)
  | data (crc : UInt64)
deriving Repr, DecidableEq

namespace IndexEntry

def kind : IndexEntry → EntryKind
  | parity _ => .parity
  | data _ => .data

def bytes : IndexEntry → Bytes
  | parity entry => parityEntryBytes entry
  | data crc => u64Le crc

def len (entry : IndexEntry) : ℕ := entryLen entry.kind

end IndexEntry

def indexEntries (index : SidecarIndex) : List IndexEntry :=
  index.parityEntries.map .parity++index.dataShardCrc64s.map .data

def blockStart (blockIndex : ℕ) : ℕ := if blockIndex=0 then sidecarHeaderLen else 0

structure PackState where
  closed : List Bytes
  current : Bytes
  offset : ℕ
deriving Repr, DecidableEq

def openBlockFor (blockSize : ℕ) (state : PackState) (len : ℕ) : Except ParityError PackState :=
  if state.offset+len > blockSize-8 then do
    rejectIf (state.offset=blockStart state.closed.length) (sidecarParse
      s!"sidecar block_size {blockSize} cannot hold a {len}-byte index entry")
    let finished := if state.closed.length > 0 then writeTrailingCrc state.current else state.current
    return ⟨state.closed++[finished],List.replicate blockSize 0,0⟩
  else .ok state

def packEntry (blockSize : ℕ) (state : PackState) (entry : IndexEntry) :
    Except ParityError PackState := do
  let len := entry.len
  let state ← openBlockFor blockSize state len
  return ⟨state.closed,writeAt state.current state.offset entry.bytes,state.offset+len⟩

def packIndexBlocks (blockSize : ℕ) (index : SidecarIndex) : Except ParityError (List Bytes) := do
  let state ← (indexEntries index).foldlM (packEntry blockSize)
    ⟨[],List.replicate blockSize 0,sidecarHeaderLen⟩
  let blocks := state.closed++[state.current]
  return blocks.take 1++(blocks.drop 1).map writeTrailingCrc

def computeIndexLayout (blockSize parityCount dataCount : ℕ) :
    Except ParityError (UInt64×UInt64) := do
  let layout ← checkedSidecarIndexCapacityLayout blockSize parityCount dataCount
  return (UInt64.ofNat layout.blockCount,UInt64.ofNat layout.inlineEntryBytes)

def replaceFirst (blocks : List Bytes) (block0 : Bytes) : List Bytes := blocks.set 0 block0

def encodeSidecarIndexBlocks (descriptor : SidecarDescriptor) (index : SidecarIndex) :
    Except ParityError EncodedSidecarIndex := do
  let blockSize ← validateDescriptor descriptor
  validateIndexShape descriptor index
  let (expectedH,expectedInline) ← computeIndexLayout blockSize index.parityEntries.length
    index.dataShardCrc64s.length
  let blocks ← packIndexBlocks blockSize index
  let canonicalMetadataHash ←
    computeCanonicalMetadataHash hash descriptor index expectedH expectedInline
  let header ← buildHeader hash descriptor expectedH expectedInline .primary canonicalMetadataHash
  let (header,block0) := finalizeHeaderBlock header (blocks.headD [])
  return ⟨header,replaceFirst blocks block0⟩

def sidecarMetadata (descriptor : SidecarDescriptor) (parityShards : List Bytes)
    (dataShardCrc64s : List UInt64) : Except ParityError (EncodedSidecarIndex×SidecarIndex) := do
  let blockSize ← validateDescriptor descriptor
  let expectedParityShards := (← descriptor.parityBlockCount).toNat
  rejectIf (parityShards.length≠expectedParityShards) (sidecarParse
    s!"sidecar has {parityShards.length} parity shards, expected {expectedParityShards}")
  let parityEntries ← parityShards.zipIdx.mapM fun (shard,i) => do
    rejectIf (shard.length≠blockSize) (sidecarParse
      s!"sidecar parity shard {i} length {shard.length} != block_size {blockSize}")
    return (⟨UInt32.ofNat (i/descriptor.m.toNat),UInt16.ofNat (i%descriptor.m.toNat),
      parityShardCrc64 shard⟩ : ParityShardIndexEntry)
  let index : SidecarIndex := ⟨parityEntries,dataShardCrc64s⟩
  let encodedIndex ← encodeSidecarIndexBlocks hash descriptor index
  return (encodedIndex,index)

/-- State of the physical emission: blocks written so far and the shards not
yet moved out. -/
structure EmitState where
  blocks : List Bytes
  shards : List (Option Bytes)

def emitShard (descriptor : SidecarDescriptor) (shardIndexBlockCount : UInt64) (parityIndex : ℕ)
    (state : EmitState) (stripeIndex : ℕ) : Except ParityError EmitState := do
  let entryIndex := stripeIndex*descriptor.m.toNat+parityIndex
  let blockPosition ← parityBlockPosition (UInt32.ofNat stripeIndex) (UInt16.ofNat parityIndex)
    descriptor.stripesPerEpoch descriptor.m shardIndexBlockCount
  rejectIf (blockPosition≠state.blocks.length)
    (sidecarParse "sidecar parity locator disagrees with physical emission order")
  let shard ← orElseError (state.shards.getD entryIndex none)
    (.invariant "duplicate parity block position")
  return ⟨state.blocks++[shard],state.shards.set entryIndex none⟩

def emitShards (descriptor : SidecarDescriptor) (shardIndexBlockCount : UInt64)
    (state : EmitState) : Except ParityError EmitState :=
  (List.range descriptor.m.toNat).foldlM (fun state parityIndex =>
    (List.range descriptor.stripesPerEpoch.toNat).foldlM
      (emitShard descriptor shardIndexBlockCount parityIndex) state) state

def footerFields (header : SidecarHeader) : List (ℕ×Bytes) :=
  [(0x00,(deriveSidecarFooterMagic hash header.tapeUuid).bytes),
    (0x08,u16Le sidecarFooterVersion),(0x0A,u16Le 0),(0x0C,u32Le 0),
    (0x10,header.tapeUuid.bytes),(0x20,u64Le header.epochId),
    (0x28,u64Le header.protectedOrdinalStart),(0x30,u64Le header.protectedOrdinalEndExclusive),
    (0x38,u64Le header.shardIndexBlockCount),(0x40,u64Le header.parityBlockCount),
    (0x48,u64Le header.sidecarTotalBlockCount),(0x50,u64Le header.primaryHeaderStartBlock),
    (0x58,u64Le header.tailHeaderStartBlock),(0x60,header.canonicalMetadataHash.bytes)]

def encodeSidecarFooterBlock (header : SidecarHeader) : Except ParityError Bytes := do
  let blockSize := header.blockSize.toNat
  rejectIf (blockSize < sidecarFooterLen)
    (sidecarParse "sidecar block_size smaller than footer locator")
  let block := writeFields (List.replicate blockSize 0) (footerFields hash header)
  let crc := crc64Xz (block.take sidecarFooterCrcOffset)
  return writeAt block sidecarFooterCrcOffset (u64Le crc)

def encodeSidecarTapeFile (descriptor : SidecarDescriptor) (parityShards : List Bytes)
    (dataShardCrc64s : List UInt64) : Except ParityError EncodedSidecarTapeFile := do
  let (encodedIndex,index) ← sidecarMetadata hash descriptor parityShards dataShardCrc64s
  let emitted ← emitShards descriptor encodedIndex.header.shardIndexBlockCount
    ⟨encodedIndex.blocks,parityShards.map some⟩
  let blockSize := descriptor.blockSize.toNat
  let tailBlocks ← packIndexBlocks blockSize index
  let tailHeader ← buildHeader hash descriptor encodedIndex.header.shardIndexBlockCount
    encodedIndex.header.inlineIndexEntryBytes .tail encodedIndex.header.canonicalMetadataHash
  let (_,tailBlock0) := finalizeHeaderBlock tailHeader (tailBlocks.headD [])
  let footer ← encodeSidecarFooterBlock hash encodedIndex.header
  return ⟨encodedIndex.header,index,
    emitted.blocks++replaceFirst tailBlocks tailBlock0++[footer]⟩

def ensureZeroFilled (bytes : Bytes) (label : String) : Except ParityError Unit :=
  match bytes.findIdx? (· ≠ 0) with
  | some pos => .error (sidecarParse s!"{label} contains non-zero byte at offset {pos}")
  | none => .ok ()

def validateSpillBlockCrc (block : Bytes) (blockIndex : ℕ) : Except ParityError Unit :=
  let crcOffset := block.length-8
  let stored := readU64Le block crcOffset
  let computed := crc64Xz (block.take crcOffset)
  rejectIf (stored≠computed) (sidecarParse
    (s!"sidecar index block {blockIndex} CRC mismatch: stored 0x{hexPad 16 stored.toNat}, "++
      s!"computed 0x{hexPad 16 computed.toNat}"))

def parseSidecarHeaderBlock (block0 : Bytes) (expectedTapeUuid : FixedBytes 16) :
    Except ParityError SidecarHeader := do
  rejectIf (block0.length < sidecarHeaderLen+8) (sidecarParse
    s!"sidecar block0 too short: got {block0.length}, need at least {sidecarHeaderLen+8}")
  let magic := FixedBytes.read 8 block0 0x00
  rejectIf (magic≠deriveSidecarMagic hash expectedTapeUuid) (sidecarParse "sidecar magic mismatch")
  let tapeUuid := FixedBytes.read 16 block0 0x08
  rejectIf (tapeUuid≠expectedTapeUuid) (sidecarParse "sidecar tape UUID mismatch")
  let copyKind ← SidecarCopyKind.fromU16 (readU16Le block0 0x90)
  let copyKindReserved := readU16Le block0 0x92
  rejectIf (copyKindReserved≠0) (sidecarParse
    s!"sidecar copy-kind reserved field non-zero: 0x{hexPad 4 copyKindReserved.toNat}")
  let headerReserved := readU64Le block0 0xB8
  rejectIf (headerReserved≠0) (sidecarParse
    s!"sidecar header reserved field non-zero: 0x{hexPad 16 headerReserved.toNat}")
  let blockSizeUsize := (readU32Le block0 0x28).toNat
  let crcOffset := blockSizeUsize-8
  let header : SidecarHeader := {
    magic := magic
    tapeUuid := tapeUuid
    epochId := readU64Le block0 0x18
    k := readU16Le block0 0x20
    m := readU16Le block0 0x22
    stripesPerEpoch := readU32Le block0 0x24
    blockSize := readU32Le block0 0x28
    schemaVersion := readU32Le block0 0x2C
    protectedOrdinalStart := readU64Le block0 0x30
    protectedOrdinalEndExclusive := readU64Le block0 0x38
    logicalShardCount := readU64Le block0 0x40
    realDataShardCount := readU64Le block0 0x48
    parityBlockCount := readU64Le block0 0x50
    dataCrcCount := readU64Le block0 0x58
    shardIndexBlockCount := readU64Le block0 0x60
    inlineIndexEntryBytes := readU64Le block0 0x68
    sidecarTotalBlockCount := readU64Le block0 0x70
    primaryHeaderStartBlock := readU64Le block0 0x78
    tailHeaderStartBlock := readU64Le block0 0x80
    footerBlockIndex := readU64Le block0 0x88
    copyKind := copyKind
    copyGeneration := readU32Le block0 0x94
    canonicalMetadataHash := FixedBytes.read 32 block0 0x98
    headerCrc64 := readU64Le block0 sidecarHeaderCrcOffset
    block0Crc64 := readU64Le block0 crcOffset }
  rejectIf (header.schemaVersion≠sidecarSchemaVersion) (sidecarParse
    s!"unsupported sidecar schema version: got {header.schemaVersion.toNat}, accept {sidecarSchemaVersion.toNat}")
  rejectIf (blockSizeUsize≠block0.length) (sidecarParse
    s!"sidecar block_size {blockSizeUsize} does not match block0 length {block0.length}")
  rejectIf (blockSizeUsize < sidecarHeaderLen+8)
    (sidecarParse "sidecar block_size smaller than header plus trailing CRC")
  let computedHeaderCrc64 := crc64Xz (block0.take sidecarHeaderCrcOffset)
  rejectIf (header.headerCrc64≠computedHeaderCrc64) (sidecarParse
    (s!"sidecar header CRC mismatch: stored 0x{hexPad 16 header.headerCrc64.toNat}, "++
      s!"computed 0x{hexPad 16 computedHeaderCrc64.toNat}"))
  let computedBlock0Crc64 := crc64Xz (block0.take crcOffset)
  rejectIf (header.block0Crc64≠computedBlock0Crc64) (sidecarParse
    (s!"sidecar block0 CRC mismatch: stored 0x{hexPad 16 header.block0Crc64.toNat}, "++
      s!"computed 0x{hexPad 16 computedBlock0Crc64.toNat}"))
  validateHeaderCounts
    { k := header.k,m := header.m,stripesPerEpoch := header.stripesPerEpoch,
      protectedOrdinalStart := header.protectedOrdinalStart,
      protectedOrdinalEndExclusive := header.protectedOrdinalEndExclusive,
      logicalShardCount := header.logicalShardCount,
      realDataShardCount := header.realDataShardCount,
      parityBlockCount := header.parityBlockCount,dataCrcCount := header.dataCrcCount,
      shardIndexBlockCount := header.shardIndexBlockCount,
      sidecarTotalBlockCount := header.sidecarTotalBlockCount,
      primaryHeaderStartBlock := header.primaryHeaderStartBlock,
      tailHeaderStartBlock := header.tailHeaderStartBlock,
      footerBlockIndex := header.footerBlockIndex,copyGeneration := header.copyGeneration }
  let (expectedH,expectedInline) ← computeIndexLayout blockSizeUsize header.parityBlockCount.toNat
    header.dataCrcCount.toNat
  rejectIf (header.shardIndexBlockCount≠expectedH) (sidecarParse
    s!"sidecar shard_index_block_count {header.shardIndexBlockCount.toNat} != expected {expectedH.toNat}")
  rejectIf (header.inlineIndexEntryBytes≠expectedInline) (sidecarParse
    s!"sidecar inline_index_entry_bytes {header.inlineIndexEntryBytes.toNat} != expected {expectedInline.toNat}")
  let inlineEnd := sidecarHeaderLen+header.inlineIndexEntryBytes.toNat
  rejectIf (inlineEnd > crcOffset) (sidecarParse "sidecar inline index exceeds block0 capacity")
  ensureZeroFilled (slice block0 inlineEnd (crcOffset-inlineEnd)) "block0 index padding"
  return header

def parseSidecarFooterBlock (footerBlock : Bytes) (expectedTapeUuid : FixedBytes 16) :
    Except ParityError SidecarFooter := do
  rejectIf (footerBlock.length < sidecarFooterLen) (sidecarParse
    s!"sidecar footer block too short: got {footerBlock.length}, need at least {sidecarFooterLen}")
  let magic := FixedBytes.read 8 footerBlock 0x00
  rejectIf (magic≠deriveSidecarFooterMagic hash expectedTapeUuid)
    (sidecarParse "sidecar footer magic mismatch")
  let version := readU16Le footerBlock 0x08
  rejectIf (version≠sidecarFooterVersion) (sidecarParse
    s!"unsupported sidecar footer version: got {version.toNat}, accept {sidecarFooterVersion.toNat}")
  rejectIf (readU16Le footerBlock 0x0A≠0 ∨ readU32Le footerBlock 0x0C≠0)
    (sidecarParse "sidecar footer reserved fields are non-zero")
  let tapeUuid := FixedBytes.read 16 footerBlock 0x10
  rejectIf (tapeUuid≠expectedTapeUuid) (sidecarParse "sidecar footer tape UUID mismatch")
  let footer : SidecarFooter := {
    magic := magic
    sidecarFooterVersion := version
    tapeUuid := tapeUuid
    epochId := readU64Le footerBlock 0x20
    protectedOrdinalStart := readU64Le footerBlock 0x28
    protectedOrdinalEndExclusive := readU64Le footerBlock 0x30
    sidecarHeaderBlockCount := readU64Le footerBlock 0x38
    parityShardBlockCount := readU64Le footerBlock 0x40
    sidecarTotalBlockCount := readU64Le footerBlock 0x48
    primaryHeaderStartBlock := readU64Le footerBlock 0x50
    tailHeaderStartBlock := readU64Le footerBlock 0x58
    canonicalMetadataHash := FixedBytes.read 32 footerBlock 0x60
    footerCrc64 := readU64Le footerBlock sidecarFooterCrcOffset }
  let computed := crc64Xz (footerBlock.take sidecarFooterCrcOffset)
  rejectIf (footer.footerCrc64≠computed) (sidecarParse
    (s!"sidecar footer CRC mismatch: stored 0x{hexPad 16 footer.footerCrc64.toNat}, "++
      s!"computed 0x{hexPad 16 computed.toNat}"))
  ensureZeroFilled (footerBlock.drop sidecarFooterLen) "sidecar footer padding"
  let footerBlockIndex ← orElseError (checkedSub64 footer.sidecarTotalBlockCount 1)
    (sidecarParse "sidecar footer total block count is zero")
  validateSidecarLayout footer.sidecarHeaderBlockCount footer.parityShardBlockCount
    footer.sidecarTotalBlockCount footer.primaryHeaderStartBlock footer.tailHeaderStartBlock
    footerBlockIndex
  return footer

structure IndexCursor where
  blockIndex : ℕ
  offset : ℕ
  limit : ℕ
  parityEntries : List ParityShardIndexEntry
  dataShardCrc64s : List UInt64
deriving Repr, DecidableEq

/-- Move to the next block when an entry does not fit before the limit. -/
def advanceCursor (crcOffset h : ℕ) (blocks : List Bytes) (cursor : IndexCursor) (len : ℕ) :
    Except ParityError IndexCursor :=
  if cursor.offset+len > cursor.limit then do
    ensureZeroFilled (slice (blocks.getD cursor.blockIndex []) cursor.offset
      (crcOffset-cursor.offset)) "sidecar index padding"
    rejectIf (cursor.blockIndex+1 ≥ h)
      (sidecarParse "sidecar index entries exceed declared index blocks")
    return { cursor with blockIndex := cursor.blockIndex+1,offset := 0,limit := crcOffset }
  else .ok cursor

def parseIndexEntry (crcOffset h : ℕ) (blocks : List Bytes) (cursor : IndexCursor)
    (kind : EntryKind) : Except ParityError IndexCursor := do
  let len := entryLen kind
  let cursor ← advanceCursor crcOffset h blocks cursor len
  let block := blocks.getD cursor.blockIndex []
  match kind with
  | .parity =>
    let reserved := readU16Le block (cursor.offset+6)
    rejectIf (reserved≠0) (sidecarParse
      s!"sidecar parity index reserved field non-zero: 0x{hexPad 4 reserved.toNat}")
    let entry : ParityShardIndexEntry := ⟨readU32Le block cursor.offset,
      readU16Le block (cursor.offset+4),readU64Le block (cursor.offset+8)⟩
    return { cursor with offset := cursor.offset+len,parityEntries := cursor.parityEntries++[entry] }
  | .data =>
    return { cursor with
      offset := cursor.offset+len
      dataShardCrc64s := cursor.dataShardCrc64s++[readU64Le block cursor.offset] }

def parseIndexEntries (header : SidecarHeader) (blocks : List Bytes) :
    Except ParityError SidecarIndex := do
  let crcOffset := header.blockSize.toNat-8
  let h := header.shardIndexBlockCount.toNat
  let inlineEnd := sidecarHeaderLen+header.inlineIndexEntryBytes.toNat
  let cursor ← (entryKinds header.parityBlockCount.toNat header.dataCrcCount.toNat).foldlM
    (parseIndexEntry crcOffset h blocks) ⟨0,sidecarHeaderLen,inlineEnd,[],[]⟩
  ensureZeroFilled (slice (blocks.getD cursor.blockIndex []) cursor.offset
    (crcOffset-cursor.offset)) "sidecar index padding"
  ((blocks.take h).drop (cursor.blockIndex+1)).forM fun block =>
    ensureZeroFilled (block.take crcOffset) "sidecar unused index block"
  return ⟨cursor.parityEntries,cursor.dataShardCrc64s⟩

/-- Validated header and index of a copy; further blocks are ignored. -/
def parseSidecarIndexBlocks (blocks : List Bytes) (expectedTapeUuid : FixedBytes 16) :
    Except ParityError DecodedSidecarIndex := do
  let block0 ← orElseError blocks.head? (sidecarParse "sidecar has no header block")
  let header ← parseSidecarHeaderBlock hash block0 expectedTapeUuid
  let blockSize := header.blockSize.toNat
  let h := header.shardIndexBlockCount.toNat
  rejectIf (blocks.length < h)
    (sidecarParse s!"sidecar has {blocks.length} index blocks, header requires {h}")
  (blocks.take h).zipIdx.forM fun (block,i) => do
    rejectIf (block.length≠blockSize) (sidecarParse
      s!"sidecar index block {i} length {block.length} != block_size {blockSize}")
    if i > 0 then validateSpillBlockCrc block i else pure ()
  let index ← parseIndexEntries header blocks
  validateIndexOrder header index
  let expectedHash ← computeCanonicalMetadataHash hash header.descriptor index
    header.shardIndexBlockCount header.inlineIndexEntryBytes
  rejectIf (header.canonicalMetadataHash≠expectedHash)
    (sidecarParse "sidecar canonical metadata hash mismatch")
  return ⟨header,index⟩

def validateHeaderMatchesFooter (header : SidecarHeader) (footer : SidecarFooter) :
    Except ParityError Unit :=
  rejectIf (header.tapeUuid≠footer.tapeUuid ∨ header.epochId≠footer.epochId ∨
      header.protectedOrdinalStart≠footer.protectedOrdinalStart ∨
      header.protectedOrdinalEndExclusive≠footer.protectedOrdinalEndExclusive ∨
      header.shardIndexBlockCount≠footer.sidecarHeaderBlockCount ∨
      header.parityBlockCount≠footer.parityShardBlockCount ∨
      header.sidecarTotalBlockCount≠footer.sidecarTotalBlockCount ∨
      header.primaryHeaderStartBlock≠footer.primaryHeaderStartBlock ∨
      header.tailHeaderStartBlock≠footer.tailHeaderStartBlock ∨
      header.canonicalMetadataHash≠footer.canonicalMetadataHash)
    (sidecarParse "sidecar header/index copy does not match footer locator")

/-- Agreement of two copies' headers up to copy-local fields. -/
def sidecarHeaderMetadataMatches (left right : SidecarHeader) : Bool :=
  left.magic=right.magic && left.tapeUuid=right.tapeUuid && left.epochId=right.epochId &&
    left.k=right.k && left.m=right.m && left.stripesPerEpoch=right.stripesPerEpoch &&
    left.blockSize=right.blockSize && left.schemaVersion=right.schemaVersion &&
    left.protectedOrdinalStart=right.protectedOrdinalStart &&
    left.protectedOrdinalEndExclusive=right.protectedOrdinalEndExclusive &&
    left.logicalShardCount=right.logicalShardCount &&
    left.realDataShardCount=right.realDataShardCount &&
    left.parityBlockCount=right.parityBlockCount && left.dataCrcCount=right.dataCrcCount &&
    left.shardIndexBlockCount=right.shardIndexBlockCount &&
    left.inlineIndexEntryBytes=right.inlineIndexEntryBytes &&
    left.sidecarTotalBlockCount=right.sidecarTotalBlockCount &&
    left.primaryHeaderStartBlock=right.primaryHeaderStartBlock &&
    left.tailHeaderStartBlock=right.tailHeaderStartBlock &&
    left.footerBlockIndex=right.footerBlockIndex && left.copyGeneration=right.copyGeneration &&
    left.canonicalMetadataHash=right.canonicalMetadataHash

def parseSidecarIndexCopy (blocks : List Bytes) (expectedTapeUuid : FixedBytes 16)
    (footer : SidecarFooter) (expectedCopyKind : SidecarCopyKind) :
    Except ParityError DecodedSidecarIndex := do
  let decoded ← parseSidecarIndexBlocks hash blocks expectedTapeUuid
  rejectIf (decoded.header.copyKind≠expectedCopyKind) (sidecarParse
    s!"sidecar {expectedCopyKind.debug} copy decoded as {decoded.header.copyKind.debug}")
  validateHeaderMatchesFooter decoded.header footer
  return decoded

/-- The copy a reader uses: both must agree when both are usable. -/
def selectCopy (primary tail : Except ParityError DecodedSidecarIndex) :
    Except ParityError DecodedSidecarIndex :=
  match primary,tail with
  | .ok primary,.ok tail => do
    rejectIf (sidecarHeaderMetadataMatches primary.header tail.header=false ∨
        primary.index≠tail.index)
      (sidecarParse "sidecar primary and tail metadata copies disagree")
    return primary
  | .ok primary,.error _ => .ok primary
  | .error _,.ok tail => .ok tail
  | .error primaryErr,.error tailErr => .error (sidecarParse
    s!"no usable sidecar header/index copy: primary={primaryErr.display}; tail={tailErr.display}")

def readParityShard (blocks : List Bytes) (header : SidecarHeader)
    (entry : ParityShardIndexEntry) (i : ℕ) : Except ParityError Bytes := do
  let blockSize := header.blockSize.toNat
  let blockIndex ← parityBlockPosition entry.stripeIndex entry.parityIndex header.stripesPerEpoch
    header.m header.shardIndexBlockCount
  let shard := blocks.getD blockIndex []
  rejectIf (shard.length≠blockSize) (sidecarParse
    s!"sidecar parity shard {i} block length {shard.length} != block_size {blockSize}")
  let computed := parityShardCrc64 shard
  rejectIf (computed≠entry.parityShardCrc64) (sidecarParse
    (s!"sidecar parity shard {i} ({entry.stripeIndex.toNat}, {entry.parityIndex.toNat}) CRC mismatch: "++
      s!"stored 0x{hexPad 16 entry.parityShardCrc64.toNat}, computed 0x{hexPad 16 computed.toNat}"))
  return shard

def parseSidecarTapeFile (blocks : List Bytes) (expectedTapeUuid : FixedBytes 16) :
    Except ParityError DecodedSidecarTapeFile := do
  let footerBlock ← orElseError blocks.getLast? (sidecarParse "sidecar has no footer block")
  let footer ← parseSidecarFooterBlock hash footerBlock expectedTapeUuid
  let expectedBlocks := footer.sidecarTotalBlockCount.toNat
  rejectIf (blocks.length≠expectedBlocks) (sidecarParse
    s!"sidecar tape file has {blocks.length} blocks, expected exactly {expectedBlocks}")
  let h := footer.sidecarHeaderBlockCount.toNat
  let tailStart := footer.tailHeaderStartBlock.toNat
  let tailEnd := tailStart+h
  rejectIf (h=0 ∨ tailEnd > blocks.length-1)
    (sidecarParse "sidecar tail header range is outside file")
  let primary := parseSidecarIndexCopy hash (blocks.take h) expectedTapeUuid footer .primary
  let tail := parseSidecarIndexCopy hash ((blocks.drop tailStart).take h) expectedTapeUuid footer
    .tail
  let decoded ← selectCopy primary tail
  let parityShards ← decoded.index.parityEntries.zipIdx.mapM fun (entry,i) =>
    readParityShard blocks decoded.header entry i
  return ⟨decoded.header,decoded.index,parityShards⟩

end Remanence.Parity.Sidecar
