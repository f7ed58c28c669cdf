import Remanence.Parity.SidecarLayout

/-!
# Blocks of an encoded sidecar

Every part that the encoder produces is accepted by its parser and decodes
to the record it was built from: a header/index copy, the footer, and the
parity region with its positions.
-/

namespace Remanence.Parity.Sidecar

open Foundation Foundation.Packing Crc64 List FixedBytes

variable {hash : HashFunctions}

section HeaderBlock

variable (header : SidecarHeader) {block0 : Bytes}

theorem headerFields_inOrder : FieldsInOrder sidecarHeaderCrcOffset 0 (headerFields header) := by
  simp [FieldsInOrder,headerFields,sidecarHeaderCrcOffset]

def writtenHeader (block0 : Bytes) : Bytes :=
  writeFields (writeAt block0 0 (replicate sidecarHeaderLen 0)) (headerFields header)

def withHeaderCrc (block0 : Bytes) : Bytes :=
  writeAt (writtenHeader header block0) sidecarHeaderCrcOffset
    (u64Le (crc64Xz ((writtenHeader header block0).take sidecarHeaderCrcOffset)))

theorem finalizeHeaderBlock_eq (hlen : (withHeaderCrc header block0).length=block0.length) :
    finalizeHeaderBlock header block0= ({ header with
          headerCrc64 := crc64Xz ((writtenHeader header block0).take sidecarHeaderCrcOffset)
          block0Crc64 := crc64Xz ((withHeaderCrc header block0).take (block0.length-8)) },
        writeTrailingCrc (withHeaderCrc header block0)) := by
  rw [writeTrailingCrc,hlen]
  rfl

variable (h : sidecarHeaderLen+8 ≤ block0.length)

include h

theorem length_cleared :
    (writeAt block0 0 (replicate sidecarHeaderLen 0)).length=block0.length := by
  apply length_writeAt
  rw [length_replicate]
  omega

theorem cleared_inOrder :
    FieldsInOrder (writeAt block0 0 (replicate sidecarHeaderLen 0)).length 0
      (headerFields header) := by
  have hoffset : sidecarHeaderCrcOffset ≤ sidecarHeaderLen := by decide
  rw [length_cleared h]
  exact (headerFields_inOrder header).mono (by omega)

theorem length_writtenHeader : (writtenHeader header block0).length=block0.length :=
  (length_writeFields (cleared_inOrder header h)).trans (length_cleared h)

theorem headerCrc_fits : sidecarHeaderCrcOffset+8 ≤ (writtenHeader header block0).length := by
  have hoffset : sidecarHeaderCrcOffset+8=sidecarHeaderLen := by decide
  rw [length_writtenHeader header h]
  omega

theorem length_withHeaderCrc : (withHeaderCrc header block0).length=block0.length :=
  (length_sealAt (headerCrc_fits header h)).trans (length_writtenHeader header h)

theorem trailingCrc_fits :
    (withHeaderCrc header block0).length-8+8 ≤ (withHeaderCrc header block0).length := by
  rw [length_withHeaderCrc header h]
  omega

theorem slice_finalized {field : ℕ×Bytes} (hmem : field ∈ headerFields header) :
    slice (finalizeHeaderBlock header block0).2 field.1 field.2.length=field.2 := by
  have hlen := length_withHeaderCrc header h
  have hend := (headerFields_inOrder header).mem_le hmem
  have hoffset : sidecarHeaderCrcOffset ≤ sidecarHeaderLen := by decide
  rw [finalizeHeaderBlock_eq header hlen]
  exact (slice_sealAt_before (trailingCrc_fits header h) (by omega)).trans
    ((slice_sealAt_before (headerCrc_fits header h) hend).trans
      (slice_writeFields_mem (cleared_inOrder header h) hmem))

theorem length_finalized : (finalizeHeaderBlock header block0).2.length=block0.length := by
  have hlen := length_withHeaderCrc header h
  rw [finalizeHeaderBlock_eq header hlen]
  exact (length_sealAt (trailingCrc_fits header h)).trans hlen

theorem finalized_crcs :
    let final := finalizeHeaderBlock header block0
    final.1.headerCrc64=crc64Xz (final.2.take sidecarHeaderCrcOffset) ∧
      final.1.block0Crc64=crc64Xz (final.2.take (block0.length-8)) ∧
      readU64Le final.2 sidecarHeaderCrcOffset=final.1.headerCrc64 ∧
      readU64Le final.2 (block0.length-8)=final.1.block0Crc64 := by
  have hlen := length_withHeaderCrc header h
  have hheader := headerCrc_fits header h
  have htrailing := trailingCrc_fits header h
  have hoffset : sidecarHeaderCrcOffset+8=sidecarHeaderLen := by decide
  -- the trailing CRC leaves the header CRC and the bytes it covers
  have hsealed : ∀ start len, start+len ≤ sidecarHeaderLen →
      slice (writeTrailingCrc (withHeaderCrc header block0)) start len=
        slice (withHeaderCrc header block0) start len :=
    fun start len hle => slice_sealAt_before htrailing (by omega)
  rw [finalizeHeaderBlock_eq header hlen]
  refine ⟨?_,?_,?_,?_⟩
  · exact congrArg crc64Xz ((hsealed 0 sidecarHeaderCrcOffset (by omega)).trans
      (take_sealAt hheader)).symm
  · rw [←hlen]
    exact congrArg crc64Xz (take_sealAt htrailing).symm
  · rw [readU64Le,hsealed _ _ hoffset.le]
    exact readU64Le_sealAt hheader
  · rw [←hlen]
    exact readU64Le_sealAt htrailing

theorem entryArea_finalized {group : List IndexEntry}
    (harea : EntryArea block0 (block0.length-8) sidecarHeaderLen group) :
    EntryArea (finalizeHeaderBlock header block0).2 (block0.length-8) sidecarHeaderLen group := by
  have hlen := length_withHeaderCrc header h
  have hoffset : sidecarHeaderCrcOffset+8=sidecarHeaderLen := by decide
  refine ⟨harea.fits,?_⟩
  rw [←harea.content,finalizeHeaderBlock_eq header hlen]
  refine (slice_sealAt_before (trailingCrc_fits header h) (by omega)).trans
    ((slice_sealAt_after (headerCrc_fits header h) hoffset.le).trans
    ((slice_writeFields_after (cleared_inOrder header h) ?_).trans (slice_writeAt_after ?_ ?_)))
  · intro field hmem
    have := (headerFields_inOrder header).mem_le hmem
    omega
  · rw [length_replicate]
    omega
  · rw [length_replicate,zero_add]

omit h

def SidecarHeader.counts (header : SidecarHeader) : HeaderCounts :=
  { k := header.k,m := header.m,stripesPerEpoch := header.stripesPerEpoch,
    protectedOrdinalStart := header.protectedOrdinalStart,
    protectedOrdinalEndExclusive := header.protectedOrdinalEndExclusive,
    logicalShardCount := header.logicalShardCount,
    realDataShardCount := header.realDataShardCount,
    parityBlockCount := header.parityBlockCount,dataCrcCount := header.dataCrcCount,
    shardIndexBlockCount := header.shardIndexBlockCount,
    sidecarTotalBlockCount := header.sidecarTotalBlockCount,
    primaryHeaderStartBlock := header.primaryHeaderStartBlock,
    tailHeaderStartBlock := header.tailHeaderStartBlock,
    footerBlockIndex := header.footerBlockIndex,copyGeneration := header.copyGeneration }

theorem SidecarCopyKind.fromU16_toU16 (kind : SidecarCopyKind) :
    SidecarCopyKind.fromU16 kind.toU16=.ok kind := by
  cases kind <;> rfl

theorem parseSidecarHeaderBlock_finalized {header : SidecarHeader} {group : List IndexEntry}
    (hsize : sidecarHeaderLen+8 ≤ block0.length) (hlen : header.blockSize.toNat=block0.length)
    (hmagic : header.magic=deriveSidecarMagic hash header.tapeUuid)
    (hversion : header.schemaVersion=sidecarSchemaVersion)
    (hcounts : validateHeaderCounts header.counts=.ok ())
    (hlayout : computeIndexLayout block0.length header.parityBlockCount.toNat
      header.dataCrcCount.toNat=.ok (header.shardIndexBlockCount,header.inlineIndexEntryBytes))
    (hinline : header.inlineIndexEntryBytes.toNat=total IndexEntry.len group)
    (harea : EntryArea block0 (block0.length-8) sidecarHeaderLen group) :
    parseSidecarHeaderBlock hash (finalizeHeaderBlock header block0).2 header.tapeUuid=
      .ok (finalizeHeaderBlock header block0).1 := by
  have hfield : ∀ field ∈ headerFields header,
      slice (finalizeHeaderBlock header block0).2 field.1 field.2.length=field.2 :=
    fun _ hmem => slice_finalized header hsize hmem
  obtain ⟨hheaderCrc,hblockCrc,hreadHeader,hreadBlock⟩ := finalized_crcs header hsize
  have harea' := entryArea_finalized header hsize harea
  have hblock := length_finalized header hsize
  have hfirst : (finalizeHeaderBlock header block0).1= { header with
        headerCrc64 := (finalizeHeaderBlock header block0).1.headerCrc64
        block0Crc64 := (finalizeHeaderBlock header block0).1.block0Crc64 } := rfl
  generalize (finalizeHeaderBlock header block0).1.headerCrc64=headerCrc at *
  generalize (finalizeHeaderBlock header block0).1.block0Crc64=blockCrc at *
  rw [hfirst]
  generalize (finalizeHeaderBlock header block0).2=block at *
  simp only [headerFields,forall_mem_cons,length_u16Le,length_u32Le,length_u64Le,
    length_bytes] at hfield
  obtain ⟨h00,h08,h18,h20,h22,h24,h28,h2C,h30,h38,h40,h48,h50,h58,h60,h68,h70,h78,h80,h88,h90,h92,
    h94,h98,hB8,_⟩ := hfield
  simp only [parseSidecarHeaderBlock,eq_ok,
    read_of_slice h00,read_of_slice h08,readU64Le_of_slice h18,
    readU16Le_of_slice h20,readU16Le_of_slice h22,readU32Le_of_slice h24,readU32Le_of_slice h28,
    readU32Le_of_slice h2C,readU64Le_of_slice h30,readU64Le_of_slice h38,readU64Le_of_slice h40,
    readU64Le_of_slice h48,readU64Le_of_slice h50,readU64Le_of_slice h58,readU64Le_of_slice h60,
    readU64Le_of_slice h68,readU64Le_of_slice h70,readU64Le_of_slice h78,readU64Le_of_slice h80,
    readU64Le_of_slice h88,readU16Le_of_slice h90,readU16Le_of_slice h92,readU32Le_of_slice h94,
    read_of_slice h98,readU64Le_of_slice hB8,hlen,hreadHeader,hreadBlock,hblock]
  have hfits := harea.fits
  have hpad := harea'.behind.padding "block0 index padding"
  rw [←hinline] at hfits hpad
  exact ⟨(),by omega,(),not_not.mpr hmagic,(),not_not.mpr rfl,header.copyKind,
    SidecarCopyKind.fromU16_toU16 header.copyKind,(),not_not.mpr rfl,(),not_not.mpr rfl,(),
    not_not.mpr hversion,(),not_not.mpr rfl,(),by omega,(),not_not.mpr hheaderCrc,(),
    not_not.mpr hblockCrc,(),hcounts,_,hlayout,(),not_not.mpr rfl,(),not_not.mpr rfl,(),by omega,(),
    hpad,rfl⟩

end HeaderBlock

section Copy

variable {descriptor : SidecarDescriptor} {index : SidecarIndex} {blockSize : ℕ}
  {shardIndexBlockCount inlineIndexEntryBytes : UInt64} {copyKind : SidecarCopyKind}
  {metadataHash : FixedBytes 32} {header : SidecarHeader}

structure BuiltHeader (hash : HashFunctions) (descriptor : SidecarDescriptor)
    (shardIndexBlockCount inlineIndexEntryBytes : UInt64) (copyKind : SidecarCopyKind)
    (metadataHash : FixedBytes 32) (header : SidecarHeader) : Prop where
  descriptor_eq : header.descriptor=descriptor
  magic : header.magic=deriveSidecarMagic hash header.tapeUuid
  version : header.schemaVersion=sidecarSchemaVersion
  blocks : header.shardIndexBlockCount=shardIndexBlockCount
  inlineBytes : header.inlineIndexEntryBytes=inlineIndexEntryBytes
  kind : header.copyKind=copyKind
  hash_eq : header.canonicalMetadataHash=metadataHash
  range : descriptor.rangeLen=.ok header.dataCrcCount
  parity : ∃ count, descriptor.parityBlockCount=.ok count ∧ header.parityBlockCount=count.toUInt64

theorem buildHeader_spec
    (h : buildHeader hash descriptor shardIndexBlockCount inlineIndexEntryBytes copyKind
      metadataHash=.ok header) :
    BuiltHeader hash descriptor shardIndexBlockCount inlineIndexEntryBytes copyKind metadataHash
      header := by
  simp only [buildHeader,eq_ok] at h
  obtain ⟨range,hrange,count,hcount,tail,_,footer,_,total,_,rfl⟩ := h
  exact ⟨rfl,rfl,rfl,rfl,rfl,rfl,rfl,hrange,count,hcount,rfl⟩

section

variable (h : BuiltHeader hash descriptor shardIndexBlockCount inlineIndexEntryBytes copyKind
  metadataHash header)
include h

theorem BuiltHeader.finalized (block0 : Bytes) :
    BuiltHeader hash descriptor shardIndexBlockCount inlineIndexEntryBytes copyKind metadataHash
      (finalizeHeaderBlock header block0).1 :=
  ⟨h.descriptor_eq,h.magic,h.version,h.blocks,h.inlineBytes,h.kind,h.hash_eq,h.range,h.parity⟩

theorem BuiltHeader.blockSize_eq : header.blockSize=descriptor.blockSize := by
  rw [←h.descriptor_eq]
  rfl

theorem BuiltHeader.tapeUuid_eq : header.tapeUuid=descriptor.tapeUuid := by
  rw [←h.descriptor_eq]
  rfl

end

theorem validateDescriptor_blockSize (h : validateDescriptor descriptor=.ok blockSize) :
    descriptor.blockSize.toNat=blockSize ∧ sidecarHeaderLen+8 ≤ blockSize := by
  simp only [validateDescriptor,eq_ok] at h
  obtain ⟨_,hsize,_,_,_,_,_,_,_,_,rfl⟩ := h
  exact ⟨rfl,Nat.le_of_not_lt hsize⟩

theorem validateSidecarLayout_derived {h p tail footer total : UInt64} (hpos : h≠0)
    (htail : checkedAdd64 h p=some tail) (hfooter : checkedAdd64 tail h=some footer)
    (htotal : checkedSidecarTotalBlocks h p=.ok total) :
    validateSidecarLayout h p total 0 tail footer=.ok () := by
  simp only [validateSidecarLayout,eq_ok]
  exact ⟨(),hpos,(),not_not.mpr rfl,tail,htail,(),not_not.mpr rfl,footer,hfooter,(),not_not.mpr rfl,
    total,htotal,not_not.mpr rfl⟩

theorem buildHeader_counts (hdescriptor : validateDescriptor descriptor=.ok blockSize)
    (hpos : shardIndexBlockCount≠0)
    (h : buildHeader hash descriptor shardIndexBlockCount inlineIndexEntryBytes copyKind
      metadataHash=.ok header) :
    validateHeaderCounts header.counts=.ok () := by
  simp only [validateDescriptor,eq_ok] at hdescriptor
  obtain ⟨_,_,range,hrange,count,hcount,_,hrange',_,hshards,_⟩ := hdescriptor
  simp only [buildHeader,eq_ok,hrange,hcount,Except.ok.injEq] at h
  obtain ⟨_,rfl,_,rfl,tail,htail,footer,hfooter,total,htotal,rfl⟩ := h
  rw [hrange] at hrange'
  obtain rfl := Except.ok.inj hrange'
  simp only [validateHeaderCounts,bind_eq_ok]
  exact ⟨(),hshards,validateSidecarLayout_derived hpos htail hfooter htotal⟩

theorem computeIndexLayout_spec
    (h : computeIndexLayout blockSize index.parityEntries.length index.dataShardCrc64s.length=
      .ok (shardIndexBlockCount,inlineIndexEntryBytes)) :
    shardIndexBlockCount.toNat=1+(groups blockSize index).2.length ∧
      inlineIndexEntryBytes.toNat=total IndexEntry.len (groups blockSize index).1 := by
  simp only [computeIndexLayout,eq_ok,Prod.mk.injEq] at h
  obtain ⟨layout,hlayout,hblocks,hinline⟩ := h
  obtain ⟨_,hcount,hbytes,hcountLe,hbytesLe⟩ := capacityLayout_spec hlayout
  have hmax : u64Max < UInt64.size := by decide +kernel
  rw [←hblocks,←hinline,←hcount,←hbytes]
  exact ⟨UInt64.toNat_ofNat_of_lt' (by omega),UInt64.toNat_ofNat_of_lt' (by omega)⟩

theorem validateIndexShape_lengths (h : validateIndexShape descriptor index=.ok ()) :
    (∃ count, descriptor.parityBlockCount=.ok count ∧ index.parityEntries.length=count.toNat) ∧
      ∃ range, descriptor.rangeLen=.ok range ∧ index.dataShardCrc64s.length=range.toNat := by
  simp only [validateIndexShape,eq_ok,not_not] at h
  obtain ⟨count,hcount,_,hparity,range,hrange,_,hdata,_⟩ := h
  exact ⟨⟨count,hcount,hparity⟩,range,hrange,hdata⟩

theorem validateSpillBlockCrc_sealed {block : Bytes} (h : 8 ≤ block.length) (i : ℕ) :
    validateSpillBlockCrc (writeTrailingCrc block) i=.ok () := by
  rw [validateSpillBlockCrc,length_writeTrailingCrc h,take_writeTrailingCrc h]
  exact rejectIf_pos (not_not.mpr (readU64Le_sealAt (Nat.sub_add_cancel h).le))

theorem BuiltHeader.counts_eq (h : BuiltHeader hash descriptor shardIndexBlockCount
      inlineIndexEntryBytes copyKind metadataHash header)
    (hshape : validateIndexShape descriptor index=.ok ()) :
    header.parityBlockCount.toNat=index.parityEntries.length ∧
      header.dataCrcCount.toNat=index.dataShardCrc64s.length := by
  obtain ⟨⟨count,hcount,hparityLen⟩,range,hrange,hdataLen⟩ := validateIndexShape_lengths hshape
  obtain ⟨built,hbuiltCount,hfield⟩ := h.parity
  have hsameCount := hbuiltCount.symm.trans hcount
  have hsameRange := h.range.symm.trans hrange
  constructor
  · rw [hfield,Except.ok.inj hsameCount,hparityLen,UInt32.toNat_toUInt64]
  · rw [Except.ok.inj hsameRange,hdataLen]

theorem copyBlocks_valid {block0 : Bytes} (hsize : 208 ≤ blockSize)
    (hblock0 : block0.length=blockSize) {take : ℕ} {block : Bytes} {i : ℕ}
    (hmem : (block,i) ∈ ((block0::(groups blockSize index).2.map
      fun group => writeTrailingCrc (render blockSize [] group)).take take).zipIdx) :
    block.length=blockSize ∧ (i > 0 → validateSpillBlockCrc block i=.ok ()) := by
  obtain ⟨n,hn⟩ := getElem?_of_mem hmem
  simp only [getElem?_zipIdx,zero_add,Option.map_eq_some_iff,Prod.mk.injEq,
    getElem?_take,Option.ite_none_right_eq_some] at hn
  obtain ⟨_,⟨_,hn⟩,rfl,rfl⟩ := hn
  cases n with
  | zero =>
    obtain rfl : block0=_ := by simpa using hn
    exact ⟨hblock0,fun h => absurd h (lt_irrefl 0)⟩
  | succ n =>
    simp only [getElem?_cons_succ,getElem?_map,Option.map_eq_some_iff] at hn
    obtain ⟨group,hgroup,rfl⟩ := hn
    have hfits := (groups_greedy hsize index).fits (mem_of_getElem? hgroup)
    have hlen : (render blockSize [] group).length=blockSize :=
      length_render (by rw [length_nil]; omega)
    refine ⟨?_,fun _ => validateSpillBlockCrc_sealed (by omega) _⟩
    rw [length_writeTrailingCrc (by omega),hlen]

theorem parseSidecarIndexBlocks_of_header {final : SidecarHeader×Bytes} (hsize : 208 ≤ blockSize)
    (hbs : descriptor.blockSize.toNat=blockSize)
    (hshape : validateIndexShape descriptor index=.ok ())
    (hlayout : computeIndexLayout blockSize index.parityEntries.length
      index.dataShardCrc64s.length=.ok (shardIndexBlockCount,inlineIndexEntryBytes))
    (hhash : computeCanonicalMetadataHash hash descriptor index shardIndexBlockCount
      inlineIndexEntryBytes=.ok metadataHash)
    (hbuilt : BuiltHeader hash descriptor shardIndexBlockCount inlineIndexEntryBytes copyKind
      metadataHash final.1)
    (hparsed : parseSidecarHeaderBlock hash final.2 descriptor.tapeUuid=.ok final.1)
    (hlength : final.2.length=blockSize)
    (hentries : EntryArea final.2 (blockSize-8) sidecarHeaderLen (groups blockSize index).1) :
    parseSidecarIndexBlocks hash (final.2::(groups blockSize index).2.map
        fun group => writeTrailingCrc (render blockSize [] group)) descriptor.tapeUuid=
      .ok ⟨final.1,index⟩ := by
  obtain ⟨hblockCount,hinlineBytes⟩ := computeIndexLayout_spec hlayout
  obtain ⟨hparity,hdata⟩ := hbuilt.counts_eq hshape
  have hfinalSize : final.1.blockSize.toNat=blockSize := by rw [hbuilt.blockSize_eq,hbs]
  have hindex : parseIndexEntries final.1 (final.2::(groups blockSize index).2.map
      fun group => writeTrailingCrc (render blockSize [] group))=.ok index := by
    rw [←hbuilt.blocks] at hblockCount
    rw [←hbuilt.inlineBytes] at hinlineBytes
    clear hlength
    subst hfinalSize
    exact parseIndexEntries_copy hsize hparity hdata hblockCount hinlineBytes hentries
  simp only [parseSidecarIndexBlocks,head?_cons,orElseError_some,ok_bind,hparsed,
    eq_ok,hfinalSize,hbuilt.blocks,hbuilt.inlineBytes,
    hbuilt.hash_eq,validateIndexOrder,hbuilt.descriptor_eq]
  refine ⟨(),?_,(),?_,index,hindex,(),hshape,metadataHash,hhash,(),not_not.mpr rfl,rfl⟩
  · rw [hblockCount,length_cons,length_map]
    omega
  · rw [forM_eq_ok]
    rintro ⟨block,i⟩ hmem
    obtain ⟨hblockLen,hblockCrc⟩ := copyBlocks_valid hsize hlength hmem
    simp only [eq_ok,not_not]
    refine ⟨(),hblockLen,?_⟩
    split
    · rename_i hi
      exact hblockCrc hi
    · rfl

structure CopySteps (hash : HashFunctions) (descriptor : SidecarDescriptor)
    (index : SidecarIndex) where
  blockSize : ℕ
  shardIndexBlockCount : UInt64
  inlineIndexEntryBytes : UInt64
  blocks : List Bytes
  metadataHash : FixedBytes 32
  descriptor_ok : validateDescriptor descriptor=.ok blockSize
  shape_ok : validateIndexShape descriptor index=.ok ()
  layout_ok : computeIndexLayout blockSize index.parityEntries.length
    index.dataShardCrc64s.length=.ok (shardIndexBlockCount,inlineIndexEntryBytes)
  pack_ok : packIndexBlocks blockSize index=.ok blocks
  hash_ok : computeCanonicalMetadataHash hash descriptor index shardIndexBlockCount
    inlineIndexEntryBytes=.ok metadataHash

/-- A copy of an encoder run: the packed blocks behind a finalised header. -/
def CopySteps.copy (steps : CopySteps hash descriptor index) (header : SidecarHeader) :
    SidecarHeader×List Bytes :=
  ((finalizeHeaderBlock header (steps.blocks.headD [])).1,
    replaceFirst steps.blocks (finalizeHeaderBlock header (steps.blocks.headD [])).2)

theorem CopySteps.length_copy (steps : CopySteps hash descriptor index) (header : SidecarHeader) :
    (steps.copy header).2.length=steps.shardIndexBlockCount.toNat ∧
      0 < steps.shardIndexBlockCount.toNat := by
  obtain ⟨_,hsize⟩ := validateDescriptor_blockSize steps.descriptor_ok
  have hlong := hsize
  have hcount := (computeIndexLayout_spec steps.layout_ok).1
  have hpacked := packIndexBlocks_eq hlong steps.pack_ok
  rw [CopySteps.copy,replaceFirst,length_set,hpacked,length_cons,length_map,hcount]
  omega

theorem CopySteps.parse_copy (steps : CopySteps hash descriptor index)
    (hbuild : buildHeader hash descriptor steps.shardIndexBlockCount steps.inlineIndexEntryBytes
      copyKind steps.metadataHash=.ok header) :
    parseSidecarIndexBlocks hash (steps.copy header).2 descriptor.tapeUuid=
      .ok ⟨(steps.copy header).1,index⟩ := by
  obtain ⟨blockSize,shardIndexBlockCount,inlineIndexEntryBytes,blocks,metadataHash,hdescriptor,
    hshape,hlayout,hpack,hhash⟩ := steps
  obtain ⟨hbs,hsize⟩ := validateDescriptor_blockSize hdescriptor
  have hheaderLen : sidecarHeaderLen=200 := rfl
  have hlong : 208 ≤ blockSize := by omega
  have hbuilt := buildHeader_spec hbuild
  obtain ⟨hblockCount,hinlineBytes⟩ := computeIndexLayout_spec hlayout
  obtain ⟨hparity,hdata⟩ := hbuilt.counts_eq hshape
  have hfits := groups_fst_le hlong index
  have hpos : shardIndexBlockCount≠0 := by
    intro hzero
    rw [hzero,UInt64.toNat_zero] at hblockCount
    omega
  obtain ⟨block0,hrender⟩ : ∃ block0, render blockSize (replicate sidecarHeaderLen 0)
    (groups blockSize index).1=block0 := ⟨_,rfl⟩
  have hblock0 : block0.length=blockSize := by
    rw [←hrender]
    exact length_render (by rw [length_replicate]; omega)
  have harea : EntryArea block0 (block0.length-8) sidecarHeaderLen (groups blockSize index).1 := by
    rw [hblock0,←hrender]
    exact entryArea_first hfits
  have hpacked := packIndexBlocks_eq hlong hpack
  rw [hrender] at hpacked
  subst hpacked
  have hparsed : parseSidecarHeaderBlock hash (finalizeHeaderBlock header block0).2
      header.tapeUuid=.ok (finalizeHeaderBlock header block0).1 := by
    refine parseSidecarHeaderBlock_finalized (by omega) ?_ hbuilt.magic hbuilt.version
      (buildHeader_counts hdescriptor hpos hbuild) ?_ (hbuilt.inlineBytes ▸ hinlineBytes) harea
    · rw [hbuilt.blockSize_eq,hbs,hblock0]
    · rw [hblock0,hparity,hdata,hbuilt.blocks,hbuilt.inlineBytes]
      exact hlayout
  have hentries := entryArea_finalized header (by omega) harea
  rw [hblock0] at hentries
  rw [hbuilt.tapeUuid_eq] at hparsed
  have hlength := (length_finalized header (by omega)).trans hblock0
  exact parseSidecarIndexBlocks_of_header hlong hbs hshape hlayout hhash (hbuilt.finalized block0)
    hparsed hlength hentries

end Copy

section Footer

variable {header : SidecarHeader} {block : Bytes}

theorem footerFields_inOrder (hash : HashFunctions) (header : SidecarHeader) :
    FieldsInOrder sidecarFooterCrcOffset 0 (footerFields hash header) := by
  simp [FieldsInOrder,footerFields,sidecarFooterCrcOffset]

def footerOf (hash : HashFunctions) (header : SidecarHeader) (crc : UInt64) : SidecarFooter :=
  { magic := deriveSidecarFooterMagic hash header.tapeUuid
    sidecarFooterVersion := sidecarFooterVersion
    tapeUuid := header.tapeUuid
    epochId := header.epochId
    protectedOrdinalStart := header.protectedOrdinalStart
    protectedOrdinalEndExclusive := header.protectedOrdinalEndExclusive
    sidecarHeaderBlockCount := header.shardIndexBlockCount
    parityShardBlockCount := header.parityBlockCount
    sidecarTotalBlockCount := header.sidecarTotalBlockCount
    primaryHeaderStartBlock := header.primaryHeaderStartBlock
    tailHeaderStartBlock := header.tailHeaderStartBlock
    canonicalMetadataHash := header.canonicalMetadataHash
    footerCrc64 := crc }

theorem validateHeaderMatchesFooter_footerOf (hash : HashFunctions) (header : SidecarHeader)
    (crc : UInt64) : validateHeaderMatchesFooter header (footerOf hash header crc)=.ok () := by
  simp [validateHeaderMatchesFooter,footerOf]

structure FooterBlock (hash : HashFunctions) (header : SidecarHeader) (block : Bytes)
    (crc : UInt64) : Prop where
  length_eq : block.length=header.blockSize.toNat
  fits : ¬header.blockSize.toNat < sidecarFooterLen
  field : ∀ field ∈ footerFields hash header, slice block field.1 field.2.length=field.2
  stored : readU64Le block sidecarFooterCrcOffset=crc
  computed : crc64Xz (block.take sidecarFooterCrcOffset)=crc
  padding : block.drop sidecarFooterLen= replicate (header.blockSize.toNat-sidecarFooterLen) 0

theorem encodeSidecarFooterBlock_spec (h : encodeSidecarFooterBlock hash header=.ok block) :
    ∃ crc, FooterBlock hash header block crc := by
  simp only [encodeSidecarFooterBlock,eq_ok] at h
  obtain ⟨_,hsize,hblock⟩ := h
  have hend : sidecarFooterCrcOffset+8=sidecarFooterLen := by decide
  have hzero : (replicate header.blockSize.toNat (0 : UInt8)).length=
      header.blockSize.toNat := length_replicate
  have horder : FieldsInOrder (replicate header.blockSize.toNat (0 : UInt8)).length 0
      (footerFields hash header) := by
    exact (footerFields_inOrder hash header).mono (by omega)
  have hwritten := (length_writeFields horder).trans hzero
  have hpadding : slice (writeFields (replicate header.blockSize.toNat 0)
      (footerFields hash header)) sidecarFooterLen (header.blockSize.toNat-sidecarFooterLen)=
      slice (replicate header.blockSize.toNat 0) sidecarFooterLen
        (header.blockSize.toNat-sidecarFooterLen) := by
    apply slice_writeFields_after horder
    intro field hmem
    have := (footerFields_inOrder hash header).mem_le hmem
    omega
  have hfields : ∀ field ∈ footerFields hash header, slice (writeFields
      (replicate header.blockSize.toNat 0) (footerFields hash header)) field.1
      field.2.length=field.2 := fun _ hmem => slice_writeFields_mem horder hmem
  generalize writeFields (replicate header.blockSize.toNat 0) (footerFields hash header)=
    written at *
  have hfits : sidecarFooterCrcOffset+8 ≤ written.length := by omega
  obtain rfl : sealAt written sidecarFooterCrcOffset=block := hblock
  refine ⟨_,(length_sealAt hfits).trans hwritten,hsize,?_,readU64Le_sealAt hfits,
    congrArg crc64Xz (take_sealAt hfits),?_⟩
  · intro field hmem
    rw [slice_sealAt_before hfits ((footerFields_inOrder hash header).mem_le hmem)]
    exact hfields field hmem
  · have hdrop : (sealAt written sidecarFooterCrcOffset).drop sidecarFooterLen=
        slice (sealAt written sidecarFooterCrcOffset) sidecarFooterLen
          (header.blockSize.toNat-sidecarFooterLen) := by
      rw [slice,take_of_length_le]
      rw [length_drop,length_sealAt hfits]
      omega
    rw [hdrop,slice_sealAt_after hfits hend.le,hpadding,slice,drop_replicate,
      take_replicate,Nat.min_self]

theorem parseSidecarFooterBlock_encoded {crc last : UInt64}
    (hblock : FooterBlock hash header block crc)
    (hlast : checkedSub64 header.sidecarTotalBlockCount 1=some last)
    (hlayout : validateSidecarLayout header.shardIndexBlockCount header.parityBlockCount
      header.sidecarTotalBlockCount header.primaryHeaderStartBlock header.tailHeaderStartBlock
      last=.ok ()) :
    parseSidecarFooterBlock hash block header.tapeUuid=.ok (footerOf hash header crc) := by
  have hfield := hblock.field
  have hzeroes : ensureZeroFilled (block.drop sidecarFooterLen) "sidecar footer padding"=
      .ok () := by
    rw [hblock.padding]
    exact ensureZeroFilled_replicate _ _
  simp only [footerFields,forall_mem_cons,length_u16Le,length_u32Le,length_u64Le,
    length_bytes] at hfield
  obtain ⟨h00,h08,h0A,h0C,h10,h20,h28,h30,h38,h40,h48,h50,h58,h60,_⟩ := hfield
  simp only [parseSidecarFooterBlock,eq_ok,
    read_of_slice h00,readU16Le_of_slice h08,readU16Le_of_slice h0A,
    readU32Le_of_slice h0C,read_of_slice h10,readU64Le_of_slice h20,
    readU64Le_of_slice h28,readU64Le_of_slice h30,readU64Le_of_slice h38,readU64Le_of_slice h40,
    readU64Le_of_slice h48,readU64Le_of_slice h50,readU64Le_of_slice h58,
    read_of_slice h60,hblock.stored,hblock.computed,hblock.length_eq]
  exact ⟨(),hblock.fits,(),not_not.mpr rfl,(),not_not.mpr rfl,(),by simp,(),not_not.mpr rfl,(),
    not_not.mpr rfl,(),hzeroes,last,hlast,(),hlayout,rfl⟩

end Footer

section ParityRegion

variable {descriptor : SidecarDescriptor} {shardIndexBlockCount : UInt64} {shards : List Bytes}
  {start : List Bytes}

/-- State of the emission after the given positions were written behind the
primary copy. -/
structure Emitted (descriptor : SidecarDescriptor) (shardIndexBlockCount : UInt64)
    (shards start : List Bytes) (done : List (ℕ×ℕ)) (state : EmitState) : Prop where
  source : ∀ j shard, state.shards.getD j none=some shard → shards[j]?=some shard
  front : start<+:state.blocks
  length_eq : state.blocks.length=start.length+done.length
  placed : ∀ p s, (p,s) ∈ done → ∃ position shard,
    parityBlockPosition (UInt32.ofNat s) (UInt16.ofNat p) descriptor.stripesPerEpoch descriptor.m
      shardIndexBlockCount=.ok position ∧
    state.blocks[position]?=some shard ∧ shards[s*descriptor.m.toNat+p]?=some shard

variable {done : List (ℕ×ℕ)} {state final : EmitState} {p : ℕ}

section

variable (h : Emitted descriptor shardIndexBlockCount shards start done state)
include h

theorem Emitted.step {next : EmitState} {s : ℕ}
    (hstep : emitShard descriptor shardIndexBlockCount p state s=.ok next) :
    Emitted descriptor shardIndexBlockCount shards start (done++[(p,s)]) next := by
  simp only [emitShard,eq_ok,not_not] at hstep
  obtain ⟨position,hposition,_,hlength,shard,hshard,rfl⟩ := hstep
  have hsource := h.source _ _ hshard
  constructor
  · intro j other hother
    apply h.source
    have hset : (state.shards.set (s*descriptor.m.toNat+p) none).getD j none=
        if s*descriptor.m.toNat+p=j then none else state.shards.getD j none := by
      rw [getD_eq_getElem?_getD,getD_eq_getElem?_getD,getElem?_set]
      split <;> simp_all
      split <;> rfl
    rw [hset] at hother
    split at hother
    · cases hother
    · exact hother
  · exact h.front.trans (prefix_append _ _)
  · simp only [length_append,h.length_eq,length_singleton]
    omega
  · intro p' s' hmem
    rcases mem_append.mp hmem with hold | hnew
    · obtain ⟨position',shard',hposition',hblock,hsource'⟩ := h.placed p' s' hold
      refine ⟨position',shard',hposition',?_,hsource'⟩
      have hlt := (List.getElem?_eq_some_iff.mp hblock).1
      rw [getElem?_append_left hlt]
      exact hblock
    · obtain ⟨rfl,rfl⟩ := Prod.mk.inj (mem_singleton.mp hnew)
      refine ⟨position,shard,hposition,?_,hsource⟩
      rw [hlength,getElem?_concat_length]

theorem Emitted.row {stripes : List ℕ}
    (hrow : stripes.foldlM (emitShard descriptor shardIndexBlockCount p) state=.ok final) :
    Emitted descriptor shardIndexBlockCount shards start (done++stripes.map fun s => (p,s))
      final := by
  induction stripes generalizing done state with
  | nil =>
    obtain rfl : state=final := by simpa using hrow
    simpa using h
  | cons s stripes ih =>
    obtain ⟨next,hnext,hrest⟩ := foldlM_cons_eq_ok.mp hrow
    simpa using ih (h.step hnext) hrest

theorem Emitted.rows {rows stripes : List ℕ} (hrows : rows.foldlM (fun state p => stripes.foldlM
      (emitShard descriptor shardIndexBlockCount p) state) state=.ok final) :
    Emitted descriptor shardIndexBlockCount shards start
      (done++rows.flatMap fun p => stripes.map fun s => (p,s)) final := by
  induction rows generalizing done state with
  | nil =>
    obtain rfl : state=final := by simpa using hrows
    simpa using h
  | cons p rows ih =>
    obtain ⟨next,hnext,hrest⟩ := foldlM_cons_eq_ok.mp hrows
    simpa using ih (h.row hnext) hrest

end

def parityPositions (descriptor : SidecarDescriptor) : List (ℕ×ℕ) :=
  (List.range descriptor.m.toNat).flatMap fun p =>
    (List.range descriptor.stripesPerEpoch.toNat).map fun s => (p,s)

theorem emitShards_spec
    (h : emitShards descriptor shardIndexBlockCount ⟨start,shards.map some⟩=.ok final) :
    Emitted descriptor shardIndexBlockCount shards start (parityPositions descriptor) final := by
  have hstart : Emitted descriptor shardIndexBlockCount shards start []
      ⟨start,shards.map some⟩ := by
    refine ⟨?_,prefix_refl _,rfl,by simp⟩
    intro j shard hshard
    simp only [getD_eq_getElem?_getD,getElem?_map] at hshard
    cases hj : shards[j]? with
    | none => simp [hj] at hshard
    | some other => simpa [hj] using hshard
  simpa [parityPositions] using hstart.rows h

theorem length_parityPositions (descriptor : SidecarDescriptor) :
    (parityPositions descriptor).length= descriptor.m.toNat*descriptor.stripesPerEpoch.toNat := by
  simp [parityPositions,length_flatMap]

theorem mem_parityPositions {s : ℕ} (hp : p < descriptor.m.toNat)
    (hs : s < descriptor.stripesPerEpoch.toNat) : (p,s) ∈ parityPositions descriptor := by
  simp only [parityPositions,mem_flatMap,mem_map,mem_range]
  exact ⟨p,hp,s,hs,rfl⟩

end ParityRegion

end Remanence.Parity.Sidecar
