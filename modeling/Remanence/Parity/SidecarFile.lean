import Remanence.Parity.SidecarBlocks

/-!
# Encoded sidecar tape files

Both copies of an encoded file parse to its header and index, the footer parses to their
locator, and each parity shard stands where its index entry says. The round trip of the whole
file follows.
-/

namespace Remanence.Parity.Sidecar

open Foundation List

variable {hash : HashFunctions} {descriptor : SidecarDescriptor} {parityShards : List Bytes}
  {dataShardCrc64s : List UInt64} {index : SidecarIndex}

def shardEntry (descriptor : SidecarDescriptor) (shard : Bytes) (i : ℕ) : ParityShardIndexEntry :=
  ⟨UInt32.ofNat (i/descriptor.m.toNat),UInt16.ofNat (i%descriptor.m.toNat),parityShardCrc64 shard⟩

def shardIndex (descriptor : SidecarDescriptor) (parityShards : List Bytes)
    (dataShardCrc64s : List UInt64) : SidecarIndex :=
  ⟨parityShards.zipIdx.map fun shard => shardEntry descriptor shard.1 shard.2,dataShardCrc64s⟩

variable {encoded : EncodedSidecarIndex}

theorem encodeSidecarIndexBlocks_steps
    (h : encodeSidecarIndexBlocks hash descriptor index=.ok encoded) :
    ∃ (steps : CopySteps hash descriptor index) (header : SidecarHeader),
      buildHeader hash descriptor steps.shardIndexBlockCount steps.inlineIndexEntryBytes .primary
        steps.metadataHash=.ok header ∧
      encoded=⟨(steps.copy header).1,(steps.copy header).2⟩ := by
  simp only [encodeSidecarIndexBlocks,eq_ok] at h
  obtain ⟨blockSize,hdescriptor,_,hshape,⟨blockCount,inlineBytes⟩,hlayout,blocks,hpack,metadataHash,
    hhash,header,hbuild,rfl⟩ := h
  exact ⟨⟨blockSize,blockCount,inlineBytes,blocks,metadataHash,hdescriptor,hshape,hlayout,hpack,
    hhash⟩,header,hbuild,rfl⟩

theorem sidecarMetadata_spec
    (h : sidecarMetadata hash descriptor parityShards dataShardCrc64s=.ok (encoded,index)) :
    index=shardIndex descriptor parityShards dataShardCrc64s ∧
      (∀ shard ∈ parityShards, shard.length=descriptor.blockSize.toNat) ∧
      encodeSidecarIndexBlocks hash descriptor index=.ok encoded := by
  simp only [sidecarMetadata,eq_ok,Prod.mk.injEq,not_not] at h
  obtain ⟨blockSize,hdescriptor,count,hcount,_,hlength,entries,hentries,encoded,hencoded,rfl,rfl⟩ := h
  obtain ⟨hbs,_⟩ := validateDescriptor_blockSize hdescriptor
  have hmap := map_of_mapM_eq_ok (g := fun shard => shardEntry descriptor shard.1 shard.2)
    (P := fun shard => shard.1.length=blockSize) hentries (by
      rintro ⟨shard,i⟩ _ entry hentry
      simp only [eq_ok,not_not] at hentry
      obtain ⟨_,hshard,rfl⟩ := hentry
      exact ⟨rfl,hshard⟩)
  obtain ⟨rfl,hshards⟩ := hmap
  refine ⟨rfl,?_,hencoded⟩
  intro shard hshard
  obtain ⟨i,hi⟩ := getElem?_of_mem hshard
  rw [hbs]
  exact hshards (shard,i) (mk_mem_zipIdx_iff_getElem?.mpr hi)

variable {blockCount inlineBytes : UInt64} {metadataHash : FixedBytes 32}

theorem buildHeader_tail {header tail : SidecarHeader}
    (h : buildHeader hash descriptor blockCount inlineBytes .primary metadataHash=.ok header)
    (ht : buildHeader hash descriptor blockCount inlineBytes .tail metadataHash=.ok tail) :
    tail={ header with copyKind := .tail } := by
  simp only [buildHeader,bind_eq_ok,pure_eq_ok] at h
  obtain ⟨range,hrange,count,hcount,start,hstart,footer,hfooter,total,htotal,rfl⟩ := h
  simp only [buildHeader,bind_eq_ok,pure_eq_ok,hrange,hcount,Except.ok.injEq] at ht
  obtain ⟨_,rfl,_,rfl,_,hstart',_,hfooter',_,htotal',rfl⟩ := ht
  rw [hstart,Except.ok.injEq] at hstart'
  subst hstart'
  rw [hfooter,Except.ok.injEq] at hfooter'
  rw [htotal,Except.ok.injEq] at htotal'
  subst hfooter' htotal'
  rfl

variable {header : SidecarHeader}

theorem buildHeader_blocks {kind : SidecarCopyKind}
    (h : buildHeader hash descriptor blockCount inlineBytes kind metadataHash=.ok header) :
    header.parityBlockCount.toNat=descriptor.stripesPerEpoch.toNat*descriptor.m.toNat ∧
      header.primaryHeaderStartBlock=0 ∧
      header.tailHeaderStartBlock.toNat=blockCount.toNat+header.parityBlockCount.toNat ∧
      header.sidecarTotalBlockCount.toNat= 2*blockCount.toNat+header.parityBlockCount.toNat+1 ∧
      checkedAdd64 blockCount header.parityBlockCount=some header.tailHeaderStartBlock ∧
      checkedAdd64 header.tailHeaderStartBlock blockCount=some header.footerBlockIndex ∧
      checkedSidecarTotalBlocks blockCount header.parityBlockCount=
        .ok header.sidecarTotalBlockCount := by
  simp only [buildHeader,eq_ok] at h
  obtain ⟨range,hrange,count,hcount,start,hstart,footer,hfooter,total,htotal,rfl⟩ := h
  simp only [SidecarDescriptor.parityBlockCount,orElseError_eq_ok,checkedMul32_eq_some] at hcount
  have htotal' := htotal
  simp only [checkedSidecarTotalBlocks,orElseError_eq_ok,Option.bind_eq_some_iff] at htotal'
  obtain ⟨_,hsum,_,hsum',hsum''⟩ := htotal'
  rw [hstart] at hsum
  obtain rfl := Option.some.inj hsum
  have hstartNat := checkedAdd64_eq_some.mp hstart
  have hmid := checkedAdd64_eq_some.mp hsum'
  have hlast := checkedAdd64_eq_some.mp hsum''
  refine ⟨?_,rfl,hstartNat.symm,?_,hstart,hfooter,htotal⟩
  · rw [UInt32.toNat_toUInt64,←hcount,UInt16.toNat_toUInt32]
  · simp only [UInt64.toNat_one] at hlast
    simp only
    omega

structure SidecarFile (hash : HashFunctions) (descriptor : SidecarDescriptor)
    (parityShards : List Bytes) (dataShardCrc64s : List UInt64) (file : EncodedSidecarTapeFile) :
    Prop where
  index_eq : file.index=shardIndex descriptor parityShards dataShardCrc64s
  shape : validateIndexShape descriptor file.index=.ok ()
  shard_length : ∀ shard ∈ parityShards, shard.length=descriptor.blockSize.toNat
  descriptor_eq : file.header.descriptor=descriptor
  kind : file.header.copyKind=.primary
  blocks_pos : 0 < file.header.shardIndexBlockCount.toNat
  parity_count : file.header.parityBlockCount.toNat=
    descriptor.stripesPerEpoch.toNat*descriptor.m.toNat
  tail_start : file.header.tailHeaderStartBlock.toNat=
    file.header.shardIndexBlockCount.toNat+descriptor.stripesPerEpoch.toNat*descriptor.m.toNat
  total : file.header.sidecarTotalBlockCount.toNat=2*file.header.shardIndexBlockCount.toNat+
    descriptor.stripesPerEpoch.toNat*descriptor.m.toNat+1
  length_eq : file.blocks.length=2*file.header.shardIndexBlockCount.toNat+
    descriptor.stripesPerEpoch.toNat*descriptor.m.toNat+1
  primary : parseSidecarIndexBlocks hash
    (file.blocks.take file.header.shardIndexBlockCount.toNat) descriptor.tapeUuid=
      .ok ⟨file.header,file.index⟩
  tail : ∃ headerCrc blockCrc, parseSidecarIndexBlocks hash
    ((file.blocks.drop file.header.tailHeaderStartBlock.toNat).take
      file.header.shardIndexBlockCount.toNat) descriptor.tapeUuid=
        .ok ⟨{ file.header with copyKind := .tail,headerCrc64 := headerCrc,block0Crc64 := blockCrc },
          file.index⟩
  footer : ∃ block crc, file.blocks.getLast?=some block ∧ block.length=descriptor.blockSize.toNat ∧
    parseSidecarFooterBlock hash block descriptor.tapeUuid=.ok (footerOf hash file.header crc)
  placed : ∀ p s, p < descriptor.m.toNat → s < descriptor.stripesPerEpoch.toNat →
    ∃ position shard, parityBlockPosition (UInt32.ofNat s) (UInt16.ofNat p)
      descriptor.stripesPerEpoch descriptor.m file.header.shardIndexBlockCount=.ok position ∧
    file.blocks[position]?=some shard ∧ parityShards[s*descriptor.m.toNat+p]?=some shard

theorem encodeSidecarTapeFile_spec {file : EncodedSidecarTapeFile}
    (h : encodeSidecarTapeFile hash descriptor parityShards dataShardCrc64s=.ok file) :
    SidecarFile hash descriptor parityShards dataShardCrc64s file := by
  simp only [encodeSidecarTapeFile,eq_ok] at h
  obtain ⟨⟨encoded,index⟩,hmetadata,emitted,hemitted,tailBlocks,htailBlocks,tailHeader,htailHeader,
    footer,hfooter,rfl⟩ := h
  obtain ⟨hindex,hshards,hencoded⟩ := sidecarMetadata_spec hmetadata
  obtain ⟨steps,header,hbuild,rfl⟩ := encodeSidecarIndexBlocks_steps hencoded
  have hbuilt : BuiltHeader hash descriptor steps.shardIndexBlockCount
    steps.inlineIndexEntryBytes .primary steps.metadataHash (steps.copy header).1 :=
      (buildHeader_spec hbuild).finalized _
  obtain ⟨hbs,_⟩ := validateDescriptor_blockSize steps.descriptor_ok
  obtain ⟨hlength,hpos⟩ := steps.length_copy header
  obtain ⟨hparity,hprimary,htailStart,htotal,hadd,hadd',htotal'⟩ := buildHeader_blocks hbuild
  -- the tail copy is made of the same steps
  have hsameBlocks : tailBlocks=steps.blocks := by
    rw [hbs,steps.pack_ok] at htailBlocks
    exact (Except.ok.inj htailBlocks).symm
  simp only [hbuilt.blocks,hbuilt.inlineBytes,hbuilt.hash_eq] at htailHeader hemitted
  have htail := buildHeader_tail hbuild htailHeader
  have hparseTail := steps.parse_copy htailHeader
  have hlengthTail := (steps.length_copy tailHeader).1
  have hemission := emitShards_spec hemitted
  obtain ⟨region,hregion⟩ := hemission.front
  have hregionLen : region.length=descriptor.stripesPerEpoch.toNat*descriptor.m.toNat := by
    have hcount := hemission.length_eq
    rw [←hregion,length_append,length_parityPositions,mul_comm] at hcount
    omega
  have hblocks : emitted.blocks++replaceFirst tailBlocks
      (finalizeHeaderBlock tailHeader (tailBlocks.headD [])).2++[footer]=
      (steps.copy header).2++(region++((steps.copy tailHeader).2++[footer])) := by
    rw [hsameBlocks,←hregion]
    simp [CopySteps.copy]
  have hfooterBlock := encodeSidecarFooterBlock_spec hfooter
  obtain ⟨crc,hfooterBlock⟩ := hfooterBlock
  have hheaderBlocks := hbuilt.blocks
  have hpositions : (steps.copy header).1.tailHeaderStartBlock.toNat=
      steps.shardIndexBlockCount.toNat+descriptor.stripesPerEpoch.toNat*descriptor.m.toNat := by
    rw [←hparity]
    exact htailStart
  refine
    { index_eq := hindex
      shape := steps.shape_ok
      shard_length := hshards
      descriptor_eq := hbuilt.descriptor_eq
      kind := hbuilt.kind
      blocks_pos := by rw [hheaderBlocks]; exact hpos
      parity_count := hparity
      tail_start := by rw [hheaderBlocks]; exact hpositions
      total := ?_
      length_eq := ?_
      primary := ?_
      tail := ?_
      footer := ?_
      placed := ?_ }
  · rw [hheaderBlocks,←hparity]
    exact htotal
  · simp only [hblocks,hheaderBlocks,length_append,hlength,hregionLen,hlengthTail, length_singleton]
    omega
  · simp only [hblocks,hheaderBlocks]
    rw [take_left' hlength]
    exact steps.parse_copy hbuild
  · have htailCopy : ((emitted.blocks++replaceFirst tailBlocks
        (finalizeHeaderBlock tailHeader (tailBlocks.headD [])).2++[footer]).drop
        (steps.copy header).1.tailHeaderStartBlock.toNat).take
        (steps.copy header).1.shardIndexBlockCount.toNat=(steps.copy tailHeader).2 := by
      rw [hblocks,hheaderBlocks,hpositions,←drop_drop,drop_left' hlength,
        drop_left' hregionLen,take_left' hlengthTail]
    rw [htailCopy,hparseTail]
    subst htail
    exact ⟨_,_,rfl⟩
  · refine ⟨footer,crc,by simp,?_,?_⟩
    · rw [hfooterBlock.length_eq,hbuilt.blockSize_eq]
    · have hzero : steps.shardIndexBlockCount≠0 := by
        intro hzero
        rw [hzero] at hpos
        exact absurd hpos (by decide)
      have hlast : checkedSub64 header.sidecarTotalBlockCount 1=some header.footerBlockIndex := by
        have hfooterIndex := checkedAdd64_eq_some.mp hadd'
        rw [checkedSub64_eq_some,UInt64.toNat_one]
        omega
      have hlayout : validateSidecarLayout (steps.copy header).1.shardIndexBlockCount
          header.parityBlockCount header.sidecarTotalBlockCount header.primaryHeaderStartBlock
          header.tailHeaderStartBlock header.footerBlockIndex=.ok () := by
        rw [hheaderBlocks,hprimary]
        exact validateSidecarLayout_derived hzero hadd hadd' htotal'
      rw [←hbuilt.tapeUuid_eq]
      exact parseSidecarFooterBlock_encoded hfooterBlock hlast hlayout
  · intro p s hp hs
    obtain ⟨position,shard,hposition,hblock,hsource⟩ :=
      hemission.placed p s (mem_parityPositions hp hs)
    refine ⟨position,shard,?_,?_,hsource⟩
    · simp only [hheaderBlocks]
      exact hposition
    · have hlt := (List.getElem?_eq_some_iff.mp hblock).1
      simp only [append_assoc]
      rw [getElem?_append_left hlt]
      exact hblock

namespace SidecarFile

variable {file : EncodedSidecarTapeFile}

section

variable (h : SidecarFile hash descriptor parityShards dataShardCrc64s file)
include h

theorem primary_copy (crc : UInt64) :
    parseSidecarIndexCopy hash (file.blocks.take file.header.shardIndexBlockCount.toNat)
      descriptor.tapeUuid (footerOf hash file.header crc) .primary=
        .ok ⟨file.header,file.index⟩ := by
  simp only [parseSidecarIndexCopy,h.primary,ok_bind,eq_ok]
  exact ⟨(),not_not.mpr h.kind,(),validateHeaderMatchesFooter_footerOf hash file.header crc,
    trivial⟩

theorem tail_copy (crc : UInt64) : ∃ header, parseSidecarIndexCopy hash
        ((file.blocks.drop file.header.tailHeaderStartBlock.toNat).take
          file.header.shardIndexBlockCount.toNat)
        descriptor.tapeUuid (footerOf hash file.header crc) .tail=.ok ⟨header,file.index⟩ ∧
      sidecarHeaderMetadataMatches file.header header=true ∧ header.descriptor=descriptor ∧
      header.shardIndexBlockCount=file.header.shardIndexBlockCount := by
  obtain ⟨headerCrc,blockCrc,htail⟩ := h.tail
  refine ⟨{ file.header with
    copyKind := .tail,headerCrc64 := headerCrc,block0Crc64 := blockCrc },?_,?_,h.descriptor_eq,rfl⟩
  · simp only [parseSidecarIndexCopy,htail,ok_bind,eq_ok]
    exact ⟨(),not_not.mpr rfl,(),validateHeaderMatchesFooter_footerOf hash _ crc,trivial⟩
  · simp [sidecarHeaderMetadataMatches]

theorem shard_count : parityShards.length=descriptor.stripesPerEpoch.toNat*descriptor.m.toNat := by
  obtain ⟨⟨count,hcount,hlength⟩,_⟩ := validateIndexShape_lengths h.shape
  simp only [SidecarDescriptor.parityBlockCount,orElseError_eq_ok,checkedMul32_eq_some,
    UInt16.toNat_toUInt32] at hcount
  rw [h.index_eq] at hlength
  simp only [shardIndex,length_map,length_zipIdx] at hlength
  rw [hlength,hcount]

theorem position_lt {i : ℕ} (hi : i < parityShards.length) :
    i%descriptor.m.toNat < descriptor.m.toNat ∧
      i/descriptor.m.toNat < descriptor.stripesPerEpoch.toNat := by
  rw [h.shard_count] at hi
  have hpos : 0 < descriptor.m.toNat := by
    rcases Nat.eq_zero_or_pos descriptor.m.toNat with hzero | hpos
    · rw [hzero,mul_zero] at hi
      omega
    · exact hpos
  exact ⟨Nat.mod_lt _ hpos,Nat.div_lt_of_lt_mul (by rwa [mul_comm])⟩

end

theorem parityBlockPosition_eq_ok {stripes : UInt32} {m : UInt16} {indexBlocks : UInt64}
    {s p position : ℕ} (hs : s < stripes.toNat) (hp : p < m.toNat) :
    parityBlockPosition (UInt32.ofNat s) (UInt16.ofNat p) stripes m indexBlocks=.ok position ↔
      indexBlocks.toNat+p*stripes.toNat+s ≤ u64Max ∧
        position=indexBlocks.toNat+p*stripes.toNat+s := by
  have hsWord := UInt32.toNat_ofNat_of_lt' (lt_trans hs stripes.toNat_lt)
  have hpWord := UInt16.toNat_ofNat_of_lt' (lt_trans hp m.toNat_lt)
  simp [parityBlockPosition,checkedU64_eq_ok,hsWord,hpWord,UInt32.le_iff_toNat_le,
    UInt16.le_iff_toNat_le,hs,hp]

theorem position_bounds (_h : SidecarFile hash descriptor parityShards dataShardCrc64s file)
    {p s position : ℕ} (hp : p < descriptor.m.toNat) (hs : s < descriptor.stripesPerEpoch.toNat)
    (hposition : parityBlockPosition (UInt32.ofNat s) (UInt16.ofNat p)
      descriptor.stripesPerEpoch descriptor.m file.header.shardIndexBlockCount=.ok position) :
    file.header.shardIndexBlockCount.toNat ≤ position ∧
      position < file.header.shardIndexBlockCount.toNat+
        descriptor.stripesPerEpoch.toNat*descriptor.m.toNat := by
  obtain ⟨-,rfl⟩ := (parityBlockPosition_eq_ok hs hp).mp hposition
  have hrows : (p+1)*descriptor.stripesPerEpoch.toNat ≤
      descriptor.m.toNat*descriptor.stripesPerEpoch.toNat := Nat.mul_le_mul_right _ hp
  rw [add_mul,one_mul,mul_comm descriptor.m.toNat] at hrows
  omega

def SameRegion (file : EncodedSidecarTapeFile) (descriptor : SidecarDescriptor)
    (blocks : List Bytes) : Prop :=
  ∀ position, file.header.shardIndexBlockCount.toNat ≤ position →
    position < file.header.shardIndexBlockCount.toNat+
      descriptor.stripesPerEpoch.toNat*descriptor.m.toNat →
    blocks[position]?=file.blocks[position]?

section

variable (h : SidecarFile hash descriptor parityShards dataShardCrc64s file)
include h

theorem readParityShard_entry {blocks : List Bytes}
    (hregion : SameRegion file descriptor blocks) (hdescriptor : header.descriptor=descriptor)
    (hcount : header.shardIndexBlockCount=file.header.shardIndexBlockCount) {i : ℕ} {shard : Bytes}
    (hshard : parityShards[i]?=some shard) :
    readParityShard blocks header (shardEntry descriptor shard i) i=.ok shard := by
  have hi := (List.getElem?_eq_some_iff.mp hshard).1
  obtain ⟨hp,hs⟩ := h.position_lt hi
  obtain ⟨position,placed,hposition,hblock,hsource⟩ := h.placed _ _ hp hs
  have hplaced : placed=shard := by
    rw [Nat.div_add_mod',hshard] at hsource
    exact (Option.some.inj hsource).symm
  subst hplaced
  obtain ⟨hlow,hhigh⟩ := h.position_bounds hp hs hposition
  have hstripes : header.stripesPerEpoch=descriptor.stripesPerEpoch := by
    rw [←hdescriptor]
    rfl
  have hm : header.m=descriptor.m := by
    rw [←hdescriptor]
    rfl
  have hsize : header.blockSize=descriptor.blockSize := by
    rw [←hdescriptor]
    rfl
  have hget : blocks.getD position []=placed := by
    rw [getD_eq_getElem?_getD,hregion position hlow hhigh,hblock]
    rfl
  simp only [readParityShard,shardEntry,hstripes,hm,hsize,hcount,hposition,ok_bind,hget,eq_ok]
  exact ⟨(),not_not.mpr (h.shard_length _ (mem_of_getElem? hshard)),(),not_not.mpr rfl, trivial⟩

theorem readParityShards {blocks : List Bytes}
    (hregion : SameRegion file descriptor blocks) (hdescriptor : header.descriptor=descriptor)
    (hcount : header.shardIndexBlockCount=file.header.shardIndexBlockCount) :
    (file.index.parityEntries.zipIdx.mapM fun (entry,i) =>
      readParityShard blocks header entry i)=.ok parityShards := by
  have hread : ∀ item ∈ file.index.parityEntries.zipIdx,
      (match item with | (entry,i) => readParityShard blocks header entry i)=
        .ok (parityShards.getD item.2 []) := by
    rintro ⟨entry,i⟩ hmem
    have hentry := mk_mem_zipIdx_iff_getElem?.mp hmem
    rw [h.index_eq] at hentry
    simp only [shardIndex,getElem?_map,getElem?_zipIdx,zero_add,
      Option.map_map,Option.map_eq_some_iff] at hentry
    obtain ⟨shard,hshard,rfl⟩ := hentry
    rw [getD_eq_getElem?_getD,hshard]
    exact h.readParityShard_entry hregion hdescriptor hcount hshard
  have hmap := mapM_eq_ok_map hread
  have hlist : (file.index.parityEntries.zipIdx.map fun item => parityShards.getD item.2 [])=
      parityShards := by
    rw [h.index_eq]
    apply ext_getElem
    · simp [shardIndex]
    · intro i h1 h2
      simp [shardIndex,getD_eq_getElem?_getD,getElem?_eq_getElem h2]
  rwa [hlist] at hmap

theorem block_at {p s : ℕ} (hp : p < descriptor.m.toNat)
    (hs : s < descriptor.stripesPerEpoch.toNat) :
    file.blocks[file.header.shardIndexBlockCount.toNat+
      p*descriptor.stripesPerEpoch.toNat+s]?=parityShards[s*descriptor.m.toNat+p]? := by
  obtain ⟨position,shard,hposition,hblock,hsource⟩ := h.placed p s hp hs
  obtain ⟨-,rfl⟩ := (parityBlockPosition_eq_ok hs hp).mp hposition
  rw [hblock,hsource]

end

end SidecarFile

/-- Parsing restores the header, the index and the parity shards in stripe-major order. -/
theorem parseSidecarTapeFile_encodeSidecarTapeFile {file : EncodedSidecarTapeFile}
    (h : encodeSidecarTapeFile hash descriptor parityShards dataShardCrc64s=.ok file) :
    parseSidecarTapeFile hash file.blocks descriptor.tapeUuid=
        .ok ⟨file.header,file.index,parityShards⟩ ∧
      file.header.descriptor=descriptor ∧
      file.index=shardIndex descriptor parityShards dataShardCrc64s ∧
      file.blocks.length=2*file.header.shardIndexBlockCount.toNat+
        descriptor.stripesPerEpoch.toNat*descriptor.m.toNat+1 ∧
      ∀ p s, p < descriptor.m.toNat → s < descriptor.stripesPerEpoch.toNat →
        file.blocks[file.header.shardIndexBlockCount.toNat+
          p*descriptor.stripesPerEpoch.toNat+s]?=parityShards[s*descriptor.m.toNat+p]? := by
  have hfile := encodeSidecarTapeFile_spec h
  refine ⟨?_,hfile.descriptor_eq,hfile.index_eq,hfile.length_eq,fun p s hp hs => hfile.block_at hp hs⟩
  obtain ⟨footerBlock,crc,hlast,_,hfooter⟩ := hfile.footer
  obtain ⟨tailHeader,htail,hmatches,_,_⟩ := hfile.tail_copy crc
  have hprimary := hfile.primary_copy crc
  have hshards := hfile.readParityShards (fun _ _ _ => rfl) hfile.descriptor_eq rfl
  have hlength := hfile.length_eq
  have htotal := hfile.total
  have htailStart := hfile.tail_start
  have hpos := hfile.blocks_pos
  have hselect : selectCopy (.ok ⟨file.header,file.index⟩) (.ok ⟨tailHeader,file.index⟩)=
      .ok ⟨file.header,file.index⟩ := by
    simp [selectCopy,hmatches]
  simp only [parseSidecarTapeFile,hlast,orElseError_some,ok_bind,hfooter,eq_ok]
  refine ⟨(),?_,(),?_,⟨file.header,file.index⟩,?_,parityShards,hshards,rfl⟩
  · simp only [footerOf,not_not]
    omega
  · simp only [footerOf]
    omega
  · simp only [footerOf] at hprimary htail ⊢
    rw [hprimary,htail]
    exact hselect

def constantHash : HashFunctions := ⟨fun _ => FixedBytes.zero 32,fun _ _ => FixedBytes.zero 32⟩

def smallDescriptor : SidecarDescriptor := ⟨FixedBytes.zero 16,1,2,2,2,256,10,13⟩

def smallShards : List Bytes := (List.range 4).map fun i => replicate 256 (UInt8.ofNat i)

theorem smallDescriptor_round_trip : ∃ file,
    encodeSidecarTapeFile constantHash smallDescriptor smallShards [1,2,3]=.ok file ∧
      parseSidecarTapeFile constantHash file.blocks smallDescriptor.tapeUuid=
        .ok ⟨file.header,file.index,smallShards⟩ := by
  have hok : (encodeSidecarTapeFile constantHash smallDescriptor smallShards [1,2,3]).isOk=true := by
    decide +kernel
  obtain ⟨file,h⟩ := exists_of_isOk hok
  exact ⟨file,h,(parseSidecarTapeFile_encodeSidecarTapeFile h).1⟩

end Remanence.Parity.Sidecar
