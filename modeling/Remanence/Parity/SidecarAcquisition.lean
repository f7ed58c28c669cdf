import Remanence.Parity.Addressing
import Remanence.Parity.Recovery
import Remanence.Parity.SidecarFile

/-!
# Acquisition of a damaged sidecar's index

Records of a sidecar file may have become unreadable, of another length, or blocks whose own CRC
fails. While the footer and one metadata copy survive, acquisition returns the written index,
unless an available directory entry names another metadata hash.
-/

namespace Remanence.Parity.Recovery

open Foundation Sidecar Crc64 List

def Detected (blockSize : ℕ) (check : Bytes → Prop) (record : TapeRecord) : Prop :=
  ∀ bytes, record=.record bytes → bytes.length=blockSize → ¬check bytes

def Sealed (block : Bytes) : Prop :=
  readU64Le block (block.length-8)=crc64Xz (block.take (block.length-8))

section Reads

variable {tape : Tape} {lba blockSize : ℕ} {block : Bytes}

theorem readRequiredBlock_eq_ok : readRequiredBlock tape lba blockSize=.ok block ↔
      tape lba=.record block ∧ block.length=blockSize := by
  unfold readRequiredBlock
  cases hrecord : tape lba with
  | record bytes =>
    simp only [TapeRecord.record.injEq]
    split
    · rename_i hlen
      rw [Except.ok.injEq]
      constructor
      · rintro rfl
        exact ⟨rfl,hlen⟩
      · exact And.left
    · rename_i hlen
      simp only [reduceCtorEq,false_iff,not_and]
      rintro rfl
      exact hlen
  | filemark => simp
  | endOfData => simp
  | unreadable fault => simp

variable {scopedMap : ScopedFilemarkMap} {entry : TapeFileMapEntry} {number : ℕ}

theorem readSidecarBlock_eq_ok {blockWithinFile : ℕ} (hnumber : entry.tapeFileNumber.toNat=number) :
    readSidecarBlock tape scopedMap entry blockWithinFile blockSize=.ok block ↔
      ∃ physical, scopedMap.map.physicalPosition ⟨number,blockWithinFile⟩=.ok physical ∧
        tape physical=.record block ∧ block.length=blockSize := by
  simp only [readSidecarBlock,hnumber,bind_eq_ok,←readRequiredBlock_eq_ok]
  refine exists_congr fun physical => and_congr_right fun _ => ?_
  cases readRequiredBlock tape physical blockSize with
  | ok bytes => rfl
  | error error => cases error <;> simp

end Reads

section Parsed

variable {hash : HashFunctions} {uuid : FixedBytes 16} {block : Bytes}

theorem parseSidecarHeaderBlock_checked {header : SidecarHeader}
    (h : parseSidecarHeaderBlock hash block uuid=.ok header) :
    Sealed block ∧ validateHeaderCounts header.counts=.ok () := by
  simp only [parseSidecarHeaderBlock,eq_ok,not_not] at h
  obtain ⟨_,_,_,_,_,_,kind,_,_,_,_,_,_,_,_,hsize,_,_,_,_,_,hcrc,_,hcounts,_,_,_,_,_,_,_,_,_,_,rfl⟩ := h
  rw [hsize] at hcrc
  exact ⟨hcrc,hcounts⟩

theorem validateHeaderCounts_range {counts : HeaderCounts}
    (h : validateHeaderCounts counts=.ok ()) :
    checkedSub64 counts.protectedOrdinalEndExclusive counts.protectedOrdinalStart=
        some counts.realDataShardCount ∧
      0 < counts.realDataShardCount.toNat ∧
      counts.realDataShardCount.toNat ≤ counts.stripesPerEpoch.toNat*counts.k.toNat := by
  simp only [validateHeaderCounts,validateShardCounts,eq_ok, not_not] at h
  obtain ⟨_,⟨_,_,range,hrange,_,hzero,_,hlogical,_,hreal,_,hfits,_⟩,_⟩ := h
  rw [←hlogical]
  refine ⟨hreal ▸ hrange,?_,UInt64.le_iff_toNat_le.mp (UInt64.not_lt.mp hfits)⟩
  rw [hreal]
  exact Nat.pos_of_ne_zero fun hz => hzero (UInt64.toNat_inj.mp hz)

variable {decoded : DecodedSidecarIndex}

theorem parseSidecarIndexBlocks_block {blocks : List Bytes}
    (h : parseSidecarIndexBlocks hash blocks uuid=.ok decoded) {i : ℕ}
    (hblock : blocks[i]?=some block) (hi : i < decoded.header.shardIndexBlockCount.toNat) :
    block.length=decoded.header.blockSize.toNat ∧ Sealed block := by
  simp only [parseSidecarIndexBlocks,eq_ok] at h
  obtain ⟨block0,hhead,header,hheader,_,_,_,hblocks,index,_,_,_,_,_,_,_,rfl⟩ := h
  have hmem : (block,i) ∈ (blocks.take header.shardIndexBlockCount.toNat).zipIdx := by
    rw [mk_mem_zipIdx_iff_getElem?,getElem?_take,if_pos hi]
    exact hblock
  have hstep := forM_eq_ok.mp hblocks _ hmem
  simp only [eq_ok,validateSpillBlockCrc,not_not] at hstep
  obtain ⟨_,hlength,hcrc⟩ := hstep
  refine ⟨hlength,?_⟩
  cases i with
  | zero =>
    rw [head?_eq_getElem?,hblock] at hhead
    obtain rfl := Option.some.inj hhead
    exact (parseSidecarHeaderBlock_checked hheader).1
  | succ i =>
    rwa [if_pos (Nat.succ_pos i),rejectIf_eq_ok,not_not] at hcrc

theorem parseSidecarIndexBlocks_counts {blocks : List Bytes}
    (h : parseSidecarIndexBlocks hash blocks uuid=.ok decoded) :
    validateHeaderCounts decoded.header.counts=.ok () := by
  simp only [parseSidecarIndexBlocks,eq_ok] at h
  obtain ⟨block0,_,header,hheader,_,_,_,_,index,_,_,_,_,_,_,_,rfl⟩ := h
  exact (parseSidecarHeaderBlock_checked hheader).2

theorem validateHeaderCounts_primary {counts : HeaderCounts}
    (h : validateHeaderCounts counts=.ok ()) : counts.primaryHeaderStartBlock=0 := by
  simp only [validateHeaderCounts,validateSidecarLayout,eq_ok,not_not] at h
  obtain ⟨_,_,_,_,_,hprimary,_⟩ := h
  exact hprimary

end Parsed

def recordAt (tape : Tape) (map : FilemarkMap) (position : TapeFilePosition) :
    Except ParityError TapeRecord := do
  let physical ← map.physicalPosition position
  return tape physical

structure SidecarRow (map : FilemarkMap) (descriptor : SidecarDescriptor)
    (file : EncodedSidecarTapeFile) (number : ℕ) (entry : TapeFileMapEntry) : Prop where
  entry_at : map.entries[number]?=some entry
  kind : entry.kind=.paritySidecar
  blockCount_eq : entry.blockCount.toNat=file.blocks.length
  epochId : entry.epochId=some descriptor.epochId
  start : entry.protectedOrdinalStart=some descriptor.protectedOrdinalStart
  stop : entry.protectedOrdinalEndExclusive=some descriptor.protectedOrdinalEndExclusive

def Stands (tape : Tape) (map : FilemarkMap) (number : ℕ) (file : EncodedSidecarTapeFile)
    (blockWithinFile : ℕ) : Prop :=
  recordAt tape map ⟨number,blockWithinFile⟩=.ok (.record (file.blocks.getD blockWithinFile []))

def copyStart (file : EncodedSidecarTapeFile) : SidecarCopyKind → ℕ
  | .primary => 0
  | .tail => file.header.tailHeaderStartBlock.toNat

structure MetadataSurvives (tape : Tape) (map : FilemarkMap) (number : ℕ)
    (descriptor : SidecarDescriptor) (file : EncodedSidecarTapeFile) : Prop where
  footer : Stands tape map number file (file.blocks.length-1)
  detected : ∀ kind, ∀ offset < file.header.shardIndexBlockCount.toNat,
    Stands tape map number file (copyStart file kind+offset) ∨
      ∃ record, recordAt tape map ⟨number,copyStart file kind+offset⟩=.ok record ∧
        Detected descriptor.blockSize.toNat Sealed record
  copy : ∃ kind, ∀ offset < file.header.shardIndexBlockCount.toNat,
    Stands tape map number file (copyStart file kind+offset)

structure AcquiredIndex (descriptor : SidecarDescriptor) (file : EncodedSidecarTapeFile)
    (decoded : DecodedSidecarIndex) : Prop where
  index_eq : decoded.index=file.index
  descriptor_eq : decoded.header.descriptor=descriptor
  blocks_eq : decoded.header.shardIndexBlockCount=file.header.shardIndexBlockCount
  range : checkedSub64 decoded.header.protectedOrdinalEndExclusive
    decoded.header.protectedOrdinalStart=some decoded.header.realDataShardCount
  range_pos : 0 < decoded.header.realDataShardCount.toNat
  range_le : decoded.header.realDataShardCount.toNat ≤
    decoded.header.stripesPerEpoch.toNat*decoded.header.k.toNat

section Sidecar

variable {hash : HashFunctions} {descriptor : SidecarDescriptor} {parityShards : List Bytes}
  {dataShardCrc64s : List UInt64} {file : EncodedSidecarTapeFile} {tape : Tape}
  {scopedMap : ScopedFilemarkMap} {number : ℕ} {entry : TapeFileMapEntry}

theorem SidecarRow.number_eq (h : SidecarRow scopedMap.map descriptor file number entry) :
    entry.tapeFileNumber.toNat=number :=
  scopedMap.map.tapeFileNumber_eq h.entry_at

theorem SidecarRow.readSidecarBlock_iff (h : SidecarRow scopedMap.map descriptor file number entry)
    {blockWithinFile blockSize : ℕ} :
    readSidecarBlock tape scopedMap entry blockWithinFile blockSize=.ok block ↔
      recordAt tape scopedMap.map ⟨number,blockWithinFile⟩=.ok (.record block) ∧
        block.length=blockSize := by
  simp only [readSidecarBlock_eq_ok h.number_eq,recordAt,eq_ok]
  constructor
  · rintro ⟨physical,hphysical,hrecord,hlen⟩
    exact ⟨⟨physical,hphysical,hrecord⟩,hlen⟩
  · rintro ⟨⟨physical,hphysical,hrecord⟩,hlen⟩
    exact ⟨physical,hphysical,hrecord,hlen⟩

def copyBlocks (file : EncodedSidecarTapeFile) (kind : SidecarCopyKind) : List Bytes :=
  (file.blocks.drop (copyStart file kind)).take file.header.shardIndexBlockCount.toNat

/-- Agreement of an index with a locator, as acquisition compares them. -/
def MatchesLocator (decoded : DecodedSidecarIndex) (footer : SidecarFooter) : Prop :=
  decoded.header.sidecarTotalBlockCount=footer.sidecarTotalBlockCount ∧
    decoded.header.shardIndexBlockCount=footer.sidecarHeaderBlockCount ∧
    decoded.header.parityBlockCount=footer.parityShardBlockCount ∧
    decoded.header.primaryHeaderStartBlock=footer.primaryHeaderStartBlock ∧
    decoded.header.tailHeaderStartBlock=footer.tailHeaderStartBlock ∧
    decoded.header.canonicalMetadataHash=footer.canonicalMetadataHash

section Written

variable (h : SidecarFile hash descriptor parityShards dataShardCrc64s file)

include h

theorem parse_copyBlocks (kind : SidecarCopyKind) (crc : UInt64) :
    ∃ decoded, parseSidecarIndexBlocks hash (copyBlocks file kind) descriptor.tapeUuid=.ok decoded ∧
      decoded.header.copyKind=kind ∧ MatchesLocator decoded (footerOf hash file.header crc) ∧
      AcquiredIndex descriptor file decoded := by
  cases kind with
  | primary =>
    have hparse := h.primary
    obtain ⟨hrange,hpos,hle⟩ :=
      validateHeaderCounts_range (parseSidecarIndexBlocks_counts hparse)
    exact ⟨_,hparse,h.kind,⟨rfl,rfl,rfl,rfl,rfl,rfl⟩,rfl,h.descriptor_eq,rfl,hrange,hpos,hle⟩
  | tail =>
    obtain ⟨headerCrc,blockCrc,hparse⟩ := h.tail
    obtain ⟨hrange,hpos,hle⟩ :=
      validateHeaderCounts_range (parseSidecarIndexBlocks_counts hparse)
    exact ⟨_,hparse,rfl,⟨rfl,rfl,rfl,rfl,rfl,rfl⟩,rfl,h.descriptor_eq,rfl,hrange,hpos,hle⟩

theorem copyStart_le (kind : SidecarCopyKind) :
    copyStart file kind+file.header.shardIndexBlockCount.toNat ≤ file.blocks.length-1 := by
  have hlength := h.length_eq
  have htail := h.tail_start
  cases kind with
  | primary => simp only [copyStart]; omega
  | tail => simp only [copyStart]; omega

variable {kind : SidecarCopyKind}

theorem getElem?_copyBlocks {offset : ℕ} (hoffset : offset < file.header.shardIndexBlockCount.toNat) :
    (copyBlocks file kind)[offset]?=some (file.blocks.getD (copyStart file kind+offset) []) := by
  have hle := copyStart_le h kind
  rw [copyBlocks,getElem?_take,if_pos hoffset,getElem?_drop,getD_eq_getElem?_getD,
    getElem?_eq_getElem (by omega)]
  rfl

theorem copyBlocks_eq_map (kind : SidecarCopyKind) :
    copyBlocks file kind=(List.range file.header.shardIndexBlockCount.toNat).map
      fun offset => file.blocks.getD (copyStart file kind+offset) [] := by
  apply ext_getElem?
  intro offset
  by_cases hoffset : offset < file.header.shardIndexBlockCount.toNat
  · rw [getElem?_copyBlocks h hoffset,getElem?_map,getElem?_range hoffset]
    rfl
  · rw [getElem?_eq_none,getElem?_eq_none]
    · rw [length_map,length_range]
      omega
    · rw [copyBlocks,length_take]
      omega

theorem length_copyBlock (kind : SidecarCopyKind) {offset : ℕ}
    (hoffset : offset < file.header.shardIndexBlockCount.toNat) :
    (file.blocks.getD (copyStart file kind+offset) []).length=descriptor.blockSize.toNat := by
  obtain ⟨decoded,hparse,_,_,hacquired⟩ := parse_copyBlocks h kind 0
  rw [←hacquired.descriptor_eq]
  refine (parseSidecarIndexBlocks_block hparse (getElem?_copyBlocks h hoffset) ?_).1
  rw [hacquired.blocks_eq]
  exact hoffset

theorem length_blocks_le : file.blocks.length ≤ u64Max := by
  have hlength := h.length_eq
  have htotal := h.total
  have hlt := file.header.sidecarTotalBlockCount.toNat_lt
  unfold u64Max
  omega

theorem copyStartBlock_footerOf (kind : SidecarCopyKind) (crc : UInt64) :
    copyStartBlock (footerOf hash file.header crc) kind=copyStart file kind := by
  cases kind with
  | primary =>
    have hprimary : file.header.primaryHeaderStartBlock=0 :=
      validateHeaderCounts_primary (parseSidecarIndexBlocks_counts h.primary)
    rw [copyStartBlock,footerOf,hprimary]
    rfl
  | tail => rfl

variable (hrow : SidecarRow scopedMap.map descriptor file number entry)

include hrow

theorem readSidecarIndexCopy_intact (hstands : ∀ offset < file.header.shardIndexBlockCount.toNat,
      Stands tape scopedMap.map number file (copyStart file kind+offset)) (crc : UInt64) :
    ∃ decoded, readSidecarIndexCopy hash tape scopedMap entry descriptor.tapeUuid
      descriptor.blockSize.toNat (footerOf hash file.header crc) kind=.ok decoded := by
  obtain ⟨decoded,hparse,hkind,hmatches,_⟩ := parse_copyBlocks h kind crc
  have hle := copyStart_le h kind
  have hmax := length_blocks_le h
  have hread : (List.range (footerOf hash file.header crc).sidecarHeaderBlockCount.toNat).mapM
      (fun offset => do
      rejectIf (copyStart file kind+offset > u64Max)
        (ParityError.invariant "sidecar index block offset overflows")
      readSidecarBlock tape scopedMap entry (copyStart file kind+offset)
        descriptor.blockSize.toNat)=.ok (copyBlocks file kind) := by
    rw [copyBlocks_eq_map h kind]
    apply mapM_eq_ok_map
    intro offset hoffset
    have hlt : offset < file.header.shardIndexBlockCount.toNat := mem_range.mp hoffset
    rw [rejectIf_pos (by omega),ok_bind,hrow.readSidecarBlock_iff]
    exact ⟨hstands offset hlt,length_copyBlock h kind hlt⟩
  refine ⟨decoded,?_⟩
  obtain ⟨h1,h2,h3,h4,h5,h6⟩ := hmatches
  simp only [readSidecarIndexCopy,copyStartBlock_footerOf h]
  rw [hread,ok_bind,hparse,ok_bind,rejectIf_pos (not_not.mpr hkind),ok_bind,rejectIf_pos]
  · rfl
  · simp only [h1,h2,h3,h4,h5,h6,ne_eq,not_true_eq_false,or_self,not_false_eq_true]

/-- Whatever copy is acquired is the written one: a damaged block would have
failed its CRC. -/
theorem readSidecarIndexCopy_acquired
    (hdetected : ∀ offset < file.header.shardIndexBlockCount.toNat,
      Stands tape scopedMap.map number file (copyStart file kind+offset) ∨
        ∃ record, recordAt tape scopedMap.map ⟨number,copyStart file kind+offset⟩=.ok record ∧
          Detected descriptor.blockSize.toNat Sealed record)
    {crc : UInt64}
    (hread : readSidecarIndexCopy hash tape scopedMap entry descriptor.tapeUuid
      descriptor.blockSize.toNat (footerOf hash file.header crc) kind=.ok decoded) :
    AcquiredIndex descriptor file decoded := by
  simp only [readSidecarIndexCopy,copyStartBlock_footerOf h,eq_ok,not_or,not_not] at hread
  obtain ⟨blocks,hblocks,decoded,hparse,_,_,_,⟨_,hcount,_⟩,rfl⟩ := hread
  have hcount' : decoded.header.shardIndexBlockCount=file.header.shardIndexBlockCount := hcount
  -- every block that was read is the written one
  have hsame : blocks=copyBlocks file kind := by
    rw [copyBlocks_eq_map h kind]
    refine (map_of_mapM_eq_ok (P := fun _ => True) hblocks ?_).1
    intro offset hoffset block hblock
    have hlt := mem_range.mp hoffset
    obtain ⟨block',hblock',hget⟩ := getElem?_of_mapM_eq_ok hblocks (getElem?_range hlt)
    obtain rfl : block'=block := Except.ok.inj (hblock'.symm.trans hblock)
    simp only [bind_eq_ok,hrow.readSidecarBlock_iff] at hblock
    obtain ⟨_,_,hrecord,hlen⟩ := hblock
    refine ⟨?_,trivial⟩
    rcases hdetected offset hlt with hstands | ⟨record,hstands,hdamage⟩
    · rwa [Stands,hrecord,Except.ok.injEq,TapeRecord.record.injEq] at hstands
    · rw [hrecord,Except.ok.injEq] at hstands
      exact absurd (parseSidecarIndexBlocks_block hparse hget (by rw [hcount']; exact hlt)).2
        (hdamage block' hstands.symm hlen)
  obtain ⟨decoded',hparse',_,_,hacquired⟩ := parse_copyBlocks h kind crc
  rw [hsame,hparse',Except.ok.injEq] at hparse
  subst hparse
  exact hacquired

theorem readSidecarFooter_written
    (hfooter : Stands tape scopedMap.map number file (file.blocks.length-1)) :
    ∃ crc, readSidecarFooter hash tape scopedMap entry descriptor.tapeUuid
      descriptor.blockSize.toNat=some (footerOf hash file.header crc) := by
  obtain ⟨block,crc,hlast,hlen,hparse⟩ := h.footer
  refine ⟨crc,?_⟩
  have hblock : file.blocks.getD (file.blocks.length-1) []=block := by
    rw [getLast?_eq_getElem?] at hlast
    rw [getD_eq_getElem?_getD,hlast]
    rfl
  have hread : readSidecarBlock tape scopedMap entry (entry.blockCount.toNat-1)
      descriptor.blockSize.toNat=.ok block := by
    rw [hrow.readSidecarBlock_iff,hrow.blockCount_eq,←hblock]
    exact ⟨hfooter,by rw [hblock]; exact hlen⟩
  have htotal : (footerOf hash file.header crc).sidecarTotalBlockCount=entry.blockCount := by
    apply UInt64.toNat_inj.mp
    rw [hrow.blockCount_eq,h.length_eq]
    exact h.total
  simp only [readSidecarFooter,hread,hparse]
  exact if_pos htotal

end Written

theorem readFinalSidecarDirectory_error {parse : ParityMapParser} {map : FilemarkMap}
    {uuid : FixedBytes 16} {blockSize : ℕ} {error : ParityError}
    (h : readFinalSidecarDirectory parse tape map uuid blockSize=.error error) :
    error=.filemarkMapDigestMismatch ∨ ∃ fault, error=.tapeIo fault := by
  unfold readFinalSidecarDirectory at h
  cases hfind : map.entries.reverse.find? fun entry => entry.kind=.parityMap with
  | none =>
    rw [hfind] at h
    cases h
  | some mapEntry =>
    simp only [hfind] at h
    obtain ⟨i,hi⟩ := getElem?_of_mem (mem_reverse.mp (mem_of_find?_eq_some hfind))
    have hnumber := map.tapeFileNumber_eq hi
    cases hblocks : readParityMapBlocks tape map mapEntry blockSize with
    | error blockError =>
      rw [hblocks,error_bind,Except.error.injEq] at h
      subst h
      obtain ⟨b,hb,hfail⟩ := exists_of_mapM_eq_error hblocks
      rw [readParityMapBlock,hnumber,
        map.physicalPosition_eq_ok hi (mem_range.mp hb),ok_bind] at hfail
      right
      split at hfail
      · cases hfail
      · split at hfail
        · cases hfail
        · exact ⟨_,(Except.error.inj hfail).symm⟩
      · cases hfail
    | ok blocks =>
      rw [hblocks,ok_bind] at h
      left
      split at h
      · cases h
      · split at h
        · cases h
        · rename_i directory _ _
          by_cases hscope : directory.directoryScopeTapeFileCount.toNat > map.tapeFileCount
          · rw [rejectIf_neg hscope,error_bind] at h
            exact (Except.error.inj h).symm
          · rw [rejectIf_pos hscope] at h
            cases h

theorem directoryEvidence_tolerant (parse : ParityMapParser) (tape : Tape)
    (scopedMap : ScopedFilemarkMap) (entry : TapeFileMapEntry) (uuid : FixedBytes 16)
    (parity blockSize : ℕ) :
    ∃ evidence, directoryEvidence scopedMap entry parity true
      (readFinalSidecarDirectory parse tape scopedMap.map uuid blockSize)=.ok evidence := by
  unfold directoryEvidence
  by_cases hnone : scopedMap.sidecarDirectory.isNone=true
  · rw [if_pos hnone]
    cases hloaded : readFinalSidecarDirectory parse tape scopedMap.map uuid blockSize with
    | ok directory => exact ⟨_,rfl⟩
    | error error =>
      rcases readFinalSidecarDirectory_error hloaded with rfl | ⟨fault,rfl⟩
      · exact ⟨_,rfl⟩
      · exact ⟨_,rfl⟩
  · rw [if_neg hnone]
    exact ⟨_,rfl⟩

variable {parity : ℕ} {directory : Option SidecarEpochDirectory}

variable {row : SidecarEpochDirectoryEntry}

theorem classifyDirectory_available (h : classifyDirectory entry parity directory=.available row) :
    directoryEntryAvailable row entry parity=true := by
  unfold classifyDirectory at h
  split at h
  · cases h
  · split at h
    · cases h
    · split at h
      · rename_i found hfound
        obtain rfl : found=row := by injection h
        exact (Option.filter_eq_some_iff.mp hfound).2
      · cases h

/-- What the directory says about a sidecar while its footer is valid. -/
def evidenceFor (parse : ParityMapParser) (tape : Tape) (scopedMap : ScopedFilemarkMap)
    (scheme : ParityScheme) (descriptor : SidecarDescriptor) (entry : TapeFileMapEntry) :
    Except ParityError DirectoryEvidence :=
  directoryEvidence scopedMap entry (schemeParityBlocks scheme) true
    (readFinalSidecarDirectory parse tape scopedMap.map descriptor.tapeUuid
      descriptor.blockSize.toNat)

/-- No available directory entry names another metadata hash. -/
def DirectoryAgrees (parse : ParityMapParser) (tape : Tape) (scopedMap : ScopedFilemarkMap)
    (scheme : ParityScheme) (descriptor : SidecarDescriptor) (file : EncodedSidecarTapeFile)
    (entry : TapeFileMapEntry) : Prop :=
  ∀ row, evidenceFor parse tape scopedMap scheme descriptor entry=.ok (.available row) →
    row.canonicalMetadataHash=file.header.canonicalMetadataHash

variable {parse : ParityMapParser} {scheme : ParityScheme}

theorem evidenceFor_classified {evidence : DirectoryEvidence}
    (h : evidenceFor parse tape scopedMap scheme descriptor entry=.ok evidence) :
    ∃ directory, evidence=classifyDirectory entry (schemeParityBlocks scheme) directory := by
  unfold evidenceFor directoryEvidence at h
  rw [bind_eq_ok] at h
  obtain ⟨cached,_,h⟩ := h
  exact ⟨_,(pure_eq_ok.mp h).symm⟩

variable (h : SidecarFile hash descriptor parityShards dataShardCrc64s file)
  (hrow : SidecarRow scopedMap.map descriptor file number entry)

include h hrow

theorem available_header_count
    (hparity : parity=descriptor.stripesPerEpoch.toNat*descriptor.m.toNat)
    (havailable : directoryEntryAvailable row entry parity=true) :
    row.sidecarHeaderBlockCount=file.header.shardIndexBlockCount := by
  simp only [directoryEntryAvailable,directoryEntryMatchesSidecar,Bool.and_eq_true,
    decide_eq_true_eq] at havailable
  obtain ⟨⟨⟨_,htotal⟩,_⟩,hsum⟩ := havailable
  apply UInt64.toNat_inj.mp
  rw [htotal,hrow.blockCount_eq,h.length_eq,hparity] at hsum
  omega

/-- Under a valid footer the directory is the only other witness. -/
theorem readAndParseSidecarIndex_footer (parse : ParityMapParser) (scheme : ParityScheme)
    (hfooter : Stands tape scopedMap.map number file (file.blocks.length-1)) :
    ∃ crc evidence, evidenceFor parse tape scopedMap scheme descriptor entry=.ok evidence ∧
      readAndParseSidecarIndex hash tape scopedMap entry descriptor.tapeUuid
        descriptor.blockSize.toNat parse scheme=
      readSidecarIndexByFooter hash tape scopedMap entry descriptor.tapeUuid
        descriptor.blockSize.toNat (footerOf hash file.header crc) evidence
        (schemeParityBlocks scheme) := by
  obtain ⟨crc,hread⟩ := readSidecarFooter_written h hrow hfooter
  obtain ⟨evidence,hevidence⟩ := directoryEvidence_tolerant parse tape scopedMap entry
    descriptor.tapeUuid (schemeParityBlocks scheme) descriptor.blockSize.toNat
  have hcount : entry.blockCount≠0 := by
    intro hzero
    have hlen := hrow.blockCount_eq
    rw [hzero,h.length_eq] at hlen
    simp at hlen
  refine ⟨crc,evidence,hevidence,?_⟩
  simp only [readAndParseSidecarIndex,hread,hevidence,ok_bind]
  rw [rejectIf_pos hcount,ok_bind]

/-- Evidence contradicts a written footer exactly through another metadata
hash. -/
theorem directoryContradicts_iff
    (hparity : parity=descriptor.stripesPerEpoch.toNat*descriptor.m.toNat) {crc : UInt64} :
    directoryContradicts (footerOf hash file.header crc) parity
        (classifyDirectory entry parity directory)=true ↔
      ∃ row, classifyDirectory entry parity directory=.available row ∧
        row.canonicalMetadataHash≠file.header.canonicalMetadataHash := by
  cases hclass : classifyDirectory entry parity directory with
  | absent => simp [directoryContradicts]
  | unavailable => simp [directoryContradicts]
  | available row =>
    have hcount := available_header_count h hrow hparity (classifyDirectory_available hclass)
    have hcount' : row.sidecarHeaderBlockCount=
      (footerOf hash file.header crc).sidecarHeaderBlockCount := hcount
    have htail : row.sidecarHeaderBlockCount.toNat+parity=
        (footerOf hash file.header crc).tailHeaderStartBlock.toNat := by
      rw [hcount,hparity]
      exact h.tail_start.symm
    simp only [directoryContradicts,Bool.or_eq_true,decide_eq_true_eq,
      DirectoryEvidence.available.injEq,exists_eq_left']
    constructor
    · rintro ((hne | hne) | hne)
      · exact hne
      · exact absurd hcount' hne
      · exact absurd htail hne
    · exact fun hne => .inl (.inl hne)

/-- Acquisition returns the written index while no directory entry contradicts it. -/
theorem readAndParseSidecarIndex_survives
    (hsurvives : MetadataSurvives tape scopedMap.map number descriptor file)
    (hparity : schemeParityBlocks scheme=descriptor.stripesPerEpoch.toNat*descriptor.m.toNat)
    (hagrees : DirectoryAgrees parse tape scopedMap scheme descriptor file entry) :
    ∃ read, readAndParseSidecarIndex hash tape scopedMap entry descriptor.tapeUuid
        descriptor.blockSize.toNat parse scheme=.ok read ∧
      AcquiredIndex descriptor file read.index := by
  obtain ⟨crc,evidence,hevidence,hread⟩ :=
    readAndParseSidecarIndex_footer h hrow parse scheme hsurvives.footer
  have hquiet : ¬directoryContradicts (footerOf hash file.header crc) (schemeParityBlocks scheme)
      evidence=true := by
    obtain ⟨directory,rfl⟩ := evidenceFor_classified hevidence
    rw [directoryContradicts_iff h hrow hparity]
    rintro ⟨row,hrow',hne⟩
    rw [hrow'] at hevidence
    exact hne (hagrees row hevidence)
  rw [hread,readSidecarIndexByFooter,rejectIf_pos hquiet,ok_bind]
  -- a copy that is acquired is the written one, and one of them is
  have hcopy : ∀ kind decoded, readSidecarIndexCopy hash tape scopedMap entry descriptor.tapeUuid
      descriptor.blockSize.toNat (footerOf hash file.header crc) kind=.ok decoded →
      AcquiredIndex descriptor file decoded := fun kind _ =>
    readSidecarIndexCopy_acquired h hrow (hsurvives.detected kind)
  obtain ⟨kind,hstands⟩ := hsurvives.copy
  obtain ⟨decoded,hintact⟩ := readSidecarIndexCopy_intact h hrow hstands crc
  cases hp : readSidecarIndexCopy hash tape scopedMap entry descriptor.tapeUuid
      descriptor.blockSize.toNat (footerOf hash file.header crc) .primary with
  | ok primary =>
    cases readSidecarIndexCopy hash tape scopedMap entry descriptor.tapeUuid
        descriptor.blockSize.toNat (footerOf hash file.header crc) .tail with
    | ok tail => exact ⟨_,rfl,hcopy .primary _ hp⟩
    | error _ => exact ⟨_,rfl,hcopy .primary _ hp⟩
  | error error =>
    cases ht : readSidecarIndexCopy hash tape scopedMap entry descriptor.tapeUuid
        descriptor.blockSize.toNat (footerOf hash file.header crc) .tail with
    | ok tail => exact ⟨_,rfl,hcopy .tail _ ht⟩
    | error _ =>
      cases kind with
      | primary => rw [hp] at hintact; cases hintact
      | tail => rw [ht] at hintact; cases hintact

/-- Another metadata hash makes the metadata unavailable, whatever the copies hold. -/
theorem readAndParseSidecarIndex_contradicted
    (hfooter : Stands tape scopedMap.map number file (file.blocks.length-1))
    (hparity : schemeParityBlocks scheme=descriptor.stripesPerEpoch.toNat*descriptor.m.toNat)
    (hcontradicts : ¬DirectoryAgrees parse tape scopedMap scheme descriptor file entry) :
    readAndParseSidecarIndex hash tape scopedMap entry descriptor.tapeUuid
      descriptor.blockSize.toNat parse scheme=
        .error (.sidecarMetadataUnavailable descriptor.epochId) := by
  obtain ⟨crc,evidence,hevidence,hread⟩ :=
    readAndParseSidecarIndex_footer h hrow parse scheme hfooter
  simp only [DirectoryAgrees,not_forall] at hcontradicts
  obtain ⟨row,hrow',hne⟩ := hcontradicts
  have hloud : directoryContradicts (footerOf hash file.header crc) (schemeParityBlocks scheme)
      evidence=true := by
    obtain ⟨directory,rfl⟩ := evidenceFor_classified hevidence
    rw [directoryContradicts_iff h hrow hparity]
    exact ⟨row,Except.ok.inj (hevidence.symm.trans hrow'),hne⟩
  rw [hread,readSidecarIndexByFooter,rejectIf_neg hloud,error_bind,
    sidecarMetadataUnavailableFromMapEntry,hrow.epochId]

end Sidecar

end Remanence.Parity.Recovery
