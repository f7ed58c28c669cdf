import Remanence.Parity.SidecarFile

/-!
# Damage of one metadata copy

A sidecar file keeps its header and index before and behind the parity shards. Whatever replaces
the blocks of one copy, a reader gets the original metadata from the other one, or notices that
two readable copies disagree. The latter needs a hash collision.
-/

namespace Remanence.Parity.Sidecar

open Foundation List

variable {hash : HashFunctions} {descriptor : SidecarDescriptor} {parityShards : List Bytes}
  {dataShardCrc64s : List UInt64} {file : EncodedSidecarTapeFile}

def canonicalMetadata (hash : HashFunctions) (descriptor : SidecarDescriptor)
    (index : SidecarIndex) (shardIndexBlockCount inlineIndexEntryBytes realDataShardCount
    parityBlockCount sidecarTotalBlockCount tailHeaderStartBlock footerBlockIndex : UInt64) :
    Bytes :=
  sidecarMetadataHashDomain++(deriveSidecarMagic hash descriptor.tapeUuid).bytes++
    descriptor.tapeUuid.bytes++u64Le descriptor.epochId++u16Le descriptor.k++u16Le descriptor.m++
    u32Le descriptor.stripesPerEpoch++u32Le descriptor.blockSize++u32Le sidecarSchemaVersion++
    u64Le descriptor.protectedOrdinalStart++u64Le descriptor.protectedOrdinalEndExclusive++
    u64Le descriptor.logicalShardCount++u64Le realDataShardCount++u64Le parityBlockCount++
    u64Le realDataShardCount++u64Le shardIndexBlockCount++u64Le inlineIndexEntryBytes++
    u64Le sidecarTotalBlockCount++u64Le 0++u64Le tailHeaderStartBlock++u64Le footerBlockIndex++
    (index.parityEntries.map parityEntryBytes).flatten++(index.dataShardCrc64s.map u64Le).flatten

def IsCanonicalMetadata (hash : HashFunctions) (bytes : Bytes) : Prop :=
  ∃ descriptor index h inline real parity total tail footer, bytes=
    canonicalMetadata hash descriptor index h inline real parity total tail footer

/-- No two canonical metadata strings have this SHA-256. -/
def CollisionFreeAt (hash : HashFunctions) (digest : FixedBytes 32) : Prop :=
  ∀ a b, IsCanonicalMetadata hash a → IsCanonicalMetadata hash b → hash.sha256 a=digest →
    hash.sha256 b=digest → a=b

theorem computeCanonicalMetadataHash_eq_ok {index : SidecarIndex} {h inline : UInt64}
    {result : FixedBytes 32}
    (hok : computeCanonicalMetadataHash hash descriptor index h inline=.ok result) :
    ∃ real parity total tail footer, result=hash.sha256
      (canonicalMetadata hash descriptor index h inline real parity total tail footer) := by
  simp only [computeCanonicalMetadataHash,eq_ok] at hok
  obtain ⟨real,-,parity,-,tail,-,footer,-,total,-,rfl⟩ := hok
  exact ⟨real,parity.toUInt64,total,tail,footer,rfl⟩

theorem length_parityEntryBytes (entry : ParityShardIndexEntry) :
    (parityEntryBytes entry).length=16 := by
  simp [parityEntryBytes]

theorem parityEntryBytes_injective : Function.Injective parityEntryBytes := by
  intro a b h
  simp only [parityEntryBytes,append_assoc,u32Le_append_eq,u16Le_append_eq,true_and] at h
  obtain ⟨hstripe,hparity,hcrc⟩ := h
  cases a
  cases b
  simp only at hstripe hparity hcrc
  rw [hstripe,hparity,u64Le_injective hcrc]

theorem canonicalMetadata_inj {d d' : SidecarDescriptor} {index index' : SidecarIndex}
    {h h' inline inline' real real' parity parity' total total' tail tail' footer footer' : UInt64}
    (huuid : d.tapeUuid=d'.tapeUuid)
    (hlength : index.parityEntries.length=index'.parityEntries.length)
    (hlength' : index.dataShardCrc64s.length=index'.dataShardCrc64s.length)
    (heq : canonicalMetadata hash d index h inline real parity total tail footer=
      canonicalMetadata hash d' index' h' inline' real' parity' total' tail' footer') :
    d=d' ∧ h=h' ∧ inline=inline' ∧ index=index' := by
  unfold canonicalMetadata at heq
  rw [huuid] at heq
  simp only [append_assoc] at heq
  have heq := append_cancel_left (append_cancel_left (append_cancel_left heq))
  simp only [u64Le_append_eq,u32Le_append_eq,u16Le_append_eq,true_and] at heq
  obtain ⟨hepoch,hk,hm,hstripes,hblock,hstart,hend,-,-,-,-,hcount,hinline,-,-,-,heq⟩ := heq
  obtain ⟨hentries,heq⟩ :=
    fields_append_inj length_parityEntryBytes parityEntryBytes_injective hlength heq
  have heq : (index.dataShardCrc64s.map u64Le).flatten++[]=
      (index'.dataShardCrc64s.map u64Le).flatten++[] := by
    rw [append_nil,append_nil]
    exact heq
  obtain ⟨hcrcs,-⟩ := fields_append_inj length_u64Le u64Le_injective hlength' heq
  refine ⟨?_,hcount,hinline,?_⟩
  · cases d
    cases d'
    subst huuid hepoch hk hm hstripes hblock hstart hend
    rfl
  · cases index
    cases index'
    subst hentries hcrcs
    rfl

structure DerivedCounts (counts : HeaderCounts) : Prop where
  logical : counts.logicalShardCount.toNat=counts.stripesPerEpoch.toNat*counts.k.toNat
  real : checkedSub64 counts.protectedOrdinalEndExclusive counts.protectedOrdinalStart=
    some counts.realDataShardCount
  parity : checkedMul64 counts.stripesPerEpoch.toUInt64 counts.m.toUInt64=
    some counts.parityBlockCount
  dataCrc : counts.dataCrcCount=counts.realDataShardCount
  generation : counts.copyGeneration=0
  primary : counts.primaryHeaderStartBlock=0
  tail : checkedAdd64 counts.shardIndexBlockCount counts.parityBlockCount=
    some counts.tailHeaderStartBlock
  footer : checkedAdd64 counts.tailHeaderStartBlock counts.shardIndexBlockCount=
    some counts.footerBlockIndex
  total : checkedSidecarTotalBlocks counts.shardIndexBlockCount counts.parityBlockCount=
    .ok counts.sidecarTotalBlockCount

theorem validateHeaderCounts_derived {counts : HeaderCounts}
    (h : validateHeaderCounts counts=.ok ()) : DerivedCounts counts := by
  simp only [validateHeaderCounts,validateShardCounts,validateSidecarLayout,
    checkedSidecarShardProduct,eq_ok,not_not] at h
  obtain ⟨_,⟨_,-,range,hrange,_,-,_,hlogical,_,hreal,_,-,product,hproduct,_,-,_,hparity,_,hcrc,
    hgeneration⟩,_,-,_,hprimary,tail,htail,_,htailEq,footer,hfooter,_,hfooterEq,total,htotal,
    htotalEq⟩ := h
  subst hreal hparity htailEq hfooterEq htotalEq
  exact ⟨hlogical,hrange,hproduct,hcrc,hgeneration,hprimary,htail,hfooter,htotal⟩

variable {a b : SidecarHeader}

theorem counts_determined (hdescriptor : a.descriptor=b.descriptor)
    (hcount : a.shardIndexBlockCount=b.shardIndexBlockCount)
    (ha : validateHeaderCounts a.counts=.ok ()) (hb : validateHeaderCounts b.counts=.ok ()) :
    a.counts=b.counts := by
  obtain ⟨alogical,areal,aparity,acrc,ageneration,aprimary,atail,afooter,atotal⟩ :=
    validateHeaderCounts_derived ha
  obtain ⟨blogical,breal,bparity,bcrc,bgeneration,bprimary,btail,bfooter,btotal⟩ :=
    validateHeaderCounts_derived hb
  simp only [SidecarHeader.descriptor,SidecarDescriptor.mk.injEq] at hdescriptor
  obtain ⟨-,-,hk,hm,hstripes,-,hstart,hend⟩ := hdescriptor
  simp only [SidecarHeader.counts] at *
  have hlogical : a.logicalShardCount=b.logicalShardCount := by
    apply UInt64.toNat_inj.mp
    rw [alogical,blogical,hk,hstripes]
  have hreal : a.realDataShardCount=b.realDataShardCount := by
    rw [hstart,hend,breal] at areal
    exact (Option.some.inj areal).symm
  have hparity : a.parityBlockCount=b.parityBlockCount := by
    rw [hstripes,hm,bparity] at aparity
    exact (Option.some.inj aparity).symm
  have htail : a.tailHeaderStartBlock=b.tailHeaderStartBlock := by
    rw [hcount,hparity,btail] at atail
    exact (Option.some.inj atail).symm
  have hfooter : a.footerBlockIndex=b.footerBlockIndex := by
    rw [htail,hcount,bfooter] at afooter
    exact (Option.some.inj afooter).symm
  have htotal : a.sidecarTotalBlockCount=b.sidecarTotalBlockCount := by
    rw [hcount,hparity,btotal] at atotal
    exact (Except.ok.inj atotal).symm
  rw [hk,hm,hstripes,hstart,hend,hlogical,hreal,hparity,acrc,bcrc,hreal,hcount,htotal,aprimary,
    bprimary,htail,hfooter,ageneration,bgeneration]

structure ReadableCopy (hash : HashFunctions) (tapeUuid : FixedBytes 16)
    (decoded : DecodedSidecarIndex) : Prop where
  magic : decoded.header.magic=deriveSidecarMagic hash tapeUuid
  tapeUuid_eq : decoded.header.tapeUuid=tapeUuid
  schema : decoded.header.schemaVersion=sidecarSchemaVersion
  counts : validateHeaderCounts decoded.header.counts=.ok ()
  shape : validateIndexShape decoded.header.descriptor decoded.index=.ok ()
  hashed : computeCanonicalMetadataHash hash decoded.header.descriptor decoded.index
    decoded.header.shardIndexBlockCount decoded.header.inlineIndexEntryBytes=
      .ok decoded.header.canonicalMetadataHash

variable {blocks : List Bytes} {tapeUuid : FixedBytes 16} {decoded : DecodedSidecarIndex}

theorem parseSidecarIndexBlocks_readable
    (h : parseSidecarIndexBlocks hash blocks tapeUuid=.ok decoded) :
    ReadableCopy hash tapeUuid decoded := by
  simp only [parseSidecarIndexBlocks,eq_ok,not_not] at h
  obtain ⟨block0,-,header,hheader,_,-,_,-,index,-,_,hshape,expected,hexpected,_,hhash,rfl⟩ := h
  rw [←hhash] at hexpected
  simp only [parseSidecarHeaderBlock,eq_ok,not_not] at hheader
  obtain ⟨_,-,_,hmagic,_,huuid,kind,-,_,-,_,-,_,hschema,_,-,_,-,_,-,_,-,_,hcounts,_,-,_,-,_,-,
    _,-,_,-,rfl⟩ := hheader
  exact ⟨hmagic,huuid,hschema,hcounts,hshape,hexpected⟩

theorem ReadableCopy.lengths {a : DecodedSidecarIndex} (ha : ReadableCopy hash tapeUuid a) :
    a.index.parityEntries.length=a.header.parityBlockCount.toNat ∧
      a.index.dataShardCrc64s.length=a.header.realDataShardCount.toNat := by
  obtain ⟨⟨count,hcount,hentries⟩,range,hrange,hcrcs⟩ := validateIndexShape_lengths ha.shape
  obtain ⟨-,hreal,hparity,-⟩ := validateHeaderCounts_derived ha.counts
  constructor
  · simp only [SidecarDescriptor.parityBlockCount,orElseError_eq_ok,checkedMul32_eq_some,
      UInt16.toNat_toUInt32] at hcount
    simp only [checkedMul64_eq_some,UInt32.toNat_toUInt64,UInt16.toNat_toUInt64] at hparity
    rw [hentries,←hcount]
    exact hparity
  · simp only [SidecarDescriptor.rangeLen,orElseError_eq_ok] at hrange
    rw [hcrcs]
    have hsame : some range=some a.header.realDataShardCount := hrange.symm.trans hreal
    rw [Option.some.inj hsame]

theorem ReadableCopy.agree {a b : DecodedSidecarIndex} (ha : ReadableCopy hash tapeUuid a)
    (hb : ReadableCopy hash tapeUuid b)
    (hparity : a.header.parityBlockCount=b.header.parityBlockCount)
    (hstart : a.header.protectedOrdinalStart=b.header.protectedOrdinalStart)
    (hend : a.header.protectedOrdinalEndExclusive=b.header.protectedOrdinalEndExclusive)
    (hhash : a.header.canonicalMetadataHash=b.header.canonicalMetadataHash)
    (hfree : CollisionFreeAt hash b.header.canonicalMetadataHash) :
    sidecarHeaderMetadataMatches a.header b.header=true ∧ a.index=b.index := by
  have hreal : a.header.realDataShardCount=b.header.realDataShardCount := by
    have harange := (validateHeaderCounts_derived ha.counts).real
    have hbrange := (validateHeaderCounts_derived hb.counts).real
    simp only [SidecarHeader.counts] at harange hbrange
    rw [hstart,hend,hbrange] at harange
    exact (Option.some.inj harange).symm
  obtain ⟨haEntries,haCrcs⟩ := ha.lengths
  obtain ⟨hbEntries,hbCrcs⟩ := hb.lengths
  obtain ⟨ra,pa,ta,la,fa,hma⟩ := computeCanonicalMetadataHash_eq_ok ha.hashed
  obtain ⟨rb,pb,tb,lb,fb,hmb⟩ := computeCanonicalMetadataHash_eq_ok hb.hashed
  have hmetadata := hfree _ _ ⟨_,_,_,_,_,_,_,_,_,rfl⟩ ⟨_,_,_,_,_,_,_,_,_,rfl⟩
    (hma.symm.trans hhash) hmb.symm
  have huuid := ha.tapeUuid_eq.trans hb.tapeUuid_eq.symm
  obtain ⟨hdescriptor,hcount,hinline,hindex⟩ := canonicalMetadata_inj huuid
    (by rw [haEntries,hbEntries,hparity]) (by rw [haCrcs,hbCrcs,hreal]) hmetadata
  have hcounts := counts_determined hdescriptor hcount ha.counts hb.counts
  refine ⟨?_,hindex⟩
  simp only [SidecarHeader.descriptor,SidecarDescriptor.mk.injEq] at hdescriptor
  simp only [SidecarHeader.counts,HeaderCounts.mk.injEq] at hcounts
  obtain ⟨-,hepoch,hk,hm,hstripes,hsize,-,-⟩ := hdescriptor
  obtain ⟨-,-,-,-,-,hlogical,-,-,hcrcs,-,htotal,hprimary,htail,hfooter,hgeneration⟩ := hcounts
  simp only [sidecarHeaderMetadataMatches,ha.magic,hb.magic,ha.tapeUuid_eq,hb.tapeUuid_eq,hepoch,
    hk,hm,hstripes,hsize,ha.schema,hb.schema,hstart,hend,hlogical,hreal,hparity,hcrcs,hcount,
    hinline,htotal,hprimary,htail,hfooter,hgeneration,hhash,decide_true,Bool.and_true]

theorem eq_of_metadataMatches (h : sidecarHeaderMetadataMatches a b=true) : a={ b with
      copyKind := a.copyKind,headerCrc64 := a.headerCrc64,block0Crc64 := a.block0Crc64 } := by
  simp only [sidecarHeaderMetadataMatches,Bool.and_eq_true,decide_eq_true_eq] at h
  cases a
  cases b
  simp_all only

theorem metadataMatches_symm (h : sidecarHeaderMetadataMatches a b=true) :
    sidecarHeaderMetadataMatches b a=true := by
  rw [eq_of_metadataMatches h]
  simp [sidecarHeaderMetadataMatches]

/-- The blocks of a file after the `H` blocks from `start` on were replaced. -/
structure Replaced (file : EncodedSidecarTapeFile) (start : ℕ) (blocks : List Bytes) : Prop where
  length_eq : blocks.length=file.blocks.length
  outside : ∀ i, i < start ∨ start+file.header.shardIndexBlockCount.toNat ≤ i →
    blocks[i]?=file.blocks[i]?

theorem Replaced.part {start : ℕ} (h : Replaced file start blocks) {first count : ℕ}
    (hout : first+count ≤ start ∨ start+file.header.shardIndexBlockCount.toNat ≤ first) :
    (blocks.drop first).take count=(file.blocks.drop first).take count := by
  apply ext_getElem?
  intro i
  rw [getElem?_take,getElem?_take]
  split_ifs with hi
  · rw [getElem?_drop,getElem?_drop]
    exact h.outside _ (by omega)
  · rfl

variable {crc : UInt64}

theorem parseSidecarIndexCopy_readable {kind : SidecarCopyKind} {header : SidecarHeader}
    (h : parseSidecarIndexCopy hash blocks tapeUuid (footerOf hash header crc) kind=.ok decoded) :
    ReadableCopy hash tapeUuid decoded ∧ decoded.header.parityBlockCount=header.parityBlockCount ∧
      decoded.header.protectedOrdinalStart=header.protectedOrdinalStart ∧
      decoded.header.protectedOrdinalEndExclusive=header.protectedOrdinalEndExclusive ∧
      decoded.header.canonicalMetadataHash=header.canonicalMetadataHash := by
  simp only [parseSidecarIndexCopy,validateHeaderMatchesFooter,eq_ok,not_or,not_not] at h
  obtain ⟨_,hparse,_,-,_,⟨-,-,hstart,hend,-,hparity,-,-,-,hhash⟩,rfl⟩ := h
  exact ⟨parseSidecarIndexBlocks_readable hparse,hparity,hstart,hend,hhash⟩

def copyStart (file : EncodedSidecarTapeFile) : SidecarCopyKind → ℕ
  | .primary => 0
  | .tail => file.header.tailHeaderStartBlock.toNat

/-- A parse gave the original index and shards, and the original header up to
copy-local fields. -/
def Restored (file : EncodedSidecarTapeFile) (parityShards : List Bytes)
    (result : Except ParityError DecodedSidecarTapeFile) : Prop :=
  ∃ kind headerCrc blockCrc, result=.ok ⟨{ file.header with
    copyKind := kind,headerCrc64 := headerCrc,block0Crc64 := blockCrc },file.index,parityShards⟩

def withShards (blocks : List Bytes) (decoded : DecodedSidecarIndex) :
    Except ParityError DecodedSidecarTapeFile := do
  let parityShards ← decoded.index.parityEntries.zipIdx.mapM fun (entry,i) =>
    readParityShard blocks decoded.header entry i
  return ⟨decoded.header,decoded.index,parityShards⟩

/-- Parsing reads the footer and selects a copy, whichever copy was replaced. -/
theorem parseSidecarTapeFile_replaced
    (h : SidecarFile hash descriptor parityShards dataShardCrc64s file) {kind : SidecarCopyKind}
    (hreplaced : Replaced file (copyStart file kind) blocks) :
    ∃ crc, parseSidecarTapeFile hash blocks descriptor.tapeUuid=selectCopy
      (parseSidecarIndexCopy hash (blocks.take file.header.shardIndexBlockCount.toNat)
        descriptor.tapeUuid (footerOf hash file.header crc) .primary)
      (parseSidecarIndexCopy hash ((blocks.drop file.header.tailHeaderStartBlock.toNat).take
        file.header.shardIndexBlockCount.toNat) descriptor.tapeUuid
        (footerOf hash file.header crc) .tail) >>= withShards blocks := by
  obtain ⟨footerBlock,crc,hlast,-,hfooter⟩ := h.footer
  refine ⟨crc,?_⟩
  have hlength := h.length_eq
  have htail := h.tail_start
  have htotal := h.total
  have hpos := h.blocks_pos
  have hlast' : blocks.getLast?=some footerBlock := by
    rw [getLast?_eq_getElem?] at hlast ⊢
    rw [hreplaced.length_eq,hreplaced.outside _ ?_]
    · exact hlast
    · right
      cases kind <;> simp only [copyStart] <;> omega
  have hsize : ¬(blocks.length≠(footerOf hash file.header crc).sidecarTotalBlockCount.toNat) := by
    rw [hreplaced.length_eq,hlength]
    exact not_not.mpr htotal.symm
  have hrange : ¬((footerOf hash file.header crc).sidecarHeaderBlockCount.toNat=0 ∨
      (footerOf hash file.header crc).tailHeaderStartBlock.toNat+
        (footerOf hash file.header crc).sidecarHeaderBlockCount.toNat > blocks.length-1) := by
    simp only [footerOf,hreplaced.length_eq]
    omega
  simp only [parseSidecarTapeFile,hlast',orElseError_some,ok_bind,hfooter]
  rw [rejectIf_pos hsize,ok_bind,rejectIf_pos hrange,ok_bind]
  rfl

theorem restored_of_copy (h : SidecarFile hash descriptor parityShards dataShardCrc64s file)
    (decoded : DecodedSidecarIndex) (hregion : SidecarFile.SameRegion file descriptor blocks)
    (hheader : sidecarHeaderMetadataMatches decoded.header file.header=true)
    (hindex : decoded.index=file.index) :
    Restored file parityShards (withShards blocks decoded) := by
  obtain ⟨header,index⟩ := decoded
  obtain rfl : index=file.index := hindex
  have hequal := @eq_of_metadataMatches header file.header hheader
  have hdescriptor : header.descriptor=descriptor := by
    rw [hequal]
    exact h.descriptor_eq
  have hcount : header.shardIndexBlockCount=file.header.shardIndexBlockCount := by
    rw [hequal]
  refine ⟨header.copyKind,header.headerCrc64,header.block0Crc64,?_⟩
  rw [withShards,h.readParityShards hregion hdescriptor hcount,ok_bind,←hequal]
  rfl

def copiesDisagree : ParityError :=
  sidecarParse "sidecar primary and tail metadata copies disagree"

theorem selectCopy_both (a b : DecodedSidecarIndex) :
    selectCopy (.ok a) (.ok b)=.error copiesDisagree ∨
      sidecarHeaderMetadataMatches a.header b.header=true ∧ a.index=b.index := by
  by_cases hdiffer : sidecarHeaderMetadataMatches a.header b.header=false ∨ a.index≠b.index
  · left
    rw [selectCopy,rejectIf_neg hdiffer]
    rfl
  · right
    rwa [not_or,Bool.not_eq_false,not_not] at hdiffer

theorem metadataMatches_trans {c : SidecarHeader} (hab : sidecarHeaderMetadataMatches a b=true)
    (hbc : sidecarHeaderMetadataMatches b c=true) : sidecarHeaderMetadataMatches a c=true := by
  rw [eq_of_metadataMatches hab,eq_of_metadataMatches hbc]
  simp [sidecarHeaderMetadataMatches]

/-- What is known after one copy was replaced. -/
def Tolerated (hash : HashFunctions) (file : EncodedSidecarTapeFile) (parityShards : List Bytes)
    (result : Except ParityError DecodedSidecarTapeFile) : Prop :=
  (result=.error copiesDisagree ∨ Restored file parityShards result) ∧
    (CollisionFreeAt hash file.header.canonicalMetadataHash → Restored file parityShards result)

theorem tolerated_both {a b : DecodedSidecarIndex}
    (hrestored : sidecarHeaderMetadataMatches a.header b.header=true → a.index=b.index →
      Restored file parityShards (withShards blocks a))
    (hagree : CollisionFreeAt hash file.header.canonicalMetadataHash →
      sidecarHeaderMetadataMatches a.header b.header=true ∧ a.index=b.index) :
    Tolerated hash file parityShards (selectCopy (.ok a) (.ok b) >>= withShards blocks) := by
  have hagreed (hheader : sidecarHeaderMetadataMatches a.header b.header=true)
      (hsame : a.index=b.index) :
      Restored file parityShards (selectCopy (.ok a) (.ok b) >>= withShards blocks) := by
    have hselect : selectCopy (.ok a) (.ok b)=.ok a := by simp [selectCopy,hheader,hsame]
    rw [hselect,ok_bind]
    exact hrestored hheader hsame
  refine ⟨?_,fun hfree => hagreed (hagree hfree).1 (hagree hfree).2⟩
  rcases selectCopy_both a b with hdisagree | ⟨hheader,hsame⟩
  · left
    rw [hdisagree]
    rfl
  · exact .inr (hagreed hheader hsame)

theorem tolerated_primary (h : SidecarFile hash descriptor parityShards dataShardCrc64s file)
    {other : List Bytes} {tail : DecodedSidecarIndex}
    (hregion : SidecarFile.SameRegion file descriptor blocks)
    (htail : ReadableCopy hash descriptor.tapeUuid tail)
    (hmatches : sidecarHeaderMetadataMatches tail.header file.header=true)
    (hindex : tail.index=file.index) :
    Tolerated hash file parityShards (selectCopy (parseSidecarIndexCopy hash other
      descriptor.tapeUuid (footerOf hash file.header crc) .primary) (.ok tail) >>=
        withShards blocks) := by
  cases hdamaged : parseSidecarIndexCopy hash other descriptor.tapeUuid
      (footerOf hash file.header crc) .primary with
  | error e =>
    have hrestored := restored_of_copy h tail hregion hmatches hindex
    exact ⟨.inr hrestored,fun _ => hrestored⟩
  | ok decoded =>
    obtain ⟨hreadable,hparity,hfrom,hto,hhash⟩ := parseSidecarIndexCopy_readable hdamaged
    refine tolerated_both (fun hheader hsame => ?_) (fun hfree => ?_)
    · exact restored_of_copy h decoded hregion (metadataMatches_trans hheader hmatches)
        (hsame.trans hindex)
    · have hequal := eq_of_metadataMatches hmatches
      exact hreadable.agree htail (hparity.trans (by rw [hequal]))
        (hfrom.trans (by rw [hequal])) (hto.trans (by rw [hequal])) (hhash.trans (by rw [hequal]))
        (by rw [hequal]; exact hfree)

theorem tolerated_tail (h : SidecarFile hash descriptor parityShards dataShardCrc64s file)
    {other : List Bytes} (hregion : SidecarFile.SameRegion file descriptor blocks)
    (hprimary : ReadableCopy hash descriptor.tapeUuid ⟨file.header,file.index⟩) :
    Tolerated hash file parityShards (selectCopy (.ok ⟨file.header,file.index⟩)
      (parseSidecarIndexCopy hash other descriptor.tapeUuid (footerOf hash file.header crc) .tail)
        >>= withShards blocks) := by
  have hrestored : Restored file parityShards (withShards blocks ⟨file.header,file.index⟩) :=
    restored_of_copy h _ hregion (by simp [sidecarHeaderMetadataMatches]) rfl
  cases hdamaged : parseSidecarIndexCopy hash other descriptor.tapeUuid
      (footerOf hash file.header crc) .tail with
  | error e => exact ⟨.inr hrestored,fun _ => hrestored⟩
  | ok decoded =>
    obtain ⟨hreadable,hparity,hfrom,hto,hhash⟩ := parseSidecarIndexCopy_readable hdamaged
    exact tolerated_both (fun _ _ => hrestored) fun hfree => hprimary.agree hreadable hparity.symm
      hfrom.symm hto.symm hhash.symm (by rw [hhash]; exact hfree)

/-- With one metadata copy replaced, parsing restores the file or reports that the copies disagree;
the latter needs a collision of the metadata hash. -/
theorem parseSidecarTapeFile_one_copy_damaged
    (h : encodeSidecarTapeFile hash descriptor parityShards dataShardCrc64s=.ok file)
    {kind : SidecarCopyKind} {blocks : List Bytes}
    (hreplaced : Replaced file (copyStart file kind) blocks) :
    (parseSidecarTapeFile hash blocks descriptor.tapeUuid=.error copiesDisagree ∨
      Restored file parityShards (parseSidecarTapeFile hash blocks descriptor.tapeUuid)) ∧
    (CollisionFreeAt hash file.header.canonicalMetadataHash →
      Restored file parityShards (parseSidecarTapeFile hash blocks descriptor.tapeUuid)) := by
  have hfile := encodeSidecarTapeFile_spec h
  obtain ⟨crc,hparse⟩ := parseSidecarTapeFile_replaced hfile hreplaced
  rw [hparse]
  have htailStart := hfile.tail_start
  obtain ⟨tailHeader,htailCopy,hmatches,-,-⟩ := hfile.tail_copy crc
  have hprimaryCopy := hfile.primary_copy crc
  cases kind with
  | primary =>
    have hregion : SidecarFile.SameRegion file descriptor blocks := by
      intro position hlow hhigh
      refine hreplaced.outside position (.inr ?_)
      rw [copyStart,zero_add]
      exact hlow
    have hpart := hreplaced.part (.inr (by rw [copyStart,zero_add]; omega) :
      file.header.tailHeaderStartBlock.toNat+file.header.shardIndexBlockCount.toNat ≤
        copyStart file .primary ∨ copyStart file .primary+
          file.header.shardIndexBlockCount.toNat ≤ file.header.tailHeaderStartBlock.toNat)
    rw [hpart,htailCopy]
    exact tolerated_primary hfile hregion (parseSidecarIndexCopy_readable htailCopy).1
      (metadataMatches_symm hmatches) rfl
  | tail =>
    have hregion : SidecarFile.SameRegion file descriptor blocks := by
      intro position hlow hhigh
      refine hreplaced.outside position (.inl ?_)
      rw [copyStart,htailStart]
      exact hhigh
    have hpart := hreplaced.part (.inl (by rw [copyStart,htailStart]; omega) :
      0+file.header.shardIndexBlockCount.toNat ≤ copyStart file .tail ∨
        copyStart file .tail+file.header.shardIndexBlockCount.toNat ≤ 0)
    rw [drop_zero,drop_zero] at hpart
    rw [hpart,hprimaryCopy]
    exact tolerated_tail hfile hregion (parseSidecarIndexCopy_readable hprimaryCopy).1

def smallMetadata : Bytes :=
  canonicalMetadata constantHash smallDescriptor (shardIndex smallDescriptor smallShards [1,2,3])
    2 48 3 4 9 6 8

theorem computeCanonicalMetadataHash_small (hash : HashFunctions) (index : SidecarIndex) :
    computeCanonicalMetadataHash hash smallDescriptor index 2 48=
      .ok (hash.sha256 (canonicalMetadata hash smallDescriptor index 2 48 3 4 9 6 8)) := rfl

def smallDigest : FixedBytes 32 := .filled 32 1

def smallHash : HashFunctions :=
  ⟨fun bytes => if bytes=smallMetadata then smallDigest else FixedBytes.zero 32,
    constantHash.hmacSha256⟩

theorem smallHash_metadata : smallHash.sha256 (canonicalMetadata smallHash smallDescriptor
    (shardIndex smallDescriptor smallShards [1,2,3]) 2 48 3 4 9 6 8)=smallDigest := by
  have hmarked : ∀ bytes, bytes=smallMetadata → smallHash.sha256 bytes=smallDigest :=
    fun _ hbytes => if_pos hbytes
  apply hmarked
  rfl

theorem smallHash_collisionFreeAt : CollisionFreeAt smallHash smallDigest := by
  have honly : ∀ bytes, smallHash.sha256 bytes=smallDigest → bytes=smallMetadata := by
    intro bytes hdigest
    by_contra hne
    have hzero : smallHash.sha256 bytes=FixedBytes.zero 32 := if_neg hne
    exact absurd (hzero.symm.trans hdigest) (by decide)
  intro a b _ _ ha hb
  rw [honly a ha,honly b hb]

theorem smallDescriptor_primary_damaged : ∃ file,
    encodeSidecarTapeFile smallHash smallDescriptor smallShards [1,2,3]=.ok file ∧
      CollisionFreeAt smallHash file.header.canonicalMetadataHash ∧
      Restored file smallShards (parseSidecarTapeFile smallHash
        ([] :: [1,2,3] :: file.blocks.drop 2) smallDescriptor.tapeUuid) := by
  have hfields : (encodeSidecarTapeFile smallHash smallDescriptor smallShards [1,2,3]).toOption.map
      (fun file => (file.header.shardIndexBlockCount,file.header.inlineIndexEntryBytes,
        file.blocks.length))=some (2,48,9) := by
    decide +kernel
  obtain ⟨file,hfile,hfields⟩ := exists_of_map hfields
  simp only [Prod.mk.injEq] at hfields
  obtain ⟨hcount,hinline,hlength⟩ := hfields
  have hspec := encodeSidecarTapeFile_spec hfile
  have hhashed := (parseSidecarIndexBlocks_readable hspec.primary).hashed
  have hdigest : file.header.canonicalMetadataHash=smallDigest := by
    rw [hspec.descriptor_eq,hspec.index_eq,hcount,hinline,computeCanonicalMetadataHash_small,
      Except.ok.injEq] at hhashed
    exact hhashed.symm.trans smallHash_metadata
  have hfree : CollisionFreeAt smallHash file.header.canonicalMetadataHash := by
    rw [hdigest]
    exact smallHash_collisionFreeAt
  have hreplaced : Replaced file (copyStart file .primary)
      ([] :: [1,2,3] :: file.blocks.drop 2) := by
    refine ⟨?_,?_⟩
    · simp [hlength]
    · intro i hout
      rw [hcount] at hout
      obtain ⟨j,rfl⟩ : ∃ j, i=j+2 := ⟨i-2,by simp [copyStart] at hout; omega⟩
      simp [add_comm]
  exact ⟨file,hfile,hfree,(parseSidecarTapeFile_one_copy_damaged hfile hreplaced).2 hfree⟩

end Remanence.Parity.Sidecar
