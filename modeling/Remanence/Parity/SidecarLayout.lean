import Remanence.Foundation.Packing
import Remanence.Parity.SidecarCodec

/-!
# Agreement of the sidecar index layouts

The scalar layout, the packing loop and the index parser describe one grouping, the greedy
segmentation of the entries: the layout counts its groups, packing renders them as blocks and
the parser reads them back.
-/

namespace Remanence.Parity.Sidecar

open Foundation Foundation.Packing Crc64 List IndexEntry IndexCursor

@[simp] theorem checkedU64_eq_ok {value result : ℕ} {message : String} :
    checkedU64 value message=.ok result ↔ value ≤ u64Max ∧ result=value := by
  unfold checkedU64
  split <;> simp_all [eq_comm]

section Scalar

variable {state next : IndexPackingState} {capacity count size offset : ℕ}

structure Packed (state : IndexPackingState) (capacity offset : ℕ) : Prop where
  offset_le : offset ≤ capacity
  remaining : state.remainingBytes=capacity-offset
  opened : 1 ≤ state.blockCount
  inline_le : state.blockCount=1 → state.inlineEntryBytes ≤ offset

structure SegmentResult (state next : IndexPackingState) (capacity count size offset : ℕ) :
    Prop where
  blocks : next.blockCount=state.blockCount+(scan capacity offset (replicate count size)).1
  packed : Packed next capacity (scan capacity offset (replicate count size)).2
  inlineBytes : next.inlineEntryBytes=state.inlineEntryBytes+
    if state.blockCount=1 then min count ((capacity-offset)/size)*size else 0
  blocks_le : state.blockCount ≤ u64Max → next.blockCount ≤ u64Max
  inline_le : state.inlineEntryBytes ≤ u64Max → next.inlineEntryBytes ≤ u64Max

theorem scan_of_fit (hle : offset ≤ capacity) (hfit : count ≤ (capacity-offset)/size) :
    scan capacity offset (replicate count size)=(0,offset+count*size) := by
  apply scan_replicate_fit
  have hmul := Nat.mul_le_mul_right size hfit
  have hdiv := Nat.div_mul_le_self (capacity-offset) size
  omega

theorem scan_of_spill (hsize : 0 < size) (hcapacity : size ≤ capacity) (hle : offset ≤ capacity)
    (hspill : (capacity-offset)/size < count) :
    scan capacity offset (replicate count size)=
      (addedBlocks (capacity/size) (count-(capacity-offset)/size), (count-(capacity-offset)/size-
          (addedBlocks (capacity/size) (count-(capacity-offset)/size)-1)*(capacity/size))*size) := by
  have hsplit : count=(capacity-offset)/size+(count-(capacity-offset)/size) := by omega
  have hlast : capacity < offset+(capacity-offset)/size*size+size := by
    have := Nat.lt_div_mul_add hsize (a := capacity-offset)
    omega
  have hhere : scan capacity offset (replicate ((capacity-offset)/size) size)=
      (0,offset+(capacity-offset)/size*size) := scan_of_fit hle le_rfl
  conv_lhs => rw [hsplit,replicate_add,scan_append,hhere]
  rw [scan_replicate_spill capacity hsize hcapacity hlast (by omega)]
  simp

section Segment

variable (hsize : 0 < size) (hcapacity : size ≤ capacity) (hstate : Packed state capacity offset)
include hsize hcapacity hstate

theorem packIndexSegment_spec (h : packIndexSegment state capacity count size=.ok next) :
    SegmentResult state next capacity count size offset := by
  obtain ⟨hle,hremaining,hopened,hinlineOffset⟩ := id hstate
  unfold packIndexSegment at h
  by_cases hzero : count=0
  · rw [if_pos hzero] at h
    obtain rfl := Except.ok.inj h
    subst hzero
    exact ⟨by simp [scan],by simpa [scan] using hstate,by simp,id,id⟩
  · rw [if_neg hzero] at h
    simp only [eq_ok,checkedU64_eq_ok] at h
    obtain ⟨_,_,_,_,bytesHere,⟨_,rfl⟩,inlineBytes,hinline,h⟩ := h
    rw [hremaining] at h hinline
    obtain ⟨hinlineEq,hinlineLe⟩ : inlineBytes=state.inlineEntryBytes+
          (if state.blockCount=1 then min count ((capacity-offset)/size)*size else 0) ∧
        (state.inlineEntryBytes ≤ u64Max → inlineBytes ≤ u64Max) := by
      split at hinline <;> rename_i hone
      · obtain ⟨hle,rfl⟩ := checkedU64_eq_ok.mp hinline
        exact ⟨by rw [if_pos hone],fun _ => hle⟩
      · obtain rfl := Except.ok.inj hinline
        exact ⟨by rw [if_neg hone,add_zero],id⟩
    by_cases hfit : count ≤ (capacity-offset)/size
    · have hmin := Nat.min_eq_left hfit
      rw [hmin] at h hinlineEq
      rw [if_pos (Nat.sub_self count)] at h
      have hbytes : offset+count*size ≤ capacity := by
        have hmul := Nat.mul_le_mul_right size hfit
        have hdiv := Nat.div_mul_le_self (capacity-offset) size
        omega
      obtain rfl := pure_eq_ok.mp h
      refine ⟨by rw [scan_of_fit hle hfit]; rfl,?_,by rw [hmin]; exact hinlineEq,id,hinlineLe⟩
      rw [scan_of_fit hle hfit]
      refine ⟨hbytes,by simp only; omega,hopened,fun hone => ?_⟩
      have := hinlineOffset hone
      rw [if_pos hone] at hinlineEq
      simp only
      omega
    · have hmin : min count ((capacity-offset)/size)=(capacity-offset)/size :=
        Nat.min_eq_right (by omega)
      rw [hmin,if_neg (by omega)] at h
      have hscan := scan_of_spill hsize hcapacity hle (Nat.lt_of_not_le hfit)
      simp only [eq_ok,checkedU64_eq_ok] at h
      obtain ⟨added,⟨_,rfl⟩,blocks,⟨hblocks,rfl⟩,_,hadded,before,⟨_,rfl⟩,_,_,bytesLast,⟨_,rfl⟩,_,
        hlast,rfl⟩ := h
      refine ⟨by rw [hscan]; rfl,?_,hinlineEq,fun _ => hblocks,hinlineLe⟩
      rw [hscan]
      exact ⟨Nat.le_of_not_lt hlast,rfl,Nat.le_add_right_of_le hopened,fun hone => by
        simp only at hone; omega⟩

theorem packIndexSegment_total (hcount : count ≤ u64Max) (hmax : capacity ≤ u64Max)
    (hroom : count≠0 → size ≤ capacity-offset ∨ state.currentBlockIsEmpty=false)
    (hblocks : state.blockCount+(scan capacity offset (replicate count size)).1 ≤ u64Max) :
    ∃ next, packIndexSegment state capacity count size=.ok next ∧
      (count=0 ∧ next=state ∨ next.currentBlockIsEmpty=false) := by
  obtain ⟨hle,hremaining,hopened,hinlineOffset⟩ := hstate
  unfold packIndexSegment
  by_cases hzero : count=0
  · exact ⟨state,if_pos hzero,.inl ⟨hzero,rfl⟩⟩
  have hper := Nat.div_pos hcapacity hsize
  have hhole : ¬(min count ((capacity-offset)/size)=0 ∧ state.currentBlockIsEmpty=true) := by
    rintro ⟨hmin,hempty⟩
    obtain hroom | hfull := hroom hzero
    · have := Nat.div_pos hroom hsize
      omega
    · rw [hfull] at hempty
      cases hempty
  have hhere : min count ((capacity-offset)/size)*size ≤ capacity-offset :=
    (Nat.mul_le_mul_right size (Nat.min_le_right _ _)).trans (Nat.div_mul_le_self _ _)
  have hinline : ∃ bytes, (if state.blockCount=1 then checkedU64 (state.inlineEntryBytes+
      min count ((capacity-offset)/size)*size) "sidecar inline index bytes overflow u64"
      else .ok state.inlineEntryBytes)=.ok bytes := by
    split
    · rename_i hone
      exact ⟨_,checkedU64_eq_ok.mpr ⟨by omega,rfl⟩⟩
    · exact ⟨_,rfl⟩
  obtain ⟨bytes,hinline⟩ := hinline
  rw [if_neg hzero,rejectIf_pos (by omega),ok_bind]
  simp only [hremaining]
  rw [rejectIf_pos hhole,ok_bind,checkedU64_eq_ok.mpr ⟨by omega,rfl⟩,ok_bind,hinline,ok_bind]
  by_cases hdone : count-min count ((capacity-offset)/size)=0
  · exact ⟨_,if_pos hdone,.inr rfl⟩
  have hspill : (capacity-offset)/size < count := by omega
  rw [scan_of_spill hsize hcapacity hle hspill] at hblocks
  rw [if_neg hdone,Nat.min_eq_right hspill.le]
  obtain ⟨hone,hadded,hbefore,hlast⟩ := addedBlocks_bounds hper (Nat.sub_pos_of_lt hspill)
  have hbytes := (Nat.mul_le_mul_right size hlast).trans (Nat.div_mul_le_self capacity size)
  have hsum : addedBlocks (capacity/size) (count-(capacity-offset)/size) ≤ u64Max := by omega
  simp only [eq_ok,checkedU64_eq_ok]
  exact ⟨_,⟨_,⟨hsum,rfl⟩,_,⟨hblocks,rfl⟩,(),not_lt.mpr hone,_,
    ⟨hbefore.trans ((Nat.sub_le _ _).trans hcount),rfl⟩,(),not_lt.mpr hbefore,_,⟨hbytes.trans hmax,rfl⟩,(),not_lt.mpr hbytes,rfl⟩,.inr rfl⟩

end Segment

end Scalar

section Layout

def groups (blockSize : ℕ) (index : SidecarIndex) : List IndexEntry×List (List IndexEntry) :=
  greedyGroups IndexEntry.len (blockSize-8) sidecarHeaderLen (indexEntries index)

theorem map_len_indexEntries (index : SidecarIndex) : (indexEntries index).map IndexEntry.len=
      replicate index.parityEntries.length parityIndexEntryLen++
        replicate index.dataShardCrc64s.length dataCrcEntryLen := by
  have hp : len ∘ parity=fun _ => parityIndexEntryLen := rfl
  have hd : len ∘ data=fun _ => dataCrcEntryLen := rfl
  simp [indexEntries,hp,hd]

theorem map_kind_indexEntries (index : SidecarIndex) : (indexEntries index).map IndexEntry.kind=
      entryKinds index.parityEntries.length index.dataShardCrc64s.length := by
  have hp : kind ∘ parity=fun _ => EntryKind.parity := rfl
  have hd : kind ∘ data=fun _ => EntryKind.data := rfl
  simp [indexEntries,entryKinds,hp,hd]

theorem packed_initial {blockSize : ℕ} (h : 208 ≤ blockSize) :
    Packed ⟨1,blockSize-8-sidecarHeaderLen,0,true⟩ (blockSize-8) sidecarHeaderLen :=
  ⟨by unfold sidecarHeaderLen; omega,rfl,Nat.le_refl 1,fun _ => Nat.zero_le _⟩

variable {blockSize parityCount dataCount : ℕ} {layout : SidecarIndexCapacityLayout}

theorem capacityLayout_segments
    (h : checkedSidecarIndexCapacityLayout blockSize parityCount dataCount=.ok layout) :
    208 ≤ blockSize ∧ ∃ afterParity afterData, SegmentResult
        ⟨1,blockSize-8-sidecarHeaderLen,0,true⟩ afterParity (blockSize-8) parityCount
        parityIndexEntryLen sidecarHeaderLen ∧
      SegmentResult afterParity afterData (blockSize-8) dataCount dataCrcEntryLen
        (scan (blockSize-8) sidecarHeaderLen (replicate parityCount parityIndexEntryLen)).2 ∧
      layout=⟨afterData.blockCount,afterData.inlineEntryBytes⟩ := by
  simp only [checkedSidecarIndexCapacityLayout,eq_ok] at h
  obtain ⟨_,hmin,afterParity,hparity,afterData,hdata,rfl⟩ := h
  obtain ⟨hsize,hparityFits,hdataFits⟩ : 208 ≤ blockSize ∧
      parityIndexEntryLen ≤ blockSize-8 ∧ dataCrcEntryLen ≤ blockSize-8 := by
    simp only [sidecarHeaderLen,parityIndexEntryLen,dataCrcEntryLen] at hmin ⊢
    omega
  have hp := packIndexSegment_spec (by decide) hparityFits (packed_initial hsize) hparity
  exact ⟨hsize,afterParity,afterData,hp,packIndexSegment_spec (by decide) hdataFits hp.packed hdata,
    rfl⟩

theorem capacityLayout_blocks
    (h : checkedSidecarIndexCapacityLayout blockSize parityCount dataCount=.ok layout) :
    layout.blockCount=1+(scan (blockSize-8) sidecarHeaderLen (replicate parityCount
      parityIndexEntryLen++replicate dataCount dataCrcEntryLen)).1 := by
  obtain ⟨_,afterParity,afterData,hp,hd,rfl⟩ := capacityLayout_segments h
  rw [hd.blocks,hp.blocks,scan_append,add_assoc]

variable {index : SidecarIndex}

theorem capacityLayout_spec {blockSize : ℕ}
    (h : checkedSidecarIndexCapacityLayout blockSize index.parityEntries.length
      index.dataShardCrc64s.length=.ok layout) :
    208 ≤ blockSize ∧ layout.blockCount=1+(groups blockSize index).2.length ∧
      layout.inlineEntryBytes=total IndexEntry.len (groups blockSize index).1 ∧
      layout.blockCount ≤ u64Max ∧ layout.inlineEntryBytes ≤ u64Max := by
  have hcount := capacityLayout_blocks h
  obtain ⟨hsize,afterParity,afterData,hp,hd,rfl⟩ := capacityLayout_segments h
  have hstart := (packed_initial hsize).offset_le
  have hone : (1 : ℕ) ≤ u64Max := by unfold u64Max; omega
  refine ⟨hsize,?_,?_,hd.blocks_le (hp.blocks_le hone),hd.inline_le (hp.inline_le (Nat.zero_le _))⟩
  · rw [groups,greedyGroups_length,map_len_indexEntries]
    exact hcount
  · rw [hd.inlineBytes,hp.inlineBytes,hp.blocks]
    have hpsize : ∀ e ∈ index.parityEntries.map parity,
        len e=parityIndexEntryLen := forall_mem_map.mpr fun _ _ => rfl
    have hdsize : ∀ e ∈ index.dataShardCrc64s.map data,
        len e=dataCrcEntryLen := forall_mem_map.mpr fun _ _ => rfl
    have hmap : (index.parityEntries.map parity).map len=
        replicate index.parityEntries.length parityIndexEntryLen := by
      have hp : len ∘ parity=fun _ => parityIndexEntryLen := rfl
      simp [hp]
    have hptotal := total_greedyGroups_fst_run len (blockSize-8) hpsize (by decide) hstart
    rw [length_map] at hptotal
    unfold groups indexEntries
    rw [greedyGroups_append_fst,hmap]
    by_cases hfit : (scan (blockSize-8) sidecarHeaderLen
        (replicate index.parityEntries.length parityIndexEntryLen)).1=0
    · -- all parity entries stay in block 0, and the data CRCs continue behind them
      rw [if_pos hfit,hfit,total_append,
        total_greedyGroups_fst_run len (blockSize-8) hdsize (by decide) hp.packed.offset_le,
        length_map]
      have hall : total len (index.parityEntries.map parity)=
          min index.parityEntries.length ((blockSize-8-sidecarHeaderLen)/parityIndexEntryLen)*
            parityIndexEntryLen := by
        have hkeep := greedyGroups_append_fst len (blockSize-8) sidecarHeaderLen
          (index.parityEntries.map parity) []
        rw [hmap,if_pos hfit,append_nil] at hkeep
        rw [←hptotal,hkeep]
        simp [greedyGroups]
      rw [hall]
      simp
    · rw [if_neg hfit,hptotal]
      simp [hfit]

/-- The scalar layout accepts every index whose first entry fits behind the header. -/
theorem capacityLayout_total (hsize : 208 ≤ blockSize)
    (hmax : blockSize ≤ u64Max) (hparity : parityCount ≤ u64Max) (hdata : dataCount ≤ u64Max)
    (hfirst : parityCount≠0 → 224 ≤ blockSize)
    (hsecond : parityCount=0 → dataCount≠0 → 216 ≤ blockSize)
    (hblocks : 1+(scan (blockSize-8) sidecarHeaderLen (replicate parityCount
      parityIndexEntryLen++replicate dataCount dataCrcEntryLen)).1 ≤ u64Max) :
    ∃ layout, checkedSidecarIndexCapacityLayout blockSize parityCount dataCount=.ok layout := by
  rw [scan_append] at hblocks
  have hheader : sidecarHeaderLen=200 := rfl
  have hsixteen : parityIndexEntryLen ≤ blockSize-8 := by unfold parityIndexEntryLen; omega
  have height : dataCrcEntryLen ≤ blockSize-8 := by unfold dataCrcEntryLen; omega
  have hinitial := packed_initial hsize
  obtain ⟨afterParity,hpack,hstate⟩ := packIndexSegment_total (by decide) hsixteen hinitial hparity
    (by omega) (fun hne => .inl (by have := hfirst hne; unfold parityIndexEntryLen; omega))
    ((Nat.add_le_add_left (Nat.le_add_right _ _) 1).trans hblocks)
  have hp := packIndexSegment_spec (by decide) hsixteen hinitial hpack
  have hroom : dataCount≠0 → dataCrcEntryLen ≤ blockSize-8-(scan (blockSize-8) sidecarHeaderLen
      (replicate parityCount parityIndexEntryLen)).2 ∨ afterParity.currentBlockIsEmpty=false := by
    intro hne
    obtain ⟨rfl,rfl⟩ | hfull := hstate
    · exact .inl (by simp only [List.replicate_zero,scan,dataCrcEntryLen]; omega)
    · exact .inr hfull
  obtain ⟨afterData,hpackData,-⟩ := packIndexSegment_total (by decide) height hp.packed hdata
    (by omega) hroom (by rw [hp.blocks,add_assoc]; exact hblocks)
  refine ⟨⟨afterData.blockCount,afterData.inlineEntryBytes⟩,?_⟩
  simp only [checkedSidecarIndexCapacityLayout,eq_ok]
  exact ⟨(),by omega,afterParity,hpack,afterData,hpackData,rfl⟩

end Layout

section Packing

def groupBytes (group : List IndexEntry) : Bytes := (group.map IndexEntry.bytes).flatten

@[simp] theorem length_entryBytes (entry : IndexEntry) : entry.bytes.length=entry.len := by
  cases entry with
  | parity entry => simp [bytes,parityEntryBytes,len,kind,entryLen,
      parityIndexEntryLen]
  | data crc => simp [bytes,len,kind,entryLen,dataCrcEntryLen]

theorem len_le (entry : IndexEntry) : entry.len ≤ 16 := by
  unfold len
  cases entry.kind <;> decide

@[simp] theorem length_groupBytes (group : List IndexEntry) :
    (groupBytes group).length=total IndexEntry.len group := by
  induction group with
  | nil => rfl
  | cons entry group ih => simp_all [groupBytes]

@[simp] theorem groupBytes_cons (entry : IndexEntry) (group : List IndexEntry) :
    groupBytes (entry::group)=entry.bytes++groupBytes group := by
  simp [groupBytes]

def render (blockSize : ℕ) (lead : Bytes) (group : List IndexEntry) : Bytes :=
  lead++groupBytes group++ replicate (blockSize-lead.length-total IndexEntry.len group) 0

variable {blockSize : ℕ}

theorem length_render {lead : Bytes} {group : List IndexEntry}
    (h : lead.length+total IndexEntry.len group ≤ blockSize) :
    (render blockSize lead group).length=blockSize := by
  simp only [render,length_append,length_groupBytes,length_replicate]
  omega

theorem writeAt_render (blockSize : ℕ) (lead : Bytes) (group : List IndexEntry)
    (entry : IndexEntry) :
    writeAt (render blockSize lead group) (lead.length+total IndexEntry.len group) entry.bytes=
      render blockSize lead (group++[entry]) := by
  have hbody : (lead++groupBytes group).length=lead.length+total len group := by
    rw [length_append,length_groupBytes]
  have hpad : blockSize-lead.length-total len group-entry.len=
      blockSize-lead.length-(total len group+entry.len) := by omega
  rw [writeAt,render,take_left' hbody,length_entryBytes,←drop_drop,
    drop_left' hbody,drop_replicate,hpad,render,total_append]
  simp [groupBytes]

def sealAt (block : Bytes) (offset : ℕ) : Bytes :=
  writeAt block offset (u64Le (crc64Xz (block.take offset)))

section Seal

variable {block : Bytes} {offset start len : ℕ} (h : offset+8 ≤ block.length)

include h

theorem length_sealAt : (sealAt block offset).length=block.length :=
  length_writeAt (by rwa [length_u64Le])

theorem slice_sealAt_before (hbelow : start+len ≤ offset) :
    slice (sealAt block offset) start len=slice block start len :=
  slice_writeAt_before (by rwa [length_u64Le]) hbelow

theorem slice_sealAt_after (habove : offset+8 ≤ start) :
    slice (sealAt block offset) start len=slice block start len :=
  slice_writeAt_after (by rwa [length_u64Le]) (by rwa [length_u64Le])

theorem take_sealAt : (sealAt block offset).take offset=block.take offset :=
  slice_sealAt_before h (zero_add _).le

theorem readU64Le_sealAt : readU64Le (sealAt block offset) offset=crc64Xz (block.take offset) := by
  apply readU64Le_of_slice
  exact slice_writeAt_same (by omega)

end Seal

variable {block : Bytes}

theorem length_writeTrailingCrc (h : 8 ≤ block.length) :
    (writeTrailingCrc block).length=block.length :=
  length_sealAt (Nat.sub_add_cancel h).le

theorem take_writeTrailingCrc (h : 8 ≤ block.length) :
    (writeTrailingCrc block).take (block.length-8)=block.take (block.length-8) :=
  take_sealAt (Nat.sub_add_cancel h).le

theorem writeTrailingCrc_idem (h : 8 ≤ block.length) :
    writeTrailingCrc (writeTrailingCrc block)=writeTrailingCrc block := by
  have hlen := length_writeTrailingCrc h
  have htake := take_writeTrailingCrc h
  have houter : writeTrailingCrc (writeTrailingCrc block)=
      writeAt (writeTrailingCrc block) (block.length-8)
        (u64Le (crc64Xz (block.take (block.length-8)))) := by
    rw [writeTrailingCrc,hlen,htake]
  rw [houter,writeAt,htake,writeTrailingCrc,writeAt]
  have hdrop : ∀ bytes : Bytes, bytes.length=8 → block.drop (block.length-8+bytes.length)=[] := by
    intro bytes hbytes
    exact drop_eq_nil_of_le (by omega)
  rw [hdrop _ (length_u64Le _),append_nil,drop_eq_nil_of_le]
  · simp
  · simp only [length_append,length_take,length_u64Le]
    omega

def sealSpill (blocks : List Bytes) : List Bytes :=
  blocks.take 1++(blocks.drop 1).map writeTrailingCrc

theorem sealSpill_closed {closed rest : List Bytes} {current : Bytes} (h : 8 ≤ current.length) :
    sealSpill (closed++ (if closed.length > 0 then writeTrailingCrc current else current)::rest)=
      sealSpill (closed++current::rest) := by
  cases closed with
  | nil => simp [sealSpill]
  | cons first closed => simp [sealSpill,writeTrailingCrc_idem h]

theorem foldlM_packEntry (hsize : 208 ≤ blockSize) {entries : List IndexEntry}
    {closed : List Bytes} {lead : Bytes} {group : List IndexEntry} {final : PackState}
    (hfits : lead.length+total IndexEntry.len group ≤ blockSize-8)
    (h : entries.foldlM (packEntry blockSize)
      ⟨closed,render blockSize lead group,lead.length+total IndexEntry.len group⟩=.ok final) :
    sealSpill (final.closed++[final.current])=
      let later := greedyGroups IndexEntry.len (blockSize-8)
        (lead.length+total IndexEntry.len group) entries
      sealSpill (closed++render blockSize lead (group++later.1)::
        later.2.map (render blockSize [])) := by
  induction entries generalizing closed lead group with
  | nil =>
    obtain rfl : _=final := by simpa using h
    simp [greedyGroups]
  | cons entry rest ih =>
    obtain ⟨state,hstate,hrest⟩ := foldlM_cons_eq_ok.mp h
    have hentry := len_le entry
    simp only [packEntry,openBlockFor,eq_ok] at hstate
    obtain ⟨opened,hopened,rfl⟩ := hstate
    by_cases hfit : lead.length+total len group+entry.len ≤ blockSize-8
    · rw [if_neg (by omega)] at hopened
      obtain rfl := Except.ok.inj hopened
      have hoffset : lead.length+total len group+entry.len=
          lead.length+total len (group++[entry]) := by
        simp [add_assoc]
      rw [writeAt_render,hoffset] at hrest
      have hih := ih (by omega) hrest
      rw [hih,greedyGroups,if_pos hfit,hoffset]
      simp
    · rw [if_pos (by omega)] at hopened
      simp only [eq_ok] at hopened
      obtain ⟨_,_,rfl⟩ := hopened
      have hfresh : replicate blockSize (0 : UInt8)=render blockSize [] [] := by
        simp [render,groupBytes]
      have hwrite : writeAt (render blockSize [] []) 0 entry.bytes=render blockSize [] [entry] := by
        simpa using writeAt_render blockSize [] [] entry
      rw [hfresh,hwrite] at hrest
      have hih := ih (by simp; omega) hrest
      have hcurrent : 8 ≤ (render blockSize lead group).length := by
        rw [length_render (by omega)]
        omega
      rw [hih,greedyGroups,if_neg hfit]
      simp only [append_assoc,singleton_append]
      rw [sealSpill_closed hcurrent]
      simp

theorem packIndexBlocks_eq (hsize : 208 ≤ blockSize) {blocks : List Bytes}
    (h : packIndexBlocks blockSize index=.ok blocks) :
    blocks=render blockSize (replicate sidecarHeaderLen 0) (groups blockSize index).1::
      (groups blockSize index).2.map fun group => writeTrailingCrc (render blockSize [] group) := by
  simp only [packIndexBlocks,eq_ok] at h
  obtain ⟨final,hfold,rfl⟩ := h
  have hlead : (replicate sidecarHeaderLen (0 : UInt8)).length=sidecarHeaderLen :=
    length_replicate
  have hheader : sidecarHeaderLen=200 := rfl
  have hcount : sidecarHeaderLen+(blockSize-sidecarHeaderLen)=blockSize := by omega
  have hfresh : replicate blockSize (0 : UInt8)=
      render blockSize (replicate sidecarHeaderLen 0) [] := by
    rw [render,hlead]
    simp only [groupBytes,map_nil,flatten_nil,append_nil,total_nil,Nat.sub_zero,
      replicate_append_replicate,hcount]
  have hstart : sidecarHeaderLen=
      (replicate sidecarHeaderLen (0 : UInt8)).length+total len [] := by
    rw [hlead,total_nil,add_zero]
  rw [hfresh] at hfold
  nth_rewrite 2 [hstart] at hfold
  have hpack := foldlM_packEntry hsize (by rw [hlead,total_nil]; omega) hfold
  exact hpack.trans (by simp [sealSpill,groups])

theorem first_fits {entry : IndexEntry} {rest blocks}
    (hentries : indexEntries index=entry::rest) (h : packIndexBlocks blockSize index=.ok blocks) :
    sidecarHeaderLen+entry.len ≤ blockSize-8 := by
  simp only [packIndexBlocks,eq_ok,hentries] at h
  obtain ⟨final,hfold,_⟩ := h
  obtain ⟨state,hstate,_⟩ := foldlM_cons_eq_ok.mp hfold
  obtain ⟨opened,hopened,_⟩ := bind_eq_ok.mp hstate
  by_contra hfull
  rw [openBlockFor,if_pos (Nat.lt_of_not_le hfull)] at hopened
  obtain ⟨_,hstart,_⟩ := bind_eq_ok.mp hopened
  exact rejectIf_eq_ok.mp hstart rfl

/-- The scalar layout counts the blocks that packing produces. It refuses an index only if packing
does, the blocks outnumber 64 bits, or there is no entry and no room for a header and a checksum. -/
theorem index_layout_eq_packing (blockSize : ℕ) (index : SidecarIndex) (hmax : blockSize ≤ u64Max)
    (hparity : index.parityEntries.length ≤ u64Max)
    (hdata : index.dataShardCrc64s.length ≤ u64Max) :
    (∀ layout blocks, checkedSidecarIndexCapacityLayout blockSize index.parityEntries.length
        index.dataShardCrc64s.length=.ok layout → packIndexBlocks blockSize index=.ok blocks →
        layout.blockCount=blocks.length) ∧
      ∀ error, checkedSidecarIndexCapacityLayout blockSize index.parityEntries.length
        index.dataShardCrc64s.length=.error error →
        (∃ error', packIndexBlocks blockSize index=.error error') ∨
        (∃ blocks, packIndexBlocks blockSize index=.ok blocks ∧ u64Max < blocks.length) ∨
        indexEntries index=[] ∧ blockSize < 208 := by
  have hlength {blocks : List Bytes} (hsize : 208 ≤ blockSize)
      (hblocks : packIndexBlocks blockSize index=.ok blocks) :
      blocks.length=1+(scan (blockSize-8) sidecarHeaderLen (replicate index.parityEntries.length
        parityIndexEntryLen++replicate index.dataShardCrc64s.length dataCrcEntryLen)).1 := by
    rw [packIndexBlocks_eq hsize hblocks,length_cons,length_map,groups,greedyGroups_length,
      map_len_indexEntries,add_comm]
  refine ⟨fun layout blocks hlayout hblocks => ?_,fun error herror => ?_⟩
  · rw [capacityLayout_blocks hlayout,hlength (capacityLayout_segments hlayout).1 hblocks]
  cases hblocks : packIndexBlocks blockSize index with
  | error error' => exact .inl ⟨error',rfl⟩
  | ok blocks =>
    by_contra hother
    simp only [reduceCtorEq,exists_false,Except.ok.injEq,exists_eq_left',false_or,not_or,not_lt,
      not_and] at hother
    -- packing has placed a first entry, if there is one
    have hroom : 208 ≤ blockSize ∧ (index.parityEntries.length≠0 → 224 ≤ blockSize) ∧
        (index.parityEntries.length=0 → index.dataShardCrc64s.length≠0 → 216 ≤ blockSize) := by
      cases hp : index.parityEntries with
      | cons entry entries =>
        have hfits := first_fits (by rw [indexEntries,hp]; rfl) hblocks
        change 200+16 ≤ blockSize-8 at hfits
        simp
        omega
      | nil =>
        cases hd : index.dataShardCrc64s with
        | cons crc crcs =>
          have hfits := first_fits (by rw [indexEntries,hp,hd]; rfl) hblocks
          change 200+8 ≤ blockSize-8 at hfits
          simp
          omega
        | nil => simpa using hother.2 (by rw [indexEntries,hp,hd]; rfl)
    have hcount := hlength hroom.1 hblocks
    obtain ⟨layout,hlayout⟩ := capacityLayout_total hroom.1 hmax hparity hdata hroom.2.1 hroom.2.2
      (hcount ▸ hother.1)
    rw [hlayout] at herror
    cases herror

/-- Twenty checksums need a second block. -/
theorem index_layout_eq_packing_two : checkedSidecarIndexCapacityLayout 224 0 20=.ok ⟨2,16⟩ ∧
    ∀ blocks, packIndexBlocks 224 ⟨[],replicate 20 0⟩=.ok blocks → 2=blocks.length :=
  ⟨by decide +kernel,fun blocks => (index_layout_eq_packing 224 ⟨[],replicate 20 0⟩ (by decide)
    (by decide) (by decide)).1 ⟨2,16⟩ blocks (by decide +kernel)⟩

/-- A block of 100 bytes takes no header, but packing no entries does not look. -/
theorem layout_refuses_empty_index : (checkedSidecarIndexCapacityLayout 100 0 0).isOk=false ∧
    packIndexBlocks 100 ⟨[],[]⟩=.ok [replicate 100 0] ∧ 1 ≤ u64Max := by
  decide +kernel

end Packing

section Parsing

def parityPart (entries : List IndexEntry) : List ParityShardIndexEntry :=
  entries.filterMap fun
    | .parity entry => some entry
    | .data _ => none

def dataPart (entries : List IndexEntry) : List UInt64 :=
  entries.filterMap fun
    | .parity _ => none
    | .data crc => some crc

theorem parts_indexEntries (index : SidecarIndex) :
    parityPart (indexEntries index)=index.parityEntries ∧
      dataPart (indexEntries index)=index.dataShardCrc64s := by
  constructor
  · simp [parityPart,indexEntries,filterMap_append,filterMap_map]
  · simp [dataPart,indexEntries,filterMap_append,filterMap_map]

structure EntryArea (block : Bytes) (crcOffset offset : ℕ) (group : List IndexEntry) : Prop where
  fits : offset+total IndexEntry.len group ≤ crcOffset
  content : slice block offset (crcOffset-offset)=
    groupBytes group++replicate (crcOffset-offset-total IndexEntry.len group) 0

variable {block : Bytes} {crcOffset offset : ℕ} {entry : IndexEntry} {group : List IndexEntry}

theorem EntryArea.head (h : EntryArea block crcOffset offset (entry::group)) :
    slice block offset entry.len=entry.bytes := by
  have hfits := h.fits
  rw [total_cons] at hfits
  have hslice : slice (slice block offset (crcOffset-offset)) 0 entry.len=
      slice block offset entry.len := slice_slice (by omega)
  rw [←hslice,h.content,groupBytes_cons,slice,drop_zero,append_assoc,
    take_left' (length_entryBytes entry)]

theorem EntryArea.tail (h : EntryArea block crcOffset offset (entry::group)) :
    EntryArea block crcOffset (offset+entry.len) group := by
  have hfits := h.fits
  rw [total_cons] at hfits
  refine ⟨by omega,?_⟩
  have hslice : slice (slice block offset (crcOffset-offset)) entry.len
      (crcOffset-(offset+entry.len))=slice block (offset+entry.len) (crcOffset-(offset+entry.len)) :=
    slice_slice (by omega)
  have hpad : crcOffset-offset-total len (entry::group)=
      crcOffset-(offset+entry.len)-total len group := by
    rw [total_cons]
    omega
  rw [←hslice,h.content,groupBytes_cons,slice,append_assoc,
    drop_left' (length_entryBytes entry),hpad,take_of_length_le]
  simp only [length_append,length_groupBytes,length_replicate]
  omega

theorem EntryArea.behind (h : EntryArea block crcOffset offset group) :
    EntryArea block crcOffset (offset+total IndexEntry.len group) [] := by
  induction group generalizing offset with
  | nil => exact h
  | cons entry group ih =>
    rw [total_cons,←add_assoc]
    exact ih h.tail

theorem ensureZeroFilled_replicate (n : ℕ) (label : String) :
    ensureZeroFilled (replicate n 0) label=.ok () := by
  have hnone : (replicate n (0 : UInt8)).findIdx? (fun x => decide (x ≠ 0))=none := by
    rw [findIdx?_eq_none_iff]
    intro x hx
    simp [eq_of_mem_replicate hx]
  rw [ensureZeroFilled,hnone]

theorem EntryArea.padding (h : EntryArea block crcOffset offset []) (label : String) :
    ensureZeroFilled (slice block offset (crcOffset-offset)) label=.ok () := by
  rw [h.content]
  exact ensureZeroFilled_replicate _ label

variable {h : ℕ} {blocks : List Bytes} {cursor : IndexCursor}

def IndexCursor.behind (cursor : IndexCursor) (group : List IndexEntry) : IndexCursor :=
  { cursor with
    offset := cursor.offset+total IndexEntry.len group
    parityEntries := cursor.parityEntries++parityPart group
    dataShardCrc64s := cursor.dataShardCrc64s++dataPart group }

theorem IndexCursor.behind_cons (cursor : IndexCursor) (entry : IndexEntry) (group) :
    (cursor.behind [entry]).behind group=cursor.behind (entry::group) := by
  cases entry <;> simp [behind,parityPart,dataPart,add_assoc]

theorem parseIndexEntry_area
    (harea : EntryArea (blocks.getD cursor.blockIndex []) crcOffset cursor.offset (entry::group))
    (hlimit : cursor.offset+entry.len ≤ cursor.limit) :
    parseIndexEntry crcOffset h blocks cursor entry.kind=.ok (cursor.behind [entry]) := by
  have hhead := harea.head
  have hadvance : advanceCursor crcOffset h blocks cursor (entryLen entry.kind)=.ok cursor :=
    if_neg (not_lt.mpr hlimit)
  simp only [parseIndexEntry,hadvance,ok_bind]
  generalize blocks.getD cursor.blockIndex []=block at hhead ⊢
  cases entry with
  | parity entry =>
    -- the four fields of the record are slices of its sixteen bytes
    have hfield : ∀ start count, start+count ≤ 16 →
        slice block (cursor.offset+start) count=slice (parityEntryBytes entry) start count := by
      intro start count hle
      have hrecord : slice block cursor.offset 16=parityEntryBytes entry := hhead
      rw [←hrecord,slice_slice hle]
    have hstripe : readU32Le block cursor.offset=entry.stripeIndex :=
      readU32Le_of_slice ((hfield 0 4 (by omega)).trans rfl)
    have hparity := readU16Le_of_slice ((hfield 4 2 (by omega)).trans rfl)
    have hreserved := readU16Le_of_slice ((hfield 6 2 (by omega)).trans rfl)
    have hcrc := readU64Le_of_slice ((hfield 8 8 (by omega)).trans rfl)
    simp [kind,len,behind,hstripe,hparity,hreserved,hcrc,parityPart,
      dataPart]
  | data crc =>
    have hcrc := readU64Le_of_slice hhead
    simp [kind,len,behind,hcrc,parityPart,dataPart]

theorem foldlM_parse_group
    (harea : EntryArea (blocks.getD cursor.blockIndex []) crcOffset cursor.offset group)
    (hlimit : cursor.offset+total IndexEntry.len group ≤ cursor.limit) :
    (group.map IndexEntry.kind).foldlM (parseIndexEntry crcOffset h blocks) cursor=
      .ok (cursor.behind group) := by
  induction group generalizing cursor with
  | nil => simp [behind,parityPart,dataPart,pure,Except.pure]
  | cons entry group ih =>
    rw [total_cons] at hlimit
    rw [map_cons,←behind_cons]
    refine foldlM_cons_eq_ok.mpr ⟨_,parseIndexEntry_area harea (by omega),ih harea.tail ?_⟩
    change cursor.offset+entry.len+total len group ≤ cursor.limit
    omega

theorem foldlM_parse_groups {later : List (List IndexEntry)}
    (harea : EntryArea (blocks.getD cursor.blockIndex []) crcOffset cursor.offset group)
    (hlimit : cursor.limit=crcOffset ∨ cursor.limit=cursor.offset+total IndexEntry.len group)
    (hgreedy : Greedy IndexEntry.len crcOffset (cursor.offset+total IndexEntry.len group) later)
    (hlater : ∀ i g, later[i]?=some g →
      EntryArea (blocks.getD (cursor.blockIndex+1+i) []) crcOffset 0 g)
    (hcount : cursor.blockIndex+1+later.length ≤ h) :
    ∃ final, ((group++later.flatten).map IndexEntry.kind).foldlM
        (parseIndexEntry crcOffset h blocks) cursor=.ok final ∧
      final.blockIndex=cursor.blockIndex+later.length ∧
      EntryArea (blocks.getD final.blockIndex []) crcOffset final.offset [] ∧
      final.parityEntries=cursor.parityEntries++parityPart (group++later.flatten) ∧
      final.dataShardCrc64s=cursor.dataShardCrc64s++dataPart (group++later.flatten) := by
  induction later generalizing cursor group with
  | nil =>
    have hfits := harea.fits
    have hgroup := foldlM_parse_group (h := h) harea (by omega)
    refine ⟨cursor.behind group,?_,by simp [behind],harea.behind,?_,?_⟩
    · simpa using hgroup
    · simp [behind]
    · simp [behind]
  | cons first later ih =>
    have hfits := harea.fits
    have hgroup := foldlM_parse_group (h := h) harea (by omega)
    rw [length_cons] at hcount
    cases hgreedy with
    | @cons _ entry rest _ hfull hfit htail =>
      -- the first entry of the next group does not fit, so the cursor moves on
      let opened : IndexCursor := { cursor.behind group with
        blockIndex := cursor.blockIndex+1,offset := 0,limit := crcOffset }
      have hadvance : advanceCursor crcOffset h blocks (cursor.behind group) entry.len=
          .ok opened := by
        have hover : (cursor.behind group).offset+entry.len > (cursor.behind group).limit := by
          simp only [behind]
          omega
        have hblock : ¬(cursor.behind group).blockIndex+1 ≥ h := by
          simp only [behind]
          omega
        have hpad : ensureZeroFilled (slice (blocks.getD (cursor.behind group).blockIndex [])
            (cursor.behind group).offset (crcOffset-(cursor.behind group).offset))
            "sidecar index padding"=.ok () := harea.behind.padding _
        rw [advanceCursor,if_pos hover,hpad,ok_bind,rejectIf_pos hblock]
        rfl
      have hstay : advanceCursor crcOffset h blocks opened entry.len=.ok opened := by
        apply if_neg
        simp only [opened]
        omega
      have hsame : parseIndexEntry crcOffset h blocks (cursor.behind group) entry.kind=
          parseIndexEntry crcOffset h blocks opened entry.kind := by
        have hlen : entryLen entry.kind=entry.len := rfl
        simp only [parseIndexEntry,hlen,hadvance,hstay]
      have hfirst := hlater 0 (entry::rest) rfl
      have hnext : ∀ i g, later[i]?=some g →
          EntryArea (blocks.getD (opened.blockIndex+1+i) []) crcOffset 0 g := by
        intro i g hg
        have hg' := hlater (i+1) g hg
        rwa [show cursor.blockIndex+1+(i+1)=opened.blockIndex+1+i by simp only [opened]; omega] at hg'
      have htail' : Greedy len crcOffset
          (opened.offset+total len (entry::rest)) later := by
        rwa [total_cons,zero_add]
      obtain ⟨final,hfold,hindex,hlast,hparity,hdata⟩ :=
        ih hfirst (.inl rfl) htail' hnext (by simp only [opened]; omega)
      refine ⟨final,?_,?_,hlast,?_,?_⟩
      · rw [map_append,foldlM_append,hgroup,ok_bind,flatten_cons,cons_append,
          map_cons,foldlM_cons,hsame,←foldlM_cons]
        exact hfold
      · rw [hindex,length_cons]
        simp only [opened]
        omega
      · rw [hparity]
        simp [opened,behind,parityPart]
      · rw [hdata]
        simp [opened,behind,dataPart]

variable {blockSize : ℕ}

theorem entryArea_spill (hsize : 208 ≤ blockSize)
    (hfits : total IndexEntry.len group ≤ blockSize-8) :
    EntryArea (writeTrailingCrc (render blockSize [] group)) (blockSize-8) 0 group := by
  have hlen : (render blockSize [] group).length=blockSize :=
    length_render (by rw [length_nil]; omega)
  have hlong : 8 ≤ (render blockSize [] group).length := by omega
  have htake := take_writeTrailingCrc hlong
  rw [hlen] at htake
  refine ⟨by omega,?_⟩
  rw [Nat.sub_zero,slice_zero,htake]
  simp only [render,length_nil,nil_append,Nat.sub_zero,take_append,
    length_groupBytes,take_replicate]
  rw [take_of_length_le (by rw [length_groupBytes]; exact hfits),Nat.min_eq_left (by omega)]

theorem entryArea_first (hfits : sidecarHeaderLen+total IndexEntry.len group ≤ blockSize-8) :
    EntryArea (render blockSize (replicate sidecarHeaderLen 0) group) (blockSize-8)
      sidecarHeaderLen group := by
  have hlead : (replicate sidecarHeaderLen (0 : UInt8)).length=sidecarHeaderLen :=
    length_replicate
  refine ⟨hfits,?_⟩
  rw [slice,render,append_assoc,drop_left' hlead,hlead,take_append,
    length_groupBytes,take_replicate,
    take_of_length_le (by rw [length_groupBytes]; omega),Nat.min_eq_left (by omega)]

theorem groups_greedy (hsize : 208 ≤ blockSize) (index : SidecarIndex) :
    Greedy IndexEntry.len (blockSize-8)
      (sidecarHeaderLen+total IndexEntry.len (groups blockSize index).1)
      (groups blockSize index).2 := by
  apply greedyGroups_greedy
  intro entry _
  have := len_le entry
  omega

theorem groups_fst_le (hsize : 208 ≤ blockSize) (index : SidecarIndex) :
    sidecarHeaderLen+total IndexEntry.len (groups blockSize index).1 ≤ blockSize-8 := by
  apply greedyGroups_fst_le
  rw [show sidecarHeaderLen=200 from rfl]
  omega

/-- An index is read back from the first group of block 0 and the rendered later groups. -/
theorem parseIndexEntries_copy {header : SidecarHeader} {block0 : Bytes}
    (hsize : 208 ≤ header.blockSize.toNat)
    (hparity : header.parityBlockCount.toNat=index.parityEntries.length)
    (hdata : header.dataCrcCount.toNat=index.dataShardCrc64s.length)
    (hblocks : header.shardIndexBlockCount.toNat=1+(groups header.blockSize.toNat index).2.length)
    (hinline : header.inlineIndexEntryBytes.toNat=
      total IndexEntry.len (groups header.blockSize.toNat index).1)
    (hfirst : EntryArea block0 (header.blockSize.toNat-8) sidecarHeaderLen
      (groups header.blockSize.toNat index).1) :
    parseIndexEntries header (block0::(groups header.blockSize.toNat index).2.map
      fun group => writeTrailingCrc (render header.blockSize.toNat [] group))=.ok index := by
  generalize hbs : header.blockSize.toNat=blockSize at *
  have hflat := greedyGroups_flatten len (blockSize-8) sidecarHeaderLen (indexEntries index)
  have hgreedy := groups_greedy hsize index
  change (groups blockSize index).1++(groups blockSize index).2.flatten=_ at hflat
  generalize groups blockSize index=g at *
  generalize hcopy : (block0::g.2.map fun group => writeTrailingCrc (render blockSize [] group))=copy
  have hlater : ∀ i group, g.2[i]?=some group →
      EntryArea (copy.getD (0+1+i) []) (blockSize-8) 0 group := by
    intro i group hgroup
    have hget : copy.getD (0+1+i) []=writeTrailingCrc (render blockSize [] group) := by
      rw [←hcopy,add_comm (0+1) i,getD_cons_succ,getD_eq_getElem?_getD, getElem?_map,hgroup]
      rfl
    rw [hget]
    exact entryArea_spill hsize (hgreedy.fits (mem_of_getElem? hgroup))
  let start : IndexCursor := ⟨0,sidecarHeaderLen,sidecarHeaderLen+total len g.1,[],[]⟩
  have harea : EntryArea (copy.getD start.blockIndex []) (blockSize-8) start.offset g.1 := by
    rw [←hcopy]
    exact hfirst
  have hcount := hblocks.ge
  obtain ⟨final,hfold,hindex,hlast,hparts,hcrcs⟩ :=
    foldlM_parse_groups harea (.inr rfl) hgreedy hlater hcount
  rw [hflat] at hfold hparts hcrcs
  rw [map_kind_indexEntries] at hfold
  -- all blocks of the copy are used, so none is left over
  have hunused : (copy.take header.shardIndexBlockCount.toNat).drop (final.blockIndex+1)=[] := by
    apply drop_eq_nil_of_le
    rw [length_take,hindex,hblocks]
    omega
  simp only [parseIndexEntries,hbs,hparity,hdata,hinline,eq_ok]
  refine ⟨final,hfold,(),hlast.padding _,(),?_,?_⟩
  · rw [hunused]
    rfl
  · rw [hparts,hcrcs,(parts_indexEntries index).1,(parts_indexEntries index).2]
    rfl

end Parsing

end Remanence.Parity.Sidecar
