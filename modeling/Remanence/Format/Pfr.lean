import Remanence.Format.ObjectLaw

/-!
# Reading part of a file

A byte range of a file is read by the blocks that cover it. The payload of a
file starts at a chunk boundary, so that the blocks are counted from its first
chunk.
-/

namespace Remanence.Format

open Foundation List

structure PlaintextRemObjectFileRangePlan where
  firstBodyLba : BodyLba
  blockCount : ℕ
  firstBlockOffset : ℕ
  rangeLen : ℕ
deriving DecidableEq, Repr

/-- Sum of two words, with the refusal of the range reader. -/
def rangeAdd (a b : ℕ) (message : String) : Except FormatError ℕ :=
  if a+b < 2^64 then .ok (a+b) else .error (.invalidInput message)

def validateFileRange (fileSizeBytes rangeStart rangeLen : ℕ) : Except FormatError Unit := do
  let rangeEnd ← rangeAdd rangeStart rangeLen "file range arithmetic overflow"
  if rangeLen=0 then
    rejectIf (fileSizeBytes < rangeStart) (.invalidInput "empty file range starts past file end")
  else
    rejectIf (fileSizeBytes < rangeEnd) (.invalidInput "file range extends past file end")

def planPlaintextRemObjectFileRange (firstChunkLba : Option BodyLba)
    (fileSizeBytes chunkSizeBytes rangeStart rangeLen : ℕ) :
    Except FormatError (Option PlaintextRemObjectFileRangePlan) := do
  rejectIf (chunkSizeBytes=0) (.invalidInput "chunk_size_bytes must be nonzero")
  validateFileRange fileSizeBytes rangeStart rangeLen
  if rangeLen=0 then return none
  else
    let firstChunkLba ← orElseError firstChunkLba
      (.invalidInput "non-empty plaintext file range requires first_chunk_lba")
    let firstRelativeBlock := rangeStart/chunkSizeBytes
    let rangeEnd ← rangeAdd rangeStart rangeLen "file range arithmetic overflow"
    let lastRelativeBlock := (rangeEnd-1)/chunkSizeBytes
    -- the last block is not before the first one, so the difference exists
    let blockCount ← rangeAdd (lastRelativeBlock-firstRelativeBlock) 1
      "file range block arithmetic overflow"
    let firstBodyLba ← rangeAdd firstChunkLba firstRelativeBlock "file range body LBA overflow"
    return some ⟨firstBodyLba,blockCount,rangeStart%chunkSizeBytes,rangeLen⟩

def PlaintextRemObjectFileRangePlan.bytes (plan : PlaintextRemObjectFileRangePlan)
    (object : List Bytes) : Bytes :=
  slice ((object.drop plan.firstBodyLba).take plan.blockCount).flatten plan.firstBlockOffset plan.rangeLen

theorem validateFileRange_eq {fileSizeBytes rangeStart rangeLen : ℕ} (hsize : fileSizeBytes < 2^64) :
    (rangeStart+rangeLen ≤ fileSizeBytes → validateFileRange fileSizeBytes rangeStart rangeLen=.ok ()) ∧
    (fileSizeBytes < rangeStart+rangeLen →
      ∃ error, validateFileRange fileSizeBytes rangeStart rangeLen=.error error) := by
  unfold validateFileRange rangeAdd
  constructor
  · intro hinside
    rw [if_pos (by omega),ok_bind]
    split_ifs with hempty
    · exact rejectIf_pos (by omega)
    · exact rejectIf_pos (by omega)
  · intro houtside
    by_cases hfits : rangeStart+rangeLen < 2^64
    · rw [if_pos hfits,ok_bind]
      split_ifs with hempty
      · exact ⟨_,rejectIf_neg (by omega)⟩
      · exact ⟨_,rejectIf_neg houtside⟩
    · rw [if_neg hfits,error_bind]
      exact ⟨_,rfl⟩

variable {lba size chunk start len : ℕ}

theorem planPlaintextRemObjectFileRange_eq (hchunk : 0 < chunk)
    (hlen : 0 < len) (hinside : start+len ≤ size) (hend : lba*chunk+size < 2^64) :
    planPlaintextRemObjectFileRange (some lba) size chunk start len=
      .ok (some ⟨lba+start/chunk,(start+len-1)/chunk-start/chunk+1,start%chunk,len⟩) := by
  have hlast : (start+len-1)/chunk ≤ start+len-1 := Nat.div_le_self _ _
  have hlba := Nat.le_mul_of_pos_right lba hchunk
  have hfirst : start/chunk ≤ start := Nat.div_le_self _ _
  have hcount : (start+len-1)/chunk-start/chunk ≤ start+len-1 :=
    le_trans (Nat.sub_le _ _) hlast
  rw [planPlaintextRemObjectFileRange,rejectIf_pos (ne_of_gt hchunk),ok_bind,
    (validateFileRange_eq (by omega)).1 hinside,ok_bind,if_neg (ne_of_gt hlen),orElseError_some,
    ok_bind]
  dsimp only
  rw [rangeAdd,if_pos (by omega),ok_bind,rangeAdd,if_pos (by omega),ok_bind,rangeAdd,
    if_pos (by omega)]
  rfl

section

variable {blocks : List Bytes} (h : ∀ block ∈ blocks, block.length=size)
include h

theorem flatten_drop_of_blocks (count : ℕ) :
    (blocks.drop count).flatten=blocks.flatten.drop (count*size) := by
  induction blocks generalizing count with
  | nil => simp
  | cons block blocks ih =>
    cases count with
    | zero => simp
    | succ count =>
      have hblock := h block mem_cons_self
      rw [drop_succ_cons,ih (fun other hother => h other (mem_cons_of_mem _ hother)),
        flatten_cons,drop_append,Nat.succ_mul,hblock,Nat.add_sub_cancel,
        drop_eq_nil_of_le (show block.length ≤ count*size+size by omega),nil_append]

theorem flatten_take_of_blocks (count : ℕ) :
    (blocks.take count).flatten=blocks.flatten.take (count*size) := by
  induction blocks generalizing count with
  | nil => simp
  | cons block blocks ih =>
    cases count with
    | zero => simp
    | succ count =>
      have hblock := h block mem_cons_self
      rw [take_succ_cons,flatten_cons,
        ih (fun other hother => h other (mem_cons_of_mem _ hother)),flatten_cons,
        take_append,Nat.succ_mul,hblock,Nat.add_sub_cancel,
        take_of_length_le (show block.length ≤ count*size+size by omega)]

theorem flatten_run_of_blocks (first count : ℕ) :
    ((blocks.drop first).take count).flatten=slice blocks.flatten (first*size) (count*size) := by
  rw [flatten_take_of_blocks (fun block hblock => h block (mem_of_mem_drop hblock)),
    flatten_drop_of_blocks h]
  rfl

end

theorem run_covers (hchunk : 0 < chunk) (hlen : 0 < len) :
    start%chunk+len ≤ ((start+len-1)/chunk-start/chunk+1)*chunk := by
  have hfirst := Nat.div_add_mod start chunk
  have hlast := Nat.div_add_mod (start+len-1) chunk
  have hmod := Nat.mod_lt (start+len-1) hchunk
  have hle : start/chunk ≤ (start+len-1)/chunk := Nat.div_le_div_right (by omega)
  obtain ⟨more,hmore⟩ := Nat.exists_eq_add_of_le hle
  have hmul : chunk*((start+len-1)/chunk)=chunk*(start/chunk)+more*chunk := by
    rw [hmore,mul_add,mul_comm chunk more]
  have hcount : ((start+len-1)/chunk-start/chunk+1)*chunk=more*chunk+chunk := by
    rw [hmore,Nat.add_sub_cancel_left,Nat.succ_mul]
  omega

theorem run_minimal {first count : ℕ} (hchunk : 0 < chunk) (hlen : 0 < len)
    (hfirst : first*chunk ≤ lba*chunk+start) (hlast : lba*chunk+start+len ≤ (first+count)*chunk) :
    first ≤ lba+start/chunk ∧
      lba+start/chunk+((start+len-1)/chunk-start/chunk+1) ≤ first+count := by
  have hle : start/chunk ≤ (start+len-1)/chunk := Nat.div_le_div_right (by omega)
  obtain ⟨more,hmore⟩ := Nat.exists_eq_add_of_le hle
  rw [hmore,Nat.add_sub_cancel_left]
  constructor
  · have hdiv := Nat.div_le_div_right (c := chunk) hfirst
    rw [Nat.mul_div_cancel _ hchunk,add_comm (lba*chunk),Nat.add_mul_div_right _ _ hchunk] at hdiv
    omega
  · have hlt : start+len-1+lba*chunk < (first+count)*chunk := by omega
    have hdiv := (Nat.div_lt_iff_lt_mul hchunk).mpr hlt
    rw [Nat.add_mul_div_right _ _ hchunk,hmore] at hdiv
    omega

theorem bytes_of_payload {object : List Bytes} {data : Bytes}
    (hsizes : ∀ block ∈ object, block.length=chunk) (hchunk : 0 < chunk) (hlen : 0 < len)
    (hinside : start+len ≤ data.length)
    (hdata : slice object.flatten (lba*chunk) data.length=data) :
    PlaintextRemObjectFileRangePlan.bytes
      ⟨lba+start/chunk,(start+len-1)/chunk-start/chunk+1,start%chunk,len⟩ object=slice data start len := by
  have hoffset : (lba+start/chunk)*chunk+start%chunk=lba*chunk+start := by
    rw [add_mul,add_assoc,Nat.div_add_mod']
  rw [PlaintextRemObjectFileRangePlan.bytes,flatten_run_of_blocks hsizes,
    slice_slice (run_covers hchunk hlen),hoffset,←slice_slice hinside,hdata]

variable {σ : Type} {sink : BlockSink σ} {blocks : σ → List Bytes} {state state' : σ}
  {services : FormatServices} {options : RemTarObjectOptions} {layout : RemTarObjectLayout}
  {files : List (RemTarFileSpec×PayloadReader)} {object : List Bytes}

theorem objectStored_of_written
    (hplan : planRemTarObject services options (files.map Prod.fst)=.ok layout)
    (hfiles : ∀ file ∈ files, PayloadGiven services file)
    (haccepts : Accepts sink blocks options.chunkSize layout.projectedSizeBlocks state)
    (hrun : writeRemTarObjectFromReaders services sink state options files=.ok (layout,state'))
    (hobject : blocks state'=blocks state++object) :
    ObjectStored services options Prod.fst readerPayload files layout object := by
  obtain ⟨hok,herror⟩ := writeRemTarObjectFromReaders_outcome hplan hfiles haccepts
  rw [hrun] at hok herror
  by_cases hfit : layout.HeadersFit
  · obtain ⟨final,stored,hfinal,hblocks,hstored⟩ := hok hfit
    cases hfinal
    rw [hobject] at hblocks
    rw [append_cancel_left hblocks]
    exact hstored
  · obtain ⟨error,hfalse⟩ := herror hfit
    cases hfalse

theorem planPlaintextRemObjectFileRange_reads {file : RemTarFileSpec×PayloadReader}
    {entry : RemTarFileLayout}
    (hplan : planRemTarObject services options (files.map Prod.fst)=.ok layout)
    (hfiles : ∀ file ∈ files, PayloadGiven services file)
    (haccepts : Accepts sink blocks options.chunkSize layout.projectedSizeBlocks state)
    (hrun : writeRemTarObjectFromReaders services sink state options files=.ok (layout,state'))
    (hobject : blocks state'=blocks state++object) (hentry : (file,entry) ∈ files.zip layout.files)
    (start len : ℕ) :
    (len=0 → start ≤ (readerPayload file).length → planPlaintextRemObjectFileRange entry.firstChunkLba
      entry.sizeBytes.toNat options.chunkSize start len=.ok none) ∧
    (0 < len → start+len ≤ (readerPayload file).length → ∃ plan,
      planPlaintextRemObjectFileRange entry.firstChunkLba entry.sizeBytes.toNat options.chunkSize start
        len=.ok (some plan) ∧
      plan.bytes object=slice (readerPayload file) start len ∧
      plan.firstBodyLba+plan.blockCount ≤ object.length ∧
      ∀ first count, first*options.chunkSize ≤ entry.dataOffset+start →
        entry.dataOffset+start+len ≤ (first+count)*options.chunkSize →
        first ≤ plan.firstBodyLba ∧ plan.firstBodyLba+plan.blockCount ≤ first+count) ∧
    ((readerPayload file).length < start+len → ∃ error,
      planPlaintextRemObjectFileRange entry.firstChunkLba entry.sizeBytes.toNat options.chunkSize start
        len=.error error) := by
  have hstored := objectStored_of_written hplan hfiles haccepts hrun hobject
  obtain ⟨globalBody,globalPadded,filesEnd,objectEnd,hplanned⟩ := objectPlan_of_plan hplan
  have hchunk := hplanned.chunk_pos
  have hplaced := (forall₂_iff_zip.mp hstored.placed).2 hentry
  obtain ⟨offset,next,hone⟩ :=
    (forall₂_iff_zip.mp (forall₂_map_left_iff.mp hplanned.files.forall₂)).2 hentry
  obtain ⟨records,body,padded,hentryPlan⟩ := entryPlan_of_planOneFile hone
  have hsize : (readerPayload file).length=entry.sizeBytes.toNat := by
    rw [hentryPlan.size_eq]
    exact length_take_of_le (hfiles file (of_mem_zip hentry).1).enough
  have hnext := hentryPlan.next_lt
  rw [hentryPlan.next_eq,←hentryPlan.size_eq] at hnext
  have hword := entry.sizeBytes.toNat_lt
  rw [hsize]
  refine ⟨?_,?_,?_⟩
  · rintro rfl hstart
    rw [planPlaintextRemObjectFileRange,rejectIf_pos (ne_of_gt hchunk),ok_bind,
      (validateFileRange_eq hword).1 hstart,ok_bind,if_pos rfl]
    rfl
  · intro hlen hinside
    have hnonempty : entry.sizeBytes≠0 := by
      intro hzero
      rw [hzero] at hinside
      exact absurd hlen (by have : (0 : UInt64).toNat=0 := rfl; omega)
    obtain ⟨(lba : ℕ),hlba,hdata⟩ := aligned_of_planOneFile hone hnonempty
    have hpayload := hplaced.payload
    rw [hdata] at hpayload hnext
    rw [hlba,hdata]
    refine ⟨_,planPlaintextRemObjectFileRange_eq hchunk hlen hinside (by omega),
      bytes_of_payload hstored.sizes hchunk hlen (by omega) hpayload,?_,
      fun first count hfirst hlast => run_minimal hchunk hlen hfirst hlast⟩
    have hle := hplaced.payload_le
    rw [length_flatten_of_blocks hstored.sizes,hdata,hsize] at hle
    have hall : lba*options.chunkSize+start+len ≤ (0+object.length)*options.chunkSize := by
      rw [zero_add]
      omega
    have hrun := (run_minimal hchunk hlen (by omega) hall).2
    rwa [zero_add] at hrun
  · intro houtside
    obtain ⟨error,hrefused⟩ := (validateFileRange_eq hword).2 houtside
    exact ⟨error,by rw [planPlaintextRemObjectFileRange,rejectIf_pos (ne_of_gt hchunk),ok_bind,
      hrefused,error_bind]⟩

def sampleReaders : List (RemTarFileSpec×PayloadReader) :=
  [(fileToSpec constantServices sampleFile,⟨[1,2,3],[]⟩)]

theorem planPlaintextRemObjectFileRange_reads_sample :
    ∃ object plan, planPlaintextRemObjectFileRange (some 5) 3 512 1 2=.ok (some plan) ∧
      plan.bytes object=[2,3] := by
  obtain ⟨layout,hplan,hfit,hcount,hentries⟩ := exists_plan_sample
  obtain ⟨entry,hlayouts,hentry⟩ := map_eq_singleton_iff.mp hentries
  have hgiven : ∀ file ∈ sampleReaders, PayloadGiven constantServices file := by
    intro file hfile
    rw [mem_singleton.mp hfile]
    exact ⟨by decide,by simp,rfl⟩
  have haccepts : Accepts vecBlockSink VecBlockSink.blocks 512 layout.projectedSizeBlocks ⟨[],0⟩ :=
    vecBlockSink_accepts (by decide) (lt_trans (Nat.add_lt_add_left hcount _) (by decide))
  have houtcome := writeRemTarObjectFromReaders_outcome hplan hgiven haccepts
  obtain ⟨state',object,hrun,hobject,-⟩ := houtcome.1 hfit
  have hpair : ((fileToSpec constantServices sampleFile,⟨[1,2,3],[]⟩),entry) ∈
      sampleReaders.zip layout.files := by
    rw [hlayouts]
    exact mem_singleton_self _
  obtain ⟨plan,hplanned,hbytes,-⟩ := (planPlaintextRemObjectFileRange_reads hplan hgiven haccepts hrun
    hobject hpair 1 2).2.1 (by decide) (by decide)
  obtain ⟨hlba,hsize⟩ := Prod.mk.inj hentry
  rw [hlba,hsize] at hplanned
  exact ⟨object,plan,hplanned,hbytes⟩

end Remanence.Format
