import Remanence.Parity.ReadRun

/-!
# Read-ahead is transparent

On a source whose records depend on the position only, a run returns what the same calls return
on the source itself. What is fetched and not handed out are the next records of the source.
-/

namespace Remanence.Parity.Batched

open Foundation List ReadRun

variable {σ : Type}

/-- Outcomes depend on the position only. A full block leads to the next position, which can be
located. -/
structure StaticReader (reader : RecordReader σ) (blockSize : ℕ) where
  head : σ → PhysicalPositionHint
  located : PhysicalPositionHint → Except ParityError Unit
  content : PhysicalPositionHint → Except ParityError RecordOutcome×Bytes
  locate : ∀ state hint, ∃ next, reader.locatePhysical state hint=(located hint,next) ∧
    (located hint=.ok () → head next=hint)
  read : ∀ state buf, buf.length=blockSize → ∃ filled next,
    reader.readRecord state buf=((content (head state)).1,filled,next) ∧ filled.length=blockSize ∧
    (∀ bytes position, (content (head state)).1=.ok (.block bytes position) →
      filled.take bytes=(content (head state)).2) ∧
    ∀ position, (content (head state)).1=.ok (.block blockSize position) → head next=position
  full : ∀ hint position, (content hint).1=.ok (.block blockSize position) →
    position=advance hint 1 ∧ hint.lba.toNat+1 < 2^64 ∧ located position=.ok ()

/-- The batch command agrees with single reads: it returns the same records and the same end. -/
def StaticReader.Agrees {reader : RecordReader σ} {blockSize : ℕ}
    (static : StaticReader reader blockSize) : Prop :=
  ∀ state buf count, 0 < count → buf.length=count*blockSize →
    ∀ batch filled next, reader.readRecords state buf blockSize count count=(batch,filled,next) →
    ∀ batch' filled' next', readRecordsDefault reader state buf blockSize count count=
      (batch',filled',next') →
    batch=batch' ∧ filled.length=buf.length ∧
      filled.take (batch.recordsRead*blockSize+terminalBytes blockSize batch.stop)=
        filled'.take (batch.recordsRead*blockSize+terminalBytes blockSize batch.stop) ∧
      (batch.stop=.complete → static.head next=static.head next')

@[simp]
theorem advance_zero (position : PhysicalPositionHint) : advance position 0=position := by
  rw [advance,add_zero,UInt64.ofNat_toNat]

theorem advance_lba {position : PhysicalPositionHint} {a : ℕ} (h : position.lba.toNat+a < 2^64) :
    (advance position a).lba.toNat=position.lba.toNat+a := by
  exact Nat.mod_eq_of_lt h

theorem advance_advance {position : PhysicalPositionHint} {a : ℕ} (b : ℕ)
    (h : position.lba.toNat+a < 2^64) : advance (advance position a) b=advance position (a+b) := by
  rw [advance,advance_lba h,advance,add_assoc]
  rfl

section Batches

variable {reader : RecordReader σ} {blockSize : ℕ} (static : StaticReader reader blockSize)

def FullAt (hint : PhysicalPositionHint) (bytes : Bytes) : Prop :=
  static.content hint=(.ok (.block blockSize (advance hint 1)),bytes) ∧ hint.lba.toNat+1 < 2^64

def stopOf : Except ParityError RecordOutcome → RawReadEnd
  | .ok (.block bytes position) => .wrongLength bytes position
  | .ok (.filemark position) => .filemark position
  | .ok (.endOfData position) => .endOfData position
  | .error error => .error error

structure EndAt (hint : PhysicalPositionHint) (stop : RawReadEnd) : Prop where
  not_full : ∀ position, (static.content hint).1≠.ok (.block blockSize position)
  stop_eq : stop=stopOf (static.content hint).1

def endBytes (hint : PhysicalPositionHint) : RawReadEnd → Bytes
  | .wrongLength _ _ => (static.content hint).2
  | _ => []

section

variable {static : StaticReader reader blockSize} {hint : PhysicalPositionHint}

theorem EndAt.ne_complete {stop : RawReadEnd} (h : EndAt static hint stop) : stop≠.complete := by
  rw [h.stop_eq]
  rcases static.content hint with ⟨result | outcome,bytes⟩
  · nofun
  · cases outcome <;> nofun

theorem advance_fits {count : ℕ} {bytes : ℕ → Bytes}
    (h : ∀ i < count, FullAt static (advance hint i) (bytes i)) : hint.lba.toNat+count < 2^64 := by
  induction count with
  | zero => exact hint.lba.toNat_lt
  | succ count ih =>
    have hprevious := ih fun i hi => h i (Nat.lt_succ_of_lt hi)
    have hlast := (h count (Nat.lt_succ_self count)).2
    rwa [advance_lba hprevious] at hlast

theorem readChunks_stop {state next : σ} {count : ℕ} {batch : RawReadBatch}
    {done rest filled : Bytes} {result : Except ParityError RecordOutcome}
    (hread : reader.readRecord state (rest.take blockSize)=(result,filled,next))
    (hnot : ∀ position, result≠.ok (.block blockSize position)) :
    readChunks reader blockSize (count+1) state batch done rest=
      ({ batch with stop := stopOf result },done++filled++rest.drop blockSize,next) := by
  rw [readChunks,hread]
  rcases result with error | ⟨bytes,position⟩ | position | position
  · rfl
  · exact if_pos fun heq => hnot position (by rw [heq])
  · rfl
  · rfl

end

structure ChunksRead (hint : PhysicalPositionHint) (count offset : ℕ) (before : RawReadBatch)
    (batch : RawReadBatch) (buf : Bytes) (state : σ) (found : ℕ) : Prop where
  le : found ≤ count
  blocks : ∀ i < found, FullAt static (advance hint i) (slice buf (offset+i*blockSize) blockSize)
  recordsRead : batch.recordsRead=before.recordsRead+found
  positionAfter : batch.positionAfter=if found=0 then before.positionAfter else some (advance hint found)
  stop : found=count ∧ batch.stop=before.stop ∧ static.head state=advance hint count ∨
    found < count ∧ EndAt static (advance hint found) batch.stop ∧
      slice buf (offset+found*blockSize) (terminalBytes blockSize batch.stop)=
        endBytes static (advance hint found) batch.stop

theorem slice_of_take_append {buf before part : Bytes}
    (h : buf.take (before.length+part.length)=before++part) :
    slice buf before.length part.length=part := by
  have hslice : slice buf before.length part.length=
      slice (buf.take (before.length+part.length)) before.length part.length := by
    rw [slice,slice,drop_take,Nat.add_sub_cancel_left,take_take,Nat.min_self]
  rw [hslice,h,slice,drop_left,take_length]

section

variable {static : StaticReader reader blockSize} {hint position : PhysicalPositionHint}
  {count found : ℕ} {batch : RawReadBatch} {filled rest : Bytes} {state next : σ}

theorem chunksRead_end {done : Bytes} (hfilled : filled.length=blockSize)
    (hbytes : ∀ bytes position, (static.content (static.head state)).1=.ok (.block bytes position) →
      filled.take bytes=(static.content (static.head state)).2)
    (hnot : ∀ position, (static.content (static.head state)).1≠.ok (.block blockSize position)) :
    ChunksRead static (static.head state) (count+1) done.length batch
      { batch with stop := stopOf (static.content (static.head state)).1 } (done++filled++rest) next 0 where
  le := Nat.zero_le _
  blocks := fun i hi => absurd hi (Nat.not_lt_zero i)
  recordsRead := rfl
  positionAfter := rfl
  stop := by
    rw [advance_zero,zero_mul,add_zero]
    refine .inr ⟨Nat.succ_pos count,⟨hnot,rfl⟩,?_⟩
    rcases hcontent : (static.content (static.head state)).1 with error | ⟨bytes,position⟩ | _ | _
    · rfl
    · change slice (done++filled++rest) done.length (min bytes blockSize)=_
      have hwhole : filled.take (min bytes blockSize)=filled.take bytes := by
        rw [take_eq_take_iff]
        omega
      rw [append_assoc,slice,drop_left,take_append_of_le_length (by omega),hwhole]
      exact hbytes bytes position hcontent
    · rfl
    · rfl

theorem ChunksRead.cons {offset : ℕ} {before : RawReadBatch} {buf : Bytes}
    (hfull : FullAt static hint (slice buf offset blockSize))
    (h : ChunksRead static (advance hint 1) count (offset+blockSize)
      { before with recordsRead := before.recordsRead+1, positionAfter := some (advance hint 1) } batch
      buf state found) : ChunksRead static hint (count+1) offset before batch buf state (found+1) := by
  have hadvance (i : ℕ) : advance (advance hint 1) i=advance hint (i+1) := by
    rw [advance_advance i hfull.2,add_comm]
  have hoffset (i : ℕ) : offset+blockSize+i*blockSize=offset+(i+1)*blockSize := by
    rw [Nat.succ_mul]
    omega
  refine ⟨Nat.succ_le_succ h.le,fun i hi => ?_,?_,?_,?_⟩
  · cases i with
    | zero =>
      rw [advance_zero,zero_mul,add_zero]
      exact hfull
    | succ i =>
      have hblock := h.blocks i (Nat.lt_of_succ_lt_succ hi)
      rwa [hadvance,hoffset] at hblock
  · rw [h.recordsRead]
    change before.recordsRead+1+found=_
    omega
  · rw [h.positionAfter,if_neg (Nat.succ_ne_zero found)]
    split_ifs with hzero
    · rw [hzero]
    · rw [hadvance]
  · rcases h.stop with ⟨hfound,hstop,hhead⟩ | ⟨hfound,hend,hbytes⟩
    · rw [hadvance] at hhead
      exact .inl ⟨by omega,hstop,hhead⟩
    · rw [hadvance] at hend hbytes
      rw [hoffset] at hbytes
      exact .inr ⟨Nat.succ_lt_succ hfound,hend,hbytes⟩

theorem ChunksRead.recordsRead_eq
    (h : ChunksRead static hint count 0 ⟨0,none,.complete⟩ batch filled next found) :
    batch.recordsRead=found := h.recordsRead.trans (zero_add found)

variable (static) in
theorem readChunks_read (count : ℕ) {state : σ} {batch : RawReadBatch} {done rest : Bytes}
    (hrest : rest.length=count*blockSize)
    (hposition : batch.positionAfter=none ∨ batch.positionAfter=some (static.head state)) :
    ∃ batch' buf next found, readChunks reader blockSize count state batch done rest=(batch',buf,next) ∧
      buf.length=done.length+rest.length ∧ buf.take done.length=done ∧
      ChunksRead static (static.head state) count done.length batch batch' buf next found := by
  induction count generalizing state batch done rest with
  | zero =>
    rw [zero_mul,length_eq_zero_iff] at hrest
    subst hrest
    refine ⟨batch,done++[],state,0,rfl,by simp,by simp,?_⟩
    exact ⟨Nat.le_refl 0,fun i hi => absurd hi (Nat.not_lt_zero i),rfl,rfl,
      .inl ⟨rfl,rfl,(advance_zero _).symm⟩⟩
  | succ count ih =>
    rw [Nat.succ_mul] at hrest
    have hchunk : (rest.take blockSize).length=blockSize := by
      rw [length_take]
      omega
    have hdrop : (rest.drop blockSize).length=count*blockSize := by
      rw [length_drop]
      omega
    obtain ⟨filled,next,hread,hfilled,hbytes,hhead⟩ := static.read state _ hchunk
    by_cases hfull : ∃ position, (static.content (static.head state)).1=.ok (.block blockSize position)
    · obtain ⟨position,hcontent⟩ := hfull
      obtain ⟨hnext,hfits,-⟩ := static.full _ _ hcontent
      have hcontinues : continues batch.positionAfter position=true := by
        rcases hposition with hnone | hsome
        · rw [hnone]
          rfl
        · rw [hsome,hnext,continues,decide_eq_true_eq]
          exact ⟨rfl,(advance_lba hfits).symm⟩
      have hheadNext := hhead position hcontent
      obtain ⟨batch',buf,final,found,hrun,hbufLength,hbufTake,hchunks⟩ := @ih next
        { batch with recordsRead := batch.recordsRead+1, positionAfter := some position }
        (done++filled) _ hdrop (.inr (by rw [hheadNext]))
      rw [length_append] at hbufTake hbufLength
      have hdata := hbytes _ _ hcontent
      rw [take_of_length_le (le_of_eq hfilled)] at hdata
      refine ⟨batch',buf,final,found+1,?_,?_,?_,?_⟩
      · rw [readChunks,hread,hcontent]
        simp only [ne_eq,not_true_eq_false,if_false,hcontinues,if_true]
        exact hrun
      · omega
      · have hkept := congrArg (List.take done.length) hbufTake
        rwa [take_take,Nat.min_eq_left (Nat.le_add_right _ _),take_left] at hkept
      · have hpart := slice_of_take_append hbufTake
        rw [hfilled] at hpart
        refine .cons ⟨?_,hfits⟩ ?_
        · rw [hpart,hdata,←hnext,←hcontent]
        · rwa [hheadNext,hnext,length_append,hfilled] at hchunks
    · have hnot := not_exists.mp hfull
      refine ⟨_,_,_,0,readChunks_stop hread hnot,?_,?_,chunksRead_end hfilled hbytes hnot⟩
      · rw [length_append,length_append,hfilled,hdrop]
        omega
      · rw [append_assoc,take_left]

end

theorem slice_eq_of_take_eq {a b : Bytes} {n offset len : ℕ} (h : a.take n=b.take n)
    (hn : offset+len ≤ n) : slice a offset len=slice b offset len := by
  have hslice (bytes : Bytes) : slice bytes offset len=slice (bytes.take n) offset len := by
    rw [slice,slice,drop_take,take_take,Nat.min_eq_left (by omega)]
  rw [hslice a,hslice b,h]

/-- What a run has fetched and not handed out: the next full blocks, and what ended the batch. -/
structure Ahead (run : ReadRun σ) (position : PhysicalPositionHint) (unread : ℕ) : Prop where
  valid : run.valid=run.consumed+unread*blockSize
  bound : run.valid ≤ run.buffer.length
  counted : unread ≤ run.remaining
  blocks : ∀ i < unread,
    FullAt static (advance position i) (slice run.buffer (run.consumed+i*blockSize) blockSize)
  stop : ∀ stop ∈ run.pendingEnd, EndAt static (advance position unread) stop ∧
    run.pendingData=endBytes static (advance position unread) stop
  quiet : run.pendingEnd=none → run.pendingData=[]
  source : run.pendingEnd=none → run.located=true → static.head run.source=advance position unread

variable {static} {position : PhysicalPositionHint} {count found unread : ℕ} {run : ReadRun σ}
  {batch : RawReadBatch} {filled : Bytes}

theorem Ahead.empty (hconsumed : run.consumed=run.valid) (hbound : run.valid ≤ run.buffer.length)
    (hpending : run.pendingEnd=none) (hdata : run.pendingData=[])
    (hhead : static.head run.source=position) : Ahead static run position 0 where
  valid := by rw [Nat.zero_mul,Nat.add_zero,hconsumed]
  bound := hbound
  counted := Nat.zero_le _
  blocks := fun i hi => absurd hi (Nat.not_lt_zero i)
  stop := fun stop hstop => absurd (hpending.symm.trans hstop) (Option.some_ne_none stop).symm
  quiet := fun _ => hdata
  source := fun _ _ => by rw [advance_zero,hhead]

theorem Ahead.unread_eq_zero (h : Ahead static run position unread) (hsize : 0 < blockSize)
    (hconsumed : run.consumed=run.valid) : unread=0 := by
  have hvalid := h.valid
  have hproduct : unread*blockSize=0 := by omega
  exact (Nat.mul_eq_zero.mp hproduct).resolve_right (by omega)

theorem chunk_inside {i length : ℕ} (hi : i < count) (hlength : length ≤ blockSize) :
    0+i*blockSize+length ≤ count*blockSize := by
  have hmul : (i+1)*blockSize ≤ count*blockSize := Nat.mul_le_mul_right _ hi
  rw [Nat.succ_mul] at hmul
  omega

theorem readRecords_read (hagrees : static.Agrees) (hsize : 0 < blockSize) (state : σ) {buf : Bytes}
    (hcount : 0 < count) (hbuf : buf.length=count*blockSize) :
    ∃ batch filled next found, reader.readRecords state buf blockSize count count=(batch,filled,next) ∧
      filled.length=count*blockSize ∧
      ChunksRead static (static.head state) count 0 ⟨0,none,.complete⟩ batch filled next found := by
  obtain ⟨batch',filled',next',found,hchunks,-,-,hread⟩ :=
    @readChunks_read σ reader blockSize static count state ⟨0,none,.complete⟩ [] buf hbuf (.inl rfl)
  have hdefault : readRecordsDefault reader state buf blockSize count count=(batch',filled',next') := by
    have hargs : ¬(blockSize=0 ∨ min count count=0 ∨ buf.length < min count count*blockSize) := by
      rw [Nat.min_self]
      omega
    rw [readRecordsDefault,if_neg hargs,Nat.min_self]
    exact hchunks
  rcases hbatch : reader.readRecords state buf blockSize count count with ⟨batch,filled,next⟩
  obtain ⟨rfl,hlength,htake,hhead⟩ := hagrees state buf count hcount hbuf _ _ _ hbatch _ _ _ hdefault
  rw [hbuf] at hlength
  refine ⟨batch,filled,next,found,rfl,hlength,?_⟩
  rw [hread.recordsRead_eq] at htake
  refine ⟨hread.le,fun i hi => ?_,hread.recordsRead,hread.positionAfter,?_⟩
  · rw [slice_eq_of_take_eq htake (Nat.le_add_right_of_le (chunk_inside hi le_rfl))]
    exact hread.blocks i hi
  · rcases hread.stop with ⟨hfound,hstop,hstate⟩ | ⟨hfound,hend,hbytes⟩
    · exact .inl ⟨hfound,hstop,by rw [hhead hstop]; exact hstate⟩
    · refine .inr ⟨hfound,hend,?_⟩
      rw [slice_eq_of_take_eq htake (by omega)]
      exact hbytes

theorem confirmedRecords_eq {next : σ}
    (h : ChunksRead static position count 0 ⟨0,none,.complete⟩ batch filled next found) :
    confirmedRecords position count batch=.ok found := by
  have hfits := advance_fits h.blocks
  rw [confirmedRecords,h.recordsRead_eq,if_pos h.le,devicePositionAfter,if_pos hfits]
  dsimp only
  rw [h.positionAfter]
  by_cases hzero : found=0
  · subst hzero
    rfl
  · rw [if_neg hzero,if_pos rfl]

theorem ReadRun.accept_ahead {rest : Bytes}
    (h : ChunksRead static position count 0 ⟨0,none,.complete⟩ batch filled run.source found)
    (hcount : 0 < count) (hrun : run.blockSize=blockSize) (hempty : run.consumed=0)
    (hpending : run.pendingEnd=none) (hdata : run.pendingData=[])
    (hbuffer : run.buffer=filled++rest) (hfilled : filled.length=count*blockSize)
    (hremaining : count ≤ run.remaining) :
    ∃ after unread, run.accept count found batch=(.ok (),after) ∧ Ahead static after position unread ∧
      (0 < unread ∨ after.pendingEnd≠none) ∧ after.blockSize=blockSize ∧
      after.remaining=run.remaining := by
  have hahead {after : ReadRun σ} (hvalid : after.valid=found*run.blockSize)
      (hsame : after.consumed=run.consumed ∧ after.buffer=run.buffer ∧ after.remaining=run.remaining)
      (hstop : ∀ stop ∈ after.pendingEnd, EndAt static (advance position found) stop ∧
        after.pendingData=endBytes static (advance position found) stop)
      (hquiet : after.pendingEnd=none → after.pendingData=[])
      (hsource : after.pendingEnd=none → after.located=true →
        static.head after.source=advance position found) : Ahead static after position found := by
    obtain ⟨hconsumed,hbuf,hleft⟩ := hsame
    rw [hrun] at hvalid
    rw [hempty] at hconsumed
    rw [hbuffer] at hbuf
    refine ⟨by rw [hvalid,hconsumed,zero_add],?_,?_,fun i hi => ?_,hstop,hquiet,hsource⟩
    · rw [hvalid,hbuf,length_append,hfilled]
      exact Nat.le_add_right_of_le (Nat.mul_le_mul_right _ h.le)
    · rw [hleft]
      exact le_trans h.le hremaining
    · have hinside := chunk_inside (lt_of_lt_of_le hi h.le) (Nat.le_refl blockSize)
      rw [hconsumed,hbuf,slice_append_left rest (hinside.trans_eq hfilled.symm)]
      exact h.blocks i hi
  rcases h.stop with ⟨hfound,hstop,hhead⟩ | ⟨hfound,hend,hbytes⟩
  · -- all records of the batch are full blocks
    have hcomplete := hstop
    have haccept : run.accept count found batch=(.ok (),{ run with valid := found*run.blockSize }) := by
      have hfull : ¬(found≠count ∨ batch.stop≠.complete) := by
        rw [not_or,not_not,not_not]
        exact ⟨hfound,hcomplete⟩
      rw [accept,if_neg hfull,if_neg (not_not.mpr hcomplete)]
    refine ⟨_,found,haccept,hahead rfl ⟨rfl,rfl,rfl⟩ ?_ (fun _ => hdata) ?_,.inl (by omega),hrun,rfl⟩
    · exact fun stop hmem => absurd (hpending.symm.trans hmem) (Option.some_ne_none stop).symm
    · intro _ _
      rw [hfound]
      exact hhead
  · -- something else follows the full blocks
    have hother := hend.ne_complete
    have haccept : run.accept count found batch=(.ok (),{ run with
        single := true
        located := false
        pendingData := run.pendingData++
          slice run.buffer (found*run.blockSize) (terminalBytes run.blockSize batch.stop)
        pendingEnd := some batch.stop
        valid := found*run.blockSize }) := by
      have hmatch : ¬(found≠batch.recordsRead ∨ found=count) := by
        rw [h.recordsRead_eq]
        omega
      have hclosed : found≠count ∨ batch.stop≠.complete := .inr hother
      rw [accept,if_pos hclosed,if_pos hother,if_neg hmatch]
    have hterminal : terminalBytes blockSize batch.stop ≤ blockSize := by
      unfold terminalBytes
      split
      · exact Nat.min_le_right _ _
      · exact Nat.zero_le _
    refine ⟨_,found,haccept,hahead rfl ⟨rfl,rfl,rfl⟩ ?_ (fun hnone => nomatch hnone)
      (fun hnone => nomatch hnone),.inr (Option.some_ne_none _),hrun,rfl⟩
    intro stop hmem
    cases hmem
    have hinside := (chunk_inside hfound hterminal).trans_eq hfilled.symm
    refine ⟨hend,?_⟩
    rw [←hbytes,hdata,nil_append,hrun,hbuffer,←slice_append_left rest hinside,zero_add]

theorem ReadRun.fetch_ahead (hagrees : static.Agrees) (hsize : 0 < blockSize) (run : ReadRun σ)
    (hrun : run.blockSize=blockSize) (hempty : run.consumed=0) (hpending : run.pendingEnd=none)
    (hdata : run.pendingData=[]) (hhead : static.head run.source=position)
    (hremaining : 1 < run.remaining) :
    ∃ after unread, run.fetch reader position=(.ok (),after) ∧ Ahead static after position unread ∧
      (0 < unread ∨ after.pendingEnd≠none) ∧ after.blockSize=blockSize ∧
      after.remaining=run.remaining := by
  set count := min run.remaining defaultTapeIoBatchBlocks with hcount
  have hpositive : 0 < count := by
    have hbatch : defaultTapeIoBatchBlocks=16 := rfl
    omega
  set buffer := run.buffer++replicate (count*blockSize-run.buffer.length) 0 with hbuffer
  have hroom : (buffer.take (count*blockSize)).length=count*blockSize := by
    rw [length_take,hbuffer,length_append,length_replicate]
    omega
  obtain ⟨batch,filled,next,found,hread,hfilled,hchunks⟩ :=
    readRecords_read hagrees hsize run.source hpositive hroom
  rw [hhead] at hchunks
  have hfetch : run.fetch reader position=accept
      { run with buffer := filled++buffer.drop (count*blockSize), source := next } count found batch := by
    rw [fetch,hrun,←hcount,←hbuffer,hread]
    dsimp only
    rw [confirmedRecords_eq hchunks]
  rw [hfetch]
  exact accept_ahead hchunks hpositive hrun hempty hpending hdata rfl hfilled
    (Nat.min_le_left _ _)

theorem ReadRun.refill_ahead (hagrees : static.Agrees) (hsize : 0 < blockSize)
    (hrun : run.blockSize=blockSize) (h : Ahead static run position unread)
    (hlocate : static.located position=.ok ()) :
    ∃ after unread, run.refill reader position blockSize=(.ok (),after) ∧
      Ahead static after position unread ∧
      (0 < unread ∨ after.pendingEnd≠none ∨ unread=0 ∧ after.located=true) ∧
      after.blockSize=blockSize ∧ after.remaining=run.remaining ∧
      (run.remaining ≤ 1 → run.consumed=run.valid → after.consumed=after.valid) := by
  by_cases hcondition : run.consumed=run.valid ∧ run.pendingEnd=none
  · obtain ⟨hconsumed,hpending⟩ := hcondition
    obtain rfl := h.unread_eq_zero hsize hconsumed
    -- the source stands at the position, now or after a positioning
    have hlocated : ∃ source, ensureLocated reader { run with valid := 0, consumed := 0 } position=
        (.ok (),{ run with valid := 0, consumed := 0, source := source, located := true }) ∧
        static.head source=position := by
      rw [ensureLocated]
      by_cases hthere : run.located=true
      · have hhead := h.source hpending hthere
        rw [advance_zero] at hhead
        refine ⟨run.source,?_,hhead⟩
        rw [if_pos hthere,←hthere]
      · obtain ⟨next,hresult,hnext⟩ := static.locate run.source position
        refine ⟨next,?_,hnext hlocate⟩
        rw [if_neg hthere,hresult,hlocate]
    obtain ⟨source,hensure,hhead⟩ := hlocated
    rw [refill,if_pos ⟨hconsumed,hpending⟩,hensure]
    dsimp only
    by_cases hbatch : run.single=false ∧ 1 < run.remaining ∧ blockSize=run.blockSize
    · obtain ⟨after,unread,hfetch,hahead,hsome,hblock,hremaining⟩ := fetch_ahead hagrees hsize
        { run with valid := 0, consumed := 0, source := source, located := true } hrun rfl hpending
        (h.quiet hpending) hhead hbatch.2.1
      refine ⟨after,unread,?_,hahead,hsome.imp_right .inl,hblock,hremaining,?_⟩
      · rw [if_pos hbatch]
        exact hfetch
      · omega
    · rw [if_neg hbatch]
      exact ⟨_,0,rfl,.empty rfl (Nat.zero_le _) hpending (h.quiet hpending) hhead,
        .inr (.inr ⟨rfl,rfl⟩),hrun,rfl,fun _ _ => rfl⟩
  · refine ⟨run,unread,?_,h,?_,hrun,rfl,fun _ heq => heq⟩
    · rw [refill,if_neg hcondition]
    · by_cases hpending : run.pendingEnd=none
      · have hunequal : run.consumed≠run.valid := fun heq => hcondition ⟨heq,hpending⟩
        refine .inl (Nat.pos_of_ne_zero fun hzero => hunequal ?_)
        rw [h.valid,hzero,zero_mul,add_zero]
      · exact .inr (.inl hpending)

end Batches

inductive Call where
  | locate (hint : PhysicalPositionHint)
  | read (buf : Bytes)
  | afterHeader (remaining : ℕ)
deriving Repr, DecidableEq

def Call.isAfterHeader : Call → Bool
  | .locate _ => false
  | .read _ => false
  | .afterHeader _ => true

inductive Observation where
  | located (result : Except ParityError Unit)
  | read (result : Except ParityError RecordOutcome) (bytes : Bytes)
  | none
deriving DecidableEq

def recordBytes (result : Except ParityError RecordOutcome) (buf : Bytes) : Bytes :=
  match result with
  | .ok (.block bytes _) => buf.take bytes
  | _ => []

def directCall (reader : RecordReader σ) (state : σ) : Call → Observation×σ
  | .locate hint =>
    let (result,state) := reader.locatePhysical state hint
    (.located result,state)
  | .read buf =>
    let (result,filled,state) := reader.readRecord state buf
    (.read result (recordBytes result filled),state)
  | .afterHeader _ => (.none,state)

def runCall (reader : RecordReader σ) (run : ReadRun σ) : Call → Except RunPanic (Observation×ReadRun σ)
  | .locate hint =>
    let (result,run) := run.locatePhysical reader hint
    .ok (.located result,run)
  | .read buf => do
    let (result,filled,run) ← run.readRecord reader buf
    return (.read result (recordBytes result filled),run)
  | .afterHeader remaining => do
    let run ← run.afterHeader remaining
    return (.none,run)

def directRun (reader : RecordReader σ) : σ → List Call → List Observation
  | _,[] => []
  | state,call::rest =>
    (directCall reader state call).1::directRun reader (directCall reader state call).2 rest

def runCalls (reader : RecordReader σ) : ReadRun σ → List Call → Except RunPanic (List Observation)
  | _,[] => .ok []
  | run,call::rest => do
    let (observation,run) ← runCall reader run call
    let observations ← runCalls reader run rest
    return observation::observations

def leavesReady (blockSize : ℕ) (ready : Bool) : Observation → Bool
  | .located (.ok _) => true
  | .located (.error _) => false
  | .read (.ok (.block bytes _)) _ => bytes=blockSize
  | .read _ _ => false
  | .none => ready

/-- Full-block reads behind a positioning or a full block, and a new length at most once. -/
def Disciplined (reader : RecordReader σ) (blockSize : ℕ) :
    (ready header : Bool) → σ → List Call → Prop
  | _,_,_,[] => True
  | ready,header,state,call::rest =>
    (match call with
      | .locate _ => True
      | .read buf => ready=true ∧ buf.length=blockSize
      | .afterHeader _ => header=true) ∧
    Disciplined reader blockSize (leavesReady blockSize ready (directCall reader state call).1)
      (header && !call.isAfterHeader) (directCall reader state call).2 rest

section Simulation

variable {reader : RecordReader σ} {blockSize : ℕ} (static : StaticReader reader blockSize)

structure Simulates (run : ReadRun σ) (state : σ) (ready header : Bool) : Prop where
  size : run.blockSize=blockSize
  position : ready=true → run.next=some (static.head state)
  ahead : ∀ hint ∈ run.next, static.located hint=.ok () ∧ ∃ unread, Ahead static run hint unread
  header : header=true → run.remaining ≤ 1 ∧ run.consumed=run.valid

variable {static} {run after : ReadRun σ} {position : PhysicalPositionHint} {state : σ} {buf : Bytes}
  {header : Bool} {result : Except ParityError RecordOutcome}

theorem ReadRun.deliver_next {unread : ℕ} (hbuf : buf.length=blockSize)
    (h : Ahead static run position (unread+1)) :
    ∃ after bytes, run.deliver position buf=
        .ok (.ok (.block blockSize (advance position 1)),bytes,after) ∧
      static.content position=(.ok (.block blockSize (advance position 1)),bytes) ∧
      after.next=some (advance position 1) ∧ Ahead static after (advance position 1) unread ∧
      after.blockSize=run.blockSize := by
  have hfirst := h.blocks 0 (Nat.succ_pos unread)
  rw [advance_zero,zero_mul,add_zero] at hfirst
  obtain ⟨hcontent,hfits⟩ := hfirst
  have hvalid := h.valid
  have hbound := h.bound
  have hcounted := h.counted
  rw [Nat.succ_mul] at hvalid
  have hbounds : ¬(run.valid < run.consumed+blockSize ∨ run.buffer.length < run.valid) := by omega
  have hpositive : run.remaining≠0 := by omega
  refine ⟨{ run with consumed := run.consumed+blockSize, remaining := run.remaining-1,
                     next := some (advance position 1) },slice run.buffer run.consumed blockSize,?_,
    hcontent,rfl,?_,rfl⟩
  · rw [deliver,hbuf,if_neg hbounds,if_neg hpositive,devicePositionAfter,if_pos hfits]
  · have hadvance (i : ℕ) : advance (advance position 1) i=advance position (i+1) := by
      rw [advance_advance i hfits,add_comm]
    refine ⟨?_,hbound,?_,fun i hi => ?_,?_,h.quiet,?_⟩
    · change run.valid=run.consumed+blockSize+unread*blockSize
      omega
    · change unread ≤ run.remaining-1
      omega
    · have hblock := h.blocks (i+1) (Nat.succ_lt_succ hi)
      rw [Nat.succ_mul] at hblock
      have hoffset : run.consumed+(i*blockSize+blockSize)=run.consumed+blockSize+i*blockSize := by omega
      rw [hadvance,←hoffset]
      exact hblock
    · rw [hadvance]
      exact h.stop
    · rw [hadvance]
      exact h.source

theorem ReadRun.deliverEnd_next {stop : RawReadEnd} (hbuf : buf.length=blockSize)
    (hend : EndAt static position stop) (hdata : run.pendingData=endBytes static position stop)
    (hlength : ∀ bytes after, (static.content position).1=.ok (.block bytes after) →
      (static.content position).2.length=min bytes blockSize) :
    ∃ after bytes, run.deliverEnd stop buf=.ok ((static.content position).1,bytes,after) ∧
      recordBytes (static.content position).1 bytes=
        recordBytes (static.content position).1 (static.content position).2 ∧
      after.next=none ∧ after.blockSize=run.blockSize ∧ after.remaining=run.remaining-1 ∧
      after.consumed=run.consumed ∧ after.valid=run.valid := by
  have hstop := hend.stop_eq
  rcases hcontent : (static.content position).1 with error | ⟨bytes,after⟩ | after | after <;>
    rw [hcontent] at hstop <;> subst hstop
  · exact ⟨_,_,rfl,rfl,rfl,rfl,rfl,rfl,rfl⟩
  · have hbytes := hlength bytes after hcontent
    have hcopied : min (min bytes buf.length) run.pendingData.length=min bytes blockSize := by
      rw [hdata,hbuf]
      change min (min bytes blockSize) (static.content position).2.length=_
      rw [hbytes,Nat.min_self]
    refine ⟨_,_,rfl,?_,rfl,rfl,rfl,rfl,rfl⟩
    rw [hcopied]
    have hrecord : run.pendingData.take (min bytes blockSize)=(static.content position).2 := by
      rw [hdata]
      exact take_of_length_le (le_of_eq hbytes)
    rw [hrecord]
    by_cases hfew : bytes ≤ blockSize
    · exact take_append_of_le_length (by omega)
    · rw [Nat.min_eq_right (by omega),drop_of_length_le (by omega),append_nil]
  · exact ⟨_,_,rfl,rfl,rfl,rfl,rfl,rfl,rfl⟩
  · exact ⟨_,_,rfl,rfl,rfl,rfl,rfl,rfl,rfl⟩

theorem simulates_stopped (hsize : run.blockSize=blockSize) (hnext : run.next=none)
    (hheader : header=true → run.remaining ≤ 1 ∧ run.consumed=run.valid) :
    Simulates static run state false header :=
  ⟨hsize,fun hready => absurd hready Bool.false_ne_true,
    fun hint hhint => absurd (hnext.symm.trans hhint) (Option.some_ne_none hint).symm,hheader⟩

theorem leavesReady_read (result : Except ParityError RecordOutcome) (ready : Bool) (bytes : Bytes) :
    leavesReady blockSize ready (.read result bytes)=leavesReady blockSize true (.read result []) := by
  rcases result with error | outcome
  · rfl
  · cases outcome <;> rfl

theorem recordBytes_eq {filled data : Bytes}
    (h : ∀ bytes position, result=.ok (.block bytes position) → filled.take bytes=data) :
    recordBytes result filled=recordBytes result data := by
  rcases result with error | ⟨bytes,position⟩ | position | position
  · rfl
  · change filled.take bytes=data.take bytes
    rw [←h bytes position rfl,take_take,Nat.min_self]
  · rfl
  · rfl

variable (static) in
structure ReadsHead (state : σ) (header : Bool) (after : ReadRun σ) (bytes : Bytes) : Prop where
  record : recordBytes (static.content (static.head state)).1 bytes=
    recordBytes (static.content (static.head state)).1 (static.content (static.head state)).2
  simulates : ∀ next, (∀ position,
      (static.content (static.head state)).1=.ok (.block blockSize position) →
        static.head next=position) →
    Simulates static after next (leavesReady blockSize true
      (.read (static.content (static.head state)).1 [])) header

theorem ReadsHead.stopped {bytes : Bytes}
    (hnot : ∀ position, (static.content (static.head state)).1≠.ok (.block blockSize position))
    (hrecord : recordBytes (static.content (static.head state)).1 bytes=
      recordBytes (static.content (static.head state)).1 (static.content (static.head state)).2)
    (hsize : after.blockSize=blockSize) (hnext : after.next=none)
    (hheader : header=true → after.remaining ≤ 1 ∧ after.consumed=after.valid) :
    ReadsHead static state header after bytes := by
  refine ⟨hrecord,fun next _ => ?_⟩
  have hready : leavesReady blockSize true (.read (static.content (static.head state)).1 [])=false := by
    rcases hcontent : (static.content (static.head state)).1 with error | ⟨bytes,position⟩ | _ | _
    · rfl
    · exact decide_eq_false fun heq => hnot position (by rw [hcontent,heq])
    · rfl
    · rfl
  rw [hready]
  exact simulates_stopped hsize hnext hheader

theorem ReadsHead.full {bytes : Bytes} {unread : ℕ}
    (hcontent : (static.content (static.head state)).1=.ok (.block blockSize position))
    (hrecord : recordBytes (static.content (static.head state)).1 bytes=
      recordBytes (static.content (static.head state)).1 (static.content (static.head state)).2)
    (hsize : after.blockSize=blockSize) (hnext : after.next=some position)
    (hahead : Ahead static after position unread)
    (hheader : header=true → after.remaining ≤ 1 ∧ after.consumed=after.valid) :
    ReadsHead static state header after bytes := by
  refine ⟨hrecord,fun next hmoved => ?_⟩
  refine ⟨hsize,fun _ => by rw [hnext,hmoved position hcontent],fun hint hhint => ?_,hheader⟩
  cases hnext.symm.trans hhint
  exact ⟨(static.full _ _ hcontent).2.2,unread,hahead⟩

theorem ReadRun.readSingle_next (hbuf : buf.length=blockSize) (hrun : run.blockSize=blockSize)
    (hhead : static.head run.source=static.head state) (hempty : run.consumed=run.valid)
    (hbound : run.valid ≤ run.buffer.length) (hpending : run.pendingEnd=none)
    (hdata : run.pendingData=[]) (hheader : header=true → run.remaining ≤ 1) :
    ∃ after bytes, run.readSingle reader buf=((static.content (static.head state)).1,bytes,after) ∧
      ReadsHead static state header after bytes := by
  obtain ⟨filled,source,hread,hfilled,hbytes,hnext⟩ := static.read run.source buf hbuf
  rw [hhead] at hread hbytes hnext
  have hafter : header=true → run.remaining-1 ≤ 1 ∧ run.consumed=run.valid := fun h =>
    ⟨le_trans (Nat.sub_le _ _) (hheader h),hempty⟩
  by_cases hfull : ∃ position, (static.content (static.head state)).1=.ok (.block blockSize position)
  · obtain ⟨position,hcontent⟩ := hfull
    refine ⟨{ run with source := source, remaining := run.remaining-1, next := some position,
                       located := true },filled,?_,.full hcontent (recordBytes_eq hbytes) hrun rfl
      (.empty hempty hbound hpending hdata (hnext position hcontent)) hafter⟩
    rw [readSingle,hread,hcontent]
    exact if_pos hrun.symm
  · have hnot := not_exists.mp hfull
    refine ⟨{ run with source := source, remaining := run.remaining-1, next := none, located := false },
      filled,?_,.stopped hnot (recordBytes_eq hbytes) hrun rfl hafter⟩
    rw [readSingle,hread]
    rcases hcontent : (static.content (static.head state)).1 with error | ⟨bytes,position⟩ | _ | _
    · rfl
    · exact if_neg fun heq => hnot position (by rw [hcontent,heq.trans hrun])
    · rfl
    · rfl

theorem ReadRun.readRecord_next (hagrees : static.Agrees) (hsize : 0 < blockSize)
    (h : Simulates static run state true header) (hbuf : buf.length=blockSize) :
    ∃ after bytes, run.readRecord reader buf=.ok ((static.content (static.head state)).1,bytes,after) ∧
      ReadsHead static state header after bytes := by
  have hnext := h.position rfl
  obtain ⟨hlocate,unread,hahead⟩ := h.ahead _ hnext
  obtain ⟨run',unread',hrefill,hahead',hcases,hrun',hremaining,hquiet⟩ :=
    refill_ahead hagrees hsize h.size hahead hlocate
  have hempty : header=true → run'.remaining ≤ 1 ∧ run'.consumed=run'.valid := fun hheader =>
    ⟨by rw [hremaining]; exact (h.header hheader).1,
      hquiet (h.header hheader).1 (h.header hheader).2⟩
  rw [readRecord,hnext]
  dsimp only
  rw [hbuf,hrefill]
  dsimp only
  have hvalid := hahead'.valid
  cases unread' with
  | succ unread' =>
    -- a fetched record is left
    have hless : run'.consumed < run'.valid := by
      rw [Nat.succ_mul] at hvalid
      omega
    obtain ⟨after,bytes,hdeliver,hcontent,hafter,haheadNext,hsame⟩ :=
      deliver_next hbuf hahead'
    refine ⟨after,bytes,?_,.full (congrArg Prod.fst hcontent) ?_ (hsame.trans hrun') hafter haheadNext
      fun hheader => ?_⟩
    · rw [if_pos hless,hdeliver,hcontent]
    · rw [hcontent]
    · have hnone := (hempty hheader).2
      omega
  | zero =>
    have hconsumed : run'.consumed=run'.valid := by
      omega
    rw [if_neg (by omega)]
    cases hpending : run'.pendingEnd with
    | some stop =>
      -- the end of the batch is next
      obtain ⟨hend,hdata⟩ := hahead'.stop stop hpending
      rw [advance_zero] at hend hdata
      obtain ⟨filled,_,-,hfilled,hbytes,-⟩ := static.read state buf hbuf
      have hlength : ∀ bytes after, (static.content (static.head state)).1=.ok (.block bytes after) →
          (static.content (static.head state)).2.length=min bytes blockSize := by
        intro bytes after hblock
        rw [←hbytes bytes after hblock,length_take,hfilled]
      obtain ⟨after,bytes,hdeliver,hrecord,hafter,hsame,hleft,hsameConsumed,hsameValid⟩ :=
        deliverEnd_next hbuf hend hdata hlength
      refine ⟨after,bytes,hdeliver,.stopped hend.not_full hrecord (hsame.trans hrun') hafter
        fun hheader => ⟨?_,?_⟩⟩
      · rw [hleft]
        exact le_trans (Nat.sub_le _ _) (hempty hheader).1
      · rw [hsameConsumed,hsameValid]
        exact hconsumed
    | none =>
      -- nothing is fetched: a single read
      have hlocated : run'.located=true := by
        rcases hcases with hpositive | hsome | ⟨-,hlocated⟩
        · exact absurd hpositive (Nat.not_lt_zero 0)
        · exact absurd hpending hsome
        · exact hlocated
      have hhead := hahead'.source hpending hlocated
      rw [advance_zero] at hhead
      obtain ⟨after,bytes,hsingle,hrest⟩ := readSingle_next hbuf hrun' hhead hconsumed
        hahead'.bound hpending (hahead'.quiet hpending) fun hheader => (hempty hheader).1
      refine ⟨after,bytes,?_,hrest⟩
      rw [ensureLocated,if_pos hlocated]
      dsimp only
      rw [hsingle]

theorem ReadRun.locatePhysical_next {ready : Bool} (h : Simulates static run state ready header)
    (hint : PhysicalPositionHint) :
    ∃ after, run.locatePhysical reader hint=(static.located hint,after) ∧
      ∀ next, (static.located hint=.ok () → static.head next=hint) →
        Simulates static after next (leavesReady blockSize ready (.located (static.located hint)))
          header := by
  by_cases hthere : run.next=some hint
  · obtain ⟨hlocate,hahead⟩ := h.ahead hint hthere
    refine ⟨run,?_,fun next hmoved => ?_⟩
    · rw [locatePhysical,if_pos hthere,hlocate]
    · refine ⟨h.size,fun _ => ?_,h.ahead,h.header⟩
      rw [hthere,hmoved hlocate]
  · obtain ⟨source,hresult,hsource⟩ := static.locate run.source hint
    have habandoned : header=true → run.remaining ≤ 1 ∧ 0=0 := fun hheader => ⟨(h.header hheader).1,rfl⟩
    cases hlocate : static.located hint with
    | error error =>
      rw [hlocate] at hresult
      refine ⟨{ run.abandon with source := source },?_,fun next _ => ?_⟩
      · rw [locatePhysical,if_neg hthere,hresult]
      · exact simulates_stopped h.size rfl habandoned
    | ok done =>
      rw [hlocate] at hresult
      refine ⟨{ run.abandon with source := source, next := some hint, located := true },?_,
        fun next hmoved => ?_⟩
      · rw [locatePhysical,if_neg hthere,hresult]
      · refine ⟨h.size,fun _ => ?_,fun hint' hhint => ?_,habandoned⟩
        · rw [hmoved rfl]
        · cases hhint
          exact ⟨hlocate,0,.empty rfl (Nat.zero_le _) rfl rfl (hsource hlocate)⟩

/-- Every disciplined call through a run returns what it returns on the source. -/
theorem runCalls_eq (hagrees : static.Agrees) (hsize : 0 < blockSize) {calls : List Call}
    {ready : Bool} (h : Simulates static run state ready header)
    (hcalls : Disciplined reader blockSize ready header state calls) :
    runCalls reader run calls=.ok (directRun reader state calls) := by
  induction calls generalizing run state ready header with
  | nil => rfl
  | cons call rest ih =>
    obtain ⟨hallowed,hrest⟩ := hcalls
    have hstep : ∃ after, runCall reader run call=.ok ((directCall reader state call).1,after) ∧
        Simulates static after (directCall reader state call).2
          (leavesReady blockSize ready (directCall reader state call).1)
          (header && !call.isAfterHeader) := by
      cases call with
      | locate hint =>
        obtain ⟨next,hresult,hhead⟩ := static.locate state hint
        obtain ⟨after,hlocate,hsimulates⟩ := locatePhysical_next h hint
        refine ⟨after,?_,?_⟩
        · rw [runCall,hlocate,directCall,hresult]
        · rw [directCall,hresult]
          rw [Call.isAfterHeader,Bool.not_false,Bool.and_true]
          exact hsimulates next hhead
      | read buf =>
        obtain ⟨rfl,hbuf⟩ := hallowed
        obtain ⟨filled,next,hresult,-,hbytes,hhead⟩ := static.read state buf hbuf
        obtain ⟨after,bytes,hread,hreads⟩ := readRecord_next hagrees hsize h hbuf
        refine ⟨after,?_,?_⟩
        · rw [runCall,hread,directCall,hresult]
          dsimp only
          rw [recordBytes_eq hbytes,←hreads.record]
          rfl
        · rw [directCall,hresult]
          rw [Call.isAfterHeader,Bool.not_false,Bool.and_true,leavesReady_read]
          exact hreads.simulates next hhead
      | afterHeader remaining =>
        have hconsumed := (h.header hallowed).2
        refine ⟨{ run with remaining := remaining },?_,?_⟩
        · rw [runCall,afterHeader,if_pos hconsumed]
          rfl
        · refine ⟨h.size,h.position,fun hint hhint => ?_,fun hheader => ?_⟩
          · obtain ⟨hlocate,unread,hahead⟩ := h.ahead hint hhint
            obtain rfl := hahead.unread_eq_zero hsize hconsumed
            exact ⟨hlocate,0,hahead.valid,hahead.bound,Nat.zero_le _,hahead.blocks,hahead.stop,
              hahead.quiet,hahead.source⟩
          · rw [Call.isAfterHeader,Bool.not_true,Bool.and_false] at hheader
            cases hheader
    obtain ⟨after,hcall,hsimulates⟩ := hstep
    rw [runCalls,hcall,directRun]
    change (runCalls reader after rest).bind _=_
    rw [ih hsimulates hrest]
    rfl

/-- From a new run, also one that continues where the source stands, every disciplined sequence of
calls returns what it returns on the source, and never panics. -/
theorem readRun_transparent (static : StaticReader reader blockSize) (hagrees : static.Agrees)
    (hsize : 0 < blockSize) (source : σ) (records : ℕ) {start : Option PhysicalPositionHint}
    (hstart : ∀ hint ∈ start, hint=static.head source ∧ static.located hint=.ok ()) {calls : List Call}
    (hcalls : Disciplined reader blockSize start.isSome (records ≤ 1) source calls) :
    runCalls reader ((ReadRun.new source blockSize records).continueAt start) calls=
      .ok (directRun reader source calls) := by
  have hnew : Simulates static ((new source blockSize records).continueAt start) source
      start.isSome (records ≤ 1) := by
    refine ⟨rfl,fun hready => ?_,fun hint hhint => ?_,?_⟩
    · cases start with
      | none => cases hready
      | some hint =>
        rw [←(hstart hint rfl).1]
        rfl
    · obtain ⟨hhead,hlocate⟩ := hstart hint hhint
      exact ⟨hlocate,0,.empty rfl (Nat.zero_le _) rfl rfl hhead.symm⟩
    · intro hheader
      exact ⟨of_decide_eq_true hheader,rfl⟩
  exact runCalls_eq hagrees hsize hnew hcalls

end Simulation

def tapeOutcome (tape : List (Option Bytes)) (hint : PhysicalPositionHint) : RecordOutcome×Bytes :=
  match tape[hint.lba.toNat]? with
  | some (some bytes) => (.block bytes.length (advance hint 1),bytes)
  | some none => (.filemark (advance hint 1),[])
  | none => (.endOfData hint,[])

def RecordOutcome.position : RecordOutcome → PhysicalPositionHint
  | .block _ positionAfter => positionAfter
  | .filemark positionAfter => positionAfter
  | .endOfData positionAfter => positionAfter

def tapeReaderWith (tape : List (Option Bytes))
    (readRecords : PhysicalPositionHint → Bytes → ℕ → ℕ → ℕ → RawReadBatch×Bytes×PhysicalPositionHint) :
    RecordReader PhysicalPositionHint where
  locatePhysical := fun _ hint => (.ok (),hint)
  readRecord := fun state buf =>
    let (outcome,bytes) := tapeOutcome tape state
    (.ok outcome,bytes.take buf.length++buf.drop bytes.length,outcome.position)
  readRecords := readRecords

def tapeReader (tape : List (Option Bytes)) : RecordReader PhysicalPositionHint :=
  tapeReaderWith tape (readRecordsDefault (tapeReaderWith tape fun state buf _ _ _ =>
    (⟨0,none,.complete⟩,buf,state)))

theorem readChunks_congr {first second : RecordReader σ} (h : first.readRecord=second.readRecord)
    (blockSize count : ℕ) (state : σ) (batch : RawReadBatch) (done rest : Bytes) :
    readChunks first blockSize count state batch done rest=
      readChunks second blockSize count state batch done rest := by
  induction count generalizing state batch done rest with
  | zero => rfl
  | succ count ih =>
    rw [readChunks,readChunks,h]
    simp only [ih]

theorem length_of_tapeOutcome {tape : List (Option Bytes)} {hint position : PhysicalPositionHint}
    {bytes : ℕ} (h : (tapeOutcome tape hint).1=.block bytes position) :
    (tapeOutcome tape hint).2.length=bytes := by
  unfold tapeOutcome at h ⊢
  cases hrecord : tape[hint.lba.toNat]? with
  | none =>
    rw [hrecord] at h
    cases h
  | some record =>
    rw [hrecord] at h
    cases record with
    | none => cases h
    | some bytes =>
      cases h
      rfl

def tapeStatic (tape : List (Option Bytes)) (htape : tape.length < 2^64) (blockSize : ℕ) :
    StaticReader (tapeReader tape) blockSize where
  head := id
  located := fun _ => .ok ()
  content := fun hint => (.ok (tapeOutcome tape hint).1,(tapeOutcome tape hint).2.take blockSize)
  locate := fun _ hint => ⟨hint,rfl,fun _ => rfl⟩
  read := by
    intro state buf hbuf
    refine ⟨_,_,rfl,?_,?_,?_⟩
    · rw [length_append,length_take,length_drop,hbuf]
      omega
    · intro bytes position hblock
      have hlength : (tapeOutcome tape state).2.length=bytes :=
        length_of_tapeOutcome (Except.ok.inj hblock)
      change ((tapeOutcome tape state).2.take buf.length++buf.drop (tapeOutcome tape state).2.length).take
        bytes=(tapeOutcome tape state).2.take blockSize
      rw [hbuf,hlength]
      by_cases hfew : bytes ≤ blockSize
      · have hall : (tapeOutcome tape state).2.take blockSize=(tapeOutcome tape state).2 :=
          take_of_length_le (by omega)
        rw [hall,take_append_of_le_length (le_of_eq hlength.symm),
          take_of_length_le (le_of_eq hlength)]
      · rw [drop_of_length_le (by omega),append_nil,take_take,Nat.min_eq_right (by omega)]
    · intro position hblock
      exact congrArg RecordOutcome.position (Except.ok.inj hblock)
  full := by
    intro hint position hblock
    have houtcome := Except.ok.inj hblock
    unfold tapeOutcome at houtcome
    split at houtcome
    next bytes hrecord =>
      cases houtcome
      have hinside := (List.getElem?_eq_some_iff.mp hrecord).1
      exact ⟨rfl,by omega,rfl⟩
    next => cases houtcome
    next => cases houtcome

theorem readRecords_tapeReader (tape : List (Option Bytes)) :
    (tapeReader tape).readRecords=readRecordsDefault (tapeReader tape) := by
  funext state buf blockSize maxRecords recordsRemainingInFile
  change readRecordsDefault _ state buf blockSize maxRecords recordsRemainingInFile=_
  unfold readRecordsDefault
  dsimp only
  split_ifs
  · rfl
  · refine readChunks_congr ?_ _ _ _ _ _ _
    rfl

theorem tapeStatic_agrees (tape : List (Option Bytes)) (htape : tape.length < 2^64)
    (blockSize : ℕ) : (tapeStatic tape htape blockSize).Agrees := by
  intro state buf count _ hbuf batch filled next hbatch batch' filled' next' hdefault
  rw [readRecords_tapeReader,hdefault] at hbatch
  cases hbatch
  refine ⟨rfl,?_,rfl,fun _ => rfl⟩
  unfold readRecordsDefault at hdefault
  rw [Nat.min_self] at hdefault
  dsimp only at hdefault
  split_ifs at hdefault
  · cases hdefault
    rfl
  · obtain ⟨_,_,_,_,hchunks,hlength,-,-⟩ := @readChunks_read _ _ blockSize
      (tapeStatic tape htape blockSize) count state ⟨0,none,.complete⟩ [] buf hbuf (.inl rfl)
    rw [hchunks] at hdefault
    cases hdefault
    rw [hlength,length_nil,zero_add]

def beginning : PhysicalPositionHint := ⟨0,0⟩

/-- The filemark is delivered behind the blocks that were fetched before it. -/
theorem readRun_transparent_sample : runCalls (tapeReader [some [1,2],some [3,4],none])
        ((ReadRun.new beginning 2 3).continueAt (some beginning))
        [.read [0,0],.read [0,0],.read [0,0],.locate beginning,.read [0,0]]=
      .ok (directRun (tapeReader [some [1,2],some [3,4],none]) beginning
        [.read [0,0],.read [0,0],.read [0,0],.locate beginning,.read [0,0]]) := by
  have hstart : ∀ hint ∈ some beginning, hint=beginning ∧ (.ok () : Except ParityError Unit)=.ok () :=
    fun hint hhint => ⟨(Option.some.inj hhint).symm,rfl⟩
  exact readRun_transparent (tapeStatic [some [1,2],some [3,4],none] (by decide) 2)
    (tapeStatic_agrees _ _ _) (by decide) beginning 3 hstart
    ⟨⟨rfl,rfl⟩,⟨rfl,rfl⟩,⟨rfl,rfl⟩,trivial,⟨rfl,rfl⟩,trivial⟩

/-- The batch command refuses a block size of zero, which single reads accept. -/
theorem exists_empty_block_not_transparent :
    ∃ (tape : List (Option Bytes)) (htape : tape.length < 2^64) (calls : List Call),
      (tapeStatic tape htape 0).Agrees ∧
      Disciplined (tapeReader tape) 0 false false beginning calls ∧
      runCalls (tapeReader tape) ((ReadRun.new beginning 0 2).continueAt none) calls≠
        .ok (directRun (tapeReader tape) beginning calls) := by
  refine ⟨[some [],some []],by decide,[.locate beginning,.read []],tapeStatic_agrees _ _ _,
    ⟨trivial,⟨rfl,rfl⟩,trivial⟩,?_⟩
  decide

end Remanence.Parity.Batched
