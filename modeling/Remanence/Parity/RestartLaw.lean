import Remanence.Parity.Closeout

/-!
# A restarted writer continues as the first one

The blocks of an uncovered range read back in any batches accumulate to the state of the writer
that pushed them. An accumulator that is returned always carries the recorded check.
-/

namespace Remanence.Parity.Closeout

open Foundation Sidecar Recovery List EpochAccumulator CommittedRawReader UncoveredRange

variable {σ : Type} {source : RawTapeSource σ} {tape : Tape} {position : σ → ℕ}

def blocksFrom (blockAt : ℕ → Bytes) (ordinal count : ℕ) : List Bytes :=
  (List.range' ordinal count).map blockAt

theorem blocksFrom_add (blockAt : ℕ → Bytes) (ordinal a b : ℕ) : blocksFrom blockAt ordinal (a+b)=
      blocksFrom blockAt ordinal a++blocksFrom blockAt (ordinal+a) b := by
  rw [blocksFrom,←range'_append_1,map_append]
  rfl

variable {accumulator : EpochAccumulator} {blockAt : ℕ → Bytes}

theorem pushBlocks_add {result : EpochAccumulator} {ordinal : UInt64} {a b : ℕ}
    (h : accumulator.pushBlocks ordinal (blocksFrom blockAt ordinal.toNat (a+b))=.ok result) :
    ∃ middle, accumulator.pushBlocks ordinal (blocksFrom blockAt ordinal.toNat a)=.ok middle ∧
      middle.pushBlocks (ordinal+UInt64.ofNat a) (blocksFrom blockAt (ordinal.toNat+a) b)=
        .ok result := by
  rw [blocksFrom_add,pushBlocks_append,bind_eq_ok] at h
  obtain ⟨middle,hfirst,hrest⟩ := h
  have hlength : (blocksFrom blockAt ordinal.toNat a).length=a := by simp [blocksFrom]
  rw [hlength] at hrest
  exact ⟨middle,hfirst,hrest⟩

theorem length_of_pushBlocks {result : EpochAccumulator} {ordinal : UInt64} {lo count : ℕ}
    (h : accumulator.pushBlocks ordinal (blocksFrom blockAt lo count)=.ok result) {i : ℕ}
    (hi : i < count) : (blockAt (lo+i)).length=accumulator.blockSize.toNat := by
  refine (pushBlocks_eq_ok h).2 _ (mem_map.mpr ⟨lo+i,?_,rfl⟩)
  rw [mem_range'_1]
  omega

def Span.Holds (span : Span) (tape : Tape) (blockAt : ℕ → Bytes) : Prop :=
  ∀ ordinal, span.start.toNat ≤ ordinal → ordinal < span.stop.toNat →
    tape (span.lba.toNat+(ordinal-span.start.toNat))=.record (blockAt ordinal)

variable {blockSize : ℕ} {span : Span}

section

variable (hserves : source.Serves tape blockSize position)
include hserves

theorem locate_span (state : RawReaderState σ) (hholds : span.Holds tape blockAt)
    (partition : UInt32) (hopen : span.start.toNat < span.stop.toNat)
    (hlength : (blockAt span.start.toNat).length=blockSize) :
    ∃ drive, CommittedRawReader.locate source state ⟨partition,span.lba⟩=
        .ok ⟨drive,span.lba,state.readAttempts⟩ ∧ position drive=span.lba.toNat := by
  have hfirst := hholds span.start.toNat le_rfl hopen
  rw [Nat.sub_self,add_zero] at hfirst
  obtain ⟨drive,hlocate,hposition⟩ := hserves.locate state.drive ⟨partition,span.lba⟩ _ hfirst hlength
  refine ⟨drive,?_,hposition⟩
  rw [locate,locateCommittedPosition,hlocate]
  rfl

theorem accumulateExtent_eq (hholds : span.Holds tape blockAt) (partition : UInt32) :
    ∀ (n : ℕ) (ordinal : UInt64) (accumulator result : EpochAccumulator) (state : σ),
      span.start.toNat ≤ ordinal.toNat → ordinal.toNat+n=span.stop.toNat →
      position state=span.lba.toNat+(ordinal.toNat-span.start.toNat) →
      accumulator.blockSize.toNat=blockSize →
      accumulator.pushBlocks ordinal (blocksFrom blockAt ordinal.toNat n)=.ok result →
      ∃ next, accumulateExtent source blockSize partition span ordinal accumulator state=
        .ok (result,next) := by
  intro n
  induction n using Nat.strong_induction_on with
  | _ n ih =>
    intro ordinal accumulator result state hstart hstop hposition hsize hpush
    rw [accumulateExtent]
    by_cases hdone : n=0
    · subst hdone
      cases hpush
      exact ⟨state,dif_pos (UInt64.le_iff_toNat_le.mpr (by omega))⟩
    have hopen : ¬span.stop ≤ ordinal := by
      rw [UInt64.le_iff_toNat_le]
      omega
    rw [dif_neg hopen]
    generalize hcount : min (span.stop.toNat-ordinal.toNat) defaultTapeIoBatchBlocks=count
    have hpositive : 0 < count := by
      rw [←hcount,defaultTapeIoBatchBlocks]
      omega
    -- The drive returns some number of the blocks ahead; the rest is the induction.
    obtain ⟨taken,next,htaken,hle,hnext,hread⟩ := hserves.forward state count
      (fun i => blockAt (ordinal.toNat+i)) hpositive (by
        intro i hi
        have hlength := length_of_pushBlocks hpush (show i < n by omega)
        refine ⟨?_,hlength.trans hsize⟩
        rw [hposition,←hholds (ordinal.toNat+i) (by omega) (by omega)]
        congr 1
        omega)
    have hrecords : (List.range taken).map (fun i => blockAt (ordinal.toNat+i))=
        blocksFrom blockAt ordinal.toNat taken := by
      rw [blocksFrom,range'_eq_map_range,map_map]
      rfl
    have hlen : (blocksFrom blockAt ordinal.toNat taken).length=taken := by simp [blocksFrom]
    have hne : blocksFrom blockAt ordinal.toNat taken≠[] :=
      ne_nil_of_length_pos (by omega)
    have hsplit : n=taken+(n-taken) := by omega
    rw [hsplit] at hpush
    obtain ⟨middle,hfirst,hrest⟩ := pushBlocks_add hpush
    have := span.stop.toNat_lt
    have hmiddle : (ordinal+UInt64.ofNat taken).toNat=ordinal.toNat+taken :=
      toNat_add_ofNat (by omega)
    rw [←hmiddle] at hrest
    simp only [hread,hrecords,hlen]
    rw [dif_neg (by omega),dif_neg (by simp [hne]),hfirst,ok_bind]
    refine ih (n-taken) (by omega) _ middle result next (by omega) (by omega) ?_ ?_ hrest
    · omega
    · rw [(pushBlocks_eq_ok hfirst).1]
      exact hsize

theorem pushBlocksRead_eq (n : ℕ) (ordinal : UInt64) (accumulator result : EpochAccumulator)
    (state : RawReaderState σ)
    (hholds : ∀ i < n, tape (position state.drive+i)=.record (blockAt (ordinal.toNat+i)))
    (hfits : ordinal.toNat+n < 2^64) (hsize : accumulator.blockSize.toNat=blockSize)
    (hpush : accumulator.pushBlocks ordinal (blocksFrom blockAt ordinal.toNat n)=.ok result) :
    ∃ next, pushBlocksRead (CommittedRawReader.readBlock source) n ordinal accumulator state=
      .ok (result,next) := by
  induction n generalizing ordinal accumulator state with
  | zero =>
    cases hpush
    exact ⟨state,rfl⟩
  | succ n ih =>
    have hlength := length_of_pushBlocks hpush (Nat.succ_pos n)
    have hblock := hholds 0 (Nat.succ_pos n)
    obtain ⟨drive,hread,hnext⟩ := hserves.record state.drive _ hblock (hlength.trans hsize)
    have hone : readBlock source state accumulator.blockSize.toNat=
        .ok (blockAt ordinal.toNat,⟨drive,state.nextLba+1,state.readAttempts⟩) := by
      rw [readBlock,hsize,hread]
      exact if_pos (hlength.trans hsize)
    have hsucc : (ordinal+1).toNat=ordinal.toNat+1 :=
      toNat_add_ofNat (n := 1) (by omega)
    rw [blocksFrom,range'_succ,map_cons,pushBlocks,bind_eq_ok] at hpush
    obtain ⟨middle,hfirst,hrest⟩ := hpush
    rw [pushBlocksRead,hone,ok_bind]
    simp only [hfirst]
    refine ih (ordinal+1) middle ⟨drive,_,_⟩ ?_ (by omega) ?_ ?_
    · intro i hi
      have hheld := hholds (i+1) (by omega)
      simp only [hnext,hsucc]
      rw [←add_assoc,Nat.add_right_comm] at hheld
      rw [hheld]
      congr 2
      omega
    · rw [(pushBlock_eq_ok hfirst).2.2.2.1]
      exact hsize
    · rw [blocksFrom,hsucc]
      exact hrest

end

def CommittedReader.Reads {τ : Type} (reader : CommittedReader τ) (tape : Tape) (blockSize : ℕ) :
    Prop :=
  ∀ (state : τ) (partition : UInt32) (span : Span) (blockAt : ℕ → Bytes)
    (accumulator result : EpochAccumulator), span.Holds tape blockAt →
    span.start.toNat < span.stop.toNat → accumulator.blockSize.toNat=blockSize →
    accumulator.pushBlocks span.start
      (blocksFrom blockAt span.start.toNat (span.stop.toNat-span.start.toNat))=.ok result →
    ∃ next, reader.readExtent state partition span accumulator=.ok (result,next)

section Readers

variable (parseBootstrapBlock : Bytes → Except ParityError BootstrapIdentity)
  (tapeUuid : FixedBytes 16) (scheme : ParityScheme) {blockSize : UInt32}

theorem committedRawReader_reads (hserves : source.Serves tape blockSize.toNat position) :
    (committedRawReader source parseBootstrapBlock tapeUuid scheme blockSize).Reads tape
      blockSize.toNat := by
  intro state partition span blockAt accumulator result hholds hopen hsize hpush
  have hlength := length_of_pushBlocks hpush (Nat.sub_pos_of_lt hopen)
  rw [add_zero,hsize] at hlength
  obtain ⟨drive,hlocate,hposition⟩ := locate_span hserves state hholds partition hopen hlength
  obtain ⟨next,hextent⟩ := accumulateExtent_eq hserves hholds partition _ span.start accumulator
    result drive le_rfl (by omega) (by rw [hposition,Nat.sub_self,add_zero]) hsize hpush
  refine ⟨⟨next,span.lba,state.readAttempts⟩,?_⟩
  change readExtent source blockSize state partition span accumulator=_
  rw [readExtent,hlocate,ok_bind]
  simp only [hextent]
  rfl

theorem committedBlockReader_reads (hserves : source.Serves tape blockSize.toNat position) :
    (committedBlockReader source parseBootstrapBlock tapeUuid scheme blockSize).Reads tape
      blockSize.toNat := by
  intro state partition span blockAt accumulator result hholds hopen hsize hpush
  have hlength := length_of_pushBlocks hpush (Nat.sub_pos_of_lt hopen)
  rw [add_zero,hsize] at hlength
  obtain ⟨drive,hlocate,hposition⟩ := locate_span hserves state hholds partition hopen hlength
  have hstop := span.stop.toNat_lt
  obtain ⟨next,hread⟩ := pushBlocksRead_eq hserves _ span.start accumulator result
    ⟨drive,span.lba,state.readAttempts⟩ (by
      intro i hi
      have hheld := hholds (span.start.toNat+i) (by omega) (by omega)
      rw [Nat.add_sub_cancel_left] at hheld
      exact hposition ▸ hheld) (by omega) hsize hpush
  refine ⟨next,?_⟩
  change defaultReadExtent _ _ state partition span accumulator=_
  rw [defaultReadExtent,hlocate,ok_bind]
  exact hread

end Readers

variable {τ : Type} {reader : CommittedReader τ}

theorem readSpans_eq (hreads : reader.Reads tape blockSize) (partition : UInt32) (spans : List Span)
    (hholds : ∀ span ∈ spans, span.Holds tape blockAt) (ordinal : UInt64) (hi : ℕ)
    (accumulator result : EpochAccumulator) (state : τ)
    (htiles : Tiles (fun span : Span => span.start.toNat) (fun span => span.stop.toNat)
      ordinal.toNat hi spans)
    (hsize : accumulator.blockSize.toNat=blockSize)
    (hpush : accumulator.pushBlocks ordinal
      (blocksFrom blockAt ordinal.toNat (hi-ordinal.toNat))=.ok result) :
    ∃ next, readSpans reader partition spans accumulator state=.ok (result,next) := by
  induction spans generalizing ordinal accumulator state with
  | nil =>
    cases htiles
    rw [Nat.sub_self] at hpush
    cases hpush
    exact ⟨state,rfl⟩
  | cons span rest ih =>
    obtain ⟨hstart,hopen,htail⟩ := htiles
    obtain rfl : span.start=ordinal := UInt64.toNat_inj.mp hstart
    have hle : span.stop.toNat ≤ hi := htail.le
    have hopen : span.start.toNat < span.stop.toNat := hopen
    have hsplit : hi-span.start.toNat=
        (span.stop.toNat-span.start.toNat)+(hi-span.stop.toNat) := by omega
    rw [hsplit] at hpush
    obtain ⟨middle,hfirst,hrest⟩ := pushBlocks_add hpush
    rw [add_ofNat_sub hopen.le,Nat.add_sub_of_le hopen.le] at hrest
    obtain ⟨middleState,hread⟩ := hreads state partition span blockAt accumulator middle
      (hholds span mem_cons_self) hopen hsize hfirst
    rw [readSpans,foldlM_cons,hread,ok_bind]
    exact ih (fun s hs => hholds s (mem_cons_of_mem _ hs)) span.stop middle middleState htail
      ((congrArg UInt32.toNat (pushBlocks_eq_ok hfirst).1).trans hsize) hrest

variable {range : UncoveredRange}

theorem tiles_spans (hcovered : range.Covered) :
    Tiles (fun span : Span => span.start.toNat) (fun span => span.stop.toNat) range.w.toNat
      range.t.toNat (range.touching.map range.span) := by
  have hfits : ∀ extent ∈ range.touching,
      extent.firstOrdinal.toNat+extent.blockCount.toNat < 2^64 := fun extent hextent =>
    hcovered.ordinals extent (mem_of_mem_filter hextent)
  have htiles := hcovered.tiles
  generalize range.w.toNat=lo at htiles ⊢
  generalize range.touching=extents at htiles hfits ⊢
  induction extents generalizing lo with
  | nil => exact htiles
  | cons extent rest ih =>
    obtain ⟨hfirst,hopen,htail⟩ := htiles
    rw [map_cons,tiles_cons,span_start,
      span_stop (hfits extent mem_cons_self)]
    exact ⟨hfirst,hopen,ih _ htail fun e he => hfits e (mem_cons_of_mem _ he)⟩

theorem holds_span (hcovered : range.Covered) (hholds : range.Holds tape blockAt)
    (hspan : span ∈ range.touching.map range.span) : span.Holds tape blockAt := by
  obtain ⟨extent,hextent,rfl⟩ := mem_map.mp hspan
  have hmem := mem_of_mem_filter hextent
  have htouch : range.start extent < range.stop extent := by
    simpa using (mem_filter.mp hextent).2
  intro ordinal hlo hhi
  rw [span_start] at hlo ⊢
  rw [span_stop (hcovered.ordinals extent hmem)] at hhi
  rw [span_lba htouch (hcovered.addresses extent hmem),
    ←hholds extent hextent ordinal hlo hhi]
  congr 1
  have : extent.firstOrdinal.toNat ≤ range.start extent := le_max_left _ _
  omega

def writeRange (tapeUuid : FixedBytes 16) (scheme : ParityScheme) (blockSize : UInt32)
    (epochId w : UInt64) (blocks : List Bytes) : Except ParityError EpochAccumulator := do
  let accumulator ← EpochAccumulator.new tapeUuid scheme blockSize epochId w
  accumulator.pushBlocks w blocks

variable {tapeUuid : FixedBytes 16} {scheme : ParityScheme}

theorem new_blockSize {blockSize : UInt32} {epochId epochStart : UInt64}
    (h : EpochAccumulator.new tapeUuid scheme blockSize epochId epochStart=.ok accumulator) :
    accumulator.blockSize=blockSize := by
  simp only [new,eq_ok] at h
  obtain ⟨_,-,_,-,_,-,_,-,rfl⟩ := h
  rfl

/-- A read pass over a covered range rebuilds the writer's accumulator. -/
theorem rebuildUncoveredOnce_eq {blockSize : UInt32}
    {written : EpochAccumulator} (hreads : reader.Reads tape blockSize.toNat)
    (hcovered : range.Covered) (hholds : range.Holds tape blockAt)
    (hshort : range.t.toNat-range.w.toNat ≤ scheme.stripes*scheme.k)
    (hwritten : writeRange tapeUuid scheme blockSize range.epochId range.w
      (blocksFrom blockAt range.w.toNat (range.t.toNat-range.w.toNat))=.ok written)
    (partition : UInt32) (state : τ) :
    ∃ next, rebuildUncoveredOnce tapeUuid reader scheme blockSize partition range state=
      .ok (written,next) := by
  rw [writeRange,bind_eq_ok] at hwritten
  obtain ⟨accumulator,hnew,hpush⟩ := hwritten
  obtain ⟨next,hread⟩ := readSpans_eq hreads partition (range.touching.map range.span)
    (fun span hspan => holds_span hcovered hholds hspan) range.w range.t.toNat accumulator written
    state (tiles_spans hcovered) (congrArg UInt32.toNat (new_blockSize hnew)) hpush
  refine ⟨next,?_⟩
  rw [rebuildUncoveredOnce,rangeSpans_of_covered hcovered hshort,ok_bind,hnew]
  exact hread

variable {blockSize partition : UInt32}

theorem rebuildUncovered_check {state next : τ}
    (h : rebuildUncovered tapeUuid reader scheme blockSize partition range state=
      .ok (accumulator,next)) : accumulator.checkValue=range.check := by
  simp only [rebuildUncovered,bind_eq_ok] at h
  obtain ⟨⟨first,firstState⟩,-,h⟩ := h
  split at h
  · rename_i hsame
    cases h
    exact hsame
  simp only [bind_eq_ok] at h
  obtain ⟨_,-,⟨second,secondState⟩,-,h⟩ := h
  split at h
  · rename_i hsame
    cases h
    exact hsame
  · cases h

theorem rebuildUncovered_mismatch {state firstState proved secondState : τ}
    {first second : EpochAccumulator}
    (hfirst : rebuildUncoveredOnce tapeUuid reader scheme blockSize partition range state=
      .ok (first,firstState)) (hfirstCheck : first.checkValue≠range.check)
    (hproved : reader.reproveIdentity firstState=.ok proved)
    (hsecond : rebuildUncoveredOnce tapeUuid reader scheme blockSize partition range proved=
      .ok (second,secondState)) (hsecondCheck : second.checkValue≠range.check) :
    rebuildUncovered tapeUuid reader scheme blockSize partition range state=
      .error (.checkMismatch range.check second.checkValue) := by
  rw [rebuildUncovered,hfirst,ok_bind]
  simp only [if_neg hfirstCheck,hproved,ok_bind,hsecond,if_neg hsecondCheck]
  rfl

/-- A restarted writer equals an uninterrupted one: both extent reads rebuild the original
accumulator for any batching of the drive, and further blocks give the same sidecar file. An
accumulator always carries the recorded check, and two passes that disagree with it are an error. -/
theorem rebuildUncovered_restart {blockSize : UInt32} {tapeUuid : FixedBytes 16}
    {scheme : ParityScheme} {range : UncoveredRange} {blockAt : ℕ → Bytes}
    {written : EpochAccumulator} (hserves : source.Serves tape blockSize.toNat position)
    (hcovered : range.Covered) (hholds : range.Holds tape blockAt)
    (hshort : range.t.toNat-range.w.toNat < scheme.stripes*scheme.k)
    (hwritten : writeRange tapeUuid scheme blockSize range.epochId range.w
      (blocksFrom blockAt range.w.toNat (range.t.toNat-range.w.toNat))=.ok written)
    (hcheck : range.check=written.checkValue)
    (parseBootstrapBlock : Bytes → Except ParityError BootstrapIdentity) (partition : UInt32)
    (state : RawReaderState σ) :
    (∀ reader ∈ [committedRawReader source parseBootstrapBlock tapeUuid scheme blockSize,
        committedBlockReader source parseBootstrapBlock tapeUuid scheme blockSize],
      (∃ next, rebuildUncovered tapeUuid reader scheme blockSize partition range state=
        .ok (written,next)) ∧
      ∀ hash more, (do
          let (rebuilt,_) ← rebuildUncovered tapeUuid reader scheme blockSize partition range state
          liftParity (rebuilt.pushBlocks range.t more >>= EpochAccumulator.intoSidecar hash))=
        liftParity (writeRange tapeUuid scheme blockSize range.epochId range.w
          (blocksFrom blockAt range.w.toNat (range.t.toNat-range.w.toNat)++more) >>=
            EpochAccumulator.intoSidecar hash)) ∧
    ∀ (τ : Type) (reader : CommittedReader τ) (expected : UncoveredRange) (start : τ),
      (∀ rebuilt next, rebuildUncovered tapeUuid reader scheme blockSize partition expected start=
          .ok (rebuilt,next) → rebuilt.checkValue=expected.check) ∧
      ∀ first firstState proved second secondState,
        rebuildUncoveredOnce tapeUuid reader scheme blockSize partition expected start=
          .ok (first,firstState) → first.checkValue≠expected.check →
        reader.reproveIdentity firstState=.ok proved →
        rebuildUncoveredOnce tapeUuid reader scheme blockSize partition expected proved=
          .ok (second,secondState) → second.checkValue≠expected.check →
        rebuildUncovered tapeUuid reader scheme blockSize partition expected start=
          .error (.checkMismatch expected.check second.checkValue) := by
  refine ⟨fun reader hreader => ?_,fun τ reader expected start =>
    ⟨fun rebuilt next h => rebuildUncovered_check h,
      fun first firstState proved second secondState hfirst hfirstCheck hproved hsecond
        hsecondCheck => rebuildUncovered_mismatch hfirst hfirstCheck hproved hsecond hsecondCheck⟩⟩
  have hreads : reader.Reads tape blockSize.toNat := by
    obtain rfl | hreader := mem_cons.mp hreader
    · exact committedRawReader_reads parseBootstrapBlock tapeUuid scheme hserves
    · obtain rfl := mem_singleton.mp hreader
      exact committedBlockReader_reads parseBootstrapBlock tapeUuid scheme hserves
  obtain ⟨next,honce⟩ := rebuildUncoveredOnce_eq hreads hcovered hholds hshort.le hwritten partition
    state
  have hrebuilt : rebuildUncovered tapeUuid reader scheme blockSize partition range state=
      .ok (written,next) := by
    rw [rebuildUncovered,honce,ok_bind]
    exact if_pos hcheck.symm
  refine ⟨⟨next,hrebuilt⟩,fun hash more => ?_⟩
  have hstop := add_ofNat_sub hcovered.tiles.le
  have hmore : writeRange tapeUuid scheme blockSize range.epochId range.w
      (blocksFrom blockAt range.w.toNat (range.t.toNat-range.w.toNat)++more)=
        written.pushBlocks range.t more := by
    rw [writeRange,bind_eq_ok] at hwritten
    obtain ⟨accumulator,hnew,hpush⟩ := hwritten
    rw [writeRange,hnew,ok_bind,pushBlocks_append,hpush,ok_bind]
    simp only [blocksFrom,length_map,length_range',hstop]
  rw [hrebuilt,hmore]
  rfl

def sampleBlock (lba : ℕ) : Bytes := replicate 4 (UInt8.ofNat lba)

def sampleSource : RawTapeSource ℕ where
  locatePhysical := fun _ hint => .ok hint.lba.toNat
  readRecord := fun head _ => .ok (.block (sampleBlock head),head+1)
  readForwardRecords := fun head _ count =>
    (⟨(List.range (min 2 count)).map fun i => sampleBlock (head+i),.complete,false⟩,
      head+min 2 count)
  isEndOfData := fun _ => false
  isLengthRefusal := fun _ => false
  overLength := fun _ => none

theorem sampleSource_serves : sampleSource.Serves (fun lba => .record (sampleBlock lba)) 4 id where
  locate := fun _ hint _ _ _ => ⟨hint.lba.toNat,rfl,rfl⟩
  record := fun head _ hbytes _ => by
    cases hbytes
    exact ⟨head+1,rfl,rfl⟩
  forward := fun head count blockAt hcount hheld => by
    refine ⟨min 2 count,head+min 2 count,by omega,Nat.min_le_right _ _,rfl,?_⟩
    change (_,_)=(_,_)
    congr 2
    refine map_congr_left fun i hi => ?_
    rw [mem_range] at hi
    exact TapeRecord.record.inj (hheld i (by omega)).1

def sampleRange (check : UInt64) : UncoveredRange :=
  ⟨3,10,13,[⟨1,8,4,20⟩,⟨3,12,1,40⟩],check⟩

def sampleScheme : ParityScheme := ⟨"small",2,1,2⟩

def sampleBlockAt (ordinal : ℕ) : Bytes :=
  if ordinal < 12 then sampleBlock (ordinal+12) else sampleBlock (ordinal+28)

theorem sampleRange_touching (check : UInt64) :
    (sampleRange check).touching=[⟨1,8,4,20⟩,⟨3,12,1,40⟩] := rfl

theorem sampleRange_covered (check : UInt64) : (sampleRange check).Covered where
  ordinals := forall_mem_cons.mpr ⟨by decide,forall_mem_singleton.mpr (by decide)⟩
  addresses := forall_mem_cons.mpr ⟨by decide,forall_mem_singleton.mpr (by decide)⟩
  files := by
    rw [sampleRange_touching]
    decide
  tiles := by
    exact ⟨rfl,by change 10 < 12; decide,rfl,by change 12 < 13; decide,rfl⟩

theorem sampleRange_holds (check : UInt64) :
    (sampleRange check).Holds (fun lba => .record (sampleBlock lba)) sampleBlockAt := by
  intro extent hextent ordinal hlo hhi
  obtain rfl | hextent := mem_cons.mp hextent
  · have hlo : 10 ≤ ordinal := hlo
    have hhi : ordinal < 12 := hhi
    change TapeRecord.record (sampleBlock (20+(ordinal-8)))=_
    rw [sampleBlockAt,if_pos hhi]
    congr 2
    omega
  · obtain rfl := mem_singleton.mp hextent
    have hlo : 12 ≤ ordinal := hlo
    change TapeRecord.record (sampleBlock (40+(ordinal-12)))=_
    rw [sampleBlockAt,if_neg (by omega)]
    congr 2
    omega

/-- A range over two objects is rebuilt in batches of two blocks. -/
theorem sampleRange_rebuilt :
    ∃ written, writeRange (FixedBytes.zero 16) sampleScheme 4 3 10 (blocksFrom sampleBlockAt 10 3)=
        .ok written ∧
      ∃ next, rebuildUncovered (FixedBytes.zero 16)
        (committedRawReader sampleSource (fun _ => .error (.invariant "unread")) (FixedBytes.zero 16)
          sampleScheme 4) sampleScheme 4 0 (sampleRange written.checkValue) ⟨0,0,0⟩=
        .ok (written,next) := by
  obtain ⟨written,hwritten⟩ : ∃ written, writeRange (FixedBytes.zero 16) sampleScheme 4 3 10
      (blocksFrom sampleBlockAt 10 3)=.ok written := exists_of_isOk (by decide +kernel)
  refine ⟨written,hwritten,?_⟩
  exact ((rebuildUncovered_restart sampleSource_serves (sampleRange_covered _)
    (sampleRange_holds written.checkValue) (by change 3 < 4; decide) hwritten rfl _ 0 ⟨0,0,0⟩).1 _
      mem_cons_self).1

end Remanence.Parity.Closeout
