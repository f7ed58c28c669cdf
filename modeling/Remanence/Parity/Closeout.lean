import Remanence.Foundation.Tiling
import Remanence.Parity.EpochAccumulator
import Remanence.Parity.RawSource

/-!
# Rebuilding an uncovered range from tape

A restarted writer owes a sidecar to the committed ordinals `[W,T)`. It reads the blocks back in
whatever batches its drive returns and accumulates them. The check recorded at commit time
decides whether the result is used; a mismatch is read once more.
-/

namespace Remanence.Parity.Closeout

open Foundation Sidecar Recovery List

structure CommittedExtent where
  tapeFileNumber : UInt64
  firstOrdinal : UInt64
  blockCount : UInt64
  physicalStartLba : UInt64
deriving Repr, DecidableEq

/-- The committed range whose sidecar is still owed. -/
structure UncoveredRange where
  epochId : UInt64
  w : UInt64
  t : UInt64
  extents : List CommittedExtent
  check : UInt64
deriving Repr, DecidableEq

inductive CloseoutError where
  /-- Both full reads disagree with the original check. -/
  | checkMismatch (expected found : UInt64)
  /-- A committed extent contradicts a boundary or length on tape. -/
  | boundary (lba : UInt64)
  | parity (error : ParityError)
deriving Repr, DecidableEq

def liftParity {α : Type} (x : Except ParityError α) : Except CloseoutError α :=
  x.mapError .parity

def CloseoutError.intoParity : CloseoutError → ParityError
  | .checkMismatch expected found => .closeoutCheckMismatch expected found
  | .boundary lba => .resumeAppend s!"committed boundary contradiction at LBA {lba.toNat}"
  | .parity error => error

def rangeError (message : String) : CloseoutError := .parity (.invariant message)

/-- One contiguous part of the range on tape. -/
structure Span where
  start : UInt64
  stop : UInt64
  lba : UInt64
deriving Repr, DecidableEq

structure SpanState where
  previousFile : Option UInt64
  next : UInt64
  spans : List Span
deriving Repr, DecidableEq

/-- Last file number of an extent list that an extent may not follow. -/
def outOfOrder (previousFile : Option UInt64) (file : UInt64) : Prop :=
  ∃ previous ∈ previousFile, file ≤ previous

instance (previousFile : Option UInt64) (file : UInt64) :
    Decidable (outOfOrder previousFile file) :=
  decidable_of_iff (previousFile.any (fun previous => decide (file ≤ previous))=true) (by
    cases previousFile <;> simp [outOfOrder])

def addExtent (range : UncoveredRange) (state : SpanState) (extent : CommittedExtent) :
    Except CloseoutError SpanState := do
  let extentEnd ← orElseError (checkedAdd64 extent.firstOrdinal extent.blockCount)
    (rangeError "committed extent overflows")
  let stop := min64 extentEnd range.t
  let start := max64 extent.firstOrdinal range.w
  if stop ≤ start then return state
  rejectIf (outOfOrder state.previousFile extent.tapeFileNumber)
    (rangeError "committed files out of order")
  rejectIf (start≠state.next) (rangeError "committed extent gap or overlap")
  let lba ← orElseError (checkedAdd64 extent.physicalStartLba (start-extent.firstOrdinal))
    (rangeError "committed LBA overflows")
  let _ ← orElseError (checkedAdd64 lba (stop-start)) (rangeError "committed end LBA overflows")
  return ⟨some extent.tapeFileNumber,stop,state.spans++[⟨start,stop,lba⟩]⟩

/-- Spans of the extents, which must cover the range exactly. -/
def rangeSpans (scheme : ParityScheme) (range : UncoveredRange) :
    Except CloseoutError (List Span) := do
  let count ← orElseError (checkedSub64 range.t range.w) (rangeError "uncovered range reversed")
  rejectIf (scheme.stripes*scheme.k < count.toNat) (rangeError "uncovered range exceeds epoch")
  let state ← range.extents.foldlM (addExtent range) ⟨none,range.w,[]⟩
  rejectIf (state.next≠range.t) (rangeError "committed extent gap")
  return state.spans

structure CommittedReader (σ : Type) where
  reproveIdentity : σ → Except CloseoutError σ
  readExtent : σ → UInt32 → Span → EpochAccumulator → Except CloseoutError (EpochAccumulator×σ)

variable {σ : Type}

def readSpans (reader : CommittedReader σ) (partition : UInt32) (spans : List Span)
    (accumulator : EpochAccumulator) (state : σ) : Except CloseoutError (EpochAccumulator×σ) :=
  spans.foldlM (fun progress span =>
    reader.readExtent progress.2 partition span progress.1) (accumulator,state)

/-- One read pass; the caller compares the original check. -/
def rebuildUncoveredOnce (tapeUuid : FixedBytes 16) (reader : CommittedReader σ)
    (scheme : ParityScheme) (blockSize partition : UInt32) (range : UncoveredRange) (state : σ) :
    Except CloseoutError (EpochAccumulator×σ) := do
  let spans ← rangeSpans scheme range
  let accumulator ← liftParity
    (EpochAccumulator.new tapeUuid scheme blockSize range.epochId range.w)
  readSpans reader partition spans accumulator state

/-- Read an exactly covered range, retrying a check mismatch once. -/
def rebuildUncovered (tapeUuid : FixedBytes 16) (reader : CommittedReader σ)
    (scheme : ParityScheme) (blockSize partition : UInt32) (range : UncoveredRange) (state : σ) :
    Except CloseoutError (EpochAccumulator×σ) := do
  let (first,state) ← rebuildUncoveredOnce tapeUuid reader scheme blockSize partition range state
  if first.checkValue=range.check then return (first,state)
  let state ← reader.reproveIdentity state
  let (second,state) ← rebuildUncoveredOnce tapeUuid reader scheme blockSize partition range state
  if second.checkValue=range.check then return (second,state)
  throw (.checkMismatch range.check second.checkValue)

def pushBlocksRead (readBlock : σ → ℕ → Except CloseoutError (Bytes×σ)) :
    ℕ → UInt64 → EpochAccumulator → σ → Except CloseoutError (EpochAccumulator×σ)
  | 0,_,accumulator,state => return (accumulator,state)
  | n+1,ordinal,accumulator,state => do
    let (block,state) ← readBlock state accumulator.blockSize.toNat
    let accumulator ← liftParity (accumulator.pushBlock ordinal block)
    pushBlocksRead readBlock n (ordinal+1) accumulator state

def defaultReadExtent (locate : σ → PhysicalPositionHint → Except CloseoutError σ)
    (readBlock : σ → ℕ → Except CloseoutError (Bytes×σ)) (state : σ) (partition : UInt32)
    (span : Span) (accumulator : EpochAccumulator) :
    Except CloseoutError (EpochAccumulator×σ) := do
  let state ← locate state ⟨partition,span.lba⟩
  pushBlocksRead readBlock (span.stop.toNat-span.start.toNat) span.start accumulator state

def defaultTapeIoBatchBlocks : ℕ := 16

def locateCommittedPosition (source : RawTapeSource σ) (state : σ)
    (position : PhysicalPositionHint) (what : String) : Except ParityError σ :=
  match source.locatePhysical state position with
  | .error (.tapeIo fault) =>
    if source.isEndOfData fault then .error (.resumeAppend
      (s!"the {what} at physical LBA {position.lba.toNat} lies past end-of-data: "++
        "the tape contradicts the commit record"))
    else .error (.tapeIo fault)
  | outcome => outcome

def rereadError (ordinal lba : ℕ) (found : String) : ParityError :=
  .resumeAppend (s!"resume rebuild ordinal {ordinal} at physical LBA {lba} "++found)

def rereadLengthError (ordinal lba measured blockSize : ℕ) : ParityError :=
  rereadError ordinal lba (s!"is a {measured}-byte record, not one {blockSize}-byte block: "++
    "the tape contradicts the commit record")

def rereadCommittedDataBlock (source : RawTapeSource σ) (state : σ) (ordinal lba blockSize : ℕ) :
    Except ParityError σ :=
  match source.readRecord state blockSize with
  | .ok (.block bytes,next) =>
    if bytes.length=blockSize then .ok next
    else .error (rereadLengthError ordinal lba bytes.length blockSize)
  | .ok (.filemark,_) => .error
    (rereadError ordinal lba "encountered a filemark instead of committed object data")
  | .ok (.endOfData,_) => .error
    (rereadError ordinal lba "encountered end-of-data instead of committed object data")
  | .error (.tapeIo fault) =>
    match source.overLength fault with
    | some measured =>
      if measured=blockSize then .error (.tapeIo fault)
      else .error (rereadLengthError ordinal lba measured blockSize)
    | none => .error (.tapeIo fault)
  | .error error => .error error

/-- A length refusal is read again record by record for its exact cause. -/
def failedBatch (source : RawTapeSource σ) (state : σ) (partition : UInt32) (ordinal lba : UInt64)
    (blockSize count : ℕ) (error : ParityError) : ParityError :=
  match error with
  | .tapeIo fault =>
    if source.isLengthRefusal fault then
      match locateCommittedPosition source state ⟨partition,lba⟩ "malformed extent" >>= fun state =>
        (List.range count).foldlM (fun state offset => rereadCommittedDataBlock source state
          (ordinal.toNat+offset) (lba.toNat+offset) blockSize) state with
      | .ok _ => error
      | .error cause => cause
    else error
  | _ => error

def boundaryBatch (ordinal count blockSize : ℕ) (stop : RawReadEnd) : ParityError :=
  .resumeAppend (s!"resume rebuild ordinal {ordinal} encounters {stop.debug} instead of "++
    s!"{count} committed {blockSize}-byte blocks")

def accumulateExtent (source : RawTapeSource σ) (blockSize : ℕ) (partition : UInt32)
    (span : Span) (ordinal : UInt64) (accumulator : EpochAccumulator) (state : σ) :
    Except ParityError (EpochAccumulator×σ) :=
  if _hopen : span.stop ≤ ordinal then .ok (accumulator,state)
  else
    let count := min (span.stop.toNat-ordinal.toNat) defaultTapeIoBatchBlocks
    let (batch,next) := source.readForwardRecords state blockSize count
    if _hcount : count < batch.records.length then
      .error (.invariant "resume forward read exceeds requested count")
    else match batch.stop with
      | .error error => .error (failedBatch source next partition ordinal
          (span.lba+(ordinal-span.start)) blockSize count error)
      | stop =>
        if _hboundary : batch.unconfirmedBoundary=true ∨ batch.records=[] ∨ stop≠.complete then
          .error (boundaryBatch ordinal.toNat count blockSize stop)
        else do
          let accumulator ← accumulator.pushBlocks ordinal batch.records
          accumulateExtent source blockSize partition span
            (ordinal+UInt64.ofNat batch.records.length) accumulator next
termination_by span.stop.toNat-ordinal.toNat
decreasing_by
  have hpos : 0 < batch.records.length :=
    length_pos_iff.mpr fun h => _hboundary (.inr (.inl h))
  have hstop := span.stop.toNat_lt
  have hlt : ordinal.toNat < span.stop.toNat := by
    simpa [UInt64.le_iff_toNat_le] using _hopen
  have hle : batch.records.length ≤ span.stop.toNat-ordinal.toNat :=
    (not_lt.mp _hcount).trans (Nat.min_le_left _ _)
  rw [toNat_add_ofNat (by omega)]
  omega

structure RawReaderState (σ : Type) where
  drive : σ
  nextLba : UInt64
  readAttempts : ℕ

structure BootstrapIdentity where
  scheme : Option ParityScheme
  tapeUuid : FixedBytes 16
  blockSizeBytes : UInt32
  driveCompression : Bool

namespace CommittedRawReader

def locate (source : RawTapeSource σ) (state : RawReaderState σ) (hint : PhysicalPositionHint) :
    Except CloseoutError (RawReaderState σ) := do
  let drive ← liftParity
    (locateCommittedPosition source state.drive hint "committed closeout extent")
  return { state with
    drive := drive
    nextLba := hint.lba }

def readBlock (source : RawTapeSource σ) (state : RawReaderState σ) (blockSize : ℕ) :
    Except CloseoutError (Bytes×RawReaderState σ) := do
  match ← liftParity (source.readRecord state.drive blockSize) with
  | (.block bytes,drive) =>
    if bytes.length=blockSize then
      return (bytes,{ state with
        drive := drive
        nextLba := state.nextLba+1 })
    else throw (.boundary state.nextLba)
  | _ => throw (.boundary state.nextLba)

/-- Reread of the bootstrap block, whose identity and geometry must stand. -/
def reproveIdentity (source : RawTapeSource σ)
    (parseBootstrapBlock : Bytes → Except ParityError BootstrapIdentity) (tapeUuid : FixedBytes 16)
    (scheme : ParityScheme) (blockSize : UInt32) (state : RawReaderState σ) :
    Except CloseoutError (RawReaderState σ) := do
  let state ← locate source { state with
    readAttempts := state.readAttempts+1 } ⟨0,0⟩
  let (block,state) ← readBlock source state blockSize.toNat
  let bot ← liftParity (parseBootstrapBlock block)
  rejectIf (bot.tapeUuid≠tapeUuid ∨ bot.blockSizeBytes≠blockSize ∨ bot.driveCompression=true ∨
      bot.scheme≠some scheme)
    (.parity (.sessionOpen "closeout reread identity or geometry changed"))
  return state

def readExtent (source : RawTapeSource σ) (blockSize : UInt32) (state : RawReaderState σ)
    (partition : UInt32) (span : Span) (accumulator : EpochAccumulator) :
    Except CloseoutError (EpochAccumulator×RawReaderState σ) := do
  let state ← locate source state ⟨partition,span.lba⟩
  let (accumulator,drive) ← liftParity
    (accumulateExtent source blockSize.toNat partition span span.start accumulator state.drive)
  return (accumulator,{ state with
    drive := drive })

end CommittedRawReader

def committedRawReader (source : RawTapeSource σ)
    (parseBootstrapBlock : Bytes → Except ParityError BootstrapIdentity) (tapeUuid : FixedBytes 16)
    (scheme : ParityScheme) (blockSize : UInt32) : CommittedReader (RawReaderState σ) :=
  ⟨CommittedRawReader.reproveIdentity source parseBootstrapBlock tapeUuid scheme blockSize,
    CommittedRawReader.readExtent source blockSize⟩

def committedBlockReader (source : RawTapeSource σ)
    (parseBootstrapBlock : Bytes → Except ParityError BootstrapIdentity) (tapeUuid : FixedBytes 16)
    (scheme : ParityScheme) (blockSize : UInt32) : CommittedReader (RawReaderState σ) :=
  ⟨CommittedRawReader.reproveIdentity source parseBootstrapBlock tapeUuid scheme blockSize,
    defaultReadExtent (CommittedRawReader.locate source) (CommittedRawReader.readBlock source)⟩

namespace UncoveredRange

def start (range : UncoveredRange) (extent : CommittedExtent) : ℕ :=
  max extent.firstOrdinal.toNat range.w.toNat

def stop (range : UncoveredRange) (extent : CommittedExtent) : ℕ :=
  min (extent.firstOrdinal.toNat+extent.blockCount.toNat) range.t.toNat

def touching (range : UncoveredRange) : List CommittedExtent :=
  range.extents.filter fun extent => decide (range.start extent < range.stop extent)

/-- The extents are distinct files in tape order and cover the range in ordinal order without a gap;
their ordinals and addresses are 64-bit. -/
structure Covered (range : UncoveredRange) : Prop where
  ordinals : ∀ extent ∈ range.extents, extent.firstOrdinal.toNat+extent.blockCount.toNat < 2^64
  addresses : ∀ extent ∈ range.extents, extent.physicalStartLba.toNat+extent.blockCount.toNat < 2^64
  files : range.touching.Pairwise fun a b => a.tapeFileNumber < b.tapeFileNumber
  tiles : Tiles range.start range.stop range.w.toNat range.t.toNat range.touching

def Holds (range : UncoveredRange) (tape : Tape) (blockAt : ℕ → Bytes) : Prop :=
  ∀ extent ∈ range.touching, ∀ ordinal, range.start extent ≤ ordinal → ordinal < range.stop extent →
    tape (extent.physicalStartLba.toNat+(ordinal-extent.firstOrdinal.toNat))=
      .record (blockAt ordinal)

def span (range : UncoveredRange) (extent : CommittedExtent) : Span :=
  let start := max64 extent.firstOrdinal range.w
  ⟨start,min64 (extent.firstOrdinal+extent.blockCount) range.t,
    extent.physicalStartLba+(start-extent.firstOrdinal)⟩

section Spans

variable {range : UncoveredRange} {extent : CommittedExtent}

theorem span_start : (range.span extent).start.toNat=range.start extent :=
  toNat_max64 _ _

theorem span_stop (hfits : extent.firstOrdinal.toNat+extent.blockCount.toNat < 2^64) :
    (range.span extent).stop.toNat=range.stop extent := by
  refine (toNat_min64 _ _).trans ?_
  rw [UInt64.toNat_add,Nat.mod_eq_of_lt hfits,stop]

theorem span_lba (htouch : range.start extent < range.stop extent)
    (haddress : extent.physicalStartLba.toNat+extent.blockCount.toNat < 2^64) :
    (range.span extent).lba.toNat=
      extent.physicalStartLba.toNat+(range.start extent-extent.firstOrdinal.toNat) := by
  have hstart := @span_start range extent
  have hle : extent.firstOrdinal ≤ (range.span extent).start := by
    rw [UInt64.le_iff_toNat_le,hstart]
    exact le_max_left _ _
  have hsub := UInt64.toNat_sub_of_le _ _ hle
  rw [hstart] at hsub
  change (extent.physicalStartLba+((range.span extent).start-extent.firstOrdinal)).toNat=_
  rw [UInt64.toNat_add,hsub,Nat.mod_eq_of_lt]
  unfold start stop at *
  omega

theorem addExtent_skip {state : SpanState}
    (hfits : extent.firstOrdinal.toNat+extent.blockCount.toNat < 2^64)
    (hoff : ¬range.start extent < range.stop extent) : addExtent range state extent=.ok state := by
  have hsum : checkedAdd64 extent.firstOrdinal extent.blockCount=
      some (extent.firstOrdinal+extent.blockCount) := if_pos hfits
  rw [←span_start,←span_stop hfits,←UInt64.lt_iff_toNat_lt,UInt64.not_lt] at hoff
  rw [addExtent,hsum,orElseError_some,ok_bind]
  exact if_pos hoff

theorem addExtent_span {state : SpanState}
    (hfits : extent.firstOrdinal.toNat+extent.blockCount.toNat < 2^64)
    (haddress : extent.physicalStartLba.toNat+extent.blockCount.toNat < 2^64)
    (htouch : range.start extent < range.stop extent) (hnext : range.start extent=state.next.toNat)
    (horder : ¬outOfOrder state.previousFile extent.tapeFileNumber) :
    addExtent range state extent=.ok ⟨some extent.tapeFileNumber,(range.span extent).stop,
      state.spans++[range.span extent]⟩ := by
  have hsum : checkedAdd64 extent.firstOrdinal extent.blockCount=
      some (extent.firstOrdinal+extent.blockCount) := if_pos hfits
  have hstart := @span_start range extent
  have hstop := @span_stop range extent hfits
  have hlba := span_lba htouch haddress
  have hopen : ¬(range.span extent).stop ≤ (range.span extent).start := by
    rw [UInt64.not_le,UInt64.lt_iff_toNat_lt,hstart,hstop]
    exact htouch
  have hlo : extent.firstOrdinal ≤ (range.span extent).start := by
    rw [UInt64.le_iff_toNat_le,hstart]
    exact le_max_left _ _
  have hspan : checkedAdd64 extent.physicalStartLba
      ((range.span extent).start-extent.firstOrdinal)=some (range.span extent).lba := by
    rw [checkedAdd64_eq_some,UInt64.toNat_sub_of_le _ _ hlo,hstart,hlba]
  have hend : checkedAdd64 (range.span extent).lba
      ((range.span extent).stop-(range.span extent).start)=
        some ((range.span extent).lba+((range.span extent).stop-(range.span extent).start)) := by
    have hsub := UInt64.toNat_sub_of_le _ _ (UInt64.le_of_lt (UInt64.not_le.mp hopen))
    refine if_pos ?_
    unfold start stop at *
    omega
  rw [addExtent,hsum,orElseError_some,ok_bind]
  change (if (range.span extent).stop ≤ (range.span extent).start then _ else _)=_
  have hsame := UInt64.toNat_inj.mp (hstart.trans hnext)
  rw [if_neg hopen,rejectIf_pos horder,ok_bind]
  change (rejectIf ((range.span extent).start≠state.next) _ >>= _)=_
  rw [rejectIf_pos (not_not.mpr hsame),ok_bind]
  change (orElseError (checkedAdd64 extent.physicalStartLba
    ((range.span extent).start-extent.firstOrdinal)) _ >>= _)=_
  rw [hspan,orElseError_some,ok_bind]
  change (orElseError (checkedAdd64 (range.span extent).lba
    ((range.span extent).stop-(range.span extent).start)) _ >>= _)=_
  rw [hend,orElseError_some,ok_bind]
  rfl

end Spans

theorem foldlM_addExtent (range : UncoveredRange) (extents : List CommittedExtent)
    (hordinals : ∀ extent ∈ extents, extent.firstOrdinal.toNat+extent.blockCount.toNat < 2^64)
    (haddresses : ∀ extent ∈ extents,
      extent.physicalStartLba.toNat+extent.blockCount.toNat < 2^64) :
    let met := extents.filter fun extent => decide (range.start extent < range.stop extent)
    met.Pairwise (fun a b => a.tapeFileNumber < b.tapeFileNumber) →
    ∀ (state : SpanState) (hi : ℕ), Tiles range.start range.stop state.next.toNat hi met →
      (∀ extent ∈ met, ¬outOfOrder state.previousFile extent.tapeFileNumber) →
      ∃ final, extents.foldlM (addExtent range) state=.ok final ∧ final.next.toNat=hi ∧
        final.spans=state.spans++met.map range.span := by
  induction extents with
  | nil =>
    intro met _ state hi htiles _
    exact ⟨state,rfl,htiles,(append_nil _).symm⟩
  | cons extent rest ih =>
    intro met hfiles state hi htiles horder
    have hfits := hordinals extent mem_cons_self
    have haddress := haddresses extent mem_cons_self
    have hrest := ih (fun e he => hordinals e (mem_cons_of_mem _ he))
      (fun e he => haddresses e (mem_cons_of_mem _ he))
    rw [foldlM_cons]
    by_cases htouch : range.start extent < range.stop extent
    · have hmet : met=extent::rest.filter
          fun extent => decide (range.start extent < range.stop extent) :=
        filter_cons_of_pos (decide_eq_true htouch)
      rw [hmet] at hfiles htiles horder ⊢
      obtain ⟨hfirst,-,htail⟩ := htiles
      rw [addExtent_span hfits haddress htouch hfirst (horder extent mem_cons_self),ok_bind]
      obtain ⟨final,hfold,hnext,hspans⟩ := hrest (pairwise_cons.mp hfiles).2
        ⟨some extent.tapeFileNumber,(range.span extent).stop,state.spans++[range.span extent]⟩ hi
        (by rw [span_stop hfits]; exact htail)
        (by
          rintro later hlater ⟨previous,hprevious,hle⟩
          cases hprevious
          exact absurd ((pairwise_cons.mp hfiles).1 later hlater) (UInt64.not_lt.mpr hle))
      refine ⟨final,hfold,hnext,?_⟩
      rw [hspans,map_cons,append_assoc]
      rfl
    · have hmet : met=rest.filter fun extent => decide (range.start extent < range.stop extent) :=
        filter_cons_of_neg (by simpa using htouch)
      rw [hmet] at hfiles htiles horder ⊢
      rw [addExtent_skip hfits htouch,ok_bind]
      exact hrest hfiles state hi htiles horder

theorem rangeSpans_of_covered {scheme : ParityScheme} {range : UncoveredRange}
    (hcovered : range.Covered) (hshort : range.t.toNat-range.w.toNat ≤ scheme.stripes*scheme.k) :
    rangeSpans scheme range=.ok (range.touching.map range.span) := by
  have hle := UInt64.le_iff_toNat_le.mpr hcovered.tiles.le
  obtain ⟨final,hfold,hnext,hspans⟩ := foldlM_addExtent range range.extents hcovered.ordinals
    hcovered.addresses hcovered.files ⟨none,range.w,[]⟩ range.t.toNat hcovered.tiles
    (by
      rintro extent - ⟨previous,hprevious,-⟩
      cases hprevious)
  have hcount : checkedSub64 range.t range.w=some (range.t-range.w) := if_pos hle
  have hfew : ¬scheme.stripes*scheme.k < (range.t-range.w).toNat := by
    rw [UInt64.toNat_sub_of_le _ _ hle]
    omega
  rw [rangeSpans,hcount,orElseError_some,ok_bind,rejectIf_pos hfew,ok_bind,hfold,ok_bind,
    rejectIf_pos (not_not.mpr (UInt64.toNat_inj.mp hnext)),ok_bind,hspans]
  rfl

end UncoveredRange

end Remanence.Parity.Closeout
