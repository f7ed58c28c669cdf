import Remanence.Parity.Addressing
import Remanence.Parity.Resume

/-!
# The bounded pass and the whole map agree

After every prefix of the rows the counters of the bounded pass are those of the map validation,
the measured epochs are those of the planner, and the kept objects tile the ordinals between the
watermark and the committed end.
-/

namespace Remanence.Parity.Resume

open Foundation Closeout List

abbrev mapRows (rows : List TapeFileEntry) : List TapeFileMapEntry :=
  rows.map TapeFileEntry.toMapEntry

def endsBehind (w : ℕ) (entry : TapeFileMapEntry) : Bool :=
  match entry.kind,entry.firstParityDataOrdinal with
  | .object,some first => w < first.toNat+entry.blockCount.toNat
  | _,_ => false

def ResumeOpenEpochObjectExtent.row (extent : ResumeOpenEpochObjectExtent) : TapeFileMapEntry :=
  .object extent.tapeFileNumber extent.blockCount extent.firstParityDataOrdinal

def keptStart (w : ℕ) (extent : ResumeOpenEpochObjectExtent) : ℕ :=
  max extent.firstParityDataOrdinal.toNat w

def keptStop (extent : ResumeOpenEpochObjectExtent) : ℕ :=
  extent.firstParityDataOrdinal.toNat+extent.blockCount.toNat

structure KeptObjects (w : ℕ) (rows : List TapeFileMapEntry)
    (extents : List ResumeOpenEpochObjectExtent) : Prop where
  rows_eq : extents.map ResumeOpenEpochObjectExtent.row=rows.filter (endsBehind w)
  position : ∀ extent ∈ extents, ∃ entry, rows[extent.tapeFileNumber.toNat]?=some entry ∧
    entry.blockCount=extent.blockCount ∧
    extent.physicalStartLba.toNat=prefixLength (rows.take extent.tapeFileNumber.toNat)
  fits : ∀ extent ∈ extents, keptStop extent < 2^64 ∧
    extent.physicalStartLba.toNat+extent.blockCount.toNat < 2^64
  files : extents.Pairwise fun a b => a.tapeFileNumber < b.tapeFileNumber
  tiles : Tiles (keptStart w) keptStop w (max w (objectBlocks rows)) extents

structure Replayed (epochBlocks w t : UInt64) (rows : List TapeFileMapEntry) (state : ReplayState) :
    Prop where
  count : state.expectedFile.toNat=rows.length
  accepted : AcceptedRows [] rows
  lba : state.appendLba.toNat=prefixLength rows
  total : state.totalDataOrdinals.toNat=objectBlocks rows
  measured : validateAndMeasureEpochRanges rows t epochBlocks=
    .ok (state.expectedProtectedStart,state.nextEpochId)
  bot : state.botBootstrapCommitted=true → ∃ bot, rows.head?=some bot ∧ bot.tapeFileNumber=0 ∧
    bot.kind=.bootstrap ∧ bot.blockCount=1
  open_rows : ∀ entry ∈ rows, isFinalizing entry=false
  tail : state.tail=rows.getLast?
  kept : KeptObjects w.toNat rows state.openEpochObjectExtents

variable {epochBlocks w t : UInt64}

theorem replayed_nil : Replayed epochBlocks w t [] ⟨0,0,0,0,0,false,0,[],[],none⟩ where
  count := rfl
  accepted := trivial
  lba := rfl
  total := rfl
  measured := rfl
  bot := fun h => by cases h
  open_rows := fun _ h => by cases h
  tail := rfl
  kept :=
    { rows_eq := rfl
      position := fun _ h => by cases h
      fits := fun _ h => by cases h
      files := List.Pairwise.nil
      tiles := (Nat.max_eq_left (Nat.zero_le _)).symm }

variable {entry : TapeFileMapEntry}

theorem validate_of_validCloseFields (hblocks : entry.blockCount≠0)
    (h : validCloseFields entry=true) : entry.validate=.ok () := by
  unfold TapeFileMapEntry.validate
  unfold validCloseFields at h
  rw [rejectIf_pos hblocks,ok_bind]
  cases hkind : entry.kind with
  | object =>
    rw [hkind] at h
    simp only [Bool.and_eq_true] at h
    obtain ⟨⟨⟨hfirst,hstart⟩,hstop⟩,hepoch⟩ := h
    obtain ⟨first,hfirst⟩ := Option.isSome_iff_exists.mp hfirst
    simp_all
  | paritySidecar =>
    rw [hkind] at h
    simp only [Bool.and_eq_true] at h
    obtain ⟨⟨⟨hfirst,hstart⟩,hrange⟩,hepoch⟩ := h
    obtain ⟨start,hstart⟩ := Option.isSome_iff_exists.mp hstart
    obtain ⟨epoch,hepoch⟩ := Option.isSome_iff_exists.mp hepoch
    cases hstop : entry.protectedOrdinalEndExclusive with
    | none => simp [hstop] at hrange
    | some stop =>
      simp only [hstop,hstart,decide_eq_true_eq] at hrange
      simp only [hstart,hepoch]
      refine rejectIf_pos ?_
      rw [not_or]
      refine ⟨by simpa using hfirst,?_⟩
      rw [UInt64.le_iff_toNat_le,Nat.not_le]
      exact UInt64.lt_iff_toNat_lt.mp hrange
  | bootstrap =>
    rw [hkind] at h
    simp only [Bool.and_eq_true,decide_eq_true_eq] at h
    obtain ⟨⟨⟨⟨hone,hfirst⟩,hstart⟩,hstop⟩,hepoch⟩ := h
    simp_all
  | _ =>
    rw [hkind] at h
    simp only [Bool.and_eq_true] at h
    obtain ⟨⟨⟨hfirst,hstart⟩,hstop⟩,hepoch⟩ := h
    simp_all

variable {rows : List TapeFileMapEntry}

section Kept
variable {w : ℕ} {extents : List ResumeOpenEpochObjectExtent} (h : KeptObjects w rows extents)
include h

theorem KeptObjects.position_concat (entry : TapeFileMapEntry) : ∀ extent ∈ extents,
    extent.tapeFileNumber.toNat < rows.length ∧
    ∃ other, (rows++[entry])[extent.tapeFileNumber.toNat]?=some other ∧
      other.blockCount=extent.blockCount ∧ extent.physicalStartLba.toNat=
        prefixLength ((rows++[entry]).take extent.tapeFileNumber.toNat) := by
  intro extent hextent
  obtain ⟨other,hother,hblocks,hlba⟩ := h.position extent hextent
  obtain ⟨hlt,-⟩ := List.getElem?_eq_some_iff.mp hother
  refine ⟨hlt,other,by rw [getElem?_append_left hlt]; exact hother,hblocks,?_⟩
  rw [take_append_of_le_length (le_of_lt hlt)]
  exact hlba

theorem KeptObjects.skip (hbehind : endsBehind w entry=false)
    (hblocks : max w (objectBlocks (rows++[entry]))=max w (objectBlocks rows)) :
    KeptObjects w (rows++[entry]) extents := by
  refine ⟨?_,fun extent hextent => (h.position_concat entry extent hextent).2,h.fits,h.files,?_⟩
  · rw [filter_append,filter_cons_of_neg (by simp [hbehind]),filter_nil, append_nil]
    exact h.rows_eq
  · rw [hblocks]
    exact h.tiles

theorem KeptObjects.other (hkind : entry.kind≠.object) : KeptObjects w (rows++[entry]) extents := by
  refine h.skip ?_ (by rw [objectBlocks_append,objectBlocks_singleton,if_neg hkind,add_zero])
  unfold endsBehind
  split
  · exact absurd ‹_› hkind
  · rfl

theorem KeptObjects.object {first lba : UInt64}
    (hentry : entry=.object entry.tapeFileNumber entry.blockCount first)
    (hnumber : entry.tapeFileNumber.toNat=rows.length) (hblocks : entry.blockCount≠0)
    (hfirst : first.toNat=objectBlocks rows) (hlba : lba.toNat=prefixLength rows)
    (hstop : first.toNat+entry.blockCount.toNat < 2^64)
    (haddress : lba.toNat+entry.blockCount.toNat < 2^64) :
    KeptObjects w (rows++[entry]) (extents++ if w < first.toNat+entry.blockCount.toNat then
        [⟨entry.tapeFileNumber,first,entry.blockCount,lba⟩]
      else []) := by
  have hkind : entry.kind=.object := by rw [hentry]; rfl
  have hordinal : entry.firstParityDataOrdinal=some first := by rw [hentry]; rfl
  have hpositive : 0 < entry.blockCount.toNat := by
    rw [Nat.pos_iff_ne_zero]
    exact fun hzero => hblocks (UInt64.toNat_inj.mp hzero)
  have hposition := h.position_concat entry
  have hblocksSum : objectBlocks (rows++[entry])=objectBlocks rows+entry.blockCount.toNat := by
    rw [objectBlocks_append,objectBlocks_singleton,if_pos hkind]
  by_cases hbehind : w < first.toNat+entry.blockCount.toNat
  · rw [if_pos hbehind]
    have hrow : endsBehind w entry=true := by
      unfold endsBehind
      rw [hkind,hordinal]
      exact decide_eq_true hbehind
    refine ⟨?_,fun extent hextent => ?_,fun extent hextent => ?_,?_,?_⟩
    · rw [map_append,filter_append,filter_cons_of_pos hrow,filter_nil,h.rows_eq]
      exact congrArg _ (congrArg (· :: []) hentry.symm)
    · rcases mem_append.mp hextent with hextent | hextent
      · exact (hposition extent hextent).2
      · rw [mem_singleton.mp hextent]
        refine ⟨entry,?_,rfl,?_⟩
        · rw [hnumber,getElem?_concat_length]
        · rw [hnumber,take_left']
          · exact hlba
          · rfl
    · rcases mem_append.mp hextent with hextent | hextent
      · exact h.fits extent hextent
      · rw [mem_singleton.mp hextent]
        exact ⟨hstop,haddress⟩
    · refine pairwise_append.mpr ⟨h.files,pairwise_singleton _ _,fun a ha b hb => ?_⟩
      rw [mem_singleton.mp hb,UInt64.lt_iff_toNat_lt]
      rw [hnumber]
      exact (hposition a ha).1
    · refine h.tiles.append ?_
      rw [hblocksSum]
      refine ⟨?_,?_,?_⟩
      · change max first.toNat w=_
        rw [hfirst,Nat.max_comm]
      · change max first.toNat w < first.toNat+entry.blockCount.toNat
        exact Nat.max_lt.mpr ⟨by omega,hbehind⟩
      · rw [←hfirst]
        exact (Nat.max_eq_right (le_of_lt hbehind)).symm
  · rw [if_neg hbehind,append_nil]
    refine h.skip ?_ (by omega)
    unfold endsBehind
    rw [hkind,hordinal]
    exact decide_eq_false hbehind

end Kept

variable {state mid : ReplayState}

theorem replayObject_eq_ok {entry : TapeFileEntry} (h : replayObject w state entry=.ok mid) :
    ∃ first, entry.firstParityDataOrdinal=some first ∧ first=state.totalDataOrdinals ∧
      first.toNat+entry.blockCount.toNat=mid.totalDataOrdinals.toNat ∧
      mid={ state with
        totalDataOrdinals := mid.totalDataOrdinals
        committedObjectCount := mid.committedObjectCount
        openEpochObjectExtents := state.openEpochObjectExtents++
          if w.toNat < first.toNat+entry.blockCount.toNat then
            [⟨entry.tapeFileNumber,first,entry.blockCount,state.appendLba⟩]
          else [] } := by
  simp only [replayObject,eq_ok,not_not, checkedAdd64_eq_some] at h
  obtain ⟨first,hfirst,_,heq,stop,hstop,count,_,rfl⟩ := h
  refine ⟨first,hfirst,heq,hstop,?_⟩
  simp only [UInt64.lt_iff_toNat_lt,hstop]

variable {scheme : ParityScheme}

theorem replaySidecar_eq_ok {entry : TapeFileEntry}
    (h : replaySidecar scheme epochBlocks t state entry=.ok mid) :
    measureSidecar t epochBlocks (state.expectedProtectedStart,state.nextEpochId) entry.toMapEntry=
      .ok (mid.expectedProtectedStart,mid.nextEpochId) ∧
    mid={ state with
      expectedProtectedStart := mid.expectedProtectedStart
      nextEpochId := mid.nextEpochId
      sidecarDirectoryEntries := mid.sidecarDirectoryEntries } := by
  simp only [replaySidecar,sidecarDirectoryEntryFromJournal,eq_ok,not_not] at h
  obtain ⟨row,⟨_,_,_,_,epochId,hepochId,start,hstart,stop,hstop,_,_,rfl⟩,_,hepoch,_,hcontiguous,
    _,hbelow,length,hlength,_,hrange,next,hnext,rfl⟩ := h
  refine ⟨?_,rfl⟩
  simp only [measureSidecar,eq_ok,not_not]
  exact ⟨epochId,hepochId,start,hstart,stop,hstop,(),hepoch,(),hcontiguous,(),hbelow,length,hlength,
    (),hrange,next,hnext,rfl⟩

theorem replayKind_eq_ok {entry : TapeFileEntry}
    (h : replayKind scheme epochBlocks w t state entry=.ok mid) :
    entry.kind=.object ∧ replayObject w state entry=.ok mid ∨
    entry.kind=.paritySidecar ∧ replaySidecar scheme epochBlocks t state entry=.ok mid ∨
    entry.kind=.bootstrap ∧ state.expectedFile=0 ∧
      mid={ state with botBootstrapCommitted := true } := by
  unfold replayKind at h
  cases hkind : entry.kind with
  | object =>
    rw [hkind] at h
    exact .inl ⟨rfl,h⟩
  | paritySidecar =>
    rw [hkind] at h
    exact .inr (.inl ⟨rfl,h⟩)
  | bootstrap =>
    rw [hkind] at h
    simp only [eq_ok,not_or,not_not] at h
    obtain ⟨_,hfront,rfl⟩ := h
    exact .inr (.inr ⟨rfl,hfront.1,rfl⟩)
  | _ =>
    rw [hkind] at h
    cases h

theorem replayRow_eq_ok {state' : ReplayState} {entry : TapeFileEntry}
    (h : replayRow scheme epochBlocks w t state entry=.ok state') :
    entry.tapeFileNumber=state.expectedFile ∧ entry.blockCount≠0 ∧
    entry.toMapEntry.validate=.ok () ∧
    ∃ mid, replayKind scheme epochBlocks w t state entry=.ok mid ∧
      mid.appendLba.toNat+entry.blockCount.toNat+1=state'.appendLba.toNat ∧
      mid.expectedFile.toNat+1=state'.expectedFile.toNat ∧
      state'={ mid with
        appendLba := state'.appendLba
        expectedFile := state'.expectedFile
        tail := some entry.toMapEntry } := by
  simp only [replayRow,validateTerminalCloseEntry,eq_ok,not_not,
    Option.bind_eq_some_iff,checkedAdd64_eq_some] at h
  obtain ⟨_,hnumber,_,⟨_,hblocks,hfields⟩,mid,hmid,lba,⟨half,hhalf,hlba⟩,next,hnext,rfl⟩ := h
  refine ⟨hnumber,hblocks,validate_of_validCloseFields hblocks (by simpa using hfields),mid,hmid,?_,
    hnext,rfl⟩
  change half.toNat+1=lba.toNat at hlba
  change mid.appendLba.toNat+entry.blockCount.toNat+1=lba.toNat
  omega

variable {row : TapeFileMapEntry}

theorem measured_other (hkind : row.kind≠.paritySidecar) :
    validateAndMeasureEpochRanges (rows++[row]) t epochBlocks=
      validateAndMeasureEpochRanges rows t epochBlocks := by
  rw [validateAndMeasureEpochRanges,filter_append,filter_cons_of_neg (by simpa using hkind),
    filter_nil,append_nil]
  rfl

theorem measured_sidecar {mid final : UInt64×UInt64} (hkind : row.kind=.paritySidecar)
    (hrows : validateAndMeasureEpochRanges rows t epochBlocks=.ok mid)
    (hrow : measureSidecar t epochBlocks mid row=.ok final) :
    validateAndMeasureEpochRanges (rows++[row]) t epochBlocks=.ok final := by
  unfold validateAndMeasureEpochRanges at hrows ⊢
  rw [filter_append,filter_cons_of_pos (by simpa using hkind),filter_nil,
    foldlM_append,hrows,ok_bind,foldlM_cons,hrow,ok_bind]
  rfl

theorem head_concat {p : TapeFileMapEntry → Prop} (h : ∃ bot, rows.head?=some bot ∧ p bot) :
    ∃ bot, (rows++[row]).head?=some bot ∧ p bot := by
  obtain ⟨bot,hhead,hbot⟩ := h
  exact ⟨bot,by rw [head?_append,hhead]; rfl,hbot⟩

theorem object_of_validate {first : UInt64} (h : entry.validate=.ok ()) (hkind : entry.kind=.object)
    (hfirst : entry.firstParityDataOrdinal=some first) :
    entry=.object entry.tapeFileNumber entry.blockCount first := by
  obtain ⟨number,kind,blocks,ordinal,start,stop,epoch⟩ := entry
  cases hkind
  cases hfirst
  simp only [TapeFileMapEntry.validate,eq_ok,not_or,Option.isSome_iff_ne_none, not_not] at h
  obtain ⟨_,_,_,rfl,rfl,rfl⟩ := h
  rfl

theorem blockCount_of_validate (h : entry.validate=.ok ()) (hkind : entry.kind=.bootstrap) :
    entry.blockCount=1 := by
  simp only [TapeFileMapEntry.validate,eq_ok,hkind,not_or,not_not] at h
  obtain ⟨_,_,hone,_⟩ := h
  exact hone

theorem Replayed.step {state' : ReplayState} {entry : TapeFileEntry}
    (h : Replayed epochBlocks w t rows state)
    (hrow : replayRow scheme epochBlocks w t state entry=.ok state') :
    Replayed epochBlocks w t (rows++[entry.toMapEntry]) state' := by
  obtain ⟨hnumber,hblocks,hfields,mid,hmid,hlba,hnext,hstate⟩ := replayRow_eq_ok hrow
  have hindex : entry.toMapEntry.tapeFileNumber.toNat=rows.length := by
    rw [←h.count,←hnumber]
    rfl
  have hkinds := replayKind_eq_ok hmid
  -- no kind moves the position or the row count
  have hsame : mid.appendLba=state.appendLba ∧ mid.expectedFile=state.expectedFile := by
    rcases hkinds with ⟨-,hobject⟩ | ⟨-,hsidecar⟩ | ⟨-,-,rfl⟩
    · obtain ⟨first,-,-,-,heq⟩ := replayObject_eq_ok hobject
      rw [heq]
      exact ⟨rfl,rfl⟩
    · rw [(replaySidecar_eq_ok hsidecar).2]
      exact ⟨rfl,rfl⟩
    · exact ⟨rfl,rfl⟩
  rw [hsame.1,h.lba] at hlba
  rw [hsame.2,h.count] at hnext
  have hend := state'.appendLba.toNat_lt
  have haccepted : ∀ (hsole : rows.length≠0 → entry.toMapEntry.kind≠.bootstrap)
      (hfirst : entry.toMapEntry.kind=.object → ∃ first,
        entry.toMapEntry.firstParityDataOrdinal=some first ∧ first.toNat=objectBlocks rows ∧
        objectBlocks rows+entry.toMapEntry.blockCount.toNat ≤ u64Max),
      AcceptedRows [] (rows++[entry.toMapEntry]) := by
    intro hsole hfirst
    refine acceptedRows_append.mpr ⟨h.accepted,?_,trivial⟩
    refine ⟨hindex,hfields,?_,hsole,hfirst⟩
    change prefixLength rows+entry.blockCount.toNat ≤ u64Max
    have : u64Max=2^64-1 := rfl
    omega
  have hposition : state'.appendLba.toNat=prefixLength (rows++[entry.toMapEntry]) := by
    rw [prefixLength_append,prefixLength_singleton,←hlba,add_assoc]
    rfl
  have hcount : state'.expectedFile.toNat=(rows++[entry.toMapEntry]).length := by
    rw [length_append,←hnext]
    rfl
  have htail : state'.tail=(rows++[entry.toMapEntry]).getLast? := by
    rw [hstate,getLast?_concat]
  have hopen : ∀ (hfinal : isFinalizing entry.toMapEntry=false),
      ∀ other ∈ rows++[entry.toMapEntry], isFinalizing other=false := by
    intro hfinal other hother
    rcases mem_append.mp hother with hother | hother
    · exact h.open_rows other hother
    · rw [mem_singleton.mp hother]
      exact hfinal
  rcases hkinds with ⟨hkind,hobject⟩ | ⟨hkind,hsidecar⟩ | ⟨hkind,hfront,rfl⟩
  · -- an object continues the ordinals
    obtain ⟨first,hfirst,htotal,hstop,heq⟩ := replayObject_eq_ok hobject
    have hmapped : entry.toMapEntry.kind=.object := hkind
    have hordinal : first.toNat=objectBlocks rows := by rw [htotal,h.total]
    have hfits := mid.totalDataOrdinals.toNat_lt
    refine ⟨hcount,haccepted (fun _ => by rw [hmapped]; decide) (fun _ => ⟨first,hfirst,hordinal,?_⟩),
      hposition,?_,?_,fun hbot => ?_,hopen (by simp [isFinalizing,hmapped]),htail,?_⟩
    · rw [←hordinal]
      change first.toNat+entry.blockCount.toNat ≤ u64Max
      have : u64Max=2^64-1 := rfl
      omega
    · rw [hstate,objectBlocks_append,objectBlocks_singleton,if_pos hmapped,←hordinal]
      exact hstop.symm
    · rw [measured_other (by rw [hmapped]; decide),h.measured,hstate,heq]
    · rw [hstate,heq] at hbot
      exact head_concat (h.bot hbot)
    · rw [hstate,heq]
      refine h.kept.object (object_of_validate hfields hmapped hfirst) hindex hblocks hordinal h.lba
        ?_ ?_
      · exact hstop ▸ hfits
      · rw [h.lba]
        change prefixLength rows+entry.blockCount.toNat < 2^64
        omega
  · -- a sidecar continues the epochs
    obtain ⟨hmeasure,heq⟩ := replaySidecar_eq_ok hsidecar
    have hmapped : entry.toMapEntry.kind=.paritySidecar := hkind
    refine ⟨hcount,haccepted (fun _ => by rw [hmapped]; decide)
      (fun hobject => by rw [hmapped] at hobject; cases hobject),
      hposition,?_,?_,fun hbot => ?_,hopen (by simp [isFinalizing,hmapped]),htail,?_⟩
    · rw [hstate,heq,objectBlocks_append,objectBlocks_singleton,
        if_neg (by rw [hmapped]; decide),add_zero]
      exact h.total
    · rw [measured_sidecar hmapped h.measured hmeasure,hstate]
    · rw [hstate,heq] at hbot
      exact head_concat (h.bot hbot)
    · rw [hstate,heq]
      exact h.kept.other (by rw [hmapped]; decide)
  · -- the bootstrap is the first row
    have hmapped : entry.toMapEntry.kind=.bootstrap := hkind
    have hempty : rows=[] := by
      rw [←length_eq_zero_iff,←h.count,hfront]
      rfl
    subst hempty
    refine ⟨hcount,haccepted (fun hne => absurd rfl hne)
      (fun hobject => by rw [hmapped] at hobject; cases hobject),
      hposition,?_,?_,fun _ => ?_,hopen (by simp [isFinalizing,hmapped]),htail,?_⟩
    · rw [hstate,objectBlocks_append,objectBlocks_singleton,if_neg (by rw [hmapped]; decide)]
      exact h.total
    · rw [measured_other (by rw [hmapped]; decide),h.measured,hstate]
    · refine ⟨entry.toMapEntry,rfl,?_,hmapped,blockCount_of_validate hfields hmapped⟩
      exact UInt64.toNat_inj.mp hindex
    · rw [hstate]
      exact h.kept.other (by rw [hmapped]; decide)

theorem replayRows_eq_ok
    {entries : List (Except ParityError TapeFileEntry)} {done : List TapeFileMapEntry}
    {final : ReplayState} (hdone : Replayed epochBlocks w t done state)
    (h : entries.foldlM (fun state entry => do
      replayRow scheme epochBlocks w t state (←entry)) state=.ok final) :
    ∃ rows : List TapeFileEntry, entries=rows.map .ok ∧
      Replayed epochBlocks w t (done++mapRows rows) final := by
  induction entries generalizing done state with
  | nil =>
    cases h
    exact ⟨[],rfl,by simpa using hdone⟩
  | cons read entries ih =>
    obtain ⟨next,hnext,hrest⟩ := foldlM_cons_eq_ok.mp h
    obtain ⟨entry,hentry,hrow⟩ := bind_eq_ok.mp hnext
    obtain ⟨rows,hrows,hfinal⟩ := ih (hdone.step hrow) hrest
    refine ⟨entry::rows,by rw [hentry,hrows]; rfl,?_⟩
    simpa using hfinal

structure Accepted (snapshot : FrozenFileRows) (summary : BoundedResumeSummary)
    (rows : List TapeFileEntry) (epochBlocks : UInt64) (state : ReplayState) : Prop where
  read : ∃ replay, snapshot.replay=.ok replay ∧ replay.entries=rows.map .ok
  scheme : snapshot.scheme.validate=.ok snapshot.scheme
  epoch : epochDataShards snapshot.scheme=.ok epochBlocks
  ordered : snapshot.highestProtectedOrdinal ≤ snapshot.totalCommittedOrdinals
  within : withinOneOpenEpoch (snapshot.totalCommittedOrdinals-snapshot.highestProtectedOrdinal)
    snapshot.scheme
  replayed : Replayed epochBlocks snapshot.highestProtectedOrdinal snapshot.totalCommittedOrdinals
    (mapRows rows) state
  total : state.totalDataOrdinals=snapshot.totalCommittedOrdinals
  watermark : state.expectedProtectedStart=snapshot.highestProtectedOrdinal
  bot : state.expectedFile≠0 → state.botBootstrapCommitted=true
  coherent : ∀ tail, state.tail=some tail → validateTailCoherence tail
    snapshot.totalCommittedOrdinals snapshot.highestProtectedOrdinal snapshot.scheme=.ok ()
  summary_eq : summary=⟨snapshot.scheme,state.expectedFile,state.tail.map (·.tapeFileNumber),
    ⟨0,state.appendLba⟩,snapshot.highestProtectedOrdinal,snapshot.totalCommittedOrdinals,
    state.nextEpochId,state.botBootstrapCommitted,0,state.committedObjectCount,
    state.sidecarDirectoryEntries,state.openEpochObjectExtents⟩

variable {snapshot : FrozenFileRows} {summary : BoundedResumeSummary}

theorem accepted_of_eq_ok (h : checkedBoundedResumeSummary snapshot=.ok summary) :
    ∃ rows epochBlocks state, Accepted snapshot summary rows epochBlocks state := by
  simp only [checkedBoundedResumeSummary,eq_ok,not_not,not_or, not_and] at h
  obtain ⟨scheme,hscheme,epochBlocks,hepoch,_,hordered,live,hlive,_,hwithin,replay,hreplay,state,hrun,
    _,⟨-,-,-,htotal,-,hwatermark⟩,_,hbot,hrest⟩ := h
  obtain ⟨rows,hrows,hreplayed⟩ := replayRows_eq_ok replayed_nil hrun
  have hle := UInt64.not_lt.mp hordered
  obtain ⟨-,rfl⟩ := ParityScheme.validate_eq_ok.mp hscheme
  have hdifference : live=snapshot.totalCommittedOrdinals-snapshot.highestProtectedOrdinal := by
    rw [checkedSub64,if_pos (UInt64.le_iff_toNat_le.mp hle)] at hlive
    exact (Option.some.inj hlive).symm
  refine (fun hend : _ ∧ _ => ⟨rows,epochBlocks,state,⟨replay,hreplay,hrows⟩,hscheme,hepoch,hle,
    hdifference ▸ hwithin,hreplayed,htotal,hwatermark,fun hne => by simpa using hbot hne,hend.1,
    hend.2⟩) ?_
  cases htail : state.tail with
  | none =>
    simp only [htail,eq_ok] at hrest
    obtain ⟨_,-,rfl⟩ := hrest
    exact ⟨fun _ h => (by cases h),rfl⟩
  | some last =>
    simp only [htail,eq_ok] at hrest
    obtain ⟨_,hcoherent,_,-,rfl⟩ := hrest
    exact ⟨fun tail h => Option.some.inj h ▸ hcoherent,rfl⟩

theorem toNat_of_epochDataShards (h : epochDataShards scheme=.ok epochBlocks) :
    epochBlocks.toNat=scheme.stripes*scheme.k ∧ 0 < epochBlocks.toNat := by
  rw [epochDataShards,orElseError_eq_ok,Option.filter_eq_some_iff,checkedMul64_eq_some] at h
  obtain ⟨hproduct,hpositive⟩ := h
  have hk : scheme.k < 2^64 := lt_trans scheme.dataBlocksPerStripe.toNat_lt (by decide)
  have hstripes : scheme.stripes < 2^64 :=
    lt_trans scheme.stripesPerNeighborhood.toNat_lt (by decide)
  rw [UInt64.toNat_ofNat_of_lt' hk,UInt64.toNat_ofNat_of_lt' hstripes,mul_comm] at hproduct
  have hpositive : (0 : UInt64) < epochBlocks := by simpa using hpositive
  exact ⟨hproduct.symm,UInt64.lt_iff_toNat_lt.mp hpositive⟩

theorem foldlM_addAppendPosition {lba final : UInt64}
    (h : lba.toNat+prefixLength rows=final.toNat) : rows.foldlM addAppendPosition lba=.ok final := by
  induction rows generalizing lba with
  | nil =>
    rw [foldlM_nil,pure_eq_ok]
    exact UInt64.toNat_inj.mp h
  | cons row rows ih =>
    have hlt := final.toNat_lt
    have hcons : prefixLength (row::rows)=row.blockCount.toNat+1+prefixLength rows := by
      rw [←singleton_append,prefixLength_append,prefixLength_singleton]
    have hhalf : (lba+row.blockCount).toNat=lba.toNat+row.blockCount.toNat :=
      (UInt64.toNat_add _ _).trans (Nat.mod_eq_of_lt (by omega))
    have hnext : (lba+row.blockCount+1).toNat=lba.toNat+row.blockCount.toNat+1 := by
      rw [UInt64.toNat_add,hhalf]
      exact Nat.mod_eq_of_lt (by change _+1 < _; omega)
    have hstep : addAppendPosition lba row=.ok (lba+row.blockCount+1) := by
      rw [addAppendPosition,orElseError_eq_ok,Option.bind_eq_some_iff]
      exact ⟨lba+row.blockCount,checkedAdd64_eq_some.mpr hhalf.symm,
        checkedAdd64_eq_some.mpr (by rw [hnext,hhalf]; rfl)⟩
    rw [foldlM_cons,hstep,ok_bind]
    exact ih (by rw [hnext]; omega)

section

variable {rows : List TapeFileEntry} (h : Accepted snapshot summary rows epochBlocks state)
include h

theorem Accepted.mapRows_of_ne (hne : rows≠[]) : MapRows (mapRows rows) := by
  have hcount : state.expectedFile≠0 := by
    intro hzero
    have hlength := h.replayed.count
    rw [hzero,length_map] at hlength
    exact hne (length_eq_zero_iff.mp hlength.symm)
  exact ⟨h.replayed.bot (h.bot hcount),h.replayed.accepted⟩

def planBehind (summary : BoundedResumeSummary) (last : UInt64) : ResumeAppendPlan :=
  ⟨last,summary.appendPosition,summary.highestProtectedOrdinal,summary.highestProtectedOrdinal,
    summary.highestProtectedOrdinal,summary.totalCommittedOrdinals,summary.nextEpochId,[]⟩

theorem Accepted.appendPlan_eq {last : UInt64}
    (hlast : summary.lastCommittedTapeFileNumber=some last) :
    summary.appendPlan snapshot.scheme=.ok (planBehind summary last) := by
  have hscheme : snapshot.scheme=summary.scheme := by rw [h.summary_eq]
  have hrebuild : checkedSub64 summary.totalCommittedOrdinals summary.highestProtectedOrdinal=
      some (snapshot.totalCommittedOrdinals-snapshot.highestProtectedOrdinal) := by
    rw [h.summary_eq]
    exact if_pos (UInt64.le_iff_toNat_le.mp h.ordered)
  rw [BoundedResumeSummary.appendPlan,h.scheme,ok_bind,rejectIf_pos (not_not.mpr hscheme),ok_bind,hlast]
  rw [show orElseError (some last) (resumeError "committed prefix has no tape files")=.ok last from rfl,
    ok_bind,h.epoch,ok_bind,hrebuild]
  rw [show ∀ error, orElseError (some (snapshot.totalCommittedOrdinals-
    snapshot.highestProtectedOrdinal)) error=(.ok (snapshot.totalCommittedOrdinals-
    snapshot.highestProtectedOrdinal) : Except ParityError UInt64) from fun _ => rfl,ok_bind,
    rejectIf_pos (not_not.mpr h.within),ok_bind]
  rfl

theorem Accepted.plan_eq {last : UInt64} (hlast : summary.lastCommittedTapeFileNumber=some last)
    {map : FilemarkMap} (hmap : map.entries=mapRows rows) :
    planResumeAppendFromCommittedPrefixWithMode map snapshot.scheme .v1Committed=
      .ok (planBehind summary last) := by
  obtain ⟨tail,htail,hnumber⟩ : ∃ tail, state.tail=some tail ∧ tail.tapeFileNumber=last := by
    rw [h.summary_eq] at hlast
    exact Option.map_eq_some_iff.mp hlast
  have hfind : map.entries.find? isFinalizing=none := by
    rw [find?_eq_none,hmap]
    intro entry hentry hfinal
    rw [h.replayed.open_rows entry hentry] at hfinal
    cases hfinal
  have hgetLast : map.entries.getLast?=some tail := by rw [hmap,←h.replayed.tail,htail]
  have hposition : appendPositionAfterPrefix map.entries=.ok ⟨0,state.appendLba⟩ := by
    have hfold : (mapRows rows).foldlM addAppendPosition 0=.ok state.appendLba :=
      foldlM_addAppendPosition (by rw [h.replayed.lba]; exact zero_add _)
    rw [appendPositionAfterPrefix,hmap,hfold]
    rfl
  have htotal : UInt64.ofNat map.totalDataOrdinals=snapshot.totalCommittedOrdinals := by
    rw [map.totalDataOrdinals_eq,hmap,←h.replayed.total,UInt64.ofNat_toNat,h.total]
  have hmeasured : validateAndMeasureEpochRanges map.entries snapshot.totalCommittedOrdinals epochBlocks=
      .ok (snapshot.highestProtectedOrdinal,state.nextEpochId) := by
    rw [hmap,h.replayed.measured,h.watermark]
  have hnotless := UInt64.not_lt.mpr h.ordered
  -- less than one epoch is open, so the plan emits no sidecar
  have hfull : (snapshot.totalCommittedOrdinals-snapshot.highestProtectedOrdinal)/epochBlocks=0 := by
    apply UInt64.toNat_inj.mp
    rw [UInt64.toNat_div,(toNat_of_epochDataShards h.epoch).1]
    exact Nat.div_eq_of_lt h.within
  rw [planResumeAppendFromCommittedPrefixWithMode,h.scheme,ok_bind]
  dsimp only
  rw [hfind]
  rw [hgetLast,hposition,h.epoch,htotal]
  simp only [ok_bind,hmeasured,hfull]
  simp only [eq_ok]
  refine ⟨tail,rfl,(),hnotless,(),fun hbad => hbad.2 h.within,[],rfl,0,?_,
    snapshot.highestProtectedOrdinal,?_,(),h.coherent tail htail,state.nextEpochId,?_,?_⟩
  · exact checkedMul64_eq_some.mpr (by simp)
  · exact checkedAdd64_eq_some.mpr (by simp)
  · exact checkedAdd64_eq_some.mpr (by simp)
  · rw [planBehind,h.summary_eq,hnumber]

end

def intersects (w t : ℕ) (entry : TapeFileMapEntry) : Bool :=
  match entry.kind,entry.firstParityDataOrdinal with
  | .object,some first => max first.toNat w < min (first.toNat+entry.blockCount.toNat) t
  | _,_ => false

theorem filter_intersects {w t : ℕ} {map : FilemarkMap} (htotal : t=objectBlocks map.entries) :
    map.entries.filter (endsBehind w)=map.entries.filter (intersects w t) := by
  refine filter_congr fun entry hentry => ?_
  obtain ⟨i,hi⟩ := mem_iff_getElem?.mp hentry
  unfold endsBehind intersects
  cases hkind : entry.kind with
  | object =>
    cases hfirst : entry.firstParityDataOrdinal with
    | none => rfl
    | some first =>
      have hordinal := map.first_eq hi hfirst
      have hpositive : entry.blockCount.toNat≠0 := by
        intro hzero
        have hfields := (map.rowAccepted hi).fields
        rw [TapeFileMapEntry.validate,rejectIf_neg (UInt64.toNat_inj.mp hzero)] at hfields
        cases hfields
      have hsplit : objectBlocks (map.entries.take i)+entry.blockCount.toNat ≤
          objectBlocks map.entries := by
        have hsum := objectBlocks_append (map.entries.take (i+1)) (map.entries.drop (i+1))
        rw [take_append_drop,take_add_one,hi,Option.toList_some,objectBlocks_append,
          objectBlocks_singleton,if_pos hkind] at hsum
        omega
      rw [decide_eq_decide]
      omega
  | _ => rfl

def committedExtent (extent : ResumeOpenEpochObjectExtent) : CommittedExtent :=
  ⟨extent.tapeFileNumber,extent.firstParityDataOrdinal,extent.blockCount,extent.physicalStartLba⟩

theorem Accepted.covered {rows : List TapeFileEntry}
    (h : Accepted snapshot summary rows epochBlocks state) (last check : UInt64) :
    (summary.uncoveredRange (planBehind summary last) check).Covered ∧
      (summary.uncoveredRange (planBehind summary last) check).touching=
        summary.openEpochObjectExtents.map committedExtent := by
  let range := summary.uncoveredRange (planBehind summary last) check
  have hw : range.w=snapshot.highestProtectedOrdinal := by
    change summary.highestProtectedOrdinal=_
    rw [h.summary_eq]
  have ht : range.t=snapshot.totalCommittedOrdinals := by
    change summary.totalCommittedOrdinals=_
    rw [h.summary_eq]
  have hextents : range.extents=state.openEpochObjectExtents.map committedExtent := by
    change summary.openEpochObjectExtents.map _=_
    rw [h.summary_eq]
    rfl
  have hkept := h.replayed.kept
  have hend : max snapshot.highestProtectedOrdinal.toNat (objectBlocks (mapRows rows))=range.t.toNat := by
    rw [←h.replayed.total,h.total,ht]
    exact Nat.max_eq_right (UInt64.le_iff_toNat_le.mp h.ordered)
  have htiles := hkept.tiles
  rw [hend] at htiles
  have hstart : ∀ extent ∈ state.openEpochObjectExtents, range.start (committedExtent extent)=
      keptStart snapshot.highestProtectedOrdinal.toNat extent := by
    intro extent _
    rw [UncoveredRange.start,hw]
    rfl
  have hstop : ∀ extent ∈ state.openEpochObjectExtents,
      range.stop (committedExtent extent)=keptStop extent :=
    fun extent hextent => Nat.min_eq_left (htiles.mem hextent).2.2
  have htouching : range.touching=range.extents := by
    rw [UncoveredRange.touching,filter_eq_self,hextents]
    intro extent hextent
    obtain ⟨kept,hmem,rfl⟩ := mem_map.mp hextent
    rw [hstart kept hmem,hstop kept hmem]
    exact decide_eq_true (htiles.mem hmem).2.1
  refine ⟨⟨?_,?_,?_,?_⟩,?_⟩
  · rw [hextents,forall_mem_map]
    exact fun extent hextent => (hkept.fits extent hextent).1
  · rw [hextents,forall_mem_map]
    exact fun extent hextent => (hkept.fits extent hextent).2
  · rw [htouching,hextents]
    exact pairwise_map.mpr hkept.files
  · rw [htouching,hextents,hw]
    exact htiles.map hstart hstop
  · exact htouching

theorem Accepted.noRows (h : Accepted snapshot summary [] epochBlocks state) :
    summary.lastCommittedTapeFileNumber=none ∧ summary.openEpochObjectExtents=[] ∧
      summary.appendPlan snapshot.scheme=.error (resumeError "committed prefix has no tape files") := by
  have hlast : summary.lastCommittedTapeFileNumber=none := by
    rw [h.summary_eq]
    rw [h.replayed.tail]
    rfl
  have hscheme : snapshot.scheme=summary.scheme := by rw [h.summary_eq]
  refine ⟨hlast,?_,?_⟩
  · rw [h.summary_eq]
    exact map_eq_nil_iff.mp h.replayed.kept.rows_eq
  · rw [BoundedResumeSummary.appendPlan,h.scheme,ok_bind,rejectIf_pos (not_not.mpr hscheme),ok_bind,
      hlast]
    rfl

/-- The bounded pass agrees with the whole map: accepted rows form a filemark map, the plan of the
summary is the plan of that map, and the kept objects are those that share ordinals with the open
range, each at its position. Without rows there is no map and no plan. -/
theorem boundedSummary_eq_plan {snapshot : FrozenFileRows} {summary : BoundedResumeSummary}
    (h : checkedBoundedResumeSummary snapshot=.ok summary) :
    ∃ replay rows, snapshot.replay=.ok replay ∧ replay.entries=rows.map .ok ∧
      ((rows=[] ∧ summary.openEpochObjectExtents=[] ∧ summary.appendPlan snapshot.scheme=
          .error (resumeError "committed prefix has no tape files")) ∨
        ∃ map plan, FilemarkMap.new (mapRows rows)=.ok map ∧
          summary.appendPlan snapshot.scheme=.ok plan ∧
          planResumeAppendFromCommittedPrefixWithMode map snapshot.scheme .v1Committed=.ok plan ∧
          summary.openEpochObjectExtents.map ResumeOpenEpochObjectExtent.row=
            map.entries.filter (intersects snapshot.highestProtectedOrdinal.toNat
              snapshot.totalCommittedOrdinals.toNat) ∧
          (∀ extent ∈ summary.openEpochObjectExtents,
            map.physicalPosition ⟨extent.tapeFileNumber.toNat,0⟩=.ok extent.physicalStartLba.toNat) ∧
          ∀ check, rangeSpans snapshot.scheme (summary.uncoveredRange plan check)=
            .ok (summary.openEpochObjectExtents.map fun extent =>
              (summary.uncoveredRange plan check).span (committedExtent extent))) := by
  obtain ⟨rows,epochBlocks,state,haccepted⟩ := accepted_of_eq_ok h
  obtain ⟨replay,hreplay,hrows⟩ := haccepted.read
  refine ⟨replay,rows,hreplay,hrows,?_⟩
  by_cases hne : rows=[]
  · subst hne
    exact .inl ⟨rfl,haccepted.noRows.2⟩
  refine .inr ?_
  obtain ⟨map,hmap⟩ := FilemarkMap.exists_new_eq_ok.mpr (haccepted.mapRows_of_ne hne)
  have hentries := FilemarkMap.new_eq_ok.mp hmap
  have hkept := haccepted.replayed.kept
  have hextents : summary.openEpochObjectExtents=state.openEpochObjectExtents := by
    rw [haccepted.summary_eq]
  obtain ⟨last,hlast⟩ : ∃ last, summary.lastCommittedTapeFileNumber=some last := by
    obtain ⟨tail,htail⟩ : ∃ tail, (mapRows rows).getLast?=some tail :=
      Option.isSome_iff_exists.mp (getLast?_isSome.mpr (mt map_eq_nil_iff.mp hne))
    refine ⟨tail.tapeFileNumber,?_⟩
    rw [haccepted.summary_eq]
    exact congrArg (Option.map _) (haccepted.replayed.tail.trans htail)
  refine ⟨map,planBehind summary last,hmap,haccepted.appendPlan_eq hlast,
    haccepted.plan_eq hlast hentries,?_,?_,fun check => ?_⟩
  · rw [hextents,hkept.rows_eq,←hentries]
    refine filter_intersects ?_
    rw [hentries,←haccepted.replayed.total,haccepted.total]
  · rw [hextents]
    intro extent hextent
    obtain ⟨entry,hentry,hblocks,hlba⟩ := hkept.position extent hextent
    rw [←hentries] at hentry hlba
    have hpositive := (hkept.tiles.mem hextent).2.1
    rw [map.physicalPosition_eq_ok hentry (by
      rw [hblocks]
      unfold keptStart keptStop at hpositive
      omega),hlba]
    rfl
  · obtain ⟨hcovered,htouching⟩ := haccepted.covered last check
    rw [UncoveredRange.rangeSpans_of_covered hcovered,htouching,map_map]
    · rfl
    · change summary.totalCommittedOrdinals.toNat-summary.highestProtectedOrdinal.toNat ≤ _
      rw [haccepted.summary_eq,←UInt64.toNat_sub_of_le _ _ haccepted.ordered]
      exact le_of_lt haccepted.within

def smallRows : List TapeFileEntry :=
  [⟨0,.bootstrap,1,none,none,none,none,none,none,none,none⟩,
    ⟨1,.object,4,none,none,some 0,none,none,none,none,none⟩,
    ⟨2,.paritySidecar,5,none,none,none,some 0,some 0,some 2,some (.zero 32),none⟩,
    ⟨3,.object,1,none,none,some 4,none,none,none,none,none⟩]

def smallSnapshot (rows : List TapeFileEntry) (w t : UInt64) : FrozenFileRows where
  scheme := ⟨"small",2,1,2⟩
  committedEntryCount := UInt64.ofNat rows.length
  highestProtectedOrdinal := w
  totalCommittedOrdinals := t
  replay := .ok ⟨UInt64.ofNat rows.length,w,t,rows.map .ok⟩

/-- The pass over the small tape keeps both objects. -/
theorem boundedSummary_eq_plan_smallRows : ∃ summary,
    checkedBoundedResumeSummary (smallSnapshot smallRows 2 5)=.ok summary ∧
    summary.openEpochObjectExtents=[⟨1,0,4,2⟩,⟨3,4,1,13⟩] ∧
    ∃ map plan, FilemarkMap.new (mapRows smallRows)=.ok map ∧
      summary.appendPlan (smallSnapshot smallRows 2 5).scheme=.ok plan ∧
      planResumeAppendFromCommittedPrefixWithMode map (smallSnapshot smallRows 2 5).scheme
        .v1Committed=.ok plan := by
  obtain ⟨summary,hsummary,hextents⟩ : ∃ summary,
      checkedBoundedResumeSummary (smallSnapshot smallRows 2 5)=.ok summary ∧
      summary.openEpochObjectExtents=[⟨1,0,4,2⟩,⟨3,4,1,13⟩] := ⟨_,rfl,rfl⟩
  refine ⟨summary,hsummary,hextents,?_⟩
  obtain ⟨replay,rows,hreplay,hrows,hcases⟩ := boundedSummary_eq_plan hsummary
  cases hreplay
  have hsame := (map_injective_iff.mpr (fun _ _ => Except.ok.inj) hrows).symm
  subst hsame
  rcases hcases with ⟨hempty,-⟩ | ⟨map,plan,hmap,happend,hplan,-⟩
  · cases hempty
  · exact ⟨map,plan,hmap,happend,hplan⟩

/-- A fresh journal is accepted, and its rows form no map. -/
theorem freshSnapshot_noMap : ∃ summary,
    checkedBoundedResumeSummary (smallSnapshot [] 0 0)=.ok summary ∧
    ∀ map, FilemarkMap.new (mapRows [])≠.ok map := by
  refine ⟨_,rfl,fun map hmap => ?_⟩
  obtain ⟨⟨bot,hbot,-⟩,-⟩ := FilemarkMap.exists_new_eq_ok.mp ⟨map,hmap⟩
  cases hbot

end Remanence.Parity.Resume
