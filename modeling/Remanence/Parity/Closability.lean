import Remanence.Parity.CapacityLaw

/-!
# Histories of an admitted tape

A tape starts with its bootstrap and a successful close evaluation. Objects are admitted and
written in part or whole, and an epoch may be closed early. The close evaluation succeeds at
every commit boundary.
-/

namespace Remanence.Parity.Capacity

open Foundation Sidecar TerminalTripleCloseInput

/-- What stays fixed over the life of a tape. -/
structure CapacityProfile where
  scheme : ParityScheme
  blockSizeBytes : UInt32
  gapNominalBytes : UInt64
  safetyMarginBlocks : UInt64
  capacityBasisBlocks : UInt64
  lowWatermarkBlocks : UInt64
  highWatermarkBlocks : UInt64

structure TapePrefix where
  usedBlocks : ℕ
  epochFill : ℕ
  sidecars : ℕ
  structural : ℕ
  objects : ℕ
deriving Repr, DecidableEq

namespace CapacityProfile

def dataShards (profile : CapacityProfile) : ℕ := profile.scheme.stripes*profile.scheme.k

def parityShards (profile : CapacityProfile) : ℕ := profile.scheme.stripes*profile.scheme.m

def block (profile : CapacityProfile) : ℕ := profile.blockSizeBytes.toNat

def capacity (profile : CapacityProfile) : ℕ := profile.capacityBasisBlocks.toNat

/-- Evaluation of a prefix with an object, none if zero; a filemark is charged one block. -/
def input (profile : CapacityProfile) (tape : TapePrefix) (objectBlocks spool : ℕ) :
    TerminalTripleCloseInput where
  projectedObjectPresent := objectBlocks≠0
  projectedObjectBlocks := objectBlocks
  blockSizeBytes := profile.blockSizeBytes
  currentEpochFillBlocks := tape.epochFill
  dataShardsPerEpoch := profile.dataShards
  parityShardsPerEpoch := profile.parityShards
  pendingCompletedSidecars := 0
  sidecarEntriesBeforeObject := tape.sidecars
  structuralEntriesBeforeObject := tape.structural
  objectRowsBeforeObject := tape.objects
  objectFilemarkBlocks := 1
  sidecarFilemarkBlocks := 1
  parityMapFilemarkBlocks := 1
  replicaFilemarkBlocks := 1
  gapFilemarkBlocks := 1
  gapNominalBytes := profile.gapNominalBytes.toNat
  safetyMarginBlocks := profile.safetyMarginBlocks.toNat
  remainingTapeBlocks := profile.capacity-tape.usedBlocks
  capacityBasisBlocks := profile.capacity
  lowWatermarkBlocks := profile.lowWatermarkBlocks.toNat
  highWatermarkBlocks := profile.highWatermarkBlocks.toNat
  pendingCompletedEpochParityBytes := 0
  remainingSpoolBytes := spool

/-- A sidecar and its filemark: two index copies, the parity shards, the footer. -/
def sidecarFile (profile : CapacityProfile) (data : ℕ) : ℕ :=
  2*indexBlocks profile.block profile.parityShards data+profile.parityShards+1+1

def partialFile (profile : CapacityProfile) (fill : ℕ) : ℕ :=
  if fill=0 then 0 else profile.sidecarFile fill

def parityMapFile (profile : CapacityProfile) (sidecars : ℕ) : ℕ :=
  if sidecars=0 then 0 else parityMapBlocks profile.block sidecars+1

def replicaFile (profile : CapacityProfile) (structural objects : ℕ) : ℕ :=
  divCeil (replicaPayload ⟨structural,objects⟩) profile.block+2+1

def separationFile (profile : CapacityProfile) : ℕ :=
  divCeil profile.gapNominalBytes.toNat profile.block+1

def present (count : ℕ) : ℕ := if count=0 then 0 else 1

def closedSidecars (tape : TapePrefix) : ℕ := tape.sidecars+present tape.epochFill

def closedStructural (tape : TapePrefix) : ℕ :=
  tape.structural+present tape.epochFill+present (closedSidecars tape)

def closeCost (profile : CapacityProfile) (tape : TapePrefix) : ℕ :=
  profile.partialFile tape.epochFill+profile.parityMapFile (closedSidecars tape)+
    (3*profile.replicaFile (closedStructural tape) tape.objects+2*profile.separationFile)+
    profile.safetyMarginBlocks.toNat

/-- The prefix after an object, with a full sidecar for every epoch it completes. -/
def afterObject (profile : CapacityProfile) (tape : TapePrefix) (written : ℕ) : TapePrefix :=
  let fill := tape.epochFill+written
  let epochs := fill/profile.dataShards
  ⟨tape.usedBlocks+(written+1)+epochs*profile.sidecarFile profile.dataShards,
    fill%profile.dataShards,tape.sidecars+epochs,tape.structural+1+epochs,tape.objects+1⟩

def afterEarlyClose (profile : CapacityProfile) (tape : TapePrefix) : TapePrefix :=
  ⟨tape.usedBlocks+profile.sidecarFile tape.epochFill,0,tape.sidecars+1,tape.structural+1,
    tape.objects⟩

inductive Step (profile : CapacityProfile) : TapePrefix → TapePrefix → Prop where
  | object {tape : TapePrefix} {projected written spool : ℕ}
    {reservation : TerminalTripleObjectReservation}
    (admitted : (profile.input tape projected spool).reserveObject=.ok reservation)
    (positive : 1 ≤ written) (bounded : written ≤ projected) :
    Step profile tape (profile.afterObject tape written)
  | earlyClose {tape : TapePrefix} (filled : tape.epochFill≠0) :
    Step profile tape (profile.afterEarlyClose tape)

def afterBootstrap (bootstrapBlocks : ℕ) : TapePrefix := ⟨bootstrapBlocks+1,0,0,1,0⟩

section Growth

variable {profile : CapacityProfile}

theorem parityMapFile_mono {a b : ℕ} (h : a ≤ b) :
    profile.parityMapFile a ≤ profile.parityMapFile b := by
  unfold parityMapFile
  by_cases ha : a=0
  · rw [if_pos ha]
    exact Nat.zero_le _
  · rw [if_neg ha,if_neg (by omega)]
    have hpayload : 200+parityMapPayload a ≤ 200+parityMapPayload b := by
      unfold parityMapPayload
      omega
    have := @divCeil_mono _ _ profile.block hpayload
    unfold parityMapBlocks
    omega

theorem replicaFile_mono {a b objects : ℕ} (h : a ≤ b) :
    profile.replicaFile a objects ≤ profile.replicaFile b objects := by
  have hpayload : replicaPayload ⟨a,objects⟩ ≤ replicaPayload ⟨b,objects⟩ := by
    change a*64+objects*256 ≤ b*64+objects*256
    omega
  have := @divCeil_mono _ _ profile.block hpayload
  unfold replicaFile
  omega

theorem block_bounds (h : profile.blockSizeBytes ∈ terminalIndexBlockSizes) :
    256 ≤ profile.block ∧ profile.block < 2^32 := by
  have hall : ∀ size ∈ terminalIndexBlockSizes, 256 ≤ size.toNat := by simp [terminalIndexBlockSizes]
  exact ⟨hall _ h,profile.blockSizeBytes.toNat_lt⟩

theorem block_le (h : profile.blockSizeBytes ∈ terminalIndexBlockSizes) : profile.block ≤ 2^20 := by
  have hall : ∀ size ∈ terminalIndexBlockSizes, size.toNat ≤ 2^20 := by simp [terminalIndexBlockSizes]
  exact hall _ h

/-- Numbers of a profile whose sidecars are computed. -/
structure Shaped (profile : CapacityProfile) : Prop where
  sizes : profile.blockSizeBytes ∈ terminalIndexBlockSizes
  parity_pos : 0 < profile.parityShards
  data_pos : 0 < profile.dataShards
  small : profile.dataShards+profile.parityShards ≤ u32Max

def charge (profile : CapacityProfile) (tape : TapePrefix) (written : ℕ) : ℕ :=
  (profile.afterObject tape written).usedBlocks+
    profile.closeCost (profile.afterObject tape written)

theorem afterObject_eq {tape : TapePrefix} {written e r : ℕ}
    (hx : tape.epochFill+written=profile.dataShards*e+r) (hr : r < profile.dataShards) :
    profile.afterObject tape written=
      ⟨tape.usedBlocks+(written+1)+e*profile.sidecarFile profile.dataShards,r,tape.sidecars+e,
        tape.structural+1+e,tape.objects+1⟩ := by
  have hquotient : (tape.epochFill+written)/profile.dataShards=e := by
    rw [hx,Nat.mul_add_div (by omega),Nat.div_eq_of_lt hr,add_zero]
  have hremainder : (tape.epochFill+written)%profile.dataShards=r := by
    rw [hx,Nat.mul_add_mod,Nat.mod_eq_of_lt hr]
  simp only [afterObject,hquotient,hremainder]

theorem present_mono {a b : ℕ} (h : a ≤ b) : present a ≤ present b := by
  unfold present
  split_ifs <;> omega

theorem charge_le {tape : TapePrefix} {a b e r e' r' : ℕ} (hab : a ≤ b)
    (ha : tape.epochFill+a=profile.dataShards*e+r) (hr : r < profile.dataShards)
    (hb : tape.epochFill+b=profile.dataShards*e'+r') (hr' : r' < profile.dataShards)
    (hfiles : e*profile.sidecarFile profile.dataShards+profile.partialFile r ≤
      e'*profile.sidecarFile profile.dataShards+profile.partialFile r')
    (hrows : e+present r ≤ e'+present r') : profile.charge tape a ≤ profile.charge tape b := by
  have hsidecars : tape.sidecars+e+present r ≤ tape.sidecars+e'+present r' := by omega
  have hpresent := present_mono hsidecars
  have hmap := @parityMapFile_mono profile _ _ hsidecars
  have hreplica := @replicaFile_mono profile _ _ (tape.objects+1)
    (show tape.structural+1+e+present r+present (tape.sidecars+e+present r) ≤
      tape.structural+1+e'+present r'+present (tape.sidecars+e'+present r') by omega)
  simp only [charge,afterObject_eq ha hr,afterObject_eq hb hr',closeCost,closedStructural,
    closedSidecars]
  omega

namespace Shaped

variable (h : profile.Shaped)
include h

theorem sidecarFile_mono {a b : ℕ} (hab : a ≤ b) (hb : b ≤ profile.dataShards) :
    profile.sidecarFile a ≤ profile.sidecarFile b := by
  obtain ⟨hlo,hhi⟩ := block_bounds h.sizes
  have hsmall := h.small
  have := indexBlocks_mono hlo hhi h.parity_pos (by omega) hab (by omega)
  unfold sidecarFile
  omega

theorem index_bounds {a : ℕ} (ha : a ≤ profile.dataShards) :
    1 ≤ indexBlocks profile.block profile.parityShards a ∧
      indexBlocks profile.block profile.parityShards a ≤ 1+profile.parityShards+a := by
  obtain ⟨hlo,hhi⟩ := block_bounds h.sizes
  have hsmall := h.small
  exact indexBlocks_bounds hlo hhi h.parity_pos (by omega) (by omega)

theorem le_sidecarFile {a : ℕ} (ha : a ≤ profile.dataShards) :
    profile.parityShards+4 ≤ profile.sidecarFile a := by
  have := h.index_bounds ha
  unfold sidecarFile
  omega

/-- One more block never lowers the charge: at the end of an epoch a full sidecar takes the place of
the partial one. -/
theorem charge_succ (tape : TapePrefix) (written : ℕ) :
    profile.charge tape written ≤ profile.charge tape (written+1) := by
  have hr := Nat.mod_lt (tape.epochFill+written) h.data_pos
  have hx := Nat.div_add_mod (tape.epochFill+written) profile.dataShards
  generalize (tape.epochFill+written)/profile.dataShards=e at hx
  generalize (tape.epochFill+written)%profile.dataShards=r at hx hr
  by_cases hlast : r+1=profile.dataShards
  · refine charge_le (Nat.le_succ _) hx.symm hr
      (show _=profile.dataShards*(e+1)+0 by rw [mul_add]; omega) h.data_pos ?_ ?_
    · rw [Nat.succ_mul,add_assoc]
      refine Nat.add_le_add_left (Nat.le_trans ?_ (Nat.le_add_right _ _)) _
      unfold partialFile
      split
      · exact Nat.zero_le _
      · exact h.sidecarFile_mono hr.le le_rfl
    · unfold present
      split_ifs <;> omega
  · refine charge_le (Nat.le_succ _) hx.symm hr (show _=profile.dataShards*e+(r+1) by omega) (by omega)
      (Nat.add_le_add_left ?_ _) ?_
    · unfold partialFile
      split
      · exact Nat.zero_le _
      · exact h.sidecarFile_mono (Nat.le_succ r) (by omega)
    · exact Nat.add_le_add_left (present_mono (Nat.le_succ r)) e

theorem charge_mono (tape : TapePrefix) : Monotone (profile.charge tape) :=
  monotone_nat_of_le_succ (h.charge_succ tape)

end Shaped

end Growth

section Evaluation

variable {profile : CapacityProfile} {tape : TapePrefix} {objectBlocks spool : ℕ}

structure Checked (profile : CapacityProfile) (tape : TapePrefix) : Prop where
  watermarks : profile.lowWatermarkBlocks.toNat < profile.highWatermarkBlocks.toNat
  band : profile.highWatermarkBlocks.toNat ≤ profile.capacity
  sizes : profile.blockSizeBytes ∈ terminalIndexBlockSizes
  separation : profile.gapNominalBytes.toNat=defaultIndexSeparationBytes
  data_pos : 0 < profile.dataShards
  small : profile.dataShards+profile.parityShards ≤ u32Max
  fill_lt : tape.epochFill < profile.dataShards
  rows : tape.objects+tape.sidecars ≤ tape.structural
  files : tape.structural ≤ profile.capacity
  bootstrap : tape.structural≠0

theorem parityEnabled_input (hparity : profile.parityShards≠0) :
    (profile.input tape objectBlocks spool).parityEnabled=true := by
  simpa [parityEnabled,input] using hparity

theorem checkPrefix_eq_ok (hparity : profile.parityShards≠0) :
    (profile.input tape objectBlocks spool).checkPrefix=.ok () ↔ Checked profile tape := by
  have hcapacity : profile.capacity < 2^64 := profile.capacityBasisBlocks.toNat_lt
  simp only [checkPrefix,eq_ok,checkedAdd_eq_ok,
    parityEnabled_input hparity,mapError_eq_ok,not_not,not_or,Nat.not_lt,Nat.not_le,Bool.true_eq_false,false_and,
    not_false_eq_true,true_and,exists_const]
  simp only [input]
  constructor
  · rintro ⟨-,⟨hwatermarks,hband⟩,_,hlayout,-,hgap,hdata,_,⟨-,rfl⟩,hsmall,hfill,-,-,_,⟨-,rfl⟩,hrows,
      hfiles,hbootstrap⟩
    exact ⟨hwatermarks,hband,(replicaLayout_eq_ok hlayout).1,hgap,Nat.pos_of_ne_zero hdata,hsmall,
      hfill,hrows,hfiles,hbootstrap⟩
  · intro h
    have hrows := h.rows
    have hfiles := h.files
    have hsmall := h.small
    have hblock := (block_bounds h.sizes).1
    obtain ⟨layout,hlayout⟩ := @replicaLayout_total _ ⟨0,0⟩ h.sizes
      (show 2 ≤ profile.block by omega) le_rfl (by decide)
    refine ⟨Nat.sub_le _ _,⟨h.watermarks,h.band⟩,layout,hlayout,rfl,h.separation,
      h.data_pos.ne',_,⟨?_,rfl⟩,hsmall,h.fill_lt,by omega,by omega,_,⟨?_,rfl⟩,hrows,hfiles,
      h.bootstrap⟩
    · unfold u32Max at hsmall
      unfold u64Max
      omega
    · unfold u64Max
      omega

theorem Checked.shaped (h : Checked profile tape) (hparity : profile.parityShards≠0) :
    profile.Shaped := ⟨h.sizes,Nat.pos_of_ne_zero hparity,h.data_pos,h.small⟩

theorem sidecarBlocks_eq (h : profile.Shaped) {data : ℕ} (hdata : data ≤ profile.dataShards) :
    ∃ layout, (profile.input tape objectBlocks spool).sidecarIndex data=.ok layout ∧
      (profile.input tape objectBlocks spool).sidecarBlocks layout.blockCount=
        .ok (2*indexBlocks profile.block profile.parityShards data+profile.parityShards+1) ∧
      2*indexBlocks profile.block profile.parityShards data+profile.parityShards+1+1 ≤ u64Max ∧
      layout.blockCount=indexBlocks profile.block profile.parityShards data := by
  obtain ⟨hlo,hhi⟩ := block_bounds h.sizes
  have hsmall := h.small
  obtain ⟨layout,hlayout,hblocks⟩ := @layout_indexBlocks profile.block profile.parityShards hlo hhi
    h.parity_pos (by omega) data (by omega)
  have hbounds := h.index_bounds hdata
  have hfits : 2*indexBlocks profile.block profile.parityShards data+profile.parityShards+1+1 ≤
      u64Max := by
    unfold u32Max at hsmall
    unfold u64Max
    omega
  refine ⟨layout,hlayout,?_,hfits,hblocks⟩
  simp only [sidecarBlocks,bind_eq_ok,checkedMul_eq_ok,checkedAdd_eq_ok,
    hblocks]
  exact ⟨_,⟨by omega,rfl⟩,_,⟨show _+profile.parityShards ≤ _ by omega,rfl⟩,
    show _+profile.parityShards+1 ≤ _ by omega,rfl⟩

theorem fullSidecar_eq (h : profile.Shaped) : (profile.input tape objectBlocks spool).fullSidecar=
      .ok (indexBlocks profile.block profile.parityShards profile.dataShards,
        2*indexBlocks profile.block profile.parityShards profile.dataShards+profile.parityShards+1,
        profile.sidecarFile profile.dataShards) := by
  obtain ⟨layout,hlayout,hblocks,hfits,hcount⟩ := @sidecarBlocks_eq profile tape objectBlocks
    spool h _ le_rfl
  rw [fullSidecar,if_pos (parityEnabled_input h.parity_pos.ne')]
  change ((profile.input tape objectBlocks spool).sidecarIndex profile.dataShards >>= _)=_
  rw [hlayout,ok_bind,hblocks,ok_bind,checkedAdd_of_le
    (show _+(profile.input tape objectBlocks spool).sidecarFilemarkBlocks ≤ _ from hfits),hcount]
  rfl

theorem finalPartialSidecar_eq (h : profile.Shaped) {fill : ℕ} (hfill : fill < profile.dataShards) :
    (profile.input tape objectBlocks spool).finalPartialSidecar fill=
      .ok (profile.partialFile fill) := by
  unfold finalPartialSidecar partialFile
  split
  · rfl
  · obtain ⟨layout,hlayout,hblocks,hfits,-⟩ := @sidecarBlocks_eq profile tape objectBlocks spool
      h fill hfill.le
    rw [hlayout,ok_bind,hblocks,ok_bind]
    exact checkedAdd_of_le hfits

theorem finalParityMap_value {sidecars : ℕ} {map : Option ParityMapCapacityLayout}
    (h : (profile.input tape objectBlocks spool).finalParityMap sidecars=.ok map) :
    (map.map (·.tapeFileBlocks)).getD 0=profile.parityMapFile sidecars := by
  unfold finalParityMap at h
  unfold parityMapFile
  split at h
  · rename_i hnone
    cases h
    exact (if_pos hnone).symm
  · rename_i hsome
    obtain ⟨layout,hlayout,rfl⟩ := map_eq_ok.mp h
    rw [if_neg hsome]
    exact parityMapLayout_eq_ok hlayout

theorem finalParityMap_total (h : profile.Shaped) {sidecars : ℕ}
    (hpayload : parityMapPayload sidecars ≤ u64Max) :
    ∃ map, (profile.input tape objectBlocks spool).finalParityMap sidecars=.ok map := by
  unfold finalParityMap
  split
  · exact ⟨none,rfl⟩
  · obtain ⟨layout,hlayout⟩ := parityMapLayout_total (block_bounds h.sizes).1 hpayload le_rfl
    exact ⟨some layout,map_eq_ok.mpr ⟨layout,hlayout,rfl⟩⟩

theorem replicas_value {counts : TapeIndexReplicaCounts} {layout : TapeIndexReplicaLayout}
    {file triple : ℕ}
    (h : (profile.input tape objectBlocks spool).replicas counts=.ok (layout,file,triple)) :
    replicaPayload counts ≤ u64Max ∧
      triple=3*profile.replicaFile counts.structuralEntryCount counts.objectRowCount := by
  simp only [replicas,eq_ok,mapError_eq_ok,checkedAdd_eq_ok,
    checkedMul_eq_ok,Prod.mk.injEq] at h
  obtain ⟨_,hlayout,_,⟨-,rfl⟩,_,⟨-,rfl⟩,rfl,rfl,rfl⟩ := h
  obtain ⟨-,-,hpayload,hrecords⟩ := replicaLayout_eq_ok hlayout
  exact ⟨hpayload,by rw [hrecords]; rfl⟩

theorem replicas_total (h : profile.Shaped) {counts : TapeIndexReplicaCounts}
    (hrows : counts.objectRowCount ≤ counts.structuralEntryCount)
    (hpayload : replicaPayload counts ≤ u64Max)
    (hfits : 3*profile.replicaFile counts.structuralEntryCount counts.objectRowCount ≤ u64Max) :
    ∃ layout file, (profile.input tape objectBlocks spool).replicas counts=
      .ok (layout,file,3*profile.replicaFile counts.structuralEntryCount counts.objectRowCount) := by
  have hblock := (block_bounds h.sizes).1
  obtain ⟨layout,hlayout⟩ := replicaLayout_total h.sizes (show 2 ≤ profile.block by omega) hrows
    hpayload
  have hrecords : layout.replicaRecordCount+1=
      profile.replicaFile counts.structuralEntryCount counts.objectRowCount := by
    rw [(replicaLayout_eq_ok hlayout).2.2.2]
    rfl
  refine ⟨layout,layout.replicaRecordCount+1,?_⟩
  simp (disch := omega) only [replicas,input,hlayout,Except.mapError,ok_bind,
    checkedAdd_of_le,checkedMul_of_le,hrecords]
  rfl

theorem separations_value {records file double : ℕ}
    (h : (profile.input tape objectBlocks spool).separations=.ok (records,file,double)) :
    double=2*profile.separationFile := by
  simp only [separations,indexSeparationRecords,eq_ok,
    mapError_eq_ok,checkedAdd_eq_ok,checkedMul_eq_ok,
    Prod.mk.injEq] at h
  obtain ⟨_,⟨_,-,_,-,rfl⟩,_,⟨-,rfl⟩,_,⟨-,rfl⟩,rfl,rfl,rfl⟩ := h
  rfl

def maximumSidecars (profile : CapacityProfile) : ℕ := profile.capacity/(profile.parityShards+3+1)

theorem validate_value (h : profile.Shaped) {full maximum : ℕ}
    (hvalid : (profile.input tape objectBlocks spool).validateCapacityDerivedProfileBounds full=
      .ok maximum) :
    maximum=profile.maximumSidecars ∧ parityMapPayload profile.maximumSidecars ≤ u64Max ∧
      replicaPayload ⟨profile.capacity,profile.capacity⟩ ≤ u64Max ∧
      ∃ separation, (profile.input tape objectBlocks spool).separations=.ok separation := by
  simp only [validateCapacityDerivedProfileBounds,eq_ok,Prod.exists,
    exists_const] at hvalid
  obtain ⟨-,-,maximum',mapBlocks,hmap,layout,file,triple,hreplicas,records,gap,double,hgap,_,-,-,
    rfl⟩ := hvalid
  rw [maximumParityMap,
    if_pos (parityEnabled_input h.parity_pos.ne')] at hmap
  simp only [eq_ok,checkedAdd_eq_ok,parityMapPayload_eq_ok,Prod.mk.injEq] at hmap
  obtain ⟨_,⟨-,rfl⟩,_,⟨-,rfl⟩,_,-,_,⟨hpayload,rfl⟩,_,-,_,-,rfl,-⟩ := hmap
  exact ⟨rfl,hpayload,(replicas_value hreplicas).1,_,hgap⟩

theorem closeRows_value {sidecars remainder maximum : ℕ} {rows : TerminalTripleCloseInput.CloseRows}
    (h : (profile.input tape objectBlocks spool).closeRows sidecars remainder maximum=.ok rows) :
    rows.objectRows=tape.objects+present objectBlocks ∧
      rows.sidecarEntries=tape.sidecars+sidecars+present remainder ∧
      rows.structuralEntries=tape.structural+present objectBlocks+sidecars+
        present remainder+present rows.sidecarEntries := by
  simp only [closeRows,eq_ok,checkedAdd_eq_ok] at h
  obtain ⟨_,⟨-,rfl⟩,_,⟨-,rfl⟩,_,⟨-,rfl⟩,_,-,_,-,_,-,_,⟨-,rfl⟩,_,⟨-,rfl⟩,_,⟨-,rfl⟩,_,⟨-,rfl⟩,rfl⟩ := h
  simp only [present,input,ne_eq,decide_not,Bool.not_eq_true',decide_eq_false_iff_not,ite_not,
    and_self]

theorem projectEpochs_eq_ok (hparity : profile.parityShards≠0) {epochs remainder : ℕ} :
    (profile.input tape objectBlocks spool).projectEpochs=.ok (epochs,remainder) ↔
      tape.epochFill+objectBlocks ≤ u64Max ∧
        epochs=(tape.epochFill+objectBlocks)/profile.dataShards ∧
        remainder=(tape.epochFill+objectBlocks)%profile.dataShards := by
  rw [projectEpochs,if_pos (parityEnabled_input hparity)]
  simp only [eq_ok,checkedAdd_eq_ok,Prod.mk.injEq]
  constructor
  · rintro ⟨_,⟨hle,rfl⟩,rfl,rfl⟩
    exact ⟨hle,rfl,rfl⟩
  · rintro ⟨hle,rfl,rfl⟩
    exact ⟨_,⟨hle,rfl⟩,rfl,rfl⟩

theorem commitCharge_value {epochs file sidecars sidecarCharge object commit : ℕ}
    (h : (profile.input tape objectBlocks spool).commitCharge epochs file=
      .ok (sidecars,sidecarCharge,object,commit)) :
    sidecars=epochs ∧ commit=(if objectBlocks=0 then 0 else objectBlocks+1)+epochs*file := by
  simp only [commitCharge,eq_ok,checkedAdd_eq_ok,checkedMul_eq_ok,Prod.mk.injEq] at h
  obtain ⟨_,⟨-,rfl⟩,_,⟨-,rfl⟩,_,hobject,_,⟨-,rfl⟩,rfl,rfl,rfl,rfl⟩ := h
  have hzero : (profile.input tape objectBlocks spool).pendingCompletedSidecars+epochs=epochs :=
    zero_add epochs
  rw [hzero]
  refine ⟨rfl,congrArg (·+epochs*file) ?_⟩
  by_cases hnone : objectBlocks=0
  · rw [if_pos hnone]
    rw [if_neg (show ¬(profile.input tape objectBlocks spool).projectedObjectPresent=true by
      simp [input,hnone])] at hobject
    exact (pure_eq_ok.mp hobject).symm
  · rw [if_neg hnone]
    rw [if_pos (show (profile.input tape objectBlocks spool).projectedObjectPresent=true by
      simpa [input] using hnone)] at hobject
    exact (checkedAdd_eq_ok.mp hobject).2

variable {report : TerminalTripleCloseReport}

/-- The profile is valid, and the projected commit and close fit what remains of the tape. -/
theorem evaluate_value (hparity : profile.parityShards≠0)
    (h : (profile.input tape objectBlocks spool).evaluate=.ok report) :
    Checked profile tape ∧
      (∃ maximum, (profile.input tape objectBlocks spool).validateCapacityDerivedProfileBounds
        (profile.sidecarFile profile.dataShards)=.ok maximum) ∧
      let epochs := (tape.epochFill+objectBlocks)/profile.dataShards
      let remainder := (tape.epochFill+objectBlocks)%profile.dataShards
      let sidecars := tape.sidecars+epochs+present remainder
      let structural := tape.structural+present objectBlocks+epochs+present remainder+
        present sidecars
      (if objectBlocks=0 then 0 else objectBlocks+1)+epochs*profile.sidecarFile profile.dataShards+
        (profile.partialFile remainder+profile.parityMapFile sidecars+
          (3*profile.replicaFile structural (tape.objects+present objectBlocks)+
            2*profile.separationFile)+profile.safetyMarginBlocks.toNat) ≤
        profile.capacity-tape.usedBlocks := by
  rw [evaluate,bind_eq_ok] at h
  obtain ⟨_,hstart,h⟩ := h
  have hchecked := (checkPrefix_eq_ok hparity).mp hstart
  have hshaped := hchecked.shaped hparity
  rw [fullSidecar_eq hshaped,ok_bind] at h
  simp only [eq_ok,mapError_eq_ok,checkedAdd_eq_ok,Prod.exists,exists_const, Nat.not_lt] at h
  obtain ⟨maximum,hvalid,epochs,remainder,hepochs,sidecars,sidecarCharge,object,commit,hcommit,rows,
    hrows,map,hmap,partialBlocks,hremainder,layout,file,triple,hreplicas,records,gap,double,hgap,
    parityCloseout,⟨-,rfl⟩,tail,⟨-,rfl⟩,closeBound,hclose,required,⟨-,rfl⟩,-,hfits,-⟩ := h
  refine ⟨hchecked,⟨maximum,hvalid⟩,?_⟩
  obtain ⟨-,rfl,rfl⟩ := (projectEpochs_eq_ok hparity).mp hepochs
  obtain ⟨rfl,rfl⟩ := commitCharge_value hcommit
  obtain ⟨hobjects,hsidecars,hstructural⟩ := closeRows_value hrows
  rw [finalPartialSidecar_eq hshaped (Nat.mod_lt _ hshaped.data_pos),Except.ok.injEq] at hremainder
  rw [checkedSum_three,←hremainder,finalParityMap_value hmap,(replicas_value hreplicas).2,
    separations_value hgap,hobjects,hstructural,hsidecars] at hclose
  rwa [hclose.2] at hfits

structure Sound (profile : CapacityProfile) : Prop where
  shaped : profile.Shaped
  watermarks : profile.lowWatermarkBlocks.toNat < profile.highWatermarkBlocks.toNat
  band : profile.highWatermarkBlocks.toNat ≤ profile.capacity
  separation : profile.gapNominalBytes.toNat=defaultIndexSeparationBytes
  valid : ∃ tape objectBlocks spool maximum,
    (profile.input tape objectBlocks spool).validateCapacityDerivedProfileBounds
      (profile.sidecarFile profile.dataShards)=.ok maximum

/-- What a commit boundary keeps: the tape holds its files and has room for
the close. -/
structure Closable (profile : CapacityProfile) (tape : TapePrefix) : Prop where
  fill_lt : tape.epochFill < profile.dataShards
  rows : tape.structural=1+tape.objects+tape.sidecars
  files : 1+tape.objects+tape.sidecars*(profile.parityShards+4) ≤ tape.usedBlocks
  fits : tape.usedBlocks+profile.closeCost tape ≤ profile.capacity

theorem Closable.counts (hshaped : profile.Shaped) (h : Closable profile tape) :
    closedSidecars tape ≤ profile.maximumSidecars ∧ closedStructural tape ≤ profile.capacity := by
  have hfits := h.fits
  have hfiles := h.files
  have hrows := h.rows
  have hremainder : (profile.parityShards+4)*present tape.epochFill ≤
      profile.partialFile tape.epochFill := by
    unfold present partialFile
    split
    · omega
    · rw [mul_one]
      exact hshaped.le_sidecarFile h.fill_lt.le
  have hmap : present (closedSidecars tape) ≤ profile.parityMapFile (closedSidecars tape) := by
    unfold present parityMapFile
    split <;> omega
  unfold closeCost at hfits
  constructor
  · rw [maximumSidecars,Nat.le_div_iff_mul_le (by omega)]
    unfold closedSidecars
    rw [mul_comm,mul_add,mul_comm _ tape.sidecars]
    change tape.sidecars*(profile.parityShards+4)+(profile.parityShards+4)*_ ≤ _
    omega
  · have hsidecars : tape.sidecars ≤ tape.sidecars*(profile.parityShards+4) :=
      Nat.le_mul_of_pos_right _ (by omega)
    have hone : present tape.epochFill ≤ (profile.parityShards+4)*present tape.epochFill :=
      Nat.le_mul_of_pos_left _ (by omega)
    unfold closedStructural
    omega

theorem commitCharge_zero (file : ℕ) :
    (profile.input tape 0 spool).commitCharge 0 file=.ok (0,0,0,0) := by
  have hsidecars : checkedMul 0 file=.ok 0 := by
    rw [checkedMul,zero_mul]
    rfl
  change (checkedMul 0 file >>= _)=_
  rw [hsidecars]
  rfl

theorem closeRows_total {maximum : ℕ} (hmaximum : tape.sidecars ≤ maximum)
    (hpayload : parityMapPayload (closedSidecars tape) ≤ u64Max)
    (hstructural : closedStructural tape ≤ u64Max) (hobjects : tape.objects ≤ tape.structural)
    (hsidecars : closedSidecars tape ≤ u64Max) :
    (profile.input tape 0 spool).closeRows 0 tape.epochFill maximum=
      .ok ⟨tape.objects,closedSidecars tape,closedStructural tape⟩ := by
  obtain ⟨bytes,hdirectory⟩ := directoryBound_total hpayload
  have hmap := parityMapPayload_eq_ok.mpr ⟨hpayload,rfl⟩
  unfold closedStructural closedSidecars present at *
  simp (disch := omega) only [closeRows,input,checkedAdd_of_le,hdirectory,
    hmap,rejectIf_pos,ok_bind,add_zero,ne_eq,not_true_eq_false,decide_false,Bool.false_eq_true,if_false]
  rfl

theorem requiredSpool_zero (hshaped : profile.Shaped) :
    (profile.input tape 0 spool).requiredSpool 0 (2*indexBlocks profile.block profile.parityShards
      profile.dataShards+profile.parityShards+1)=.ok 0 := by
  have hsmall := hshaped.small
  have hbounds := hshaped.index_bounds le_rfl
  have hbytes : (2*indexBlocks profile.block profile.parityShards profile.dataShards+
      profile.parityShards+1)*profile.block ≤ u64Max := by
    calc _ ≤ 2^34*2^20 := by
          refine Nat.mul_le_mul ?_ (block_le hshaped.sizes)
          unfold u32Max at hsmall
          omega
      _ ≤ u64Max := by decide
  rw [requiredSpool,if_pos (parityEnabled_input hshaped.parity_pos.ne')]
  simp only [bind_eq_ok,checkedMul_eq_ok,checkedAdd_eq_ok,Nat.zero_mul]
  exact ⟨_,⟨hbytes,rfl⟩,0,⟨Nat.zero_le _,rfl⟩,Nat.zero_le _,rfl⟩

theorem evaluate_total (hsound : Sound profile) (h : Closable profile tape) (spool : ℕ) :
    ∃ report, (profile.input tape 0 spool).evaluate=.ok report := by
  have hshaped := hsound.shaped
  have hparity := hshaped.parity_pos.ne'
  have hcapacity : profile.capacity ≤ u64Max := by
    have : profile.capacity < 2^64 := profile.capacityBasisBlocks.toNat_lt
    unfold u64Max
    omega
  have hfits := h.fits
  obtain ⟨hsidecars,hstructural⟩ := h.counts hshaped
  obtain ⟨tape₀,object₀,spool₀,maximum,hvalid⟩ := hsound.valid
  change (profile.input tape 0 spool).validateCapacityDerivedProfileBounds _=_ at hvalid
  obtain ⟨rfl,hmapPayload,hreplicaPayload,⟨records,gap,double⟩,hgap⟩ := validate_value hshaped hvalid
  have hchecked : Checked profile tape := by
    have hrows := h.rows
    have hstart : tape.structural ≤ closedStructural tape := by
      unfold closedStructural
      omega
    exact ⟨hsound.watermarks,hsound.band,hshaped.sizes,hsound.separation,hshaped.data_pos,
      hshaped.small,h.fill_lt,by omega,by omega,by omega⟩
  have hpayload : parityMapPayload (closedSidecars tape) ≤ u64Max := by
    unfold parityMapPayload at *
    omega
  have hrowsPayload : replicaPayload ⟨closedStructural tape,tape.objects⟩ ≤ u64Max := by
    have hobjects := hchecked.rows
    have hfiles := hchecked.files
    change closedStructural tape*64+tape.objects*256 ≤ u64Max
    change profile.capacity*64+profile.capacity*256 ≤ u64Max at hreplicaPayload
    omega
  have hstart : tape.sidecars ≤ closedSidecars tape := Nat.le_add_right _ _
  have hstructuralStart : tape.structural ≤ closedStructural tape :=
    (Nat.le_add_right _ _).trans (Nat.le_add_right _ _)
  have hmaximum : profile.maximumSidecars ≤ profile.capacity := Nat.div_le_self _ _
  have hobjects := hchecked.rows
  have hcost : profile.closeCost tape ≤ u64Max := by omega
  have hclose := checkedSum_three.mpr ⟨hcost,rfl⟩
  unfold closeCost at hcost hfits
  obtain ⟨map,hmap⟩ := @finalParityMap_total profile tape 0 spool hshaped _ hpayload
  obtain ⟨layout,file,hreplicas⟩ := @replicas_total profile tape 0 spool hshaped
    ⟨closedStructural tape,tape.objects⟩ (by change tape.objects ≤ closedStructural tape; omega)
    hrowsPayload (show 3*profile.replicaFile (closedStructural tape) tape.objects ≤ u64Max by omega)
  have hepochs := (@projectEpochs_eq_ok profile tape 0 spool hparity 0 tape.epochFill).mpr
    ⟨by have := h.fill_lt; have := hshaped.small; unfold u32Max at this; unfold u64Max; omega,
      (Nat.div_eq_of_lt h.fill_lt).symm,(Nat.mod_eq_of_lt h.fill_lt).symm⟩
  have hrows := @closeRows_total profile tape spool profile.maximumSidecars (by omega) hpayload
    (by omega) (by omega) (by omega)
  have hmapped : ∀ f : ParityError → ParityError,
      ((profile.input tape 0 spool).validateCapacityDerivedProfileBounds
        (profile.sidecarFile profile.dataShards)).mapError f=.ok profile.maximumSidecars := fun _ => by
    rw [hvalid]
    rfl
  rw [evaluate,(checkPrefix_eq_ok hparity).mpr hchecked,ok_bind,
    fullSidecar_eq hshaped,ok_bind]
  simp (disch := omega) only [hmapped,hepochs,ok_bind,commitCharge_zero,hrows,hmap,
    finalPartialSidecar_eq hshaped h.fill_lt,hreplicas,hgap,finalParityMap_value hmap,
    separations_value hgap,requiredSpool_zero hshaped,checkedAdd_of_le,
    show (profile.input tape 0 spool).safetyMarginBlocks=profile.safetyMarginBlocks.toNat from rfl,
    hclose,zero_add]
  rw [rejectIf_pos (show ¬_ < (profile.input tape 0 spool).projectedObjectBlocks from
    Nat.not_lt_zero _),ok_bind,rejectIf_pos (not_lt.mpr (show _ ≤
    (profile.input tape 0 spool).remainingTapeBlocks from Nat.le_sub_of_add_le' hfits)),ok_bind,
    rejectIf_pos (Nat.not_lt_zero _),ok_bind]
  exact ⟨_,rfl⟩

section

variable (hparity : profile.parityShards≠0)
include hparity

theorem sound_of_evaluate
    (h : (profile.input tape objectBlocks spool).evaluate=.ok report) : Sound profile := by
  obtain ⟨hchecked,⟨maximum,hvalid⟩,-⟩ := evaluate_value hparity h
  exact ⟨hchecked.shaped hparity,hchecked.watermarks,hchecked.band,hchecked.separation,
    tape,objectBlocks,spool,maximum,hvalid⟩

variable {reservation : TerminalTripleObjectReservation}

theorem charge_of_admitted (hused : tape.usedBlocks ≤ profile.capacity)
    (h : (profile.input tape objectBlocks spool).reserveObject=.ok reservation) :
    profile.charge tape objectBlocks ≤ profile.capacity := by
  simp only [reserveObject,eq_ok] at h
  obtain ⟨_,hobject,report,hreport,-⟩ := h
  have hpresent : objectBlocks≠0 := by
    simpa [input] using hobject
  obtain ⟨-,-,hfits⟩ := evaluate_value hparity hreport
  have hone : present objectBlocks=1 := if_neg hpresent
  simp only [if_neg hpresent,hone] at hfits
  unfold charge afterObject closeCost closedStructural closedSidecars
  dsimp only
  omega

theorem closeCost_of_evaluate (h : (profile.input tape 0 spool).evaluate=.ok report) :
    profile.closeCost tape ≤ profile.capacity-tape.usedBlocks := by
  obtain ⟨hchecked,-,hfits⟩ := evaluate_value hparity h
  have hzero : present 0=0 := rfl
  simp only [add_zero,Nat.div_eq_of_lt hchecked.fill_lt,Nat.mod_eq_of_lt hchecked.fill_lt,
    zero_mul,if_true,zero_add,hzero] at hfits
  exact hfits

theorem closable_start {bootstrapBlocks : ℕ}
    (h : (profile.input (afterBootstrap bootstrapBlocks) 0 spool).evaluate=.ok report) :
    Closable profile (afterBootstrap bootstrapBlocks) := by
  have hcost := closeCost_of_evaluate hparity h
  have hpositive : 0 < profile.closeCost (afterBootstrap bootstrapBlocks) := by
    unfold closeCost replicaFile
    omega
  refine ⟨(evaluate_value hparity h).1.fill_lt,rfl,by simp [afterBootstrap],?_⟩
  omega

end

theorem closable_object (hsound : Sound profile) (h : Closable profile tape) {projected written : ℕ}
    (hadmitted : (profile.input tape projected spool).reserveObject=.ok reservation)
    (hbounded : written ≤ projected) : Closable profile (profile.afterObject tape written) := by
  have hshaped := hsound.shaped
  have hfits := h.fits
  have hfiles := h.files
  have hrows := h.rows
  have hcharge := (hshaped.charge_mono tape hbounded).trans
    (charge_of_admitted hshaped.parity_pos.ne' (by omega) hadmitted)
  refine ⟨Nat.mod_lt _ hshaped.data_pos,?_,?_,hcharge⟩
  · simp only [afterObject]
    omega
  · have hsidecar := Nat.mul_le_mul_left ((tape.epochFill+written)/profile.dataShards)
      (hshaped.le_sidecarFile le_rfl)
    simp only [afterObject,add_mul]
    omega

theorem closable_earlyClose (hsound : Sound profile) (h : Closable profile tape)
    (hfilled : tape.epochFill≠0) : Closable profile (profile.afterEarlyClose tape) := by
  have hshaped := hsound.shaped
  have hfits := h.fits
  have hfiles := h.files
  have hrows := h.rows
  have hsidecar := hshaped.le_sidecarFile h.fill_lt.le
  have hcost : profile.sidecarFile tape.epochFill+profile.closeCost (profile.afterEarlyClose tape)=
      profile.closeCost tape := by
    have hone : present tape.epochFill=1 := if_neg hfilled
    have hzero : present 0=0 := rfl
    simp only [closeCost,afterEarlyClose,closedStructural,closedSidecars,partialFile,hone,hzero,
      if_neg hfilled,if_true,add_zero,zero_add]
    omega
  refine ⟨hshaped.data_pos,?_,?_,?_⟩
  · simp only [afterEarlyClose]
    omega
  · simp only [afterEarlyClose,add_mul,one_mul]
    omega
  · change tape.usedBlocks+profile.sidecarFile tape.epochFill+_ ≤ _
    omega

theorem closable_of_steps (hsound : Sound profile) {start : TapePrefix}
    (hstart : Closable profile start) (h : Relation.ReflTransGen profile.Step start tape) :
    Closable profile tape := by
  induction h with
  | refl => exact hstart
  | tail _ hstep ih =>
    cases hstep with
    | object admitted _ bounded => exact closable_object hsound ih admitted bounded
    | earlyClose filled => exact closable_earlyClose hsound ih filled

/-- An admitted tape can be closed at every commit boundary of any history of admitted objects and
early epoch closes. -/
theorem evaluate_of_history (hscheme : profile.scheme.validate=.ok profile.scheme)
    {bootstrapBlocks : ℕ} {report : TerminalTripleCloseReport}
    (hstart : (profile.input (afterBootstrap bootstrapBlocks) 0 spool).evaluate=.ok report)
    (hhistory : Relation.ReflTransGen profile.Step (afterBootstrap bootstrapBlocks) tape) :
    ∀ remainingSpool, ∃ report, (profile.input tape 0 remainingSpool).evaluate=.ok report := by
  have hvalid := (ParityScheme.validate_eq_ok.mp hscheme).1
  have hparity := Nat.mul_ne_zero (Nat.one_le_iff_ne_zero.mp hvalid.one_le_stripes)
      (Nat.one_le_iff_ne_zero.mp hvalid.one_le_m)
  have hsound := sound_of_evaluate hparity hstart
  exact evaluate_total hsound (closable_of_steps hsound (closable_start hparity hstart) hhistory)

end Evaluation

def sampleProfile : CapacityProfile :=
  ⟨⟨"rs-cauchy-gf256-v1",2,1,2⟩,256*1024,2^30,4,100000,0,50⟩

/-- An object admitted at ten blocks and written with six, then an early close. -/
theorem sampleProfile_history :
    ∃ tape, Relation.ReflTransGen sampleProfile.Step (afterBootstrap 1) tape ∧ tape.objects=1 ∧
      tape.sidecars=2 ∧ ∃ report, (sampleProfile.input tape 0 0).evaluate=.ok report := by
  obtain ⟨report,hstart⟩ : ∃ report,
      (sampleProfile.input (afterBootstrap 1) 0 0).evaluate=.ok report :=
    exists_of_isOk (by decide +kernel)
  obtain ⟨reservation,hadmitted⟩ : ∃ reservation,
      (sampleProfile.input (afterBootstrap 1) 10 (2^30)).reserveObject=.ok reservation :=
    exists_of_isOk (by decide +kernel)
  have hobject : sampleProfile.Step (afterBootstrap 1)
      (sampleProfile.afterObject (afterBootstrap 1) 6) := .object hadmitted (by decide) (by decide)
  have hclose : sampleProfile.Step (sampleProfile.afterObject (afterBootstrap 1) 6)
      (sampleProfile.afterEarlyClose (sampleProfile.afterObject (afterBootstrap 1) 6)) :=
    .earlyClose (by decide)
  have hhistory := (Relation.ReflTransGen.single hobject).tail hclose
  exact ⟨_,hhistory,rfl,rfl,evaluate_of_history (by decide +kernel) hstart hhistory 0⟩

end CapacityProfile

end Remanence.Parity.Capacity
