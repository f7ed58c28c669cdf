import Remanence.Parity.Capacity
import Remanence.Parity.SidecarLayout

/-!
# An admitted tape can always be closed

The charge of a close grows with the blocks really written, since completing an epoch replaces a
partial sidecar by a full one. Every admission leaves room for the close of whatever part of the
object is written, over any history of objects and early epoch closes.
-/

namespace Remanence.Parity.Capacity

open Foundation Foundation.Packing Sidecar List

variable {value result : ℕ}

theorem fitU64_eq_ok {error : ParityError} :
    fitU64 value error=.ok result ↔ value ≤ u64Max ∧ result=value := by
  unfold fitU64
  split
  · rename_i hle
    simp [hle,eq_comm]
  · rename_i hle
    simp [hle]

variable {a b : ℕ}

@[simp] theorem checkedAdd_eq_ok :
    checkedAdd a b=.ok result ↔ a+b ≤ u64Max ∧ result=a+b := fitU64_eq_ok

@[simp] theorem checkedMul_eq_ok :
    checkedMul a b=.ok result ↔ a*b ≤ u64Max ∧ result=a*b := fitU64_eq_ok

theorem fitU64_of_le {error : ParityError} (h : value ≤ u64Max) : fitU64 value error=.ok value :=
  if_pos h

theorem checkedAdd_of_le (h : a+b ≤ u64Max) : checkedAdd a b=.ok (a+b) := if_pos h

theorem checkedMul_of_le (h : a*b ≤ u64Max) : checkedMul a b=.ok (a*b) := if_pos h

variable {c : ℕ}

theorem checkedSum_three : checkedSum [a,b,c]=.ok result ↔ a+b+c ≤ u64Max ∧ result=a+b+c := by
  simp only [checkedSum,List.foldlM_cons,List.foldlM_nil,eq_ok,checkedAdd_eq_ok, zero_add]
  constructor
  · rintro ⟨_,⟨-,rfl⟩,_,⟨-,rfl⟩,_,⟨hle,rfl⟩,rfl⟩
    exact ⟨hle,rfl⟩
  · rintro ⟨hle,rfl⟩
    exact ⟨_,⟨by omega,rfl⟩,_,⟨by omega,rfl⟩,_,⟨hle,rfl⟩,rfl⟩

theorem divCeil_mono (h : a ≤ b) : divCeil a c ≤ divCeil b c :=
  Nat.div_le_div_right (by omega)

theorem divCeil_le_div (hc : 0 < c) (hb : c ≤ b) : divCeil a b ≤ a/c+1 := by
  unfold divCeil
  obtain _ | a := a
  · rw [Nat.div_eq_of_lt (by omega)]
    exact Nat.zero_le _
  · rw [show a+1+b-1=a+b by omega,Nat.add_div_right a (by omega)]
    have hle : a/b ≤ a/c := Nat.div_le_div_left hb hc
    have hsucc : a/c ≤ (a+1)/c := Nat.div_le_div_right (by omega)
    omega

/-- Index blocks of a sidecar copy, zero if the layout is refused. -/
def indexBlocks (blockSize parityShards dataShards : ℕ) : ℕ :=
  match checkedSidecarIndexCapacityLayout blockSize parityShards dataShards with
  | .ok layout => layout.blockCount
  | .error _ => 0

section IndexBlocks

variable {blockSize parityShards : ℕ} (hblock : 256 ≤ blockSize) (hsmall : blockSize < 2^32)
  (hparity : 0 < parityShards) (hfew : parityShards ≤ u32Max)
include hblock hsmall hparity hfew

theorem exists_layout {dataShards : ℕ} (hdata : dataShards ≤ u32Max) : ∃ layout,
    checkedSidecarIndexCapacityLayout blockSize parityShards dataShards=.ok layout ∧
      layout.blockCount=1+(scan (blockSize-8) sidecarHeaderLen (replicate parityShards
        parityIndexEntryLen++replicate dataShards dataCrcEntryLen)).1 := by
  have hcount := scan_fst_le (blockSize-8) sidecarHeaderLen
    (replicate parityShards parityIndexEntryLen++replicate dataShards dataCrcEntryLen)
  rw [length_append,length_replicate,length_replicate] at hcount
  unfold u32Max at hfew hdata
  obtain ⟨layout,hlayout⟩ := @capacityLayout_total blockSize parityShards dataShards (by omega)
    (by unfold u64Max; omega) (by unfold u64Max; omega) (by unfold u64Max; omega)
    (fun _ => by omega) (fun _ _ => by omega) (by unfold u64Max; omega)
  exact ⟨layout,hlayout,capacityLayout_blocks hlayout⟩

theorem layout_indexBlocks {dataShards : ℕ} (hdata : dataShards ≤ u32Max) :
    ∃ layout, checkedSidecarIndexCapacityLayout blockSize parityShards dataShards=.ok layout ∧
      layout.blockCount=indexBlocks blockSize parityShards dataShards := by
  obtain ⟨layout,heq,-⟩ := exists_layout hblock hsmall hparity hfew hdata
  exact ⟨layout,heq,by rw [indexBlocks,heq]⟩

theorem indexBlocks_mono {a b : ℕ} (hab : a ≤ b) (hb : b ≤ u32Max) :
    indexBlocks blockSize parityShards a ≤ indexBlocks blockSize parityShards b := by
  obtain ⟨layoutA,heqA,hblocksA⟩ := exists_layout hblock hsmall hparity hfew (hab.trans hb)
  obtain ⟨layoutB,heqB,hblocksB⟩ := exists_layout hblock hsmall hparity hfew hb
  obtain ⟨more,rfl⟩ := Nat.exists_eq_add_of_le hab
  simp only [indexBlocks,heqA,heqB,hblocksA,hblocksB,replicate_add,←append_assoc]
  rw [scan_append _ _ (_++_)]
  omega

theorem indexBlocks_bounds {dataShards : ℕ} (hdata : dataShards ≤ u32Max) :
    1 ≤ indexBlocks blockSize parityShards dataShards ∧
      indexBlocks blockSize parityShards dataShards ≤ 1+parityShards+dataShards := by
  obtain ⟨layout,heq,hblocks⟩ := exists_layout hblock hsmall hparity hfew hdata
  have hcount := scan_fst_le (blockSize-8) sidecarHeaderLen
    (replicate parityShards parityIndexEntryLen++replicate dataShards dataCrcEntryLen)
  rw [length_append,length_replicate,length_replicate] at hcount
  simp only [indexBlocks,heq,hblocks]
  omega

end IndexBlocks

@[simp] theorem fitPayload_eq_ok {message : String} :
    fitPayload value message=.ok result ↔ value ≤ u64Max ∧ result=value := by
  unfold fitPayload
  split
  · rename_i hle
    simp [hle,eq_comm]
  · rename_i hle
    simp [hle]

def replicaPayload (counts : TapeIndexReplicaCounts) : ℕ :=
  counts.structuralEntryCount*64+counts.objectRowCount*256

theorem replicaLayout_eq_ok {blockSize : UInt32} {counts : TapeIndexReplicaCounts}
    {layout : TapeIndexReplicaLayout}
    (h : checkedTapeIndexReplicaLayout blockSize counts=.ok layout) :
    blockSize ∈ terminalIndexBlockSizes ∧ counts.objectRowCount ≤ counts.structuralEntryCount ∧
      replicaPayload counts ≤ u64Max ∧
      layout.replicaRecordCount=divCeil (replicaPayload counts) blockSize.toNat+2 := by
  simp only [checkedTapeIndexReplicaLayout,checkedTapeIndexPayloadLen,eq_ok,
    fitPayload_eq_ok,not_not,Nat.not_lt] at h
  obtain ⟨_,hblock,payload,⟨_,hrows,_,⟨-,rfl⟩,_,⟨-,rfl⟩,hpayload,rfl⟩,_,-,_,-,rfl⟩ := h
  exact ⟨hblock,hrows,hpayload,rfl⟩

theorem replicaLayout_total {blockSize : UInt32} {counts : TapeIndexReplicaCounts}
    (hblock : blockSize ∈ terminalIndexBlockSizes) (hpositive : 2 ≤ blockSize.toNat)
    (hrows : counts.objectRowCount ≤ counts.structuralEntryCount)
    (hpayload : replicaPayload counts ≤ u64Max) :
    ∃ layout, checkedTapeIndexReplicaLayout blockSize counts=.ok layout := by
  have hhalf : divCeil (replicaPayload counts) blockSize.toNat+2 ≤ u64Max := by
    have hle := @divCeil_le_div (replicaPayload counts) _ _ (by decide) hpositive
    unfold u64Max at *
    omega
  have hlen : checkedTapeIndexPayloadLen counts=.ok (replicaPayload counts) := by
    simp only [checkedTapeIndexPayloadLen,eq_ok,fitPayload_eq_ok,Nat.not_lt]
    unfold replicaPayload at hpayload
    exact ⟨(),hrows,_,⟨Nat.le_of_add_right_le hpayload,rfl⟩,_,
      ⟨Nat.le_of_add_left_le hpayload,rfl⟩,hpayload,rfl⟩
  rw [checkedTapeIndexReplicaLayout,rejectIf_pos (not_not.mpr hblock),ok_bind,hlen,ok_bind]
  simp only [rejectIf_pos (show ¬u64Max < divCeil (replicaPayload counts) blockSize.toNat+1 by omega),
    rejectIf_pos (show ¬u64Max < divCeil (replicaPayload counts) blockSize.toNat+2 by omega),ok_bind]
  exact ⟨_,rfl⟩

def parityMapPayload (sidecars : ℕ) : ℕ := 325+sidecars*116

variable {sidecars : ℕ}

theorem parityMapPayload_eq_ok {payload : ℕ} : parityMapPayloadLenUpperBound sidecars=.ok payload ↔
      parityMapPayload sidecars ≤ u64Max ∧ payload=parityMapPayload sidecars := by
  simp only [parityMapPayloadLenUpperBound,parityMapRowsUpperBound,bind_eq_ok,fitU64_eq_ok]
  constructor
  · rintro ⟨_,⟨-,rfl⟩,hle,rfl⟩
    exact ⟨hle,rfl⟩
  · rintro ⟨hle,rfl⟩
    exact ⟨_,⟨Nat.le_of_add_left_le hle,rfl⟩,hle,rfl⟩

theorem directoryBound_total (h : parityMapPayload sidecars ≤ u64Max) :
    ∃ bytes, parityMapDirectoryLenUpperBound sidecars=.ok bytes := by
  have hrows := Nat.le_of_add_left_le h
  refine ⟨43+sidecars*116,?_⟩
  simp only [parityMapDirectoryLenUpperBound,parityMapRowsUpperBound,bind_eq_ok,fitU64_eq_ok]
  refine ⟨_,⟨hrows,rfl⟩,?_,rfl⟩
  unfold parityMapPayload at h
  change 43+sidecars*116 ≤ u64Max
  omega

def parityMapBlocks (blockSize sidecars : ℕ) : ℕ :=
  divCeil (200+parityMapPayload sidecars) blockSize*2+1

theorem parityMapLayout_eq_ok {blockSize filemark : ℕ} {layout : ParityMapCapacityLayout}
    (h : checkedParityMapCapacityLayout blockSize sidecars filemark=.ok layout) :
    layout.tapeFileBlocks=parityMapBlocks blockSize sidecars+filemark := by
  simp only [checkedParityMapCapacityLayout,checkedReplicatedControlLayout,eq_ok,fitU64_eq_ok,
    parityMapPayload_eq_ok,checkedAdd_eq_ok] at h
  obtain ⟨_,⟨-,rfl⟩,_,⟨_,-,_,-,_,⟨-,rfl⟩,_,⟨-,rfl⟩,_,⟨-,rfl⟩,rfl⟩,_,⟨-,rfl⟩,rfl⟩ := h
  rfl

theorem parityMapLayout_total {blockSize filemark : ℕ} (hblock : 256 ≤ blockSize)
    (hpayload : parityMapPayload sidecars ≤ u64Max) (hfilemark : filemark ≤ 1) :
    ∃ layout, checkedParityMapCapacityLayout blockSize sidecars filemark=.ok layout := by
  have hheader : parityMapHeaderLen=200 := rfl
  have hmax : u64Max=2^64-1 := rfl
  have hcopy := @divCeil_le_div (parityMapHeaderLen+parityMapPayload sidecars) _ _ (by decide) hblock
  simp (disch := omega) only [checkedParityMapCapacityLayout,checkedReplicatedControlLayout,
    parityMapPayload_eq_ok.mpr ⟨hpayload,rfl⟩,fitU64_of_le,checkedAdd_of_le,rejectIf_pos,ok_bind,
    pure_bind]
  exact ⟨_,rfl⟩

end Remanence.Parity.Capacity
