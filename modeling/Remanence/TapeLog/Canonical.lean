import Remanence.Foundation.Canonical
import Remanence.TapeLog.Wire

/-!
# The record encoding is canonical

A byte string decodes to a record exactly if the record encodes to it. The one exception are
texts above the limit of a frame, which the decoder refuses. A record of at most one frame has
none.
-/

namespace Remanence.TapeLog

open Foundation Parity Record
open List hiding head

/-- Byte strings of a length that is part of their type. -/
@[reducible] def canonicalFixed {n : ℕ} (hn : n < 2^64) : Canonical maxFrameBody (FixedBytes n) where
  fits _ := True
  get_iff := by
    intro bytes rest b
    rw [getFixed_eq_some hn,true_and]
  fits_of_le := fun _ _ => trivial

instance : Canonical maxFrameBody (FixedBytes 8) := canonicalFixed (by decide)

instance : Canonical maxFrameBody (FixedBytes 16) := canonicalFixed (by decide)

instance : Canonical maxFrameBody (FixedBytes 32) := canonicalFixed (by decide)

theorem maxFrameBody_lt : maxFrameBody < 2^64 := by decide

theorem length_le_of_putBytes {major : UInt8} {bytes x : Bytes} (h : putBytes major bytes=some x) :
    bytes.length ≤ x.length := by
  rw [(putBytes_eq_some.mp h).2,length_append]
  exact Nat.le_add_left _ _

instance : Canonical maxFrameBody Bytes where
  fits bytes := bytes.length ≤ maxFrameBody
  get_iff := getBytes_eq_some (by decide) maxFrameBody_lt
  fits_of_le := fun h hle => le_trans (length_le_of_putBytes h) hle

instance : Canonical maxFrameBody String where
  fits s := (utf8 s).length ≤ maxFrameBody
  get_iff := by
    intro bytes rest s
    rw [show (Wire.get : Get String)=(do
      let bytes ← getBytes maxFrameBody 3
      match String.fromUTF8? ⟨bytes.toArray⟩ with
      | some s => return s
      | none => failure) from rfl,get_bind]
    change _ ↔ _ ∧ ∃ x, putBytes 3 (utf8 s)=some x ∧ bytes=x++rest
    constructor
    · rintro ⟨part,mid,hread,hrest⟩
      obtain ⟨hle,hx⟩ := (getBytes_eq_some (by decide) maxFrameBody_lt).mp hread
      cases htext : String.fromUTF8? ⟨part.toArray⟩ with
      | none =>
        rw [htext] at hrest
        cases hrest
      | some text =>
        rw [htext] at hrest
        obtain ⟨rfl,rfl⟩ := get_pure.mp hrest
        rw [fromUTF8_eq_some.mp htext]
        exact ⟨hle,hx⟩
    · rintro ⟨hle,hx⟩
      refine ⟨utf8 s,rest,(getBytes_eq_some (by decide) maxFrameBody_lt).mpr ⟨hle,hx⟩,?_⟩
      rw [fromUTF8_eq_some.mpr rfl]
      rfl
  fits_of_le := fun h hle => le_trans (length_le_of_putBytes h) hle

instance : NonNull String := ⟨@NeverNull.ofBytes _ Wire.put utf8 3 (by decide) fun _ => rfl⟩

instance : NonNull Bytes := ⟨@NeverNull.ofBytes _ Wire.put id 2 (by decide) fun _ => rfl⟩

variable {bytes rest : Bytes} {α : Type}

theorem getMany_eq_some [Wire α] [Canonical maxFrameBody α]
    (hfits : ∀ a : α, Canonical.fits maxFrameBody a) {n : ℕ} {as : List α} :
    getMany n bytes=some (as,rest) ↔
      as.length=n ∧ ∃ x, putAll (as.map Wire.put)=some x ∧ bytes=x++rest := by
  induction n generalizing bytes as with
  | zero =>
    refine pure_eq_some.trans ?_
    rw [eq_comm,←length_eq_zero_iff]
    exact and_congr_right fun hnil => by rw [length_eq_zero_iff.mp hnil,map_nil]
  | succ n ih =>
    rw [getMany]
    simp only [get_bind,get_pure]
    constructor
    · rintro ⟨a,mid,hfirst,more,end',hrest,rfl,rfl⟩
      obtain ⟨-,x,hx,rfl⟩ := Canonical.written maxFrameBody hfirst
      obtain ⟨rfl,y,hy,rfl⟩ := ih.mp hrest
      exact ⟨rfl,x++y,putAll_cons_eq_some.mpr ⟨x,y,hx,hy,rfl⟩,(append_assoc ..).symm⟩
    · rintro ⟨hlength,z,hz,rfl⟩
      cases as with
      | nil => cases hlength
      | cons a more =>
        obtain ⟨x,y,hx,hy,rfl⟩ := putAll_cons_eq_some.mp hz
        refine ⟨a,y++rest,Canonical.get_iff.mpr ⟨hfits a,x,hx,append_assoc ..⟩,more,rest,
          ih.mpr ⟨Nat.succ.inj hlength,y,hy,rfl⟩,rfl,rfl⟩

instance : Canonical maxFrameBody (List (FixedBytes 16)) where
  fits _ := True
  get_iff := by
    intro bytes rest ids
    change _ ↔ True ∧ ∃ x, (if ids.length > 8 then none else putArray (ids.map Wire.put))=some x ∧ _
    refine (expect_unless (by decide)).trans ⟨?_,?_⟩
    · rintro ⟨n,mid,hmany,rfl,hrest⟩
      obtain ⟨hlength,x,hx,rfl⟩ := (getMany_eq_some fun _ => trivial).mp hrest
      rw [if_neg (by omega)]
      refine ⟨trivial,_,putAll_cons_eq_some.mpr ⟨_,x,rfl,hx,rfl⟩,?_⟩
      rw [length_map,hlength,UInt64.ofNat_toNat,append_assoc]
    · rintro ⟨-,z,hz,rfl⟩
      split_ifs at hz with hmany
      obtain ⟨w,x,hw,hx,rfl⟩ := putAll_cons_eq_some.mp hz
      cases hw
      rw [length_map]
      have hvalue : (UInt64.ofNat ids.length).toNat=ids.length := UInt64.toNat_ofNat_of_lt' (by
        have : UInt64.size=2^64 := rfl
        omega)
      exact ⟨UInt64.ofNat ids.length,x++rest,by omega,append_assoc ..,
        (getMany_eq_some fun _ => trivial).mpr ⟨hvalue.symm,x,hx,rfl⟩⟩
  fits_of_le := fun _ _ => trivial

instance : Canonical maxFrameBody CheckValue where
  fits _ := True
  get_iff := by
    intro bytes rest check
    rw [show (Wire.get : Get CheckValue)=(do
      let bytes : FixedBytes 8 ← Wire.get
      return ⟨readU64Le bytes.bytes 0⟩) from rfl]
    simp only [get_bind,get_pure,true_and]
    change _ ↔ ∃ x, Wire.put (⟨u64Le check.value,length_u64Le check.value⟩ : FixedBytes 8)=some x ∧ _
    constructor
    · rintro ⟨b,mid,hread,rfl,rfl⟩
      have hbytes : b=⟨u64Le (readU64Le b.bytes 0),length_u64Le _⟩ := by
        apply FixedBytes.ext
        have hslice := slice_of_readU64Le (x := readU64Le b.bytes 0)
          (by rw [b.length_eq]) (Eq.refl (readU64Le b.bytes 0))
        rw [slice_zero,take_of_length_le (by rw [b.length_eq])] at hslice
        exact hslice
      rw [←hbytes]
      exact (getFixed_eq_some (by decide)).mp hread
    · intro hwritten
      refine ⟨_,rest,(getFixed_eq_some (by decide)).mpr hwritten,?_,rfl⟩
      have hread : readU64Le (u64Le check.value) 0=check.value := by
        apply readU64Le_of_slice
        rw [slice_zero,take_of_length_le (by rw [length_u64Le])]
      dsimp only
      rw [hread]
  fits_of_le := fun _ _ => trivial

instance : Canonical maxFrameBody CheckProvenance :=
  canonicalCode [.empty,.originalWrite] checkProvenanceCode

instance : Canonical maxFrameBody TapeFileKind :=
  canonicalCode [.object,.paritySidecar,.bootstrap,.parityMap,.tapeIndexReplica,.indexSeparationExtent]
    tapeFileKindCode

instance : Canonical maxFrameBody TerminalTailComponentKind :=
  canonicalCode [.tapeIndexReplica,.indexSeparationExtent] terminalTailComponentKindCode

instance : Canonical maxFrameBody TerminalFinalizationTrigger :=
  canonicalCode [.reachedLowWatermark,.hardwareEarlyWarning,.operatorCloseOut,.poolCloseOut,
    .noPendingObjectFits] terminalFinalizationTriggerCode

instance : NonNull TerminalFinalizationTrigger :=
  ⟨@NeverNull.ofHead _ Wire.put terminalFinalizationTriggerCode fun _ => rfl⟩

instance : Canonical maxFrameBody SessionEndReason :=
  canonicalCode [.cleanClose,.abort,.failedAppend,.clientStall,.driveError,.gracefulShutdown,
    .clientDisconnected,.crashRecovered,.closeoutFailed] sessionEndReasonCode

instance : Canonical maxFrameBody TailFilemark :=
  canonicalCode [.present,.absent,.unknown] tailFilemarkCode

instance : Canonical maxFrameBody CommitCursor :=
  canonicalOfFields (fun v => (v.partition,v.lba,())) (fun (a0,a1,_) => ⟨a0,a1⟩)

instance : Canonical maxFrameBody ParityScheme :=
  canonicalOfFields (fun v => (v.id,v.dataBlocksPerStripe,v.parityBlocksPerStripe,
    v.stripesPerNeighborhood,()))
    (fun (a0,a1,a2,a3,_) => ⟨a0,a1,a2,a3⟩)

instance : NonNull ParityScheme := ⟨NeverNull.ofFields fun _ => rfl⟩

theorem getUInt8_eq_some {v : UInt8} :
    (Wire.get : Get UInt8) bytes=some (v,rest) ↔ bytes=head 0 v.toUInt64++rest := by
  refine ((inferInstance : Canonical maxFrameBody UInt8).get_iff).trans ?_
  constructor
  · rintro ⟨-,x,hx,rfl⟩
    cases hx
    rfl
  · rintro rfl
    exact ⟨trivial,_,rfl,rfl⟩

/-- A tagged array: its head, the number of its variant and what follows. -/
theorem getVariant_eq_some {k : UInt64 → UInt8 → Get α} {a : α} : (do
      let n ← expect 4
      let variant : UInt8 ← Wire.get
      k n variant : Get α) bytes=some (a,rest) ↔
      ∃ n variant mid, bytes=head 4 n++(head 0 variant.toUInt64++mid) ∧
        k n variant mid=some (a,rest) := by
  simp only [get_bind]
  constructor
  · rintro ⟨n,mid,hn,variant,end',hvariant,hrest⟩
    obtain rfl := (expect_eq_some (by decide)).mp hn
    obtain rfl := getUInt8_eq_some.mp hvariant
    exact ⟨n,variant,end',rfl,hrest⟩
  · rintro ⟨n,variant,mid,rfl,hrest⟩
    exact ⟨n,_,(expect_eq_some (by decide)).mpr rfl,variant,mid,getUInt8_eq_some.mpr rfl,hrest⟩

theorem getSizedVariant_eq_some {size : UInt64} {k : UInt8 → Get α} {a : α} : (do
      getSize 4 size
      let variant : UInt8 ← Wire.get
      k variant : Get α) bytes=some (a,rest) ↔
      ∃ variant mid, bytes=head 4 size++(head 0 variant.toUInt64++mid) ∧
        k variant mid=some (a,rest) := by
  simp only [get_bind]
  constructor
  · rintro ⟨_,mid,hsize,variant,end',hvariant,hrest⟩
    obtain rfl := (getSize_eq_some (by decide)).mp hsize
    obtain rfl := getUInt8_eq_some.mp hvariant
    exact ⟨variant,end',rfl,hrest⟩
  · rintro ⟨variant,mid,rfl,hrest⟩
    exact ⟨(),_,(getSize_eq_some (by decide)).mpr rfl,variant,mid,getUInt8_eq_some.mpr rfl,hrest⟩

section
variable {α β : Type} [Fields β] [CanonicalFields maxFrameBody β] {variant : UInt8} {n : UInt64}
  {build : β → α} {mid rest : Bytes}

theorem arm_written (hn : n=UInt64.ofNat (Fields.count β+1)) {a : α}
    (h : (do let b ← Fields.items; return build b : Get α) mid=some (a,rest)) :
    ∃ b, build b=a ∧ CanonicalFields.fits maxFrameBody b ∧
      ∃ z, putArray (Wire.put variant::Fields.parts b)=some z ∧
        head 4 n++(head 0 variant.toUInt64++mid)=z++rest := by
  simp only [get_bind,get_pure] at h
  obtain ⟨b,end',hitems,rfl,rfl⟩ := h
  have hpair : Fields.items (head 0 variant.toUInt64++mid)=some ((variant,b),end') := by
    rw [show (Fields.items : Get (UInt8×β))=(do
      let a ← Wire.get
      let b ← Fields.items
      return (a,b)) from rfl]
    simp only [get_bind,get_pure]
    exact ⟨variant,mid,getUInt8_eq_some.mpr rfl,b,end',hitems,rfl,rfl⟩
  subst hn
  obtain ⟨⟨-,hfits⟩,z,hz,hbytes⟩ := (array_eq_some maxFrameBody).mp ⟨_,rfl,hpair⟩
  exact ⟨b,rfl,hfits,z,hz,hbytes⟩

theorem arm_read {bytes z : Bytes} {b : β} (hfits : CanonicalFields.fits maxFrameBody b)
    (hz : putArray (Wire.put variant::Fields.parts b)=some z) (hbytes : bytes=z++rest) :
    ∃ mid, bytes=head 4 (UInt64.ofNat (Fields.count β+1))++(head 0 variant.toUInt64++mid) ∧ (do
        let b ← Fields.items
        return build b : Get α) mid=some (build b,rest) := by
  have hfits' : CanonicalFields.fits maxFrameBody (variant,b) := ⟨trivial,hfits⟩
  obtain ⟨after,rfl,hitems⟩ := (array_eq_some maxFrameBody).mpr ⟨hfits',z,hz,hbytes⟩
  rw [show (Fields.items : Get (UInt8×β))=(do
    let a ← Wire.get
    let b ← Fields.items
    return (a,b)) from rfl] at hitems
  simp only [get_bind,get_pure] at hitems
  obtain ⟨v,mid,hv,c,end',hc,hpair,rfl⟩ := hitems
  obtain ⟨rfl,rfl⟩ := Prod.mk.inj hpair
  obtain rfl := getUInt8_eq_some.mp hv
  refine ⟨mid,rfl,?_⟩
  simp only [get_bind,get_pure]
  exact ⟨c,end',hc,rfl,rfl⟩

theorem arm_fits {z : Bytes} {b : β} (hz : putArray (Wire.put variant::Fields.parts b)=some z)
    (hle : z.length ≤ maxFrameBody) : CanonicalFields.fits maxFrameBody b := by
  have hpair : CanonicalFields.fits maxFrameBody (variant,b) := fits_of_array_le hz hle
  exact hpair.2

end

instance : Canonical maxFrameBody TailIdentity where
  fits
    | .object id => CanonicalFields.fits maxFrameBody (id,())
    | .sidecar hash => CanonicalFields.fits maxFrameBody (hash,())
    | .tornPrefix hash => CanonicalFields.fits maxFrameBody (hash,())
  get_iff := by
    intro bytes rest a
    rw [show (Wire.get : Get TailIdentity)=(do
      getSize 4 2
      let variant : UInt8 ← Wire.get
      if variant=0 then
        let b ← (Fields.items : Get (String×Unit))
        return .object b.1
      else if variant=1 then
        let b ← (Fields.items : Get (FixedBytes 32×Unit))
        return .sidecar b.1
      else if variant=2 then
        let b ← (Fields.items : Get (FixedBytes 32×Unit))
        return .tornPrefix b.1
      else failure) by simp only [Fields.items,bind_assoc,pure_bind]; rfl,getSizedVariant_eq_some]
    constructor
    · rintro ⟨variant,mid,rfl,hrest⟩
      split_ifs at hrest with hzero hone htwo
      · subst hzero
        obtain ⟨_,rfl,hwritten⟩ := arm_written rfl hrest
        exact hwritten
      · subst hone
        obtain ⟨_,rfl,hwritten⟩ := arm_written rfl hrest
        exact hwritten
      · subst htwo
        obtain ⟨_,rfl,hwritten⟩ := arm_written rfl hrest
        exact hwritten
      · cases hrest
    · rintro ⟨hfits,z,hz,hbytes⟩
      cases a <;> obtain ⟨mid,hmid,hread⟩ := arm_read hfits hz hbytes
      · exact ⟨0,mid,hmid,hread⟩
      · exact ⟨1,mid,hmid,hread⟩
      · exact ⟨2,mid,hmid,hread⟩
  fits_of_le := by
    intro a z hz hle
    cases a <;> exact arm_fits hz hle

instance : Canonical maxFrameBody ObjectRecoveryRepresentation where
  fits
    | .plaintext first size count sha256 => CanonicalFields.fits maxFrameBody (first,size,count,sha256,())
    | .encrypted ids metadataLen keyLen => CanonicalFields.fits maxFrameBody (ids,metadataLen,keyLen,())
  get_iff := by
    intro bytes rest a
    rw [show (Wire.get : Get ObjectRecoveryRepresentation)=(do
      let n ← expect 4
      let variant : UInt8 ← Wire.get
      if n=5 ∧ variant=0 then
        let b ← (Fields.items : Get (UInt64×UInt64×UInt64×FixedBytes 32×Unit))
        return .plaintext b.1 b.2.1 b.2.2.1 b.2.2.2.1
      else if n=4 ∧ variant=1 then
        let b ← (Fields.items : Get (List (FixedBytes 16)×UInt64×UInt32×Unit))
        return .encrypted b.1 b.2.1 b.2.2.1
      else failure) by simp only [Fields.items,bind_assoc,pure_bind]; rfl,getVariant_eq_some]
    constructor
    · rintro ⟨n,variant,mid,rfl,hrest⟩
      split_ifs at hrest with hplain hencrypted
      · obtain ⟨rfl,rfl⟩ := hplain
        obtain ⟨_,rfl,hwritten⟩ := arm_written rfl hrest
        exact hwritten
      · obtain ⟨rfl,rfl⟩ := hencrypted
        obtain ⟨_,rfl,hwritten⟩ := arm_written rfl hrest
        exact hwritten
      · cases hrest
    · rintro ⟨hfits,z,hz,hbytes⟩
      cases a <;> obtain ⟨mid,hmid,hread⟩ := arm_read hfits hz hbytes
      · exact ⟨5,0,mid,hmid,hread⟩
      · exact ⟨4,1,mid,hmid,hread⟩
  fits_of_le := by
    intro a z hz hle
    cases a <;> exact arm_fits hz hle

instance : Canonical maxFrameBody ObjectRecoveryRow :=
  canonicalOfFields (fun v => (v.tapeFileNumber,v.storedBlockCount,v.objectId,v.representation, ()))
    (fun (a0,a1,a2,a3,_) => ⟨a0,a1,a2,a3⟩)

instance : NonNull ObjectRecoveryRow := ⟨NeverNull.ofFields fun _ => rfl⟩

instance : Canonical maxFrameBody TapeFileEntry :=
  canonicalOfFields (fun v => (v.tapeFileNumber,v.kind,v.blockCount,v.physicalStartHint,
    v.objectId,v.firstParityDataOrdinal,v.epochId,v.protectedOrdinalStart,
    v.protectedOrdinalEndExclusive,v.canonicalMetadataHash,v.objectRecoveryRow,()))
    (fun (a0,a1,a2,a3,a4,a5,a6,a7,a8,a9,a10,_) => ⟨a0,a1,a2,a3,a4,a5,a6,a7,a8,a9,a10⟩)

instance : Canonical maxFrameBody Initialized :=
  canonicalOfFields (fun v => (v.tapeUuid,v.incarnation,v.group,v.blockSize,v.scheme,v.bot,()))
    (fun (a0,a1,a2,a3,a4,a5,_) => ⟨a0,a1,a2,a3,a4,a5⟩)

instance : Canonical maxFrameBody GroupRef :=
  canonicalOfFields (fun v => (v.firstSequence,v.startOffset,v.frameCount,v.byteCount,
    v.memberCount,v.digest,()))
    (fun (a0,a1,a2,a3,a4,a5,_) => ⟨a0,a1,a2,a3,a4,a5⟩)

instance : Canonical maxFrameBody SidecarEpochDirectoryEntry :=
  canonicalOfFields (fun v => (v.tapeFileNumber,v.epochId,v.protectedOrdinalStart,
    v.protectedOrdinalEndExclusive,v.sidecarTotalBlockCount,v.sidecarHeaderBlockCount,
    v.parityShardBlockCount,v.canonicalMetadataHash,v.flags,()))
    (fun (a0,a1,a2,a3,a4,a5,a6,a7,a8,_) => ⟨a0,a1,a2,a3,a4,a5,a6,a7,a8⟩)

instance : Canonical maxFrameBody TailFile :=
  canonicalOfFields (fun v => (v.tapeFileNumber,v.identity,v.knownBlocks,v.unknownBlocks,
    v.filemark,v.synchronizedBlocks,v.synchronizedFilemark,()))
    (fun (a0,a1,a2,a3,a4,a5,a6,_) => ⟨a0,a1,a2,a3,a4,a5,a6⟩)

instance : Canonical maxFrameBody Chunk where
  fits
    | .fileRow row => CanonicalFields.fits maxFrameBody (row,())
    | .catalog file ordinal last => CanonicalFields.fits maxFrameBody (file,ordinal,last,())
    | .planDirectory row => CanonicalFields.fits maxFrameBody (row,())
    | .tailFile file => CanonicalFields.fits maxFrameBody (file,())
  get_iff := by
    intro bytes rest a
    rw [show (Wire.get : Get Chunk)=(do
      let n ← expect 4
      let variant : UInt8 ← Wire.get
      if n=2 ∧ variant=0 then
        let b ← (Fields.items : Get (TapeFileEntry×Unit))
        return .fileRow b.1
      else if n=4 ∧ variant=1 then
        let b ← (Fields.items : Get (UInt64×UInt64×Bool×Unit))
        return .catalog b.1 b.2.1 b.2.2.1
      else if n=2 ∧ variant=2 then
        let b ← (Fields.items : Get (SidecarEpochDirectoryEntry×Unit))
        return .planDirectory b.1
      else if n=2 ∧ variant=3 then
        let b ← (Fields.items : Get (TailFile×Unit))
        return .tailFile b.1
      else failure) by simp only [Fields.items,bind_assoc,pure_bind]; rfl,getVariant_eq_some]
    constructor
    · rintro ⟨n,variant,mid,rfl,hrest⟩
      split_ifs at hrest with hrow hcatalog hplan htail
      · obtain ⟨rfl,rfl⟩ := hrow
        obtain ⟨_,rfl,hwritten⟩ := arm_written rfl hrest
        exact hwritten
      · obtain ⟨rfl,rfl⟩ := hcatalog
        obtain ⟨_,rfl,hwritten⟩ := arm_written rfl hrest
        exact hwritten
      · obtain ⟨rfl,rfl⟩ := hplan
        obtain ⟨_,rfl,hwritten⟩ := arm_written rfl hrest
        exact hwritten
      · obtain ⟨rfl,rfl⟩ := htail
        obtain ⟨_,rfl,hwritten⟩ := arm_written rfl hrest
        exact hwritten
      · cases hrest
    · rintro ⟨hfits,z,hz,hbytes⟩
      cases a <;> obtain ⟨mid,hmid,hread⟩ := arm_read hfits hz hbytes
      · exact ⟨2,0,mid,hmid,hread⟩
      · exact ⟨4,1,mid,hmid,hread⟩
      · exact ⟨2,3,mid,hmid,hread⟩
      · exact ⟨2,2,mid,hmid,hread⟩
  fits_of_le := by
    intro a z hz hle
    cases a <;> exact arm_fits hz hle

instance : Canonical maxFrameBody Continuation :=
  canonicalOfFields (fun v => (v.group,v.chunk,())) (fun (a0,a1,_) => ⟨a0,a1⟩)

instance : Canonical maxFrameBody Committed :=
  canonicalOfFields (fun v => (v.group,v.cursor,v.protectedUpTo,v.total,v.check,v.provenance,
    v.nextEpoch,v.nextFile,v.objectCount,v.batchId,v.sessionId,v.sealDue,v.committedAtUtc,()))
    (fun (a0,a1,a2,a3,a4,a5,a6,a7,a8,a9,a10,a11,a12,_) => ⟨a0,a1,a2,a3,a4,a5,a6,a7,a8,a9,a10,a11,
    a12⟩)

instance : Canonical maxFrameBody SessionCursor :=
  canonicalOfFields (fun v => (v.partition,v.lba,v.nextFile,())) (fun (a0,a1,a2,_) => ⟨a0,a1,a2⟩)

instance : Canonical maxFrameBody SessionOpened :=
  canonicalOfFields (fun v => (v.sessionId,v.incarnation,v.baseMediaSequence,v.cursor,
    v.openedAtUtc,()))
    (fun (a0,a1,a2,a3,a4,_) => ⟨a0,a1,a2,a3,a4⟩)

instance : Canonical maxFrameBody SessionEnded :=
  canonicalOfFields (fun v => (v.sessionId,v.incarnation,v.baseMediaSequence,v.cursor,
    v.endedAtUtc,v.reason,v.tail,v.tailFileCount,v.crashAckAuditSequence,v.synchronizedTailBlocks,
    v.possibleTailBlocks,v.provedEod,()))
    (fun (a0,a1,a2,a3,a4,a5,a6,a7,a8,a9,a10,a11,_) => ⟨a0,a1,a2,a3,a4,a5,a6,a7,a8,a9,a10,a11⟩)

instance : Canonical maxFrameBody ClosedOut :=
  canonicalOfFields (fun v => (v.group,v.incarnation,v.operationId,v.sessionId,
    v.baseMediaSequence,v.fromW,v.toT,v.epochId,v.sidecarFileNumber,v.checkBefore,v.cursorAfter,
    v.nextFile,v.nextEpoch,v.completedAtUtc,()))
    (fun (a0,a1,a2,a3,a4,a5,a6,a7,a8,a9,a10,a11,a12,a13,_) => ⟨a0,a1,a2,a3,a4,a5,a6,a7,a8,a9,a10,
    a11,a12,a13⟩)

instance : Canonical maxFrameBody TerminalTailComponentPlan :=
  canonicalOfFields (fun v => (v.kind,v.ordinal,v.plannedTapeFileNumber,v.plannedStartLba,
    v.recordCount,()))
    (fun (a0,a1,a2,a3,a4,_) => ⟨a0,a1,a2,a3,a4⟩)

def FiveComponents.split : FiveComponents → TerminalTailComponentPlan×TerminalTailComponentPlan×
    TerminalTailComponentPlan×TerminalTailComponentPlan×TerminalTailComponentPlan×Unit
  | ⟨[a0,a1,a2,a3,a4],_⟩ => (a0,a1,a2,a3,a4,())

theorem length_five {α : Type} (a0 a1 a2 a3 a4 : α) : [a0,a1,a2,a3,a4].length=5 := rfl

theorem FiveComponents.exists_eq (c : FiveComponents) :
    ∃ a0 a1 a2 a3 a4, c=⟨[a0,a1,a2,a3,a4],rfl⟩ := by
  obtain ⟨components,hlength⟩ := c
  obtain ⟨a0,a1,a2,a3,a4,rfl⟩ := exists_of_length_five hlength
  exact ⟨a0,a1,a2,a3,a4,rfl⟩

instance : Canonical maxFrameBody FiveComponents :=
  canonicalOfItems FiveComponents.split (fun (a0,a1,a2,a3,a4,_) =>
    ⟨[a0,a1,a2,a3,a4],length_five a0 a1 a2 a3 a4⟩)
    (fun c => by
      obtain ⟨a0,a1,a2,a3,a4,rfl⟩ := c.exists_eq
      rfl)
    (fun _ => rfl)
    (fun c => by
      obtain ⟨a0,a1,a2,a3,a4,rfl⟩ := c.exists_eq
      rfl)
    (by simp only [Fields.items,bind_assoc,pure_bind]; rfl)

instance : Canonical maxFrameBody TerminalTailLayout :=
  canonicalOfFields
    (fun v => (v.partition,v.blockSize,FiveComponents.mk v.components v.length_components,
      v.expectedEodLba,()))
    (fun (a0,a1,a2,a3,_) => ⟨a0,a1,a2.components,a2.length_components,a3⟩)

instance : Canonical maxFrameBody ManualTerminalFinalizationIdentity :=
  canonicalOfFields (fun v => (v.operationId,v.operationKind,v.actorFingerprint,v.idempotencyKey,
    v.requestFingerprint,v.assignedPoolId,v.expectedPoolId,v.assignmentGeneration,v.reason,()))
    (fun (a0,a1,a2,a3,a4,a5,a6,a7,a8,_) => ⟨a0,a1,a2,a3,a4,a5,a6,a7,a8⟩)

instance : NonNull ManualTerminalFinalizationIdentity := ⟨NeverNull.ofFields fun _ => rfl⟩

instance : Canonical maxFrameBody FinalizationPlan :=
  canonicalOfFields (fun v => (v.group,v.trigger,v.manual,v.editionId,v.editionSequence,
    v.editionDigest,v.writerVersion,v.writeTimestamp,v.layout,v.prefixEnd,()))
    (fun (a0,a1,a2,a3,a4,a5,a6,a7,a8,a9,_) => ⟨a0,a1,a2,a3,a4,a5,a6,a7,a8,a9⟩)

def Record.textsFit : Record → Prop
  | .initialized v => Canonical.fits maxFrameBody v
  | .sessionOpened v => Canonical.fits maxFrameBody v
  | .sessionEnded v => Canonical.fits maxFrameBody v
  | .closedOut v => Canonical.fits maxFrameBody v
  | .payloadContinuation v => Canonical.fits maxFrameBody v
  | .committed v => Canonical.fits maxFrameBody v
  | .finalizationDecided v => Canonical.fits maxFrameBody v
  | .finalizationPrepared v => Canonical.fits maxFrameBody v
  | .terminalPrefix decision commit => CanonicalFields.fits maxFrameBody (decision,commit,())
  | .componentWritten decision component commit =>
    CanonicalFields.fits maxFrameBody (decision,component,commit,())
  | .sealed decision cursor editionDigest =>
    CanonicalFields.fits maxFrameBody (decision,cursor,editionDigest,())
  | .finalizationPreparationRetired prepared => Canonical.fits maxFrameBody prepared
  | .finalizationRecoveryRequired plan => Canonical.fits maxFrameBody plan

variable {record : Record} {tag : Tag}

theorem getValue_eq_some [Wire α] [Canonical maxFrameBody α] (build : α → Record)
    (honly : ∀ record : Record, record.tag=tag → ∃ v, record=build v := by
      intro record h; cases record <;> cases h; exact ⟨_,rfl⟩)
    (htag : ∀ v, (build v).tag=tag := by intro; rfl)
    (hfits : ∀ v, (build v).textsFit ↔ Canonical.fits maxFrameBody v := by intro; rfl)
    (hencode : ∀ v, encode (build v)=Wire.put v := by intro; rfl) :
    (do
      let v ← Wire.get
      return build v : Get Record) bytes=some (record,rest) ↔ record.tag=tag ∧ record.textsFit ∧
      ∃ x, encode record=some x ∧ bytes=x++rest := by
  simp only [get_bind,get_pure]
  constructor
  · rintro ⟨v,mid,hv,rfl,rfl⟩
    rw [hfits,hencode]
    exact ⟨htag v,Canonical.written maxFrameBody hv⟩
  · rintro ⟨hrecord,hwritten⟩
    obtain ⟨v,rfl⟩ := honly record hrecord
    rw [hfits,hencode] at hwritten
    exact ⟨v,rest,Canonical.get_iff.mpr hwritten,rfl,rfl⟩

theorem getArray_eq_some {β : Type} [Fields β] [CanonicalFields maxFrameBody β] (build : β → Record)
    (honly : ∀ record : Record, record.tag=tag → ∃ b, record=build b)
    (htag : ∀ b, (build b).tag=tag := by intro; rfl)
    (hfits : ∀ b, (build b).textsFit ↔ CanonicalFields.fits maxFrameBody b := by intro; rfl)
    (hencode : ∀ b, encode (build b)=putArray (Fields.parts b) := by intro; rfl)
    (hget : getRecord tag=(do
      getSize 4 (UInt64.ofNat (Fields.count β))
      let b ← Fields.items
      return build b) := by simp only [getRecord,Fields.items,bind_assoc,pure_bind]; rfl) :
    getRecord tag bytes=some (record,rest) ↔ record.tag=tag ∧ record.textsFit ∧
      ∃ x, encode record=some x ∧ bytes=x++rest := by
  rw [hget]
  simp only [get_bind,get_pure]
  constructor
  · rintro ⟨_,mid,hsize,b,end',hitems,rfl,rfl⟩
    rw [hfits,hencode]
    exact ⟨htag b,(array_eq_some maxFrameBody).mp ⟨mid,(getSize_eq_some (by decide)).mp hsize,hitems⟩⟩
  · rintro ⟨hrecord,hwritten⟩
    obtain ⟨b,rfl⟩ := honly record hrecord
    rw [hfits,hencode] at hwritten
    obtain ⟨mid,hmid,hitems⟩ := (array_eq_some maxFrameBody).mpr hwritten
    exact ⟨(),mid,(getSize_eq_some (by decide)).mpr hmid,b,rest,hitems,rfl,rfl⟩

theorem getRecord_eq_some :
    getRecord tag bytes=some (record,rest) ↔ record.tag=tag ∧ record.textsFit ∧
      ∃ x, encode record=some x ∧ bytes=x++rest := by
  cases tag with
  | initialized => exact getValue_eq_some initialized
  | sessionOpened => exact getValue_eq_some sessionOpened
  | sessionEnded => exact getValue_eq_some sessionEnded
  | closedOut => exact getValue_eq_some closedOut
  | payloadContinuation => exact getValue_eq_some payloadContinuation
  | committed => exact getValue_eq_some committed
  | finalizationDecided => exact getValue_eq_some finalizationDecided
  | finalizationPrepared => exact getValue_eq_some finalizationPrepared
  | terminalPrefix =>
    refine getArray_eq_some (fun b : UInt64×Committed×Unit => .terminalPrefix b.1 b.2.1) ?_
    intro record h
    cases record <;> cases h
    exact ⟨(_,_,()),rfl⟩
  | componentWritten =>
    refine getArray_eq_some (fun b : UInt64×UInt8×Committed×Unit =>
      .componentWritten b.1 b.2.1 b.2.2.1) ?_
    intro record h
    cases record <;> cases h
    exact ⟨(_,_,_,()),rfl⟩
  | sealed =>
    refine getArray_eq_some (fun b : UInt64×CommitCursor×FixedBytes 32×Unit =>
      .sealed b.1 b.2.1 b.2.2.1) ?_
    intro record h
    cases record <;> cases h
    exact ⟨(_,_,_,()),rfl⟩
  | finalizationPreparationRetired => exact getValue_eq_some finalizationPreparationRetired
  | finalizationRecoveryRequired => exact getValue_eq_some finalizationRecoveryRequired
  | finalizationPlanned | unprotectedAccepted =>
    refine ⟨fun h => (by cases h),fun h => ?_⟩
    cases record <;> cases h.1

theorem textsFit_of_le {bytes : Bytes} (h : encode record=some bytes)
    (hle : bytes.length ≤ maxFrameBody) : record.textsFit := by
  cases record with
  | terminalPrefix decision commit => exact fits_of_array_le (a := (decision,commit,())) h hle
  | componentWritten decision component commit =>
    exact fits_of_array_le (a := (decision,component,commit,())) h hle
  | «sealed» decision cursor editionDigest =>
    exact fits_of_array_le (a := (decision,cursor,editionDigest,())) h hle
  | _ => exact Canonical.fits_of_le h hle

theorem decode_eq_ok {bytes : Bytes} :
    decode tag bytes=.ok record ↔ getRecord tag bytes=some (record,[]) := by
  unfold decode
  cases getRecord tag bytes with
  | none => exact ⟨fun h => (by cases h),fun h => (by cases h)⟩
  | some result =>
    obtain ⟨value,rest⟩ := result
    simp only [orElseError_some,ok_bind,eq_ok,not_not, Option.some.injEq,Prod.mk.injEq]
    constructor
    · rintro ⟨_,rfl,rfl⟩
      exact ⟨rfl,rfl⟩
    · rintro ⟨rfl,rfl⟩
      exact ⟨(),rfl,rfl⟩

theorem decode_eq_ok_iff_encode (tag : Tag) (bytes : Bytes) (record : Record) :
    (decode tag bytes=.ok record ↔ record.tag=tag ∧ encode record=some bytes ∧ record.textsFit) ∧
    (bytes.length ≤ maxFrameBody →
      (decode tag bytes=.ok record ↔ record.tag=tag ∧ encode record=some bytes)) := by
  have hread : decode tag bytes=.ok record ↔
      record.tag=tag ∧ encode record=some bytes ∧ record.textsFit := by
    rw [decode_eq_ok,getRecord_eq_some]
    constructor
    · rintro ⟨htag,hfits,x,hx,rfl⟩
      rw [append_nil]
      exact ⟨htag,hx,hfits⟩
    · rintro ⟨htag,hx,hfits⟩
      exact ⟨htag,hfits,bytes,hx,(append_nil _).symm⟩
  refine ⟨hread,fun hle => ?_⟩
  rw [hread]
  constructor
  · rintro ⟨htag,hx,-⟩
    exact ⟨htag,hx⟩
  · rintro ⟨htag,hx⟩
    exact ⟨htag,hx,textsFit_of_le hx hle⟩

def openedAt (text : String) : Record :=
  .sessionOpened ⟨FixedBytes.zero 16,1,1,⟨0,0,0⟩,text⟩

theorem exists_encode_openedAt {text : String} (h : (utf8 text).length < 2^64) :
    ∃ bytes, encode (openedAt text)=some bytes := by
  have htext : Wire.put text=some _ := putBytes_eq_some.mpr ⟨h,rfl⟩
  rw [show encode (openedAt text)=putFields [Wire.put (FixedBytes.zero 16),Wire.put (1 : UInt64),
    Wire.put (1 : UInt64),Wire.put (⟨0,0,0⟩ : SessionCursor),Wire.put text] from rfl,htext]
  exact ⟨_,rfl⟩

/-- A record with a text longer than a frame is encoded and not decoded. -/
theorem exists_encode_not_decoded :
    ∃ record bytes, encode record=some bytes ∧ decode record.tag bytes≠.ok record := by
  have hlength : (utf8 (String.ofList (replicate (maxFrameBody+1) 'x'))).length=maxFrameBody+1 := by
    rw [utf8_replicate,length_replicate]
  obtain ⟨bytes,hbytes⟩ := exists_encode_openedAt (by rw [hlength]; decide)
  refine ⟨_,bytes,hbytes,fun hdecode => ?_⟩
  have hfits : (utf8 (String.ofList (replicate (maxFrameBody+1) 'x'))).length ≤ maxFrameBody :=
    (getRecord_eq_some.mp (decode_eq_ok.mp hdecode)).2.1.2.2.2.2.1
  rw [hlength] at hfits
  exact absurd hfits (Nat.not_succ_le_self _)

end Remanence.TapeLog
