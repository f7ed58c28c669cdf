import Remanence.Parity.ProtectedEpoch

/-!
# End-to-end recovery of a protected epoch

After any detectable damage that leaves the sidecar's footer and one metadata
copy, an ordinal whose stripe has lost at most `m` members is rebuilt exactly,
and with more losses recovery refuses.
-/

namespace Remanence.Parity.Recovery

open Foundation Sidecar Codec List ProtectedEpoch

section Epoch

variable {hash : HashFunctions}

theorem fromScopedMap_whole {scopedMap : ScopedFilemarkMap}
    (h : scopedMap.validatedPrefixTapeFiles=none) :
    ∃ boundary, DurableBoundaryState.fromScopedMap scopedMap=.ok boundary ∧
      ∀ (i : ℕ) (entry : TapeFileMapEntry), scopedMap.map.entries[i]?=some entry →
        boundary.containsCommittedTapeFile i=true := by
  refine ⟨_,by rw [DurableBoundaryState.fromScopedMap,h],?_⟩
  intro i entry hi
  have hlt := (List.getElem?_eq_some_iff.mp hi).1
  have hlast : scopedMap.map.entries[scopedMap.map.entries.length-1]?=
      some scopedMap.map.entries[scopedMap.map.entries.length-1] :=
    List.getElem?_eq_getElem (by omega)
  have hnumber := scopedMap.map.tapeFileNumber_eq hlast
  simp only [DurableBoundaryState.containsCommittedTapeFile,getLast?_eq_getElem?,hlast,
    Option.map_some,hnumber,decide_eq_true_eq]
  omega

variable {epoch : ProtectedEpoch hash} {scopedMap : ScopedFilemarkMap} {number : ℕ}
  {entry : TapeFileMapEntry} {tape : Tape} {ordinal : ℕ}

theorem ProtectedEpoch.parityBlocks_eq (epoch : ProtectedEpoch hash) :
    schemeParityBlocks epoch.scheme=
      epoch.descriptor.stripesPerEpoch.toNat*epoch.descriptor.m.toNat := by
  rw [epoch.widths.2.1,epoch.widths.2.2]
  rfl

theorem ProtectedEpoch.rangeWord (epoch : ProtectedEpoch hash) :
    ∃ count : UInt64, checkedSub64 epoch.descriptor.protectedOrdinalEndExclusive
      epoch.descriptor.protectedOrdinalStart=some count ∧ count.toNat=epoch.blocks.length := by
  have hlength := epoch.blocks_length
  have hlt := epoch.descriptor.protectedOrdinalEndExclusive.toNat_lt
  have hword : (UInt64.ofNat epoch.blocks.length).toNat=epoch.blocks.length :=
    UInt64.toNat_ofNat_of_lt' (by rw [UInt64.size]; omega)
  exact ⟨_,checkedSub64_eq_some.mpr (by rw [hword]; exact hlength),hword⟩

variable {decoded : DecodedSidecarIndex} {offset s p : ℕ}

section Ordinal

variable (hlo : epoch.start ≤ ordinal) (hhi : ordinal < epoch.stop)

include hlo hhi

theorem stripeOf_lt :
    stripeOf epoch ordinal < epoch.scheme.stripes ∧ memberOf epoch ordinal < epoch.scheme.k ∧
      memberOf epoch ordinal*epoch.scheme.stripes+stripeOf epoch ordinal=ordinal-epoch.start ∧
      ordinal-epoch.start < epoch.blocks.length := by
  have hstripes := epoch.scheme_valid.one_le_stripes
  have hlength : epoch.start+epoch.blocks.length=epoch.stop := epoch.blocks_length
  have hle := epoch.blocks_bounds.2
  refine ⟨Nat.mod_lt _ hstripes,?_,Nat.div_add_mod' _ _,by omega⟩
  exact Nat.div_lt_of_lt_mul (by omega)

theorem stripeDataShardInEpoch_eq {j : ℕ} (hj : j < epoch.scheme.k) :
    stripeDataShardInEpoch ⟨(stripeAddress epoch ordinal).neighborhood,
        (stripeAddress epoch ordinal).stripeIndex,.data (UInt16.ofNat j)⟩ epoch.start epoch.stop
        epoch.scheme=
      .ok (if j*epoch.scheme.stripes+stripeOf epoch ordinal < epoch.blocks.length then
        .real (epoch.start+(j*epoch.scheme.stripes+stripeOf epoch ordinal)) else .implicitZero) := by
  obtain ⟨hs,_,_,_⟩ := stripeOf_lt hlo hhi
  have hlength : epoch.start+epoch.blocks.length=epoch.stop := epoch.blocks_length
  have hsWord : (stripeAddress epoch ordinal).stripeIndex.toNat=stripeOf epoch ordinal :=
    UInt32.toNat_ofNat_of_lt' (lt_trans hs epoch.scheme.stripesPerNeighborhood.toNat_lt)
  have hjWord := UInt16.toNat_ofNat_of_lt' (lt_trans hj epoch.scheme.dataBlocksPerStripe.toNat_lt)
  rw [←hlength,epoch.scheme_valid.stripeDataShardInEpoch_eq (by omega) (by omega),hsWord,hjWord]

theorem stripe_memberOf : (epoch.stripe (stripeOf epoch ordinal))[memberOf epoch ordinal]?=
      some (epoch.blocks.getD (ordinal-epoch.start) []) := by
  obtain ⟨_,hd,hoffset,hlt⟩ := stripeOf_lt hlo hhi
  rw [stripe,stripeData,getElem?_map,getElem?_range hd,Option.map_some, hoffset]
  simp only [getD_eq_getElem?_getD,getElem?_eq_getElem hlt,Option.getD_some]

end Ordinal

theorem keepVerified_eq {crc64 : Bytes → UInt64} {physical blockSize : ℕ} {original : Bytes}
    {read : Except ParityError TapeRecord} (hread : read=.ok (tape physical))
    (hlen : original.length=blockSize)
    (h : read=.ok (.record original) ∨ ∃ record, read=.ok record ∧
      Detected blockSize (fun bytes => crc64 bytes=crc64 original) record) :
    keepVerified (readRequiredBlock tape physical blockSize) crc64 (crc64 original)=
      if tape physical=.record original then some original else none := by
  subst hread
  simp only [Except.ok.injEq,exists_eq_left'] at h
  by_cases hstands : tape physical=.record original
  · rw [if_pos hstands,readRequiredBlock_eq_ok.mpr ⟨hstands,hlen⟩,keepVerified,
      if_neg (not_not.mpr rfl)]
  · rw [if_neg hstands]
    have hdetected := h.resolve_left hstands
    cases hread : readRequiredBlock tape physical blockSize with
    | error _ => rfl
    | ok block =>
      obtain ⟨hrecord,hblock⟩ := readRequiredBlock_eq_ok.mp hread
      rw [keepVerified,if_pos (hdetected block hrecord hblock)]

theorem dataCrcForOrdinal_eq (hacquired : AcquiredIndex epoch.descriptor epoch.file decoded)
    (hoffset : offset < epoch.blocks.length) :
    dataCrcForOrdinal decoded (epoch.start+offset) epoch.start=
      .ok (dataShardCrc64 (epoch.blocks.getD offset [])) := by
  have hlength : epoch.start+epoch.blocks.length=epoch.stop := epoch.blocks_length
  have hstop : decoded.header.protectedOrdinalEndExclusive.toNat=epoch.stop := by
    rw [stop,←hacquired.descriptor_eq]
    rfl
  have hcrcs : decoded.index.dataShardCrc64s=epoch.blocks.map dataShardCrc64 := by
    rw [hacquired.index_eq,epoch.sidecar.index_eq]
    rfl
  simp only [dataCrcForOrdinal,eq_ok,hstop,hcrcs,
    Nat.add_sub_cancel_left,getElem?_map,getElem?_eq_getElem hoffset,Option.map_some,
    getD_eq_getElem?_getD,Option.getD_some]
  exact ⟨(),by omega,trivial⟩

theorem mem_lostMembers {map : FilemarkMap} {j : ℕ} :
    j ∈ lostMembers epoch map number tape ordinal ↔ j < epoch.scheme.k+epoch.scheme.m ∧
      (j=memberOf epoch ordinal ∨
        ¬MemberStands epoch map number tape (stripeOf epoch ordinal) j) := by
  rw [lostMembers,Finset.mem_filter,Finset.mem_range]

theorem parityBlock_getD (hs : s < epoch.scheme.stripes) (hp : p < epoch.scheme.m) :
    epoch.file.blocks[parityBlock epoch s p]?=some ((epoch.parityOf s).getD p []) ∧
      ((epoch.parityOf s).getD p []).length=epoch.blockSize := by
  obtain ⟨_,hm,hstripes⟩ := epoch.widths
  have hblock := epoch.sidecar.block_at (p := p) (s := s) (by omega) (by omega)
  have hmember := epoch.getElem?_parity hs hp
  rw [hm,hstripes,hmember] at hblock
  exact ⟨hblock,epoch.sidecar.shard_length _ (mem_of_getElem? hmember)⟩

theorem find_parityEntry (hs : s < epoch.scheme.stripes) (hp : p < epoch.scheme.m) :
    epoch.file.index.parityEntries.find? (fun entry =>
        entry.stripeIndex=UInt32.ofNat s && entry.parityIndex=UInt16.ofNat p)=
      some ⟨UInt32.ofNat s,UInt16.ofNat p,parityShardCrc64 ((epoch.parityOf s).getD p [])⟩ := by
  obtain ⟨_,hm,hstripes⟩ := epoch.widths
  have hmember := epoch.getElem?_parity hs hp
  have hentry : ∀ (i : ℕ) (shard : Bytes), epoch.parity.flatten[i]?=some shard →
      epoch.file.index.parityEntries[i]?=some (shardEntry epoch.descriptor shard i) := by
    intro i shard hshard
    rw [epoch.sidecar.index_eq,shardIndex,getElem?_map,getElem?_zipIdx,hshard]
    simp
  have hat := hentry _ _ hmember
  have hquot : (s*epoch.scheme.m+p)/epoch.scheme.m=s := by
    rw [mul_comm,Nat.mul_add_div (by omega),Nat.div_eq_of_lt hp,add_zero]
  have hrem : (s*epoch.scheme.m+p)%epoch.scheme.m=p := by
    rw [mul_comm,Nat.mul_add_mod,Nat.mod_eq_of_lt hp]
  rw [shardEntry,hm,hquot,hrem] at hat
  obtain ⟨hlt,hget⟩ := List.getElem?_eq_some_iff.mp hat
  rw [find?_eq_some_iff_getElem]
  refine ⟨by simp,_,hlt,hget,?_⟩
  intro i hi
  -- an earlier entry has another stripe or another parity index
  have hilt : i < epoch.parity.flatten.length := by
    have hmemberLt := (List.getElem?_eq_some_iff.mp hmember).1
    omega
  have hother := hentry i _ (getElem?_eq_getElem hilt)
  obtain ⟨_,hotherGet⟩ := List.getElem?_eq_some_iff.mp hother
  obtain ⟨hrow,hcol⟩ := epoch.sidecar.position_lt hilt
  rw [hotherGet,Bool.not_eq_true',Bool.and_eq_false_iff,decide_eq_false_iff_not,
    decide_eq_false_iff_not]
  by_contra hsame
  rw [not_or,not_not,not_not] at hsame
  obtain ⟨hsameStripe,hsameParity⟩ := hsame
  have hstripeNat := congrArg UInt32.toNat hsameStripe
  have hparityNat := congrArg UInt16.toNat hsameParity
  simp only [shardEntry] at hstripeNat hparityNat
  rw [UInt32.toNat_ofNat_of_lt' (lt_trans hcol epoch.descriptor.stripesPerEpoch.toNat_lt),
    UInt32.toNat_ofNat_of_lt' (lt_trans hs epoch.scheme.stripesPerNeighborhood.toNat_lt)]
    at hstripeNat
  rw [UInt16.toNat_ofNat_of_lt' (lt_trans hrow epoch.descriptor.m.toNat_lt),
    UInt16.toNat_ofNat_of_lt' (lt_trans hp epoch.scheme.parityBlocksPerStripe.toNat_lt)]
    at hparityNat
  have hi' := Nat.div_add_mod' i epoch.descriptor.m.toNat
  rw [hstripeNat,hparityNat,hm] at hi'
  omega

theorem members_eq_erased {lost : Finset ℕ} (hs : s < epoch.scheme.stripes) :
    ((List.range epoch.scheme.k).map fun j =>
        if j ∈ lost then none else some ((epoch.stripe s).getD j []))++
      ((List.range epoch.scheme.m).map fun p =>
        if p+epoch.scheme.k ∈ lost then none else some ((epoch.parityOf s).getD p []))=
      eraseShards lost (epoch.stripe s++epoch.parityOf s) := by
  have hlength : (epoch.stripe s).length=epoch.scheme.k := by
    rw [(epoch.stripe_shape s).length_eq,epoch.codec_spec.1]
  have hparity := epoch.length_parityOf hs
  rw [eraseShards_append,eraseShards_eq_map,hlength]
  congr 1
  apply ext_getElem
  · rw [length_map,length_range,length_mapIdx,hparity]
  · intro p h1 h2
    have hp : p < (epoch.parityOf s).length := by simpa using h2
    simp [getD_eq_getElem?_getD,getElem?_eq_getElem hp]

/-- What recovery establishes before it reads the sidecar. -/
structure Admitted (scopedMap : ScopedFilemarkMap) (number ordinal : ℕ)
    (boundary : DurableBoundaryState) (position : TapeFilePosition) (physical : ℕ) : Prop where
  boundary_eq : DurableBoundaryState.fromScopedMap scopedMap=.ok boundary
  inside : ∀ (i : ℕ) (entry : TapeFileMapEntry), scopedMap.map.entries[i]?=some entry →
    boundary.containsCommittedTapeFile i=true
  recoverable : scopedMap.scope.recoverable ordinal=.ok ()
  position_eq : scopedMap.map.positionForOrdinal ordinal=.ok position
  physical_eq : scopedMap.map.physicalPosition position=.ok physical
  object : ensureInsideDurableRecoveryBoundary scopedMap boundary position.tapeFileNumber
    ordinal=.ok ()
  sidecar : ensureInsideDurableRecoveryBoundary scopedMap boundary number ordinal=.ok ()

variable {parse : ParityMapParser}

section Laid

variable (h : LaidOut epoch scopedMap number entry)

include h

theorem LaidOut.sidecarRange_eq : sidecarRange entry=.ok (epoch.descriptor.protectedOrdinalStart,
      epoch.descriptor.protectedOrdinalEndExclusive,epoch.descriptor.epochId) := by
  have hlength := epoch.blocks_length
  have hpos := epoch.blocks_bounds.1
  have hlt : epoch.descriptor.protectedOrdinalStart <
      epoch.descriptor.protectedOrdinalEndExclusive := by
    rw [UInt64.lt_iff_toNat_lt]
    omega
  simp only [sidecarRange,h.row.epochId,h.row.start,h.row.stop,if_pos hlt]

theorem LaidOut.validateSidecar (hacquired : AcquiredIndex epoch.descriptor epoch.file decoded) :
    validateSidecarForRecovery decoded entry epoch.scheme epoch.descriptor.epochId
      epoch.descriptor.blockSize=.ok () := by
  have hrange := hacquired.range
  have hrow := h.row
  have hk := epoch.k_eq
  have hm := epoch.m_eq
  have hstripes := epoch.stripes_eq
  rw [←hacquired.descriptor_eq] at hrow hk hm hstripes ⊢
  simp only [SidecarHeader.descriptor] at hk hm hstripes
  simp only [validateSidecarForRecovery,SidecarHeader.descriptor,hrange,orElseError_some,ok_bind,
    eq_ok,hrow.start,hrow.stop,hk,hm,hstripes,ne_eq,not_true_eq_false,or_self,
    not_false_eq_true,true_and,exists_const]

theorem LaidOut.position (hoffset : offset < epoch.blocks.length) :
    ∃ (i block physical : ℕ) (file : TapeFileMapEntry),
      scopedMap.map.positionForOrdinal (epoch.start+offset)=.ok ⟨i,block⟩ ∧
      scopedMap.map.entries[i]?=some file ∧
      scopedMap.map.physicalPosition ⟨i,block⟩=.ok physical := by
  have hlength : epoch.start+epoch.blocks.length=epoch.stop := epoch.blocks_length
  have hdescribed := h.described
  have hbelow : epoch.start+offset < scopedMap.map.totalDataOrdinals := by omega
  obtain ⟨⟨i,block⟩,hposition⟩ := FilemarkMap.exists_positionForOrdinal.mpr hbelow
  obtain ⟨file,⟨hi,hblock⟩,_⟩ := FilemarkMap.positionForOrdinal_eq_ok.mp hposition
  exact ⟨i,block,_,file,hposition,hi,scopedMap.map.physicalPosition_eq_ok hi hblock⟩

variable {boundary : DurableBoundaryState}

theorem LaidOut.readDataPeer (hdamaged : Damaged epoch scopedMap.map number tape)
    (hacquired : AcquiredIndex epoch.descriptor epoch.file decoded)
    (hboundary : ∀ (i : ℕ) (entry : TapeFileMapEntry), scopedMap.map.entries[i]?=some entry →
      boundary.containsCommittedTapeFile i=true)
    (hoffset : offset < epoch.blocks.length) :
    readVerifiedDataPeer tape scopedMap decoded (epoch.start+offset) epoch.start epoch.blockSize
      boundary=.ok (if DataStands epoch scopedMap.map tape offset
        then some (epoch.blocks.getD offset []) else none) := by
  obtain ⟨i,block,physical,file,hposition,hfile,hphysical⟩ := h.position hoffset
  have hrecord : ordinalRecord tape scopedMap.map (epoch.start+offset)=.ok (tape physical) := by
    simp only [ordinalRecord,hposition,ok_bind,recordAt,hphysical,pure_eq_ok]
  have hlen : (epoch.blocks.getD offset []).length=epoch.blockSize := by
    rw [getD_eq_getElem?_getD,getElem?_eq_getElem hoffset,Option.getD_some]
    exact epoch.block_length _ (getElem_mem hoffset)
  simp only [readVerifiedDataPeer,dataCrcForOrdinal_eq hacquired hoffset,ok_bind,hposition,
    hboundary i file hfile,if_true,hphysical,pure_eq_ok,DataStands,hrecord,
    keepVerified_eq hrecord hlen (hdamaged.data offset hoffset),Except.ok.injEq]

theorem LaidOut.readParityPeer (hdamaged : Damaged epoch scopedMap.map number tape)
    (hacquired : AcquiredIndex epoch.descriptor epoch.file decoded) (hs : s < epoch.scheme.stripes)
    (hp : p < epoch.scheme.m) :
    readVerifiedParityPeer tape scopedMap entry decoded.header
        ⟨UInt32.ofNat s,UInt16.ofNat p,parityShardCrc64 ((epoch.parityOf s).getD p [])⟩
        epoch.blockSize=
      .ok (if Stands tape scopedMap.map number epoch.file (parityBlock epoch s p)
        then some ((epoch.parityOf s).getD p []) else none) := by
  obtain ⟨_,hm,hstripes⟩ := epoch.widths
  obtain ⟨hblock,hlen⟩ := parityBlock_getD hs hp
  have hlt := (List.getElem?_eq_some_iff.mp hblock).1
  have hgetD : epoch.file.blocks.getD (parityBlock epoch s p) []=(epoch.parityOf s).getD p [] := by
    rw [List.getD_eq_getElem?_getD,hblock,Option.getD_some]
  have hmax := length_blocks_le epoch.sidecar
  have hheaderStripes : decoded.header.stripesPerEpoch=epoch.scheme.stripesPerNeighborhood := by
    rw [←epoch.stripes_eq,←hacquired.descriptor_eq]
    rfl
  have hheaderM : decoded.header.m=epoch.scheme.parityBlocksPerStripe := by
    rw [←epoch.m_eq,←hacquired.descriptor_eq]
    rfl
  have hposition : parityBlockPosition (UInt32.ofNat s) (UInt16.ofNat p)
      decoded.header.stripesPerEpoch decoded.header.m decoded.header.shardIndexBlockCount=
        .ok (parityBlock epoch s p) := by
    rw [hheaderStripes,hheaderM,hacquired.blocks_eq,SidecarFile.parityBlockPosition_eq_ok hs hp]
    exact ⟨le_trans (le_of_lt hlt) hmax,rfl⟩
  obtain ⟨physical,hphysical⟩ : ∃ physical, scopedMap.map.physicalPosition
      ⟨number,parityBlock epoch s p⟩=.ok physical :=
    ⟨_,scopedMap.map.physicalPosition_eq_ok h.row.entry_at (by rw [h.row.blockCount_eq]; exact hlt)⟩
  have hrecord : recordAt tape scopedMap.map ⟨number,parityBlock epoch s p⟩=
      .ok (tape physical) := by
    simp only [recordAt,hphysical,ok_bind,pure_eq_ok]
  have hstate := hdamaged.parity s hs p hp
  rw [Stands,hgetD] at hstate
  simp only [readVerifiedParityPeer,hposition,ok_bind,h.row.number_eq,hphysical,pure_eq_ok,
    keepVerified_eq hrecord hlen hstate,Stands,hrecord,hgetD,Except.ok.injEq]

variable (hlo : epoch.start ≤ ordinal) (hhi : ordinal < epoch.stop)

include hlo hhi

theorem LaidOut.findSidecar : findSidecarCoveringOrdinal scopedMap ordinal=.ok entry := by
  rw [findSidecarCoveringOrdinal,orElseError_eq_ok,find?_eq_some_iff_getElem]
  have hrow := h.row
  obtain ⟨hnumber,hget⟩ := List.getElem?_eq_some_iff.mp hrow.entry_at
  refine ⟨?_,number,hnumber,hget,?_⟩
  · simp only [hrow.kind,hrow.start,hrow.stop,decide_true,Bool.true_and,Bool.and_eq_true,
      decide_eq_true_eq]
    exact ⟨hlo,hhi⟩
  · intro i hi
    have hother := getElem?_eq_getElem (l := scopedMap.map.entries) (i := i) (by omega)
    rw [Bool.not_eq_true',Bool.and_eq_false_iff]
    by_cases hkind : (scopedMap.map.entries[i]).kind=.paritySidecar
    · right
      split
      · rename_i a b ha hb
        rcases h.first i _ hi hother hkind a b ha hb with hle | hle
        · rw [Bool.and_eq_false_iff,decide_eq_false_iff_not,decide_eq_false_iff_not]
          omega
        · rw [Bool.and_eq_false_iff,decide_eq_false_iff_not,decide_eq_false_iff_not]
          omega
      · rfl
    · left
      exact decide_eq_false hkind

theorem LaidOut.stripeForSidecarOrdinal_eq :
    stripeForSidecarOrdinal entry ordinal epoch.scheme=.ok (stripeAddress epoch ordinal) := by
  obtain ⟨count,hcount,hcountNat⟩ := epoch.rangeWord
  obtain ⟨hpos,hle⟩ := epoch.blocks_bounds
  obtain ⟨_,_,_,hoffset⟩ := stripeOf_lt hlo hhi
  have hvalid := epoch.scheme_valid
  have hbound : epoch.scheme.stripes*epoch.scheme.k ≤ u64Max := by
    have hneighborhood := hvalid.blocks_le
    have hmono : epoch.scheme.stripes*epoch.scheme.k ≤ epoch.scheme.neighborhoodBlocks :=
      Nat.mul_le_mul_left _ (Nat.le_add_right _ _)
    have hmax : u32Max ≤ u64Max := by decide +kernel
    omega
  have hfilter : (some count).filter (fun count => decide (1 ≤ count.toNat) &&
      decide (count.toNat ≤ epoch.scheme.stripes*epoch.scheme.k))=some count := by
    rw [Option.filter_eq_some_iff]
    refine ⟨rfl,?_⟩
    rw [Bool.and_eq_true,decide_eq_true_eq,decide_eq_true_eq]
    omega
  simp only [stripeForSidecarOrdinal,h.row.epochId,h.row.start,h.row.stop,ok_bind,hcount,hfilter,
    orElseError_some,ordinalToStripeInEpoch,dataShardsPerEpoch,eq_ok,
    hcountNat]
  exact ⟨_,⟨(),by omega,(),by omega,rfl⟩,(),by omega,(),not_lt.mpr hlo,(),
    not_le.mpr hoffset,rfl⟩

theorem LaidOut.readDataMembers_eq (hdamaged : Damaged epoch scopedMap.map number tape)
    (hacquired : AcquiredIndex epoch.descriptor epoch.file decoded)
    (hboundary : ∀ (i : ℕ) (entry : TapeFileMapEntry), scopedMap.map.entries[i]?=some entry →
      boundary.containsCommittedTapeFile i=true) :
    readDataMembers tape scopedMap decoded boundary epoch.scheme (stripeAddress epoch ordinal)
        (memberOf epoch ordinal) epoch.start epoch.blockSize epoch.scheme.k=
      .ok ((List.range epoch.scheme.k).map fun j =>
        if j ∈ lostMembers epoch scopedMap.map number tape ordinal then none
        else some ((epoch.stripe (stripeOf epoch ordinal)).getD j [])) := by
  have hstop : decoded.header.protectedOrdinalEndExclusive.toNat=epoch.stop := by
    rw [stop,←hacquired.descriptor_eq]
    rfl
  apply mapM_eq_ok_map
  intro j hj
  have hlt := mem_range.mp hj
  have hbelow : j < epoch.scheme.k+epoch.scheme.m := by omega
  by_cases hself : j=memberOf epoch ordinal
  · rw [if_pos hself,if_pos (mem_lostMembers.mpr ⟨hbelow,.inl hself⟩)]
  · rw [if_neg hself,hstop,stripeDataShardInEpoch_eq hlo hhi hlt,ok_bind,←rowAt,stripe,rowAt_stripeData hlt]
    have hlost : j ∈ lostMembers epoch scopedMap.map number tape ordinal ↔
        ¬MemberStands epoch scopedMap.map number tape (stripeOf epoch ordinal) j := by
      rw [mem_lostMembers]
      exact ⟨fun hmem => hmem.2.resolve_left hself,fun hstands => ⟨hbelow,.inr hstands⟩⟩
    rw [MemberStands,if_pos hlt] at hlost
    by_cases hreal : j*epoch.scheme.stripes+stripeOf epoch ordinal < epoch.blocks.length
    · rw [if_pos hreal]
      simp only [h.readDataPeer hdamaged hacquired hboundary hreal]
      by_cases hstands : DataStands epoch scopedMap.map tape
          (j*epoch.scheme.stripes+stripeOf epoch ordinal)
      · rw [if_pos hstands,if_neg (fun hmem => hlost.mp hmem fun _ => hstands)]
        simp only [getD_eq_getElem?_getD,getElem?_eq_getElem hreal,Option.getD_some]
      · rw [if_neg hstands,if_pos (hlost.mpr fun hall => hstands (hall hreal))]
    · rw [if_neg hreal,if_neg (fun hmem => hlost.mp hmem fun hlt' => absurd hlt' hreal)]
      simp only [getD_eq_getElem?_getD,getElem?_eq_none (not_lt.mp hreal),
        Option.getD_none,pure_eq_ok]

theorem LaidOut.readParityMembers_eq (hdamaged : Damaged epoch scopedMap.map number tape)
    (hacquired : AcquiredIndex epoch.descriptor epoch.file decoded) :
    readParityMembers tape scopedMap entry decoded (stripeAddress epoch ordinal) epoch.blockSize
        epoch.scheme.m=
      .ok ((List.range epoch.scheme.m).map fun p =>
        if p+epoch.scheme.k ∈ lostMembers epoch scopedMap.map number tape ordinal then none
        else some ((epoch.parityOf (stripeOf epoch ordinal)).getD p [])) := by
  obtain ⟨hs,hd,_,_⟩ := stripeOf_lt hlo hhi
  apply mapM_eq_ok_map
  intro p hp
  have hlt := mem_range.mp hp
  have hlost : p+epoch.scheme.k ∈ lostMembers epoch scopedMap.map number tape ordinal ↔
      ¬Stands tape scopedMap.map number epoch.file (parityBlock epoch (stripeOf epoch ordinal) p) := by
    rw [mem_lostMembers,MemberStands,if_neg (by omega),Nat.add_sub_cancel]
    constructor
    · rintro ⟨_,hself | hstands⟩
      · omega
      · exact hstands
    · exact fun hstands => ⟨by omega,.inr hstands⟩
  have hfind : decoded.index.parityEntries.find? (fun entry =>
      entry.stripeIndex=(stripeAddress epoch ordinal).stripeIndex &&
        entry.parityIndex=UInt16.ofNat p)=some ⟨UInt32.ofNat (stripeOf epoch ordinal),
          UInt16.ofNat p,
          parityShardCrc64 ((epoch.parityOf (stripeOf epoch ordinal)).getD p [])⟩ := by
    rw [hacquired.index_eq]
    exact find_parityEntry hs hlt
  rw [hfind]
  simp only [h.readParityPeer hdamaged hacquired hs hlt]
  by_cases hstands : Stands tape scopedMap.map number epoch.file
      (parityBlock epoch (stripeOf epoch ordinal) p)
  · rw [if_pos hstands,if_neg fun hmem => hlost.mp hmem hstands]
  · rw [if_neg hstands,if_pos (hlost.mpr hstands)]

theorem LaidOut.admitted :
    ∃ boundary position physical, Admitted scopedMap number ordinal boundary position physical := by
  obtain ⟨_,_,_,hlt⟩ := stripeOf_lt hlo hhi
  obtain ⟨boundary,hboundary,hinside⟩ := fromScopedMap_whole h.whole
  obtain ⟨watermark,hscope,hwatermark⟩ := h.scope
  obtain ⟨i,block,physical,file,hposition,hfile,hphysical⟩ := h.position hlt
  rw [Nat.add_sub_cancel' hlo] at hposition
  have hensure : ∀ (n : ℕ) (e : TapeFileMapEntry), scopedMap.map.entries[n]?=some e →
      ensureInsideDurableRecoveryBoundary scopedMap boundary n ordinal=.ok () := by
    intro n e he
    rw [ensureInsideDurableRecoveryBoundary,if_pos (hinside n e he)]
  refine ⟨boundary,⟨i,block⟩,physical,hboundary,hinside,?_,hposition,hphysical,
    hensure i file hfile,hensure number entry h.row.entry_at⟩
  simp only [hscope,MapScope.recoverable,MapScope.watermark]
  exact rejectIf_pos (by omega)

theorem LaidOut.recover_eq
    (hdamaged : Damaged epoch scopedMap.map number tape) {read : SidecarIndexRead}
    (hread : readAndParseSidecarIndex hash tape scopedMap entry epoch.descriptor.tapeUuid
      epoch.blockSize parse epoch.scheme=.ok read)
    (hacquired : AcquiredIndex epoch.descriptor epoch.file read.index) :
    ∃ position physical, scopedMap.map.physicalPosition position=.ok physical ∧
      recoverOrdinalFromSidecar hash parse tape scopedMap epoch.scheme epoch.descriptor.tapeUuid
          epoch.descriptor.blockSize ordinal=
        rebuildOrdinal epoch.codec scopedMap entry read position (stripeAddress epoch ordinal)
          ordinal (memberOf epoch ordinal) epoch.start epoch.blockSize
          (eraseShards (lostMembers epoch scopedMap.map number tape ordinal)
            (epoch.stripe (stripeOf epoch ordinal)++epoch.parityOf (stripeOf epoch ordinal))) := by
  obtain ⟨hs,hd,_,_⟩ := stripeOf_lt hlo hhi
  obtain ⟨boundary,position,physical,hadmitted⟩ := h.admitted hlo hhi
  have hindex : dataIndexOf (stripeAddress epoch ordinal)=.ok (memberOf epoch ordinal) := by
    simp only [dataIndexOf,stripeAddress,Except.ok.injEq]
    exact UInt16.toNat_ofNat_of_lt' (lt_trans hd epoch.scheme.dataBlocksPerStripe.toNat_lt)
  obtain ⟨hk,hm,_⟩ := epoch.codec_spec
  have hdata := h.readDataMembers_eq hlo hhi hdamaged hacquired hadmitted.inside
  have hparity := h.readParityMembers_eq hlo hhi hdamaged hacquired
  refine ⟨position,physical,hadmitted.physical_eq,?_⟩
  rw [←members_eq_erased hs]
  rw [blockSize] at hread hdata hparity
  rw [start] at hdata
  simp only [recoverOrdinalFromSidecar,hadmitted.boundary_eq,ok_bind,hadmitted.recoverable,
    hadmitted.position_eq,hadmitted.object,h.findSidecar hlo hhi,h.sidecarRange_eq,h.row.number_eq,
    hadmitted.sidecar,hread,h.validateSidecar hacquired,h.stripeForSidecarOrdinal_eq hlo hhi,hindex,
    epoch.codec_eq,hk,hm,hdata,hparity]
  rfl

theorem LaidOut.recover_error {error : ParityError}
    (hread : readAndParseSidecarIndex hash tape scopedMap entry epoch.descriptor.tapeUuid
      epoch.descriptor.blockSize.toNat parse epoch.scheme=.error error) :
    recoverOrdinalFromSidecar hash parse tape scopedMap epoch.scheme epoch.descriptor.tapeUuid
      epoch.descriptor.blockSize ordinal=.error error := by
  obtain ⟨boundary,position,physical,hadmitted⟩ := h.admitted hlo hhi
  simp only [recoverOrdinalFromSidecar,hadmitted.boundary_eq,ok_bind,hadmitted.recoverable,
    hadmitted.position_eq,hadmitted.object,h.findSidecar hlo hhi,h.sidecarRange_eq,h.row.number_eq,
    hadmitted.sidecar,hread,error_bind]

end Laid

/-- At most `m` lost members: the rebuilt block is the ordinal's own. -/
theorem rebuildOrdinal_erased {read : SidecarIndexRead} {position : TapeFilePosition} {physical : ℕ}
    (hacquired : AcquiredIndex epoch.descriptor epoch.file read.index)
    (hphysical : scopedMap.map.physicalPosition position=.ok physical) (hlo : epoch.start ≤ ordinal)
    (hhi : ordinal < epoch.stop) {lost : Finset ℕ}
    (hsubset : lost ⊆ Finset.range (epoch.scheme.k+epoch.scheme.m)) :
    let outcome := rebuildOrdinal epoch.codec scopedMap entry read position
      (stripeAddress epoch ordinal) ordinal (memberOf epoch ordinal) epoch.start epoch.blockSize
      (eraseShards lost
        (epoch.stripe (stripeOf epoch ordinal)++epoch.parityOf (stripeOf epoch ordinal)))
    (lost.card ≤ epoch.scheme.m → ∃ result, outcome=.ok result ∧ result.failedOrdinal=ordinal ∧
      result.recoveredBlock=epoch.blocks.getD (ordinal-epoch.start) [] ∧
      result.lostShards.length=lost.card) ∧
    (epoch.scheme.m < lost.card →
      outcome=.error (.unrecoverable (stripeAddress epoch ordinal) lost.card epoch.scheme.m)) := by
  obtain ⟨hs,hd,_,hlt⟩ := stripeOf_lt hlo hhi
  obtain ⟨hk,hm,hcauchy⟩ := epoch.codec_spec
  have hshape := epoch.stripe_shape (stripeOf epoch ordinal)
  have hlength : (epoch.stripe (stripeOf epoch ordinal)++
      epoch.parityOf (stripeOf epoch ordinal)).length=epoch.scheme.k+epoch.scheme.m := by
    rw [length_append,hshape.length_eq,epoch.length_parityOf hs,hk]
  have hwithin := hlength ▸ hsubset
  have hsurvivors := length_survivors hwithin
  have hlost := length_lostShards epoch.codec.k hwithin
  refine ⟨fun hfew => ?_,fun hmany => ?_⟩
  · have hkpos : 0 < epoch.codec.k := by omega
    have hrebuilt := reconstruct_erased hcauchy hkpos epoch.blockSize_pos hshape
      (epoch.encode_stripe hs) (hm ▸ hfew)
    have hmember := stripe_memberOf hlo hhi
    have hfilled : ((epoch.stripe (stripeOf epoch ordinal)++
        epoch.parityOf (stripeOf epoch ordinal)).map some).getD (memberOf epoch ordinal) none=
          some (epoch.blocks.getD (ordinal-epoch.start) []) := by
      rw [getD_eq_getElem?_getD,getElem?_map,
        getElem?_append_left (by rw [hshape.length_eq]; omega),hmember]
      rfl
    have hblock := hshape.row_length _ (mem_of_getElem? hmember)
    have hcrc := dataCrcForOrdinal_eq hacquired hlt
    rw [Nat.add_sub_cancel' hlo] at hcrc
    refine ⟨⟨ordinal,stripeAddress epoch ordinal,entry.tapeFileNumber.toNat,read.metadataHealth,
      epoch.blocks.getD (ordinal-epoch.start) [],_⟩,?_,rfl,rfl,hlost⟩
    simp only [rebuildOrdinal]
    rw [rejectIf_pos (by omega),ok_bind,hrebuilt,ok_bind,hfilled,orElseError_some,ok_bind,
      rejectIf_pos (not_not.mpr hblock),ok_bind,hcrc,ok_bind,rejectIf_pos (not_not.mpr rfl),ok_bind,
      hphysical,ok_bind]
    rfl
  · simp only [rebuildOrdinal]
    rw [rejectIf_neg (by omega),error_bind,hlost,hm]

/-- While no available directory entry names another metadata hash, an ordinal whose stripe has lost
at most `m` members is rebuilt exactly, and with more losses the stripe is unrecoverable. A
contradicting entry makes the metadata unavailable. -/
theorem recoverOrdinalFromSidecar_damaged (h : LaidOut epoch scopedMap number entry)
    (hdamaged : Damaged epoch scopedMap.map number tape) (hlo : epoch.start ≤ ordinal)
    (hhi : ordinal < epoch.stop) :
    let lost := lostMembers epoch scopedMap.map number tape ordinal
    let outcome := recoverOrdinalFromSidecar hash parse tape scopedMap epoch.scheme
      epoch.descriptor.tapeUuid epoch.descriptor.blockSize ordinal
    (DirectoryAgrees parse tape scopedMap epoch.scheme epoch.descriptor epoch.file entry →
      (lost.card ≤ epoch.scheme.m → ∃ result, outcome=.ok result ∧ result.failedOrdinal=ordinal ∧
        result.recoveredBlock=epoch.blocks.getD (ordinal-epoch.start) [] ∧
        result.lostShards.length=lost.card) ∧
      (epoch.scheme.m < lost.card →
        outcome=.error (.unrecoverable (stripeAddress epoch ordinal) lost.card epoch.scheme.m))) ∧
    (¬DirectoryAgrees parse tape scopedMap epoch.scheme epoch.descriptor epoch.file entry →
      outcome=.error (.sidecarMetadataUnavailable epoch.descriptor.epochId)) := by
  refine ⟨fun hagrees => ?_,fun hcontradicts => ?_⟩
  · obtain ⟨read,hread,hacquired⟩ := readAndParseSidecarIndex_survives epoch.sidecar h.row
      hdamaged.metadata epoch.parityBlocks_eq hagrees
    obtain ⟨position,physical,hphysical,hrecover⟩ := h.recover_eq hlo hhi hdamaged hread hacquired
    rw [hrecover]
    exact rebuildOrdinal_erased hacquired hphysical hlo hhi (Finset.filter_subset _ _)
  · exact h.recover_error hlo hhi (readAndParseSidecarIndex_contradicted epoch.sidecar h.row
      hdamaged.metadata.footer epoch.parityBlocks_eq hcontradicts)

end Epoch

def writeEpoch (hash : HashFunctions) (scheme : ParityScheme) (descriptor : SidecarDescriptor)
    (blocks : List Bytes) :
    Except ParityError (ReedSolomonCodec×List (List Bytes)×EncodedSidecarTapeFile) := do
  let codec ← ReedSolomonCodec.new scheme
  let parity ← (List.range scheme.stripes).mapM fun stripe =>
    codec.encode (stripeData scheme descriptor.blockSize.toNat blocks stripe)
  let file ← encodeSidecarTapeFile hash descriptor parity.flatten (blocks.map dataShardCrc64)
  return (codec,parity,file)

def smallScheme : ParityScheme := ⟨"rs-cauchy-gf256-v1",2,1,2⟩

def smallEpochDescriptor : SidecarDescriptor := ⟨FixedBytes.zero 16,0,2,1,2,256,0,3⟩

def smallBlocks : List Bytes := (List.range 3).map fun i => replicate 256 (UInt8.ofNat (i+1))

def fileShape (file : EncodedSidecarTapeFile) : ℕ×ℕ×ℕ×FixedBytes 32 :=
  (file.blocks.length,file.header.shardIndexBlockCount.toNat,
    file.header.tailHeaderStartBlock.toNat,file.header.canonicalMetadataHash)

structure SmallEpoch (epoch : ProtectedEpoch constantHash) : Prop where
  scheme_eq : epoch.scheme=smallScheme
  descriptor_eq : epoch.descriptor=smallEpochDescriptor
  blocks_eq : epoch.blocks=smallBlocks
  length_eq : epoch.file.blocks.length=7
  copy_eq : epoch.file.header.shardIndexBlockCount.toNat=2
  tail_eq : epoch.file.header.tailHeaderStartBlock.toNat=4
  hash_eq : epoch.file.header.canonicalMetadataHash=FixedBytes.zero 32

/-- The small epoch is written: two copies of two blocks, two parity blocks
and the footer. -/
theorem exists_smallEpoch : ∃ epoch : ProtectedEpoch constantHash, SmallEpoch epoch := by
  have hwrite : (writeEpoch constantHash smallScheme smallEpochDescriptor smallBlocks).toOption.map
      (fun result => fileShape result.2.2)=some (7,2,4,FixedBytes.zero 32) := by
    decide +kernel
  obtain ⟨result,hresult,hshape⟩ := exists_of_map hwrite
  simp only [writeEpoch,eq_ok] at hresult
  obtain ⟨codec,hcodec,parity,hparity,file,hfile,rfl⟩ := hresult
  simp only [fileShape,Prod.mk.injEq] at hshape
  obtain ⟨hlength,hcopy,htail,hhash⟩ := hshape
  refine ⟨⟨smallScheme,smallEpochDescriptor,smallBlocks,codec,parity,file,rfl,rfl,rfl,rfl,?_,hcodec,
    hparity,hfile⟩,rfl,rfl,rfl,hlength,hcopy,htail,hhash⟩
  intro block hblock
  obtain ⟨i,_,rfl⟩ := mem_map.mp hblock
  exact length_replicate

def smallMap : FilemarkMap where
  entries := [.bootstrap 0 1,.object 1 3 0,.paritySidecar 2 7 0 0 3]
  valid := by decide +kernel

def smallScoped (directory : Option SidecarEpochDirectory) : ScopedFilemarkMap :=
  ⟨smallMap,none,.complete 3,directory,.catalog⟩

def smallTape (file : EncodedSidecarTapeFile) (unreadable : List ℕ) : Tape := fun lba =>
  if lba ∈ unreadable then .unreadable ⟨true,"medium error"⟩
  else if lba=1 ∨ lba=5 then .filemark
  else if 2 ≤ lba ∧ lba < 5 then .record (smallBlocks.getD (lba-2) [])
  else if 6 ≤ lba ∧ lba < 13 then .record (file.blocks.getD (lba-6) [])
  else .endOfData

variable {file : EncodedSidecarTapeFile}

theorem recordAt_smallTape {unreadable : List ℕ} {b : ℕ} (hb : b < 7) :
    recordAt (smallTape file unreadable) smallMap ⟨2,b⟩=
      .ok (if 6+b ∈ unreadable then .unreadable ⟨true,"medium error"⟩
        else .record (file.blocks.getD b [])) := by
  have hposition : smallMap.physicalPosition ⟨2,b⟩=.ok (6+b) :=
    smallMap.physicalPosition_eq_ok (i := 2) rfl hb
  rw [recordAt,hposition,ok_bind,pure_eq_ok,smallTape]
  by_cases hmem : 6+b ∈ unreadable
  · rw [if_pos hmem,if_pos hmem]
  · rw [if_neg hmem,if_neg hmem,if_neg (by omega),if_neg (by omega),if_pos (by omega),
      Nat.add_sub_cancel_left]

theorem ordinalRecord_smallTape {unreadable : List ℕ} {offset : ℕ} (hoffset : offset < 3) :
    ordinalRecord (smallTape file unreadable) smallMap offset=
      .ok (if 2+offset ∈ unreadable then .unreadable ⟨true,"medium error"⟩
        else .record (smallBlocks.getD offset [])) := by
  have hordinal : smallMap.positionForOrdinal offset=.ok ⟨1,offset⟩ := by
    interval_cases offset <;> rfl
  have hposition : smallMap.physicalPosition ⟨1,offset⟩=.ok (2+offset) :=
    smallMap.physicalPosition_eq_ok (i := 1) rfl hoffset
  rw [ordinalRecord,hordinal,ok_bind,recordAt,hposition,ok_bind,pure_eq_ok,smallTape]
  by_cases hmem : 2+offset ∈ unreadable
  · rw [if_pos hmem,if_pos hmem]
  · rw [if_neg hmem,if_neg hmem,if_neg (by omega),if_pos (by omega),Nat.add_sub_cancel_left]

theorem detected_unreadable (blockSize : ℕ) (check : Bytes → Prop) (fault : TapeFault) :
    Detected blockSize check (.unreadable fault) := by
  intro bytes hbytes
  cases hbytes

namespace SmallEpoch

variable {epoch : ProtectedEpoch constantHash} {unreadable : List ℕ}

theorem bounds (h : SmallEpoch epoch) : epoch.start=0 ∧ epoch.stop=3 := by
  rw [start,stop,h.descriptor_eq]
  exact ⟨rfl,rfl⟩

theorem laidOut (h : SmallEpoch epoch) (directory : Option SidecarEpochDirectory) :
    LaidOut epoch (smallScoped directory) 2 (.paritySidecar 2 7 0 0 3) := by
  have hstop := h.bounds.2
  refine
    { scope := ⟨3,rfl,by omega⟩
      whole := rfl
      described := by rw [hstop]; exact (by decide : 3 ≤ smallMap.totalDataOrdinals)
      row := ⟨rfl,rfl,h.length_eq.symm,?_,?_,?_⟩
      first := ?_ }
  · rw [h.descriptor_eq]
    rfl
  · rw [h.descriptor_eq]
    rfl
  · rw [h.descriptor_eq]
    rfl
  · intro i other hi hother hkind
    interval_cases i
    · obtain rfl := Option.some.inj hother
      cases hkind
    · obtain rfl := Option.some.inj hother
      cases hkind

theorem stands {b : ℕ} (hb : b < 7) (hread : 6+b ∉ unreadable) :
    Stands (smallTape epoch.file unreadable) smallMap 2 epoch.file b := by
  rw [Stands,recordAt_smallTape hb,if_neg hread]

theorem stands_or_detected {b blockSize : ℕ} (check : Bytes → Prop) (hb : b < 7) :
    Stands (smallTape epoch.file unreadable) smallMap 2 epoch.file b ∨
      ∃ record, recordAt (smallTape epoch.file unreadable) smallMap ⟨2,b⟩=.ok record ∧
        Detected blockSize check record := by
  by_cases hread : 6+b ∈ unreadable
  · exact .inr ⟨_,by rw [recordAt_smallTape hb,if_pos hread],detected_unreadable _ _ _⟩
  · exact .inl (stands hb hread)

theorem damaged (h : SmallEpoch epoch) (hspared : 10 ∉ unreadable ∧ 11 ∉ unreadable ∧
    12 ∉ unreadable) : Damaged epoch smallMap 2 (smallTape epoch.file unreadable) := by
  have hstart := h.bounds.1
  have hcopyStart : ∀ kind, copyStart epoch.file kind ≤ 4 := by
    intro kind
    cases kind with
    | primary => exact Nat.zero_le 4
    | tail => exact Nat.le_of_eq h.tail_eq
  refine ⟨⟨?_,?_,.tail,?_⟩,?_,?_⟩
  · rw [h.length_eq]
    exact stands (by decide) hspared.2.2
  · intro kind offset hoffset
    have hle := hcopyStart kind
    rw [h.copy_eq] at hoffset
    exact stands_or_detected _ (by omega)
  · intro offset hoffset
    rw [h.copy_eq] at hoffset
    rw [copyStart,h.tail_eq]
    interval_cases offset
    · exact stands (by decide) hspared.1
    · exact stands (by decide) hspared.2.1
  · intro offset hoffset
    rw [h.blocks_eq] at hoffset
    have hlt : offset < 3 := hoffset
    rw [DataStands,hstart,zero_add,ordinalRecord_smallTape hlt,h.blocks_eq]
    by_cases hread : 2+offset ∈ unreadable
    · rw [if_pos hread]
      exact .inr ⟨_,rfl,detected_unreadable _ _ _⟩
    · rw [if_neg hread]
      exact .inl rfl
  · intro s hs p hp
    rw [h.scheme_eq] at hs hp
    have hs' : s < 2 := hs
    have hp' : p < 1 := hp
    refine stands_or_detected _ ?_
    rw [parityBlock,h.copy_eq,h.scheme_eq,Nat.lt_one_iff.mp hp',zero_mul]
    omega

theorem memberStands_iff (h : SmallEpoch epoch) {j : ℕ} (hj : j < 3) :
    MemberStands epoch smallMap 2 (smallTape epoch.file unreadable) 0 j ↔
      [2,4,8].getD j 0 ∉ unreadable := by
  have hstart := h.bounds.1
  have hk : epoch.scheme.k=2 := by rw [h.scheme_eq]; rfl
  have hstripes : epoch.scheme.stripes=2 := by rw [h.scheme_eq]; rfl
  have hlength : smallBlocks.length=3 := rfl
  interval_cases j <;> simp [MemberStands,DataStands,Stands,parityBlock,hk,hstripes,hstart,h.blocks_eq,
    h.copy_eq,hlength,ordinalRecord_smallTape,recordAt_smallTape]

theorem lost_eq (h : SmallEpoch epoch) :
    lostMembers epoch smallMap 2 (smallTape epoch.file unreadable) 0=
      (Finset.range 3).filter fun j => j=0 ∨ [2,4,8].getD j 0 ∈ unreadable := by
  have hm : epoch.scheme.k+epoch.scheme.m=3 := by rw [h.scheme_eq]; rfl
  ext j
  rw [mem_lostMembers,hm,stripeOf,memberOf,Nat.zero_sub,Nat.zero_mod,Nat.zero_div,Finset.mem_filter,
    Finset.mem_range]
  refine and_congr_right fun hj => ?_
  rw [h.memberStands_iff hj,not_not]

end SmallEpoch

def contradictingDirectory : SidecarEpochDirectory :=
  ⟨3,3,3,true,[⟨2,0,0,3,7,2,2,⟨replicate 32 1,length_replicate⟩,0⟩]⟩

/-- With a lost primary copy the block is rebuilt; with a second member lost it is not. -/
theorem recover_smallEpoch : ∃ epoch : ProtectedEpoch constantHash, SmallEpoch epoch ∧
    (∃ result, recoverOrdinalFromSidecar constantHash (fun _ _ => none)
        (smallTape epoch.file [2,6]) (smallScoped none) epoch.scheme epoch.descriptor.tapeUuid
        epoch.descriptor.blockSize 0=.ok result ∧
      result.recoveredBlock=replicate 256 1) ∧
    ∃ lost, recoverOrdinalFromSidecar constantHash (fun _ _ => none)
        (smallTape epoch.file [2,4,6]) (smallScoped none) epoch.scheme epoch.descriptor.tapeUuid
        epoch.descriptor.blockSize 0=.error (.unrecoverable ⟨0,0,.data 0⟩ lost 1) := by
  obtain ⟨epoch,h⟩ := exists_smallEpoch
  obtain ⟨hstart,hstop⟩ := h.bounds
  have hlo := hstart.le
  have hhi : 0 < epoch.stop := by omega
  have hm : epoch.scheme.m=1 := by rw [h.scheme_eq]; rfl
  have hagrees : ∀ tape, DirectoryAgrees (fun _ _ => none) tape (smallScoped none) epoch.scheme
      epoch.descriptor epoch.file (.paritySidecar 2 7 0 0 3) := by
    intro tape row hrow
    cases hrow
  refine ⟨epoch,h,?_,?_⟩
  · have hfew : (lostMembers epoch smallMap 2 (smallTape epoch.file [2,6]) 0).card ≤
        epoch.scheme.m := by
      rw [hm,h.lost_eq]
      decide
    obtain ⟨result,hresult,_,hblock,_⟩ := ((recoverOrdinalFromSidecar_damaged (h.laidOut none)
      (h.damaged (by decide)) hlo hhi).1 (hagrees _)).1 hfew
    refine ⟨result,hresult,?_⟩
    rw [hblock,h.blocks_eq,Nat.zero_sub]
    rfl
  · have hmany : epoch.scheme.m <
        (lostMembers epoch smallMap 2 (smallTape epoch.file [2,4,6]) 0).card := by
      rw [hm,h.lost_eq]
      decide
    refine ⟨(lostMembers epoch smallMap 2 (smallTape epoch.file [2,4,6]) 0).card,?_⟩
    have herror := ((recoverOrdinalFromSidecar_damaged (h.laidOut none) (h.damaged (by decide))
      hlo hhi).1 (hagrees _)).2 hmany
    rw [herror,hm,stripeAddress,stripeOf,memberOf,Nat.zero_sub,Nat.zero_mod,Nat.zero_div,
      h.descriptor_eq]
    rfl

/-- A valid directory with another metadata hash leaves no block of an undamaged epoch. -/
theorem recover_contradicted : ∃ (epoch : ProtectedEpoch constantHash)
    (scopedMap : ScopedFilemarkMap) (number : ℕ) (entry : TapeFileMapEntry) (tape : Tape),
    LaidOut epoch scopedMap number entry ∧ Damaged epoch scopedMap.map number tape ∧
    (∀ b < epoch.file.blocks.length, Stands tape scopedMap.map number epoch.file b) ∧
    (∀ offset < epoch.blocks.length, DataStands epoch scopedMap.map tape offset) ∧
    epoch.start ≤ 0 ∧ 0 < epoch.stop ∧
    recoverOrdinalFromSidecar constantHash (fun _ _ => none) tape scopedMap epoch.scheme
      epoch.descriptor.tapeUuid epoch.descriptor.blockSize 0=
        .error (.sidecarMetadataUnavailable 0) := by
  obtain ⟨epoch,h⟩ := exists_smallEpoch
  obtain ⟨hstart,hstop⟩ := h.bounds
  have hlo := hstart.le
  have hhi : 0 < epoch.stop := by omega
  have hlaid := h.laidOut (some contradictingDirectory)
  have hdamaged : Damaged epoch smallMap 2 (smallTape epoch.file []) := h.damaged (by decide)
  have hcontradicts : ¬DirectoryAgrees (fun _ _ => none) (smallTape epoch.file [])
      (smallScoped (some contradictingDirectory)) epoch.scheme epoch.descriptor epoch.file
      (.paritySidecar 2 7 0 0 3) := by
    intro hagrees
    have hevidence : evidenceFor (fun _ _ => none) (smallTape epoch.file [])
        (smallScoped (some contradictingDirectory)) epoch.scheme epoch.descriptor
        (.paritySidecar 2 7 0 0 3)=
          .ok (.available ⟨2,0,0,3,7,2,2,⟨replicate 32 1,length_replicate⟩,0⟩) := by
      rw [h.scheme_eq]
      rfl
    have hsame := hagrees _ hevidence
    rw [h.hash_eq] at hsame
    exact absurd hsame (by decide)
  refine ⟨epoch,smallScoped (some contradictingDirectory),2,.paritySidecar 2 7 0 0 3,
    smallTape epoch.file [],hlaid,hdamaged,?_,?_,hlo,hhi,?_⟩
  · intro b hb
    rw [h.length_eq] at hb
    exact SmallEpoch.stands hb (by simp)
  · intro offset hoffset
    rw [h.blocks_eq] at hoffset
    rw [DataStands,hstart,zero_add,h.blocks_eq]
    exact ordinalRecord_smallTape hoffset
  · have herror := hlaid.recover_error hlo hhi (readAndParseSidecarIndex_contradicted
      epoch.sidecar hlaid.row hdamaged.metadata.footer epoch.parityBlocks_eq hcontradicts)
    rw [herror,h.descriptor_eq]
    rfl

end Remanence.Parity.Recovery
