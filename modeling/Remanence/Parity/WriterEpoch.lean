import Remanence.Parity.EpochAccumulator
import Remanence.Parity.RecoveryLaw

/-!
# The writer's sidecar

At every push the parity buffers of a stripe hold the shards of the blocks so far. Behind the last
one they are the encoded stripes, so the accumulator writes the sidecar of a protected epoch.
-/

namespace Remanence.Parity.EpochAccumulator

open Foundation Codec Sidecar Recovery List

/-- The buffers of a stripe hold its members among the first `n` blocks. -/
def StripeHolds (codec : ReedSolomonCodec) (data parity : List Bytes) (width stripes stripe n : ℕ) :
    Prop :=
  ∃ calls : List ℕ, calls.Nodup ∧ (∀ i, i ∈ calls ↔ i*stripes+stripe < n) ∧
    calls.foldlM (fun parity i => codec.accumulate i (rowAt data i) parity)
      (codec.newParityAccumulators width)=.ok parity

/-- The accumulator has taken in the first `n` blocks of an epoch. -/
structure Holds (scheme : ParityScheme) (blocks : List Bytes) (n : ℕ)
    (accumulator : EpochAccumulator) : Prop where
  scheme_eq : accumulator.scheme=scheme
  codec_eq : ReedSolomonCodec.new scheme=.ok accumulator.codec
  next_eq : accumulator.nextOrdinal.toNat=accumulator.epochStart.toNat+n
  fits : n ≤ scheme.stripes*scheme.k
  crcs_eq : accumulator.currentEpochDataCrc64s=(blocks.take n).map dataShardCrc64
  length_eq : accumulator.parityAccumulators.length=scheme.stripes
  parity : ∀ stripe (h : stripe < accumulator.parityAccumulators.length),
    StripeHolds accumulator.codec (stripeData scheme accumulator.blockSize.toNat blocks stripe)
      accumulator.parityAccumulators[stripe] accumulator.blockSize.toNat scheme.stripes stripe n

variable {scheme : ParityScheme} {blocks : List Bytes} {n : ℕ} {accumulator next : EpochAccumulator}

theorem holds_new {tapeUuid : FixedBytes 16} {blockSize : UInt32} {epochId epochStart : UInt64}
    (h : new tapeUuid scheme blockSize epochId epochStart=.ok accumulator) (blocks : List Bytes) :
    Holds scheme blocks 0 accumulator := by
  simp only [new,eq_ok] at h
  obtain ⟨_,-,_,-,_,-,codec,hcodec,rfl⟩ := h
  refine ⟨rfl,hcodec,rfl,Nat.zero_le _,rfl,length_replicate,fun stripe hstripe => ?_⟩
  exact ⟨[],nodup_nil,by simp,by rw [getElem_replicate]; rfl⟩

/-- A push gives the next block to its stripe and leaves the other stripes alone. -/
theorem Holds.pushBlock (h : Holds scheme blocks n accumulator) {block : Bytes} {ordinal : UInt64}
    (hblock : blocks[n]?=some block) (hpush : accumulator.pushBlock ordinal block=.ok next) :
    Holds scheme blocks (n+1) next := by
  obtain ⟨hordinal,-,hnext,-⟩ := pushBlock_eq_ok hpush
  obtain rfl := h.scheme_eq
  simp only [EpochAccumulator.pushBlock,eq_ok,not_not,not_or] at hpush
  obtain ⟨_,-,_,-,_,⟨hroom,-⟩,rows,hrows,new,hnew,rfl⟩ := hpush
  have hoffset : (ordinal-accumulator.epochStart).toNat=n := by
    have hle : accumulator.epochStart ≤ ordinal := by
      rw [hordinal,UInt64.le_iff_toNat_le,h.next_eq]
      omega
    rw [UInt64.toNat_sub_of_le _ _ hle,hordinal,h.next_eq,Nat.add_sub_cancel_left]
  rw [hoffset] at hroom hrows hnew
  refine ⟨rfl,h.codec_eq,by rw [hnext,hordinal,h.next_eq,add_assoc],by omega,?_,?_,?_⟩
  · rw [take_add_one,hblock,map_append,←h.crcs_eq]
    rfl
  · rw [length_set,h.length_eq]
  · intro stripe hstripe
    rw [length_set] at hstripe
    obtain ⟨calls,hnodup,hcalls,hfold⟩ := h.parity stripe hstripe
    have hS : stripe < accumulator.scheme.stripes := h.length_eq ▸ hstripe
    have hat (i : ℕ) : i*accumulator.scheme.stripes+stripe=n ↔
        n%accumulator.scheme.stripes=stripe ∧ i=n/accumulator.scheme.stripes := by
      constructor
      · intro hi
        rw [←hi,add_comm,Nat.add_mul_mod_self_right,Nat.mod_eq_of_lt hS,
          Nat.add_mul_div_right _ _ (by omega),Nat.div_eq_of_lt hS,zero_add]
        exact ⟨rfl,rfl⟩
      · rintro ⟨rfl,rfl⟩
        exact Nat.div_add_mod' ..
    dsimp only
    simp only [hoffset,getElem_set]
    by_cases hs : n%accumulator.scheme.stripes=stripe
    · -- the block joins the members of its stripe
      have hlast := (hat _).mpr ⟨hs,rfl⟩
      have hrow : rowAt (stripeData accumulator.scheme accumulator.blockSize.toNat blocks stripe)
          (n/accumulator.scheme.stripes)=block := by
        rw [rowAt_stripeData (Nat.div_lt_of_lt_mul (by omega)),hlast,getD_eq_getElem?_getD,hblock,
          Option.getD_some]
      rw [hs,getElem?_eq_getElem hstripe,Option.some.injEq] at hrows
      refine ⟨calls++[n/accumulator.scheme.stripes],?_,fun i => ?_,?_⟩
      · refine nodup_append.mpr ⟨hnodup,nodup_singleton _,?_⟩
        rintro i hi _ hq rfl
        rw [hcalls,mem_singleton.mp hq] at hi
        omega
      · rw [mem_append,hcalls,mem_singleton,←(hat i).trans (and_iff_right hs)]
        omega
      · rw [if_pos hs,foldlM_append,hfold,ok_bind,foldlM_cons,hrow,hrows,hnew]
        rfl
    · refine ⟨calls,hnodup,fun i => ?_,by rw [if_neg hs,hfold]⟩
      have hne := mt (hat i).mp fun hi => hs hi.1
      rw [hcalls]
      omega

theorem Holds.pushBlocks {rest : List Bytes} {ordinal : UInt64}
    (h : Holds scheme blocks n accumulator) (hrest : blocks.drop n=rest)
    (hpush : EpochAccumulator.pushBlocks accumulator ordinal rest=.ok next) :
    Holds scheme blocks (n+rest.length) next := by
  induction rest generalizing accumulator ordinal n with
  | nil => cases hpush; exact h
  | cons block rest ih =>
    rw [EpochAccumulator.pushBlocks,bind_eq_ok] at hpush
    obtain ⟨middle,hmiddle,hpush⟩ := hpush
    have hget : blocks[n]?=some block := by rw [←head?_drop,hrest,head?_cons]
    have htail : blocks.drop (n+1)=rest := by rw [←tail_drop,hrest,tail_cons]
    rw [length_cons,add_comm rest.length,←add_assoc]
    exact ih (h.pushBlock hget hmiddle) htail hpush

/-- The buffers of a whole epoch are its encoded stripes. -/
theorem Holds.parity_eq (h : Holds scheme blocks blocks.length accumulator)
    (hblocks : ∀ block ∈ blocks, block.length=accumulator.blockSize.toNat) :
    (List.range scheme.stripes).mapM (fun stripe => accumulator.codec.encode
      (stripeData scheme accumulator.blockSize.toNat blocks stripe))=
        .ok accumulator.parityAccumulators := by
  obtain ⟨hv,hk,-⟩ := ReedSolomonCodec.new_eq_ok _ h.codec_eq
  have hpos := hv.two_le_k
  have hfits := h.fits
  have hencode (stripe : ℕ) (hstripe : stripe ∈ List.range scheme.stripes) :
      accumulator.codec.encode (stripeData scheme accumulator.blockSize.toNat blocks stripe)=
        .ok (accumulator.parityAccumulators.getD stripe []) := by
    rw [mem_range,←h.length_eq] at hstripe
    obtain ⟨calls,hnodup,hcalls,hfold⟩ := h.parity stripe hstripe
    rw [getD_eq_getElem?_getD,getElem?_eq_getElem hstripe,Option.getD_some,←hfold]
    refine (accumulate_eq_encode _ (by omega) (shape_stripeData hk hblocks) hnodup ?_ ?_).symm
    · intro i hi
      rw [hcalls] at hi
      rw [hk]
      exact lt_of_mul_lt_mul_left (by nlinarith) (Nat.zero_le scheme.stripes)
    · -- positions behind the last block are zero
      intro i hi hout byte hbyte
      rw [hcalls,not_lt] at hout
      rw [rowAt_stripeData (hk ▸ hi),getD_eq_getElem?_getD,getElem?_eq_none hout] at hbyte
      exact eq_of_mem_replicate hbyte
  rw [mapM_eq_ok_map hencode,←h.length_eq]
  refine congrArg _ (ext_getElem (by simp) fun i _ hi => ?_)
  rw [getElem_map,getElem_range,getD_eq_getElem?_getD,getElem?_eq_getElem hi,Option.getD_some]

/-- Whatever blocks were pushed into a new accumulator, the sidecar it writes is the one of their
protected epoch, so damage to the tape is repaired as for an epoch that was encoded at once. -/
theorem intoSidecar_protects {hash : HashFunctions} {file : EncodedSidecarTapeFile}
    {tapeUuid : FixedBytes 16} {blockSize : UInt32} {epochId epochStart : UInt64}
    (hnew : new tapeUuid scheme blockSize epochId epochStart=.ok accumulator)
    (hpush : EpochAccumulator.pushBlocks accumulator epochStart blocks=.ok next)
    (hfile : next.intoSidecar hash=.ok file) :
    ∃ epoch : ProtectedEpoch hash, epoch.scheme=scheme ∧ epoch.descriptor=next.descriptor ∧
      epoch.blocks=blocks ∧ epoch.file=file := by
  have h := (holds_new hnew blocks).pushBlocks drop_zero hpush
  rw [zero_add] at h
  obtain ⟨hsize,hblocks⟩ := pushBlocks_eq_ok hpush
  rw [←hsize] at hblocks
  rw [intoSidecar,h.crcs_eq,take_length] at hfile
  obtain rfl := h.scheme_eq
  exact ⟨⟨next.scheme,next.descriptor,blocks,next.codec,next.parityAccumulators,file,rfl,rfl,rfl,
    h.next_eq.symm,hblocks,h.codec_eq,h.parity_eq hblocks,hfile⟩,rfl,rfl,rfl,rfl⟩

/-- Three blocks of two stripes. -/
theorem intoSidecar_protects_three : ∃ accumulator next file,
    new (FixedBytes.zero 16) smallScheme 256 0 0=.ok accumulator ∧
    EpochAccumulator.pushBlocks accumulator 0 smallBlocks=.ok next ∧
    next.intoSidecar constantHash=.ok file ∧ ∃ epoch : ProtectedEpoch constantHash,
      epoch.scheme=smallScheme ∧ epoch.blocks=smallBlocks ∧ epoch.file=file := by
  have hwrite : (do
      let accumulator ← new (FixedBytes.zero 16) smallScheme 256 0 0
      let next ← EpochAccumulator.pushBlocks accumulator 0 smallBlocks
      let file ← next.intoSidecar constantHash
      return (accumulator,next,file)).isOk=true := by decide +kernel
  obtain ⟨_,hresult⟩ := exists_of_isOk hwrite
  simp only [eq_ok] at hresult
  obtain ⟨accumulator,hnew,next,hpush,file,hfile,-⟩ := hresult
  obtain ⟨epoch,hscheme,-,hblocks,hepoch⟩ := intoSidecar_protects hnew hpush hfile
  exact ⟨accumulator,next,file,hnew,hpush,hfile,epoch,hscheme,hblocks,hepoch⟩

end Remanence.Parity.EpochAccumulator
