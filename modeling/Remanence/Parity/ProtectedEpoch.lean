import Remanence.Parity.ErasureLaw
import Remanence.Parity.SidecarAcquisition

/-!
# Protected epochs

An epoch's object blocks are interleaved into stripes and encoded, and the parity is written to
a sidecar file. On the tape records may be damaged; the lost members of a stripe are those whose
record is not the written one.
-/

namespace Remanence.Parity.Recovery

open Foundation Sidecar Codec List

theorem getElem?_flatten_uniform {α : Type*} {rows : List (List α)} {width row col : ℕ}
    (hrows : ∀ r ∈ rows, r.length=width) (hcol : col < width) :
    rows.flatten[row*width+col]?=(rows[row]?).bind fun r => r[col]? := by
  induction rows generalizing row with
  | nil => simp
  | cons r rows ih =>
    have hlen := hrows r (by simp)
    rw [flatten_cons]
    cases row with
    | zero =>
      rw [zero_mul,zero_add,getElem?_append_left (by omega)]
      rfl
    | succ row =>
      rw [getElem?_append_right (by rw [hlen,Nat.succ_mul]; omega),hlen]
      have hsub : (row+1)*width+col-width=row*width+col := by
        rw [Nat.succ_mul]
        omega
      rw [hsub,ih fun r' hr' => hrows r' (by simp [hr'])]
      rfl

theorem eraseShards_eq_map (erased : Finset ℕ) (shards : List Bytes) :
    eraseShards erased shards=(List.range shards.length).map fun i =>
      if i ∈ erased then none else some (shards.getD i []) := by
  unfold eraseShards
  apply ext_getElem (by simp)
  intro i h1 h2
  have hi : i < shards.length := by simpa using h1
  simp [getD_eq_getElem?_getD,getElem?_eq_getElem hi]

variable {erased : Finset ℕ}

theorem length_filter_mem_range {n : ℕ} (h : erased ⊆ Finset.range n) :
    ((List.range n).filter (· ∈ erased)).length=erased.card := by
  have hcard := toFinset_card_of_nodup (List.Nodup.filter (· ∈ erased) (nodup_range (n := n)))
  rw [←hcard]
  congr 1
  ext i
  simp only [mem_toFinset,mem_filter,mem_range,decide_eq_true_eq]
  exact ⟨And.right,fun hi => ⟨Finset.mem_range.mp (h hi),hi⟩⟩

theorem length_survivors {shards : List Bytes} (h : erased ⊆ Finset.range shards.length) :
    ((eraseShards erased shards).filter Option.isSome).length+erased.card=shards.length := by
  have hsplit := length_eq_length_filter_add (l := List.range shards.length) (· ∈ erased)
  rw [length_filter_mem_range h,length_range] at hsplit
  have hkept : (List.range shards.length).filter (Option.isSome ∘ fun i =>
      if i ∈ erased then none else some (shards.getD i []))=
      (List.range shards.length).filter fun i => !decide (i ∈ erased) := by
    apply filter_congr
    intro i _
    by_cases hi : i ∈ erased
    · simp [hi]
    · simp [hi]
  rw [eraseShards_eq_map,filter_map,length_map,hkept]
  omega

theorem length_lostShards {shards : List Bytes} (k : ℕ) (h : erased ⊆ Finset.range shards.length) :
    (lostShards (eraseShards erased shards) k).length=erased.card := by
  have hlen : (eraseShards erased shards).length=shards.length := by
    rw [eraseShards_eq_map,length_map,length_range]
  rw [lostShards,length_map,hlen,←length_filter_mem_range h]
  congr 1
  apply filter_congr
  intro i hi
  have hlt := mem_range.mp hi
  rw [eraseShards_eq_map,getD_eq_getElem?_getD,getElem?_map,getElem?_range hlt]
  by_cases hmem : i ∈ erased
  · simp [hmem]
  · simp [hmem]

/-- Data members of a stripe; positions past the protected end are zero. -/
def stripeData (scheme : ParityScheme) (blockSize : ℕ) (blocks : List Bytes) (stripe : ℕ) :
    List Bytes :=
  (List.range scheme.k).map fun dataIndex =>
    blocks.getD (dataIndex*scheme.stripes+stripe) (replicate blockSize 0)

theorem shape_stripeData {scheme : ParityScheme} {k width stripe : ℕ} {blocks : List Bytes}
    (hk : k=scheme.k) (h : ∀ block ∈ blocks, block.length=width) :
    Shape k width (stripeData scheme width blocks stripe) := by
  constructor
  · simp [stripeData,hk]
  · intro row hrow
    obtain ⟨dataIndex,_,rfl⟩ := mem_map.mp hrow
    rw [getD_eq_getElem?_getD]
    cases hget : blocks[dataIndex*scheme.stripes+stripe]? with
    | none => simp
    | some block => exact h block (mem_of_getElem? hget)

theorem rowAt_stripeData {scheme : ParityScheme} {width stripe j : ℕ} {blocks : List Bytes}
    (hj : j < scheme.k) : rowAt (stripeData scheme width blocks stripe) j=
      blocks.getD (j*scheme.stripes+stripe) (replicate width 0) := by
  rw [rowAt,stripeData,getD_eq_getElem?_getD,getElem?_map,getElem?_range hj]
  rfl

/-- An epoch as its writer makes it: object blocks, the parity of their interleaved stripes and the
encoded sidecar file. -/
structure ProtectedEpoch (hash : HashFunctions) where
  scheme : ParityScheme
  descriptor : SidecarDescriptor
  blocks : List Bytes
  codec : ReedSolomonCodec
  parity : List (List Bytes)
  file : EncodedSidecarTapeFile
  k_eq : descriptor.k=scheme.dataBlocksPerStripe
  m_eq : descriptor.m=scheme.parityBlocksPerStripe
  stripes_eq : descriptor.stripesPerEpoch=scheme.stripesPerNeighborhood
  blocks_length : descriptor.protectedOrdinalStart.toNat+blocks.length=
    descriptor.protectedOrdinalEndExclusive.toNat
  block_length : ∀ block ∈ blocks, block.length=descriptor.blockSize.toNat
  codec_eq : ReedSolomonCodec.new scheme=.ok codec
  parity_eq : (List.range scheme.stripes).mapM (fun stripe =>
    codec.encode (stripeData scheme descriptor.blockSize.toNat blocks stripe))=.ok parity
  file_eq : encodeSidecarTapeFile hash descriptor parity.flatten (blocks.map dataShardCrc64)=.ok file

namespace ProtectedEpoch

variable {hash : HashFunctions} (epoch : ProtectedEpoch hash)

def blockSize : ℕ := epoch.descriptor.blockSize.toNat

def start : ℕ := epoch.descriptor.protectedOrdinalStart.toNat

def stop : ℕ := epoch.descriptor.protectedOrdinalEndExclusive.toNat

def stripe (s : ℕ) : List Bytes :=
  stripeData epoch.scheme epoch.blockSize epoch.blocks s

def parityOf (s : ℕ) : List Bytes := epoch.parity.getD s []

theorem sidecar : SidecarFile hash epoch.descriptor epoch.parity.flatten
    (epoch.blocks.map dataShardCrc64) epoch.file :=
  encodeSidecarTapeFile_spec epoch.file_eq

theorem scheme_valid : epoch.scheme.Valid := (ReedSolomonCodec.new_eq_ok _ epoch.codec_eq).1

theorem codec_spec :
    epoch.codec.k=epoch.scheme.k ∧ epoch.codec.m=epoch.scheme.m ∧ CauchyCodec epoch.codec :=
  (ReedSolomonCodec.new_eq_ok _ epoch.codec_eq).2

theorem widths : epoch.descriptor.k.toNat=epoch.scheme.k ∧ epoch.descriptor.m.toNat=epoch.scheme.m ∧
    epoch.descriptor.stripesPerEpoch.toNat=epoch.scheme.stripes := by
  rw [epoch.k_eq,epoch.m_eq,epoch.stripes_eq]
  exact ⟨rfl,rfl,rfl⟩

theorem blockSize_pos : 0 < epoch.blockSize := by
  have hencode := epoch.file_eq
  simp only [encodeSidecarTapeFile,sidecarMetadata,bind_eq_ok] at hencode
  obtain ⟨_,⟨size,hdescriptor,_⟩,_⟩ := hencode
  obtain ⟨hsize,hlarge⟩ := validateDescriptor_blockSize hdescriptor
  have hlen : sidecarHeaderLen=200 := rfl
  unfold blockSize
  omega

theorem blocks_bounds :
    0 < epoch.blocks.length ∧ epoch.blocks.length ≤ epoch.scheme.stripes*epoch.scheme.k := by
  obtain ⟨decoded,_,_,_,hacquired⟩ := parse_copyBlocks epoch.sidecar .primary 0
  have hrange := checkedSub64_eq_some.mp hacquired.range
  have hpos := hacquired.range_pos
  have hle := hacquired.range_le
  have hdescriptor := hacquired.descriptor_eq
  have hlength := epoch.blocks_length
  obtain ⟨hk,_,hstripes⟩ := epoch.widths
  rw [←hdescriptor] at hlength hk hstripes
  simp only [SidecarHeader.descriptor] at hlength hk hstripes
  rw [hk,hstripes] at hle
  omega

theorem stripe_shape (s : ℕ) : Shape epoch.codec.k epoch.blockSize (epoch.stripe s) :=
  shape_stripeData epoch.codec_spec.1 epoch.block_length

variable {s : ℕ}

theorem encode_stripe (hs : s < epoch.scheme.stripes) :
    epoch.codec.encode (epoch.stripe s)=.ok (epoch.parityOf s) := by
  obtain ⟨row,hrow,hget⟩ := getElem?_of_mapM_eq_ok epoch.parity_eq (getElem?_range hs)
  rw [parityOf,getD_eq_getElem?_getD,hget]
  exact hrow

theorem length_parityOf (hs : s < epoch.scheme.stripes) :
    (epoch.parityOf s).length=epoch.scheme.m := by
  have hk : 0 < epoch.codec.k := by
    rw [epoch.codec_spec.1]
    exact lt_of_lt_of_le (by decide) epoch.scheme_valid.two_le_k
  obtain ⟨row,hrow,hshape,_⟩ := encode_spec epoch.codec hk (epoch.stripe_shape s)
  obtain rfl : row=epoch.parityOf s := Except.ok.inj (hrow.symm.trans (epoch.encode_stripe hs))
  rw [hshape.length_eq,epoch.codec_spec.2.1]

theorem getElem?_parity {p : ℕ} (hs : s < epoch.scheme.stripes) (hp : p < epoch.scheme.m) :
    epoch.parity.flatten[s*epoch.scheme.m+p]?=some ((epoch.parityOf s).getD p []) := by
  have hlength := length_of_mapM_eq_ok epoch.parity_eq
  rw [length_range] at hlength
  have hrows : ∀ row ∈ epoch.parity, row.length=epoch.scheme.m := by
    intro row hrow
    obtain ⟨i,hi⟩ := getElem?_of_mem hrow
    have hlt := (List.getElem?_eq_some_iff.mp hi).1
    have hparity := epoch.length_parityOf (s := i) (by omega)
    rwa [parityOf,getD_eq_getElem?_getD,hi] at hparity
  have hrow : epoch.parity[s]?=some (epoch.parityOf s) := by
    rw [parityOf,getD_eq_getElem?_getD,getElem?_eq_getElem (by omega),Option.getD_some]
  have hwidth := epoch.length_parityOf hs
  rw [getElem?_flatten_uniform hrows hp,hrow,Option.bind_some,getD_eq_getElem?_getD,
    getElem?_eq_getElem (by omega),Option.getD_some]

end ProtectedEpoch

def ordinalRecord (tape : Tape) (map : FilemarkMap) (ordinal : ℕ) :
    Except ParityError TapeRecord := do
  let position ← map.positionForOrdinal ordinal
  recordAt tape map position

section Epoch

variable {hash : HashFunctions} (epoch : ProtectedEpoch hash)

/-- The epoch is laid out by a complete map: its ordinals are described and below the watermark, and
its sidecar is the first to protect them. -/
structure LaidOut (scopedMap : ScopedFilemarkMap) (number : ℕ) (entry : TapeFileMapEntry) :
    Prop where
  scope : ∃ watermark, scopedMap.scope=.complete watermark ∧ epoch.stop ≤ watermark
  whole : scopedMap.validatedPrefixTapeFiles=none
  described : epoch.stop ≤ scopedMap.map.totalDataOrdinals
  row : SidecarRow scopedMap.map epoch.descriptor epoch.file number entry
  first : ∀ (i : ℕ) (other : TapeFileMapEntry), i < number → scopedMap.map.entries[i]?=some other →
    other.kind=.paritySidecar → ∀ a b, other.protectedOrdinalStart=some a →
      other.protectedOrdinalEndExclusive=some b → b.toNat ≤ epoch.start ∨ epoch.stop ≤ a.toNat

def DataStands (map : FilemarkMap) (tape : Tape) (offset : ℕ) : Prop :=
  ordinalRecord tape map (epoch.start+offset)=.ok (.record (epoch.blocks.getD offset []))

def parityBlock (s p : ℕ) : ℕ :=
  epoch.file.header.shardIndexBlockCount.toNat+p*epoch.scheme.stripes+s

/-- Every record of the epoch is the written one or detectably damaged; the sidecar's metadata
survives. -/
structure Damaged (map : FilemarkMap) (number : ℕ) (tape : Tape) : Prop where
  metadata : MetadataSurvives tape map number epoch.descriptor epoch.file
  data : ∀ offset < epoch.blocks.length, DataStands epoch map tape offset ∨
    ∃ record, ordinalRecord tape map (epoch.start+offset)=.ok record ∧
      Detected epoch.blockSize (fun bytes =>
        dataShardCrc64 bytes=dataShardCrc64 (epoch.blocks.getD offset [])) record
  parity : ∀ s < epoch.scheme.stripes, ∀ p < epoch.scheme.m,
    Stands tape map number epoch.file (parityBlock epoch s p) ∨
      ∃ record, recordAt tape map ⟨number,parityBlock epoch s p⟩=.ok record ∧
        Detected epoch.blockSize (fun bytes => parityShardCrc64 bytes=
          parityShardCrc64 (epoch.file.blocks.getD (parityBlock epoch s p) [])) record

/-- A member of a stripe is intact: a zero member always is. -/
def MemberStands (map : FilemarkMap) (number : ℕ) (tape : Tape) (s j : ℕ) : Prop :=
  if j < epoch.scheme.k then
    j*epoch.scheme.stripes+s < epoch.blocks.length →
      DataStands epoch map tape (j*epoch.scheme.stripes+s)
  else Stands tape map number epoch.file (parityBlock epoch s (j-epoch.scheme.k))

instance (map : FilemarkMap) (tape : Tape) (offset : ℕ) :
    Decidable (DataStands epoch map tape offset) := by
  unfold DataStands
  infer_instance

instance (map : FilemarkMap) (number : ℕ) (tape : Tape) (file : EncodedSidecarTapeFile) (b : ℕ) :
    Decidable (Stands tape map number file b) := by
  unfold Stands
  infer_instance

instance (map : FilemarkMap) (number : ℕ) (tape : Tape) (s j : ℕ) :
    Decidable (MemberStands epoch map number tape s j) := by
  unfold MemberStands
  infer_instance

def stripeOf (ordinal : ℕ) : ℕ := (ordinal-epoch.start)%epoch.scheme.stripes

def memberOf (ordinal : ℕ) : ℕ := (ordinal-epoch.start)/epoch.scheme.stripes

/-- Lost members of an ordinal's stripe: the ordinal itself and every damaged member. -/
def lostMembers (map : FilemarkMap) (number : ℕ) (tape : Tape) (ordinal : ℕ) : Finset ℕ :=
  (Finset.range (epoch.scheme.k+epoch.scheme.m)).filter fun j =>
    j=memberOf epoch ordinal ∨ ¬MemberStands epoch map number tape (stripeOf epoch ordinal) j

def stripeAddress (ordinal : ℕ) : StripeAddress :=
  ⟨epoch.descriptor.epochId,UInt32.ofNat (stripeOf epoch ordinal),
    .data (UInt16.ofNat (memberOf epoch ordinal))⟩

end Epoch

end Remanence.Parity.Recovery
