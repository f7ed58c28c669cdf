import Remanence.Parity.MatrixInversion

/-!
# The erasure law of the codec

Every shard is a fixed linear combination of the data, byte position by byte position. Any `k`
distinct rows of `[I ; G]` are nonsingular by the Cauchy argument, so the first `k` survivors
determine the stripe.
-/

namespace Remanence.Parity.Codec

open Foundation Foundation.GaussJordan Gf256 List ReedSolomonCodec

section Generator

def point (seed : ℕ) : GF256 := ⟨UInt8.ofNat seed⟩

theorem point_injective {a b : ℕ} (ha : a < 256) (hb : b < 256) (h : point a=point b) : a=b := by
  have hbyte : UInt8.ofNat a=UInt8.ofNat b := congrArg GF256.byte h
  have hnat := congrArg UInt8.toNat hbyte
  simp only [UInt8.toNat_ofNat'] at hnat
  omega

theorem seedByte_eq_ok {value : ℕ} (h : value ≤ 255) (message : String) :
    seedByte value message=.ok (UInt8.ofNat value) := by
  unfold seedByte
  rw [rejectIf_pos (by omega)]
  rfl

theorem cauchyRow_eq_ok {k parityIndex : ℕ} (h : k+parityIndex ≤ 255) :
    cauchyRow k parityIndex=.ok ((List.range k).map fun dataIndex =>
      gfPow (UInt8.ofNat (k+parityIndex)^^^UInt8.ofNat dataIndex) 254) := by
  unfold cauchyRow
  rw [seedByte_eq_ok h,ok_bind]
  apply mapM_eq_ok_map
  intro dataIndex hmem
  have hlt : dataIndex < k := mem_range.mp hmem
  rw [seedByte_eq_ok (by omega),ok_bind]
  apply gfInv_eq_ok
  intro hzero
  have heq := UInt8.xor_eq_zero_iff.mp hzero
  have hseed := point_injective (by omega) (by omega) (congrArg GF256.mk heq)
  omega

/-- A generator of the byte field's width always exists, with the Cauchy
entries `1/(x j-y i)`. -/
theorem cauchyGenerator_spec {k m : ℕ} (h : k+m ≤ 255) :
    ∃ generator, cauchyGenerator k m=.ok generator ∧ Shape m k generator ∧
      ∀ j < m, ∀ i < k, symbol generator j i=(point (k+j)-point i)⁻¹ := by
  refine ⟨(List.range m).map fun j => (List.range k).map fun i =>
    gfPow (UInt8.ofNat (k+j)^^^UInt8.ofNat i) 254,?_,⟨by simp,?_⟩,?_⟩
  · unfold cauchyGenerator
    dsimp only
    rw [rejectIf_pos (by omega),ok_bind]
    apply mapM_eq_ok_map
    intro j hj
    exact cauchyRow_eq_ok (by have := mem_range.mp hj; omega)
  · intro row hrow
    obtain ⟨j,_,rfl⟩ := mem_map.mp hrow
    simp
  · intro j hj i hi
    have hentry : symbol ((List.range m).map fun j => (List.range k).map fun i =>
        gfPow (UInt8.ofNat (k+j)^^^UInt8.ofNat i) 254) j i=
        ⟨gfPow (UInt8.ofNat (k+j)^^^UInt8.ofNat i) 254⟩ := by
      simp [symbol,entry,rowAt,getD_eq_getElem?_getD,hj,hi]
    have hne : UInt8.ofNat (k+j)^^^UInt8.ofNat i≠0 := by
      intro hzero
      have hseed := point_injective (by omega) (by omega)
        (congrArg GF256.mk (UInt8.xor_eq_zero_iff.mp hzero))
      omega
    have hsub : (⟨UInt8.ofNat (k+j)^^^UInt8.ofNat i⟩ : GF256)=point (k+j)-point i :=
      GF256.ext (GF256.byte_sub ..).symm
    rw [hentry,GF256.mk_gfPow_254 hne,hsub]

end Generator

section Encoding

theorem symbol_eq (a : ByteMatrix) (i p : ℕ) : symbol a i p=⟨(rowAt a i).getD p 0⟩ := rfl

variable (codec : ReedSolomonCodec) {data : List Block} {width : ℕ}

structure CauchyCodec (codec : ReedSolomonCodec) : Prop where
  width_le : codec.k+codec.m ≤ 255
  shape : Shape codec.m codec.k codec.generator
  generator_eq : ∀ j < codec.m, ∀ i < codec.k,
    symbol codec.generator j i=(point (codec.k+j)-point i)⁻¹

theorem ReedSolomonCodec.new_spec {scheme : ParityScheme} (h : scheme.Valid) :
    ∃ codec, ReedSolomonCodec.new scheme=.ok codec ∧ codec.k=scheme.k ∧ codec.m=scheme.m ∧
      CauchyCodec codec := by
  obtain ⟨generator,hgen,hshape,hentry⟩ := cauchyGenerator_spec h.width_le
  refine ⟨⟨scheme.k,scheme.m,generator⟩,?_,rfl,rfl,⟨h.width_le,hshape,hentry⟩⟩
  unfold new
  rw [ParityScheme.validate_eq_ok.mpr ⟨h,rfl⟩,ok_bind,hgen]
  rfl

theorem ReedSolomonCodec.new_eq_ok {scheme : ParityScheme} (h : new scheme=.ok codec) :
    scheme.Valid ∧ codec.k=scheme.k ∧ codec.m=scheme.m ∧ CauchyCodec codec := by
  have hnew := h
  simp only [new,bind_eq_ok] at hnew
  obtain ⟨_,hvalid,_⟩ := hnew
  have hv := (ParityScheme.validate_eq_ok.mp hvalid).1
  obtain ⟨_,hspec,hrest⟩ := new_spec hv
  obtain rfl := Except.ok.inj (hspec.symm.trans h)
  exact ⟨hv,hrest⟩

/-- Adding one data shard adds its generator multiple to every parity symbol. -/
theorem accumulate_spec {parity : List Block} {dataIndex : ℕ} {shard : Block}
    (hindex : dataIndex < codec.k) (hshape : Shape codec.m width parity)
    (hshard : shard.length=width) :
    ∃ next, codec.accumulate dataIndex shard parity=.ok next ∧ Shape codec.m width next ∧
      ∀ j < codec.m, ∀ p, symbol next j p=
        symbol parity j p+symbol codec.generator j dataIndex*⟨shard.getD p 0⟩ := by
  refine ⟨parity.mapIdx fun j out => gfMulSliceXor (entry codec.generator j dataIndex) shard out,
    ?_,⟨by rw [length_mapIdx,hshape.length_eq],?_⟩,?_⟩
  · unfold accumulate
    have hsizes : ¬(parity.any fun p => p.length≠shard.length)=true := by
      rw [any_eq_true]
      rintro ⟨row,hrow,hbad⟩
      simp [hshape.row_length row hrow,hshard] at hbad
    rw [rejectIf_pos (by omega),ok_bind,rejectIf_pos (by rw [hshape.length_eq]; simp),ok_bind,
      rejectIf_pos hsizes,ok_bind]
    rfl
  · intro row hrow
    obtain ⟨j,hj,rfl⟩ := mem_mapIdx.mp hrow
    have hlen := hshape.row_length _ (getElem_mem hj)
    rw [gfMulSliceXor_length (by rw [hshard,hlen]),hlen]
  · intro j hj p
    have hlt : j < parity.length := by rw [hshape.length_eq]; exact hj
    have hlen := hshape.row_length _ (getElem_mem hlt)
    have hrow : rowAt parity j=parity[j] := by simp [rowAt,getD_eq_getElem?_getD,hlt]
    have hnext : rowAt (parity.mapIdx fun j out =>
        gfMulSliceXor (entry codec.generator j dataIndex) shard out) j=
        gfMulSliceXor (entry codec.generator j dataIndex) shard parity[j] := by
      simp [rowAt,getD_eq_getElem?_getD,hlt]
    rw [symbol_eq,hnext,getD_gfMulSliceXor (by rw [hshard,hlen]),GF256.mk_xor,GF256.mk_gfMul,
      symbol_eq parity,hrow]
    rfl

theorem accumulateAll_spec {calls : List ℕ} {parity : List Block}
    (hcalls : ∀ i ∈ calls, i < codec.k ∧ (rowAt data i).length=width)
    (hshape : Shape codec.m width parity) :
    ∃ next, calls.foldlM (fun parity i => codec.accumulate i (rowAt data i) parity) parity=
        .ok next ∧ Shape codec.m width next ∧ ∀ j < codec.m, ∀ p, symbol next j p=
        symbol parity j p+(calls.map fun i => symbol codec.generator j i*symbol data i p).sum := by
  induction calls generalizing parity with
  | nil => exact ⟨parity,rfl,hshape,by simp⟩
  | cons i calls ih =>
    obtain ⟨⟨hi,hlength⟩,hrest⟩ := forall_mem_cons.mp hcalls
    obtain ⟨mid,hmid,hmidShape,hmidSym⟩ := accumulate_spec codec hi hshape hlength
    obtain ⟨next,hnext,hnextShape,hnextSym⟩ := ih hrest hmidShape
    refine ⟨next,foldlM_cons_eq_ok.mpr ⟨mid,hmid,hnext⟩,hnextShape,?_⟩
    intro j hj p
    rw [hnextSym j hj p,hmidSym j hj p,map_cons,sum_cons,add_assoc]
    rfl

theorem newParityAccumulators_spec (codec : ReedSolomonCodec) (width : ℕ) :
    Shape codec.m width (codec.newParityAccumulators width) ∧
      ∀ j p, symbol (codec.newParityAccumulators width) j p=0 := by
  refine ⟨⟨by simp [newParityAccumulators],?_⟩,?_⟩
  · intro row hrow
    rw [eq_of_mem_replicate hrow,length_replicate]
  · intro j p
    unfold symbol entry rowAt newParityAccumulators
    by_cases hj : j < codec.m <;> by_cases hp : p < width <;> simp [hj,hp]

theorem Shape.zipIdx_eq {n : ℕ} {a : ByteMatrix} (h : Shape n width a) :
    a.zipIdx=(List.range n).map fun i => (rowAt a i,i) := by
  apply ext_getElem (by simp [h.length_eq])
  intro i hi _
  have hlt : i < a.length := by simpa using hi
  simp [rowAt,getD_eq_getElem?_getD,hlt]

/-- A parity symbol is the generator combination of the data symbols at its byte position. -/
theorem encode_spec (hk : 0 < codec.k) (hdata : Shape codec.k width data) :
    ∃ parity, codec.encode data=.ok parity ∧ Shape codec.m width parity ∧
      ∀ j < codec.m, ∀ p, symbol parity j p=
        ∑ i ∈ Finset.range codec.k, symbol codec.generator j i*symbol data i p := by
  obtain ⟨hshape,hzero⟩ := newParityAccumulators_spec codec width
  obtain ⟨parity,hfold,hparity,hsym⟩ := accumulateAll_spec codec
    (fun i hi => ⟨mem_range.mp hi,hdata.rowAt_length (mem_range.mp hi)⟩) hshape
  refine ⟨parity,?_,hparity,?_⟩
  · have hsize : (data.head?.map List.length).getD 0=width := by
      cases data with
      | nil => exact absurd hdata.length_eq (by simp; omega)
      | cons head tail => simpa using hdata.row_length head (by simp)
    have hsizes : ¬(data.any fun b => b.length≠width)=true := by
      rw [any_eq_true]
      rintro ⟨row,hrow,hbad⟩
      simp [hdata.row_length row hrow] at hbad
    unfold encode
    rw [rejectIf_pos (by rw [hdata.length_eq]; simp),ok_bind]
    dsimp only
    rw [hsize,rejectIf_pos hsizes,ok_bind,hdata.zipIdx_eq,foldlM_map]
    exact hfold
  · intro j hj p
    rw [hsym j hj p,hzero,zero_add]
    rfl

/-- Parity does not depend on the order of the shards, and zero shards may be left out. -/
theorem accumulate_eq_encode (hk : 0 < codec.k) (hdata : Shape codec.k width data)
    {calls : List ℕ} (hnodup : calls.Nodup) (hcalls : ∀ i ∈ calls, i < codec.k)
    (hzero : ∀ i < codec.k, i ∉ calls → ∀ byte ∈ rowAt data i, byte=0) :
    calls.foldlM (fun parity i => codec.accumulate i (rowAt data i) parity)
      (codec.newParityAccumulators width)=codec.encode data := by
  obtain ⟨parity,hencode,hparity,hsym⟩ := encode_spec codec hk hdata
  obtain ⟨hstart,hstartSym⟩ := newParityAccumulators_spec codec width
  obtain ⟨next,hfold,hnext,hnextSym⟩ := accumulateAll_spec codec
    (fun i hi => ⟨hcalls i hi,hdata.rowAt_length (hcalls i hi)⟩) hstart
  rw [hfold,hencode]
  refine congrArg _ (hnext.ext hparity fun j hj p _ => congrArg GF256.byte ?_)
  change symbol next j p=symbol parity j p
  rw [hnextSym j hj p,hstartSym,zero_add,hsym j hj p,←sum_toFinset _ hnodup]
  refine Finset.sum_subset (fun i hi => ?_) fun i hi hout => ?_
  · exact Finset.mem_range.mpr (hcalls i (mem_toFinset.mp hi))
  · -- a shard that was left out has only zero symbols
    have hrow := hzero i (Finset.mem_range.mp hi) (fun hmem => hout (mem_toFinset.mpr hmem))
    have hbyte : (rowAt data i).getD p 0=0 := by
      rw [getD_eq_getElem?_getD]
      cases hget : (rowAt data i)[p]? with
      | none => rfl
      | some byte => exact hrow byte (mem_of_getElem? hget)
    rw [symbol_eq data,hbyte,GF256.mk_zero,mul_zero]

/-- Accumulators that take in every data shard once, in any order and without shards that are all
zero, hold the parity of `encode`. -/
theorem incremental_parity_eq_batch (scheme : ParityScheme)
    (hvalid : scheme.validate=.ok scheme) :
    ∃ codec, ReedSolomonCodec.new scheme=.ok codec ∧ ∀ (data : List Block) (width : ℕ),
      data.length=scheme.k → (∀ shard ∈ data, shard.length=width) →
      ∃ parity, codec.encode data=.ok parity ∧ ∀ calls : List ℕ, calls.Nodup →
        (∀ i ∈ calls, i < scheme.k) →
        (∀ i < scheme.k, i ∉ calls → ∀ byte ∈ rowAt data i, byte=0) →
        calls.foldlM (fun parity i => codec.accumulate i (rowAt data i) parity)
          (codec.newParityAccumulators width)=.ok parity := by
  have hv : scheme.Valid := (ParityScheme.validate_eq_ok.mp hvalid).1
  obtain ⟨codec,hnew,hk,-,-⟩ := new_spec hv
  have hpos : 0 < codec.k := by
    have := hv.two_le_k
    omega
  refine ⟨codec,hnew,?_⟩
  rw [←hk]
  intro data width hcount hlen
  obtain ⟨parity,hencode,-⟩ := encode_spec codec hpos ⟨hcount,hlen⟩
  refine ⟨parity,hencode,?_⟩
  intro calls hnodup hcalls hzero
  rw [accumulate_eq_encode codec hpos ⟨hcount,hlen⟩ hnodup hcalls hzero,hencode]

/-- Three shards, the zero shard left out and the others in reverse. -/
theorem incremental_parity_eq_batch_three :
    ∃ codec parity, ReedSolomonCodec.new ⟨"rs-cauchy-gf256-v1",3,2,1⟩=.ok codec ∧
      codec.encode [[1,2],[0,0],[3,4]]=.ok parity ∧
      [2,0].foldlM (fun parity i => codec.accumulate i (rowAt [[1,2],[0,0],[3,4]] i) parity)
        (codec.newParityAccumulators 2)=.ok parity := by
  obtain ⟨codec,hnew,hstripe⟩ := incremental_parity_eq_batch ⟨"rs-cauchy-gf256-v1",3,2,1⟩ (by rfl)
  obtain ⟨parity,hencode,hcalls⟩ := hstripe [[1,2],[0,0],[3,4]] 2 rfl (by decide)
  exact ⟨codec,parity,hnew,hencode,hcalls [2,0] (by decide) (by decide) (by decide +kernel)⟩

end Encoding

section Rows

variable {codec : ReedSolomonCodec}

def systematicSymbol (codec : ReedSolomonCodec) (row i : ℕ) : GF256 :=
  if row < codec.k then (if row=i then 1 else 0) else symbol codec.generator (row-codec.k) i

theorem systematicRow_spec (h : CauchyCodec codec) {row : ℕ} (hrow : row < codec.k+codec.m) :
    ∃ coefficients, codec.systematicRow row=.ok coefficients ∧ coefficients.length=codec.k ∧
      ∀ i < codec.k, (⟨coefficients.getD i 0⟩ : GF256)=systematicSymbol codec row i := by
  unfold systematicRow systematicSymbol
  by_cases hdata : row < codec.k
  · rw [if_pos hdata]
    refine ⟨_,rfl,by simp,?_⟩
    intro i hi
    rw [getD_unitRow _ _ _ hi,if_pos hdata]
    split <;> rfl
  · rw [if_neg hdata]
    have hlt : row-codec.k < codec.generator.length := by rw [h.shape.length_eq]; omega
    refine ⟨codec.generator[row-codec.k],by simp [hlt],
      h.shape.row_length _ (getElem_mem hlt),?_⟩
    intro i hi
    rw [if_neg hdata]
    simp [symbol,entry,rowAt,getD_eq_getElem?_getD,hlt]

/-- Each shard of an encoded stripe is its systematic combination of the data. -/
theorem symbol_codeword {data parity : List Block} {width : ℕ} (hdata : Shape codec.k width data)
    (hparity : ∀ j < codec.m, ∀ p, symbol parity j p=
      ∑ i ∈ Finset.range codec.k, symbol codec.generator j i*symbol data i p)
    {row : ℕ} (hrow : row < codec.k+codec.m) (p : ℕ) :
    symbol (data++parity) row p=
      ∑ i ∈ Finset.range codec.k, systematicSymbol codec row i*symbol data i p := by
  by_cases hlt : row < codec.k
  · have hleft : symbol (data++parity) row p=symbol data row p := by
      unfold symbol entry rowAt
      rw [getD_append _ _ _ _ (by rw [hdata.length_eq]; exact hlt)]
    rw [hleft,Finset.sum_eq_single_of_mem row (Finset.mem_range.mpr hlt)]
    · simp [systematicSymbol,hlt]
    · intro i _ hne
      simp [systematicSymbol,hlt,Ne.symm hne]
  · have hright : symbol (data++parity) row p=symbol parity (row-codec.k) p := by
      unfold symbol entry rowAt
      rw [getD_append_right _ _ _ _ (by rw [hdata.length_eq]; omega),hdata.length_eq]
    rw [hright,hparity (row-codec.k) (by omega) p]
    simp [systematicSymbol,hlt]

variable {rows : List ℕ}

theorem card_missing_eq {k : ℕ} (hnodup : rows.Nodup) (hlen : rows.length=k) :
    ((Finset.range k).filter (· ∉ rows)).card=(rows.toFinset.filter (k ≤ ·)).card := by
  have hrows : rows.toFinset.card=k := by rw [toFinset_card_of_nodup hnodup,hlen]
  have hsplit := Finset.card_filter_add_card_filter_not (s := rows.toFinset) (k ≤ ·)
  have hrange := Finset.card_filter_add_card_filter_not (s := Finset.range k) (· ∉ rows)
  have hsame : rows.toFinset.filter (¬k ≤ ·)=(Finset.range k).filter (¬· ∉ rows) := by
    ext i
    simp only [Finset.mem_filter,mem_toFinset,Finset.mem_range,not_le,not_not]
    exact and_comm
  rw [hsame] at hsplit
  rw [Finset.card_range] at hrange
  omega

theorem systematic_kernel_trivial (h : CauchyCodec codec) (hnodup : rows.Nodup)
    (hlen : rows.length=codec.k) (hlt : ∀ row ∈ rows, row < codec.k+codec.m) {v : ℕ → GF256}
    (hkill : ∀ row ∈ rows, ∑ i ∈ Finset.range codec.k, systematicSymbol codec row i*v i=0) :
    ∀ i < codec.k, v i=0 := by
  -- a surviving data row reads its own coordinate
  have hpresent : ∀ i < codec.k, i ∈ rows → v i=0 := by
    intro i hi hmem
    have hrow := hkill i hmem
    rw [Finset.sum_eq_single_of_mem i (Finset.mem_range.mpr hi)] at hrow
    · simpa [systematicSymbol,hi] using hrow
    · intro j _ hne
      simp [systematicSymbol,hi,Ne.symm hne]
  have hwidth := h.width_le
  -- the remaining coordinates are killed by the surviving Cauchy rows
  have hmissing : ∀ i ∈ (Finset.range codec.k).filter (· ∉ rows), v i=0 := by
    refine cauchy_kernel_trivial (J := rows.toFinset.filter (codec.k ≤ ·)) (x := point)
      (y := point) ?_ ?_ ?_ (card_missing_eq hnodup hlen).le ?_
    · intro a ha b hb hab
      simp only [Finset.coe_filter,Finset.mem_range,Set.mem_ofPred_eq] at ha hb
      exact point_injective (by omega) (by omega) hab
    · intro a ha b hb hab
      simp only [Finset.coe_filter,mem_toFinset,Set.mem_ofPred_eq] at ha hb
      have := hlt a ha.1
      have := hlt b hb.1
      exact point_injective (by omega) (by omega) hab
    · intro a ha b hb hab
      simp only [Finset.mem_filter,mem_toFinset,Finset.mem_range] at ha hb
      have := hlt a ha.1
      have := point_injective (by omega) (by omega) hab
      omega
    · intro row hrow
      simp only [Finset.mem_filter,mem_toFinset] at hrow
      have hbound := hlt row hrow.1
      rw [←hkill row hrow.1,Finset.sum_filter]
      refine Finset.sum_congr rfl fun i hi => ?_
      have hi' := Finset.mem_range.mp hi
      by_cases hmem : i ∈ rows
      · rw [if_neg (by simpa using hmem),hpresent i hi' hmem,mul_zero]
      · rw [if_pos hmem]
        unfold systematicSymbol
        rw [if_neg (by omega),h.generator_eq _ (by omega) i hi',Nat.add_sub_cancel' hrow.2]
  intro i hi
  by_cases hmem : i ∈ rows
  · exact hpresent i hi hmem
  · exact hmissing i (Finset.mem_filter.mpr ⟨Finset.mem_range.mpr hi,hmem⟩)

/-- The decode matrix of any `k` distinct rows is found and inverts them. -/
theorem invert_survivors (h : CauchyCodec codec) (hnodup : rows.Nodup) (hlen : rows.length=codec.k)
    (hlt : ∀ row ∈ rows, row < codec.k+codec.m) :
    ∃ matrix inverse, rows.mapM codec.systematicRow=.ok matrix ∧
      invertMatrix matrix=.ok inverse ∧ Shape codec.k codec.k inverse ∧
      ∀ d : ℕ → GF256, ∀ i < codec.k, ∑ a ∈ Finset.range codec.k, symbol inverse i a*
        ∑ j ∈ Finset.range codec.k, systematicSymbol codec (rows.getD a 0) j*d j=d i := by
  choose! coefficients hrow hwidth hcoeff using fun row (hrow : row < codec.k+codec.m) =>
    systematicRow_spec h hrow
  have hmap := mapM_eq_ok_map fun row hmem => hrow row (hlt row hmem)
  have hshape : Shape codec.k codec.k (rows.map coefficients) := by
    refine ⟨by rw [length_map,hlen],?_⟩
    intro r hr
    obtain ⟨row,hmem,rfl⟩ := mem_map.mp hr
    exact hwidth row (hlt row hmem)
  have hsymbol : ∀ a < codec.k, ∀ j < codec.k,
      symbol (rows.map coefficients) a j=systematicSymbol codec (rows.getD a 0) j := by
    intro a ha j hj
    have ha' : a < rows.length := by omega
    have hget : rows.getD a 0=rows[a] := by simp [getD_eq_getElem?_getD,ha']
    have hat : rowAt (rows.map coefficients) a=coefficients rows[a] := by
      simp [rowAt,getD_eq_getElem?_getD,ha']
    rw [symbol_eq,hat,hget]
    exact hcoeff _ (hlt _ (getElem_mem ha')) j hj
  have hdet : (toMatrix codec.k (rows.map coefficients)).det≠0 := by
    intro hzero
    obtain ⟨v,hv,hkill⟩ := Matrix.exists_mulVec_eq_zero_iff.mpr hzero
    apply hv
    have hextend : ∀ i < codec.k, (fun i => if hi : i < codec.k then v ⟨i,hi⟩ else 0) i=0 := by
      apply systematic_kernel_trivial h hnodup hlen hlt
      intro row hmem
      obtain ⟨a,ha,rfl⟩ := getElem_of_mem hmem
      have hget : rows.getD a 0=rows[a] := by simp [getD_eq_getElem?_getD,ha]
      have hline := congrFun hkill ⟨a,by omega⟩
      rw [Finset.sum_range]
      rw [Pi.zero_apply] at hline
      rw [←hline]
      refine Finset.sum_congr rfl fun j _ => ?_
      rw [dif_pos j.isLt]
      congr 1
      rw [←hget]
      exact (hsymbol a (by omega) j j.isLt).symm
    funext i
    have hi := hextend i i.isLt
    simpa using hi
  obtain ⟨inverse,hinv,hinvShape,hprod⟩ := invertMatrix_spec hshape hdet
  refine ⟨_,inverse,hmap,hinv,hinvShape,?_⟩
  intro d i hi
  -- read the identity `R*A=1` applied to `d` as a double sum
  have hvec := congrFun (congrArg (fun M => M.mulVec fun j : Fin codec.k => d j) hprod) ⟨i,hi⟩
  rw [Matrix.one_mulVec,←Matrix.mulVec_mulVec] at hvec
  rw [←hvec,Finset.sum_range]
  refine Finset.sum_congr rfl fun a _ => ?_
  congr 1
  rw [Finset.sum_range]
  refine Finset.sum_congr rfl fun j _ => ?_
  rw [←hsymbol a a.isLt j j.isLt]
  rfl

end Rows

section Survivors

def present : ℕ → List (Option Block) → List (ℕ×Block)
  | _,[] => []
  | index,none::rest => present (index+1) rest
  | index,some shard::rest => (index,shard)::present (index+1) rest

theorem collectSurvivors_eq (k index : ℕ) (shards : List (Option Block))
    (survivors : List (ℕ×Block)) (h : survivors.length < k) :
    collectSurvivors k index shards survivors=(survivors++present index shards).take k := by
  induction shards generalizing index survivors with
  | nil =>
    rw [collectSurvivors,present,append_nil,take_of_length_le h.le]
  | cons shard rest ih =>
    cases shard with
    | none => rw [collectSurvivors,present,ih _ _ h]
    | some shard =>
      rw [collectSurvivors,present]
      have happend : survivors++(index,shard)::present (index+1) rest=
          survivors++[(index,shard)]++present (index+1) rest := by simp
      rw [happend]
      split
      · rename_i hfull
        rw [take_append_of_le_length (by omega),take_of_length_le (by omega)]
      · rename_i hopen
        simp only [length_append,length_singleton] at hopen
        exact ih _ _ (by simp only [length_append,length_singleton]; omega)

def eraseShards (erased : Finset ℕ) (shards : List Block) : List (Option Block) :=
  shards.mapIdx fun index shard => if index ∈ erased then none else some shard

theorem present_erase (erased : Finset ℕ) (shards : List Block) (start : ℕ) :
    present start (shards.mapIdx fun index shard =>
      if start+index ∈ erased then none else some shard)=
      ((shards.zipIdx start).filter fun entry => entry.2 ∉ erased).map Prod.swap := by
  induction shards generalizing start with
  | nil => rfl
  | cons shard rest ih =>
    rw [mapIdx_cons,zipIdx_cons]
    have hshift : (fun index shard => if start+(index+1) ∈ erased then none else some shard)=
        fun (index : ℕ) (shard : Block) =>
          if start+1+index ∈ erased then none else some shard := by
      funext index shard
      rw [show start+(index+1)=start+1+index by omega]
    rw [hshift]
    by_cases hmem : start ∈ erased
    · simp [hmem,present,ih]
    · simp [hmem,present,ih]

theorem present_erase_fst (erased : Finset ℕ) (shards : List Block) :
    (present 0 (eraseShards erased shards)).map Prod.fst=
      (List.range shards.length).filter (· ∉ erased) := by
  have h := present_erase erased shards 0
  simp only [zero_add] at h
  unfold eraseShards
  rw [h,map_map]
  have hfst : Prod.fst ∘ Prod.swap=(Prod.snd : Block×ℕ → ℕ) := rfl
  rw [hfst,range_eq_range',←zipIdx_map_snd 0 shards,filter_map]
  rfl

variable {erased : Finset ℕ}

theorem present_erase_get {shards : List Block} {index : ℕ} {shard : Block}
    (h : (index,shard) ∈ present 0 (eraseShards erased shards)) : shards[index]?=some shard := by
  have hclosed := present_erase erased shards 0
  simp only [zero_add] at hclosed
  unfold eraseShards at h
  rw [hclosed] at h
  obtain ⟨⟨s,i⟩,hmem,heq⟩ := mem_map.mp h
  obtain ⟨rfl,rfl⟩ := Prod.mk.inj heq
  exact mem_zipIdx_iff_getElem?.mp (mem_of_mem_filter hmem)

theorem survivors_length_ge {n k : ℕ} (h : erased.card+k ≤ n) :
    k ≤ ((List.range n).filter (· ∉ erased)).length := by
  have hcard := toFinset_card_of_nodup (List.Nodup.filter (· ∉ erased) (nodup_range (n := n)))
  rw [←hcard]
  have hset : ((List.range n).filter (· ∉ erased)).toFinset=Finset.range n \ erased := by
    ext i
    simp
  rw [hset]
  have := Finset.le_card_sdiff erased (Finset.range n)
  rw [Finset.card_range] at this
  omega

/-- What the scan hands to reconstruction: `k` distinct indices, each with
its original shard. -/
structure SurvivorsOf (n k width : ℕ) (full : List Block) (survivors : List (ℕ×Block)) : Prop where
  length_eq : (survivors.map Prod.fst).length=k
  nodup : (survivors.map Prod.fst).Nodup
  index_lt : ∀ row ∈ survivors.map Prod.fst, row < n
  shape : Shape k width (survivors.map Prod.snd)
  symbol_eq : ∀ a < k, ∀ p,
    symbol (survivors.map Prod.snd) a p=symbol full ((survivors.map Prod.fst).getD a 0) p

theorem collectSurvivors_erase {n k width : ℕ} {full : List Block} (hfull : Shape n width full)
    (hk : 0 < k) (erased : Finset ℕ) (herased : erased.card+k ≤ n) :
    SurvivorsOf n k width full (collectSurvivors k 0 (eraseShards erased full) []) := by
  rw [collectSurvivors_eq _ _ _ _ (by simpa using hk),nil_append]
  have hfst := present_erase_fst erased full
  rw [hfull.length_eq] at hfst
  have hmany := survivors_length_ge herased
  have hlen : ((present 0 (eraseShards erased full)).take k).length=k := by
    rw [length_take,←length_map (f := Prod.fst),hfst]
    omega
  have hget : ∀ q ∈ (present 0 (eraseShards erased full)).take k, full[q.1]?=some q.2 :=
    fun q hq => present_erase_get (mem_of_mem_take hq)
  refine ⟨by rw [length_map,hlen],?_,?_,⟨by rw [length_map,hlen],?_⟩,?_⟩
  · rw [map_take,hfst]
    exact (nodup_range.filter _).take
  · intro row hrow
    rw [map_take,hfst] at hrow
    exact mem_range.mp (mem_of_mem_filter (mem_of_mem_take hrow))
  · intro b hb
    obtain ⟨q,hq,rfl⟩ := mem_map.mp hb
    exact hfull.row_length _ (mem_of_getElem? (hget q hq))
  · intro a ha p
    have ha' : a < ((present 0 (eraseShards erased full)).take k).length := by omega
    have hq := hget _ (getElem_mem ha')
    unfold symbol entry rowAt
    simp only [getD_eq_getElem?_getD,getElem?_map,getElem?_eq_getElem ha',
      Option.map_some,Option.getD_some,hq]

end Survivors

section Reconstruction

variable {codec : ReedSolomonCodec} {width : ℕ}

theorem combineFold_spec (coefficients : List UInt8) (survivors : List Block) (out : Block)
    (hlen : coefficients.length=survivors.length) (hrows : ∀ b ∈ survivors, b.length=width)
    (hout : out.length=width) :
    ((coefficients.zip survivors).foldl (fun out (coefficient,shard) =>
        gfMulSliceXor coefficient shard out) out).length=width ∧
      ∀ p, (⟨((coefficients.zip survivors).foldl (fun out (coefficient,shard) =>
        gfMulSliceXor coefficient shard out) out).getD p 0⟩ : GF256)=⟨out.getD p 0⟩+
        ∑ a ∈ Finset.range survivors.length, ⟨coefficients.getD a 0⟩*symbol survivors a p := by
  induction survivors generalizing coefficients out with
  | nil => simp [hout]
  | cons shard rest ih =>
    cases coefficients with
    | nil => simp at hlen
    | cons coefficient coefficients =>
      have hshard : shard.length=out.length := by rw [hout,hrows shard (by simp)]
      obtain ⟨hl,hs⟩ := ih coefficients (gfMulSliceXor coefficient shard out) (by simpa using hlen)
        (fun b hb => hrows b (by simp [hb])) (by rw [gfMulSliceXor_length hshard,hout])
      refine ⟨by simpa using hl,?_⟩
      intro p
      have hstep := hs p
      rw [getD_gfMulSliceXor hshard,GF256.mk_xor,GF256.mk_gfMul] at hstep
      rw [zip_cons_cons,foldl_cons,length_cons,Finset.sum_range_succ']
      refine hstep.trans ?_
      rw [add_assoc,add_comm (∑ a ∈ Finset.range rest.length, _)]
      rfl

/-- Each recomputed data shard is the decode-row combination of the survivors. -/
theorem combineSurvivors_spec {coefficients : List UInt8} {survivors : List Block}
    (hlen : coefficients.length=survivors.length) (hrows : ∀ b ∈ survivors, b.length=width) :
    (ReedSolomonCodec.combineSurvivors survivors width coefficients).length=width ∧
      ∀ p, (⟨(ReedSolomonCodec.combineSurvivors survivors width coefficients).getD p 0⟩ : GF256)=
        ∑ a ∈ Finset.range survivors.length, ⟨coefficients.getD a 0⟩*symbol survivors a p := by
  obtain ⟨hl,hs⟩ := combineFold_spec coefficients survivors (replicate width 0) hlen hrows
    (by simp)
  refine ⟨hl,fun p => ?_⟩
  have hzero : (⟨(replicate width (0 : UInt8)).getD p 0⟩ : GF256)=0 := by
    rw [getD_eq_getElem?_getD,getElem?_replicate]
    split <;> rfl
  have hp := hs p
  rwa [hzero,zero_add] at hp

theorem shardLenFrom_spec (shards : List (Option Block)) (expected : Option ℕ) (hpos : 0 < width)
    (hexpected : expected=none ∨ expected=some width)
    (hshards : ∀ b, some b ∈ shards → b.length=width) :
    shardLenFrom expected shards=
      .ok (if shards.any Option.isSome then some width else expected) := by
  induction shards generalizing expected with
  | nil => rfl
  | cons shard rest ih =>
    have hrest : ∀ b, some b ∈ rest → b.length=width := fun b hb => hshards b (by simp [hb])
    cases shard with
    | none =>
      rw [shardLenFrom,ih expected hexpected hrest]
      simp
    | some shard =>
      have hlen := hshards shard (by simp)
      have hne : ¬shard.isEmpty=true := by
        rw [List.isEmpty_iff]
        rintro rfl
        simp at hlen
        omega
      rcases hexpected with rfl | rfl
      · simp only [shardLenFrom,rejectIf_pos hne,ok_bind,hlen]
        rw [ih (some width) (.inr rfl) hrest]
        simp
      · simp only [shardLenFrom,rejectIf_pos hne,ok_bind,rejectIf_pos (not_not.mpr hlen)]
        rw [ih (some width) (.inr rfl) hrest]
        simp

theorem fillMissing_erase (f : ℕ → Block → Option Block) (shards : List Block)
    (hf : ∀ i b, f i b=none ∨ f i b=some b) :
    ReedSolomonCodec.fillMissing (shards.mapIdx f) shards=shards.map some := by
  unfold fillMissing
  apply ext_getElem (by simp)
  intro i h1 h2
  simp only [getElem_zipWith,getElem_mapIdx,getElem_map]
  rcases hf i (shards.get ⟨i,by simpa using h2⟩) with h | h
  · simp only [get_eq_getElem] at h
    rw [h]
    rfl
  · simp only [get_eq_getElem] at h
    rw [h]
    rfl

theorem mapIdx_kept_of_all (erased : ℕ → Prop) [DecidablePred erased] {shards : List Block}
    (h : (shards.mapIdx fun i shard => if erased i then none else some shard).all
      Option.isSome=true) :
    (shards.mapIdx fun i shard => if erased i then none else some shard)=shards.map some := by
  apply ext_getElem (by simp)
  intro i h1 h2
  rw [getElem_mapIdx,getElem_map]
  split
  · rename_i hgone
    have hmem : none ∈ shards.mapIdx fun i shard => if erased i then none else some shard :=
      mem_mapIdx.mpr ⟨i,by simpa using h2,by rw [if_pos hgone]⟩
    exact absurd (all_eq_true.mp h none hmem) (by simp)
  · rfl

theorem eraseShards_append (erased : Finset ℕ) (data parity : List Block) :
    eraseShards erased (data++parity)=eraseShards erased data++
      parity.mapIdx fun j shard => if j+data.length ∈ erased then none else some shard := by
  unfold eraseShards
  rw [mapIdx_append]

theorem combine_survivors_eq_data {data full survivorShards : List Block} {inverse : ByteMatrix}
    {rows : List ℕ} (hdata : Shape codec.k width data)
    (hsurvivors : Shape codec.k width survivorShards)
    (hat : ∀ a < codec.k, ∀ p, symbol survivorShards a p=symbol full (rows.getD a 0) p)
    (hfull : ∀ a < codec.k, ∀ p, symbol full (rows.getD a 0) p=
      ∑ i ∈ Finset.range codec.k, systematicSymbol codec (rows.getD a 0) i*symbol data i p)
    (hinverse : Shape codec.k codec.k inverse)
    (hdecode : ∀ d : ℕ → GF256, ∀ i < codec.k, ∑ a ∈ Finset.range codec.k, symbol inverse i a*
      ∑ j ∈ Finset.range codec.k, systematicSymbol codec (rows.getD a 0) j*d j=d i) :
    ((List.range codec.k).map fun i =>
      ReedSolomonCodec.combineSurvivors survivorShards width (rowAt inverse i))=data := by
  have hrow : ∀ i < codec.k, (rowAt inverse i).length=survivorShards.length := fun i hi => by
    rw [hinverse.rowAt_length hi,hsurvivors.length_eq]
  have hshape : Shape codec.k width ((List.range codec.k).map fun i =>
      combineSurvivors survivorShards width (rowAt inverse i)) := by
    refine ⟨by simp,?_⟩
    intro r hr
    obtain ⟨i,hi,rfl⟩ := mem_map.mp hr
    exact (combineSurvivors_spec (hrow i (mem_range.mp hi)) hsurvivors.row_length).1
  refine hshape.ext hdata ?_
  intro i hi p _
  have hat' : rowAt ((List.range codec.k).map fun i =>
      combineSurvivors survivorShards width (rowAt inverse i)) i=
      combineSurvivors survivorShards width (rowAt inverse i) := by
    simp [rowAt,getD_eq_getElem?_getD,hi]
  have hsym : (⟨(combineSurvivors survivorShards width (rowAt inverse i)).getD p
      0⟩ : GF256)=symbol data i p := by
    rw [(combineSurvivors_spec (hrow i hi) hsurvivors.row_length).2 p,hsurvivors.length_eq,
      ←hdecode (fun j => symbol data j p) i hi]
    refine Finset.sum_congr rfl fun a ha => ?_
    have ha' := Finset.mem_range.mp ha
    rw [hat a ha' p,hfull a ha' p]
    rfl
  unfold entry
  rw [hat']
  exact congrArg GF256.byte hsym

/-- An erasure of at most `m` shards of an encoded stripe is undone. -/
theorem reconstruct_erased (h : CauchyCodec codec) (hk : 0 < codec.k) {data parity : List Block}
    (hwidth : 0 < width) (hdata : Shape codec.k width data) (hencode : codec.encode data=.ok parity)
    (herased : erased.card ≤ codec.m) :
    codec.reconstruct (eraseShards erased (data++parity))=.ok ((data++parity).map some) := by
  obtain ⟨parity',hencode',hparity,hsym⟩ := encode_spec codec hk hdata
  obtain rfl : parity'=parity := Except.ok.inj (hencode'.symm.trans hencode)
  have hfull : Shape (codec.k+codec.m) width (data++parity') := by
    refine ⟨by rw [length_append,hdata.length_eq,hparity.length_eq],?_⟩
    intro row hrow
    rcases mem_append.mp hrow with hrow | hrow
    · exact hdata.row_length row hrow
    · exact hparity.row_length row hrow
  have hcount : (eraseShards erased (data++parity')).length=codec.k+codec.m := by
    unfold eraseShards
    rw [length_mapIdx,hfull.length_eq]
  have hmem : ∀ b, some b ∈ eraseShards erased (data++parity') → b.length=width := by
    intro b hb
    obtain ⟨i,hi,heq⟩ := mem_mapIdx.mp hb
    split at heq
    · exact absurd heq (by simp)
    · rw [←Option.some.inj heq]
      exact hfull.row_length _ (getElem_mem hi)
  have hsurvivors := collectSurvivors_erase hfull hk erased (by omega)
  obtain ⟨matrix,inverse,hmatrix,hinverse,hinvShape,hdecode⟩ :=
    invert_survivors h hsurvivors.nodup hsurvivors.length_eq hsurvivors.index_lt
  have hrecomputed := combine_survivors_eq_data hdata hsurvivors.shape hsurvivors.symbol_eq
    (fun a ha p => symbol_codeword hdata hsym (hsurvivors.index_lt _ (by
      rw [getD_eq_getElem _ _ (by rw [hsurvivors.length_eq]; exact ha)]
      exact getElem_mem _)) p) hinvShape hdecode
  have hlen : shardLen (eraseShards erased (data++parity'))=.ok (some width) := by
    unfold shardLen
    rw [shardLenFrom_spec _ _ hwidth (.inl rfl) hmem,if_pos]
    obtain ⟨i,hi,hkept⟩ := Finset.exists_mem_notMem_of_card_lt_card
      (show erased.card < (Finset.range (codec.k+codec.m)).card by rw [Finset.card_range]; omega)
    have hilt : i < (data++parity').length := by rw [hfull.length_eq]; exact Finset.mem_range.mp hi
    refine any_eq_true.mpr ⟨some (data++parity')[i],?_,rfl⟩
    exact mem_mapIdx.mpr ⟨i,hilt,by rw [if_neg hkept]⟩
  unfold reconstruct
  rw [rejectIf_pos (by rw [hcount]; simp),ok_bind,hlen,ok_bind,orElseError_some,ok_bind]
  by_cases hall : (eraseShards erased (data++parity')).all Option.isSome=true
  · rw [if_pos hall,show eraseShards erased (data++parity')=(data++parity').map some from
      mapIdx_kept_of_all (· ∈ erased) hall]
    rfl
  · rw [if_neg hall]
    have henough : ¬(collectSurvivors codec.k 0 (eraseShards erased (data++parity')) []).length <
        codec.k := by
      have := hsurvivors.length_eq
      rw [length_map] at this
      omega
    have hparts := eraseShards_append erased data parity'
    rw [hdata.length_eq] at hparts
    have hleft : (eraseShards erased data).length=codec.k := by
      rw [eraseShards,length_mapIdx,hdata.length_eq]
    have htake : (eraseShards erased (data++parity')).take codec.k=eraseShards erased data := by
      rw [hparts]
      exact take_left' hleft
    have hdrop : (eraseShards erased (data++parity')).drop codec.k=parity'.mapIdx fun j shard =>
        if j+codec.k ∈ erased then none else some shard := by
      rw [hparts]
      exact drop_left' hleft
    have hfillData : fillMissing (eraseShards erased data) data=data.map some :=
      fillMissing_erase _ _ fun i b => by split <;> simp
    have hfillParity := fillMissing_erase
      (fun j shard => if j+codec.k ∈ erased then none else some shard) parity'
      fun i b => by split <;> simp
    simp only [rejectIf_pos henough,ok_bind,hmatrix,hinverse,hrecomputed,htake,hdrop,hfillData]
    by_cases hany : (parity'.mapIdx fun j shard =>
        if j+codec.k ∈ erased then none else some shard).any Option.isNone=true
    · rw [if_pos hany,hencode,ok_bind,hfillParity,map_append]
      rfl
    · rw [if_neg hany,map_append]
      rw [mapIdx_kept_of_all fun j => j+codec.k ∈ erased]
      · rfl
      · refine all_eq_true.mpr fun x hx => ?_
        cases x with
        | none => exact absurd (any_eq_true.mpr ⟨none,hx,rfl⟩) hany
        | some shard => rfl

/-- Maximum-distance law: after any erasure of at most `m` of the `k+m` shards reconstruction
restores the whole stripe, and any `k` distinct rows of `[I ; G]` are inverted. -/
theorem reconstruct_restores_stripe (scheme : ParityScheme) (hvalid : scheme.validate=.ok scheme) :
    ∃ codec, ReedSolomonCodec.new scheme=.ok codec ∧
      (∀ (data : List Block) (width : ℕ), data.length=scheme.k →
        (∀ shard ∈ data, shard.length=width) → 0 < width →
        ∃ parity, codec.encode data=.ok parity ∧ parity.length=scheme.m ∧
          ∀ erased : Finset ℕ, erased ⊆ Finset.range (scheme.k+scheme.m) → erased.card ≤ scheme.m →
            codec.reconstruct (eraseShards erased (data++parity))=.ok ((data++parity).map some)) ∧
      ∀ rows : List ℕ, rows.Nodup → rows.length=scheme.k → (∀ row ∈ rows, row < scheme.k+scheme.m) →
        ∃ matrix inverse, rows.mapM codec.systematicRow=.ok matrix ∧
          invertMatrix matrix=.ok inverse := by
  have hv : scheme.Valid := (ParityScheme.validate_eq_ok.mp hvalid).1
  obtain ⟨codec,hnew,hk,hm,hcauchy⟩ := new_spec hv
  have hpos : 0 < codec.k := by
    have := hv.two_le_k
    omega
  refine ⟨codec,hnew,?_,?_⟩
  · intro data width hcount hlen hwidth
    have hdata : Shape codec.k width data := ⟨by rw [hcount,hk],hlen⟩
    obtain ⟨parity,hencode,hparity,_⟩ := encode_spec codec hpos hdata
    refine ⟨parity,hencode,by rw [hparity.length_eq,hm],?_⟩
    intro erased _ hcard
    exact reconstruct_erased hcauchy hpos hwidth hdata hencode (by omega)
  · intro rows hnodup hcount hlt
    obtain ⟨matrix,inverse,hmatrix,hinverse,_⟩ :=
      invert_survivors hcauchy hnodup (by rw [hcount,hk]) (by rw [hk,hm]; exact hlt)
    exact ⟨matrix,inverse,hmatrix,hinverse⟩

/-- The law at two data and two parity shards, with one data and one parity
shard erased. -/
theorem reconstruct_restores_two_of_four :
    ∃ codec parity, ReedSolomonCodec.new ⟨"rs-cauchy-gf256-v1",2,2,1⟩=.ok codec ∧
      codec.encode [[1,2],[3,4]]=.ok parity ∧
      codec.reconstruct (eraseShards {0,3} ([[1,2],[3,4]]++parity))=
        .ok (([[1,2],[3,4]]++parity).map some) := by
  obtain ⟨codec,hnew,hstripe,_⟩ :=
    reconstruct_restores_stripe ⟨"rs-cauchy-gf256-v1",2,2,1⟩ (by rfl)
  obtain ⟨parity,hencode,_,hrestore⟩ := hstripe [[1,2],[3,4]] 2 rfl (by decide) (by decide)
  exact ⟨codec,parity,hnew,hencode,hrestore {0,3} (by decide) (by decide)⟩

end Reconstruction

end Remanence.Parity.Codec
