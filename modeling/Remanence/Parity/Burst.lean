import Remanence.Foundation.Residues
import Remanence.Parity.Addressing
import Remanence.Parity.Mapping
import Remanence.Parity.SidecarLayout

/-!
# Burst tolerance of the interleave

Data ordinals are interleaved row-major and parity blocks parity-index-major, both with width
`S`. The lanes of a full epoch continue from the data into the parity region, so a burst across
the filemark and the first metadata copy meets a stripe no more often than an unbroken one.
-/

namespace Remanence.Parity

open Foundation Sidecar List

variable {scheme : ParityScheme} {epochId : UInt64} {start count ordinal : ℕ}

def offsetAddress (scheme : ParityScheme) (epochId : UInt64) (offset : ℕ) : StripeAddress :=
  ⟨epochId,UInt32.ofNat (offset%scheme.stripes),.data (UInt16.ofNat (offset/scheme.stripes))⟩

namespace ParityScheme.Valid

theorem dataShardsPerEpoch_eq (h : scheme.Valid) :
    dataShardsPerEpoch scheme=.ok (scheme.stripes*scheme.k) := by
  have hpositive : 0 < scheme.stripes*scheme.k :=
    Nat.mul_pos h.one_le_stripes (by have := h.two_le_k; omega)
  have hfits : scheme.stripes*scheme.k ≤ u64Max := by
    have hblocks := h.blocks_le
    rw [neighborhoodBlocks,mul_add] at hblocks
    have : u32Max ≤ u64Max := by decide
    omega
  simp only [dataShardsPerEpoch,eq_ok]
  exact ⟨(),by omega,(),by omega,trivial⟩

theorem stripe_toNat (h : scheme.Valid) (offset : ℕ) :
    (UInt32.ofNat (offset%scheme.stripes)).toNat=offset%scheme.stripes := by
  apply UInt32.toNat_ofNat_of_lt'
  exact lt_trans (Nat.mod_lt _ h.one_le_stripes) scheme.stripesPerNeighborhood.toNat_lt

theorem row_toNat (_h : scheme.Valid) {offset : ℕ} (hlt : offset < scheme.stripes*scheme.k) :
    (UInt16.ofNat (offset/scheme.stripes)).toNat=offset/scheme.stripes ∧
      offset/scheme.stripes < scheme.k := by
  have hrow := Nat.div_lt_of_lt_mul hlt
  refine ⟨UInt16.toNat_ofNat_of_lt' ?_,hrow⟩
  exact lt_trans hrow scheme.dataBlocksPerStripe.toNat_lt

theorem ordinalToStripeInEpoch_eq_ok (h : scheme.Valid) (hpositive : 1 ≤ count)
    (hcount : count ≤ scheme.stripes*scheme.k) {addr : StripeAddress} :
    ordinalToStripeInEpoch ordinal epochId start count scheme=.ok addr ↔
      start ≤ ordinal ∧ ordinal < start+count ∧
        addr=offsetAddress scheme epochId (ordinal-start) := by
  simp only [ordinalToStripeInEpoch,h.dataShardsPerEpoch_eq,ok_bind,eq_ok]
  constructor
  · rintro ⟨_,_,_,hlo,_,hhi,rfl⟩
    exact ⟨by omega,by omega,rfl⟩
  · rintro ⟨hlo,hhi,rfl⟩
    exact ⟨(),by omega,(),by omega,(),by omega,rfl⟩

variable {stripe : UInt32}

theorem stripeDataShardInEpoch_offset (h : scheme.Valid) (hcount : count ≤ scheme.stripes*scheme.k)
    (hlo : start ≤ ordinal) (hhi : ordinal < start+count) :
    stripeDataShardInEpoch (offsetAddress scheme epochId (ordinal-start)) start (start+count) scheme=
      .ok (.real ordinal) := by
  have hwidth : ordinal-start < scheme.stripes*scheme.k := by omega
  obtain ⟨hword,hrow⟩ := h.row_toNat hwidth
  have hstripe := h.stripe_toNat (ordinal-start)
  have hlt := Nat.mod_lt (ordinal-start) h.one_le_stripes
  have hdivision := Nat.div_add_mod' (ordinal-start) scheme.stripes
  rw [offsetAddress,h.stripeDataShardInEpoch_eq (by omega) (by omega),hword,hstripe,hdivision,
    if_pos (by omega),Nat.add_sub_cancel' hlo]

theorem offsetAddress_position (h : scheme.Valid) {row : UInt16}
    (hstripe : stripe.toNat < scheme.stripes) :
    offsetAddress scheme epochId (row.toNat*scheme.stripes+stripe.toNat)=
      ⟨epochId,stripe,.data row⟩ := by
  have hmod : (row.toNat*scheme.stripes+stripe.toNat)%scheme.stripes=stripe.toNat := by
    rw [Nat.mul_add_mod_self_right,Nat.mod_eq_of_lt hstripe]
  have hdiv : (row.toNat*scheme.stripes+stripe.toNat)/scheme.stripes=row.toNat := by
    rw [add_comm,Nat.add_mul_div_right _ _ h.one_le_stripes,Nat.div_eq_of_lt hstripe,
      zero_add]
  rw [offsetAddress,hmod,hdiv,UInt32.ofNat_toNat,UInt16.ofNat_toNat]

end ParityScheme.Valid

def onStripe (scheme : ParityScheme) (epochId : UInt64) (start count : ℕ) (stripe : UInt32)
    (ordinal : ℕ) : Bool :=
  match ordinalToStripeInEpoch ordinal epochId start count scheme with
  | .ok addr => addr.stripeIndex=stripe
  | .error _ => false

variable {stripe : UInt32}

theorem onStripe_iff (h : scheme.Valid) (hpositive : 1 ≤ count)
    (hcount : count ≤ scheme.stripes*scheme.k) :
    onStripe scheme epochId start count stripe ordinal=true ↔
      start ≤ ordinal ∧ ordinal < start+count ∧ (ordinal-start)%scheme.stripes=stripe.toNat := by
  unfold onStripe
  split
  · rename_i addr haddr
    obtain ⟨hlo,hhi,rfl⟩ := (h.ordinalToStripeInEpoch_eq_ok hpositive hcount).mp haddr
    rw [decide_eq_true_eq,←UInt32.toNat_inj,offsetAddress,h.stripe_toNat]
    exact ⟨fun hmod => ⟨hlo,hhi,hmod⟩,fun hmod => hmod.2.2⟩
  · rename_i error herror
    simp only [Bool.false_eq_true,false_iff]
    rintro ⟨hlo,hhi,_⟩
    rw [(h.ordinalToStripeInEpoch_eq_ok hpositive hcount).mpr ⟨hlo,hhi,rfl⟩] at herror
    cases herror

def stripeOrdinals (scheme : ParityScheme) (epochId : UInt64) (start count : ℕ) (stripe : UInt32)
    (first len : ℕ) : Finset ℕ :=
  (Finset.Ico first (first+len)).filter fun ordinal =>
    onStripe scheme epochId start count stripe ordinal=true

variable {len : ℕ}

theorem card_stripeOrdinals_le (h : scheme.Valid) (hpositive : 1 ≤ count)
    (hcount : count ≤ scheme.stripes*scheme.k) {first : ℕ} (hlen : len ≤ scheme.stripes*scheme.m) :
    (stripeOrdinals scheme epochId start count stripe first len).card ≤ scheme.m := by
  -- ordinals shift to epoch-local offsets, which lie on one lane
  have hmem : ∀ ordinal ∈ stripeOrdinals scheme epochId start count stripe first len,
      start ≤ ordinal ∧ ordinal-start ∈ lane scheme.stripes stripe.toNat (first-start)
        (first+len-start) := by
    intro ordinal hordinal
    obtain ⟨hrun,hstripe⟩ := Finset.mem_filter.mp hordinal
    rw [Finset.mem_Ico] at hrun
    obtain ⟨hlo,hhi,hmod⟩ := (onStripe_iff h hpositive hcount).mp hstripe
    exact ⟨hlo,mem_lane.mpr ⟨⟨by omega,by omega⟩,hmod⟩⟩
  refine (Finset.card_le_card_of_injOn (fun ordinal => ordinal-start)
    (fun ordinal hordinal => (hmem ordinal hordinal).2) ?_).trans (card_lane_le (by omega))
  intro x hx y hy hxy
  have hx := (hmem x hx).1
  have hy := (hmem y hy).1
  simp only at hxy
  omega

def inRun (lo len : ℕ) : Except ParityError ℕ → Bool
  | .ok address => lo ≤ address ∧ address < lo+len
  | .error _ => false

def FilemarkMap.parityAddress (map : FilemarkMap) (scheme : ParityScheme) (sidecarFile : ℕ)
    (indexBlocks : UInt64) (stripe : UInt32) (parityIndex : UInt16) : Except ParityError ℕ :=
  parityBlockPosition stripe parityIndex scheme.stripesPerNeighborhood scheme.parityBlocksPerStripe
    indexBlocks >>= fun block => map.physicalPosition ⟨sidecarFile,block⟩

def touchedData (map : FilemarkMap) (scheme : ParityScheme) (epochId : UInt64) (start count : ℕ)
    (stripe : UInt32) (lo len : ℕ) : Finset ℕ :=
  (Finset.Ico start (start+count)).filter fun ordinal =>
    onStripe scheme epochId start count stripe ordinal=true ∧
      inRun lo len (map.ordinalAddress ordinal)=true

def touchedParity (map : FilemarkMap) (scheme : ParityScheme) (sidecarFile : ℕ)
    (indexBlocks : UInt64) (stripe : UInt32) (lo len : ℕ) : Finset ℕ :=
  (Finset.range scheme.m).filter fun parityIndex =>
    inRun lo len (map.parityAddress scheme sidecarFile indexBlocks stripe
      (UInt16.ofNat parityIndex))=true

/-- A sidecar file right behind the object file its epoch ends in. -/
structure DirectSidecar (map : FilemarkMap) (file : ℕ) (stop : ℕ) where
  object : TapeFileMapEntry
  first : UInt64
  sidecar : TapeFileMapEntry
  object_at : map.entries[file]?=some object
  first_eq : object.firstParityDataOrdinal=some first
  stop_eq : first.toNat+object.blockCount.toNat=stop
  sidecar_at : map.entries[file+1]?=some sidecar

theorem objectBlocks_between (entries : List TapeFileMapEntry) {i j : ℕ} (h : i ≤ j) :
    objectBlocks (entries.take j)+prefixLength (entries.take i) ≤
      objectBlocks (entries.take i)+prefixLength (entries.take j) := by
  have hsplit : entries.take j=entries.take i++(entries.take j).drop i := by
    have htake := (take_append_drop i (entries.take j)).symm
    rwa [take_take,Nat.min_eq_left h] at htake
  rw [hsplit,objectBlocks_append,prefixLength_append]
  have := objectBlocks_le_prefixLength ((entries.take j).drop i)
  omega

theorem objectBlocks_take_le (entries : List TapeFileMapEntry) {i j : ℕ} (h : i ≤ j) :
    objectBlocks (entries.take i) ≤ objectBlocks (entries.take j) := by
  have htake := (take_append_drop i (entries.take j)).symm
  rw [take_take,Nat.min_eq_left h] at htake
  rw [htake,objectBlocks_append]
  exact Nat.le_add_right _ _

namespace FilemarkMap

variable (map : FilemarkMap)

theorem of_positionInEntries {entries : List TapeFileMapEntry} {position : TapeFilePosition}
    (h : positionInEntries ordinal entries=.ok position) :
    ∃ (i : ℕ) (entry : TapeFileMapEntry) (first : UInt64), entries[i]?=some entry ∧
      entry.firstParityDataOrdinal=some first ∧ first.toNat ≤ ordinal ∧
      ordinal < first.toNat+entry.blockCount.toNat ∧
      position=⟨entry.tapeFileNumber.toNat,ordinal-first.toNat⟩ := by
  induction entries with
  | nil => cases h
  | cons entry rest ih =>
    have hlater : positionInEntries ordinal rest=.ok position →
        ∃ (i : ℕ) (e : TapeFileMapEntry) (first : UInt64), (entry::rest)[i]?=some e ∧
          e.firstParityDataOrdinal=some first ∧ first.toNat ≤ ordinal ∧
          ordinal < first.toNat+e.blockCount.toNat ∧
          position=⟨e.tapeFileNumber.toNat,ordinal-first.toNat⟩ := by
      intro hrest
      obtain ⟨i,e,first,hi,hfacts⟩ := ih hrest
      exact ⟨i+1,e,first,hi,hfacts⟩
    unfold positionInEntries at h
    split at h
    · exact hlater h
    · rename_i first hfirst
      split_ifs at h with hover hrange
      · exact ⟨0,entry,first,rfl,hfirst,hrange.1,hrange.2,(Except.ok.inj h).symm⟩
      · exact hlater h

variable {address : ℕ}

theorem ordinalAddress_eq_ok (h : map.ordinalAddress ordinal=.ok address) :
    ∃ i entry, map.entries[i]?=some entry ∧ entry.kind=.object ∧
      objectBlocks (map.entries.take i) ≤ ordinal ∧
      ordinal < objectBlocks (map.entries.take i)+entry.blockCount.toNat ∧
      address+objectBlocks (map.entries.take i)=prefixLength (map.entries.take i)+ordinal := by
  rw [ordinalAddress,bind_eq_ok] at h
  obtain ⟨position,hposition,hphysical⟩ := h
  obtain ⟨i,entry,first,hentry,hfirst,hlo,hhi,rfl⟩ := of_positionInEntries hposition
  rw [map.tapeFileNumber_eq hentry,map.physicalPosition_eq_ok hentry (by omega)] at hphysical
  have haddress := Except.ok.inj hphysical
  have hvalue := map.first_eq hentry hfirst
  have hkind := TapeFileMapEntry.kind_of_first (map.rowAccepted hentry).fields hfirst
  exact ⟨i,entry,hentry,hkind,by omega,by omega,by omega⟩

end FilemarkMap

namespace DirectSidecar

variable {map : FilemarkMap} {file stop : ℕ} (direct : DirectSidecar map file stop)

include direct

theorem objectBlocks_eq :
    objectBlocks (map.entries.take file)+direct.object.blockCount.toNat=stop := by
  rw [←map.first_eq direct.object_at direct.first_eq,direct.stop_eq]

theorem objectBlocks_succ : objectBlocks (map.entries.take (file+1))=stop := by
  have hkind := TapeFileMapEntry.kind_of_first (map.rowAccepted direct.object_at).fields
    direct.first_eq
  rw [take_add_one,direct.object_at,Option.toList_some,objectBlocks_append,
    objectBlocks_singleton,if_pos hkind,direct.objectBlocks_eq]

theorem ordinalAddress_le (hlt : ordinal < stop) (h : map.ordinalAddress ordinal=.ok address) :
    address+(stop-ordinal) ≤ prefixLength (map.entries.take file)+direct.object.blockCount.toNat := by
  obtain ⟨i,entry,hentry,_,hlo,_,haddress⟩ := map.ordinalAddress_eq_ok h
  -- the ordinal's file is not behind the object
  have hle : i ≤ file := by
    by_contra hbehind
    have := objectBlocks_take_le map.entries (show file+1 ≤ i by omega)
    rw [direct.objectBlocks_succ] at this
    omega
  have hbetween := objectBlocks_between map.entries hle
  have hstop := direct.objectBlocks_eq
  omega

theorem parityAddress_eq {indexBlocks : UInt64} {parityIndex : UInt16}
    (h : map.parityAddress scheme (file+1) indexBlocks stripe parityIndex=.ok address) :
    stripe.toNat < scheme.stripes ∧
      address=prefixLength (map.entries.take file)+direct.object.blockCount.toNat+1+
        indexBlocks.toNat+parityIndex.toNat*scheme.stripes+stripe.toNat := by
  simp only [FilemarkMap.parityAddress,eq_ok,parityBlockPosition,
    checkedU64_eq_ok,ge_iff_le,UInt32.le_iff_toNat_le,Nat.not_le] at h
  obtain ⟨block,⟨_,hstripe,_,_,_,rfl⟩,hphysical⟩ := h
  have hbound : indexBlocks.toNat+parityIndex.toNat*scheme.stripesPerNeighborhood.toNat+
      stripe.toNat < direct.sidecar.blockCount.toNat := by
    by_contra hover
    simp only [FilemarkMap.physicalPosition,FilemarkMap.entryAt,
      map.entry_eq_ok direct.sidecar_at,ok_bind,rejectIf_neg (Nat.le_of_not_lt hover),
      error_bind] at hphysical
    cases hphysical
  rw [map.physicalPosition_eq_ok direct.sidecar_at hbound,take_add_one,direct.object_at,
    Option.toList_some,prefixLength_append,prefixLength_singleton] at hphysical
  have haddress := Except.ok.inj hphysical
  have hstripes : scheme.stripes=scheme.stripesPerNeighborhood.toNat := rfl
  rw [hstripes]
  exact ⟨hstripe,by omega⟩

end DirectSidecar

/-- A run across the end of a full epoch's data and the start of its parity region. -/
structure Straddles (map : FilemarkMap) (scheme : ParityScheme) (file stop : ℕ)
    (indexBlocks : UInt64) (lo len : ℕ) : Prop where
  last : inRun lo len (map.ordinalAddress (stop-1))=true
  parity : inRun lo len (map.parityAddress scheme (file+1) indexBlocks 0 0)=true
  len_le : len ≤ scheme.m*scheme.stripes+indexBlocks.toNat+1

theorem inRun_eq_true {lo : ℕ} {address : Except ParityError ℕ} :
    inRun lo len address=true ↔ ∃ a, address=.ok a ∧ lo ≤ a ∧ a < lo+len := by
  cases address <;> simp [inRun]

theorem card_touched_le (h : scheme.Valid) {map : FilemarkMap} {file : ℕ}
    (direct : DirectSidecar map file (start+scheme.stripes*scheme.k)) {indexBlocks : UInt64}
    {lo : ℕ} (hrun : Straddles map scheme file (start+scheme.stripes*scheme.k) indexBlocks lo len) :
    (touchedData map scheme epochId start (scheme.stripes*scheme.k) stripe lo len).card+
      (touchedParity map scheme (file+1) indexBlocks stripe lo len).card ≤ scheme.m := by
  have hpositive : 1 ≤ scheme.stripes*scheme.k :=
    Nat.mul_pos h.one_le_stripes (by have := h.two_le_k; omega)
  obtain ⟨last,hlast,hlastLo,_⟩ := inRun_eq_true.mp hrun.last
  obtain ⟨parity,hparity,_,hparityHi⟩ := inRun_eq_true.mp hrun.parity
  have hlastLe := direct.ordinalAddress_le (by omega) hlast
  obtain ⟨_,hparityEq⟩ := direct.parityAddress_eq hparity
  simp only [UInt16.toNat_zero,UInt32.toNat_zero,zero_mul,add_zero] at hparityEq
  have hlen := hrun.len_le
  rw [mul_comm] at hlen
  generalize hwidth : scheme.stripes*scheme.k=width at *
  generalize hmark : prefixLength (map.entries.take file)+direct.object.blockCount.toNat=mark at *
  -- offsets of the data region, then of the parity region, on one line
  have hbound : width+(lo+len-parity) ≤ width-(mark-lo)+scheme.stripes*scheme.m := by omega
  have hdata : ∀ ordinal ∈ touchedData map scheme epochId start width stripe lo len,
      ordinal-start ∈ lane scheme.stripes stripe.toNat (width-(mark-lo)) (width+(lo+len-parity)) ∧
        ordinal-start < width := by
    intro ordinal hordinal
    obtain ⟨_,hstripe,htouched⟩ := Finset.mem_filter.mp hordinal
    obtain ⟨hlo,hhi,hmod⟩ := (onStripe_iff h hpositive (le_of_eq hwidth.symm)).mp hstripe
    obtain ⟨address,haddress,hge,_⟩ := inRun_eq_true.mp htouched
    have hle := direct.ordinalAddress_le hhi haddress
    exact ⟨mem_lane.mpr ⟨⟨by omega,by omega⟩,hmod⟩,by omega⟩
  have hinjective : Set.InjOn (fun ordinal => ordinal-start)
      (touchedData map scheme epochId start width stripe lo len) := by
    intro x hx y hy hxy
    have hx := Finset.mem_Ico.mp (Finset.mem_filter.mp hx).1
    have hy := Finset.mem_Ico.mp (Finset.mem_filter.mp hy).1
    simp only at hxy
    omega
  have hrows : ∀ parityIndex ∈ touchedParity map scheme (file+1) indexBlocks stripe lo len,
      width+(parityIndex*scheme.stripes+stripe.toNat) ∈ lane scheme.stripes stripe.toNat
        (width-(mark-lo)) (width+(lo+len-parity)) ∧
        width ≤ width+(parityIndex*scheme.stripes+stripe.toNat) := by
    intro parityIndex hindex
    obtain ⟨hlt,htouched⟩ := Finset.mem_filter.mp hindex
    obtain ⟨address,haddress,_,hhi⟩ := inRun_eq_true.mp htouched
    have hword : (UInt16.ofNat parityIndex).toNat=parityIndex := by
      apply UInt16.toNat_ofNat_of_lt'
      exact lt_trans (Finset.mem_range.mp hlt) scheme.parityBlocksPerStripe.toNat_lt
    obtain ⟨hstripe,haddressEq⟩ := direct.parityAddress_eq haddress
    rw [hword,hmark] at haddressEq
    -- a full epoch ends on a row boundary, so the parity lanes continue the data lanes
    have hmod : (width+(parityIndex*scheme.stripes+stripe.toNat))%scheme.stripes=stripe.toNat := by
      rw [←hwidth,Nat.mul_add_mod,Nat.mul_add_mod_self_right,Nat.mod_eq_of_lt hstripe]
    exact ⟨mem_lane.mpr ⟨⟨by omega,by omega⟩,hmod⟩,Nat.le_add_right _ _⟩
  have hrowsInjective : Set.InjOn (fun parityIndex => width+(parityIndex*scheme.stripes+stripe.toNat))
      (touchedParity map scheme (file+1) indexBlocks stripe lo len) := by
    intro x _ y _ hxy
    simp only at hxy
    have hproduct : x*scheme.stripes=y*scheme.stripes := by omega
    exact Nat.eq_of_mul_eq_mul_right h.one_le_stripes hproduct
  exact card_add_card_le hbound hdata hinjective hrows hrowsInjective

/-- The mappings of an epoch are inverse to each other, and bursts within the data or across its end
stay within the parity width. -/
theorem interleave_tolerates_bursts (scheme : ParityScheme) (hscheme : scheme.validate=.ok scheme) :
    (∀ (epochId : UInt64) (start count : ℕ), 1 ≤ count → count ≤ scheme.stripes*scheme.k →
      (∀ ordinal, start ≤ ordinal → ordinal < start+count → ∃ addr,
        ordinalToStripeInEpoch ordinal epochId start count scheme=.ok addr ∧
          stripeDataShardInEpoch addr start (start+count) scheme=.ok (.real ordinal)) ∧
      (∀ (stripe : UInt32) (row : UInt16), stripe.toNat < scheme.stripes → row.toNat < scheme.k →
        (∃ ordinal, start ≤ ordinal ∧ ordinal < start+count ∧
          stripeDataShardInEpoch ⟨epochId,stripe,.data row⟩ start (start+count) scheme=
            .ok (.real ordinal) ∧
          ordinalToStripeInEpoch ordinal epochId start count scheme=.ok ⟨epochId,stripe,.data row⟩) ∨
        stripeDataShardInEpoch ⟨epochId,stripe,.data row⟩ start (start+count) scheme=
            .ok .implicitZero ∧
          ∀ ordinal, ordinalToStripeInEpoch ordinal epochId start count scheme≠
            .ok ⟨epochId,stripe,.data row⟩) ∧
      ∀ (stripe : UInt32) (first len : ℕ), len ≤ scheme.stripes*scheme.m →
        (stripeOrdinals scheme epochId start count stripe first len).card ≤ scheme.m) ∧
    ∀ (epochId : UInt64) (map : FilemarkMap) (file start : ℕ),
      DirectSidecar map file (start+scheme.stripes*scheme.k) →
      ∀ (indexBlocks : UInt64) (stripe : UInt32) (lo len : ℕ),
        Straddles map scheme file (start+scheme.stripes*scheme.k) indexBlocks lo len →
        (touchedData map scheme epochId start (scheme.stripes*scheme.k) stripe lo len).card+
          (touchedParity map scheme (file+1) indexBlocks stripe lo len).card ≤ scheme.m := by
  have h : scheme.Valid := (ParityScheme.validate_eq_ok.mp hscheme).1
  refine ⟨fun epochId start count hpositive hcount => ⟨?_,?_,?_⟩,?_⟩
  · intro ordinal hlo hhi
    exact ⟨_,(h.ordinalToStripeInEpoch_eq_ok hpositive hcount).mpr ⟨hlo,hhi,rfl⟩,
      h.stripeDataShardInEpoch_offset hcount hlo hhi⟩
  · intro stripe row hstripe hrow
    rw [h.stripeDataShardInEpoch_eq hstripe hrow]
    by_cases hlt : row.toNat*scheme.stripes+stripe.toNat < count
    · refine .inl ⟨_,Nat.le_add_right _ _,Nat.add_lt_add_left hlt start,by rw [if_pos hlt],?_⟩
      rw [h.ordinalToStripeInEpoch_eq_ok hpositive hcount,Nat.add_sub_cancel_left,
        h.offsetAddress_position hstripe]
      exact ⟨Nat.le_add_right _ _,Nat.add_lt_add_left hlt start,rfl⟩
    · refine .inr ⟨by rw [if_neg hlt],fun ordinal hordinal => hlt ?_⟩
      -- an ordinal with this address would have this offset, which lies past the end
      obtain ⟨hlo,hhi,haddress⟩ := (h.ordinalToStripeInEpoch_eq_ok hpositive hcount).mp hordinal
      have hreal : stripeDataShardInEpoch (offsetAddress scheme epochId (ordinal-start)) start
          (start+count) scheme=.ok (.real ordinal) := h.stripeDataShardInEpoch_offset hcount hlo hhi
      rw [←haddress,h.stripeDataShardInEpoch_eq hstripe hrow,if_neg hlt] at hreal
      cases hreal
  · intro stripe first len hlen
    exact card_stripeOrdinals_le h hpositive hcount hlen
  · intro epochId map file start direct indexBlocks stripe lo len hrun
    exact card_touched_le h direct hrun

def twoStripes : ParityScheme := ⟨"two-stripes",2,1,2⟩

def twoStripesMap : FilemarkMap where
  entries := [.bootstrap 0 1,.object 1 4 0,.paritySidecar 2 5 0 0 4]
  valid := rfl

/-- The run from the last data block to the first parity block meets each stripe once. -/
theorem interleave_tolerates_bursts_twoStripes : Straddles twoStripesMap twoStripes 1 4 1 5 4 ∧
      (touchedData twoStripesMap twoStripes 0 0 4 1 5 4).card+
        (touchedParity twoStripesMap twoStripes 2 1 1 5 4).card ≤ 1 := by
  have hrun : Straddles twoStripesMap twoStripes 1 4 1 5 4 := ⟨by decide,by decide,by decide⟩
  exact ⟨hrun,(interleave_tolerates_bursts twoStripes rfl).2 0 twoStripesMap 1 0
    ⟨.object 1 4 0,0,.paritySidecar 2 5 0 0 4,rfl,rfl,rfl,rfl⟩ 1 1 5 4 hrun⟩

end Remanence.Parity
