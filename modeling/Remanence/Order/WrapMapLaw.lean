import Remanence.Order.WrapMap
import Remanence.Order.RationalOrder
import Remanence.Foundation.Words

/-!
# Placement of blocks in the wrap map

The wraps of a map lie one behind the other up to the end of data. A lookup finds the wrap of
every block, and positions inside a completed wrap tell its blocks apart. Wrap numbers are
32-bit words: with more wraps the last one is not recognised and a lookup in it fails.
-/

namespace Remanence.Order

open Foundation List
open UInt64 (ofNat lt_iff_toNat_lt le_iff_toNat_le not_le toNat_ofNat_of_lt')

/-- First block of a wrap, or the end of data behind the last one. -/
def WrapMap.bound (map : WrapMap) (i : ℕ) : ℕ := (map.wrapStarts[i]?.getD map.mappedExtentLba).toNat

structure WrapMap.Valid (map : WrapMap) : Prop where
  head : map.wrapStarts.head?=some 0
  length : map.completedSpans.length+1=map.wrapStarts.length
  next : ∀ (i : ℕ) (span : UInt64), map.completedSpans[i]?=some span →
    0 < span.toNat ∧ map.bound i+span.toNat=map.bound (i+1)
  last : map.bound map.completedSpans.length < map.mappedExtentLba.toNat
  eod : 0 < map.eodDenominator.spanLba.toNat

variable {map : WrapMap} {block : UInt64}

theorem completedWraps_eq_ok {wrap : ℕ} {start : UInt64} {ds : List ReowpDescriptor}
    {starts spans : List UInt64} (h : completedWraps wrap start ds=.ok (starts,spans)) :
    starts.length=spans.length ∧ ∀ (i : ℕ) (span : UInt64), spans[i]?=some span →
      0 < span.toNat ∧ ∃ low high, (start::starts)[i]?=some low ∧ starts[i]?=some high ∧
        low.toNat+span.toNat=high.toNat := by
  induction ds generalizing wrap start starts spans with
  | nil =>
    cases h
    exact ⟨rfl,nofun⟩
  | cons d rest ih =>
    simp only [completedWraps,eq_ok,Prod.exists,Prod.mk.injEq] at h
    obtain ⟨_,hmax,_,hlow,starts,spans,hrest,rfl,rfl⟩ := h
    obtain ⟨hlength,hspans⟩ := ih hrest
    refine ⟨congrArg Nat.succ hlength,fun i span hspan => ?_⟩
    cases i with
    | zero =>
      cases hspan
      have hlt : d.endLoi.toNat < 2^64-1 := by
        have hne : d.endLoi.toNat≠2^64-1 := fun heq => hmax (UInt64.toNat_inj.mp heq)
        have := d.endLoi.toNat_lt
        omega
      rw [UInt64.not_lt,le_iff_toNat_le] at hlow
      have hnext : (d.endLoi+1).toNat=d.endLoi.toNat+1 := by
        exact Nat.mod_eq_of_lt (show d.endLoi.toNat+1 < 2^64 by omega)
      have hspan : (d.endLoi+1-start).toNat=d.endLoi.toNat+1-start.toNat := by
        rw [UInt64.toNat_sub_of_le _ _ (le_iff_toNat_le.mpr (by omega)),hnext]
      exact ⟨by omega,start,d.endLoi+1,rfl,rfl,by omega⟩
    | succ i => exact hspans i span hspan

theorem lowerMedian_eq_none {values : List UInt64} : lowerMedian values=none ↔ values=[] := by
  rw [lowerMedian,getElem?_eq_none_iff,length_insertionSort]
  cases values with
  | nil => simp
  | cons value rest => simp; omega

theorem WrapMap.valid_of_fromDescriptors {descriptors : List ReowpDescriptor}
    (h : fromDescriptors descriptors=.ok map) : map.Valid := by
  unfold fromDescriptors at h
  dsimp only at h
  split at h
  · cases h
  simp only [eq_ok,Prod.exists] at h
  obtain ⟨_,-,starts,spans,hwraps,_,hlast,rfl⟩ := h
  obtain ⟨hlength,hspans⟩ := completedWraps_eq_ok hwraps
  rw [not_le,lt_iff_toNat_lt,getLastD_eq_getLast?,getLast?_eq_getElem?,
    length_cons,Nat.add_sub_cancel,hlength] at hlast
  obtain ⟨start,hstart⟩ : ∃ start, (0::starts)[spans.length]?=some start :=
    ⟨_,getElem?_eq_getElem (by rw [length_cons]; omega)⟩
  rw [hstart,Option.getD_some] at hlast
  refine ⟨rfl,congrArg Nat.succ hlength.symm,fun i span hspan => ?_,?_,?_⟩
  · obtain ⟨hpos,low,high,hlow,hhigh,hsum⟩ := hspans i span hspan
    rw [bound,bound,getElem?_cons_succ,hlow,hhigh]
    exact ⟨hpos,hsum⟩
  · rw [bound,hstart]
    exact hlast
  · rw [eodDenominatorOf]
    split
    · next hnone =>
      cases lowerMedian_eq_none.mp hnone
      cases length_eq_zero_iff.mp hlength
      cases hstart
      change 0 < (_-(0 : UInt64)).toNat
      rwa [UInt64.sub_zero]
    · next median hmedian =>
      have hmem := (mem_insertionSort (· ≤ ·)).mp (mem_of_getElem? hmedian)
      obtain ⟨i,hi⟩ := mem_iff_getElem?.mp hmem
      exact (hspans i median hi).1

theorem getElem?_takeWhile {α : Type*} (xs : List α) (p : α → Bool) :
    (∀ i < (xs.takeWhile p).length, ∃ x, xs[i]?=some x ∧ p x) ∧
      ∀ x, xs[(xs.takeWhile p).length]?=some x → p x=false := by
  induction xs with
  | nil => exact ⟨nofun,nofun⟩
  | cons a xs ih =>
    rw [takeWhile_cons]
    split_ifs with ha
    · refine ⟨fun i hi => ?_,ih.2⟩
      cases i with
      | zero => exact ⟨a,rfl,ha⟩
      | succ i => exact ih.1 i (Nat.lt_of_succ_lt_succ hi)
    · refine ⟨nofun,fun x hx => ?_⟩
      cases hx
      exact Bool.not_eq_true _ ▸ ha

section

variable (h : map.Valid)
include h

theorem WrapMap.Valid.bound_lt_succ {i : ℕ} (hi : i < map.wrapStarts.length) :
    map.bound i < map.bound (i+1) := by
  have hlength := h.length
  rcases Nat.lt_or_ge i map.completedSpans.length with hlt | hge
  · obtain ⟨hpos,hsum⟩ := h.next i _ (getElem?_eq_getElem hlt)
    omega
  · have hlast : i=map.completedSpans.length := by omega
    have hend : map.bound map.wrapStarts.length=map.mappedExtentLba.toNat := by
      rw [bound,getElem?_eq_none le_rfl,Option.getD_none]
    rw [hlast,hlength,hend]
    exact h.last

theorem WrapMap.Valid.bound_lt {i j : ℕ} (hij : i < j) (hj : j ≤ map.wrapStarts.length) :
    map.bound i < map.bound j := by
  induction j, hij using Nat.le_induction with
  | base => exact h.bound_lt_succ hj
  | succ j _ ih => exact (ih (by omega)).trans (h.bound_lt_succ hj)

theorem WrapMap.Valid.starts_pairwise : map.wrapStarts.Pairwise (· < ·) := by
  rw [pairwise_iff_getElem]
  intro i j hi hj hij
  have hlt := h.bound_lt hij hj.le
  rw [bound,bound,getElem?_eq_getElem hi,getElem?_eq_getElem hj] at hlt
  exact lt_iff_toNat_lt.mpr hlt

theorem WrapMap.Valid.search (hblock : block < map.mappedExtentLba) : ∃ i start,
    (map.wrapStarts.takeWhile (· ≤ block)).length=i+1 ∧ map.wrapStarts[i]?=some start ∧
      start.toNat=map.bound i ∧ map.bound i ≤ block.toNat ∧ block.toNat < map.bound (i+1) := by
  obtain ⟨hbefore,hbehind⟩ := getElem?_takeWhile map.wrapStarts (· ≤ block)
  obtain ⟨rest,hstarts⟩ := head?_eq_some_iff.mp h.head
  have hfirst : (map.wrapStarts.takeWhile (· ≤ block)).length≠0 := by
    rw [hstarts,takeWhile_cons,if_pos (decide_eq_true UInt64.zero_le)]
    exact Nat.succ_ne_zero _
  obtain ⟨i,hi⟩ := Nat.exists_eq_succ_of_ne_zero hfirst
  obtain ⟨start,hstart,hle⟩ := hbefore i (by omega)
  have hbound : start.toNat=map.bound i := by rw [bound,hstart,Option.getD_some]
  refine ⟨i,start,hi,hstart,hbound,hbound ▸ le_iff_toNat_le.mp (of_decide_eq_true hle),?_⟩
  rw [hi] at hbehind
  unfold bound
  cases hnext : map.wrapStarts[i+1]? with
  | none => exact lt_iff_toNat_lt.mp hblock
  | some next => exact lt_iff_toNat_lt.mp (not_le.mp (of_decide_eq_false (hbehind next hnext)))

end

theorem Ratio.checkedOneMinus_eq {r : Ratio} (h : 0 ≤ r.value) : ∃ rest,
    r.checkedOneMinus=some rest ∧ rest.value=1-r.value := by
  have hnum : 0 ≤ r.num.val := by
    by_contra hneg
    exact not_le.mpr (div_neg_of_neg_of_pos (Int.cast_lt_zero.mpr (not_le.mp hneg)) r.den_cast_pos) h
  have hrange : -2^127 ≤ r.den.val-r.num.val ∧ r.den.val-r.num.val < 2^127 := by
    have hpos := r.den_pos
    have hden := r.den.property
    have hbound := r.num.property
    omega
  refine ⟨reducedPos ⟨_,hrange⟩ r.den r.den_pos,?_,?_⟩
  · rw [checkedOneMinus,I128.checked,dif_pos hrange]
    rfl
  · rw [(reducedPos_eq _ _ _).2,Int.cast_sub,sub_div,div_self r.den_cast_pos.ne']
    rfl

theorem Ratio.new_ofWord (num : UInt64) {den : UInt64} (h : 0 < den.toNat) : ∃ r,
    Ratio.new (I128.ofWord num) (I128.ofWord den)=some r ∧ r.value=(num.toNat : ℚ)/den.toNat := by
  have hden : 0 < (I128.ofWord den).val := Int.natCast_pos.mpr h
  refine ⟨reducedPos (I128.ofWord num) (I128.ofWord den) hden,?_,(reducedPos_eq _ _ _).2⟩
  rw [Ratio.new,if_neg hden.ne',reduced,dif_pos hden]
  rfl

def WrapMap.fraction (map : WrapMap) (i : ℕ) (block : UInt64) : ℚ :=
  ((block.toNat-map.bound i : ℕ) : ℚ)/(map.bound (i+1)-map.bound i : ℕ)

structure WrapMap.Placed (map : WrapMap) (block : UInt64) (position : BlockPosition) : Prop where
  index_lt : position.wrapIndex.toNat < map.wrapStarts.length
  low : map.bound position.wrapIndex.toNat ≤ block.toNat
  high : block.toNat < map.bound (position.wrapIndex.toNat+1)
  direction : position.direction=if position.wrapIndex.toNat%2=0 then .forward else .reverse
  /-- Forward wraps count from one end of the tape, reverse wraps from the other. -/
  lpos : position.wrapIndex.toNat+1 < map.wrapStarts.length → position.physicalLpos.value=
    if position.wrapIndex.toNat%2=0 then map.fraction position.wrapIndex.toNat block
    else 1-map.fraction position.wrapIndex.toNat block

theorem WrapMap.place_of {i : ℕ} {start den : UInt64} {frac rest : Ratio}
    (hupper : (map.wrapStarts.takeWhile (· ≤ block)).length=i+1) (hstart : map.wrapStarts[i]?=some start)
    (hden : (if i=map.eodWrap.toNat then some map.eodDenominator.spanLba
      else map.completedSpans[i]?)=some den)
    (hfrac : Ratio.new (I128.ofWord (block-start)) (I128.ofWord den)=some frac)
    (hrest : frac.checkedOneMinus=some rest) :
    map.place block=some ⟨UInt32.ofNat i,if i%2=0 then .forward else .reverse,
      if i%2=0 then frac else rest,i=map.eodWrap.toNat⟩ := by
  unfold place
  simp only [hupper,Nat.add_sub_cancel,Nat.succ_ne_zero,if_false,hstart,Option.bind_eq_bind,
    Option.bind_some,decide_eq_true_eq]
  split_ifs at hden ⊢ with heod heven heven
  · cases hden
    rw [hfrac]
    rfl
  · cases hden
    rw [hfrac,Option.bind_some,hrest]
    rfl
  · rw [hden,Option.bind_some,hfrac]
    rfl
  · rw [hden,Option.bind_some,hfrac,Option.bind_some,hrest]
    rfl

/-- A lookup below the end of data places the block, unless there are too many wraps. -/
theorem WrapMap.Valid.place_eq (h : map.Valid) (hcount : map.wrapStarts.length ≤ 2^32)
    (hblock : block < map.mappedExtentLba) : ∃ position, map.place block=some position ∧
      map.Placed block position := by
  obtain ⟨i,start,hupper,hstart,hbound,hlow,hhigh⟩ := h.search hblock
  have hlength := h.length
  have hi : i < map.wrapStarts.length := (List.getElem?_eq_some_iff.mp hstart).1
  have heod : map.eodWrap.toNat=map.completedSpans.length := by
    rw [eodWrap,UInt32.toNat_ofNat_of_lt' (show _ < 2^32 by omega)]
    omega
  have hindex : (UInt32.ofNat i).toNat=i := UInt32.toNat_ofNat_of_lt' (show i < 2^32 by omega)
  have hoffset : (block-start).toNat=block.toNat-map.bound i := by
    rw [UInt64.toNat_sub_of_le _ _ (le_iff_toNat_le.mpr (by omega)),hbound]
  obtain ⟨den,hden,hpos,hspan⟩ : ∃ den, (if i=map.eodWrap.toNat then
      some map.eodDenominator.spanLba else map.completedSpans[i]?)=some den ∧ 0 < den.toNat ∧
        (i+1 < map.wrapStarts.length → den.toNat=map.bound (i+1)-map.bound i) := by
    split_ifs with hlast
    · exact ⟨_,rfl,h.eod,fun hnext => by omega⟩
    · have hget := getElem?_eq_getElem (show i < map.completedSpans.length by omega)
      obtain ⟨hpos,hsum⟩ := h.next i _ hget
      exact ⟨_,hget,hpos,fun _ => by omega⟩
  obtain ⟨frac,hfrac,hvalue⟩ := Ratio.new_ofWord (block-start) hpos
  obtain ⟨rest,hrest,hminus⟩ := Ratio.checkedOneMinus_eq (r := frac)
    (hvalue ▸ div_nonneg (Nat.cast_nonneg _) (Nat.cast_nonneg _))
  refine ⟨_,place_of hupper hstart hden hfrac hrest,?_⟩
  constructor <;> simp only [hindex]
  · exact hi
  · exact hlow
  · exact hhigh
  · intro hnext
    rw [hoffset,hspan hnext] at hvalue
    split_ifs
    · exact hvalue
    · rw [hminus,hvalue]
      rfl

section

variable (h : map.Valid)
include h

theorem WrapMap.Valid.unique {x i j : ℕ} (hj : j < map.wrapStarts.length)
    (hij : map.bound i ≤ x ∧ x < map.bound (i+1)) (hx : map.bound j ≤ x ∧ x < map.bound (j+1)) :
    ¬i < j := by
  intro hlt
  have hle : map.bound (i+1) ≤ map.bound j := by
    rcases Nat.eq_or_lt_of_le (Nat.succ_le_of_lt hlt) with rfl | hless
    · exact le_rfl
    · exact (h.bound_lt hless hj.le).le
  omega

theorem WrapMap.Valid.locate_last (hcount : 2^32 < map.wrapStarts.length) :
    ∃ block, block < map.mappedExtentLba ∧ map.locate block=.panic := by
  have hlength := h.length
  have hlast : map.completedSpans.length < map.wrapStarts.length := by omega
  have hget := getElem?_eq_getElem hlast
  have hbound : (map.wrapStarts.get ⟨_,hlast⟩).toNat=map.bound map.completedSpans.length := by
    rw [bound,hget]
    rfl
  have hblock : map.wrapStarts.get ⟨_,hlast⟩ < map.mappedExtentLba :=
    lt_iff_toNat_lt.mpr (hbound ▸ h.last)
  refine ⟨_,hblock,?_⟩
  obtain ⟨i,start,hupper,hstart,-,hlow,hhigh⟩ := h.search hblock
  have hi : i < map.wrapStarts.length := (List.getElem?_eq_some_iff.mp hstart).1
  have hself := h.bound_lt_succ hlast
  have hindex : i=map.completedSpans.length := by
    have hless := h.unique hlast ⟨hlow,hhigh⟩ ⟨hbound.ge,hbound ▸ hself⟩
    omega
  have heod : i≠map.eodWrap.toNat := by
    have := map.eodWrap.toNat_lt
    omega
  have hnone : map.completedSpans[i]?=none := getElem?_eq_none hindex.ge
  rw [locate,if_neg (not_le.mpr hblock),place]
  simp only [hupper,Nat.add_sub_cancel,Nat.succ_ne_zero,if_false,hstart,Option.bind_eq_bind,
    Option.bind_some,decide_eq_true_eq,if_neg heod,hnone,Option.bind_none]

theorem WrapMap.Valid.placed (hcount : map.wrapStarts.length ≤ 2^32) {position : BlockPosition}
    (hlocate : map.locate block=.position position) : map.Placed block position := by
  unfold locate at hlocate
  split_ifs at hlocate with hend
  obtain ⟨found,hplace,hplaced⟩ := h.place_eq hcount (not_le.mp hend)
  rw [hplace] at hlocate
  cases hlocate
  exact hplaced

end

def TapeDirection.Before (p q : ℚ) : TapeDirection → Prop
  | .forward => p < q
  | .reverse => q < p

def WrapMap.Completed (map : WrapMap) (position : BlockPosition) : Prop :=
  position.wrapIndex.toNat+1 < map.wrapStarts.length

structure WrapMap.Places (map : WrapMap) : Prop where
  /-- A block below the end of data is found in the one wrap that holds it. -/
  located : ∀ block, block < map.mappedExtentLba → ∃ position, map.locate block=.position position ∧
    ∀ i, i < map.wrapStarts.length ∧ map.bound i ≤ block.toNat ∧ block.toNat < map.bound (i+1) ↔
      i=position.wrapIndex.toNat
  outside : ∀ block, map.mappedExtentLba ≤ block →
    map.locate block=.uncovered ⟨block,map.mappedExtentLba⟩
  direction : ∀ block position, map.locate block=.position position →
    position.direction=if position.wrapIndex.toNat%2=0 then .forward else .reverse
  range : ∀ block position, map.locate block=.position position → map.Completed position →
    match position.direction with
    | .forward => 0 ≤ position.physicalLpos.value ∧ position.physicalLpos.value < 1
    | .reverse => 0 < position.physicalLpos.value ∧ position.physicalLpos.value ≤ 1
  monotone : ∀ a b p q, map.locate a=.position p → map.locate b=.position q → map.Completed p →
    p.wrapIndex=q.wrapIndex → a < b →
    p.direction.Before p.physicalLpos.value q.physicalLpos.value
  injective : ∀ a b p q, map.locate a=.position p → map.locate b=.position q → map.Completed p →
    p.wrapIndex=q.wrapIndex → p.physicalLpos=q.physicalLpos → a=b

theorem WrapMap.Placed.fraction_range {position : BlockPosition} (h : map.Placed block position) :
    0 ≤ map.fraction position.wrapIndex.toNat block ∧
      map.fraction position.wrapIndex.toNat block < 1 := by
  have hlow := h.low
  have hhigh := h.high
  refine ⟨div_nonneg (Nat.cast_nonneg _) (Nat.cast_nonneg _),?_⟩
  rw [fraction,div_lt_one (Nat.cast_pos.mpr (by omega)),Nat.cast_lt]
  omega

theorem WrapMap.fraction_lt {i : ℕ} {a b : UInt64} (hlow : map.bound i ≤ a.toNat) (hab : a < b)
    (hhigh : b.toNat < map.bound (i+1)) : map.fraction i a < map.fraction i b := by
  have hlt := lt_iff_toNat_lt.mp hab
  refine div_lt_div_of_pos_right (Nat.cast_lt.mpr ?_) (Nat.cast_pos.mpr ?_) <;> omega

theorem WrapMap.Placed.before {a b : UInt64} {p q : BlockPosition} (hp : map.Placed a p)
    (hq : map.Placed b q) (hcompleted : map.Completed p) (hindex : p.wrapIndex=q.wrapIndex)
    (hab : a < b) : p.direction.Before p.physicalLpos.value q.physicalLpos.value := by
  have hlt := fraction_lt hp.low hab (hindex ▸ hq.high)
  rw [hp.direction,hp.lpos hcompleted,hq.lpos (hindex ▸ hcompleted),←hindex]
  split_ifs
  · exact hlt
  · exact sub_lt_sub_left hlt 1

theorem WrapMap.Valid.places (h : map.Valid) (hcount : map.wrapStarts.length ≤ 2^32) : map.Places where
  located block hblock := by
    obtain ⟨position,hplace,hplaced⟩ := h.place_eq hcount hblock
    refine ⟨position,by rw [locate,if_neg (not_le.mpr hblock),hplace],fun i => ⟨?_,?_⟩⟩
    · rintro ⟨hi,hheld⟩
      have hless := h.unique hplaced.index_lt hheld ⟨hplaced.low,hplaced.high⟩
      have hmore := h.unique hi ⟨hplaced.low,hplaced.high⟩ hheld
      omega
    · rintro rfl
      exact ⟨hplaced.index_lt,hplaced.low,hplaced.high⟩
  outside block hend := if_pos hend
  direction block position hlocate := (h.placed hcount hlocate).direction
  range block position hlocate hcompleted := by
    have hplaced := h.placed hcount hlocate
    obtain ⟨hlow,hhigh⟩ := hplaced.fraction_range
    rw [hplaced.direction,hplaced.lpos hcompleted]
    split_ifs
    · exact ⟨hlow,hhigh⟩
    · exact ⟨sub_pos.mpr hhigh,sub_le_self 1 hlow⟩
  monotone a b p q hp hq := (h.placed hcount hp).before (h.placed hcount hq)
  injective a b p q hp hq hcompleted hindex hlpos := by
    have hirrefl : ∀ (direction : TapeDirection) x, ¬direction.Before x x := by
      rintro ⟨⟩ x <;> exact lt_irrefl x
    have hless := (h.placed hcount hp).before (h.placed hcount hq) hcompleted hindex
    have hmore := (h.placed hcount hq).before (h.placed hcount hp)
      (show _ < _ from hindex ▸ hcompleted) hindex.symm
    rw [hlpos] at hless hmore
    have hle := UInt64.not_lt.mp fun hlt => hirrefl _ _ (hless hlt)
    exact UInt64.le_antisymm (UInt64.not_lt.mp fun hlt => hirrefl _ _ (hmore hlt)) hle

/-- Wraps start one behind the other, and every block has its place exactly if their numbers differ.
-/
theorem WrapMap.places_iff {descriptors : List ReowpDescriptor}
    (h : fromDescriptors descriptors=.ok map) : map.wrapStarts.head?=some 0 ∧
      map.wrapStarts.Pairwise (· < ·) ∧ (map.Places ↔ map.wrapStarts.length ≤ 2^32) := by
  have hvalid := valid_of_fromDescriptors h
  refine ⟨hvalid.head,hvalid.starts_pairwise,fun hplaces => ?_,hvalid.places⟩
  by_contra hcount
  obtain ⟨block,hblock,hpanic⟩ := hvalid.locate_last (not_le.mp hcount)
  obtain ⟨position,hlocate,-⟩ := hplaces.located block hblock
  cases hpanic.symm.trans hlocate

theorem WrapMap.places_two : ∃ map, fromDescriptors [⟨0,0,9⟩,⟨0,1,15⟩]=.ok map ∧ map.Places := by
  have h : fromDescriptors [⟨0,0,9⟩,⟨0,1,15⟩]=
      .ok ⟨[⟨0,0,9⟩,⟨0,1,15⟩],[0,10],[10],15,⟨10,.medianCompletedWrap,1⟩⟩ := by decide +kernel
  exact ⟨_,h,(places_iff h).2.2.mpr (by decide)⟩

def twoBlocks (i : ℕ) : ReowpDescriptor := ⟨0,UInt32.ofNat i,UInt64.ofNat (2*i+1)⟩

def manyDescriptors (count : ℕ) : List ReowpDescriptor := (range' 0 count).map twoBlocks

theorem checkWrapNumbers_range (i count : ℕ) :
    checkWrapNumbers i ((range' i count).map twoBlocks)=.ok () := by
  induction count generalizing i with
  | zero => rfl
  | succ count ih =>
    rw [range'_succ,map_cons,twoBlocks,checkWrapNumbers,rejectIf_pos (not_not.mpr rfl),ok_bind]
    exact ih (i+1)

theorem completedWraps_range {i count : ℕ} (h : 2*(i+count)+1 < 2^64) : ∃ starts spans,
    completedWraps i (UInt64.ofNat (2*i)) ((range' i count).map twoBlocks)=.ok (starts,spans) ∧
      starts.length=count ∧
      (UInt64.ofNat (2*i)::starts).getLastD 0=UInt64.ofNat (2*(i+count)) := by
  induction count generalizing i with
  | zero => exact ⟨[],[],rfl,rfl,rfl⟩
  | succ count ih =>
    obtain ⟨starts,spans,hrest,hlength,hlast⟩ := @ih (i+1) (by omega)
    have hend := toNat_ofNat_of_lt' (show 2*i+1 < 2^64 by omega)
    have hstart := toNat_ofNat_of_lt' (show 2*i < 2^64 by omega)
    have hmax : ofNat (2*i+1)≠ofNat (2^64-1) := fun heq => by
      have := hend.symm.trans (congrArg UInt64.toNat heq)
      rw [toNat_ofNat_of_lt' (by decide)] at this
      omega
    have hlow : ¬ofNat (2*i+1) < ofNat (2*i) := by
      rw [lt_iff_toNat_lt,hend,hstart]
      omega
    have hnext : ofNat (2*i+1)+1=ofNat (2*(i+1)) := (UInt64.ofNat_add _ _).symm
    refine ⟨ofNat (2*(i+1))::starts,(ofNat (2*(i+1))-ofNat (2*i))::spans,?_,
      congrArg Nat.succ hlength,?_⟩
    · rw [range'_succ,map_cons,twoBlocks,completedWraps,rejectIf_pos hmax,ok_bind,
        rejectIf_pos hlow,ok_bind,hnext,hrest]
      rfl
    · rw [Nat.add_right_comm] at hlast
      exact hlast

theorem exists_fromDescriptors {count : ℕ} (h : 2*count+1 < 2^64) : ∃ map,
    WrapMap.fromDescriptors (manyDescriptors (count+1))=.ok map ∧ map.wrapStarts.length=count+1 := by
  obtain ⟨starts,spans,hwraps,hlength,hlast⟩ := @completedWraps_range 0 count (by omega)
  have hconcat : manyDescriptors (count+1)=
      manyDescriptors count++[twoBlocks count] := by
    rw [manyDescriptors,range'_1_concat,map_append,zero_add]
    rfl
  have hfilter : (manyDescriptors (count+1)).filter (fun d => d.partition=0)=manyDescriptors (count+1) :=
    filter_eq_self.mpr (forall_mem_map.mpr fun _ _ => rfl)
  have hopen : ¬(twoBlocks count).endLoi ≤ (0::starts).getLastD 0 := by
    have heod := toNat_ofNat_of_lt' h
    have hstart := toNat_ofNat_of_lt' (show 2*count < 2^64 by omega)
    rw [zero_add] at hlast
    change (0::starts).getLastD 0=_ at hlast
    rw [hlast,le_iff_toNat_le,twoBlocks,heod,hstart]
    omega
  refine ⟨⟨manyDescriptors count++[twoBlocks count],0::starts,spans,(twoBlocks count).endLoi,
    eodDenominatorOf spans ((0::starts).getLastD 0) (twoBlocks count).endLoi⟩,?_,
    congrArg Nat.succ hlength⟩
  unfold WrapMap.fromDescriptors
  dsimp only
  rw [hfilter,show checkWrapNumbers 0 (manyDescriptors (count+1))=_ from checkWrapNumbers_range 0 _,
    hconcat,getLast?_concat,dropLast_concat]
  dsimp only
  rw [ok_bind,show completedWraps 0 0 (manyDescriptors count)=_ from hwraps,ok_bind]
  rw [rejectIf_pos hopen]
  rfl

/-- With one wrap more than there are wrap numbers a block below the end of data makes the lookup
fail. -/
theorem WrapMap.locate_panics_of_many_wraps : ∃ map,
    fromDescriptors (manyDescriptors (2^32+1))=.ok map ∧
      ∃ block, block < map.mappedExtentLba ∧ map.locate block=.panic := by
  obtain ⟨map,hmap,hlength⟩ := @exists_fromDescriptors (2^32) (by decide)
  exact ⟨map,hmap,(valid_of_fromDescriptors hmap).locate_last (by rw [hlength]; decide)⟩

end Remanence.Order
