import Remanence.Foundation.Bytes
import Remanence.Parity.MatrixInversion

/-!
# The vector kernels of the byte field

The vector kernels multiply by two tables of sixteen products, one for each nibble, looked up
with a byte shuffle. A register is a list of bytes in memory order. Bytes behind the last whole
register go to the library's scalar kernel.
-/

namespace Remanence.Parity.Kernels

open Foundation Gf256 List
open Codec (gfMulSliceXor_length getD_gfMulSliceXor)

/-- `_mm_and_si128`, `_mm256_and_si256`. -/
def andBytes (a b : Bytes) : Bytes := List.zipWith (· &&& ·) a b

def xorBytes (a b : Bytes) : Bytes := List.zipWith (· ^^^ ·) a b

def srli4 : Bytes → Bytes
  | low::high::rest => (low>>>4|||high<<<4)::high>>>4::srli4 rest
  | bytes => bytes

/-- `_mm_shuffle_epi8`, `_mm256_shuffle_epi8`: the low nibble picks a byte of its own 16-byte lane,
a selector with its top bit set gives zero. -/
def shuffle (table selectors : Bytes) : Bytes :=
  selectors.mapIdx fun i selector =>
    if selector&&&0x80≠0 then 0 else table.getD (i/16*16+(selector&&&0x0F).toNat) 0

/-- Products of the low nibbles, then of the high nibbles. -/
def nibbleTables (coefficient : UInt8) : Bytes×Bytes :=
  ((List.range 16).map fun n => gfMul coefficient (UInt8.ofNat n),
    (List.range 16).map fun n => gfMul coefficient (UInt8.ofNat n<<<4))

def broadcast (lanes : ℕ) (table : Bytes) : Bytes := (replicate lanes table).flatten

def product (lanes : ℕ) (coefficient : UInt8) (bytes : Bytes) : Bytes :=
  let low := broadcast lanes (nibbleTables coefficient).1
  let high := broadcast lanes (nibbleTables coefficient).2
  let mask := replicate (lanes*16) 15
  let lo := andBytes bytes mask
  let hi := andBytes (srli4 bytes) mask
  xorBytes (shuffle low lo) (shuffle high hi)

/-- One iteration of the loop over whole registers. -/
def step (lanes : ℕ) (coefficient : UInt8) (input output : Bytes) (index : ℕ) : Bytes :=
  let offset := index*(lanes*16)
  writeAt output offset (xorBytes (slice output offset (lanes*16))
    (product lanes coefficient (slice input offset (lanes*16))))

section Kernels

-- `reed_solomon_erasure::galois_8::mul_slice_xor`
variable (mulSliceXor : UInt8 → Bytes → Bytes → Bytes)

def portable (coefficient : UInt8) (input output : Bytes) : Bytes :=
  mulSliceXor coefficient input output

def vectorKernel (lanes : ℕ) (coefficient : UInt8) (input output : Bytes) : Bytes :=
  let stop := input.length/(lanes*16)*(lanes*16)
  let output := (List.range (input.length/(lanes*16))).foldl (step lanes coefficient input) output
  output.take stop++portable mulSliceXor coefficient (input.drop stop) (output.drop stop)

def ssse3 := vectorKernel mulSliceXor 1

def avx2 := vectorKernel mulSliceXor 2

inductive KernelKind where
  | portable
  | ssse3
  | avx2
deriving Repr, DecidableEq

/-- Entry of the kernels; nothing when the assertion on the lengths fails. -/
def apply (kind : KernelKind) (coefficient : UInt8) (input output : Bytes) : Option Bytes :=
  if input.length≠output.length then none
  else if input=[] ∨ coefficient=0 then some output
  else if coefficient=1 then some (List.zipWith (· ^^^ ·) output input)
  else some (match kind with
    | .portable => portable mulSliceXor coefficient input output
    | .ssse3 => ssse3 mulSliceXor coefficient input output
    | .avx2 => avx2 mulSliceXor coefficient input output)

end Kernels

variable {lanes : ℕ} {bytes : Bytes}

theorem andBytes_mask : andBytes bytes (replicate bytes.length 15)=
    bytes.map (· &&& 15) := by
  induction bytes with
  | nil => rfl
  | cons b bytes ih => simpa [andBytes,replicate_succ] using ih

theorem length_srli4 (bytes : Bytes) : (srli4 bytes).length=bytes.length := by
  fun_induction srli4 bytes with
  | case1 low high rest ih => simp [ih]
  | case2 => rfl

theorem map_srli4 (heven : bytes.length%2=0) :
    (srli4 bytes).map (· &&& 15)=bytes.map fun b => b>>>(4 : UInt8) := by
  have hhigh : ∀ b : UInt8, b>>>4&&&(15 : UInt8)=b>>>4 := forall_byte (by decide +kernel)
  have hclear : ∀ b : UInt8, b<<<4&&&(15 : UInt8)=0 := forall_byte (by decide +kernel)
  have hor : ∀ a b : UInt8, (a|||b)&&&15=(a&&&15)|||(b&&&15) := fun a b =>
    UInt8.toNat_inj.mp (Nat.and_or_distrib_right ..)
  fun_induction srli4 bytes with
  | case1 low high rest ih =>
    have hrest : rest.length%2=0 := by
      simp only [length_cons] at heven
      omega
    simp only [map_cons,hor,hhigh,hclear,UInt8.or_zero,ih hrest]
  | case2 bytes hshort =>
    match bytes,hshort with
    | [],_ => rfl
    | [_],_ => cases heven
    | b::c::rest,hshort => exact absurd rfl (hshort b c rest)

theorem getD_broadcast {table : Bytes} (htable : table.length=16) {lane n : ℕ}
    (hlane : lane < lanes) (hn : n < 16) :
    (broadcast lanes table).getD (lane*16+n) 0=table.getD n 0 := by
  induction lanes generalizing lane with
  | zero => omega
  | succ lanes ih =>
    have hsplit : broadcast (lanes+1) table=table++broadcast lanes table := by
      rw [broadcast,replicate_succ,flatten_cons,broadcast]
    rw [hsplit]
    cases lane with
    | zero => rw [getD_append _ _ _ _ (by omega),zero_mul,zero_add]
    | succ lane =>
      rw [getD_append_right _ _ _ _ (by omega),htable,←ih (by omega : lane < lanes)]
      congr 1
      omega

theorem shuffle_broadcast {table selectors : Bytes} (htable : table.length=16)
    (hlength : selectors.length=lanes*16) (hsmall : ∀ s ∈ selectors, s.toNat < 16) :
    shuffle (broadcast lanes table) selectors=selectors.map fun s => table.getD s.toNat 0 := by
  have hnibble : ∀ s : UInt8, s.toNat < 16 → s&&&0x80=0 ∧ s&&&0x0F=s :=
    forall_byte (by decide +kernel)
  refine ext_getElem (by simp [shuffle]) fun i hi _ => ?_
  have hlt : i < selectors.length := by simpa [shuffle] using hi
  have hsixteen := hsmall _ (getElem_mem hlt)
  obtain ⟨htop,hlow⟩ := hnibble _ hsixteen
  simp only [shuffle,getElem_mapIdx,getElem_map,htop,hlow]
  exact getD_broadcast htable (by omega) hsixteen

theorem product_eq (coefficient : UInt8) (hlength : bytes.length=lanes*16) :
    product lanes coefficient bytes=bytes.map (gfMul coefficient) := by
  have hnibbles : ∀ b : UInt8, (b&&&15).toNat < 16 ∧ (b>>>4).toNat < 16 ∧
      (b&&&(15 : UInt8))^^^(b>>>4)<<<4=b := forall_byte (by decide +kernel)
  have hlookup : ∀ {n : ℕ} (f : ℕ → UInt8), n < 16 → ((List.range 16).map f).getD n 0=f n :=
    fun f h => by simp [getD_eq_getElem?_getD,h]
  have hlow : (nibbleTables coefficient).1.length=16 := by simp [nibbleTables]
  have hhigh : (nibbleTables coefficient).2.length=16 := by simp [nibbleTables]
  have hmask := @andBytes_mask (srli4 bytes)
  rw [length_srli4,map_srli4 (by omega)] at hmask
  unfold product
  dsimp only
  rw [←hlength,hmask,andBytes_mask,shuffle_broadcast hlow (by simpa using hlength),
    shuffle_broadcast hhigh (by simpa using hlength),map_map,map_map,xorBytes,zipWith_map,
    zipWith_self]
  · refine map_congr_left fun b _ => ?_
    obtain ⟨hl,hh,hb⟩ := hnibbles b
    conv_rhs => rw [←hb,gfMul_xor_right]
    simp only [nibbleTables,Function.comp_apply,hlookup _ hl,hlookup _ hh,UInt8.ofNat_toNat]
  · simpa using fun b _ => (hnibbles b).2.1
  · simpa using fun b _ => (hnibbles b).1

variable {coefficient : UInt8} {input output : Bytes}

theorem gfMulSliceXor_append {input' output' : Bytes} (h : input.length=output.length) :
    gfMulSliceXor coefficient (input++input') (output++output')=
      gfMulSliceXor coefficient input output++gfMulSliceXor coefficient input' output' :=
  zipWith_append h.symm

theorem foldl_step (hlength : input.length=output.length) (count : ℕ)
    (hcount : count*(lanes*16) ≤ input.length) :
    (List.range count).foldl (step lanes coefficient input) output=
      gfMulSliceXor coefficient (input.take (count*(lanes*16))) (output.take (count*(lanes*16)))++
        output.drop (count*(lanes*16)) := by
  induction count with
  | zero => simp [gfMulSliceXor]
  | succ count ih =>
    have hnext : (count+1)*(lanes*16)=count*(lanes*16)+lanes*16 := Nat.succ_mul ..
    rw [hnext] at hcount
    rw [range_succ,foldl_append,ih (by omega),hnext,take_add,take_add,
      gfMulSliceXor_append (by simp; omega)]
    generalize hoffset : count*(lanes*16)=offset at *
    have hdone : (gfMulSliceXor coefficient (input.take offset) (output.take offset)).length=
        offset := by
      rw [gfMulSliceXor_length (by simp; omega),length_take]
      omega
    have hregister : ((input.drop offset).take (lanes*16)).length=lanes*16 := by
      rw [length_take,length_drop]
      omega
    have hxor : xorBytes ((output.drop offset).take (lanes*16))
        (((input.drop offset).take (lanes*16)).map (gfMul coefficient))=gfMulSliceXor coefficient
          ((input.drop offset).take (lanes*16)) ((output.drop offset).take (lanes*16)) := by
      rw [xorBytes,zipWith_map_right,gfMulSliceXor]
    have hwritten : (gfMulSliceXor coefficient ((input.drop offset).take (lanes*16))
        ((output.drop offset).take (lanes*16))).length=lanes*16 := by
      rw [gfMulSliceXor_length (by simp; omega),length_take,length_drop]
      omega
    simp only [foldl_cons,foldl_nil,step,hoffset,slice,drop_left' hdone,product_eq _ hregister,
      hxor,writeAt,take_left' hdone,hwritten]
    rw [←drop_drop,drop_left' hdone,drop_drop]

section Library

variable {mulSliceXor : UInt8 → Bytes → Bytes → Bytes} (hlibrary : ∀ c input output,
  input.length=output.length → mulSliceXor c input output=gfMulSliceXor c input output)
include hlibrary

theorem vectorKernel_eq (hlength : input.length=output.length) :
    vectorKernel mulSliceXor lanes coefficient input output=
      gfMulSliceXor coefficient input output := by
  have hstop : input.length/(lanes*16)*(lanes*16) ≤ input.length := Nat.div_mul_le_self ..
  unfold vectorKernel
  dsimp only
  rw [foldl_step hlength _ hstop]
  generalize input.length/(lanes*16)*(lanes*16)=stop at *
  have hdone : (gfMulSliceXor coefficient (input.take stop) (output.take stop)).length=stop := by
    rw [gfMulSliceXor_length (by simp; omega),length_take]
    omega
  rw [take_left' hdone,drop_left' hdone,portable,hlibrary _ _ _ (by simp; omega),
    ←gfMulSliceXor_append (by simp; omega),take_append_drop,take_append_drop]

theorem apply_eq (kind : KernelKind) (hlength : input.length=output.length) :
    apply mulSliceXor kind coefficient input output=
      some (gfMulSliceXor coefficient input output) := by
  unfold apply
  split_ifs with hlen htrivial hone
  · exact absurd hlength hlen
  · -- nothing to add: no bytes, or products that vanish
    refine congrArg some (ext_getElem (gfMulSliceXor_length hlength).symm fun i hi _ => ?_)
    obtain rfl | rfl := htrivial
    · rw [←hlength] at hi
      exact absurd hi (Nat.not_lt_zero i)
    · simp [gfMulSliceXor]
  · subst hone
    refine congrArg (some <| List.zipWith · output input) (funext₂ fun out byte => ?_)
    rw [gfMul_comm,gfMul_one]
  · cases kind with
    | portable => rw [portable,hlibrary _ _ _ hlength]
    | ssse3 => rw [ssse3,vectorKernel_eq hlibrary hlength]
    | avx2 => rw [avx2,vectorKernel_eq hlibrary hlength]

end Library

structure MulAdd (coefficient : UInt8) (input output result : Bytes) : Prop where
  length_eq : result.length=output.length
  byte_eq : ∀ i, (⟨result.getD i 0⟩ : GF256)=⟨output.getD i 0⟩+⟨coefficient⟩*⟨input.getD i 0⟩

theorem mulAdd_gfMulSliceXor (hlength : input.length=output.length) :
    MulAdd coefficient input output (gfMulSliceXor coefficient input output) := by
  refine ⟨gfMulSliceXor_length hlength,fun i => ?_⟩
  rw [getD_gfMulSliceXor hlength,GF256.mk_xor,GF256.mk_gfMul]

/-- Every kernel adds the coefficient times the input byte; the class of `x` is a root of
`x^8+x^4+x^3+x^2+1`. -/
theorem kernels_mul_add {mulSliceXor : UInt8 → Bytes → Bytes → Bytes}
    (hlibrary : ∀ c input output, input.length=output.length →
      mulSliceXor c input output=gfMulSliceXor c input output)
    (coefficient : UInt8) (input output : Bytes) (hlength : input.length=output.length) :
    ((∀ i : Fin 8, (⟨1<<<UInt8.ofNat i.val⟩ : GF256)=⟨2⟩^i.val) ∧
      (⟨2⟩ : GF256)^8=⟨2⟩^4+⟨2⟩^3+⟨2⟩^2+1) ∧
    MulAdd coefficient input output (portable mulSliceXor coefficient input output) ∧
    MulAdd coefficient input output (ssse3 mulSliceXor coefficient input output) ∧
    MulAdd coefficient input output (avx2 mulSliceXor coefficient input output) ∧
    ∀ kind, ∃ result, apply mulSliceXor kind coefficient input output=some result ∧
      MulAdd coefficient input output result := by
  have hmul := @mulAdd_gfMulSliceXor coefficient input output hlength
  refine ⟨by decide +kernel,?_,?_,?_,fun kind => ⟨_,apply_eq hlibrary kind hlength,hmul⟩⟩
  · rwa [portable,hlibrary _ _ _ hlength]
  · rwa [ssse3,vectorKernel_eq hlibrary hlength]
  · rwa [avx2,vectorKernel_eq hlibrary hlength]

/-- A slice of one register of two lanes and a tail. -/
theorem kernels_mul_add_tail :
    MulAdd 0x1D ((List.range 37).map UInt8.ofNat) (replicate 37 7)
      (avx2 gfMulSliceXor 0x1D ((List.range 37).map UInt8.ofNat) (replicate 37 7)) :=
  (kernels_mul_add (fun _ _ _ _ => rfl) _ _ _ (by decide)).2.2.2.1

end Remanence.Parity.Kernels
