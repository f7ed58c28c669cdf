import Mathlib.Algebra.CharP.Two
import Mathlib.Algebra.CharP.Lemmas
import Mathlib.Algebra.Field.Basic
import Mathlib.Data.UInt

/-!
# The byte field of the `rs-cauchy-gf256-v1` codec

Bytes are added by exclusive or and multiplied by shift-and-reduce modulo `0x11D`.
Multiplication is biadditive, so its laws are read off the eight powers of two. The Frobenius
map is additive, so the 256th power is the identity and a byte's 255th power is zero or one; the
254th power inverts, and `GF256` is a field.
-/

namespace Remanence.Parity.Gf256

/-- One doubling of the multiplicand: shift left and reduce by `0x1d` when
the top bit was set. -/
def shiftReduce (a : UInt8) : UInt8 :=
  let shifted := a<<<1
  if a&&&0x80≠0 then shifted^^^0x1d else shifted

def gfMulLoop : ℕ → UInt8 → UInt8 → UInt8 → UInt8
  | 0,_,_,product => product
  | fuel+1,a,b,product =>
    if b=0 then product
    else gfMulLoop fuel (shiftReduce a) (b>>>1) (if b&&&1≠0 then product^^^a else product)

/-- Bitwise multiplication modulo `0x11D`. Eight iterations exhaust the
multiplier, see `gfMulLoop_exhausted`. -/
def gfMulBitwise (a b : UInt8) : UInt8 := gfMulLoop 8 a b 0

/-- Entry `[a][b]` of `GF_MUL_TABLE`, which `build_gf_mul_table` fills with
`gf_mul_bitwise`. -/
def gfMul (a b : UInt8) : UInt8 := gfMulBitwise a b

/-- Square-and-multiply loop of `gf_pow` with a bound on the iterations. -/
def gfPowLoop : ℕ → UInt8 → ℕ → UInt8 → UInt8
  | 0,_,_,result => result
  | fuel+1,value,exponent,result =>
    if exponent=0 then result
    else gfPowLoop fuel (gfMul value value) (exponent/2)
      (if exponent%2=1 then gfMul result value else result)

/-- Power of a byte; the exponent is a `u16`, so sixteen halvings exhaust it. -/
def gfPow (value : UInt8) (exponent : UInt16) : UInt8 := gfPowLoop 16 value exponent.toNat 1

def gfMulSliceXor (coefficient : UInt8) (input output : List UInt8) : List UInt8 :=
  List.zipWith (fun out byte => out^^^gfMul coefficient byte) output input

theorem forall_byte {P : UInt8 → Prop} (h : ∀ n : Fin 256, P (UInt8.ofNat n.val)) (x : UInt8) :
    P x := by
  have hx := h ⟨x.toNat,x.toNat_lt⟩
  simpa using hx

theorem xor_and (a b mask : UInt8) : (a^^^b)&&&mask=(a&&&mask)^^^(b&&&mask) := by
  apply UInt8.toBitVec_inj.mp
  simp only [UInt8.toBitVec_and,UInt8.toBitVec_xor]
  ext i hi
  simp only [BitVec.getElem_and,BitVec.getElem_xor]
  grind

theorem and_bit (x : UInt8) (i : Fin 8) :
    x&&&(1<<<UInt8.ofNat i.val)=0 ∨ x&&&(1<<<UInt8.ofNat i.val)=1<<<UInt8.ofNat i.val :=
  forall_byte (P := fun x => ∀ i : Fin 8,
    x&&&(1<<<UInt8.ofNat i.val)=0 ∨ x&&&(1<<<UInt8.ofNat i.val)=1<<<UInt8.ofNat i.val)
    (by decide +kernel) x i

theorem shiftReduce_xor (a b : UInt8) : shiftReduce (a^^^b)=shiftReduce a^^^shiftReduce b := by
  have htop : ∀ x : UInt8, x&&&0x80=0 ∨ x&&&0x80=0x80 := fun x => and_bit x 7
  unfold shiftReduce
  rw [xor_and,UInt8.shiftLeft_xor]
  rcases htop a with ha | ha <;> rcases htop b with hb | hb <;> simp only [ha,hb]
  · rfl
  · exact UInt8.xor_assoc ..
  · exact (UInt8.xor_assoc ..).trans
      ((congrArg _ (UInt8.xor_comm ..)).trans (UInt8.xor_assoc ..).symm)
  · have hpair : ∀ x y z : UInt8, x^^^z^^^(y^^^z)=x^^^y := fun x y z => by
      have : x^^^z^^^(y^^^z)=x^^^y^^^(z^^^z) := by ac_rfl
      rw [this,UInt8.xor_self,UInt8.xor_zero]
    exact (hpair ..).symm

theorem gfMulLoop_xor_left (fuel : ℕ) (a a' b p p' : UInt8) :
    gfMulLoop fuel (a^^^a') b (p^^^p')=gfMulLoop fuel a b p^^^gfMulLoop fuel a' b p' := by
  induction fuel generalizing a a' b p p' with
  | zero => rfl
  | succ fuel ih =>
    simp only [gfMulLoop]
    split
    · rfl
    · rw [shiftReduce_xor,←ih]
      congr 1
      split
      · ac_rfl
      · rfl

theorem gfMulLoop_zero (fuel : ℕ) (a p : UInt8) : gfMulLoop fuel a 0 p=p := by
  cases fuel <;> simp [gfMulLoop]

theorem gfMulLoop_succ (fuel : ℕ) (a b p : UInt8) : gfMulLoop (fuel+1) a b p=
      gfMulLoop fuel (shiftReduce a) (b>>>1) (p^^^if b&&&1≠0 then a else 0) := by
  rw [gfMulLoop]
  split
  · rename_i hb
    subst hb
    simp [gfMulLoop_zero]
  · congr 1
    split <;> simp

theorem gfMulLoop_xor_right (fuel : ℕ) (a b b' p p' : UInt8) :
    gfMulLoop fuel a (b^^^b') (p^^^p')=gfMulLoop fuel a b p^^^gfMulLoop fuel a b' p' := by
  have hlow : ∀ x : UInt8, x&&&1=0 ∨ x&&&1=1 := fun x => and_bit x 0
  induction fuel generalizing a b b' p p' with
  | zero => rfl
  | succ fuel ih =>
    rw [gfMulLoop_succ,gfMulLoop_succ,gfMulLoop_succ,UInt8.shiftRight_xor,←ih,xor_and]
    congr 1
    rcases hlow b with hb | hb <;> rcases hlow b' with hb' | hb' <;> simp only [hb,hb'] <;> simp
    · ac_rfl
    · ac_rfl
    · have : p^^^a^^^(p'^^^a)=p^^^p'^^^(a^^^a) := by ac_rfl
      rw [this,UInt8.xor_self,UInt8.xor_zero]

theorem gfMul_xor_left (a a' b : UInt8) : gfMul (a^^^a') b=gfMul a b^^^gfMul a' b :=
  gfMulLoop_xor_left 8 a a' b 0 0

theorem gfMul_xor_right (a b b' : UInt8) : gfMul a (b^^^b')=gfMul a b^^^gfMul a b' :=
  gfMulLoop_xor_right 8 a b b' 0 0

/-- Exclusive or of the powers of two selected by the bits of a byte. -/
def bitSum (a : UInt8) : List (Fin 8) → UInt8
  | [] => 0
  | i::rest => (if a&&&(1<<<UInt8.ofNat i.val)≠0 then 1<<<UInt8.ofNat i.val else 0)^^^bitSum a rest

theorem bitSum_finRange (a : UInt8) : bitSum a (List.finRange 8)=a :=
  forall_byte (P := fun a => bitSum a (List.finRange 8)=a) (by decide +kernel) a

theorem byte_span_induction {P : UInt8 → Prop} (hzero : P 0) (hxor : ∀ a b, P a → P b → P (a^^^b))
    (hpow : ∀ i : Fin 8, P (1<<<UInt8.ofNat i.val)) (a : UInt8) : P a := by
  rw [←bitSum_finRange a]
  generalize List.finRange 8=bits
  induction bits with
  | nil => exact hzero
  | cons i rest ih =>
    refine hxor _ _ ?_ ih
    split
    · exact hpow i
    · exact hzero

@[simp] theorem gfMul_zero (a : UInt8) : gfMul a 0=0 := gfMulLoop_zero 8 a 0

@[simp] theorem zero_gfMul (b : UInt8) : gfMul 0 b=0 := by
  have h := gfMul_xor_left 0 0 b
  rwa [UInt8.xor_self,UInt8.xor_self] at h

@[simp] theorem gfMul_one (a : UInt8) : gfMul a 1=a := by
  have hshift : (1 : UInt8)>>>1=0 := rfl
  rw [gfMul,gfMulBitwise,gfMulLoop_succ,hshift,gfMulLoop_zero]
  simp

theorem powers_of_two : (∀ i j : Fin 8, gfMul (1<<<UInt8.ofNat i.val) (1<<<UInt8.ofNat j.val)=
      gfMul (1<<<UInt8.ofNat j.val) (1<<<UInt8.ofNat i.val)) ∧
    (∀ i j k : Fin 8,
      gfMul (gfMul (1<<<UInt8.ofNat i.val) (1<<<UInt8.ofNat j.val)) (1<<<UInt8.ofNat k.val)=
      gfMul (1<<<UInt8.ofNat i.val) (gfMul (1<<<UInt8.ofNat j.val) (1<<<UInt8.ofNat k.val))) ∧
    ∀ i : Fin 8, gfPow (1<<<UInt8.ofNat i.val) 256=1<<<UInt8.ofNat i.val := by
  decide +kernel

/-- Multiplication is commutative: 64 products of powers of two decide it. -/
theorem gfMul_comm (a b : UInt8) : gfMul a b=gfMul b a := by
  induction a using byte_span_induction with
  | hzero => simp
  | hxor a a' ha ha' => rw [gfMul_xor_left,gfMul_xor_right,ha,ha']
  | hpow i =>
    induction b using byte_span_induction with
    | hzero => simp
    | hxor b b' hb hb' => rw [gfMul_xor_left,gfMul_xor_right,hb,hb']
    | hpow j => exact powers_of_two.1 i j

/-- Multiplication is associative: 512 products of powers of two decide it. -/
theorem gfMul_assoc (a b c : UInt8) : gfMul (gfMul a b) c=gfMul a (gfMul b c) := by
  induction a using byte_span_induction with
  | hzero => simp
  | hxor a a' ha ha' => rw [gfMul_xor_left,gfMul_xor_left,gfMul_xor_left,ha,ha']
  | hpow i =>
    induction b using byte_span_induction with
    | hzero => simp
    | hxor b b' hb hb' => rw [gfMul_xor_right,gfMul_xor_left,gfMul_xor_left,gfMul_xor_right,hb,hb']
    | hpow j =>
      induction c using byte_span_induction with
      | hzero => simp
      | hxor c c' hc hc' => rw [gfMul_xor_right,gfMul_xor_right,gfMul_xor_right,hc,hc']
      | hpow k => exact powers_of_two.2.1 i j k

/-- A byte read as an element of the field. -/
@[ext] structure GF256 where
  byte : UInt8
deriving DecidableEq

namespace GF256

instance : Zero GF256 := ⟨⟨0⟩⟩
instance : One GF256 := ⟨⟨1⟩⟩
instance : Add GF256 := ⟨fun a b => ⟨a.byte^^^b.byte⟩⟩
instance : Neg GF256 := ⟨fun a => a⟩
instance : Mul GF256 := ⟨fun a b => ⟨gfMul a.byte b.byte⟩⟩

@[simp] theorem byte_add (a b : GF256) : (a+b).byte=a.byte^^^b.byte := rfl
@[simp] theorem byte_neg (a : GF256) : (-a).byte=a.byte := rfl

/-- Exclusive or and multiplication make the bytes a commutative ring. -/
instance : CommRing GF256 where
  add_assoc a b c := GF256.ext (UInt8.xor_assoc ..)
  zero_add a := GF256.ext UInt8.zero_xor
  add_zero a := GF256.ext UInt8.xor_zero
  add_comm a b := GF256.ext (UInt8.xor_comm ..)
  nsmul := nsmulRec
  zsmul := zsmulRec
  neg_add_cancel a := GF256.ext UInt8.xor_self
  mul_assoc a b c := GF256.ext (gfMul_assoc ..)
  one_mul a := GF256.ext ((gfMul_comm 1 a.byte).trans (gfMul_one a.byte))
  mul_one a := GF256.ext (gfMul_one a.byte)
  mul_comm a b := GF256.ext (gfMul_comm ..)
  left_distrib a b c := GF256.ext (gfMul_xor_right ..)
  right_distrib a b c := GF256.ext (gfMul_xor_left ..)
  zero_mul a := GF256.ext (zero_gfMul a.byte)
  mul_zero a := GF256.ext (gfMul_zero a.byte)

@[simp] theorem mk_zero : (⟨0⟩ : GF256)=0 := rfl
@[simp] theorem mk_one : (⟨1⟩ : GF256)=1 := rfl
@[simp] theorem mk_xor (a b : UInt8) : (⟨a^^^b⟩ : GF256)=⟨a⟩+⟨b⟩ := rfl
@[simp] theorem mk_gfMul (a b : UInt8) : (⟨gfMul a b⟩ : GF256)=⟨a⟩*⟨b⟩ := rfl

@[simp] theorem mk_eq_zero {a : UInt8} : (⟨a⟩ : GF256)=0 ↔ a=0 :=
  ⟨fun h => congrArg byte h,fun h => h ▸ rfl⟩

/-- Square-and-multiply computes powers of the ring once the fuel covers the
exponent. -/
theorem mk_gfPowLoop (fuel : ℕ) (value result : UInt8) (exponent : ℕ) (h : exponent < 2^fuel) :
    (⟨gfPowLoop fuel value exponent result⟩ : GF256)=⟨result⟩*⟨value⟩^exponent := by
  induction fuel generalizing value result exponent with
  | zero =>
    obtain rfl : exponent=0 := by simpa using h
    simp [gfPowLoop]
  | succ fuel ih =>
    rw [gfPowLoop]
    split
    · rename_i h0
      simp [h0]
    · rw [ih _ _ _ (by omega),mk_gfMul,←pow_two,←pow_mul]
      split
      · rename_i hodd
        rw [mk_gfMul,mul_assoc,←pow_succ']
        congr 2
        omega
      · congr 2
        omega

theorem mk_gfPow (value : UInt8) (exponent : UInt16) :
    (⟨gfPow value exponent⟩ : GF256)=⟨value⟩^exponent.toNat := by
  rw [gfPow,mk_gfPowLoop 16 _ _ _ exponent.toNat_lt,mk_one,one_mul]

instance : Nontrivial GF256 := ⟨0,1,by decide⟩

instance : CharP GF256 2 :=
  CharTwo.of_one_ne_zero_of_two_eq_zero one_ne_zero (by rw [←one_add_one_eq_two]; rfl)

theorem pow_256 (a : GF256) : a^256=a := by
  obtain ⟨b⟩ := a
  induction b using byte_span_induction with
  | hzero => exact zero_pow (by decide)
  | hxor a b ha hb =>
    have hfrob := add_pow_char_pow (⟨a⟩ : GF256) ⟨b⟩ 2 8
    rwa [show (2 : ℕ)^8=256 from rfl,ha,hb] at hfrob
  | hpow i =>
    have h := mk_gfPow (1<<<UInt8.ofNat i.val) 256
    rw [powers_of_two.2.2 i] at h
    exact h.symm

theorem idempotent_eq {a : GF256} (h : a*a=a) : a=0 ∨ a=1 := by
  have hall : ∀ b : UInt8, gfMul b b=b → b=0 ∨ b=1 := forall_byte (by decide +kernel)
  rcases hall a.byte (congrArg byte h) with h0 | h1
  · exact .inl (GF256.ext h0)
  · exact .inr (GF256.ext h1)

theorem pow_255 {a : GF256} (h : a≠0) : a^255=1 := by
  have hidem : a^255*a^255=a^255 := by
    calc a^255*a^255=a^256*a^254 := by ring
      _=a*a^254 := by rw [pow_256]
      _=a^255 := by ring
  refine (idempotent_eq hidem).resolve_left fun hzero => h ?_
  rw [←pow_256 a,pow_succ,hzero,zero_mul]

instance : Inv GF256 := ⟨fun a => if a=0 then 0 else a^254⟩

/-- The byte operations of the codec form a field. -/
instance : Field GF256 where
  mul_inv_cancel a h := by
    have hinv : a⁻¹=a^254 := if_neg h
    rw [hinv,←pow_succ',pow_255 h]
  inv_zero := if_pos rfl
  nnqsmul := _
  qsmul := _

@[simp] theorem byte_sub (a b : GF256) : (a-b).byte=a.byte^^^b.byte := by
  rw [sub_eq_add_neg,byte_add,byte_neg]

theorem mk_gfPow_254 {a : UInt8} (h : a≠0) : (⟨gfPow a 254⟩ : GF256)=(⟨a⟩ : GF256)⁻¹ := by
  have ha : (⟨a⟩ : GF256)≠0 := fun hz => h (mk_eq_zero.mp hz)
  rw [mk_gfPow]
  exact (if_neg ha).symm

end GF256

end Remanence.Parity.Gf256
