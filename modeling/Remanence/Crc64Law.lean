import Mathlib.Logic.Function.Iterate
import Remanence.Crc64

/-!
# The sliced CRC-64/XZ

The bit step is linear for exclusive or, so a register may be split at any byte. Each table
makes the steps of its byte and of the zero bytes behind it, and eight of them take in a word.
The sliced checksum is therefore the bitwise one.
-/

namespace Remanence.Crc64

theorem bitStep_xor (x y : UInt64) :
    crc64XzBitStep (x^^^y)=crc64XzBitStep x^^^crc64XzBitStep y := by
  have hand : (x^^^y)&&&1=(x&&&1)^^^(y&&&1) :=
    UInt64.toNat_inj.mp (by simp only [UInt64.toNat_and,UInt64.toNat_xor,Nat.and_xor_distrib_right])
  have hbit : ∀ z : UInt64, z&&&1=0 ∨ z&&&1=1 := fun z => by
    simp only [←UInt64.toNat_inj,UInt64.toNat_and,UInt64.toNat_one,Nat.and_one_is_mod,
      UInt64.toNat_zero]
    omega
  have hcancel : ∀ a b c : UInt64, a^^^c^^^(b^^^c)=a^^^b := fun a b c => by
    have hpair : a^^^c^^^(b^^^c)=a^^^b^^^(c^^^c) := by ac_rfl
    rw [hpair,UInt64.xor_self,UInt64.xor_zero]
  unfold crc64XzBitStep
  rw [hand,UInt64.shiftRight_xor]
  rcases hbit x with hx | hx <;> rcases hbit y with hy | hy <;> simp only [hx,hy]
  · rfl
  · exact UInt64.xor_assoc ..
  · change x>>>1^^^y>>>1^^^crc64XzReflectedPoly=x>>>1^^^crc64XzReflectedPoly^^^y>>>1
    ac_rfl
  · exact (hcancel ..).symm

theorem iterate_xor (n : ℕ) (x y : UInt64) :
    crc64XzBitStep^[n] (x^^^y)=crc64XzBitStep^[n] x^^^crc64XzBitStep^[n] y := by
  induction n generalizing x y with
  | zero => rfl
  | succ n ih => rw [Function.iterate_succ_apply,bitStep_xor,ih]; rfl

theorem iterate_shifted {n v : ℕ} (h : v*2^n < 2^64) :
    crc64XzBitStep^[n] (UInt64.ofNat (v*2^n))=UInt64.ofNat v := by
  induction n with
  | zero => simp
  | succ n ih =>
    rw [pow_succ,←mul_assoc] at h ⊢
    have hstep : crc64XzBitStep (UInt64.ofNat (v*2^n*2))=UInt64.ofNat (v*2^n) := by
      unfold crc64XzBitStep
      rw [if_neg]
      · apply UInt64.toNat_inj.mp
        simp [Nat.shiftRight_eq_div_pow]
        omega
      · simp [←UInt64.toNat_inj,Nat.and_one_is_mod]
    rw [Function.iterate_succ_apply,hstep,ih (by omega)]

theorem iterate_eight (x : UInt64) :
    crc64XzBitStep^[8] x=(x>>>8)^^^crc64XzTableEntry x.toUInt8 := by
  have hx : x.toNat < UInt64.size := x.toNat_lt
  have hsplit : x=UInt64.ofNat (x.toNat/2^8*2^8)^^^x.toUInt8.toUInt64 := by
    apply UInt64.toNat_inj.mp
    rw [UInt64.toNat_xor,UInt64.toNat_ofNat_of_lt' (by omega),UInt8.toNat_toUInt64,
      UInt64.toNat_toUInt8]
    refine Nat.eq_of_testBit_eq fun i => ?_
    rw [Nat.testBit_xor,Nat.testBit_mul_two_pow,Nat.testBit_mod_two_pow,Nat.testBit_div_two_pow]
    by_cases hi : 8 ≤ i
    · simp [hi,not_lt.mpr hi]
    · simp [hi,Nat.lt_of_not_le hi]
  have hhigh : UInt64.ofNat (x.toNat/2^8)=x>>>8 := by
    apply UInt64.toNat_inj.mp
    rw [UInt64.toNat_ofNat_of_lt' (by omega),UInt64.toNat_shiftRight,Nat.shiftRight_eq_div_pow]
    rfl
  conv_lhs => rw [hsplit,iterate_xor,iterate_shifted (show _ < UInt64.size by omega),hhigh]
  rfl

theorem toUInt8_and (x : UInt64) : (x&&&0xFF).toUInt8=x.toUInt8 := by
  apply UInt8.toNat_inj.mp
  rw [UInt64.toNat_toUInt8,UInt64.toNat_and,UInt64.toNat_toUInt8,
    show (0xFF : UInt64).toNat=2^8-1 from rfl,Nat.and_two_pow_sub_one_eq_mod,Nat.mod_mod]

theorem update_eq (crc : UInt64) (byte : UInt8) :
    crc64XzUpdate crc byte=crc64XzBitStep^[8] (crc^^^byte.toUInt64) := by
  have hhigh : byte.toUInt64>>>8=0 := by
    apply UInt64.toNat_inj.mp
    have := byte.toNat_lt
    simp [Nat.shiftRight_eq_div_pow]
    omega
  rw [iterate_eight,UInt64.shiftRight_xor,hhigh,UInt64.xor_zero,crc64XzUpdate,toUInt8_and]

theorem slice_eq (n : ℕ) (byte : UInt8) :
    crc64XzSlice n byte=crc64XzBitStep^[8*n+8] byte.toUInt64 := by
  induction n with
  | zero => rfl
  | succ n ih =>
    rw [crc64XzSlice,Nat.mul_succ,add_comm,Function.iterate_add_apply,←ih,iterate_eight,
      toUInt8_and]

theorem iterate_slice (n : ℕ) (x : UInt64) : crc64XzBitStep^[8*n+8] x=
      crc64XzSlice n x.toUInt8^^^crc64XzBitStep^[8*n] (x>>>8) := by
  rw [slice_eq,Function.iterate_add_apply,iterate_eight,iterate_xor,UInt64.xor_comm,
    Function.iterate_add_apply]
  rfl

/-- A byte moved up by whole bytes loses nothing on the way down, and its low byte is clear. -/
theorem byte_moves (b : UInt8) : ∀ k ∈ [(0 : UInt64),8,16,24,32,40,48],
    (b.toUInt64<<<(k+8))>>>8=b.toUInt64<<<k ∧ (b.toUInt64<<<(k+8)).toUInt8=0 := by
  have hb := b.toNat_lt
  simp only [List.forall_mem_cons,←UInt64.toNat_inj,←UInt8.toNat_inj]
  simp [Nat.shiftLeft_eq,Nat.shiftRight_eq_div_pow]
  omega

theorem word_low (b0 b1 b2 b3 b4 b5 b6 b7 : UInt8) :
    (word b0 b1 b2 b3 b4 b5 b6 b7).toUInt8=b0 ∧
      word b0 b1 b2 b3 b4 b5 b6 b7>>>8=word b1 b2 b3 b4 b5 b6 b7 0 := by
  have hzero : b0.toUInt64>>>8=0 := by
    have hb := b0.toNat_lt
    apply UInt64.toNat_inj.mp
    simp [Nat.shiftRight_eq_div_pow]
    omega
  have hmoves := byte_moves
  simp only [List.forall_mem_cons,UInt64.reduceAdd] at hmoves
  simp [word,UInt64.shiftRight_or,hzero,hmoves]

/-- Eight steps on a register that took in eight bytes take in the first one. -/
theorem iterate_word (crc : UInt64) (b0 b1 b2 b3 b4 b5 b6 b7 : UInt8) :
    crc64XzBitStep^[8] (crc^^^word b0 b1 b2 b3 b4 b5 b6 b7)=
      crc64XzUpdate crc b0^^^word b1 b2 b3 b4 b5 b6 b7 0 := by
  obtain ⟨hlow,hrest⟩ := word_low b0 b1 b2 b3 b4 b5 b6 b7
  rw [iterate_eight,UInt64.shiftRight_xor,hrest,UInt64.toUInt8_xor,hlow,crc64XzUpdate,toUInt8_and,
    UInt64.toUInt8_xor,UInt8.toUInt8_toUInt64]
  ac_rfl

theorem slices_eq (w : UInt64) :
    crc64XzSlice 7 (w&&&0xff).toUInt8^^^crc64XzSlice 6 ((w>>>8)&&&0xff).toUInt8^^^
        crc64XzSlice 5 ((w>>>16)&&&0xff).toUInt8^^^crc64XzSlice 4 ((w>>>24)&&&0xff).toUInt8^^^
        crc64XzSlice 3 ((w>>>32)&&&0xff).toUInt8^^^crc64XzSlice 2 ((w>>>40)&&&0xff).toUInt8^^^
        crc64XzSlice 1 ((w>>>48)&&&0xff).toUInt8^^^crc64XzSlice 0 (w>>>56).toUInt8=
      crc64XzBitStep^[64] w := by
  have hshift : ∀ k ∈ [(8 : UInt64),16,24,32,40,48], w>>>k>>>8=w>>>(k+8) := by
    simp only [List.forall_mem_cons]
    simp [←UInt64.toNat_inj,←Nat.shiftRight_add]
  have hlast : w>>>56>>>8=0 := by
    have := w.toNat_lt
    simp [←UInt64.toNat_inj,Nat.shiftRight_eq_div_pow]
    omega
  simp only [List.forall_mem_cons,UInt64.reduceAdd] at hshift
  rw [iterate_slice 7,iterate_slice 6,iterate_slice 5,iterate_slice 4,iterate_slice 3,
    iterate_slice 2,iterate_slice 1,iterate_slice 0]
  simp only [hshift,hlast,toUInt8_and,UInt64.xor_assoc]
  simp

theorem iterate_word_all (crc : UInt64) (b0 b1 b2 b3 b4 b5 b6 b7 : UInt8) :
    crc64XzBitStep^[64] (crc^^^word b0 b1 b2 b3 b4 b5 b6 b7)=
      [b0,b1,b2,b3,b4,b5,b6,b7].foldl crc64XzUpdate crc := by
  have hsplit : ∀ n x, crc64XzBitStep^[n+8] x=crc64XzBitStep^[n] (crc64XzBitStep^[8] x) :=
    fun n => Function.iterate_add_apply _ n 8
  rw [hsplit 56,iterate_word,hsplit 48,iterate_word,hsplit 40,iterate_word,hsplit 32,iterate_word,
    hsplit 24,iterate_word,hsplit 16,iterate_word,hsplit 8,iterate_word,iterate_word]
  exact UInt64.xor_zero

theorem updateSlice_eq (crc : UInt64) (bytes : List UInt8) :
    crc64XzUpdateSlice crc bytes=bytes.foldl crc64XzUpdate crc := by
  fun_induction crc64XzUpdateSlice crc bytes with
  | case1 crc b0 b1 b2 b3 b4 b5 b6 b7 rest w ih =>
    rw [ih,slices_eq,iterate_word_all,←List.foldl_append]
    rfl
  | case2 => rfl

/-- The definition: every byte is added to the register, which then makes eight bit steps. -/
def crc64XzBitwise (bytes : List UInt8) : UInt64 :=
  bytes.foldl (fun crc byte => crc64XzBitStep^[8] (crc^^^byte.toUInt64)) 0xFFFFFFFFFFFFFFFF^^^
    0xFFFFFFFFFFFFFFFF

/-- The sliced checksum is the bitwise one, and a string may be taken in by pieces. -/
theorem crc64Xz_eq_bitwise : (∀ bytes, crc64Xz bytes=crc64XzBitwise bytes) ∧
    ∀ (crc : UInt64) (pieces : List (List UInt8)),
      pieces.foldl crc64XzUpdateSlice crc=crc64XzUpdateSlice crc pieces.flatten := by
  have hupdate := funext fun crc => funext fun byte => update_eq crc byte
  refine ⟨fun bytes => by rw [crc64Xz,updateSlice_eq,hupdate,crc64XzBitwise],fun crc pieces => ?_⟩
  simp only [funext fun crc => funext (updateSlice_eq crc),List.foldl_flatten]

end Remanence.Crc64
