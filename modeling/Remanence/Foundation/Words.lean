import Mathlib.Data.UInt
import Mathlib.Tactic.Common

/-!
# Checked machine-word arithmetic

Checked operations return nothing instead of wrapping. Each is characterised
by the exact equation between natural numbers that a result stands for.
-/

namespace Remanence.Foundation

def checkedAdd64 (a b : UInt64) : Option UInt64 :=
  if a.toNat+b.toNat < 2^64 then some (a+b) else none

def checkedSub64 (a b : UInt64) : Option UInt64 :=
  if b.toNat ≤ a.toNat then some (a-b) else none

def checkedMul64 (a b : UInt64) : Option UInt64 :=
  if a.toNat*b.toNat < 2^64 then some (a*b) else none

def checkedMul32 (a b : UInt32) : Option UInt32 :=
  if a.toNat*b.toNat < 2^32 then some (a*b) else none

def saturatingSub64 (a b : UInt64) : UInt64 := if b ≤ a then a-b else 0

def max64 (a b : UInt64) : UInt64 := if a ≤ b then b else a

def min64 (a b : UInt64) : UInt64 := if a ≤ b then a else b

theorem toNat_saturatingSub64 (a b : UInt64) : (saturatingSub64 a b).toNat=a.toNat-b.toNat := by
  unfold saturatingSub64
  split
  · rename_i hle
    exact UInt64.toNat_sub_of_le _ _ hle
  · rename_i hle
    rw [UInt64.le_iff_toNat_le,Nat.not_le] at hle
    exact (Nat.sub_eq_zero_of_le (le_of_lt hle)).symm

theorem toNat_max64 (a b : UInt64) : (max64 a b).toNat=max a.toNat b.toNat := by
  unfold max64
  split
  · rename_i hle
    exact (Nat.max_eq_right (UInt64.le_iff_toNat_le.mp hle)).symm
  · rename_i hle
    rw [UInt64.le_iff_toNat_le,Nat.not_le] at hle
    exact (Nat.max_eq_left (le_of_lt hle)).symm

theorem toNat_min64 (a b : UInt64) : (min64 a b).toNat=min a.toNat b.toNat := by
  unfold min64
  split
  · rename_i hle
    exact (Nat.min_eq_left (UInt64.le_iff_toNat_le.mp hle)).symm
  · rename_i hle
    rw [UInt64.le_iff_toNat_le,Nat.not_le] at hle
    exact (Nat.min_eq_right (le_of_lt hle)).symm

variable {a b c : UInt64}

theorem checkedAdd64_eq_some : checkedAdd64 a b=some c ↔ a.toNat+b.toNat=c.toNat := by
  unfold checkedAdd64
  have hc := c.toNat_lt
  split
  · rename_i hlt
    have hsum : (a+b).toNat=a.toNat+b.toNat := by
      rw [UInt64.toNat_add,Nat.mod_eq_of_lt hlt]
    rw [Option.some.injEq,←UInt64.toNat_inj,hsum]
  · simp only [reduceCtorEq,false_iff]
    omega

theorem checkedSub64_eq_some : checkedSub64 a b=some c ↔ b.toNat+c.toNat=a.toNat := by
  unfold checkedSub64
  split
  · rename_i hle
    have hdiff := UInt64.toNat_sub_of_le _ _ (UInt64.le_iff_toNat_le.mpr hle)
    rw [Option.some.injEq,←UInt64.toNat_inj,hdiff]
    omega
  · simp only [reduceCtorEq,false_iff]
    omega

theorem checkedMul64_eq_some : checkedMul64 a b=some c ↔ a.toNat*b.toNat=c.toNat := by
  unfold checkedMul64
  have hc := c.toNat_lt
  split
  · rename_i hlt
    have hprod : (a*b).toNat=a.toNat*b.toNat := by
      rw [UInt64.toNat_mul,Nat.mod_eq_of_lt hlt]
    rw [Option.some.injEq,←UInt64.toNat_inj,hprod]
  · simp only [reduceCtorEq,false_iff]
    omega

theorem checkedMul32_eq_some {a b c : UInt32} :
    checkedMul32 a b=some c ↔ a.toNat*b.toNat=c.toNat := by
  unfold checkedMul32
  have hc := c.toNat_lt
  split
  · rename_i hlt
    have hprod : (a*b).toNat=a.toNat*b.toNat := by
      rw [UInt32.toNat_mul,Nat.mod_eq_of_lt hlt]
    rw [Option.some.injEq,←UInt32.toNat_inj,hprod]
  · simp only [reduceCtorEq,false_iff]
    omega

/-- Lowercase hexadecimal digits of a number, padded to a width. -/
def hexPad (width value : ℕ) : String :=
  let digits := Nat.toDigits 16 value
  String.ofList (List.replicate (width-digits.length) '0'++digits)

end Remanence.Foundation
