import Mathlib.Data.Int.GCD
import Mathlib.Algebra.Order.Group.Unbundled.Int

/-!
# Exact longitudinal positions

Positions along the tape are reduced fractions of 128-bit integers with a
positive denominator. Arithmetic that would leave the 128-bit range has no
result.
-/

namespace Remanence.Order

abbrev I128 := { x : ℤ // -2^127 ≤ x ∧ x < 2^127 }

def I128.checked (x : ℤ) : Option I128 :=
  if h : -2^127 ≤ x ∧ x < 2^127 then some ⟨x,h⟩ else none

def I128.ofWord (x : UInt64) : I128 :=
  ⟨x.toNat,by have := x.toNat_lt; omega⟩

def gcdU128 (a b : ℕ) : ℕ :=
  if _h : b=0 then a else gcdU128 b (a%b)
termination_by b
decreasing_by exact Nat.mod_lt a (Nat.pos_of_ne_zero _h)

theorem gcdU128_eq (a b : ℕ) : gcdU128 a b=Nat.gcd a b := by
  fun_induction gcdU128 a b with
  | case1 a => exact (Nat.gcd_zero_right a).symm
  | case2 a b hb ih => rw [ih,Nat.gcd_comm a b,Nat.gcd_rec b a,Nat.gcd_comm]

structure Ratio where
  num : I128
  den : I128
  den_pos : 0 < den.val
deriving DecidableEq, Repr

theorem tdiv_range {x : ℤ} (hx : -2^127 ≤ x ∧ x < 2^127) (g : ℕ) :
    -2^127 ≤ x.tdiv g ∧ x.tdiv g < 2^127 := by
  obtain ⟨n,rfl | rfl⟩ := x.eq_nat_or_neg
  · have hquotient : (n : ℤ).tdiv g=(n/g : ℕ) := rfl
    have hle := Nat.div_le_self n g
    rw [hquotient]
    generalize n/g=q at hle
    omega
  · have hquotient : (-(n : ℤ)).tdiv g=-(n/g : ℕ) := by rw [Int.neg_tdiv]; rfl
    have hle := Nat.div_le_self n g
    rw [hquotient]
    generalize n/g=q at hle
    omega

theorem tdiv_pos_of_dvd {x : ℤ} {g : ℕ} (hx : 0 < x) (hg : (g : ℤ) ∣ x) : 0 < x.tdiv g := by
  obtain ⟨n,rfl⟩ := Int.eq_ofNat_of_zero_le (Int.le_of_lt hx)
  have hpositive : 0 < n := Int.natCast_pos.mp hx
  have hdvd : g ∣ n := Int.natCast_dvd_natCast.mp hg
  have hquotient : (n : ℤ).tdiv g=(n/g : ℕ) := rfl
  rw [hquotient]
  exact Int.natCast_pos.mpr (Nat.div_pos (Nat.le_of_dvd hpositive hdvd)
    (Nat.pos_of_dvd_of_pos hdvd hpositive))

/-- The fraction in lowest terms, for a positive denominator. -/
def Ratio.reducedPos (num den : I128) (hden : 0 < den.val) : Ratio :=
  let g := gcdU128 num.val.natAbs den.val.natAbs
  if 1 < g then
    ⟨⟨num.val.tdiv g,tdiv_range num.property g⟩,⟨den.val.tdiv g,tdiv_range den.property g⟩,
      tdiv_pos_of_dvd hden (by
        have hdvd : g ∣ den.val.natAbs := by
          change gcdU128 _ _ ∣ _
          rw [gcdU128_eq]
          exact Nat.gcd_dvd_right _ _
        exact Int.natCast_dvd.mpr hdvd)⟩
  else ⟨num,den,hden⟩

/-- The fraction in lowest terms. A negation that leaves the range panics. -/
def Ratio.reduced (num den : I128) : Option Ratio := do
  if h : 0 < den.val then return reducedPos num den h
  else
    let num ← I128.checked (-num.val)
    let den ← I128.checked (-den.val)
    if h : 0 < den.val then return reducedPos num den h else none

def Ratio.new (num den : I128) : Option Ratio :=
  if den.val=0 then none else reduced num den

def Ratio.checkedOneMinus (r : Ratio) : Option Ratio := do
  let num ← I128.checked (r.den.val-r.num.val)
  return reducedPos num r.den r.den_pos

def Ratio.checkedAbsDiff (r other : Ratio) : Option Ratio := do
  let a ← I128.checked (r.num.val*other.den.val)
  let b ← I128.checked (other.num.val*r.den.val)
  let diff ← I128.checked (a.val-b.val)
  let num ← I128.checked |diff.val|
  let den ← I128.checked (r.den.val*other.den.val)
  reduced num den

/-- Remainder of the numerator, between zero and the denominator. -/
def Ratio.rem (r : Ratio) : I128 :=
  ⟨r.num.val%r.den.val,by
    have hpos := r.den_pos
    have hlow := Int.emod_nonneg r.num.val hpos.ne'
    have hhigh := Int.emod_lt_of_pos r.num.val hpos
    have hden := r.den.property
    omega⟩

theorem Ratio.rem_pos {r : Ratio} (h : r.rem.val≠0) : 0 < r.rem.val :=
  lt_of_le_of_ne (Int.emod_nonneg r.num.val r.den_pos.ne') h.symm

theorem Ratio.rem_lt (r : Ratio) : r.rem.val < r.den.val := Int.emod_lt_of_pos r.num.val r.den_pos

/-- Comparison by integer parts, then by the reciprocals of the fractional parts. -/
def Ratio.cmp (a b : Ratio) : Option Ordering := do
  let qa ← I128.checked (a.num.val/a.den.val)
  let qb ← I128.checked (b.num.val/b.den.val)
  match compare qa.val qb.val with
  | .eq =>
    if ha : a.rem.val=0 then return if b.rem.val=0 then .eq else .lt
    else if hb : b.rem.val=0 then return .gt
    else cmp ⟨b.den,b.rem,rem_pos hb⟩ ⟨a.den,a.rem,rem_pos ha⟩
  | order => return order
termination_by a.den.val.toNat+b.den.val.toNat
decreasing_by
  have halt := a.rem_lt
  have hblt := b.rem_lt
  have hapos := a.den_pos
  have hbpos := b.den_pos
  omega

def checkedU128 (x : ℕ) : Option ℕ := if x < 2^128 then some x else none

def mulDivFloorU128 (scale num den : ℕ) : Option ℕ :=
  let g1 := gcdU128 scale den
  let scale := scale/g1
  let den := den/g1
  let g2 := gcdU128 num den
  let num := num/g2
  let den := den/g2
  match checkedU128 (scale*num) with
  | some product => some (product/den)
  | none => do
    let whole ← checkedU128 (scale*(num/den))
    let part ← checkedU128 (scale*(num%den))
    checkedU128 (whole+part/den)

end Remanence.Order
