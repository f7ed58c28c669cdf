import Remanence.Order.RationalOrder
import Remanence.Order.Cost
import Mathlib.Algebra.Order.Floor.Semifield

/-!
# The way along the tape

The time for a way along the tape is a floor taken in 128 bits. Common factors
are cancelled first, and a product that is still too large is split at the
denominator. No result is ever rounded twice.
-/

namespace Remanence.Order

theorem checkedU128_of_lt {x : ℕ} (h : x < 2^128) : checkedU128 x=some x := if_pos h

theorem checkedU128_of_le {x : ℕ} (h : 2^128 ≤ x) : checkedU128 x=none := if_neg (not_lt.mpr h)

theorem mul_div_split (s n : ℕ) {d : ℕ} (hd : 0 < d) : s*n/d=s*(n/d)+s*(n%d)/d := by
  have hsplit : s*n=d*(s*(n/d))+s*(n%d) := by
    calc s*n=s*(d*(n/d)+n%d) := by rw [Nat.div_add_mod]
      _ = d*(s*(n/d))+s*(n%d) := by ring
  rw [hsplit,Nat.mul_add_div hd]

/-- The floor is exact. There is none only if it is too large or the scaled denominator is. -/
theorem mulDivFloorU128_spec (scale num : ℕ) {den : ℕ} (hden : 0 < den) :
    mulDivFloorU128 scale num den=some (scale*num/den) ∨
    mulDivFloorU128 scale num den=none ∧ (2^128 ≤ scale*num/den ∨ 2^128 ≤ scale*den) := by
  obtain ⟨s,hs⟩ : gcdU128 scale den ∣ scale := gcdU128_eq scale den ▸ Nat.gcd_dvd_left _ _
  obtain ⟨e,he⟩ : gcdU128 scale den ∣ den := gcdU128_eq scale den ▸ Nat.gcd_dvd_right _ _
  unfold mulDivFloorU128
  generalize gcdU128 scale den=g at hs he
  subst hs he
  have hg : 0 < g := Nat.pos_of_mul_pos_right hden
  dsimp only
  rw [Nat.mul_div_cancel_left s hg,Nat.mul_div_cancel_left e hg]
  obtain ⟨n,hn⟩ : gcdU128 num e ∣ num := gcdU128_eq num e ▸ Nat.gcd_dvd_left _ _
  obtain ⟨d,hd⟩ : gcdU128 num e ∣ e := gcdU128_eq num e ▸ Nat.gcd_dvd_right _ _
  generalize gcdU128 num e=f at hn hd
  subst hn hd
  have hfd : 0 < f*d := Nat.pos_of_mul_pos_left hden
  have hf : 0 < f := Nat.pos_of_mul_pos_right hfd
  have hd : 0 < d := Nat.pos_of_mul_pos_left hfd
  rw [Nat.mul_div_cancel_left n hf,Nat.mul_div_cancel_left d hf]
  have hfloor : g*s*(f*n)/(g*(f*d))=s*n/d := by
    rw [show g*s*(f*n)=g*f*(s*n) by ring,← mul_assoc g f d,Nat.mul_div_mul_left _ _ (by positivity)]
  have hscaled : s*d ≤ g*s*(g*(f*d)) := by
    calc s*d=1*(s*d) := (one_mul _).symm
      _ ≤ g*g*f*(s*d) := Nat.mul_le_mul_right _ (Nat.succ_le_of_lt (by positivity))
      _ = g*s*(g*(f*d)) := by ring
  rw [hfloor]
  by_cases hproduct : s*n < 2^128
  · rw [checkedU128_of_lt hproduct]
    exact .inl rfl
  · rw [checkedU128_of_le (not_lt.mp hproduct)]
    have hsplit := mul_div_split s n hd
    by_cases hwhole : s*(n/d) < 2^128
    · by_cases hpart : s*(n%d) < 2^128
      · rw [checkedU128_of_lt hwhole,checkedU128_of_lt hpart,hsplit]
        by_cases hsum : s*(n/d)+s*(n%d)/d < 2^128
        · exact .inl (checkedU128_of_lt hsum)
        · exact .inr ⟨checkedU128_of_le (not_lt.mp hsum),.inl (not_lt.mp hsum)⟩
      · rw [checkedU128_of_lt hwhole,checkedU128_of_le (not_lt.mp hpart)]
        have hlt := Nat.mul_le_mul_left s (Nat.mod_lt n hd).le
        exact .inr ⟨rfl,.inr (by omega)⟩
    · rw [checkedU128_of_le (not_lt.mp hwhole)]
      exact .inr ⟨rfl,.inl (hsplit ▸ (not_lt.mp hwhole).trans (Nat.le_add_right _ _))⟩

theorem I128.checked_of_range {x : ℤ} (h : -2^127 ≤ x ∧ x < 2^127) : I128.checked x=some ⟨x,h⟩ :=
  dif_pos h

theorem abs_mul_lt {x y : ℤ} (hx : |x| < 2^63) (hy : |y| < 2^63) : -2^126 < x*y ∧ x*y < 2^126 := by
  rw [← abs_lt,abs_mul]
  exact mul_lt_mul'' hx hy (abs_nonneg x) (abs_nonneg y)

theorem Ratio.reducedPos_den_le (num den : I128) (hden : 0 < den.val) :
    (reducedPos num den hden).den.val ≤ den.val := by
  unfold reducedPos
  dsimp only
  split
  · exact Int.tdiv_le_self _ hden.le
  · exact le_rfl

variable {a b : Ratio}

theorem Ratio.checkedAbsDiff_of_small (ha : |a.num.val| < 2^63) (had : |a.den.val| < 2^63)
    (hb : |b.num.val| < 2^63) (hbd : |b.den.val| < 2^63) :
    ∃ delta, a.checkedAbsDiff b=some delta ∧ delta.value=|a.value-b.value| ∧
      delta.den.val ≤ a.den.val*b.den.val := by
  obtain ⟨h1,h2⟩ := abs_mul_lt ha hbd
  obtain ⟨h3,h4⟩ := abs_mul_lt hb had
  obtain ⟨-,h5⟩ := abs_mul_lt had hbd
  have hden : 0 < a.den.val*b.den.val := mul_pos a.den_pos b.den_pos
  have hdiff : |a.num.val*b.den.val-b.num.val*a.den.val| < 2^127 := abs_lt.mpr (by omega)
  have habs := abs_nonneg (a.num.val*b.den.val-b.num.val*a.den.val)
  obtain ⟨h6,h7⟩ := abs_lt.mp hdiff
  rw [checkedAbsDiff,I128.checked_of_range ⟨by omega,by omega⟩,Option.bind_eq_bind,Option.bind_some,
    I128.checked_of_range ⟨by omega,by omega⟩,Option.bind_some,I128.checked_of_range ⟨h6.le,h7⟩,
    Option.bind_some,I128.checked_of_range ⟨by omega,hdiff⟩,Option.bind_some,
    I128.checked_of_range ⟨by omega,by omega⟩,Option.bind_some,reduced,dif_pos hden]
  refine ⟨_,rfl,?_,reducedPos_den_le _ _ hden⟩
  rw [(reducedPos_eq _ _ hden).2,value,value,div_sub_div _ _ a.den_cast_pos.ne' b.den_cast_pos.ne',
    abs_div,abs_of_pos (mul_pos a.den_cast_pos b.den_cast_pos)]
  push_cast
  rw [mul_comm (a.den.val : ℚ) b.num.val]

theorem Ratio.value_eq_toNat {r : Ratio} (h : 0 ≤ r.value) :
    r.value=(r.num.val.toNat : ℚ)/(r.den.val.toNat : ℚ) := by
  have hnum : (0 : ℚ) ≤ r.num.val := by
    have hproduct := mul_nonneg h r.den_cast_pos.le
    rwa [value,div_mul_cancel₀ _ r.den_cast_pos.ne'] at hproduct
  rw [value,← Int.cast_natCast r.num.val.toNat,← Int.cast_natCast r.den.val.toNat,
    Int.toNat_of_nonneg (Int.cast_nonneg_iff.mp hnum),Int.toNat_of_nonneg r.den_pos.le]

/-- Every floor returned is exact; and between small fractions the way is the exact floor, cut at
the largest word, unless the scaled denominators leave 128 bits. -/
theorem longitudinal_cost_exact :
    (∀ scale num den v, mulDivFloorU128 scale num den=some v → v=scale*num/den) ∧
    ∀ (priors : CostPriors) (a b : Ratio), |a.num.val| < 2^63 → |a.den.val| < 2^63 →
      |b.num.val| < 2^63 → |b.den.val| < 2^63 →
      priors.fullTraverseNs.toNat*a.den.val*b.den.val < 2^128 →
      (longitudinalNs priors a b).toNat=
        min (2^64-1) ⌊(priors.fullTraverseNs.toNat : ℚ)*|a.value-b.value|⌋₊ := by
  constructor
  · intro scale num den v h
    rcases den.eq_zero_or_pos with rfl | hden
    · simp only [mulDivFloorU128,Nat.zero_div,Nat.div_zero,mul_zero,Nat.add_zero] at h
      rw [Nat.div_zero]
      split at h
      · exact (Option.some.inj h).symm
      · obtain ⟨_,hwhole,h⟩ := Option.bind_eq_some_iff.mp h
        obtain ⟨_,-,h⟩ := Option.bind_eq_some_iff.mp h
        cases Option.some.inj ((checkedU128_of_lt (by decide)).symm.trans hwhole)
        exact (Option.some.inj h).symm
    · rcases mulDivFloorU128_spec scale num hden with hsome | ⟨hnone,-⟩
      · exact Option.some.inj (h.symm.trans hsome)
      · exact absurd (h.symm.trans hnone) (by simp)
  · intro priors a b ha had hb hbd hscaled
    obtain ⟨delta,hdelta,hvalue,hle⟩ := Ratio.checkedAbsDiff_of_small ha had hb hbd
    have hfloor : ⌊(priors.fullTraverseNs.toNat : ℚ)*|a.value-b.value|⌋₊=
        priors.fullTraverseNs.toNat*delta.num.val.toNat/delta.den.val.toNat := by
      rw [← hvalue,Ratio.value_eq_toNat (hvalue ▸ abs_nonneg _),← mul_div_assoc,← Nat.cast_mul,
        Nat.floor_div_natCast,Nat.floor_natCast]
    have hden : 0 < delta.den.val.toNat := by have := delta.den_pos; omega
    rw [hfloor,longitudinalNs,hdelta]
    dsimp only
    rcases mulDivFloorU128_spec priors.fullTraverseNs.toNat delta.num.val.toNat hden with
      hsome | ⟨hnone,hlarge⟩
    · rw [hsome,min_comm]
      exact saturate_toNat _
    · rw [hnone]
      have hfits : priors.fullTraverseNs.toNat*delta.den.val.toNat < 2^128 := by
        have hmul := mul_le_mul_of_nonneg_left hle (Int.natCast_nonneg priors.fullTraverseNs.toNat)
        rw [← mul_assoc,← Int.toNat_of_nonneg delta.den_pos.le] at hmul
        exact_mod_cast hmul.trans_lt hscaled
      have hlarge := hlarge.resolve_right (not_le.mpr hfits)
      rw [min_eq_left (le_trans (by decide) hlarge)]
      rfl

theorem longitudinal_cost_exact_sixth : 10=6*7/4 ∧ ∃ half third : Ratio, half.den.val=2 ∧ third.den.val=3 ∧
    (longitudinalNs publishedPriors half third).toNat=
      min (2^64-1) ⌊(publishedPriors.fullTraverseNs.toNat : ℚ)*|half.value-third.value|⌋₊ := by
  refine ⟨longitudinal_cost_exact.1 6 7 4 10 (by decide +kernel),⟨⟨1,by decide⟩,⟨2,by decide⟩,by decide⟩,
    ⟨⟨1,by decide⟩,⟨3,by decide⟩,by decide⟩,rfl,rfl,?_⟩
  exact longitudinal_cost_exact.2 _ _ _ (by decide) (by decide) (by decide) (by decide) (by decide)

end Remanence.Order
