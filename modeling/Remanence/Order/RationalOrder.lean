import Remanence.Order.Rational
import Mathlib.Data.Rat.Floor
import Mathlib.Tactic.Linarith
import Mathlib.Tactic.FieldSimp

/-!
# The order of the longitudinal positions

A comparison of two fractions takes integer parts and goes on with the
reciprocals of what is left. It ends, stays in the 128-bit range, and gives
the order of the rational numbers.
-/

namespace Remanence.Order

variable {a b : Ratio}

def Ratio.value (r : Ratio) : ℚ := r.num.val/r.den.val

def Ratio.Reduced (r : Ratio) : Prop := Nat.Coprime r.num.val.natAbs r.den.val.natAbs

def Ratio.fraction (r : Ratio) : ℚ := r.rem.val/r.den.val

theorem Ratio.den_cast_pos (r : Ratio) : (0 : ℚ) < r.den.val := Int.cast_pos.mpr r.den_pos

theorem Ratio.value_eq (r : Ratio) : r.value=(r.num.val/r.den.val : ℤ)+r.fraction := by
  have hsplit : (r.num.val : ℚ)=r.den.val*(r.num.val/r.den.val : ℤ)+r.rem.val := by
    exact_mod_cast (Int.mul_ediv_add_emod r.num.val r.den.val).symm
  have hden := r.den_cast_pos.ne'
  unfold value fraction
  field_simp
  exact hsplit

theorem Ratio.fraction_nonneg (r : Ratio) : 0 ≤ r.fraction :=
  div_nonneg (Int.cast_nonneg (Int.emod_nonneg _ r.den_pos.ne')) r.den_cast_pos.le

theorem Ratio.fraction_lt_one (r : Ratio) : r.fraction < 1 :=
  (div_lt_one r.den_cast_pos).mpr (Int.cast_lt.mpr r.rem_lt)

theorem Ratio.fraction_eq_zero {r : Ratio} : r.fraction=0 ↔ r.rem.val=0 := by
  rw [fraction,div_eq_zero_iff,or_iff_left r.den_cast_pos.ne',Int.cast_eq_zero]

theorem Ratio.checked_floor (r : Ratio) : ∃ q, I128.checked (r.num.val/r.den.val)=some q ∧
    q.val=r.num.val/r.den.val := by
  have hrange : -2^127 ≤ r.num.val/r.den.val ∧ r.num.val/r.den.val < 2^127 := by
    obtain ⟨hlow,hhigh⟩ := r.num.property
    have hpos := r.den_pos
    constructor
    · refine (Int.le_ediv_iff_mul_le hpos).mpr (le_trans ?_ hlow)
      nlinarith
    · refine (Int.ediv_lt_iff_lt_mul hpos).mpr (lt_of_lt_of_le hhigh ?_)
      nlinarith
  exact ⟨⟨_,hrange⟩,dif_pos hrange,rfl⟩

theorem compare_floor_add {p q : ℤ} {x y : ℚ} (hx : 0 ≤ x) (hx1 : x < 1) (hy : 0 ≤ y)
    (hy1 : y < 1) : compare (p+x) (q+y)=(compare p q).then (compare x y) := by
  rcases lt_trichotomy p q with h | rfl | h
  · have hcast : (p : ℚ)+1 ≤ q := by exact_mod_cast h
    rw [compare_lt_iff_lt.mpr h]
    exact compare_lt_iff_lt.mpr (by linarith)
  · rw [compare_eq_iff_eq.mpr rfl]
    change _=compare x y
    rcases lt_trichotomy x y with h | rfl | h
    · rw [compare_lt_iff_lt.mpr h,compare_lt_iff_lt.mpr (by linarith)]
    · rw [compare_eq_iff_eq.mpr rfl,compare_eq_iff_eq.mpr rfl]
    · rw [compare_gt_iff_gt.mpr h,compare_gt_iff_gt.mpr (by linarith)]
  · have hcast : (q : ℚ)+1 ≤ p := by exact_mod_cast h
    rw [compare_gt_iff_gt.mpr h]
    exact compare_gt_iff_gt.mpr (by linarith)

theorem compare_inv {x y : ℚ} (hx : 0 < x) (hy : 0 < y) : compare y⁻¹ x⁻¹=compare x y := by
  rcases lt_trichotomy x y with h | rfl | h
  · rw [compare_lt_iff_lt.mpr h,compare_lt_iff_lt.mpr ((inv_lt_inv₀ hy hx).mpr h)]
  · rw [compare_eq_iff_eq.mpr rfl,compare_eq_iff_eq.mpr rfl]
  · rw [compare_gt_iff_gt.mpr h,compare_gt_iff_gt.mpr ((inv_lt_inv₀ hx hy).mpr h)]

theorem Ratio.cmp_eq (a b : Ratio) : a.cmp b=some (compare a.value b.value) := by
  induction hn : a.den.val.toNat+b.den.val.toNat using Nat.strong_induction_on generalizing a b with
  | _ n ih =>
    obtain ⟨qa,hqa,hva⟩ := a.checked_floor
    obtain ⟨qb,hqb,hvb⟩ := b.checked_floor
    rw [a.value_eq,b.value_eq,compare_floor_add a.fraction_nonneg a.fraction_lt_one
      b.fraction_nonneg b.fraction_lt_one,← hva,← hvb,cmp,hqa,hqb]
    simp only [Option.bind_eq_bind,Option.bind_some]
    cases compare qa.val qb.val with
    | lt => rfl
    | gt => rfl
    | eq =>
      by_cases ha : a.rem.val=0
      · have hzero := fraction_eq_zero.mpr ha
        by_cases hb : b.rem.val=0
        · rw [dif_pos ha,if_pos hb,hzero,fraction_eq_zero.mpr hb]; rfl
        · have hpos := b.fraction_nonneg.lt_of_ne' (mt fraction_eq_zero.mp hb)
          rw [dif_pos ha,if_neg hb,hzero,compare_lt_iff_lt.mpr hpos]; rfl
      · have hpos := a.fraction_nonneg.lt_of_ne' (mt fraction_eq_zero.mp ha)
        by_cases hb : b.rem.val=0
        · rw [dif_neg ha,dif_pos hb,fraction_eq_zero.mpr hb,compare_gt_iff_gt.mpr hpos]; rfl
        · have hposb := b.fraction_nonneg.lt_of_ne' (mt fraction_eq_zero.mp hb)
          rw [dif_neg ha,dif_neg hb,ih _ ?_ _ _ rfl,← compare_inv hpos hposb,fraction,fraction,
            inv_div,inv_div]
          · rfl
          · have halt := a.rem_lt
            have hblt := b.rem_lt
            have hapos := a.den_pos
            change b.rem.val.toNat+a.rem.val.toNat < n
            omega

theorem tdiv_div_tdiv {n d : ℤ} {g : ℕ} (hg : 0 < g) (hn : (g : ℤ) ∣ n) (hd : (g : ℤ) ∣ d) :
    ((n.tdiv g : ℤ) : ℚ)/(d.tdiv g : ℤ)=n/d := by
  have hne : (g : ℤ)≠0 := by omega
  obtain ⟨x,rfl⟩ := hn
  obtain ⟨y,rfl⟩ := hd
  rw [Int.mul_tdiv_cancel_left _ hne,Int.mul_tdiv_cancel_left _ hne,Int.cast_mul,Int.cast_mul,
    mul_div_mul_left _ _ (Int.cast_ne_zero.mpr hne)]

theorem Ratio.reducedPos_eq (num den : I128) (hden : 0 < den.val) :
    (reducedPos num den hden).Reduced ∧ (reducedPos num den hden).value=num.val/den.val := by
  have hg := gcdU128_eq num.val.natAbs den.val.natAbs
  have hpos : 0 < gcdU128 num.val.natAbs den.val.natAbs :=
    hg ▸ Nat.gcd_pos_of_pos_right _ (Int.natAbs_pos.mpr hden.ne')
  unfold reducedPos
  dsimp only
  split
  · have hnum : ((gcdU128 num.val.natAbs den.val.natAbs : ℕ) : ℤ) ∣ num.val :=
      Int.natCast_dvd.mpr (hg ▸ Nat.gcd_dvd_left _ _)
    have hdvd : ((gcdU128 num.val.natAbs den.val.natAbs : ℕ) : ℤ) ∣ den.val :=
      Int.natCast_dvd.mpr (hg ▸ Nat.gcd_dvd_right _ _)
    refine ⟨?_,tdiv_div_tdiv hpos hnum hdvd⟩
    rw [Reduced,Int.natAbs_tdiv,Int.natAbs_tdiv,Int.natAbs_natCast,hg]
    exact Nat.coprime_div_gcd_div_gcd (hg ▸ hpos)
  · next hone => exact ⟨hg.symm.trans (by omega),rfl⟩

theorem Ratio.new_eq {num den : I128} {r : Ratio} (h : Ratio.new num den=some r) :
    r.Reduced ∧ r.value=num.val/den.val := by
  obtain ⟨hzero,h⟩ := Option.ite_none_left_eq_some.mp h
  unfold reduced at h
  split at h
  · next hden => exact Option.some.inj h ▸ reducedPos_eq num den hden
  · obtain ⟨n,hn,h⟩ := Option.bind_eq_some_iff.mp h
    obtain ⟨d,hd,h⟩ := Option.bind_eq_some_iff.mp h
    obtain ⟨_,⟨⟩⟩ := Option.dite_none_right_eq_some.mp hn
    obtain ⟨_,⟨⟩⟩ := Option.dite_none_right_eq_some.mp hd
    obtain ⟨hden,h⟩ := Option.dite_none_right_eq_some.mp h
    obtain ⟨hreduced,hvalue⟩ := reducedPos_eq _ _ hden
    rw [← Option.some.inj h]
    refine ⟨hreduced,hvalue.trans ?_⟩
    rw [Int.cast_neg,Int.cast_neg,neg_div_neg_eq]

/-- Fractions in lowest terms with one value are one fraction. -/
theorem Ratio.Reduced.ext (ha : a.Reduced) (hb : b.Reduced) (h : a.value=b.value) : a=b := by
  obtain ⟨hnum,hden⟩ := Rat.div_int_inj a.den_pos b.den_pos ha hb h
  cases a
  cases b
  cases Subtype.ext hnum
  cases Subtype.ext hden
  rfl

/-- The comparison ends in range with the order of the values, a total order of reduced fractions.
-/
theorem Ratio.cmp_is_rational_order : (∀ a b : Ratio, a.cmp b=some (compare a.value b.value)) ∧
    (∀ num den r, Ratio.new num den=some r → r.Reduced ∧ r.value=num.val/den.val) ∧
    ∃ order : LinearOrder { r : Ratio // r.Reduced }, ∀ a b : { r : Ratio // r.Reduced },
      (a.val.cmp b.val=some .lt ↔ order.lt a b) ∧ (a.val.cmp b.val=some .eq ↔ a=b) ∧
        (a.val.cmp b.val=some .gt ↔ order.lt b a) := by
  refine ⟨cmp_eq,fun _ _ _ => new_eq,
    LinearOrder.lift' (fun r => r.val.value) fun a b h => Subtype.ext (a.2.ext b.2 h),?_⟩
  intro a b
  rw [cmp_eq,Option.some.injEq,Option.some.injEq,Option.some.injEq]
  refine ⟨compare_lt_iff_lt,compare_eq_iff_eq.trans ⟨fun h => Subtype.ext (a.2.ext b.2 h),?_⟩,
    compare_gt_iff_gt⟩
  rintro rfl
  rfl

theorem Ratio.cmp_is_rational_order_half : ∃ half : Ratio,
    Ratio.new ⟨-2,by decide⟩ ⟨-4,by decide⟩=some half ∧ half.Reduced ∧ half.value=(-2 : ℤ)/(-4 : ℤ) := by
  have h : Ratio.new ⟨-2,by decide⟩ ⟨-4,by decide⟩=some ⟨⟨1,by decide⟩,⟨2,by decide⟩,by decide⟩ := by
    decide +kernel
  exact ⟨_,h,cmp_is_rational_order.2.1 _ _ _ h⟩

end Remanence.Order
