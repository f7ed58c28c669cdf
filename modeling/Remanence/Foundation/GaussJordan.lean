import Mathlib.LinearAlgebra.Matrix.Determinant.Basic
import Mathlib.LinearAlgebra.Matrix.ToLinearEquiv
import Mathlib.LinearAlgebra.Matrix.RowCol
import Mathlib.LinearAlgebra.Lagrange

/-!
# Gauss–Jordan elimination and Cauchy kernels over a field

A run reduces a left matrix and records its row operations in a right one. `Tracks A L R` says
that `R` is nonsingular and turns `A` into `L`. A nonsingular `A` always supplies the next
pivot, and at the end `R` is its inverse. The second half is the Cauchy argument: a vector
killed by as many Cauchy rows as it has coordinates is zero.
-/

namespace Remanence.Foundation.GaussJordan

open Matrix Polynomial

section Elimination

variable {F : Type*} [Field F] {n : ℕ}
variable {A L R : Matrix (Fin n) (Fin n) F}

/-- The right matrix is nonsingular and carries `A` to the left matrix. -/
structure Tracks (A L R : Matrix (Fin n) (Fin n) F) : Prop where
  product : L=R*A
  det_ne : R.det≠0

/-- The first `c` columns of the reduced matrix are unit vectors. -/
def Cleared (c : ℕ) (L : Matrix (Fin n) (Fin n) F) : Prop :=
  ∀ i j : Fin n, j.val < c → L i j=if i=j then 1 else 0

theorem Tracks.start (A : Matrix (Fin n) (Fin n) F) : Tracks A A 1 :=
  ⟨by simp,by simp⟩

theorem Tracks.swap (h : Tracks A L R) (i j : Fin n) :
    Tracks A (L.submatrix (Equiv.swap i j) id) (R.submatrix (Equiv.swap i j) id) := by
  refine ⟨?_,?_⟩
  · rw [h.product]
    ext a b
    simp [Matrix.mul_apply]
  · rw [Matrix.det_permute]
    have hs : ((Equiv.Perm.sign (Equiv.swap i j) : ℤ) : F)≠0 := by
      rcases Int.units_eq_one_or (Equiv.Perm.sign (Equiv.swap i j)) with hs | hs <;> simp [hs]
    exact mul_ne_zero hs h.det_ne

theorem Tracks.scale (h : Tracks A L R) (i : Fin n) {c : F} (hc : c≠0) :
    Tracks A (L.updateRow i (c • L i)) (R.updateRow i (c • R i)) := by
  refine ⟨?_,?_⟩
  · have hrow : L i=R i ᵥ* A := by rw [h.product]; rfl
    rw [Matrix.updateRow_mul,Matrix.smul_vecMul,←hrow,←h.product]
  · rw [Matrix.det_updateRow_smul,Matrix.updateRow_eq_self]
    exact mul_ne_zero hc h.det_ne

variable {i j : Fin n}

theorem Tracks.addRow (h : Tracks A L R) (hij : i≠j) (c : F) :
    Tracks A (L.updateRow i (L i+c • L j)) (R.updateRow i (R i+c • R j)) := by
  refine ⟨?_,?_⟩
  · have hrow : ∀ k, L k=R k ᵥ* A := fun k => by rw [h.product]; rfl
    rw [Matrix.updateRow_mul,Matrix.add_vecMul,Matrix.smul_vecMul,←hrow,←hrow,←h.product]
  · rw [Matrix.det_updateRow_add_smul_self _ hij]
    exact h.det_ne

theorem cleared_zero (L : Matrix (Fin n) (Fin n) F) : Cleared 0 L := by
  intro i j hj
  omega

variable {c : Fin n}

/-- A column that vanishes below a cleared prefix gives a nonzero kernel vector. -/
theorem Cleared.det_eq_zero (h : Cleared c.val L) (hzero : ∀ i : Fin n, c ≤ i → L i c=0) :
    L.det=0 := by
  rw [←Matrix.exists_mulVec_eq_zero_iff]
  -- the kernel vector is the unit vector at `c` minus the cleared part of its column
  refine ⟨fun j => if j=c then 1 else if j < c then -L j c else 0,?_,?_⟩
  · intro hv
    have := congrFun hv c
    simp at this
  · funext i
    have hterm : ∀ j : Fin n, L i j*(if j=c then 1 else if j < c then -L j c else 0)=
        (if j=c then L i c else 0)+(if j=i then (if i < c then -L i c else 0) else 0) := by
      intro j
      by_cases hjc : j=c
      · subst hjc
        by_cases hji : j=i
        · subst hji
          simp
        · simp [hji]
      · by_cases hlt : j < c
        · have hij := h i j hlt
          by_cases hji : j=i
          · subst hji
            simp [hjc,hlt,hij]
          · simp [hjc,hlt,hij,hji,Ne.symm hji]
        · by_cases hji : j=i
          · subst hji
            simp [hjc,hlt]
          · simp [hjc,hlt,hji]
    simp only [Matrix.mulVec,dotProduct,hterm,Finset.sum_add_distrib,
      Finset.sum_ite_eq',Finset.mem_univ,if_true,Pi.zero_apply]
    by_cases hi : i < c
    · simp [hi]
    · simp [hi,hzero i (not_lt.mp hi)]

theorem Tracks.exists_pivot (h : Tracks A L R) (hA : A.det≠0) (hc : Cleared c.val L) :
    ∃ i : Fin n, c ≤ i ∧ L i c≠0 := by
  by_contra hnone
  push Not at hnone
  have hdet : L.det=0 := hc.det_eq_zero hnone
  rw [h.product,Matrix.det_mul] at hdet
  exact mul_ne_zero h.det_ne hA hdet

theorem Cleared.swap {c : ℕ} (h : Cleared c L) (hi : c ≤ i.val) (hj : c ≤ j.val) :
    Cleared c (L.submatrix (Equiv.swap i j) id) := by
  intro a b hb
  rw [Matrix.submatrix_apply,id,h _ _ hb]
  have hbi : b≠i := by rintro rfl; omega
  have hbj : b≠j := by rintro rfl; omega
  have : Equiv.swap i j a=b ↔ a=b := by
    rw [Equiv.swap_apply_eq_iff,Equiv.swap_apply_of_ne_of_ne hbi hbj]
  simp [this]

theorem Cleared.scale {c : ℕ} (h : Cleared c L) (hi : c ≤ i.val) (s : F) :
    Cleared c (L.updateRow i (s • L i)) := by
  intro a b hb
  rw [Matrix.updateRow_apply]
  split_ifs with ha hab
  · omega
  · rw [Pi.smul_apply,h _ _ hb,if_neg (by omega),smul_zero]
  · rw [h _ _ hb,if_pos ‹_›]
  · rw [h _ _ hb,if_neg ‹_›]

theorem Cleared.addRow {c : ℕ} (h : Cleared c L) (hj : c ≤ j.val) (s : F) :
    Cleared c (L.updateRow i (L i+s • L j)) := by
  intro a b hb
  rw [Matrix.updateRow_apply]
  split
  · rename_i ha
    subst ha
    rw [Pi.add_apply,Pi.smul_apply,h _ _ hb,h _ _ hb,if_neg (show ¬j=b by omega),smul_zero,
      add_zero]
  · exact h _ _ hb

theorem Cleared.succ (h : Cleared c.val L) (hcol : ∀ i, L i c=if i=c then 1 else 0) :
    Cleared (c.val+1) L := by
  intro i j hj
  rcases Nat.lt_succ_iff_lt_or_eq.mp hj with hlt | heq
  · exact h i j hlt
  · obtain rfl : j=c := Fin.ext heq
    exact hcol i

theorem Tracks.inverse (h : Tracks A L R) (hn : Cleared n L) : R*A=1 := by
  rw [←h.product]
  ext i j
  rw [hn i j j.isLt,Matrix.one_apply]

end Elimination

section Cauchy

variable {F : Type*} [Field F] {ι κ : Type*} [DecidableEq ι]

/-- Numerator of the rational function `∑ v i/(X-y i)` over the common
denominator. -/
noncomputable def cauchyNumerator (D : Finset ι) (y v : ι → F) : F[X] :=
  ∑ i ∈ D, C (v i)*∏ l ∈ D.erase i, (X-C (y l))

theorem cauchyNumerator_degree_lt (D : Finset ι) (y v : ι → F) :
    (cauchyNumerator D y v).degree < D.card := by
  refine lt_of_le_of_lt (Polynomial.degree_sum_le _ _) ?_
  rw [Finset.sup_lt_iff (WithBot.bot_lt_coe _)]
  intro i hi
  have hpos : 0 < D.card := Finset.card_pos.mpr ⟨i,hi⟩
  have hprod : (∏ l ∈ D.erase i, (X-C (y l))).degree < (D.card : WithBot ℕ) := by
    rw [Polynomial.degree_prod]
    simp only [Polynomial.degree_X_sub_C,Finset.sum_const,Finset.card_erase_of_mem hi,nsmul_one]
    exact_mod_cast Nat.sub_lt hpos one_pos
  by_cases hv : v i=0
  · simp [hv]
  · rwa [Polynomial.degree_C_mul hv]

variable {D : Finset ι} {y v : ι → F}

theorem cauchyNumerator_eval {x : F} (hx : ∀ i ∈ D, x≠y i) :
    (cauchyNumerator D y v).eval x=(∏ l ∈ D, (x-y l))*∑ i ∈ D, (x-y i)⁻¹*v i := by
  rw [cauchyNumerator,Polynomial.eval_finsetSum,Finset.mul_sum]
  refine Finset.sum_congr rfl fun i hi => ?_
  have hne : x-y i≠0 := sub_ne_zero.mpr (hx i hi)
  rw [Polynomial.eval_mul,Polynomial.eval_C,Polynomial.eval_prod,
    ←Finset.mul_prod_erase D (fun l => x-y l) hi]
  simp only [Polynomial.eval_sub,Polynomial.eval_X,Polynomial.eval_C]
  field_simp

theorem cauchyNumerator_eval_pole {i : ι} (hi : i ∈ D) :
    (cauchyNumerator D y v).eval (y i)=v i*∏ l ∈ D.erase i, (y i-y l) := by
  rw [cauchyNumerator,Polynomial.eval_finsetSum,Finset.sum_eq_single_of_mem i hi]
  · simp [Polynomial.eval_prod]
  · intro j _ hji
    rw [Polynomial.eval_mul,Polynomial.eval_prod]
    refine mul_eq_zero_of_right _ (Finset.prod_eq_zero (Finset.mem_erase.mpr ⟨Ne.symm hji,hi⟩) ?_)
    simp

/-- A vector killed by at least as many Cauchy rows as it has coordinates
is zero. -/
theorem cauchy_kernel_trivial {J : Finset κ} {x : κ → F} (hy : Set.InjOn y D) (hx : Set.InjOn x J)
    (hxy : ∀ j ∈ J, ∀ i ∈ D, x j≠y i) (hcard : D.card≤J.card)
    (hkill : ∀ j ∈ J, ∑ i ∈ D, (x j-y i)⁻¹*v i=0) : ∀ i ∈ D, v i=0 := by
  have hzero : cauchyNumerator D y v=0 := by
    refine Polynomial.eq_zero_of_degree_lt_of_eval_index_eq_zero J hx ?_ ?_
    · exact lt_of_lt_of_le (cauchyNumerator_degree_lt D y v) (by exact_mod_cast hcard)
    · intro j hj
      rw [cauchyNumerator_eval (hxy j hj),hkill j hj,mul_zero]
  intro i hi
  have heval := cauchyNumerator_eval_pole (v := v) (y := y) hi
  rw [hzero,Polynomial.eval_zero,eq_comm,mul_eq_zero] at heval
  refine heval.resolve_right (Finset.prod_ne_zero_iff.mpr fun l hl => ?_)
  obtain ⟨hli,hlD⟩ := Finset.mem_erase.mp hl
  exact sub_ne_zero.mpr fun h => hli (hy hlD hi h.symm)

end Cauchy

end Remanence.Foundation.GaussJordan
