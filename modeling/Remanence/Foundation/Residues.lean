import Mathlib.Data.Nat.ModEq
import Mathlib.Order.Interval.Finset.Nat
import Mathlib.Tactic.Common

/-!
# Residues in a run of numbers

A row-major interleave of width `S` puts number `x` on lane `x%S`. A run of
`S*m` consecutive numbers meets every lane exactly `m` times, so a shorter one
meets it at most `m` times.
-/

namespace Remanence.Foundation

def lane (width residue lo hi : ℕ) : Finset ℕ :=
  (Finset.Ico lo hi).filter fun x => x%width=residue

variable {width residue lo hi count : ℕ}

theorem mem_lane {x : ℕ} : x ∈ lane width residue lo hi ↔ (lo ≤ x ∧ x < hi) ∧ x%width=residue := by
  simp [lane]

theorem eq_of_mod_eq_of_close {x y : ℕ} (hle : x ≤ y) (hclose : y < x+width)
    (hmod : x%width=y%width) : x=y := by
  have hdvd : width ∣ y-x := (Nat.modEq_iff_dvd' hle).mp hmod
  have hzero := Nat.eq_zero_of_dvd_of_lt hdvd (by omega)
  omega

theorem card_lane_le_one (h : hi ≤ lo+width) : (lane width residue lo hi).card ≤ 1 := by
  rw [Finset.card_le_one]
  intro x hx y hy
  rw [mem_lane] at hx hy
  have hmod := hx.2.trans hy.2.symm
  rcases Nat.le_total x y with hle | hle
  · exact eq_of_mod_eq_of_close hle (by omega) hmod
  · exact (eq_of_mod_eq_of_close hle (by omega) hmod.symm).symm

theorem card_lane_le (h : hi ≤ lo+width*count) : (lane width residue lo hi).card ≤ count := by
  induction count generalizing hi with
  | zero =>
    have hempty : lane width residue lo hi=∅ := by
      rw [lane,Finset.Ico_eq_empty (by omega),Finset.filter_empty]
    simp [hempty]
  | succ count ih =>
    -- the last width of the run is split off
    have hsplit : lane width residue lo hi ⊆
        lane width residue lo (lo+width*count) ∪ lane width residue (lo+width*count) hi := by
      intro x hx
      rw [Finset.mem_union,mem_lane,mem_lane]
      rw [mem_lane] at hx
      by_cases hlt : x < lo+width*count
      · exact .inl ⟨⟨hx.1.1,hlt⟩,hx.2⟩
      · exact .inr ⟨⟨Nat.le_of_not_lt hlt,hx.1.2⟩,hx.2⟩
    have hfirst := ih (Nat.le_refl (lo+width*count))
    have hlast : (lane width residue (lo+width*count) hi).card ≤ 1 := by
      apply card_lane_le_one
      rw [Nat.mul_succ] at h
      omega
    calc (lane width residue lo hi).card
        ≤ _ := Finset.card_le_card hsplit
      _ ≤ _ := Finset.card_union_le _ _
      _ ≤ count+1 := Nat.add_le_add hfirst hlast

/-- Two sets that land injectively on the two sides of a cut of one run share its bound. -/
theorem card_add_card_le {α β : Type*} {left : Finset α} {right : Finset β} {f : α → ℕ} {g : β → ℕ}
    {cut : ℕ} (h : hi ≤ lo+width*count)
    (hf : ∀ a ∈ left, f a ∈ lane width residue lo hi ∧ f a < cut) (hfinj : Set.InjOn f left)
    (hg : ∀ b ∈ right, g b ∈ lane width residue lo hi ∧ cut ≤ g b) (hginj : Set.InjOn g right) :
    left.card+right.card ≤ count := by
  rw [←Finset.card_image_of_injOn hfinj,←Finset.card_image_of_injOn hginj]
  have hdisjoint : Disjoint (left.image f) (right.image g) := by
    rw [Finset.disjoint_left]
    intro x hx hy
    obtain ⟨a,ha,rfl⟩ := Finset.mem_image.mp hx
    obtain ⟨b,hb,hab⟩ := Finset.mem_image.mp hy
    have hlt := (hf a ha).2
    have hle := (hg b hb).2
    omega
  rw [←Finset.card_union_of_disjoint hdisjoint]
  have hsubset : left.image f ∪ right.image g ⊆ lane width residue lo hi := by
    intro x hx
    rcases Finset.mem_union.mp hx with hx | hx
    · obtain ⟨a,ha,rfl⟩ := Finset.mem_image.mp hx
      exact (hf a ha).1
    · obtain ⟨b,hb,rfl⟩ := Finset.mem_image.mp hx
      exact (hg b hb).1
  exact (Finset.card_le_card hsubset).trans (card_lane_le h)

end Remanence.Foundation
