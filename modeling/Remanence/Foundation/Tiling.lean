import Mathlib.Data.List.Basic

/-!
# Lists of ranges laid end to end

A list tiles `[lo,hi)` if its ranges are non-empty, adjacent and cover exactly
that interval. The ranges are read from the items by two functions.
-/

namespace Remanence.Foundation

open List

variable {α : Type*} (first stop : α → ℕ)

/-- The ranges of the items, in order, partition `[lo,hi)`. -/
def Tiles : ℕ → ℕ → List α → Prop
  | lo,hi,[] => lo=hi
  | lo,hi,a::rest => first a=lo ∧ first a < stop a ∧ Tiles (stop a) hi rest

variable {first stop} {lo mid hi : ℕ} {as bs : List α}

@[simp] theorem tiles_cons {a : α} : Tiles first stop lo hi (a::as) ↔
    first a=lo ∧ first a < stop a ∧ Tiles first stop (stop a) hi as := Iff.rfl

namespace Tiles

theorem le (h : Tiles first stop lo hi as) : lo ≤ hi := by
  induction as generalizing lo with
  | nil => exact Nat.le_of_eq h
  | cons a rest ih =>
    obtain ⟨hfirst,hlt,hrest⟩ := h
    have := ih hrest
    omega

theorem append (hl : Tiles first stop lo mid as) (hr : Tiles first stop mid hi bs) :
    Tiles first stop lo hi (as++bs) := by
  induction as generalizing lo with
  | nil =>
    cases hl
    exact hr
  | cons a rest ih => exact ⟨hl.1,hl.2.1,ih hl.2.2⟩

section

variable (h : Tiles first stop lo hi as)
include h

theorem eq_nil (hempty : hi ≤ lo) : as=[] := by
  cases as with
  | nil => rfl
  | cons a rest =>
    obtain ⟨hfirst,hlt,hrest⟩ := h
    have := hrest.le
    omega

theorem mem {a : α} (ha : a ∈ as) : lo ≤ first a ∧ first a < stop a ∧ stop a ≤ hi := by
  induction as generalizing lo with
  | nil => cases ha
  | cons b rest ih =>
    obtain ⟨hfirst,hlt,hrest⟩ := h
    rcases mem_cons.mp ha with rfl | ha
    · exact ⟨Nat.le_of_eq hfirst.symm,hlt,hrest.le⟩
    · have := ih hrest ha
      omega

theorem pairwise : as.Pairwise fun a b => stop a ≤ first b := by
  induction as generalizing lo with
  | nil => exact List.Pairwise.nil
  | cons a rest ih => exact pairwise_cons.mpr ⟨fun b hb => (h.2.2.mem hb).1,ih h.2.2⟩

theorem map {β : Type*} {g : α → β} {first' stop' : β → ℕ} (hfirst : ∀ a ∈ as, first' (g a)=first a)
    (hstop : ∀ a ∈ as, stop' (g a)=stop a) : Tiles first' stop' lo hi (as.map g) := by
  induction as generalizing lo with
  | nil => exact h
  | cons a rest ih =>
    rw [map_cons,tiles_cons,hfirst a mem_cons_self,hstop a mem_cons_self]
    exact ⟨h.1,h.2.1,ih h.2.2 (fun b hb => hfirst b (mem_cons_of_mem a hb))
      fun b hb => hstop b (mem_cons_of_mem a hb)⟩

end

end Tiles

end Remanence.Foundation
