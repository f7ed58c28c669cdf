import Mathlib.Data.List.Basic
import Mathlib.Data.Nat.Notation
import Mathlib.Logic.Function.Iterate

/-!
# First-improvement search

A search tries candidates one after the other, and a cheaper one replaces its value at once.
Passes are repeated until one changes nothing. Costs are natural numbers, so the search ends,
and then no candidate is cheaper.
-/

namespace Remanence.Foundation

variable {α β : Type}

structure Search (α : Type) where
  value : α
  best : ℕ
  improved : Bool

namespace Search

def attempt (cost : α → ℕ) (state : Search α) (candidate : α) : Search α :=
  if cost candidate < state.best then ⟨candidate,cost candidate,true⟩ else state

def Progress (cost : α → ℕ) (before after : Search α) : Prop :=
  after=before ∨ after.improved=true ∧ after.best < before.best ∧ after.best=cost after.value

theorem Progress.refl (cost : α → ℕ) (state : Search α) : Progress cost state state := .inl rfl

variable {cost : α → ℕ}

theorem Progress.trans {a b c : Search α} (h : Progress cost a b)
    (h' : Progress cost b c) : Progress cost a c := by
  rcases h with rfl | ⟨hb,hlt,hcost⟩
  · exact h'
  · rcases h' with rfl | ⟨hc,hlt',hcost'⟩
    · exact .inr ⟨hb,hlt,hcost⟩
    · exact .inr ⟨hc,Nat.lt_trans hlt' hlt,hcost'⟩

theorem attempt_progress (cost : α → ℕ) (state : Search α) (candidate : α) :
    Progress cost state (attempt cost state candidate) := by
  unfold attempt
  split_ifs with hless
  · exact .inr ⟨rfl,hless,rfl⟩
  · exact .refl cost state

variable {step : Search α → β → Search α}

theorem foldl_progress (hstep : ∀ state x, Progress cost state (step state x))
    (xs : List β) (state : Search α) : Progress cost state (xs.foldl step state) := by
  induction xs generalizing state with
  | nil => exact .refl cost state
  | cons x xs ih => exact (hstep state x).trans (ih _)

variable {state : Search α}

theorem foldl_fixed (hstep : ∀ state x, Progress cost state (step state x))
    {xs : List β} (hnone : (xs.foldl step state).improved=false) :
    xs.foldl step state=state ∧ ∀ x ∈ xs, step state x=state := by
  induction xs with
  | nil => exact ⟨rfl,fun _ hmem => (by cases hmem)⟩
  | cons x xs ih =>
    rw [List.foldl_cons] at hnone ⊢
    have hfirst : step state x=state := by
      rcases hstep state x with hsame | ⟨hfound,-⟩
      · exact hsame
      · -- what was found stays found
        rcases foldl_progress hstep xs (step state x) with hrest | ⟨hrest,-⟩
        · rw [hrest,hfound] at hnone
          cases hnone
        · rw [hrest] at hnone
          cases hnone
    rw [hfirst] at hnone ⊢
    obtain ⟨hsame,hall⟩ := ih hnone
    refine ⟨hsame,fun y hy => ?_⟩
    rcases List.mem_cons.mp hy with rfl | hy
    · exact hfirst
    · exact hall y hy

theorem best_le_of_attempt {candidate : α} (hnone : state.improved=false)
    (h : attempt cost state candidate=state) : state.best ≤ cost candidate := by
  unfold attempt at h
  split_ifs at h with hless
  · rw [←h] at hnone
    cases hnone
  · exact Nat.not_lt.mp hless

variable {P : α → Prop}

theorem foldl_keeps {xs : List β}
    (hstep : ∀ state, ∀ x ∈ xs, P state.value → P (step state x).value) (h : P state.value) :
    P (xs.foldl step state).value := by
  induction xs generalizing state with
  | nil => exact h
  | cons x xs ih =>
    exact ih (fun state y hy => hstep state y (List.mem_cons_of_mem _ hy))
      (hstep state x List.mem_cons_self h)

theorem attempt_keeps {candidate : α} (h : P state.value)
    (hcandidate : P candidate) : P (attempt cost state candidate).value := by
  unfold attempt
  split_ifs
  · exact hcandidate
  · exact h

def restart (state : Search α) : Search α := { state with improved := false }

/-- Passes until one finds nothing. -/
def descend (cost : α → ℕ) (pass : Search α → Search α)
    (hpass : ∀ state, Progress cost state (pass state)) (state : Search α) : Search α :=
  let after := pass state.restart
  if _hfound : after.improved=true then descend cost pass hpass after else after
termination_by state.best
decreasing_by
  rcases hpass state.restart with hsame | ⟨-,hlt,-⟩
  · have hfalse : (pass state.restart).improved=false := by rw [hsame]; rfl
    rw [hfalse] at _hfound
    cases _hfound
  · exact hlt

variable {cost : α → ℕ} {pass : Search α → Search α}
  (hpass : ∀ state, Progress cost state (pass state))

/-- The search ends after a number of passes, the last of which finds nothing. -/
theorem descend_eq_iterate (state : Search α) : ∃ count,
    descend cost pass hpass state=pass ((fun s => pass (restart s))^[count] state).restart ∧
      (descend cost pass hpass state).improved=false := by
  fun_induction descend cost pass hpass state with
  | case1 state after hfound ih =>
    obtain ⟨count,heq,hnone⟩ := ih
    exact ⟨count+1,heq,hnone⟩
  | case2 state after hfound => exact ⟨0,rfl,Bool.eq_false_iff.mpr hfound⟩

theorem descend_fixed (state : Search α) : (descend cost pass hpass state).improved=false ∧
      pass (descend cost pass hpass state)=descend cost pass hpass state := by
  fun_induction descend cost pass hpass state with
  | case1 state after hfound ih => exact ih
  | case2 state after hfound =>
    refine ⟨Bool.eq_false_iff.mpr hfound,?_⟩
    rcases hpass state.restart with hsame | ⟨hyes,-⟩
    · change pass (pass state.restart)=pass state.restart
      rw [hsame,hsame]
    · exact absurd hyes hfound

theorem descend_cost (hcost : state.best=cost state.value) :
    (descend cost pass hpass state).best=cost (descend cost pass hpass state).value ∧
      (descend cost pass hpass state).best ≤ state.best := by
  have hafter (state : Search α) (hcost : state.best=cost state.value) :
      (pass state.restart).best=cost (pass state.restart).value ∧
        (pass state.restart).best ≤ state.best := by
    rcases hpass state.restart with hsame | ⟨-,hlt,heq⟩
    · rw [hsame]
      exact ⟨hcost,Nat.le_refl _⟩
    · exact ⟨heq,Nat.le_of_lt hlt⟩
  fun_induction descend cost pass hpass state with
  | case1 state after hfound ih =>
    obtain ⟨heq,hle⟩ := ih (hafter state hcost).1
    exact ⟨heq,Nat.le_trans hle (hafter state hcost).2⟩
  | case2 state after hfound => exact hafter state hcost

theorem descend_keeps (hkeeps : ∀ state : Search α, P state.value → P (pass state).value)
    (h : P state.value) : P (descend cost pass hpass state).value := by
  fun_induction descend cost pass hpass state with
  | case1 state after hfound ih => exact ih (hkeeps _ h)
  | case2 state after hfound => exact hkeeps _ h

end Search

end Remanence.Foundation
