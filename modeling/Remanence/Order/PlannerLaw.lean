import Remanence.Order.Planner
import Mathlib.Data.List.Range
import Mathlib.Data.List.Perm.Subperm

/-!
# The contract of a plan

The construction visits every target once, and reversals and moves only permute. At the end of
the improvement no reversal and no move is cheaper, also for a pinned first target.
-/

namespace Remanence.Order

open Foundation Search
open List hiding head

variable {i j : ℕ}

theorem reverseSegment_perm (order : List ℕ) (hij : i ≤ j) :
    (reverseSegment order i j).Perm order := by
  have hsplit : order=order.take i++(order.drop i).take (j+1-i)++order.drop (j+1) := by
    have htail : (order.drop i).drop (j+1-i)=order.drop (j+1) := by
      rw [drop_drop]
      congr 1
      omega
    rw [←htail,append_assoc,take_append_drop,take_append_drop]
  have hsegment : (order.take i++((order.drop i).take (j+1-i)).reverse++order.drop (j+1)).Perm
      (order.take i++(order.drop i).take (j+1-i)++order.drop (j+1)) :=
    ((reverse_perm _).append_left _).append_right _
  rwa [←hsplit] at hsegment

theorem relocate_perm (order : List ℕ) (seg i j : ℕ) : (relocate order seg i j).Perm order := by
  set rest := order.take i++order.drop (i+seg)
  set chunk := (order.drop i).take seg with hchunk
  have hmove : (rest.take j++chunk++rest.drop j).Perm (chunk++rest) := by
    have hswap : (rest.take j++chunk).Perm (chunk++rest.take j) := perm_append_comm
    have hwhole := hswap.append_right (rest.drop j)
    rwa [append_assoc chunk,take_append_drop] at hwhole
  have hback : (chunk++rest).Perm order := by
    have hswap : (chunk++order.take i).Perm (order.take i++chunk) := perm_append_comm
    have hwhole : order.take i++chunk++order.drop (i+seg)=order := by
      rw [hchunk,append_assoc,←drop_drop,take_append_drop,take_append_drop]
    have hjoined := hswap.append_right (order.drop (i+seg))
    rwa [hwhole,append_assoc] at hjoined
  exact hmove.trans hback

variable {order : List ℕ} {lo : ℕ}

theorem reverseSegment_take (hlo : lo ≤ i) (hi : i ≤ order.length) :
    (reverseSegment order i j).take lo=order.take lo := by
  have hlength : lo ≤ (order.take i).length := by
    rw [length_take]
    omega
  unfold reverseSegment
  rw [append_assoc,take_append_of_le_length hlength,take_take,Nat.min_eq_left hlo]

variable {seg : ℕ}

theorem relocate_take (hloi : lo ≤ i) (hi : i ≤ order.length) (hloj : lo ≤ j) :
    (relocate order seg i j).take lo=order.take lo := by
  have hfront : lo ≤ (order.take i).length := by
    rw [length_take]
    omega
  have hrest : (order.take i++order.drop (i+seg)).take lo=order.take lo := by
    rw [take_append_of_le_length hfront,take_take,Nat.min_eq_left hloi]
  have hlength : lo ≤ ((order.take i++order.drop (i+seg)).take j).length := by
    rw [length_take,length_append]
    omega
  unfold relocate
  rw [append_assoc,take_append_of_le_length hlength,take_take,Nat.min_eq_left hloj, hrest]

theorem reverseSegment_self (order : List ℕ) (i : ℕ) : reverseSegment order i i=order := by
  have hone : i+1-i=1 := by omega
  unfold reverseSegment
  rw [hone,←drop_drop,append_assoc]
  have hreverse : ((order.drop i).take 1).reverse=(order.drop i).take 1 := by
    cases order.drop i with
    | nil => rfl
    | cons first rest => rfl
  rw [hreverse,take_append_drop,take_append_drop]

theorem relocate_self (hi : i ≤ order.length) : relocate order seg i i=order := by
  have hlength : (order.take i).length=i := by
    rw [length_take]
    omega
  unfold relocate
  dsimp only
  rw [take_append_of_le_length (le_of_eq hlength.symm),take_take,Nat.min_self,
    drop_append_of_le_length (le_of_eq hlength.symm)]
  have hnil : (order.take i).drop i=[] := by
    rw [drop_eq_nil_iff]
    omega
  rw [hnil,nil_append,append_assoc,←drop_drop,take_append_drop, take_append_drop]

/-- A route that permutes another and agrees with it before `lo`. -/
def Rearranged (lo : ℕ) (initial order : List ℕ) : Prop :=
  order.Perm initial ∧ order.take lo=initial.take lo

/-- No reversal and no move behind `lo` is cheaper. -/
structure LocallyOptimal (costs : CostMatrices) (lo : ℕ) (order : List ℕ) : Prop where
  reversal : ∀ i j, lo ≤ i → i ≤ j → j < order.length →
    costs.routeCost order ≤ costs.routeCost (reverseSegment order i j)
  /-- Moves of one to three consecutive targets. -/
  relocation : ∀ seg i j, 1 ≤ seg → seg ≤ 3 → lo ≤ i → i+seg ≤ order.length → lo ≤ j →
    j+seg ≤ order.length → costs.routeCost order ≤ costs.routeCost (relocate order seg i j)

theorem mem_span {low high x : ℕ} : x ∈ span low high ↔ low ≤ x ∧ x < high := by
  unfold span
  rw [mem_range'_1]
  omega

variable {costs : CostMatrices} {n : ℕ} {initial : List ℕ} {state : Search (List ℕ)}

theorem twoOptPass_keeps (hlength : initial.length=n) (h : Rearranged lo initial state.value) :
    Rearranged lo initial (twoOptPass costs n lo state).value := by
  refine foldl_keeps (P := Rearranged lo initial) (fun state i hi h => ?_) h
  refine foldl_keeps (P := Rearranged lo initial) (fun state j hj h => ?_) h
  rw [mem_span] at hi hj
  have hbound := h.1.length_eq
  exact attempt_keeps h ⟨(reverseSegment_perm _ (by omega)).trans h.1,
    (reverseSegment_take hi.1 (by omega)).trans h.2⟩

theorem orOptSegPass_keeps (hlength : initial.length=n) (h : Rearranged lo initial state.value) :
    Rearranged lo initial (orOptSegPass costs n lo seg state).value := by
  unfold orOptSegPass
  split_ifs
  · exact h
  · refine foldl_keeps (P := Rearranged lo initial) (fun stale i hi hstale => ?_) h
    refine foldl_keeps (P := Rearranged lo initial) (fun state j hj h => ?_) hstale
    rw [mem_span] at hi hj
    have hbound := hstale.1.length_eq
    split_ifs
    · exact h
    · exact attempt_keeps h ⟨(relocate_perm _ seg i j).trans hstale.1,
        (relocate_take hi.1 (by omega) hj.1).trans hstale.2⟩

theorem improvePass_keeps (hlength : initial.length=n) (state : Search (List ℕ))
    (h : Rearranged lo initial state.value) :
    Rearranged lo initial (improvePass costs n lo state).value :=
  foldl_keeps (P := Rearranged lo initial)
    (fun _ _ _ h => orOptSegPass_keeps hlength h) (twoOptPass_keeps hlength h)

/-- A pass that finds nothing changes nothing, neither by reversals nor by moves. -/
theorem improvePass_fixed (hnone : (improvePass costs n lo state).improved=false) :
    twoOptPass costs n lo state=state ∧
      ∀ seg ∈ [1,2,3], orOptSegPass costs n lo seg state=state := by
  obtain ⟨hmoves,hseg⟩ := foldl_fixed
    (fun state seg => orOptSegPass_progress costs n lo seg state) hnone
  have hreversals : (twoOptPass costs n lo state).improved=false := by
    rw [←hmoves]
    exact hnone
  have hsame : twoOptPass costs n lo state=state :=
    (foldl_fixed (fun state i => foldl_progress
      (fun state j => attempt_progress costs.routeCost state (reverseSegment state.value i j))
      (span (i+1) n) state) hreversals).1
  rw [hsame] at hseg
  exact ⟨hsame,hseg⟩

theorem le_of_twoOptPass_fixed (hnone : state.improved=false)
    (hfixed : twoOptPass costs n lo state=state) (hlo : lo ≤ i) (hij : i < j) (hj : j < n) :
    state.best ≤ costs.routeCost (reverseSegment state.value i j) := by
  have houter : (twoOptPass costs n lo state).improved=false := by rw [hfixed]; exact hnone
  have hinner := (foldl_fixed (fun state i => foldl_progress
    (fun state j => attempt_progress costs.routeCost state (reverseSegment state.value i j))
    (span (i+1) n) state) houter).2 i (mem_span.mpr (by omega))
  have hinnerNone : ((span (i+1) n).foldl (fun state j =>
      state.attempt costs.routeCost (reverseSegment state.value i j)) state).improved=false := by
    rw [hinner]
    exact hnone
  have hstep := (foldl_fixed (fun state j => attempt_progress costs.routeCost state
    (reverseSegment state.value i j)) hinnerNone).2 j (mem_span.mpr (by omega))
  exact best_le_of_attempt hnone hstep

theorem le_of_orOptSegPass_fixed (hnone : state.improved=false)
    (hfixed : orOptSegPass costs n lo seg state=state) (hloi : lo ≤ i) (hi : i+seg ≤ n)
    (hloj : lo ≤ j) (hj : j+seg ≤ n) (hij : j≠i) :
    state.best ≤ costs.routeCost (relocate state.value seg i j) := by
  have hlarge : ¬n < seg+lo := by omega
  unfold orOptSegPass at hfixed
  rw [if_neg hlarge] at hfixed
  have hinner := (foldl_fixed (fun (state : Search (List ℕ)) i => foldl_progress
    (moveStep_progress costs state.value seg i) (span lo (n-seg+1)) state)
    ((congrArg improved hfixed).trans hnone)).2 i (mem_span.mpr (by omega))
  have hstep := (foldl_fixed (moveStep_progress costs state.value seg i)
    ((congrArg improved hinner).trans hnone)).2 j (mem_span.mpr (by omega))
  rw [if_neg hij] at hstep
  exact best_le_of_attempt hnone hstep

def searchFrom (costs : CostMatrices) (order : List ℕ) : Search (List ℕ) :=
  ⟨order,costs.routeCost order,false⟩

section

variable (costs)

theorem searchFrom_best (order : List ℕ) :
    (searchFrom costs order).best=costs.routeCost (searchFrom costs order).value := rfl

theorem improve_rearranged (pinned : Bool) (order : List ℕ) :
    Rearranged pinned.toNat order (improve costs pinned order) := by
  have hinitial : Rearranged pinned.toNat order (searchFrom costs order).value := ⟨.refl _,rfl⟩
  exact descend_keeps (P := Rearranged pinned.toNat order) _ (improvePass_keeps rfl) hinitial

theorem improve_cost_le (pinned : Bool) (order : List ℕ) :
    costs.routeCost (improve costs pinned order) ≤ costs.routeCost order := by
  obtain ⟨heq,hle⟩ := descend_cost
    (improvePass_progress costs order.length pinned.toNat) (searchFrom_best costs order)
  rwa [heq] at hle

theorem improve_locallyOptimal (pinned : Bool) (order : List ℕ) :
    LocallyOptimal costs pinned.toNat (improve costs pinned order) := by
  have hprogress := improvePass_progress costs order.length pinned.toNat
  set final := Search.descend costs.routeCost (improvePass costs order.length pinned.toNat)
    hprogress (searchFrom costs order)
  obtain ⟨hnone,hpass⟩ := descend_fixed hprogress (searchFrom costs order)
  have hbest : final.best=costs.routeCost final.value :=
    (descend_cost hprogress (searchFrom_best costs order)).1
  obtain ⟨hreversals,hmoves⟩ := improvePass_fixed ((congrArg improved hpass).trans hnone)
  have hlength : final.value.length=order.length := (improve_rearranged costs pinned order).1.length_eq
  change LocallyOptimal costs pinned.toNat final.value
  refine ⟨fun i j hlo hij hj => ?_,fun seg i j hone hthree hloi hi hloj hj => ?_⟩
  · rcases Nat.eq_or_lt_of_le hij with rfl | hij
    · rw [reverseSegment_self]
    · rw [←hbest]
      exact le_of_twoOptPass_fixed hnone hreversals hlo hij (by omega)
  · by_cases hij : j=i
    · rw [hij,relocate_self (by omega)]
    · have hseg : seg ∈ [1,2,3] := by
        rw [mem_cons,mem_cons,mem_singleton]
        omega
      rw [←hbest]
      exact le_of_orOptSegPass_fixed hnone (hmoves seg hseg) hloi (by omega) hloj (by omega) hij

/-- The improvement stops: a number of passes leads to its result, and the last one finds nothing. -/
theorem improve_stops (pinned : Bool) (order : List ℕ) : ∃ passes,
    let final := (fun state => improvePass costs order.length pinned.toNat
      (Search.restart state))^[passes+1] (searchFrom costs order)
    improve costs pinned order=final.value ∧ final.improved=false := by
  obtain ⟨count,heq,hnone⟩ := descend_eq_iterate
    (improvePass_progress costs order.length pinned.toNat) (searchFrom costs order)
  refine ⟨count,?_⟩
  rw [Function.iterate_succ_apply',←heq]
  exact ⟨rfl,hnone⟩

theorem nearestStep_cases (visited : List ℕ) (current : Option ℕ) (best : Option (ℕ×UInt64))
    (j : ℕ) :
    nearestStep costs visited current best j=best ∧ (j ∈ visited ∨ best≠none) ∨
      j ∉ visited ∧ ∃ c, nearestStep costs visited current best j=some (j,c) := by
  unfold nearestStep
  split_ifs with hvisited
  · exact .inl ⟨rfl,.inl hvisited⟩
  · rcases best with _ | ⟨b,bc⟩
    · exact .inr ⟨hvisited,_,rfl⟩
    · dsimp only
      split_ifs
      · exact .inr ⟨hvisited,_,rfl⟩
      · exact .inl ⟨rfl,.inr (by simp)⟩

/-- A search finds a target that is not visited, or all targets are visited. -/
theorem nearest_foldl (visited : List ℕ) (current : Option ℕ) (xs : List ℕ)
    (best : Option (ℕ×UInt64)) :
    xs.foldl (nearestStep costs visited current) best=best ∧ ((∀ j ∈ xs, j ∈ visited) ∨ best≠none) ∨
      ∃ j c, xs.foldl (nearestStep costs visited current) best=some (j,c) ∧ j ∈ xs ∧ j ∉ visited := by
  induction xs generalizing best with
  | nil => exact .inl ⟨rfl,.inl (by simp)⟩
  | cons x xs ih =>
    rw [foldl_cons]
    rcases ih (nearestStep costs visited current best x) with ⟨hrest,hall⟩ | ⟨j,c,hfound,hmem,hnew⟩
    · rcases nearestStep_cases costs visited current best x with ⟨hsame,hor⟩ | ⟨hnew,c,hx⟩
      · rw [hrest,hsame]
        rw [hsame] at hall
        refine .inl ⟨rfl,?_⟩
        rcases hor with hx | hbest
        · rcases hall with hall | hbest
          · exact .inl (forall_mem_cons.mpr ⟨hx,hall⟩)
          · exact .inr hbest
        · exact .inr hbest
      · rw [hrest]
        exact .inr ⟨x,c,hx,mem_cons_self,hnew⟩
    · exact .inr ⟨j,c,hfound,mem_cons_of_mem _ hmem,hnew⟩

theorem nearestUnvisited_eq_some {visited : List ℕ} (current : Option ℕ)
    (hfew : visited.length < n) :
    ∃ j c, nearestUnvisited costs n visited current=some (j,c) ∧ j < n ∧ j ∉ visited := by
  rcases nearest_foldl costs visited current (List.range n) none with
    ⟨-,hall | habsurd⟩ | ⟨j,c,hfound,hmem,hnew⟩
  · have hsub := subperm_of_subset nodup_range hall
    have hle := hsub.length_le
    rw [length_range] at hle
    omega
  · exact absurd rfl habsurd
  · exact ⟨j,c,hfound,mem_range.mp hmem,hnew⟩

end

def PartialRoute (n : ℕ) (order : List ℕ) : Prop := order.Nodup ∧ ∀ j ∈ order, j < n

theorem PartialRoute.perm (h : PartialRoute n order) (hlength : order.length=n) :
    order.Perm (List.range n) := by
  have hsub := subperm_of_subset h.1 fun j hj => mem_range.mpr (h.2 j hj)
  refine hsub.perm_of_length_le ?_
  rw [length_range,hlength]

theorem nearestLoop_perm (costs : CostMatrices) {left : ℕ} (current : Option ℕ)
    (h : PartialRoute n order) (hlength : order.length+left=n) :
    (nearestLoop costs n left order current).Perm (List.range n) ∧
      order <+: nearestLoop costs n left order current := by
  induction left generalizing order current with
  | zero => exact ⟨h.perm hlength,prefix_rfl⟩
  | succ left ih =>
    obtain ⟨j,c,hfound,hj,hnew⟩ := nearestUnvisited_eq_some costs current
      (show order.length < n by omega)
    unfold nearestLoop
    rw [hfound]
    have hextend : PartialRoute n (order++[j]) := by
      refine ⟨nodup_append.mpr ⟨h.1,nodup_singleton j,?_⟩,?_⟩
      · intro a ha b hb hab
        rw [mem_singleton] at hb
        exact hnew (hb ▸ hab ▸ ha)
      · intro k hk
        rcases mem_append.mp hk with hk | hk
        · exact h.2 k hk
        · rw [mem_singleton.mp hk]
          exact hj
    obtain ⟨hperm,hkept⟩ := ih (some j) hextend (by rw [length_append,length_singleton]; omega)
    exact ⟨hperm,(prefix_append order [j]).trans hkept⟩

/-- The target with the cheapest first hop has the least cost and the least index among equals. -/
def CheapestFirst (costs : CostMatrices) (n first : ℕ) : Prop :=
  first < n ∧ ∀ j < n, costs.m0 first ≤ costs.m0 j ∧ (costs.m0 j=costs.m0 first → first ≤ j)

theorem cheapest_foldl (costs : CostMatrices) {low best : ℕ} (count : ℕ) (h : CheapestFirst costs low best) :
    CheapestFirst costs (low+count) ((List.range' low count).foldl
      (fun best j => if costs.m0 j < costs.m0 best then j else best) best) := by
  induction count generalizing low best with
  | zero => exact h
  | succ count ih =>
    have hnext : CheapestFirst costs (low+1)
        (if costs.m0 low < costs.m0 best then low else best) := by
      obtain ⟨hbest,hall⟩ := h
      split_ifs with hless
      · refine ⟨Nat.lt_succ_self low,fun j hj => ?_⟩
        rcases Nat.lt_succ_iff_lt_or_eq.mp hj with hj | rfl
        · have hle := (hall j hj).1
          rw [UInt64.lt_iff_toNat_lt] at hless
          rw [UInt64.le_iff_toNat_le] at hle ⊢
          refine ⟨by omega,fun heq => ?_⟩
          rw [heq] at hle
          omega
        · exact ⟨UInt64.le_refl _,fun _ => le_rfl⟩
      · refine ⟨by omega,fun j hj => ?_⟩
        rcases Nat.lt_succ_iff_lt_or_eq.mp hj with hj | rfl
        · exact hall j hj
        · exact ⟨UInt64.not_lt.mp hless,fun _ => le_of_lt hbest⟩
    have hrest := ih hnext
    rwa [add_assoc,add_comm 1 count] at hrest

theorem cheapestFirst_cheapest (costs : CostMatrices) (hn : 0 < n) :
    CheapestFirst costs n (cheapestFirst costs n) := by
  obtain ⟨n,rfl⟩ := Nat.exists_eq_add_one.mpr hn
  have hzero : CheapestFirst costs 1 0 := by
    refine ⟨Nat.one_pos,fun j hj => ?_⟩
    obtain rfl : j=0 := by omega
    exact ⟨UInt64.le_refl _,fun _ => Nat.le_refl 0⟩
  have hall := cheapest_foldl costs n hzero
  rwa [add_comm] at hall

theorem initialRoute_perm (costs : CostMatrices) (hn : 0 < n) (objective : Objective) :
    (initialRoute costs n objective).Perm (List.range n) ∧
      (objective=.minTimeToFirst → (initialRoute costs n objective).take 1=[cheapestFirst costs n]) := by
  cases objective with
  | minTotalTime =>
    exact ⟨(nearestLoop_perm costs none ⟨nodup_nil,by simp⟩ (by simp)).1,by simp⟩
  | minTimeToFirst =>
    have hfirst := (cheapestFirst_cheapest costs hn).1
    have hpinned : PartialRoute n [cheapestFirst costs n] :=
      ⟨nodup_singleton _,by simpa using hfirst⟩
    have hlength : [cheapestFirst costs n].length+(n-1)=n := by
      rw [length_singleton]
      omega
    obtain ⟨hperm,rest,hrest⟩ := nearestLoop_perm costs (some (cheapestFirst costs n)) hpinned hlength
    refine ⟨hperm,fun _ => ?_⟩
    change List.take 1 (nearestLoop costs n (n-1) [cheapestFirst costs n] _)=_
    rw [←hrest]
    rfl

theorem positionOr_eq_ok {outside : UInt64 → UInt64 → PlanError}
    {result : Except PositionError (PhysicalPosition×Bool)} {position : PhysicalPosition×Bool}
    (h : positionOr outside result=.ok position) : result=.ok position := by
  rcases result with error | value
  · cases error <;> cases h
  · cases h
    rfl

def TargetAt (input : PlanInput) (target : ReadTarget) (ends : PhysicalPosition×PhysicalPosition) :
    Prop :=
  (∃ uses, physicalPosition input.map input.geometry target.startBlock=.ok (ends.1,uses)) ∧
    ∃ uses, physicalPosition input.map input.geometry target.endBlock=.ok (ends.2,uses)

structure Positioned (input : PlanInput) (positions : PlanPositions) : Prop where
  start : physicalPosition input.map input.geometry (input.startBlock.getD 0)=
    .ok (positions.start,positions.startUsesEod)
  stop : List.Forall₂ (fun block stop => physicalPosition input.map input.geometry block=.ok stop)
    input.endBlock.toList positions.stop.toList
  targets : List.Forall₂ (TargetAt input) input.targets positions.targets

variable {input : PlanInput}

theorem targetPositions_at {index : ℕ} {targets : List ReadTarget}
    {positions : List (PhysicalPosition×PhysicalPosition)} {uses : Bool}
    (h : targetPositions input index targets=.ok (positions,uses)) :
    List.Forall₂ (TargetAt input) targets positions := by
  induction targets generalizing index positions uses with
  | nil =>
    cases h
    exact .nil
  | cons target rest ih =>
    obtain ⟨⟨start,startUses⟩,hstart,h⟩ := bind_eq_ok.mp h
    obtain ⟨⟨stop,stopUses⟩,hstop,h⟩ := bind_eq_ok.mp h
    obtain ⟨⟨others,othersUse⟩,hothers,h⟩ := bind_eq_ok.mp h
    cases h
    exact .cons ⟨⟨startUses,positionOr_eq_ok hstart⟩,⟨stopUses,positionOr_eq_ok hstop⟩⟩ (ih hothers)

theorem endPosition_at {stop : Option (PhysicalPosition×Bool)} (h : endPosition input=.ok stop) :
    List.Forall₂ (fun block stop => physicalPosition input.map input.geometry block=.ok stop)
      input.endBlock.toList stop.toList := by
  unfold endPosition at h
  cases hblock : input.endBlock with
  | none =>
    rw [hblock] at h
    cases h
    exact .nil
  | some block =>
    rw [hblock] at h
    dsimp only at h
    cases hposition : positionOr .endOutOfCoverage (physicalPosition input.map input.geometry block) with
    | error error =>
      rw [hposition] at h
      cases h
    | ok position =>
      rw [hposition] at h
      cases h
      exact .cons (positionOr_eq_ok hposition) .nil

variable {positions : PlanPositions}

theorem planPositions_positioned (h : planPositions input=.ok positions) :
    Positioned input positions := by
  obtain ⟨-,-,h⟩ := bind_eq_ok.mp h
  obtain ⟨-,-,h⟩ := bind_eq_ok.mp h
  obtain ⟨-,-,h⟩ := bind_eq_ok.mp h
  obtain ⟨⟨start,startUses⟩,hstart,h⟩ := bind_eq_ok.mp h
  obtain ⟨stop,hstop,h⟩ := bind_eq_ok.mp h
  obtain ⟨⟨targets,uses⟩,htargets,h⟩ := bind_eq_ok.mp h
  cases h
  exact ⟨positionOr_eq_ok hstart,endPosition_at hstop,targetPositions_at htargets⟩

/-- Every hop is estimated from where the head is to the start of its target; the head goes on from
the end of the target. -/
def Chained (priors : CostPriors) (positions : PlanPositions) :
    PhysicalPosition → List PlannedHop → Prop
  | _,[] => True
  | head,hop::rest => ∃ ends, positions.targets[hop.targetIndex]?=some ends ∧
    hop.estimatedLocateNs=hopNs priors head ends.1 ∧ Chained priors positions ends.2 rest

def headAfter (positions : PlanPositions) : PhysicalPosition → List PlannedHop → PhysicalPosition
  | head,[] => head
  | head,hop::rest => headAfter positions ((positions.targets[hop.targetIndex]?.map Prod.snd).getD head)
    rest

theorem assembleHops_indices (costs : CostMatrices) (current : Option ℕ) (order : List ℕ) :
    (assembleHops costs current order).map PlannedHop.targetIndex=order := by
  induction order generalizing current with
  | nil => rfl
  | cons index rest ih =>
    unfold assembleHops
    rw [map_cons,ih]

def headAt (positions : PlanPositions) : Option ℕ → PhysicalPosition
  | none => positions.start
  | some index => (positions.targets[index]?.map Prod.snd).getD positions.start

section

variable (hbound : ∀ index ∈ order, index < positions.targets.length)
include hbound

theorem assembleHops_chained (priors : CostPriors) (current : Option ℕ) :
    Chained priors positions (headAt positions current)
      (assembleHops (costMatrices priors positions) current order) := by
  induction order generalizing current with
  | nil => trivial
  | cons index rest ih =>
    obtain ⟨hindex,hrest⟩ := forall_mem_cons.mp hbound
    have hget := getElem?_eq_getElem hindex
    refine ⟨positions.targets[index],hget,?_,?_⟩
    · cases current <;> simp [CostMatrices.hopFrom,costMatrices,headAt,hget]
    · have hnext := ih hrest (some index)
      rwa [headAt,hget] at hnext

theorem headAfter_assembleHops (costs : CostMatrices) (current : Option ℕ) :
    headAfter positions (headAt positions current) (assembleHops costs current order)=
      headAt positions (order.getLast?.or current) := by
  induction order generalizing current with
  | nil => rfl
  | cons index rest ih =>
    obtain ⟨hindex,hrest⟩ := forall_mem_cons.mp hbound
    have hget := getElem?_eq_getElem hindex
    have hlast : (index::rest).getLast?.or current=rest.getLast?.or (some index) := by
      cases rest with
      | nil => rfl
      | cons second rest => simp [getLast?_cons]
    rw [hlast,←ih hrest (some index)]
    simp only [assembleHops,headAfter,headAt,hget,Option.map_some,Option.getD_some]

theorem terminalNs_eq (priors : CostPriors) :
    terminalNs priors positions (costMatrices priors positions) order=
      positions.stop.map fun stop => hopNs priors (headAfter positions positions.start
        (assembleHops (costMatrices priors positions) none order)) stop.1 := by
  have hhead := headAfter_assembleHops hbound (costMatrices priors positions) none
  rw [headAt] at hhead
  rw [hhead,Option.or_none]
  unfold terminalNs
  cases hstop : positions.stop with
  | none => rfl
  | some stop =>
    cases order.getLast? with
    | none => rfl
    | some last => simp [costMatrices,hstop,headAt]

end

structure GoodOrder (costs : CostMatrices) (n : ℕ) (objective : Objective) (order : List ℕ) :
    Prop where
  perm : order.Perm (List.range n)
  cost_le : costs.routeCost order ≤ costs.routeCost (initialRoute costs n objective)
  optimal : LocallyOptimal costs (objective=.minTimeToFirst : Bool).toNat order
  first : objective=.minTimeToFirst → ∀ index ∈ order.head?, CheapestFirst costs n index

theorem locallyOptimal_of_length_le_one (costs : CostMatrices) (lo : ℕ)
    (hlength : order.length ≤ 1) : LocallyOptimal costs lo order := by
  refine ⟨fun i j _ hij hj => ?_,fun seg i j hone _ _ hi _ hj => ?_⟩
  · obtain rfl : i=j := by omega
    rw [reverseSegment_self]
  · obtain rfl : j=i := by omega
    rw [relocate_self (by omega)]

theorem solve_good (costs : CostMatrices) (hn : 0 < n) (objective : Objective) :
    GoodOrder costs n objective (solve costs n objective) := by
  obtain ⟨hperm,hpinned⟩ := initialRoute_perm costs hn objective
  have hrearranged := improve_rearranged costs (objective=.minTimeToFirst)
    (initialRoute costs n objective)
  refine ⟨hrearranged.1.trans hperm,improve_cost_le _ _ _,improve_locallyOptimal _ _ _,
    fun hobjective index hindex => ?_⟩
  have htake := hrearranged.2
  have hlo : (objective=.minTimeToFirst : Bool).toNat=1 := by simp [hobjective]
  rw [hlo,hpinned hobjective] at htake
  change (solve costs n objective).take 1=[cheapestFirst costs n] at htake
  have hfirst : index=cheapestFirst costs n := by
    cases horder : solve costs n objective with
    | nil =>
      rw [horder] at hindex
      cases hindex
    | cons first rest =>
      rw [horder] at hindex htake
      cases hindex
      exact (List.cons.inj htake).1
  rw [hfirst]
  exact cheapestFirst_cheapest costs hn

theorem planOrder_good (costs : CostMatrices) (n : ℕ) (objective : Objective) :
    GoodOrder costs n objective (planOrder costs n objective) := by
  match n with
  | 0 =>
    exact ⟨.refl _,Nat.zero_le _,locallyOptimal_of_length_le_one costs _ (Nat.zero_le _),
      fun _ _ hindex => by cases hindex⟩
  | 1 =>
    have hone := perm_singleton.mp (initialRoute_perm costs Nat.one_pos objective).1
    refine ⟨.refl _,?_,locallyOptimal_of_length_le_one costs _ (Nat.le_refl 1),?_⟩
    · rw [hone]
      exact le_rfl
    · intro _ index hindex
      cases hindex
      exact cheapestFirst_cheapest costs Nat.one_pos
  | n+2 => exact solve_good costs (Nat.succ_pos _) objective

def Plan.sumNs (result : Plan) : ℕ :=
  (result.hops.map fun hop => hop.estimatedLocateNs.toNat).sum+(result.terminalNs.map UInt64.toNat).getD 0

/-- A plan visits every target once, at the estimated cost, costs at most as much as the route by
nearest neighbours, cannot be made cheaper by a reversal or a move, and begins with the cheapest
target if that is asked for. -/
theorem plan_contract {input : PlanInput} {result : Plan} (h : plan input=.ok result) :
    ∃ positions, Positioned input positions ∧
      Chained input.priors positions positions.start result.hops ∧
      result.terminalNs=positions.stop.map (fun stop =>
        hopNs input.priors (headAfter positions positions.start result.hops) stop.1) ∧
      result.estimatedTotalNs.toNat=min result.sumNs (2^64-1) ∧
      GoodOrder (costMatrices input.priors positions) input.targets.length input.objective
        (result.hops.map PlannedHop.targetIndex) ∧
      (2 ≤ input.targets.length → ∃ passes,
        let costs := costMatrices input.priors positions
        let initial := initialRoute costs input.targets.length input.objective
        let final := (fun state => improvePass costs initial.length
          (input.objective=.minTimeToFirst : Bool).toNat (Search.restart state))^[passes+1]
          (searchFrom costs initial)
        result.hops.map PlannedHop.targetIndex=final.value ∧ final.improved=false) := by
  obtain ⟨positions,hpositions,h⟩ := bind_eq_ok.mp h
  have hpositioned := planPositions_positioned hpositions
  set costs := costMatrices input.priors positions
  have hgood := planOrder_good costs input.targets.length input.objective
  have hbound : ∀ index ∈ planOrder costs input.targets.length input.objective,
      index < positions.targets.length := by
    intro index hindex
    rw [←hpositioned.targets.length_eq]
    exact mem_range.mp (hgood.perm.mem_iff.mp hindex)
  cases h
  refine ⟨positions,hpositioned,?_,?_,?_,?_,?_⟩
  · exact assembleHops_chained hbound input.priors none
  · exact terminalNs_eq hbound input.priors
  · exact saturate_toNat _
  · rw [assembleHops_indices]
    exact hgood
  · intro hn
    obtain ⟨passes,hstops⟩ := improve_stops costs (input.objective=.minTimeToFirst)
      (initialRoute costs input.targets.length input.objective)
    refine ⟨passes,?_⟩
    rw [assembleHops_indices]
    have hsolve : planOrder costs input.targets.length input.objective=
        solve costs input.targets.length input.objective := by
      obtain ⟨m,hm⟩ := Nat.exists_eq_add_of_le hn
      rw [hm,add_comm]
      rfl
    rw [hsolve]
    exact hstops

def sampleMap : WrapMap :=
  ⟨[⟨0,0,99⟩,⟨0,1,200⟩],[0,100],[100],200,⟨100,.medianCompletedWrap,1⟩⟩

def sampleInput : PlanInput where
  geometry := ⟨4,34,136⟩
  map := sampleMap
  priors := publishedPriors
  targets := [⟨90,95⟩,⟨10,20⟩,⟨150,160⟩]
  objective := .minTimeToFirst
  startBlock := none
  endBlock := some 0

theorem plan_contract_sample : ∃ result, plan sampleInput=.ok result ∧
    result.hops.map PlannedHop.targetIndex=[1,0,2] ∧ ∃ positions, Positioned sampleInput positions ∧
      GoodOrder (costMatrices sampleInput.priors positions) 3 .minTimeToFirst
        (result.hops.map PlannedHop.targetIndex) := by
  have hok : (plan sampleInput).toOption.map (fun result => result.hops.map PlannedHop.targetIndex)=
      some [1,0,2] := by decide +kernel
  obtain ⟨result,hresult,horder⟩ := exists_of_map hok
  obtain ⟨positions,hpositioned,-,-,-,hgood,-⟩ := plan_contract hresult
  exact ⟨result,hresult,horder,positions,hpositioned,hgood⟩

end Remanence.Order
