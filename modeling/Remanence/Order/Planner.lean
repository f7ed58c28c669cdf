import Remanence.Foundation.Descent
import Remanence.Order.Cost
import Mathlib.Algebra.GroupWithZero.Nat

/-!
# The read order

The planner computes the cost of every hop between the targets, builds a route by going to the
nearest target again and again, and improves it by reversing segments and moving up to three
consecutive targets.
-/

namespace Remanence.Order

open Foundation

structure ReadTarget where
  startBlock : UInt64
  endBlock : UInt64
deriving DecidableEq, Repr

inductive Objective where
  | minTotalTime
  | minTimeToFirst
deriving DecidableEq, Repr

structure StructuralRow where
  bands : UInt32
  wrapsPerBand : UInt32
  wraps : UInt32
deriving DecidableEq, Repr

/-- Logical bands in the order of their physical ranks. -/
def bandLayout : List UInt32 := [3,1,0,2]

def bandRank (logicalBand : UInt32) : Option UInt32 :=
  (bandLayout.findIdx? fun band => band=logicalBand).map UInt32.ofNat

structure PlanInput where
  geometry : StructuralRow
  map : WrapMap
  priors : CostPriors
  targets : List ReadTarget
  objective : Objective
  startBlock : Option UInt64
  endBlock : Option UInt64

structure PlannedHop where
  targetIndex : ℕ
  estimatedLocateNs : ElapsedNs
deriving DecidableEq, Repr

structure Plan where
  hops : List PlannedHop
  terminalNs : Option ElapsedNs
  estimatedTotalNs : ElapsedNs
  usesEstimatedEodGeometry : Bool
deriving DecidableEq, Repr

inductive PositionError where
  | outOfCoverage (blockLba mappedExtentLba : UInt64)
  | geometryInvalid (detail : String)
  | panic
deriving DecidableEq, Repr

inductive PlanError where
  | geometryInvalid (detail : String)
  | mapExceedsGeometry (mapWraps geometryWraps : UInt32)
  | targetEndBeforeStart (index : ℕ)
  | targetOutOfCoverage (index : ℕ) (blockLba mappedExtentLba : UInt64)
  | startOutOfCoverage (blockLba mappedExtentLba : UInt64)
  | endOutOfCoverage (blockLba mappedExtentLba : UInt64)
  | panic
deriving DecidableEq, Repr

/-- Position of a block with the rank of its band, and whether it uses the estimated length. -/
def physicalPosition (map : WrapMap) (geometry : StructuralRow) (blockLba : UInt64) :
    Except PositionError (PhysicalPosition×Bool) :=
  match map.locate blockLba with
  | .uncovered error => .error (.outOfCoverage error.blockLba error.mappedExtentLba)
  | .panic => .error .panic
  | .position pos => do
    rejectIf (geometry.wrapsPerBand=0) (.geometryInvalid "wraps_per_band is zero")
    let logicalBand := pos.wrapIndex/geometry.wrapsPerBand
    rejectIf (geometry.bands ≤ logicalBand)
      (.geometryInvalid "wrap maps to a band beyond the row's band count")
    let rank ← orElseError (bandRank logicalBand)
      (.geometryInvalid "logical band outside the four-band layout")
    return (⟨pos.wrapIndex,pos.direction,pos.physicalLpos,rank⟩,pos.usesEodDenominator)

def positionOr (outside : UInt64 → UInt64 → PlanError)
    (result : Except PositionError (PhysicalPosition×Bool)) :
    Except PlanError (PhysicalPosition×Bool) :=
  match result with
  | .ok position => .ok position
  | .error (.outOfCoverage blockLba mappedExtentLba) => .error (outside blockLba mappedExtentLba)
  | .error (.geometryInvalid detail) => .error (.geometryInvalid detail)
  | .error .panic => .error .panic

def checkTargets : ℕ → List ReadTarget → Except PlanError Unit
  | _,[] => return ()
  | index,target::rest => do
    rejectIf (target.endBlock < target.startBlock) (.targetEndBeforeStart index)
    checkTargets (index+1) rest

/-- Positions of the first and last blocks of the targets, and whether any uses the estimate. -/
def targetPositions (input : PlanInput) :
    ℕ → List ReadTarget → Except PlanError (List (PhysicalPosition×PhysicalPosition)×Bool)
  | _,[] => return ([],false)
  | index,target::rest => do
    let (start,startUses) ← positionOr (.targetOutOfCoverage index)
      (physicalPosition input.map input.geometry target.startBlock)
    let (stop,stopUses) ← positionOr (.targetOutOfCoverage index)
      (physicalPosition input.map input.geometry target.endBlock)
    let (positions,uses) ← targetPositions input (index+1) rest
    return ((start,stop)::positions,startUses || stopUses || uses)

structure CostMatrices where
  m0 : ℕ → UInt64
  m : ℕ → ℕ → UInt64
  term : Option (ℕ → UInt64)

def CostMatrices.tailCost (costs : CostMatrices) : ℕ → List ℕ → ℕ
  | last,[] => match costs.term with
    | some term => (term last).toNat
    | none => 0
  | previous,index::rest => (costs.m previous index).toNat+costs.tailCost index rest

def CostMatrices.routeCost (costs : CostMatrices) : List ℕ → ℕ
  | [] => 0
  | first::rest => (costs.m0 first).toNat+costs.tailCost first rest

def CostMatrices.hopFrom (costs : CostMatrices) : Option ℕ → ℕ → UInt64
  | none,index => costs.m0 index
  | some current,index => costs.m current index

def nearestStep (costs : CostMatrices) (visited : List ℕ) (current : Option ℕ)
    (best : Option (ℕ×UInt64)) (j : ℕ) : Option (ℕ×UInt64) :=
  if j ∈ visited then best
  else
    let c := costs.hopFrom current j
    match best with
    | none => some (j,c)
    | some (_,bc) => if c < bc then some (j,c) else best

/-- The nearest target that is not visited, the first of them on a tie. -/
def nearestUnvisited (costs : CostMatrices) (n : ℕ) (visited : List ℕ) (current : Option ℕ) :
    Option (ℕ×UInt64) :=
  (List.range n).foldl (nearestStep costs visited current) none

def nearestLoop (costs : CostMatrices) (n : ℕ) : ℕ → List ℕ → Option ℕ → List ℕ
  | 0,order,_ => order
  | left+1,order,current =>
    match nearestUnvisited costs n order current with
    | some (j,_) => nearestLoop costs n left (order++[j]) (some j)
    | none => order

def nearestNeighbour (costs : CostMatrices) (n : ℕ) : Option ℕ → List ℕ
  | some first => nearestLoop costs n (n-1) [first] (some first)
  | none => nearestLoop costs n n [] none

def reverseSegment (order : List ℕ) (i j : ℕ) : List ℕ :=
  order.take i++((order.drop i).take (j+1-i)).reverse++order.drop (j+1)

/-- Take `seg` targets at `i` out and put them before place `j` of the rest. -/
def relocate (order : List ℕ) (seg i j : ℕ) : List ℕ :=
  let rest := order.take i++order.drop (i+seg)
  rest.take j++(order.drop i).take seg++rest.drop j

def span (low high : ℕ) : List ℕ := List.range' low (high-low)

def twoOptPass (costs : CostMatrices) (n lo : ℕ) (state : Search (List ℕ)) : Search (List ℕ) :=
  (span lo (n-1)).foldl (fun state i =>
    (span (i+1) n).foldl (fun state j =>
      state.attempt costs.routeCost (reverseSegment state.value i j)) state) state

/-- Moves of all chunks of one size, taken from the route at the start of the inner loop. -/
def orOptSegPass (costs : CostMatrices) (n lo seg : ℕ) (state : Search (List ℕ)) :
    Search (List ℕ) :=
  if n < seg+lo then state
  else
    (span lo (n-seg+1)).foldl (fun state i =>
      let order := state.value
      (span lo (n-seg+1)).foldl (fun state j =>
        if j=i then state else state.attempt costs.routeCost (relocate order seg i j)) state) state

def improvePass (costs : CostMatrices) (n lo : ℕ) (state : Search (List ℕ)) : Search (List ℕ) :=
  [1,2,3].foldl (fun state seg => orOptSegPass costs n lo seg state) (twoOptPass costs n lo state)

theorem twoOptPass_progress (costs : CostMatrices) (n lo : ℕ) (state : Search (List ℕ)) :
    Search.Progress costs.routeCost state (twoOptPass costs n lo state) :=
  Search.foldl_progress (fun state _ =>
    Search.foldl_progress (fun state _ => Search.attempt_progress _ state _) _ state) _ state

theorem moveStep_progress (costs : CostMatrices) (order : List ℕ) (seg i : ℕ)
    (state : Search (List ℕ)) (j : ℕ) :
    Search.Progress costs.routeCost state
      (if j=i then state else state.attempt costs.routeCost (relocate order seg i j)) := by
  split_ifs
  · exact .refl _ state
  · exact Search.attempt_progress _ state _

theorem orOptSegPass_progress (costs : CostMatrices) (n lo seg : ℕ) (state : Search (List ℕ)) :
    Search.Progress costs.routeCost state (orOptSegPass costs n lo seg state) := by
  unfold orOptSegPass
  split_ifs
  · exact .refl _ state
  · exact Search.foldl_progress (fun state i =>
      Search.foldl_progress (moveStep_progress costs state.value seg i) _ state) _ state

theorem improvePass_progress (costs : CostMatrices) (n lo : ℕ) (state : Search (List ℕ)) :
    Search.Progress costs.routeCost state (improvePass costs n lo state) :=
  (twoOptPass_progress costs n lo state).trans
    (Search.foldl_progress (fun state seg => orOptSegPass_progress costs n lo seg state) _ _)

/-- Improve a route until a pass finds nothing. A pinned first target stays. -/
def improve (costs : CostMatrices) (pinned : Bool) (order : List ℕ) : List ℕ :=
  (Search.descend costs.routeCost (improvePass costs order.length pinned.toNat)
    (improvePass_progress costs order.length pinned.toNat) ⟨order,costs.routeCost order,false⟩).value

def cheapestFirst (costs : CostMatrices) : ℕ → ℕ
  | 0 => 0
  | n+1 => (List.range' 1 n).foldl (fun best j => if costs.m0 j < costs.m0 best then j else best) 0

def initialRoute (costs : CostMatrices) (n : ℕ) : Objective → List ℕ
  | .minTotalTime => nearestNeighbour costs n none
  | .minTimeToFirst => nearestNeighbour costs n (some (cheapestFirst costs n))

def solve (costs : CostMatrices) (n : ℕ) (objective : Objective) : List ℕ :=
  improve costs (objective=.minTimeToFirst) (initialRoute costs n objective)

def planOrder (costs : CostMatrices) (n : ℕ) (objective : Objective) : List ℕ :=
  match n with
  | 0 => []
  | 1 => [0]
  | _ => solve costs n objective

def assembleHops (costs : CostMatrices) : Option ℕ → List ℕ → List PlannedHop
  | _,[] => []
  | current,index::rest => ⟨index,costs.hopFrom current index⟩::assembleHops costs (some index) rest

structure PlanPositions where
  start : PhysicalPosition
  startUsesEod : Bool
  stop : Option (PhysicalPosition×Bool)
  targets : List (PhysicalPosition×PhysicalPosition)
  anyTargetUsesEod : Bool

def endPosition (input : PlanInput) : Except PlanError (Option (PhysicalPosition×Bool)) :=
  match input.endBlock with
  | none => .ok none
  | some block => some <$> positionOr .endOutOfCoverage (physicalPosition input.map input.geometry block)

def planPositions (input : PlanInput) : Except PlanError PlanPositions := do
  rejectIf (input.geometry.bands=0 ∨ input.geometry.wrapsPerBand=0)
    (.geometryInvalid "zero bands or wraps_per_band")
  rejectIf (input.geometry.wraps < input.map.wrapCount)
    (.mapExceedsGeometry input.map.wrapCount input.geometry.wraps)
  checkTargets 0 input.targets
  let (start,startUsesEod) ← positionOr .startOutOfCoverage
    (physicalPosition input.map input.geometry (input.startBlock.getD 0))
  let stop ← endPosition input
  let (targets,anyTargetUsesEod) ← targetPositions input 0 input.targets
  return ⟨start,startUsesEod,stop,targets,anyTargetUsesEod⟩

def costMatrices (priors : CostPriors) (positions : PlanPositions) : CostMatrices :=
  let starts := fun j => (positions.targets[j]?.map Prod.fst).getD positions.start
  let ends := fun i => (positions.targets[i]?.map Prod.snd).getD positions.start
  { m0 := fun j => hopNs priors positions.start (starts j)
    m := fun i j => hopNs priors (ends i) (starts j)
    term := positions.stop.map fun stop i => hopNs priors (ends i) stop.1 }

/-- Time to the end block behind the last target, or from the start without targets. -/
def terminalNs (priors : CostPriors) (positions : PlanPositions) (costs : CostMatrices)
    (order : List ℕ) : Option ElapsedNs :=
  match positions.stop,order.getLast? with
  | some stop,some last => some (match costs.term with
    | some term => term last
    | none => hopNs priors positions.start stop.1)
  | some stop,none => some (hopNs priors positions.start stop.1)
  | none,_ => none

def plan (input : PlanInput) : Except PlanError Plan := do
  let positions ← planPositions input
  let n := input.targets.length
  let costs := costMatrices input.priors positions
  let order := planOrder costs n input.objective
  let hops := assembleHops costs none order
  let terminal := terminalNs input.priors positions costs order
  let total := (hops.map fun hop => hop.estimatedLocateNs.toNat).sum+(terminal.map UInt64.toNat).getD 0
  let startFeedsAnEstimate := !input.targets.isEmpty || positions.stop.isSome
  return ⟨hops,terminal,saturate total,positions.anyTargetUsesEod ||
    (startFeedsAnEstimate && positions.startUsesEod) || (positions.stop.map Prod.snd).getD false ||
    input.map.completedSpansHighlyDispersed⟩

end Remanence.Order
