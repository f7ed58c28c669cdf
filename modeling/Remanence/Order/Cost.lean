import Remanence.Order.WrapMap

/-!
# Cost of a hop

The time to position the head from one block to another is the sum of a fixed
overhead, the way along the tape, a change of the wrap and a reversal of the
direction, in nanoseconds. Sums saturate at the largest word.
-/

namespace Remanence.Order

abbrev ElapsedNs := UInt64

def ElapsedNs.max : ElapsedNs := UInt64.ofNat (2^64-1)

def saturate (value : ℕ) : ElapsedNs := UInt64.ofNat (min value (2^64-1))

theorem saturate_toNat (value : ℕ) : (saturate value).toNat=min value (2^64-1) := by
  unfold saturate
  rw [UInt64.toNat_ofNat']
  exact Nat.mod_eq_of_lt (by omega)

def ElapsedNs.saturatingAdd (a b : ElapsedNs) : ElapsedNs := saturate (a.toNat+b.toNat)

structure CostPriors where
  fullTraverseNs : ElapsedNs
  meanRepositionNs : ElapsedNs
  wrapTurnaroundNs : ElapsedNs
  wrapStepNs : ElapsedNs
  bandStepNs : ElapsedNs
  fixedOverheadNs : ElapsedNs
deriving DecidableEq, Repr

def publishedPriors : CostPriors where
  fullTraverseNs := 99000000000
  meanRepositionNs := 2500000000
  wrapTurnaroundNs := 1500000000
  wrapStepNs := 300000000
  bandStepNs := 800000000
  fixedOverheadNs := 500000000

structure PhysicalPosition where
  wrapIndex : UInt32
  direction : TapeDirection
  physicalLpos : Ratio
  bandRank : UInt32
deriving DecidableEq, Repr

def longitudinalNs (priors : CostPriors) (fromLpos toLpos : Ratio) : ElapsedNs :=
  match fromLpos.checkedAbsDiff toLpos with
  | none => ElapsedNs.max
  | some delta =>
    match mulDivFloorU128 priors.fullTraverseNs.toNat delta.num.val.toNat delta.den.val.toNat with
    | some ns => saturate ns
    | none => ElapsedNs.max

def wrapRepositionNs (priors : CostPriors) (fromWrap toWrap fromRank toRank : UInt32) : ElapsedNs :=
  if fromWrap=toWrap then 0
  else
    let rankDelta := max fromRank.toNat toRank.toNat-min fromRank.toNat toRank.toNat
    (priors.wrapStepNs.saturatingAdd (saturate (priors.bandStepNs.toNat*rankDelta))).saturatingAdd
      priors.wrapTurnaroundNs

def reversalNs (priors : CostPriors) (source target : TapeDirection) : ElapsedNs :=
  if source=target then 0 else priors.meanRepositionNs

def hopNs (priors : CostPriors) (source target : PhysicalPosition) : ElapsedNs :=
  ((priors.fixedOverheadNs.saturatingAdd
    (longitudinalNs priors source.physicalLpos target.physicalLpos)).saturatingAdd
    (wrapRepositionNs priors source.wrapIndex target.wrapIndex source.bandRank
      target.bandRank)).saturatingAdd
    (reversalNs priors source.direction target.direction)

end Remanence.Order
