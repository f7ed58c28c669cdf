import Remanence.Order.Rational
import Remanence.Foundation.Checked
import Mathlib.Data.List.Sort

/-!
# The wrap map

The map of a volume is built from the descriptors of its wraps. The last wrap reports the end of
data, which bounds the blocks that can be placed; positions in it use an estimated length.
-/

namespace Remanence.Order

open Foundation

structure ReowpDescriptor where
  partition : UInt32
  wrapNumber : UInt32
  /-- Last block of a completed wrap, or the end of data. -/
  endLoi : UInt64
deriving DecidableEq, Repr

inductive EodDenominatorBasis where
  | medianCompletedWrap
  | eodObservedSpan
deriving DecidableEq, Repr

structure EodDenominator where
  spanLba : UInt64
  basis : EodDenominatorBasis
  completedSpanSampleCount : UInt32
deriving DecidableEq, Repr

inductive TapeDirection where
  | forward
  | reverse
deriving DecidableEq, Repr

inductive WrapMapError where
  | noPartitionZeroDescriptors
  | firstWrapNotZero (found : UInt32)
  | nonContiguousWrapNumbers (expected found : UInt32)
  | endLoiOverflow (wrap : UInt32)
  | nonPositiveCompletedSpan (wrap : UInt32)
  | nonPositiveEodSpan (eodWrapStart mappedExtentLba : UInt64)
deriving DecidableEq, Repr

structure CoverageError where
  blockLba : UInt64
  mappedExtentLba : UInt64
deriving DecidableEq, Repr

structure BlockPosition where
  wrapIndex : UInt32
  direction : TapeDirection
  physicalLpos : Ratio
  usesEodDenominator : Bool
deriving DecidableEq, Repr

def lowerMedian (values : List UInt64) : Option UInt64 :=
  (values.insertionSort (· ≤ ·))[(values.length-1)/2]?

structure WrapMap where
  descriptors : List ReowpDescriptor
  wrapStarts : List UInt64
  completedSpans : List UInt64
  mappedExtentLba : UInt64
  eodDenominator : EodDenominator
deriving DecidableEq, Repr

def checkWrapNumbers : ℕ → List ReowpDescriptor → Except WrapMapError Unit
  | _,[] => return ()
  | index,d::rest => do
    rejectIf (d.wrapNumber≠UInt32.ofNat index) (if index=0 then .firstWrapNotZero d.wrapNumber
      else .nonContiguousWrapNumbers (UInt32.ofNat index) d.wrapNumber)
    checkWrapNumbers (index+1) rest

def completedWraps : ℕ → UInt64 → List ReowpDescriptor → Except WrapMapError (List UInt64×List UInt64)
  | _,_,[] => return ([],[])
  | wrap,start,d::rest => do
    rejectIf (d.endLoi=UInt64.ofNat (2^64-1)) (.endLoiOverflow (UInt32.ofNat wrap))
    let nextStart := d.endLoi+1
    rejectIf (d.endLoi < start) (.nonPositiveCompletedSpan (UInt32.ofNat wrap))
    let (starts,spans) ← completedWraps (wrap+1) nextStart rest
    return (nextStart::starts,(nextStart-start)::spans)

def eodDenominatorOf (completedSpans : List UInt64) (eodWrapStart mappedExtentLba : UInt64) :
    EodDenominator :=
  match lowerMedian completedSpans with
  | none => ⟨mappedExtentLba-eodWrapStart,.eodObservedSpan,0⟩
  | some median => ⟨median,.medianCompletedWrap,UInt32.ofNat completedSpans.length⟩

def WrapMap.fromDescriptors (descriptors : List ReowpDescriptor) : Except WrapMapError WrapMap := do
  let p0 := descriptors.filter fun d => d.partition=0
  match p0.getLast? with
  | none => .error .noPartitionZeroDescriptors
  | some eod =>
    checkWrapNumbers 0 p0
    let (starts,completedSpans) ← completedWraps 0 0 p0.dropLast
    let wrapStarts := 0::starts
    let eodWrapStart := wrapStarts.getLastD 0
    rejectIf (eod.endLoi ≤ eodWrapStart) (.nonPositiveEodSpan eodWrapStart eod.endLoi)
    return ⟨p0,wrapStarts,completedSpans,eod.endLoi,
      eodDenominatorOf completedSpans eodWrapStart eod.endLoi⟩

def WrapMap.wrapCount (map : WrapMap) : UInt32 := UInt32.ofNat map.wrapStarts.length

def WrapMap.eodWrap (map : WrapMap) : UInt32 := UInt32.ofNat (map.wrapStarts.length-1)

def WrapMap.completedSpansHighlyDispersed (map : WrapMap) : Bool :=
  match lowerMedian map.completedSpans with
  | none => false
  | some median =>
    let deviations := map.completedSpans.map fun s => if median ≤ s then s-median else median-s
    match lowerMedian deviations with
    | none => false
    | some mad => 5*median.toNat < 100*mad.toNat

/-- Place of a block, or nothing where the source panics. -/
def WrapMap.place (map : WrapMap) (blockLba : UInt64) : Option BlockPosition := do
  let upper := (map.wrapStarts.takeWhile (· ≤ blockLba)).length
  let wrapIndex := upper-1
  let start ← if upper=0 then none else map.wrapStarts[wrapIndex]?
  let isEod : Bool := wrapIndex=map.eodWrap.toNat
  let denominator ← if isEod then some map.eodDenominator.spanLba else map.completedSpans[wrapIndex]?
  let frac ← Ratio.new (I128.ofWord (blockLba-start)) (I128.ofWord denominator)
  if wrapIndex%2=0 then return ⟨UInt32.ofNat wrapIndex,.forward,frac,isEod⟩
  else
    let lpos ← frac.checkedOneMinus
    return ⟨UInt32.ofNat wrapIndex,.reverse,lpos,isEod⟩

inductive Located where
  | position (value : BlockPosition)
  | uncovered (error : CoverageError)
  | panic
deriving DecidableEq, Repr

def WrapMap.locate (map : WrapMap) (blockLba : UInt64) : Located :=
  if map.mappedExtentLba ≤ blockLba then .uncovered ⟨blockLba,map.mappedExtentLba⟩
  else match map.place blockLba with
    | some position => .position position
    | none => .panic

end Remanence.Order
