import Remanence.Foundation.GaussJordan
import Remanence.Parity.Gf256
import Remanence.Parity.Scheme

/-!
# The `rs-cauchy-gf256-v1` erasure codec

Shards are byte lists. Encoding accumulates generator multiples of each data shard;
reconstruction inverts the matrix of the first `k` surviving rows of `[I ; G]`.
-/

namespace Remanence.Parity.Codec

open Foundation Gf256

abbrev Block := List UInt8

abbrev ByteMatrix := List (List UInt8)

structure ReedSolomonCodec where
  k : ℕ
  m : ℕ
  generator : ByteMatrix
deriving Repr, DecidableEq

def gfInv (value : UInt8) : Except ParityError UInt8 := do
  rejectIf (value=0) (.invariant "attempted GF inverse of zero")
  return gfPow value 254

def seedByte (value : ℕ) (message : String) : Except ParityError UInt8 := do
  rejectIf (value > 255) (.invariant message)
  return UInt8.ofNat value

def cauchyRow (k parityIndex : ℕ) : Except ParityError (List UInt8) := do
  let x ← seedByte (k+parityIndex) "Cauchy X seed exceeds u8"
  (List.range k).mapM fun dataIndex => do
    let y ← seedByte dataIndex "Cauchy Y seed exceeds u8"
    gfInv (x^^^y)

/-- Generator rows `1/((k+j) XOR i)`. -/
def cauchyGenerator (k m : ℕ) : Except ParityError ByteMatrix := do
  let width := k+m
  rejectIf (width > 255) (.invalidScheme s!"k + m = {width} > 255 — GF(2^8) RS limit")
  (List.range m).mapM (cauchyRow k)

def rowAt (matrix : ByteMatrix) (row : ℕ) : List UInt8 := matrix.getD row []

def entry (matrix : ByteMatrix) (row col : ℕ) : UInt8 := (rowAt matrix row).getD col 0

def swapRows (matrix : ByteMatrix) (i j : ℕ) : ByteMatrix :=
  (matrix.set i (rowAt matrix j)).set j (rowAt matrix i)

def identityMatrix (n : ℕ) : ByteMatrix :=
  (List.range n).map fun i => (List.replicate n 0).set i 1

def eliminateRow (col : ℕ) (state : ByteMatrix×ByteMatrix) (row : ℕ) : ByteMatrix×ByteMatrix :=
  if row=col then state
  else
    let factor := entry state.1 row col
    if factor=0 then state
    else (state.1.set row (gfMulSliceXor factor (rowAt state.1 col) (rowAt state.1 row)),
      state.2.set row (gfMulSliceXor factor (rowAt state.2 col) (rowAt state.2 row)))

def scaleRow (matrix : ByteMatrix) (row : ℕ) (factor : UInt8) : ByteMatrix :=
  matrix.set row ((rowAt matrix row).map fun value => gfMul value factor)

/-- Pivot search, row exchange, scaling and the elimination sweep. -/
def eliminateColumn (n : ℕ) (state : ByteMatrix×ByteMatrix) (col : ℕ) :
    Except ParityError (ByteMatrix×ByteMatrix) := do
  let pivot ← orElseError ((List.range' col (n-col)).find? fun row => entry state.1 row col≠0)
    (.invariant "Cauchy decode matrix is singular")
  let swapped :=
    if pivot≠col then (swapRows state.1 pivot col,swapRows state.2 pivot col) else state
  let pivotInv ← gfInv (entry swapped.1 col col)
  let scaled := (scaleRow swapped.1 col pivotInv,scaleRow swapped.2 col pivotInv)
  return (List.range n).foldl (eliminateRow col) scaled

/-- Inverse of a square matrix by Gauss–Jordan elimination. -/
def invertMatrix (matrix : ByteMatrix) : Except ParityError ByteMatrix := do
  let n := matrix.length
  rejectIf (matrix.any fun row => row.length≠n) (.invariant "decode matrix is not square")
  let state ← (List.range n).foldlM (eliminateColumn n) (matrix,identityMatrix n)
  return state.2

/-- Common length of the surviving shards, `none` when nothing survives. -/
def shardLenFrom : Option ℕ → List (Option Block) → Except ParityError (Option ℕ)
  | expected,[] => .ok expected
  | expected,none::rest => shardLenFrom expected rest
  | expected,some shard::rest => do
    rejectIf (shard.isEmpty) (.reedSolomon .emptyShard)
    match expected with
    | some length =>
      rejectIf (shard.length≠length) (.reedSolomon .incorrectShardSize)
      shardLenFrom (some length) rest
    | none => shardLenFrom (some shard.length) rest

def shardLen (shards : List (Option Block)) : Except ParityError (Option ℕ) :=
  shardLenFrom none shards

/-- The first `k` surviving shards with their indices; the scan stops as soon
as it has them. -/
def collectSurvivors (k : ℕ) : ℕ → List (Option Block) → List (ℕ×Block) → List (ℕ×Block)
  | _,[],survivors => survivors
  | index,none::rest,survivors => collectSurvivors k (index+1) rest survivors
  | index,some shard::rest,survivors =>
    let survivors := survivors++[(index,shard)]
    if survivors.length=k then survivors
    else collectSurvivors k (index+1) rest survivors

namespace ReedSolomonCodec

def new (scheme : ParityScheme) : Except ParityError ReedSolomonCodec := do
  let _ ← scheme.validate
  let generator ← cauchyGenerator scheme.k scheme.m
  return ⟨scheme.k,scheme.m,generator⟩

def newParityAccumulators (codec : ReedSolomonCodec) (blockSize : ℕ) : List Block :=
  List.replicate codec.m (List.replicate blockSize 0)

def accumulate (codec : ReedSolomonCodec) (dataIndex : ℕ) (shard : Block) (parity : List Block) :
    Except ParityError (List Block) := do
  rejectIf (dataIndex ≥ codec.k) (.invariant "accumulate: data_index outside 0..k")
  rejectIf (parity.length≠codec.m) (.invariant "accumulate: parity accumulator count != m")
  rejectIf (parity.any fun p => p.length≠shard.length)
    (.invariant "accumulate: accumulator block size mismatch")
  return parity.mapIdx fun parityIndex out =>
    gfMulSliceXor (entry codec.generator parityIndex dataIndex) shard out

def encode (codec : ReedSolomonCodec) (data : List Block) : Except ParityError (List Block) := do
  rejectIf (data.length≠codec.k) (.invariant "encode: data row count != k (stripe accounting bug)")
  let blockSize := (data.head?.map List.length).getD 0
  rejectIf (data.any fun b => b.length≠blockSize)
    (.invariant "encode: data blocks have heterogeneous sizes")
  data.zipIdx.foldlM (fun parity (shard,dataIndex) => codec.accumulate dataIndex shard parity)
    (codec.newParityAccumulators blockSize)

def systematicRow (codec : ReedSolomonCodec) (shardIndex : ℕ) : Except ParityError (List UInt8) :=
  if shardIndex < codec.k then .ok ((List.replicate codec.k 0).set shardIndex 1)
  else orElseError codec.generator[shardIndex-codec.k]?
    (.invariant "systematic parity row outside 0..m")

def combineSurvivors (survivors : List Block) (shardLen : ℕ) (coefficients : List UInt8) : Block :=
  (coefficients.zip survivors).foldl (fun out (coefficient,shard) =>
    gfMulSliceXor coefficient shard out) (List.replicate shardLen 0)

def fillMissing (shards : List (Option Block)) (computed : List Block) : List (Option Block) :=
  List.zipWith (fun shard value => some (shard.getD value)) shards computed

def reconstruct (codec : ReedSolomonCodec) (shards : List (Option Block)) :
    Except ParityError (List (Option Block)) := do
  rejectIf (shards.length≠codec.k+codec.m) (.invariant "reconstruct: shard count != k + m")
  let shardLen ← orElseError (← shardLen shards) (.reedSolomon .tooFewShardsPresent)
  if shards.all Option.isSome then return shards
  let survivors := collectSurvivors codec.k 0 shards []
  rejectIf (survivors.length < codec.k) (.reedSolomon .tooFewShardsPresent)
  let survivorMatrix ← (survivors.map Prod.fst).mapM codec.systematicRow
  let decodeMatrix ← invertMatrix survivorMatrix
  let data := (List.range codec.k).map fun dataIndex =>
    combineSurvivors (survivors.map Prod.snd) shardLen (rowAt decodeMatrix dataIndex)
  let dataShards := fillMissing (shards.take codec.k) data
  let parityShards := shards.drop codec.k
  if parityShards.any Option.isNone then
    let parity ← codec.encode data
    return dataShards++fillMissing parityShards parity
  return dataShards++parityShards

end ReedSolomonCodec

end Remanence.Parity.Codec
