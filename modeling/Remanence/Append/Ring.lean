import Remanence.Foundation.Checked
import Mathlib.Algebra.Group.Nat.Defs
import Mathlib.Data.List.Basic
import Mathlib.Data.Nat.Notation
import Mathlib.Logic.Relation

/-!
# The append ring

A receiver fills slabs of fixed size and hands them to the tape side through a bounded channel.
The tape side waits for a high watermark first, and again at or below a low one. Slabs are
modelled by their lengths.
-/

namespace Remanence.Append

open Foundation

inductive AppendStagingMode where
  | serial
  | overlap
deriving DecidableEq, Repr

structure RingSettings where
  ioMemoryCeiling : ℕ
  appendRingBytes : ℕ
  appendStagingMode : AppendStagingMode
  appendOverlapMinBytes : Option ℕ
  appendRingLowPct : ℕ
  appendRingHighPct : ℕ
deriving DecidableEq, Repr

def appendRingSlabBytes : ℕ := 1024*1024

def validateRingSettings (settings : RingSettings) : Except String Unit := do
  rejectIf (settings.appendRingBytes=0) "daemon.append_ring_bytes must be non-zero"
  rejectIf (settings.appendStagingMode=.overlap ∧ settings.ioMemoryCeiling < settings.appendRingBytes)
    "daemon.append_ring_bytes must not exceed daemon.io_memory_ceiling"
  rejectIf (settings.appendOverlapMinBytes.getD settings.appendRingBytes < appendRingSlabBytes)
    (if settings.appendOverlapMinBytes.isSome then
      "daemon.append_overlap_min_bytes must be at least one slab (1 MiB)"
    else "daemon.append_ring_bytes must be at least one slab (1 MiB)")
  rejectIf (settings.appendRingLowPct=0 ∨ settings.appendRingHighPct ≤ settings.appendRingLowPct ∨
    100 < settings.appendRingHighPct) "daemon append ring watermarks require 0 < low < high <= 100"

structure IoMemory where
  ceiling : ℕ
  granted : ℕ
  activeParityDiagnostics : String

structure AppendRing where
  capacityBytes : ℕ
  slabBytes : ℕ
  slabCount : ℕ
  /-- Occupancy that starts and resumes the tape side. -/
  highBytes : ℕ
  /-- Occupancy that pauses the tape side. -/
  lowBytes : ℕ
  declaredSizeBytes : ℕ
deriving DecidableEq, Repr

def wordMax : ℕ := 2^64-1

def watermark (capacityBytes pct : ℕ) : ℕ := min (capacityBytes*pct/100) wordMax

def roundedSize (declaredSizeBytes : ℕ) : ℕ :=
  let slabs := (max declaredSizeBytes 1+(appendRingSlabBytes-1))/appendRingSlabBytes
  min (slabs*appendRingSlabBytes) wordMax

/-- Ring of an object: as many slabs as it needs, bounded by the configured size. -/
def createAppendRing (memory : IoMemory) (capacityBytes highPct lowPct declaredSizeBytes : ℕ) :
    Except String AppendRing := do
  rejectIf (capacityBytes=0) "append ring capacity must be nonzero"
  let capacityBytes := min capacityBytes (roundedSize declaredSizeBytes)
  let available := memory.ceiling-memory.granted
  rejectIf (memory.ceiling < memory.granted+capacityBytes)
    s!"append ring reservation of {capacityBytes} bytes exceeds available io_memory capacity: daemon.io_memory_ceiling={memory.ceiling} bytes, available={available} bytes, held={memory.ceiling-available} bytes by active append rings, spools, restore reservoirs and active parity operations [{memory.activeParityDiagnostics}]"
  let slabBytes := min capacityBytes appendRingSlabBytes
  let slabCount := capacityBytes/slabBytes
  let effectiveCapacity := slabCount*slabBytes
  let highBytes := max (min (watermark effectiveCapacity highPct) declaredSizeBytes) 1
  return {
    capacityBytes := effectiveCapacity
    slabBytes := slabBytes
    slabCount := max slabCount 1
    highBytes := highBytes
    lowBytes := min (watermark effectiveCapacity lowPct) (highBytes-1)
    declaredSizeBytes := declaredSizeBytes }

inductive RingMessage where
  | data (bytes : ℕ)
  | complete
deriving DecidableEq, Repr

inductive ProducerPhase where
  /-- In the loop of a push, or between two pushes. -/
  | ready
  | sending (bytes : ℕ) (last : Bool)
  | acquiring
  | completing
  /-- The completion message is sent, the end not yet recorded. -/
  | closing
  | done
deriving DecidableEq, Repr

inductive TapePhase where
  /-- Waiting for the high watermark before its first read. -/
  | prefill
  | idle
  | reading (output : ℕ)
  /-- Waiting for the high watermark between two reads. -/
  | paused
deriving DecidableEq, Repr

structure RingState where
  freeSlots : ℕ
  channel : List RingMessage
  held : Option ℕ
  /-- Slab the reader takes bytes from, and how many it has taken. -/
  current : Option (ℕ×ℕ)
  complete : Bool
  occupancyBytes : ℕ
  producerFinished : Bool
  producer : ProducerPhase
  tape : TapePhase
  pushed : ℕ
  /-- Bytes of the slabs the reader has given back. -/
  recycled : ℕ
deriving DecidableEq, Repr

def AppendRing.initial (ring : AppendRing) : RingState where
  freeSlots := ring.slabCount
  channel := []
  held := none
  current := none
  complete := false
  occupancyBytes := 0
  producerFinished := false
  producer := .ready
  tape := .prefill
  pushed := 0
  recycled := 0

/-- The tape side may start or go on. -/
def AppendRing.Filled (ring : AppendRing) (state : RingState) : Prop :=
  ring.highBytes ≤ state.occupancyBytes ∨ state.producerFinished=true

def AppendRing.ShouldPause (ring : AppendRing) (state : RingState) : Prop :=
  state.producerFinished=false ∧ state.occupancyBytes ≤ ring.lowBytes

/-- Steps of both sides between the points where they can wait; pieces have any size. -/
inductive RingStep (ring : AppendRing) : RingState → RingState → Prop
  | sendFull {state} (hphase : state.producer=.ready) (hmore : state.pushed < ring.declaredSizeBytes)
      (hheld : state.held=some ring.slabBytes) :
      RingStep ring state { state with held := none, producer := .sending ring.slabBytes false }
  | needSlab {state} (hphase : state.producer=.ready) (hmore : state.pushed < ring.declaredSizeBytes)
      (hheld : state.held=none) : RingStep ring state { state with producer := .acquiring }
  | acquire {state} {free : ℕ} (hphase : state.producer=.acquiring) (hfree : state.freeSlots=free+1) :
      RingStep ring state { state with freeSlots := free, held := some 0, producer := .ready }
  | fill {state} {filled : ℕ} (take : ℕ) (hphase : state.producer=.ready)
      (hheld : state.held=some filled) (hpositive : 0 < take) (hroom : filled+take ≤ ring.slabBytes)
      (hdeclared : state.pushed+take ≤ ring.declaredSizeBytes) :
      RingStep ring state { state with
        held := some (filled+take)
        pushed := state.pushed+take
        occupancyBytes := state.occupancyBytes+take }
  | finishHeld {state} {filled : ℕ} (hphase : state.producer=.ready)
      (hall : state.pushed=ring.declaredSizeBytes) (hheld : state.held=some filled) :
      RingStep ring state { state with held := none, producer := .sending filled true }
  | finishEmpty {state} (hphase : state.producer=.ready)
      (hall : state.pushed=ring.declaredSizeBytes) (hheld : state.held=none) :
      RingStep ring state { state with producer := .completing }
  /-- The channel takes a slab. A push then needs another slab. -/
  | deliver {state} {bytes : ℕ} {last : Bool} (hphase : state.producer=.sending bytes last)
      (hspace : state.channel.length < ring.slabCount) :
      RingStep ring state { state with
        channel := state.channel++[.data bytes]
        producer := if last then .completing else .acquiring }
  | deliverComplete {state} (hphase : state.producer=.completing)
      (hspace : state.channel.length < ring.slabCount) :
      RingStep ring state { state with channel := state.channel++[.complete], producer := .closing }
  | finish {state} (hphase : state.producer=.closing) :
      RingStep ring state { state with producerFinished := true, producer := .done }
  | start {state} (hphase : state.tape=.prefill) (hfilled : ring.Filled state) :
      RingStep ring state { state with tape := .idle }
  | call {state} (output : ℕ) (hphase : state.tape=.idle) (hpositive : 0 < output) :
      RingStep ring state { state with tape := .reading output }
  | take {state} {output bytes offset : ℕ} (hphase : state.tape=.reading output)
      (hcurrent : state.current=some (bytes,offset)) (havailable : offset < bytes) :
      RingStep ring state { state with
        current := some (bytes,offset+min output (bytes-offset))
        occupancyBytes := state.occupancyBytes-min output (bytes-offset)
        tape := .idle }
  /-- A read gives an exhausted slab and its slot back. -/
  | recycle {state} {output bytes offset : ℕ} (hphase : state.tape=.reading output)
      (hcurrent : state.current=some (bytes,offset)) (hexhausted : bytes ≤ offset) :
      RingStep ring state { state with
        current := none
        freeSlots := state.freeSlots+1
        recycled := state.recycled+bytes }
  | receiveData {state} {output bytes : ℕ} {rest : List RingMessage}
      (hphase : state.tape=.reading output) (hcurrent : state.current=none)
      (hopen : state.complete=false) (hchannel : state.channel=.data bytes::rest) :
      RingStep ring state { state with current := some (bytes,0), channel := rest }
  | receiveComplete {state} {output : ℕ} {rest : List RingMessage}
      (hphase : state.tape=.reading output) (hcurrent : state.current=none)
      (hopen : state.complete=false) (hchannel : state.channel=.complete::rest) :
      RingStep ring state { state with complete := true, channel := rest }
  /-- A read behind the completion message returns nothing. -/
  | endOfData {state} {output : ℕ} (hphase : state.tape=.reading output)
      (hcurrent : state.current=none) (hcomplete : state.complete=true) :
      RingStep ring state { state with tape := .idle }
  | pause {state} (hphase : state.tape=.idle) (hlow : ring.ShouldPause state) :
      RingStep ring state { state with tape := .paused }
  | resume {state} (hphase : state.tape=.paused) (hfilled : ring.Filled state) :
      RingStep ring state { state with tape := .idle }

def AppendRing.Reachable (ring : AppendRing) (state : RingState) : Prop :=
  Relation.ReflTransGen (RingStep ring) ring.initial state

def AppendRing.ProducerWaits (ring : AppendRing) (state : RingState) : Prop :=
  match state.producer with
  | .acquiring => state.freeSlots=0
  | .sending _ _ | .completing => ring.slabCount ≤ state.channel.length
  | _ => False

def AppendRing.TapeWaits (ring : AppendRing) (state : RingState) : Prop :=
  (state.tape=.prefill ∨ state.tape=.paused) ∧ ¬ring.Filled state

def AppendRing.Deadlocked (ring : AppendRing) (state : RingState) : Prop :=
  ring.ProducerWaits state ∧ ring.TapeWaits state

end Remanence.Append
