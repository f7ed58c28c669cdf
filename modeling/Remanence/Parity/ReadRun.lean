import Remanence.Parity.RawSource

/-!
# Bounded read-ahead

A read run fetches several records with one command, hands them out one by one, and delivers
what ended a batch after the records before it. What would panic in the source code is an
outcome of its own.
-/

namespace Remanence.Parity.Batched

open Foundation

inductive RecordOutcome where
  | block (bytes : ℕ) (positionAfter : PhysicalPositionHint)
  | filemark (positionAfter : PhysicalPositionHint)
  | endOfData (positionAfter : PhysicalPositionHint)
deriving Repr, DecidableEq

structure RawReadBatch where
  recordsRead : ℕ
  positionAfter : Option PhysicalPositionHint
  stop : RawReadEnd
deriving Repr, DecidableEq

/-- Commands of a source with state `σ`. A command that fails may change the state. -/
structure RecordReader (σ : Type) where
  locatePhysical : σ → PhysicalPositionHint → Except ParityError Unit×σ
  readRecord : σ → Bytes → Except ParityError RecordOutcome×Bytes×σ
  readRecords : σ → Bytes → (blockSize maxRecords recordsRemainingInFile : ℕ) → RawReadBatch×Bytes×σ

variable {σ : Type}

def continues (previous : Option PhysicalPositionHint) (positionAfter : PhysicalPositionHint) : Bool :=
  match previous with
  | none => true
  | some previous => previous.partition=positionAfter.partition ∧
    previous.lba.toNat+1=positionAfter.lba.toNat

def readChunks (reader : RecordReader σ) (blockSize : ℕ) :
    ℕ → σ → RawReadBatch → (done rest : Bytes) → RawReadBatch×Bytes×σ
  | 0,state,batch,done,rest => (batch,done++rest,state)
  | count+1,state,batch,done,rest =>
    let (result,block,state) := reader.readRecord state (rest.take blockSize)
    let buf := done++block++rest.drop blockSize
    match result with
    | .ok (.block bytes positionAfter) =>
      if bytes≠blockSize then ({ batch with stop := .wrongLength bytes positionAfter },buf,state)
      else if continues batch.positionAfter positionAfter then
        readChunks reader blockSize count state
          { batch with recordsRead := batch.recordsRead+1, positionAfter := some positionAfter }
          (done++block) (rest.drop blockSize)
      else ({ batch with stop := .error (.invariant "unconfirmed fixed record in batch") },buf,state)
    | .ok (.filemark positionAfter) => ({ batch with stop := .filemark positionAfter },buf,state)
    | .ok (.endOfData positionAfter) => ({ batch with stop := .endOfData positionAfter },buf,state)
    | .error error => ({ batch with stop := .error error },buf,state)

def readRecordsDefault (reader : RecordReader σ) (state : σ) (buf : Bytes)
    (blockSize maxRecords recordsRemainingInFile : ℕ) : RawReadBatch×Bytes×σ :=
  let count := min maxRecords recordsRemainingInFile
  if blockSize=0 ∨ count=0 ∨ buf.length < count*blockSize then
    (⟨0,none,.error (.invariant "invalid raw read batch buffer/count")⟩,buf,state)
  else readChunks reader blockSize count state ⟨0,none,.complete⟩ [] buf

def advance (position : PhysicalPositionHint) (records : ℕ) : PhysicalPositionHint :=
  { position with lba := UInt64.ofNat (position.lba.toNat+records) }

/-- Position behind a reported one. A sum that does not fit is a fault of the device. -/
def devicePositionAfter (position : PhysicalPositionHint) (records : ℕ) (context : String) :
    Except ParityError PhysicalPositionHint :=
  if position.lba.toNat+records < 2^64 then .ok (advance position records)
  else .error (.tapeIo ⟨false,s!"device-reported position {position.lba.toNat} + {records} does not fit in u64 ({context})"⟩)

def defaultTapeIoBatchBlocks : ℕ := 16

structure ReadRun (σ : Type) where
  source : σ
  blockSize : ℕ
  remaining : ℕ
  next : Option PhysicalPositionHint
  located : Bool
  single : Bool
  buffer : Bytes
  consumed : ℕ
  valid : ℕ
  pendingEnd : Option RawReadEnd
  pendingData : Bytes

def ReadRun.new (source : σ) (blockSize records : ℕ) : ReadRun σ where
  source := source
  blockSize := blockSize
  remaining := records
  next := none
  located := false
  single := false
  buffer := []
  consumed := 0
  valid := 0
  pendingEnd := none
  pendingData := []

/-- What the source code does not return from. -/
inductive RunPanic where
  | unreadPrefetch
  | sliceBounds
  | remainingUnderflow
  | unreachableEnd
deriving Repr, DecidableEq

def ReadRun.afterHeader (run : ReadRun σ) (remaining : ℕ) : Except RunPanic (ReadRun σ) :=
  if run.consumed=run.valid then .ok { run with remaining := remaining } else .error .unreadPrefetch

def ReadRun.continueAt (run : ReadRun σ) (next : Option PhysicalPositionHint) : ReadRun σ :=
  { run with next := next, located := next.isSome }

def ReadRun.abandon (run : ReadRun σ) : ReadRun σ :=
  { run with valid := 0, consumed := 0, pendingEnd := none, pendingData := [], next := none,
             located := false }

/-- Position to a coordinate, unless the run is already there. -/
def ReadRun.locatePhysical (reader : RecordReader σ) (run : ReadRun σ) (hint : PhysicalPositionHint) :
    Except ParityError Unit×ReadRun σ :=
  if run.next=some hint then (.ok (),run)
  else
    let (result,source) := reader.locatePhysical run.source hint
    match result with
    | .ok () => (.ok (),{ run.abandon with source := source, next := some hint, located := true })
    | .error error => (.error error,{ run.abandon with source := source })

/-- Position the source for a fetch, if it is not there. -/
def ReadRun.ensureLocated (reader : RecordReader σ) (run : ReadRun σ)
    (position : PhysicalPositionHint) : Except ParityError Unit×ReadRun σ :=
  if run.located then (.ok (),run)
  else
    let (result,source) := reader.locatePhysical run.source position
    match result with
    | .ok () => (.ok (),{ run with source := source, located := true })
    | .error error => (.error error,{ run with source := source })

def confirmedRecords (position : PhysicalPositionHint) (count : ℕ) (batch : RawReadBatch) :
    Except ParityError ℕ :=
  if batch.recordsRead ≤ count then
    match devicePositionAfter position batch.recordsRead "read run batch" with
    | .ok expected => .ok (if batch.positionAfter=some expected then batch.recordsRead else 0)
    | .error error => .error error
  else .ok 0

def terminalBytes (blockSize : ℕ) : RawReadEnd → ℕ
  | .wrongLength bytes _ => min bytes blockSize
  | _ => 0

def ReadRun.accept (run : ReadRun σ) (count confirmed : ℕ) (batch : RawReadBatch) :
    Except ParityError Unit×ReadRun σ :=
  let run := if confirmed≠count ∨ batch.stop≠.complete then
    { run with single := true, located := false } else run
  if batch.stop≠.complete then
    if confirmed≠batch.recordsRead ∨ confirmed=count then
      (.error (.invariant "invalid terminal batch prefix"),{ run with valid := 0, next := none })
    else
      (.ok (),{ run with
        pendingData := run.pendingData++
          slice run.buffer (confirmed*run.blockSize) (terminalBytes run.blockSize batch.stop)
        pendingEnd := some batch.stop
        valid := confirmed*run.blockSize })
  else (.ok (),{ run with valid := confirmed*run.blockSize })

def ReadRun.fetch (reader : RecordReader σ) (run : ReadRun σ) (position : PhysicalPositionHint) :
    Except ParityError Unit×ReadRun σ :=
  let count := min run.remaining defaultTapeIoBatchBlocks
  let fillBytes := count*run.blockSize
  let buffer := run.buffer++List.replicate (fillBytes-run.buffer.length) 0
  let (batch,filled,source) := reader.readRecords run.source (buffer.take fillBytes) run.blockSize count
    count
  let run := { run with buffer := filled++buffer.drop fillBytes, source := source }
  match confirmedRecords position count batch with
  | .error error => (.error error,run)
  | .ok confirmed => run.accept count confirmed batch

/-- Refill an empty run, by a batch if more than one record is left. -/
def ReadRun.refill (reader : RecordReader σ) (run : ReadRun σ) (position : PhysicalPositionHint)
    (bufLength : ℕ) : Except ParityError Unit×ReadRun σ :=
  if run.consumed=run.valid ∧ run.pendingEnd=none then
    match ReadRun.ensureLocated reader { run with valid := 0, consumed := 0 } position with
    | (.error error,run) => (.error error,run)
    | (.ok (),run) =>
      if run.single=false ∧ 1 < run.remaining ∧ bufLength=run.blockSize then run.fetch reader position
      else (.ok (),run)
  else (.ok (),run)

def ReadRun.deliver (run : ReadRun σ) (position : PhysicalPositionHint) (buf : Bytes) :
    Except RunPanic (Except ParityError RecordOutcome×Bytes×ReadRun σ) :=
  if run.valid < run.consumed+buf.length ∨ run.buffer.length < run.valid then .error .sliceBounds
  else if run.remaining=0 then .error .remainingUnderflow
  else
    let bytes := slice run.buffer run.consumed buf.length
    let run := { run with consumed := run.consumed+buf.length, remaining := run.remaining-1 }
    match devicePositionAfter position 1 "read run delivery" with
    | .error error => .ok (.error error,bytes,run)
    | .ok positionAfter =>
      .ok (.ok (.block buf.length positionAfter),bytes,{ run with next := some positionAfter })

def ReadRun.deliverEnd (run : ReadRun σ) (stop : RawReadEnd) (buf : Bytes) :
    Except RunPanic (Except ParityError RecordOutcome×Bytes×ReadRun σ) :=
  let run := { run with pendingEnd := none, remaining := run.remaining-1, next := none,
                        located := false }
  match stop with
  | .error error => .ok (.error error,buf,run)
  | .filemark positionAfter => .ok (.ok (.filemark positionAfter),buf,run)
  | .endOfData positionAfter => .ok (.ok (.endOfData positionAfter),buf,run)
  | .wrongLength bytes positionAfter =>
    let copied := min (min bytes buf.length) run.pendingData.length
    .ok (.ok (.block bytes positionAfter),run.pendingData.take copied++buf.drop copied,
      { run with pendingData := [] })
  | .complete => .error .unreachableEnd

def ReadRun.readSingle (reader : RecordReader σ) (run : ReadRun σ) (buf : Bytes) :
    Except ParityError RecordOutcome×Bytes×ReadRun σ :=
  let (result,bytes,source) := reader.readRecord run.source buf
  let run := { run with source := source, remaining := run.remaining-1, next := none, located := false }
  match result with
  | .ok (.block length positionAfter) =>
    if length=run.blockSize then
      (result,bytes,{ run with next := some positionAfter, located := true })
    else (result,bytes,run)
  | _ => (result,bytes,run)

def ReadRun.readRecord (reader : RecordReader σ) (run : ReadRun σ) (buf : Bytes) :
    Except RunPanic (Except ParityError RecordOutcome×Bytes×ReadRun σ) :=
  match run.next with
  | none => .ok (.error (.invariant "read run requires a locate"),buf,run)
  | some position =>
    match run.refill reader position buf.length with
    | (.error error,run) => .ok (.error error,buf,run)
    | (.ok (),run) =>
      if run.consumed < run.valid then run.deliver position buf
      else match run.pendingEnd with
        | some stop => run.deliverEnd stop buf
        | none =>
          match run.ensureLocated reader position with
          | (.error error,run) => .ok (.error error,buf,run)
          | (.ok (),run) => .ok (run.readSingle reader buf)

end Remanence.Parity.Batched
