import Remanence.Parity.Recovery

/-!
# Raw record sources

The drive commands a reader of committed records uses, over an arbitrary state
of the drive. A forward read returns whole records and the reason it stopped;
how many records it returns is the drive's choice.
-/

namespace Remanence.Parity

open Foundation Recovery

structure PhysicalPositionHint where
  partition : UInt32
  lba : UInt64
deriving Repr, DecidableEq

def PhysicalPositionHint.debug (hint : PhysicalPositionHint) : String :=
  s!"PhysicalPositionHint \x7b lba: {hint.lba.toNat}, partition: {hint.partition.toNat} \x7d"

inductive RawReadOutcome where
  | block (bytes : Bytes)
  | filemark
  | endOfData
deriving Repr, DecidableEq

inductive RawReadEnd where
  | complete
  | filemark (positionAfter : PhysicalPositionHint)
  | endOfData (positionAfter : PhysicalPositionHint)
  | wrongLength (bytes : ℕ) (positionAfter : PhysicalPositionHint)
  | error (error : ParityError)
deriving Repr, DecidableEq

def RawReadEnd.debug : RawReadEnd → String
  | .complete => "Complete"
  | .filemark position => s!"Filemark \x7b position_after: {position.debug} \x7d"
  | .endOfData position => s!"EndOfData \x7b position_after: {position.debug} \x7d"
  | .wrongLength bytes position =>
    s!"WrongLength \x7b bytes: {bytes}, position_after: {position.debug} \x7d"
  | .error cause => s!"Error({cause.display})"

structure RawForwardReadBatch where
  records : List Bytes
  stop : RawReadEnd
  /-- A filemark was reported without a usable record count. -/
  unconfirmedBoundary : Bool
deriving Repr, DecidableEq

/-- Commands of a drive whose state is `σ`, and the classes of its faults. -/
structure RawTapeSource (σ : Type) where
  locatePhysical : σ → PhysicalPositionHint → Except ParityError σ
  readRecord : σ → ℕ → Except ParityError (RawReadOutcome×σ)
  readForwardRecords : σ → (blockSize count : ℕ) → RawForwardReadBatch×σ
  isEndOfData : TapeFault → Bool
  isLengthRefusal : TapeFault → Bool
  overLength : TapeFault → Option ℕ

/-- The drive serves the tape's blocks from where it stands: a read returns at least one, however
many it chooses. -/
structure RawTapeSource.Serves {σ : Type} (source : RawTapeSource σ) (tape : Tape) (blockSize : ℕ)
    (position : σ → ℕ) : Prop where
  locate : ∀ state hint bytes, tape hint.lba.toNat=.record bytes → bytes.length=blockSize →
    ∃ next, source.locatePhysical state hint=.ok next ∧ position next=hint.lba.toNat
  record : ∀ state bytes, tape (position state)=.record bytes → bytes.length=blockSize →
    ∃ next, source.readRecord state blockSize=.ok (.block bytes,next) ∧
      position next=position state+1
  forward : ∀ state count (blockAt : ℕ → Bytes), 0 < count →
    (∀ i < count, tape (position state+i)=.record (blockAt i) ∧ (blockAt i).length=blockSize) →
    ∃ n next, 0 < n ∧ n ≤ count ∧ position next=position state+n ∧
      source.readForwardRecords state blockSize count=
        (⟨(List.range n).map blockAt,.complete,false⟩,next)

end Remanence.Parity
