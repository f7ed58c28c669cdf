import Remanence.Crc64
import Remanence.TapeLog.Wire
import Mathlib.Data.FinEnum

/-!
# The frame codec

A frame is a fixed start, the structural bytes and the payload, each with its CRC. The decoder
classifies a suffix that is no frame: cut short or zero-filled at the end is a torn tail,
anything else is refused.
-/

namespace Remanence.TapeLog

open Foundation Parity Crc64

inductive TornKind where
  | shortPrefix
  /-- The end interrupts the body of a frame with an intact start. -/
  | shortBody
  | zeroFilled
  /-- Complete provisional records without a closing record. -/
  | unclosedGroup (zeroFilledAt : Option UInt64)
deriving Repr, DecidableEq

inductive Tail where
  | complete
  | torn (offset : UInt64) (kind : TornKind)
deriving Repr, DecidableEq

structure Frame where
  offset : UInt64
  stop : UInt64
  sequence : UInt64
  record : Record
  payload : Bytes
  prefixFields : Bytes
  structural : Bytes
  payloadValidated : Bool
deriving DecidableEq

def prefixBytes (version : UInt16) (tag : Tag) (s p : UInt32) (sequence : UInt64) : Bytes :=
  u16Le version++u16Le tag.code++u32Le s++u32Le p++u64Le sequence

def withCrc (bytes : Bytes) : Bytes := bytes++u64Le (crc64Xz bytes)

def encodeFrame (sequence : UInt64) (record : Record) (payload : Bytes) : Except Fault Bytes := do
  rejectIf (payload.length > maxFrameBody) .frameTooLarge
  let structural ← orElseError (encode record) (.invalid "CBOR encode schema")
  rejectIf (structural.length > maxFrameBody-payload.length) .frameTooLarge
  return withCrc (prefixBytes version record.tag (UInt32.ofNat structural.length)
    (UInt32.ofNat payload.length) sequence)++withCrc structural++withCrc payload

def validPrefix (bytes : Bytes) : Bool :=
  bytes.length=prefixLen && slice bytes 0 2=u16Le version &&
    (Tag.tryFrom (readU16Le bytes 2)).isOk &&
    (readU32Le bytes 4).toNat+(readU32Le bytes 8).toNat ≤ maxFrameBody &&
    crc64Xz (slice bytes 0 20)=readU64Le bytes 20

/-- What the bytes after a damaged region hold. -/
structure Suffix where
  firstNonzero : Option UInt64
  hasFrame : Bool
deriving Repr, DecidableEq

def firstNonzero (bytes : Bytes) (offset : UInt64) : Option UInt64 :=
  (bytes.findIdx? fun b => b≠0).map fun i => offset+UInt64.ofNat i

def scanSuffix (bytes : Bytes) (offset : UInt64) : Suffix :=
  ⟨firstNonzero bytes offset,bytes.tails.any fun window => validPrefix (window.take prefixLen)⟩

def validateShortPrefix (start : Bytes) (n : ℕ) (expected : UInt64) : Except Fault Unit := do
  rejectIf (start.take (min n 2)≠(u16Le version).take (min n 2)) (.version (readU16Le start 0))
  if n > 2 then
    let tag ← Tag.tryFrom (readU16Le start 2)
    rejectIf tag.reserved (.reservedTag tag)
  rejectIf ((readU32Le start 4).toNat+(readU32Le start 8).toNat > maxFrameBody) .frameTooLarge
  rejectIf (n > 12 ∧ slice start 12 (min n 20-12)≠(u64Le expected).take (min n 20-12))
    (.sequence expected (readU64Le start 12))

/-- Number of bytes up to the last nonzero one. -/
def zeroStart (bytes : Bytes) : ℕ := (bytes.reverse.dropWhile fun b => b=0).length

/-- The zero bytes at the end cover the structural CRC or reach the payload. -/
def zeroExtension (body : Bytes) (s p : ℕ) : Prop :=
  zeroStart body < body.length ∧ (zeroStart body ≤ s ∨
    p > 0 ∧ body.length > s+8 ∧ zeroStart body < s+8+p)

instance (body : Bytes) (s p : ℕ) : Decidable (zeroExtension body s p) :=
  inferInstanceAs (Decidable (_ ∧ _))

def classifyFinalBody (body after : Bytes) (offset : UInt64) (s p : ℕ) (bad : Option Section)
    (short : Bool) : Except Fault TornKind := do
  let bodyStart := offset+UInt64.ofNat prefixLen
  let suffix := scanSuffix after (bodyStart+UInt64.ofNat body.length)
  rejectIf (suffix.hasFrame=true) (.crc (bad.getD .structural))
  if short=false ∧ body.head?=some 0 then
    match firstNonzero body bodyStart with
    | some found => throw (.nonZeroAfterZeros found)
    | none => pure ()
  if zeroExtension body s p then
    match suffix.firstNonzero with
    | some found => throw (.nonZeroAfterZeros found)
    | none => return .zeroFilled
  else match bad with
    | some region => throw (.crc region)
    | none => return .shortBody

/-- Bytes still to be read, their offset and the sequence expected next. -/
structure Decoder where
  rest : Bytes
  offset : UInt64
  expected : UInt64
deriving DecidableEq

def Decoder.new (bytes : Bytes) : Decoder := ⟨bytes,0,1⟩

/-- Outcome of reading once: a frame and the decoder after it, or the end. -/
inductive Step where
  | frame (frame : Frame) (next : Decoder)
  | stop (tail : Tail)
deriving DecidableEq

def Decoder.refuse {α : Type} (decoder : Decoder) (sequence : Option UInt64)
    (result : Except Fault α) : Except TapeLogError α :=
  result.mapError fun fault => ⟨decoder.offset,sequence,fault⟩

def Decoder.nonZeroAfterZeros (decoder : Decoder) (start : Bytes) : Fault :=
  .nonZeroAfterZeros ((firstNonzero start decoder.offset).getD decoder.offset)

/-- End of a stream whose next bytes are all zero. -/
def Decoder.zeroTail (decoder : Decoder) (start after : Bytes) : Except Fault Tail := do
  let suffix := scanSuffix after (decoder.offset+UInt64.ofNat start.length)
  rejectIf (suffix.hasFrame=true) (.crc .start)
  match suffix.firstNonzero with
  | some found => throw (.nonZeroAfterZeros found)
  | none => return .torn decoder.offset .zeroFilled

def Decoder.shortTail (decoder : Decoder) (start : Bytes) : Except Fault Tail := do
  rejectIf (start.head?=some 0) (decoder.nonZeroAfterZeros start)
  validateShortPrefix (start++List.replicate (prefixLen-start.length) 0) start.length
    decoder.expected
  return .torn decoder.offset .shortPrefix

def Decoder.badPrefix (decoder : Decoder) (start after : Bytes) : Fault :=
  let suffix := scanSuffix after (decoder.offset+UInt64.ofNat start.length)
  if start.head?=some 0 ∧ suffix.hasFrame=false then decoder.nonZeroAfterZeros start
  else .crc .start

/-- Tag and section lengths of a start whose CRC holds. -/
def Decoder.readPrefix (decoder : Decoder) (start : Bytes) : Except Fault (Tag×ℕ×ℕ) := do
  rejectIf (readU16Le start 0≠version) (.version (readU16Le start 0))
  let tag ← Tag.tryFrom (readU16Le start 2)
  rejectIf tag.reserved (.reservedTag tag)
  rejectIf (readU64Le start 12≠decoder.expected) (.sequence decoder.expected (readU64Le start 12))
  let s := (readU32Le start 4).toNat
  let p := (readU32Le start 8).toNat
  rejectIf (s+p > maxFrameBody) .frameTooLarge
  return (tag,s,p)

def badSection (body : Bytes) (s p : ℕ) : Option Section :=
  if body.length ≥ s+8 ∧ crc64Xz (slice body 0 s)≠readU64Le body s then some .structural
  else if ¬body.length < s+p+16 ∧ crc64Xz (slice body (s+8) p)≠readU64Le body (s+8+p) then
    some .payload
  else none

def Decoder.readBody (decoder : Decoder) (start after : Bytes) (tag : Tag) (s p : ℕ) :
    Except Fault Step := do
  let needed := s+p+16
  let body := after.take needed
  let bad := badSection body s p
  let short := decide (body.length < needed)
  if short=true ∨ bad≠none then
    let kind ← classifyFinalBody body (after.drop needed) decoder.offset s p bad short
    return .stop (.torn decoder.offset kind)
  else
    let record ← decode tag (slice body 0 s)
    let stop ← orElseError (checkedAdd64 decoder.offset (UInt64.ofNat (frameOverhead+s+p)))
      .overflow
    let expected ← orElseError (checkedAdd64 (readU64Le start 12) 1) .overflow
    return .frame ⟨decoder.offset,stop,readU64Le start 12,record,slice body (s+8) p,
      slice start 0 20,slice body 0 s,true⟩ ⟨after.drop needed,stop,expected⟩

def Decoder.nextFrame (decoder : Decoder) : Except TapeLogError Step :=
  let start := decoder.rest.take prefixLen
  let after := decoder.rest.drop prefixLen
  if start=[] then .ok (.stop .complete)
  else if ∀ b ∈ start, b=0 then decoder.refuse none (Step.stop <$> decoder.zeroTail start after)
  else if start.length < prefixLen then
    decoder.refuse none (Step.stop <$> decoder.shortTail start)
  else if crc64Xz (slice start 0 20)≠readU64Le start 20 then
    decoder.refuse none (.error (decoder.badPrefix start after))
  else decoder.refuse (some (readU64Le start 12)) (do
    let (tag,s,p) ← decoder.readPrefix start
    decoder.readBody start after tag s p)

/-- Frames up to the end of a stream, with a bound on their number. -/
def decodeLoop : ℕ → Decoder → Except TapeLogError (List Frame×Tail)
  | 0,decoder => .error ⟨decoder.offset,none,.overflow⟩
  | fuel+1,decoder => do
    match ← decoder.nextFrame with
    | .stop tail => return ([],tail)
    | .frame f next =>
      let (frames,tail) ← decodeLoop fuel next
      return (f::frames,tail)

def decodeFrames (bytes : Bytes) : Except TapeLogError (List Frame×Tail) :=
  decodeLoop (bytes.length+1) (.new bytes)

def classifyFrames (bytes : Bytes) : Except TapeLogError Tail := Prod.snd <$> decodeFrames bytes

end Remanence.TapeLog
