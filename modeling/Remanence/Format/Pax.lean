import Remanence.Format.Model
import Remanence.Foundation.Cbor

/-!
# Extended header records

A record is a line that starts with its own length in decimal. The length of
the length is found by iteration. `REMANENCE.pad` is filled with spaces until
the data behind the header starts at a chunk boundary.
-/

namespace Remanence.Format

open Foundation

abbrev PaxRecords := OrderedMap String String

def padKey : String := "REMANENCE.pad"

/-- Result of checked 64-bit arithmetic. -/
def fitWord (value : ℕ) (message : String) : Except FormatError ℕ :=
  if value < 2^64 then .ok value else .error (.layout message)

def decimalDigits (value : ℕ) : ℕ :=
  if value < 10 then 1 else decimalDigits (value/10)+1

def asciiDigits (base value : ℕ) : Bytes :=
  (Nat.toDigits base value).map fun digit => UInt8.ofNat digit.toNat

theorem length_asciiDigits (value : ℕ) : (asciiDigits 10 value).length=decimalDigits value := by
  rw [asciiDigits,List.length_map]
  induction value using Nat.strong_induction_on with
  | _ value ih =>
    rw [decimalDigits]
    split_ifs with hsmall
    · rw [Nat.toDigits_of_lt_base hsmall]
      rfl
    · have hpositive : 0 < value/10 := by omega
      have hsplit := Nat.toDigits_append_toDigits (show 1 < 10 by decide) hpositive
        (Nat.mod_lt value (show 0 < 10 by decide))
      rw [Nat.div_add_mod] at hsplit
      rw [←hsplit,List.length_append,ih (value/10) (by omega),
        Nat.toDigits_of_lt_base (Nat.mod_lt value (show 0 < 10 by decide))]
      rfl

theorem decimalDigits_le_iff {value k : ℕ} (hk : 0 < k) : decimalDigits value ≤ k ↔ value < 10^k := by
  rw [←length_asciiDigits,asciiDigits,List.length_map,
    Nat.length_toDigits_le_iff (show 1 < 10 by decide) hk]

theorem decimalDigits_pos (value : ℕ) : 0 < decimalDigits value := by
  rw [decimalDigits]
  split_ifs <;> omega

theorem decimalDigits_mono {a b : ℕ} (h : a ≤ b) : decimalDigits a ≤ decimalDigits b := by
  rw [decimalDigits_le_iff (decimalDigits_pos b)]
  exact lt_of_le_of_lt h ((decimalDigits_le_iff (decimalDigits_pos b)).mp le_rfl)

theorem decimalDigits_le_twenty {value : ℕ} (h : value < 2^64) : decimalDigits value ≤ 20 := by
  rw [decimalDigits_le_iff (by decide)]
  exact lt_trans h (by decide)

def validateKeyword (key : String) : Except FormatError Unit := do
  rejectIf (key="") (.invalidInput "pax keyword must not be empty")
  rejectIf ('=' ∈ key.toList ∨ '\n' ∈ key.toList ∨ '\x00' ∈ key.toList)
    (.invalidInput "invalid character in pax keyword")
  rejectIf (key.toList.any fun ch => 128 ≤ ch.toNat) (.invalidInput "pax keyword must be ASCII")

def validateValue (value : String) : Except FormatError Unit :=
  rejectIf (∃ byte ∈ utf8 value, byte < 0x20)
    (.invalidInput "pax value must not contain ASCII control characters")

/-- Iteration on the number of digits: the guess grows until it agrees with its length. -/
def paxRecordLenLoop (base digits : ℕ) (hguess : digits ≤ decimalDigits (base+digits)) :
    Except FormatError ℕ :=
  if hfit : base+digits < 2^64 then
    if hnext : decimalDigits (base+digits)=digits then .ok (base+digits)
    else paxRecordLenLoop base (decimalDigits (base+digits)) (decimalDigits_mono (by omega))
  else .error (.layout "pax record length overflow")
termination_by 21-digits
decreasing_by
  have := decimalDigits_le_twenty hfit
  omega

def paxRecordLen (key : String) (valueLen : ℕ) : Except FormatError ℕ := do
  validateKeyword key
  let base ← fitWord ((utf8 key).length+valueLen+3) "pax record length overflow"
  paxRecordLenLoop base (decimalDigits base) (decimalDigits_mono (by omega))

def encodePaxRecord (key value : String) : Except FormatError Bytes := do
  validateKeyword key
  validateValue value
  let len ← paxRecordLen key (utf8 value).length
  let line := asciiDigits 10 len++utf8 " "++utf8 key++utf8 "="++utf8 value++utf8 "\n"
  rejectIf (line.length≠len) (.layout "pax record fixed-point mismatch")
  return line

def encodePaxRecords (records : PaxRecords) : Except FormatError Bytes :=
  records.entries.foldlM (fun out (key,value) => do
    let line ← encodePaxRecord key value
    return out++line) []

def paxRecordsLen (records : PaxRecords) : Except FormatError ℕ :=
  records.entries.foldlM (fun len (key,value) => do
    let line ← paxRecordLen key (utf8 value).length
    fitWord (len+line) "pax records length overflow") 0

def roundUpUsize (value unit : ℕ) : Except FormatError ℕ := do
  rejectIf (unit=0) (.invalidInput "rounding unit must be non-zero")
  if value%unit=0 then return value
  else fitWord (value+(unit-value%unit)) "round-up overflow"

def tarPaddingLen (size : ℕ) : ℕ :=
  if size%tarRecordSize=0 then 0 else tarRecordSize-size%tarRecordSize

def validateChunkSize (chunkSize : ℕ) : Except FormatError Unit := do
  rejectIf (chunkSize=0) (.invalidInput "chunk_size must be non-zero")
  rejectIf (chunkSize%tarRecordSize≠0)
    (.invalidInput "chunk_size must be a positive multiple of 512")

/-- Binary search for the longest pad whose body is not above the target. -/
def maxPadLenLoop (baseLen target lo hi best : ℕ) : Except FormatError ℕ := do
  if hi < lo then return best
  else
    let mid := lo+(hi-lo)/2
    let record ← paxRecordLen padKey mid
    let len ← fitWord (baseLen+record) "pax body length overflow"
    if len ≤ target then maxPadLenLoop baseLen target (mid+1) hi mid
    else if mid=0 then return best
    else maxPadLenLoop baseLen target lo (mid-1) best
termination_by hi+1-lo

def maxPadLenForTarget (baseLen target : ℕ) : Except FormatError ℕ :=
  maxPadLenLoop baseLen target 0 target 0

def alignRounded (chunk residue minRounded : ℕ) : Except FormatError ℕ :=
  if minRounded%chunk=residue then .ok minRounded
  else if minRounded+tarRecordSize < 2^64 then alignRounded chunk residue (minRounded+tarRecordSize)
  else .error (.layout "pax alignment search overflow")
termination_by 2^64-minRounded
decreasing_by
  have : tarRecordSize=512 := rfl
  omega

/-- Pads for one target after the other, at most five. -/
def solveTarget (baseLen chunkSize maxTarget : ℕ) : ℕ → ℕ → Except FormatError ℕ
  | 0,_ => .error (.layout "could not solve REMANENCE.pad alignment within search bound")
  | rounds+1,target => do
    if maxTarget < target then
      .error (.layout "could not solve REMANENCE.pad alignment within search bound")
    else
      let padLen ← maxPadLenForTarget baseLen target
      let record ← paxRecordLen padKey padLen
      let bodyLen ← fitWord (baseLen+record) "pax body length overflow"
      let rounded ← roundUpUsize bodyLen tarRecordSize
      if rounded=target then return padLen
      else
        let next ← fitWord (target+chunkSize) "pax alignment target overflow"
        solveTarget baseLen chunkSize maxTarget rounds next

def withAlignmentPad (offset chunkSize : ℕ) (baseRecords : PaxRecords) :
    Except FormatError PaxRecords := do
  validateChunkSize chunkSize
  rejectIf (offset%tarRecordSize≠0) (.invalidInput "pax alignment offset must be a multiple of 512")
  rejectIf (padKey ∈ baseRecords.keys) (.invalidInput "caller must not pre-populate REMANENCE.pad")
  let baseLen ← paxRecordsLen baseRecords
  let emptyPad ← paxRecordLen padKey 0
  let least ← fitWord (baseLen+emptyPad) "pax body length overflow"
  let searchMin ← roundUpUsize least tarRecordSize
  -- the sum is not checked
  let residue := (chunkSize-((offset+1024)%2^64)%chunkSize)%chunkSize
  let minRounded ← alignRounded chunkSize residue searchMin
  let span ← fitWord (chunkSize*4) "pax alignment search bound overflow"
  let maxTarget ← fitWord (searchMin+span) "pax alignment search bound overflow"
  let padLen ← solveTarget baseLen chunkSize maxTarget 5 minRounded
  return baseRecords.insert padKey (String.ofList (List.replicate padLen ' '))

end Remanence.Format
