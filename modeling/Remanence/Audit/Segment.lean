import Remanence.Audit.Record
import Remanence.Crc64

/-!
# Segment files of the audit log

A segment is a header with its UTC date and the terminal hash of the segment before it, followed
by length-prefixed frames of a payload, a chained hash and a CRC. A torn last frame ends a
segment; anything else that does not check is refused.
-/

namespace Remanence.Audit

open Remanence.Foundation Remanence.Crc64 List FixedBytes

def auditMagic : Bytes := [0x52,0x45,0x4D,0x41,0x55,0x44,0x01]

def auditSchemaVersion : UInt16 := 1

def segmentDateLen : ℕ := 10

def headerWithoutCrcLen : ℕ := auditMagic.length+2+segmentDateLen+32

def headerLen : ℕ := headerWithoutCrcLen+8

def recordHashLen : ℕ := 32

def recordCrcLen : ℕ := 8

def recordTrailerLen : ℕ := recordHashLen+recordCrcLen

def maxRecordLen : ℕ := 64*1024*1024

theorem maxRecordLen_lt : maxRecordLen < 2^32 := by decide

def isLeapYear (year : ℕ) : Bool := (year%4=0 ∧ year%100≠0) ∨ year%400=0

def daysInMonth (year month : ℕ) : ℕ :=
  match month with
  | 1 | 3 | 5 | 7 | 8 | 10 | 12 => 31
  | 4 | 6 | 9 | 11 => 30
  | 2 => if isLeapYear year then 29 else 28
  | _ => 0

def isAsciiDigit (b : UInt8) : Bool := 0x30 ≤ b ∧ b ≤ 0x39

def decimalValue (digits : Bytes) : ℕ := digits.foldl (fun n b => 10*n+(b.toNat-0x30)) 0

def hasDateForm (bytes : Bytes) : Bool :=
  bytes.length=10 ∧ bytes.getD 4 0=0x2D ∧ bytes.getD 7 0=0x2D ∧
    bytes.zipIdx.all fun (byte,i) => i=4 ∨ i=7 ∨ isAsciiDigit byte

def validateSegmentDate (segmentDate : String) : Except StateError Unit := do
  let bytes := utf8 segmentDate
  let refusal : StateError := .configInvalid s!"invalid audit segment date {segmentDate}"
  rejectIf (hasDateForm bytes=false) refusal
  let year := decimalValue (slice bytes 0 4)
  let month := decimalValue (slice bytes 5 2)
  let day := decimalValue (slice bytes 8 2)
  rejectIf (¬(1 ≤ month ∧ month ≤ 12) ∨ day=0 ∨ daysInMonth year month < day) refusal

variable {date : String}

theorem length_of_validateSegmentDate (h : validateSegmentDate date=.ok ()) :
    (utf8 date).length=segmentDateLen := by
  simp only [validateSegmentDate,eq_ok,Bool.not_eq_false] at h
  obtain ⟨_,hform,_⟩ := h
  simp only [hasDateForm,decide_eq_true_eq] at hform
  exact hform.1

def headerBody (segmentDate : String) (previousHash : FixedBytes 32) : Bytes :=
  auditMagic++u16Le auditSchemaVersion++utf8 segmentDate++previousHash.bytes

def segmentHeader (segmentDate : String) (previousHash : FixedBytes 32) : Bytes :=
  headerBody segmentDate previousHash++u64Le (crc64Xz (headerBody segmentDate previousHash))

structure SegmentHeader where
  segmentDate : String
  previousSegmentTerminalHash : FixedBytes 32

def fromUtf8 (bytes : Bytes) : Option String := String.fromUTF8? ⟨bytes.toArray⟩

theorem fromUtf8_utf8 (text : String) : fromUtf8 (utf8 text)=some text := by
  have hbytes : (⟨(utf8 text).toArray⟩ : ByteArray)=text.toUTF8 := by
    simp [utf8]
  rw [fromUtf8,hbytes,String.fromUTF8?,String.toUTF8_eq_toByteArray,dif_pos text.isValidUTF8]
  rfl

def readSegmentHeader (contents : Bytes) (path : String) : Except StateError SegmentHeader := do
  rejectIf (contents.length < headerLen) (.ioAt "read audit segment header" path)
  let header := contents.take headerLen
  rejectIf (slice header 0 auditMagic.length≠auditMagic)
    (.auditCorrupt s!"bad audit magic in {path}")
  let version := readU16Le header auditMagic.length
  rejectIf (version≠auditSchemaVersion) (.auditCorrupt s!"unsupported audit schema {version}")
  let storedCrc := readU64Le header headerWithoutCrcLen
  rejectIf (storedCrc≠crc64Xz (header.take headerWithoutCrcLen))
    (.auditCorrupt s!"audit segment header crc mismatch in {path}")
  let segmentDate ← orElseError (fromUtf8 (slice header (auditMagic.length+2) segmentDateLen))
    (.auditCorrupt "bad audit segment date utf8")
  validateSegmentDate segmentDate
  return ⟨segmentDate,FixedBytes.read 32 header (auditMagic.length+2+segmentDateLen)⟩

def recordHash (services : Services) (previousHash : FixedBytes 32) (payload : Bytes) :
    FixedBytes 32 :=
  services.hash.sha256 (previousHash.bytes++payload)

def frameBody (services : Services) (previousHash : FixedBytes 32) (payload : Bytes) : Bytes :=
  u32Le (.ofNat (payload.length+recordTrailerLen))++payload++
    (recordHash services previousHash payload).bytes

def recordFrame (services : Services) (previousHash : FixedBytes 32) (payload : Bytes) : Bytes :=
  frameBody services previousHash payload++u64Le (crc64Xz (frameBody services previousHash payload))

/-- Visitor of replayed records: new state and whether to stop. -/
abbrev Visitor (σ : Type) := σ → AuditRecord → σ×Bool

structure SegmentReplay where
  recordCount : UInt64
  terminalHash : FixedBytes 32
  validLen : ℕ
  lastTimestampUtc : Option String
  stopped : Bool

/-- Read the frames behind a header. `replay` is the outcome if the segment ends at `recordStart`.
-/
def replayRecords {σ : Type} (services : Services) (visitor : Visitor σ) (fileLen : ℕ) :
    ℕ → SegmentReplay → UInt64 → ℕ → Bytes → σ → Except StateError (SegmentReplay×σ)
  | 0,_,_,_,_,_ => .error (.auditCorrupt "audit segment has more frames than bytes")
  | rounds+1,replay,expectedSequence,recordStart,rest,visited => do
    if rest.length < 4 then return (replay,visited)
    let lenBuf := rest.take 4
    let recordLen := ofLeBytes lenBuf
    rejectIf (recordLen < recordTrailerLen ∨ maxRecordLen < recordLen)
      (.auditCorrupt s!"invalid audit record length {recordLen} at offset {recordStart}")
    let recordEnd := recordStart+4+recordLen
    if fileLen < recordEnd then return (replay,visited)
    let body := slice rest 4 recordLen
    let payload := body.take (recordLen-recordTrailerLen)
    let trailer := body.drop (recordLen-recordTrailerLen)
    let storedHash := FixedBytes.read 32 trailer 0
    let storedCrc := readU64Le trailer recordHashLen
    rejectIf (storedCrc≠crc64Xz (lenBuf++payload++storedHash.bytes))
      (.auditCorrupt s!"audit record crc mismatch at offset {recordStart}")
    rejectIf (storedHash≠recordHash services replay.terminalHash payload)
      (.auditCorrupt s!"audit record hash mismatch at offset {recordStart}")
    let record ← decodeRecordCbor services payload
    rejectIf (record.sequence≠expectedSequence)
      (.auditCorrupt ("audit sequence gap: expected "++toString expectedSequence++", got "++
        toString record.sequence))
    let (visited,stop) := visitor visited record
    let replay : SegmentReplay :=
      ⟨replay.recordCount+1,storedHash,recordEnd,some record.timestampUtc,stop⟩
    if stop then return (replay,visited)
    replayRecords services visitor fileLen rounds replay (expectedSequence+1) recordEnd
      (rest.drop (4+recordLen)) visited

def replaySegment {σ : Type} (services : Services) (visitor : Visitor σ) (path expectedDate : String)
    (contents : Bytes) (expectedPreviousHash : Option (FixedBytes 32))
    (firstExpectedSequence : UInt64) (visited : σ) : Except StateError (SegmentReplay×σ) := do
  let header ← readSegmentHeader contents path
  validateSegmentDate expectedDate
  rejectIf (header.segmentDate≠expectedDate) (.auditCorrupt
    ("audit segment date "++header.segmentDate++" does not match filename "++expectedDate))
  match expectedPreviousHash with
  | some expected =>
    rejectIf (header.previousSegmentTerminalHash≠expected)
      (.auditCorrupt s!"segment {path} previous hash does not match chain")
  | none => pure ()
  replayRecords services visitor contents.length (contents.length+1)
    ⟨0,header.previousSegmentTerminalHash,headerLen,none,false⟩ firstExpectedSequence headerLen
    (contents.drop headerLen) visited

theorem length_headerBody (hdate : validateSegmentDate date=.ok ()) (previousHash : FixedBytes 32) :
    (headerBody date previousHash).length=headerWithoutCrcLen := by
  simp [headerBody,headerWithoutCrcLen,length_of_validateSegmentDate hdate,add_assoc]

theorem length_segmentHeader (hdate : validateSegmentDate date=.ok ())
    (previousHash : FixedBytes 32) : (segmentHeader date previousHash).length=headerLen := by
  simp [segmentHeader,headerLen,length_headerBody hdate]

theorem readSegmentHeader_short {contents : Bytes} {path : String}
    (h : contents.length < headerLen) :
    readSegmentHeader contents path=.error (.ioAt "read audit segment header" path) := by
  rw [readSegmentHeader,rejectIf_neg h,error_bind]

theorem readSegmentHeader_segmentHeader (hdate : validateSegmentDate date=.ok ())
    (previousHash : FixedBytes 32) (rest : Bytes) (path : String) :
    readSegmentHeader (segmentHeader date previousHash++rest) path=.ok ⟨date,previousHash⟩ := by
  have hlength := length_segmentHeader hdate previousHash
  have hbody := length_headerBody hdate previousHash
  have hbytes := length_of_validateSegmentDate hdate
  have hshort : ¬(segmentHeader date previousHash++rest).length < headerLen := by
    rw [length_append,hlength]
    omega
  have htake : (segmentHeader date previousHash++rest).take headerLen=
      segmentHeader date previousHash := by
    rw [←hlength,take_left]
  have hmagic : ¬slice (segmentHeader date previousHash) 0 auditMagic.length≠auditMagic := by
    simp [slice,segmentHeader,headerBody]
  have hversion : readU16Le (segmentHeader date previousHash) auditMagic.length=
      auditSchemaVersion := by
    refine readU16Le_of_slice ?_
    simp [slice,segmentHeader,headerBody]
  have hcrc : readU64Le (segmentHeader date previousHash) headerWithoutCrcLen=
      crc64Xz (headerBody date previousHash) := by
    refine readU64Le_of_slice ?_
    rw [slice,segmentHeader,←hbody,drop_left]
    simp
  have htakeBody : (segmentHeader date previousHash).take headerWithoutCrcLen=
      headerBody date previousHash := by
    rw [segmentHeader,←hbody,take_left]
  have hdateBytes : slice (segmentHeader date previousHash) (auditMagic.length+2) segmentDateLen=
      utf8 date := by
    simp [slice,segmentHeader,headerBody,take_append,drop_append,hbytes]
  have hhash : read 32 (segmentHeader date previousHash)
      (auditMagic.length+2+segmentDateLen)=previousHash := by
    have hten := hbytes
    refine read_of_slice ?_
    simp [slice,segmentHeader,headerBody,take_append,drop_append,hten,auditMagic, segmentDateLen]
  simp only [readSegmentHeader,rejectIf_pos hshort,ok_bind,htake,rejectIf_pos hmagic,hversion,hcrc,
    htakeBody,hdateBytes,fromUtf8_utf8,orElseError_some,hdate,hhash]
  simp [rejectIf_pos,pure,Except.pure]

theorem length_recordFrame (services : Services) (previousHash : FixedBytes 32) (payload : Bytes) :
    (recordFrame services previousHash payload).length=4+(payload.length+recordTrailerLen) := by
  simp [recordFrame,frameBody,recordTrailerLen,recordHashLen,recordCrcLen]

theorem take_recordFrame (services : Services) (previousHash : FixedBytes 32)
    (payload rest : Bytes) : (recordFrame services previousHash payload++rest).take 4=
      u32Le (.ofNat (payload.length+recordTrailerLen)) := by
  simp [recordFrame,frameBody]

theorem ofLeBytes_frameLength {payload : Bytes}
    (hlen : payload.length+recordTrailerLen ≤ maxRecordLen) :
    ofLeBytes (u32Le (.ofNat (payload.length+recordTrailerLen)))=
      payload.length+recordTrailerLen := by
  have hlt := hlen.trans_lt maxRecordLen_lt
  rw [u32Le,ofLeBytes_leBytes (UInt32.toNat_lt _),UInt32.toNat_ofNat',Nat.mod_eq_of_lt hlt]

theorem slice_recordFrame (services : Services) (previousHash : FixedBytes 32)
    (payload rest : Bytes) :
    slice (recordFrame services previousHash payload++rest) 4 (payload.length+recordTrailerLen)=
      payload++((recordHash services previousHash payload).bytes++
        u64Le (crc64Xz (frameBody services previousHash payload))) := by
  have hsplit : recordFrame services previousHash payload++rest=
      u32Le (.ofNat (payload.length+recordTrailerLen))++(payload++
        ((recordHash services previousHash payload).bytes++
          u64Le (crc64Xz (frameBody services previousHash payload)))++rest) := by
    rw [recordFrame,frameBody]
    simp only [append_assoc]
  rw [slice,hsplit,←length_u32Le (.ofNat (payload.length+recordTrailerLen)),drop_left]
  refine take_left' ?_
  simp [recordTrailerLen,recordHashLen,recordCrcLen]

structure Stored (services : Services) (payload : Bytes) (record : AuditRecord) : Prop where
  decoded : decodeRecordCbor services payload=.ok record
  fits : payload.length+recordTrailerLen ≤ maxRecordLen

variable {σ : Type} {services : Services} {visitor : Visitor σ} {replay : SegmentReplay}

theorem replayRecords_frame {fileLen rounds : ℕ} {visited : σ} {payload : Bytes}
    {record : AuditRecord} (rest : Bytes) (hstored : Stored services payload record)
    (hspace : replay.validLen+4+(payload.length+recordTrailerLen) ≤ fileLen)
    (hvisit : (visitor visited record).2=false) :
    replayRecords services visitor fileLen (rounds+1) replay record.sequence replay.validLen
        (recordFrame services replay.terminalHash payload++rest) visited=
      replayRecords services visitor fileLen rounds
        ⟨replay.recordCount+1,recordHash services replay.terminalHash payload,
          replay.validLen+4+(payload.length+recordTrailerLen),some record.timestampUtc,false⟩
        (record.sequence+1) (replay.validLen+4+(payload.length+recordTrailerLen)) rest
        (visitor visited record).1 := by
  have hframe := length_recordFrame services replay.terminalHash payload
  have hlong : ¬(recordFrame services replay.terminalHash payload++rest).length < 4 := by
    rw [length_append,hframe]
    omega
  have hrange : ¬(payload.length+recordTrailerLen < recordTrailerLen ∨
      maxRecordLen < payload.length+recordTrailerLen) := by
    have := hstored.fits
    omega
  have hend : ¬fileLen < replay.validLen+4+(payload.length+recordTrailerLen) := by omega
  have hhash : read 32 ((recordHash services replay.terminalHash payload).bytes++
      u64Le (crc64Xz (frameBody services replay.terminalHash payload))) 0=
        recordHash services replay.terminalHash payload := by
    refine read_of_slice ?_
    simp [slice]
  have hcrc : readU64Le ((recordHash services replay.terminalHash payload).bytes++
      u64Le (crc64Xz (frameBody services replay.terminalHash payload))) recordHashLen=
        crc64Xz (frameBody services replay.terminalHash payload) := by
    refine readU64Le_of_slice ?_
    simp [slice,recordHashLen]
  have hcrcOk : ¬crc64Xz (frameBody services replay.terminalHash payload)≠
      crc64Xz (u32Le (.ofNat (payload.length+recordTrailerLen))++payload++
        (recordHash services replay.terminalHash payload).bytes) := not_not.mpr rfl
  have hdrop : (recordFrame services replay.terminalHash payload++rest).drop
      (4+(payload.length+recordTrailerLen))=rest := by
    rw [←hframe,drop_left]
  rw [replayRecords]
  simp only [if_neg hlong,take_recordFrame,ofLeBytes_frameLength hstored.fits,rejectIf_pos hrange,
    ok_bind,if_neg hend,slice_recordFrame,Nat.add_sub_cancel,take_left,drop_left,hhash,hcrc,
    rejectIf_pos hcrcOk,hstored.decoded,hdrop,hvisit]
  simp [rejectIf_pos]

def Torn (services : Services) (tail : Bytes) : Prop :=
  ∃ previousHash payload missing, payload.length+recordTrailerLen ≤ maxRecordLen ∧ missing≠[] ∧
    tail++missing=recordFrame services previousHash payload

theorem torn_nil (services : Services) : Torn services [] := by
  refine ⟨zero 32,[],recordFrame services (zero 32) [],by decide,?_,rfl⟩
  intro h
  have hlength := length_recordFrame services (zero 32) []
  rw [h,length_nil] at hlength
  omega

variable {tail : Bytes}

theorem Torn.frameLength (htorn : Torn services tail) (hlong : ¬tail.length < 4) :
    recordTrailerLen ≤ ofLeBytes (tail.take 4) ∧ ofLeBytes (tail.take 4) ≤ maxRecordLen ∧
      tail.length < 4+ofLeBytes (tail.take 4) := by
  obtain ⟨previousHash,payload,missing,hlen,hmissing,hframe⟩ := htorn
  have htake : tail.take 4=u32Le (.ofNat (payload.length+recordTrailerLen)) := by
    rw [←take_recordFrame services previousHash payload [],append_nil,←hframe,
      take_append_of_le_length (by omega)]
  have hlength := congrArg List.length hframe
  have hpos := length_pos_iff.mpr hmissing
  rw [length_append,length_recordFrame] at hlength
  rw [htake,ofLeBytes_frameLength hlen]
  omega

theorem replayRecords_torn {rounds : ℕ} {sequence : UInt64} {visited : σ}
    (htorn : Torn services tail) :
    replayRecords services visitor (replay.validLen+tail.length) (rounds+1) replay sequence
      replay.validLen tail visited=.ok (replay,visited) := by
  rw [replayRecords]
  by_cases hshort : tail.length < 4
  · rw [if_pos hshort]
    rfl
  · obtain ⟨hleast,hmost,hbehind⟩ := htorn.frameLength hshort
    have hrange : ¬(ofLeBytes (tail.take 4) < recordTrailerLen ∨
        maxRecordLen < ofLeBytes (tail.take 4)) := by omega
    have hend : replay.validLen+tail.length < replay.validLen+4+ofLeBytes (tail.take 4) := by omega
    simp only [if_neg hshort,rejectIf_pos hrange,ok_bind,if_pos hend]
    rfl

def framesOf (services : Services) : FixedBytes 32 → List (Bytes×AuditRecord) → Bytes
  | _,[] => []
  | previousHash,(payload,_)::rest =>
    recordFrame services previousHash payload++
      framesOf services (recordHash services previousHash payload) rest

def hashAfter (services : Services) : FixedBytes 32 → List (Bytes×AuditRecord) → FixedBytes 32
  | previousHash,[] => previousHash
  | previousHash,(payload,_)::rest =>
    hashAfter services (recordHash services previousHash payload) rest

def lastTimestamp (old : Option String) (records : List (Bytes×AuditRecord)) : Option String :=
  (records.getLast?.map fun entry => entry.2.timestampUtc).or old

def SegmentReplay.after (services : Services) (replay : SegmentReplay)
    (records : List (Bytes×AuditRecord)) : SegmentReplay :=
  ⟨replay.recordCount+UInt64.ofNat records.length, hashAfter services replay.terminalHash records,
    replay.validLen+(framesOf services replay.terminalHash records).length,
    lastTimestamp replay.lastTimestampUtc records,replay.stopped⟩

theorem lastTimestamp_cons (old : Option String) (payload : Bytes) (record : AuditRecord)
    (rest : List (Bytes×AuditRecord)) :
    lastTimestamp old ((payload,record)::rest)= lastTimestamp (some record.timestampUtc) rest := by
  cases rest with
  | nil => rfl
  | cons head rest => simp [lastTimestamp,getLast?_cons]

theorem SegmentReplay.after_cons (services : Services) (hstopped : replay.stopped=false)
    (payload : Bytes) (record : AuditRecord) (rest : List (Bytes×AuditRecord)) :
    replay.after services ((payload,record)::rest)=
      (⟨replay.recordCount+1,recordHash services replay.terminalHash payload,
        replay.validLen+4+(payload.length+recordTrailerLen),some record.timestampUtc,false⟩ :
          SegmentReplay).after services rest := by
  simp only [SegmentReplay.after,hashAfter,framesOf,length_cons,length_append,
    length_recordFrame,lastTimestamp_cons,hstopped,add_ofNat_succ,SegmentReplay.mk.injEq,true_and,and_true]
  omega

theorem length_le_length_framesOf (services : Services) (records : List (Bytes×AuditRecord))
    (previousHash) : records.length ≤ (framesOf services previousHash records).length := by
  induction records generalizing previousHash with
  | nil => exact Nat.zero_le _
  | cons head rest ih =>
    have hrest := ih (recordHash services previousHash head.1)
    rw [framesOf,length_append,length_recordFrame,length_cons]
    omega

def Numbered (services : Services) : UInt64 → List (Bytes×AuditRecord) → Prop
  | _,[] => True
  | sequence,(payload,record)::rest =>
    Stored services payload record ∧ record.sequence=sequence ∧ Numbered services (sequence+1) rest

/-- The state a visitor that never stops ends in. -/
def visitAll {σ : Type} (visitor : Visitor σ) (visited : σ) (records : List (Bytes×AuditRecord)) :
    σ :=
  records.foldl (fun visited entry => (visitor visited entry.2).1) visited

theorem replayRecords_framesOf (hvisitor : ∀ visited record, (visitor visited record).2=false)
    (htorn : Torn services tail) (records : List (Bytes×AuditRecord)) (rounds : ℕ)
    (replay : SegmentReplay) (sequence : UInt64) (visited : σ) (hrounds : records.length < rounds)
    (hstopped : replay.stopped=false) (hnumbered : Numbered services sequence records) :
    replayRecords services visitor
      (replay.validLen+(framesOf services replay.terminalHash records++tail).length) rounds replay
      sequence replay.validLen (framesOf services replay.terminalHash records++tail) visited=
        .ok (replay.after services records,visitAll visitor visited records) := by
  induction records generalizing rounds replay sequence visited with
  | nil =>
    obtain ⟨rounds,rfl⟩ : ∃ n, rounds=n+1 := ⟨rounds-1,by simp at hrounds; omega⟩
    have hafter : replay.after services []=replay := by
      simp [SegmentReplay.after,hashAfter,framesOf,lastTimestamp]
    rw [framesOf,nil_append,replayRecords_torn htorn,hafter]
    rfl
  | cons head rest ih =>
    obtain ⟨payload,record⟩ := head
    obtain ⟨hstored,rfl,hrest⟩ := hnumbered
    obtain ⟨rounds,rfl⟩ : ∃ n, rounds=n+1 := ⟨rounds-1,by simp at hrounds; omega⟩
    have hframe := length_recordFrame services replay.terminalHash payload
    rw [framesOf,append_assoc,replayRecords_frame _ hstored
      (by rw [length_append,hframe]; omega) (hvisitor _ _)]
    have hrun := ih rounds ⟨replay.recordCount+1,recordHash services replay.terminalHash payload,
      replay.validLen+4+(payload.length+recordTrailerLen),some record.timestampUtc,false⟩
      (record.sequence+1) (visitor visited record).1 (by simpa using hrounds) rfl hrest
    have hlength : replay.validLen+(recordFrame services replay.terminalHash payload++
        (framesOf services (recordHash services replay.terminalHash payload) rest++tail)).length=
        replay.validLen+4+(payload.length+recordTrailerLen)+
          (framesOf services (recordHash services replay.terminalHash payload) rest++tail).length := by
      rw [length_append,hframe]
      omega
    rw [hlength,hrun,SegmentReplay.after_cons services hstopped]
    rfl

def segmentBytes (services : Services) (date : String) (previousHash : FixedBytes 32)
    (records : List (Bytes×AuditRecord)) (tail : Bytes) : Bytes :=
  segmentHeader date previousHash++(framesOf services previousHash records++tail)

theorem replaySegment_segmentBytes (hvisitor : ∀ visited record, (visitor visited record).2=false)
    (htorn : Torn services tail) (hdate : validateSegmentDate date=.ok ())
    {previousHash : FixedBytes 32} {sequence : UInt64} {records : List (Bytes×AuditRecord)}
    (hnumbered : Numbered services sequence records) (path : String) (visited : σ) :
    replaySegment services visitor path date
        (segmentBytes services date previousHash records tail) (some previousHash) sequence visited=
      .ok ((⟨0,previousHash,headerLen,none,false⟩ : SegmentReplay).after services records,
        visitAll visitor visited records) := by
  have hheader := length_segmentHeader hdate previousHash
  have hdrop : (segmentBytes services date previousHash records tail).drop headerLen=
      framesOf services previousHash records++tail := by
    rw [segmentBytes,←hheader,drop_left]
  have hlength : (segmentBytes services date previousHash records tail).length=
      headerLen+(framesOf services previousHash records++tail).length := by
    rw [segmentBytes,length_append,hheader]
  have hrounds : records.length <
      (segmentBytes services date previousHash records tail).length+1 := by
    have := length_le_length_framesOf services records previousHash
    rw [hlength,length_append]
    omega
  have hrun := replayRecords_framesOf hvisitor htorn records
    ((segmentBytes services date previousHash records tail).length+1)
    ⟨0,previousHash,headerLen,none,false⟩ sequence visited hrounds rfl hnumbered
  have hread : readSegmentHeader (segmentBytes services date previousHash records tail) path=
      .ok ⟨date,previousHash⟩ := readSegmentHeader_segmentHeader hdate previousHash _ path
  simp only [replaySegment,hread,ok_bind,hdate,hdrop]
  simpa [rejectIf_pos,hlength] using hrun

end Remanence.Audit
