import Remanence.Audit.Log

/-!
# Crash consistency of the audit log

The directory of an open log is a chain of segments with ascending dates; a segment before the
newest may end in the rest of a torn frame. Opening, appending and a cut of the newest segment
behind its header keep this layout. After a cut inside the header the log can no longer be
opened.
-/

namespace Remanence.Audit

open Remanence.Foundation List FixedBytes ReplaySummary UInt64

variable {services : Services}

variable {sequence : UInt64} {records : List (Bytes×AuditRecord)}

theorem framesOf_append (services : Services) (a b : List (Bytes×AuditRecord)) (previousHash) :
    framesOf services previousHash (a++b)=framesOf services previousHash a++
      framesOf services (hashAfter services previousHash a) b := by
  induction a generalizing previousHash with
  | nil => rfl
  | cons head rest ih => rw [cons_append,framesOf,framesOf,hashAfter,ih,append_assoc]

theorem hashAfter_append (services : Services) (a b : List (Bytes×AuditRecord)) (previousHash) :
    hashAfter services previousHash (a++b)=
      hashAfter services (hashAfter services previousHash a) b := by
  induction a generalizing previousHash with
  | nil => rfl
  | cons head rest ih => rw [cons_append,hashAfter,hashAfter,ih]

theorem numbered_append {a b : List (Bytes×AuditRecord)} : Numbered services sequence (a++b) ↔
    Numbered services sequence a ∧ Numbered services (sequence+UInt64.ofNat a.length) b := by
  induction a generalizing sequence with
  | nil => simp [Numbered]
  | cons head rest ih =>
    rw [cons_append,Numbered,Numbered,ih,length_cons,add_ofNat_succ]
    simp only [and_assoc]

theorem Numbered.stored (h : Numbered services sequence records) :
    ∀ entry ∈ records, Stored services entry.1 entry.2 := by
  induction records generalizing sequence with
  | nil => exact forall_mem_nil _
  | cons head rest ih =>
    obtain ⟨hstored,-,hrest⟩ := h
    exact forall_mem_cons.mpr ⟨hstored,ih hrest⟩

/-- Sequence numbers run from one without a gap, as 64-bit numbers. -/
def Gapless (records : List AuditRecord) : Prop :=
  records.map AuditRecord.sequence= (List.range records.length).map fun i => UInt64.ofNat (i+1)

theorem Numbered.sequences {start : ℕ} (h : Numbered services (UInt64.ofNat start) records) :
    records.map (fun entry => entry.2.sequence)=
      (List.range records.length).map fun i => UInt64.ofNat (i+start) := by
  induction records generalizing start with
  | nil => rfl
  | cons head rest ih =>
    obtain ⟨-,hsequence,hrest⟩ := h
    have hnext : ofNat start+1=ofNat (start+1) := by
      rw [ofNat_add]
      rfl
    rw [hnext] at hrest
    rw [map_cons,hsequence,ih hrest,length_cons,range_succ_eq_map,map_cons, map_map,zero_add]
    refine congrArg _ (map_congr_left fun i _ => ?_)
    have hindex : i+(start+1)=i+1+start := by omega
    rw [hindex]
    rfl

namespace AuditDir

def newest (dir : AuditDir) : Option DirEntry := dir.sortedSegments.getLast?

def truncateNewest (dir : AuditDir) (n : ℕ) : AuditDir :=
  match dir.newest with
  | some entry => dir.modify entry.stem (List.take n)
  | none => dir

def withoutNewest (dir : AuditDir) : AuditDir :=
  match dir.newest with
  | some entry =>
    { dir with
      entries := dir.entries.filter fun other =>
        ¬(other.stem=entry.stem ∧ other.extension="remaudit") }
  | none => dir

end AuditDir

structure SegmentData where
  date : String
  records : List (Bytes×AuditRecord)
  tail : Bytes

def recordsOf (segments : List SegmentData) : List (Bytes×AuditRecord) :=
  segments.flatMap SegmentData.records

/-- Files of segments, each linked to the one before. -/
def entriesFrom (services : Services) : FixedBytes 32 → List SegmentData → List DirEntry
  | _,[] => []
  | previousHash,segment::rest =>
    ⟨segment.date,"remaudit",
      segmentBytes services segment.date previousHash segment.records segment.tail⟩::
        entriesFrom services (hashAfter services previousHash segment.records) rest

structure Laid (services : Services) (segments : List SegmentData) : Prop where
  dates : ∀ segment ∈ segments, validateSegmentDate segment.date=.ok ()
  ascending : segments.Pairwise fun a b => a.date < b.date
  tails : ∀ segment ∈ segments, Torn services segment.tail
  numbered : Numbered services 1 (recordsOf segments)

@[simp] theorem recordsOf_nil : recordsOf []=[] := rfl

@[simp] theorem recordsOf_cons (segment : SegmentData) (rest : List SegmentData) :
    recordsOf (segment::rest)=segment.records++recordsOf rest := rfl

@[simp] theorem recordsOf_append (a b : List SegmentData) :
    recordsOf (a++b)=recordsOf a++recordsOf b := flatMap_append

theorem entriesFrom_append (services : Services) (a b : List SegmentData) (previousHash) :
    entriesFrom services previousHash (a++b)=entriesFrom services previousHash a++
      entriesFrom services (hashAfter services previousHash (recordsOf a)) b := by
  induction a generalizing previousHash with
  | nil => rfl
  | cons segment rest ih =>
    rw [cons_append,entriesFrom,entriesFrom,ih,recordsOf_cons,hashAfter_append, cons_append]

variable {segments older : List SegmentData} {newest : SegmentData}

theorem stems_entriesFrom : ∀ {previousHash},
    (entriesFrom services previousHash segments).map DirEntry.stem=segments.map SegmentData.date ∧
      ∀ entry ∈ entriesFrom services previousHash segments, entry.extension="remaudit" := by
  induction segments with
  | nil => exact ⟨rfl,forall_mem_nil _⟩
  | cons segment rest ih =>
    exact ⟨congrArg (segment.date::·) ih.1,forall_mem_cons.mpr ⟨rfl,ih.2⟩⟩

theorem append_lt_append_of_lt {a b : List Char} (h : a < b) : a <+: b ∨ ∀ c d, a++c < b++d := by
  induction h with
  | nil => exact .inl nil_prefix
  | @cons x l m _ ih =>
    rcases ih with hstart | happend
    · exact .inl (cons_prefix_cons.mpr ⟨rfl,hstart⟩)
    · exact .inr fun c d => List.Lex.cons (happend c d)
  | rel hlt => exact .inr fun c d => List.Lex.rel hlt

theorem eq_of_isPrefix_of_length {a b : String} (h : a.toList <+: b.toList)
    (hlength : (utf8 a).length=(utf8 b).length) : a=b := by
  obtain ⟨rest,hrest⟩ := h
  have hsize : ∀ s : String, (utf8 s).length=s.utf8ByteSize := fun s => by simp [utf8]
  have hb : b=a++String.ofList rest := by
    rw [←String.toList_inj,String.toList_append,String.toList_ofList,hrest]
  have hzero : (String.ofList rest).utf8ByteSize=0 := by
    rw [hsize,hsize,hb,String.utf8ByteSize_append] at hlength
    omega
  rw [hb,String.utf8ByteSize_eq_zero_iff.mp hzero,String.append_empty]

theorem fileName_le {a b : DirEntry} (ha : validateSegmentDate a.stem=.ok ())
    (hb : validateSegmentDate b.stem=.ok ()) (h : a.stem < b.stem) : a.fileName ≤ b.fileName := by
  refine le_of_lt ?_
  rw [DirEntry.fileName,DirEntry.fileName,String.lt_iff_toList_lt]
  simp only [String.toList_append,append_assoc]
  rcases append_lt_append_of_lt (String.lt_iff_toList_lt.mp h) with hstart | happend
  · have hlength := (length_of_validateSegmentDate ha).trans (length_of_validateSegmentDate hb).symm
    exact absurd (eq_of_isPrefix_of_length hstart hlength) h.ne
  · exact happend _ _

variable {dir : AuditDir}

theorem sortedSegments_eq (dates : List String) (hstems : dir.entries.map DirEntry.stem=dates)
    (hextension : ∀ entry ∈ dir.entries, entry.extension="remaudit")
    (hdates : ∀ date ∈ dates, validateSegmentDate date=.ok ())
    (hascending : dates.Pairwise (· < ·)) : dir.sortedSegments=dir.entries := by
  subst hstems
  have hfilter : dir.auditSegmentPaths=dir.entries := by
    rw [AuditDir.auditSegmentPaths,filter_eq_self]
    exact fun entry hentry => decide_eq_true (hextension entry hentry)
  rw [AuditDir.sortedSegments,hfilter]
  refine List.Pairwise.insertionSort_eq ((pairwise_map.mp hascending).imp_of_mem ?_)
  intro a b ha hb hlt
  exact fileName_le (hdates _ (mem_map_of_mem ha)) (hdates _ (mem_map_of_mem hb)) hlt

def ReplaySummary.behind (services : Services) (summary : ReplaySummary) (segment : SegmentData) :
    ReplaySummary :=
  ⟨hashAfter services summary.terminalHash segment.records,
    summary.nextSequence+UInt64.ofNat segment.records.length,
    (segment.date,summary.terminalHash)::summary.segmentPrevious,
    (segment.date,summary.nextSequence)::summary.segmentFirstSequence,some segment.date,
    (lastTimestamp none segment.records).or summary.lastTimestampUtc⟩

variable {σ : Type}

variable {visitor : Visitor σ}

theorem replaySegmentsFrom_entriesFrom
    (hvisitor : ∀ visited record, (visitor visited record).2=false) (summary : ReplaySummary)
    (visited : σ) (later : List DirEntry)
    (hdates : ∀ segment ∈ segments, validateSegmentDate segment.date=.ok ())
    (htails : ∀ segment ∈ segments, Torn services segment.tail)
    (hnumbered : Numbered services summary.nextSequence (recordsOf segments)) :
    replaySegmentsFrom services visitor dir
        (entriesFrom services summary.terminalHash segments++later) summary visited=
      replaySegmentsFrom services visitor dir later
        (segments.foldl (ReplaySummary.behind services) summary)
        (visitAll visitor visited (recordsOf segments)) := by
  induction segments generalizing summary visited with
  | nil => rfl
  | cons segment rest ih =>
    rw [recordsOf_cons,numbered_append] at hnumbered
    have hdate := hdates segment mem_cons_self
    have hreplay : ∀ path, replaySegment services visitor path segment.date
        (segmentBytes services segment.date summary.terminalHash segment.records segment.tail)
        (some summary.terminalHash) summary.nextSequence visited=_ := fun path =>
      replaySegment_segmentBytes hvisitor (htails segment mem_cons_self) hdate hnumbered.1
        path visited
    rw [entriesFrom,cons_append,replaySegmentsFrom]
    simp only [hdate,ok_bind,hreplay,SegmentReplay.after,Bool.false_eq_true,if_false,zero_add]
    rw [foldl_cons,recordsOf_cons,visitAll,visitAll,foldl_append]
    exact ih (summary.behind services segment) (visitAll visitor visited segment.records)
      (fun s hs => hdates s (mem_cons_of_mem _ hs))
      (fun s hs => htails s (mem_cons_of_mem _ hs)) hnumbered.2

theorem foldl_behind (segments : List SegmentData) (summary : ReplaySummary) :
    (segments.foldl (ReplaySummary.behind services) summary).terminalHash=
        hashAfter services summary.terminalHash (recordsOf segments) ∧
      (segments.foldl (ReplaySummary.behind services) summary).nextSequence=
        summary.nextSequence+UInt64.ofNat (recordsOf segments).length := by
  induction segments generalizing summary with
  | nil => simp [hashAfter]
  | cons segment rest ih =>
    obtain ⟨hhash,hsequence⟩ := ih (summary.behind services segment)
    rw [foldl_cons,hhash,hsequence,recordsOf_cons,hashAfter_append,length_append,
      ofNat_add,←add_assoc]
    exact ⟨rfl,rfl⟩

theorem lastTimestampUtc_foldl_behind {text : String} {summary : ReplaySummary}
    (h : (segments.foldl (ReplaySummary.behind services) summary).lastTimestampUtc=some text) :
    summary.lastTimestampUtc=some text ∨ ∃ entry ∈ recordsOf segments,
      entry.2.timestampUtc=text := by
  induction segments generalizing summary with
  | nil => exact .inl h
  | cons segment rest ih =>
    rcases ih h with hbehind | ⟨entry,hentry,htext⟩
    · cases hlast : segment.records.getLast? with
      | none =>
        refine .inl ?_
        simpa [behind,lastTimestamp,hlast] using hbehind
      | some entry =>
        refine .inr ⟨entry,?_,?_⟩
        · exact mem_append_left _ (mem_of_getLast? hlast)
        · simpa [behind,lastTimestamp,hlast] using hbehind
    · exact .inr ⟨entry,mem_append_right _ hentry,htext⟩

def summaryOf (services : Services) (segments : List SegmentData) : ReplaySummary :=
  segments.foldl (ReplaySummary.behind services) .initial

theorem summaryOf_terminalHash (services : Services) (segments : List SegmentData) :
    (summaryOf services segments).terminalHash=
      hashAfter services (FixedBytes.zero 32) (recordsOf segments) :=
  (foldl_behind segments .initial).1

theorem summaryOf_nextSequence (services : Services) (segments : List SegmentData) :
    (summaryOf services segments).nextSequence=1+UInt64.ofNat (recordsOf segments).length :=
  (foldl_behind segments .initial).2

variable {record : AuditRecord}

theorem Stored.timestamp {payload : Bytes} (h : Stored services payload record) :
    ∃ t, parseTimestampUtc services record.timestampUtc=.ok t := by
  have hdecoded := h.decoded
  simp only [decodeRecordCbor,recordFromCbor,bind_eq_ok] at hdecoded
  obtain ⟨_,-,_,-,text,-,t,htime,hrest⟩ := hdecoded
  have htext : record.timestampUtc=text := by
    obtain ⟨_,-,_,-,_,-,_,-,_,-,_,-,_,-,_,-,_,-,_,-,_,-,_,-,_,-,_,-,_,-,_,-,_,-,_,-,_,-,_,-,_,-,
      hrecord⟩ := hrest
    rw [pure_eq_ok] at hrecord
    rw [←hrecord]
  rw [htext]
  exact ⟨t,htime⟩

/-- A directory whose files are the segments of a log. -/
structure Stores (services : Services) (dir : AuditDir) (segments : List SegmentData) : Prop
    extends Laid services segments where
  entries : dir.entries=entriesFrom services (FixedBytes.zero 32) segments

theorem Stores.sortedSegments (h : Stores services dir segments) :
    dir.sortedSegments=entriesFrom services (FixedBytes.zero 32) segments := by
  rw [←h.entries]
  refine sortedSegments_eq (segments.map SegmentData.date) ?_ ?_ ?_ ?_
  · rw [h.entries,stems_entriesFrom.1]
  · rw [h.entries]
    exact stems_entriesFrom.2
  · exact forall_mem_map.mpr h.dates
  · exact pairwise_map.mpr h.ascending

theorem Stores.replaySegments (hvisitor : ∀ visited record, (visitor visited record).2=false)
    (h : Stores services dir segments) (visited : σ) :
    Audit.replaySegments services visitor dir visited=
      .ok (summaryOf services segments,visitAll visitor visited (recordsOf segments)) := by
  rw [Audit.replaySegments,h.sortedSegments]
  have hrun : replaySegmentsFrom services visitor dir _ .initial visited=_ :=
    replaySegmentsFrom_entriesFrom hvisitor .initial visited [] h.dates h.tails h.numbered
  rwa [append_nil] at hrun

theorem Stores.replaySegmentsSummary (h : Stores services dir segments) :
    Audit.replaySegmentsSummary services dir=.ok (summaryOf services segments) := by
  rw [Audit.replaySegmentsSummary,h.replaySegments fun _ _ => rfl]
  rfl

structure OpenLog (services : Services) (log : FileAuditLog) (older : List SegmentData)
    (newest : SegmentData) : Prop where
  laid : Laid services (older++[newest])
  whole : newest.tail=[]
  entries : log.dir.entries=entriesFrom services (FixedBytes.zero 32) (older++[newest])
  date : log.segmentDate=newest.date
  hash : log.previousRecordHash=
    hashAfter services (FixedBytes.zero 32) (recordsOf (older++[newest]))
  sequence : log.nextSequence=1+UInt64.ofNat (recordsOf (older++[newest])).length

def entryBehind (services : Services) (older : List SegmentData) (segment : SegmentData) :
    DirEntry :=
  ⟨segment.date,"remaudit",segmentBytes services segment.date
    (hashAfter services (FixedBytes.zero 32) (recordsOf older)) segment.records segment.tail⟩

theorem entriesFrom_concat (services : Services) (older : List SegmentData) (newest : SegmentData) :
    entriesFrom services (FixedBytes.zero 32) (older++[newest])=
      entriesFrom services (FixedBytes.zero 32) older++[entryBehind services older newest] := by
  rw [entriesFrom_append]
  rfl

theorem OpenLog.stores {log : FileAuditLog} (h : OpenLog services log older newest) :
    Stores services log.dir (older++[newest]) := ⟨h.laid,h.entries⟩

theorem laid_concat : Laid services (older++[newest]) ↔ Laid services older ∧
    validateSegmentDate newest.date=.ok () ∧ (∀ other ∈ older, other.date < newest.date) ∧
      Torn services newest.tail ∧
      Numbered services (1+UInt64.ofNat (recordsOf older).length) newest.records := by
  have hrecords : recordsOf [newest]=newest.records := append_nil _
  constructor
  · rintro ⟨hdates,hascending,htails,hnumbered⟩
    rw [recordsOf_append,numbered_append,hrecords] at hnumbered
    rw [forall_mem_append,forall_mem_singleton] at hdates htails
    rw [pairwise_append] at hascending
    exact ⟨⟨hdates.1,hascending.1,htails.1,hnumbered.1⟩,hdates.2,
      fun other hother => hascending.2.2 other hother newest (mem_singleton_self _),htails.2,
      hnumbered.2⟩
  · rintro ⟨⟨hdates,hascending,htails,hnumbered⟩,hdate,hnew,htorn,hlast⟩
    refine ⟨?_,pairwise_append.mpr ⟨hascending,pairwise_singleton _ _,?_⟩,?_,?_⟩
    · exact forall_mem_append.mpr ⟨hdates,forall_mem_singleton.mpr hdate⟩
    · exact fun other hother => forall_mem_singleton.mpr (hnew other hother)
    · exact forall_mem_append.mpr ⟨htails,forall_mem_singleton.mpr htorn⟩
    · rw [recordsOf_append,numbered_append,hrecords]
      exact ⟨hnumbered,hlast⟩

variable {previousHash : FixedBytes 32}

theorem stem_ne {date : String} (h : ∀ segment ∈ segments, segment.date < date) :
    ∀ entry ∈ entriesFrom services previousHash segments, entry.stem≠date := by
  intro entry hentry hstem
  have hmem := mem_map_of_mem (f := DirEntry.stem) hentry
  rw [stems_entriesFrom.1,hstem] at hmem
  obtain ⟨segment,hsegment,hdate⟩ := mem_map.mp hmem
  exact (h segment hsegment).ne hdate

theorem find_none {date : String} (h : ∀ segment ∈ segments, segment.date < date) :
    (entriesFrom services previousHash segments).find?
      (fun entry => entry.stem=date ∧ entry.extension="remaudit")=none := by
  rw [find?_eq_none]
  intro entry hentry
  simp [stem_ne h entry hentry]

theorem Stores.find_newest (h : Stores services dir (older++[newest])) :
    dir.find newest.date=some (entryBehind services older newest) := by
  rw [AuditDir.find,h.entries,entriesFrom_concat,find?_append,find_none (laid_concat.mp h.toLaid).2.2.1]
  simp [entryBehind]

theorem Stores.modify_newest (h : Stores services dir (older++[newest])) (f : Bytes → Bytes) :
    (dir.modify newest.date f).entries=entriesFrom services (FixedBytes.zero 32) older++
      [⟨newest.date,"remaudit",f (entryBehind services older newest).contents⟩] := by
  have hkeep : (entriesFrom services (zero 32) older).map (fun entry =>
      if entry.stem=newest.date ∧ entry.extension="remaudit" then
        { entry with contents := f entry.contents }
      else entry)=entriesFrom services (zero 32) older := by
    refine (map_congr_left fun entry hentry => ?_).trans (map_id _)
    exact if_neg fun hsame => stem_ne (laid_concat.mp h.toLaid).2.2.1 entry hentry hsame.1
  rw [AuditDir.modify,h.entries,entriesFrom_concat,map_append,hkeep]
  simp [entryBehind]

theorem setLen_append (a b : Bytes) : setLen a.length (a++b)=a := by
  have hzero : a.length-(a++b).length=0 := by
    rw [length_append]
    omega
  rw [setLen,take_left,hzero,replicate_zero,append_nil]

variable {date : String}

theorem setLen_segmentBytes (hdate : validateSegmentDate date=.ok ()) (previousHash : FixedBytes 32)
    (records : List (Bytes×AuditRecord)) (tail : Bytes) :
    setLen (headerLen+(framesOf services previousHash records).length)
      (segmentBytes services date previousHash records tail)=
        segmentBytes services date previousHash records [] := by
  have hcut := setLen_append (segmentHeader date previousHash++
    framesOf services previousHash records) tail
  rw [length_append,length_segmentHeader hdate,append_assoc] at hcut
  rw [segmentBytes,segmentBytes,append_nil,hcut]

theorem summary_concat (services : Services) (older : List SegmentData) (newest : SegmentData) :
    summaryOf services (older++[newest])=
      ReplaySummary.behind services (summaryOf services older) newest := by
  rw [summaryOf,foldl_append]
  rfl

theorem Laid.mapM_lastTimestamp (hlaid : Laid services segments) :
    ∃ last, (summaryOf services segments).lastTimestampUtc.mapM
      (parseTimestampUtc services)=.ok last := by
  cases hlast : (summaryOf services segments).lastTimestampUtc with
  | none => exact ⟨none,rfl⟩
  | some text =>
    rcases lastTimestampUtc_foldl_behind hlast with hinitial | ⟨entry,hentry,rfl⟩
    · cases hinitial
    · obtain ⟨t,ht⟩ := (hlaid.numbered.stored entry hentry).timestamp
      exact ⟨some t,by simp [ht]⟩

theorem Stores.openForDate_create (h : Stores services dir segments)
    (hdate : validateSegmentDate date=.ok ()) (hnew : ∀ segment ∈ segments, segment.date < date)
    (fsync : Bool) (tolerance : Option Int) :
    ∃ log, openForDate services dir date fsync tolerance=.ok log ∧
      OpenLog services log segments ⟨date,[],[]⟩ := by
  obtain ⟨last,hlast⟩ := h.mapM_lastTimestamp
  have heffective : effectiveSegmentDate
      (summaryOf services segments).latestSegmentDate date=date := by
    rcases segments.eq_nil_or_concat with rfl | ⟨older,newest,rfl⟩
    · rfl
    · have hlt := hnew newest (by simp)
      rw [concat_eq_append,summary_concat]
      simp [effectiveSegmentDate,behind,Option.filter,hlt.not_gt]
  have hfind : dir.find date=none := by rw [AuditDir.find,h.entries,find_none hnew]
  refine ⟨⟨dir.create date (segmentHeader date (summaryOf services segments).terminalHash),date,
    (summaryOf services segments).terminalHash,(summaryOf services segments).nextSequence,last,none,
    tolerance,fsync⟩,?_,?_⟩
  · simp only [openForDate,hdate,ok_bind,h.replaySegmentsSummary,heffective,hlast,hfind]
    rfl
  · refine ⟨laid_concat.mpr ⟨h.toLaid,hdate,hnew,torn_nil services,trivial⟩,rfl,?_,rfl,?_,?_⟩
    · rw [AuditDir.create,h.entries,entriesFrom_concat,summaryOf_terminalHash]
      simp [entryBehind,segmentBytes,framesOf]
    · rw [summaryOf_terminalHash,recordsOf_append]
      simp [recordsOf]
    · rw [summaryOf_nextSequence,recordsOf_append]
      simp [recordsOf]

theorem Stores.openForDate_continue (h : Stores services dir (older++[newest]))
    (hdate : validateSegmentDate date=.ok ()) (hold : date ≤ newest.date) (fsync : Bool)
    (tolerance : Option Int) :
    ∃ log, openForDate services dir date fsync tolerance=.ok log ∧
      OpenLog services log older { newest with tail := [] } := by
  obtain ⟨last,hlast⟩ := h.mapM_lastTimestamp
  obtain ⟨holder,hnewest,hlt,htorn,hnumbered⟩ := laid_concat.mp h.toLaid
  have heffective : effectiveSegmentDate
      (summaryOf services (older++[newest])).latestSegmentDate date=newest.date := by
    rw [summary_concat]
    rcases hold.lt_or_eq with hlt | rfl
    · simp [effectiveSegmentDate,behind,Option.filter,hlt]
    · simp [effectiveSegmentDate,behind,Option.filter]
  have hprevious : (summaryOf services (older++[newest])).previousHashFor newest.date=
        .ok (hashAfter services (zero 32) (recordsOf older)) := by
    rw [summary_concat,previousHashFor]
    simp [behind,summaryOf_terminalHash]
  have hfirst : (summaryOf services (older++[newest])).firstSequenceFor newest.date=
        .ok (1+ofNat (recordsOf older).length) := by
    rw [summary_concat,firstSequenceFor]
    simp [behind,summaryOf_nextSequence]
  have hreplay : ∀ path, replaySegment services discardRecord path newest.date
      (entryBehind services older newest).contents
      (some (hashAfter services (zero 32) (recordsOf older)))
      (1+ofNat (recordsOf older).length) ()=_ := fun path =>
    replaySegment_segmentBytes (fun _ _ => rfl) htorn hnewest hnumbered path ()
  refine ⟨⟨dir.modify newest.date (setLen (headerLen+(framesOf services
    (hashAfter services (zero 32) (recordsOf older)) newest.records).length)),
    newest.date,(summaryOf services (older++[newest])).terminalHash,
    (summaryOf services (older++[newest])).nextSequence,last,none,tolerance,fsync⟩,?_,?_⟩
  · simp only [openForDate,hdate,ok_bind,h.replaySegmentsSummary,heffective,hlast,h.find_newest,
      hprevious,hfirst,hreplay]
    rfl
  · refine ⟨laid_concat.mpr ⟨holder,hnewest,hlt,torn_nil services,hnumbered⟩,rfl,?_,rfl,?_,?_⟩
    · rw [h.modify_newest,entriesFrom_concat]
      simp only [entryBehind,setLen_segmentBytes hnewest]
    · rw [summaryOf_terminalHash,recordsOf_append,recordsOf_append]
      rfl
    · rw [summaryOf_nextSequence,recordsOf_append,recordsOf_append]
      rfl

theorem Stores.openForDate (h : Stores services dir segments)
    (hdate : validateSegmentDate date=.ok ()) (fsync : Bool) (tolerance : Option Int) :
    ∃ log older newest, Audit.openForDate services dir date fsync tolerance=.ok log ∧
      OpenLog services log older newest ∧ recordsOf (older++[newest])=recordsOf segments := by
  have hcreate (hnew : ∀ segment ∈ segments, segment.date < date) :=
    h.openForDate_create hdate hnew fsync tolerance
  rcases segments.eq_nil_or_concat with rfl | ⟨older,newest,hconcat⟩
  · obtain ⟨log,hopen,hlog⟩ := hcreate (by simp)
    exact ⟨log,_,_,hopen,hlog,rfl⟩
  · rw [concat_eq_append] at hconcat
    subst hconcat
    rcases lt_or_ge newest.date date with hlt | hge
    · have hold := (laid_concat.mp h.toLaid).2.2.1
      obtain ⟨log,hopen,hlog⟩ := hcreate (forall_mem_append.mpr
        ⟨fun segment hsegment => (hold segment hsegment).trans hlt,forall_mem_singleton.mpr hlt⟩)
      exact ⟨log,_,_,hopen,hlog,by simp [recordsOf]⟩
    · obtain ⟨log,hopen,hlog⟩ := h.openForDate_continue hdate hge fsync tolerance
      exact ⟨log,_,_,hopen,hlog,by simp [recordsOf]⟩

theorem Stores.of_openForDate (hstores : Stores services dir segments) {fsync : Bool}
    {tolerance : Option Int} {log : FileAuditLog}
    (h : Audit.openForDate services dir date fsync tolerance=.ok log) :
    ∃ older newest, OpenLog services log older newest ∧
      recordsOf (older++[newest])=recordsOf segments := by
  have hdate : validateSegmentDate date=.ok () := by
    rw [Audit.openForDate,bind_eq_ok] at h
    exact h.choose_spec.1
  obtain ⟨log',older,newest,hopened,hopen,hrecords⟩ := hstores.openForDate hdate fsync tolerance
  obtain rfl : log'=log := Except.ok.inj (hopened.symm.trans h)
  exact ⟨older,newest,hopen,hrecords⟩

variable {log log' : FileAuditLog} {observed : Observation}

theorem OpenLog.appendRecord (hlaw : services.Lawful) (hopen : OpenLog services log older newest)
    {event : AuditEventRecord} {uuid : Uuid} {receipt : AuditReceipt}
    (h : log.appendRecord services event uuid observed=.ok (receipt,record,log'))
    (hread : ReadBack services record) :
    ∃ payload, OpenLog services log' older
      { newest with records := newest.records++[(payload,record)] } := by
  simp only [FileAuditLog.appendRecord,eq_ok,Prod.mk.injEq] at h
  obtain ⟨_,hkeys,text,htext,payload,hpayload,_,-,_,hlength,-,rfl,rfl⟩ := h
  have htime := mapError_eq_ok.mp htext
  have hwritten : (log.recordOf services event text uuid observed).Written services :=
    ⟨⟨_,hlaw.timestamp _ _ htime⟩,rfl,hkeys⟩
  have hstored : Stored services payload (log.recordOf services event text uuid observed) :=
    ⟨decodeRecordCbor_canonicalRecordCbor hlaw hwritten hread hpayload,not_lt.mp hlength⟩
  obtain ⟨holder,hdate,hlt,htorn,hnumbered⟩ := laid_concat.mp hopen.laid
  have hrecords : recordsOf (older++[{ newest with
      records := newest.records++[(payload,log.recordOf services event text uuid observed)] }])=
      recordsOf (older++[newest])++[(payload,log.recordOf services event text uuid observed)] := by
    simp [recordsOf]
  have hhash : hashAfter services (zero 32) (recordsOf (older++[newest]))=
      hashAfter services (hashAfter services (zero 32) (recordsOf older))
        newest.records := by
    rw [recordsOf_append,hashAfter_append]
    simp [recordsOf]
  have hnext : 1+ofNat (recordsOf older).length+ofNat newest.records.length=
      log.nextSequence := by
    rw [hopen.sequence,recordsOf_append,length_append,ofNat_add,←add_assoc]
    simp [recordsOf]
  refine ⟨payload,?_,hopen.whole,?_,hopen.date,?_,?_⟩
  · refine laid_concat.mpr ⟨holder,hdate,hlt,htorn,?_⟩
    rw [numbered_append,hnext]
    exact ⟨hnumbered,hstored,rfl,trivial⟩
  · simp only [hopen.date]
    rw [hopen.stores.modify_newest,entriesFrom_concat]
    simp only [entryBehind,hopen.whole,hopen.hash,hhash]
    rw [segmentBytes,segmentBytes,framesOf_append]
    simp [framesOf]
  · rw [hrecords,hashAfter_append,←hopen.hash]
    rfl
  · simp only [hrecords,hopen.sequence,length_append,length_singleton,ofNat_add, ←add_assoc]
    rfl

def Holds (services : Services) (log : FileAuditLog) (records : List AuditRecord) : Prop :=
  ∃ older newest, OpenLog services log older newest ∧
    (recordsOf (older++[newest])).map Prod.snd=records

variable {records : List AuditRecord}

theorem Holds.appendRecord (hlaw : services.Lawful) (hholds : Holds services log records)
    {event : AuditEventRecord} {uuid : Uuid} {receipt : AuditReceipt}
    (h : log.appendRecord services event uuid observed=.ok (receipt,record,log'))
    (hread : ReadBack services record) : Holds services log' (records++[record]) := by
  obtain ⟨older,newest,hopen,rfl⟩ := hholds
  obtain ⟨payload,hopen'⟩ := hopen.appendRecord hlaw h hread
  exact ⟨older,_,hopen',by simp [recordsOf]⟩

theorem Holds.rotateToDate (hholds : Holds services log records)
    (h : log.rotateToDate services date=.ok log') : Holds services log' records := by
  rw [FileAuditLog.rotateToDate] at h
  split_ifs at h with hsame
  · obtain rfl : log=log' := by simpa using h
    exact hholds
  · obtain ⟨older,newest,hopen,hrecords⟩ := hholds
    obtain ⟨older',newest',hopen',hkept⟩ := hopen.stores.of_openForDate h
    exact ⟨older',newest',hopen',by rw [hkept,hrecords]⟩

theorem Holds.emitClockWarning (hlaw : services.Lawful) {warnings : List AuditRecord}
    (hholds : Holds services log records)
    (h : log.emitClockWarningIfNeeded services observed=.ok (warnings,log'))
    (hread : ∀ record ∈ warnings, ReadBack services record) :
    Holds services log' (records++warnings) := by
  rw [FileAuditLog.emitClockWarningIfNeeded,bind_eq_ok] at h
  obtain ⟨warning,-,h⟩ := h
  cases warning with
  | none =>
    obtain ⟨rfl,rfl⟩ : []=warnings ∧ log=log' := by simpa using h
    simpa using hholds
  | some warning =>
    simp only [eq_ok,Prod.mk.injEq] at h
    obtain ⟨⟨receipt,record,next⟩,happend,rfl,rfl⟩ := h
    exact hholds.appendRecord hlaw happend (hread record (by simp))

theorem Holds.appendAll (hlaw : services.Lawful) {inputs : List (AuditEventRecord×Observation)}
    {later : List AuditRecord} (hholds : Holds services log records)
    (h : FileAuditLog.appendAll services log inputs=.ok (later,log'))
    (hread : ∀ record ∈ later, ReadBack services record) :
    Holds services log' (records++later) := by
  induction inputs generalizing log records later with
  | nil =>
    obtain ⟨rfl,rfl⟩ : []=later ∧ log=log' := by simpa [FileAuditLog.appendAll] using h
    simpa using hholds
  | cons head rest ih =>
    obtain ⟨event,observed⟩ := head
    simp only [FileAuditLog.appendAll,FileAuditLog.appendWithObservedClockAndRecord,eq_ok,
      Prod.exists,Prod.mk.injEq] at h
    obtain ⟨_,_,_,⟨rotated,hrotate,warnings,warned,hwarn,receipt,record,next,happend,-,rfl,rfl⟩,
      others,last,hrest,rfl,rfl⟩ := h
    have hwarned := (hholds.rotateToDate hrotate).emitClockWarning hlaw hwarn
      (fun r hr => hread r (by simp [hr]))
    have hnext := hwarned.appendRecord hlaw happend (hread record (by simp))
    have hlast := ih hnext hrest (fun r hr => hread r (by simp [hr]))
    simpa using hlast

theorem holds_nil {path : String} {fsync : Bool} {tolerance : Option Int}
    (h : openForDate services ⟨path,[]⟩ date fsync tolerance=.ok log) : Holds services log [] := by
  have hstores : Stores services ⟨path,[]⟩ [] := ⟨⟨by simp,List.Pairwise.nil,by simp,trivial⟩,rfl⟩
  obtain ⟨older,newest,hopen,hrecords⟩ := hstores.of_openForDate h
  exact ⟨older,newest,hopen,by rw [hrecords]; rfl⟩

theorem visitAll_pushRecord (records : List (Bytes×AuditRecord)) (visited) :
    visitAll pushRecord visited records=visited++records.map Prod.snd := by
  induction records generalizing visited with
  | nil => simp [visitAll]
  | cons head rest ih =>
    have hstep : visitAll pushRecord visited (head::rest)=
        visitAll pushRecord (visited++[head.2]) rest := rfl
    rw [hstep,ih]
    simp

theorem Stores.replay (h : Stores services dir segments) :
    Audit.replay services dir=.ok ((recordsOf segments).map Prod.snd) := by
  rw [Audit.replay,h.replaySegments fun _ _ => rfl,ok_bind,visitAll_pushRecord]
  rfl

theorem Holds.replay (hholds : Holds services log records) :
    Audit.replay services log.dir=.ok records ∧ Gapless records := by
  obtain ⟨older,newest,hopen,rfl⟩ := hholds
  refine ⟨hopen.stores.replay,?_⟩
  rw [Gapless,map_map,length_map]
  exact hopen.laid.numbered.sequences

def wholeFrames : ℕ → Bytes → ℕ
  | 0,_ => 0
  | rounds+1,bytes =>
    if bytes.length < 4 then 0
    else
      let len := ofLeBytes (bytes.take 4)
      if bytes.length < 4+len then 0 else 1+wholeFrames rounds (bytes.drop (4+len))

def wholeRecords (dir : AuditDir) : ℕ :=
  match dir.newest with
  | some entry => wholeFrames entry.contents.length (entry.contents.drop headerLen)
  | none => 0

theorem wholeFrames_framesOf {tail : Bytes} (htorn : Torn services tail)
    {records : List (Bytes×AuditRecord)} (previousHash : FixedBytes 32) (rounds : ℕ)
    (hnumbered : Numbered services sequence records) (hrounds : records.length ≤ rounds) :
    wholeFrames rounds (framesOf services previousHash records++tail)=records.length := by
  induction records generalizing sequence previousHash rounds with
  | nil =>
    cases rounds with
    | zero => rfl
    | succ rounds =>
      rw [framesOf,nil_append,wholeFrames]
      by_cases hshort : tail.length < 4
      · rw [if_pos hshort]
        rfl
      · have hend := (htorn.frameLength hshort).2.2
        simp only [if_neg hshort,if_pos hend,length_nil]
  | cons head rest ih =>
    obtain ⟨payload,record⟩ := head
    obtain ⟨hstored,-,hrest⟩ := hnumbered
    obtain ⟨rounds,rfl⟩ : ∃ n, rounds=n+1 := ⟨rounds-1,by simp at hrounds; omega⟩
    have hframe := length_recordFrame services previousHash payload
    rw [framesOf,append_assoc,wholeFrames]
    have hlong : ¬(recordFrame services previousHash payload++
        (framesOf services (recordHash services previousHash payload) rest++tail)).length < 4 := by
      rw [length_append,hframe]
      omega
    have hwhole : ¬(recordFrame services previousHash payload++
        (framesOf services (recordHash services previousHash payload) rest++tail)).length <
          4+(payload.length+recordTrailerLen) := by
      rw [length_append,hframe]
      omega
    have hcount := ih (recordHash services previousHash payload) rounds hrest
      (by simpa using hrounds)
    simp only [if_neg hlong,take_recordFrame,ofLeBytes_frameLength hstored.fits,if_neg hwhole]
    rw [←hframe,drop_left,hcount,length_cons,add_comm]

/-- A cut leaves whole frames and the rest of a torn one. -/
theorem take_framesOf {records : List (Bytes×AuditRecord)} (previousHash : FixedBytes 32) (m : ℕ)
    (hnumbered : Numbered services sequence records) :
    ∃ k tail, (framesOf services previousHash records).take m=
      framesOf services previousHash (records.take k)++tail ∧ Torn services tail := by
  induction records generalizing sequence previousHash m with
  | nil => exact ⟨0,[],by simp [framesOf],torn_nil services⟩
  | cons head rest ih =>
    obtain ⟨payload,record⟩ := head
    obtain ⟨hstored,-,hrest⟩ := hnumbered
    rw [framesOf,take_append]
    by_cases hwhole : (recordFrame services previousHash payload).length ≤ m
    · obtain ⟨k,tail,htake,htorn⟩ := ih (recordHash services previousHash payload)
        (m-(recordFrame services previousHash payload).length) hrest
      refine ⟨k+1,tail,?_,htorn⟩
      rw [take_of_length_le hwhole,htake,take_succ_cons,framesOf,append_assoc]
    · have hzero : m-(recordFrame services previousHash payload).length=0 := by omega
      refine ⟨0,(recordFrame services previousHash payload).take m,?_,previousHash,payload,
        (recordFrame services previousHash payload).drop m,hstored.fits,?_,
        take_append_drop _ _⟩
      · rw [hzero,take_zero,take_zero,append_nil,framesOf,nil_append]
      · intro hnil
        rw [drop_eq_nil_iff] at hnil
        omega

theorem Numbered.take {records : List (Bytes×AuditRecord)}
    (h : Numbered services sequence records) (k : ℕ) :
    Numbered services sequence (records.take k) := by
  rw [←take_append_drop k records,numbered_append] at h
  exact h.1

variable {n : ℕ}

section

variable (h : Stores services dir (older++[newest]))
include h

theorem Stores.newest_eq : dir.newest=some (entryBehind services older newest) := by
  rw [AuditDir.newest,h.sortedSegments,entriesFrom_concat,getLast?_append]
  rfl

theorem Stores.withoutNewest : Stores services dir.withoutNewest older := by
  obtain ⟨holder,-,hlt,-⟩ := laid_concat.mp h.toLaid
  refine ⟨holder,?_⟩
  simp only [AuditDir.withoutNewest,h.newest_eq]
  rw [h.entries,entriesFrom_concat,filter_append]
  have hkeep : (entriesFrom services (zero 32) older).filter (fun other =>
      decide ¬(other.stem=(entryBehind services older newest).stem ∧
        other.extension="remaudit"))=entriesFrom services (zero 32) older := by
    rw [filter_eq_self]
    intro other hother
    exact decide_eq_true fun hsame => stem_ne hlt other hother hsame.1
  rw [hkeep]
  simp [entryBehind]

theorem Stores.truncateNewest_entries (n : ℕ) :
    (dir.truncateNewest n).entries=entriesFrom services (FixedBytes.zero 32) older++
      [⟨newest.date,"remaudit",(entryBehind services older newest).contents.take n⟩] := by
  simp only [AuditDir.truncateNewest,h.newest_eq]
  exact h.modify_newest _

theorem Stores.truncateNewest (hwhole : newest.tail=[]) (hn : headerLen ≤ n) : ∃ k tail,
      Stores services (dir.truncateNewest n) (older++[⟨newest.date,newest.records.take k,tail⟩]) := by
  obtain ⟨holder,hdate,hlt,-,hnumbered⟩ := laid_concat.mp h.toLaid
  obtain ⟨k,tail,htake,htorn⟩ := take_framesOf
    (hashAfter services (zero 32) (recordsOf older)) (n-headerLen) hnumbered
  refine ⟨k,tail,laid_concat.mpr ⟨holder,hdate,hlt,htorn,hnumbered.take k⟩,?_⟩
  have hheader := length_segmentHeader hdate
    (hashAfter services (zero 32) (recordsOf older))
  rw [h.truncateNewest_entries,entriesFrom_concat]
  simp only [entryBehind,segmentBytes,hwhole,append_nil]
  rw [take_append,hheader,htake,take_of_length_le (hheader.trans_le hn)]

end

/-- After a cut inside the header nothing is replayed. -/
theorem replaySegments_short (hvisitor : ∀ visited record, (visitor visited record).2=false)
    (hlaid : Laid services older) (hdate : validateSegmentDate date=.ok ())
    (hnew : ∀ segment ∈ older, segment.date < date) {contents : Bytes}
    (hshort : contents.length < headerLen)
    (hentries : dir.entries=entriesFrom services (FixedBytes.zero 32) older++
      [⟨date,"remaudit",contents⟩]) (visited : σ) :
    replaySegments services visitor dir visited=
      .error (.ioAt "read audit segment header" (dir.pathOf ⟨date,"remaudit",contents⟩)) := by
  have hsorted : dir.sortedSegments=dir.entries := by
    refine sortedSegments_eq (older.map SegmentData.date++[date]) ?_ ?_ ?_ ?_
    · rw [hentries,map_append,stems_entriesFrom.1]
      rfl
    · rw [hentries]
      exact forall_mem_append.mpr ⟨stems_entriesFrom.2,forall_mem_singleton.mpr rfl⟩
    · exact forall_mem_append.mpr ⟨forall_mem_map.mpr hlaid.dates,forall_mem_singleton.mpr hdate⟩
    · refine pairwise_append.mpr ⟨pairwise_map.mpr hlaid.ascending,
        pairwise_singleton _ _,forall_mem_map.mpr fun segment hsegment => ?_⟩
      exact forall_mem_singleton.mpr (hnew segment hsegment)
  have hrun : replaySegmentsFrom services visitor dir _ .initial visited=_ :=
    replaySegmentsFrom_entriesFrom hvisitor .initial visited [⟨date,"remaudit",contents⟩]
      hlaid.dates hlaid.tails hlaid.numbered
  rw [replaySegments,hsorted,hentries]
  refine hrun.trans ?_
  simp only [replaySegmentsFrom,hdate,ok_bind,replaySegment,readSegmentHeader_short hshort,
    error_bind]

/-- A directory survives a cut of its newest segment behind `n` bytes: the log opens for every date
and replays to the first of `records`, numbered from one without a gap, and so does every log
appended afterwards. -/
def CrashConsistent (services : Services) (dir : AuditDir) (records : List AuditRecord) (n : ℕ) :
    Prop :=
  ∃ older, replay services dir.withoutNewest=.ok older ∧
    ∀ date fsync tolerance, validateSegmentDate date=.ok () →
      ∃ log, openForDate services (dir.truncateNewest n) date fsync tolerance=.ok log ∧
        ∃ kept, kept=records.take (older.length+wholeRecords (dir.truncateNewest n)) ∧
          older <+: kept ∧ replay services (dir.truncateNewest n)=.ok kept ∧
          replay services log.dir=.ok kept ∧ Gapless kept ∧
          ∀ inputs later log', FileAuditLog.appendAll services log inputs=.ok (later,log') →
            (∀ record ∈ later, ReadBack services record) →
            replay services log'.dir=.ok (kept++later) ∧ Gapless (kept++later)

theorem crashConsistent_of_le (hlaw : services.Lawful) (hholds : Holds services log records)
    (hn : headerLen ≤ n) : CrashConsistent services log.dir records n := by
  obtain ⟨older,newest,hopen,rfl⟩ := hholds
  obtain ⟨k,tail,hcut⟩ := hopen.stores.truncateNewest hopen.whole hn
  have hwhole : wholeRecords (log.dir.truncateNewest n)=(newest.records.take k).length := by
    obtain ⟨-,hdate,-,htorn,hnumbered⟩ := laid_concat.mp hcut.toLaid
    have hheader := length_segmentHeader hdate
      (hashAfter services (zero 32) (recordsOf older))
    have hlength := length_le_length_framesOf services (newest.records.take k)
      (hashAfter services (zero 32) (recordsOf older))
    simp only [wholeRecords,hcut.newest_eq,entryBehind,segmentBytes]
    rw [←hheader,drop_left]
    refine wholeFrames_framesOf htorn _ _ hnumbered ?_
    rw [length_append,length_append]
    omega
  have hkept : (recordsOf (older++[⟨newest.date,newest.records.take k,tail⟩])).map Prod.snd=
      ((recordsOf (older++[newest])).map Prod.snd).take
        (((recordsOf older).map Prod.snd).length+wholeRecords (log.dir.truncateNewest n)) := by
    have hfirst : (newest.records.map Prod.snd).take (newest.records.take k).length=
        (newest.records.take k).map Prod.snd := by
      rw [map_take,take_eq_take_iff,length_take,length_map]
      omega
    rw [hwhole,recordsOf_append,recordsOf_append,map_append,map_append, take_length_add_append]
    simp only [recordsOf_cons,recordsOf_nil,append_nil,hfirst]
  refine ⟨_,hopen.stores.withoutNewest.replay,?_⟩
  intro date fsync tolerance hdate
  obtain ⟨log',older',newest',hopened,hopen',hrecords⟩ :=
    hcut.openForDate hdate fsync tolerance
  have hholds' : Holds services log' ((recordsOf (older++
      [⟨newest.date,newest.records.take k,tail⟩])).map Prod.snd) :=
    ⟨older',newest',hopen',by rw [hrecords]⟩
  refine ⟨log',hopened,_,hkept,?_,hcut.replay,hholds'.replay.1,hholds'.replay.2,?_⟩
  · rw [recordsOf_append,map_append]
    exact prefix_append _ _
  · intro inputs later log'' happend hread
    exact (hholds'.appendAll hlaw happend hread).replay

theorem openForDate_short (hholds : Holds services log records) (hn : n < headerLen)
    (hdate : validateSegmentDate date=.ok ()) (fsync : Bool) (tolerance : Option Int) :
    ∃ path, openForDate services (log.dir.truncateNewest n) date fsync tolerance=
      .error (.ioAt "read audit segment header" path) := by
  obtain ⟨older,newest,hopen,-⟩ := hholds
  obtain ⟨holder,hnewest,hlt,-⟩ := laid_concat.mp hopen.laid
  have hshort : ((entryBehind services older newest).contents.take n).length < headerLen := by
    rw [length_take]
    omega
  have hreplay : replaySegments services discardRecord (log.dir.truncateNewest n) ()=_ :=
    replaySegments_short (fun _ _ => rfl) holder hnewest hlt hshort
      (hopen.stores.truncateNewest_entries n) ()
  refine ⟨(log.dir.truncateNewest n).pathOf
    ⟨newest.date,"remaudit",(entryBehind services older newest).contents.take n⟩,?_⟩
  simp only [openForDate,hdate,ok_bind,replaySegmentsSummary,hreplay,error_bind]

theorem validateSegmentDate_sample : validateSegmentDate "2026-05-27"=.ok () := by
  decide +kernel

/-- A log survives a cut of its newest segment exactly when the cut leaves the header. -/
theorem crashConsistent_iff (hlaw : services.Lawful) {path date : String} {fsync : Bool}
    {tolerance : Option Int} {log log' : FileAuditLog}
    (hopen : openForDate services ⟨path,[]⟩ date fsync tolerance=.ok log)
    {inputs : List (AuditEventRecord×Observation)} {records : List AuditRecord}
    (happend : FileAuditLog.appendAll services log inputs=.ok (records,log'))
    (hread : ∀ record ∈ records, ReadBack services record) (n : ℕ) :
    CrashConsistent services log'.dir records n ↔ headerLen ≤ n := by
  have hholds := (holds_nil hopen).appendAll hlaw happend hread
  constructor
  · intro hconsistent
    by_contra hn
    obtain ⟨_,hfailed⟩ := openForDate_short hholds (not_le.mp hn) validateSegmentDate_sample true none
    obtain ⟨_,-,hsurvives⟩ := hconsistent
    obtain ⟨_,hopened,-⟩ := hsurvives "2026-05-27" true none validateSegmentDate_sample
    rw [hfailed] at hopened
    cases hopened
  · exact crashConsistent_of_le hlaw hholds

def scalarCbor : CborValue → Bytes
  | .text text => head 3 (.ofNat (utf8 text).length)++utf8 text
  | .integer n => head 0 (.ofNat n.toNat)
  | _ => [0xF6]

def flatCbor : CborValue → Bytes
  | .map entries => head 5 (.ofNat entries.length)++
      entries.flatMap fun (key,value) => scalarCbor key++scalarCbor value
  | value => scalarCbor value

def recordCbor : CborValue → Bytes
  | .map entries => head 5 (.ofNat entries.length)++
      entries.flatMap fun (key,value) => scalarCbor key++flatCbor value
  | value => flatCbor value

/-- Services that write records; they know one instant and one UUID. -/
def writingServices : Services where
  hash := ⟨fun _ => FixedBytes.zero 32,fun _ _ => FixedBytes.zero 32⟩
  intoWriter := fun value => .ok (recordCbor value)
  fromReader := fun _ => .error "not read"
  formatRfc3339 := fun t =>
    if t=1779840000000000000 then .ok "2026-05-27T00:00:00Z" else .error "range"
  parseRfc3339 := fun text =>
    if text="2026-05-27T00:00:00Z" then .ok 1779840000000000000 else .error "form"
  utcDate := fun _ => (2026,5,27)
  uuidText := fun _ => "01010101-0101-0101-0101-010101010101"
  parseUuid := fun text =>
    if text="01010101-0101-0101-0101-010101010101" then .ok ⟨replicate 16 1,rfl⟩
    else .error "form"
  softwareBuild := "0.2.1"

def sampleEvent : AuditEventRecord :=
  ⟨.user "operator",.layer5,none,none,none,.configLoaded,⟨"library",some "lib-1"⟩,Detail.empty⟩

def sampleObservation : Observation :=
  ⟨1779840000000000000,0,"host",7,⟨replicate 16 1,rfl⟩,⟨replicate 16 1,rfl⟩⟩

def sampleLog : FileAuditLog :=
  ⟨⟨"audit",[⟨"2026-05-27","remaudit",segmentHeader "2026-05-27" (FixedBytes.zero 32)⟩]⟩,
    "2026-05-27",FixedBytes.zero 32,1,none,none,some 300000000000,true⟩

def sampleRecord : AuditRecord :=
  sampleLog.recordOf writingServices sampleEvent "2026-05-27T00:00:00Z" ⟨replicate 16 1,rfl⟩
    sampleObservation

def sampleServices : Services :=
  { writingServices with
    fromReader := fun bytes =>
      if bytes=recordCbor (recordToCbor writingServices sampleRecord) then
        .ok (recordToCbor writingServices sampleRecord)
      else .error "other bytes" }

theorem sampleServices_lawful : sampleServices.Lawful where
  timestamp := by
    intro t text h
    simp only [sampleServices,writingServices] at h ⊢
    split_ifs at h with ht
    obtain rfl := Except.ok.inj h
    rw [if_pos rfl,ht]
  build := by decide +kernel

theorem openForDate_sample :
    openForDate sampleServices ⟨"audit",[]⟩ "2026-05-27" true (some 300000000000)=
      .ok sampleLog := by
  rfl

theorem appendAll_sample : ∃ log, FileAuditLog.appendAll sampleServices sampleLog
    [(sampleEvent,sampleObservation)]=.ok ([sampleRecord],log) := by
  have hdate : sampleLog.segmentDateForAppend sampleServices sampleObservation.timestampUtc=
      sampleLog.segmentDate := by
    decide +kernel
  have hkeys : validateDetailKeys sampleEvent.detail=.ok () := rfl
  have htext : formatTimestampUtc sampleServices sampleObservation.timestampUtc=
      .ok "2026-05-27T00:00:00Z" := by
    decide +kernel
  have hpayload : canonicalRecordCbor sampleServices sampleRecord=
      .ok (recordCbor (recordToCbor writingServices sampleRecord)) := rfl
  have hlength : (recordCbor (recordToCbor writingServices sampleRecord)).length+
      recordTrailerLen ≤ maxRecordLen := by
    decide +kernel
  have hwarn : sampleLog.emitClockWarningIfNeeded sampleServices sampleObservation=
      .ok ([],sampleLog) := rfl
  have hrecord : sampleLog.recordOf sampleServices sampleEvent "2026-05-27T00:00:00Z"
      sampleObservation.recordUuid sampleObservation=sampleRecord := rfl
  have hlarge := not_le.mpr (hlength.trans_lt maxRecordLen_lt)
  simp only [FileAuditLog.appendAll,FileAuditLog.appendWithObservedClockAndRecord,hdate,
    FileAuditLog.rotateToDate,if_true,pure_bind,hwarn,ok_bind,FileAuditLog.appendRecord,hkeys,htext,
    hrecord,hpayload,rejectIf_pos hlarge,rejectIf_pos (not_lt.mpr hlength)]
  exact ⟨_,rfl⟩

theorem readBack_sample : ReadBack sampleServices sampleRecord where
  cbor := by
    have hknown : ∀ bytes, bytes=recordCbor (recordToCbor writingServices sampleRecord) →
        sampleServices.fromReader bytes=.ok (recordToCbor writingServices sampleRecord) :=
      fun _ hbytes => if_pos hbytes
    intro payload h
    exact hknown payload (Except.ok.inj h).symm
  uuid := by
    intro u hu
    obtain rfl : u=⟨replicate 16 1,rfl⟩ := by
      simpa [AuditRecord.uuids,sampleRecord,sampleEvent,FileAuditLog.recordOf] using hu
    simp [sampleServices,writingServices]

/-- A log with one record survives exactly the cuts behind its header. -/
theorem crashConsistent_sample : ∃ log records, openForDate sampleServices ⟨"audit",[]⟩
      "2026-05-27" true (some 300000000000)=.ok sampleLog ∧
    FileAuditLog.appendAll sampleServices sampleLog [(sampleEvent,sampleObservation)]=
      .ok (records,log) ∧ CrashConsistent sampleServices log.dir records 59 ∧
        ¬CrashConsistent sampleServices log.dir records 58 := by
  obtain ⟨log,happend⟩ := appendAll_sample
  have hiff := crashConsistent_iff sampleServices_lawful openForDate_sample happend
    (by simpa using readBack_sample)
  exact ⟨log,_,openForDate_sample,happend,(hiff 59).mpr (by decide),
    fun h => absurd ((hiff 58).mp h) (by decide)⟩

/-- Already a first segment cut to one byte keeps the log from opening. -/
theorem not_crashConsistent_header : openForDate sampleServices ⟨"audit",[]⟩ "2026-05-27" true
      (some 300000000000)=.ok sampleLog ∧
    FileAuditLog.appendAll sampleServices sampleLog []=.ok ([],sampleLog) ∧
    openForDate sampleServices (sampleLog.dir.truncateNewest 1) "2026-05-27" true none=
      .error (.ioAt "read audit segment header" "audit/2026-05-27.remaudit") ∧
    ¬CrashConsistent sampleServices sampleLog.dir [] 1 := by
  have hfails : openForDate sampleServices (sampleLog.dir.truncateNewest 1) "2026-05-27" true none=
      .error (.ioAt "read audit segment header" "audit/2026-05-27.remaudit") := by
    rfl
  refine ⟨openForDate_sample,rfl,hfails,?_⟩
  rintro ⟨_,-,hsurvives⟩
  obtain ⟨_,hopened,-⟩ := hsurvives "2026-05-27" true none validateSegmentDate_sample
  cases hopened

end Remanence.Audit
