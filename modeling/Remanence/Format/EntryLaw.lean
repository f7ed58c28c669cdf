import Remanence.Format.BlockStream

/-!
# One entry of the stream

A writer that has reached the planned offset of an entry finds the same records and writes every
part where it was planned. It fails only when the body of the extended header is too long for
the size field of a header record.
-/

namespace Remanence.Format

open Foundation List

structure EntryPlan (chunkSize offset : ℕ) (spec : RemTarFileSpec) (isManifest : Bool)
    (layout : RemTarFileLayout) (nextOffset : ℕ) (records : PaxRecords) (body : Bytes)
    (padded : ℕ) : Prop where
  records_eq : entryRecords chunkSize offset spec isManifest none=.ok records
  body_eq : encodePaxRecords records=.ok body
  padded_eq : roundUpUsize body.length tarRecordSize=.ok padded
  offset_eq : layout.paxHeaderOffset=offset
  body_len : layout.paxBodyLen=body.length
  data_eq : layout.dataOffset=offset+(tarRecordSize+padded+tarRecordSize)
  size_eq : layout.sizeBytes=spec.sizeBytes
  kind_eq : layout.entryType=spec.entryType
  aligned : spec.sizeBytes≠0 → layout.dataOffset%chunkSize=0 ∧
    layout.firstChunkLba=some (layout.dataOffset/chunkSize)
  next_eq : nextOffset= layout.dataOffset+spec.sizeBytes.toNat+tarPaddingLen spec.sizeBytes.toNat
  next_lt : nextOffset < 2^64
  solved : planOneFile chunkSize offset spec isManifest (some records)=.ok (layout,nextOffset)

theorem fitWord_eq_ok {value result : ℕ} {message : String} :
    fitWord value message=.ok result ↔ value < 2^64 ∧ result=value := by
  rw [fitWord]
  split_ifs with h
  · rw [Except.ok.injEq]
    exact ⟨fun heq => ⟨h,heq.symm⟩,fun heq => heq.2.symm⟩
  · exact ⟨fun heq => (by cases heq),fun heq => absurd heq.1 h⟩

variable {chunkSize nextOffset : ℕ} {spec : RemTarFileSpec} {isManifest : Bool}
    {layout : RemTarFileLayout}

theorem entryPlan_of_planOneFile {offset : ℕ}
    (h : planOneFile chunkSize offset spec isManifest none=.ok (layout,nextOffset)) :
    ∃ records body padded,
      EntryPlan chunkSize offset spec isManifest layout nextOffset records body padded := by
  have hplan := h
  simp only [planOneFile,eq_ok,addOffset,fitWord_eq_ok,not_and,not_not,Prod.mk.injEq] at h
  obtain ⟨records,hrecords,body,hbody,padded,hpadded,dataOffset,⟨-,hdata⟩,_,haligned,chunks,-,dataEnd,
    ⟨-,hend⟩,next,⟨hlt,hnext⟩,hlayout,rfl⟩ := h
  subst hlayout
  refine ⟨records,body,padded,hrecords,hbody,hpadded,rfl,rfl,hdata,rfl,rfl,fun hsize => ?_,?_,?_,?_⟩
  · exact ⟨haligned hsize,if_neg hsize⟩
  · rw [hnext,hend]
  · rw [hnext]
    exact hlt
  · rw [planOneFile,hrecords,ok_bind] at hplan
    exact hplan

theorem le_of_roundUpUsize {value unit result : ℕ} (h : roundUpUsize value unit=.ok result) :
    value ≤ result ∧ result%unit=0 ∧ result < value+unit := by
  simp only [roundUpUsize,eq_ok] at h
  obtain ⟨_,hunit,h⟩ := h
  split_ifs at h with hzero
  · cases h
    exact ⟨le_rfl,hzero,by omega⟩
  · rw [fitWord_eq_ok] at h
    obtain ⟨-,rfl⟩ := h
    have hlt := Nat.mod_lt value (Nat.pos_of_ne_zero hunit)
    refine ⟨by omega,?_,by omega⟩
    have hdiv := Nat.div_add_mod value unit
    have hsum : value+(unit-value%unit)=unit*(value/unit+1) := by
      rw [mul_add,mul_one]
      omega
    rw [hsum]
    exact Nat.mul_mod_right _ _

theorem paxBackedPath_texts (path : String) {linkname : String}
    (hlink : ∀ byte ∈ utf8 linkname, 0x20 ≤ byte) : HeaderTexts (paxBackedPath path) linkname := by
  rw [paxBackedPath]
  split_ifs with hportable
  · rw [isPortableUstarName,decide_eq_true_eq] at hportable
    obtain ⟨hne,-,hbytes⟩ := hportable
    rw [all_eq_true] at hbytes
    exact ⟨hne,fun hzero => absurd (hbytes 0 hzero) (by decide),hlink⟩
  · exact ⟨by decide,by decide,hlink⟩

theorem paxBackedLinkname_printable (target : String) :
    ∀ byte ∈ utf8 (paxBackedLinkname target (!isPortableUstarLinkname target)), 0x20 ≤ byte := by
  cases hportable : isPortableUstarLinkname target with
  | false =>
    have hall : (utf8 paxBackedLinkPlaceholder).all (fun byte => decide (0x20 ≤ byte))=true := by decide
    exact fun byte hbyte => of_decide_eq_true (all_eq_true.mp hall byte hbyte)
  | true =>
    rw [isPortableUstarLinkname,decide_eq_true_eq] at hportable
    have hall := all_eq_true.mp hportable.2
    exact fun byte hbyte => (of_decide_eq_true (hall byte hbyte)).2

variable {records : PaxRecords}

theorem linkTarget_of_entryRecords {offset : ℕ}
    (h : entryRecords chunkSize offset spec isManifest none=.ok records)
    (hlink : spec.entryType=.hardlink ∨ spec.entryType=.symlink) :
    ∃ target, spec.linkTarget=some target := by
  simp only [entryRecords,filePaxRecords,linkpathRecord,if_pos hlink,eq_ok] at h
  obtain ⟨_,⟨_,-,_,⟨target,htarget,-⟩,-⟩,-⟩ := h
  exact ⟨target,htarget⟩

theorem exists_entryHeader
    (h : spec.entryType=.hardlink ∨ spec.entryType=.symlink → ∃ target, spec.linkTarget=some target) :
    ∃ header, entryHeader spec=.ok header ∧ header.length=tarRecordSize := by
  have hempty : ∀ byte ∈ utf8 "", 0x20 ≤ byte := fun _ hmem => absurd hmem not_mem_nil
  have hzero : (0 : ℕ) < 8^11 := by decide
  rw [entryHeader]
  cases hkind : spec.entryType with
  | regular =>
    refine (encodeHeaderWithLink_eq (paxBackedPath_texts _ hempty) _ ?_ _).1 ?_
    · split_ifs <;> decide
    · have hmax : ustarSizeFieldMax+1=8^11 := by decide
      split_ifs <;> omega
  | hardlink =>
    obtain ⟨target,htarget⟩ := h (.inl hkind)
    rw [htarget,orElseError_some,ok_bind,encodePaxBackedHardlinkHeader]
    exact (encodeHeaderWithLink_eq (paxBackedPath_texts _ (paxBackedLinkname_printable target))
      _ (by decide) _).1 hzero
  | symlink =>
    obtain ⟨target,htarget⟩ := h (.inr hkind)
    dsimp only
    rw [htarget,orElseError_some,ok_bind,encodePaxBackedSymlinkHeader]
    exact (encodeHeaderWithLink_eq (paxBackedPath_texts _ (paxBackedLinkname_printable target))
      _ (by decide) _).1 hzero
  | directory =>
    exact (encodeHeaderWithLink_eq (paxBackedPath_texts _ hempty) _ (by decide) _).1 hzero

variable {σ : Type} {sink : BlockSink σ} {blocks : σ → List Bytes} {size capacity : ℕ}
  {before : List Bytes} {writer : BodyBlockWriter σ} {done : Bytes}

variable {body : Bytes} {padded : ℕ}

/-- A header record with its body is appended, unless the body is too long for the size field. -/
theorem Written.paxHeader (h : Written sink blocks size capacity before writer done) {name : String}
    (hname : HeaderTexts name "") (typeflag : UInt8) (hbody : encodePaxRecords records=.ok body)
    (hpadded : roundUpUsize body.length tarRecordSize=.ok padded)
    (hfits : done.length+(tarRecordSize+padded) ≤ capacity*size) :
    (body.length < 8^11 → ∃ header writer',
      encodeHeader name body.length typeflag 0o644=.ok header ∧ header.length=tarRecordSize ∧
      writePaxHeader sink writer name typeflag records=.ok writer' ∧
      Written sink blocks size capacity before writer'
        (done++header++body++replicate (padded-body.length) 0)) ∧
    (8^11 ≤ body.length → writePaxHeader sink writer name typeflag records=
      .error (.layout s!"tar octal field overflow for value {body.length}")) := by
  obtain ⟨hok,herror⟩ := encodeHeaderWithLink_eq hname body.length
    (show 0o644 < 8^7 by decide) typeflag
  have hle := (le_of_roundUpUsize hpadded).1
  constructor
  · intro hshort
    obtain ⟨header,hheader,hlength⟩ := hok hshort
    obtain ⟨first,hfirst,hfirstWritten⟩ := h.writeAll header (by omega)
    obtain ⟨second,hsecond,hsecondWritten⟩ := hfirstWritten.writeAll body
      (by rw [length_append]; omega)
    obtain ⟨third,hthird,hthirdWritten⟩ := hsecondWritten.writeAll
      (replicate (padded-body.length) 0)
      (by rw [length_append,length_append,length_replicate]; omega)
    refine ⟨header,third,hheader,hlength,?_,hthirdWritten⟩
    rw [writePaxHeader,hbody,ok_bind,encodeHeader,hheader,ok_bind,hfirst,ok_bind,hsecond,ok_bind,hpadded,
      ok_bind,hthird]
  · intro hlong
    rw [writePaxHeader,hbody,ok_bind,encodeHeader,herror hlong,error_bind]

theorem Written.entryHeaders (h : Written sink blocks chunkSize capacity before writer done)
    (hplan : EntryPlan chunkSize done.length spec isManifest layout nextOffset records body padded)
    (hfits : layout.dataOffset ≤ capacity*chunkSize) :
    (body.length < 8^11 → ∃ paxHeader header writer',
      encodeHeader (paxHeaderName isManifest) body.length typePaxExtended 0o644=.ok paxHeader ∧
      paxHeader.length=tarRecordSize ∧ entryHeader spec=.ok header ∧ header.length=tarRecordSize ∧
      writeFileEntryHeader sink writer chunkSize spec isManifest=.ok writer' ∧
      Written sink blocks chunkSize capacity before writer'
        (done++paxHeader++body++replicate (padded-body.length) 0++header)) ∧
    (8^11 ≤ body.length → writeFileEntryHeader sink writer chunkSize spec isManifest=
      .error (.layout s!"tar octal field overflow for value {body.length}")) := by
  have hdata := hplan.data_eq
  have hnext := hplan.next_eq
  have hlt := hplan.next_lt
  have hoffset : fitWord (writer.blocksWritten*chunkSize+writer.buffer.length)
      "writer byte offset overflow"=.ok done.length :=
    fitWord_eq_ok.mpr ⟨by rw [←h.length_eq]; omega,h.length_eq⟩
  have hname : HeaderTexts (paxHeaderName isManifest) "" := by
    cases isManifest
    · exact .unlinked (by decide) (by decide)
    · exact .unlinked (by decide) (by decide)
  obtain ⟨hok,herror⟩ := h.paxHeader hname typePaxExtended hplan.body_eq hplan.padded_eq (by omega)
  have hle := (le_of_roundUpUsize hplan.padded_eq).1
  constructor
  · intro hshort
    obtain ⟨paxHeader,first,hpax,hpaxLength,hfirst,hfirstWritten⟩ := hok hshort
    obtain ⟨header,hheader,hheaderLength⟩ :=
      exists_entryHeader (linkTarget_of_entryRecords hplan.records_eq)
    obtain ⟨second,hsecond,hsecondWritten⟩ := hfirstWritten.writeAll header (by
      simp only [length_append,length_replicate]
      omega)
    refine ⟨paxHeader,header,second,hpax,hpaxLength,hheader,hheaderLength,?_,hsecondWritten⟩
    rw [writeFileEntryHeader,hoffset,ok_bind,hplan.records_eq,ok_bind,hplan.solved,ok_bind,
      writePaxAndRegularHeader,hfirst,ok_bind,hheader,ok_bind,hsecond]
  · intro hlong
    rw [writeFileEntryHeader,hoffset,ok_bind,hplan.records_eq,ok_bind,hplan.solved,ok_bind,
      writePaxAndRegularHeader,herror hlong,error_bind]

theorem Written.padding (h : Written sink blocks size capacity before writer done) (count : ℕ)
    (hfits : done.length+tarPaddingLen count ≤ capacity*size) :
    ∃ writer', writeFilePadding sink writer count=.ok writer' ∧
      Written sink blocks size capacity before writer'
        (done++replicate (tarPaddingLen count) 0) := by
  rw [writeFilePadding]
  split_ifs with hpositive
  · exact h.writeAll _ (by rw [length_replicate]; exact hfits)
  · have hzero : tarPaddingLen count=0 := by omega
    refine ⟨writer,rfl,?_⟩
    rw [hzero,replicate_zero,append_nil]
    exact h

/-- Every part of an entry is in the stream where it was planned. -/
structure Placed (chunkSize : ℕ) (stream : Bytes) (spec : RemTarFileSpec) (isManifest : Bool)
    (data : Bytes) (layout : RemTarFileLayout) : Prop where
  paxHeader : encodeHeader (paxHeaderName isManifest) layout.paxBodyLen typePaxExtended 0o644=
    .ok (slice stream layout.paxHeaderOffset tarRecordSize)
  paxBody : ∃ records, entryRecords chunkSize layout.paxHeaderOffset spec isManifest none=.ok records ∧
    encodePaxRecords records=
      .ok (slice stream (layout.paxHeaderOffset+tarRecordSize) layout.paxBodyLen)
  headers_le : layout.paxHeaderOffset+tarRecordSize+layout.paxBodyLen+tarRecordSize ≤
    layout.dataOffset
  header : entryHeader spec=.ok (slice stream (layout.dataOffset-tarRecordSize) tarRecordSize)
  payload : slice stream layout.dataOffset data.length=data
  payload_le : layout.dataOffset+data.length ≤ stream.length

variable {data : Bytes}

theorem Placed.append {stream : Bytes} (h : Placed chunkSize stream spec isManifest data layout)
    (more : Bytes) : Placed chunkSize (stream++more) spec isManifest data layout := by
  have hheaders := h.headers_le
  have hpayload := h.payload_le
  refine ⟨?_,?_,hheaders,?_,?_,?_⟩
  · rw [slice_append_left more (by omega)]
    exact h.paxHeader
  · rw [slice_append_left more (by omega)]
    exact h.paxBody
  · rw [slice_append_left more (by omega)]
    exact h.header
  · rw [slice_append_left more (by omega)]
    exact h.payload
  · rw [length_append]
    omega

theorem EntryPlan.placed {paxHeader header : Bytes} (data : Bytes)
    (hplan : EntryPlan chunkSize done.length spec isManifest layout nextOffset records body padded)
    (hpax : encodeHeader (paxHeaderName isManifest) body.length typePaxExtended 0o644=.ok paxHeader)
    (hpaxLength : paxHeader.length=tarRecordSize) (hheader : entryHeader spec=.ok header)
    (hheaderLength : header.length=tarRecordSize) :
    Placed chunkSize
      (done++paxHeader++body++replicate (padded-body.length) 0++header++data) spec isManifest data
      layout := by
  have hdata := hplan.data_eq
  have hle := (le_of_roundUpUsize hplan.padded_eq).1
  have hfill : (replicate (padded-body.length) (0 : UInt8)).length=padded-body.length :=
    length_replicate
  refine ⟨?_,⟨records,?_,?_⟩,?_,?_,?_,?_⟩
  · rw [hplan.body_len,hplan.offset_eq,hpax]
    rw [append_assoc,append_assoc,append_assoc,slice_append_mid _ rfl hpaxLength.symm]
  · rw [hplan.offset_eq]
    exact hplan.records_eq
  · rw [hplan.body_eq,hplan.offset_eq,hplan.body_len,append_assoc,append_assoc,
      slice_append_mid _ (by rw [length_append,hpaxLength]) rfl]
  · rw [hplan.offset_eq,hplan.body_len]
    omega
  · rw [hheader,slice_append_mid _ _ hheaderLength.symm]
    rw [length_append,length_append,length_append,hpaxLength,hfill]
    omega
  · have hall := slice_append_mid (a := done++paxHeader++body++
      replicate (padded-body.length) 0++header) (b := data) [] rfl rfl
    rw [append_nil] at hall
    convert hall using 2
    simp only [length_append,hpaxLength,hfill,hheaderLength]
    omega
  · simp only [length_append,hpaxLength,hfill,hheaderLength]
    omega

/-- From the offset of the entry every part goes where it was planned, unless the body is too long.
-/
def WritesEntry (sink : BlockSink σ) (blocks : σ → List Bytes) (chunkSize capacity : ℕ)
    (before : List Bytes) (spec : RemTarFileSpec) (isManifest : Bool) (data : Bytes)
    (program : BodyBlockWriter σ → Except FormatError (BodyBlockWriter σ)) : Prop :=
  ∀ writer done layout nextOffset, Written sink blocks chunkSize capacity before writer done →
    planOneFile chunkSize done.length spec isManifest none=.ok (layout,nextOffset) →
    nextOffset ≤ capacity*chunkSize →
    (layout.paxBodyLen < 8^11 → ∃ writer' more, program writer=.ok writer' ∧
      Written sink blocks chunkSize capacity before writer' (done++more) ∧
      (done++more).length=nextOffset ∧ Placed chunkSize (done++more) spec isManifest data layout) ∧
    (8^11 ≤ layout.paxBodyLen → ∃ error, program writer=.error error)

theorem writesEntry_of_payload
    {payload : BodyBlockWriter σ → Except FormatError (BodyBlockWriter σ)}
    (hlength : data.length=spec.sizeBytes.toNat)
    (hpayload : ∀ writer done, Written sink blocks chunkSize capacity before writer done →
      done.length+data.length ≤ capacity*chunkSize → ∃ writer', payload writer=.ok writer' ∧
        Written sink blocks chunkSize capacity before writer' (done++data)) :
    WritesEntry sink blocks chunkSize capacity before spec isManifest data (fun writer => do
      let writer ← writeFileEntryHeader sink writer chunkSize spec isManifest
      let writer ← payload writer
      writeFilePadding sink writer spec.sizeBytes.toNat) := by
  intro writer done layout nextOffset hwritten hplan hfits
  obtain ⟨records,body,padded,hentry⟩ := entryPlan_of_planOneFile hplan
  have hnext := hentry.next_eq
  have hdata := hentry.data_eq
  have hle := (le_of_roundUpUsize hentry.padded_eq).1
  obtain ⟨hok,herror⟩ := hwritten.entryHeaders hentry (by omega)
  rw [hentry.body_len]
  constructor
  · intro hshort
    obtain ⟨paxHeader,header,first,hpax,hpaxLength,hheader,hheaderLength,hfirst,hfirstWritten⟩ :=
      hok hshort
    set headers := done++paxHeader++body++replicate (padded-body.length) 0++header with hheaders
    have hheadersLength : headers.length=layout.dataOffset := by
      rw [hheaders]
      simp only [length_append,hpaxLength,hheaderLength,length_replicate]
      omega
    obtain ⟨second,hsecond,hsecondWritten⟩ := hpayload first headers hfirstWritten (by omega)
    obtain ⟨third,hthird,hthirdWritten⟩ := hsecondWritten.padding spec.sizeBytes.toNat
      (by rw [length_append]; omega)
    have hplaced := hentry.placed data hpax hpaxLength hheader hheaderLength
    refine ⟨third,paxHeader++body++replicate (padded-body.length) 0++header++data++
      replicate (tarPaddingLen spec.sizeBytes.toNat) 0,?_,?_,?_,?_⟩
    · beta_reduce
      rw [hfirst,ok_bind,hsecond,ok_bind,hthird]
    · simpa only [hheaders,append_assoc] using hthirdWritten
    · have hsum : (headers++data++
          replicate (tarPaddingLen spec.sizeBytes.toNat) 0).length=nextOffset := by
        rw [length_append,length_append,length_replicate]
        omega
      simpa only [hheaders,append_assoc] using hsum
    · simpa only [append_assoc] using
        hplaced.append (replicate (tarPaddingLen spec.sizeBytes.toNat) 0)
  · intro hlong
    refine ⟨.layout s!"tar octal field overflow for value {body.length}",?_⟩
    beta_reduce
    rw [herror hlong,error_bind]

structure PayloadReader.Supplies (reader : PayloadReader) (data : Bytes) : Prop where
  starts : data <+: reader.bytes
  grants : ∀ call ∈ reader.script, ∃ granted, call=.ok granted ∧ 0 < granted

variable {reader : PayloadReader}

theorem PayloadReader.Supplies.read (h : reader.Supplies data) {limit : ℕ} (hlimit : 0 < limit)
    (hle : limit ≤ data.length) :
    ∃ count reader', 0 < count ∧ count ≤ data.length ∧
      reader.read limit=.ok (data.take count,reader') ∧ reader'.Supplies (data.drop count) := by
  obtain ⟨rest,hrest⟩ := h.starts
  have hparts : ∀ count, count ≤ data.length → reader.bytes.take count=data.take count ∧
      data.drop count <+: reader.bytes.drop count := by
    intro count hcount
    rw [←hrest,take_append_of_le_length hcount,drop_append_of_le_length hcount]
    exact ⟨rfl,prefix_append _ _⟩
  obtain ⟨bytes,script⟩ := reader
  have hgrants := h.grants
  cases script with
  | nil =>
    obtain ⟨htake,hdrop⟩ := hparts limit hle
    exact ⟨limit,⟨bytes.drop limit,[]⟩,hlimit,hle,by rw [←htake]; rfl,hdrop,hgrants⟩
  | cons call script =>
    obtain ⟨granted,rfl,hpositive⟩ := hgrants call mem_cons_self
    obtain ⟨htake,hdrop⟩ := hparts (min limit granted) (by omega)
    refine ⟨min limit granted,⟨bytes.drop (min limit granted),script⟩,by omega,by omega,
      by rw [←htake]; rfl,hdrop,?_⟩
    exact fun other hother => hgrants other (mem_cons_of_mem _ hother)

theorem Written.streamPayload (seen : Bytes)
    (h : Written sink blocks size capacity before writer done) (hreader : reader.Supplies data)
    (hfits : done.length+data.length ≤ capacity*size) :
    ∃ writer', streamPayload sink chunkSize spec writer reader seen data.length=
        .ok (writer',seen++data) ∧
      Written sink blocks size capacity before writer' (done++data) := by
  -- every call takes bytes, so the induction is on how many are left
  induction hn : data.length using Nat.strong_induction_on
    generalizing writer done reader seen data with
  | _ n ih =>
    subst hn
    unfold Format.streamPayload
    by_cases hempty : data=[]
    · subst hempty
      rw [if_pos length_nil,append_nil,append_nil]
      exact ⟨writer,rfl,h⟩
    have hpositive := length_pos_iff.mpr hempty
    rw [if_neg (by omega)]
    have hscratch : 0 < scratchLen chunkSize := by
      unfold scratchLen
      omega
    obtain ⟨count,reader',hcount,hle,hread,hsupplies⟩ :=
      hreader.read (show 0 < min (scratchLen chunkSize) data.length by omega) (by omega)
    rw [hread]
    dsimp only
    have htake : (data.take count).length=count := by rw [length_take]; omega
    have hdrop : (data.drop count).length=data.length-count := length_drop
    rw [if_neg (by rw [←length_eq_zero_iff]; omega)]
    obtain ⟨first,hfirst,hfirstWritten⟩ := h.writeAll (data.take count) (by omega)
    obtain ⟨writer',hrest,hwritten⟩ := ih (data.drop count).length (by omega)
      (seen++data.take count) hfirstWritten hsupplies (by rw [length_append]; omega) rfl
    refine ⟨writer',?_,?_⟩
    · rw [hfirst,ok_bind,htake,←hdrop,hrest,append_assoc,take_append_drop]
    · rwa [append_assoc,take_append_drop] at hwritten

theorem writesEntry_fromBytes (hlength : data.length=spec.sizeBytes.toNat) :
    WritesEntry sink blocks chunkSize capacity before spec isManifest data
      (fun writer => writeFileEntryFromBytes sink writer chunkSize spec data isManifest) := by
  have hsame : UInt64.ofNat data.length=spec.sizeBytes := by rw [hlength,UInt64.ofNat_toNat]
  have hprogram : (fun writer : BodyBlockWriter σ =>
      writeFileEntryFromBytes sink writer chunkSize spec data isManifest)=
      (fun writer => do
        let writer ← writeFileEntryHeader sink writer chunkSize spec isManifest
        let writer ← writer.writeAll sink data
        writeFilePadding sink writer spec.sizeBytes.toNat) := by
    funext writer
    rw [writeFileEntryFromBytes,rejectIf_pos (not_not.mpr hsame),ok_bind]
  rw [hprogram]
  exact writesEntry_of_payload hlength fun writer done hwritten hfits => hwritten.writeAll data hfits

def DigestAgrees (services : FormatServices) (spec : RemTarFileSpec) (data : Bytes) : Prop :=
  match spec.fileSha256 with
  | some expected => services.hash.sha256 data=expected
  | none => spec.entryType≠.regular

theorem DigestAgrees.check {services : FormatServices} (h : DigestAgrees services spec data) :
    checkStreamedHash services spec data=.ok () := by
  unfold DigestAgrees at h
  unfold checkStreamedHash
  cases hsha : spec.fileSha256 with
  | some expected =>
    rw [hsha] at h
    exact rejectIf_pos (not_not.mpr h)
  | none =>
    rw [hsha] at h
    exact rejectIf_pos h

theorem writesEntry_fromReader {services : FormatServices} (hreader : reader.Supplies data)
    (hlength : data.length=spec.sizeBytes.toNat) (hdigest : DigestAgrees services spec data) :
    WritesEntry sink blocks chunkSize capacity before spec isManifest data
      (fun writer => writeFileEntryFromReader services sink writer chunkSize spec reader isManifest) := by
  have hprogram : (fun writer : BodyBlockWriter σ =>
      writeFileEntryFromReader services sink writer chunkSize spec reader isManifest)=
      (fun writer => do
        let writer ← writeFileEntryHeader sink writer chunkSize spec isManifest
        let writer ← (do
          let streamed ← streamPayload sink chunkSize spec writer reader [] data.length
          checkStreamedHash services spec streamed.2
          return streamed.1)
        writeFilePadding sink writer spec.sizeBytes.toNat) := by
    funext writer
    rw [writeFileEntryFromReader,hlength]
    simp only [bind_assoc,pure_bind]
  rw [hprogram]
  refine writesEntry_of_payload hlength fun writer done hwritten hfits => ?_
  obtain ⟨writer',hstream,hwritten'⟩ := hwritten.streamPayload [] hreader hfits
  refine ⟨writer',?_,hwritten'⟩
  rw [hstream,ok_bind]
  dsimp only
  rw [nil_append,hdigest.check,ok_bind]
  rfl

end Remanence.Format
