import Remanence.Format.EntryLaw
import Remanence.Foundation.Tiling

/-!
# The planned object is the written object

Planned entries lie behind each other and payloads start at chunk boundaries. A writer that
starts at offset zero emits the planned blocks with every part in its place. The planner does
not check that the body of a header fits the size field of its record.
-/

namespace Remanence.Format

open Foundation List

def RemTarFileLayout.endOffset (layout : RemTarFileLayout) : ℕ :=
  layout.dataOffset+layout.sizeBytes.toNat+tarPaddingLen layout.sizeBytes.toNat

/-- Entries planned one behind the other between two offsets. -/
def PlannedFiles (chunkSize : ℕ) : ℕ → ℕ → List RemTarFileSpec → List RemTarFileLayout → Prop
  | offset,stop,[],[] => offset=stop
  | offset,stop,spec::specs,layout::layouts => ∃ next,
    planOneFile chunkSize offset spec false none=.ok (layout,next) ∧
      PlannedFiles chunkSize next stop specs layouts
  | _,_,_,_ => False

variable {specs : List RemTarFileSpec} {chunkSize : ℕ}

theorem plannedFiles_of_foldlM {state final : PlanState}
    (h : specs.foldlM (planFile chunkSize) state=.ok final) :
    ∃ layouts, final.fileLayouts=state.fileLayouts++layouts ∧
      PlannedFiles chunkSize state.offset final.offset specs layouts := by
  induction specs generalizing state with
  | nil =>
    cases h
    exact ⟨[],(append_nil _).symm,rfl⟩
  | cons spec specs ih =>
    obtain ⟨mid,hmid,hrest⟩ := foldlM_cons_eq_ok.mp h
    simp only [planFile,eq_ok] at hmid
    obtain ⟨_,-,_,-,_,-,_,-,⟨layout,next⟩,hplan,rfl⟩ := hmid
    obtain ⟨layouts,hlayouts,hplanned⟩ := ih hrest
    refine ⟨layout::layouts,?_,next,hplan,hplanned⟩
    rw [hlayouts,append_assoc]
    rfl

variable {offset : ℕ} {chunkSize nextOffset : ℕ}

/-- One entry covers the bytes between its offset and the next. -/
theorem endOffset_of_planOneFile {spec : RemTarFileSpec}
    {isManifest : Bool} {layout : RemTarFileLayout}
    (h : planOneFile chunkSize offset spec isManifest none=.ok (layout,nextOffset)) :
    layout.paxHeaderOffset=offset ∧ layout.paxHeaderOffset < layout.endOffset ∧
      layout.endOffset=nextOffset := by
  obtain ⟨records,body,padded,hplan⟩ := entryPlan_of_planOneFile h
  have hdata := hplan.data_eq
  have hrecord : tarRecordSize=512 := rfl
  refine ⟨hplan.offset_eq,?_,?_⟩
  · rw [hplan.offset_eq,RemTarFileLayout.endOffset]
    omega
  · rw [RemTarFileLayout.endOffset,hplan.size_eq,hplan.next_eq]

variable {stop : ℕ} {layouts : List RemTarFileLayout}

theorem PlannedFiles.tiles (h : PlannedFiles chunkSize offset stop specs layouts) :
    Tiles RemTarFileLayout.paxHeaderOffset RemTarFileLayout.endOffset offset stop layouts := by
  induction specs generalizing offset layouts with
  | nil =>
    cases layouts with
    | nil => exact h
    | cons layout layouts => exact h.elim
  | cons spec specs ih =>
    cases layouts with
    | nil => exact h.elim
    | cons layout layouts =>
      obtain ⟨next,hplan,hrest⟩ := h
      obtain ⟨hoffset,hlt,hend⟩ := endOffset_of_planOneFile hplan
      refine ⟨hoffset,hlt,?_⟩
      rw [hend]
      exact ih hrest

theorem PlannedFiles.forall₂ (h : PlannedFiles chunkSize offset stop specs layouts) :
    List.Forall₂ (fun spec layout => ∃ start next,
      planOneFile chunkSize start spec false none=.ok (layout,next)) specs layouts := by
  induction specs generalizing offset layouts with
  | nil =>
    cases layouts with
    | nil => exact List.Forall₂.nil
    | cons layout layouts => exact h.elim
  | cons spec specs ih =>
    cases layouts with
    | nil => exact h.elim
    | cons layout layouts =>
      obtain ⟨next,hplan,hrest⟩ := h
      exact List.Forall₂.cons ⟨offset,next,hplan⟩ (ih hrest)

def RemTarFileLayout.Aligned (layout : RemTarFileLayout) (chunkSize : ℕ) : Prop :=
  layout.sizeBytes≠0 → ∃ lba, layout.firstChunkLba=some lba ∧ layout.dataOffset=lba*chunkSize

theorem aligned_of_planOneFile {spec : RemTarFileSpec}
    {isManifest : Bool} {layout : RemTarFileLayout}
    (h : planOneFile chunkSize offset spec isManifest none=.ok (layout,nextOffset)) :
    layout.Aligned chunkSize := by
  obtain ⟨records,body,padded,hplan⟩ := entryPlan_of_planOneFile h
  intro hsize
  rw [hplan.size_eq] at hsize
  obtain ⟨hmod,hlba⟩ := hplan.aligned hsize
  exact ⟨_,hlba,(Nat.div_mul_cancel (Nat.dvd_of_mod_eq_zero hmod)).symm⟩

theorem PlannedFiles.aligned (h : PlannedFiles chunkSize offset stop specs layouts) :
    ∀ layout ∈ layouts, layout.Aligned chunkSize := by
  intro layout hlayout
  obtain ⟨index,rfl⟩ := mem_iff_get.mp hlayout
  have hspec : index.val < specs.length := by
    rw [h.forall₂.length_eq]
    exact index.isLt
  obtain ⟨start,next,hplan⟩ := h.forall₂.get hspec index.isLt
  exact aligned_of_planOneFile hplan

structure ObjectPlan (services : FormatServices) (options : RemTarObjectOptions)
    (specs : List RemTarFileSpec) (layout : RemTarObjectLayout) (globalBody : Bytes)
    (globalPadded filesEnd objectEnd : ℕ) : Prop where
  chunk : validateChunkSize options.chunkSize=.ok ()
  chunk_pos : 0 < options.chunkSize
  global : encodePaxRecords (globalPaxRecords options layout.schemaVersion)=.ok globalBody
  padded : roundUpUsize globalBody.length tarRecordSize=.ok globalPadded
  global_len : layout.globalPaxBodyLen=globalBody.length
  files : PlannedFiles options.chunkSize (tarRecordSize+globalPadded) filesEnd specs layout.files
  manifest : planOneFile options.chunkSize filesEnd
    (manifestSpec services options layout.manifestCbor) true none=.ok (layout.manifest,objectEnd)
  digest : layout.manifestSha256=services.hash.sha256 layout.manifestCbor
  manifest_lt : layout.manifestCbor.length < 2^63
  total_eq : layout.totalSizeBytes=layout.projectedSizeBlocks*options.chunkSize
  total_ge : objectEnd+2*tarRecordSize ≤ layout.totalSizeBytes
  total_lt : layout.totalSizeBytes < objectEnd+2*tarRecordSize+options.chunkSize

variable {options : RemTarObjectOptions} {services : FormatServices} {layout : RemTarObjectLayout}

theorem objectPlan_of_plan (h : planRemTarObject services options specs=.ok layout) :
    ∃ globalBody globalPadded filesEnd objectEnd,
      ObjectPlan services options specs layout globalBody globalPadded filesEnd objectEnd := by
  simp only [planRemTarObject,eq_ok,addOffset,fitWord_eq_ok] at h
  obtain ⟨_,hoptions,_,-,globalBody,hglobal,globalPadded,hpadded,offset,⟨-,rfl⟩,state,hfiles,_,-,cbor,
    hcbor,⟨manifest,objectEnd⟩,hmanifest,_,⟨-,rfl⟩,total,htotal,rfl⟩ := h
  obtain ⟨layouts,hlayouts,hplanned⟩ := plannedFiles_of_foldlM hfiles
  simp only [validateOptions,bind_eq_ok] at hoptions
  obtain ⟨_,hchunk,-⟩ := hoptions
  have hpositive : 0 < options.chunkSize := by
    simp only [validateChunkSize,eq_ok] at hchunk
    obtain ⟨_,hne,-⟩ := hchunk
    exact Nat.pos_of_ne_zero hne
  have hround := le_of_roundUpUsize htotal
  have hlength : cbor.length < 2^63 := by
    simp only [encodeManifest,eq_ok,mapError_eq_ok] at hcbor
    obtain ⟨bytes,hwrite,_,-,rfl⟩ := hcbor
    exact services.written_lt _ _ hwrite
  refine ⟨globalBody,globalPadded,state.offset,objectEnd,hchunk,hpositive,hglobal,hpadded,rfl,?_,hmanifest,
    rfl,hlength,?_,hround.1,hround.2.2⟩
  · rw [hlayouts]
    rwa [zero_add] at hplanned
  · exact (Nat.div_mul_cancel (Nat.dvd_of_mod_eq_zero hround.2.1)).symm

variable {σ : Type} {sink : BlockSink σ} {blocks : σ → List Bytes} {capacity chunkSize : ℕ}
  {before : List Bytes}

variable {writer : BodyBlockWriter σ}

theorem PlannedFiles.written {α : Type} {specOf : α → RemTarFileSpec} {dataOf : α → Bytes}
    {program : BodyBlockWriter σ → α → Except FormatError (BodyBlockWriter σ)} {files : List α}
    {done : Bytes}
    (hplanned : PlannedFiles chunkSize done.length stop (files.map specOf) layouts)
    (hprogram : ∀ file ∈ files, WritesEntry sink blocks chunkSize capacity before (specOf file) false
      (dataOf file) fun writer => program writer file)
    (hwritten : Written sink blocks chunkSize capacity before writer done)
    (hfits : stop ≤ capacity*chunkSize) :
    ((∀ layout ∈ layouts, layout.paxBodyLen < 8^11) → ∃ writer' more,
      files.foldlM program writer=.ok writer' ∧
      Written sink blocks chunkSize capacity before writer' (done++more) ∧
      (done++more).length=stop ∧ List.Forall₂ (fun file layout =>
        Placed chunkSize (done++more) (specOf file) false (dataOf file) layout) files layouts) ∧
    ((∃ layout ∈ layouts, 8^11 ≤ layout.paxBodyLen) → ∃ error,
      files.foldlM program writer=.error error) := by
  induction files generalizing writer done layouts with
  | nil =>
    cases layouts with
    | cons layout layouts => exact hplanned.elim
    | nil =>
      refine ⟨fun _ => ⟨writer,[],rfl,by simpa using hwritten,?_,List.Forall₂.nil⟩,?_⟩
      · rw [append_nil]
        exact hplanned
      · rintro ⟨_,hmem,-⟩
        cases hmem
  | cons file files ih =>
    cases layouts with
    | nil => exact hplanned.elim
    | cons layout layouts =>
      obtain ⟨next,hplan,hrest⟩ := hplanned
      have hnext : next ≤ stop := hrest.tiles.le
      obtain ⟨hok,herror⟩ := hprogram file mem_cons_self writer done layout next hwritten hplan
        (by omega)
      by_cases hshort : layout.paxBodyLen < 8^11
      · obtain ⟨first,more,hfirst,hfirstWritten,hlength,hplaced⟩ := hok hshort
        beta_reduce at hfirst
        rw [←hlength] at hrest
        obtain ⟨hall,hsome⟩ := ih hrest
          (fun other hother => hprogram other (mem_cons_of_mem _ hother)) hfirstWritten
        constructor
        · intro hlayouts
          obtain ⟨last,rest,hlast,hlastWritten,hstop,hforall⟩ :=
            hall fun other hother => hlayouts other (mem_cons_of_mem _ hother)
          refine ⟨last,more++rest,?_,?_,?_,?_⟩
          · rw [foldlM_cons,hfirst,ok_bind,hlast]
          · rw [←append_assoc]
            exact hlastWritten
          · rw [←append_assoc]
            exact hstop
          · rw [←append_assoc]
            exact List.Forall₂.cons (hplaced.append rest) hforall
        · rintro ⟨other,hother,hlong⟩
          rcases mem_cons.mp hother with rfl | hother
          · exact absurd hshort (not_lt.mpr hlong)
          · obtain ⟨error,hrun⟩ := hsome ⟨other,hother,hlong⟩
            exact ⟨error,by rw [foldlM_cons,hfirst,ok_bind,hrun]⟩
      · constructor
        · intro hlayouts
          exact absurd (hlayouts layout mem_cons_self) hshort
        · intro _
          obtain ⟨error,hrun⟩ := herror (not_lt.mp hshort)
          beta_reduce at hrun
          exact ⟨error,by rw [foldlM_cons,hrun,error_bind]⟩

section
variable {services : FormatServices} {options : RemTarObjectOptions} {specs : List RemTarFileSpec}
  {layout : RemTarObjectLayout} {globalBody : Bytes} {globalPadded filesEnd objectEnd : ℕ}

theorem ObjectPlan.new (hplan : ObjectPlan services options specs layout globalBody globalPadded
    filesEnd objectEnd) {state : σ}
    (haccepts : Accepts sink blocks options.chunkSize capacity state) :
    ∃ writer, BodyBlockWriter.new state options.chunkSize=.ok writer ∧
      Written sink blocks options.chunkSize capacity (blocks state) writer [] := by
  refine ⟨⟨state,options.chunkSize,[],0,false,hplan.chunk_pos⟩,?_,rfl,rfl,⟨[],?_,rfl,?_,rfl⟩,haccepts⟩
  · rw [BodyBlockWriter.new,hplan.chunk,ok_bind,dif_pos hplan.chunk_pos]
    rfl
  · exact (append_nil _).symm
  · intro _ hmem
    cases hmem

theorem ObjectPlan.end_written (hplan : ObjectPlan services options specs layout globalBody
    globalPadded filesEnd objectEnd) {done : Bytes}
    (hwritten : Written sink blocks options.chunkSize layout.projectedSizeBlocks before writer done)
    (hlength : done.length=filesEnd) :
    (layout.manifest.paxBodyLen < 8^11 → ∃ state' full more,
      writeObjectEnd services sink writer options layout=.ok (layout,state') ∧
      blocks state'=before++full ∧ full.length=layout.projectedSizeBlocks ∧
      (∀ block ∈ full, block.length=options.chunkSize) ∧ full.flatten=done++more ∧
      Placed options.chunkSize (done++more) (manifestSpec services options layout.manifestCbor) true
        layout.manifestCbor layout.manifest) ∧
    (8^11 ≤ layout.manifest.paxBodyLen → ∃ error,
      writeObjectEnd services sink writer options layout=.error error) := by
  have htotal := hplan.total_eq
  have hge := hplan.total_ge
  have hlt := hplan.total_lt
  have hspec : { manifestSpec services options layout.manifestCbor with
      fileSha256 := some layout.manifestSha256 }=manifestSpec services options layout.manifestCbor := by
    rw [hplan.digest]
    rfl
  have hsize := (UInt64.toNat_ofNat_of_lt' (lt_trans hplan.manifest_lt (by decide))).symm
  have hmanifest := hplan.manifest
  rw [←hlength] at hmanifest
  obtain ⟨hok,herror⟩ := writesEntry_fromBytes hsize writer done layout.manifest objectEnd hwritten
    hmanifest (by omega)
  beta_reduce at hok herror
  constructor
  · intro hshort
    obtain ⟨first,more,hfirst,hfirstWritten,hend,hplaced⟩ := hok hshort
    have hzeros : (replicate tarRecordSize (0 : UInt8)).length=tarRecordSize :=
      length_replicate
    obtain ⟨second,hsecond,hsecondWritten⟩ := hfirstWritten.writeAll
      (replicate tarRecordSize 0) (by omega)
    obtain ⟨third,hthird,hthirdWritten⟩ := hsecondWritten.writeAll
      (replicate tarRecordSize 0) (by rw [length_append]; omega)
    have hdone : (done++more++replicate tarRecordSize 0++replicate tarRecordSize 0).length=
        objectEnd+2*tarRecordSize := by
      rw [length_append,length_append,hend,hzeros]
      omega
    have hroom : (done++more++replicate tarRecordSize 0++replicate tarRecordSize 0).length ≤
        layout.projectedSizeBlocks*options.chunkSize := by omega
    obtain ⟨last,full,hfinish,hcount,hblocks,hfull,hsizes,hflatten⟩ :=
      hthirdWritten.finish hroom (by omega) le_rfl
    simp only [append_assoc] at hflatten
    refine ⟨last.sink,full,_,?_,hblocks,hfull,hsizes,hflatten,?_⟩
    · rw [writeObjectEnd,hspec,hfirst,ok_bind,hsecond,ok_bind,hthird,ok_bind,hfinish,ok_bind,
        rejectIf_pos (not_not.mpr hcount),ok_bind]
      rfl
    · rw [←append_assoc]
      exact hplaced.append _
  · intro hlong
    obtain ⟨error,hrun⟩ := herror hlong
    exact ⟨error,by rw [writeObjectEnd,hspec,hrun,error_bind]⟩

end

def RemTarObjectLayout.HeadersFit (layout : RemTarObjectLayout) : Prop :=
  layout.globalPaxBodyLen < 8^11 ∧ (∀ file ∈ layout.files, file.paxBodyLen < 8^11) ∧
    layout.manifest.paxBodyLen < 8^11

instance (layout : RemTarObjectLayout) : Decidable layout.HeadersFit :=
  inferInstanceAs (Decidable (_ ∧ _))

/-- Blocks that hold every part of an object where its plan says. -/
structure ObjectStored {α : Type} (services : FormatServices) (options : RemTarObjectOptions)
    (specOf : α → RemTarFileSpec) (dataOf : α → Bytes) (files : List α)
    (layout : RemTarObjectLayout) (object : List Bytes) : Prop where
  count : object.length=layout.projectedSizeBlocks
  sizes : ∀ block ∈ object, block.length=options.chunkSize
  total : object.flatten.length=layout.totalSizeBytes
  globalHeader : encodeHeader "GlobalHead.0/PaxHeaders/remanence" layout.globalPaxBodyLen typePaxGlobal
    0o644=.ok (slice object.flatten 0 tarRecordSize)
  globalBody : encodePaxRecords (globalPaxRecords options layout.schemaVersion)=
    .ok (slice object.flatten tarRecordSize layout.globalPaxBodyLen)
  placed : List.Forall₂ (fun file entry => Placed options.chunkSize object.flatten (specOf file) false
    (dataOf file) entry) files layout.files
  manifest : Placed options.chunkSize object.flatten
    (manifestSpec services options layout.manifestCbor) true layout.manifestCbor layout.manifest

def writePlanned {α : Type} (services : FormatServices) (sink : BlockSink σ) (state : σ)
    (options : RemTarObjectOptions) (layout : RemTarObjectLayout)
    (program : BodyBlockWriter σ → α → Except FormatError (BodyBlockWriter σ)) (files : List α) :
    Except FormatError (RemTarObjectLayout×σ) := do
  let writer ← BodyBlockWriter.new state options.chunkSize
  let writer ← writeGlobalHeader sink writer options layout.schemaVersion
  let writer ← files.foldlM program writer
  writeObjectEnd services sink writer options layout

/-- The object behind the blocks that were there, unless the body of a header is too long. -/
def PlannedOutcome (layout : RemTarObjectLayout) (blocks : σ → List Bytes) (state : σ)
    (run : Except FormatError (RemTarObjectLayout×σ)) (stored : List Bytes → Prop) : Prop :=
  (layout.HeadersFit → ∃ state' object, run=.ok (layout,state') ∧ blocks state'=blocks state++object ∧
    stored object) ∧
  (¬layout.HeadersFit → ∃ error, run=.error error)

theorem ObjectPlan.written {α : Type}
    {specOf : α → RemTarFileSpec} {dataOf : α → Bytes} {files : List α}
    {globalBody : Bytes} {globalPadded filesEnd objectEnd : ℕ}
    {program : BodyBlockWriter σ → α → Except FormatError (BodyBlockWriter σ)} {state : σ}
    (hplan : ObjectPlan services options (files.map specOf) layout globalBody globalPadded filesEnd
      objectEnd)
    (hprogram : ∀ file ∈ files, WritesEntry sink blocks options.chunkSize layout.projectedSizeBlocks
      (blocks state) (specOf file) false (dataOf file) fun writer => program writer file)
    (haccepts : Accepts sink blocks options.chunkSize layout.projectedSizeBlocks state) :
    PlannedOutcome layout blocks state
      (writePlanned services sink state options layout program files)
      (ObjectStored services options specOf dataOf files layout) := by
  have hfilesEnd := hplan.files.tiles.le
  have hmanifestEnd := endOffset_of_planOneFile hplan.manifest
  have htotal := hplan.total_eq
  have hge := hplan.total_ge
  have hle := (le_of_roundUpUsize hplan.padded).1
  obtain ⟨first,hfirst,hfirstWritten⟩ := hplan.new haccepts
  have hname : HeaderTexts "GlobalHead.0/PaxHeaders/remanence" "" :=
    .unlinked (by decide) (by decide)
  obtain ⟨hglobal,hglobalError⟩ := hfirstWritten.paxHeader hname typePaxGlobal hplan.global
    hplan.padded (by rw [length_nil]; omega)
  by_cases hshort : globalBody.length < 8^11
  · obtain ⟨header,second,hheader,hheaderLength,hsecond,hsecondWritten⟩ := hglobal hshort
    have hstart : ([]++header++globalBody++
        replicate (globalPadded-globalBody.length) (0 : UInt8)).length=
        tarRecordSize+globalPadded := by
      simp only [nil_append,length_append,length_replicate]
      omega
    have hfiles := hplan.files
    rw [←hstart] at hfiles
    obtain ⟨hall,hsome⟩ := hfiles.written hprogram hsecondWritten (by omega)
    by_cases hbodies : ∀ file ∈ layout.files, file.paxBodyLen < 8^11
    · obtain ⟨third,more,hthird,hthirdWritten,hthirdLength,hplaced⟩ := hall hbodies
      obtain ⟨hend,hendError⟩ := hplan.end_written hthirdWritten hthirdLength
      constructor
      · intro hfit
        obtain ⟨state',object,rest,hrun,hblocks,hcount,hsizes,hflatten,hmanifest⟩ := hend hfit.2.2
        have hheaderAt : slice object.flatten 0 tarRecordSize=header := by
          rw [hflatten]
          simp only [nil_append,append_assoc]
          exact slice_append_mid (a := []) (b := header) _ rfl hheaderLength.symm
        have hbodyAt : slice object.flatten tarRecordSize globalBody.length=globalBody := by
          rw [hflatten]
          simp only [nil_append,append_assoc]
          rw [←append_assoc header]
          exact slice_append_mid _ hheaderLength.symm rfl
        refine ⟨state',object,?_,hblocks,hcount,hsizes,?_,?_,?_,?_,?_⟩
        · rw [writePlanned,hfirst,ok_bind,writeGlobalHeader,hsecond,ok_bind,hthird,ok_bind,hrun]
        · rw [length_flatten_of_blocks hsizes,hcount,htotal]
        · rw [hheaderAt,hplan.global_len]
          exact hheader
        · rw [hplan.global_len,hbodyAt]
          exact hplan.global
        · rw [hflatten]
          exact hplaced.imp fun _ _ h => h.append rest
        · rw [hflatten]
          exact hmanifest
      · intro hfit
        have hlong : 8^11 ≤ layout.manifest.paxBodyLen := by
          refine not_lt.mp fun hmanifest => hfit ⟨?_,hbodies,hmanifest⟩
          rw [hplan.global_len]
          exact hshort
        obtain ⟨error,hrun⟩ := hendError hlong
        exact ⟨error,by
          rw [writePlanned,hfirst,ok_bind,writeGlobalHeader,hsecond,ok_bind,hthird,ok_bind,hrun]⟩
    · constructor
      · intro hfit
        exact absurd hfit.2.1 hbodies
      · intro _
        push Not at hbodies
        obtain ⟨error,hrun⟩ := hsome hbodies
        exact ⟨error,by
          rw [writePlanned,hfirst,ok_bind,writeGlobalHeader,hsecond,ok_bind,hrun,error_bind]⟩
  · constructor
    · intro hfit
      rw [RemTarObjectLayout.HeadersFit,hplan.global_len] at hfit
      exact absurd hfit.1 hshort
    · intro _
      exact ⟨_,by rw [writePlanned,hfirst,ok_bind,writeGlobalHeader,
        hglobalError (not_lt.mp hshort),error_bind]⟩

def readerPayload (file : RemTarFileSpec×PayloadReader) : Bytes :=
  file.2.bytes.take file.1.sizeBytes.toNat

structure PayloadGiven (services : FormatServices) (file : RemTarFileSpec×PayloadReader) : Prop where
  enough : file.1.sizeBytes.toNat ≤ file.2.bytes.length
  grants : ∀ call ∈ file.2.script, ∃ granted, call=.ok granted ∧ 0 < granted
  digest : DigestAgrees services file.1 (readerPayload file)

variable {services : FormatServices} {options : RemTarObjectOptions} {layout : RemTarObjectLayout}
  {state : σ}

theorem writeRemTarObjectFromReaders_outcome {files : List (RemTarFileSpec×PayloadReader)}
    (hplan : planRemTarObject services options (files.map Prod.fst)=.ok layout)
    (hfiles : ∀ file ∈ files, PayloadGiven services file)
    (haccepts : Accepts sink blocks options.chunkSize layout.projectedSizeBlocks state) :
    PlannedOutcome layout blocks state (writeRemTarObjectFromReaders services sink state options files)
      (ObjectStored services options Prod.fst readerPayload files layout) := by
  obtain ⟨globalBody,globalPadded,filesEnd,objectEnd,hobject⟩ := objectPlan_of_plan hplan
  have hrun : writeRemTarObjectFromReaders services sink state options files=
      writePlanned services sink state options layout (fun writer file =>
        writeFileEntryFromReader services sink writer options.chunkSize file.1 file.2 false) files := by
    rw [writeRemTarObjectFromReaders,hplan,ok_bind,writePlanned]
  rw [hrun]
  refine hobject.written (fun file hfile => ?_) haccepts
  have hgiven := hfiles file hfile
  exact writesEntry_fromReader ⟨List.take_prefix _ _,hgiven.grants⟩
    (length_take_of_le hgiven.enough) hgiven.digest

theorem writeRemTarObject_outcome {files : List RemTarFile}
    (hplan : planRemTarObject services options (files.map (fileToSpec services))=.ok layout)
    (haccepts : Accepts sink blocks options.chunkSize layout.projectedSizeBlocks state) :
    PlannedOutcome layout blocks state (writeRemTarObject services sink state options files)
      (ObjectStored services options (fileToSpec services) RemTarFile.data files layout) := by
  obtain ⟨globalBody,globalPadded,filesEnd,objectEnd,hobject⟩ := objectPlan_of_plan hplan
  have hrun : writeRemTarObject services sink state options files=
      writePlanned services sink state options layout (fun writer file =>
        writeFileEntryFromBytes sink writer options.chunkSize (fileToSpec services file) file.data
          false) files := by
    rw [writeRemTarObject,hplan,ok_bind,writePlanned]
  rw [hrun]
  refine hobject.written (fun file _ => ?_) haccepts
  exact writesEntry_fromBytes
    (UInt64.toNat_ofNat_of_lt' (lt_trans file.data_lt (by decide))).symm

/-- A plan's entries lie behind each other, payloads start at chunk boundaries, and both writers put
every part where the plan says, unless the body of a header is too long. -/
theorem planRemTarObject_written {services : FormatServices} {options : RemTarObjectOptions}
    {specs : List RemTarFileSpec} {layout : RemTarObjectLayout}
    (hplan : planRemTarObject services options specs=.ok layout) :
    (layout.files++[layout.manifest]).Pairwise
      (fun first second => first.endOffset ≤ second.paxHeaderOffset) ∧
    (∀ entry ∈ layout.files++[layout.manifest],
      entry.paxHeaderOffset < entry.endOffset ∧ entry.Aligned options.chunkSize) ∧
    layout.totalSizeBytes=layout.projectedSizeBlocks*options.chunkSize ∧
    ∀ (σ : Type) (sink : BlockSink σ) (blocks : σ → List Bytes) (state : σ),
      Accepts sink blocks options.chunkSize layout.projectedSizeBlocks state →
      (∀ files : List (RemTarFileSpec×PayloadReader), files.map Prod.fst=specs →
        (∀ file ∈ files, PayloadGiven services file) →
        PlannedOutcome layout blocks state
          (writeRemTarObjectFromReaders services sink state options files)
          (ObjectStored services options Prod.fst readerPayload files layout)) ∧
      (∀ files : List RemTarFile, files.map (fileToSpec services)=specs →
        PlannedOutcome layout blocks state (writeRemTarObject services sink state options files)
          (ObjectStored services options (fileToSpec services) RemTarFile.data files layout)) := by
  obtain ⟨globalBody,globalPadded,filesEnd,objectEnd,hobject⟩ := objectPlan_of_plan hplan
  have hfiles := hobject.files.tiles
  obtain ⟨hmanifest,hpositive,-⟩ := endOffset_of_planOneFile hobject.manifest
  refine ⟨?_,?_,hobject.total_eq,?_⟩
  · refine pairwise_append.mpr ⟨hfiles.pairwise,pairwise_singleton _ _,?_⟩
    intro entry hentry last hlast
    rw [mem_singleton.mp hlast,hmanifest]
    exact (hfiles.mem hentry).2.2
  · intro entry hentry
    rcases mem_append.mp hentry with hentry | hlast
    · exact ⟨(hfiles.mem hentry).2.1,hobject.files.aligned entry hentry⟩
    · rw [mem_singleton.mp hlast]
      exact ⟨hpositive,aligned_of_planOneFile hobject.manifest⟩
  · rintro σ sink blocks state haccepts
    constructor
    · rintro files rfl hgiven
      exact writeRemTarObjectFromReaders_outcome hplan hgiven haccepts
    · rintro files rfl
      exact writeRemTarObject_outcome hplan haccepts

section Samples

def constantServices : FormatServices where
  hash := ⟨fun _ => FixedBytes.zero 32,fun _ _ => FixedBytes.zero 32⟩
  cbor := ⟨fun _ => .ok [0xa0],fun _ => .error "not used"⟩
  written_lt := by
    intro _ bytes h
    cases h
    decide

def sampleOptions (writeTimestamp : String) : RemTarObjectOptions where
  objectId := "object"
  callerObjectId := "caller"
  chunkSize := 512
  metadataPreservation := .minimal
  encryption := "none"
  writeTimestamp := writeTimestamp
  manifestFileId := "manifest"
  extensions := .empty

def sampleFile : RemTarFile where
  path := "a.txt"
  fileId := "a"
  data := [1,2,3]
  mtime := none
  executable := none
  data_lt := by decide

theorem exists_plan_sample : ∃ layout, planRemTarObject constantServices (sampleOptions "now")
      [fileToSpec constantServices sampleFile]=.ok layout ∧ layout.HeadersFit ∧
    layout.projectedSizeBlocks < 100 ∧
    layout.files.map (fun entry => (entry.firstChunkLba,entry.sizeBytes))=[(some 5,3)] := by
  have hok : (planRemTarObject constantServices (sampleOptions "now")
      [fileToSpec constantServices sampleFile]).toOption.map (fun layout => decide
        (layout.HeadersFit ∧ layout.projectedSizeBlocks < 100 ∧
          layout.files.map (fun entry => (entry.firstChunkLba,entry.sizeBytes))=[(some 5,3)]))=
      some true := by decide +kernel
  obtain ⟨layout,hplan,hlayout⟩ := exists_of_map hok
  exact ⟨layout,hplan,of_decide_eq_true hlayout⟩

theorem planRemTarObject_written_sample :
    ∃ layout, planRemTarObject constantServices (sampleOptions "now")
        [fileToSpec constantServices sampleFile]=.ok layout ∧
      PlannedOutcome layout VecBlockSink.blocks ⟨[],0⟩
        (writeRemTarObject constantServices vecBlockSink ⟨[],0⟩ (sampleOptions "now") [sampleFile])
        (ObjectStored constantServices (sampleOptions "now") (fileToSpec constantServices)
          RemTarFile.data [sampleFile] layout) := by
  obtain ⟨layout,hplan,-,hcount,-⟩ := exists_plan_sample
  refine ⟨layout,hplan,?_⟩
  exact ((planRemTarObject_written hplan).2.2.2 _ vecBlockSink VecBlockSink.blocks ⟨[],0⟩
    (vecBlockSink_accepts (by decide)
      (lt_trans (Nat.add_lt_add_left hcount _) (by decide)))).2 [sampleFile] rfl

variable {line : Bytes}

theorem encodePaxRecords_insert_last {records : PaxRecords} {key value : String} {body : Bytes}
    (hlast : ∀ entry ∈ records.entries, entry.1 < key) (hbody : encodePaxRecords records=.ok body)
    (hline : encodePaxRecord key value=.ok line) :
    encodePaxRecords (records.insert key value)=.ok (body++line) := by
  have hentries : (records.insert key value).entries=records.entries++[(key,value)] :=
    insertEntry_of_forall_lt hlast
  rw [encodePaxRecords] at hbody ⊢
  rw [hentries,foldlM_append,hbody,ok_bind,foldlM_cons]
  dsimp only
  rw [hline]
  rfl

theorem encodePaxRecord_replicate {key : String} {count len : ℕ} (hkey : validateKeyword key=.ok ())
    (hlen : paxRecordLen key count=.ok len)
    (hfixed : decimalDigits len+(utf8 key).length+count+3=len) :
    ∃ line, encodePaxRecord key (String.ofList (replicate count 'x'))=.ok line ∧
      line.length=len := by
  have hvalue : validateValue (String.ofList (replicate count 'x'))=.ok () := by
    refine rejectIf_pos ?_
    rintro ⟨byte,hmem,hlow⟩
    rw [utf8_replicate] at hmem
    rw [eq_of_mem_replicate hmem] at hlow
    exact absurd hlow (by decide)
  have hline : (asciiDigits 10 len++utf8 " "++utf8 key++utf8 "="++
      utf8 (String.ofList (replicate count 'x'))++utf8 "\n").length=len := by
    have hspace : (utf8 " ").length=1 := by decide
    have hequals : (utf8 "=").length=1 := by decide
    have hbreak : (utf8 "\n").length=1 := by decide
    rw [utf8_replicate]
    simp only [length_append,length_asciiDigits,length_replicate,hspace,hequals,hbreak]
    omega
  refine ⟨_,?_,hline⟩
  rw [encodePaxRecord,hkey,ok_bind,hvalue,ok_bind,utf8_replicate,length_replicate,hlen,ok_bind]
  rw [utf8_replicate] at hline
  dsimp only
  rw [rejectIf_pos (not_not.mpr hline),ok_bind]
  rfl

theorem replicate_ne_empty {count : ℕ} (h : 0 < count) :
    String.ofList (replicate count 'x')≠"" := by
  intro hempty
  have hbytes := utf8_replicate count
  rw [hempty] at hbytes
  have hlength := congrArg List.length hbytes
  rw [length_replicate] at hlength
  exact absurd hlength.symm (ne_of_gt h)

def earlierRecords : PaxRecords :=
  OrderedMap.empty
    |>.insert "REMANENCE.format_id" formatId
    |>.insert "REMANENCE.schema_version" schemaVersion
    |>.insert "REMANENCE.object_id" "object"
    |>.insert "REMANENCE.caller_object_id" "caller"
    |>.insert "REMANENCE.chunk_size" (toString 512)
    |>.insert "REMANENCE.metadata_preservation" "minimal"
    |>.insert "REMANENCE.encryption" "none"

theorem exists_longGlobalBody {text : String}
    (hline : encodePaxRecord "REMANENCE.write_timestamp" text=.ok line)
    (hlength : line.length=8^11+38) : ∃ body,
    encodePaxRecords (globalPaxRecords (sampleOptions text) schemaVersion)=.ok body ∧
      body.length=8^11+274 := by
  have hearlier : (encodePaxRecords earlierRecords).toOption.map List.length=some 236 := by
    decide +kernel
  have hlast : ∀ entry ∈ earlierRecords.entries, entry.1 < "REMANENCE.write_timestamp" := by
    decide +kernel
  obtain ⟨body,hbody,hcount⟩ := exists_of_map hearlier
  refine ⟨body++line,encodePaxRecords_insert_last hlast hbody hline,?_⟩
  rw [length_append,hlength,hcount]
  omega

theorem planRemTarObject_nil
    {version : String} {globalBody manifestCbor : Bytes} {padded offset next stop total : ℕ}
    {manifest : RemTarFileLayout} (hoptions : validateOptions options=.ok ())
    (hversion : streamSchemaVersion []=version)
    (hbody : encodePaxRecords (globalPaxRecords options version)=.ok globalBody)
    (hpadded : roundUpUsize globalBody.length tarRecordSize=.ok padded)
    (hoffset : addOffset 0 (tarRecordSize+padded)=.ok offset)
    (hcbor : encodeManifest services options []=.ok manifestCbor)
    (hentry : planOneFile options.chunkSize offset (manifestSpec services options manifestCbor) true
      none=.ok (manifest,next))
    (hend : addOffset next (2*tarRecordSize)=.ok stop)
    (htotal : roundUpU64 stop options.chunkSize=.ok total) :
    planRemTarObject services options []=.ok ⟨options.objectId,options.callerObjectId,options.chunkSize,
      version,total,total/options.chunkSize,[],manifest,services.hash.sha256 manifestCbor,manifestCbor,
      globalBody.length⟩ := by
  rw [planRemTarObject,hoptions,ok_bind,rejectIf_pos (by decide),ok_bind,hversion]
  dsimp only
  rw [hbody,ok_bind,hpadded,ok_bind,hoffset,ok_bind,foldlM_nil,pure_bind,
    rejectIf_pos not_mem_nil,ok_bind,hcbor,ok_bind,hentry,ok_bind]
  rw [hend,ok_bind,htotal]
  rfl

theorem exists_longPlan {text : String} (hnonempty : text≠"")
    (hline : encodePaxRecord "REMANENCE.write_timestamp" text=.ok line)
    (hlength : line.length=8^11+38) : ∃ layout,
    planRemTarObject constantServices (sampleOptions text) []=.ok layout ∧
      8^11 ≤ layout.globalPaxBodyLen ∧ layout.projectedSizeBlocks < 2^25 := by
  obtain ⟨body,hbody,hbodyLength⟩ := exists_longGlobalBody hline hlength
  have hoptions : validateOptions (sampleOptions text)=.ok () := by
    have hchunk : validateChunkSize 512=.ok () := by decide
    simp [validateOptions,validateNonEmpty,sampleOptions,rejectIf,hchunk,hnonempty]
  have hpadded : roundUpUsize (8^11+274) tarRecordSize=.ok (8^11+512) := by decide +kernel
  have hoffset : addOffset 0 (tarRecordSize+(8^11+512))=.ok (8^11+1024) := by decide +kernel
  have hmanifest : (planOneFile 512 (8^11+1024)
      (manifestSpec constantServices (sampleOptions "") [0xa0]) true none).toOption.map Prod.snd=
      some (8^11+3072) := by decide +kernel
  obtain ⟨⟨manifest,next⟩,hentry,rfl⟩ := exists_of_map hmanifest
  have hversion : streamSchemaVersion []=schemaVersion := by decide
  have hcbor : encodeManifest constantServices (sampleOptions text) []=.ok [0xa0] := by
    rfl
  have hend : addOffset (8^11+3072) (2*tarRecordSize)=.ok (8^11+4096) := by decide +kernel
  have htotal : roundUpU64 (8^11+4096) 512=.ok (8^11+4096) := by decide +kernel
  refine ⟨_,planRemTarObject_nil hoptions hversion hbody (by rw [hbodyLength]; exact hpadded) hoffset
    hcbor hentry hend htotal,?_,?_⟩
  · dsimp only
    omega
  · exact show (8^11+4096)/512 < 2^25 by decide

/-- A plan whose global header no writer can encode. -/
theorem exists_plan_refused : ∃ options layout,
    planRemTarObject constantServices options []=.ok layout ∧
      ∃ error, writeRemTarObject constantServices vecBlockSink ⟨[],0⟩ options []=.error error := by
  have hkey : validateKeyword "REMANENCE.write_timestamp"=.ok () := by decide +kernel
  have hlen : paxRecordLen "REMANENCE.write_timestamp" (8^11)=.ok (8^11+38) := by decide +kernel
  obtain ⟨line,hline,hlength⟩ := encodePaxRecord_replicate hkey hlen (by decide +kernel)
  obtain ⟨layout,hplan,hlong,hcount⟩ := exists_longPlan (replicate_ne_empty (by decide)) hline hlength
  have haccepts : Accepts vecBlockSink VecBlockSink.blocks 512 layout.projectedSizeBlocks ⟨[],0⟩ :=
    vecBlockSink_accepts (by decide) (lt_trans (Nat.add_lt_add_left hcount _) (by decide))
  refine ⟨_,layout,hplan,?_⟩
  have houtcome : PlannedOutcome layout VecBlockSink.blocks ⟨[],0⟩
      (writeRemTarObject constantServices vecBlockSink ⟨[],0⟩ _ []) _ :=
    writeRemTarObject_outcome hplan haccepts
  exact houtcome.2 fun hfit => absurd hfit.1 (not_lt.mpr hlong)

end Samples

end Remanence.Format
