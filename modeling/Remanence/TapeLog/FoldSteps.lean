import Remanence.TapeLog.Fold

/-!
# What an accepted frame does

Inversion lemmas of the fold: what each kind of accepted row, chunk and
closing record establishes, and how sequences of accepted frames compose.
-/

namespace Remanence.TapeLog

open Foundation Parity

variable {env : LogServices}

@[simp] theorem add_eq_ok {a b c : UInt64} : add a b=.ok c ↔ a.toNat+b.toNat=c.toNat := by
  rw [add,orElseError_eq_ok,checkedAdd64_eq_some]

namespace Fold

variable {fold : Fold} {f : Frame}

theorem push_eq_ok {next : Fold} :
    fold.push env f=(next,.ok ()) ↔ fold.poisoned=false ∧ fold.apply env f=.ok next := by
  unfold push
  cases hpoisoned : fold.poisoned with
  | true => simp
  | false => cases happly : fold.apply env f <;> simp

/-- Checks every accepted frame passes, before its record is applied. -/
theorem apply_eq_ok {next : Fold} : fold.apply env f=.ok next ↔
    f.payloadValidated=true ∧ f.sequence=fold.nextSequence ∧
      (f.record.isCatalog=false → f.payload=[]) ∧ fold.summary.sealed=false ∧
      ∃ n : UInt64, f.sequence.toNat+1=n.toNat ∧ fold.applyRecord env f n=.ok next := by
  simp only [apply,eq_ok,add_eq_ok,exists_const,not_and,not_not,
    Bool.not_eq_false,Bool.not_eq_true,UInt64.reduceToNat]
  constructor
  · rintro ⟨hvalid,hsequence,n,hn,hpayload,hsealed,happly⟩
    exact ⟨hvalid,hsequence,hpayload,hsealed,n,hn,happly⟩
  · rintro ⟨hvalid,hsequence,hpayload,hsealed,n,hn,happly⟩
    exact ⟨hvalid,hsequence,n,hn,hpayload,hsealed,happly⟩

theorem pushAll_cons_eq_ok {last : Fold} {rest : List Frame} : fold.pushAll env (f::rest)=.ok last ↔
      ∃ next, fold.push env f=(next,.ok ()) ∧ next.pushAll env rest=.ok last := by
  rw [pushAll]
  constructor
  · intro h
    split at h
    · rename_i next hpush
      exact ⟨next,hpush,h⟩
    · cases h
  · rintro ⟨next,hpush,hrest⟩
    rw [hpush]
    exact hrest

theorem pushAll_append_eq_ok {last : Fold} {fs gs : List Frame} :
    fold.pushAll env (fs++gs)=.ok last ↔
      ∃ mid, fold.pushAll env fs=.ok mid ∧ mid.pushAll env gs=.ok last := by
  induction fs generalizing fold with
  | nil => simp [pushAll]
  | cons f fs ih =>
    simp only [List.cons_append,pushAll_cons_eq_ok,ih]
    constructor
    · rintro ⟨next,hpush,mid,hmid,hlast⟩
      exact ⟨mid,⟨next,hpush,hmid⟩,hlast⟩
    · rintro ⟨mid,⟨next,hpush,hmid⟩,hlast⟩
      exact ⟨next,hpush,mid,hmid,hlast⟩

end Fold

structure KeepsRows (p p' : Pending) : Prop where
  state : p'.state=p.state
  group : p'.group=p.group
  rows : p'.rows=p.rows
  objects : p'.objects=p.objects
  components : p'.components=p.components
  rowDigest : p'.rowDigest=p.rowDigest

variable {p p' : Pending} {summary : TapeSummary}

theorem applyTailFile_keeps {file : TailFile}
    (h : applyTailFile summary p file=.ok p') : KeepsRows p p' := by
  simp only [applyTailFile,eq_ok] at h
  obtain ⟨_,_,_,_,_,_,_,_,_,_,_,_,_,_,_,_,_,_,_,_,_,_,rfl⟩ := h
  exact ⟨rfl,rfl,rfl,rfl,rfl,rfl⟩

variable {payload : Bytes}

theorem applyCatalog_keeps {file ordinal : UInt64} {last : Bool}
    (h : applyCatalog p payload file ordinal last=.ok p') : KeepsRows p p' := by
  simp only [applyCatalog,bind_eq_ok] at h
  obtain ⟨_,_,_,_,_,_,_,_,h⟩ := h
  unfold continueCatalog at h
  split at h
  · simp only [eq_ok] at h
    obtain ⟨_,_,_,_,rfl⟩ := h
    exact ⟨rfl,rfl,rfl,rfl,rfl,rfl⟩
  · cases h
    exact ⟨rfl,rfl,rfl,rfl,rfl,rfl⟩

theorem applyPlanDirectory_keeps {row : SidecarEpochDirectoryEntry}
    (h : applyPlanDirectory p row=.ok p') : KeepsRows p p' := by
  simp only [applyPlanDirectory,eq_ok] at h
  obtain ⟨_,_,_,_,rfl⟩ := h
  exact ⟨rfl,rfl,rfl,rfl,rfl,rfl⟩

variable {row : TapeFileEntry}

theorem checkRow_eq_ok {u : Unit} (h : checkRow p row=.ok u) :
    p.catalog=none ∧ row.tapeFileNumber=p.state.nextFile ∧ row.blockCount≠0 ∧
      row.physicalStartHint=some p.state.cursor.lba := by
  simp only [checkRow,eq_ok,exists_const,not_or,not_not] at h
  exact ⟨h.1,h.2.1.1,h.2.1.2.1,h.2.1.2.2⟩

theorem advance_eq_ok {s s' : TapeSummary} (h : advance s row=.ok s') :
    ∃ lba nextFile, s.cursor.lba.toNat+row.blockCount.toNat+1=lba.toNat ∧
      s.nextFile.toNat+1=nextFile.toNat ∧
      s'={ s with cursor := { s.cursor with lba := lba },nextFile := nextFile } := by
  simp only [advance,eq_ok,add_eq_ok,UInt64.reduceToNat] at h
  obtain ⟨mid,hmid,lba,hlba,nextFile,hfile,rfl⟩ := h
  exact ⟨lba,nextFile,by omega,hfile,rfl⟩

theorem countRow_eq_ok (h : countRow p row false=.ok p') :
    ∃ rows bytes, p.rows.toNat+1=rows.toNat ∧ Wire.put row=some bytes ∧
      p'={ p with rows := rows,rowDigest := p.rowDigest++bytes } := by
  simp only [countRow,Bool.false_eq_true,if_false,eq_ok,add_eq_ok,UInt64.reduceToNat] at h
  obtain ⟨rows,hrows,bytes,hbytes,rfl⟩ := h
  exact ⟨rows,bytes,hrows,hbytes,rfl⟩

theorem countRow_state {bot : Bool} (h : countRow p row bot=.ok p') : p'.state=p.state := by
  unfold countRow at h
  split at h
  · rw [←Except.ok.inj h]
  · simp only [eq_ok] at h
    obtain ⟨_,_,_,_,rfl⟩ := h
    rfl

theorem applyObject_eq_ok (h : applyObject p row=.ok p') :
    checkObjectRow p.state row=.ok () ∧ ∃ s objectCount objects catalog,
      extendOrdinals p.state row=.ok s ∧ p.objects.toNat+1=objects.toNat ∧
      p'={ p with
        state := { s with objectCount := objectCount }
        objects := objects
        catalog := some catalog } := by
  simp only [applyObject,eq_ok,add_eq_ok, UInt64.reduceToNat] at h
  obtain ⟨_,hcheck,s,hs,objectCount,_,objects,hobjects,_,_,_,_,rfl⟩ := h
  exact ⟨hcheck,s,objectCount,objects,_,hs,hobjects,rfl⟩

/-- A sidecar row: it starts at `W`, ends at most at `T` and covers at most
one epoch. -/
theorem applySidecar_eq_ok
    (h : applySidecar p row=.ok p') : ∃ stop sidecarBlocks sidecarIdentity nextEpoch,
      row.protectedOrdinalEndExclusive=some stop ∧ p.state.scheme≠none ∧
      p.state.protectedUpTo < stop ∧ stop ≤ p.state.total ∧
      p'={ p with
        sidecarBlocks := sidecarBlocks
        state := { p.state with
          sidecarIdentity := sidecarIdentity
          protectedUpTo := stop
          nextEpoch := nextEpoch
          uncovered := trim stop p.state.uncovered } } := by
  simp only [applySidecar,eq_ok,add_eq_ok, not_or] at h
  obtain ⟨blocks,_,stop,hstop,_,⟨hscheme,_,_,hlt,hle,_⟩,hash,_,epoch,_,rfl⟩ := h
  exact ⟨stop,blocks,_,epoch,hstop,hscheme,UInt64.not_le.mp hlt,UInt64.not_lt.mp hle,rfl⟩

theorem applyParityMap_eq_ok (h : applyParityMap p row=.ok p') :
    ∃ maps, p'={ p with maps := maps } := by
  simp only [applyParityMap,eq_ok] at h
  obtain ⟨_,_,maps,_,rfl⟩ := h
  exact ⟨maps,rfl⟩

theorem applyComponent_eq_ok (h : applyComponent p row=.ok p') : p.state.finalization≠none ∧
      ∃ components, p.components.toNat+1=components.toNat ∧
        p'={ p with components := components } := by
  simp only [applyComponent,eq_ok,add_eq_ok, UInt64.reduceToNat] at h
  obtain ⟨plan,hplan,_,_,_,_,components,hcomponents,rfl⟩ := h
  exact ⟨by rw [hplan]; exact Option.some_ne_none _,components,hcomponents,rfl⟩

variable {bot : Bool}

theorem applyRow_eq_ok (h : applyRow p row bot=.ok p') : checkRow p row=.ok () ∧ ∃ q state,
      applyKind p row bot=.ok q ∧ advance q.state row=.ok state ∧
        countRow { q with state := state } row bot=.ok p' := by
  simp only [applyRow,bind_eq_ok] at h
  obtain ⟨_,hcheck,q,hkind,_,_,state,hadvance,hcount⟩ := h
  exact ⟨hcheck,q,state,hkind,hadvance,hcount⟩

theorem applyKind_cases {q : Pending}
    (h : applyKind p row bot=.ok q) : row.kind=.object ∧ applyObject p row=.ok q ∨
      row.kind=.paritySidecar ∧ applySidecar p row=.ok q ∨
      row.kind≠.object ∧ row.kind≠.paritySidecar ∧
        ∃ maps components, q={ p with maps := maps,components := components } := by
  unfold applyKind at h
  split at h <;> rename_i hkind <;> rw [hkind]
  · simp only [eq_ok] at h
    obtain ⟨_,_,rfl⟩ := h
    exact .inr (.inr ⟨by decide,by decide,_,_,rfl⟩)
  · exact .inl ⟨rfl,h⟩
  · exact .inr (.inl ⟨rfl,h⟩)
  · obtain ⟨_,rfl⟩ := applyParityMap_eq_ok h
    exact .inr (.inr ⟨by decide,by decide,_,_,rfl⟩)
  all_goals
    obtain ⟨_,_,_,rfl⟩ := applyComponent_eq_ok h
    exact .inr (.inr ⟨by decide,by decide,_,_,rfl⟩)

theorem applyKind_keeps {q : Pending} (h : applyKind p row bot=.ok q) :
    q.group=p.group ∧ q.rows=p.rows ∧ q.rowDigest=p.rowDigest := by
  obtain ⟨-,h⟩ | ⟨-,h⟩ | ⟨-,-,_,_,rfl⟩ := applyKind_cases h
  · obtain ⟨_,_,_,_,_,_,_,rfl⟩ := applyObject_eq_ok h
    exact ⟨rfl,rfl,rfl⟩
  · obtain ⟨_,_,_,_,_,_,_,_,rfl⟩ := applySidecar_eq_ok h
    exact ⟨rfl,rfl,rfl⟩
  · exact ⟨rfl,rfl,rfl⟩

/-- A row moves only positions, ordinals, epochs and the counters of objects. -/
theorem applyRow_frame (h : applyRow p row bot=.ok p') :
    ∃ lba nextFile total uncovered objectCount protectedUpTo nextEpoch sidecarIdentity,
      p'.state={ p.state with
        cursor := { p.state.cursor with lba := lba }
        nextFile := nextFile
        total := total
        uncovered := uncovered
        objectCount := objectCount
        protectedUpTo := protectedUpTo
        nextEpoch := nextEpoch
        sidecarIdentity := sidecarIdentity } := by
  obtain ⟨-,q,state,hkind,hadvance,hcount⟩ := applyRow_eq_ok h
  have hstate := countRow_state hcount
  obtain ⟨lba,nextFile,-,-,rfl⟩ := advance_eq_ok hadvance
  rw [hstate]
  rcases applyKind_cases hkind with ⟨-,happly⟩ | ⟨-,happly⟩ | ⟨-,-,_,_,rfl⟩
  · obtain ⟨-,s,objectCount,objects,catalog,hextend,-,rfl⟩ := applyObject_eq_ok happly
    unfold extendOrdinals at hextend
    split at hextend
    · simp only [eq_ok] at hextend
      obtain ⟨_,_,_,_,_,_,rfl⟩ := hextend
      exact ⟨_,_,_,_,_,_,_,_,rfl⟩
    · simp only [eq_ok] at hextend
      obtain ⟨_,_,_,_,rfl⟩ := hextend
      exact ⟨_,_,_,_,_,_,_,_,rfl⟩
  · obtain ⟨_,_,_,_,_,_,_,_,rfl⟩ := applySidecar_eq_ok happly
    exact ⟨_,_,_,_,_,_,_,_,rfl⟩
  · exact ⟨_,_,_,_,_,_,_,_,rfl⟩

theorem applyRow_counts (h : applyRow p row false=.ok p') :
    p'.group=p.group ∧ p.rows.toNat+1=p'.rows.toNat ∧
      ∃ bytes, Wire.put row=some bytes ∧ p'.rowDigest=p.rowDigest++bytes := by
  obtain ⟨-,q,state,hkind,-,hcount⟩ := applyRow_eq_ok h
  obtain ⟨hgroup,hrows,hdigest⟩ := applyKind_keeps hkind
  obtain ⟨rows,bytes,hcounted,hbytes,rfl⟩ := countRow_eq_ok hcount
  rw [←hrows,←hdigest,←hgroup]
  exact ⟨rfl,hcounted,bytes,hbytes,rfl⟩

theorem applyChunk_cases {chunk : Chunk} (h : applyChunk summary p payload chunk=.ok p') :
    (∃ row, chunk=.fileRow row ∧ applyRow p row false=.ok p') ∨
      (∀ row, chunk≠.fileRow row) ∧ KeepsRows p p' := by
  cases chunk with
  | tailFile file => exact .inr ⟨by simp,applyTailFile_keeps h⟩
  | catalog file ordinal last => exact .inr ⟨by simp,applyCatalog_keeps h⟩
  | planDirectory row => exact .inr ⟨by simp,applyPlanDirectory_keeps h⟩
  | fileRow row =>
    simp only [applyChunk,bind_eq_ok] at h
    obtain ⟨_,_,hrow⟩ := h
    exact .inl ⟨row,rfl,hrow⟩

theorem applyChunk_group {chunk : Chunk}
    (h : applyChunk summary p payload chunk=.ok p') : p'.group=p.group := by
  obtain ⟨row,-,hrow⟩ | ⟨-,hkeep⟩ := applyChunk_cases h
  · exact (applyRow_counts hrow).1
  · exact hkeep.group

def groupOf (fold : Fold) (f : Frame) : Pending :=
  fold.pending.getD (.new fold.summary f.sequence f.offset)

theorem applyContinuation_eq_ok {fold : Fold} {f : Frame} {c : Continuation}
    (h : applyContinuation fold.summary fold.pending f c=.ok p') :
    (fold.pending=none → ¬fold.summary.isFresh) ∧ ∃ q group,
      applyChunk fold.summary (groupOf fold f) f.payload c.chunk=.ok q ∧
      group.reference.startOffset=(groupOf fold f).group.reference.startOffset ∧
      (groupOf fold f).group.reference.frameCount.toNat+1=group.reference.frameCount.toNat ∧
      p'={ q with group := group } := by
  simp only [applyContinuation,eq_ok] at h
  obtain ⟨_,hfresh,_,_,_,_,q,hchunk,group,hgroup,rfl⟩ := h
  have hkeep : q.group=(groupOf fold f).group := applyChunk_group hchunk
  simp only [GroupDigest.push,eq_ok,add_eq_ok,UInt64.reduceToNat,hkeep] at hgroup
  obtain ⟨_,_,_,_,_,_,frameCount,hcount,_,_,rfl⟩ := hgroup
  refine ⟨fun hnone hf => hfresh ⟨hf,hnone⟩,q,_,hchunk,?_,hcount,rfl⟩
  rfl

/-- The group is complete and its effect is that of the record. -/
theorem applyClosing_eq_ok {fold : Fold} {f : Frame} {s' : TapeSummary}
    (h : applyClosing env fold.summary fold.pending f=.ok s') : ¬fold.summary.isFresh ∧
      ∃ s, closeRecord env fold.summary (groupOf fold f) f=.ok s ∧
        s'={ s with lastClosedSequence := f.sequence,closedEnd := f.stop } := by
  simp only [applyClosing,eq_ok] at h
  obtain ⟨_,hfresh,_,_,_,_,s,hclose,rfl⟩ := h
  exact ⟨hfresh,s,hclose,rfl⟩

namespace Fold

variable {fold next : Fold} {f : Frame}

section

variable (h : fold.apply env f=.ok next)
include h

/-- The three ways an accepted frame changes the fold. -/
theorem apply_cases : (∃ init, f.record=.initialized init ∧ fold.pending=none ∧ next.pending=none ∧
      applyInitialized fold.summary fold.pending f init=.ok next.summary) ∨
    (∃ c p, f.record=.payloadContinuation c ∧ next.summary=fold.summary ∧ next.pending=some p ∧
      applyContinuation fold.summary fold.pending f c=.ok p) ∨
    ((∀ init, f.record≠.initialized init) ∧ (∀ c, f.record≠.payloadContinuation c) ∧
      next.pending=none ∧ applyClosing env fold.summary fold.pending f=.ok next.summary) := by
  obtain ⟨-,-,-,-,n,-,h⟩ := apply_eq_ok.mp h
  unfold applyRecord at h
  split at h
  · rename_i init hrecord
    simp only [eq_ok] at h
    obtain ⟨s,hs,rfl⟩ := h
    have hnone : fold.pending=none := by
      simp only [applyInitialized,eq_ok,not_or,not_not] at hs
      obtain ⟨_,⟨-,hnone⟩,-⟩ := hs
      exact hnone
    exact .inl ⟨init,hrecord,hnone,hnone,hs⟩
  · rename_i c hrecord
    simp only [eq_ok] at h
    obtain ⟨p,hp,rfl⟩ := h
    exact .inr (.inl ⟨c,p,hrecord,rfl,rfl,hp⟩)
  · rename_i hinit hcontinuation
    simp only [eq_ok] at h
    obtain ⟨s,hs,rfl⟩ := h
    exact .inr (.inr ⟨hinit,hcontinuation,rfl,hs⟩)

theorem apply_poisoned : next.poisoned=fold.poisoned := by
  obtain ⟨-,-,-,-,n,-,h⟩ := apply_eq_ok.mp h
  unfold applyRecord at h
  split at h
  all_goals
    simp only [eq_ok] at h
    obtain ⟨_,_,rfl⟩ := h
    rfl

theorem apply_continuation
    (hopen : f.record.closing=false) : next.summary=fold.summary ∧ ∃ p, next.pending=some p ∧
      p.group.reference.startOffset=(groupOf fold f).group.reference.startOffset := by
  rcases apply_cases h with ⟨init,hrecord,-⟩ | ⟨c,p,hrecord,hsummary,hpending,happly⟩ | ⟨-,hc,-⟩
  · rw [hrecord] at hopen
    cases hopen
  · obtain ⟨-,q,group,-,hoffset,-,rfl⟩ := applyContinuation_eq_ok happly
    exact ⟨hsummary,_,hpending,hoffset⟩
  · cases hrecord : f.record with
    | payloadContinuation c => exact absurd hrecord (hc c)
    | _ => rw [hrecord] at hopen; cases hopen

/-- A closing record closes the group and extends the authoritative bytes to
the end of its frame. -/
theorem apply_closing (hclosing : f.record.closing=true) :
    next.pending=none ∧ next.summary.closedEnd=f.stop := by
  rcases apply_cases h with ⟨init,-,-,hpending,happly⟩ | ⟨c,p,hrecord,-⟩ | ⟨-,-,hpending,happly⟩
  · simp only [applyInitialized,eq_ok] at happly
    obtain ⟨_,_,_,_,_,_,_,_,_,_,state,_,hsummary⟩ := happly
    exact ⟨hpending,by rw [←hsummary]; rfl⟩
  · rw [hrecord] at hclosing
    cases hclosing
  · obtain ⟨-,s,-,hsummary⟩ := applyClosing_eq_ok happly
    exact ⟨hpending,by rw [hsummary]⟩

end

end Fold

end Remanence.TapeLog
