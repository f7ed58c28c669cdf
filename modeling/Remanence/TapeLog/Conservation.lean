import Remanence.Parity.MapRows
import Remanence.TapeLog.RowScan
import Remanence.TapeLog.Uncovered

/-!
# Log rows and the published counters

The fold counts files, blocks, ordinals and epochs; the row scan lists the rows themselves. Both
select the same rows, so the counters are sums over the scanned rows, which on a parity tape
form a filemark map with the same totals.
-/

namespace Remanence.TapeLog

open Foundation Parity List TapeFileEntry

variable {env : LogServices}

structure RowCounters where
  tapeUuid : Option (FixedBytes 16)
  scheme : Option ParityScheme
  lba : UInt64
  nextFile : UInt64
  total : UInt64
  nextEpoch : UInt64
  protectedUpTo : UInt64

def TapeSummary.rowCounters (s : TapeSummary) : RowCounters :=
  ⟨s.tapeUuid,s.scheme,s.cursor.lba,s.nextFile,s.total,s.nextEpoch,s.protectedUpTo⟩

def rowsOfKind (kind : TapeFileKind) (rows : List TapeFileEntry) : List TapeFileEntry :=
  rows.filter fun row => row.kind=kind

variable {row : TapeFileEntry}

theorem rowsOfKind_concat_of_eq {kind : TapeFileKind} (h : row.kind=kind)
    (rows : List TapeFileEntry) : rowsOfKind kind (rows++[row])=rowsOfKind kind rows++[row] := by
  simp [rowsOfKind,h]

theorem rowsOfKind_concat_of_ne {kind : TapeFileKind} (h : row.kind≠kind)
    (rows : List TapeFileEntry) : rowsOfKind kind (rows++[row])=rowsOfKind kind rows := by
  simp [rowsOfKind,h]

structure KindTotals (rows : List TapeFileEntry) (c : RowCounters) : Prop where
  total : ((rowsOfKind .object rows).map fun row => row.blockCount.toNat).sum=c.total.toNat
  epochs : (rowsOfKind .paritySidecar rows).length=c.nextEpoch.toNat
  last : ∀ row, (rowsOfKind .paritySidecar rows).getLast?=some row →
    row.protectedOrdinalEndExclusive=some c.protectedUpTo
  unprotected : rowsOfKind .paritySidecar rows=[] → c.protectedUpTo=0
  ends : ∀ row ∈ rows, ∀ stop, row.protectedOrdinalEndExclusive=some stop →
    row.kind=.paritySidecar ∧ stop.toNat ≤ c.protectedUpTo.toNat

structure RowTotals (rows : List TapeFileEntry) (c : RowCounters) : Prop
    extends KindTotals rows c where
  numbered : (rows.map fun row => row.tapeFileNumber.toNat)=List.range rows.length
  count : rows.length=c.nextFile.toNat
  lba : (rows.map fun row => row.blockCount.toNat+1).sum=c.lba.toNat
  accepted : c.scheme≠none → AcceptedRows [] (rows.map TapeFileEntry.toMapEntry)

inductive KindStep (c : RowCounters) (row : TapeFileEntry) (bot : Bool) : RowCounters → Prop
  | object (total : UInt64) (kind : row.kind=.object)
      (first : c.scheme≠none → row.firstParityDataOrdinal=some c.total)
      (extended : c.total.toNat+row.blockCount.toNat=total.toNat) :
      KindStep c row bot { c with total := total }
  | sidecar (stop nextEpoch : UInt64) (kind : row.kind=.paritySidecar)
      (epoch : row.epochId=some c.nextEpoch)
      (start : row.protectedOrdinalStart=some c.protectedUpTo)
      (range : row.protectedOrdinalEndExclusive=some stop) (raised : c.protectedUpTo < stop)
      (counted : c.nextEpoch.toNat+1=nextEpoch.toNat) :
      KindStep c row bot { c with protectedUpTo := stop,nextEpoch := nextEpoch }
  | other (object : row.kind≠.object) (sidecar : row.kind≠.paritySidecar)
      (bootstrap : row.kind=.bootstrap → bot=true) : KindStep c row bot c

/-- Fields of an accepted row, with its effect by kind between `c` and `d`. -/
structure RowStep (c d : RowCounters) (row : TapeFileEntry) (bot : Bool) : Prop where
  number : row.tapeFileNumber=c.nextFile
  blocks : row.blockCount≠0
  ordinal : row.kind≠.object → row.firstParityDataOrdinal=none
  range : row.kind≠.paritySidecar → row.epochId=none ∧ row.protectedOrdinalStart=none ∧
    row.protectedOrdinalEndExclusive=none
  /-- The effect by kind, then one more file. -/
  kind : ∃ mid : RowCounters, KindStep c row bot mid ∧
    mid.lba.toNat+row.blockCount.toNat+1=d.lba.toNat ∧ mid.nextFile.toNat+1=d.nextFile.toNat ∧
    d={ mid with lba := d.lba,nextFile := d.nextFile }

variable {p : Pending} {bot : Bool}

theorem rowStep_of_applyRow {p' : Pending} (h : applyRow p row bot=.ok p') :
    RowStep p.state.rowCounters p'.state.rowCounters row bot := by
  obtain ⟨hcheck,q,state,hkind,hadvance,hcount⟩ := applyRow_eq_ok h
  have hstate := countRow_state hcount
  simp only [checkRow,eq_ok,exists_const,not_or,not_not,not_and] at hcheck
  obtain ⟨-,⟨hnumber,hblocks,-⟩,hobject,hsidecar⟩ := hcheck
  obtain ⟨lba,nextFile,hlba,hfile,rfl⟩ := advance_eq_ok hadvance
  have hmid : KindStep p.state.rowCounters row bot q.state.rowCounters := by
    rcases applyKind_cases hkind with ⟨hobject,happly⟩ | ⟨hsidecar,happly⟩ |
      ⟨hobject,hsidecar,_,_,rfl⟩
    · obtain ⟨-,s,objectCount,objects,catalog,hextend,-,rfl⟩ := applyObject_eq_ok happly
      cases hscheme : p.state.scheme with
      | none =>
        obtain ⟨total,htotal,rfl⟩ := extendOrdinals_plain hextend hscheme
        exact .object total hobject (fun hne => absurd hscheme hne) htotal
      | some scheme =>
        have hne : p.state.scheme≠none := by
          rw [hscheme]
          exact Option.some_ne_none _
        obtain ⟨hfirst,stop,_,_,_,hstop,_,_,_,rfl⟩ := extendOrdinals_parity hextend hne
        exact .object stop hobject (fun _ => hfirst) hstop
    · simp only [applySidecar,eq_ok,add_eq_ok, not_or,not_not] at happly
      obtain ⟨_,_,stop,hstop,_,⟨_,hepoch,hstart,hlt,_,_⟩,_,_,epoch,hnext,rfl⟩ := happly
      exact .sidecar stop epoch hsidecar hepoch hstart hstop (UInt64.not_le.mp hlt) hnext
    · refine .other hobject hsidecar fun hboot => ?_
      unfold applyKind at hkind
      rw [hboot] at hkind
      simp only [eq_ok] at hkind
      obtain ⟨_,hbot,-⟩ := hkind
      exact Bool.eq_true_of_not_eq_false hbot
  refine ⟨hnumber,hblocks,fun hne => (hobject hne).2.2,hsidecar,q.state.rowCounters,hmid,?_,?_,?_⟩
  · rw [hstate]
    exact hlba
  · rw [hstate]
    exact hfile
  · rw [hstate]
    rfl

variable {c d : RowCounters}

theorem RowStep.keeps (h : RowStep c d row bot) : d.tapeUuid=c.tapeUuid ∧ d.scheme=c.scheme := by
  obtain ⟨mid,hkind,-,-,hd⟩ := h.kind
  rw [hd]
  cases hkind <;> exact ⟨rfl,rfl⟩

theorem RowStep.not_bootstrap (h : RowStep c d row false) : row.kind≠.bootstrap := by
  intro hboot
  obtain ⟨mid,hkind,-⟩ := h.kind
  cases hkind with
  | object _ hobject => rw [hboot] at hobject; cases hobject
  | sidecar _ _ hsidecar => rw [hboot] at hsidecar; cases hsidecar
  | other _ _ hbot => exact absurd (hbot hboot) Bool.false_ne_true

theorem objectBlocks_toMapEntry (rows : List TapeFileEntry) :
    objectBlocks (rows.map TapeFileEntry.toMapEntry)=
      ((rowsOfKind .object rows).map fun row => row.blockCount.toNat).sum := by
  induction rows using List.reverseRecOn with
  | nil => rfl
  | append_singleton rows row ih =>
    rw [map_append,objectBlocks_append,ih,map_singleton,objectBlocks_singleton]
    by_cases hkind : row.kind=.object
    · rw [rowsOfKind_concat_of_eq hkind,map_append,sum_append]
      simp [toMapEntry,hkind]
    · rw [rowsOfKind_concat_of_ne hkind]
      simp [toMapEntry,hkind]

theorem RowStep.fields (h : RowStep c d row bot) (hscheme : c.scheme≠none)
    (hbot : row.kind=.bootstrap → row.blockCount=1) : row.toMapEntry.validate=.ok () := by
  obtain ⟨mid,hkind,-⟩ := h.kind
  cases hkind with
  | object total hobject first =>
    obtain ⟨hepoch,hstart,hstop⟩ := h.range (by rw [hobject]; decide)
    simp [TapeFileMapEntry.validate,toMapEntry,hobject,first hscheme,hepoch,hstart,
      hstop,h.blocks]
  | sidecar stop nextEpoch hsidecar epoch start range raised =>
    have hfirst := h.ordinal (by rw [hsidecar]; decide)
    simp [TapeFileMapEntry.validate,toMapEntry,hsidecar,hfirst,epoch,start,range,
      raised,h.blocks]
  | other hobject hsidecar _ =>
    have hfirst := h.ordinal hobject
    obtain ⟨hepoch,hstart,hstop⟩ := h.range hsidecar
    cases hkind : row.kind with
    | object => exact absurd hkind hobject
    | paritySidecar => exact absurd hkind hsidecar
    | bootstrap =>
      simp [TapeFileMapEntry.validate,toMapEntry,hkind,hfirst,hepoch,hstart,hstop,
        hbot hkind]
    | parityMap | tapeIndexReplica | indexSeparationExtent =>
      simp [TapeFileMapEntry.validate,toMapEntry,hkind,hfirst,hepoch,hstart,hstop,
        h.blocks]

variable {rows : List TapeFileEntry}

theorem RowStep.rowAccepted (h : RowStep c d row bot) (htotals : RowTotals rows c)
    (hscheme : c.scheme≠none) (hbot : row.kind=.bootstrap → rows=[] ∧ row.blockCount=1) :
    RowAccepted (rows.map TapeFileEntry.toMapEntry) row.toMapEntry := by
  obtain ⟨mid,hkind,hlba,-,-⟩ := h.kind
  have hfits : (rows.map fun row => row.blockCount.toNat+1).sum+row.blockCount.toNat ≤ u64Max := by
    have hlt := d.lba.toNat_lt
    have hmid : mid.lba=c.lba := by cases hkind <;> rfl
    rw [htotals.lba,←hmid,u64Max]
    omega
  refine ⟨?_,?_,?_,?_,?_⟩
  · rw [length_map,htotals.count]
    exact congrArg UInt64.toNat h.number
  · exact h.fields hscheme fun hboot => (hbot hboot).2
  · rw [prefixLength,map_map]
    exact hfits
  · intro hne hboot
    exact hne (by rw [(hbot hboot).1]; rfl)
  · intro hobject
    cases hkind with
    | object total _ first extended =>
      refine ⟨c.total,first hscheme,?_,?_⟩
      · rw [objectBlocks_toMapEntry,htotals.total]
      · rw [objectBlocks_toMapEntry,htotals.total]
        have hlt := total.toNat_lt
        have hextended : c.total.toNat+row.toMapEntry.blockCount.toNat=total.toNat := extended
        rw [hextended,u64Max]
        omega
    | sidecar _ _ hsidecar =>
      rw [show row.kind=.object from hobject] at hsidecar
      cases hsidecar
    | other hne => exact absurd hobject hne

theorem rowTotals_nil :
    RowTotals [] c ↔ c.nextFile=0 ∧ c.lba=0 ∧ c.total=0 ∧ c.nextEpoch=0 ∧ c.protectedUpTo=0 := by
  have hzero : ∀ {x : UInt64}, 0=x.toNat → x=0 := fun h => UInt64.toNat_inj.mp h.symm
  constructor
  · intro h
    exact ⟨hzero h.count,hzero h.lba,hzero h.total,hzero h.epochs,h.unprotected rfl⟩
  · rintro ⟨hfile,hlba,htotal,hepoch,hprotected⟩
    refine ⟨⟨?_,?_,fun _ h => (nomatch h),fun _ => hprotected,fun _ h => (nomatch h)⟩,rfl,?_,?_,
      fun _ => trivial⟩
    · rw [htotal]; rfl
    · rw [hepoch]; rfl
    · rw [hfile]; rfl
    · rw [hlba]; rfl

theorem KindTotals.step (htotals : KindTotals rows c) (h : KindStep c row bot d)
    (hrange : row.kind≠.paritySidecar → row.protectedOrdinalEndExclusive=none) :
    KindTotals (rows++[row]) d := by
  -- a row that is no sidecar has no range, so the sidecars stay
  have hkeep : row.kind≠.paritySidecar → ∀ r ∈ rows++[row], ∀ stop,
      r.protectedOrdinalEndExclusive=some stop →
        r.kind=.paritySidecar ∧ stop.toNat ≤ c.protectedUpTo.toNat := by
    intro hne r hr stop hstop
    rcases mem_append.mp hr with hr | hr
    · exact htotals.ends r hr stop hstop
    · rw [mem_singleton.mp hr,hrange hne] at hstop
      cases hstop
  cases h with
  | object total hobject _ extended =>
    have hne : row.kind≠.paritySidecar := by rw [hobject]; decide
    refine ⟨?_,?_,?_,?_,hkeep hne⟩
    · rw [rowsOfKind_concat_of_eq hobject,map_append,sum_append,htotals.total]
      simpa using extended
    · rw [rowsOfKind_concat_of_ne hne]
      exact htotals.epochs
    · rw [rowsOfKind_concat_of_ne hne]
      exact htotals.last
    · rw [rowsOfKind_concat_of_ne hne]
      exact htotals.unprotected
  | sidecar stop nextEpoch hsidecar _ _ range raised counted =>
    have hne : row.kind≠.object := by rw [hsidecar]; decide
    refine ⟨?_,?_,fun r hr => ?_,fun hnil => ?_,fun r hr stop' hstop => ?_⟩
    · rw [rowsOfKind_concat_of_ne hne]
      exact htotals.total
    · rw [rowsOfKind_concat_of_eq hsidecar,length_append,htotals.epochs]
      exact counted
    · rw [rowsOfKind_concat_of_eq hsidecar,getLast?_concat,Option.some.injEq] at hr
      rw [←hr]
      exact range
    · rw [rowsOfKind_concat_of_eq hsidecar] at hnil
      simp at hnil
    · rcases mem_append.mp hr with hr | hr
      · obtain ⟨hkind,hle⟩ := htotals.ends r hr stop' hstop
        exact ⟨hkind,le_trans hle (le_of_lt (UInt64.lt_iff_toNat_lt.mp raised))⟩
      · rw [mem_singleton.mp hr] at hstop ⊢
        rw [range,Option.some.injEq] at hstop
        exact ⟨hsidecar,by rw [hstop]⟩
  | other hobject hsidecar _ =>
    refine ⟨?_,?_,?_,?_,hkeep hsidecar⟩
    · rw [rowsOfKind_concat_of_ne hobject]
      exact htotals.total
    · rw [rowsOfKind_concat_of_ne hsidecar]
      exact htotals.epochs
    · rw [rowsOfKind_concat_of_ne hsidecar]
      exact htotals.last
    · rw [rowsOfKind_concat_of_ne hsidecar]
      exact htotals.unprotected

theorem RowTotals.step (htotals : RowTotals rows c) (h : RowStep c d row bot)
    (hbot : row.kind=.bootstrap → rows=[] ∧ row.blockCount=1) : RowTotals (rows++[row]) d := by
  obtain ⟨mid,hkind,hlba,hfile,hd⟩ := h.kind
  have hkinds := htotals.toKindTotals.step hkind fun hne => (h.range hne).2.2
  -- the effect by kind touches neither the position nor the scheme
  obtain ⟨hmidLba,hmidFile,hmidScheme⟩ :
      mid.lba=c.lba ∧ mid.nextFile=c.nextFile ∧ mid.scheme=c.scheme := by
    cases hkind <;> exact ⟨rfl,rfl,rfl⟩
  rw [hmidLba] at hlba
  rw [hmidFile] at hfile
  rw [hd]
  refine ⟨⟨hkinds.total,hkinds.epochs,hkinds.last,hkinds.unprotected,hkinds.ends⟩,?_,?_,?_,?_⟩
  · rw [map_append,htotals.numbered,length_append,length_singleton,range_succ,
      map_singleton,h.number,htotals.count]
  · rw [length_append,length_singleton,htotals.count]
    exact hfile
  · rw [map_append,sum_append,htotals.lba,map_singleton,sum_singleton, ←add_assoc]
    exact hlba
  · intro hne
    have hne' : c.scheme≠none := by rwa [←hmidScheme]
    rw [map_append,acceptedRows_append,nil_append]
    exact ⟨htotals.accepted hne',h.rowAccepted htotals hne' hbot,trivial⟩

theorem CommitOf.rowCounters_eq {previous u : TapeSummary} {c : Committed}
    (h : CommitOf p previous c u) :
    u.rowCounters=p.state.rowCounters ∧ u.blockSize=p.state.blockSize := by
  obtain ⟨v,hv,rfl⟩ := h.extents
  rcases checkUncovered_eq_ok hv with ⟨-,-,-,rfl⟩ | ⟨-,-,-,-,rfl⟩ <;> exact ⟨rfl,rfl⟩

variable {f : Frame}

/-- A closing record publishes the counters of its group, or keeps the published ones; then its
group is a plan or has no rows. -/
theorem closeRecord_counters {s s' : TapeSummary} (h : closeRecord env s p f=.ok s') :
    ((s'.rowCounters=p.state.rowCounters ∧ s'.blockSize=p.state.blockSize) ∧ f.record.isPlan=false) ∨
      ((s'.rowCounters=s.rowCounters ∧ s'.blockSize=s.blockSize) ∧
        (f.record.isPlan=true ∨ p.rows=0 ∨ p.group.reference.frameCount=0)) := by
  cases closeRecord_step h with
  | quiet openSession lastSessionEnd finalization closed empty =>
    exact .inr ⟨⟨rfl,rfl⟩,empty.imp_left And.left⟩
  | commit c u checked _ _ _ _ _ _ _ other => exact .inl ⟨checked.rowCounters_eq,other⟩
  | closeout closed _ _ parity covered other => exact .inl ⟨⟨rfl,rfl⟩,other⟩

structure GroupTotals (summary : TapeSummary) (closed opened : List TapeFileEntry) (p : Pending) :
    Prop where
  totals : RowTotals (closed++opened) p.state.rowCounters
  tapeUuid : p.state.tapeUuid=summary.tapeUuid
  scheme : p.state.scheme=summary.scheme
  rows : opened.length=p.rows.toNat

variable {closed opened : List TapeFileEntry}

theorem GroupTotals.chunk {summary : TapeSummary} {q : Pending} {c : Continuation}
    (h : GroupTotals summary closed opened p) (hrecord : f.record=.payloadContinuation c)
    (hchunk : applyChunk summary p f.payload c.chunk=.ok q) :
    GroupTotals summary closed (opened++f.fileRow.toList) q := by
  obtain ⟨number,chunk⟩ := c
  obtain ⟨row,rfl,happly⟩ | ⟨hother,hkeep⟩ := applyChunk_cases hchunk
  · have hrow : f.fileRow=some row := by rw [Frame.fileRow,hrecord]
    have hstep := rowStep_of_applyRow happly
    obtain ⟨hsameUuid,hsameScheme⟩ := hstep.keeps
    obtain ⟨-,hone,-⟩ := applyRow_counts happly
    rw [hrow,Option.toList_some]
    refine ⟨?_,Eq.trans hsameUuid h.tapeUuid,Eq.trans hsameScheme h.scheme,?_⟩
    · rw [←append_assoc]
      exact h.totals.step hstep fun hboot => absurd hboot hstep.not_bootstrap
    · rw [length_append,h.rows]
      exact hone
  · -- what is no row keeps the counters of the group
    have hnone : f.fileRow=none := by
      rw [Frame.fileRow,hrecord]
      cases chunk with
      | fileRow row => exact absurd rfl (hother row)
      | _ => rfl
    rw [hnone,Option.toList_none,append_nil]
    exact ⟨by rw [hkeep.state]; exact h.totals,by rw [hkeep.state]; exact h.tapeUuid,
      by rw [hkeep.state]; exact h.scheme,by rw [hkeep.rows]; exact h.rows⟩

structure Conserved (fold : Fold) (closed opened : List TapeFileEntry) : Prop where
  published : RowTotals closed fold.summary.rowCounters
  fresh : fold.summary.isFresh → closed=[]
  front : fold.summary.scheme≠none → ∃ bot, closed.head?=some bot ∧ bot.tapeFileNumber=0 ∧
    bot.kind=.bootstrap ∧ bot.blockCount=1
  idle : fold.pending=none → opened=[]
  pending : ∀ p, fold.pending=some p → GroupTotals fold.summary closed opened p ∧
    p.group.reference.frameCount≠0

variable {fold next : Fold}

section

variable (h : Conserved fold closed opened)
include h

theorem Conserved.groupTotals (f : Frame) :
    GroupTotals fold.summary closed opened (groupOf fold f) := by
  unfold groupOf
  cases hpending : fold.pending with
  | none =>
    rw [h.idle hpending]
    exact ⟨by rw [append_nil]; exact h.published,rfl,rfl,rfl⟩
  | some p => exact (h.pending p hpending).1

/-- A continuation moves only the pending group. -/
theorem Conserved.continuation {c : Continuation} (hrecord : f.record=.payloadContinuation c)
    (hsummary : next.summary=fold.summary) (hpending : next.pending=some p)
    (happly : applyContinuation fold.summary fold.pending f c=.ok p) :
    Conserved next closed (opened++f.fileRow.toList) := by
  obtain ⟨-,q,group,hchunk,-,hframes,rfl⟩ := applyContinuation_eq_ok happly
  have hcount : group.reference.frameCount≠0 := by
    intro hzero
    rw [hzero] at hframes
    exact absurd hframes (Nat.succ_ne_zero _)
  have hgroup := (h.groupTotals f).chunk hrecord hchunk
  refine ⟨?_,?_,?_,fun hnone => ?_,fun p' hp' => ?_⟩
  · rw [hsummary]
    exact h.published
  · rw [hsummary]
    exact h.fresh
  · rw [hsummary]
    exact h.front
  · rw [hpending] at hnone
    cases hnone
  · rw [hpending,Option.some.injEq] at hp'
    subst hp'
    rw [hsummary]
    exact ⟨⟨hgroup.totals,hgroup.tapeUuid,hgroup.scheme,hgroup.rows⟩,hcount⟩

/-- A closing record publishes the rows of its group unless it is a plan. -/
theorem Conserved.closing (hinit : ∀ init, f.record≠.initialized init)
    (hcontinuation : ∀ c, f.record≠.payloadContinuation c) (hpending : next.pending=none)
    (happly : applyClosing env fold.summary fold.pending f=.ok next.summary) :
    Conserved next (closed++groupRows (opened++f.fileRow.toList) f.record) [] := by
  obtain ⟨hfresh,s,hclose,hnext⟩ := applyClosing_eq_ok happly
  have hcounters : next.summary.rowCounters=s.rowCounters := by rw [hnext]; rfl
  have hnone : f.fileRow=none := by
    unfold Frame.fileRow
    split
    · rename_i init hrecord
      exact absurd hrecord (hinit init)
    · rename_i row hrecord
      exact absurd hrecord (hcontinuation _)
    · rfl
  rw [hnone,Option.toList_none,append_nil]
  have hgroup := h.groupTotals f
  -- what is published: all rows of the group, or none
  have hcases : RowTotals (closed++groupRows opened f.record) s.rowCounters ∧
      s.tapeUuid=fold.summary.tapeUuid ∧ s.scheme=fold.summary.scheme := by
    rcases closeRecord_counters hclose with ⟨⟨hsame,-⟩,hplan⟩ | ⟨⟨hsame,-⟩,hempty⟩
    · rw [groupRows,if_neg (by rw [hplan]; exact Bool.false_ne_true),hsame]
      exact ⟨hgroup.totals,Eq.trans (congrArg RowCounters.tapeUuid hsame) hgroup.tapeUuid,
        Eq.trans (congrArg RowCounters.scheme hsame) hgroup.scheme⟩
    · have hgone : groupRows opened f.record=[] := by
        rcases hempty with hplan | hzero | hzero
        · rw [groupRows,if_pos hplan]
        · have hrows := hgroup.rows
          rw [hzero] at hrows
          rw [length_eq_zero_iff.mp hrows,groupRows,ite_self]
        · cases hp : fold.pending with
          | none => rw [h.idle hp,groupRows,ite_self]
          | some p =>
            rw [groupOf,hp] at hzero
            exact absurd hzero (h.pending p hp).2
      rw [hgone,append_nil,hsame]
      exact ⟨h.published,congrArg RowCounters.tapeUuid hsame,congrArg RowCounters.scheme hsame⟩
  obtain ⟨hpublished,hsameUuid,hsameScheme⟩ := hcases
  have hnextUuid : next.summary.tapeUuid=s.tapeUuid := congrArg RowCounters.tapeUuid hcounters
  have hnextScheme : next.summary.scheme=s.scheme := congrArg RowCounters.scheme hcounters
  refine ⟨by rw [hcounters]; exact hpublished,fun hf => ?_,fun hs => ?_,fun _ => rfl,fun p hp => ?_⟩
  · rw [TapeSummary.isFresh,hnextUuid,hsameUuid] at hf
    exact absurd hf hfresh
  · rw [hnextScheme,hsameScheme] at hs
    obtain ⟨bot,hhead,hbot⟩ := h.front hs
    exact ⟨bot,by rw [head?_append,hhead]; rfl,hbot⟩
  · rw [hpending] at hp
    cases hp

theorem Conserved.initialized {init : Initialized} (hrecord : f.record=.initialized init)
    (hnone : fold.pending=none) (hpending : next.pending=none)
    (happly : applyInitialized fold.summary fold.pending f init=.ok next.summary) :
    Conserved next (closed++groupRows (opened++f.fileRow.toList) f.record) [] := by
  have hclosed := h.fresh (applyInitialized_fresh happly)
  subst hclosed
  obtain ⟨hfile,hlba,htotal,hepoch,hprotected⟩ := rowTotals_nil.mp h.published
  have hrow : f.fileRow=some init.bot := by rw [Frame.fileRow,hrecord]
  have hrows : groupRows (opened++f.fileRow.toList) f.record=[init.bot] := by
    rw [h.idle hnone,hrow,hrecord]
    rfl
  rw [hrows,nil_append]
  simp only [applyInitialized,eq_ok,not_or,not_not] at happly
  obtain ⟨_,-,_,-,_,-,_,⟨hkind,hnumber,hblocks⟩,p,happly,state,hstate,hnext⟩ := happly
  obtain ⟨count,rfl⟩ := mediaCommit_eq_ok hstate
  -- the row is applied to the bound tape, whose counters are still those of no rows
  let bound : RowCounters :=
    { fold.summary.rowCounters with tapeUuid := some init.tapeUuid,scheme := init.scheme }
  have hstep := rowStep_of_applyRow happly
  have hbound : RowTotals [] bound := rowTotals_nil.mpr ⟨hfile,hlba,htotal,hepoch,hprotected⟩
  have htotals := hbound.step hstep fun _ => ⟨rfl,hblocks⟩
  have hcounters : next.summary.rowCounters=p.state.rowCounters := by rw [←hnext]; rfl
  refine ⟨by rw [hcounters]; exact htotals,fun hf => ?_,fun _ => ⟨init.bot,rfl,hnumber,hkind,hblocks⟩,
    fun _ => rfl,fun p hp => ?_⟩
  · have huuid : next.summary.tapeUuid=p.state.tapeUuid := congrArg RowCounters.tapeUuid hcounters
    have hsome : p.state.tapeUuid=some init.tapeUuid := hstep.keeps.1
    rw [TapeSummary.isFresh,huuid,hsome] at hf
    cases hf
  · rw [hpending] at hp
    cases hp

theorem Conserved.run {last : Fold} {frames : List Frame}
    (hfold : fold.pushAll env frames=.ok last) :
    ∃ rest, Conserved last (closed++visibleRows opened frames) rest := by
  induction frames generalizing fold closed opened with
  | nil =>
    cases hfold
    exact ⟨opened,by rw [visibleRows,append_nil]; exact h⟩
  | cons f frames ih =>
    obtain ⟨next,hpush,hrest⟩ := Fold.pushAll_cons_eq_ok.mp hfold
    obtain ⟨-,happly⟩ := Fold.push_eq_ok.mp hpush
    rw [visibleRows]
    rcases Fold.apply_cases happly with ⟨init,hrecord,hnone,hpending,hinit⟩ |
      ⟨c,p,hrecord,hsummary,hpending,hcontinuation⟩ | ⟨hinit,hcontinuation,hpending,hclosing⟩
    · rw [if_pos (by rw [hrecord]; rfl),←append_assoc]
      exact ih (h.initialized hrecord hnone hpending hinit) hrest
    · rw [if_neg (by rw [hrecord]; exact Bool.false_ne_true)]
      exact ih (h.continuation hrecord hsummary hpending hcontinuation) hrest
    · have hclosed : f.record.closing=true := by
        cases hrecord : f.record with
        | payloadContinuation c => exact absurd hrecord (hcontinuation c)
        | _ => rfl
      rw [if_pos hclosed,←append_assoc]
      exact ih (h.closing hinit hcontinuation hpending hclosing) hrest

end

theorem conserved_new : Conserved Fold.new [] [] :=
  ⟨rowTotals_nil.mpr ⟨rfl,rfl,rfl,rfl,rfl⟩,fun _ => rfl,fun h => absurd rfl h,fun _ => rfl,
    fun _ h => (nomatch h)⟩

theorem RowTotals.map_eq (h : RowTotals rows c)
    (hscheme : c.scheme≠none) (hfront : ∃ bot, rows.head?=some bot ∧ bot.tapeFileNumber=0 ∧
      bot.kind=.bootstrap ∧ bot.blockCount=1) :
    ∃ map, FilemarkMap.new (rows.map TapeFileEntry.toMapEntry)=.ok map ∧
      map.totalDataOrdinals=c.total.toNat ∧ map.maxSidecarEndExclusive=c.protectedUpTo.toNat := by
  obtain ⟨bot,hhead,hbot⟩ := hfront
  have hrows : MapRows (rows.map toMapEntry) :=
    ⟨⟨bot.toMapEntry,by rw [head?_map,hhead]; rfl,hbot⟩,h.accepted hscheme⟩
  obtain ⟨map,hmap⟩ := FilemarkMap.exists_new_eq_ok.mpr hrows
  have hentries := FilemarkMap.new_eq_ok.mp hmap
  refine ⟨map,hmap,?_,?_⟩
  · rw [map.totalDataOrdinals_eq,hentries,objectBlocks_toMapEntry,h.total]
  · rw [FilemarkMap.maxSidecarEndExclusive,hentries]
    refine getD_max?_eq (fun x hx => ?_) ?_
    · simp only [mem_filterMap,mem_map,Option.map_eq_some_iff] at hx
      obtain ⟨_,⟨row,hrow,rfl⟩,stop,hstop,rfl⟩ := hx
      exact (h.ends row hrow stop hstop).2
    · cases hlast : (rowsOfKind .paritySidecar rows).getLast? with
      | none =>
        left
        rw [h.unprotected (getLast?_eq_none_iff.mp hlast)]
        rfl
      | some row =>
        right
        have hrow : row ∈ rows := (mem_filter.mp (mem_of_getLast? hlast)).1
        rw [mem_filterMap]
        refine ⟨row.toMapEntry,mem_map_of_mem hrow,?_⟩
        rw [show row.toMapEntry.protectedOrdinalEndExclusive=_ from h.last row hlast]
        rfl

/-- Both scans of a replayed log deliver rows that add up to its summary: files, blocks and
filemarks, object blocks, and one sidecar for each epoch. On a parity tape they form a filemark map
with the same totals. -/
theorem replay_rows {log : Bytes} {s : TapeSummary} {tail : Tail}
    (h : replay env log=.ok (s,tail)) : ∃ rows,
      visitFileRows log s=.ok rows ∧ cursorFileRows log s=.ok rows ∧
      (rows.map fun row => row.tapeFileNumber.toNat)=List.range s.nextFile.toNat ∧
      (rows.map fun row => row.blockCount.toNat+1).sum=s.cursor.lba.toNat ∧
      ((rowsOfKind .object rows).map fun row => row.blockCount.toNat).sum=s.total.toNat ∧
      (rowsOfKind .paritySidecar rows).length=s.nextEpoch.toNat ∧
      (∀ row, (rowsOfKind .paritySidecar rows).getLast?=some row →
        row.protectedOrdinalEndExclusive=some s.protectedUpTo) ∧
      (rowsOfKind .paritySidecar rows=[] → s.protectedUpTo=0) ∧
      (s.scheme≠none → ∃ map, FilemarkMap.new (rows.map TapeFileEntry.toMapEntry)=.ok map ∧
        map.totalDataOrdinals=s.total.toNat ∧
        map.maxSidecarEndExclusive=s.protectedUpTo.toNat) := by
  obtain ⟨frames,fold,hfold,-,rfl,hvisit,hcursor⟩ := scans_of_replay h
  obtain ⟨opened,hrun⟩ := conserved_new.run hfold
  have htotals := hrun.published
  have hnumbered := htotals.numbered
  rw [htotals.count] at hnumbered
  exact ⟨_,hvisit,hcursor,hnumbered,htotals.lba,htotals.total,htotals.epochs,htotals.last,
    htotals.unprotected,fun hscheme => htotals.map_eq hscheme (hrun.front hscheme)⟩

/-- Log of a tape with parity that has only been initialized. -/
def initializedLog : Bytes :=
  sampleFrame 1 (.initialized ⟨sampleUuid,1,1,256*1024,some ⟨"s",2,1,1⟩,
    ⟨0,.bootstrap,1,some 0,none,none,none,none,none,none,none⟩⟩)

theorem replay_initializedLog : ∃ s, replay sampleServices initializedLog=.ok (s,.complete) ∧
    s.nextFile=1 ∧ s.total=0 ∧ s.scheme≠none := by
  have hreplay : ((fun r => (r.1.nextFile,r.1.total,r.1.scheme.isSome,r.2)) <$>
      replay sampleServices initializedLog)=.ok (1,0,true,.complete) := by
    decide +kernel
  obtain ⟨⟨s,tail⟩,hreplay,hfields⟩ := map_eq_ok.mp hreplay
  simp only [Prod.mk.injEq] at hfields
  obtain ⟨hfile,htotal,hscheme,rfl⟩ := hfields
  exact ⟨s,hreplay,hfile,htotal,Option.isSome_iff_ne_none.mp hscheme⟩

/-- Its one row forms a filemark map. -/
theorem replay_rows_initializedLog : ∃ s rows, replay sampleServices initializedLog=.ok (s,.complete) ∧
    visitFileRows initializedLog s=.ok rows ∧ rows.length=1 ∧
    ∃ map, FilemarkMap.new (rows.map TapeFileEntry.toMapEntry)=.ok map ∧ map.totalDataOrdinals=0 := by
  obtain ⟨s,hreplay,hfile,htotal,hscheme⟩ := replay_initializedLog
  obtain ⟨rows,hvisit,-,hnumbered,-,-,-,-,-,hmap⟩ := replay_rows hreplay
  obtain ⟨map,hnew,hordinals,-⟩ := hmap hscheme
  refine ⟨s,rows,hreplay,hvisit,?_,map,hnew,by rw [hordinals,htotal]; rfl⟩
  have hlength := congrArg List.length hnumbered
  rwa [length_map,length_range,hfile] at hlength

end Remanence.TapeLog
