import Remanence.TapeLog.Canonical
import Remanence.TapeLog.Uncovered
import Remanence.Parity.TerminalTail

/-!
# Safety of the finalization

A decided plan closes the tape to further objects: only its own prefix, its five components and
the seal follow. The rows of the planned prefix are bound by their digest, as long as the hash
has no collision among the row streams of the log.
-/

namespace Remanence.TapeLog

open Foundation Parity List Fold

variable {env : LogServices}

def rowStream (rows : List TapeFileEntry) : Option Bytes := putAll (rows.map Wire.put)

structure PlainRow (row : TapeFileEntry) : Prop where
  objectId : row.objectId=none
  objectRecoveryRow : row.objectRecoveryRow=none

variable {x : Bytes}

theorem PlainRow.fits {row : TapeFileEntry} (h : PlainRow row) : Canonical.fits maxFrameBody row := by
  obtain ⟨_,_,_,_,objectId,_,_,_,_,_,recovery⟩ := row
  obtain rfl : objectId=none := h.objectId
  obtain rfl : recovery=none := h.objectRecoveryRow
  simp [Canonical.fits,CanonicalFields.fits]

theorem rowStream_inj {as bs : List TapeFileEntry} (ha : ∀ a ∈ as, PlainRow a)
    (hb : ∀ b ∈ bs, PlainRow b) (hlength : as.length=bs.length) (hx : rowStream as=some x)
    (hy : rowStream bs=some x) : as=bs := by
  induction as generalizing bs x with
  | nil =>
    cases bs with
    | nil => rfl
    | cons b bs => cases hlength
  | cons a as ih =>
    cases bs with
    | nil => cases hlength
    | cons b bs =>
      obtain ⟨z,w,hz,hw,rfl⟩ := putAll_cons_eq_some.mp hx
      obtain ⟨z',w',hz',hw',he⟩ := putAll_cons_eq_some.mp hy
      rw [forall_mem_cons] at ha hb
      obtain ⟨rfl,rfl⟩ := Canonical.put_append_inj maxFrameBody ha.1.fits hb.1.fits hz hz' he
      rw [ih ha.2 hb.2 (Nat.succ.inj hlength) hw hw']

variable {rows : List TapeFileEntry}

theorem rowStream_append {row : TapeFileEntry} {y : Bytes} (hx : rowStream rows=some x)
    (hy : Wire.put row=some y) : rowStream (rows++[row])=some (x++y) := by
  induction rows generalizing x with
  | nil =>
    cases hx
    refine putAll_cons_eq_some.mpr ⟨y,[],hy,rfl,?_⟩
    rw [append_nil,nil_append]
  | cons first rows ih =>
    obtain ⟨z,w,hz,hw,rfl⟩ := putAll_cons_eq_some.mp hx
    exact putAll_cons_eq_some.mpr ⟨z,w++y,hz,ih hw,append_assoc _ _ _⟩

def protectedAfterRow (w : UInt64) (row : TapeFileEntry) : UInt64 :=
  if row.kind=.paritySidecar then row.protectedOrdinalEndExclusive.getD w else w

def protectedAfter (rows : List TapeFileEntry) (w : UInt64) : UInt64 :=
  rows.foldl protectedAfterRow w

structure GroupRows (s : TapeSummary) (rows : List TapeFileEntry) (p : Pending) : Prop where
  finalization : p.state.finalization=s.finalization
  sealed : p.state.sealed=s.sealed
  scheme : p.state.scheme=s.scheme
  protectedUpTo : p.state.protectedUpTo=protectedAfter rows s.protectedUpTo
  total : p.objects=0 → p.state.total=s.total
  nextFile : s.nextFile.toNat+rows.length=p.state.nextFile.toNat
  count : p.rows.toNat=rows.length
  stream : rowStream rows=some p.rowDigest
  plain : p.objects=0 → ∀ row ∈ rows, PlainRow row

theorem groupRows_new (s : TapeSummary) (sequence offset : UInt64) :
    GroupRows s [] (.new s sequence offset) where
  finalization := rfl
  sealed := rfl
  scheme := rfl
  protectedUpTo := rfl
  total := fun _ => rfl
  nextFile := rfl
  count := rfl
  stream := rfl
  plain := fun _ _ hrow => absurd hrow not_mem_nil

variable {p : Pending} {u : Unit}

theorem checkRow_plain {row : TapeFileEntry} (h : checkRow p row=.ok u) (hkind : row.kind≠.object) :
    PlainRow row := by
  simp only [checkRow,eq_ok,exists_const,not_and,not_or,not_not] at h
  obtain ⟨-,-,hplain,-⟩ := h
  exact ⟨(hplain hkind).1,(hplain hkind).2.1⟩

variable {s : TapeSummary}

theorem GroupRows.row {p' : Pending} {row : TapeFileEntry} (g : GroupRows s rows p)
    (h : applyRow p row false=.ok p') : GroupRows s (rows++[row]) p' := by
  obtain ⟨-,hrows,bytes,hbytes,hdigest⟩ := applyRow_counts h
  obtain ⟨hcheck,q,state,hkind,hadvance,hcount⟩ := applyRow_eq_ok h
  have hstream : rowStream (rows++[row])=some p'.rowDigest := by
    rw [hdigest]
    exact rowStream_append g.stream hbytes
  have hnumber : p'.rows.toNat=(rows++[row]).length := by
    rw [length_append,←g.count,←hrows]
    rfl
  have hafter : protectedAfter (rows++[row]) s.protectedUpTo=
      protectedAfterRow p.state.protectedUpTo row := by
    rw [protectedAfter,foldl_append,g.protectedUpTo]
    rfl
  have hplain : p.objects=0 → row.kind≠.object → ∀ r ∈ rows++[row], PlainRow r := by
    intro hzero hobject r hr
    rcases mem_append.mp hr with hr | hr
    · exact g.plain hzero r hr
    · rw [mem_singleton.mp hr]
      exact checkRow_plain hcheck hobject
  have hfiles := g.nextFile
  obtain ⟨lba,nextFile,-,hfile,rfl⟩ := advance_eq_ok hadvance
  obtain ⟨count,_,-,-,rfl⟩ := countRow_eq_ok hcount
  rcases applyKind_cases hkind with ⟨hobject,happly⟩ | ⟨hsidecar,happly⟩ |
    ⟨hobject,hsidecar,maps,components,rfl⟩
  · obtain ⟨-,grown,objectCount,objects,catalog,hextend,hobjects,rfl⟩ := applyObject_eq_ok happly
    -- an object is counted, so the group is no longer free of them
    have hsome : objects≠0 := by
      intro hzero
      rw [hzero] at hobjects
      exact absurd hobjects (Nat.succ_ne_zero _)
    have hkeep : grown.finalization=p.state.finalization ∧ grown.sealed=p.state.sealed ∧
        grown.scheme=p.state.scheme ∧ grown.protectedUpTo=p.state.protectedUpTo ∧
        grown.nextFile=p.state.nextFile := by
      rcases eq_or_ne p.state.scheme none with hscheme | hscheme
      · obtain ⟨_,_,rfl⟩ := extendOrdinals_plain hextend hscheme
        exact ⟨rfl,rfl,rfl,rfl,rfl⟩
      · obtain ⟨_,_,_,_,_,_,_,_,_,rfl⟩ := extendOrdinals_parity hextend hscheme
        exact ⟨rfl,rfl,rfl,rfl,rfl⟩
    obtain ⟨hfinal,hsealed,hscheme,hprotected,hnext⟩ := hkeep
    rw [hnext] at hfile
    refine ⟨hfinal.trans g.finalization,hsealed.trans g.sealed,hscheme.trans g.scheme,?_,
      fun hzero => absurd hzero hsome,?_,hnumber,hstream,fun hzero => absurd hzero hsome⟩
    · rw [hafter,protectedAfterRow,if_neg (by rw [hobject]; decide)]
      exact hprotected
    · rw [length_append,length_singleton]
      dsimp only
      omega
  · obtain ⟨stop,blocks,identity,epoch,hstop,-,-,-,rfl⟩ := applySidecar_eq_ok happly
    refine ⟨g.finalization,g.sealed,g.scheme,?_,g.total,?_,hnumber,hstream,?_⟩
    · rw [hafter,protectedAfterRow,if_pos hsidecar,hstop]
      rfl
    · rw [length_append,length_singleton]
      dsimp only at hfile ⊢
      omega
    · intro hzero
      exact hplain hzero (by rw [hsidecar]; decide)
  · refine ⟨g.finalization,g.sealed,g.scheme,?_,g.total,?_,hnumber,hstream,
      fun hzero => hplain hzero hobject⟩
    · rw [hafter,protectedAfterRow,if_neg hsidecar]
    · rw [length_append,length_singleton]
      dsimp only at hfile ⊢
      omega

theorem GroupRows.chunk {p' : Pending} {payload : Bytes} {chunk : Chunk} (g : GroupRows s rows p)
    (h : applyChunk s p payload chunk=.ok p') : ∃ more, GroupRows s (rows++more) p' := by
  obtain ⟨row,-,hrow⟩ | ⟨-,hkeep⟩ := applyChunk_cases h
  · exact ⟨[row],g.row hrow⟩
  · refine ⟨[],?_⟩
    rw [append_nil]
    cases p
    cases p'
    obtain ⟨⟨⟩,⟨⟩,⟨⟩,⟨⟩,⟨⟩,⟨⟩⟩ := hkeep
    exact ⟨g.1,g.2,g.3,g.4,g.5,g.6,g.7,g.8,g.9⟩

variable {c : TerminalTailComponentPlan}

theorem validate_files {layout : TerminalTailLayout} (h : layout.validate=.ok u) {i : ℕ}
    (hc : layout.components[i]?=some c) :
    c.plannedTapeFileNumber.toNat=(layout.component 0).plannedTapeFileNumber.toNat+i := by
  obtain ⟨partition,blockSize,components,hlength,eod⟩ := layout
  obtain ⟨a,ab,b,bc,d,rfl⟩ := exists_of_length_five hlength
  obtain ⟨-,-,-,-,⟨⟨hab,-⟩,⟨hb,-⟩,⟨hbc,-⟩,hd,-⟩,-⟩ := TerminalTailLayout.validate_eq_ok.mp h
  change _=a.plannedTapeFileNumber.toNat+i
  rcases i with _ | _ | _ | _ | _ | i <;> cases hc <;> omega

def Record.reopens : Record → Bool
  | .initialized _ | .sessionOpened _ | .committed _ | .closedOut _ | .finalizationDecided _
  | .finalizationPrepared _ => true
  | _ => false

inductive PlanEffect (env : LogServices) (s : TapeSummary) (p : Pending) (f : Frame)
    (s' : TapeSummary) : Prop
  /-- An ordinary record needs a tape without a plan. -/
  | ordinary (before : s.finalization=none) (after : s'.finalization=none)
      (unsealed : s'.sealed=s.sealed)
  | kept (quiet : f.record.reopens=false) (same : SameMedia s s')
      (after : s'.finalization=s.finalization) (unsealed : s'.sealed=s.sealed)
  | planned (plan : FinalizationState) (free : ∀ old ∈ s.finalization, old.prepared=true)
      (valid : plan.layout.validate=.ok ()) (objects : p.objects=0)
      (total : p.state.total=s.total)
      (covered : s.scheme≠none → p.state.protectedUpTo=p.state.total)
      (written : plan.componentsWritten=0) (unwritten : plan.prefixWritten=decide (p.rows=0))
      (digest_eq : plan.prefixDigest=digest env p.rowDigest) (rows : plan.prefixRows=p.rows)
      (same : SameMedia s s') (after : s'.finalization=some plan)
      (unsealed : s'.sealed=s.sealed)
  | retired (plan : FinalizationState) (before : s.finalization=some plan)
      (prepared : plan.prepared=true) (after : s'.finalization=none)
      (unsealed : s'.sealed=s.sealed)
  | prefixed (plan : FinalizationState) (quiet : f.record.reopens=false)
      (before : s.finalization=some plan) (unstarted : plan.componentsWritten=0)
      (unwritten : plan.prefixWritten=false) (objects : p.objects=0) (rows : p.rows=plan.prefixRows)
      (digest_eq : digest env p.rowDigest=plan.prefixDigest)
      (after : s'.finalization=some { plan with prefixWritten := true })
      (moved : s'.protectedUpTo=p.state.protectedUpTo ∧ s'.total=p.state.total ∧ s'.scheme=s.scheme)
      (unsealed : s'.sealed=s.sealed)
  | component (plan : FinalizationState) (expected : TerminalTailComponentPlan)
      (quiet : f.record.reopens=false) (before : s.finalization=some plan)
      (written : plan.prefixWritten=true)
      (next : plan.layout.components[plan.componentsWritten]?=some expected)
      (file : s.nextFile=expected.plannedTapeFileNumber) (rows : p.rows=1)
      (after : s'.finalization=some { plan with
        componentsWritten := plan.componentsWritten+1,recoveryRequired := false })
      (moved : s'.nextFile=p.state.nextFile ∧ s'.protectedUpTo=s.protectedUpTo ∧
        s'.total=s.total ∧ s'.scheme=s.scheme)
      (unsealed : s'.sealed=s.sealed)
  | sealed (plan : FinalizationState) (quiet : f.record.reopens=false)
      (before : s.finalization=some plan) (accepted : plan.prepared=false)
      (five : plan.componentsWritten=5) (eod : s'.cursor.lba=plan.layout.expectedEodLba)
      (same : SameMedia s s')
      (after : s'.finalization=some { plan with recoveryRequired := false })
  | flagged (plan : FinalizationState) (quiet : f.record.reopens=false)
      (before : s.finalization=some plan) (same : SameMedia s s')
      (after : s'.finalization=some { plan with recoveryRequired := true })
      (unsealed : s'.sealed=s.sealed)

variable {plan : FinalizationState}

theorem acceptedPlan_eq_ok {seq : UInt64} (h : acceptedPlan s seq=.ok plan) :
    s.finalization=some plan ∧ plan.prepared=false := by
  rw [acceptedPlan,orElseError_eq_ok,Option.filter_eq_some_iff,decide_eq_true_eq] at h
  exact ⟨h.1,h.2.2⟩

theorem CommitOf.keeps {previous u : TapeSummary} {c : Committed}
    (h : CommitOf p previous c u) : u.finalization=p.state.finalization ∧
      u.sealed=p.state.sealed ∧ u.scheme=p.state.scheme ∧ u.nextFile=p.state.nextFile ∧
      u.protectedUpTo=p.state.protectedUpTo ∧ u.total=p.state.total := by
  obtain ⟨v,hv,rfl⟩ := h.extents
  rcases checkUncovered_eq_ok hv with ⟨-,-,-,rfl⟩ | ⟨-,-,-,-,rfl⟩
  · exact ⟨rfl,rfl,rfl,rfl,rfl,rfl⟩
  · exact ⟨rfl,rfl,rfl,rfl,rfl,rfl⟩

variable {s' : TapeSummary} {f : Frame}

theorem closeFinalization_plan {plan : FinalizationPlan} {prepared : Bool}
    (h : closeFinalization env s p f plan prepared=.ok s') : PlanEffect env s p f s' ∧
      ∃ state, s'.finalization=some state ∧ state.prepared=prepared ∧
        state.layout=plan.layout ∧ state.editionDigest=plan.editionDigest ∧
        state.sequence=f.sequence := by
  simp only [closeFinalization,eq_ok,not_or,not_not] at h
  obtain ⟨_,-,_,⟨hobjects,-,-,htotal⟩,_,hvalid,_,hprevious,identity,-,rfl⟩ := h
  simp only [validatePlan,eq_ok,mapError_eq_ok,not_or,not_and,not_not] at hvalid
  obtain ⟨_,hlayout,_,⟨-,-,-,-,-,-,-,-,hcovered⟩,-⟩ := hvalid
  refine ⟨?_,_,rfl,rfl,rfl,rfl,rfl⟩
  refine .planned _ ?_ hlayout hobjects htotal hcovered rfl rfl rfl rfl
    ⟨rfl,rfl,rfl,rfl,rfl,rfl,rfl,rfl,rfl⟩ rfl rfl
  intro old hold
  rw [Option.mem_def] at hold
  simp only [checkPrevious,hold,eq_ok,not_or] at hprevious
  obtain ⟨_,⟨hprepared,-⟩,-⟩ := hprevious
  exact Bool.not_eq_false _ ▸ hprepared

theorem closeRecord_plan (g : GroupRows s rows p) (h : closeRecord env s p f=.ok s') :
    PlanEffect env s p f s' := by
  unfold closeRecord at h
  split at h
  · simp only [closeSessionOpened,eq_ok,not_or,not_not] at h
    obtain ⟨_,-,_,-,_,-,_,⟨-,-,hidle,-⟩,rfl⟩ := h
    exact .ordinary hidle hidle rfl
  · rename_i ended hrecord
    simp only [closeSessionEnded,eq_ok] at h
    obtain ⟨_,-,rfl⟩ := h
    exact .kept (by rw [hrecord]; rfl) ⟨rfl,rfl,rfl,rfl,rfl,rfl,rfl,rfl,rfl⟩ rfl rfl
  · simp only [closeClosedOut,eq_ok,not_or,not_not] at h
    obtain ⟨_,_,_,_,_,⟨-,-,-,-,-,hidle,-⟩,_,_,_,_,_,_,_,_,_,_,state,hstate,rfl⟩ := h
    obtain ⟨count,rfl⟩ := mediaCommit_eq_ok hstate
    exact .ordinary hidle (g.finalization.trans hidle) g.sealed
  · simp only [closeCommitted,eq_ok,not_not] at h
    obtain ⟨_,hidle,_,_,_,_,_,_,u,hcommit,_,_,state,hstate,rfl⟩ := h
    obtain ⟨count,rfl⟩ := mediaCommit_eq_ok hstate
    obtain ⟨hfinal,hsealed,-⟩ := (checkCommit_eq_ok hcommit).keeps
    exact .ordinary hidle ((hfinal.trans g.finalization).trans hidle) (hsealed.trans g.sealed)
  · rename_i decision commit hrecord
    simp only [closeTerminalPrefix,eq_ok,not_or,not_not] at h
    obtain ⟨plan,hplan,_,⟨hunwritten,hstart,hobjects,-,-,-,hrows,hdigest,-⟩,u,hcommit,state,
      hstate,rfl⟩ := h
    obtain ⟨count,rfl⟩ := mediaCommit_eq_ok hstate
    obtain ⟨hfinal,hsealed,hscheme,-,hprotected,htotal⟩ := (checkCommit_eq_ok hcommit).keeps
    have hbefore := (acceptedPlan_eq_ok hplan).1
    refine .prefixed plan (by rw [hrecord]; rfl) hbefore hstart (by simpa using hunwritten)
      hobjects hrows hdigest ?_
      ⟨hprotected,htotal,hscheme.trans g.scheme⟩ (hsealed.trans g.sealed)
    rw [hfinal,g.finalization,hbefore]
    rfl
  · rename_i decision component commit hrecord
    simp only [closeComponentWritten,eq_ok, not_or,not_not] at h
    obtain ⟨plan,hplan,_,⟨hwritten,hindex,-,hrows,-⟩,expected,hexpected,_,⟨hfile,-⟩,_,_,_,_,_,
      ⟨-,htotal,hprotected⟩,u,hcommit,_,_,state,hstate,rfl⟩ := h
    obtain ⟨count,rfl⟩ := mediaCommit_eq_ok hstate
    obtain ⟨hfinal,hsealed,hscheme,hnext,hkept,hsum⟩ := (checkCommit_eq_ok hcommit).keeps
    have hbefore := (acceptedPlan_eq_ok hplan).1
    rw [hindex] at hexpected
    refine .component plan expected (by rw [hrecord]; rfl) hbefore (by simpa using hwritten)
      hexpected hfile hrows ?_ ⟨hnext,hkept.trans hprotected,hsum.trans htotal,
        hscheme.trans g.scheme⟩ (hsealed.trans g.sealed)
    rw [hfinal,g.finalization,hbefore]
    rfl
  · exact (closeFinalization_plan h).1
  · exact (closeFinalization_plan h).1
  · rename_i decision cursor editionDigest hrecord
    simp only [closeSealed,eq_ok,not_or,not_not] at h
    obtain ⟨_,-,plan,hplan,_,⟨hfive,hcursor,heod,-⟩,rfl⟩ := h
    obtain ⟨hbefore,haccepted⟩ := acceptedPlan_eq_ok hplan
    refine .sealed plan (by rw [hrecord]; rfl) hbefore haccepted hfive ?_
      ⟨rfl,rfl,rfl,rfl,rfl,rfl,rfl,rfl,rfl⟩ ?_
    · rw [←heod,hcursor]
    · rw [hbefore]
      rfl
  · simp only [closePreparationRetired,eq_ok,not_not] at h
    obtain ⟨_,-,_,⟨plan,hplan,hprepared,-⟩,rfl⟩ := h
    exact .retired plan hplan hprepared rfl rfl
  · rename_i decision hrecord
    simp only [closeRecoveryRequired,eq_ok] at h
    obtain ⟨_,-,plan,hbefore,_,-,rfl⟩ := h
    exact .flagged plan (by rw [hrecord]; rfl) hbefore ⟨rfl,rfl,rfl,rfl,rfl,rfl,rfl,rfl,rfl⟩ rfl rfl
  · cases h
  · cases h

structure SamePlan (plan plan' : FinalizationState) : Prop where
  layout : plan'.layout=plan.layout
  editionDigest : plan'.editionDigest=plan.editionDigest
  sequence : plan'.sequence=plan.sequence
  prepared : plan'.prepared=plan.prepared

theorem PlanEffect.decided (effect : PlanEffect env s p f s') (hplan : s.finalization=some plan)
    (hdecided : plan.prepared=false) :
    f.record.reopens=false ∧ ∃ plan', s'.finalization=some plan' ∧ SamePlan plan plan' := by
  have hsame : ∀ {other : FinalizationState}, s.finalization=some other → other=plan := by
    intro other hother
    exact Option.some.inj (hother.symm.trans hplan)
  cases effect with
  | ordinary before after unsealed =>
    rw [before] at hplan
    cases hplan
  | kept quiet same after unsealed =>
    exact ⟨quiet,plan,after.trans hplan,⟨rfl,rfl,rfl,rfl⟩⟩
  | planned _ free =>
    rw [free plan hplan] at hdecided
    cases hdecided
  | retired other before prepared =>
    rw [hsame before,hdecided] at prepared
    cases prepared
  | prefixed other quiet before _ _ _ _ _ after | component other _ quiet before _ _ _ _ after
  | sealed other quiet before _ _ _ _ after | flagged other quiet before _ after =>
    rw [hsame before] at after
    exact ⟨quiet,_,after,⟨rfl,rfl,rfl,rfl⟩⟩

def CollisionFree (env : LogServices) (streams : List Bytes) : Prop :=
  ∀ a ∈ streams, ∀ b ∈ streams, digest env a=digest env b → a=b

structure PlanState (env : LogServices) (streams : List Bytes) (s : TapeSummary)
    (plan : FinalizationState) : Prop where
  valid : plan.layout.validate=.ok ()
  started : plan.componentsWritten≠0 → plan.prefixWritten=true
  nextFile : plan.componentsWritten≠0 → s.nextFile.toNat=
    (plan.layout.component 0).plannedTapeFileNumber.toNat+plan.componentsWritten
  covered : plan.prefixWritten=true → CollisionFree env streams → s.scheme≠none →
    s.protectedUpTo=s.total
  planned : plan.prefixWritten=false → ∃ rows stream, rowStream rows=some stream ∧
    stream ∈ streams ∧ plan.prefixDigest=digest env stream ∧
    plan.prefixRows.toNat=rows.length ∧ (∀ row ∈ rows, PlainRow row) ∧
    (s.scheme≠none → protectedAfter rows s.protectedUpTo=s.total)

variable {streams : List Bytes}

theorem PlanState.congr {plan' : FinalizationState} (h : PlanState env streams s plan)
    (hsame : SameMedia s s') (hlayout : plan'.layout=plan.layout)
    (hcomponents : plan'.componentsWritten=plan.componentsWritten)
    (hwritten : plan'.prefixWritten=plan.prefixWritten)
    (hdigest : plan'.prefixDigest=plan.prefixDigest) (hrows : plan'.prefixRows=plan.prefixRows) :
    PlanState env streams s' plan' := by
  cases s
  cases s'
  cases plan
  cases plan'
  obtain ⟨⟨⟩,⟨⟩,⟨⟩,⟨⟩,⟨⟩,⟨⟩,⟨⟩,⟨⟩,⟨⟩⟩ := hsame
  cases hlayout
  cases hcomponents
  cases hwritten
  cases hdigest
  cases hrows
  exact ⟨h.1,h.2,h.3,h.4,h.5⟩

structure SealedState (env : LogServices) (streams : List Bytes) (s : TapeSummary)
    (plan : FinalizationState) : Prop where
  current : s.finalization=some plan
  accepted : plan.prepared=false
  prefixWritten : plan.prefixWritten=true
  componentsWritten : plan.componentsWritten=5
  cursor : s.cursor.lba=plan.layout.expectedEodLba
  nextFile : s.nextFile.toNat=(plan.layout.component 0).plannedTapeFileNumber.toNat+5
  covered : CollisionFree env streams → s.scheme≠none → s.protectedUpTo=s.total

structure Finalizing (env : LogServices) (streams : List Bytes) (s : TapeSummary) : Prop where
  plan : ∀ plan ∈ s.finalization, PlanState env streams s plan
  closed : s.sealed=true → ∃ plan, SealedState env streams s plan

theorem planState_planned (g : GroupRows s rows p) (hstream : p.rowDigest ∈ streams)
    (hvalid : plan.layout.validate=.ok ()) (hobjects : p.objects=0) (htotal : p.state.total=s.total)
    (hcovered : s.scheme≠none → p.state.protectedUpTo=p.state.total)
    (hcomponents : plan.componentsWritten=0) (hwritten : plan.prefixWritten=decide (p.rows=0))
    (hdigest : plan.prefixDigest=digest env p.rowDigest) (hrows : plan.prefixRows=p.rows)
    (hsame : SameMedia s s') : PlanState env streams s' plan := by
  refine ⟨hvalid,fun h => absurd hcomponents h,fun h => absurd hcomponents h,?_,?_⟩
  · intro hnoRows _ hscheme
    rw [hwritten,decide_eq_true_eq] at hnoRows
    -- no rows: the published state is the one the plan was checked against
    have hnone : rows=[] := eq_nil_of_length_eq_zero (by rw [←g.count,hnoRows]; rfl)
    rw [hsame.scheme] at hscheme
    have hafter := hcovered hscheme
    rw [g.protectedUpTo,hnone,htotal] at hafter
    rw [hsame.protectedUpTo,hsame.total]
    exact hafter
  · intro _
    refine ⟨rows,p.rowDigest,g.stream,hstream,hdigest,?_,g.plain hobjects,?_⟩
    · rw [hrows]
      exact g.count
    · rw [hsame.scheme,hsame.protectedUpTo,hsame.total,←g.protectedUpTo,←htotal]
      exact hcovered

/-- The proved prefix has the planned rows, so it protects what they would. -/
theorem planState_prefixed (h : PlanState env streams s plan)
    (g : GroupRows s rows p) (hstream : p.rowDigest ∈ streams)
    (hunstarted : plan.componentsWritten=0) (hwritten : plan.prefixWritten=false)
    (hobjects : p.objects=0) (hrows : p.rows=plan.prefixRows)
    (hdigest : digest env p.rowDigest=plan.prefixDigest)
    (hmoved : s'.protectedUpTo=p.state.protectedUpTo ∧ s'.total=p.state.total ∧
      s'.scheme=s.scheme) :
    PlanState env streams s' { plan with prefixWritten := true } := by
  refine ⟨h.valid,fun _ => rfl,fun hne => absurd hunstarted hne,?_,fun hfalse => by cases hfalse⟩
  intro _ hfree hscheme
  obtain ⟨planned,stream,hplanned,hmember,hbound,hcount,hplain,hprotects⟩ := h.planned hwritten
  have hequal := hfree _ hstream _ hmember (hdigest.trans hbound)
  have hsame : rows=planned := by
    refine rowStream_inj (g.plain hobjects) hplain ?_ g.stream (hequal ▸ hplanned)
    rw [←g.count,hrows]
    exact hcount
  rw [hmoved.2.2] at hscheme
  rw [hmoved.1,hmoved.2.1,g.protectedUpTo,g.total hobjects,hsame]
  exact hprotects hscheme

theorem Finalizing.close (h : Finalizing env streams s) (g : GroupRows s rows p)
    (hopen : s.sealed=false) (hstream : p.rowDigest ∈ streams) (effect : PlanEffect env s p f s') :
    Finalizing env streams s' := by
  have hnot : s'.sealed=s.sealed → s'.sealed=true → ∃ plan, SealedState env streams s' plan := by
    intro hkeep htrue
    rw [hkeep,hopen] at htrue
    cases htrue
  have hone : ∀ {plan : FinalizationState}, s'.finalization=some plan →
      PlanState env streams s' plan → ∀ other ∈ s'.finalization, PlanState env streams s' other := by
    intro plan hplan hstate other hother
    obtain rfl : plan=other := Option.some.inj (hplan.symm.trans hother)
    exact hstate
  have hnone : s'.finalization=none →
      ∀ other ∈ s'.finalization, PlanState env streams s' other := by
    intro hempty other hother
    rw [hempty] at hother
    cases hother
  cases effect with
  | ordinary before after unsealed => exact ⟨hnone after,hnot unsealed⟩
  | kept quiet same after unsealed =>
    refine ⟨?_,hnot unsealed⟩
    intro plan hplan
    rw [after] at hplan
    exact (h.plan plan hplan).congr same rfl rfl rfl rfl rfl
  | planned plan free valid objects total covered written unwritten digest_eq hrows same after
      unsealed =>
    exact ⟨hone after (planState_planned g hstream valid objects total covered written unwritten
      digest_eq hrows same),hnot unsealed⟩
  | retired plan before prepared after unsealed => exact ⟨hnone after,hnot unsealed⟩
  | prefixed plan quiet before unstarted unwritten objects hrows digest_eq after moved unsealed =>
    exact ⟨hone after (planState_prefixed (h.plan plan before) g hstream unstarted unwritten
      objects hrows digest_eq moved),hnot unsealed⟩
  | component plan expected quiet before written next file hrows after moved unsealed =>
    have hstate := h.plan plan before
    refine ⟨hone after ?_,hnot unsealed⟩
    refine ⟨hstate.valid,fun _ => written,?_,?_,fun hfalse => absurd written (by rw [hfalse]; decide)⟩
    · have hfile := validate_files hstate.valid next
      have hadded := g.nextFile
      have hcount := g.count
      rw [hrows] at hcount
      change 1=rows.length at hcount
      rw [moved.1]
      dsimp only
      rw [file] at hadded
      omega
    · intro _ hfree hscheme
      rw [moved.2.2.2] at hscheme
      rw [moved.2.1,moved.2.2.1]
      exact hstate.covered written hfree hscheme
  | sealed plan quiet before accepted five eod same after =>
    have hstate := h.plan plan before
    have hsome : plan.componentsWritten≠0 := by
      rw [five]
      decide
    have hafter : PlanState env streams s' { plan with recoveryRequired := false } :=
      hstate.congr same rfl rfl rfl rfl rfl
    refine ⟨hone after hafter,fun _ => ⟨_,after,accepted,hstate.started hsome,five,eod,?_,?_⟩⟩
    · rw [hafter.nextFile hsome]
      rw [five]
    · exact hafter.covered (hstate.started hsome)
  | flagged plan quiet before same after unsealed =>
    exact ⟨hone after ((h.plan plan before).congr same rfl rfl rfl rfl rfl),hnot unsealed⟩

/-- Row streams of the groups at each accepted frame; a closing record hashes the one of its group.
-/
def rowStreams (env : LogServices) : Fold → List Frame → List Bytes
  | _,[] => []
  | fold,f::rest => (groupOf fold f).rowDigest::
    match fold.push env f with
    | (next,.ok ()) => rowStreams env next rest
    | (_,.error _) => []

structure FinalLog (env : LogServices) (streams : List Bytes) (fold : Fold) : Prop where
  finalizing : Finalizing env streams fold.summary
  group : ∀ p ∈ fold.pending, ∃ rows, GroupRows fold.summary rows p

variable {fold next : Fold}

section

variable (h : FinalLog env streams fold)
include h

theorem FinalLog.groupRows (f : Frame) : ∃ rows, GroupRows fold.summary rows (groupOf fold f) := by
  unfold groupOf
  cases hcase : fold.pending with
  | none => exact ⟨[],groupRows_new _ _ _⟩
  | some p => exact h.group p hcase

theorem FinalLog.step {frames : List Frame} (hledger : Ledger frames fold)
    (hstream : (groupOf fold f).rowDigest ∈ streams) (happly : fold.apply env f=.ok next) :
    FinalLog env streams next := by
  have hopen := (apply_eq_ok.mp happly).2.2.2.1
  obtain ⟨rows,hrows⟩ := h.groupRows f
  rcases apply_cases happly with ⟨init,-,hidle,hnext,hinit⟩ |
    ⟨c,p,-,hsummary,hnext,hcontinue⟩ | ⟨-,-,hnext,hclosing⟩
  · rw [hledger.fresh (applyInitialized_fresh hinit),hidle] at hinit
    obtain ⟨-,lba,nextFile,count,hstate⟩ := applyInitialized_eq_ok hinit
    refine ⟨⟨?_,?_⟩,?_⟩
    · intro plan hmem
      rw [hstate] at hmem
      cases hmem
    · intro htrue
      rw [hstate] at htrue
      cases htrue
    · intro p hp
      rw [hnext] at hp
      cases hp
  · obtain ⟨-,q,digest,hchunk,-,-,rfl⟩ := applyContinuation_eq_ok hcontinue
    obtain ⟨more,hmore⟩ := hrows.chunk hchunk
    refine ⟨hsummary ▸ h.finalizing,?_⟩
    intro p hp
    rw [hnext,Option.mem_def,Option.some.injEq] at hp
    subst hp
    rw [hsummary]
    exact ⟨rows++more,hmore.finalization,hmore.sealed,hmore.scheme,hmore.protectedUpTo,
      hmore.total,hmore.nextFile,hmore.count,hmore.stream,hmore.plain⟩
  · obtain ⟨-,s,hclose,hsummary⟩ := applyClosing_eq_ok hclosing
    have hafter := h.finalizing.close hrows hopen hstream (closeRecord_plan hrows hclose)
    refine ⟨?_,?_⟩
    · rw [hsummary]
      refine ⟨?_,?_⟩
      · intro plan hplan
        exact (hafter.plan plan hplan).congr ⟨rfl,rfl,rfl,rfl,rfl,rfl,rfl,rfl,rfl⟩ rfl rfl rfl rfl rfl
      · intro htrue
        obtain ⟨plan,hsealed⟩ := hafter.closed htrue
        exact ⟨plan,hsealed.current,hsealed.accepted,hsealed.prefixWritten,
          hsealed.componentsWritten,hsealed.cursor,hsealed.nextFile,hsealed.covered⟩
    · intro p hp
      rw [hnext] at hp
      cases hp

theorem FinalLog.run {done rest : List Frame} {last : Fold} (hledger : Ledger done fold)
    (hstreams : rowStreams env fold rest ⊆ streams) (hrest : fold.pushAll env rest=.ok last) :
    FinalLog env streams last := by
  induction rest generalizing done fold with
  | nil =>
    cases hrest
    exact h
  | cons f rest ih =>
    obtain ⟨next,hpush,hlater⟩ := pushAll_cons_eq_ok.mp hrest
    have happly := (push_eq_ok.mp hpush).2
    simp only [rowStreams,hpush,cons_subset] at hstreams
    exact ih (h.step hledger hstreams.1 happly) (hledger.step happly) hstreams.2 hlater

theorem decided_step {frames : List Frame} (hledger : Ledger frames fold)
    (hplan : fold.summary.finalization=some plan) (hdecided : plan.prepared=false)
    (happly : fold.apply env f=.ok next) : f.record.reopens=false ∧
      ∃ plan', next.summary.finalization=some plan' ∧ SamePlan plan plan' := by
  obtain ⟨rows,hrows⟩ := h.groupRows f
  rcases apply_cases happly with ⟨init,-,-,-,hinit⟩ | ⟨c,p,hrecord,hsummary,-⟩ |
    ⟨-,-,-,hclosing⟩
  · rw [hledger.fresh (applyInitialized_fresh hinit)] at hplan
    cases hplan
  · rw [hrecord,hsummary]
    exact ⟨rfl,plan,hplan,⟨rfl,rfl,rfl,rfl⟩⟩
  · obtain ⟨-,s,hclose,hsummary⟩ := applyClosing_eq_ok hclosing
    obtain ⟨hquiet,plan',hafter,hsame⟩ := (closeRecord_plan hrows hclose).decided hplan hdecided
    rw [hsummary]
    exact ⟨hquiet,plan',hafter,hsame⟩

theorem decided_run {done rest : List Frame} {last : Fold} (hledger : Ledger done fold)
    (hplan : fold.summary.finalization=some plan) (hdecided : plan.prepared=false)
    (hstreams : rowStreams env fold rest ⊆ streams) (hrest : fold.pushAll env rest=.ok last) :
    (∀ f ∈ rest, f.record.reopens=false) ∧
      ∃ plan', last.summary.finalization=some plan' ∧ SamePlan plan plan' := by
  induction rest generalizing done fold plan with
  | nil =>
    cases hrest
    exact ⟨fun _ hf => absurd hf not_mem_nil,plan,hplan,⟨rfl,rfl,rfl,rfl⟩⟩
  | cons f rest ih =>
    obtain ⟨next,hpush,hlater⟩ := pushAll_cons_eq_ok.mp hrest
    have happly := (push_eq_ok.mp hpush).2
    simp only [rowStreams,hpush,cons_subset] at hstreams
    obtain ⟨hquiet,mid,hmid,hsame⟩ := decided_step h hledger hplan hdecided happly
    obtain ⟨hquietRest,plan',hplan',hsame'⟩ := ih (h.step hledger hstreams.1 happly)
      (hledger.step happly) hmid (hsame.prepared.trans hdecided) hstreams.2 hlater
    refine ⟨forall_mem_cons.mpr ⟨hquiet,hquietRest⟩,plan',hplan',?_⟩
    exact ⟨hsame'.layout.trans hsame.layout,hsame'.editionDigest.trans hsame.editionDigest,
      hsame'.sequence.trans hsame.sequence,hsame'.prepared.trans hsame.prepared⟩

end

theorem finalLog_new (streams : List Bytes) : FinalLog env streams Fold.new where
  finalizing := ⟨fun _ hplan => absurd hplan (by simp [Fold.new]),fun h => by cases h⟩
  group := fun _ hp => absurd hp (by simp [Fold.new])

theorem rowStreams_append {mid : Fold} {before after : List Frame}
    (h : fold.pushAll env before=.ok mid) :
    rowStreams env fold (before++after)=rowStreams env fold before++rowStreams env mid after := by
  induction before generalizing fold with
  | nil =>
    cases h
    rfl
  | cons f before ih =>
    obtain ⟨next,hpush,hlater⟩ := pushAll_cons_eq_ok.mp h
    simp only [cons_append,rowStreams,hpush,ih hlater]

theorem decided_apply {plan : FinalizationPlan} (hrecord : f.record=.finalizationDecided plan)
    (h : fold.apply env f=.ok next) :
    ∃ state, next.summary.finalization=some state ∧ state.prepared=false ∧
      state.layout=plan.layout ∧ state.editionDigest=plan.editionDigest ∧
      state.sequence=f.sequence := by
  rcases apply_cases h with ⟨init,hother,-⟩ | ⟨c,p,hother,-⟩ | ⟨-,-,-,hclosing⟩
  · rw [hrecord] at hother
    cases hother
  · rw [hrecord] at hother
    cases hother
  · obtain ⟨-,s,hclose,hsummary⟩ := applyClosing_eq_ok hclosing
    unfold closeRecord at hclose
    rw [hrecord] at hclose
    rw [hsummary]
    exact (closeFinalization_plan hclose).2

/-- After a decided plan nothing reopens the tape and the plan stays; a sealed tape is complete;
nothing follows the seal. -/
theorem finalization_of_pushAll {frames : List Frame} {fold : Fold}
    (h : Fold.new.pushAll env frames=.ok fold) :
    (∀ before f plan after, frames=before++f::after → f.record=.finalizationDecided plan →
      (∀ g ∈ after, g.record.reopens=false) ∧ ∃ state, fold.summary.finalization=some state ∧
        state.prepared=false ∧ state.layout=plan.layout ∧
        state.editionDigest=plan.editionDigest ∧ state.sequence=f.sequence) ∧
    (fold.summary.sealed=true →
      (∃ plan, SealedState env (rowStreams env Fold.new frames) fold.summary plan) ∧
        ∀ f next, fold.push env f≠(next,.ok ())) := by
  constructor
  · rintro before f plan after rfl hrecord
    obtain ⟨mid,hbefore,hafter⟩ := pushAll_append_eq_ok.mp h
    obtain ⟨next,hpush,hlater⟩ := pushAll_cons_eq_ok.mp hafter
    have happly := (push_eq_ok.mp hpush).2
    have hsplit : rowStreams env new (before++f::after)=
        rowStreams env new before++rowStreams env mid (f::after) := rowStreams_append hbefore
    have hledger := ledger_new.run hbefore
    have hlog := (finalLog_new _).run ledger_new (hsplit ▸ subset_append_left _ _) hbefore
    have hstreams := hsplit ▸ subset_append_right _ _
    simp only [rowStreams,hpush,cons_subset] at hstreams
    obtain ⟨state,hstate,hprepared,hlayout,hedition,hsequence⟩ := decided_apply hrecord happly
    obtain ⟨hquiet,state',hstate',hsame⟩ := decided_run (hlog.step hledger hstreams.1 happly)
      (hledger.step happly) hstate hprepared hstreams.2 hlater
    exact ⟨hquiet,state',hstate',hsame.prepared.trans hprepared,hsame.layout.trans hlayout,
      hsame.editionDigest.trans hedition,hsame.sequence.trans hsequence⟩
  · intro hsealed
    refine ⟨((finalLog_new _).run ledger_new (List.Subset.refl _) h).finalizing.closed hsealed,?_⟩
    intro f next hpush
    have hopen := (apply_eq_ok.mp (push_eq_ok.mp hpush).2).2.2.2.1
    rw [hsealed] at hopen
    cases hopen

def leadingServices : LogServices :=
  ⟨⟨fun bytes => ⟨(bytes++replicate 32 0).take 32,by simp⟩,fun _ _ => .zero 32⟩,
    fun _ => some 0⟩

/-- Five components of two records behind the bootstrap. -/
def sealedLayout : TerminalTailLayout :=
  ⟨0,256*1024,[⟨.tapeIndexReplica,1,1,2,2⟩,⟨.indexSeparationExtent,1,2,5,2⟩,
    ⟨.tapeIndexReplica,2,3,8,2⟩,⟨.indexSeparationExtent,2,4,11,2⟩,⟨.tapeIndexReplica,3,5,14,2⟩],
    rfl,17⟩

def sealedEdition : FixedBytes 32 := .filled 32 1

def sealedGroup (first frames : UInt64) : GroupRef := ⟨first,0,frames,0,0,.zero 32⟩

def sealedComponent (sequence : UInt64) (index : UInt8) (c : TerminalTailComponentPlan) :
    List Frame :=
  [parityFrame sequence (.payloadContinuation ⟨sequence,.fileRow
    ⟨c.plannedTapeFileNumber,componentFileKind c.kind,2,some c.plannedStartLba,none,none,none,none,
      none,none,none⟩⟩) [],
  parityFrame (sequence+1) (.componentWritten 2 index ⟨sealedGroup sequence 1,
    ⟨0,c.plannedStartLba+3⟩,0,0,.empty,.empty,0,c.plannedTapeFileNumber+1,0,parityUuid,none,none,
    "now"⟩) []]

def sealedFrames : List Frame :=
  [parityFrame 1 (.initialized ⟨parityUuid,1,1,256*1024,some ⟨"s",2,1,1⟩,
    ⟨0,.bootstrap,1,some 0,none,none,none,none,none,none,none⟩⟩) [],
  parityFrame 2 (.finalizationDecided ⟨sealedGroup 2 0,.reachedLowWatermark,none,parityUuid,1,
    sealedEdition,"v","now",sealedLayout,⟨0,2⟩⟩) []]++
  sealedComponent 3 0 (sealedLayout.component 0)++sealedComponent 5 1 (sealedLayout.component 1)++
  sealedComponent 7 2 (sealedLayout.component 2)++sealedComponent 9 3 (sealedLayout.component 3)++
  sealedComponent 11 4 (sealedLayout.component 4)++[parityFrame 13 (.sealed 2 ⟨0,17⟩ sealedEdition) []]

/-- The small log seals its tape with everything protected. -/
theorem finalization_sealedFrames : ∃ fold plan,
    Fold.new.pushAll leadingServices sealedFrames=.ok fold ∧ fold.summary.sealed=true ∧
      SealedState leadingServices (rowStreams leadingServices Fold.new sealedFrames)
        fold.summary plan ∧ fold.summary.scheme≠none ∧ fold.summary.protectedUpTo=fold.summary.total := by
  have hsealed : ((fun fold => (fold.summary.sealed,fold.summary.scheme)) <$>
      new.pushAll leadingServices sealedFrames)=.ok (true,some ⟨"s",2,1,1⟩) := by
    decide +kernel
  obtain ⟨fold,hpush,hvalues⟩ := map_eq_ok.mp hsealed
  rw [Prod.mk.injEq] at hvalues
  obtain ⟨plan,hplan⟩ := ((finalization_of_pushAll hpush).2 hvalues.1).1
  have hfree : CollisionFree leadingServices
      (rowStreams leadingServices new sealedFrames) := by
    unfold CollisionFree
    decide +kernel
  have hscheme : fold.summary.scheme≠none := by
    rw [hvalues.2]
    exact Option.some_ne_none _
  exact ⟨fold,plan,hpush,hvalues.1,hplan,hscheme,hplan.covered hfree hscheme⟩

end Remanence.TapeLog
