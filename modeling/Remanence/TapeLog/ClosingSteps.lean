import Remanence.TapeLog.FoldSteps

/-!
# What a closing record does

Inversion lemmas of the barriers and of the records that publish no media
state. Each closing record leaves the media state alone, publishes the state of
a checked barrier, or publishes a closeout.
-/

namespace Remanence.TapeLog

open Foundation Parity

variable {env : LogServices}

variable {s : TapeSummary}

theorem checkUncovered_eq_ok {previous u : TapeSummary} {c : Committed}
    (h : checkUncovered s previous c=.ok u) :
    (s.scheme=none ∨ c.total=c.protectedUpTo) ∧ c.check=.empty ∧ c.provenance=.empty ∧ u=s ∨
    s.scheme≠none ∧ c.total≠c.protectedUpTo ∧ c.provenance≠.empty ∧
      (previous.total < c.total → ((trim c.protectedUpTo s.uncovered).head?.map
        UncoveredExtent.first)=some (max64 c.protectedUpTo previous.total)) ∧
      u={ s with uncovered := trim c.protectedUpTo s.uncovered } := by
  unfold checkUncovered at h
  split_ifs at h with hempty
  · simp only [eq_ok,not_or,not_not,exists_const] at h
    obtain ⟨⟨hcheck,hprovenance⟩,rfl⟩ := h
    exact .inl ⟨hempty,hcheck,hprovenance,rfl⟩
  · simp only [eq_ok,not_and,not_or,not_not,exists_const] at h
    obtain ⟨hprovenance,hextents,rfl⟩ := h
    rw [not_or] at hempty
    exact .inr ⟨hempty.1,hempty.2,hprovenance,fun hgrow => (hextents hgrow).1,rfl⟩

structure CommitOf (p : Pending) (previous : TapeSummary) (c : Committed) (u : TapeSummary) :
    Prop where
  cursor : c.cursor=p.state.cursor
  nextFile : c.nextFile=p.state.nextFile
  protectedUpTo : c.protectedUpTo=p.state.protectedUpTo
  total : c.total=p.state.total
  within : p.state.scheme≠none → c.total-c.protectedUpTo < p.state.epochBlocks
  parityOff : p.state.scheme=none → c.protectedUpTo=0 ∧ p.state.uncovered=[]
  extents : ∃ v, checkUncovered p.state previous c=.ok v ∧ u={ v with
      check := c.check
      provenance := c.provenance
      uncovered := v.uncovered.map fun e => { e with committedAtUtc := c.committedAtUtc }
      sealDue := c.sealDue }

variable {p : Pending}

theorem checkCommit_eq_ok {previous u : TapeSummary} {c : Committed}
    (h : checkCommit env p previous c=.ok u) : CommitOf p previous c u := by
  simp only [checkCommit,eq_ok,not_or,not_and,not_not, exists_const] at h
  obtain ⟨-,-,-,-,⟨-,hcursor,hfile,-,-,hprotected,htotal,-,-⟩,⟨-,hwithin⟩,hoff,v,hv,-,-,rfl⟩ := h
  refine ⟨hcursor,hfile,hprotected,htotal,?_,hoff,v,hv,rfl⟩
  intro hscheme
  exact UInt64.not_le.mp (hwithin hscheme)

variable {s' : TapeSummary}

theorem mediaCommit_eq_ok {seq : UInt64} (h : mediaCommit s seq=.ok s') :
    ∃ barrierCount, s'={ s with lastMediaCommit := some seq,barrierCount := barrierCount } := by
  simp only [mediaCommit,eq_ok] at h
  obtain ⟨count,_,rfl⟩ := h
  exact ⟨count,rfl⟩

variable {f : Frame}

theorem applyInitialized_fresh {summary : TapeSummary} {pending : Option Pending}
    {init : Initialized} (h : applyInitialized summary pending f init=.ok s) : summary.isFresh := by
  simp only [applyInitialized,eq_ok,not_or,not_not] at h
  obtain ⟨_,⟨huuid,-⟩,-⟩ := h
  exact huuid

theorem applyInitialized_eq_ok {init : Initialized}
    (h : applyInitialized {} none f init=.ok s) : checkScheme init.scheme=.ok () ∧
      ∃ lba nextFile barrierCount, s={
        tapeUuid := some init.tapeUuid
        incarnation := 1
        lastClosedSequence := f.sequence
        closedEnd := f.stop
        blockSize := init.blockSize
        scheme := init.scheme
        cursor := ⟨0,lba⟩
        nextFile := nextFile
        lastMediaCommit := some f.sequence
        barrierCount := barrierCount } := by
  simp only [applyInitialized,eq_ok,not_or,not_not] at h
  obtain ⟨_,-,_,-,_,hscheme,_,⟨hkind,-⟩,p,hrow,state,hstate,rfl⟩ := h
  obtain ⟨-,q,after,happly,hadvance,hcount⟩ := applyRow_eq_ok hrow
  unfold applyKind at happly
  rw [hkind] at happly
  simp only [eq_ok] at happly
  obtain ⟨_,-,rfl⟩ := happly
  obtain ⟨lba,nextFile,-,-,rfl⟩ := advance_eq_ok hadvance
  simp only [countRow,if_true,Except.ok.injEq] at hcount
  subst hcount
  obtain ⟨count,rfl⟩ := mediaCommit_eq_ok hstate
  exact ⟨hscheme,lba,nextFile,count,rfl⟩

/-- The fields of the published state that the uncovered range depends on. -/
structure SameMedia (a b : TapeSummary) : Prop where
  tapeUuid : b.tapeUuid=a.tapeUuid
  scheme : b.scheme=a.scheme
  protectedUpTo : b.protectedUpTo=a.protectedUpTo
  total : b.total=a.total
  check : b.check=a.check
  provenance : b.provenance=a.provenance
  uncovered : b.uncovered=a.uncovered
  unprotectedSince : b.unprotectedSince=a.unprotectedSince
  nextFile : b.nextFile=a.nextFile

theorem SameMedia.publish {a b : TapeSummary} (h : SameMedia a b) (s : TapeSummary) :
    SameMedia (publishMedia s a) (publishMedia s b) := by
  obtain ⟨htape,hscheme,hprotected,htotal,hcheck,hprovenance,huncovered,hsince,hfile⟩ := h
  constructor <;> simp only [publishMedia,htape,hscheme,hprotected,htotal,hcheck,hprovenance,
    huncovered,hfile]

/-- The group has no object, by one of the counters a record may check. -/
def NoObjects (p : Pending) : Prop :=
  p.objects=0 ∨ p.rows=0 ∨ p.group.reference.frameCount=0

inductive MediaEffect (s : TapeSummary) (p : Pending) (s' : TapeSummary) : Prop
  /-- A record without media leaves it alone; its group has no object. -/
  | quiet (same : SameMedia s s') (empty : NoObjects p)
  | commit (c : Committed) (u v : TapeSummary) (checked : CommitOf p s c u)
      (same : SameMedia u v) (published : s'=publishMedia s v)
  | closeout (v : TapeSummary) (parity : s.scheme≠none)
      (covered : p.state.protectedUpTo=p.state.total)
      (same : SameMedia { p.state with check := .empty,provenance := .empty } v)
      (published : s'=publishMedia s v)

theorem requireEmpty_eq_ok {u : Unit} (h : requireEmpty p=.ok u) :
    p.rows=0 ∨ p.group.reference.frameCount=0 := by
  rw [requireEmpty,rejectIf_eq_ok,not_not] at h
  exact .inr h

theorem checkSessionEnded_eq_ok {ended : SessionEnded} {u : Unit}
    (h : checkSessionEnded env s p ended=.ok u) : p.rows=0 ∨ p.group.reference.frameCount=0 := by
  unfold checkSessionEnded at h
  split at h
  · simp only [refineSessionEnd,bind_eq_ok] at h
    obtain ⟨_,hempty,-⟩ := h
    exact requireEmpty_eq_ok hempty
  · simp only [endSession,eq_ok,not_or,not_not] at h
    obtain ⟨_,-,_,-,_,-,-,hrows,-⟩ := h
    exact .inl hrows

/-- The published state after a closing record, whatever else the record checks. -/
inductive ClosingStep (s : TapeSummary) (p : Pending) (f : Frame) : TapeSummary → Prop
  | quiet (openSession : Option SessionOpened) (lastSessionEnd : Option SessionEnded)
      (finalization : Option FinalizationState) (closed : Bool)
      (empty : f.record.isPlan=true ∧ p.objects=0 ∨ p.rows=0 ∨ p.group.reference.frameCount=0) :
      ClosingStep s p f { s with
        openSession := openSession
        lastSessionEnd := lastSessionEnd
        finalization := finalization
        sealed := closed }
  | commit (c : Committed) (u : TapeSummary) (checked : CommitOf p s c u)
      (ordinaryCommit lastMediaCommit : Option UInt64) (ordinaryRecord : Option Committed)
      (closeoutRecord : Option ClosedOut) (ordinaryCount barrierCount : UInt64)
      (finalization : Option FinalizationState) (other : f.record.isPlan=false) :
      ClosingStep s p f (publishMedia s { u with
        lastOrdinaryCommit := ordinaryCommit
        lastOrdinaryRecord := ordinaryRecord
        lastCloseoutRecord := closeoutRecord
        ordinaryCount := ordinaryCount
        finalization := finalization
        lastMediaCommit := lastMediaCommit
        barrierCount := barrierCount })
  | closeout (closed : ClosedOut) (lastMediaCommit : Option UInt64) (barrierCount : UInt64)
      (parity : s.scheme≠none) (covered : p.state.protectedUpTo=p.state.total)
      (other : f.record.isPlan=false) :
      ClosingStep s p f (publishMedia s { p.state with
        check := .empty
        provenance := .empty
        lastSessionEnd := none
        lastCloseoutRecord := some closed
        lastMediaCommit := lastMediaCommit
        barrierCount := barrierCount })

theorem closeFinalization_step {plan : FinalizationPlan} {prepared : Bool}
    (hrecord : f.record.isPlan=true) (h : closeFinalization env s p f plan prepared=.ok s') :
    ClosingStep s p f s' := by
  simp only [closeFinalization,eq_ok,not_or,not_not] at h
  obtain ⟨_,_,_,⟨hobjects,-⟩,_,_,_,_,_,_,rfl⟩ := h
  exact .quiet _ _ _ _ (.inl ⟨hrecord,hobjects⟩)

theorem closeRecord_step (h : closeRecord env s p f=.ok s') : ClosingStep s p f s' := by
  unfold closeRecord at h
  split at h <;> rename_i hrecord
  · simp only [closeSessionOpened,eq_ok] at h
    obtain ⟨_,hempty,_,_,_,_,_,_,rfl⟩ := h
    exact .quiet _ _ _ _ (.inr (requireEmpty_eq_ok hempty))
  · simp only [closeSessionEnded,eq_ok] at h
    obtain ⟨_,hended,rfl⟩ := h
    exact .quiet _ _ _ _ (.inr (checkSessionEnded_eq_ok hended))
  · simp only [closeClosedOut,eq_ok,not_or,not_not] at h
    obtain ⟨_,_,_,_,_,hchecks,_,_,_,_,scheme,_,_,_,_,_,state,hstate,rfl⟩ := h
    obtain ⟨-,-,-,-,-,-,hparity,-,-,-,-,-,-,-,-,-,-,-,-,hprotected,htotal,-⟩ := hchecks
    obtain ⟨count,rfl⟩ := mediaCommit_eq_ok hstate
    exact .closeout _ _ _ hparity (hprotected.trans htotal.symm) (by rw [hrecord]; rfl)
  · simp only [closeCommitted,eq_ok] at h
    obtain ⟨_,_,_,_,_,_,_,_,u,hcommit,_,_,state,hstate,rfl⟩ := h
    obtain ⟨count,rfl⟩ := mediaCommit_eq_ok hstate
    exact .commit _ u (checkCommit_eq_ok hcommit) _ _ _ _ _ _ _ (by rw [hrecord]; rfl)
  · simp only [closeTerminalPrefix,eq_ok] at h
    obtain ⟨_,_,_,_,u,hcommit,state,hstate,rfl⟩ := h
    obtain ⟨count,rfl⟩ := mediaCommit_eq_ok hstate
    exact .commit _ u (checkCommit_eq_ok hcommit) _ _ _ _ _ _ _ (by rw [hrecord]; rfl)
  · simp only [closeComponentWritten,eq_ok] at h
    obtain ⟨_,_,_,_,_,_,_,_,_,_,_,_,_,_,u,hcommit,_,_,state,hstate,rfl⟩ := h
    obtain ⟨count,rfl⟩ := mediaCommit_eq_ok hstate
    exact .commit _ u (checkCommit_eq_ok hcommit) _ _ _ _ _ _ _ (by rw [hrecord]; rfl)
  · exact closeFinalization_step (by rw [hrecord]; rfl) h
  · exact closeFinalization_step (by rw [hrecord]; rfl) h
  · simp only [closeSealed,eq_ok] at h
    obtain ⟨_,hempty,_,_,_,_,rfl⟩ := h
    exact .quiet _ _ _ _ (.inr (requireEmpty_eq_ok hempty))
  · simp only [closePreparationRetired,eq_ok] at h
    obtain ⟨_,hempty,_,_,rfl⟩ := h
    exact .quiet _ _ _ _ (.inr (requireEmpty_eq_ok hempty))
  · simp only [closeRecoveryRequired,eq_ok] at h
    obtain ⟨_,hempty,_,_,_,_,rfl⟩ := h
    exact .quiet _ _ _ _ (.inr (requireEmpty_eq_ok hempty))
  · cases h
  · cases h

theorem closeRecord_effect (h : closeRecord env s p f=.ok s') : MediaEffect s p s' := by
  cases closeRecord_step h with
  | quiet openSession lastSessionEnd finalization closed empty =>
    exact .quiet ⟨rfl,rfl,rfl,rfl,rfl,rfl,rfl,rfl,rfl⟩ (empty.imp_left And.right)
  | commit c u checked =>
    refine .commit c u _ checked ?_ rfl
    exact ⟨rfl,rfl,rfl,rfl,rfl,rfl,rfl,rfl,rfl⟩
  | closeout closed _ _ parity covered =>
    refine .closeout _ parity covered ?_ rfl
    exact ⟨rfl,rfl,rfl,rfl,rfl,rfl,rfl,rfl,rfl⟩

end Remanence.TapeLog
