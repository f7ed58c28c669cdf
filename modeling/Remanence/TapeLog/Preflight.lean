import Remanence.TapeLog.TornTail

/-!
# Candidate groups

Before a group is appended, its bytes are folded on a trial copy that leaves out
the extents of old objects. No check reads them, so the trial accepts exactly the
frames that the fold itself would accept.
-/

namespace Remanence.TapeLog

open Foundation Parity List Fold

variable (env : LogServices)

namespace Fold

def candidateError (fold : Fold) (why : String) : TapeLogError :=
  ⟨fold.summary.closedEnd,some fold.nextSequence,.invalid why⟩

def trial (fold : Fold) : Fold := { fold with summary := fold.summary.pendingCopy }

def visitCandidate (fold : Fold) (closed : Bool) (trial : Fold) (f : Frame) :
    Except TapeLogError Fold := do
  rejectIf (fold.nextSequence ≤ trial.summary.lastClosedSequence ∨
    closed=false ∧ f.record.closing=true)
    (fold.candidateError "candidate must contain one closed group")
  trial.accept env f

/-- Trial after the frames of a candidate; with `closed` false only provisional frames. -/
def preflightPrefix (fold : Fold) (bytes : Bytes) (closed : Bool) : Except TapeLogError Fold := do
  rejectIf (fold.poisoned=true ∨ fold.pending≠none)
    (fold.candidateError "preflight requires healthy closed boundary")
  let (trial,tail) ← visitFrames id (fold.visitCandidate env closed) (bytes.length+1)
    (.at bytes fold.nextSequence fold.summary.closedEnd) fold.trial
  rejectIf (tail≠.complete) (fold.candidateError "candidate must contain one closed group")
  return trial

def preflight (fold : Fold) (bytes : Bytes) : Except TapeLogError Unit := do
  rejectIf (fold.poisoned=true) (fold.candidateError "fold poisoned")
  rejectIf (fold.pending≠none) (fold.candidateError "preflight requires closed boundary")
  let trial ← fold.preflightPrefix env bytes true
  rejectIf (trial.summary.lastClosedSequence < fold.nextSequence ∨ trial.pending≠none)
    (fold.candidateError "candidate must contain one closed group")

end Fold

variable {env} {fold : Fold} {f : Frame}

/-- Whether a computation succeeds, and its error. -/
def outcome {ε α : Type} (x : Except ε α) : Except ε Unit := (fun _ => ()) <$> x

theorem outcome_eq_ok {ε α : Type} {x : Except ε α} : outcome x=.ok () ↔ ∃ a, x=.ok a := by
  cases x <;> simp [outcome]

theorem outcome_bind_congr {ε α β γ : Type} (x : Except ε α) {f : α → Except ε β} {g : α → Except ε γ}
    (h : ∀ a, outcome (f a)=outcome (g a)) : outcome (x >>= f)=outcome (x >>= g) := by
  cases x with
  | error e => rfl
  | ok a => exact h a

theorem outcome_bind_pure {ε α β : Type} (x : Except ε α) (g : α → β) :
    outcome (x >>= fun a => pure (g a))=outcome x := by
  cases x <;> rfl

theorem outcome_closeRecord (s : TapeSummary) (p : Pending) (f : Frame) :
    outcome (closeRecord env s.pendingCopy p f)=outcome (closeRecord env s p f) := by
  unfold closeRecord outcome
  split
  case h_12 => rfl
  case h_13 => rfl
  all_goals
    simp only [closeSessionOpened,closeSessionEnded,closeClosedOut,closeCommitted,
      closeTerminalPrefix,closeComponentWritten,closeFinalization,closeSealed,
      closePreparationRetired,closeRecoveryRequired,map_bind,map_pure]
    rfl

theorem outcome_apply (fold : Fold) (f : Frame) :
    outcome (fold.trial.apply env f)=outcome (fold.apply env f) := by
  refine outcome_bind_congr _ fun _ => outcome_bind_congr _ fun _ => outcome_bind_congr _ fun n =>
    outcome_bind_congr _ fun _ => outcome_bind_congr _ fun _ => ?_
  have hclosing : outcome (applyClosing env fold.trial.summary fold.pending f)=
      outcome (applyClosing env fold.summary fold.pending f) := by
    refine outcome_bind_congr _ fun _ => outcome_bind_congr _ fun _ => outcome_bind_congr _ fun _ => ?_
    rw [outcome_bind_pure,outcome_bind_pure]
    exact outcome_closeRecord fold.summary _ f
  unfold applyRecord
  cases f.record with
  | initialized init =>
    dsimp only
    rw [outcome_bind_pure,outcome_bind_pure]
    unfold outcome
    simp only [applyInitialized,map_bind,map_pure]
    rfl
  | payloadContinuation c =>
    dsimp only
    rw [outcome_bind_pure,outcome_bind_pure]
    rfl
  | _ =>
    dsimp only
    rw [outcome_bind_pure,outcome_bind_pure]
    exact hclosing

theorem trial_apply (h : f.record.closing=false) :
    fold.trial.apply env f=Fold.trial <$> fold.apply env f := by
  obtain ⟨c,hrecord⟩ : ∃ c, f.record=.payloadContinuation c := by
    cases hrecord : f.record with
    | payloadContinuation c => exact ⟨c,rfl⟩
    | _ =>
      rw [hrecord] at h
      cases h
  simp only [apply,applyRecord,hrecord,map_bind,map_pure]
  rfl

variable {next : Fold}

theorem exists_trial_apply :
    (∃ after, fold.trial.apply env f=.ok after) ↔ ∃ after, fold.apply env f=.ok after := by
  rw [←outcome_eq_ok,←outcome_eq_ok,outcome_apply]

theorem le_nextSequence_of_apply {start : UInt64} (hstart : start ≤ fold.nextSequence)
    (h : fold.apply env f=.ok next) : start ≤ next.nextSequence := by
  obtain ⟨-,hsequence,-,-,n,hn,-⟩ := apply_eq_ok.mp h
  have hlt := n.toNat_lt
  rw [hsequence] at hn
  rw [apply_nextSequence h,hsequence]
  rw [UInt64.le_iff_toNat_le] at hstart ⊢
  rw [UInt64.toNat_add,UInt64.toNat_one,Nat.mod_eq_of_lt (by omega)]
  omega

theorem visitCandidate_run {start : Fold} {frames : List Frame} (hhealthy : fold.poisoned=false)
    (hsequence : start.nextSequence ≤ fold.nextSequence)
    (hopen : fold.summary.lastClosedSequence < start.nextSequence) :
    (∃ t, frames.foldlM (start.visitCandidate env true) fold.trial=.ok t ∧
      ¬(t.summary.lastClosedSequence < start.nextSequence ∨ t.pending≠none)) ↔
    ∃ body close last, frames=body++[close] ∧ (∀ f ∈ body, f.record.closing=false) ∧
      close.record.closing=true ∧ fold.pushAll env frames=.ok last := by
  induction frames generalizing fold with
  | nil =>
    constructor
    · rintro ⟨t,ht,hclosed⟩
      cases ht
      exact absurd (.inl hopen) hclosed
    · rintro ⟨body,close,last,hframes,-⟩
      exact absurd hframes.symm (by simp)
  | cons f frames ih =>
    have hguard : start.visitCandidate env true fold.trial f=fold.trial.accept env f := by
      have hpass : ¬(start.nextSequence ≤ fold.trial.summary.lastClosedSequence ∨
          true=false ∧ f.record.closing=true) := by
        rintro (hle | ⟨hfalse,-⟩)
        · exact UInt64.not_le.mpr hopen hle
        · cases hfalse
      rw [visitCandidate,rejectIf_pos hpass,ok_bind]
    simp only [foldlM_cons_eq_ok,hguard,accept_eq_ok,pushAll_cons_eq_ok,push_eq_ok,
      hhealthy,show fold.trial.poisoned=false from hhealthy,true_and]
    cases hclosing : f.record.closing with
    | false =>
      -- the group goes on: trial and fold stay related
      have hrest {after : Fold} (hafter : fold.apply env f=.ok after) := @ih after
        ((apply_poisoned hafter).trans hhealthy) (le_nextSequence_of_apply hsequence hafter)
        (by rw [(apply_continuation hafter hclosing).1]; exact hopen)
      simp only [trial_apply hclosing,map_eq_ok]
      constructor
      · rintro ⟨t,⟨_,⟨after,hafter,rfl⟩,ht⟩,hclosed⟩
        obtain ⟨body,close,last,rfl,hbody,hclose,hlast⟩ := (hrest hafter).mp ⟨t,ht,hclosed⟩
        exact ⟨f::body,close,last,rfl,forall_mem_cons.mpr ⟨hclosing,hbody⟩,hclose,after,hafter,hlast⟩
      · rintro ⟨_ | ⟨g,body⟩,close,last,hframes,hbody,hclose,after,hafter,hlast⟩
        · obtain ⟨rfl,-⟩ := List.cons.inj hframes
          rw [hclosing] at hclose
          cases hclose
        · obtain ⟨rfl,rfl⟩ := List.cons.inj hframes
          obtain ⟨t,ht,hclosed⟩ := (hrest hafter).mpr
            ⟨body,close,last,rfl,(forall_mem_cons.mp hbody).2,hclose,hlast⟩
          exact ⟨t,⟨after.trial,⟨after,hafter,rfl⟩,ht⟩,hclosed⟩
    | true =>
      -- the closing record: no frame may follow
      have hlast {mid : Fold} (happly : fold.trial.apply env f=.ok mid) :
          mid.pending=none ∧ start.nextSequence ≤ mid.summary.lastClosedSequence := by
        rw [apply_closing_sequence happly hclosing,(apply_eq_ok.mp happly).2.1]
        exact ⟨(apply_closing happly hclosing).1,hsequence⟩
      constructor
      · rintro ⟨t,⟨mid,hmid,ht⟩,-⟩
        obtain ⟨after,hafter⟩ := exists_trial_apply.mp ⟨mid,hmid⟩
        cases frames with
        | nil => exact ⟨[],f,after,rfl,by simp,hclosing,after,hafter,rfl⟩
        | cons g frames =>
          obtain ⟨_,hvisit,-⟩ := foldlM_cons_eq_ok.mp ht
          rw [visitCandidate,rejectIf_neg (.inl (hlast hmid).2)] at hvisit
          cases hvisit
      · rintro ⟨_ | ⟨g,body⟩,close,last,hframes,hbody,-,after,hafter,-⟩
        · obtain ⟨rfl,rfl⟩ := List.cons.inj hframes
          obtain ⟨mid,hmid⟩ := exists_trial_apply.mpr ⟨after,hafter⟩
          obtain ⟨hnone,hle⟩ := hlast hmid
          exact ⟨mid,⟨mid,hmid,rfl⟩,not_or.mpr ⟨UInt64.not_lt.mpr hle,not_not.mpr hnone⟩⟩
        · obtain ⟨rfl,-⟩ := List.cons.inj hframes
          rw [(forall_mem_cons.mp hbody).1] at hclosing
          cases hclosing

/-- A candidate passes exactly when it is whole frames that the fold itself would accept, and only
the last one closes a group. Bytes behind whole groups are folded from the log's summary. -/
theorem preflight_and_resume (env : LogServices) :
    (∀ (fold : Fold) (bytes : Bytes), fold.pending=none → fold.poisoned=false →
      fold.summary.lastClosedSequence < fold.nextSequence →
      (fold.preflight env bytes=.ok () ↔ ∃ body close stop last,
        Reads (.at bytes fold.nextSequence fold.summary.closedEnd) (body++[close]) stop ∧
          stop.nextFrame=.ok (.stop .complete) ∧ (∀ f ∈ body, f.record.closing=false) ∧
          close.record.closing=true ∧ fold.pushAll env (body++[close])=.ok last)) ∧
    ∀ log more s, replay env log=.ok (s,.complete) →
      replay env (log++more)=replayFrom env s more := by
  constructor
  · intro fold bytes hidle hhealthy hclosed
    have hpoisoned : ¬fold.poisoned=true := by rw [hhealthy]; exact Bool.false_ne_true
    have hpending := not_not.mpr hidle
    have hrun {frames : List Frame} := @visitCandidate_run env fold fold frames hhealthy
      (UInt64.le_refl _) hclosed
    rw [preflight,rejectIf_pos hpoisoned,ok_bind,rejectIf_pos hpending,ok_bind,
      preflightPrefix,rejectIf_pos (not_or.mpr ⟨hpoisoned,hpending⟩),ok_bind]
    simp only [eq_ok,Prod.exists,not_not]
    constructor
    · rintro ⟨_,⟨trial,tail,hvisit,_,rfl,rfl⟩,hone⟩
      obtain ⟨frames,stop,hreads,hfold,hstop⟩ := (visitFrames_eq_ok (Nat.lt_succ_self _)).mp hvisit
      obtain ⟨body,close,last,rfl,hbody,hclose,hpush⟩ := hrun.mp ⟨trial,hfold,hone⟩
      exact ⟨body,close,stop,last,hreads,hstop,hbody,hclose,hpush⟩
    · rintro ⟨body,close,stop,last,hreads,hstop,hbody,hclose,hpush⟩
      obtain ⟨trial,hfold,hone⟩ := hrun.mpr ⟨body,close,last,rfl,hbody,hclose,hpush⟩
      refine ⟨trial,⟨trial,.complete,?_,(),rfl,rfl⟩,hone⟩
      exact (visitFrames_eq_ok (Nat.lt_succ_self _)).mpr ⟨_,stop,hreads,hfold,hstop⟩
  · intro log more s h
    obtain ⟨frames,stop,fold,t,hreads,hfold,hstop,hfinish⟩ := replay_eq_ok.mp h
    have haligned := aligned_new.run hreads hfold
    obtain ⟨tail,htail,hcases⟩ := haligned.finish hstop
    rw [hfinish,Except.ok.injEq,Prod.mk.injEq] at htail
    obtain ⟨rfl,rfl⟩ := htail
    rcases hcases with ⟨-,hclosed,hrest⟩ | ⟨⟨kind,hkind⟩,-⟩
    · have hnone : fold.pending=none := by
        cases hpending : fold.pending with
        | none => rfl
        | some p =>
          have hlt := (haligned.grouped p hpending).2
          rw [hclosed] at hlt
          exact absurd hlt (lt_irrefl _)
      have hwhole : log.take stop.offset.toNat=log := by
        rw [hreads.of_new.2.1,drop_eq_nil_iff] at hrest
        exact take_of_length_le hrest
      have hresume := replay_take_append hreads hfold hnone more
      rwa [hwhole] at hresume
    · cases hkind

/-- The bootstrap of a fresh tape is a candidate, and a session is folded from its summary. -/
theorem preflight_and_resume_sampleInitialized : (∃ body close stop last,
    Reads (.at (sampleFrame 1 sampleInitialized) 1 0) (body++[close]) stop ∧
      Fold.new.pushAll sampleServices (body++[close])=.ok last) ∧
    ∃ s, replay sampleServices (sampleFrame 1 sampleInitialized)=.ok (s,.complete) ∧
      replay sampleServices (sampleFrame 1 sampleInitialized++sampleFrame 2 sampleOpened)=
        replayFrom sampleServices s (sampleFrame 2 sampleOpened) := by
  obtain ⟨hpreflight,hresume⟩ := preflight_and_resume sampleServices
  have hcandidate : new.preflight sampleServices (sampleFrame 1 sampleInitialized)=.ok () := by
    decide +kernel
  have hcomplete : (Prod.snd <$> replay sampleServices (sampleFrame 1 sampleInitialized))=
      .ok .complete := by
    decide +kernel
  obtain ⟨body,close,stop,last,hreads,-,-,-,hpush⟩ :=
    (hpreflight new _ rfl rfl (by decide)).mp hcandidate
  obtain ⟨⟨s,tail⟩,hreplay,rfl⟩ := map_eq_ok.mp hcomplete
  exact ⟨⟨body,close,stop,last,hreads,hpush⟩,s,hreplay,hresume _ _ s hreplay⟩

end Remanence.TapeLog
