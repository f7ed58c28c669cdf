import Remanence.TapeLog.Conservation

/-!
# Authority of the log

A frame is applied in place: an error keeps what was assigned before it. The published state is
assigned last, so a refused frame and a continuation leave it alone. Along accepted frames its
positions only grow.
-/

namespace Remanence.TapeLog

open Foundation Parity Fold
open UInt64 (le_refl le_iff_toNat_le)

variable (env : LogServices)

namespace Fold

def assign {α : Type} (fold : Fold) (result : Except Fault α) (write : α → Fold) :
    Fold×Except Fault Unit :=
  match result with
  | .ok a => (write a,.ok ())
  | .error fault => (fold,.error fault)

/-- A continuation starts its group, and a closing record takes it, before it is checked. -/
def applyRecordInPlace (fold : Fold) (f : Frame) : Fold×Except Fault Unit :=
  match f.record with
  | .initialized init =>
    fold.assign (applyInitialized fold.summary fold.pending f init) fun summary =>
      { fold with summary }
  | .payloadContinuation c =>
    if fold.summary.isFresh ∧ fold.pending=none then
      (fold,.error (.invalid "continuation before Initialized"))
    else
      { fold with pending := some (groupOf fold f) }.assign
        (applyContinuation fold.summary fold.pending f c) fun p => { fold with pending := some p }
  | _ =>
    if fold.summary.isFresh then (fold,.error .terminalFirst)
    else
      { fold with pending := none }.assign (applyClosing env fold.summary fold.pending f)
        fun summary => { fold with summary,pending := none }

/-- Checks of a frame and its record; the sequence number is assigned between the checks. -/
def applyInPlace (fold : Fold) (f : Frame) : Fold×Except Fault Unit :=
  if f.payloadValidated=false then (fold,.error (.invalid "fold requires all section CRCs"))
  else if f.sequence≠fold.nextSequence then
    (fold,.error (.sequence fold.nextSequence f.sequence))
  else match add f.sequence 1 with
    | .error fault => (fold,.error fault)
    | .ok nextSequence =>
      if f.record.isCatalog=false ∧ f.payload≠[] then
        ({ fold with nextSequence },.error (.invalid "unexpected payload section"))
      else if fold.summary.sealed=true then
        ({ fold with nextSequence },.error (.invalid "record after seal"))
      else { fold with nextSequence }.applyRecordInPlace env f

def pushInPlace (fold : Fold) (f : Frame) : Fold×Except TapeLogError Unit :=
  match (if fold.poisoned then (fold,.error (.invalid "fold poisoned"))
    else fold.applyInPlace env f) with
  | (next,.ok ()) => (next,.ok ())
  | (next,.error fault) => ({ next with poisoned := true },.error ⟨f.offset,some f.sequence,fault⟩)

/-- Frames in place, whether or not they are accepted. -/
def pushEach (fold : Fold) (frames : List Frame) : Fold :=
  frames.foldl (fun fold f => (fold.pushInPlace env f).1) fold

end Fold

variable {env} {fold next : Fold} {f : Frame}

/-- The same fold if it succeeds, the same fault and an untouched published state if it fails. -/
structure InPlace (fold : Fold) (result : Except Fault Fold) (outcome : Fold×Except Fault Unit) :
    Prop where
  ok : ∀ next, result=.ok next → outcome=(next,.ok ())
  error : ∀ fault, result=.error fault → outcome.2=.error fault ∧ outcome.1.summary=fold.summary

theorem inPlace_error {kept : Fold} (fault : Fault) (h : kept.summary=fold.summary) :
    InPlace fold (.error fault) (kept,.error fault) := by
  refine ⟨fun _ hok => (nomatch hok),fun other hother => ?_⟩
  cases hother
  exact ⟨rfl,h⟩

theorem inPlace_assign {α : Type} {kept : Fold} (h : kept.summary=fold.summary)
    (result : Except Fault α) (write : α → Fold) :
    InPlace fold (do let a ← result; return write a) (kept.assign result write) := by
  cases result with
  | error fault => exact inPlace_error fault h
  | ok a =>
    refine ⟨fun next hnext => ?_,fun _ herror => (nomatch herror)⟩
    rw [ok_bind,pure_eq_ok] at hnext
    rw [←hnext]
    rfl

theorem inPlace_reject {c : Prop} [Decidable c] {fault : Fault} {kept : Fold}
    {result : Except Fault Fold} {outcome : Fold×Except Fault Unit}
    (hkept : kept.summary=fold.summary) (h : InPlace fold result outcome) :
    InPlace fold (do rejectIf c fault; result) (if c then (kept,.error fault) else outcome) := by
  split_ifs with hc
  · rw [rejectIf_neg hc]
    exact inPlace_error fault hkept
  · rw [rejectIf_pos hc]
    exact h

theorem inPlace_applyRecord (fold : Fold) (f : Frame) (n : UInt64) : InPlace fold
    (fold.applyRecord env f n) ({ fold with nextSequence := n }.applyRecordInPlace env f) := by
  have hclosing : InPlace fold
      (do let summary ← applyClosing env fold.summary fold.pending f
          return { fold with summary,pending := none,nextSequence := n })
      (if fold.summary.isFresh then ({ fold with nextSequence := n },.error .terminalFirst)
        else { fold with nextSequence := n,pending := none }.assign
          (applyClosing env fold.summary fold.pending f)
          fun summary => { fold with summary,pending := none,nextSequence := n }) := by
    split_ifs with hfresh
    · rw [applyClosing,rejectIf_neg hfresh]
      exact inPlace_error _ rfl
    · exact inPlace_assign (by rfl) _ _
  unfold applyRecord applyRecordInPlace
  cases hrecord : f.record with
  | initialized init => exact inPlace_assign (by rfl) _ _
  | payloadContinuation c =>
    dsimp only
    split_ifs with hfresh
    · rw [applyContinuation,rejectIf_neg hfresh]
      exact inPlace_error _ rfl
    · exact inPlace_assign (by rfl) _ _
  | _ => exact hclosing

theorem inPlace_apply (fold : Fold) (f : Frame) :
    InPlace fold (fold.apply env f) (fold.applyInPlace env f) := by
  refine inPlace_reject rfl (inPlace_reject rfl ?_)
  cases add f.sequence 1 with
  | error fault => exact inPlace_error fault rfl
  | ok n => exact inPlace_reject rfl (inPlace_reject rfl (inPlace_applyRecord fold f n))

theorem pushInPlace_eq (fold : Fold) (f : Frame) : (fold.pushInPlace env f).2=(fold.push env f).2 ∧
      ∀ next, fold.push env f=(next,.ok ()) → fold.pushInPlace env f=(next,.ok ()) := by
  unfold pushInPlace push
  cases hpoisoned : fold.poisoned with
  | true => exact ⟨rfl,fun _ h => by cases congrArg Prod.snd h⟩
  | false =>
    have happly := @inPlace_apply env fold f
    simp only [Bool.false_eq_true,if_false]
    cases hresult : fold.apply env f with
    | ok next => simp only [happly.ok next hresult,Prod.mk.injEq,and_true,imp_self,implies_true]
    | error fault =>
      obtain ⟨hfault,-⟩ := happly.error fault hresult
      rcases hplace : fold.applyInPlace env f with ⟨kept,outcome⟩
      obtain rfl : outcome=.error fault := by rw [←hfault,hplace]
      exact ⟨rfl,fun _ h => by cases congrArg Prod.snd h⟩

theorem pushInPlace_refused (h : (fold.pushInPlace env f).2≠.ok ()) :
    (fold.pushInPlace env f).1.summary=fold.summary ∧ (fold.pushInPlace env f).1.poisoned=true := by
  unfold pushInPlace at h ⊢
  cases hpoisoned : fold.poisoned with
  | true => exact ⟨rfl,rfl⟩
  | false =>
    have happly := @inPlace_apply env fold f
    simp only [hpoisoned,Bool.false_eq_true,if_false] at h ⊢
    cases hresult : fold.apply env f with
    | ok next =>
      rw [happly.ok next hresult] at h
      exact absurd rfl h
    | error fault =>
      obtain ⟨hfault,hsummary⟩ := happly.error fault hresult
      rcases hplace : fold.applyInPlace env f with ⟨kept,outcome⟩
      obtain rfl : outcome=.error fault := by rw [←hfault,hplace]
      rw [hplace] at hsummary
      exact ⟨hsummary,rfl⟩

theorem pushInPlace_continuation (h : f.record.closing=false) :
    (fold.pushInPlace env f).1.summary=fold.summary := by
  by_cases hok : (fold.pushInPlace env f).2=.ok ()
  · rw [(pushInPlace_eq fold f).1] at hok
    obtain ⟨next,hpush⟩ : ∃ next, fold.push env f=(next,.ok ()) := ⟨_,Prod.ext rfl hok⟩
    rw [(pushInPlace_eq fold f).2 next hpush]
    exact (apply_continuation (push_eq_ok.mp hpush).2 h).1
  · exact (pushInPlace_refused hok).1

theorem pushInPlace_poisoned (h : fold.poisoned=true) (f : Frame) :
    (fold.pushInPlace env f).2≠.ok () ∧ (fold.pushInPlace env f).1.poisoned=true := by
  unfold pushInPlace
  rw [h]
  exact ⟨fun hok => (nomatch hok),rfl⟩

theorem pushEach_poisoned (h : fold.poisoned=true) (frames : List Frame) :
    (fold.pushEach env frames).poisoned=true := by
  induction frames generalizing fold with
  | nil => exact h
  | cons f frames ih => exact ih (pushInPlace_poisoned h f).2

/-- Positions and counters have not decreased, and a tape keeps its identity. -/
structure Advances (a b : TapeSummary) : Prop where
  lba : a.cursor.lba ≤ b.cursor.lba
  nextFile : a.nextFile ≤ b.nextFile
  total : a.total ≤ b.total
  protectedUpTo : a.protectedUpTo ≤ b.protectedUpTo
  nextEpoch : a.nextEpoch ≤ b.nextEpoch
  bound : a.tapeUuid≠none → b.tapeUuid=a.tapeUuid ∧ b.blockSize=a.blockSize ∧ b.scheme=a.scheme

theorem Advances.refl (s : TapeSummary) : Advances s s :=
  ⟨le_refl _,le_refl _,le_refl _,le_refl _,le_refl _,
    fun _ => ⟨rfl,rfl,rfl⟩⟩

theorem Advances.trans {a b c : TapeSummary} (h : Advances a b) (h' : Advances b c) :
    Advances a c := by
  refine ⟨UInt64.le_trans h.lba h'.lba,UInt64.le_trans h.nextFile h'.nextFile,
    UInt64.le_trans h.total h'.total,UInt64.le_trans h.protectedUpTo h'.protectedUpTo,
    UInt64.le_trans h.nextEpoch h'.nextEpoch,fun hbound => ?_⟩
  obtain ⟨huuid,hsize,hscheme⟩ := h.bound hbound
  obtain ⟨huuid',hsize',hscheme'⟩ := h'.bound (by rw [huuid]; exact hbound)
  exact ⟨huuid'.trans huuid,hsize'.trans hsize,hscheme'.trans hscheme⟩

theorem Advances.congr {a b c : TapeSummary} (h : Advances a b)
    (hcounters : c.rowCounters=b.rowCounters) (hsize : c.blockSize=b.blockSize) : Advances a c := by
  simp only [TapeSummary.rowCounters,RowCounters.mk.injEq] at hcounters
  obtain ⟨huuid,hscheme,hlba,hfile,htotal,hepoch,hprotected⟩ := hcounters
  refine ⟨?_,?_,?_,?_,?_,?_⟩
  · rw [hlba]
    exact h.lba
  · rw [hfile]
    exact h.nextFile
  · rw [htotal]
    exact h.total
  · rw [hprotected]
    exact h.protectedUpTo
  · rw [hepoch]
    exact h.nextEpoch
  · rw [huuid,hsize,hscheme]
    exact h.bound

theorem KindStep.le {c d : RowCounters} {row : TapeFileEntry} {bot : Bool}
    (h : KindStep c row bot d) : d.lba=c.lba ∧ d.nextFile=c.nextFile ∧ c.total ≤ d.total ∧
      c.protectedUpTo ≤ d.protectedUpTo ∧ c.nextEpoch ≤ d.nextEpoch := by
  cases h with
  | object total _ _ extended =>
    refine ⟨rfl,rfl,le_iff_toNat_le.mpr ?_,le_refl _,le_refl _⟩
    dsimp only
    omega
  | sidecar stop nextEpoch _ _ _ _ raised counted =>
    refine ⟨rfl,rfl,le_refl _,UInt64.le_of_lt raised,le_iff_toNat_le.mpr ?_⟩
    dsimp only
    omega
  | other => exact ⟨rfl,rfl,le_refl _,le_refl _,le_refl _⟩

theorem Advances.of_applyRow {p p' : Pending} {row : TapeFileEntry} {bot : Bool}
    (h : applyRow p row bot=.ok p') : Advances p.state p'.state := by
  have hstep := rowStep_of_applyRow h
  obtain ⟨mid,hkind,hlba,hfile,hcounters⟩ := hstep.kind
  obtain ⟨hmidLba,hmidFile,htotal,hprotected,hepoch⟩ := hkind.le
  rw [hmidLba] at hlba
  rw [hmidFile] at hfile
  have hsize : p'.state.blockSize=p.state.blockSize := by
    obtain ⟨_,_,_,_,_,_,_,_,hstate⟩ := applyRow_frame h
    rw [hstate]
  refine ⟨?_,?_,?_,?_,?_,fun _ => ⟨hstep.keeps.1,hsize,hstep.keeps.2⟩⟩
  · exact le_iff_toNat_le.mpr (le_trans (Nat.le_add_right _ (row.blockCount.toNat+1))
      (le_of_eq hlba))
  · exact le_iff_toNat_le.mpr (le_trans (Nat.le_add_right _ 1) (le_of_eq hfile))
  · exact UInt64.le_trans htotal (UInt64.le_of_eq (congrArg RowCounters.total hcounters).symm)
  · exact UInt64.le_trans hprotected
      (UInt64.le_of_eq (congrArg RowCounters.protectedUpTo hcounters).symm)
  · exact UInt64.le_trans hepoch (UInt64.le_of_eq (congrArg RowCounters.nextEpoch hcounters).symm)

theorem Advances.of_applyChunk {s : TapeSummary} {p q : Pending} {payload : Bytes} {chunk : Chunk}
    (h : applyChunk s p payload chunk=.ok q) : Advances p.state q.state := by
  obtain ⟨row,-,hrow⟩ | ⟨-,hkeep⟩ := applyChunk_cases h
  · exact .of_applyRow hrow
  · rw [hkeep.state]
    exact .refl _

def Ahead (fold : Fold) : Prop := ∀ p, fold.pending=some p → Advances fold.summary p.state

theorem Ahead.groupOf (h : Ahead fold) (f : Frame) :
    Advances fold.summary (groupOf fold f).state := by
  unfold TapeLog.groupOf
  cases hpending : fold.pending with
  | none => exact (Advances.refl fold.summary).congr rfl rfl
  | some p => exact h p hpending

theorem ahead_of_none (h : fold.pending=none) : Ahead fold := by
  intro p hp
  rw [h] at hp
  cases hp

/-- An accepted frame moves the published state forward and keeps the pending group ahead. -/
theorem Ahead.step (h : Ahead fold) (happly : fold.apply env f=.ok next) :
    Ahead next ∧ Advances fold.summary next.summary := by
  rcases apply_cases happly with ⟨init,-,-,hpending,hinit⟩ |
    ⟨c,p,-,hsummary,hpending,hcontinuation⟩ | ⟨-,-,hpending,hclosing⟩
  · refine ⟨ahead_of_none hpending,?_⟩
    have hfresh := applyInitialized_fresh hinit
    simp only [applyInitialized,eq_ok] at hinit
    obtain ⟨_,_,_,_,_,_,_,_,p,hrow,state,hstate,hnext⟩ := hinit
    obtain ⟨count,rfl⟩ := mediaCommit_eq_ok hstate
    have hadvance := (Advances.of_applyRow hrow).congr
      (show next.summary.rowCounters=_ by rw [←hnext]; rfl)
      (show next.summary.blockSize=_ by rw [←hnext]; rfl)
    exact ⟨hadvance.lba,hadvance.nextFile,hadvance.total,hadvance.protectedUpTo,hadvance.nextEpoch,
      fun hbound => absurd hfresh hbound⟩
  · obtain ⟨-,q,group,hchunk,-,-,rfl⟩ := applyContinuation_eq_ok hcontinuation
    rw [Ahead,hsummary,hpending]
    refine ⟨fun p hp => ?_,.refl _⟩
    cases hp
    exact (h.groupOf f).trans (show Advances _ q.state from .of_applyChunk hchunk)
  · refine ⟨ahead_of_none hpending,?_⟩
    obtain ⟨-,s,hclose,hnext⟩ := applyClosing_eq_ok hclosing
    have hcounters : next.summary.rowCounters=s.rowCounters := by rw [hnext]; rfl
    have hsize : next.summary.blockSize=s.blockSize := by rw [hnext]
    rcases closeRecord_counters hclose with ⟨⟨hsame,hsame'⟩,-⟩ | ⟨⟨hsame,hsame'⟩,-⟩
    · exact (h.groupOf f).congr (hcounters.trans hsame) (hsize.trans hsame')
    · exact (Advances.refl _).congr (hcounters.trans hsame) (hsize.trans hsame')

theorem Ahead.run {last : Fold} {frames : List Frame} (h : Ahead fold)
    (hfold : fold.pushAll env frames=.ok last) : Ahead last ∧ Advances fold.summary last.summary := by
  induction frames generalizing fold with
  | nil =>
    cases hfold
    exact ⟨h,.refl _⟩
  | cons f frames ih =>
    obtain ⟨next,hpush,hrest⟩ := pushAll_cons_eq_ok.mp hfold
    obtain ⟨hnext,hadvance⟩ := h.step (push_eq_ok.mp hpush).2
    obtain ⟨hlast,hlater⟩ := ih hnext hrest
    exact ⟨hlast,hadvance.trans hlater⟩

/-- Along frames that a decoder reads the authoritative bytes only grow, up to where it stands. -/
theorem closedEnd_run {a b : Decoder} {last : Fold} {frames : List Frame}
    (hreads : Reads a frames b) (hfold : fold.pushAll env frames=.ok last)
    (hle : fold.summary.closedEnd.toNat ≤ a.offset.toNat) :
    fold.summary.closedEnd.toNat ≤ last.summary.closedEnd.toNat ∧
      last.summary.closedEnd.toNat ≤ b.offset.toNat := by
  induction hreads generalizing fold with
  | nil decoder =>
    cases hfold
    exact ⟨le_rfl,hle⟩
  | @cons decoder mid stop f frames head _ ih =>
    obtain ⟨next,hpush,hrest⟩ := pushAll_cons_eq_ok.mp hfold
    have happly := (push_eq_ok.mp hpush).2
    obtain ⟨hoffset,hmid,hlt⟩ := offset_of_nextFrame head
    have hnext : fold.summary.closedEnd.toNat ≤ next.summary.closedEnd.toNat ∧
        next.summary.closedEnd.toNat ≤ mid.offset.toNat := by
      rw [hoffset] at hlt
      cases hclosing : f.record.closing with
      | true =>
        rw [(apply_closing happly hclosing).2,hmid]
        omega
      | false =>
        rw [(apply_continuation happly hclosing).1,hmid]
        omega
    obtain ⟨hgrown,hend⟩ := ih hrest hnext.2
    exact ⟨le_trans hnext.1 hgrown,hend⟩

/-- In place the same frames are accepted. A refused frame and a continuation leave the published
state as it is, and after a refusal every frame is refused. Accepted sequences move the published
state and the authoritative bytes forward. -/
theorem pushInPlace_atomic_monotone (env : LogServices) :
    (∀ (fold : Fold) (f : Frame), (fold.pushInPlace env f).2=(fold.push env f).2 ∧
      ∀ next, fold.push env f=(next,.ok ()) → fold.pushInPlace env f=(next,.ok ())) ∧
    (∀ (fold : Fold) (f : Frame), (fold.pushInPlace env f).2≠.ok () ∨ f.record.closing=false →
      (fold.pushInPlace env f).1.summary=fold.summary) ∧
    (∀ (fold : Fold) (f : Frame) later g, (fold.pushInPlace env f).2≠.ok () →
      (((fold.pushInPlace env f).1.pushEach env later).pushInPlace env g).2≠.ok ()) ∧
    ∀ (start : Fold) before after a b, start.pending=none → start.pushAll env before=.ok a →
      a.pushAll env after=.ok b → Advances a.summary b.summary ∧
        ∀ first mid last, Reads first before mid → Reads mid after last →
          start.summary.closedEnd ≤ first.offset → a.summary.closedEnd ≤ b.summary.closedEnd := by
  refine ⟨pushInPlace_eq,fun fold f h => ?_,fun fold f later g h => ?_,?_⟩
  · rcases h with hrefused | hopen
    · exact (pushInPlace_refused hrefused).1
    · exact pushInPlace_continuation hopen
  · exact (pushInPlace_poisoned (pushEach_poisoned (pushInPlace_refused h).2 later) g).1
  · intro start before after a b hidle hbefore hafter
    obtain ⟨hahead,-⟩ := (ahead_of_none hidle).run hbefore
    refine ⟨(hahead.run hafter).2,fun first mid last hfirst hlast hle => ?_⟩
    rw [le_iff_toNat_le] at hle ⊢
    exact (closedEnd_run hlast hafter (closedEnd_run hfirst hbefore hle).2).1

/-- The log of an initialized tape moves a fresh fold forward. -/
theorem pushInPlace_atomic_monotone_initializedLog : ∃ frames last b,
    Reads (.new initializedLog) frames last ∧ Fold.new.pushAll sampleServices frames=.ok b ∧
      Advances Fold.new.summary b.summary ∧ Fold.new.summary.closedEnd ≤ b.summary.closedEnd ∧
      b.summary.nextFile=1 := by
  obtain ⟨s,hreplay,hfile,-,-⟩ := replay_initializedLog
  obtain ⟨frames,last,b,t,hreads,hfold,hstop,hfinish⟩ := replay_eq_ok.mp hreplay
  obtain ⟨hadvance,hend⟩ := (pushInPlace_atomic_monotone sampleServices).2.2.2 new [] frames
    new b rfl rfl hfold
  obtain ⟨tail,htail,-⟩ := (aligned_new.run hreads hfold).finish hstop
  rw [hfinish,Except.ok.injEq,Prod.mk.injEq] at htail
  refine ⟨frames,last,b,hreads,hfold,hadvance,hend _ _ _ (.nil _) hreads (le_refl _),?_⟩
  rw [←htail.1]
  exact hfile

end Remanence.TapeLog
