import Remanence.TapeLog.Truncation

/-!
# Repair of a torn log

Replay of arbitrary bytes that ends in a torn tail names the end of the last
closed group. Cutting there keeps every closed group, and what is appended to
the cut is folded from the published summary alone.
-/

namespace Remanence.TapeLog

open Foundation Parity

variable {env : LogServices}

def Decoder.at (bytes : Bytes) (expected offset : UInt64) : Decoder := ⟨bytes,offset,expected⟩

def Fold.fromValidated (summary : TapeSummary) : Fold where
  summary := summary
  nextSequence := summary.lastClosedSequence+1

def replayFrom (env : LogServices) (summary : TapeSummary) (bytes : Bytes) :
    Except TapeLogError (TapeSummary×Tail) := do
  let (fold,tail) ← replayLoop env (bytes.length+1)
    (.at bytes (summary.lastClosedSequence+1) summary.closedEnd) (.fromValidated summary)
  (fold.finish tail).mapError fun fault => ⟨0,none,fault⟩

variable {fold next : Fold} {f : Frame}

theorem Fold.apply_closing_sequence (h : fold.apply env f=.ok next)
    (hclosing : f.record.closing=true) : next.summary.lastClosedSequence=f.sequence := by
  rcases apply_cases h with ⟨init,-,-,-,happly⟩ | ⟨c,p,hrecord,-⟩ | ⟨-,-,-,happly⟩
  · simp only [applyInitialized,eq_ok] at happly
    obtain ⟨_,_,_,_,_,_,_,_,_,_,state,_,hsummary⟩ := happly
    rw [←hsummary]
    rfl
  · rw [hrecord] at hclosing
    cases hclosing
  · obtain ⟨-,s,-,hsummary⟩ := applyClosing_eq_ok happly
    rw [hsummary]

theorem Fold.apply_nextSequence (h : fold.apply env f=.ok next) :
    next.nextSequence=f.sequence+1 := by
  obtain ⟨-,-,-,-,n,hn,h⟩ := apply_eq_ok.mp h
  have hnext : n=f.sequence+1 := by
    rw [←UInt64.toNat_inj,UInt64.toNat_add,←hn,UInt64.toNat_one,Nat.mod_eq_of_lt]
    rw [hn]
    exact n.toNat_lt
  unfold applyRecord at h
  split at h
  all_goals
    simp only [eq_ok] at h
    obtain ⟨_,_,rfl⟩ := h
    exact hnext

structure InStep (fold : Fold) (decoder : Decoder) : Prop where
  expected : fold.nextSequence=decoder.expected
  closed : fold.pending=none → fold.nextSequence=fold.summary.lastClosedSequence+1

variable {decoder : Decoder}

theorem InStep.step {d' : Decoder} (_h : InStep fold decoder)
    (hread : decoder.nextFrame=.ok (.frame f d')) (hpush : fold.push env f=(next,.ok ())) :
    InStep next d' := by
  obtain ⟨start,body,tag,s,p,hintact,-,-⟩ := intact_of_nextFrame hread
  obtain ⟨-,happly⟩ := Fold.push_eq_ok.mp hpush
  have hnext := Fold.apply_nextSequence happly
  have hexpected : d'.expected=f.sequence+1 := by
    have hsum := checkedAdd64_eq_some.mp hintact.following
    have hlt := d'.expected.toNat_lt
    rw [hintact.frame,←UInt64.toNat_inj,UInt64.toNat_add]
    dsimp only
    rw [Nat.mod_eq_of_lt (by omega),hsum]
  refine ⟨hnext.trans hexpected.symm,fun hnone => ?_⟩
  cases hclosing : f.record.closing with
  | true => rw [hnext,Fold.apply_closing_sequence happly hclosing]
  | false =>
    obtain ⟨-,p,hpending,-⟩ := Fold.apply_continuation happly hclosing
    rw [hpending] at hnone
    cases hnone

variable {frames : List Frame} {stop : Decoder}

theorem InStep.run {last : Fold} (h : InStep fold decoder)
    (hreads : Reads decoder frames stop) (hfold : fold.pushAll env frames=.ok last) :
    InStep last stop := by
  induction hreads generalizing fold with
  | nil decoder =>
    cases hfold
    exact h
  | cons head _ ih =>
    obtain ⟨next,hpush,hrest⟩ := Fold.pushAll_cons_eq_ok.mp hfold
    exact ih (h.step head hpush) hrest

theorem inStep_new (bytes : Bytes) : InStep Fold.new (.new bytes) := ⟨rfl,fun _ => rfl⟩

theorem Fold.eq_fromValidated (haligned : Aligned fold decoder.offset) (hstep : InStep fold decoder)
    (hnone : fold.pending=none) : fold=.fromValidated fold.summary := by
  have hnext := hstep.closed hnone
  have hhealthy := haligned.healthy
  obtain ⟨summary,pending,nextSequence,poisoned⟩ := fold
  subst hnone hhealthy
  rw [Fold.fromValidated,←hnext]

theorem replayLoop_fuel {a b : ℕ} (ha : decoder.rest.length < a) (hb : decoder.rest.length < b) :
    replayLoop env a decoder fold=replayLoop env b decoder fold := by
  induction a generalizing b decoder fold with
  | zero => exact absurd ha (Nat.not_lt_zero _)
  | succ a ih =>
    cases b with
    | zero => exact absurd hb (Nat.not_lt_zero _)
    | succ b =>
      rw [replayLoop,replayLoop]
      cases hstep : decoder.nextFrame with
      | error e => rfl
      | ok step =>
        cases step with
        | stop tail => rfl
        | frame f next =>
          have hlen := length_nextFrame hstep
          simp only [ok_bind]
          split
          · exact ih (by omega) (by omega)
          · rfl

theorem replayLoop_reads {fuel rest : ℕ} {last : Fold}
    (hreads : Reads decoder frames stop) (hfold : fold.pushAll env frames=.ok last)
    (hfuel : decoder.rest.length < fuel) (hrest : stop.rest.length < rest) :
    replayLoop env fuel decoder fold=replayLoop env rest stop last := by
  induction hreads generalizing fold fuel with
  | nil decoder =>
    cases hfold
    exact replayLoop_fuel hfuel hrest
  | @cons decoder next last' f frames head _ ih =>
    obtain ⟨mid,hpush,hlater⟩ := Fold.pushAll_cons_eq_ok.mp hfold
    have hlen := length_nextFrame head
    cases fuel with
    | zero => exact absurd hfuel (Nat.not_lt_zero _)
    | succ fuel =>
      rw [replayLoop,head,ok_bind]
      dsimp only
      rw [hpush]
      exact ih hlater (by omega) hrest

theorem replay_take_append {bytes : Bytes}
    (hreads : Reads (.new bytes) frames stop) (hfold : Fold.new.pushAll env frames=.ok fold)
    (hnone : fold.pending=none) (more : Bytes) :
    replay env (bytes.take stop.offset.toNat++more)=replayFrom env fold.summary more := by
  have haligned := aligned_new.run hreads hfold
  have hstep := (inStep_new bytes).run hreads hfold
  have hexpected : stop.expected=fold.summary.lastClosedSequence+1 := by
    rw [←hstep.expected,hstep.closed hnone]
  have hloop := replayLoop_reads (hreads.of_new.2.2 more) hfold (Nat.lt_succ_self _)
    (Nat.lt_succ_self more.length)
  rw [hexpected,Fold.eq_fromValidated haligned hstep hnone,←haligned.closed hnone] at hloop
  rw [replay,replayFrom,←haligned.closed hnone]
  exact congrArg (· >>= fun x => (x.1.finish x.2).mapError fun fault => ⟨0,none,fault⟩) hloop

/-- Cut at the reported offset, the end of the last closed group, a torn log keeps every closed
group and its summary, and appended bytes replay from that summary. -/
theorem replay_torn {bytes : Bytes} {summary : TapeSummary} {offset : UInt64} {kind : TornKind}
    (h : replay env bytes=.ok (summary,.torn offset kind)) :
    offset=summary.closedEnd ∧ replay env (bytes.take offset.toNat)=.ok (summary,.complete) ∧
      (∃ closed opened tail, decodeFrames bytes=.ok (closed++opened,tail) ∧
        decodeFrames (bytes.take offset.toNat)=.ok (closed,.complete) ∧
        ∀ f ∈ opened, f.record.closing=false) ∧
      ∀ more, replay env (bytes.take offset.toNat++more)=replayFrom env summary more := by
  obtain ⟨frames,stop,fold,t,hreads,hfold,hstop,hfinish⟩ := replay_eq_ok.mp h
  -- the reported offset is the end of the published groups
  obtain ⟨tail,htail,hcases⟩ := (aligned_new.run hreads hfold).finish hstop
  rw [hfinish,Except.ok.injEq,Prod.mk.injEq] at htail
  obtain ⟨rfl,rfl⟩ := htail
  have hoffset : offset=fold.summary.closedEnd := by
    rcases hcases with ⟨hcomplete,-⟩ | ⟨⟨kind',hkind⟩,-⟩
    · cases hcomplete
    · cases hkind
      rfl
  subst hoffset
  -- the frames up to the last closing record end there
  obtain ⟨pre,post,mid,rfl,hmid,hnone,hsame,hopen,-⟩ := closed_split rfl hfold
  obtain ⟨b,hpre,hpost⟩ := hreads.split
  have hclosed : fold.summary.closedEnd=b.offset := by
    rw [←hsame,(aligned_new.run hpre hmid).closed hnone]
  obtain ⟨-,-,hcut⟩ := hpre.of_new
  have hmore : ∀ more, replay env (bytes.take fold.summary.closedEnd.toNat++more)=
      replayFrom env fold.summary more := by
    intro more
    rw [hclosed,←hsame]
    exact replay_take_append hpre hmid hnone more
  have hshort := hcut []
  rw [List.append_nil,←hclosed] at hshort
  refine ⟨rfl,?_,⟨pre,post,t,?_,?_,hopen⟩,hmore⟩
  · have hnil := hmore []
    rw [List.append_nil] at hnil
    rw [hnil]
    rfl
  · exact (decodeLoop_eq_ok (Nat.lt_succ_self _)).mpr ⟨stop,hreads,hstop⟩
  · exact (decodeLoop_eq_ok (Nat.lt_succ_self _)).mpr ⟨_,hshort,nextFrame_nil _ _⟩

/-- The small log cut inside its last frame is repaired to its first two records. -/
theorem replay_torn_sampleLog : ∃ summary, ∃ offset : UInt64,
    replay sampleServices (sampleLog.take 300)= .ok (summary,.torn offset (.unclosedGroup none)) ∧
      replay sampleServices ((sampleLog.take 300).take offset.toNat)=.ok (summary,.complete) := by
  have htorn : (Prod.snd <$> replay sampleServices (sampleLog.take 300))=
      .ok (.torn 179 (.unclosedGroup none)) := by
    decide +kernel
  obtain ⟨⟨summary,tail⟩,hreplay,rfl⟩ := map_eq_ok.mp htorn
  exact ⟨summary,_,hreplay,(replay_torn hreplay).2.1⟩

end Remanence.TapeLog
