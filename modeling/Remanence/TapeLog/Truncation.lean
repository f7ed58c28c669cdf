import Remanence.TapeLog.Decoding
import Remanence.TapeLog.FoldSteps

/-!
# Replay of a truncated log

Cutting a complete log anywhere leaves a log that replays. What it publishes
is what the longest prefix that ends on a closing record publishes, and the
tail starts at the end of that prefix.
-/

namespace Remanence.TapeLog

open Foundation Parity List

variable {env : LogServices}

variable {decoder : Decoder}

theorem length_nextFrame {next : Decoder} {f : Frame} (h : decoder.nextFrame=.ok (.frame f next)) :
    next.rest.length < decoder.rest.length := by
  obtain ⟨start,body,tag,s,p,hintact,hbytes,-⟩ := intact_of_nextFrame h
  rw [hbytes,length_append,length_append,hintact.length_start,prefixLen]
  omega

variable {frames : List Frame} {tail : Tail}

theorem decodeLoop_eq_ok {fuel : ℕ}
    (hfuel : decoder.rest.length < fuel) : decodeLoop fuel decoder=.ok (frames,tail) ↔
      ∃ last, Reads decoder frames last ∧ last.nextFrame=.ok (.stop tail) := by
  induction fuel generalizing decoder frames with
  | zero => exact absurd hfuel (Nat.not_lt_zero _)
  | succ fuel ih =>
    rw [decodeLoop,bind_eq_ok]
    constructor
    · rintro ⟨step,hstep,h⟩
      cases step with
      | stop t =>
        cases h
        exact ⟨decoder,.nil decoder,hstep⟩
      | frame f next =>
        simp only [eq_ok,Prod.mk.injEq] at h
        obtain ⟨⟨rest,t⟩,hrest,rfl,rfl⟩ := h
        have hlen := length_nextFrame hstep
        obtain ⟨last,hreads,hstop⟩ := (ih (by omega)).mp hrest
        exact ⟨last,.cons hstep hreads,hstop⟩
    · rintro ⟨last,hreads,hstop⟩
      cases hreads with
      | nil => exact ⟨_,hstop,rfl⟩
      | @cons _ next _ f rest head tail' =>
        have hlen := length_nextFrame head
        refine ⟨_,head,?_⟩
        simp only [eq_ok,Prod.mk.injEq]
        exact ⟨(rest,tail),(ih (by omega)).mpr ⟨last,tail',hstop⟩,rfl,rfl⟩

/-- Frames handed to a visitor one after the other, with a bound on their number. -/
def visitFrames {ε σ : Type} (wrap : TapeLogError → ε) (visit : σ → Frame → Except ε σ) :
    ℕ → Decoder → σ → Except ε (σ×Tail)
  | 0,decoder,_ => .error (wrap ⟨decoder.offset,none,.overflow⟩)
  | fuel+1,decoder,state => do
    match ← decoder.nextFrame.mapError wrap with
    | .stop tail => return (state,tail)
    | .frame f next => do
      let state ← visit state f
      visitFrames wrap visit fuel next state

/-- The visitor sees a run, and the bound is never reached. -/
theorem visitFrames_eq_ok {ε σ : Type} {wrap : TapeLogError → ε} {visit : σ → Frame → Except ε σ}
    {fuel : ℕ} {s t : σ} (hfuel : decoder.rest.length < fuel) :
    visitFrames wrap visit fuel decoder s=.ok (t,tail) ↔ ∃ frames stop, Reads decoder frames stop ∧
      frames.foldlM visit s=.ok t ∧ stop.nextFrame=.ok (.stop tail) := by
  induction fuel generalizing decoder s with
  | zero => exact absurd hfuel (Nat.not_lt_zero _)
  | succ fuel ih =>
    simp only [visitFrames,bind_eq_ok,mapError_eq_ok]
    constructor
    · rintro ⟨step,hstep,h⟩
      cases step with
      | stop t =>
        cases h
        exact ⟨[],decoder,.nil decoder,rfl,hstep⟩
      | frame f next =>
        obtain ⟨mid,hvisit,hrest⟩ := bind_eq_ok.mp h
        have hlen := length_nextFrame hstep
        obtain ⟨frames,stop,hreads,hlater,hstop⟩ := (ih (by omega)).mp hrest
        exact ⟨f::frames,stop,.cons hstep hreads,foldlM_cons_eq_ok.mpr ⟨mid,hvisit,hlater⟩,hstop⟩
    · rintro ⟨frames,stop,hreads,hfold,hstop⟩
      cases hreads with
      | nil =>
        cases hfold
        exact ⟨_,hstop,rfl⟩
      | @cons _ next _ f rest head tail' =>
        have hlen := length_nextFrame head
        obtain ⟨mid,hvisit,hlater⟩ := foldlM_cons_eq_ok.mp hfold
        exact ⟨_,head,bind_eq_ok.mpr ⟨mid,hvisit,(ih (by omega)).mpr ⟨rest,stop,tail',hlater,hstop⟩⟩⟩

def Fold.accept (env : LogServices) (fold : Fold) (f : Frame) : Except TapeLogError Fold :=
  match fold.push env f with
  | (next,.ok ()) => .ok next
  | (_,.error e) => .error e

theorem Fold.accept_eq_ok {fold next : Fold} {f : Frame} :
    fold.accept env f=.ok next ↔ fold.push env f=(next,.ok ()) := by
  unfold Fold.accept
  rcases fold.push env f with ⟨after,error | u⟩ <;> simp

theorem Fold.pushAll_eq_foldlM (fold : Fold) (frames : List Frame) :
    fold.pushAll env frames=frames.foldlM (Fold.accept env) fold := by
  induction frames generalizing fold with
  | nil => rfl
  | cons f frames ih =>
    rw [Fold.pushAll,foldlM_cons,Fold.accept]
    rcases fold.push env f with ⟨next,error | u⟩
    · rfl
    · exact ih next

theorem replayLoop_eq_visitFrames (fuel : ℕ) (decoder : Decoder) (fold : Fold) :
    replayLoop env fuel decoder fold=visitFrames id (Fold.accept env) fuel decoder fold := by
  induction fuel generalizing decoder fold with
  | zero => rfl
  | succ fuel ih =>
    rw [replayLoop,visitFrames]
    rcases decoder.nextFrame with error | step
    · rfl
    cases step with
    | stop tail => rfl
    | frame f next =>
      change (match fold.push env f with
        | (after,.ok ()) => replayLoop env fuel next after
        | (_,.error e) => .error e)=fold.accept env f >>= fun after => visitFrames id _ fuel next after
      rw [Fold.accept]
      rcases fold.push env f with ⟨after,error | u⟩
      · rfl
      · exact ih next after

variable {fold last : Fold}

/-- The replay loop folds a run and stops; its bound is never reached. -/
theorem replayLoop_eq_ok {fuel : ℕ} (hfuel : decoder.rest.length < fuel) :
    replayLoop env fuel decoder fold=.ok (last,tail) ↔ ∃ frames stop, Reads decoder frames stop ∧
      fold.pushAll env frames=.ok last ∧ stop.nextFrame=.ok (.stop tail) := by
  simp only [replayLoop_eq_visitFrames,visitFrames_eq_ok hfuel,Fold.pushAll_eq_foldlM]

theorem replay_eq_ok {bytes : Bytes} {s : TapeSummary} :
    replay env bytes=.ok (s,tail) ↔ ∃ frames stop fold t, Reads (.new bytes) frames stop ∧
      Fold.new.pushAll env frames=.ok fold ∧ stop.nextFrame=.ok (.stop t) ∧
      fold.finish t=.ok (s,tail) := by
  simp only [replay,bind_eq_ok,mapError_eq_ok,Prod.exists]
  constructor
  · rintro ⟨fold,t,hloop,hfinish⟩
    obtain ⟨frames,stop,hreads,hfold,hstop⟩ := (replayLoop_eq_ok (Nat.lt_succ_self _)).mp hloop
    exact ⟨frames,stop,fold,t,hreads,hfold,hstop,hfinish⟩
  · rintro ⟨frames,stop,fold,t,hreads,hfold,hstop,hfinish⟩
    exact ⟨fold,t,(replayLoop_eq_ok (Nat.lt_succ_self _)).mpr ⟨frames,stop,hreads,hfold,hstop⟩,
      hfinish⟩

structure Aligned (fold : Fold) (offset : UInt64) : Prop where
  healthy : fold.poisoned=false
  closed : fold.pending=none → fold.summary.closedEnd=offset
  grouped : ∀ p, fold.pending=some p → p.group.reference.startOffset=fold.summary.closedEnd ∧
      fold.summary.closedEnd.toNat < offset.toNat

theorem Aligned.step {next : Fold} {d' : Decoder} {f : Frame} (h : Aligned fold decoder.offset)
    (hread : decoder.nextFrame=.ok (.frame f d')) (hpush : fold.push env f=(next,.ok ())) :
    Aligned next d'.offset := by
  obtain ⟨start,body,tag,s,p,hintact,-,hoffset⟩ := intact_of_nextFrame hread
  obtain ⟨-,happly⟩ := Fold.push_eq_ok.mp hpush
  have hpoisoned := (Fold.apply_poisoned happly).trans h.healthy
  have hstart : f.offset=decoder.offset := by rw [hintact.frame]
  have hlength := hintact.length_eq
  have hlt : decoder.offset.toNat < d'.offset.toNat := by
    rw [hoffset,hintact.toNat_stop,hlength,frameOverhead,prefixLen]
    omega
  cases hclosing : f.record.closing with
  | true =>
    obtain ⟨hnone,hend⟩ := Fold.apply_closing happly hclosing
    refine ⟨hpoisoned,fun _ => by rw [hend,hoffset],fun q hq => ?_⟩
    rw [hnone] at hq
    cases hq
  | false =>
    obtain ⟨hsummary,q,hpending,hgroup⟩ := Fold.apply_continuation happly hclosing
    refine ⟨hpoisoned,fun hnone => ?_,fun q' hq' => ?_⟩
    · rw [hpending] at hnone
      cases hnone
    · rw [hpending,Option.some.injEq] at hq'
      subst hq'
      rw [hgroup,hsummary]
      cases hold : fold.pending with
      | none =>
        have hclosed := h.closed hold
        refine ⟨?_,by rw [hclosed]; exact hlt⟩
        rw [groupOf,hold,hclosed,←hstart]
        rfl
      | some old =>
        obtain ⟨hsame,hbefore⟩ := h.grouped old hold
        refine ⟨?_,lt_trans hbefore hlt⟩
        rw [groupOf,hold]
        exact hsame

theorem Aligned.run {stop : Decoder} (h : Aligned fold decoder.offset)
    (hreads : Reads decoder frames stop) (hfold : fold.pushAll env frames=.ok last) :
    Aligned last stop.offset := by
  induction hreads generalizing fold with
  | nil decoder =>
    cases hfold
    exact h
  | cons head _ ih =>
    obtain ⟨next,hpush,hrest⟩ := Fold.pushAll_cons_eq_ok.mp hfold
    exact ih (h.step head hpush) hrest

theorem aligned_new : Aligned Fold.new 0 :=
  ⟨rfl,fun _ => rfl,fun _ hp => nomatch hp⟩

theorem Aligned.finish {stop : Decoder} {t : Tail} (h : Aligned fold stop.offset)
    (hstop : stop.nextFrame=.ok (.stop t)) : ∃ tail, fold.finish t=.ok (fold.summary,tail) ∧
      (tail=.complete ∧ fold.summary.closedEnd=stop.offset ∧ stop.rest=[] ∨
        (∃ kind, tail=.torn fold.summary.closedEnd kind) ∧
          (fold.summary.closedEnd.toNat < stop.offset.toNat ∨ t≠.complete)) := by
  have hhealthy : ¬fold.poisoned=true := by rw [h.healthy]; exact Bool.false_ne_true
  unfold Fold.finish
  rw [rejectIf_pos hhealthy,ok_bind]
  cases hpending : fold.pending with
  | some p =>
    obtain ⟨hoffset,hlt⟩ := h.grouped p hpending
    refine ⟨_,rfl,.inr ⟨⟨_,by rw [hoffset]⟩,.inl hlt⟩⟩
  | none =>
    have hclosed := h.closed hpending
    refine ⟨t,rfl,?_⟩
    rcases stop_cases hstop with ⟨rfl,hrest⟩ | ⟨kind,rfl⟩
    · exact .inl ⟨rfl,hclosed,hrest⟩
    · exact .inr ⟨⟨kind,by rw [hclosed]⟩,.inr (by simp)⟩

/-- Accepted frames split after the last closing record; what follows it
publishes nothing. -/
theorem closed_split {start : Fold} (hidle : start.pending=none)
    (h : start.pushAll env frames=.ok last) : ∃ pre post mid, frames=pre++post ∧
      start.pushAll env pre=.ok mid ∧ mid.pending=none ∧ mid.summary=last.summary ∧
      (∀ f ∈ post, f.record.closing=false) ∧
      (pre=[] ∨ ∃ init f, pre=init++[f] ∧ f.record.closing=true) := by
  induction frames using List.reverseRecOn generalizing last with
  | nil =>
    cases h
    exact ⟨[],[],start,rfl,rfl,hidle,rfl,by simp,.inl rfl⟩
  | append_singleton frames f ih =>
    obtain ⟨before,hbefore,hlast⟩ := Fold.pushAll_append_eq_ok.mp h
    obtain ⟨next,hpush,hnil⟩ := Fold.pushAll_cons_eq_ok.mp hlast
    cases hnil
    obtain ⟨-,happly⟩ := Fold.push_eq_ok.mp hpush
    cases hclosing : f.record.closing with
    | true =>
      obtain ⟨hnone,-⟩ := Fold.apply_closing happly hclosing
      exact ⟨frames++[f],[],last,by simp,h,hnone,rfl,by simp,.inr ⟨frames,f,rfl,hclosing⟩⟩
    | false =>
      obtain ⟨hsummary,-⟩ := Fold.apply_continuation happly hclosing
      obtain ⟨pre,post,mid,rfl,hmid,hnone,hsame,hopen,hend⟩ := ih hbefore
      refine ⟨pre,post++[f],mid,by simp,hmid,hnone,hsame.trans hsummary.symm,?_,hend⟩
      intro g hg
      rcases mem_append.mp hg with hg | hg
      · exact hopen g hg
      · rw [mem_singleton.mp hg]
        exact hclosing

def endsOnClosing (bytes : Bytes) : Bool :=
  match decodeFrames bytes with
  | .ok (frames,.complete) => (frames.getLast?.map fun f => f.record.closing).getD false
  | _ => false

/-- Length of the longest prefix of at most `t` bytes that ends on a closing
record, zero if there is none. -/
def closingBoundary (log : Bytes) (t : ℕ) : ℕ :=
  Nat.findGreatest (fun b => endsOnClosing (log.take b)=true) t

theorem endsOnClosing_iff {bytes : Bytes} : endsOnClosing bytes=true ↔
    ∃ init f last, Reads (.new bytes) (init++[f]) last ∧ last.rest=[] ∧ f.record.closing=true := by
  have hloop : ∀ {frames : List Frame}, decodeFrames bytes=.ok (frames,.complete) ↔
      ∃ last, Reads (.new bytes) frames last ∧ last.nextFrame=.ok (.stop .complete) :=
    decodeLoop_eq_ok (Nat.lt_succ_self _)
  constructor
  · intro h
    unfold endsOnClosing at h
    split at h
    · rename_i frames hdecode
      obtain ⟨last,hreads,hstop⟩ := hloop.mp hdecode
      have hrest : last.rest=[] := by
        rcases stop_cases hstop with ⟨-,hrest⟩ | ⟨kind,hkind⟩
        · exact hrest
        · cases hkind
      induction frames using List.reverseRecOn with
      | nil => cases h
      | append_singleton init f _ =>
        rw [getLast?_concat,Option.map_some,Option.getD_some] at h
        exact ⟨init,f,last,hreads,hrest,h⟩
    · cases h
  · rintro ⟨init,f,⟨rest,offset,expected⟩,hreads,rfl,hclosing⟩
    have hdecode := hloop.mpr ⟨_,hreads,nextFrame_nil offset expected⟩
    unfold endsOnClosing
    rw [hdecode]
    simp only [getLast?_concat,Option.map_some,Option.getD_some,hclosing]

theorem Reads.not_longer {a b c : Decoder} {fs gs : List Frame} (h : Reads a fs b)
    (hstop : b.nextFrame=.ok (.stop tail)) (h' : Reads a (fs++gs) c) : gs=[] := by
  obtain ⟨d,hfirst,hsecond⟩ := h'.split
  obtain rfl : b=d := h.unique hfirst
  cases hsecond with
  | nil => rfl
  | cons head _ =>
    rw [hstop] at head
    cases head

/-- The last closing record of a truncated log ends its longest closed prefix. -/
theorem closingBoundary_eq {log : Bytes} {t : ℕ} {pre post : List Frame} {b d : Decoder}
    (ht : t ≤ log.length) (hpre : Reads (.new (log.take t)) pre b) (hpost : Reads b post d)
    (hstop : d.nextFrame=.ok (.stop tail)) (hopen : ∀ f ∈ post, f.record.closing=false)
    (hlast : pre=[] ∨ ∃ init f, pre=init++[f] ∧ f.record.closing=true) :
    closingBoundary log t=b.offset.toNat ∧
      Reads (.new (log.take b.offset.toNat)) pre ⟨[],b.offset,b.expected⟩ := by
  obtain ⟨hle,-,hreads⟩ := hpre.of_new
  rw [length_take,Nat.min_eq_left ht] at hle
  have hwithin : Reads (.new (log.take b.offset.toNat)) pre ⟨[],b.offset,b.expected⟩ := by
    have h := hreads []
    rwa [append_nil,take_take,Nat.min_eq_left hle] at h
  refine ⟨Nat.findGreatest_eq_iff.mpr ⟨hle,fun hpos => ?_,fun n hlt hn hends => ?_⟩,hwithin⟩
  · rcases hlast with rfl | ⟨init,f,rfl,hclosing⟩
    · cases hpre
      exact absurd rfl hpos
    · exact endsOnClosing_iff.mpr ⟨init,f,_,hwithin,rfl,hclosing⟩
  · -- the frames of a longer such prefix are among those read here
    obtain ⟨init,f,last,hlonger,hrest,hclosing⟩ := endsOnClosing_iff.mp hends
    obtain ⟨hlele,hdrop,hread⟩ := hlonger.of_new
    have hlength : (log.take n).length=n := by
      rw [length_take]
      omega
    have hend : last.offset.toNat=n := by
      rw [hrest] at hdrop
      have := drop_eq_nil_iff.mp hdrop.symm
      omega
    have hsame : Reads (.new (log.take t)) (init++[f])
        ⟨(log.take t).drop n,last.offset,last.expected⟩ := by
      have h := hread ((log.take t).drop n)
      have hcut : log.take n=(log.take t).take n := by rw [take_take,Nat.min_eq_left hn]
      rwa [hend,take_take,Nat.min_self,hcut,take_append_drop] at h
    have hwhole := hpre.append hpost
    have hinside : init++[f] <+: pre++post := by
      rcases hwhole.prefix_or hsame with ⟨gs,hgs⟩ | hle
      · rw [←hgs] at hsame
        rw [←hgs,hwhole.not_longer hstop hsame,append_nil]
      · exact hle
    -- one that ends inside `pre` is not longer than `pre`
    have hnot : ¬init++[f] <+: pre := by
      rintro ⟨gs,hgs⟩
      rw [←hgs] at hpre
      obtain ⟨mid,hmid,hrun⟩ := hpre.split
      have hmono := hrun.offset_le
      rw [←hsame.unique hmid] at hmono
      have hmono' : last.offset.toNat ≤ b.offset.toNat := hmono
      omega
    rcases List.prefix_or_prefix_of_prefix hinside (prefix_append pre post) with hle | ⟨gs,hgs⟩
    · exact hnot hle
    · -- otherwise its last frame is one of the provisional ones
      induction gs using List.reverseRecOn with
      | nil =>
        rw [append_nil] at hgs
        exact hnot (by rw [hgs])
      | append_singleton gs g _ =>
        have hfg : g=f := by
          have := congrArg List.getLast? hgs
          rw [←append_assoc,getLast?_concat,getLast?_concat] at this
          exact Option.some.inj this
        rw [←hgs,prefix_append_right_inj] at hinside
        have hmem : g ∈ post := hinside.subset (by simp)
        rw [hfg] at hmem
        rw [hopen f hmem] at hclosing
        cases hclosing

/-- Cut anywhere, a complete log replays to the summary of its longest prefix that ends on a closing
record, with a tail that starts there. -/
theorem replay_take {log : Bytes} {summary : TapeSummary}
    (h : replay env log=.ok (summary,.complete)) {t : ℕ} (ht : t ≤ log.length) :
    ∃ s tail, replay env (log.take t)=.ok (s,tail) ∧
      replay env (log.take (closingBoundary log t))=.ok (s,.complete) ∧
      (closingBoundary log t=0 → s={}) ∧
      s.closedEnd.toNat=closingBoundary log t ∧
      (tail=.complete ↔ t=closingBoundary log t) ∧
      (t≠closingBoundary log t → ∃ kind, tail=.torn s.closedEnd kind) := by
  obtain ⟨frames,stop,fold,tl,hreads,hfold,hstop,hfinish⟩ := replay_eq_ok.mp h
  have hrest : stop.rest=[] := by
    obtain ⟨tail,htail,hcases⟩ := (aligned_new.run hreads hfold).finish hstop
    rw [hfinish,Except.ok.injEq,Prod.mk.injEq] at htail
    rcases hcases with ⟨-,-,hrest⟩ | ⟨⟨kind,hkind⟩,-⟩
    · exact hrest
    · rw [←htail.2] at hkind
      cases hkind
  -- the leading frames that the cut leaves whole
  obtain ⟨kept,lost,d,rfl,hkept,hend⟩ := hreads.cut hrest ht
  have hkept : Reads (.new (log.take t)) kept d := hkept
  obtain ⟨fold1,hfold1,-⟩ := Fold.pushAll_append_eq_ok.mp hfold
  have haligned := aligned_new.run hkept hfold1
  obtain ⟨tl1,hstop1,hcut⟩ : ∃ tl1, d.nextFrame=.ok (.stop tl1) ∧ (tl1≠.complete → d.rest≠[]) := by
    rcases hend with hnil | ⟨hne,kind,hkind⟩
    · refine ⟨.complete,?_,fun hne => absurd rfl hne⟩
      obtain ⟨rest,offset,expected⟩ := d
      cases hnil
      rfl
    · exact ⟨_,hkind,fun _ => hne⟩
  obtain ⟨tail,htail,hcases⟩ := haligned.finish hstop1
  -- of these, those up to the last closing record
  obtain ⟨pre,post,mid,rfl,hmid,hnone,hsame,hopen,hlast⟩ := closed_split rfl hfold1
  obtain ⟨b,hpre,hpost⟩ := hkept.split
  obtain ⟨hboundary,hwithin⟩ := closingBoundary_eq ht hpre hpost hstop1 hopen hlast
  have hclosed := (aligned_new.run hpre hmid).closed hnone
  have hmidFinish : mid.finish .complete=.ok (mid.summary,.complete) := by
    have hhealthy : ¬mid.poisoned=true := by
      rw [(aligned_new.run hpre hmid).healthy]
      exact Bool.false_ne_true
    rw [Fold.finish,rejectIf_pos hhealthy,ok_bind,hnone]
    rfl
  have hlength : (log.take t).length=t := by rw [length_take,Nat.min_eq_left ht]
  obtain ⟨hdle,hdrest,-⟩ := hkept.of_new
  have hmono := hpost.offset_le
  rw [hlength] at hdle
  have hend1 : fold1.summary.closedEnd=b.offset := by rw [←hsame,hclosed]
  have hkey : tail=.complete ∧ t=closingBoundary log t ∨
      (∃ kind, tail=.torn fold1.summary.closedEnd kind) ∧ t≠closingBoundary log t := by
    rw [hboundary]
    rcases hcases with ⟨hcomplete,hat,hnil⟩ | ⟨htorn,hbefore⟩
    · rw [hnil] at hdrest
      have hall := drop_eq_nil_iff.mp hdrest.symm
      rw [←hend1,hat]
      exact .inl ⟨hcomplete,by omega⟩
    · refine .inr ⟨htorn,?_⟩
      rcases hbefore with hlt | hne
      · rw [hend1] at hlt
        omega
      · have hleft : d.offset.toNat < t := by
          refine Nat.lt_of_le_of_ne hdle fun heq => hcut hne ?_
          rw [hdrest,drop_eq_nil_iff]
          omega
        omega
  refine ⟨fold1.summary,tail,replay_eq_ok.mpr ⟨_,d,fold1,tl1,hkept,hfold1,hstop1,htail⟩,?_,?_,?_,
    ?_,?_⟩
  · rw [hboundary,←hsame]
    exact replay_eq_ok.mpr ⟨pre,_,mid,.complete,hwithin,hmid,nextFrame_nil _ _,hmidFinish⟩
  · intro hzero
    rw [←hsame]
    rcases hlast with rfl | ⟨init,f,rfl,-⟩
    · cases hmid
      rfl
    · obtain ⟨bytes,-,hoffset,hpos,-⟩ := hpre.consumed
      have := hpos (by simp)
      omega
  · rw [hboundary,hend1]
  · rcases hkey with ⟨hcomplete,hat⟩ | ⟨⟨kind,htorn⟩,hne⟩
    · exact ⟨fun _ => hat,fun _ => hcomplete⟩
    · constructor
      · intro hcomplete
        rw [htorn] at hcomplete
        cases hcomplete
      · exact fun hat => absurd hat hne
  · rcases hkey with ⟨-,hat⟩ | ⟨htorn,-⟩
    · exact fun hne => absurd hat hne
    · exact fun _ => htorn

def sampleServices : LogServices := ⟨⟨fun _ => .zero 32,fun _ _ => .zero 32⟩,fun _ => some 0⟩

def sampleUuid : FixedBytes 16 := .filled 16 1

def sampleInitialized : Record :=
  .initialized ⟨sampleUuid,1,1,256*1024,none,
    ⟨0,.bootstrap,1,some 0,none,none,none,none,none,none,none⟩⟩

def sampleOpened : Record := .sessionOpened ⟨sampleUuid,1,1,⟨0,2,1⟩,"now"⟩

def sampleTail : Record :=
  .payloadContinuation ⟨3,.tailFile ⟨1,.object "x",5,0,.absent,0,false⟩⟩

def sampleEnded (startOffset byteCount : ℕ) : Record :=
  .sessionEnded ⟨sampleUuid,1,1,⟨0,2,1⟩,"now",.abort,
    ⟨3,UInt64.ofNat startOffset,1,UInt64.ofNat byteCount,0,.zero 32⟩,1,none,0,5,none⟩

def sampleFrame (sequence : UInt64) (record : Record) : Bytes :=
  match encodeFrame sequence record [] with
  | .ok bytes => bytes
  | .error _ => []

def sampleLog : Bytes :=
  let opened := sampleFrame 1 sampleInitialized++sampleFrame 2 sampleOpened
  let tail := sampleFrame 3 sampleTail
  opened++tail++sampleFrame 4 (sampleEnded opened.length (tail.length-frameOverhead))

/-- The small log cut inside its unclosed group. -/
theorem replay_take_sampleLog : ∃ s tail, replay sampleServices (sampleLog.take 240)=.ok (s,tail) ∧
      replay sampleServices (sampleLog.take (closingBoundary sampleLog 240))=.ok (s,.complete) := by
  have hcomplete : (Prod.snd <$> replay sampleServices sampleLog)=.ok .complete := by
    decide +kernel
  obtain ⟨⟨summary,tail⟩,hreplay,rfl⟩ := map_eq_ok.mp hcomplete
  obtain ⟨s,cut,htake,hboundary,-⟩ := replay_take hreplay (t:=240) (by decide +kernel)
  exact ⟨s,cut,htake,hboundary⟩

end Remanence.TapeLog
