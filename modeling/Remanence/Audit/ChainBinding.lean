import Remanence.Audit.CrashConsistency

/-!
# The terminal hash binds the log

A directory that replays ends with the hash of its payloads, each linked to the one before. Two
directories with one terminal hash hold the same payloads, unless two hashed inputs collide or
one has the hash that stands for no record.
-/

namespace Remanence.Audit

open Foundation List

variable {services : Services} {σ : Type} {visitor : Visitor σ}

def framePayloads : ℕ → Bytes → List Bytes
  | 0,_ => []
  | rounds+1,rest =>
    if rest.length < 4 then []
    else
      let recordLen := ofLeBytes (rest.take 4)
      if rest.length < 4+recordLen then []
      else (slice rest 4 recordLen).take (recordLen-recordTrailerLen)::
        framePayloads rounds (rest.drop (4+recordLen))

def AuditDir.payloads (dir : AuditDir) : List Bytes :=
  dir.sortedSegments.flatMap fun entry =>
    framePayloads (entry.contents.length+1) (entry.contents.drop headerLen)

def chainHash (services : Services) (previousHash : FixedBytes 32) (payloads : List Bytes) :
    FixedBytes 32 :=
  payloads.foldl (recordHash services) previousHash

theorem replayRecords_terminalHash (hvisitor : ∀ visited record, (visitor visited record).2=false)
    {fileLen rounds start : ℕ} {replay after : SegmentReplay} {sequence : UInt64} {rest : Bytes}
    {visited last : σ} (hlength : fileLen=start+rest.length) (hstopped : replay.stopped=false)
    (h : replayRecords services visitor fileLen rounds replay sequence start rest visited=
      .ok (after,last)) : after.stopped=false ∧
      after.terminalHash=chainHash services replay.terminalHash (framePayloads rounds rest) := by
  induction rounds generalizing replay sequence start rest visited with
  | zero => cases h
  | succ rounds ih =>
    rw [replayRecords] at h
    rw [framePayloads]
    by_cases hshort : rest.length < 4
    · rw [if_pos hshort] at h ⊢
      cases h
      exact ⟨hstopped,rfl⟩
    rw [if_neg hshort] at h ⊢
    obtain ⟨_,-,h⟩ := bind_eq_ok.mp h
    by_cases hend : rest.length < 4+ofLeBytes (rest.take 4)
    · rw [if_pos (show fileLen < _ by omega)] at h
      cases h
      exact ⟨hstopped,by rw [if_pos hend]; rfl⟩
    rw [if_neg (show ¬fileLen < _ by omega)] at h
    obtain ⟨_,-,h⟩ := bind_eq_ok.mp h
    obtain ⟨_,hhash,h⟩ := bind_eq_ok.mp h
    obtain ⟨record,-,h⟩ := bind_eq_ok.mp h
    obtain ⟨_,-,h⟩ := bind_eq_ok.mp h
    rw [rejectIf_eq_ok,not_not] at hhash
    have hgo := hvisitor visited record
    rcases hvisit : visitor visited record with ⟨next,stop⟩
    rw [hvisit] at h hgo
    cases hgo
    obtain ⟨hafter,hterminal⟩ := ih (by rw [length_drop]; omega) rfl h
    rw [if_neg hend]
    exact ⟨hafter,hterminal.trans (by rw [chainHash,chainHash,foldl_cons,hhash])⟩

theorem replaySegmentsFrom_terminalHash
    (hvisitor : ∀ visited record, (visitor visited record).2=false) {dir : AuditDir}
    {entries : List DirEntry} {summary after : ReplaySummary} {visited last : σ}
    (h : replaySegmentsFrom services visitor dir entries summary visited=.ok (after,last)) :
    after.terminalHash=chainHash services summary.terminalHash (entries.flatMap fun entry =>
      framePayloads (entry.contents.length+1) (entry.contents.drop headerLen)) := by
  induction entries generalizing summary visited with
  | nil =>
    cases h
    rfl
  | cons entry rest ih =>
    obtain ⟨_,-,h⟩ := bind_eq_ok.mp h
    obtain ⟨⟨segment,next⟩,hsegment,h⟩ := bind_eq_ok.mp h
    simp only [replaySegment,eq_ok,not_not] at hsegment
    obtain ⟨header,hheader,_,-,_,-,_,hlink,hrecords⟩ := hsegment
    have hlong : ¬entry.contents.length < headerLen := by
      obtain ⟨_,hlong,-⟩ := bind_eq_ok.mp hheader
      exact rejectIf_eq_ok.mp hlong
    obtain ⟨hstopped,hterminal⟩ := replayRecords_terminalHash hvisitor
      (by rw [length_drop]; omega) rfl hrecords
    dsimp only at h
    rw [hstopped,if_neg Bool.false_ne_true] at h
    rw [ih h,hterminal,hlink,chainHash,chainHash,chainHash,flatMap_cons,foldl_append]

def Hashed (services : Services) (payloads : List Bytes) (input : Bytes) : Prop :=
  ∃ before payload, before++[payload] <+: payloads ∧
    input=(chainHash services (FixedBytes.zero 32) before).bytes++payload

theorem Hashed.concat {payloads : List Bytes} {input payload : Bytes} (h : Hashed services payloads input) :
    Hashed services (payloads++[payload]) input := by
  obtain ⟨before,last,hstart,hinput⟩ := h
  exact ⟨before,last,hstart.trans (prefix_append _ _),hinput⟩

theorem hashed_last (services : Services) (payloads : List Bytes) (payload : Bytes) :
    Hashed services (payloads++[payload])
      ((chainHash services (FixedBytes.zero 32) payloads).bytes++payload) :=
  ⟨payloads,payload,prefix_rfl,rfl⟩

theorem chainHash_concat (services : Services) (previousHash : FixedBytes 32) (payloads : List Bytes)
    (payload : Bytes) : chainHash services previousHash (payloads++[payload])=
      services.hash.sha256 ((chainHash services previousHash payloads).bytes++payload) :=
  foldl_append

theorem eq_of_chainHash_eq {p q : List Bytes}
    (hcollision : ∀ x y, Hashed services p x ∨ Hashed services q x →
      Hashed services p y ∨ Hashed services q y → services.hash.sha256 x=services.hash.sha256 y → x=y)
    (hzero : ∀ x, Hashed services p x ∨ Hashed services q x →
      services.hash.sha256 x≠FixedBytes.zero 32)
    (h : chainHash services (FixedBytes.zero 32) p=chainHash services (FixedBytes.zero 32) q) :
    p=q := by
  induction p using reverseRecOn generalizing q with
  | nil =>
    rcases eq_nil_or_concat' q with rfl | ⟨q,y,rfl⟩
    · rfl
    · rw [chainHash_concat] at h
      exact absurd h.symm (hzero _ (.inr (hashed_last services q y)))
  | append_singleton p x ih =>
    rw [chainHash_concat] at h
    rcases eq_nil_or_concat' q with rfl | ⟨q,y,rfl⟩
    · exact absurd h (hzero _ (.inl (hashed_last services p x)))
    · rw [chainHash_concat] at h
      have hinputs := hcollision _ _ (.inl (hashed_last services p x))
        (.inr (hashed_last services q y)) h
      obtain ⟨hbytes,rfl⟩ := append_inj hinputs (by rw [FixedBytes.length_bytes,FixedBytes.length_bytes])
      rw [ih (fun a b ha hb => hcollision a b (ha.imp .concat .concat) (hb.imp .concat .concat))
        (fun a ha => hzero a (ha.imp .concat .concat)) (FixedBytes.ext hbytes)]

/-- Directories with one terminal hash hold the same payloads, however divided into segments. -/
theorem payloads_eq_of_terminalHash_eq {first second : AuditDir} {a b : ReplaySummary}
    (hfirst : replaySegmentsSummary services first=.ok a)
    (hsecond : replaySegmentsSummary services second=.ok b) (hhash : a.terminalHash=b.terminalHash)
    (hcollision : ∀ x y, Hashed services first.payloads x ∨ Hashed services second.payloads x →
      Hashed services first.payloads y ∨ Hashed services second.payloads y →
        services.hash.sha256 x=services.hash.sha256 y → x=y)
    (hzero : ∀ x, Hashed services first.payloads x ∨ Hashed services second.payloads x →
      services.hash.sha256 x≠FixedBytes.zero 32) : first.payloads=second.payloads := by
  have hterminal {dir : AuditDir} {summary : ReplaySummary}
      (h : replaySegmentsSummary services dir=.ok summary) :
      summary.terminalHash=chainHash services (FixedBytes.zero 32) dir.payloads := by
    obtain ⟨⟨_,_⟩,hrun,⟨⟩⟩ := bind_eq_ok.mp h
    exact replaySegmentsFrom_terminalHash (fun _ _ => rfl) hrun
  refine eq_of_chainHash_eq hcollision hzero ?_
  rw [←hterminal hfirst,←hterminal hsecond,hhash]

def hashingServices : Services :=
  { sampleServices with hash := ⟨fun _ => ⟨replicate 32 1,rfl⟩,fun _ _ => ⟨replicate 32 1,rfl⟩⟩ }

def samplePayload : Bytes := recordCbor (recordToCbor writingServices sampleRecord)

/-- The sample record behind some segments without records. -/
def dividedDir (empty : List String) : AuditDir :=
  ⟨"audit",empty.map (fun date => ⟨date,"remaudit",segmentHeader date (FixedBytes.zero 32)⟩)++
    [⟨"2026-05-27","remaudit",segmentBytes hashingServices "2026-05-27" (FixedBytes.zero 32)
      [(samplePayload,sampleRecord)] []⟩]⟩

theorem eq_of_hashed_singleton {payload input : Bytes} (h : Hashed services [payload] input) :
    input=(FixedBytes.zero 32).bytes++payload := by
  obtain ⟨before,last,hstart,rfl⟩ := h
  have hlength := hstart.length_le
  obtain rfl : before=[] := by
    rw [length_append,length_singleton,length_singleton] at hlength
    exact length_eq_zero_iff.mp (by omega)
  cases (cons_prefix_cons.mp hstart).1
  rfl

/-- The record is bound by the terminal hash, also behind a segment without records. -/
theorem payloads_eq_of_terminalHash_eq_divided : (dividedDir []).payloads=[samplePayload] ∧
    (dividedDir []).payloads=(dividedDir ["2026-05-26"]).payloads := by
  have hfirst : (dividedDir []).payloads=[samplePayload] := by decide +kernel
  have hsecond : (dividedDir ["2026-05-26"]).payloads=[samplePayload] := by decide +kernel
  have hterminal {empty : List String} (h : (replaySegmentsSummary hashingServices
      (dividedDir empty)).toOption.map ReplaySummary.terminalHash=some ⟨replicate 32 1,rfl⟩) :=
    exists_of_map h
  obtain ⟨a,hreplay,hhash⟩ := @hterminal [] (by decide +kernel)
  obtain ⟨b,hreplay',hhash'⟩ := @hterminal ["2026-05-26"] (by decide +kernel)
  have hinput : ∀ x, Hashed hashingServices (dividedDir []).payloads x ∨
      Hashed hashingServices (dividedDir ["2026-05-26"]).payloads x →
        x=(FixedBytes.zero 32).bytes++samplePayload := by
    rw [hfirst,hsecond]
    exact fun x hx => hx.elim eq_of_hashed_singleton eq_of_hashed_singleton
  exact ⟨hfirst,payloads_eq_of_terminalHash_eq hreplay hreplay' (hhash.trans hhash'.symm)
    (fun x y hx hy _ => (hinput x hx).trans (hinput y hy).symm)
    (fun _ _ => show (⟨replicate 32 1,rfl⟩ : FixedBytes 32)≠FixedBytes.zero 32 by decide)⟩

end Remanence.Audit
