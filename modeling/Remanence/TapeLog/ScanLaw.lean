import Remanence.TapeLog.Canonical
import Remanence.TapeLog.RowScan

/-!
# Encoded frames and the row scan

Frames encoded one behind the other are read back. Where the decoder reads to the end, a row
scan delivers the same frames without their payloads, and the same tail. It does not look at a
payload with a frame start behind it.
-/

namespace Remanence.TapeLog

open Foundation Parity Crc64 List

def numbered : UInt64 → List (Record×Bytes) → List (UInt64×Record×Bytes)
  | _,[] => []
  | sequence,entry::entries => (sequence,entry)::numbered (sequence+1) entries

def encodeFrames : List (UInt64×Record×Bytes) → Except Fault Bytes
  | [] => .ok []
  | (sequence,record,payload)::frames => do
    let frame ← encodeFrame sequence record payload
    let rest ← encodeFrames frames
    return frame++rest

def Frame.content (f : Frame) : UInt64×Record×Bytes := (f.sequence,f.record,f.payload)

theorem length_withCrc (bytes : Bytes) : (withCrc bytes).length=bytes.length+8 := by
  rw [withCrc,length_append,length_u64Le]

theorem slice_withCrc {a bytes : Bytes} (rest : Bytes) {n : ℕ} (hn : n=a.length) :
    slice (a++(withCrc bytes++rest)) n bytes.length=bytes ∧
      readU64Le (a++(withCrc bytes++rest)) (n+bytes.length)=crc64Xz bytes := by
  refine ⟨by simp [withCrc,slice,hn],readU64Le_of_slice ?_⟩
  simp [withCrc,slice,hn,drop_append,drop_eq_nil_of_le]

theorem tryFrom_code (tag : Tag) : Tag.tryFrom tag.code=.ok tag := by
  cases tag <;> rfl

/-- Fixed fields of a frame are accepted, whatever follows them. -/
theorem readPrefix_prefixBytes {record : Record} {s p : ℕ} {sequence : UInt64} {fixed : Bytes}
    (hfixed : prefixBytes version record.tag (UInt32.ofNat s) (UInt32.ofNat p) sequence=fixed)
    (hsize : s+p ≤ maxFrameBody) (offset : UInt64) (rest : Bytes) :
    (Decoder.mk [] offset sequence).readPrefix (fixed++rest)=.ok (record.tag,s,p) := by
  subst hfixed
  have hbound : maxFrameBody < UInt32.size := by decide
  have htag : ¬record.tag.reserved := by
    rintro (h | h) <;> cases record <;> cases h
  rw [readPrefix_eq_ok,@readU16Le_of_slice _ 0 version,@readU16Le_of_slice _ 2 record.tag.code,
    @readU64Le_of_slice _ 12 sequence,@readU32Le_of_slice _ 4 (.ofNat s),
    @readU32Le_of_slice _ 8 (.ofNat p),tryFrom_code,UInt32.toNat_ofNat_of_lt' (by omega),
    UInt32.toNat_ofNat_of_lt' (by omega)]
  · exact ⟨rfl,rfl,htag,rfl,rfl,rfl,hsize⟩
  all_goals simp [prefixBytes,slice,drop_append,drop_eq_nil_of_le]

theorem intact_of_encodeFrame {sequence offset : UInt64} {record : Record} {payload bytes : Bytes}
    (h : encodeFrame sequence record payload=.ok bytes)
    (hoffset : offset.toNat+bytes.length < 2^64) (hsequence : sequence.toNat+1 < 2^64) :
    ∃ start body tag s p f, bytes=start++body ∧
      IntactFrame offset sequence start body tag s p f (sequence+1) ∧
      f.content=(sequence,record,payload) ∧ f.stop.toNat=offset.toNat+bytes.length := by
  simp only [encodeFrame,eq_ok,exists_const,not_lt] at h
  obtain ⟨hpayload,structural,hencode,hstructural,rfl⟩ := h
  have hsize : structural.length+payload.length ≤ maxFrameBody := by omega
  obtain ⟨fixed,hfixed⟩ : ∃ fixed, prefixBytes version record.tag (UInt32.ofNat structural.length)
    (UInt32.ofNat payload.length) sequence=fixed := ⟨_,rfl⟩
  have hlength : fixed.length=20 := by simp [← hfixed,prefixBytes]
  have hfields := readPrefix_prefixBytes hfixed hsize offset (u64Le (crc64Xz fixed))
  have hread := (readPrefix_eq_ok.mp hfields).2.2.2.1
  obtain ⟨hstart,hcrc⟩ := @slice_withCrc [] fixed [] 0 rfl
  obtain ⟨hfirst,hfirst'⟩ := @slice_withCrc [] structural (withCrc payload) 0 rfl
  obtain ⟨hlast,hlast'⟩ := @slice_withCrc _ payload [] _ (length_withCrc structural).symm
  simp only [nil_append,append_nil,zero_add,hlength] at hstart hcrc hfirst hfirst' hlast hlast'
  have htotal : (withCrc fixed++(withCrc structural++withCrc payload)).length=
      frameOverhead+structural.length+payload.length := by
    simp only [length_append,length_withCrc,hlength,frameOverhead,prefixLen]
    omega
  rw [hfixed,append_assoc,htotal] at hoffset
  rw [hfixed,append_assoc,htotal]
  obtain ⟨stop,hstop⟩ : ∃ stop : UInt64, stop.toNat=
      offset.toNat+(frameOverhead+structural.length+payload.length) :=
    ⟨_,UInt64.toNat_ofNat_of_lt' hoffset⟩
  refine ⟨withCrc fixed,withCrc structural++withCrc payload,record.tag,structural.length,
    payload.length,⟨offset,stop,_,record,_,_,_,true⟩,rfl,⟨?_,?_,hfields,?_,?_,?_,?_,?_,rfl⟩,?_,hstop⟩
  · rw [length_withCrc,hlength,prefixLen]
  · rw [hstart,hcrc]
  · rw [length_append,length_withCrc,length_withCrc]
    omega
  · rw [badSection,hfirst,hfirst',hlast,hlast']
    simp
  · rw [hfirst]
    exact decode_eq_ok.mpr (getRecord_eq_some.mpr ⟨rfl,textsFit_of_le hencode (by omega),structural,
      hencode,(append_nil _).symm⟩)
  · rw [checkedAdd64_eq_some,hstop,
      UInt64.toNat_ofNat_of_lt' ((Nat.le_add_left _ _).trans_lt hoffset)]
  · rw [checkedAdd64_eq_some,withCrc,hread,UInt64.toNat_add]
    exact (Nat.mod_eq_of_lt hsequence).symm
  · rw [Frame.content,hlast,withCrc,hread]

theorem reads_encodeFrames {sequence offset : UInt64} {entries : List (Record×Bytes)} {bytes : Bytes}
    (h : encodeFrames (numbered sequence entries)=.ok bytes)
    (hoffset : offset.toNat+bytes.length < 2^64)
    (hsequence : sequence.toNat+entries.length < 2^64) :
    ∃ frames last, Reads ⟨bytes,offset,sequence⟩ frames last ∧
      last.nextFrame=.ok (.stop .complete) ∧ frames.map Frame.content=numbered sequence entries := by
  induction entries generalizing sequence offset bytes with
  | nil =>
    cases h
    exact ⟨[],_,.nil _,rfl,rfl⟩
  | cons entry entries ih =>
    simp only [numbered,encodeFrames,eq_ok] at h
    obtain ⟨frame,hframe,rest,hrest,rfl⟩ := h
    rw [length_append] at hoffset
    rw [length_cons] at hsequence
    obtain ⟨start,body,tag,s,p,f,rfl,hintact,hcontent,hstop⟩ :=
      @intact_of_encodeFrame sequence offset _ _ _ hframe (by omega) (by omega)
    have hnext : (sequence+1).toNat=sequence.toNat+1 := by
      rw [UInt64.toNat_add]
      exact Nat.mod_eq_of_lt (by change _+1 < _; omega)
    obtain ⟨frames,last,hreads,hlast,hframes⟩ := @ih _ f.stop _ hrest (by omega) (by omega)
    refine ⟨f::frames,last,.cons ?_ hreads,hlast,?_⟩
    · rw [append_assoc]
      exact hintact.nextFrame_append rest
    · rw [map_cons,hcontent,hframes,numbered]

/-- Row frames up to the end of a stream, with a bound on their number. -/
def scanLoop : ℕ → Decoder → Except TapeLogError (List Frame×Tail)
  | 0,decoder => .error ⟨decoder.offset,none,.overflow⟩
  | fuel+1,decoder => do
    match ← decoder.nextRowFrame with
    | .stop tail => return ([],tail)
    | .frame f next =>
      let (frames,tail) ← scanLoop fuel next
      return (f::frames,tail)

def scanFrames (bytes : Bytes) : Except TapeLogError (List Frame×Tail) :=
  scanLoop (bytes.length+1) (.new bytes)

variable {decoder : Decoder} {tail : Tail}

theorem not_followed_of_stop (h : decoder.nextFrame=.ok (.stop tail)) {start : Bytes}
    (htake : decoder.rest.take prefixLen=start) (hstart : validPrefix start=true) :
    ¬validPrefix ((decoder.rest.drop (frameOverhead+(readU32Le start 4).toNat+
      (readU32Le start 8).toNat)).take prefixLen)=true := by
  intro hfollowed
  simp only [validPrefix,Bool.and_eq_true,decide_eq_true_eq] at hstart
  obtain ⟨⟨⟨⟨hlength,hversion⟩,-⟩,-⟩,hcrc⟩ := hstart
  have hne : start≠[] := by
    rintro rfl
    cases hlength
  have hnonzero : ¬∀ b ∈ start, b=0 := by
    intro hzero
    have hmem : 2 ∈ slice start 0 2 := by
      rw [hversion]
      decide
    exact absurd (hzero 2 (mem_of_mem_take hmem)) (by decide)
  unfold Decoder.nextFrame at h
  dsimp only at h
  rw [htake,if_neg hne,if_neg hnonzero,if_neg (by omega),if_neg (not_not.mpr hcrc),refuse_eq_ok,
    bind_eq_ok] at h
  obtain ⟨⟨tag,s,p⟩,hfields,h⟩ := h
  obtain ⟨-,-,-,-,rfl,rfl,-⟩ := readPrefix_eq_ok.mp hfields
  unfold Decoder.readBody at h
  dsimp only at h
  split at h
  · rw [bind_eq_ok] at h
    obtain ⟨kind,hkind,-⟩ := h
    unfold classifyFinalBody at hkind
    dsimp only at hkind
    rw [bind_eq_ok] at hkind
    obtain ⟨_,hnone,-⟩ := hkind
    rw [rejectIf_eq_ok,scanSuffix] at hnone
    refine hnone (any_eq_true.mpr ⟨_,(mem_tails _ _).mpr suffix_rfl,?_⟩)
    rw [drop_drop]
    convert hfollowed using 4
    rw [frameOverhead]
    omega
  · simp only [eq_ok,reduceCtorEq,and_false,exists_false] at h

theorem nextRowFrame_of_stop (h : decoder.nextFrame=.ok (.stop tail))
    (hoffset : decoder.offset.toNat+frameOverhead+maxFrameBody < 2^64) :
    decoder.nextRowFrame=.ok (.stop tail) := by
  unfold Decoder.nextRowFrame
  generalize htake : decoder.rest.take prefixLen=start
  dsimp only
  split
  · rename_i hstart
    have hsize := hstart
    simp only [validPrefix,Bool.and_eq_true,decide_eq_true_eq] at hsize
    have hfits : decoder.offset.toNat+(frameOverhead+(readU32Le start 4).toNat+
        (readU32Le start 8).toNat) < 2^64 := by omega
    rw [checkedAdd64,UInt64.toNat_ofNat_of_lt' ((Nat.le_add_left _ _).trans_lt hfits),if_pos hfits,
      orElseError_some,if_neg (not_followed_of_stop h htake hstart),h]
    rfl
  · rw [h]
    rfl

theorem scanLoop_of_reads {fuel : ℕ} {frames : List Frame} {last : Decoder}
    (hreads : Reads decoder frames last) (hstop : last.nextFrame=.ok (.stop tail))
    (hoffset : last.offset.toNat+frameOverhead+maxFrameBody < 2^64)
    (hfuel : decoder.rest.length < fuel) :
    scanLoop fuel decoder=.ok (frames.map Frame.asRow,tail) := by
  induction hreads generalizing fuel with
  | nil decoder =>
    obtain ⟨fuel,rfl⟩ : ∃ n, fuel=n+1 := ⟨fuel-1,by omega⟩
    rw [scanLoop,nextRowFrame_of_stop hstop hoffset]
    rfl
  | cons head _ ih =>
    have hless := length_nextFrame head
    obtain ⟨fuel,rfl⟩ : ∃ n, fuel=n+1 := ⟨fuel-1,by omega⟩
    rw [scanLoop,nextRowFrame_of_nextFrame head,ok_bind]
    dsimp only
    rw [ih hstop hoffset (by omega)]
    rfl

theorem nextRowFrame_other_payload {next : Decoder} {f : Frame}
    (h : decoder.nextFrame=.ok (.frame f next))
    (hfollowed : validPrefix (next.rest.take prefixLen)=true) {bytes : Bytes} {n : ℕ}
    (hn : n=prefixLen+f.structural.length+8) (hbefore : bytes.take n=decoder.rest.take n)
    (hbehind : bytes.drop (n+f.payload.length)=decoder.rest.drop (n+f.payload.length)) :
    (Decoder.mk bytes decoder.offset decoder.expected).nextRowFrame=.ok (.frame f.asRow next) := by
  obtain ⟨start,body,tag,s,p,hintact,hbytes,hnext⟩ := intact_of_nextFrame h
  have hbody := hintact.length_body
  have hpayload : f.payload.length=p := by
    rw [hintact.frame]
    exact length_slice (by omega)
  have hstructural : f.structural.length=s := by
    rw [hintact.frame]
    exact length_slice (by omega)
  rw [hpayload] at hbehind
  rw [hstructural] at hn
  rw [hbytes] at hbefore hbehind
  have hstart : bytes.take prefixLen=start := by
    have hcut := congrArg (take prefixLen) hbefore
    rwa [take_take,take_take,Nat.min_eq_left (by omega),take_left' hintact.length_start] at hcut
  have hkept : (bytes.drop prefixLen).take (s+8)=body.take (s+8) := by
    have hcut := congrArg (drop prefixLen) hbefore
    rwa [drop_take,drop_take,drop_left' hintact.length_start,take_append_of_le_length (by omega),
      show n-prefixLen=s+8 by omega] at hcut
  have hrest : (bytes.drop prefixLen).drop (s+p+16)=next.rest := by
    have hcut := congrArg (drop 8) hbehind
    rw [drop_drop,drop_drop,← append_assoc,drop_left' (by
      rw [length_append,hintact.length_start]; omega)] at hcut
    rw [drop_drop,← hcut]
    congr 1
    omega
  have hlong : s+p+16 ≤ (bytes.drop prefixLen).length := by
    by_contra hshort
    rw [drop_eq_nil_of_le (by omega)] at hrest
    rw [← hrest] at hfollowed
    exact absurd hfollowed (by decide)
  have hskip := hintact.nextRowFrame_skip hkept hlong (by rwa [hrest])
  rwa [hrest,← hnext,← hstart,take_append_drop] at hskip

/-- Encoded frames are decoded; a row scan agrees with the decoder where that reads to the end, and
does not look at a payload with a frame start behind it. -/
theorem frames_decoded_and_scanned :
    (∀ (sequence offset : UInt64) (entries : List (Record×Bytes)) (bytes : Bytes),
      encodeFrames (numbered sequence entries)=.ok bytes → offset.toNat+bytes.length < 2^64 →
      sequence.toNat+entries.length < 2^64 →
      ∃ frames, decodeLoop (bytes.length+1) ⟨bytes,offset,sequence⟩=.ok (frames,.complete) ∧
        frames.map Frame.content=numbered sequence entries) ∧
    (∀ (bytes : Bytes) (frames : List Frame) (tail : Tail), bytes.length < 2^63 →
      decodeFrames bytes=.ok (frames,tail) → scanFrames bytes=.ok (frames.map Frame.asRow,tail)) ∧
    ∀ (decoder next : Decoder) (f : Frame) (bytes : Bytes) (n : ℕ),
      decoder.nextFrame=.ok (.frame f next) → validPrefix (next.rest.take prefixLen)=true →
      n=prefixLen+f.structural.length+8 → bytes.take n=decoder.rest.take n →
      bytes.drop (n+f.payload.length)=decoder.rest.drop (n+f.payload.length) →
      (Decoder.mk bytes decoder.offset decoder.expected).nextRowFrame=.ok (.frame f.asRow next) := by
  refine ⟨?_,?_,fun _ _ _ _ _ h hfollowed => nextRowFrame_other_payload h hfollowed⟩
  · intro sequence offset entries bytes h hoffset hsequence
    obtain ⟨frames,last,hreads,hlast,hframes⟩ := reads_encodeFrames h hoffset hsequence
    exact ⟨frames,(decodeLoop_eq_ok (Nat.lt_succ_self _)).mpr ⟨last,hreads,hlast⟩,hframes⟩
  · intro bytes frames tail hlength h
    obtain ⟨last,hreads,hstop⟩ := (decodeLoop_eq_ok (Nat.lt_succ_self _)).mp h
    have hlast := hreads.of_new.1
    have hframe : frameOverhead+maxFrameBody < 2^63 := by decide
    exact scanLoop_of_reads hreads hstop (by omega) (Nat.lt_succ_self _)

theorem frames_decoded_and_scanned_two : ∃ bytes frames,
    encodeFrames (numbered 1 [(sampleInitialized,[]),(sampleOpened,[7])])=.ok bytes ∧
      decodeFrames bytes=.ok (frames,.complete) ∧
      scanFrames bytes=.ok (frames.map Frame.asRow,.complete) := by
  have hlength : List.length <$> encodeFrames (numbered 1 [(sampleInitialized,[]),(sampleOpened,[7])])=
      .ok 180 := by
    decide +kernel
  obtain ⟨bytes,hbytes,hlength⟩ := map_eq_ok.mp hlength
  obtain ⟨hdecoded,hscanned,-⟩ := frames_decoded_and_scanned
  obtain ⟨frames,hframes,-⟩ := hdecoded 1 0 _ bytes hbytes (by rw [hlength]; decide) (by decide)
  exact ⟨bytes,frames,hbytes,hframes,hscanned bytes frames _ (by omega) hframes⟩

end Remanence.TapeLog
