import Remanence.TapeLog.Codec

/-!
# What the decoder reads

A whole frame is read from its own bytes alone, and a nonempty proper part of one is a torn
tail. The frames read from a truncated stream are the leading ones of the full stream.
-/

namespace Remanence.TapeLog

open Foundation Parity Crc64 List

structure IntactFrame (offset expected : UInt64) (start body : Bytes) (tag : Tag) (s p : ℕ)
    (f : Frame) (next : UInt64) : Prop where
  length_start : start.length=prefixLen
  crc_start : crc64Xz (slice start 0 20)=readU64Le start 20
  fields : (Decoder.mk [] offset expected).readPrefix start=.ok (tag,s,p)
  length_body : body.length=s+p+16
  sections : badSection body s p=none
  record : decode tag (slice body 0 s)=.ok f.record
  stop : checkedAdd64 offset (UInt64.ofNat (frameOverhead+s+p))=some f.stop
  following : checkedAdd64 (readU64Le start 12) 1=some next
  frame : f=⟨offset,f.stop,readU64Le start 12,f.record,slice body (s+8) p,slice start 0 20,
    slice body 0 s,true⟩

variable {decoder : Decoder}

theorem readPrefix_eq_ok {start : Bytes} {tag : Tag} {s p : ℕ} :
    decoder.readPrefix start=.ok (tag,s,p) ↔ readU16Le start 0=version ∧
      Tag.tryFrom (readU16Le start 2)=.ok tag ∧ ¬tag.reserved ∧
      readU64Le start 12=decoder.expected ∧ (readU32Le start 4).toNat=s ∧
      (readU32Le start 8).toNat=p ∧ s+p ≤ maxFrameBody := by
  simp only [Decoder.readPrefix,eq_ok,Prod.mk.injEq, exists_const,not_not]
  constructor
  · rintro ⟨hversion,t,htag,hreserved,hsequence,hsize,rfl,rfl,rfl⟩
    exact ⟨hversion,htag,hreserved,hsequence,rfl,rfl,not_lt.mp hsize⟩
  · rintro ⟨hversion,htag,hreserved,hsequence,rfl,rfl,hsize⟩
    exact ⟨hversion,tag,htag,hreserved,hsequence,not_lt.mpr hsize,rfl,rfl,rfl⟩

theorem code_of_tryFrom {value : UInt16} {tag : Tag} (h : Tag.tryFrom value=.ok tag) :
    tag.code=value := by
  rw [Tag.tryFrom,orElseError_eq_ok] at h
  simpa using find?_some h

theorem u16Le_code (tag : Tag) : ∃ low, u16Le tag.code=[low,0] := by
  cases tag <;> exact ⟨_,rfl⟩

@[simp] theorem refuse_eq_ok {α : Type} {sequence : Option UInt64} {result : Except Fault α}
    {a : α} : decoder.refuse sequence result=.ok a ↔ result=.ok a := by
  rw [Decoder.refuse,mapError_eq_ok]

namespace IntactFrame

variable {offset expected next : UInt64} {start body : Bytes} {tag : Tag} {s p : ℕ} {f : Frame}
variable (h : IntactFrame offset expected start body tag s p f next)
include h

theorem start_eq : ∃ low, start.take 4=[2,0,low,0] := by
  obtain ⟨hversion,htag,-⟩ := readPrefix_eq_ok.mp h.fields
  have hlen : start.length=28 := h.length_start
  have hfirst : start.take 2=[2,0] := slice_of_readU16Le (by omega) hversion
  obtain ⟨low,hlow⟩ := u16Le_code tag
  have hsecond : slice start 2 2=[low,0] := by
    rw [←hlow,code_of_tryFrom htag]
    exact slice_of_readU16Le (by omega) rfl
  refine ⟨low,?_⟩
  rw [show (4 : ℕ)=2+2 from rfl,take_add,hfirst]
  rw [slice] at hsecond
  rw [hsecond]
  rfl

theorem start_cons : ∃ rest, start=2::rest := by
  obtain ⟨low,hlow⟩ := h.start_eq
  cases start with
  | nil => simp at hlow
  | cons byte rest =>
    rw [take_succ_cons,List.cons.injEq] at hlow
    exact ⟨rest,by rw [hlow.1]⟩

theorem nextFrame_eq (after : Bytes) : (Decoder.mk (start++after) offset expected).nextFrame=
      (Decoder.mk (start++after) offset expected).refuse (some (readU64Le start 12))
        ((Decoder.mk (start++after) offset expected).readBody start after tag s p) := by
  have htake : (start++after).take prefixLen=start := take_left' h.length_start
  have hdrop : (start++after).drop prefixLen=after := drop_left' h.length_start
  obtain ⟨rest,hcons⟩ := h.start_cons
  have hne : start≠[] := by rw [hcons]; exact cons_ne_nil _ _
  have hnonzero : ¬∀ b ∈ start, b=0 := by
    intro hall
    exact absurd (hall 2 (by rw [hcons]; simp)) (by decide)
  have hlen : ¬start.length < prefixLen := by rw [h.length_start]; exact lt_irrefl _
  have hfields : (Decoder.mk (start++after) offset expected).readPrefix start=.ok (tag,s,p) :=
    readPrefix_eq_ok.mpr (readPrefix_eq_ok.mp h.fields)
  unfold Decoder.nextFrame
  simp only [htake,hdrop,if_neg hne,if_neg hnonzero,if_neg hlen,h.crc_start,ne_eq,
    not_true_eq_false,if_false,hfields,ok_bind]

theorem nextFrame_append (rest : Bytes) :
    (Decoder.mk (start++(body++rest)) offset expected).nextFrame=
      .ok (.frame f ⟨rest,f.stop,next⟩) := by
  rw [h.nextFrame_eq,refuse_eq_ok]
  have htake : (body++rest).take (s+p+16)=body := take_left' h.length_body
  have hdrop : (body++rest).drop (s+p+16)=rest := drop_left' h.length_body
  have hshort : decide (body.length < s+p+16)=false := by simp [h.length_body]
  unfold Decoder.readBody
  simp only [htake,hdrop,hshort,h.sections,ne_eq,not_true_eq_false,Bool.false_eq_true,or_self,
    if_false,h.record,ok_bind,h.stop,h.following,orElseError_some,pure_eq_ok]
  rw [←h.frame]

def cutStart (start : Bytes) (n : ℕ) : Bytes :=
  start.take n++replicate (prefixLen-(start.take n).length) 0

variable {n : ℕ}

omit h in
theorem readU32Le_cutStart_le (hlen : start.length=prefixLen) (hn : n ≤ prefixLen) (at_ : ℕ) :
    (readU32Le (cutStart start n) at_).toNat ≤ (readU32Le start at_).toNat := by
  have hcut : cutStart start n=start.take n++replicate (start.length-n) 0 := by
    rw [cutStart,length_take,hlen,Nat.min_eq_left hn]
  have hle := forall₂_take_append_replicate start n
  rw [←hcut] at hle
  have hslice := forall₂_take 4 (forall₂_drop at_ hle)
  rw [toNat_readU32Le,toNat_readU32Le]
  exact ofLeBytes_le_of_forall₂ hslice

theorem validateShortPrefix_cutStart (hn : n < prefixLen) :
    validateShortPrefix (cutStart start n) n expected=.ok () := by
  obtain ⟨hversion,htag,hreserved,hsequence,hs,hp,hsize⟩ := readPrefix_eq_ok.mp h.fields
  have hlen : start.length=28 := h.length_start
  have hn28 : n < 28 := hn
  obtain ⟨low,hlow⟩ := h.start_eq
  have hfirst : (cutStart start n).take (min n 2)=(u16Le version).take (min n 2) := by
    rw [cutStart,take_append_of_le_length (by rw [length_take]; omega),
      take_take,Nat.min_eq_left (by omega : min n 2 ≤ n)]
    have htake : start.take (min n 2)=(start.take 4).take (min n 2) := by
      rw [take_take,Nat.min_eq_left (by omega : min n 2 ≤ 4)]
    rw [htake,hlow,show u16Le version=[2,0] from rfl]
    have hmin : min n 2=0 ∨ min n 2=1 ∨ min n 2=2 := by omega
    rcases hmin with hmin | hmin | hmin <;> rw [hmin] <;> rfl
  have htagged : n > 2 → readU16Le (cutStart start n) 2=readU16Le start 2 := by
    intro hgt
    -- the high byte of a tag is zero, so a missing one does not matter
    have hfour : (cutStart start n).take 4=start.take 4 := by
      by_cases hthree : n=3
      · have hkept : start.take 3=[2,0,low] := by
          have htake : start.take 3=(start.take 4).take 3 := by rw [take_take]; rfl
          rw [htake,hlow]
          rfl
        rw [cutStart,hthree,hkept,hlow]
        rfl
      · rw [cutStart,take_append_of_le_length (by rw [length_take]; omega),
          take_take,Nat.min_eq_left (by omega)]
    have hslices : slice (cutStart start n) 2 2=slice start 2 2 := by
      have hcut : ∀ bytes : Bytes, slice bytes 2 2=(bytes.take 4).drop 2 := by
        intro bytes
        rw [slice,drop_take]
      rw [hcut,hcut,hfour]
    rw [readU16Le,readU16Le,hslices]
  have hsection : (readU32Le (cutStart start n) 4).toNat+(readU32Le (cutStart start n) 8).toNat ≤
      maxFrameBody := by
    have h4 := readU32Le_cutStart_le h.length_start (le_of_lt hn) 4
    have h8 := readU32Le_cutStart_le h.length_start (le_of_lt hn) 8
    omega
  have hvisible : n > 12 → slice (cutStart start n) 12 (min n 20-12)=
      (u64Le expected).take (min n 20-12) := by
    intro hgt
    have height := slice_of_readU64Le (by omega) hsequence
    rw [cutStart,slice_take_append _ (by omega) (by omega),←height,slice,slice,take_take,
      Nat.min_eq_left (by omega : min n 20-12 ≤ 8)]
  have hsequenced : ¬(n > 12 ∧ slice (cutStart start n) 12 (min n 20-12)≠
      (u64Le expected).take (min n 20-12)) := fun hbad => hbad.2 (hvisible hbad.1)
  unfold validateShortPrefix
  rw [rejectIf_pos (not_not.mpr hfirst),rejectIf_pos (not_lt.mpr hsection),
    rejectIf_pos hsequenced]
  simp only [ok_bind]
  split
  · rename_i hgt
    rw [htagged hgt,htag,ok_bind,rejectIf_pos hreserved,ok_bind]
  · rfl

theorem nextFrame_take_start (hpos : 0 < n) (hn : n < prefixLen) :
    (Decoder.mk (start.take n) offset expected).nextFrame=
      .ok (.stop (.torn offset .shortPrefix)) := by
  have hlen : (start.take n).length=n := by
    rw [length_take,h.length_start,Nat.min_eq_left (le_of_lt hn)]
  obtain ⟨rest,hcons⟩ := h.start_cons
  have hkept : start.take n=2::rest.take (n-1) := by
    rw [hcons]
    cases n with
    | zero => exact absurd hpos (lt_irrefl _)
    | succ n => rfl
  have htake : (start.take n).take prefixLen=start.take n := by
    rw [take_take,Nat.min_eq_right (le_of_lt hn)]
  have hne : start.take n≠[] := by rw [hkept]; exact cons_ne_nil _ _
  have hnonzero : ¬∀ b ∈ start.take n, b=0 := by
    intro hall
    exact absurd (hall 2 (by rw [hkept]; simp)) (by decide)
  have hshort : (start.take n).length < prefixLen := by rw [hlen]; exact hn
  have hhead : (start.take n).head?≠some 0 := by
    rw [hkept,head?_cons]
    decide
  have hvalid := h.validateShortPrefix_cutStart hn
  rw [cutStart] at hvalid
  unfold Decoder.nextFrame
  simp only [htake,if_neg hne,if_neg hnonzero,if_pos hshort,refuse_eq_ok,map_eq_ok]
  refine ⟨_,?_,rfl⟩
  rw [Decoder.shortTail,rejectIf_pos hhead,ok_bind]
  simp only [hlen] at hvalid ⊢
  rw [hvalid]
  rfl

theorem badSection_take {k : ℕ} (hk : k < s+p+16) : badSection (body.take k) s p=none := by
  have hsections := h.sections
  have hlen := h.length_body
  have hcut : (body.take k).length=k := by rw [length_take,hlen]; omega
  unfold badSection at hsections ⊢
  have hstructural : ¬((body.take k).length ≥ s+8 ∧
      crc64Xz (slice (body.take k) 0 s)≠readU64Le (body.take k) s) := by
    rintro ⟨hge,hbad⟩
    have hslice : slice (body.take k) 0 s=slice body 0 s := by
      have := slice_take_append [] (by omega : 0+s ≤ k) (by omega : k ≤ body.length)
      rwa [append_nil] at this
    have hword : readU64Le (body.take k) s=readU64Le body s := by
      have := slice_take_append [] (by omega : s+8 ≤ k) (by omega : k ≤ body.length)
      rw [append_nil] at this
      rw [readU64Le,readU64Le,this]
    rw [hslice,hword] at hbad
    rw [if_pos ⟨by omega,hbad⟩] at hsections
    cases hsections
  have hpayload : ¬(¬(body.take k).length < s+p+16 ∧
      crc64Xz (slice (body.take k) (s+8) p)≠readU64Le (body.take k) (s+8+p)) := by
    rintro ⟨hge,-⟩
    exact hge (by rw [hcut]; exact hk)
  rw [if_neg hstructural,if_neg hpayload]

theorem nextFrame_take_body {k : ℕ} (hk : k < s+p+16) : ∃ kind,
      (Decoder.mk (start++body.take k) offset expected).nextFrame=
        .ok (.stop (.torn offset kind)) := by
  have hcut : (body.take k).length=k := by rw [length_take,h.length_body]; omega
  have htake : (body.take k).take (s+p+16)=body.take k := by
    rw [take_take,Nat.min_eq_right (le_of_lt hk)]
  have hdrop : (body.take k).drop (s+p+16)=[] := drop_eq_nil_of_le (by omega)
  have hshort : decide ((body.take k).length < s+p+16)=true := by simp [hcut,hk]
  -- nothing follows the cut, so the suffix scan is empty
  obtain ⟨kind,hkind⟩ : ∃ kind, classifyFinalBody (body.take k) [] offset s p none true=
      .ok kind := by
    unfold classifyFinalBody
    by_cases hzero : zeroExtension (body.take k) s p
    · exact ⟨.zeroFilled,by simp [hzero,scanSuffix,firstNonzero,validPrefix,prefixLen]⟩
    · exact ⟨.shortBody,by simp [hzero,scanSuffix,firstNonzero,validPrefix,prefixLen]⟩
  refine ⟨kind,?_⟩
  rw [h.nextFrame_eq,refuse_eq_ok]
  unfold Decoder.readBody
  simp only [htake,hdrop,hshort,h.badSection_take hk,true_or,if_true,hkind,ok_bind]
  rfl

theorem length_eq : (start++body).length=frameOverhead+s+p := by
  rw [length_append,h.length_start,h.length_body,frameOverhead]
  omega

theorem toNat_stop : f.stop.toNat=offset.toNat+(start++body).length := by
  have hsize := (readPrefix_eq_ok.mp h.fields).2.2.2.2.2.2
  have hfits : frameOverhead+s+p < 2^64 := by
    rw [maxFrameBody] at hsize
    rw [frameOverhead,prefixLen]
    omega
  have hstop := checkedAdd64_eq_some.mp h.stop
  rw [UInt64.toNat_ofNat_of_lt' hfits] at hstop
  rw [←hstop,h.length_eq]

end IntactFrame

theorem intact_of_nextFrame {d' : Decoder} {f : Frame}
    (h : decoder.nextFrame=.ok (.frame f d')) : ∃ start body tag s p,
      IntactFrame decoder.offset decoder.expected start body tag s p f d'.expected ∧
        decoder.rest=start++(body++d'.rest) ∧ d'.offset=f.stop := by
  unfold Decoder.nextFrame at h
  dsimp only at h
  split at h
  · cases h
  split at h
  · simp only [refuse_eq_ok,map_eq_ok] at h
    obtain ⟨_,_,h⟩ := h
    cases h
  split at h
  · simp only [refuse_eq_ok,map_eq_ok] at h
    obtain ⟨_,_,h⟩ := h
    cases h
  rename_i hlen
  split at h
  · cases h
  rename_i hcrc
  rw [refuse_eq_ok,bind_eq_ok] at h
  obtain ⟨⟨tag,s,p⟩,hfields,h⟩ := h
  unfold Decoder.readBody at h
  dsimp only at h
  split at h
  · rw [bind_eq_ok] at h
    obtain ⟨_,_,h⟩ := h
    cases h
  rename_i hwhole
  rw [not_or,not_not,decide_eq_true_eq,Nat.not_lt] at hwhole
  simp only [eq_ok,Step.frame.injEq] at h
  obtain ⟨record,hrecord,stop,hstop,next,hnext,rfl,rfl⟩ := h
  have hstart := le_antisymm (length_take_le _ _) (not_lt.mp hlen)
  have hbody := le_antisymm (length_take_le _ _) hwhole.1
  refine ⟨_,_,tag,s,p,⟨hstart,not_not.mp hcrc,readPrefix_eq_ok.mpr (readPrefix_eq_ok.mp hfields),
    hbody,hwhole.2,hrecord,hstop,hnext,rfl⟩,?_,rfl⟩
  rw [take_append_drop,take_append_drop]

theorem nextFrame_nil (offset expected : UInt64) :
    (Decoder.mk [] offset expected).nextFrame=.ok (.stop .complete) := rfl

theorem stop_cases {tail : Tail} (h : decoder.nextFrame=.ok (.stop tail)) :
    tail=.complete ∧ decoder.rest=[] ∨ ∃ kind, tail=.torn decoder.offset kind := by
  unfold Decoder.nextFrame at h
  dsimp only at h
  split at h
  · rename_i hnil
    cases h
    rw [take_eq_nil_iff] at hnil
    exact .inl ⟨rfl,hnil.resolve_left (by decide)⟩
  right
  split at h
  · simp only [refuse_eq_ok,map_eq_ok,Step.stop.injEq] at h
    obtain ⟨t,ht,rfl⟩ := h
    simp only [Decoder.zeroTail,bind_eq_ok] at ht
    obtain ⟨_,_,ht⟩ := ht
    split at ht
    · cases ht
    · cases ht
      exact ⟨_,rfl⟩
  split at h
  · simp only [refuse_eq_ok,map_eq_ok,Step.stop.injEq] at h
    obtain ⟨t,ht,rfl⟩ := h
    simp only [Decoder.shortTail,bind_eq_ok] at ht
    obtain ⟨_,_,_,_,ht⟩ := ht
    cases ht
    exact ⟨_,rfl⟩
  split at h
  · cases h
  rw [refuse_eq_ok,bind_eq_ok] at h
  obtain ⟨⟨tag,s,p⟩,-,h⟩ := h
  unfold Decoder.readBody at h
  dsimp only at h
  split at h
  · simp only [eq_ok,Step.stop.injEq] at h
    obtain ⟨kind,-,rfl⟩ := h
    exact ⟨kind,rfl⟩
  · simp only [eq_ok,reduceCtorEq,and_false,exists_false] at h

inductive Reads : Decoder → List Frame → Decoder → Prop
  | nil (decoder : Decoder) : Reads decoder [] decoder
  | cons {decoder next last : Decoder} {f : Frame} {frames : List Frame}
    (head : decoder.nextFrame=.ok (.frame f next)) (tail : Reads next frames last) :
    Reads decoder (f::frames) last

namespace Reads

variable {a b c : Decoder} {fs gs : List Frame}

theorem append (h : Reads a fs b) (h' : Reads b gs c) : Reads a (fs++gs) c := by
  induction h with
  | nil => exact h'
  | cons head _ ih => exact .cons head (ih h')

theorem split (h : Reads a (fs++gs) c) : ∃ b, Reads a fs b ∧ Reads b gs c := by
  induction fs generalizing a with
  | nil => exact ⟨a,.nil a,h⟩
  | cons f fs ih =>
    cases h with
    | cons head tail =>
      obtain ⟨b,hfirst,hsecond⟩ := ih tail
      exact ⟨b,.cons head hfirst,hsecond⟩

theorem unique (h : Reads a fs b) (h' : Reads a fs c) : b=c := by
  induction h with
  | nil =>
    cases h'
    rfl
  | cons head _ ih =>
    cases h' with
    | cons head' tail' =>
      rw [head] at head'
      cases head'
      exact ih tail'

theorem prefix_or (h : Reads a fs b) (h' : Reads a gs c) : fs <+: gs ∨ gs <+: fs := by
  induction h generalizing gs c with
  | nil => exact .inl List.nil_prefix
  | cons head _ ih =>
    cases h' with
    | nil => exact .inr List.nil_prefix
    | cons head' tail' =>
      rw [head] at head'
      cases head'
      rcases ih tail' with hle | hle
      · exact .inl ((prefix_cons_inj _).mpr hle)
      · exact .inr ((prefix_cons_inj _).mpr hle)

/-- The bytes of a run and where it ends; what follows them does not matter. -/
theorem consumed (h : Reads a fs b) : ∃ bytes,
    a.rest=bytes++b.rest ∧ b.offset.toNat=a.offset.toNat+bytes.length ∧ (fs≠[] → 0 < bytes.length) ∧
      ∀ rest, Reads ⟨bytes++rest,a.offset,a.expected⟩ fs ⟨rest,b.offset,b.expected⟩ := by
  induction h with
  | nil decoder => exact ⟨[],rfl,rfl,fun hne => absurd rfl hne,fun rest => .nil _⟩
  | cons head _ ih =>
    obtain ⟨bytes,hrest,hoffset,-,hreads⟩ := ih
    obtain ⟨start,body,tag,s,p,hintact,hbytes,hnext⟩ := intact_of_nextFrame head
    have hlen := hintact.length_eq
    have hstop := hintact.toNat_stop
    refine ⟨start++body++bytes,?_,?_,?_,?_⟩
    · rw [hbytes,hrest]
      simp only [append_assoc]
    · rw [hoffset,hnext,hstop]
      simp only [length_append]
      omega
    · intro _
      rw [length_append,hlen,frameOverhead,prefixLen]
      omega
    · intro rest
      have hread := hintact.nextFrame_append (bytes++rest)
      refine .cons ?_ (hreads rest)
      rw [hnext,append_assoc,append_assoc]
      exact hread

theorem offset_le (h : Reads a fs b) : a.offset.toNat ≤ b.offset.toNat := by
  obtain ⟨bytes,-,hoffset,-⟩ := h.consumed
  omega

theorem of_new {bytes : Bytes} (h : Reads (.new bytes) fs b) :
    b.offset.toNat ≤ bytes.length ∧ b.rest=bytes.drop b.offset.toNat ∧
      ∀ rest, Reads (.new (bytes.take b.offset.toNat++rest)) fs ⟨rest,b.offset,b.expected⟩ := by
  obtain ⟨consumed,hbytes,hoffset,-,hreads⟩ := h.consumed
  have hlen : b.offset.toNat=consumed.length := by
    rw [hoffset]
    exact zero_add _
  have hsplit : bytes=consumed++b.rest := hbytes
  rw [hlen]
  refine ⟨by rw [hsplit,length_append]; omega,by rw [hsplit,drop_left],fun rest => ?_⟩
  have htake : bytes.take consumed.length=consumed := by rw [hsplit,take_left]
  rw [htake]
  exact hreads rest

theorem cut (h : Reads a fs b) (hb : b.rest=[]) {t : ℕ}
    (ht : t ≤ a.rest.length) : ∃ pre post d, fs=pre++post ∧
      Reads ⟨a.rest.take t,a.offset,a.expected⟩ pre d ∧
        (d.rest=[] ∨ d.rest≠[] ∧ ∃ kind, d.nextFrame=.ok (.stop (.torn d.offset kind))) := by
  induction h generalizing t with
  | nil decoder =>
    refine ⟨[],[],_,rfl,.nil _,.inl ?_⟩
    rw [hb,take_nil]
  | @cons decoder next last f frames head tail ih =>
    obtain ⟨start,body,tag,s,p,hintact,hbytes,hnext⟩ := intact_of_nextFrame head
    by_cases hwhole : (start++body).length ≤ t
    · -- the whole frame is kept
      have htake : decoder.rest.take t= start++(body++next.rest.take (t-(start++body).length)) := by
        rw [hbytes,←append_assoc,take_append,take_of_length_le hwhole, append_assoc]
      have hle : t-(start++body).length ≤ next.rest.length := by
        rw [hbytes,←append_assoc,length_append] at ht
        omega
      obtain ⟨pre,post,d,hsplit,hreads,hend⟩ := ih hb hle
      refine ⟨f::pre,post,d,by rw [hsplit,cons_append],?_,hend⟩
      rw [htake]
      refine .cons (hintact.nextFrame_append _) ?_
      rwa [hnext] at hreads
    · -- the cut falls inside the frame
      refine ⟨[],f::frames,_,rfl,.nil _,?_⟩
      have hcut : decoder.rest.take t=(start++body).take t := by
        rw [hbytes,←append_assoc,take_append_of_le_length (by omega)]
      have hstart := hintact.length_start
      rw [length_append,hintact.length_body] at hwhole
      rcases Nat.eq_zero_or_pos t with rfl | hpos
      · exact .inl rfl
      · right
        constructor
        · intro hnil
          have hzero := congrArg List.length hnil
          rw [length_take,length_nil] at hzero
          omega
        · by_cases hshort : t < prefixLen
          · refine ⟨.shortPrefix,?_⟩
            rw [hcut,take_append_of_le_length (by omega)]
            exact hintact.nextFrame_take_start hpos hshort
          · have hkept : (start++body).take t=start++body.take (t-prefixLen) := by
              rw [take_append,take_of_length_le (by omega),hstart]
            obtain ⟨kind,hkind⟩ := hintact.nextFrame_take_body (k:=t-prefixLen) (by omega)
            refine ⟨kind,?_⟩
            rw [hcut,hkept]
            exact hkind

end Reads

end Remanence.TapeLog
