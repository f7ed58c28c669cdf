import Remanence.Foundation.Canonical
import Remanence.Foundation.Checked

/-!
# The envelope of an encrypted object

An encrypted object starts with a header of 128 bytes and a key frame of recipient slots. A
slice of the source is a memory and a length. Both formats have one encoding for each value.
-/

namespace Remanence.Foundation

open List

def fieldsAt (block : Bytes) : ℕ → List ℕ → List Bytes
  | _,[] => []
  | offset,width::widths => slice block offset width::fieldsAt block (offset+width) widths

theorem fieldsAt_eq_iff {block : Bytes} {offset : ℕ} {widths : List ℕ} {fields : List Bytes}
    (h : offset+widths.sum=block.length) :
    fieldsAt block offset widths=fields ↔
      fields.map length=widths ∧ fields.flatten=block.drop offset := by
  induction widths generalizing offset fields with
  | nil =>
    have hend : block.drop offset=[] := drop_of_length_le (by simpa using h.ge)
    cases fields <;> simp [fieldsAt,hend]
  | cons width widths ih =>
    rw [sum_cons] at h
    have hlen : (slice block offset width).length=width := length_slice (by omega)
    have hsplit : block.drop offset=slice block offset width++block.drop (offset+width) := by
      rw [slice,←drop_drop,take_append_drop]
    cases fields with
    | nil => simp [fieldsAt]
    | cons field fields =>
      rw [fieldsAt,cons.injEq,ih (by omega),map_cons,cons.injEq,flatten_cons,hsplit]
      constructor
      · rintro ⟨rfl,hmap,hflat⟩
        exact ⟨⟨hlen,hmap⟩,by rw [hflat]⟩
      · rintro ⟨⟨hfield,hmap⟩,hflat⟩
        obtain ⟨rfl,hrest⟩ := append_inj hflat (by rw [hfield,hlen])
        exact ⟨rfl,hmap,hrest⟩

def be (width : ℕ) (x : BitVec (8*width)) : Bytes := beBytes width x.toNat

def readBe (width : ℕ) (block : Bytes) (offset : ℕ) : BitVec (8*width) :=
  .ofNat _ (ofBeBytes (slice block offset width))

theorem readBe_eq_iff {block : Bytes} {offset width : ℕ} {x : BitVec (8*width)}
    (h : offset+width ≤ block.length) :
    readBe width block offset=x ↔ slice block offset width=be width x := by
  have hlen := length_slice h
  have hpow : 256^width=2^(8*width) := by simp [pow_mul]
  have hlt := ofLeBytes_lt (slice block offset width).reverse
  rw [length_reverse,hlen,←ofBeBytes,hpow] at hlt
  rw [readBe,be]
  constructor
  · rintro rfl
    have hback := beBytes_ofBeBytes (slice block offset width)
    rw [hlen] at hback
    rw [BitVec.toNat_ofNat,Nat.mod_eq_of_lt hlt,hback]
  · intro hbytes
    rw [hbytes,ofBeBytes_beBytes (hpow ▸ x.isLt),BitVec.ofNat_toNat,BitVec.setWidth_eq]

end Remanence.Foundation

namespace Remanence.Aead

open Foundation List

inductive RemObjectAeadError where
  | invalidMagicBytes
  | invalidHeaderLength
  | unsupportedFormatVersion
  | invalidSuite
  | invalidWrapSuite
  | invalidKeyFrameLength
  | invalidKeyFrame
  | reservedBytesNotZero
  | invalidChunkSize
  | invalidSalt
  | metadataFrameLengthInvalid
  | invalidObjectIdField
deriving DecidableEq, Repr

abbrev Result (α : Type) := Except RemObjectAeadError α

structure RemObjectHeader where
  formatVersion : BitVec 8
  chunkSize : BitVec 32
  hkdfSalt : FixedBytes 16
  metadataFrameLen : BitVec 64
  objectId : String
  wrapSuite : BitVec 8
  keyFrameLen : BitVec 32

def objectIdField (objectId : String) : Result (FixedBytes 64) :=
  let bytes := utf8 objectId
  if h : bytes=[] ∨ 64 < bytes.length ∨ 0 ∈ bytes then .error .invalidObjectIdField
  else .ok ⟨bytes++replicate (64-bytes.length) 0,by simp; omega⟩

def decodeObjectIdField (field : Bytes) : Result String := do
  let stop := field.findIdx (·==0)
  rejectIf (stop=0 ∨ (field.drop stop).any (· ≠ 0)=true) .invalidObjectIdField
  orElseError (String.fromUTF8? ⟨(field.take stop).toArray⟩) .invalidObjectIdField

theorem objectIdField_eq_ok {objectId : String} {field : FixedBytes 64} :
    objectIdField objectId=.ok field ↔ utf8 objectId≠[] ∧ 0 ∉ utf8 objectId ∧
      utf8 objectId++replicate (64-(utf8 objectId).length) 0=field.bytes := by
  dsimp only [objectIdField]
  constructor
  · intro h
    split_ifs at h with hbad
    obtain rfl := Except.ok.inj h
    simp only [not_or] at hbad
    exact ⟨hbad.1,hbad.2.2,rfl⟩
  · rintro ⟨hne,hnot,hfield⟩
    have hlen : (utf8 objectId).length ≤ 64 := by
      have := congrArg length hfield
      rw [length_append,length_replicate,field.length_eq] at this
      omega
    rw [dif_neg (by simp only [hne,hnot,not_lt.mpr hlen,or_self,not_false_iff])]
    exact congrArg Except.ok (FixedBytes.ext hfield)

theorem decodeObjectIdField_eq_ok {field : FixedBytes 64} {objectId : String} :
    decodeObjectIdField field.bytes=.ok objectId ↔ objectIdField objectId=.ok field := by
  rw [objectIdField_eq_ok]
  simp only [decodeObjectIdField,eq_ok,exists_const,fromUTF8_eq_some,not_or]
  constructor
  · rintro ⟨⟨hstop,hzeros⟩,hutf⟩
    have hle : field.bytes.findIdx (·==0) ≤ field.bytes.length := findIdx_le_length
    have hrest : field.bytes.drop (field.bytes.findIdx (·==0))=
        replicate (64-field.bytes.findIdx (·==0)) 0 :=
      eq_replicate_iff.mpr ⟨by rw [length_drop,field.length_eq],by simpa using hzeros⟩
    have hwidth : (utf8 objectId).length=field.bytes.findIdx (·==0) := by
      rw [hutf,length_take,Nat.min_eq_left hle]
    refine ⟨by rwa [←length_eq_zero_iff.ne,hwidth],?_,by
      rw [hwidth,hutf,←hrest,take_append_drop]⟩
    intro hmem
    obtain ⟨i,hi,hzero⟩ := mem_take_iff_getElem.mp (hutf ▸ hmem)
    have := not_of_lt_findIdx (p := (·==0)) (lt_of_lt_of_le hi (min_le_left _ _))
    simp [hzero] at this
  · rintro ⟨hne,hnot,hfield⟩
    have hstop : field.bytes.findIdx (·==0)=(utf8 objectId).length := by
      have hzero : (replicate (64-(utf8 objectId).length) (0 : UInt8)).findIdx (·==0)=0 := by
        cases 64-(utf8 objectId).length <;> rfl
      rw [←hfield,findIdx_append,hzero,findIdx_eq_length.mpr,if_neg (lt_irrefl _),zero_add]
      simpa using fun x hx => ne_of_mem_of_not_mem hx hnot
    rw [hstop,←hfield,drop_left,take_left]
    simpa using hne

def validateWrapSuite (wrapSuite : BitVec 8) : Result Unit :=
  rejectIf (wrapSuite≠2) .invalidWrapSuite

namespace RemObjectHeader

def validate (header : RemObjectHeader) : Result Unit := do
  rejectIf (header.chunkSize=0 ∨ header.chunkSize.toNat%512≠0) .invalidChunkSize
  rejectIf (header.formatVersion≠2) .unsupportedFormatVersion
  validateWrapSuite header.wrapSuite
  rejectIf (¬(1191 ≤ header.keyFrameLen.toNat ∧ header.keyFrameLen.toNat ≤ 16384))
    .invalidKeyFrameLength
  rejectIf (header.hkdfSalt=FixedBytes.zero 16) .invalidSalt
  rejectIf (¬(17 ≤ header.metadataFrameLen.toNat ∧ header.metadataFrameLen.toNat ≤ 16*1024*1024))
    .metadataFrameLengthInvalid
  let _ ← objectIdField header.objectId
  return ()

def parse (block : FixedBytes 128) : Result RemObjectHeader := do
  let bytes := block.bytes
  rejectIf (slice bytes 0 4≠utf8 "REMO") .invalidMagicBytes
  rejectIf (readBe 2 bytes 4≠128) .invalidHeaderLength
  let formatVersion := readBe 1 bytes 6
  rejectIf (formatVersion≠2) .unsupportedFormatVersion
  rejectIf (readBe 1 bytes 7≠1) .invalidSuite
  let chunkSize := readBe 4 bytes 8
  rejectIf (readBe 4 bytes 12≠0) .reservedBytesNotZero
  rejectIf ((slice bytes 16 16).any (· ≠ 0)=true) .reservedBytesNotZero
  let hkdfSalt := ⟨slice bytes 32 16,length_slice (by simp [bytes])⟩
  let metadataFrameLen := readBe 8 bytes 48
  rejectIf ((slice bytes 57 3).any (· ≠ 0)=true) .reservedBytesNotZero
  let wrapSuite := readBe 1 bytes 56
  validateWrapSuite wrapSuite
  let keyFrameLen := readBe 4 bytes 60
  let objectId ← decodeObjectIdField (slice bytes 64 64)
  let header : RemObjectHeader :=
    ⟨formatVersion,chunkSize,hkdfSalt,metadataFrameLen,objectId,wrapSuite,keyFrameLen⟩
  header.validate
  return header

/-- The fields in the order of their offsets, the reserved ones zero. -/
def fields (header : RemObjectHeader) (objectId : FixedBytes 64) : List Bytes :=
  [utf8 "REMO",be 2 128,be 1 header.formatVersion,be 1 1,be 4 header.chunkSize,be 4 0,replicate 16 0,
    header.hkdfSalt.bytes,be 8 header.metadataFrameLen,be 1 header.wrapSuite,replicate 3 0,
    be 4 header.keyFrameLen,objectId.bytes]

def widths : List ℕ := [4,2,1,1,4,4,16,16,8,1,3,4,64]

theorem map_length_fields (header : RemObjectHeader) (objectId : FixedBytes 64) :
    (header.fields objectId).map length=widths := by
  have hmagic : (utf8 "REMO").length=4 := by decide
  simp [fields,widths,be,hmagic]

def serialize (header : RemObjectHeader) : Result (FixedBytes 128) := do
  header.validate
  let objectId ← objectIdField header.objectId
  return ⟨(header.fields objectId).flatten,by rw [length_flatten,map_length_fields]; rfl⟩

variable {block : FixedBytes 128} {header : RemObjectHeader}

theorem flatten_fields_eq {objectId : FixedBytes 64} :
    (header.fields objectId).flatten=block.bytes ↔
      fieldsAt block.bytes 0 widths=header.fields objectId := by
  rw [fieldsAt_eq_iff (by rw [block.length_eq]; rfl),drop_zero]
  exact (and_iff_right (map_length_fields header objectId)).symm

theorem serialize_eq_ok : header.serialize=.ok block ↔ header.validate=.ok () ∧ ∃ objectId,
      objectIdField header.objectId=.ok objectId ∧
        fieldsAt block.bytes 0 widths=header.fields objectId := by
  simp only [serialize,eq_ok,FixedBytes.ext_iff,flatten_fields_eq]
  exact Unique.exists_iff

theorem slice_eq_replicate {offset width : ℕ} (h : offset+width ≤ 128) :
    slice block.bytes offset width=replicate width 0 ↔
      ¬(slice block.bytes offset width).any (fun x => decide ¬x=0)=true := by
  rw [eq_replicate_iff,and_iff_right (length_slice (h.trans_eq block.length_eq.symm))]
  simp

theorem parse_eq_ok : parse block=.ok header ↔ header.serialize=.ok block := by
  rw [serialize_eq_ok]
  simp only [parse,eq_ok,validateWrapSuite,ne_eq,not_not,exists_const,fieldsAt,widths,fields,
    cons.injEq,and_true,Nat.reduceAdd,Nat.reduceLeDiff,FixedBytes.length_bytes,slice_eq_replicate,
    ←readBe_eq_iff]
  constructor
  · rintro ⟨hmagic,hlen,-,hsuite,hflags,hzero,hzeros,-,objectId,hid,_,hvalid,rfl⟩
    exact ⟨hvalid,⟨slice block.bytes 64 64,length_slice (by simp)⟩,decodeObjectIdField_eq_ok.mp hid,
      hmagic,hlen,rfl,hsuite,rfl,hflags,hzero,rfl,rfl,rfl,hzeros,rfl,rfl⟩
  · rintro ⟨hvalid,objectId,hid,hmagic,hlen,hversion,hsuite,hchunk,hflags,hzero,hsalt,hframe,hwrap,
      hzeros,hkey,hobject⟩
    have hchecks := hvalid
    simp only [validate,eq_ok,validateWrapSuite,ne_eq,not_not,exists_const] at hchecks
    have hdecode := decodeObjectIdField_eq_ok.mpr hid
    rw [←hobject] at hdecode
    obtain ⟨-,hversion2,hwrap2,-⟩ := hchecks
    have hheader : RemObjectHeader.mk (readBe 1 block.bytes 6) (readBe 4 block.bytes 8)
        ⟨slice block.bytes 32 16,length_slice (by simp)⟩ (readBe 8 block.bytes 48)
        header.objectId (readBe 1 block.bytes 56) (readBe 4 block.bytes 60)=header := by
      simp only [hversion,hchunk,hsalt,hframe,hwrap,hkey]
    exact ⟨hmagic,hlen,hversion.trans hversion2,hsuite,hflags,hzero,hzeros,hwrap.trans hwrap2,
      header.objectId,hdecode,(),by rw [hheader,hvalid],hheader⟩

end RemObjectHeader

structure RecipientSlot where
  slotIndex : UInt8
  recipientEpochId : FixedBytes 16
  epochLabel : String
  enc : FixedBytes 1120
  ciphertext : FixedBytes 48

structure KeyFrame where
  slots : List RecipientSlot

def printable (bytes : Bytes) : Bool := bytes.all fun b => 0x20 ≤ b ∧ b ≤ 0x7e

def validateSlots : Option UInt8 → List RecipientSlot → List RecipientSlot → Result Unit
  | _,_,[] => return ()
  | previous,earlier,slot::rest => do
    rejectIf ((previous.any fun value => slot.slotIndex ≤ value) ∨
      (earlier.any fun e => e.recipientEpochId=slot.recipientEpochId) ∨
      32 < (utf8 slot.epochLabel).length ∨ ¬printable (utf8 slot.epochLabel)) .invalidKeyFrame
    validateSlots (some slot.slotIndex) (earlier++[slot]) rest

structure Slice where
  memory : Bytes
  len : ℕ
  len_le : len ≤ memory.length

/-- A sum of cursor and length that overflows is past the end too and has the same error. -/
def take (n : ℕ) (s : Slice) : Result (Bytes×Slice) :=
  if s.len < n then .error .invalidKeyFrame
  else .ok (s.memory.take n,⟨s.memory.drop n,s.len-n,by
    rw [length_drop]
    exact Nat.sub_le_sub_right s.len_le n⟩)

def takeByte (s : Slice) : Result (UInt8×Slice) := do
  let (bytes,t) ← take 1 s
  return (bytes.headD 0,t)

def takeArray (n : ℕ) (s : Slice) : Result (FixedBytes n×Slice) := do
  let (bytes,t) ← take n s
  if h : bytes.length=n then return (⟨bytes,h⟩,t) else .error .invalidKeyFrame

def takeSlot (s : Slice) : Result (RecipientSlot×Slice) := do
  let (slotIndex,s) ← takeByte s
  let (recipientEpochId,s) ← takeArray 16 s
  let (labelLen,s) ← takeByte s
  rejectIf (32 < labelLen.toNat) .invalidKeyFrame
  let (label,s) ← take labelLen.toNat s
  rejectIf (¬printable label) .invalidKeyFrame
  let epochLabel ← orElseError (String.fromUTF8? ⟨label.toArray⟩) .invalidKeyFrame
  let (enc,s) ← takeArray 1120 s
  let (ciphertext,s) ← takeArray 48 s
  return (⟨slotIndex,recipientEpochId,epochLabel,enc,ciphertext⟩,s)

def takeSlots : ℕ → Slice → Result (List RecipientSlot×Slice)
  | 0,s => return ([],s)
  | count+1,s => do
    let (slot,s) ← takeSlot s
    let (slots,s) ← takeSlots count s
    return (slot::slots,s)

def RecipientSlot.bytes (slot : RecipientSlot) : Bytes :=
  [slot.slotIndex]++(slot.recipientEpochId.bytes++([UInt8.ofNat (utf8 slot.epochLabel).length]++
    (utf8 slot.epochLabel++(slot.enc.bytes++slot.ciphertext.bytes))))

namespace KeyFrame

def validate (frame : KeyFrame) : Result Unit := do
  rejectIf (¬(1 ≤ frame.slots.length ∧ frame.slots.length ≤ 8)) .invalidKeyFrame
  validateSlots none [] frame.slots

def parse (s : Slice) : Result KeyFrame := do
  rejectIf (¬(1191 ≤ s.len ∧ s.len ≤ 16384)) .invalidKeyFrameLength
  let (magic,s) ← take 4 s
  rejectIf (magic≠utf8 "REMK") .invalidKeyFrame
  let (count,s) ← takeByte s
  rejectIf (¬(1 ≤ count.toNat ∧ count.toNat ≤ 8)) .invalidKeyFrame
  let (slots,s) ← takeSlots count.toNat s
  rejectIf (s.len≠0) .invalidKeyFrame
  let frame : KeyFrame := ⟨slots⟩
  frame.validate
  return frame

def serialize (frame : KeyFrame) : Result Bytes := do
  frame.validate
  let capacity := 5+(frame.slots.map fun slot => 1+16+1+1120+48+(utf8 slot.epochLabel).length).sum
  rejectIf (¬(1191 ≤ capacity ∧ capacity ≤ 16384)) .invalidKeyFrameLength
  return utf8 "REMK"++([UInt8.ofNat frame.slots.length]++frame.slots.flatMap RecipientSlot.bytes)

end KeyFrame

def Slice.Starts (s : Slice) (bytes : Bytes) (t : Slice) : Prop :=
  s.memory=bytes++t.memory ∧ s.len=bytes.length+t.len

variable {s t : Slice} {bytes : Bytes} {n : ℕ}

theorem take_eq_ok : take n s=.ok (bytes,t) ↔ bytes.length=n ∧ s.Starts bytes t := by
  obtain ⟨memory,len,hle⟩ := s
  obtain ⟨memory',len',hle'⟩ := t
  dsimp only [take,Slice.Starts]
  split_ifs with hshort
  · simp only [false_iff]
    omega
  · simp only [Except.ok.injEq,Prod.mk.injEq,Slice.mk.injEq]
    constructor
    · rintro ⟨rfl,rfl,rfl⟩
      have hlen : (memory.take n).length=n := length_take_of_le (by omega)
      exact ⟨hlen,(take_append_drop n memory).symm,by omega⟩
    · rintro ⟨rfl,rfl,rfl⟩
      exact ⟨take_left,drop_left,Nat.add_sub_cancel_left ..⟩

theorem starts_append {a b : Bytes} :
    s.Starts (a++b) t ↔ ∃ mid, s.Starts a mid ∧ mid.Starts b t := by
  constructor
  · rintro ⟨hmemory,hlen⟩
    rw [append_assoc] at hmemory
    rw [length_append] at hlen
    have hle : b.length+t.len ≤ (b++t.memory).length := by
      rw [length_append]
      exact Nat.add_le_add_left t.len_le _
    exact ⟨⟨b++t.memory,b.length+t.len,hle⟩,⟨hmemory,by rw [hlen,Nat.add_assoc]⟩,rfl,rfl⟩
  · rintro ⟨mid,⟨hmemory,hlen⟩,hmemory',hlen'⟩
    exact ⟨by rw [hmemory,hmemory',append_assoc],by rw [hlen,hlen',length_append,Nat.add_assoc]⟩

theorem starts_whole {whole : Bytes} (beyond : Bytes) (h : whole=bytes) :
    Slice.Starts ⟨bytes++beyond,bytes.length,by simp⟩ whole ⟨beyond,0,Nat.zero_le _⟩ := by
  subst h
  exact ⟨rfl,rfl⟩

theorem takeByte_eq_ok {x : UInt8} : takeByte s=.ok (x,t) ↔ s.Starts [x] t := by
  simp only [takeByte,eq_ok,Prod.exists,take_eq_ok,Prod.mk.injEq]
  constructor
  · rintro ⟨bytes,_,⟨hlen,hstarts⟩,rfl,rfl⟩
    obtain ⟨x,rfl⟩ := length_eq_one_iff.mp hlen
    exact hstarts
  · intro h
    exact ⟨[x],t,⟨rfl,h⟩,rfl,rfl⟩

theorem takeArray_eq_ok {array : FixedBytes n} :
    takeArray n s=.ok (array,t) ↔ s.Starts array.bytes t := by
  simp only [takeArray,bind_eq_ok,Prod.exists,take_eq_ok]
  constructor
  · rintro ⟨bytes,_,⟨rfl,hstarts⟩,h⟩
    rw [dif_pos rfl] at h
    obtain ⟨rfl,rfl⟩ := Prod.mk.inj (pure_eq_ok.mp h)
    exact hstarts
  · intro h
    exact ⟨array.bytes,t,⟨array.length_eq,h⟩,dif_pos array.length_eq⟩

def RecipientSlot.Labelled (slot : RecipientSlot) : Prop :=
  (utf8 slot.epochLabel).length ≤ 32 ∧ printable (utf8 slot.epochLabel)=true

theorem takeSlot_eq_ok {slot : RecipientSlot} :
    takeSlot s=.ok (slot,t) ↔ slot.Labelled ∧ s.Starts slot.bytes t := by
  simp only [takeSlot,eq_ok,Prod.exists,takeByte_eq_ok,takeArray_eq_ok,take_eq_ok,fromUTF8_eq_some,
    exists_const,RecipientSlot.bytes,starts_append,not_lt,not_not]
  constructor
  · rintro ⟨slotIndex,_,hindex,epoch,_,hepoch,labelLen,_,hcount,hle,_,_,⟨hlen,hlabel⟩,hprint,
      epochLabel,rfl,enc,_,henc,ciphertext,_,hcipher,hslot⟩
    obtain ⟨rfl,rfl⟩ := Prod.mk.inj hslot
    have hword : UInt8.ofNat (utf8 epochLabel).length=labelLen := by rw [hlen,UInt8.ofNat_toNat]
    exact ⟨⟨hlen.trans_le hle,hprint⟩,_,hindex,_,hepoch,_,hword ▸ hcount,_,hlabel,_,henc,hcipher⟩
  · rintro ⟨⟨hle,hprint⟩,_,hindex,_,hepoch,_,hcount,_,hlabel,_,henc,hcipher⟩
    have hword : (UInt8.ofNat (utf8 slot.epochLabel).length).toNat=(utf8 slot.epochLabel).length :=
      UInt8.toNat_ofNat_of_lt' (hle.trans_lt (by decide))
    exact ⟨_,_,hindex,_,_,hepoch,_,_,hcount,hword.trans_le hle,_,_,⟨hword.symm,hlabel⟩,hprint,_,rfl,
      _,_,henc,_,_,hcipher,rfl⟩

theorem takeSlots_eq_ok {count : ℕ} {slots : List RecipientSlot} :
    takeSlots count s=.ok (slots,t) ↔ slots.length=count ∧ (∀ slot ∈ slots, slot.Labelled) ∧
      s.Starts (slots.flatMap RecipientSlot.bytes) t := by
  induction count generalizing s t slots with
  | zero =>
    obtain ⟨memory,len,hle⟩ := s
    obtain ⟨memory',len',hle'⟩ := t
    simp only [takeSlots,eq_ok,Prod.mk.injEq,length_eq_zero_iff,Slice.Starts]
    constructor
    · rintro ⟨rfl,rfl,rfl⟩
      simp
    · rintro ⟨rfl,-,rfl,hlen⟩
      simpa using hlen
  | succ count ih =>
    simp only [takeSlots,eq_ok,Prod.exists,takeSlot_eq_ok,ih,Prod.mk.injEq]
    constructor
    · rintro ⟨slot,_,⟨hlabel,hstarts⟩,rest,_,⟨rfl,hlabels,hrest⟩,rfl,rfl⟩
      exact ⟨rfl,by simpa using ⟨hlabel,hlabels⟩,starts_append.mpr ⟨_,hstarts,hrest⟩⟩
    · rintro ⟨hlen,hlabels,hstarts⟩
      obtain ⟨slot,rest,rfl⟩ := exists_cons_of_length_eq_add_one hlen
      obtain ⟨_,hstarts,hrest⟩ := starts_append.mp hstarts
      rw [forall_mem_cons] at hlabels
      exact ⟨slot,_,⟨hlabels.1,hstarts⟩,rest,_,⟨Nat.succ.inj hlen,hlabels.2,hrest⟩,rfl,rfl⟩

theorem labelled_of_validateSlots {previous : Option UInt8} {earlier slots : List RecipientSlot}
    (h : validateSlots previous earlier slots=.ok ()) : ∀ slot ∈ slots, slot.Labelled := by
  induction slots generalizing previous earlier with
  | nil => simp
  | cons slot slots ih =>
    simp only [validateSlots,eq_ok,not_or,not_lt,not_not,exists_const] at h
    exact forall_mem_cons.mpr ⟨h.1.2.2,ih h.2⟩

theorem length_flatMap_bytes (slots : List RecipientSlot) :
    (slots.flatMap RecipientSlot.bytes).length=
      (slots.map fun slot => 1+16+1+1120+48+(utf8 slot.epochLabel).length).sum := by
  rw [length_flatMap]
  congr 2
  funext slot
  simp only [RecipientSlot.bytes,length_append,length_singleton,FixedBytes.length_bytes]
  omega

theorem KeyFrame.parse_eq_ok {frame : KeyFrame} {beyond : Bytes} :
    parse ⟨bytes++beyond,bytes.length,by simp⟩=.ok frame ↔ frame.serialize=.ok bytes := by
  have hlength (count : UInt8) (rest : Bytes) :
      (utf8 "REMK"++([count]++rest)).length=5+rest.length := by
    rw [length_append,length_append,show (utf8 "REMK").length=4 by decide,length_singleton]
    omega
  simp only [parse,serialize,eq_ok,Prod.exists,take_eq_ok,takeByte_eq_ok,takeSlots_eq_ok,exists_const,
    not_not,←length_flatMap_bytes]
  constructor
  · rintro ⟨hrange,_,_,⟨-,hstart⟩,rfl,count,_,hcount,-,slots,t,⟨hlen,-,hslots⟩,hend,_,hvalid,rfl⟩
    have hword : UInt8.ofNat slots.length=count := by rw [hlen,UInt8.ofNat_toNat]
    obtain ⟨hmemory,htotal⟩ := starts_append.mpr ⟨_,hstart,starts_append.mpr ⟨_,hcount,hslots⟩⟩
    obtain ⟨hbytes,-⟩ := append_inj hmemory (by dsimp only at htotal; omega)
    rw [hword]
    rw [hbytes,hlength] at hrange
    exact ⟨(),hvalid,hrange,hbytes.symm⟩
  · rintro ⟨_,hvalid,hrange,hbytes⟩
    have hchecks := hvalid
    simp only [validate,eq_ok,exists_const,not_not] at hchecks
    have hword : (UInt8.ofNat frame.slots.length).toNat=frame.slots.length :=
      UInt8.toNat_ofNat_of_lt' (hchecks.1.2.trans_lt (by decide))
    obtain ⟨_,hstart,hrest⟩ := starts_append.mp (starts_whole beyond hbytes)
    obtain ⟨_,hcount,hslots⟩ := starts_append.mp hrest
    rw [←hlength,hbytes] at hrange
    exact ⟨hrange,_,_,⟨by decide,hstart⟩,rfl,_,_,hcount,hword.symm ▸ hchecks.1,_,_,
      ⟨hword.symm,labelled_of_validateSlots hchecks.2,hslots⟩,rfl,(),hvalid,rfl⟩

/-- Both parsers accept exactly what the encoders write for the value they return, whatever lies
behind a key frame. -/
theorem envelope_codecs_exact :
    (∀ (block : FixedBytes 128) (header : RemObjectHeader),
      RemObjectHeader.parse block=.ok header ↔ header.serialize=.ok block) ∧
    ∀ (bytes beyond : Bytes) (frame : KeyFrame),
      KeyFrame.parse ⟨bytes++beyond,bytes.length,by simp⟩=.ok frame ↔ frame.serialize=.ok bytes :=
  ⟨fun _ _ => RemObjectHeader.parse_eq_ok,fun _ _ _ => KeyFrame.parse_eq_ok⟩

example : (RemObjectHeader.serialize ⟨2,4096,⟨replicate 16 2,rfl⟩,64,"object-2",2,1191⟩).isOk=true := by
  decide +kernel

end Remanence.Aead
