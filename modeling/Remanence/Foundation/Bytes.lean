import Mathlib.Data.UInt
import Mathlib.Data.List.GetD
import Mathlib.Tactic.Ring

/-!
# Byte strings, fixed-width numbers and field blocks

Numbers are written at a fixed width in either byte order and read back. A block is a byte list
with fields written at offsets; a field that no other one overlaps reads back, and bytes outside
every field keep their value.
-/

namespace Remanence.Foundation

open List

abbrev Bytes := List UInt8

@[ext] structure FixedBytes (n : ℕ) where
  bytes : Bytes
  length_eq : bytes.length=n
deriving DecidableEq

namespace FixedBytes

def zero (n : ℕ) : FixedBytes n := ⟨replicate n 0,length_replicate⟩

def filled (n : ℕ) (byte : UInt8) : FixedBytes n := ⟨replicate n byte,length_replicate⟩

def read (n : ℕ) (block : Bytes) (offset : ℕ) : FixedBytes n :=
  ⟨(List.range n).map fun i => block.getD (offset+i) 0,by simp⟩

variable {n : ℕ}

@[simp] theorem length_bytes (b : FixedBytes n) : b.bytes.length=n := b.length_eq

end FixedBytes

theorem toNat_add_ofNat {a : UInt64} (h : a.toNat+n < 2^64) :
    (a+UInt64.ofNat n).toNat=a.toNat+n := by
  rw [UInt64.toNat_add,UInt64.toNat_ofNat_of_lt' (lt_of_le_of_lt (Nat.le_add_left ..) h),
    Nat.mod_eq_of_lt h]

theorem add_ofNat_sub {a b : UInt64} (h : a.toNat ≤ b.toNat) :
    a+UInt64.ofNat (b.toNat-a.toNat)=b := by
  have := b.toNat_lt
  rw [←UInt64.toNat_inj,toNat_add_ofNat (by omega),Nat.add_sub_of_le h]

theorem add_ofNat_succ (a : UInt64) (n : ℕ) : a+UInt64.ofNat (n+1)=a+1+UInt64.ofNat n := by
  rw [UInt64.ofNat_add,add_comm (UInt64.ofNat n),←add_assoc]
  rfl

def leBytes : ℕ → ℕ → Bytes
  | 0,_ => []
  | width+1,value => UInt8.ofNat value::leBytes width (value/256)

def ofLeBytes : Bytes → ℕ
  | [] => 0
  | byte::rest => byte.toNat+256*ofLeBytes rest

def beBytes (width value : ℕ) : Bytes := (leBytes width value).reverse

def ofBeBytes (bytes : Bytes) : ℕ := ofLeBytes bytes.reverse

@[simp] theorem length_leBytes (width value : ℕ) : (leBytes width value).length=width := by
  induction width generalizing value with
  | zero => rfl
  | succ width ih => simp [leBytes,ih]

@[simp] theorem length_beBytes (width value : ℕ) : (beBytes width value).length=width := by
  simp [beBytes]

variable {width : ℕ}

theorem ofLeBytes_leBytes {value : ℕ} (h : value < 256^width) :
    ofLeBytes (leBytes width value)=value := by
  induction width generalizing value with
  | zero =>
    have : value=0 := by simpa using h
    simp [leBytes,ofLeBytes,this]
  | succ width ih =>
    have hdiv : value/256 < 256^width := by
      rw [Nat.div_lt_iff_lt_mul (by decide),←pow_succ]
      exact h
    rw [leBytes,ofLeBytes,ih hdiv,UInt8.toNat_ofNat']
    have := Nat.mod_add_div value 256
    simpa using this

theorem ofLeBytes_lt (bytes : Bytes) : ofLeBytes bytes < 256^bytes.length := by
  induction bytes with
  | nil => simp [ofLeBytes]
  | cons byte rest ih =>
    have hbyte := byte.toNat_lt
    rw [ofLeBytes,length_cons,pow_succ]
    omega

theorem leBytes_ofLeBytes (bytes : Bytes) : leBytes bytes.length (ofLeBytes bytes)=bytes := by
  induction bytes with
  | nil => rfl
  | cons byte rest ih =>
    have hbyte := byte.toNat_lt
    rw [length_cons,leBytes,ofLeBytes]
    have hdiv : (byte.toNat+256*ofLeBytes rest)/256=ofLeBytes rest := by omega
    have hmod : UInt8.ofNat (byte.toNat+256*ofLeBytes rest)=byte := by
      apply UInt8.toNat_inj.mp
      rw [UInt8.toNat_ofNat']
      simp only [Nat.reducePow]
      omega
    rw [hdiv,hmod,ih]

theorem leBytes_injective {a b : ℕ} (ha : a < 256^width) (hb : b < 256^width)
    (h : leBytes width a=leBytes width b) : a=b := by
  rw [←ofLeBytes_leBytes ha,h,ofLeBytes_leBytes hb]

theorem ofBeBytes_beBytes {value : ℕ} (h : value < 256^width) :
    ofBeBytes (beBytes width value)=value := by
  rw [ofBeBytes,beBytes,reverse_reverse,ofLeBytes_leBytes h]

theorem beBytes_ofBeBytes (bytes : Bytes) : beBytes bytes.length (ofBeBytes bytes)=bytes := by
  have h := leBytes_ofLeBytes bytes.reverse
  rw [length_reverse] at h
  rw [beBytes,ofBeBytes,h,reverse_reverse]

def u16Le (x : UInt16) : Bytes := leBytes 2 x.toNat

def u32Le (x : UInt32) : Bytes := leBytes 4 x.toNat

def u64Le (x : UInt64) : Bytes := leBytes 8 x.toNat

@[simp] theorem length_u16Le (x : UInt16) : (u16Le x).length=2 := length_leBytes _ _
@[simp] theorem length_u32Le (x : UInt32) : (u32Le x).length=4 := length_leBytes _ _
@[simp] theorem length_u64Le (x : UInt64) : (u64Le x).length=8 := length_leBytes _ _

theorem u16Le_injective : Function.Injective u16Le := fun a b h =>
  UInt16.toNat_inj.mp (leBytes_injective a.toNat_lt b.toNat_lt h)

theorem u32Le_injective : Function.Injective u32Le := fun a b h =>
  UInt32.toNat_inj.mp (leBytes_injective a.toNat_lt b.toNat_lt h)

theorem u64Le_injective : Function.Injective u64Le := fun a b h =>
  UInt64.toNat_inj.mp (leBytes_injective a.toNat_lt b.toNat_lt h)

variable {r t : Bytes}

theorem field_append_inj {α : Type*} {f : α → Bytes} (hwidth : ∀ a, (f a).length=width)
    (hinj : Function.Injective f) {a b : α} (h : f a++r=f b++t) : a=b ∧ r=t := by
  obtain ⟨hab,hrt⟩ := append_inj h ((hwidth a).trans (hwidth b).symm)
  exact ⟨hinj hab,hrt⟩

theorem u16Le_append_eq {a b : UInt16} : u16Le a++r=u16Le b++t ↔ a=b ∧ r=t :=
  ⟨field_append_inj length_u16Le u16Le_injective,fun h => by rw [h.1,h.2]⟩

theorem u32Le_append_eq {a b : UInt32} : u32Le a++r=u32Le b++t ↔ a=b ∧ r=t :=
  ⟨field_append_inj length_u32Le u32Le_injective,fun h => by rw [h.1,h.2]⟩

theorem u64Le_append_eq {a b : UInt64} : u64Le a++r=u64Le b++t ↔ a=b ∧ r=t :=
  ⟨field_append_inj length_u64Le u64Le_injective,fun h => by rw [h.1,h.2]⟩

theorem fields_append_inj {α : Type*} {f : α → Bytes} (hwidth : ∀ a, (f a).length=width)
    (hinj : Function.Injective f) {as bs : List α} (hlength : as.length=bs.length)
    (h : (as.map f).flatten++r=(bs.map f).flatten++t) : as=bs ∧ r=t := by
  induction as generalizing bs with
  | nil =>
    cases bs with
    | nil => exact ⟨rfl,h⟩
    | cons b bs => cases hlength
  | cons a as ih =>
    cases bs with
    | nil => cases hlength
    | cons b bs =>
      simp only [map_cons,flatten_cons,append_assoc] at h
      obtain ⟨rfl,hrest⟩ := field_append_inj hwidth hinj h
      obtain ⟨rfl,hrt⟩ := ih (Nat.succ.inj hlength) hrest
      exact ⟨rfl,hrt⟩

def slice (block : Bytes) (offset len : ℕ) : Bytes := (block.drop offset).take len

def writeAt (block : Bytes) (offset : ℕ) (bytes : Bytes) : Bytes :=
  block.take offset++bytes++block.drop (offset+bytes.length)

def writeFields (block : Bytes) (fields : List (ℕ×Bytes)) : Bytes :=
  fields.foldl (fun block field => writeAt block field.1 field.2) block

def readU16Le (block : Bytes) (offset : ℕ) : UInt16 := .ofNat (ofLeBytes (slice block offset 2))

def readU32Le (block : Bytes) (offset : ℕ) : UInt32 := .ofNat (ofLeBytes (slice block offset 4))

def readU64Le (block : Bytes) (offset : ℕ) : UInt64 := .ofNat (ofLeBytes (slice block offset 8))

variable {block : Bytes} {offset len : ℕ}

theorem length_slice (h : offset+len ≤ block.length) : (slice block offset len).length=len := by
  rw [slice,length_take,length_drop]
  omega

theorem slice_zero (block : Bytes) (len : ℕ) : slice block 0 len=block.take len := rfl

variable {start : ℕ}

theorem slice_slice {count : ℕ} (h : start+count ≤ len) :
    slice (slice block offset len) start count=slice block (offset+start) count := by
  rw [slice,slice,slice,drop_take,drop_drop,take_take,Nat.min_eq_left (by omega)]

variable {bytes : Bytes}

theorem length_writeAt (h : offset+bytes.length ≤ block.length) :
    (writeAt block offset bytes).length=block.length := by
  simp only [writeAt,length_append,length_take,length_drop]
  omega

theorem slice_writeAt_same (h : offset ≤ block.length) :
    slice (writeAt block offset bytes) offset bytes.length=bytes := by
  have htake : (block.take offset).length=offset := by rw [length_take]; omega
  rw [slice,writeAt,append_assoc,drop_left' htake,take_left' rfl]

theorem slice_writeAt_before (h : offset+bytes.length ≤ block.length) (hlt : start+len ≤ offset) :
    slice (writeAt block offset bytes) start len=slice block start len := by
  apply ext_getElem?
  intro i
  simp only [slice,writeAt,getElem?_take,getElem?_drop]
  by_cases hi : i < len
  · rw [if_pos hi,if_pos hi,append_assoc, getElem?_append_left (by rw [length_take]; omega),
      getElem?_take_of_lt (by omega)]
  · rw [if_neg hi,if_neg hi]

theorem slice_writeAt_after (h : offset+bytes.length ≤ block.length)
    (hgt : offset+bytes.length ≤ start) :
    slice (writeAt block offset bytes) start len=slice block start len := by
  apply ext_getElem?
  intro i
  simp only [slice,writeAt,getElem?_take,getElem?_drop]
  by_cases hi : i < len
  · have hleft : (block.take offset++bytes).length=offset+bytes.length := by
      rw [length_append,length_take]
      omega
    rw [if_pos hi,if_pos hi,getElem?_append_right (by omega),getElem?_drop]
    congr 1
    omega
  · rw [if_neg hi,if_neg hi]

/-- Field ranges in the order they are written, apart from each other and inside the block. -/
def FieldsInOrder (length : ℕ) : ℕ → List (ℕ×Bytes) → Prop
  | start,[] => start ≤ length
  | start,field::rest =>
    start ≤ field.1 ∧ FieldsInOrder length (field.1+field.2.length) rest

variable {length : ℕ} {fields : List (ℕ×Bytes)}

theorem FieldsInOrder.start_le (h : FieldsInOrder length start fields) : start ≤ length := by
  induction fields generalizing start with
  | nil => exact h
  | cons field rest ih =>
    have := ih h.2
    have := h.1
    omega

variable {field : ℕ×Bytes}

theorem FieldsInOrder.mem_le (h : FieldsInOrder length start fields)
    (hmem : field ∈ fields) : field.1+field.2.length ≤ length := by
  induction fields generalizing start with
  | nil => cases hmem
  | cons head rest ih =>
    rcases mem_cons.mp hmem with rfl | hmem
    · exact h.2.start_le
    · exact ih h.2 hmem

theorem FieldsInOrder.mono {longer : ℕ} (h : FieldsInOrder length start fields)
    (hle : length ≤ longer) : FieldsInOrder longer start fields := by
  induction fields generalizing start with
  | nil => exact le_trans h hle
  | cons head rest ih => exact ⟨h.1,ih h.2⟩

theorem length_writeFields_of_le (h : ∀ field ∈ fields, field.1+field.2.length ≤ block.length) :
    (writeFields block fields).length=block.length := by
  induction fields generalizing block with
  | nil => rfl
  | cons field fields ih =>
    have hfirst := length_writeAt (h field mem_cons_self)
    change (writeFields (writeAt block field.1 field.2) fields).length=block.length
    rw [ih,hfirst]
    intro other hother
    rw [hfirst]
    exact h other (mem_cons_of_mem _ hother)

theorem length_writeFields (h : FieldsInOrder block.length start fields) :
    (writeFields block fields).length=block.length :=
  length_writeFields_of_le fun _ hfield => h.mem_le hfield

theorem FieldsInOrder.tail (h : FieldsInOrder block.length start (field::fields)) :
    FieldsInOrder (writeAt block field.1 field.2).length (field.1+field.2.length) fields := by
  rw [length_writeAt h.2.start_le]
  exact h.2

section

variable (h : FieldsInOrder block.length start fields)
include h

theorem slice_writeFields_before (hbefore : offset+len ≤ start) :
    slice (writeFields block fields) offset len=slice block offset len := by
  induction fields generalizing block start with
  | nil => rfl
  | cons field rest ih =>
    have := h.1
    rw [writeFields,foldl_cons]
    exact (ih h.tail (by omega)).trans (slice_writeAt_before h.2.start_le (by omega))

theorem slice_writeFields_mem (hmem : field ∈ fields) :
    slice (writeFields block fields) field.1 field.2.length=field.2 := by
  induction fields generalizing block start with
  | nil => cases hmem
  | cons head rest ih =>
    have hend := h.2.start_le
    rw [writeFields,foldl_cons]
    rcases mem_cons.mp hmem with rfl | hmem
    · exact (slice_writeFields_before h.tail le_rfl).trans (slice_writeAt_same (by omega))
    · exact ih h.tail hmem

theorem slice_writeFields_after (hafter : ∀ field ∈ fields, field.1+field.2.length ≤ offset) :
    slice (writeFields block fields) offset len=slice block offset len := by
  induction fields generalizing block start with
  | nil => rfl
  | cons head rest ih =>
    rw [writeFields,foldl_cons]
    exact (ih h.tail fun f hf => hafter f (by simp [hf])).trans
      (slice_writeAt_after h.2.start_le (hafter head (by simp)))

end

theorem readU16Le_of_slice {x : UInt16} (h : slice block offset 2=u16Le x) :
    readU16Le block offset=x := by
  rw [readU16Le,h,u16Le,ofLeBytes_leBytes x.toNat_lt,UInt16.ofNat_toNat]

theorem readU32Le_of_slice {x : UInt32} (h : slice block offset 4=u32Le x) :
    readU32Le block offset=x := by
  rw [readU32Le,h,u32Le,ofLeBytes_leBytes x.toNat_lt,UInt32.ofNat_toNat]

theorem readU64Le_of_slice {x : UInt64} (h : slice block offset 8=u64Le x) :
    readU64Le block offset=x := by
  rw [readU64Le,h,u64Le,ofLeBytes_leBytes x.toNat_lt,UInt64.ofNat_toNat]

theorem FixedBytes.read_of_slice {b : FixedBytes n} (h : slice block offset n=b.bytes) :
    FixedBytes.read n block offset=b := by
  apply FixedBytes.ext
  rw [←h]
  have hlen : (slice block offset n).length=n := by rw [h,b.length_eq]
  apply ext_getElem (by simp [FixedBytes.read,hlen])
  intro i h1 h2
  have hi : i < n := by rw [hlen] at h2; exact h2
  have hget : (slice block offset n)[i]?=block[offset+i]? := by
    rw [slice,getElem?_take_of_lt hi,getElem?_drop]
  rw [getElem?_eq_getElem h2] at hget
  simp [FixedBytes.read,getD_eq_getElem?_getD,←hget]

theorem toNat_readU32Le (block : Bytes) (offset : ℕ) :
    (readU32Le block offset).toNat=ofLeBytes (slice block offset 4) := by
  have hlen : (slice block offset 4).length ≤ 4 := length_take_le _ _
  have hlt := ofLeBytes_lt (slice block offset 4)
  have hpow : 256^(slice block offset 4).length ≤ 256^4 := Nat.pow_le_pow_right (by decide) hlen
  exact UInt32.toNat_ofNat_of_lt' (lt_of_lt_of_le hlt hpow)

theorem slice_of_readU16Le {x : UInt16} (hlen : offset+2 ≤ block.length)
    (h : readU16Le block offset=x) : slice block offset 2=u16Le x := by
  have hslice := length_slice hlen
  have hlt : ofLeBytes (slice block offset 2) < 2^16 := by
    have hlt := ofLeBytes_lt (slice block offset 2)
    rwa [hslice] at hlt
  have hback := leBytes_ofLeBytes (slice block offset 2)
  rw [hslice] at hback
  rw [←h,u16Le,readU16Le,UInt16.toNat_ofNat_of_lt' hlt,hback]

theorem slice_of_readU64Le {x : UInt64} (hlen : offset+8 ≤ block.length)
    (h : readU64Le block offset=x) : slice block offset 8=u64Le x := by
  have hslice := length_slice hlen
  have hlt : ofLeBytes (slice block offset 8) < 2^64 := by
    have hlt := ofLeBytes_lt (slice block offset 8)
    rwa [hslice] at hlt
  have hback := leBytes_ofLeBytes (slice block offset 8)
  rw [hslice] at hback
  rw [←h,u64Le,readU64Le,UInt64.toNat_ofNat_of_lt' hlt,hback]

theorem slice_take_append (rest : Bytes) (h : offset+len ≤ n) (hn : n ≤ bytes.length) :
    slice (bytes.take n++rest) offset len=slice bytes offset len := by
  have htake : (bytes.take n).length=n := by rw [length_take,Nat.min_eq_left hn]
  rw [slice,slice,drop_append_of_le_length (by omega),take_append_of_le_length
    (by rw [length_drop]; omega),drop_take,take_take,Nat.min_eq_left (by omega)]

variable {a : Bytes}

theorem slice_append_left (b : Bytes) (h : offset+len ≤ a.length) :
    slice (a++b) offset len=slice a offset len := by
  rw [slice,slice,drop_append_of_le_length (by omega),
    take_append_of_le_length (by rw [length_drop]; omega)]

theorem slice_append_mid {b : Bytes} (c : Bytes) (ha : offset=a.length) (hb : len=b.length) :
    slice (a++b++c) offset len=b := by
  rw [slice,append_assoc,ha,drop_left,hb,take_left]

theorem ofLeBytes_le_of_forall₂ {b : Bytes} (h : List.Forall₂ (· ≤ ·) a b) :
    ofLeBytes a ≤ ofLeBytes b := by
  induction h with
  | nil => exact le_rfl
  | cons hbyte _ ih =>
    rw [ofLeBytes,ofLeBytes]
    have := UInt8.le_iff_toNat_le.mp hbyte
    omega

theorem forall₂_take_append_replicate (bytes : Bytes) (n : ℕ) :
    List.Forall₂ (· ≤ ·) (bytes.take n++replicate (bytes.length-n) 0) bytes := by
  induction bytes generalizing n with
  | nil => simp
  | cons byte rest ih =>
    have hrefl : byte ≤ byte := UInt8.le_iff_toNat_le.mpr le_rfl
    have hzero : (0 : UInt8) ≤ byte := UInt8.le_iff_toNat_le.mpr (Nat.zero_le _)
    cases n with
    | zero =>
      have h := ih 0
      rw [take_zero,nil_append,Nat.sub_zero] at h ⊢
      rw [length_cons,replicate_succ]
      exact List.Forall₂.cons hzero h
    | succ n =>
      rw [take_succ_cons,cons_append,length_cons,Nat.add_sub_add_right]
      exact List.Forall₂.cons hrefl (ih n)

end Remanence.Foundation
