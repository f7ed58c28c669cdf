import Remanence.Foundation.Bytes

/-!
# Deterministic CBOR items

An item starts with a head: a major type and a number in its shortest form. Readers consume a
byte string from the front. A writer is self-delimiting when the end of an item can be told from
its bytes alone.
-/

namespace Remanence.Foundation

open List

abbrev Get (α : Type) := StateT Bytes Option α

def utf8 (s : String) : Bytes := s.toUTF8.data.toList

theorem utf8_replicate (count : ℕ) :
    utf8 (String.ofList (replicate count 'x'))=replicate count 0x78 := by
  have hletter : String.utf8EncodeChar 'x'=[0x78] := by decide
  rw [utf8,String.toUTF8,String.toByteArray_ofList,List.utf8Encode,data_toByteArray]
  induction count with
  | zero => rfl
  | succ count ih =>
    rw [replicate_succ,flatMap_cons,hletter,replicate_succ,←ih]
    simp

/-- First byte of a head: major type and five further bits. -/
def headByte (major info : UInt8) : UInt8 := (major<<<5)|||info

/-- Head of an item, its number in shortest form. -/
def head (major : UInt8) (n : UInt64) : Bytes :=
  if n.toNat ≤ 23 then [headByte major n.toUInt8]
  else if n.toNat ≤ 255 then headByte major 24::beBytes 1 n.toNat
  else if n.toNat ≤ 65535 then headByte major 25::beBytes 2 n.toNat
  else if n.toNat ≤ 4294967295 then headByte major 26::beBytes 4 n.toNat
  else headByte major 27::beBytes 8 n.toNat

def readExact (n : ℕ) : Get Bytes := fun bytes =>
  if bytes.length < n then none else some (bytes.take n,bytes.drop n)

/-- Number of `len` bytes, refused below the least one that needs them. -/
def readNumber (len least : ℕ) : Get UInt64 := fun bytes =>
  match readExact len bytes with
  | none => none
  | some (digits,rest) =>
    if ofBeBytes digits < least then none else some (UInt64.ofNat (ofBeBytes digits),rest)

/-- Number announced by the five low bits of a first byte. -/
def readInfo (info : ℕ) : Get UInt64 := fun bytes =>
  if info ≤ 23 then some (UInt64.ofNat info,bytes)
  else if info=24 then readNumber 1 24 bytes
  else if info=25 then readNumber 2 256 bytes
  else if info=26 then readNumber 4 65536 bytes
  else if info=27 then readNumber 8 4294967296 bytes
  else none

def readHead : Get (UInt8×UInt64)
  | [] => none
  | b::rest => match readInfo (b&&&31).toNat rest with
    | none => none
    | some (n,rest) => some ((b>>>5,n),rest)

/-- Number of the next item, which must have the given major type. -/
def expect (major : UInt8) : Get UInt64 := do
  let (m,n) ← readHead
  if m≠major then failure
  return n

theorem headByte_split {major info : UInt8} (hm : major.toNat < 8) (hi : info.toNat < 32) :
    headByte major info>>>5=major ∧ headByte major info&&&31=info := by
  have hall : ∀ m : Fin 8, ∀ i : Fin 32,
      headByte (UInt8.ofNat m) (UInt8.ofNat i)>>>5=UInt8.ofNat m ∧
        headByte (UInt8.ofNat m) (UInt8.ofNat i)&&&31=UInt8.ofNat i := by
    decide +kernel
  have h := hall ⟨major.toNat,hm⟩ ⟨info.toNat,hi⟩
  simpa only [UInt8.ofNat_toNat] using h

theorem readExact_append (bytes rest : Bytes) :
    readExact bytes.length (bytes++rest)=some (bytes,rest) := by
  simp [readExact]

theorem readNumber_beBytes {len least : ℕ} {n : UInt64} (rest : Bytes) (hlt : n.toNat < 256^len)
    (hle : least ≤ n.toNat) : readNumber len least (beBytes len n.toNat++rest)=some (n,rest) := by
  have hread := readExact_append (beBytes len n.toNat) rest
  rw [length_beBytes] at hread
  unfold readNumber
  rw [hread]
  simp only [ofBeBytes_beBytes hlt,not_lt.mpr hle,if_false,UInt64.ofNat_toNat]

theorem readHead_head {major : UInt8} (hm : major.toNat < 8) (n : UInt64) (rest : Bytes) :
    readHead (head major n++rest)=some ((major,n),rest) := by
  have hn := n.toNat_lt
  -- one case for each width of the number
  have hstep : ∀ (info : UInt8) (digits : Bytes), info.toNat < 32 →
      readInfo info.toNat (digits++rest)=some (n,rest) →
      readHead (headByte major info::(digits++rest))=some ((major,n),rest) := by
    intro info digits hi hread
    obtain ⟨hmajor,hinfo⟩ := headByte_split hm hi
    simp only [readHead,hinfo,hread,hmajor]
  unfold head
  split
  · rename_i h
    have hto : n.toUInt8.toNat=n.toNat := by
      rw [UInt64.toNat_toUInt8]
      omega
    refine hstep n.toUInt8 [] (by omega) ?_
    simp only [readInfo,hto,h,if_true,nil_append,UInt64.ofNat_toNat]
  · split
    · refine hstep 24 (beBytes 1 n.toNat) (by decide) ?_
      change readNumber 1 24 (beBytes 1 n.toNat++rest)=_
      exact readNumber_beBytes rest (by omega) (by omega)
    · split
      · refine hstep 25 (beBytes 2 n.toNat) (by decide) ?_
        change readNumber 2 256 (beBytes 2 n.toNat++rest)=_
        exact readNumber_beBytes rest (by omega) (by omega)
      · split
        · refine hstep 26 (beBytes 4 n.toNat) (by decide) ?_
          change readNumber 4 65536 (beBytes 4 n.toNat++rest)=_
          exact readNumber_beBytes rest (by omega) (by omega)
        · refine hstep 27 (beBytes 8 n.toNat) (by decide) ?_
          have hlong : readInfo 27 (beBytes 8 n.toNat++rest)=
              readNumber 8 4294967296 (beBytes 8 n.toNat++rest) := by
            simp [readInfo]
          exact hlong.trans (readNumber_beBytes rest (by omega) (by omega))

theorem head_eq_cons (major : UInt8) (n : UInt64) :
    ∃ info rest, info.toNat < 32 ∧ head major n=headByte major info::rest := by
  unfold head
  split
  · rename_i h
    refine ⟨n.toUInt8,[],?_,rfl⟩
    rw [UInt64.toNat_toUInt8]
    omega
  · split
    · exact ⟨24,_,by decide,rfl⟩
    · split
      · exact ⟨25,_,by decide,rfl⟩
      · split
        · exact ⟨26,_,by decide,rfl⟩
        · exact ⟨27,_,by decide,rfl⟩

/-- A type with a writer, which may refuse a value, and a reader. -/
class Wire (α : Type) where
  put : α → Option Bytes
  get : Get α

def getUint (bits : ℕ) : Get UInt64 := do
  let n ← expect 0
  if n.toNat ≥ 2^bits then failure
  return n

instance : Wire UInt8 where
  put n := some (head 0 n.toUInt64)
  get := UInt64.toUInt8 <$> getUint 8

instance : Wire UInt16 where
  put n := some (head 0 n.toUInt64)
  get := UInt64.toUInt16 <$> getUint 16

instance : Wire UInt32 where
  put n := some (head 0 n.toUInt64)
  get := UInt64.toUInt32 <$> getUint 32

instance : Wire UInt64 where
  put n := some (head 0 n)
  get := expect 0

instance : Wire Bool where
  put b := some [if b then 0xf5 else 0xf4]
  get := do
    let (m,n) ← readHead
    if m=7 ∧ n=20 then return false
    else if m=7 ∧ n=21 then return true
    else failure

def nullByte : UInt8 := 0xf6

instance {α : Type} [Wire α] : Wire (Option α) where
  put
    | some a => Wire.put a
    | none => some [nullByte]
  get
    | [] => none
    | b::rest =>
      if b=nullByte then some (none,rest)
      else (Wire.get (b::rest)).map fun (a,rest) => (some a,rest)

/-- Byte string or text under its length; a length is a 64-bit number. -/
def putBytes (major : UInt8) (bytes : Bytes) : Option Bytes :=
  if bytes.length < 2^64 then some (head major (UInt64.ofNat bytes.length)++bytes) else none

instance {n : ℕ} : Wire (FixedBytes n) where
  put b := putBytes 2 b.bytes
  get := do
    let len ← expect 2
    if len≠UInt64.ofNat n then failure
    let bytes ← readExact n
    if h : bytes.length=n then return ⟨bytes,h⟩ else failure

/-- Byte string or text of a major type, refused above a limit. -/
def getBytes (limit : ℕ) (major : UInt8) : Get Bytes := do
  let len ← expect major
  if len.toNat > limit then failure
  readExact len.toNat

def putAll : List (Option Bytes) → Option Bytes
  | [] => some []
  | part::parts => do
    let x ← part
    let y ← putAll parts
    return x++y

def keyed : ℕ → List (Option Bytes) → List (Option Bytes)
  | _,[] => []
  | key,field::fields => Wire.put (UInt64.ofNat key)::field::keyed (key+1) fields

def putArray (items : List (Option Bytes)) : Option Bytes :=
  putAll (some (head 4 (UInt64.ofNat items.length))::items)

def putFields (fields : List (Option Bytes)) : Option Bytes :=
  putAll (some (head 5 (UInt64.ofNat fields.length))::keyed 0 fields)

def getSize (major : UInt8) (size : UInt64) : Get Unit := do
  let n ← expect major
  if n≠size then failure

def getField {α : Type} [Wire α] (key : UInt64) : Get α := do
  let k ← expect 0
  if k≠key then failure
  Wire.get

def getCode {α : Type} (all : List α) (code : α → UInt64) : Get α := do
  let n : UInt64 ← Wire.get
  match all.find? fun a => code a=n with
  | some a => return a
  | none => failure

/-- Every item starts with a byte other than the one of an absent value. -/
def NeverNull {α : Type} (put : α → Option Bytes) : Prop :=
  ∀ {a : α} {x : Bytes}, put a=some x → ∃ byte rest, x=byte::rest ∧ byte≠nullByte

theorem head_starts {major : UInt8} (hm : major.toNat < 7) (n : UInt64) (r : Bytes) :
    ∃ byte rest, head major n++r=byte::rest ∧ byte≠nullByte := by
  obtain ⟨info,tail,hi,hhead⟩ := head_eq_cons major n
  refine ⟨headByte major info,tail++r,by rw [hhead,cons_append],fun h => ?_⟩
  have hsplit := (headByte_split (lt_trans hm (by decide)) hi).1
  have hseven : nullByte>>>5=7 := by decide
  rw [h,hseven] at hsplit
  rw [←hsplit] at hm
  exact absurd hm (by decide)

theorem NeverNull.ofHead {α : Type} {put : α → Option Bytes} {code : α → UInt64}
    (hput : ∀ a, put a=some (head 0 (code a))) : NeverNull put := by
  intro a x h
  rw [hput,Option.some.injEq] at h
  have hzero : (0 : UInt8).toNat < 7 := by decide
  have hstart := head_starts hzero (code a) []
  rwa [append_nil,h] at hstart

theorem putAll_cons_eq_some {part : Option Bytes} {parts : List (Option Bytes)} {z : Bytes} :
    putAll (part::parts)=some z ↔ ∃ x y, part=some x ∧ putAll parts=some y ∧ z=x++y := by
  simp only [putAll,Option.bind_eq_bind,Option.bind_eq_some_iff,Option.pure_def, Option.some.injEq]
  constructor
  · rintro ⟨x,hx,y,hy,rfl⟩
    exact ⟨x,y,hx,hy,rfl⟩
  · rintro ⟨x,y,hx,hy,rfl⟩
    exact ⟨x,hx,y,hy,rfl⟩

theorem NeverNull.ofBytes {α : Type} {put : α → Option Bytes} {bytes : α → Bytes} {major : UInt8}
    (hm : major.toNat < 7) (hput : ∀ a, put a=putBytes major (bytes a)) : NeverNull put := by
  intro a x h
  rw [hput] at h
  unfold putBytes at h
  split at h
  · rw [Option.some.injEq] at h
    rw [←h]
    exact head_starts hm _ _
  · cases h

theorem NeverNull.ofFields {α : Type} {put : α → Option Bytes} {fields : α → List (Option Bytes)}
    (hput : ∀ a, put a=putFields (fields a)) : NeverNull put := by
  intro a x h
  rw [hput] at h
  obtain ⟨y,z,hy,-,rfl⟩ := putAll_cons_eq_some.mp h
  rw [Option.some.injEq] at hy
  rw [←hy]
  exact head_starts (by decide) _ _

end Remanence.Foundation
