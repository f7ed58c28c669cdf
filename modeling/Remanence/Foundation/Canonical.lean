import Remanence.Foundation.Cbor

/-!
# Canonical codecs

A reader is canonical when it accepts exactly the byte strings that the writer produces. Only
the reader enforces a limit on byte strings and texts. A structure is read and written field by
field, as a nested pair.
-/

namespace Remanence.Foundation

open List

variable {α β : Type}

variable {bytes rest : Bytes}

theorem get_bind {g : Get α} {k : α → Get β} {b : β} :
    (g >>= k) bytes=some (b,rest) ↔ ∃ a mid, g bytes=some (a,mid) ∧ k a mid=some (b,rest) := by
  change ((g bytes).bind fun r => k r.1 r.2)=_ ↔ _
  rw [Option.bind_eq_some_iff]
  constructor
  · rintro ⟨⟨a,mid⟩,hfirst,hrest⟩
    exact ⟨a,mid,hfirst,hrest⟩
  · rintro ⟨a,mid,hfirst,hrest⟩
    exact ⟨⟨a,mid⟩,hfirst,hrest⟩

theorem get_pure {a b : α} : (pure a : Get α) bytes=some (b,rest) ↔ a=b ∧ bytes=rest := by
  change some (a,bytes)=some (b,rest) ↔ _
  rw [Option.some.injEq,Prod.mk.injEq]

theorem get_map {g : Get α} {f : α → β} {b : β} :
    (f <$> g) bytes=some (b,rest) ↔ ∃ a, g bytes=some (a,rest) ∧ f a=b := by
  change ((g bytes).bind fun r => some (f r.1,r.2))=_ ↔ _
  rw [Option.bind_eq_some_iff]
  constructor
  · rintro ⟨⟨a,mid⟩,hfirst,hrest⟩
    cases hrest
    exact ⟨a,hfirst,rfl⟩
  · rintro ⟨a,hfirst,rfl⟩
    exact ⟨⟨a,rest⟩,hfirst,rfl⟩

theorem readExact_eq_some {n : ℕ} {bytes part rest : Bytes} :
    readExact n bytes=some (part,rest) ↔ part.length=n ∧ bytes=part++rest := by
  unfold readExact
  split_ifs with hshort
  · simp only [false_iff,not_and]
    rintro rfl rfl
    rw [length_append] at hshort
    omega
  · rw [Option.some.injEq,Prod.mk.injEq]
    constructor
    · rintro ⟨rfl,rfl⟩
      exact ⟨length_take_of_le (not_lt.mp hshort),(take_append_drop n bytes).symm⟩
    · rintro ⟨rfl,rfl⟩
      exact ⟨take_left,drop_left⟩

theorem headByte_parts (b : UInt8) :
    headByte (b>>>5) (b&&&31)=b ∧ (b>>>5).toNat < 8 ∧ (b&&&31).toNat < 32 := by
  have hall : ∀ n : Fin 256, headByte (UInt8.ofNat n>>>5) (UInt8.ofNat n&&&31)=UInt8.ofNat n ∧
      (UInt8.ofNat n>>>5).toNat < 8 ∧ (UInt8.ofNat n&&&31).toNat < 32 := by
    decide +kernel
  have h := hall ⟨b.toNat,b.toNat_lt⟩
  simpa only [UInt8.ofNat_toNat] using h

variable {n : UInt64}

theorem readNumber_eq_some {len least : ℕ} (hlen : len ≤ 8)
    (h : readNumber len least bytes=some (n,rest)) :
    least ≤ n.toNat ∧ n.toNat < 256^len ∧ bytes=beBytes len n.toNat++rest := by
  unfold readNumber at h
  split at h
  · cases h
  · rename_i digits tail hread
    obtain ⟨hdigits,rfl⟩ := readExact_eq_some.mp hread
    split_ifs at h with hleast
    cases h
    have hlt : ofBeBytes digits < 256^len := by
      rw [←hdigits,←length_reverse]
      exact ofLeBytes_lt digits.reverse
    have hword : 256^len ≤ 2^64 := by
      calc 256^len ≤ 256^8 := Nat.pow_le_pow_right (by decide) hlen
        _=2^64 := by decide
    have hvalue := UInt64.toNat_ofNat_of_lt' (lt_of_lt_of_le hlt hword)
    rw [hvalue]
    refine ⟨not_lt.mp hleast,hlt,?_⟩
    rw [←hdigits,beBytes_ofBeBytes]

variable {major : UInt8}

theorem readInfo_eq_some {info : ℕ} (h : readInfo info bytes=some (n,rest)) :
    headByte major (UInt8.ofNat info)::bytes=head major n++rest := by
  unfold readInfo at h
  unfold head
  split_ifs at h with hshort hone htwo hfour height
  · cases h
    have hvalue : (UInt64.ofNat info).toNat=info := UInt64.toNat_ofNat_of_lt' (by
      have : UInt64.size=2^64 := rfl
      omega)
    have hbyte : (UInt64.ofNat info).toUInt8=UInt8.ofNat info := by
      apply UInt8.toNat_inj.mp
      rw [UInt64.toNat_toUInt8,hvalue]
      exact (UInt8.toNat_ofNat' ..).symm
    rw [if_pos (by omega),hbyte]
    rfl
  · obtain ⟨hleast,hlt,rfl⟩ := readNumber_eq_some (by decide) h
    rw [if_neg (by omega),if_pos (by omega),hone]
    rfl
  · obtain ⟨hleast,hlt,rfl⟩ := readNumber_eq_some (by decide) h
    rw [if_neg (by omega),if_neg (by omega),if_pos (by omega),htwo]
    rfl
  · obtain ⟨hleast,hlt,rfl⟩ := readNumber_eq_some (by decide) h
    rw [if_neg (by omega),if_neg (by omega),if_neg (by omega),if_pos (by omega),hfour]
    rfl
  · obtain ⟨hleast,hlt,rfl⟩ := readNumber_eq_some (by decide) h
    rw [if_neg (by omega),if_neg (by omega),if_neg (by omega),if_neg (by omega),height]
    rfl

theorem readHead_eq_some :
    readHead bytes=some ((major,n),rest) ↔ major.toNat < 8 ∧ bytes=head major n++rest := by
  constructor
  · intro h
    cases bytes with
    | nil => cases h
    | cons b tail =>
      obtain ⟨hbyte,hmajor,-⟩ := headByte_parts b
      rw [readHead] at h
      cases hread : readInfo (b&&&31).toNat tail with
      | none =>
        rw [hread] at h
        cases h
      | some result =>
        rw [hread] at h
        cases h
        refine ⟨hmajor,?_⟩
        rw [←readInfo_eq_some hread,UInt8.ofNat_toNat,hbyte]
  · rintro ⟨hmajor,rfl⟩
    exact readHead_head hmajor n rest

theorem expect_eq_some (hmajor : major.toNat < 8) : expect major bytes=some
    (n,rest) ↔ bytes=head major n++rest := by
  unfold expect
  rw [get_bind]
  constructor
  · rintro ⟨⟨m,k⟩,mid,hread,hrest⟩
    obtain ⟨-,rfl⟩ := readHead_eq_some.mp hread
    dsimp only at hrest
    split_ifs at hrest with hother
    · cases hrest
    · rw [not_not] at hother
      obtain ⟨rfl,rfl⟩ := get_pure.mp hrest
      rw [hother]
  · rintro rfl
    refine ⟨(major,n),rest,readHead_head hmajor n rest,?_⟩
    dsimp only
    rw [if_neg (not_not.mpr rfl)]
    rfl

variable {a : α}

/-- A head whose number may be refused, and what is read behind it. -/
theorem expect_unless (hmajor : major.toNat < 8) {p : UInt64 → Prop}
    [DecidablePred p] {g : UInt64 → Get α} :
    (do
      let n ← expect major
      if p n then failure
      g n : Get α) bytes=some (a,rest) ↔
      ∃ n mid, ¬p n ∧ bytes=head major n++mid ∧ g n mid=some (a,rest) := by
  rw [get_bind]
  constructor
  · rintro ⟨n,mid,hread,hrest⟩
    split_ifs at hrest with hp
    · cases hrest
    · exact ⟨n,mid,hp,(expect_eq_some hmajor).mp hread,hrest⟩
  · rintro ⟨n,mid,hp,hbytes,hrest⟩
    refine ⟨n,mid,(expect_eq_some hmajor).mpr hbytes,?_⟩
    rwa [if_neg hp]

/-- A head of one number, and what is read behind it. -/
theorem expect_only (hmajor : major.toNat < 8) {size : UInt64} {g : Get α} : (do
      let n ← expect major
      if n≠size then failure
      g : Get α) bytes=some (a,rest) ↔
      ∃ mid, bytes=head major size++mid ∧ g mid=some (a,rest) := by
  refine (expect_unless hmajor).trans ⟨?_,fun ⟨mid,h⟩ => ⟨size,mid,not_not.mpr rfl,h⟩⟩
  rintro ⟨n,mid,hn,h⟩
  rw [not_not] at hn
  exact ⟨mid,hn ▸ h⟩

theorem getSize_eq_some (hmajor : major.toNat < 8) {size : UInt64} :
    getSize major size bytes=some ((),rest) ↔ bytes=head major size++rest := by
  rw [show getSize major size=(do
    let n ← expect major
    if n≠size then failure
    pure ()) from rfl,expect_only hmajor]
  simp [get_pure]

/-- The reader accepts exactly what the writer produces of the values that fit. -/
class Canonical (limit : ℕ) (α : Type) [Wire α] where
  fits : α → Prop
  get_iff : ∀ {bytes rest : Bytes} {a : α}, Wire.get bytes=some (a,rest) ↔
    fits a ∧ ∃ x, Wire.put a=some x ∧ bytes=x++rest
  fits_of_le : ∀ {a : α} {x : Bytes}, Wire.put a=some x → x.length ≤ limit → fits a

theorem Canonical.written (limit : ℕ) [Wire α] [Canonical limit α]
    (h : Wire.get bytes=some (a,rest)) :
    Canonical.fits limit a ∧ ∃ x, Wire.put a=some x ∧ bytes=x++rest := Canonical.get_iff.mp h

theorem Canonical.put_append_inj (limit : ℕ) [Wire α] [Canonical limit α] {a b : α}
    (ha : Canonical.fits limit a) (hb : Canonical.fits limit b) {x y r t : Bytes}
    (hx : Wire.put a=some x) (hy : Wire.put b=some y) (he : x++r=y++t) : a=b ∧ r=t := by
  have hread : Wire.get (x++r)=some (a,r) := Canonical.get_iff.mpr ⟨ha,x,hx,rfl⟩
  rw [Canonical.get_iff.mpr ⟨hb,y,hy,he⟩,Option.some.injEq,Prod.mk.injEq] at hread
  exact ⟨hread.1.symm,hread.2.symm⟩

variable {limit : ℕ}

/-- Codec whose writer refuses no value. -/
@[reducible] def canonicalTotal [Wire α] (enc : α → Bytes) (hput : ∀ a : α, Wire.put a=some (enc a))
    (hget : ∀ {bytes rest : Bytes} {a : α}, Wire.get bytes=some (a,rest) ↔ bytes=enc a++rest) :
    Canonical limit α where
  fits _ := True
  get_iff := by
    intro bytes rest a
    simp [hget,hput]
  fits_of_le := fun _ _ => trivial

/-- Codec of a number below a power of two. -/
@[reducible] def canonicalUint [Wire α] (bits : ℕ) (toWord : α → UInt64) (ofWord : UInt64 → α)
    (hto : ∀ a, ofWord (toWord a)=a) (hof : ∀ n, n.toNat < 2^bits → toWord (ofWord n)=n)
    (hlt : ∀ a, (toWord a).toNat < 2^bits) (hput : ∀ a : α, Wire.put a=some (head 0 (toWord a)))
    (hget : (Wire.get : Get α)=ofWord <$> getUint bits) : Canonical limit α :=
  canonicalTotal (fun a => head 0 (toWord a)) hput <| by
    intro bytes rest a
    rw [hget,get_map]
    constructor
    · rintro ⟨n,hread,rfl⟩
      obtain ⟨n,mid,hlarge,rfl,hrest⟩ := (expect_unless (by decide)).mp hread
      obtain ⟨rfl,rfl⟩ := get_pure.mp hrest
      rw [hof n (not_le.mp hlarge)]
    · rintro rfl
      exact ⟨toWord a,(expect_unless (by decide)).mpr
        ⟨toWord a,rest,not_le.mpr (hlt a),rfl,rfl⟩,hto a⟩

instance : Canonical limit UInt8 :=
  canonicalUint 8 UInt8.toUInt64 UInt64.toUInt8 (fun a => by simp) (fun n h => by
      apply UInt64.toNat_inj.mp
      rw [UInt8.toNat_toUInt64,UInt64.toNat_toUInt8,Nat.mod_eq_of_lt h])
    (fun a => by rw [UInt8.toNat_toUInt64]; exact a.toNat_lt) (fun _ => rfl) rfl

instance : Canonical limit UInt16 :=
  canonicalUint 16 UInt16.toUInt64 UInt64.toUInt16 (fun a => by simp) (fun n h => by
      apply UInt64.toNat_inj.mp
      rw [UInt16.toNat_toUInt64,UInt64.toNat_toUInt16,Nat.mod_eq_of_lt h])
    (fun a => by rw [UInt16.toNat_toUInt64]; exact a.toNat_lt) (fun _ => rfl) rfl

instance : Canonical limit UInt32 :=
  canonicalUint 32 UInt32.toUInt64 UInt64.toUInt32 (fun a => by simp) (fun n h => by
      apply UInt64.toNat_inj.mp
      rw [UInt32.toNat_toUInt64,UInt64.toNat_toUInt32,Nat.mod_eq_of_lt h])
    (fun a => by rw [UInt32.toNat_toUInt64]; exact a.toNat_lt) (fun _ => rfl) rfl

instance : Canonical limit UInt64 :=
  canonicalTotal (head 0) (fun _ => rfl) (expect_eq_some (by decide))

instance : Canonical limit Bool :=
  canonicalTotal (fun b => [if b then 0xf5 else 0xf4]) (fun _ => rfl) <| by
    intro bytes rest a
    have hfalse : head 7 20=[0xf4] := by decide
    have htrue : head 7 21=[0xf5] := by decide
    rw [show (Wire.get : Get Bool)=(do
      let (m,n) ← readHead
      if m=7 ∧ n=20 then return false
      else if m=7 ∧ n=21 then return true
      else failure) from rfl,get_bind]
    constructor
    · rintro ⟨⟨m,n⟩,mid,hread,hrest⟩
      obtain ⟨-,rfl⟩ := readHead_eq_some.mp hread
      dsimp only at hrest
      split_ifs at hrest with hno hyes
      · obtain ⟨rfl,rfl⟩ := get_pure.mp hrest
        rw [hno.1,hno.2,hfalse]
        rfl
      · obtain ⟨rfl,rfl⟩ := get_pure.mp hrest
        rw [hyes.1,hyes.2,htrue]
        rfl
      · cases hrest
    · rintro rfl
      cases a with
      | false => exact ⟨(7,20),rest,readHead_eq_some.mpr ⟨by decide,by rw [hfalse]; rfl⟩,rfl⟩
      | true => exact ⟨(7,21),rest,readHead_eq_some.mpr ⟨by decide,by rw [htrue]; rfl⟩,rfl⟩

class NonNull (α : Type) [Wire α] : Prop where
  /-- No item starts with the byte of an absent value. -/
  neverNull : NeverNull (Wire.put (α := α))

instance : NonNull UInt64 := ⟨@NeverNull.ofHead UInt64 Wire.put id fun _ => rfl⟩

instance {n : ℕ} : NonNull (FixedBytes n) :=
  ⟨@NeverNull.ofBytes _ Wire.put FixedBytes.bytes 2 (by decide) fun _ => rfl⟩

theorem put_ne_null [Wire α] [NonNull α] {x rest tail : Bytes} (hx : Wire.put a=some x) :
    x++rest≠nullByte::tail := by
  obtain ⟨byte,more,rfl,hne⟩ := NonNull.neverNull hx
  intro h
  exact hne (List.cons.inj h).1

theorem getOption_cons [Wire α] (b : UInt8) (tail : Bytes) : (Wire.get : Get (Option α)) (b::tail)=
    (if b=nullByte then some (none,tail)
      else (Wire.get (b::tail)).map fun (a,rest) => (some a,rest)) := rfl

instance [Wire α] [Canonical limit α] [NonNull α] : Canonical limit (Option α) where
  fits o := ∀ a ∈ o, Canonical.fits limit a
  get_iff := by
    intro bytes rest o
    cases o with
    | none =>
      have hput : (∃ x, Wire.put (none : Option α)=some x ∧ bytes=x++rest) ↔ bytes=nullByte::rest := by
        constructor
        · rintro ⟨x,hx,rfl⟩
          cases hx
          rfl
        · rintro rfl
          exact ⟨_,rfl,rfl⟩
      rw [hput]
      cases bytes with
      | nil => exact ⟨fun h => (by cases h),fun h => (by cases h.2)⟩
      | cons b tail =>
        rw [getOption_cons]
        split_ifs with hnull
        · simp [hnull]
        · simp [hnull]
    | some a =>
      have hfits : (∀ b ∈ some a, Canonical.fits limit b) ↔ Canonical.fits limit a := by simp
      rw [hfits]
      change _ ↔ _ ∧ ∃ x, Wire.put a=some x ∧ bytes=x++rest
      refine Iff.trans ?_ Canonical.get_iff
      cases bytes with
      | nil =>
        refine ⟨fun h => (by cases h),fun h => ?_⟩
        obtain ⟨-,x,hx,hnil⟩ := Canonical.written limit h
        obtain ⟨byte,tail,rfl,-⟩ := NonNull.neverNull hx
        cases hnil
      | cons b tail =>
        rw [getOption_cons]
        split_ifs with hnull
        · refine ⟨fun h => (by cases h),fun h => ?_⟩
          obtain ⟨-,x,hx,hcons⟩ := Canonical.written limit h
          rw [hnull] at hcons
          exact absurd hcons.symm (put_ne_null hx)
        · cases (Wire.get : Get α) (b::tail) with
          | none => exact ⟨fun h => (by cases h),fun h => (by cases h)⟩
          | some result => simp [Prod.ext_iff]
  fits_of_le := by
    intro o x hx hle a ha
    cases ha
    exact Canonical.fits_of_le hx hle

theorem putBytes_eq_some {bytes x : Bytes} : putBytes major bytes=some x ↔
      bytes.length < 2^64 ∧ x=head major (UInt64.ofNat bytes.length)++bytes := by
  unfold putBytes
  split_ifs with hlt
  · rw [Option.some.injEq]
    exact ⟨fun h => ⟨hlt,h.symm⟩,fun h => h.2.symm⟩
  · exact ⟨fun h => (by cases h),fun h => absurd h.1 hlt⟩

theorem getBytes_eq_some (hmajor : major.toNat < 8) (hlimit : limit < 2^64)
    {bytes part rest : Bytes} :
    getBytes limit major bytes=some (part,rest) ↔
      part.length ≤ limit ∧ ∃ x, putBytes major part=some x ∧ bytes=x++rest := by
  refine (expect_unless hmajor).trans ⟨?_,?_⟩
  · rintro ⟨n,mid,hlarge,rfl,hrest⟩
    obtain ⟨hlength,rfl⟩ := readExact_eq_some.mp hrest
    refine ⟨by omega,_,putBytes_eq_some.mpr ⟨by omega,rfl⟩,?_⟩
    rw [hlength,UInt64.ofNat_toNat,append_assoc]
  · rintro ⟨hle,x,hx,rfl⟩
    obtain ⟨hlt,rfl⟩ := putBytes_eq_some.mp hx
    have hvalue := UInt64.toNat_ofNat_of_lt' hlt
    exact ⟨UInt64.ofNat part.length,part++rest,by omega,append_assoc ..,
      readExact_eq_some.mpr ⟨hvalue.symm,rfl⟩⟩

theorem getFixed_eq_some {n : ℕ} (hn : n < 2^64) {b : FixedBytes n} :
    Wire.get bytes=some (b,rest) ↔ ∃ x, Wire.put b=some x ∧ bytes=x++rest := by
  refine (expect_only (by decide)).trans ⟨?_,?_⟩
  · rintro ⟨mid,rfl,hrest⟩
    obtain ⟨part,tail,hpart,hlast⟩ := get_bind.mp hrest
    obtain ⟨hlength,rfl⟩ := readExact_eq_some.mp hpart
    rw [dif_pos hlength] at hlast
    obtain ⟨rfl,rfl⟩ := get_pure.mp hlast
    refine ⟨_,putBytes_eq_some.mpr ⟨by rw [hlength]; exact hn,rfl⟩,?_⟩
    rw [hlength,append_assoc]
  · rintro ⟨x,hx,rfl⟩
    obtain ⟨-,rfl⟩ := putBytes_eq_some.mp hx
    refine ⟨b.bytes++rest,by rw [b.length_eq,append_assoc],get_bind.mpr
      ⟨b.bytes,rest,readExact_eq_some.mpr ⟨b.length_eq,rfl⟩,?_⟩⟩
    rw [dif_pos b.length_eq]
    rfl

theorem fromUTF8_eq_some {bytes : Bytes} {s : String} :
    String.fromUTF8? ⟨bytes.toArray⟩=some s ↔ utf8 s=bytes := by
  unfold String.fromUTF8? utf8
  split_ifs with hvalid
  · rw [Option.some.injEq]
    constructor
    · rintro rfl
      rfl
    · rintro rfl
      rfl
  · refine ⟨fun h => (by cases h),?_⟩
    rintro rfl
    exact absurd s.isValidUTF8 hvalid

/-- A nested pair as a sequence of fields. -/
class Fields (α : Type) where
  count : ℕ
  parts : α → List (Option Bytes)
  items : Get α
  entries : ℕ → Get α

instance : Fields Unit where
  count := 0
  parts _ := []
  items := return ()
  entries _ := return ()

instance [Wire α] [Fields β] : Fields (α×β) where
  count := Fields.count β+1
  parts p := Wire.put p.1::Fields.parts p.2
  items := do
    let a ← Wire.get
    let b ← Fields.items
    return (a,b)
  entries key := do
    let a ← getField (UInt64.ofNat key)
    let b ← Fields.entries (key+1)
    return (a,b)

/-- The reader of fields accepts exactly what the writer produces. -/
class CanonicalFields (limit : ℕ) (α : Type) [Fields α] where
  fits : α → Prop
  length_parts : ∀ a : α, (Fields.parts a).length=Fields.count α
  items_iff : ∀ {bytes rest : Bytes} {a : α}, Fields.items bytes=some (a,rest) ↔
    fits a ∧ ∃ x, putAll (Fields.parts a)=some x ∧ bytes=x++rest
  entries_iff : ∀ {key : ℕ} {bytes rest : Bytes} {a : α}, Fields.entries key bytes=some (a,rest) ↔
    fits a ∧ ∃ x, putAll (keyed key (Fields.parts a))=some x ∧ bytes=x++rest
  fits_of_items_le : ∀ {a : α} {x : Bytes}, putAll (Fields.parts a)=some x → x.length ≤ limit → fits a
  fits_of_entries_le : ∀ {key : ℕ} {a : α} {x : Bytes},
    putAll (keyed key (Fields.parts a))=some x → x.length ≤ limit → fits a

theorem CanonicalFields.written_items (limit : ℕ) [Fields α] [CanonicalFields limit α]
    (h : Fields.items bytes=some (a,rest)) :
    CanonicalFields.fits limit a ∧ ∃ x, putAll (Fields.parts a)=some x ∧ bytes=x++rest :=
  CanonicalFields.items_iff.mp h

theorem CanonicalFields.written_entries (limit : ℕ) [Fields α] [CanonicalFields limit α] {key : ℕ}
    (h : Fields.entries key bytes=some (a,rest)) :
    CanonicalFields.fits limit a ∧ ∃ x, putAll (keyed key (Fields.parts a))=some x ∧ bytes=x++rest :=
  CanonicalFields.entries_iff.mp h

theorem pure_eq_some {a b : α} : (pure a : Get α) bytes=some (b,rest) ↔
    a=b ∧ ∃ x, putAll []=some x ∧ bytes=x++rest := by
  rw [get_pure]
  constructor
  · rintro ⟨rfl,rfl⟩
    exact ⟨rfl,[],rfl,rfl⟩
  · rintro ⟨rfl,x,hx,rfl⟩
    cases hx
    exact ⟨rfl,rfl⟩

instance : CanonicalFields limit Unit where
  fits _ := True
  length_parts _ := rfl
  items_iff := pure_eq_some.trans (and_congr_left' (iff_of_true rfl trivial))
  entries_iff := pure_eq_some.trans (and_congr_left' (iff_of_true rfl trivial))
  fits_of_items_le := fun _ _ => trivial
  fits_of_entries_le := fun _ _ => trivial

theorem getField_eq_some (limit : ℕ) [Wire α] [Canonical limit α] {key : UInt64} :
    getField key bytes=some (a,rest) ↔
      Canonical.fits limit a ∧ ∃ x, Wire.put a=some x ∧ bytes=head 0 key++x++rest := by
  refine (expect_only (by decide)).trans ⟨?_,?_⟩
  · rintro ⟨mid,rfl,hrest⟩
    obtain ⟨hfits,x,hx,rfl⟩ := Canonical.written limit hrest
    exact ⟨hfits,x,hx,(append_assoc ..).symm⟩
  · rintro ⟨hfits,x,hx,rfl⟩
    exact ⟨x++rest,append_assoc ..,Canonical.get_iff.mpr ⟨hfits,x,hx,rfl⟩⟩

instance [Wire α] [Canonical limit α] [Fields β] [CanonicalFields limit β] :
    CanonicalFields limit (α×β) where
  fits p := Canonical.fits limit p.1 ∧ CanonicalFields.fits limit p.2
  length_parts p := congrArg (·+1) (CanonicalFields.length_parts limit p.2)
  items_iff := by
    rintro bytes rest ⟨a,b⟩
    rw [show (Fields.items : Get (α×β))=(do
      let a ← Wire.get
      let b ← Fields.items
      return (a,b)) from rfl]
    simp only [get_bind,get_pure]
    constructor
    · rintro ⟨a',mid,hfirst,b',end',hrest,hpair,rfl⟩
      obtain ⟨rfl,rfl⟩ := Prod.mk.inj hpair
      obtain ⟨hfits,x,hx,rfl⟩ := Canonical.written limit hfirst
      obtain ⟨hmore,y,hy,rfl⟩ := CanonicalFields.written_items limit hrest
      exact ⟨⟨hfits,hmore⟩,x++y,putAll_cons_eq_some.mpr ⟨x,y,hx,hy,rfl⟩,(append_assoc ..).symm⟩
    · rintro ⟨⟨hfits,hmore⟩,z,hz,rfl⟩
      obtain ⟨x,y,hx,hy,rfl⟩ := putAll_cons_eq_some.mp hz
      exact ⟨a,y++rest,Canonical.get_iff.mpr ⟨hfits,x,hx,append_assoc ..⟩,b,rest,
        CanonicalFields.items_iff.mpr ⟨hmore,y,hy,rfl⟩,rfl,rfl⟩
  entries_iff := by
    rintro key bytes rest ⟨a,b⟩
    rw [show (Fields.entries key : Get (α×β))=(do
      let a ← getField (UInt64.ofNat key)
      let b ← Fields.entries (key+1)
      return (a,b)) from rfl]
    simp only [get_bind,get_pure]
    constructor
    · rintro ⟨a',mid,hfirst,b',end',hrest,hpair,rfl⟩
      obtain ⟨rfl,rfl⟩ := Prod.mk.inj hpair
      obtain ⟨hfits,x,hx,rfl⟩ := (getField_eq_some limit).mp hfirst
      obtain ⟨hmore,y,hy,rfl⟩ := CanonicalFields.written_entries limit hrest
      refine ⟨⟨hfits,hmore⟩,head 0 (UInt64.ofNat key)++(x++y),putAll_cons_eq_some.mpr
        ⟨_,x++y,rfl,putAll_cons_eq_some.mpr ⟨x,y,hx,hy,rfl⟩,rfl⟩,?_⟩
      simp only [append_assoc]
    · rintro ⟨⟨hfits,hmore⟩,z,hz,rfl⟩
      obtain ⟨w,v,hw,hv,rfl⟩ := putAll_cons_eq_some.mp hz
      obtain ⟨x,y,hx,hy,rfl⟩ := putAll_cons_eq_some.mp hv
      cases hw
      refine ⟨a,y++rest,(getField_eq_some limit).mpr ⟨hfits,x,hx,?_⟩,b,rest,
        CanonicalFields.entries_iff.mpr ⟨hmore,y,hy,rfl⟩,rfl,rfl⟩
      simp only [append_assoc]
  fits_of_items_le := by
    intro p z hz hle
    obtain ⟨x,y,hx,hy,rfl⟩ := putAll_cons_eq_some.mp hz
    rw [length_append] at hle
    exact ⟨Canonical.fits_of_le hx (by omega),CanonicalFields.fits_of_items_le hy (by omega)⟩
  fits_of_entries_le := by
    intro key p z hz hle
    obtain ⟨w,v,-,hv,rfl⟩ := putAll_cons_eq_some.mp hz
    obtain ⟨x,y,hx,hy,rfl⟩ := putAll_cons_eq_some.mp hv
    simp only [length_append] at hle
    exact ⟨Canonical.fits_of_le hx (by omega),CanonicalFields.fits_of_entries_le hy (by omega)⟩

theorem array_eq_some (limit : ℕ) [Fields α] [CanonicalFields limit α] :
    (∃ mid, bytes=head 4 (UInt64.ofNat (Fields.count α))++mid ∧ Fields.items mid=some (a,rest)) ↔
      CanonicalFields.fits limit a ∧ ∃ z, putArray (Fields.parts a)=some z ∧ bytes=z++rest := by
  have hsize : UInt64.ofNat (Fields.parts a).length=UInt64.ofNat (Fields.count α) := by
    rw [CanonicalFields.length_parts limit]
  constructor
  · rintro ⟨mid,rfl,hitems⟩
    obtain ⟨hfits,x,hx,rfl⟩ := CanonicalFields.written_items limit hitems
    refine ⟨hfits,_,putAll_cons_eq_some.mpr ⟨_,x,rfl,hx,rfl⟩,?_⟩
    rw [hsize,append_assoc]
  · rintro ⟨hfits,z,hz,rfl⟩
    obtain ⟨w,x,hw,hx,rfl⟩ := putAll_cons_eq_some.mp hz
    cases hw
    refine ⟨x++rest,?_,CanonicalFields.items_iff.mpr ⟨hfits,x,hx,rfl⟩⟩
    rw [hsize,append_assoc]

theorem fits_of_array_le [Fields α] [CanonicalFields limit α] {z : Bytes}
    (hz : putArray (Fields.parts a)=some z) (hle : z.length ≤ limit) : CanonicalFields.fits limit a := by
  obtain ⟨w,x,-,hx,rfl⟩ := putAll_cons_eq_some.mp hz
  rw [length_append] at hle
  exact CanonicalFields.fits_of_items_le hx (by omega)

@[reducible] def canonicalOfFields [Wire α] [Fields β] [CanonicalFields limit β] (split : α → β)
    (build : β → α) (hsplit : ∀ a, build (split a)=a := by intro; rfl)
    (hbuild : ∀ b, split (build b)=b := by intro; rfl)
    (hput : ∀ a : α, Wire.put a=putFields (Fields.parts (split a)) := by intro; rfl)
    (hget : (Wire.get : Get α)=(do
      getSize 5 (UInt64.ofNat (Fields.count β))
      let b ← Fields.entries 0
      return build b) := by simp only [Fields.entries,bind_assoc,pure_bind]; rfl) :
    Canonical limit α where
  fits a := CanonicalFields.fits limit (split a)
  get_iff := by
    intro bytes rest a
    have hsize : UInt64.ofNat (Fields.parts (split a)).length=UInt64.ofNat (Fields.count β) := by
      rw [CanonicalFields.length_parts limit]
    rw [hget,hput]
    simp only [get_bind,get_pure]
    constructor
    · rintro ⟨_,mid,hfirst,b,end',hrest,rfl,rfl⟩
      obtain rfl := (getSize_eq_some (by decide)).mp hfirst
      obtain ⟨hfits,x,hx,rfl⟩ := CanonicalFields.written_entries limit hrest
      rw [hbuild] at hsize ⊢
      refine ⟨hfits,_,putAll_cons_eq_some.mpr ⟨_,x,rfl,hx,rfl⟩,?_⟩
      rw [hsize,append_assoc]
    · rintro ⟨hfits,z,hz,rfl⟩
      obtain ⟨w,x,hw,hx,rfl⟩ := putAll_cons_eq_some.mp hz
      cases hw
      refine ⟨(),x++rest,(getSize_eq_some (by decide)).mpr ?_,split a,rest,
        CanonicalFields.entries_iff.mpr ⟨hfits,x,hx,rfl⟩,hsplit a,rfl⟩
      rw [hsize,append_assoc]
  fits_of_le := by
    intro a z hz hle
    rw [hput] at hz
    obtain ⟨w,x,-,hx,rfl⟩ := putAll_cons_eq_some.mp hz
    rw [length_append] at hle
    exact CanonicalFields.fits_of_entries_le hx (by omega)

@[reducible] def canonicalOfItems [Wire α] [Fields β] [CanonicalFields limit β] (split : α → β)
    (build : β → α) (hsplit : ∀ a, build (split a)=a) (hbuild : ∀ b, split (build b)=b)
    (hput : ∀ a : α, Wire.put a=putArray (Fields.parts (split a)))
    (hget : (Wire.get : Get α)=(do
      getSize 4 (UInt64.ofNat (Fields.count β))
      let b ← Fields.items
      return build b)) : Canonical limit α where
  fits a := CanonicalFields.fits limit (split a)
  get_iff := by
    intro bytes rest a
    rw [hget,hput]
    simp only [get_bind,get_pure]
    constructor
    · rintro ⟨_,mid,hfirst,b,end',hrest,rfl,rfl⟩
      rw [hbuild]
      exact (array_eq_some limit).mp ⟨mid,(getSize_eq_some (by decide)).mp hfirst,hrest⟩
    · intro h
      obtain ⟨mid,hbytes,hitems⟩ := (array_eq_some limit).mpr h
      exact ⟨(),mid,(getSize_eq_some (by decide)).mpr hbytes,split a,rest,hitems,hsplit a,rfl⟩
  fits_of_le := by
    intro a z hz hle
    rw [hput] at hz
    exact fits_of_array_le hz hle

theorem getCode_eq_some {all : List α} {code : α → UInt64} (hall : ∀ a, a ∈ all)
    (hcode : Function.Injective code) :
    getCode all code bytes=some (a,rest) ↔ bytes=head 0 (code a)++rest := by
  unfold getCode
  rw [get_bind]
  constructor
  · rintro ⟨n,mid,hread,hrest⟩
    obtain rfl := (expect_eq_some (by decide)).mp hread
    cases hfind : all.find? fun a => code a=n with
    | none =>
      rw [hfind] at hrest
      cases hrest
    | some b =>
      rw [hfind] at hrest
      obtain ⟨rfl,rfl⟩ := get_pure.mp hrest
      have hfound := find?_some hfind
      rw [of_decide_eq_true hfound]
  · rintro rfl
    refine ⟨code a,rest,(expect_eq_some (by decide)).mpr rfl,?_⟩
    cases hfind : all.find? fun b => code b=code a with
    | none => exact absurd (find?_eq_none.mp hfind a (hall a)) (by simp)
    | some b =>
      have hfound := find?_some hfind
      rw [hcode (of_decide_eq_true hfound)]
      rfl

/-- A value that is written as its number. -/
@[reducible] def canonicalCode [Wire α] (all : List α) (code : α → UInt64)
    (hall : ∀ a, a ∈ all := by intro a; cases a <;> decide)
    (hcode : Function.Injective code := by intro a b; cases a <;> cases b <;> decide)
    (hput : ∀ a : α, Wire.put a=some (head 0 (code a)) := by intro; rfl)
    (hget : (Wire.get : Get α)=getCode all code := by rfl) : Canonical limit α :=
  canonicalTotal (fun a => head 0 (code a)) hput <| by
    rw [hget]
    exact getCode_eq_some hall hcode

end Remanence.Foundation
