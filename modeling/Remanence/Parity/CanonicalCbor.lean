import Remanence.Ciborium
import Remanence.Foundation.Cbor
import Remanence.Foundation.Checked

/-!
# Canonical CBOR payloads

A payload is read by the library, its shape is checked, and it must be what
the library writes for the value. Map keys are integers in the order of their
encodings, shorter ones first.
-/

namespace Remanence.Parity

open Foundation List

def deterministicIntegerEncoding (value : ℤ) : Bytes :=
  if 0 ≤ value then head 0 (UInt64.ofNat value.toNat) else head 1 (UInt64.ofNat (-1-value).toNat)

structure IntegerMapKeyTracker where
  previous : Option (ℤ×Bytes)
  seen : List ℤ

def IntegerMapKeyTracker.default : IntegerMapKeyTracker := ⟨none,[]⟩

def IntegerMapKeyTracker.next (tracker : IntegerMapKeyTracker) (key : CborValue) (context : String) :
    Except String (IntegerMapKeyTracker×ℤ) :=
  match key with
  | .integer key => do
    rejectIf (key ∈ tracker.seen) s!"{context} contains duplicate CBOR map key {key}"
    let encoded := deterministicIntegerEncoding key
    match tracker.previous with
    | some (previous,previousEncoded) =>
      rejectIf (encoded.length < previousEncoded.length ∨
          encoded.length=previousEncoded.length ∧ encoded ≤ previousEncoded)
        s!"{context} CBOR map key {key} is not in deterministic order after key {previous}"
    | none => pure ()
    return (⟨some (key,encoded),key::tracker.seen⟩,key)
  | _ => .error s!"{context} contains non-integer CBOR map key"

mutual

/-- Permitted types and the key order of every map. -/
def validateCanonicalCborShape (label : String) : CborValue → Except String Unit
  | .integer _ | .bytes _ | .text _ | .bool _ | .null => .ok ()
  | .array values => validateShapeItems label values
  | .map entries => validateShapeEntries label .default entries
  | .float _ => .error s!"{label} contains a forbidden CBOR float"
  | .tag _ _ => .error s!"{label} contains a forbidden CBOR tag"

def validateShapeItems (label : String) : List CborValue → Except String Unit
  | [] => .ok ()
  | value::values => do
    validateCanonicalCborShape label value
    validateShapeItems label values

def validateShapeEntries (label : String) (keyOrder : IntegerMapKeyTracker) :
    List (CborValue×CborValue) → Except String Unit
  | [] => .ok ()
  | (key,value)::entries => do
    let (keyOrder,_) ← keyOrder.next key label
    validateCanonicalCborShape label value
    validateShapeEntries label keyOrder entries

end

/-- One value that fills its extent in its only permitted encoding. -/
def decodeCanonicalCborValue (cbor : Ciborium) (bytes : Bytes) (context : String) :
    Except String CborValue := do
  let (value,position) ← (cbor.fromReader bytes).mapError
    fun error => s!"{context} CBOR decode failed: {error}"
  rejectIf (position≠bytes.length)
    s!"{context} CBOR consumed {position} of {bytes.length} encoded bytes"
  validateCanonicalCborShape context value
  let canonical ← (cbor.intoWriter value).mapError
    fun error => s!"{context} CBOR re-encode failed: {error}"
  rejectIf (canonical≠bytes) s!"{context} CBOR is not the deterministic canonical encoding"
  return value

def IntegerMapKeyTracker.acceptKeys (tracker : IntegerMapKeyTracker) (context : String)
    (keys : List CborValue) : Except String IntegerMapKeyTracker :=
  keys.foldlM (fun tracker key => Prod.fst <$> tracker.next key context) tracker

def Precedes (a b : Bytes) : Prop := a.length < b.length ∨ a.length=b.length ∧ a < b

theorem Precedes.irrefl (a : Bytes) : ¬Precedes a a := by
  rintro (h | ⟨-,h⟩)
  · exact lt_irrefl _ h
  · exact List.lt_irrefl a h

theorem Precedes.trans {a b c : Bytes} (hab : Precedes a b) (hbc : Precedes b c) : Precedes a c := by
  obtain hab | ⟨hab,hlt⟩ := hab <;> obtain hbc | ⟨hbc,hlt'⟩ := hbc
  · exact .inl (by omega)
  · exact .inl (by omega)
  · exact .inl (by omega)
  · exact .inr ⟨hab.trans hbc,List.lt_trans hlt hlt'⟩

theorem not_late_iff {a b : Bytes} :
    ¬(b.length < a.length ∨ b.length=a.length ∧ b ≤ a) ↔ Precedes a b := by
  rw [Precedes,not_or,not_and,List.not_le]
  constructor
  · rintro ⟨hlength,hlt⟩
    by_cases h : b.length=a.length
    · exact .inr ⟨h.symm,hlt h⟩
    · exact .inl (by omega)
  · rintro (h | ⟨h,hlt⟩)
    · exact ⟨by omega,fun heq => by omega⟩
    · exact ⟨by omega,fun _ => hlt⟩

namespace IntegerMapKeyTracker

variable {tracker : IntegerMapKeyTracker} {context : String}

def Ordered (tracker : IntegerMapKeyTracker) : Prop :=
  ∀ key ∈ tracker.seen, ∃ p ∈ tracker.previous,
    deterministicIntegerEncoding key=p.2 ∨ Precedes (deterministicIntegerEncoding key) p.2

def Admits (tracker : IntegerMapKeyTracker) (key : ℤ) : Prop :=
  ∀ p ∈ tracker.previous, Precedes p.2 (deterministicIntegerEncoding key)

theorem Ordered.not_mem (h : tracker.Ordered) {key : ℤ} (hkey : tracker.Admits key) :
    key ∉ tracker.seen := by
  intro hmem
  obtain ⟨p,hp,heq | hlt⟩ := h key hmem
  · exact Precedes.irrefl _ (heq ▸ hkey p hp)
  · exact Precedes.irrefl _ (hlt.trans (hkey p hp))

theorem next_eq_ok (h : tracker.Ordered) {key : CborValue} {result : IntegerMapKeyTracker×ℤ} :
    tracker.next key context=.ok result ↔ ∃ k, key=.integer k ∧ tracker.Admits k ∧
      result=(⟨some (k,deterministicIntegerEncoding k),k::tracker.seen⟩,k) := by
  cases key with
  | integer k =>
    simp only [next,bind_eq_ok,rejectIf_eq_ok,CborValue.integer.injEq,exists_const,exists_eq_left']
    cases hprevious : tracker.previous with
    | none =>
      have hadmits : tracker.Admits k := fun p hp => by rw [hprevious] at hp; cases hp
      rw [pure_eq_ok]
      exact ⟨fun hresult => ⟨hadmits,hresult.2.symm⟩,fun hresult => ⟨h.not_mem hadmits,hresult.2.symm⟩⟩
    | some p =>
      have hadmits : tracker.Admits k ↔ Precedes p.2 (deterministicIntegerEncoding k) := by
        simp [Admits,hprevious]
      simp only [bind_eq_ok,rejectIf_eq_ok,not_late_iff,pure_eq_ok,exists_const,← hadmits]
      exact ⟨fun hresult => ⟨hresult.2.1,hresult.2.2.symm⟩,
        fun hresult => ⟨h.not_mem hresult.1,hresult.1,hresult.2.symm⟩⟩
  | _ => simp [next]

theorem Ordered.step (h : tracker.Ordered) {key : ℤ} (hkey : tracker.Admits key) :
    Ordered ⟨some (key,deterministicIntegerEncoding key),key::tracker.seen⟩ := by
  intro k hk
  refine ⟨_,rfl,?_⟩
  obtain rfl | hk := mem_cons.mp hk
  · exact .inl rfl
  · obtain ⟨p,hp,heq | hlt⟩ := h k hk
    · exact .inr (heq ▸ hkey p hp)
    · exact .inr (hlt.trans (hkey p hp))

theorem acceptKeys_iff (h : tracker.Ordered) {keys : List CborValue} :
    (∃ last, tracker.acceptKeys context keys=.ok last) ↔ ∃ ks : List ℤ, keys=ks.map .integer ∧
      (∀ k ∈ ks, tracker.Admits k) ∧ (ks.map deterministicIntegerEncoding).Pairwise Precedes := by
  induction keys generalizing tracker with
  | nil => exact ⟨fun _ => ⟨[],rfl,by simp,by simp⟩,fun _ => ⟨tracker,rfl⟩⟩
  | cons key keys ih =>
    have hstep : (∃ last, tracker.acceptKeys context (key::keys)=.ok last) ↔ ∃ k, key=.integer k ∧
        tracker.Admits k ∧ ∃ last, (⟨some (k,deterministicIntegerEncoding k),k::tracker.seen⟩ :
          IntegerMapKeyTracker).acceptKeys context keys=.ok last := by
      simp only [acceptKeys,foldlM_cons_eq_ok,map_eq_ok,next_eq_ok h]
      constructor
      · rintro ⟨last,_,⟨_,⟨k,rfl,hadmits,rfl⟩,rfl⟩,hlast⟩
        exact ⟨k,rfl,hadmits,last,hlast⟩
      · rintro ⟨k,rfl,hadmits,last,hlast⟩
        exact ⟨last,_,⟨_,⟨k,rfl,hadmits,rfl⟩,rfl⟩,hlast⟩
    rw [hstep]
    constructor
    · rintro ⟨k,rfl,hadmits,hlast⟩
      obtain ⟨ks,rfl,hbehind,hks⟩ := (ih (h.step hadmits)).mp hlast
      have hbehind : ∀ j ∈ ks,
          Precedes (deterministicIntegerEncoding k) (deterministicIntegerEncoding j) :=
        fun j hj => hbehind j hj _ rfl
      refine ⟨k::ks,rfl,forall_mem_cons.mpr ⟨hadmits,fun j hj p hp => ?_⟩,?_⟩
      · exact (hadmits p hp).trans (hbehind j hj)
      · rw [map_cons,pairwise_cons,forall_mem_map]
        exact ⟨hbehind,hks⟩
    · rintro ⟨ks,hkeys,hadmits,hks⟩
      cases ks with
      | nil => cases hkeys
      | cons k ks =>
        obtain ⟨rfl,rfl⟩ := cons.inj hkeys
        rw [map_cons,pairwise_cons,forall_mem_map] at hks
        have hfirst := hadmits k mem_cons_self
        refine ⟨k,rfl,hfirst,(ih (h.step hfirst)).mpr ⟨ks,rfl,fun j hj p hp => ?_,hks.2⟩⟩
        cases hp
        exact hks.1 j hj

theorem ordered_default : default.Ordered := fun _ hk => absurd hk not_mem_nil

end IntegerMapKeyTracker

open IntegerMapKeyTracker

/-- Permitted types, with integer keys in the order of their encodings. -/
inductive CanonicalValue : CborValue → Prop
  | integer (value : ℤ) : CanonicalValue (.integer value)
  | bytes (value : Bytes) : CanonicalValue (.bytes value)
  | text (value : String) : CanonicalValue (.text value)
  | bool (value : Bool) : CanonicalValue (.bool value)
  | null : CanonicalValue .null
  | array {items : List CborValue} (h : ∀ item ∈ items, CanonicalValue item) :
      CanonicalValue (.array items)
  | map {entries : List (CborValue×CborValue)} (keys : List ℤ)
      (hkeys : entries.map Prod.fst=keys.map .integer)
      (horder : (keys.map deterministicIntegerEncoding).Pairwise Precedes)
      (h : ∀ entry ∈ entries, CanonicalValue entry.2) : CanonicalValue (.map entries)

mutual

def deterministicEncoding : CborValue → Bytes
  | .integer value => deterministicIntegerEncoding value
  | .bytes value => head 2 (UInt64.ofNat value.length)++value
  | .text value => head 3 (UInt64.ofNat (utf8 value).length)++utf8 value
  | .bool value => [if value then 0xf5 else 0xf4]
  | .null => [nullByte]
  | .array items => head 4 (UInt64.ofNat items.length)++encodeItems items
  | .map entries => head 5 (UInt64.ofNat entries.length)++encodeEntries entries
  | .float _ | .tag _ _ => []

def encodeItems : List CborValue → Bytes
  | [] => []
  | item::items => deterministicEncoding item++encodeItems items

def encodeEntries : List (CborValue×CborValue) → Bytes
  | [] => []
  | (key,value)::entries => deterministicEncoding key++deterministicEncoding value++encodeEntries entries

end

variable {label : String}

theorem validateShapeEntries_iff {tracker : IntegerMapKeyTracker}
    {entries : List (CborValue×CborValue)} :
    validateShapeEntries label tracker entries=.ok () ↔
      (∃ last, tracker.acceptKeys label (entries.map Prod.fst)=.ok last) ∧
        ∀ entry ∈ entries, validateCanonicalCborShape label entry.2=.ok () := by
  induction entries generalizing tracker with
  | nil => simp [validateShapeEntries,acceptKeys,pure,Except.pure]
  | cons entry entries ih =>
    simp only [validateShapeEntries,bind_eq_ok,ih,acceptKeys,map_cons,foldlM_cons_eq_ok,map_eq_ok,
      forall_mem_cons]
    constructor
    · rintro ⟨result,hnext,_,hvalue,⟨last,hlast⟩,hrest⟩
      exact ⟨⟨last,_,⟨result,hnext,rfl⟩,hlast⟩,hvalue,hrest⟩
    · rintro ⟨⟨last,_,⟨result,hnext,rfl⟩,hlast⟩,hvalue,hrest⟩
      exact ⟨result,hnext,(),hvalue,⟨last,hlast⟩,hrest⟩

mutual

theorem validateCanonicalCborShape_iff : ∀ value,
    validateCanonicalCborShape label value=.ok () ↔ CanonicalValue value
  | .integer value => ⟨fun _ => .integer value,fun _ => rfl⟩
  | .bytes value => ⟨fun _ => .bytes value,fun _ => rfl⟩
  | .text value => ⟨fun _ => .text value,fun _ => rfl⟩
  | .bool value => ⟨fun _ => .bool value,fun _ => rfl⟩
  | .null => ⟨fun _ => .null,fun _ => rfl⟩
  | .float _ => ⟨nofun,nofun⟩
  | .tag _ _ => ⟨nofun,nofun⟩
  | .array items => by
    rw [validateCanonicalCborShape,validateShapeItems_iff items]
    exact ⟨.array,fun | .array h => h⟩
  | .map entries => by
    rw [validateCanonicalCborShape,validateShapeEntries_iff,acceptKeys_iff ordered_default,
      validateValues_iff entries]
    constructor
    · rintro ⟨⟨keys,hkeys,-,horder⟩,hvalues⟩
      exact .map keys hkeys horder hvalues
    · intro h
      cases h with
      | map keys hkeys horder hvalues => exact ⟨⟨keys,hkeys,fun _ _ => nofun,horder⟩,hvalues⟩

theorem validateShapeItems_iff : ∀ items,
    validateShapeItems label items=.ok () ↔ ∀ item ∈ items, CanonicalValue item
  | [] => by simp [validateShapeItems]
  | item::items => by
    rw [validateShapeItems,bind_eq_ok,forall_mem_cons,← validateCanonicalCborShape_iff item,
      ← validateShapeItems_iff items]
    exact ⟨fun ⟨_,h⟩ => h,fun h => ⟨(),h⟩⟩

theorem validateValues_iff : ∀ entries : List (CborValue×CborValue),
    (∀ entry ∈ entries, validateCanonicalCborShape label entry.2=.ok ()) ↔
      ∀ entry ∈ entries, CanonicalValue entry.2
  | [] => by simp
  | (key,value)::entries => by
    rw [forall_mem_cons,forall_mem_cons,validateCanonicalCborShape_iff value,validateValues_iff entries]

end

/-- Exactly the deterministic encodings of canonical values are accepted, and exactly the keys whose
encodings increase, shorter ones first. -/
theorem canonical_cbor_unique {cbor : Ciborium} (hcbor : cbor.Lawful) (context : String) :
    (∀ value, cbor.intoWriter value=.ok (deterministicEncoding value) → ∀ bytes,
      decodeCanonicalCborValue cbor bytes context=.ok value ↔
        CanonicalValue value ∧ bytes=deterministicEncoding value) ∧
    ∀ keys : List ℤ, (∃ last, default.acceptKeys context (keys.map .integer)=.ok last) ↔
      (keys.map deterministicIntegerEncoding).Pairwise Precedes := by
  constructor
  · intro value hwriter bytes
    simp only [decodeCanonicalCborValue,bind_eq_ok,mapError_eq_ok,rejectIf_eq_ok,pure_eq_ok,not_not]
    constructor
    · rintro ⟨⟨_,position⟩,-,_,-,_,hshape,_,hcanonical,_,rfl,rfl⟩
      exact ⟨(validateCanonicalCborShape_iff _).mp hshape,
        Except.ok.inj (hcanonical.symm.trans hwriter)⟩
    · rintro ⟨hcanonical,rfl⟩
      exact ⟨_,hcbor _ _ hwriter,(),rfl,(),(validateCanonicalCborShape_iff value).mpr hcanonical,_,hwriter,
        (),rfl,rfl⟩
  · intro keys
    rw [acceptKeys_iff ordered_default]
    constructor
    · rintro ⟨ks,hks,-,horder⟩
      rwa [map_injective_iff.mpr (fun _ _ => CborValue.integer.inj) hks]
    · exact fun horder => ⟨keys,rfl,fun _ _ => nofun,horder⟩

def nullMapCbor : Ciborium where
  intoWriter
    | .map [(.integer (.ofNat 24),.null)] => .ok [0xa1,0x18,0x18,nullByte]
    | _ => .error "not written"
  fromReader bytes :=
    if bytes=[0xa1,0x18,0x18,nullByte] then .ok (.map [(.integer 24,.null)],4) else .error "not read"

theorem canonical_cbor_unique_null :
    decodeCanonicalCborValue nullMapCbor [0xa1,0x18,0x18,nullByte] "map"=
      .ok (.map [(.integer 24,.null)]) := by
  have hlawful : nullMapCbor.Lawful := by
    intro value bytes h
    unfold nullMapCbor at h ⊢
    dsimp only at h ⊢
    split at h
    · cases h
      rfl
    · cases h
  refine ((canonical_cbor_unique hlawful "map").1 _ rfl _).mpr ⟨.map [24] rfl (by simp) ?_,rfl⟩
  rintro _ (_ | ⟨_,⟨⟩⟩)
  exact .null

end Remanence.Parity
