import Remanence.Parity.FilemarkMap

/-!
# Rows that map validation accepts

Validation runs over the rows with a cursor. The cursor after a prefix is a
function of the prefix, so acceptance is a condition on each row and the rows
before it.
-/

namespace Remanence.Parity

open Foundation List

def objectBlocks (entries : List TapeFileMapEntry) : ℕ :=
  (entries.map fun entry => if entry.kind=.object then entry.blockCount.toNat else 0).sum

@[simp] theorem objectBlocks_append (a b : List TapeFileMapEntry) :
    objectBlocks (a++b)=objectBlocks a+objectBlocks b := by
  simp [objectBlocks]

theorem objectBlocks_singleton (entry : TapeFileMapEntry) :
    objectBlocks [entry]=if entry.kind=.object then entry.blockCount.toNat else 0 := by
  simp [objectBlocks]

theorem objectBlocks_le_prefixLength (entries : List TapeFileMapEntry) :
    objectBlocks entries ≤ prefixLength entries := by
  induction entries with
  | nil => exact Nat.le_refl 0
  | cons entry entries ih =>
    have hcons : objectBlocks (entry::entries)=objectBlocks [entry]+objectBlocks entries :=
      objectBlocks_append [entry] entries
    have hlength : prefixLength (entry::entries)=prefixLength [entry]+prefixLength entries :=
      prefixLength_append [entry] entries
    rw [hcons,hlength,objectBlocks_singleton,prefixLength_singleton]
    split <;> omega

def cursorOf (done : List TapeFileMapEntry) : MapCursor :=
  ⟨objectBlocks done,if prefixLength done ≤ u64Max then some (prefixLength done) else none⟩

structure RowAccepted (done : List TapeFileMapEntry) (entry : TapeFileMapEntry) : Prop where
  numbered : entry.tapeFileNumber.toNat=done.length
  fields : entry.validate=.ok ()
  fits : prefixLength done+entry.blockCount.toNat ≤ u64Max
  sole : done.length≠0 → entry.kind≠.bootstrap
  first : entry.kind=.object → ∃ first, entry.firstParityDataOrdinal=some first ∧
    first.toNat=objectBlocks done ∧ objectBlocks done+entry.blockCount.toNat ≤ u64Max

variable {done : List TapeFileMapEntry} {entry : TapeFileMapEntry}

theorem pushPhysical_cursorOf {next : Option ℕ} :
    pushPhysical (cursorOf done).nextStart entry.blockCount.toNat=some next ↔
      prefixLength done+entry.blockCount.toNat ≤ u64Max ∧
        next=(cursorOf (done++[entry])).nextStart := by
  simp only [cursorOf,prefixLength_append,prefixLength_singleton,←add_assoc]
  by_cases hfits : prefixLength done+entry.blockCount.toNat ≤ u64Max
  · rw [if_pos (show prefixLength done ≤ u64Max by omega)]
    simp only [pushPhysical]
    rw [if_pos hfits,Option.some.injEq,and_iff_right hfits]
    exact eq_comm
  · simp only [hfits,false_and,iff_false]
    by_cases hstart : prefixLength done ≤ u64Max
    · simp [pushPhysical,if_pos hstart,hfits]
    · simp [pushPhysical,if_neg hstart]

theorem validateEntry_cursorOf {next : MapCursor} :
    validateEntry (cursorOf done) entry done.length=.ok next ↔
      RowAccepted done entry ∧ next=cursorOf (done++[entry]) := by
  have hcursor : cursorOf (done++[entry])=⟨objectBlocks done+objectBlocks [entry],
      (cursorOf (done++[entry])).nextStart⟩ := by
    rw [←objectBlocks_append]
    rfl
  simp only [validateEntry,eq_ok,not_not, pushPhysical_cursorOf]
  by_cases hobject : entry.kind=.object
  · simp only [if_pos hobject,eq_ok,not_not]
    rw [hcursor,objectBlocks_singleton,if_pos hobject]
    constructor
    · rintro ⟨_,hnumber,_,hfields,_,⟨hfits,rfl⟩,_,hsole,first,hfirst,_,hnext,_,hle,rfl⟩
      exact ⟨⟨hnumber,hfields,hfits,fun hne hkind => hsole ⟨hne,hkind⟩,
        fun _ => ⟨first,hfirst,hnext,Nat.le_of_not_lt hle⟩⟩,rfl⟩
    · rintro ⟨⟨hnumber,hfields,hfits,hsole,hobjectRow⟩,rfl⟩
      obtain ⟨first,hfirst,hnext,hle⟩ := hobjectRow hobject
      exact ⟨(),hnumber,(),hfields,_,⟨hfits,rfl⟩,(),fun h => hsole h.1 h.2,first,hfirst,(),hnext,(),
        not_lt.mpr hle,rfl⟩
  · simp only [if_neg hobject,pure_eq_ok]
    rw [hcursor,objectBlocks_singleton,if_neg hobject]
    constructor
    · rintro ⟨_,hnumber,_,hfields,_,⟨hfits,rfl⟩,_,hsole,rfl⟩
      exact ⟨⟨hnumber,hfields,hfits,fun hne hkind => hsole ⟨hne,hkind⟩,
        fun hkind => absurd hkind hobject⟩,rfl⟩
    · rintro ⟨⟨hnumber,hfields,hfits,hsole,_⟩,rfl⟩
      exact ⟨(),hnumber,(),hfields,_,⟨hfits,rfl⟩,(),fun h => hsole h.1 h.2,rfl⟩

def AcceptedRows : List TapeFileMapEntry → List TapeFileMapEntry → Prop
  | _,[] => True
  | done,entry::rest => RowAccepted done entry ∧ AcceptedRows (done++[entry]) rest

theorem acceptedRows_append {a b : List TapeFileMapEntry} :
    AcceptedRows done (a++b) ↔ AcceptedRows done a ∧ AcceptedRows (done++a) b := by
  induction a generalizing done with
  | nil => simp [AcceptedRows]
  | cons entry a ih => simp [AcceptedRows,ih,and_assoc]

theorem foldlM_validateEntry {rest : List TapeFileMapEntry} {final : MapCursor} :
    (rest.zipIdx done.length).foldlM
      (fun cursor (entry,index) => validateEntry cursor entry index) (cursorOf done)=.ok final ↔
      AcceptedRows done rest ∧ final=cursorOf (done++rest) := by
  induction rest generalizing done with
  | nil =>
    rw [zipIdx_nil,foldlM_nil,pure_eq_ok,append_nil]
    simp [AcceptedRows,eq_comm]
  | cons entry rest ih =>
    have hlen : (done++[entry]).length=done.length+1 := by simp
    rw [zipIdx_cons,foldlM_cons_eq_ok]
    simp only [AcceptedRows,validateEntry_cursorOf]
    constructor
    · rintro ⟨_,⟨hrow,rfl⟩,hrest⟩
      rw [←hlen,ih,append_assoc] at hrest
      exact ⟨⟨hrow,hrest.1⟩,hrest.2⟩
    · rintro ⟨⟨hrow,hrest⟩,rfl⟩
      refine ⟨_,⟨hrow,rfl⟩,?_⟩
      rw [←hlen,ih,append_assoc]
      exact ⟨hrest,rfl⟩

def MapRows (entries : List TapeFileMapEntry) : Prop :=
  (∃ bot, entries.head?=some bot ∧ bot.tapeFileNumber=0 ∧ bot.kind=.bootstrap ∧ bot.blockCount=1) ∧
    AcceptedRows [] entries

variable {entries : List TapeFileMapEntry}

theorem validateEntries_eq_ok : validateEntries entries=.ok () ↔ MapRows entries := by
  have hfold := @foldlM_validateEntry [] entries
  have hstart : cursorOf []=⟨0,some 0⟩ := rfl
  rw [hstart,length_nil,nil_append] at hfold
  simp only [validateEntries,eq_ok,hfold,MapRows]
  constructor
  · rintro ⟨bot,hhead,_,hbot,_,⟨hrows,_⟩,_⟩
    simp only [ne_eq,not_or,not_not] at hbot
    exact ⟨⟨bot,hhead,hbot⟩,hrows⟩
  · rintro ⟨⟨bot,hhead,hbot⟩,hrows⟩
    exact ⟨bot,hhead,(),by simp [hbot],_,⟨hrows,rfl⟩,trivial⟩

theorem AcceptedRows.get {i : ℕ} (h : AcceptedRows done entries)
    (hi : entries[i]?=some entry) : RowAccepted (done++entries.take i) entry := by
  induction entries generalizing done i with
  | nil => cases hi
  | cons first entries ih =>
    cases i with
    | zero =>
      obtain rfl : first=entry := Option.some.inj hi
      simpa using h.1
    | succ i =>
      have := ih h.2 hi
      simpa using this

theorem getD_max?_eq {l : List ℕ} {n : ℕ} (hle : ∀ x ∈ l, x ≤ n) (hmem : n=0 ∨ n ∈ l) :
    l.max?.getD 0=n := by
  cases hmax : l.max? with
  | none =>
    rw [max?_eq_none_iff] at hmax
    subst hmax
    exact (hmem.resolve_right (not_mem_nil)).symm
  | some m =>
    obtain ⟨hm,htop⟩ := max?_eq_some_iff.mp hmax
    have hmn := hle m hm
    rcases hmem with rfl | hn
    · exact Nat.le_zero.mp hmn
    · exact le_antisymm hmn (htop n hn)

theorem AcceptedRows.objectEnds {rows : List TapeFileMapEntry} (h : AcceptedRows [] rows) :
    (∀ x ∈ rows.filterMap FilemarkMap.objectOrdinalEndExclusive, x ≤ objectBlocks rows) ∧
      (objectBlocks rows=0 ∨
        objectBlocks rows ∈ rows.filterMap FilemarkMap.objectOrdinalEndExclusive) := by
  induction rows using List.reverseRecOn with
  | nil => exact ⟨fun _ hx => (nomatch hx),.inl rfl⟩
  | append_singleton rows entry ih =>
    obtain ⟨hrows,hlast⟩ := acceptedRows_append.mp h
    obtain ⟨hle,hmem⟩ := ih hrows
    have haccepted : RowAccepted rows entry := hlast.1
    rw [filterMap_append,objectBlocks_append,objectBlocks_singleton]
    by_cases hobject : entry.kind=.object
    · obtain ⟨first,hfirst,hvalue,hfits⟩ := haccepted.first hobject
      have hend : FilemarkMap.objectOrdinalEndExclusive entry=
          some (objectBlocks rows+entry.blockCount.toNat) := by
        rw [FilemarkMap.objectOrdinalEndExclusive,hfirst,Option.bind_some,hvalue,if_pos hfits]
      rw [if_pos hobject,filterMap_cons_some hend,filterMap_nil]
      refine ⟨fun x hx => ?_,.inr (mem_append_right _ mem_cons_self)⟩
      rcases mem_append.mp hx with hx | hx
      · exact le_trans (hle x hx) (Nat.le_add_right _ _)
      · exact le_of_eq (mem_singleton.mp hx)
    · have hend : FilemarkMap.objectOrdinalEndExclusive entry=none := by
        rw [FilemarkMap.objectOrdinalEndExclusive,Option.bind_eq_none_iff]
        intro first hfirst
        exact absurd (TapeFileMapEntry.kind_of_first haccepted.fields hfirst) hobject
      rw [if_neg hobject,filterMap_cons_none hend,filterMap_nil,append_nil, add_zero]
      exact ⟨hle,hmem⟩

namespace FilemarkMap

theorem new_eq_ok {map : FilemarkMap} : new entries=.ok map ↔ map.entries=entries := by
  constructor
  · intro h
    unfold new at h
    split at h
    · rw [←Except.ok.inj h]
    · cases h
  · rintro rfl
    unfold new
    split
    · rfl
    · rename_i error herror
      have := map.valid
      rw [herror] at this
      cases this

theorem exists_new_eq_ok : (∃ map, new entries=.ok map) ↔ MapRows entries := by
  simp only [new_eq_ok,←validateEntries_eq_ok]
  constructor
  · rintro ⟨map,rfl⟩
    exact map.valid
  · intro h
    exact ⟨⟨entries,h⟩,rfl⟩

variable (map : FilemarkMap)

theorem mapRows : MapRows map.entries := validateEntries_eq_ok.mp map.valid

theorem totalDataOrdinals_eq : map.totalDataOrdinals=objectBlocks map.entries := by
  obtain ⟨hle,hmem⟩ := map.mapRows.2.objectEnds
  exact getD_max?_eq hle hmem

theorem rowAccepted {i : ℕ} {entry : TapeFileMapEntry} (h : map.entries[i]?=some entry) :
    RowAccepted (map.entries.take i) entry := by
  simpa using map.mapRows.2.get h

theorem first_eq {i : ℕ} {entry : TapeFileMapEntry} {first : UInt64}
    (h : map.entries[i]?=some entry) (hfirst : entry.firstParityDataOrdinal=some first) :
    first.toNat=objectBlocks (map.entries.take i) := by
  have hrow := map.rowAccepted h
  have hkind := TapeFileMapEntry.kind_of_first hrow.fields hfirst
  obtain ⟨first',hfirst',hvalue,_⟩ := hrow.first hkind
  rw [hfirst] at hfirst'
  rw [Option.some.inj hfirst',hvalue]

def ordinalAddress (ordinal : ℕ) : Except ParityError ℕ :=
  map.positionForOrdinal ordinal >>= map.physicalPosition

end FilemarkMap

end Remanence.Parity
