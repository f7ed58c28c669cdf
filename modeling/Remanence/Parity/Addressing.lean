import Remanence.Parity.MapRows

/-!
# Addresses in a validated map

A block of an object has a data ordinal and every block has a physical
position. Both are read off the rows before its file: the ordinal counts the
object blocks there, the position all blocks and filemarks.
-/

namespace Remanence.Parity

open Foundation List

variable {done rest : List TapeFileMapEntry} {ordinal i : ℕ} {entry : TapeFileMapEntry}

theorem RowAccepted.positionInEntries_cons (h : RowAccepted done entry) :
    FilemarkMap.positionInEntries ordinal (entry::rest)=
      if entry.kind=.object ∧ objectBlocks done ≤ ordinal ∧ ordinal < objectBlocks (done++[entry])
      then .ok ⟨done.length,ordinal-objectBlocks done⟩
      else FilemarkMap.positionInEntries ordinal rest := by
  rw [FilemarkMap.positionInEntries,objectBlocks_append,objectBlocks_singleton]
  by_cases hkind : entry.kind=.object
  · obtain ⟨first,hfirst,hvalue,hfits⟩ := h.first hkind
    simp only [hfirst,hvalue,hkind,h.numbered,if_true,true_and]
    rw [if_neg (not_lt.mpr hfits)]
  · cases hfirst : entry.firstParityDataOrdinal with
    | none => rw [if_neg fun hholds => hkind hholds.1]
    | some first => exact absurd (TapeFileMapEntry.kind_of_first h.fields hfirst) hkind

structure HoldsOrdinal (done rest : List TapeFileMapEntry) (ordinal i : ℕ)
    (entry : TapeFileMapEntry) : Prop where
  entry_at : rest[i]?=some entry
  kind : entry.kind=.object
  first_le : objectBlocks (done++rest.take i) ≤ ordinal
  lt_stop : ordinal < objectBlocks (done++rest.take i)+entry.blockCount.toNat

theorem holdsOrdinal_cons {row : TapeFileMapEntry} :
    HoldsOrdinal done (row::rest) ordinal (i+1) entry ↔
      HoldsOrdinal (done++[row]) rest ordinal i entry := by
  constructor <;> rintro ⟨h,hkind,hle,hlt⟩ <;>
    exact ⟨by simpa using h,hkind,by simpa using hle,by simpa using hlt⟩

theorem exists_holdsOrdinal (hle : objectBlocks done ≤ ordinal)
    (hlt : ordinal < objectBlocks (done++rest)) :
    ∃ i entry, HoldsOrdinal done rest ordinal i entry := by
  induction rest generalizing done with
  | nil =>
    rw [append_nil] at hlt
    omega
  | cons row rest ih =>
    by_cases hrow : ordinal < objectBlocks (done++[row])
    · rw [objectBlocks_append,objectBlocks_singleton] at hrow
      split at hrow
      · exact ⟨0,row,rfl,‹_›,by simpa using hle,by simpa using hrow⟩
      · omega
    · obtain ⟨i,entry,h⟩ := ih (Nat.le_of_not_lt hrow) (by simpa using hlt)
      exact ⟨i+1,entry,holdsOrdinal_cons.mpr h⟩

namespace AcceptedRows

variable (h : AcceptedRows done rest)
include h

theorem positionInEntries_eq_ok (hholds : HoldsOrdinal done rest ordinal i entry) :
    FilemarkMap.positionInEntries ordinal rest=
      .ok ⟨done.length+i,ordinal-objectBlocks (done++rest.take i)⟩ := by
  induction rest generalizing done i with
  | nil => cases hholds.entry_at
  | cons row rest ih =>
    rw [h.1.positionInEntries_cons]
    cases i with
    | zero =>
      obtain rfl : row=entry := Option.some.inj hholds.entry_at
      have hle := hholds.first_le
      have hlt := hholds.lt_stop
      rw [take_zero,append_nil] at *
      have hstop : objectBlocks (done++[row])=objectBlocks done+row.blockCount.toNat := by
        rw [objectBlocks_append,objectBlocks_singleton,if_pos hholds.kind]
      rw [if_pos ⟨hholds.kind,hle,hstop.symm ▸ hlt⟩]
      rfl
    | succ i =>
      have hnext := holdsOrdinal_cons.mp hholds
      have hle := hnext.first_le
      rw [objectBlocks_append] at hle
      rw [if_neg fun hrow => not_lt.mpr ((Nat.le_add_right _ _).trans hle) hrow.2.2,
        ih h.2 hnext,take_succ_cons,append_assoc,singleton_append,length_append,length_singleton,
        add_assoc,add_comm 1]

variable {position : TapeFilePosition}

theorem lt_of_positionInEntries (hfound : FilemarkMap.positionInEntries ordinal rest=.ok position) :
    ordinal < objectBlocks (done++rest) := by
  induction rest generalizing done with
  | nil => cases hfound
  | cons row rest ih =>
    rw [h.1.positionInEntries_cons] at hfound
    rw [append_cons]
    split at hfound
    · rename_i hholds
      rw [objectBlocks_append]
      omega
    · exact ih h.2 hfound

end AcceptedRows

theorem prefixLength_take_le (entries : List TapeFileMapEntry) {j : ℕ} (h : i ≤ j) :
    prefixLength (entries.take i) ≤ prefixLength (entries.take j) := by
  have hsplit := take_append_drop i (entries.take j)
  rw [take_take,Nat.min_eq_left h] at hsplit
  rw [←hsplit,prefixLength_append]
  exact Nat.le_add_right _ _

variable {entries : List TapeFileMapEntry}

theorem filemark_lt {j : ℕ} (h : entries[i]?=some entry) (hlt : i < j) :
    prefixLength (entries.take i)+entry.blockCount.toNat < prefixLength (entries.take j) := by
  have hnext := prefixLength_take_le entries (Nat.succ_le_of_lt hlt)
  rwa [take_add_one,h,prefixLength_append] at hnext

namespace FilemarkMap

variable (map : FilemarkMap)

theorem tapeFileNumber_eq (h : map.entries[i]?=some entry) : entry.tapeFileNumber.toNat=i := by
  have hlt := (List.getElem?_eq_some_iff.mp h).1
  rw [(map.rowAccepted h).numbered,length_take,Nat.min_eq_left (le_of_lt hlt)]

theorem entry_eq_ok (h : map.entries[i]?=some entry) : map.entry i=.ok entry := by
  have hnumber := map.tapeFileNumber_eq h
  simp [FilemarkMap.entry,h,hnumber,Option.filter]

theorem foldlM_addPositions {acc : ℕ} (h : acc+prefixLength entries ≤ u64Max) :
    entries.foldlM addPositions acc=.ok (acc+prefixLength entries) := by
  induction entries generalizing acc with
  | nil => rfl
  | cons entry entries ih =>
    have hcons : prefixLength (entry::entries)=entry.blockCount.toNat+1+prefixLength entries := rfl
    rw [hcons] at h ⊢
    have hstep : addPositions acc entry=.ok (acc+entry.blockCount.toNat+1) := if_pos (by omega)
    rw [foldlM_cons,hstep,ok_bind,ih (by omega)]
    congr 1
    omega

theorem physicalPosition_eq_ok {block : ℕ}
    (h : map.entries[i]?=some entry) (hblock : block < entry.blockCount.toNat) :
    map.physicalPosition ⟨i,block⟩=.ok (prefixLength (map.entries.take i)+block) := by
  have hfits := (map.rowAccepted h).fits
  have hpositions : prefixPositions (map.entries.take i)=
      .ok (0+prefixLength (map.entries.take i)) := foldlM_addPositions (by omega)
  simp only [physicalPosition,entryAt,map.entry_eq_ok h,ok_bind,hpositions,eq_ok,zero_add]
  exact ⟨entry,⟨(),by omega,rfl⟩,(),by omega,trivial⟩

structure HasBlock (position : TapeFilePosition) (entry : TapeFileMapEntry) : Prop where
  entry_at : map.entries[position.tapeFileNumber]?=some entry
  block_lt : position.blockWithinFile < entry.blockCount.toNat

variable {map}

theorem entryAt_eq_ok : map.entryAt position=.ok entry ↔ map.HasBlock position entry := by
  constructor
  · intro h
    simp only [entryAt,FilemarkMap.entry,eq_ok,Option.filter_eq_some_iff] at h
    obtain ⟨_,⟨hentry,_⟩,_,hblock,rfl⟩ := h
    exact ⟨hentry,Nat.lt_of_not_le hblock⟩
  · rintro ⟨hentry,hblock⟩
    rw [entryAt,map.entry_eq_ok hentry,ok_bind,rejectIf_pos (not_le.mpr hblock)]
    rfl

theorem ordinalAt_eq_some :
    map.ordinalAt position=.ok (some ordinal) ↔ ∃ entry, map.HasBlock position entry ∧
      entry.kind=.object ∧ ordinal=objectBlocks (map.entries.take position.tapeFileNumber)+
        position.blockWithinFile := by
  simp only [ordinalAt,bind_eq_ok,entryAt_eq_ok]
  refine exists_congr fun entry => and_congr_right fun hblock => ?_
  by_cases hkind : entry.kind=.object
  · obtain ⟨first,hfirst,hvalue,_⟩ := (map.rowAccepted hblock.entry_at).first hkind
    simp only [hkind,hfirst,hvalue,pure_eq_ok,Option.some.injEq,true_and]
    exact eq_comm
  · simp only [hkind,false_and,iff_false]
    split
    · contradiction
    · simp

theorem positionForOrdinal_eq_ok :
    map.positionForOrdinal ordinal=.ok position ↔ ∃ entry, map.HasBlock position entry ∧
      entry.kind=.object ∧ ordinal=objectBlocks (map.entries.take position.tapeFileNumber)+
        position.blockWithinFile := by
  have hrows := map.mapRows.2
  have hfound : ∀ {position entry}, map.HasBlock position entry → entry.kind=.object →
      ordinal=objectBlocks (map.entries.take position.tapeFileNumber)+position.blockWithinFile →
      map.positionForOrdinal ordinal=.ok position := by
    rintro position entry ⟨hentry,hblock⟩ hkind rfl
    rw [positionForOrdinal,hrows.positionInEntries_eq_ok ⟨hentry,hkind,?_,?_⟩,nil_append,
      Nat.add_sub_cancel_left,length_nil,zero_add]
    · exact Nat.le_add_right _ _
    · exact Nat.add_lt_add_left hblock _
  refine ⟨fun h => ?_,fun ⟨entry,hblock,hkind,hordinal⟩ => hfound hblock hkind hordinal⟩
  obtain ⟨i,entry,hholds⟩ := exists_holdsOrdinal (Nat.zero_le _) (hrows.lt_of_positionInEntries h)
  have hle := hholds.first_le
  have hlt := hholds.lt_stop
  rw [nil_append] at hle hlt
  have hblock : map.HasBlock ⟨i,ordinal-objectBlocks (map.entries.take i)⟩ entry :=
    ⟨hholds.entry_at,by dsimp only; omega⟩
  have hordinal : ordinal=objectBlocks (map.entries.take i)+
      (ordinal-objectBlocks (map.entries.take i)) := by omega
  obtain rfl := Except.ok.inj ((hfound hblock hholds.kind hordinal).symm.trans h)
  exact ⟨entry,hblock,hholds.kind,hordinal⟩

theorem exists_positionForOrdinal :
    (∃ position, map.positionForOrdinal ordinal=.ok position) ↔
      ordinal < map.totalDataOrdinals := by
  rw [map.totalDataOrdinals_eq]
  refine ⟨fun ⟨_,h⟩ => map.mapRows.2.lt_of_positionInEntries h,fun h => ?_⟩
  obtain ⟨i,entry,hholds⟩ := @exists_holdsOrdinal [] map.entries ordinal (Nat.zero_le _) h
  exact ⟨_,map.mapRows.2.positionInEntries_eq_ok hholds⟩

theorem exists_physicalPosition {lba : ℕ} :
    map.physicalPosition position=.ok lba ↔ ∃ entry, map.HasBlock position entry ∧
      lba=prefixLength (map.entries.take position.tapeFileNumber)+position.blockWithinFile := by
  constructor
  · intro h
    obtain ⟨entry,hentry,_⟩ := bind_eq_ok.mp h
    have hblock := entryAt_eq_ok.mp hentry
    have heq := map.physicalPosition_eq_ok hblock.entry_at hblock.block_lt
    exact ⟨entry,hblock,Except.ok.inj (h.symm.trans heq)⟩
  · rintro ⟨entry,hblock,rfl⟩
    exact map.physicalPosition_eq_ok hblock.entry_at hblock.block_lt

def physicalRun (map : FilemarkMap) (tapeFileNumber firstBlock count : ℕ) :
    Except ParityError ℕ := do
  let entry ← map.entry tapeFileNumber
  rejectIf (count=0 ∨ firstBlock+count > u64Max ∨ firstBlock+count > entry.blockCount.toNat)
    (filemarkMapError (s!"run at block {firstBlock} with count {count} is outside tape file "++
      s!"{tapeFileNumber} with block_count {entry.blockCount.toNat}"))
  let lba ← map.physicalPosition ⟨tapeFileNumber,firstBlock⟩
  rejectIf (lba+(count-1) > u64Max) (filemarkMapError "physical run overflows u64")
  return lba

theorem physicalPosition_le {lba : ℕ}
    (h : map.physicalPosition position=.ok lba) : lba ≤ u64Max := by
  obtain ⟨entry,hblock,rfl⟩ := exists_physicalPosition.mp h
  have hfits := (map.rowAccepted hblock.entry_at).fits
  have hlt := hblock.block_lt
  omega

theorem physicalRun_eq_ok {file block count lba : ℕ} :
    map.physicalRun file block count=.ok lba ↔ 0 < count ∧ ∀ offset < count,
      map.physicalPosition ⟨file,block+offset⟩=.ok (lba+offset) := by
  simp only [physicalRun,eq_ok,not_or]
  constructor
  · rintro ⟨entry,hentry,_,⟨hcount,_,hinside⟩,_,hlba,_,_,rfl⟩
    obtain ⟨row,hblock,rfl⟩ := exists_physicalPosition.mp hlba
    obtain rfl : row=entry :=
      Except.ok.inj ((map.entry_eq_ok hblock.entry_at).symm.trans hentry)
    refine ⟨Nat.pos_of_ne_zero hcount,fun offset hoffset => ?_⟩
    rw [map.physicalPosition_eq_ok hblock.entry_at (by omega),add_assoc]
  · rintro ⟨hcount,hall⟩
    have hlast := hall (count-1) (by omega)
    have hfits := physicalPosition_le hlast
    obtain ⟨entry,⟨hentry,hlt⟩,_⟩ := exists_physicalPosition.mp hlast
    have hend := (map.rowAccepted hentry).fits
    dsimp only at hentry hlt
    exact ⟨entry,map.entry_eq_ok hentry,(),⟨by omega,by omega,by omega⟩,lba,hall 0 hcount,(),
      by omega,rfl⟩

structure Addressing (map : FilemarkMap) : Prop where
  position : ∀ ordinal, (∃ position, map.positionForOrdinal ordinal=.ok position) ↔
    ordinal < map.totalDataOrdinals
  ordinal : ∀ position, (∃ ordinal, map.ordinalAt position=.ok (some ordinal)) ↔
    ∃ entry, map.HasBlock position entry ∧ entry.kind=.object
  inverse : ∀ position ordinal, map.positionForOrdinal ordinal=.ok position ↔
    map.ordinalAt position=.ok (some ordinal)
  ordinals_fit : map.totalDataOrdinals ≤ u64Max
  /-- Every block has a position, which counts the blocks and filemarks in front of it. -/
  physical : ∀ position lba, map.physicalPosition position=.ok lba ↔
    ∃ entry, map.HasBlock position entry ∧
      lba=prefixLength (map.entries.take position.tapeFileNumber)+position.blockWithinFile
  positions_fit : ∀ position lba, map.physicalPosition position=.ok lba → lba ≤ u64Max
  /-- Positions follow the order of files and of blocks in a file. -/
  increasing : ∀ p q a b, map.physicalPosition p=.ok a → map.physicalPosition q=.ok b →
    (a < b ↔ p.tapeFileNumber < q.tapeFileNumber ∨
      p.tapeFileNumber=q.tapeFileNumber ∧ p.blockWithinFile < q.blockWithinFile)
  off_filemark : ∀ position lba i entry, map.physicalPosition position=.ok lba →
    map.entries[i]?=some entry → lba≠prefixLength (map.entries.take i)+entry.blockCount.toNat
  run : ∀ file block count lba, map.physicalRun file block count=.ok lba ↔ 0 < count ∧
    ∀ offset < count, map.physicalPosition ⟨file,block+offset⟩=.ok (lba+offset)

theorem map_addressing (map : FilemarkMap) : map.Addressing where
  position _ := exists_positionForOrdinal
  ordinal position := by
    simp only [ordinalAt_eq_some]
    exact ⟨fun ⟨_,entry,hblock,hkind,_⟩ => ⟨entry,hblock,hkind⟩,
      fun ⟨entry,hblock,hkind⟩ => ⟨_,entry,hblock,hkind,rfl⟩⟩
  inverse position ordinal := positionForOrdinal_eq_ok.trans ordinalAt_eq_some.symm
  ordinals_fit := by
    -- the last ordinal stands in an object whose end fits
    rcases Nat.eq_zero_or_pos map.totalDataOrdinals with hzero | hpos
    · exact hzero ▸ Nat.zero_le _
    obtain ⟨position,hposition⟩ := exists_positionForOrdinal.mpr (Nat.sub_one_lt hpos.ne')
    obtain ⟨entry,hblock,hkind,hordinal⟩ := positionForOrdinal_eq_ok.mp hposition
    obtain ⟨_,_,_,hfits⟩ := (map.rowAccepted hblock.entry_at).first hkind
    have := hblock.block_lt
    omega
  physical _ _ := exists_physicalPosition
  positions_fit _ _ := physicalPosition_le
  increasing p q a b ha hb := by
    obtain ⟨e,hp,rfl⟩ := exists_physicalPosition.mp ha
    obtain ⟨f,hq,rfl⟩ := exists_physicalPosition.mp hb
    have hpe := hp.block_lt
    have hqf := hq.block_lt
    rcases Nat.lt_trichotomy p.tapeFileNumber q.tapeFileNumber with hlt | heq | hgt
    · have := filemark_lt hp.entry_at hlt
      omega
    · rw [heq]
      omega
    · have := filemark_lt hq.entry_at hgt
      omega
  off_filemark position lba i entry h hentry := by
    obtain ⟨e,hblock,rfl⟩ := exists_physicalPosition.mp h
    have hlt := hblock.block_lt
    rcases Nat.lt_trichotomy position.tapeFileNumber i with hbefore | heq | hafter
    · have := filemark_lt hblock.entry_at hbefore
      omega
    · subst heq
      obtain rfl := Option.some.inj (hblock.entry_at.symm.trans hentry)
      omega
    · have := filemark_lt hentry hafter
      omega
  run _ _ _ _ := physicalRun_eq_ok

/-- A map truncated to its first files keeps their addresses and has no others. -/
theorem truncateToTapeFiles_keeps (map : FilemarkMap) (count : ℕ) (hpos : 0 < count)
    (hle : count ≤ map.tapeFileCount) : ∃ shorter, map.truncateToTapeFiles count=.ok shorter ∧
      ∀ position, (∀ lba, shorter.physicalPosition position=.ok lba ↔
          position.tapeFileNumber < count ∧ map.physicalPosition position=.ok lba) ∧
        ∀ ordinal, shorter.positionForOrdinal ordinal=.ok position ↔
          position.tapeFileNumber < count ∧ map.positionForOrdinal ordinal=.ok position := by
  obtain ⟨⟨bot,hhead,hbot⟩,haccepted⟩ := map.mapRows
  rw [←take_append_drop count map.entries,acceptedRows_append] at haccepted
  have hfirst : (map.entries.take count).head?=some bot := by
    rw [head?_take,if_neg hpos.ne',hhead]
  obtain ⟨shorter,hshorter⟩ := exists_new_eq_ok.mpr ⟨⟨bot,hfirst,hbot⟩,haccepted.1⟩
  have hentries := new_eq_ok.mp hshorter
  rw [tapeFileCount] at hle
  refine ⟨shorter,by rw [truncateToTapeFiles,rejectIf_pos (not_lt.mpr hle),ok_bind,hshorter],
    fun position => ?_⟩
  by_cases hlt : position.tapeFileNumber < count
  · have hblock (entry : TapeFileMapEntry) :
        shorter.HasBlock position entry ↔ map.HasBlock position entry := by
      rw [←entryAt_eq_ok,←entryAt_eq_ok,entryAt,entryAt,FilemarkMap.entry,FilemarkMap.entry,hentries,
        getElem?_take_of_lt hlt]
    have htake : shorter.entries.take position.tapeFileNumber=
        map.entries.take position.tapeFileNumber := by
      rw [hentries,take_take,min_eq_left hlt.le]
    simp [exists_physicalPosition,positionForOrdinal_eq_ok,hblock,htake,hlt]
  · have hnone (entry : TapeFileMapEntry) : ¬shorter.HasBlock position entry := by
      rintro ⟨hentry,-⟩
      simp [hentries,hlt] at hentry
    simp [exists_physicalPosition,positionForOrdinal_eq_ok,hnone,hlt]

/-- A tape cut in front of the sidecar of its object. -/
theorem truncateToTapeFiles_keeps_object : ∃ map shorter,
    new [.bootstrap 0 1,.object 1 3 0,.paritySidecar 2 7 0 0 3]=.ok map ∧
    map.truncateToTapeFiles 2=.ok shorter ∧ shorter.positionForOrdinal 2=.ok ⟨1,2⟩ := by
  obtain ⟨map,h⟩ := exists_of_isOk (show (new [.bootstrap 0 1,.object 1 3 0,
    .paritySidecar 2 7 0 0 3]).isOk=true by decide +kernel)
  have hrows := new_eq_ok.mp h
  have hordinal : map.positionForOrdinal 2=.ok ⟨1,2⟩ := by rw [positionForOrdinal,hrows]; rfl
  obtain ⟨shorter,hshorter,hkept⟩ := map.truncateToTapeFiles_keeps 2 (by decide)
    (by rw [tapeFileCount,hrows]; decide)
  exact ⟨map,shorter,h,hshorter,((hkept _).2 2).mpr ⟨by decide,hordinal⟩⟩

end FilemarkMap

end Remanence.Parity
