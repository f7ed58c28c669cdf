import Remanence.Parity.MapRows

/-!
# Building a map file by file

The writer numbers its files and ordinals itself. Its rows pass map validation
as long as their positions fit 64 bits, and a writer that resumes from the two
totals of a committed prefix appends the rows it would append to the prefix.
-/

namespace Remanence.Parity

open Foundation List

namespace TapeFileMapEntry

def parityMap (tapeFileNumber blockCount : UInt64) : TapeFileMapEntry :=
  ⟨tapeFileNumber,.parityMap,blockCount,none,none,none,none⟩

def structuralControl (tapeFileNumber : UInt64) (kind : TapeFileKind) (blockCount : UInt64) :
    TapeFileMapEntry :=
  ⟨tapeFileNumber,kind,blockCount,none,none,none,none⟩

def tapeIndexReplica (tapeFileNumber blockCount : UInt64) : TapeFileMapEntry :=
  structuralControl tapeFileNumber .tapeIndexReplica blockCount

def indexSeparationExtent (tapeFileNumber blockCount : UInt64) : TapeFileMapEntry :=
  structuralControl tapeFileNumber .indexSeparationExtent blockCount

end TapeFileMapEntry

/-- Rows so far, behind a prefix of which only the totals are known. -/
structure FilemarkMapBuilder where
  entries : List TapeFileMapEntry
  baseTapeFileCount : ℕ
  baseTotalDataOrdinals : ℕ

namespace FilemarkMapBuilder

def new : FilemarkMapBuilder := ⟨[],0,0⟩

def fromCommittedPrefix (map : FilemarkMap) : FilemarkMapBuilder := ⟨map.entries,0,0⟩

def fromBoundedPrefix (tapeFileCount totalDataOrdinals : ℕ) : FilemarkMapBuilder :=
  ⟨[],tapeFileCount,totalDataOrdinals⟩

variable (builder : FilemarkMapBuilder)

def nextTapeFileNumber : Except ParityError UInt64 := do
  let count := builder.baseTapeFileCount+builder.entries.length
  rejectIf (count > u64Max) (filemarkMapError "tape file count overflows u64")
  return UInt64.ofNat count

def addOrdinals (total : ℕ) (entry : TapeFileMapEntry) : Except ParityError ℕ :=
  if entry.kind=.object then do
    rejectIf (total+entry.blockCount.toNat > u64Max)
      (filemarkMapError "total data ordinals overflow while building map")
    return total+entry.blockCount.toNat
  else return total

def currentTotalDataOrdinals : Except ParityError ℕ :=
  builder.entries.foldlM addOrdinals builder.baseTotalDataOrdinals

def StartsAtBot (entries : List TapeFileMapEntry) : Prop :=
  ∃ bot ∈ entries.head?, bot.tapeFileNumber=0 ∧ bot.kind=.bootstrap ∧ bot.blockCount=1

instance (entries : List TapeFileMapEntry) : Decidable (StartsAtBot entries) :=
  inferInstanceAs (Decidable (∃ bot ∈ entries.head?, _))

def requireBotAuthority : Except ParityError Unit :=
  rejectIf (builder.baseTapeFileCount=0 ∧ ¬StartsAtBot builder.entries)
    (filemarkMapError ("schema-major 2 writers must commit the sole tape-file-0 BOT Bootstrap "++
      "before body files"))

def pushRow (entry : TapeFileMapEntry) :
    Except ParityError (TapeFileMapEntry×FilemarkMapBuilder) := do
  entry.validate
  return (entry,{ builder with entries := builder.entries++[entry] })

def pushBody (row : UInt64 → Except ParityError TapeFileMapEntry) :
    Except ParityError (TapeFileMapEntry×FilemarkMapBuilder) := do
  builder.requireBotAuthority
  let tapeFileNumber ← builder.nextTapeFileNumber
  let entry ← row tapeFileNumber
  builder.pushRow entry

def pushObject (blockCount : UInt64) := builder.pushBody fun tapeFileNumber => do
  let firstOrdinal ← builder.currentTotalDataOrdinals
  return .object tapeFileNumber blockCount (UInt64.ofNat firstOrdinal)

def pushParitySidecar (blockCount epochId protectedOrdinalStart
    protectedOrdinalEndExclusive : UInt64) := builder.pushBody fun tapeFileNumber =>
  .ok (.paritySidecar tapeFileNumber blockCount epochId protectedOrdinalStart
    protectedOrdinalEndExclusive)

def pushBootstrap : Except ParityError (TapeFileMapEntry×FilemarkMapBuilder) := do
  rejectIf (builder.baseTapeFileCount≠0 ∨ builder.entries≠[])
    (filemarkMapError "schema-major 2 permits a Bootstrap only as tape file 0")
  let tapeFileNumber ← builder.nextTapeFileNumber
  builder.pushRow (.bootstrap tapeFileNumber 1)

def pushParityMap (blockCount : UInt64) := builder.pushBody fun tapeFileNumber =>
  .ok (.parityMap tapeFileNumber blockCount)

def pushTapeIndexReplica (blockCount : UInt64) := builder.pushBody fun tapeFileNumber =>
  .ok (.tapeIndexReplica tapeFileNumber blockCount)

def pushIndexSeparationExtent (blockCount : UInt64) := builder.pushBody fun tapeFileNumber =>
  .ok (.indexSeparationExtent tapeFileNumber blockCount)

def build : Except ParityError FilemarkMap := FilemarkMap.new builder.entries

end FilemarkMapBuilder

inductive TapeFilePush where
  | object (blockCount : UInt64)
  | paritySidecar (blockCount epochId protectedOrdinalStart protectedOrdinalEndExclusive : UInt64)
  | bootstrap
  | parityMap (blockCount : UInt64)
  | tapeIndexReplica (blockCount : UInt64)
  | indexSeparationExtent (blockCount : UInt64)

namespace FilemarkMapBuilder

def push (builder : FilemarkMapBuilder) :
    TapeFilePush → Except ParityError (TapeFileMapEntry×FilemarkMapBuilder)
  | .object blockCount => builder.pushObject blockCount
  | .paritySidecar blockCount epochId start stop =>
    builder.pushParitySidecar blockCount epochId start stop
  | .bootstrap => builder.pushBootstrap
  | .parityMap blockCount => builder.pushParityMap blockCount
  | .tapeIndexReplica blockCount => builder.pushTapeIndexReplica blockCount
  | .indexSeparationExtent blockCount => builder.pushIndexSeparationExtent blockCount

/-- Calls one after the other; a refused one leaves the builder as it is. -/
def pushes : FilemarkMapBuilder → List TapeFilePush → FilemarkMapBuilder
  | builder,[] => builder
  | builder,call::calls => pushes ((builder.push call).toOption.elim builder Prod.snd) calls

variable {builder : FilemarkMapBuilder} {call : TapeFilePush} {entry : TapeFileMapEntry}
  {rows : List TapeFileMapEntry}

theorem acceptedRows_concat : AcceptedRows [] (rows++[entry]) ↔
    AcceptedRows [] rows ∧ RowAccepted rows entry := by
  simp [acceptedRows_append,AcceptedRows]

theorem StartsAtBot.append (h : StartsAtBot rows) (more : List TapeFileMapEntry) :
    StartsAtBot (rows++more) := by
  obtain ⟨bot,hhead,hbot⟩ := h
  exact ⟨bot,by rw [head?_append,Option.mem_def.mp hhead]; rfl,hbot⟩

theorem foldlM_addOrdinals (h : AcceptedRows [] rows) :
    rows.foldlM addOrdinals 0=.ok (objectBlocks rows) := by
  induction rows using List.reverseRecOn with
  | nil => rfl
  | append_singleton rows entry ih =>
    obtain ⟨hrows,hlast⟩ := acceptedRows_concat.mp h
    rw [foldlM_append,ih hrows,ok_bind,foldlM_cons,addOrdinals,objectBlocks_append,
      objectBlocks_singleton]
    by_cases hkind : entry.kind=.object
    · obtain ⟨first,-,-,hfits⟩ := hlast.first hkind
      rw [if_pos hkind,if_pos hkind,rejectIf_pos (not_lt.mpr hfits)]
      rfl
    · rw [if_neg hkind,if_neg hkind]
      rfl

/-- What is known of a row that was pushed. -/
structure Pushed (builder : FilemarkMapBuilder) (entry : TapeFileMapEntry) : Prop where
  numbered : entry.tapeFileNumber.toNat=builder.baseTapeFileCount+builder.entries.length
  fields : entry.validate=.ok ()
  bot : builder.baseTapeFileCount=0 → StartsAtBot (builder.entries++[entry])
  sole : builder.entries.length≠0 → entry.kind≠.bootstrap
  first : entry.kind=.object → ∃ total, builder.currentTotalDataOrdinals=.ok total ∧
    entry.firstParityDataOrdinal=some (UInt64.ofNat total)

theorem nextTapeFileNumber_eq_ok {number : UInt64} (h : builder.nextTapeFileNumber=.ok number) :
    number.toNat=builder.baseTapeFileCount+builder.entries.length := by
  simp only [nextTapeFileNumber,eq_ok] at h
  obtain ⟨_,hle,rfl⟩ := h
  rw [u64Max] at hle
  exact UInt64.toNat_ofNat_of_lt' (by rw [UInt64.size]; omega)

theorem push_eq_ok {next : FilemarkMapBuilder} (h : builder.push call=.ok (entry,next)) :
    Pushed builder entry ∧ next={ builder with entries := builder.entries++[entry] } := by
  have hbody {row : UInt64 → Except ParityError TapeFileMapEntry}
      (h : builder.pushBody row=.ok (entry,next))
      (hrow : ∀ number, row number=.ok entry → entry.tapeFileNumber=number ∧
        entry.kind≠.bootstrap ∧ (entry.kind=.object → ∃ total,
          builder.currentTotalDataOrdinals=.ok total ∧
            entry.firstParityDataOrdinal=some (UInt64.ofNat total))) :
      Pushed builder entry ∧ next={ builder with entries := builder.entries++[entry] } := by
    simp only [pushBody,requireBotAuthority,pushRow,eq_ok,Prod.mk.injEq,not_and,not_not] at h
    obtain ⟨_,hbot,number,hnumber,_,hentry,_,hvalid,rfl,rfl⟩ := h
    obtain ⟨rfl,hkind,hfirst⟩ := hrow number hentry
    exact ⟨⟨nextTapeFileNumber_eq_ok hnumber,hvalid,fun hzero => (hbot hzero).append _,
      fun _ => hkind,hfirst⟩,rfl⟩
  cases call with
  | object blockCount =>
    refine hbody h fun number hrow => ?_
    simp only [eq_ok] at hrow
    obtain ⟨total,htotal,rfl⟩ := hrow
    exact ⟨rfl,by rintro ⟨⟩,fun _ => ⟨total,htotal,rfl⟩⟩
  | bootstrap =>
    simp only [push,pushBootstrap,pushRow,eq_ok,Prod.mk.injEq,not_or,not_not] at h
    obtain ⟨_,⟨hzero,hempty⟩,number,hnumber,_,hvalid,rfl,rfl⟩ := h
    have hnumber := nextTapeFileNumber_eq_ok hnumber
    refine ⟨⟨hnumber,hvalid,fun _ => ⟨.bootstrap number 1,by rw [hempty]; rfl,?_,rfl,rfl⟩,
      fun hne => absurd (by rw [hempty]; rfl) hne,by rintro ⟨⟩⟩,rfl⟩
    rw [hzero,hempty] at hnumber
    exact UInt64.toNat_inj.mp hnumber
  | paritySidecar | parityMap | tapeIndexReplica | indexSeparationExtent =>
    refine hbody h fun number hrow => ?_
    cases hrow
    exact ⟨rfl,by rintro ⟨⟩,by rintro ⟨⟩⟩

/-- Rows that validation accepts if their positions fit. -/
structure Sound (rows : List TapeFileMapEntry) : Prop where
  bot : rows≠[] → StartsAtBot rows
  accepted : prefixLength rows ≤ u64Max+1 → AcceptedRows [] rows

theorem Sound.push (h : Sound rows) (hpush : Pushed ⟨rows,0,0⟩ entry) : Sound (rows++[entry]) := by
  refine ⟨fun _ => hpush.bot rfl,fun hfits => ?_⟩
  rw [prefixLength_append,prefixLength_singleton] at hfits
  have hrows := h.accepted (by omega)
  refine acceptedRows_concat.mpr ⟨hrows,hpush.numbered.trans (zero_add _),hpush.fields,by omega,
    hpush.sole,fun hkind => ?_⟩
  obtain ⟨total,htotal,hfirst⟩ := hpush.first hkind
  rw [currentTotalDataOrdinals,foldlM_addOrdinals hrows,Except.ok.injEq] at htotal
  subst htotal
  have hle := objectBlocks_le_prefixLength rows
  refine ⟨_,hfirst,UInt64.toNat_ofNat_of_lt' ?_,by omega⟩
  rw [u64Max] at hfits
  rw [UInt64.size]
  omega

theorem Sound.pushes (h : Sound rows) (calls : List TapeFilePush) :
    Sound (FilemarkMapBuilder.pushes ⟨rows,0,0⟩ calls).entries := by
  induction calls generalizing rows with
  | nil => exact h
  | cons call calls ih =>
    rw [FilemarkMapBuilder.pushes]
    cases hpush : FilemarkMapBuilder.push ⟨rows,0,0⟩ call with
    | error error => exact ih h
    | ok result =>
      obtain ⟨hpushed,hnext⟩ := push_eq_ok hpush
      rw [Except.toOption,Option.elim_some,hnext]
      exact ih (h.push hpushed)

/-- Whatever files were pushed, on an empty tape or behind a committed map, the map builds unless
there is no file or the last filemark has no 64-bit position. -/
theorem build_pushes (prior : Option FilemarkMap) (calls : List TapeFilePush) :
    (∃ map, (pushes (prior.elim new fromCommittedPrefix) calls).build=.ok map) ↔
      (pushes (prior.elim new fromCommittedPrefix) calls).entries≠[] ∧
        prefixLength (pushes (prior.elim new fromCommittedPrefix) calls).entries ≤ u64Max+1 := by
  have hsound : Sound (pushes (prior.elim new fromCommittedPrefix) calls).entries := by
    cases prior with
    | none => exact Sound.pushes ⟨fun h => absurd rfl h,fun _ => trivial⟩ calls
    | some map => exact Sound.pushes ⟨fun _ => map.mapRows.1,fun _ => map.mapRows.2⟩ calls
  rw [build,FilemarkMap.exists_new_eq_ok]
  constructor
  · rintro ⟨⟨bot,hhead,-⟩,haccepted⟩
    rcases eq_nil_or_concat (pushes (prior.elim new fromCommittedPrefix) calls).entries with
      hrows | ⟨rows,last,hrows⟩
    · rw [hrows] at hhead
      cases hhead
    · rw [hrows,concat_eq_append,acceptedRows_concat] at haccepted
      have hfits := haccepted.2.fits
      rw [hrows,concat_eq_append,prefixLength_append,prefixLength_singleton]
      exact ⟨by simp,by omega⟩
  · rintro ⟨hne,hfits⟩
    exact ⟨hsound.bot hne,hsound.accepted hfits⟩

/-- The builder that keeps the rows in front as well. -/
def behind (rows : List TapeFileMapEntry) (builder : FilemarkMapBuilder) : FilemarkMapBuilder :=
  ⟨rows++builder.entries,0,0⟩

variable {map : FilemarkMap}

theorem behind_push (hcount : builder.baseTapeFileCount=map.tapeFileCount)
    (htotal : builder.baseTotalDataOrdinals=map.totalDataOrdinals) :
    (behind map.entries builder).push call=
      (builder.push call).map fun result => (result.1,behind map.entries result.2) := by
  obtain ⟨hbot,hrows⟩ := map.mapRows
  have hne : map.entries≠[] := by
    intro h
    obtain ⟨bot,hhead,-⟩ := hbot
    rw [h] at hhead
    cases hhead
  have hpos : builder.baseTapeFileCount≠0 := hcount ▸ mt length_eq_zero_iff.mp hne
  have hnumber : (behind map.entries builder).nextTapeFileNumber=builder.nextTapeFileNumber := by
    simp only [nextTapeFileNumber,behind,length_append,zero_add,hcount,FilemarkMap.tapeFileCount]
  have hordinals : (behind map.entries builder).currentTotalDataOrdinals=
      builder.currentTotalDataOrdinals := by
    rw [currentTotalDataOrdinals,behind,foldlM_append,foldlM_addOrdinals hrows,ok_bind,
      currentTotalDataOrdinals,htotal,map.totalDataOrdinals_eq]
  have hwhole : (behind map.entries builder).requireBotAuthority=.ok () :=
    rejectIf_pos fun h => h.2 (StartsAtBot.append hbot _)
  have hbounded : builder.requireBotAuthority=.ok () := rejectIf_pos fun h => hpos h.1
  have hbody (row : UInt64 → Except ParityError TapeFileMapEntry) :
      (behind map.entries builder).pushBody row=
        (builder.pushBody row).map fun result => (result.1,behind map.entries result.2) := by
    simp only [pushBody,hwhole,hbounded,hnumber,ok_bind]
    cases builder.nextTapeFileNumber with
    | error error => rfl
    | ok number =>
      simp only [ok_bind]
      cases row number with
      | error error => rfl
      | ok entry =>
        simp only [ok_bind,pushRow]
        cases entry.validate with
        | error error => rfl
        | ok => simp [behind,Except.map,pure,Except.pure]
  cases call with
  | object blockCount =>
    simp only [push,pushObject,hordinals]
    exact hbody _
  | bootstrap =>
    simp only [push,pushBootstrap]
    rw [rejectIf_neg (.inr (by simp [behind,hne])),rejectIf_neg (.inl hpos)]
    rfl
  | paritySidecar | parityMap | tapeIndexReplica | indexSeparationExtent => exact hbody _

theorem behind_pushes (hcount : builder.baseTapeFileCount=map.tapeFileCount)
    (htotal : builder.baseTotalDataOrdinals=map.totalDataOrdinals) (calls : List TapeFilePush) :
    (behind map.entries builder).pushes calls=behind map.entries (builder.pushes calls) := by
  induction calls generalizing builder with
  | nil => rfl
  | cons call calls ih =>
    rw [pushes,pushes,behind_push hcount htotal]
    cases hpush : builder.push call with
    | error error => exact ih hcount htotal
    | ok result =>
      obtain ⟨-,hnext⟩ := push_eq_ok hpush
      refine ih ?_ ?_
      · exact (congrArg baseTapeFileCount hnext).trans hcount
      · exact (congrArg baseTotalDataOrdinals hnext).trans htotal

/-- Resuming from the two totals of a map appends the rows that resuming from its rows appends. -/
theorem fromBoundedPrefix_pushes (map : FilemarkMap) (calls : List TapeFilePush) :
    ((fromCommittedPrefix map).pushes calls).entries=map.entries++
      ((fromBoundedPrefix map.tapeFileCount map.totalDataOrdinals).pushes calls).entries := by
  have hstart : fromCommittedPrefix map=
      behind map.entries (fromBoundedPrefix map.tapeFileCount map.totalDataOrdinals) := by
    rw [behind,fromBoundedPrefix,append_nil,fromCommittedPrefix]
  rw [hstart,behind_pushes rfl rfl,behind]

end FilemarkMapBuilder

end Remanence.Parity
