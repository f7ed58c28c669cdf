import Remanence.Parity.RecoveryLaw

/-!
# What pins an acquired sidecar index

One acquisition may follow a footer, a directory entry, the terminal index or the geometry of
the primary copy. The index that is returned has the metadata hash of each available authority;
without one, two valid copies must agree.
-/

namespace Remanence.Parity.Recovery

open Foundation Sidecar

/-- Directory state of one run. Only failed attempts are retried. -/
inductive DirectoryCache where
  | unattempted
  | loaded (directory : SidecarEpochDirectory)
  | absent
  | failed
deriving DecidableEq

def DirectoryCache.directory : DirectoryCache → Option SidecarEpochDirectory
  | .loaded directory => some directory
  | .unattempted => none
  | .absent => none
  | .failed => none

/-- Cache after the final parity map was consulted, unless its read aborts the acquisition. -/
def refreshCache (scopedMap : ScopedFilemarkMap) (tolerateFaults : Bool)
    (loaded : Except ParityError (Option SidecarEpochDirectory)) (cache : DirectoryCache) :
    Except ParityError DirectoryCache :=
  if scopedMap.sidecarDirectory.isNone ∧ (cache=.unattempted ∨ cache=.failed) then
    match loaded with
    | .ok (some directory) => .ok (.loaded directory)
    | .ok none => .ok .absent
    | .error .filemarkMapDigestMismatch => .ok .absent
    | .error (.tapeIo fault) => if tolerateFaults then .ok .failed else .error (.tapeIo fault)
    | .error error => .error error
  else .ok cache

section Acquisition

variable (hash : HashFunctions) (tape : Tape) (scopedMap : ScopedFilemarkMap)
  (sidecarEntry : TapeFileMapEntry) (tapeUuid : FixedBytes 16) (blockSize : ℕ)
  (parse : ParityMapParser) (scheme : ParityScheme) (cache : DirectoryCache)

/-- Cache after the directory was consulted for a sidecar: a valid footer tolerates faults. -/
def consultedCache : Except ParityError DirectoryCache :=
  refreshCache scopedMap
    (readSidecarFooter hash tape scopedMap sidecarEntry tapeUuid blockSize).isSome
    (readFinalSidecarDirectory parse tape scopedMap.map tapeUuid blockSize) cache

def consultedEvidence : Except ParityError DirectoryEvidence := do
  let cache ← consultedCache hash tape scopedMap sidecarEntry tapeUuid blockSize parse cache
  return classifyDirectory sidecarEntry (schemeParityBlocks scheme)
    (scopedMap.sidecarDirectory.or cache.directory)

def readAndParseSidecarIndexCached : Except ParityError SidecarIndexRead×DirectoryCache :=
  if sidecarEntry.blockCount=0 then
    (.error (sidecarParse
      s!"sidecar map entry {sidecarEntry.tapeFileNumber.toNat} has zero block_count"),cache)
  else
    match consultedCache hash tape scopedMap sidecarEntry tapeUuid blockSize parse cache with
    | .error error => (.error error,.failed)
    | .ok cache =>
      let parity := schemeParityBlocks scheme
      let directory := classifyDirectory sidecarEntry parity
        (scopedMap.sidecarDirectory.or cache.directory)
      match readSidecarFooter hash tape scopedMap sidecarEntry tapeUuid blockSize with
      | some footer => (readSidecarIndexByFooter hash tape scopedMap sidecarEntry tapeUuid blockSize
          footer directory parity,cache)
      | none => (readSidecarIndexWithoutFooter hash tape scopedMap sidecarEntry tapeUuid blockSize
          scheme directory,cache)

end Acquisition

variable {hash : HashFunctions} {tape : Tape} {scopedMap : ScopedFilemarkMap}
  {sidecarEntry : TapeFileMapEntry} {tapeUuid : FixedBytes 16} {blockSize : ℕ}
  {parse : ParityMapParser} {scheme : ParityScheme} {cache : DirectoryCache}

theorem directoryEvidence_eq (tolerateFaults : Bool) (parity : ℕ)
    (loaded : Except ParityError (Option SidecarEpochDirectory)) :
    directoryEvidence scopedMap sidecarEntry parity tolerateFaults loaded=
      (refreshCache scopedMap tolerateFaults loaded .unattempted).map fun cache =>
        classifyDirectory sidecarEntry parity (scopedMap.sidecarDirectory.or cache.directory) := by
  unfold directoryEvidence refreshCache
  cases scopedMap.sidecarDirectory with
  | some directory => rfl
  | none =>
    simp only [Option.isNone_none,if_true,true_and,true_or]
    rcases loaded with error | (_ | directory)
    · cases error with
      | tapeIo fault => cases tolerateFaults <;> rfl
      | _ => rfl
    · rfl
    · rfl

theorem readAndParseSidecarIndexCached_unattempted :
    (readAndParseSidecarIndexCached hash tape scopedMap sidecarEntry tapeUuid blockSize parse scheme
      .unattempted).1=
    readAndParseSidecarIndex hash tape scopedMap sidecarEntry tapeUuid blockSize parse scheme := by
  unfold readAndParseSidecarIndexCached readAndParseSidecarIndex consultedCache
  by_cases hzero : sidecarEntry.blockCount=0
  · rw [if_pos hzero,rejectIf_neg hzero]
    rfl
  · rw [if_neg hzero,rejectIf_pos hzero,ok_bind]
    simp only [directoryEvidence_eq]
    cases readSidecarFooter hash tape scopedMap sidecarEntry tapeUuid blockSize with
    | some footer =>
      simp only [Option.isSome_some]
      cases refreshCache scopedMap true
        (readFinalSidecarDirectory parse tape scopedMap.map tapeUuid blockSize) .unattempted <;> rfl
    | none =>
      simp only [Option.isSome_none]
      cases refreshCache scopedMap false
        (readFinalSidecarDirectory parse tape scopedMap.map tapeUuid blockSize) .unattempted <;> rfl

variable {decoded : DecodedSidecarIndex}

theorem readSidecarIndexCopy_hash {footer : SidecarFooter} {kind : SidecarCopyKind}
    (h : readSidecarIndexCopy hash tape scopedMap sidecarEntry tapeUuid blockSize footer kind=
      .ok decoded) : decoded.header.canonicalMetadataHash=footer.canonicalMetadataHash := by
  simp only [readSidecarIndexCopy,eq_ok] at h
  obtain ⟨_,_,_,_,_,_,_,hmatches,rfl⟩ := h
  simp only [not_or,not_not] at hmatches
  exact hmatches.2.2.2.2.2

variable {read : SidecarIndexRead}

theorem selectIndexCopy_eq_ok {primary tail : Except ParityError DecodedSidecarIndex}
    (h : selectIndexCopy sidecarEntry primary tail=.ok read) :
    primary=.ok read.index ∨ tail=.ok read.index := by
  unfold selectIndexCopy at h
  split at h
  · rw [←Except.ok.inj h]
    exact .inl rfl
  · rw [←Except.ok.inj h]
    exact .inl rfl
  · rw [←Except.ok.inj h]
    exact .inr rfl
  · cases h

theorem readSidecarIndexByFooter_hash {footer : SidecarFooter} {directory : DirectoryEvidence}
    {parity : ℕ}
    (h : readSidecarIndexByFooter hash tape scopedMap sidecarEntry tapeUuid blockSize footer directory
      parity=.ok read) :
    read.index.header.canonicalMetadataHash=footer.canonicalMetadataHash ∧
      ∀ entry, directory=.available entry →
        read.index.header.canonicalMetadataHash=entry.canonicalMetadataHash := by
  simp only [readSidecarIndexByFooter,eq_ok] at h
  obtain ⟨_,hquiet,hselect⟩ := h
  have hfooter : read.index.header.canonicalMetadataHash=footer.canonicalMetadataHash := by
    rcases selectIndexCopy_eq_ok hselect with hcopy | hcopy
    all_goals exact readSidecarIndexCopy_hash hcopy
  refine ⟨hfooter,?_⟩
  rintro entry rfl
  simp only [directoryContradicts,Bool.or_eq_true,decide_eq_true_eq,not_or,not_not] at hquiet
  rw [hfooter,hquiet.1.1]

variable {entry : SidecarEpochDirectoryEntry}

theorem readDirectoryTailIndex_hash {parity : ℕ}
    (h : readDirectoryTailIndex hash tape scopedMap sidecarEntry tapeUuid blockSize entry parity=
      .ok decoded) : decoded.header.canonicalMetadataHash=entry.canonicalMetadataHash := by
  simp only [readDirectoryTailIndex,eq_ok,not_not] at h
  obtain ⟨_,_,_,_,_,_,_,_,_,hhash,_,_,rfl⟩ := h
  exact hhash

theorem rescued_eq_ok {outcome : Except ParityError DecodedSidecarIndex}
    (h : rescued sidecarEntry outcome=.ok read) : outcome=.ok read.index := by
  unfold rescued at h
  split at h
  · rw [←Except.ok.inj h]
  · cases h

theorem readSidecarIndexWithoutFooter_hash
    (h : readSidecarIndexWithoutFooter hash tape scopedMap sidecarEntry tapeUuid blockSize scheme
      (.available entry)=.ok read) :
    read.index.header.canonicalMetadataHash=entry.canonicalMetadataHash := by
  have hrescue : rescued sidecarEntry (readDirectoryTailIndex hash tape scopedMap sidecarEntry
      tapeUuid blockSize entry (schemeParityBlocks scheme))=.ok read →
      read.index.header.canonicalMetadataHash=entry.canonicalMetadataHash := fun hrescued =>
    readDirectoryTailIndex_hash (rescued_eq_ok hrescued)
  unfold readSidecarIndexWithoutFooter at h
  dsimp only at h
  split at h
  · split at h
    · rename_i hsame
      rw [←Except.ok.inj h]
      exact hsame
    · exact hrescue h
  · exact hrescue h

def CopiesAgree (primary tail : DecodedSidecarIndex) : Prop :=
  tail.header.canonicalMetadataHash=primary.header.canonicalMetadataHash ∧ tail.index=primary.index

instance (primary tail : DecodedSidecarIndex) : Decidable (CopiesAgree primary tail) :=
  inferInstanceAs (Decidable (_ ∧ _))

def readTailOfPrimary (hash : HashFunctions) (tape : Tape) (scopedMap : ScopedFilemarkMap)
    (sidecarEntry : TapeFileMapEntry) (tapeUuid : FixedBytes 16) (blockSize : ℕ)
    (scheme : ParityScheme) (primary : DecodedSidecarIndex) :
    Except ParityError DecodedSidecarIndex :=
  let h := primary.header.shardIndexBlockCount.toNat
  readTailCopyAt hash tape scopedMap sidecarEntry tapeUuid blockSize
    (min (h+schemeParityBlocks scheme) u64Max) h

/-- Without a footer and an entry, two valid copies are used only if they agree. -/
theorem readSidecarIndexWithoutFooter_copies {evidence : DirectoryEvidence}
    (hevidence : ∀ entry, evidence≠.available entry) {primary : SidecarIndexRead}
    {tail : DecodedSidecarIndex}
    (hprimary : readPrimarySidecarIndexWithoutFooter hash tape scopedMap sidecarEntry tapeUuid
      blockSize=.ok primary)
    (htail : readTailOfPrimary hash tape scopedMap sidecarEntry tapeUuid blockSize scheme
      primary.index=.ok tail) :
    readSidecarIndexWithoutFooter hash tape scopedMap sidecarEntry tapeUuid blockSize scheme evidence=
      if CopiesAgree primary.index tail then .ok ⟨primary.index,.bothCopiesUsable⟩
      else .error (sidecarMetadataUnavailableFromMapEntry sidecarEntry) := by
  rw [readTailOfPrimary] at htail
  cases evidence with
  | available entry => exact absurd rfl (hevidence entry)
  | _ =>
    simp only [readSidecarIndexWithoutFooter,hprimary,htail]
    by_cases hagree : CopiesAgree primary.index tail
    · rw [if_pos hagree,if_neg (by simp [hagree.1,hagree.2])]
    · rw [if_neg hagree,if_pos]
      by_contra hsame
      simp only [not_or,not_not] at hsame
      exact hagree hsame

theorem epochId_of_sidecar {map : FilemarkMap} (hrow : sidecarEntry ∈ map.entries)
    (hkind : sidecarEntry.kind=.paritySidecar) :
    sidecarEntry.blockCount≠0 ∧ ∃ epochId, sidecarEntry.epochId=some epochId := by
  obtain ⟨i,hi⟩ := List.mem_iff_getElem?.mp hrow
  have hfields := (map.rowAccepted hi).fields
  simp only [TapeFileMapEntry.validate,hkind,eq_ok] at hfields
  obtain ⟨_,hcount,hfields⟩ := hfields
  refine ⟨hcount,?_⟩
  split at hfields
  · rename_i epochId _ _ hepoch
    exact ⟨_,hepoch⟩
  · cases hfields

/-- An acquired index has the hash of the valid footer and of the available directory entry; without
either, two valid copies must agree. -/
theorem acquired_index_pinned (hash : HashFunctions) (tape : Tape) (scopedMap : ScopedFilemarkMap)
    (sidecarEntry : TapeFileMapEntry) (tapeUuid : FixedBytes 16) (blockSize : ℕ)
    (parse : ParityMapParser) (scheme : ParityScheme) (cache : DirectoryCache)
    (hrow : sidecarEntry ∈ scopedMap.map.entries) (hkind : sidecarEntry.kind=.paritySidecar) :
    (∀ read, (readAndParseSidecarIndexCached hash tape scopedMap sidecarEntry tapeUuid blockSize parse
        scheme cache).1=.ok read →
      (∀ footer, readSidecarFooter hash tape scopedMap sidecarEntry tapeUuid blockSize=some footer →
        read.index.header.canonicalMetadataHash=footer.canonicalMetadataHash) ∧
      ∀ entry, consultedEvidence hash tape scopedMap sidecarEntry tapeUuid blockSize parse scheme
          cache=.ok (.available entry) →
        read.index.header.canonicalMetadataHash=entry.canonicalMetadataHash) ∧
    ∀ evidence primary tail,
      readSidecarFooter hash tape scopedMap sidecarEntry tapeUuid blockSize=none →
      consultedEvidence hash tape scopedMap sidecarEntry tapeUuid blockSize parse scheme cache=
        .ok evidence → (∀ entry, evidence≠.available entry) →
      readPrimarySidecarIndexWithoutFooter hash tape scopedMap sidecarEntry tapeUuid blockSize=
        .ok primary →
      readTailOfPrimary hash tape scopedMap sidecarEntry tapeUuid blockSize scheme primary.index=
        .ok tail →
      ∃ epochId, sidecarEntry.epochId=some epochId ∧
        (readAndParseSidecarIndexCached hash tape scopedMap sidecarEntry tapeUuid blockSize parse
          scheme cache).1=
          if CopiesAgree primary.index tail then .ok ⟨primary.index,.bothCopiesUsable⟩
          else .error (.sidecarMetadataUnavailable epochId) := by
  obtain ⟨hcount,epochId,hepoch⟩ := epochId_of_sidecar hrow hkind
  unfold readAndParseSidecarIndexCached consultedEvidence
  rw [if_neg hcount]
  cases hcache : consultedCache hash tape scopedMap sidecarEntry tapeUuid blockSize parse cache with
  | error error =>
    constructor
    · intro read hread
      cases hread
    · intro evidence primary tail _ hevidence
      cases hevidence
  | ok cache =>
    simp only [ok_bind,pure_eq_ok]
    constructor
    · intro read hread
      cases hfooter : readSidecarFooter hash tape scopedMap sidecarEntry tapeUuid blockSize with
      | some footer =>
        rw [hfooter] at hread
        obtain ⟨hhash,hentry⟩ := readSidecarIndexByFooter_hash hread
        exact ⟨fun footer' hsame => by rw [hhash,Option.some.inj hsame],hentry⟩
      | none =>
        rw [hfooter] at hread
        constructor
        · intro footer' hsame
          cases hsame
        · intro entry hentry
          rw [hentry] at hread
          exact readSidecarIndexWithoutFooter_hash hread
    · rintro evidence primary tail hfooter rfl havailable hprimary htail
      refine ⟨epochId,hepoch,?_⟩
      have hunavailable : sidecarMetadataUnavailableFromMapEntry sidecarEntry=
          .sidecarMetadataUnavailable epochId := by
        rw [sidecarMetadataUnavailableFromMapEntry,hepoch]
      rw [hfooter,←hunavailable]
      exact readSidecarIndexWithoutFooter_copies havailable hprimary htail

theorem acquired_index_pinned_smallEpoch : ∃ epoch : ProtectedEpoch constantHash,
    ∃ read footer, (readAndParseSidecarIndexCached constantHash (smallTape epoch.file [6])
        (smallScoped none) (.paritySidecar 2 7 0 0 3) epoch.descriptor.tapeUuid
        epoch.descriptor.blockSize.toNat (fun _ _ => none) epoch.scheme .unattempted).1=.ok read ∧
      readSidecarFooter constantHash (smallTape epoch.file [6]) (smallScoped none)
        (.paritySidecar 2 7 0 0 3) epoch.descriptor.tapeUuid epoch.descriptor.blockSize.toNat=
          some footer ∧
      read.index.header.canonicalMetadataHash=footer.canonicalMetadataHash := by
  obtain ⟨epoch,h⟩ := exists_smallEpoch
  have hlaid := h.laidOut none
  have hdamaged : Damaged epoch smallMap 2 (smallTape epoch.file [6]) := h.damaged (by decide)
  have hparity : schemeParityBlocks epoch.scheme=
      epoch.descriptor.stripesPerEpoch.toNat*epoch.descriptor.m.toNat := by
    rw [h.scheme_eq,h.descriptor_eq]
    rfl
  have hagrees : DirectoryAgrees (fun _ _ => none) (smallTape epoch.file [6]) (smallScoped none)
      epoch.scheme epoch.descriptor epoch.file (.paritySidecar 2 7 0 0 3) := by
    intro row hrow
    cases hrow
  obtain ⟨read,hread,-⟩ := readAndParseSidecarIndex_survives epoch.sidecar hlaid.row
    hdamaged.metadata hparity hagrees
  obtain ⟨crc,hfooter⟩ := readSidecarFooter_written epoch.sidecar hlaid.row hdamaged.metadata.footer
  rw [←readAndParseSidecarIndexCached_unattempted] at hread
  have hpinned := (acquired_index_pinned constantHash (smallTape epoch.file [6]) (smallScoped none)
    (.paritySidecar 2 7 0 0 3) epoch.descriptor.tapeUuid epoch.descriptor.blockSize.toNat
    (fun _ _ => none) epoch.scheme .unattempted (by decide) rfl).1 read hread
  exact ⟨epoch,read,_,hread,hfooter,hpinned.1 _ hfooter⟩

end Remanence.Parity.Recovery
