import Remanence.Stream.OutputPaths

/-!
# What one call of the recovery sink changes

A call changes the bytes of the file it is about and those of the manifest,
and the manifest only grows. Every other file of the destination stays as it
is when no file has two names.
-/

namespace Remanence.Stream.Recovery

open Foundation Format
open Triple (throw pure modify bind_get imp)

structure OutputTree.Unaliased (tree : OutputTree) : Prop where
  used : ∀ path inode, tree.node path=some (.file inode) → inode < tree.next
  unique : ∀ p q inode, tree.node p=some (.file inode) → tree.node q=some (.file inode) → p=q

/-- Files stay where they are, and only files at these paths may get other bytes. -/
structure OutputTree.Changes (paths : List (List String)) (a b : OutputTree) : Prop where
  files : ∀ path inode, a.node path=some (.file inode) → b.node path=some (.file inode)
  unaliased : a.Unaliased → b.Unaliased
  content : a.Unaliased → ∀ path inode, a.node path=some (.file inode) → path ∉ paths →
    b.content inode=a.content inode

namespace OutputTree

variable {a b c : OutputTree} {paths : List (List String)} {path : List String} {inode : ℕ}

theorem Changes.refl : a.Changes paths a := ⟨fun _ _ h => h,fun h => h,fun _ _ _ _ _ => rfl⟩

theorem Changes.trans (h : a.Changes paths b) (h' : b.Changes paths c) : a.Changes paths c := by
  refine ⟨fun p i hi => h'.files p i (h.files p i hi),fun ha => h'.unaliased (h.unaliased ha),
    fun ha p i hi hp => ?_⟩
  rw [h'.content (h.unaliased ha) p i (h.files p i hi) hp,h.content ha p i hi hp]

theorem Changes.mono {more : List (List String)} (h : a.Changes paths b) (hsub : paths ⊆ more) :
    a.Changes more b :=
  ⟨h.files,h.unaliased,fun ha p i hi hp => h.content ha p i hi fun hmem => hp (hsub hmem)⟩

theorem node_put_of_file {node : TreeNode} {p : List String} (hfree : a.node path=none)
    (h : a.node p=some (.file inode)) : (a.put path node).node p=some (.file inode) := by
  have hne : p≠path := by
    rintro rfl
    rw [hfree] at h
    cases h
  exact (Function.update_of_ne hne _ _).trans h

theorem changes_putDirectory (hfree : a.node path=none) : a.Changes paths (a.put path .directory) := by
  have hold : ∀ p i, (a.put path .directory).node p=some (.file i) → a.node p=some (.file i) := by
    intro p i h
    by_cases hp : p=path
    · subst hp
      have hnew : (a.put p .directory).node p=some .directory := Function.update_self _ _ _
      rw [hnew] at h
      cases h
    · exact (Function.update_of_ne hp _ _).symm.trans h
  refine ⟨fun p i hi => node_put_of_file hfree hi,fun ha => ⟨fun p i hi => ?_,fun p q i hp hq => ?_⟩,
    fun _ _ _ _ _ => rfl⟩
  · exact ha.used p i (hold p i hi)
  · exact ha.unique p q i (hold p i hp) (hold q i hq)

theorem node_createFile : (a.createFile path).node path=some (.file a.next) :=
  Function.update_self _ _ _

theorem changes_createFile (hfree : a.node path=none) : a.Changes paths (a.createFile path) := by
  have hcases : ∀ p i, (a.createFile path).node p=some (.file i) →
      p=path ∧ i=a.next ∨ a.node p=some (.file i) := by
    intro p i h
    by_cases hp : p=path
    · subst hp
      rw [node_createFile] at h
      cases h
      exact .inl ⟨rfl,rfl⟩
    · exact .inr ((Function.update_of_ne hp _ _).symm.trans h)
  refine ⟨fun p i hi => node_put_of_file hfree hi,fun ha => ⟨fun p i hi => ?_,fun p q i hp hq => ?_⟩,
    fun ha p i hi _ => ?_⟩
  · change i < a.next+1
    rcases hcases p i hi with ⟨-,rfl⟩ | hi
    · omega
    · have := ha.used p i hi
      omega
  · rcases hcases p i hp with ⟨rfl,rfl⟩ | hold
    · rcases hcases q _ hq with ⟨rfl,-⟩ | hold
      · rfl
      · exact absurd (ha.used q _ hold) (lt_irrefl _)
    · rcases hcases q i hq with ⟨rfl,rfl⟩ | hold'
      · exact absurd (ha.used p _ hold) (lt_irrefl _)
      · exact ha.unique p q i hold hold'
  · exact Function.update_of_ne (ne_of_lt (ha.used p i hi)) _ _

theorem changes_write {bytes : Bytes} (h : a.node path=some (.file inode)) (hpath : path ∈ paths) :
    a.Changes paths (a.write inode bytes) := by
  refine ⟨fun _ _ hi => hi,fun ha => ⟨ha.used,ha.unique⟩,fun ha p i hi hp => ?_⟩
  refine Function.update_of_ne ?_ _ _
  rintro rfl
  exact hp (ha.unique p path i hi h ▸ hpath)

end OutputTree

open OutputTree

section Destination

variable {rootPath : String} {a : OutputTree} {paths : List (List String)}

theorem bind_liftTree {α β : Type} {result : Except FormatError α} {inv : OutputTree → Prop}
    {f : α → OnTree β} {post : β → OutputTree → Prop}
    (h : ∀ value, result=.ok value → Triple inv (f value) post inv) :
    Triple inv (liftTree result >>= f) post inv := by
  intro tree htree
  cases result with
  | ok value => exact h value rfl tree htree
  | error e => exact htree

variable {path : List String}

theorem ensureRestoreDirectory_changes :
    Triple (a.Changes paths) (ensureRestoreDirectory rootPath path) (fun _ => a.Changes paths)
      (a.Changes paths) := by
  refine Triple.bind Triple.get fun tree => ?_
  cases hnode : tree.node path with
  | none =>
    rintro _ ⟨rfl,htree⟩
    exact htree.trans (changes_putDirectory hnode)
  | some node =>
    cases node with
    | directory => exact pure fun _ h => h.2
    | file inode => exact throw fun _ h => h.2
    | symlink target => exact throw fun _ h => h.2

theorem ensureDirectories_changes {current rest : List String} :
    Triple (a.Changes paths) (ensureDirectories rootPath current rest) (fun _ => a.Changes paths)
      (a.Changes paths) := by
  induction rest generalizing current with
  | nil => exact pure fun _ h => h
  | cons part rest ih => exact Triple.bind ensureRestoreDirectory_changes fun _ => ih

theorem createRestoreDirsSecure_changes {relative : String} :
    Triple (a.Changes paths) (createRestoreDirsSecure rootPath relative)
      (fun names tree => a.Changes paths tree ∧ normalizedRelativeComponents relative=.ok names)
      (a.Changes paths) := by
  refine bind_liftTree fun names hnames => ?_
  exact Triple.bind ensureDirectories_changes fun _ => pure fun _ h => ⟨h,hnames⟩

theorem createRestoreParentDirsSecure_changes {relative : String} :
    Triple (a.Changes paths) (createRestoreParentDirsSecure rootPath relative)
      (fun names tree => a.Changes paths tree ∧ normalizedRelativeComponents relative=.ok names)
      (a.Changes paths) := by
  refine bind_liftTree fun names hnames => ?_
  refine Triple.bind ensureDirectories_changes fun _ => ?_
  refine Triple.bind Triple.get fun tree => ?_
  cases tree.node names with
  | none => exact pure fun _ h => ⟨h.2,hnames⟩
  | some node =>
    cases node with
    | directory | file => exact pure fun _ h => ⟨h.2,hnames⟩
    | symlink target => exact throw fun _ h => h.2

theorem openFile_changes {context : String} :
    Triple (a.Changes paths) (openFile rootPath context path)
      (fun inode tree => a.Changes paths tree ∧ tree.node path=some (.file inode))
      (a.Changes paths) := by
  refine Triple.bind Triple.get fun tree => ?_
  cases hnode : tree.node path with
  | none =>
    rintro _ ⟨rfl,htree⟩
    exact ⟨htree.trans (changes_createFile hnode),node_createFile⟩
  | some node =>
    cases node with
    | directory => exact throw fun _ h => h.2
    | symlink target => exact throw fun _ h => h.2
    | file inode =>
      refine pure ?_
      rintro _ ⟨rfl,htree⟩
      exact ⟨htree,hnode⟩

theorem preSize_changes {inode : ℕ} {sizeBytes : Option UInt64} (hpath : path ∈ paths) :
    Triple (fun tree => a.Changes paths tree ∧ tree.node path=some (.file inode))
      (preSize inode sizeBytes)
      (fun _ tree => a.Changes paths tree ∧ tree.node path=some (.file inode))
      (a.Changes paths) := by
  unfold preSize
  cases sizeBytes with
  | none => exact pure fun _ h => h
  | some size =>
    dsimp only
    split_ifs
    · exact modify fun tree h => ⟨h.1.trans (changes_write h.2 hpath),h.2⟩
    · exact pure fun _ h => h

end Destination

variable {s : RecoveryFilesystemSink}

theorem onTree_triple {α : Type} {x : OnTree α} {pre err : OutputTree → Prop} {post : α → OutputTree → Prop}
    {err' : RecoveryFilesystemSink → Prop}
    (hx : Triple pre x post err) (herr : ∀ tree, err tree → err' { s with tree := tree }) :
    Triple (fun s' => ∃ tree, pre tree ∧ s'={ s with tree := tree }) (onTree x)
      (fun value s' => ∃ tree, post value tree ∧ s'={ s with tree := tree }) err' := by
  rintro _ ⟨tree,htree,rfl⟩
  have hrun := hx tree htree
  unfold onTree
  cases hresult : x tree with
  | ok value tree' =>
    rw [hresult] at hrun
    exact ⟨tree',hrun,rfl⟩
  | error e tree' =>
    rw [hresult] at hrun
    exact herr tree' hrun

def chosenBy (s : RecoveryFilesystemSink) : RecoveryEvent → Option (NormalizedEntry×String)
  | .beginEntry entry => match s.current with
    | .idle =>
      if entry.kind=.directory then none
      else (s.assignOutputPath (recoveryRelativePath entry) entry.fileId).map fun r => (entry,r.1)
    | _ => none
  | _ => none

def destinationOf (outputPath : String) : Option (List String) :=
  (normalizedRelativeComponents outputPath).toOption

def RecoveryFilesystemSink.target (s : RecoveryFilesystemSink) : Option (List String×ℕ) :=
  match s.current with
  | .file _ _ destination inode _ _ _ _ _ => some (destination,inode)
  | _ => none

def destinationBy (s : RecoveryFilesystemSink) : RecoveryEvent → Option (List String)
  | .beginEntry entry => (chosenBy s (.beginEntry entry)).bind fun chosen =>
    if entry.kind=.regularFile then destinationOf chosen.2 else none
  | .writeFileData _ _ => s.target.map Prod.fst
  | _ => none

def Takes (s : RecoveryFilesystemSink) (s' : RecoveryFilesystemSink) :
    Option (NormalizedEntry×String) → Prop
  | none => s'.usedOutputPaths=s.usedOutputPaths ∧ s'.pathCollisionCounts=s.pathCollisionCounts
  | some (entry,path) => ∃ s'', s.assignOutputPath (recoveryRelativePath entry) entry.fileId=
      some (path,s'') ∧ s'.usedOutputPaths=s''.usedOutputPaths ∧
      s'.pathCollisionCounts=s''.pathCollisionCounts

structure Running (s : RecoveryFilesystemSink) : Prop where
  manifest : s.tree.node manifestNames=some (.file s.manifest)
  target : ∀ destination inode, s.target=some (destination,inode) →
    s.tree.node destination=some (.file inode)

structure Step (s : RecoveryFilesystemSink) (event : RecoveryEvent) (s' : RecoveryFilesystemSink) :
    Prop where
  manifest_eq : s'.manifest=s.manifest
  takes : Takes s s' (chosenBy s event)
  changes : s.tree.Changes (manifestNames::(destinationBy s event).toList) s'.tree
  appends : s.tree.Unaliased → destinationBy s event≠some manifestNames →
    ∃ added, s'.tree.content s.manifest=s.tree.content s.manifest++added
  /-- The open file is at its path, and it is the old one or the one the call is about. -/
  target : ∀ destination inode, s'.target=some (destination,inode) →
    s'.tree.node destination=some (.file inode) ∧
      (s.target=some (destination,inode) ∨ destinationBy s event=some destination)

variable {event : RecoveryEvent} {s' : RecoveryFilesystemSink}

theorem Step.running (h : Step s event s') (hs : Running s) : Running s' := by
  refine ⟨?_,fun destination inode htarget => (h.target destination inode htarget).1⟩
  rw [h.manifest_eq]
  exact h.changes.files _ _ hs.manifest

theorem Step.of_changes (hs : Running s)
    (hmanifest : s'.manifest=s.manifest) (htakes : Takes s s' (chosenBy s event))
    (hchanges : s.tree.Changes (destinationBy s event).toList s'.tree)
    (htarget : ∀ destination inode, s'.target=some (destination,inode) →
      s'.tree.node destination=some (.file inode) ∧
        (s.target=some (destination,inode) ∨ destinationBy s event=some destination)) :
    Step s event s' := by
  refine ⟨hmanifest,htakes,hchanges.mono fun p hp => List.mem_cons_of_mem _ hp,
    fun ha hne => ⟨[],?_⟩,htarget⟩
  rw [List.append_nil]
  refine hchanges.content ha manifestNames _ hs.manifest fun hmem => hne ?_
  cases hdestination : destinationBy s event with
  | none =>
    rw [hdestination] at hmem
    cases hmem
  | some destination =>
    rw [hdestination] at hmem
    rw [List.mem_singleton.mp hmem]

theorem Step.refl (hs : Running s) (hchosen : chosenBy s event=none) : Step s event s :=
  .of_changes hs rfl (by rw [hchosen]; exact ⟨rfl,rfl⟩) .refl fun destination inode h =>
    ⟨hs.target destination inode h,.inl h⟩

section Calls

variable {s : RecoveryFilesystemSink} {toJson : RecoveryManifestRecord → Bytes}

/-- Only records and counters have changed, or the current entry has ended. -/
structure Quiet (s t : RecoveryFilesystemSink) : Prop where
  tree : t.tree=s.tree
  manifest : t.manifest=s.manifest
  used : t.usedOutputPaths=s.usedOutputPaths
  counts : t.pathCollisionCounts=s.pathCollisionCounts
  target : t.target=s.target ∨ t.target=none

theorem writeManifestRecord_step {event : RecoveryEvent} {record : RecoveryManifestRecord}
    (hs : Running s) (hchosen : chosenBy s event=none) :
    Triple (Quiet s) (writeManifestRecord toJson record) (fun _ => Step s event) (Step s event) := by
  refine modify fun t ht => ?_
  refine ⟨ht.manifest,by rw [hchosen]; exact ⟨ht.used,ht.counts⟩,?_,fun _ _ => ?_,?_⟩
  · rw [ht.tree,ht.manifest]
    exact changes_write hs.manifest List.mem_cons_self
  · refine ⟨toJson record++[10],?_⟩
    rw [ht.tree,ht.manifest,←List.append_assoc]
    exact Function.update_self _ _ _
  · intro destination inode h
    change t.target=some (destination,inode) at h
    rcases ht.target with htarget | htarget
    · rw [htarget] at h
      refine ⟨?_,.inl h⟩
      rw [ht.tree]
      exact hs.target destination inode h
    · rw [htarget] at h
      cases h

theorem writeFileData_step {fileOffset : UInt64} {bytes : Bytes} (hs : Running s) :
    Triple (fun t => t=s) (writeFileData fileOffset bytes)
      (fun _ => Step s (.writeFileData fileOffset bytes))
      (Step s (.writeFileData fileOffset bytes)) := by
  have hstop : ∀ t, t=s → Step s (.writeFileData fileOffset bytes) t := by
    rintro t rfl
    exact .refl hs rfl
  refine bind_get ?_
  cases hcurrent : s.current with
  | idle | directory | skipped => exact throw hstop
  | file entry outputPath destination inode written recovered suspects failed damage =>
    have htarget : s.target=some (destination,inode) := by
      rw [RecoveryFilesystemSink.target,hcurrent]
    dsimp only
    split
    · exact throw hstop
    · split_ifs
      · exact throw hstop
      · refine modify ?_
        rintro s rfl
        have hdestination : destinationBy s (.writeFileData fileOffset bytes)=
            some destination := by rw [destinationBy,htarget]; rfl
        refine .of_changes hs rfl ⟨rfl,rfl⟩ ?_ fun other inode' h => ?_
        · rw [hdestination]
          exact changes_write (hs.target _ _ htarget) List.mem_cons_self
        · cases h
          exact ⟨hs.target _ _ htarget,.inl htarget⟩

theorem target_damaged (target : RecoveryTarget) (range : DamageRange) :
    { s with current := target.damaged range }.target={ s with current := target }.target := by
  cases target with
  | idle => rfl
  | directory => rfl
  | skipped record => rfl
  | file entry outputPath destination inode written recovered suspects failed damage =>
    rw [RecoveryTarget.damaged]
    split_ifs
    · split <;> rfl
    · rfl

theorem reportDamage_step {range : DamageRange} (hs : Running s) :
    Triple (fun t => t=s) (reportDamage range) (fun _ => Step s (.reportDamage range))
      (Step s (.reportDamage range)) := by
  refine modify ?_
  rintro _ rfl
  refine .of_changes hs rfl ⟨rfl,rfl⟩ .refl fun destination inode h => ?_
  rw [target_damaged] at h
  exact ⟨hs.target _ _ h,.inl h⟩

theorem reportArchiveGap_step {range : ArchiveGapRange} (hs : Running s) :
    Triple (fun t => t=s) (reportArchiveGap toJson range) (fun _ => Step s (.reportArchiveGap range))
      (Step s (.reportArchiveGap range)) := by
  refine bind_get ?_
  exact Triple.bind (Triple.set fun _ _ => ⟨rfl,rfl,rfl,rfl,.inl rfl⟩) fun _ =>
    writeManifestRecord_step hs rfl

variable {entry : NormalizedEntry}

theorem endEntry_step (hs : Running s) :
    Triple (fun t => t=s) (endEntry toJson entry) (fun _ => Step s (.endEntry entry))
      (Step s (.endEntry entry)) := by
  have hidle : Step s (.endEntry entry) { s with current := .idle } :=
    .of_changes hs rfl ⟨rfl,rfl⟩ .refl fun destination inode h => by cases h
  have hquiet : ∀ t, t={ s with current := .idle } → ∀ written files,
      Quiet s { t with filesWritten := written,files := files } := by
    rintro _ rfl written files
    exact ⟨rfl,rfl,rfl,rfl,.inr rfl⟩
  refine bind_get ?_
  have hset : Triple (fun t => t=s)
      (set { s with current := .idle } : Recover PUnit)
      (fun _ t => t={ s with current := .idle }) (Step s (.endEntry entry)) :=
    Triple.set fun _ _ => rfl
  refine Triple.bind hset fun _ => ?_
  cases s.current with
  | idle => exact throw fun t ht => ht ▸ hidle
  | directory => exact pure fun t ht => ht ▸ hidle
  | skipped record =>
    exact Triple.bind (modify fun t ht => hquiet t ht _ _) fun _ =>
      writeManifestRecord_step hs rfl
  | file active outputPath destination inode written recovered suspects failed damage =>
    dsimp only
    by_cases hid : active.fileId≠entry.fileId
    · rw [if_pos hid]
      exact throw fun t ht => ht ▸ hidle
    · rw [if_neg hid]
      exact Triple.bind (modify fun t ht => hquiet t ht _ _) fun _ =>
        writeManifestRecord_step hs rfl

theorem assignOutputPath_triple {relative fileId : String} {err : RecoveryFilesystemSink → Prop} :
    Triple (fun t => t=s) (assignOutputPath relative fileId)
      (fun path t => s.assignOutputPath relative fileId=some (path,t)) err := by
  intro _ hstate
  rw [hstate]
  obtain ⟨⟨path,t⟩,hassign⟩ := Option.isSome_iff_exists.mp (assignOutputPath_isSome s relative fileId)
  have hrun : assignOutputPath relative fileId s=.ok path t := by
    simp only [assignOutputPath,Triple.run_get,hassign]
    rfl
  rw [hrun]
  exact hassign

variable {t : RecoveryFilesystemSink}

theorem assignOutputPath_fields {relative fileId path : String}
    (h : s.assignOutputPath relative fileId=some (path,t)) :
    t.tree=s.tree ∧ t.manifest=s.manifest ∧ t.current=s.current := by
  obtain ⟨-,k,-,-,-,rfl⟩ := assignOutputPath_eq_some h
  exact ⟨rfl,rfl,rfl⟩

theorem beginFile_step {path rootPath : String}
    (hs : Running s) (hidle : s.current=.idle) (hkind : entry.kind=.regularFile)
    (hassign : s.assignOutputPath (recoveryRelativePath entry) entry.fileId=some (path,t)) :
    Triple (fun t' => t'=t)
      (do let destination ← onTree (createRestoreParentDirsSecure rootPath path)
          let inode ← onTree (openFile rootPath "open recovery file" destination)
          onTree (preSize inode entry.sizeBytes)
          modify fun s => { s with
            filesSeen := s.filesSeen+1
            current := .file entry path destination inode 0 [] [] [] [] })
      (fun _ => Step s (.beginEntry entry)) (Step s (.beginEntry entry)) := by
  obtain ⟨htree,hmanifest,hcurrent⟩ := assignOutputPath_fields hassign
  have hchosen : chosenBy s (.beginEntry entry)=some (entry,path) := by
    simp [chosenBy,hidle,hkind,hassign]
  have htakes : Takes s t (chosenBy s (.beginEntry entry)) := by
    rw [hchosen]
    exact ⟨t,hassign,rfl,rfl⟩
  have hdestination : destinationBy s (.beginEntry entry)=destinationOf path := by
    simp [destinationBy,hchosen,hkind]
  have hstop : ∀ tree, s.tree.Changes (destinationBy s (.beginEntry entry)).toList tree →
      Step s (.beginEntry entry) { t with tree := tree } := by
    intro tree hchanges
    refine .of_changes hs hmanifest htakes hchanges fun destination inode h => ?_
    have hnone : { t with tree := tree }.target=none := by
      rw [RecoveryFilesystemSink.target,hcurrent,hidle]
    rw [hnone] at h
    cases h
  have hstart : ∀ t', t'=t → ∃ tree, s.tree.Changes
      (destinationBy s (.beginEntry entry)).toList tree ∧ t'={ t with tree := tree } := by
    rintro _ rfl
    exact ⟨s.tree,.refl,by rw [←htree]⟩
  refine imp (Triple.bind (onTree_triple createRestoreParentDirsSecure_changes hstop)
    fun names => ?_) hstart fun _ _ h => h
  refine Triple.assume (fun hnames : normalizedRelativeComponents path=.ok names => ?_)
    fun t' ⟨_,h,_⟩ => h.2
  have hsome : destinationBy s (.beginEntry entry)=some names := by
    rw [hdestination,destinationOf,hnames]
    rfl
  refine imp (Triple.bind (onTree_triple openFile_changes hstop) fun inode => ?_)
    (fun t' ⟨tree,h,heq⟩ => ⟨tree,h.1,heq⟩) fun _ _ h => h
  refine Triple.bind (onTree_triple (preSize_changes (by rw [hsome]; exact List.mem_cons_self)) hstop)
    fun _ => modify ?_
  rintro _ ⟨tree,⟨hchanges,hnode⟩,rfl⟩
  refine .of_changes hs hmanifest htakes hchanges fun destination inode' h => ?_
  cases h
  exact ⟨hnode,.inr hsome⟩

theorem beginSkipped_step (hs : Running s) (hidle : s.current=.idle)
    (hdirectory : entry.kind≠.directory) :
    Triple (fun t => t=s)
      (do let outputPath ← assignOutputPath (recoveryRelativePath entry) entry.fileId
          modify fun s => { s with
            current := .skipped (recoveryRecord s.runId entry outputPath [] [] [] .skipped 0) })
      (fun _ => Step s (.beginEntry entry)) (Step s (.beginEntry entry)) := by
  refine Triple.bind assignOutputPath_triple fun path => modify fun t hassign => ?_
  obtain ⟨htree,hmanifest,hcurrent⟩ := assignOutputPath_fields hassign
  have hchosen : chosenBy s (.beginEntry entry)=some (entry,path) := by
    simp [chosenBy,hidle,hdirectory,hassign]
  refine .of_changes hs hmanifest ?_ ?_ fun destination inode h => by cases h
  · rw [hchosen]
    exact ⟨t,hassign,rfl,rfl⟩
  · rw [htree]
    exact .refl

theorem beginEntry_step (hs : Running s) :
    Triple (fun t => t=s) (beginEntry entry) (fun _ => Step s (.beginEntry entry))
      (Step s (.beginEntry entry)) := by
  refine bind_get ?_
  have hactive : chosenBy s (.beginEntry entry)=none →
      ∀ t, t=s → Step s (.beginEntry entry) t := by
    rintro hchosen _ rfl
    exact .refl hs hchosen
  cases hcurrent : s.current with
  | directory | skipped | file =>
    exact throw (hactive (by simp [chosenBy,hcurrent]))
  | idle =>
    cases hkind : entry.kind with
    | directory =>
      have hchosen : chosenBy s (.beginEntry entry)=none := by
        simp [chosenBy,hcurrent,hkind]
      have hstep : ∀ tree current, s.tree.Changes
          (destinationBy s (.beginEntry entry)).toList tree →
          { s with tree := tree,current := current }.target=none →
          Step s (.beginEntry entry) { s with tree := tree,current := current } := by
        intro tree current hchanges htarget
        exact .of_changes hs rfl (by rw [hchosen]; exact ⟨rfl,rfl⟩) hchanges
          fun destination inode h => by rw [htarget] at h; cases h
      have hstop : ∀ tree, s.tree.Changes
          (destinationBy s (.beginEntry entry)).toList tree →
          Step s (.beginEntry entry) { s with tree := tree } := by
        refine fun tree h => hstep tree s.current h ?_
        rw [RecoveryFilesystemSink.target,hcurrent]
      refine imp (Triple.bind (onTree_triple createRestoreDirsSecure_changes hstop)
        fun names => modify ?_) (fun t ht => ⟨s.tree,.refl,ht⟩) fun _ _ h => h
      rintro _ ⟨tree,⟨hchanges,-⟩,rfl⟩
      exact hstep tree .directory hchanges rfl
    | regularFile =>
      refine Triple.bind assignOutputPath_triple fun path => ?_
      intro t hassign
      exact beginFile_step hs hcurrent hkind hassign t rfl
    | symlink => exact beginSkipped_step hs hcurrent (by simp [hkind])
    | hardlink => exact beginSkipped_step hs hcurrent (by simp [hkind])
    | special => exact beginSkipped_step hs hcurrent (by simp [hkind])

theorem handle_step (event : RecoveryEvent) (hs : Running s) :
    Step s event (finalState (handle toJson event s)) := by
  have hall : Triple (fun t => t=s) (handle toJson event) (fun _ => Step s event) (Step s event) := by
    cases event with
    | beginEntry entry => exact beginEntry_step hs
    | writeFileData fileOffset bytes => exact writeFileData_step hs
    | reportDamage range => exact reportDamage_step hs
    | reportArchiveGap range => exact reportArchiveGap_step hs
    | endEntry entry => exact endEntry_step hs
  exact hall.final rfl fun _ _ h => h

end Calls

end Remanence.Stream.Recovery
