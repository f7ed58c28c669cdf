import Remanence.Stream.RecoveryFrame

/-!
# Runs of the recovery sink

Over a whole run the chosen paths are pairwise different, whatever the entries
are. They stay off the manifest exactly when the first entry that names the
manifest, if there is one, is not a regular file.
-/

namespace Remanence.Stream.Recovery

open Foundation Format OutputTree List

/-- Entries and paths chosen by the calls, in order. -/
def choices (run : List Transition) : List (NormalizedEntry×String) :=
  run.filterMap fun t => chosenBy t.before t.event

def fileOutputs (run : List Transition) : List String :=
  ((choices run).filter fun choice => choice.1.kind=.regularFile).map Prod.snd

def recovered (run : List Transition) : List (List String) := (fileOutputs run).filterMap destinationOf

/-- Entries other than directories whose path is the manifest's. -/
def manifestTakers (run : List Transition) : List NormalizedEntry :=
  ((choices run).map Prod.fst).filter fun entry =>
    (normalizeArchivePath entry.path).toOption=some recoveryManifestRelativePath

/-- The outputs of a run stay apart from each other and from the manifest. -/
structure NoOverlap (start : OutputTree) (run : List Transition) : Prop where
  terminates : ∀ t ∈ run, ∀ relative fileId, (t.before.assignOutputPath relative fileId).isSome
  distinct : ((choices run).map fun choice => destinationOf choice.2).Nodup
  notManifest : manifestNames ∉ recovered run
  /-- A call leaves the files recovered earlier as they are; the open file is not one of them. -/
  earlier : start.Unaliased → ∀ before t after, run=before++t::after → ∀ path ∈ recovered before,
    t.before.target.map Prod.fst≠some path → ∀ inode, t.before.tree.node path=some (.file inode) →
      t.after.tree.node path=some (.file inode) ∧
        t.after.tree.content inode=t.before.tree.content inode
  manifest : start.Unaliased → ∀ t ∈ run,
    t.before.tree.node manifestNames=some (.file t.before.manifest) ∧
      ∃ added, t.after.tree.content t.before.manifest=
        t.before.tree.content t.before.manifest++added

section Runs

variable {toJson : RecoveryManifestRecord → Bytes} {s : RecoveryFilesystemSink}

/-- Calls of a run start where the one before has ended. -/
inductive Chain : RecoveryFilesystemSink → List Transition → Prop
  | nil {s : RecoveryFilesystemSink} : Chain s []
  | cons {s s' : RecoveryFilesystemSink} {event : RecoveryEvent} {run : List Transition}
      (step : Step s event s') (rest : Chain s' run) : Chain s (⟨s,event,s'⟩::run)

theorem chain_transitions {events : List RecoveryEvent} (hs : Running s) :
    Chain s (transitions toJson s events) := by
  induction events generalizing s with
  | nil => exact .nil
  | cons event events ih =>
    have hstep : Step s event (finalState (handle toJson event s)) := handle_step event hs
    unfold transitions
    cases hrun : handle toJson event s with
    | ok value s' =>
      rw [hrun] at hstep
      exact .cons hstep (ih (hstep.running hs))
    | error e s' =>
      rw [hrun] at hstep
      exact .cons hstep .nil

variable {entry : NormalizedEntry}

theorem chosenBy_begin {choice : NormalizedEntry×String}
    (h : chosenBy s (.beginEntry entry)=some choice) : choice.1=entry := by
  rw [chosenBy] at h
  split at h
  · split_ifs at h
    obtain ⟨r,-,rfl⟩ := Option.map_eq_some_iff.mp h
    rfl
  · cases h

section Cons

variable {event : RecoveryEvent} (s' : RecoveryFilesystemSink) (run : List Transition)
  {entry : NormalizedEntry} {path : String}

theorem choices_cons_none (h : chosenBy s event=none) : choices (⟨s,event,s'⟩::run)=choices run :=
  filterMap_cons_none h

theorem choices_cons_some (h : chosenBy s event=some (entry,path)) :
    choices (⟨s,event,s'⟩::run)=(entry,path)::choices run :=
  filterMap_cons_some h

theorem fileOutputs_cons (h : chosenBy s event=some (entry,path)) : fileOutputs (⟨s,event,s'⟩::run)=
      if entry.kind=.regularFile then path::fileOutputs run else fileOutputs run := by
  rw [fileOutputs,choices_cons_some s' run h,filter_cons]
  by_cases hkind : entry.kind=.regularFile
  · rw [if_pos (decide_eq_true hkind),if_pos hkind]
    rfl
  · rw [if_neg (by simpa using hkind),if_neg hkind]
    rfl

theorem manifestTakers_cons (h : chosenBy s event=some (entry,path)) :
    manifestTakers (⟨s,event,s'⟩::run)=
      if (normalizeArchivePath entry.path).toOption=some recoveryManifestRelativePath then
        entry::manifestTakers run else manifestTakers run := by
  rw [manifestTakers,choices_cons_some s' run h,map_cons,filter_cons]
  split_ifs <;> simp_all [manifestTakers]

end Cons

variable {s' : RecoveryFilesystemSink}

theorem plainPath_of_assignOutputPath {path : String}
    (h : s.assignOutputPath (recoveryRelativePath entry) entry.fileId=some (path,s')) :
    PlainPath path := by
  obtain ⟨-,k,-,rfl,-,-⟩ := assignOutputPath_eq_some h
  exact candidate_plain (recoveryRelativePath_plain entry) _ k

variable {run : List Transition}

/-- Chosen paths are plain, were free at the start and are pairwise different. -/
theorem Chain.choices (h : Chain s run) :
    (∀ choice ∈ choices run, PlainPath choice.2 ∧ choice.2 ∉ s.usedOutputPaths) ∧
      ((Recovery.choices run).map Prod.snd).Nodup := by
  induction h with
  | nil => exact ⟨by simp [Recovery.choices],nodup_nil⟩
  | @cons s s' event run step rest ih =>
    obtain ⟨hfree,hnodup⟩ := ih
    have htakes := step.takes
    cases hchosen : chosenBy s event with
    | none =>
      rw [hchosen] at htakes
      rw [choices_cons_none s' run hchosen]
      rw [htakes.1] at hfree
      exact ⟨hfree,hnodup⟩
    | some choice =>
      obtain ⟨entry,path⟩ := choice
      rw [hchosen] at htakes
      obtain ⟨s'',hassign,hused,-⟩ := htakes
      have hplain := plainPath_of_assignOutputPath hassign
      obtain ⟨hnew,k,-,-,-,rfl⟩ := assignOutputPath_eq_some hassign
      rw [hused] at hfree
      rw [choices_cons_some s' run hchosen]
      refine ⟨fun other hother => ?_,?_⟩
      · rcases mem_cons.mp hother with rfl | hother
        · exact ⟨hplain,hnew⟩
        · exact ⟨(hfree other hother).1,fun hmem => (hfree other hother).2 (mem_cons_of_mem _ hmem)⟩
      · rw [map_cons,nodup_cons]
        refine ⟨fun hmem => ?_,hnodup⟩
        obtain ⟨other,hother,heq⟩ := mem_map.mp hmem
        exact (hfree other hother).2 (heq ▸ mem_cons_self)

theorem destinationOf_inj {p q : String} (hp : PlainPath p) (hq : PlainPath q)
    (h : destinationOf p=destinationOf q) : p=q := by
  obtain ⟨names,hnames,rfl⟩ := hp.normalizedRelativeComponents
  obtain ⟨names',hnames',rfl⟩ := hq.normalizedRelativeComponents
  rw [destinationOf,destinationOf,hnames,hnames'] at h
  rw [Option.some.inj h]

theorem destinationOf_manifest :
    destinationOf recoveryManifestRelativePath=some manifestNames := by decide

theorem manifest_plain : PlainPath recoveryManifestRelativePath :=
  ⟨manifestNames,fun name hname => by
    rcases mem_cons.mp hname with rfl | hname
    · exact ⟨by decide,by decide,by decide,by decide⟩
    · rw [mem_singleton.mp hname]
      exact ⟨by decide,by decide,by decide,by decide⟩,by decide,by decide⟩

theorem Chain.nodup_destinations (h : Chain s run) :
    ((Recovery.choices run).map fun choice => destinationOf choice.2).Nodup := by
  obtain ⟨hplain,hnodup⟩ := h.choices
  have hinj : ∀ p ∈ (Recovery.choices run).map Prod.snd, ∀ q ∈ (Recovery.choices run).map Prod.snd,
      destinationOf p=destinationOf q → p=q := by
    intro p hp q hq heq
    obtain ⟨c,hc,rfl⟩ := mem_map.mp hp
    obtain ⟨d,hd,rfl⟩ := mem_map.mp hq
    exact destinationOf_inj (hplain c hc).1 (hplain d hd).1 heq
  have hmap := hnodup.map_on hinj
  rwa [map_map] at hmap

theorem Chain.manifest_mem_recovered (h : Chain s run) :
    manifestNames ∈ recovered run ↔ recoveryManifestRelativePath ∈ fileOutputs run := by
  constructor
  · intro hmem
    obtain ⟨path,hpath,heq⟩ := mem_filterMap.mp hmem
    obtain ⟨choice,hchoice,rfl⟩ := mem_map.mp hpath
    have hplain := (h.choices.1 choice (mem_of_mem_filter hchoice)).1
    rwa [destinationOf_inj hplain manifest_plain (heq.trans destinationOf_manifest.symm)] at hpath
  · intro hmem
    exact mem_filterMap.mpr ⟨_,hmem,destinationOf_manifest⟩

theorem Chain.not_mem_fileOutputs (h : Chain s run)
    (hused : recoveryManifestRelativePath ∈ s.usedOutputPaths) :
    recoveryManifestRelativePath ∉ fileOutputs run := by
  intro hmem
  obtain ⟨choice,hchoice,heq⟩ := mem_map.mp hmem
  exact (h.choices.1 choice (mem_of_mem_filter hchoice)).2 (heq ▸ hused)

theorem toOption_eq_some {path relative : String} :
    (normalizeArchivePath path).toOption=some relative ↔ normalizeArchivePath path=.ok relative := by
  cases normalizeArchivePath path <;> simp [Except.toOption]

theorem Chain.mem_fileOutputs_iff (h : Chain s run)
    (hcount : s.pathCollisionCounts recoveryManifestRelativePath=0)
    (hfree : recoveryManifestRelativePath ∉ s.usedOutputPaths) :
    recoveryManifestRelativePath ∈ fileOutputs run ↔
      ∃ first, (manifestTakers run).head?=some first ∧ first.kind=.regularFile := by
  induction h with
  | nil => simp [fileOutputs,Recovery.choices,manifestTakers]
  | @cons s s' event run step rest ih =>
    have htakes := step.takes
    cases hchosen : chosenBy s event with
    | none =>
      rw [hchosen] at htakes
      have hchoices := choices_cons_none s' run hchosen
      rw [fileOutputs,manifestTakers,hchoices]
      exact ih (by rw [htakes.2]; exact hcount) (by rw [htakes.1]; exact hfree)
    | some choice =>
      obtain ⟨entry,path⟩ := choice
      rw [hchosen] at htakes
      obtain ⟨s'',hassign,hused,hcounts⟩ := htakes
      obtain ⟨hnew,k,hk,hpath,hbetween,rfl⟩ := assignOutputPath_eq_some hassign
      have houtputs := fileOutputs_cons s' run hchosen
      have htakers := manifestTakers_cons s' run hchosen
      by_cases htaker : normalizeArchivePath entry.path=.ok recoveryManifestRelativePath
      · -- the first entry that names the manifest gets its path
        have hrelative := recoveryRelativePath_eq htaker
        have hzero : k=0 := by
          by_contra hne
          have hmem := hbetween 0 (by rw [hrelative,hcount]) (by omega)
          rw [candidate,if_pos rfl,hrelative] at hmem
          exact hfree hmem
        have hmanifest : path=recoveryManifestRelativePath := by
          rw [hpath,hzero,candidate,if_pos rfl,hrelative]
        have hlater := rest.not_mem_fileOutputs (by rw [hused,hmanifest]; exact mem_cons_self)
        rw [htakers,if_pos (toOption_eq_some.mpr htaker),houtputs,head?_cons]
        split_ifs with hkind
        · rw [hmanifest]
          exact ⟨fun _ => ⟨entry,rfl,hkind⟩,fun _ => mem_cons_self⟩
        · refine ⟨fun hmem => absurd hmem hlater,?_⟩
          rintro ⟨first,hfirst,hregular⟩
          cases hfirst
          exact absurd hregular hkind
      · -- any other entry leaves the path free
        have hne : path≠recoveryManifestRelativePath := by
          rintro rfl
          exact htaker (candidate_eq_manifest hpath.symm).2
        have hrelative : recoveryRelativePath entry≠recoveryManifestRelativePath := by
          intro hrelative
          have hcandidate : candidate (recoveryRelativePath entry)
              (sanitizeForSuffix entry.fileId) 0=recoveryManifestRelativePath := by
            rw [candidate,if_pos rfl,hrelative]
          exact htaker (candidate_eq_manifest hcandidate).2
        have hrest := ih
          (by rw [hcounts]; exact (Function.update_of_ne hrelative.symm _ _).trans hcount)
          (by rw [hused,mem_cons,not_or]; exact ⟨hne.symm,hfree⟩)
        rw [htakers,if_neg (fun h => htaker (toOption_eq_some.mp h)),←hrest,houtputs]
        split_ifs with hkind
        · rw [mem_cons]
          exact ⟨fun hmem => hmem.resolve_left hne.symm,.inr⟩
        · rfl

theorem Chain.mem (h : Chain s run) (hs : Running s) :
    ∀ t ∈ run, Running t.before ∧ Step t.before t.event t.after ∧
      (s.tree.Unaliased → t.before.tree.Unaliased) := by
  induction h with
  | nil => simp
  | @cons s s' event run step rest ih =>
    intro t ht
    rcases mem_cons.mp ht with rfl | ht
    · exact ⟨hs,step,fun h => h⟩
    · obtain ⟨hrunning,hstep,hunaliased⟩ := ih (step.running hs) t ht
      exact ⟨hrunning,hstep,fun h => hunaliased (step.changes.unaliased h)⟩

theorem mem_recovered_of_begin {destination : List String}
    (h : destinationBy s (.beginEntry entry)=some destination) :
    destination ∈ recovered (⟨s,.beginEntry entry,s'⟩::run) := by
  obtain ⟨⟨other,path⟩,hchosen,hdestination⟩ := Option.bind_eq_some_iff.mp h
  obtain rfl : other=entry := chosenBy_begin hchosen
  split_ifs at hdestination with hkind
  refine mem_filterMap.mpr ⟨path,?_,hdestination⟩
  rw [fileOutputs_cons s' run hchosen,if_pos hkind]
  exact mem_cons_self

theorem recovered_subset {part : List Transition} (h : part.Sublist run) :
    recovered part ⊆ recovered run :=
  ((((h.filterMap _).filter _).map _).filterMap _).subset

theorem Chain.destinationBy_mem (h : Chain s run) :
    ∀ t ∈ run, ∀ destination, destinationBy t.before t.event=some destination →
      s.target.map Prod.fst=some destination ∨ destination ∈ recovered run := by
  induction h with
  | nil => simp
  | @cons s s' event run step rest ih =>
    intro t ht destination hdestination
    rcases mem_cons.mp ht with rfl | ht
    · cases event with
      | beginEntry entry => exact .inr (mem_recovered_of_begin hdestination)
      | writeFileData fileOffset bytes => exact .inl hdestination
      | _ => cases hdestination
    · rcases ih t ht destination hdestination with hopen | hmem
      · -- the file is open after the first call
        obtain ⟨⟨found,inode⟩,htarget,rfl⟩ := Option.map_eq_some_iff.mp hopen
        rcases (step.target _ _ htarget).2 with hold | hnew
        · exact .inl (by rw [hold]; rfl)
        · cases event with
          | beginEntry entry => exact .inr (mem_recovered_of_begin hnew)
          | writeFileData fileOffset bytes => exact .inl hnew
          | _ => cases hnew
      · exact .inr (recovered_subset (sublist_cons_self _ _) hmem)

theorem running_new {tree tree' : OutputTree} {rootPath runId formatId source startedAt : String}
    (h : RecoveryFilesystemSink.new toJson tree rootPath runId formatId source startedAt=
      .ok s tree') :
    Running s ∧ s.target=none ∧ s.usedOutputPaths=[] ∧ (∀ path, s.pathCollisionCounts path=0) ∧
      (tree.Unaliased → s.tree.Unaliased) := by
  have hopened : Triple (tree.Changes [])
      (do let manifestDir ← createRestoreDirsSecure rootPath ".remanence"
          openFile rootPath "open recovery manifest" (manifestDir++["recovery.jsonl"]))
      (fun inode tree' => tree.Changes [] tree' ∧ tree'.node manifestNames=some (.file inode))
      (tree.Changes []) := by
    refine Triple.bind createRestoreDirsSecure_changes fun names => ?_
    refine Triple.assume (fun hnames => ?_) fun _ h => h.2
    cases hnames
    exact openFile_changes.imp (fun _ h => h.1) fun _ _ h => h
  unfold RecoveryFilesystemSink.new at h
  dsimp only at h
  split at h
  · cases h
  · rename_i inode opened hrun
    obtain ⟨hchanges,hnode⟩ := hopened.of_ok .refl hrun
    cases h
    refine ⟨⟨hnode,fun destination inode h => by cases h⟩,rfl,rfl,fun _ => rfl,fun ha => ?_⟩
    exact (changes_write hnode (mem_singleton_self manifestNames)).unaliased (hchanges.unaliased ha)

theorem Chain.destinationBy_ne {before after : List Transition} {t : Transition}
    {path : List String} (h : Chain s (before++t::after)) (hpath : path ∈ recovered before)
    (hopen : t.before.target.map Prod.fst≠some path) : destinationBy t.before t.event≠some path := by
  obtain ⟨t,event,t'⟩ := t
  cases event with
  | writeFileData fileOffset bytes => exact hopen
  | reportDamage | reportArchiveGap | endEntry => exact fun h => by cases h
  | beginEntry entry =>
    intro hdestination
    obtain ⟨⟨other,output⟩,hchosen,heq⟩ := Option.bind_eq_some_iff.mp hdestination
    split_ifs at heq
    -- both places are among those that the run chooses
    have hnodup := h.nodup_destinations
    have hchoices : Recovery.choices (before++⟨t,.beginEntry entry,t'⟩::after)=
        Recovery.choices before++(other,output)::Recovery.choices after := by
      rw [Recovery.choices,filterMap_append]
      exact congrArg _ (choices_cons_some t' after hchosen)
    rw [hchoices,map_append,nodup_append] at hnodup
    obtain ⟨earlier,hearlier,hsame⟩ := mem_filterMap.mp hpath
    obtain ⟨choice,hchoice,rfl⟩ := mem_map.mp hearlier
    exact hnodup.2.2 _ (mem_map.mpr ⟨choice,mem_of_mem_filter hchoice,rfl⟩) _
      (mem_map.mpr ⟨_,mem_cons_self,rfl⟩) (hsame.trans heq.symm)

theorem Chain.noOverlap {start : OutputTree} (h : Chain s run) (hs : Running s)
    (htarget : s.target=none) (hstart : start.Unaliased → s.tree.Unaliased)
    (hmanifest : manifestNames ∉ recovered run) : NoOverlap start run := by
  have hdestination : ∀ t ∈ run, destinationBy t.before t.event≠some manifestNames := by
    intro t ht hmem
    rcases h.destinationBy_mem t ht _ hmem with hopen | hmem
    · rw [htarget] at hopen
      cases hopen
    · exact hmanifest hmem
  refine ⟨fun t _ relative fileId => assignOutputPath_isSome _ _ _,h.nodup_destinations,hmanifest,
    fun ha before t after hrun path hpath hopen inode hnode => ?_,fun ha t ht => ?_⟩
  · have ht : t ∈ run := by rw [hrun]; simp
    obtain ⟨-,hstep,hunaliased⟩ := h.mem hs t ht
    refine ⟨hstep.changes.files _ _ hnode,hstep.changes.content (hunaliased (hstart ha)) _ _ hnode ?_⟩
    rw [mem_cons,not_or,Option.mem_toList]
    subst hrun
    constructor
    · rintro rfl
      exact hmanifest (recovered_subset (sublist_append_left _ _) hpath)
    · exact h.destinationBy_ne hpath hopen
  · obtain ⟨hrunning,hstep,hunaliased⟩ := h.mem hs t ht
    exact ⟨hrunning.manifest,hstep.appends (hunaliased (hstart ha)) (hdestination t ht)⟩

end Runs

/-- Outputs stay apart from each other and from the manifest exactly when the first entry that names
the manifest is not a regular file. -/
theorem noOverlap_iff {toJson : RecoveryManifestRecord → Bytes} {tree tree' : OutputTree}
    {rootPath runId formatId source startedAt : String} {s : RecoveryFilesystemSink}
    (h : RecoveryFilesystemSink.new toJson tree rootPath runId formatId source startedAt=
      .ok s tree') (events : List RecoveryEvent) :
    NoOverlap tree (transitions toJson s events) ↔
      ∀ first, (manifestTakers (transitions toJson s events)).head?=some first →
        first.kind≠.regularFile := by
  obtain ⟨hs,htarget,hused,hcounts,hunaliased⟩ := running_new h
  have hchain : Chain s (transitions toJson s events) := chain_transitions hs
  have hiff := hchain.mem_fileOutputs_iff (hcounts _) (by rw [hused]; exact not_mem_nil)
  rw [←hchain.manifest_mem_recovered] at hiff
  constructor
  · intro hno first hfirst hkind
    exact hno.notManifest (hiff.mpr ⟨first,hfirst,hkind⟩)
  · intro hfirst
    refine hchain.noOverlap hs htarget hunaliased fun hmem => ?_
    obtain ⟨first,hhead,hkind⟩ := hiff.mp hmem
    exact hfirst first hhead hkind

def emptyTree : OutputTree := ⟨fun path => if path=[] then some .directory else none,fun _ => [],0⟩

def shortJson : RecoveryManifestRecord → Bytes := fun _ => [123]

def emptySink : RecoveryFilesystemSink where
  tree := ((emptyTree.put [".remanence"] .directory).createFile manifestNames).write 0 [123,10]
  rootPath := "/out"
  manifest := 0
  runId := "run"
  current := .idle
  pathCollisionCounts := fun _ => 0
  usedOutputPaths := []
  files := []
  archiveGaps := []
  filesSeen := 0
  filesWritten := 0
  bytesWritten := 0

theorem emptySink_new :
    RecoveryFilesystemSink.new shortJson emptyTree "/out" "run" "tar" "dump" "now"=
      .ok emptySink emptySink.tree := by
  have hdir : normalizedRelativeComponents ".remanence"=.ok [".remanence"] := by rfl
  have hopened : (do
      let manifestDir ← createRestoreDirsSecure "/out" ".remanence"
      openFile "/out" "open recovery manifest" (manifestDir++["recovery.jsonl"]) : OnTree ℕ) emptyTree=
      .ok 0 ((emptyTree.put [".remanence"] .directory).createFile manifestNames) := by
    simp only [createRestoreDirsSecure,hdir,liftTree,ensureDirectories,ensureRestoreDirectory,
      openFile,bind,EStateM.bind,pure,EStateM.pure,nil_append]
    rfl
  unfold RecoveryFilesystemSink.new
  dsimp only
  rw [hopened]
  rfl

def manifestEntry (kind : EntryKind) : NormalizedEntry :=
  ⟨"f","./.remanence/recovery.jsonl",kind,some 0,[]⟩

theorem noOverlap_symlink : NoOverlap emptyTree (transitions shortJson emptySink
      [.beginEntry (manifestEntry .symlink),.endEntry (manifestEntry .symlink),
        .beginEntry (manifestEntry .regularFile)]) := by
  refine (noOverlap_iff emptySink_new _).mpr fun first hfirst => ?_
  have hhead : (manifestTakers (transitions shortJson emptySink
      [.beginEntry (manifestEntry .symlink),.endEntry (manifestEntry .symlink),
        .beginEntry (manifestEntry .regularFile)])).head?.map NormalizedEntry.kind=some .symlink := by
    decide +kernel
  rw [hfirst] at hhead
  rw [Option.some.inj hhead]
  decide

/-- A regular file that names the manifest is recovered onto it: its size of zero empties the
manifest. -/
theorem manifest_truncated :
    let run := transitions shortJson emptySink [.beginEntry (manifestEntry .regularFile)]
    (∀ t ∈ run, t.before.tree.content 0=[123,10] ∧ t.after.tree.content 0=[]) ∧
      fileOutputs run=[recoveryManifestRelativePath] ∧ ¬NoOverlap emptyTree run := by
  intro run
  have hrun : (∀ t ∈ run, t.before.tree.content 0=[123,10] ∧ t.after.tree.content 0=[]) ∧
      fileOutputs run=[recoveryManifestRelativePath] ∧ manifestNames ∈ recovered run := by
    decide +kernel
  exact ⟨hrun.1,hrun.2.1,fun h => h.notManifest hrun.2.2⟩

end Remanence.Stream.Recovery
