import Remanence.Stream.Restore

/-!
# A restore stays below its root

Every operation of the sink meets a file system in which its paths are direct, so it follows no
link and touches only inodes below the root. The invariant is carried through the programs by
triples.
-/

namespace Remanence.Stream

open Foundation Format Disk List
open Triple (pure imp modify get)

/-- The file system is contained, and every recorded operation was sound when it was made. -/
structure Secure (start : Disk) (root : ℕ) (s : FilesystemRestoreSink) : Prop where
  root_eq : s.root=root
  contained : Contained start root s.disk
  directory : ∃ d, s.disk.realWalk root []=some d
  journal : ∀ record ∈ s.journal, record.1.Sound root record.2

/-- A secure state with known settings, in which some directories have been entered. -/
structure Reached (start : Disk) (root : ℕ) (options : FilesystemRestoreOptions)
    (destinations : List (List String×String)) (dirs : List (List String))
    (s : FilesystemRestoreSink) : Prop extends Secure start root s where
  options_eq : s.options=options
  destinations_eq : s.nativeDestinations=destinations
  entered : ∀ dir ∈ dirs, ∃ d, s.disk.realWalk root dir=some d

section Programs

variable {start : Disk} {root : ℕ} {options : FilesystemRestoreOptions}
  {destinations : List (List String×String)} {dirs : List (List String)}

variable {s : FilesystemRestoreSink}

theorem Reached.mono {more : List (List String)}
    (h : Reached start root options destinations more s) (hsub : ∀ dir ∈ dirs, dir ∈ more) :
    Reached start root options destinations dirs s :=
  ⟨h.toSecure,h.options_eq,h.destinations_eq,fun dir hdir => h.entered dir (hsub dir hdir)⟩

variable {dir : List String}

theorem Reached.enter (h : Reached start root options destinations dirs s)
    (hdir : ∃ d, s.disk.realWalk root dir=some d) :
    Reached start root options destinations (dir::dirs) s := by
  refine ⟨h.toSecure,h.options_eq,h.destinations_eq,fun other hother => ?_⟩
  rcases mem_cons.mp hother with rfl | hother
  · exact hdir
  · exact h.entered other hother

variable {m : Mutation}

theorem Reached.apply {disk : Disk} {i : ℕ} (h : Reached start root options destinations dirs s)
    (hsound : s.disk.Sound root m) (happly : s.disk.apply root m=.ok (disk,i)) :
    Reached start root options destinations dirs
      { s with journal := s.journal++[(s.disk,m)],disk := disk } := by
  obtain ⟨touched,hchange,htouched⟩ := apply_inside hsound happly
  have hgrows := hchange.grows h.contained.numbered
  refine ⟨⟨h.root_eq,h.contained.step hchange htouched,?_,?_⟩,h.options_eq,h.destinations_eq,?_⟩
  · obtain ⟨d,hd⟩ := h.directory
    exact ⟨d,hgrows.realWalk hd⟩
  · intro record hrecord
    rcases mem_append.mp hrecord with hrecord | hrecord
    · exact h.journal record hrecord
    · rw [mem_singleton.mp hrecord]
      exact hsound
  · intro dir hdir
    obtain ⟨d,hd⟩ := h.entered dir hdir
    exact ⟨d,hgrows.realWalk hd⟩

variable {context : String} {path : List String} {pre : FilesystemRestoreSink → Prop}

theorem mutate_triple (hreached : ∀ s, pre s → Reached start root options destinations dirs s)
    (hsound : ∀ s, pre s → s.disk.Sound root m) :
    Triple pre (mutate context path m) (fun i s => ∃ old, pre old ∧
      Reached start root options destinations dirs s ∧
      old.disk.apply root m=.ok (s.disk,i) ∧
      s={ old with journal := old.journal++[(old.disk,m)],disk := s.disk }) (Secure start root) := by
  intro s hs
  have hr := hreached s hs
  have hsm := hsound s hs
  unfold mutate
  cases happly : s.disk.apply s.root m with
  | ok result =>
    obtain ⟨disk,i⟩ := result
    rw [hr.root_eq] at happly
    exact ⟨s,hs,hr.apply hsm happly,happly,rfl⟩
  | error errno =>
    refine ⟨hr.root_eq,hr.contained,hr.directory,fun record hrecord => ?_⟩
    rcases mem_append.mp hrecord with hrecord | hrecord
    · exact hr.journal record hrecord
    · rw [mem_singleton.mp hrecord]
      exact hsm

variable {err : FilesystemRestoreSink → Prop}

theorem symlinkMetadata_triple (hroot : ∀ s, pre s → s.root=root) :
    Triple pre (symlinkMetadata path)
      (fun result s => pre s ∧ result=s.disk.symlinkMetadata root path) err := by
  intro s hs
  exact ⟨hs,by rw [hroot s hs]⟩

variable {α : Type} {post : α → FilesystemRestoreSink → Prop}

theorem refusePath_triple {message : String}
    (h : ∀ s, pre s → err s) : Triple pre (refusePath path message) post err :=
  fun s hs => h s hs

theorem failIo_triple {errno : Errno}
    (h : ∀ s, pre s → err s) : Triple pre (failIo context path errno) post err :=
  fun s hs => h s hs

theorem liftResult_triple {result : Except FormatError α} (h : ∀ s, pre s → err s) :
    Triple pre (liftResult result) (fun a s => pre s ∧ result=.ok a) err := by
  intro s hs
  cases result with
  | ok a => exact ⟨hs,rfl⟩
  | error e => exact h s hs

theorem ensureRestoreDirectory_triple {name : String} (hdir : dir ∈ dirs) :
    Triple (Reached start root options destinations dirs) (ensureRestoreDirectory (dir++[name]))
      (fun _ => Reached start root options destinations ((dir++[name])::dirs))
      (Secure start root) := by
  have hsecure : ∀ (result : Except Errno Node) s, (Reached start root options destinations dirs s ∧
        result=s.disk.symlinkMetadata root (dir++[name])) → Secure start root s :=
    fun _ _ hs => hs.1.toSecure
  refine Triple.bind (symlinkMetadata_triple fun s hs => hs.root_eq) fun result => ?_
  rcases result with errno | node
  · cases errno
    case notFound =>
      -- the directory is created and inspected again
      refine Triple.bind (mutate_triple (fun s hs => hs.1) fun s hs => ?_) fun i => ?_
      · obtain ⟨d,hd⟩ := hs.1.entered dir hdir
        refine ⟨fun path hpath => ?_,fun i hi => by cases hi⟩
        rw [mem_singleton.mp hpath]
        exact direct_concat name hd
      · refine imp
          (?_ : Triple (Reached start root options destinations ((dir++[name])::dirs)) _ _ _)
          (fun s hs => ?_) fun _ _ h => h
        · refine Triple.bind (symlinkMetadata_triple fun s hs => hs.root_eq) fun again => ?_
          rcases again with errno | node
          · exact failIo_triple fun s hs => hs.1.toSecure
          · cases node with
            | symlink target => exact refusePath_triple fun s hs => hs.1.toSecure
            | file | directory => exact pure fun s hs => hs.1
        · obtain ⟨old,hold,hreached,happly,-⟩ := hs
          obtain ⟨d,hd⟩ := hold.1.entered dir hdir
          exact hreached.enter (realWalk_createDir hold.1.contained.numbered hd happly)
    all_goals exact failIo_triple (hsecure _)
  · cases node with
    | symlink | file => exact refusePath_triple (hsecure _)
    | directory parent list =>
      refine pure fun s hs => hs.1.enter ?_
      obtain ⟨d,hd⟩ := hs.1.entered dir hdir
      exact realWalk_of_metadata hd hs.2.symm

theorem ensureDirectories_triple {rest : List String} (hdir : dir ∈ dirs) :
    Triple (Reached start root options destinations dirs) (ensureDirectories dir rest)
      (fun _ => Reached start root options destinations ((dir++rest)::dirs)) (Secure start root) := by
  induction rest generalizing dir dirs with
  | nil =>
    rw [append_nil]
    exact pure fun s hs => hs.enter (hs.entered dir hdir)
  | cons part rest ih =>
    refine Triple.bind (ensureRestoreDirectory_triple hdir) fun _ => ?_
    refine imp (ih mem_cons_self) (fun s hs => hs) fun _ s hs => hs.mono ?_
    intro other hother
    rw [append_assoc,singleton_append]
    rcases mem_cons.mp hother with rfl | hother
    · exact mem_cons_self
    · exact mem_cons_of_mem _ (mem_cons_of_mem _ hother)

variable {relative : List String}

theorem createRestoreDirsSecure_triple :
    Triple (Reached start root options destinations dirs) (createRestoreDirsSecure relative)
      (fun _ => Reached start root options destinations (relative::dirs)) (Secure start root) := by
  have hall : Triple (Reached start root options destinations ([]::dirs))
      (ensureDirectories [] relative) _ (Secure start root) :=
    ensureDirectories_triple mem_cons_self
  refine hall.imp (fun s hs => hs.enter hs.directory) fun _ s hs => hs.mono ?_
  intro other hother
  rcases mem_cons.mp hother with rfl | hother
  · exact mem_cons_self
  · exact mem_cons_of_mem _ (mem_cons_of_mem _ hother)

theorem createRestoreParentDirsSecure_triple :
    Triple (Reached start root options destinations dirs) (createRestoreParentDirsSecure relative)
      (fun _ => Reached start root options destinations (relative.dropLast::dirs))
      (Secure start root) := by
  refine Triple.bind createRestoreDirsSecure_triple fun _ => ?_
  refine Triple.bind (symlinkMetadata_triple fun s hs => hs.root_eq) fun result => ?_
  rcases result with errno | node
  · cases errno
    case notFound => exact pure fun s hs => hs.1
    all_goals exact failIo_triple fun s hs => hs.1.toSecure
  · cases node with
    | symlink target => exact refusePath_triple fun s hs => hs.1.toSecure
    | file | directory => exact pure fun s hs => hs.1

theorem resolveExistingRestoreFileSecure_triple :
    Triple (Reached start root options destinations dirs) (resolveExistingRestoreFileSecure relative)
      (fun _ => Reached start root options destinations (relative.dropLast::dirs))
      (Secure start root) := by
  refine Triple.bind createRestoreDirsSecure_triple fun _ => ?_
  refine Triple.bind (symlinkMetadata_triple fun s hs => hs.root_eq) fun result => ?_
  rcases result with errno | node
  · cases errno
    case notFound => exact refusePath_triple fun s hs => hs.1.toSecure
    all_goals exact failIo_triple fun s hs => hs.1.toSecure
  · cases node with
    | file bytes => exact pure fun s hs => hs.1
    | symlink | directory => exact refusePath_triple fun s hs => hs.1.toSecure

theorem Reached.direct (h : Reached start root options destinations dirs s)
    (hdir : path.dropLast ∈ dirs) (hpath : path≠[]) : s.disk.Direct root path := by
  obtain ⟨d,hd⟩ := h.entered _ hdir
  exact ⟨hpath,by rw [hd]; rfl⟩

theorem sound_of_direct {disk : Disk} (hhandle : m.handle=none)
    (h : ∀ path ∈ m.paths, disk.Direct root path) : disk.Sound root m :=
  ⟨h,fun i hi => by rw [hhandle] at hi; cases hi⟩

theorem prepareRestoreSymlinkDestination_triple {overwrite : Bool} (hdir : path.dropLast ∈ dirs)
    (hpath : path≠[]) :
    Triple (Reached start root options destinations dirs)
      (prepareRestoreSymlinkDestination path overwrite)
      (fun _ => Reached start root options destinations dirs) (Secure start root) := by
  refine Triple.bind (symlinkMetadata_triple fun s hs => hs.root_eq) fun result => ?_
  rcases result with errno | node
  · cases errno
    case notFound => exact pure fun s hs => hs.1
    all_goals exact failIo_triple fun s hs => hs.1.toSecure
  · cases node with
    | symlink | directory => exact refusePath_triple fun s hs => hs.1.toSecure
    | file bytes =>
      cases overwrite with
      | false => exact refusePath_triple fun s hs => hs.1.toSecure
      | true =>
        refine Triple.bind (mutate_triple (fun s hs => hs.1) fun s hs => ?_) fun i =>
          pure fun s hs => ?_
        · refine sound_of_direct rfl fun other hother => ?_
          rw [mem_singleton.mp hother]
          exact hs.1.direct hdir hpath
        · obtain ⟨old,-,hreached,-⟩ := hs
          exact hreached

def HeldTarget (root : ℕ) (s : FilesystemRestoreSink) : Prop :=
  ∀ destination inode hasher expected, s.current=.file destination inode hasher expected →
    s.disk.Held root destination inode

structure Ready (start : Disk) (root : ℕ) (options : FilesystemRestoreOptions)
    (destinations : List (List String×String)) (s : FilesystemRestoreSink) : Prop
    extends Reached start root options destinations [] s where
  held : HeldTarget root s

variable {nativeCollisionComponent : String → String} {sha256 : Bytes → Bytes}

theorem relative_ne_nil {archivePath : String} {resolved : NativeRestoreDestination}
    (h : resolveNativeRestoreDestination nativeCollisionComponent archivePath=.ok resolved) :
    resolved.relative≠[] ∧
      resolved.collisionKey=resolved.relative.map nativeCollisionComponent := by
  simp only [resolveNativeRestoreDestination,eq_ok] at h
  obtain ⟨_,_,_,_,_,_,relative,_,_,hne,rfl⟩ := h
  exact ⟨hne,rfl⟩

theorem openFile_triple {truncate createNew : Bool} {expected : Bytes} (hdir : path.dropLast ∈ dirs)
    (hpath : path≠[]) :
    Triple (Reached start root options destinations dirs)
      (do let inode ← mutate context path (.openFile path truncate createNew)
          modify fun s => { s with current := .file path inode [] expected })
      (fun _ => Ready start root options destinations) (Secure start root) := by
  refine Triple.bind (mutate_triple (fun s hs => hs) fun s hs => ?_) fun i =>
    modify fun s hs => ?_
  · refine sound_of_direct rfl fun other hother => ?_
    rw [mem_singleton.mp hother]
    exact hs.direct hdir hpath
  · obtain ⟨old,hold,hreached,happly,-⟩ := hs
    have hheld := held_openFile hold.contained.numbered (hold.direct hdir hpath) happly
    refine ⟨⟨⟨hreached.root_eq,hreached.contained,hreached.directory,hreached.journal⟩,
      hreached.options_eq,hreached.destinations_eq,by simp⟩,?_⟩
    intro destination inode hasher expected' hcurrent
    cases hcurrent
    exact hheld

theorem Reached.ready {t : FilesystemRestoreSink}
    (h : Reached start root options destinations dirs s) (hdisk : t.disk=s.disk)
    (hjournal : t.journal=s.journal) (hroot : t.root=s.root) (hoptions : t.options=s.options)
    (hdestinations : t.nativeDestinations=s.nativeDestinations)
    (hcurrent : ∀ destination inode hasher expected,
      t.current≠.file destination inode hasher expected) :
    Ready start root options destinations t := by
  refine ⟨⟨⟨hroot.trans h.root_eq,?_,?_,?_⟩,hoptions.trans h.options_eq,
    hdestinations.trans h.destinations_eq,by simp⟩,
    fun destination inode hasher expected hfile =>
      absurd hfile (hcurrent destination inode hasher expected)⟩
  · rw [hdisk]
    exact h.contained
  · rw [hdisk]
    exact h.directory
  · rw [hjournal]
    exact h.journal

variable {entry : RemTarStreamEntry}

theorem beginSelected_triple (hrelative : relative≠[]) :
    Triple (Reached start root options destinations [])
      (beginSelected nativeCollisionComponent entry relative)
      (fun _ => Ready start root options destinations) (Secure start root) := by
  refine Triple.bind get fun settings => ?_
  have hpre : ∀ s, (settings=s ∧ Reached start root options destinations [] s) →
      Reached start root options destinations [] s := fun s hs => hs.2
  refine imp (?_ : Triple (Reached start root options destinations []) _ _ _) hpre
    fun _ _ h => h
  cases entry.entryType with
  | regular =>
    refine Triple.bind (liftResult_triple fun s hs => hs.toSecure) fun expected => ?_
    refine Triple.bind (imp createRestoreParentDirsSecure_triple (fun s hs => hs.1)
      fun _ _ h => h) fun _ => ?_
    exact openFile_triple mem_cons_self hrelative
  | directory =>
    refine Triple.bind createRestoreDirsSecure_triple fun _ => modify fun s hs => ?_
    exact hs.ready rfl rfl rfl rfl rfl (by simp)
  | hardlink =>
    refine Triple.bind (liftResult_triple fun s hs => hs.toSecure) fun target => ?_
    refine Triple.bind (liftResult_triple fun s hs => hs.1.toSecure) fun source => ?_
    refine Triple.assume (fun hsource => ?_) fun s hs => hs.2
    obtain ⟨hne,-⟩ := relative_ne_nil hsource
    refine Triple.bind (imp resolveExistingRestoreFileSecure_triple (fun s hs => hs.1.1)
      fun _ _ h => h) fun _ => ?_
    refine Triple.bind createRestoreParentDirsSecure_triple fun _ => ?_
    refine Triple.bind (prepareRestoreSymlinkDestination_triple mem_cons_self hrelative) fun _ => ?_
    refine Triple.bind (mutate_triple (fun s hs => hs) fun s hs => ?_) fun i =>
      modify fun s hs => ?_
    · refine sound_of_direct rfl fun path hpath => ?_
      rcases mem_cons.mp hpath with rfl | hpath
      · exact hs.direct (mem_cons_of_mem _ mem_cons_self) hne
      · rw [mem_singleton.mp hpath]
        exact hs.direct mem_cons_self hrelative
    · obtain ⟨old,-,hreached,-⟩ := hs
      exact hreached.ready rfl rfl rfl rfl rfl (by simp)
  | symlink =>
    refine Triple.bind (liftResult_triple fun s hs => hs.toSecure) fun target => ?_
    refine Triple.bind (imp createRestoreParentDirsSecure_triple (fun s hs => hs.1)
      fun _ _ h => h) fun _ => ?_
    refine Triple.bind (prepareRestoreSymlinkDestination_triple mem_cons_self hrelative) fun _ => ?_
    refine Triple.bind (mutate_triple (fun s hs => hs) fun s hs => ?_) fun i =>
      modify fun s hs => ?_
    · refine sound_of_direct rfl fun path hpath => ?_
      rw [mem_singleton.mp hpath]
      exact hs.direct mem_cons_self hrelative
    · obtain ⟨old,-,hreached,-⟩ := hs
      exact hreached.ready rfl rfl rfl rfl rfl (by simp)

/-- The archive path of the entry has been added under a collision key that was free. -/
def Reserves (nativeCollisionComponent : String → String) (entry : RemTarStreamEntry)
    (destinations destinations' : List (List String×String)) : Prop :=
  ∃ resolved, resolveNativeRestoreDestination nativeCollisionComponent entry.path=.ok resolved ∧
    destinations.lookup resolved.collisionKey=none ∧
    destinations'=(resolved.collisionKey,entry.path)::destinations

theorem registerNativeDestination_triple : Triple (Reached start root options destinations [])
      (registerNativeDestination nativeCollisionComponent entry.path)
      (fun relative s => relative≠[] ∧ ∃ destinations',
        Reserves nativeCollisionComponent entry destinations destinations' ∧
        Reached start root options destinations' [] s) (Secure start root) := by
  refine Triple.bind (liftResult_triple fun s hs => hs.toSecure) fun resolved => ?_
  intro s hs
  obtain ⟨hs,hresolved⟩ := hs
  have hsecure : ∀ list, Secure start root { s with nativeDestinations := list } := fun list =>
    ⟨hs.root_eq,hs.contained,hs.directory,hs.journal⟩
  cases hlookup : s.nativeDestinations.lookup resolved.collisionKey with
  | some previous =>
    simp only [Triple.run_get,Triple.run_set,hlookup]
    exact hsecure _
  | none =>
    simp only [Triple.run_get,Triple.run_set,hlookup]
    refine ⟨(relative_ne_nil hresolved).1,(resolved.collisionKey,entry.path)::destinations,
      ⟨resolved,hresolved,by rw [←hs.destinations_eq]; exact hlookup,rfl⟩,
      ⟨hsecure _,hs.options_eq,?_,by simp⟩⟩
    -- no earlier destination has the key
    have hfilter : s.nativeDestinations.filter (fun entry => entry.1≠resolved.collisionKey)=
        s.nativeDestinations := by
      rw [filter_eq_self]
      intro other hother
      have hne := lookup_eq_none_iff.mp hlookup other hother
      simpa using fun h : other.1=resolved.collisionKey => by simp [h] at hne
    rw [hfilter,hs.destinations_eq]

def Event.Reserves (nativeCollisionComponent : String → String) (options : FilesystemRestoreOptions)
    (destinations destinations' : List (List String×String)) : Event → Prop
  | .begin entry =>
    if options.selects entry=true then
      Stream.Reserves nativeCollisionComponent entry destinations destinations'
    else destinations'=destinations
  | .data _ | .finish _ => destinations'=destinations

theorem beginFile_triple :
    Triple (Ready start root options destinations) (beginFile nativeCollisionComponent entry)
      (fun _ s => ∃ destinations',
        (Event.begin entry).Reserves nativeCollisionComponent options destinations destinations' ∧
        Ready start root options destinations' s) (Secure start root) := by
  refine Triple.bind get fun settings => ?_
  refine Triple.assume (fun hoptions : settings.options=options => ?_)
    fun s hs => by rw [hs.1]; exact hs.2.options_eq
  rw [hoptions]
  by_cases hselects : options.selects entry=true
  · rw [if_neg (by simp [hselects])]
    refine imp (?_ : Triple (Reached start root options destinations []) _ _ _)
      (fun s hs => hs.2.toReached) fun _ _ h => h
    refine Triple.bind registerNativeDestination_triple fun relative => ?_
    intro s hs
    obtain ⟨hrelative,destinations',hreserves,hreached⟩ := hs
    refine imp (beginSelected_triple hrelative) (fun s hs => hs)
      (fun _ s hs => ⟨destinations',?_,hs⟩) s hreached
    rw [Event.Reserves,if_pos hselects]
    exact hreserves
  · rw [if_pos (by simpa using hselects)]
    refine modify fun s hs => ⟨destinations,?_,
      hs.2.toReached.ready rfl rfl rfl rfl rfl (by simp)⟩
    rw [Event.Reserves,if_neg hselects]

theorem writeFileData_triple {bytes : Bytes} :
    Triple (Ready start root options destinations) (writeFileData bytes)
      (fun _ => Ready start root options destinations) (Secure start root) := by
  refine Triple.bind get fun settings => ?_
  cases hcurrent : settings.current with
  | skip => exact pure fun s hs => hs.2
  | none | directory | hardlink | symlink => exact Triple.throw fun s hs => hs.2.toSecure
  | file destination inode hasher expected =>
    have hheld : ∀ s, (settings=s ∧ Ready start root options destinations s) →
        s.disk.Held root destination inode := by
      rintro s ⟨rfl,hs⟩
      exact hs.held _ _ _ _ hcurrent
    refine Triple.bind (mutate_triple (fun s hs => hs.2.toReached) fun s hs => ?_) fun i =>
      modify fun s hs => ?_
    · exact (hheld s hs).sound_writeAt _ _
    · obtain ⟨old,hold,hreached,happly,-⟩ := hs
      refine ⟨⟨⟨hreached.root_eq,hreached.contained,hreached.directory,hreached.journal⟩,
        hreached.options_eq,hreached.destinations_eq,by simp⟩,?_⟩
      intro destination' inode' hasher' expected' hfile
      cases hfile
      exact (hheld old hold).writeAt happly

theorem endFile_triple : Triple (Ready start root options destinations) (endFile sha256 entry)
      (fun _ => Ready start root options destinations) (Secure start root) := by
  refine Triple.bind get fun settings => ?_
  refine Triple.bind (?_ : Triple _ _ (fun _ s => Ready start root options destinations s ∧
    s.current=.none) _) fun _ => ?_
  · rintro _ ⟨rfl,hs⟩
    exact ⟨hs.toReached.ready rfl rfl rfl rfl rfl (by simp),rfl⟩
  cases settings.current with
  | none => exact Triple.throw fun s hs => hs.1.toSecure
  | skip | directory | hardlink | symlink => exact pure fun s hs => hs.1
  | file destination inode hasher expected =>
    refine Triple.bind (liftResult_triple fun s hs => hs.1.toSecure) fun _ => ?_
    refine Triple.bind (liftResult_triple fun s hs => hs.1.1.toSecure) fun _ =>
      modify fun s hs => ?_
    obtain ⟨⟨⟨hs,hnone⟩,-⟩,-⟩ := hs
    exact hs.toReached.ready rfl rfl rfl rfl rfl (by simp [hnone])

theorem handle_triple {event : Event} :
    Triple (Ready start root options destinations) (handle nativeCollisionComponent sha256 event)
      (fun _ s => ∃ destinations',
        event.Reserves nativeCollisionComponent options destinations destinations' ∧
        Ready start root options destinations' s) (Secure start root) := by
  cases event with
  | begin entry => exact beginFile_triple
  | data bytes => exact writeFileData_triple.imp (fun _ h => h) fun _ s hs => ⟨_,rfl,hs⟩
  | finish entry => exact endFile_triple.imp (fun _ h => h) fun _ s hs => ⟨_,rfl,hs⟩

theorem restoreAll_triple {events : List Event} :
    Triple (fun s => ∃ destinations, Ready start root options destinations s)
      (restoreAll nativeCollisionComponent sha256 events)
      (fun _ s => ∃ destinations, Ready start root options destinations s) (Secure start root) := by
  refine Triple.forM fun event _ => ?_
  rintro s ⟨destinations,hs⟩
  exact handle_triple.imp (fun _ h => h) (fun _ _ ⟨destinations',_,h⟩ => ⟨destinations',h⟩) s hs

/-- The entry resolves to a key that is not reserved. -/
def Fresh (nativeCollisionComponent : String → String) (destinations : List (List String×String))
    (entry : RemTarStreamEntry) : Prop :=
  ∃ resolved, resolveNativeRestoreDestination nativeCollisionComponent entry.path=.ok resolved ∧
    destinations.lookup resolved.collisionKey=none

/-- The two entries have destinations whose names differ, also after folding. -/
def Apart (nativeCollisionComponent : String → String) (a b : RemTarStreamEntry) : Prop :=
  ∃ first second, resolveNativeRestoreDestination nativeCollisionComponent a.path=.ok first ∧
    resolveNativeRestoreDestination nativeCollisionComponent b.path=.ok second ∧
    first.relative≠second.relative ∧ first.collisionKey≠second.collisionKey

theorem Reserves.apart {a b : RemTarStreamEntry} {destinations' : List (List String×String)}
    (h : Reserves nativeCollisionComponent a destinations destinations')
    (hb : Fresh nativeCollisionComponent destinations' b) :
    Apart nativeCollisionComponent a b ∧ Fresh nativeCollisionComponent destinations b := by
  obtain ⟨first,hfirst,-,rfl⟩ := h
  obtain ⟨second,hsecond,hfree⟩ := hb
  rw [lookup_cons] at hfree
  split at hfree
  · cases hfree
  · rename_i hne
    have hkeys : second.collisionKey≠first.collisionKey := by simpa using hne
    refine ⟨⟨first,second,hfirst,hsecond,fun hrelative => hkeys ?_,hkeys.symm⟩,
      second,hsecond,hfree⟩
    rw [(relative_ne_nil hfirst).2,(relative_ne_nil hsecond).2,hrelative]

theorem acceptedEntries_apart {events : List Event} (h : Ready start root options destinations s) :
    (∀ entry ∈ acceptedEntries nativeCollisionComponent sha256 s events,
      Fresh nativeCollisionComponent destinations entry) ∧
    (acceptedEntries nativeCollisionComponent sha256 s events).Pairwise
      (Apart nativeCollisionComponent) := by
  induction events generalizing s destinations with
  | nil => exact ⟨by simp [acceptedEntries],List.Pairwise.nil⟩
  | cons event events ih =>
    unfold acceptedEntries
    cases hrun : handle nativeCollisionComponent sha256 event s with
    | error e s' => exact ⟨by simp,List.Pairwise.nil⟩
    | ok value s' =>
      obtain ⟨destinations',hreserves,hready⟩ := handle_triple.of_ok h hrun
      obtain ⟨hfresh,hapart⟩ := ih hready
      cases event with
      | data | finish =>
        cases hreserves
        exact ⟨hfresh,hapart⟩
      | begin entry =>
        rw [Event.Reserves] at hreserves
        rw [h.options_eq]
        dsimp only
        split_ifs at hreserves ⊢ with hselects
        · refine ⟨fun other hother => ?_,
            hapart.cons fun other hother => (hreserves.apart (hfresh other hother)).1⟩
          rcases mem_cons.mp hother with rfl | hother
          · obtain ⟨resolved,hresolved,hfree,-⟩ := hreserves
            exact ⟨resolved,hresolved,hfree⟩
          · exact (hreserves.apart (hfresh other hother)).2
        · cases hreserves
          exact ⟨hfresh,hapart⟩

end Programs

theorem ready_new {start : Disk} {root : ℕ} (hstart : start.WellFormed)
    (hroot : (start.entries root).isSome) (rootPath : String) (options : FilesystemRestoreOptions) :
    Ready start root options [] (.new start root rootPath options) := by
  have hdirectory : ∃ d, start.realWalk root []=some d := by
    obtain ⟨list,hlist⟩ := Option.isSome_iff_exists.mp hroot
    exact ⟨root,by rw [realWalk,hlist]; rfl⟩
  exact ⟨⟨⟨rfl,.refl hstart.numbered,hdirectory,by simp [FilesystemRestoreSink.new]⟩,rfl,rfl,
    by simp⟩,by simp [HeldTarget,FilesystemRestoreSink.new]⟩

/-- Also when a call fails: no operation follows a link, inodes outside the root are unchanged, and
no two accepted entries have one destination or one collision key. -/
theorem restore_confined {start : Disk} {root : ℕ} (hstart : start.WellFormed)
    (hroot : (start.entries root).isSome) (hforeign : start.NoForeignLink root)
    (nativeCollisionComponent : String → String) (sha256 : Bytes → Bytes) (rootPath : String)
    (options : FilesystemRestoreOptions) (events : List Event) :
    let s := FilesystemRestoreSink.new start root rootPath options
    let final := finalState (restoreAll nativeCollisionComponent sha256 events s)
    (∀ record ∈ final.journal, record.1.Sound root record.2) ∧
    (∀ i, start.Outside root i → final.disk.nodes i=start.nodes i) ∧
    (∀ i, start.nodes i=none → ∀ d list name, final.disk.entries d=some list →
      list.lookup name=some i → final.disk.Inside root d) ∧
    (acceptedEntries nativeCollisionComponent sha256 s events).Pairwise
      (Apart nativeCollisionComponent) := by
  intro s final
  have hready := ready_new hstart hroot rootPath options
  have hsecure : Secure start root final :=
    Triple.final restoreAll_triple ⟨[],hready⟩ fun _ _ ⟨_,h⟩ => h.toSecure
  refine ⟨hsecure.journal,fun i hi => hsecure.contained.outside hstart hforeign hi,
    fun i hi d list name hlist hfound => hsecure.contained.created hstart hi hlist hfound,
    (acceptedEntries_apart hready).2⟩

def sampleDisk : Disk where
  nodes
    | 0 => some (.directory 0 [("restore",1),("secret",2)])
    | 1 => some (.directory 0 [("trap",3)])
    | 2 => some (.file [115])
    | 3 => some (.symlink "../secret")
    | _ => none
  next := 4
  top := 0
  budget := 40

/-- The link, a new link and a file below the new link. -/
def hostileEvents : List Event :=
  let entry (entryType : RemTarEntryType) (path : String) (linkTarget : Option String) : Event :=
    .begin ⟨entryType,path,0,[("REMANENCE.file_sha256","".pushn '0' 64)],linkTarget⟩
  [entry .directory "a" none,entry .symlink "a/out" (some "/secret"),entry .regular "a/out/x" none,
    entry .regular "trap" none]

theorem sampleDisk_entry {d i : ℕ} {list : List (String×ℕ)} {name : String}
    (hlist : sampleDisk.entries d=some list) (hfound : list.lookup name=some i) :
    d=0 ∧ (i=1 ∨ i=2) ∨ d=1 ∧ i=3 := by
  match d,hlist with
  | 0,hlist =>
    cases hlist
    simp only [lookup_cons,lookup_nil] at hfound
    split at hfound
    · cases hfound
      exact .inl ⟨rfl,.inl rfl⟩
    · split at hfound <;> cases hfound
      exact .inl ⟨rfl,.inr rfl⟩
  | 1,hlist =>
    cases hlist
    simp only [lookup_cons,lookup_nil] at hfound
    split at hfound <;> cases hfound
    exact .inr ⟨rfl,rfl⟩
  | 2,hlist => cases hlist
  | 3,hlist => cases hlist
  | _+4,hlist => cases hlist

theorem sampleDisk_wellFormed : sampleDisk.WellFormed := by
  refine ⟨fun i hi => ?_,fun d list name i hlist hfound => ?_⟩
  · match i,hi with
    | i+4,_ => rfl
  · rcases sampleDisk_entry hlist hfound with ⟨-,rfl | rfl⟩ | ⟨-,rfl⟩ <;> rfl

theorem sampleDisk_inside {i : ℕ} (h : sampleDisk.Inside 1 i) : i=1 ∨ i=3 := by
  induction h with
  | root => exact .inl rfl
  | entry _ hlist hfound ih =>
    rcases sampleDisk_entry hlist hfound with ⟨rfl,-⟩ | ⟨-,rfl⟩
    · rcases ih with h | h <;> cases h
    · exact .inr rfl

theorem sampleDisk_noForeignLink : sampleDisk.NoForeignLink 1 := by
  rintro i hi ⟨-,hout | ⟨hne,d,list,name,hlist,hfound,hd⟩⟩
  · exact hout hi
  · rcases sampleDisk_entry hlist hfound with ⟨-,hi'⟩ | ⟨rfl,-⟩
    · rcases sampleDisk_inside hi with rfl | rfl
      · exact hne rfl
      · rcases hi' with h | h <;> cases h
    · exact hd .root

theorem restore_confined_hostileEvents : sampleDisk.Outside 1 2 ∧
    (finalState (restoreAll id id hostileEvents
      (.new sampleDisk 1 "/restore" ⟨true,[],true⟩))).disk.nodes 2=some (.file [115]) := by
  have hout : sampleDisk.Outside 1 2 := by
    refine ⟨rfl,.inl fun hin => ?_⟩
    rcases sampleDisk_inside hin with h | h <;> cases h
  exact ⟨hout,(restore_confined sampleDisk_wellFormed rfl sampleDisk_noForeignLink id id "/restore"
    ⟨true,[],true⟩ hostileEvents).2.1 2 hout⟩

end Remanence.Stream
