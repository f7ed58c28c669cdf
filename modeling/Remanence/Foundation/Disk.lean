import Mathlib.Logic.Function.Basic
import Remanence.Foundation.Bytes
import Remanence.Foundation.Checked

/-!
# A file system with links

Inodes are directories, files and symbolic links; a file may have several names. A path is
resolved component by component, following symbolic links on the way. A path whose intermediate
components are real directories is direct: its resolution follows no link and stays below its
start.
-/

namespace Remanence.Foundation

open List
open Option (some map_eq_some_iff bind_eq_some_iff isSome_iff_exists getD_some)

inductive Component where
  | rootDir
  | curDir
  | parentDir
  | normal (name : String)
deriving DecidableEq, Repr

/-- Component of a piece between separators; empty pieces and dots name nothing. -/
def pieceComponent (piece : String) : Option Component :=
  if piece="" ∨ piece="." then none
  else if piece=".." then some .parentDir
  else some (.normal piece)

def pieces (path : String) : List String := (path.toList.splitOn '/').map String.ofList

def components (path : String) : List Component :=
  (if path.toList.head?=some '/' then [.rootDir]
    else if (pieces path).head?=some "." then [.curDir]
    else [])++(pieces path).filterMap pieceComponent

inductive Node where
  | directory (parent : ℕ) (entries : List (String×ℕ))
  | file (bytes : Bytes)
  | symlink (target : String)
deriving DecidableEq

inductive Errno where
  | notFound
  | notADirectory
  | exists
  | isADirectory
  | loop
  | notPermitted
deriving DecidableEq, Repr

structure Disk where
  nodes : ℕ → Option Node
  next : ℕ
  top : ℕ
  /-- Components that one resolution may pass. -/
  budget : ℕ

namespace Disk

def entries (disk : Disk) (d : ℕ) : Option (List (String×ℕ)) :=
  match disk.nodes d with
  | some (.directory _ entries) => some entries
  | _ => none

def lookup (disk : Disk) (d : ℕ) (name : String) : Except Errno ℕ :=
  match disk.entries d with
  | none => .error .notADirectory
  | some entries => match entries.lookup name with
    | none => .error .notFound
    | some i => .ok i

/-- Resolution of components from a directory; links on the way are followed. -/
def walk (disk : Disk) : ℕ → ℕ → List Component → Except Errno ℕ
  | _,cwd,[] => .ok cwd
  | 0,_,_::_ => .error .loop
  | fuel+1,cwd,component::rest => match disk.nodes cwd with
    | some (.directory parent entries) => match component with
      | .rootDir => walk disk fuel disk.top rest
      | .curDir => walk disk fuel cwd rest
      | .parentDir => walk disk fuel parent rest
      | .normal name => match entries.lookup name with
        | none => .error .notFound
        | some i => match disk.nodes i with
          | some (.symlink target) => walk disk fuel cwd (components target++rest)
          | _ => walk disk fuel i rest
    | _ => .error .notADirectory

/-- Directory and name of a path below a directory. The last component is not followed. -/
def locate (disk : Disk) (root : ℕ) (path : List String) : Except Errno (ℕ×String) :=
  match path.getLast? with
  | none => .error .notFound
  | some name => do
    let d ← disk.walk disk.budget root (path.dropLast.map .normal)
    return (d,name)

/-- Inode at a path, without following a last link. -/
def symlinkMetadata (disk : Disk) (root : ℕ) (path : List String) : Except Errno Node := do
  let (d,name) ← disk.locate root path
  let i ← disk.lookup d name
  match disk.nodes i with
  | some node => return node
  | none => .error .notFound

def setNode (disk : Disk) (i : ℕ) (node : Node) : Disk :=
  { disk with nodes := Function.update disk.nodes i (some node) }

def setEntries (disk : Disk) (d : ℕ) (entries : List (String×ℕ)) : Disk :=
  match disk.nodes d with
  | some (.directory parent _) => disk.setNode d (.directory parent entries)
  | _ => disk

def addEntry (disk : Disk) (d : ℕ) (name : String) (i : ℕ) : Disk :=
  disk.setEntries d ((disk.entries d).getD []++[(name,i)])

def removeEntry (disk : Disk) (d : ℕ) (name : String) : Disk :=
  disk.setEntries d (((disk.entries d).getD []).filter fun entry => entry.1≠name)

def create (disk : Disk) (d : ℕ) (name : String) (node : Node) : Disk :=
  addEntry { disk.setNode disk.next node with next := disk.next+1 } d name disk.next

inductive Mutation where
  | createDir (path : List String)
  | openFile (path : List String) (truncate createNew : Bool)
  | writeAt (path : List String) (inode offset : ℕ) (bytes : Bytes)
  | setLength (path : List String) (inode length : ℕ)
  | removeFile (path : List String)
  | hardLink (source path : List String)
  | symlink (target : String) (path : List String)
deriving DecidableEq

/-- Bytes with a range replaced; a gap reads as zeros. -/
def overwrite (old : Bytes) (offset : ℕ) (bytes : Bytes) : Bytes :=
  old.take offset++replicate (offset-old.length) 0++bytes++old.drop (offset+bytes.length)

def resize (old : Bytes) (length : ℕ) : Bytes :=
  old.take length++replicate (length-old.length) 0

def rewrite (disk : Disk) (i : ℕ) (f : Bytes → Bytes) : Disk :=
  match disk.nodes i with
  | some (.file bytes) => disk.setNode i (.file (f bytes))
  | _ => disk

def createAt (disk : Disk) (root : ℕ) (path : List String) (node : ℕ → Node) :
    Except Errno (Disk×ℕ) := do
  let (d,name) ← disk.locate root path
  match disk.lookup d name with
  | .ok _ => .error .exists
  | .error .notFound => return (disk.create d name (node d),disk.next)
  | .error e => .error e

def openAt (disk : Disk) (root : ℕ) (path : List String) (truncate createNew : Bool) :
    Except Errno (Disk×ℕ) := do
  let (d,name) ← disk.locate root path
  match disk.lookup d name with
  | .ok i =>
    if createNew=true then .error .exists
    else match disk.nodes i with
      | some (.file bytes) =>
        return (disk.rewrite i (fun _ => if truncate=true then [] else bytes),i)
      | some (.directory _ _) => .error .isADirectory
      | _ => .error .loop
  | .error .notFound => return (disk.create d name (.file []),disk.next)
  | .error e => .error e

def removeAt (disk : Disk) (root : ℕ) (path : List String) : Except Errno (Disk×ℕ) := do
  let (d,name) ← disk.locate root path
  let i ← disk.lookup d name
  match disk.nodes i with
  | some (.directory _ _) => .error .isADirectory
  | some _ => return (disk.removeEntry d name,i)
  | none => .error .notFound

def linkAt (disk : Disk) (root : ℕ) (source path : List String) : Except Errno (Disk×ℕ) := do
  let (s,old) ← disk.locate root source
  let i ← disk.lookup s old
  match disk.nodes i with
  | some (.directory _ _) => .error .notPermitted
  | some _ => do
    let (d,name) ← disk.locate root path
    match disk.lookup d name with
    | .ok _ => .error .exists
    | .error .notFound => return (disk.addEntry d name i,i)
    | .error e => .error e
  | none => .error .notFound

def apply (disk : Disk) (root : ℕ) : Mutation → Except Errno (Disk×ℕ)
  | .createDir path => disk.createAt root path fun d => .directory d []
  | .openFile path truncate createNew => disk.openAt root path truncate createNew
  | .writeAt _ inode offset bytes =>
    .ok (disk.rewrite inode fun old => overwrite old offset bytes,inode)
  | .setLength _ inode length => .ok (disk.rewrite inode fun old => resize old length,inode)
  | .removeFile path => disk.removeAt root path
  | .hardLink source path => disk.linkAt root source path
  | .symlink target path => disk.createAt root path fun _ => .symlink target

/-- Directory reached through real directories only. -/
def realWalk (disk : Disk) : ℕ → List String → Option ℕ
  | d,[] => (disk.entries d).map fun _ => d
  | d,name::rest => (disk.entries d).bind fun entries =>
    (entries.lookup name).bind fun i => realWalk disk i rest

inductive Inside (disk : Disk) (root : ℕ) : ℕ → Prop
  | root : Inside disk root root
  | entry {d i : ℕ} {name : String} {entries : List (String×ℕ)} (dir : Inside disk root d)
      (list : disk.entries d=some entries) (found : entries.lookup name=some i) :
      Inside disk root i

variable {disk : Disk} {d : ℕ} {list : List (String×ℕ)}

theorem entries_eq_some :
    disk.entries d=some list ↔ ∃ parent, disk.nodes d=some (.directory parent list) := by
  unfold entries
  split
  · rename_i parent found heq
    rw [heq]
    simp
  · rename_i hne
    simp only [reduceCtorEq,false_iff,not_exists]
    exact fun parent heq => hne parent list heq

variable {i : ℕ}

theorem entries_eq_none
    (h : ∀ parent list, disk.nodes i≠some (.directory parent list)) : disk.entries i=none := by
  cases hentries : disk.entries i with
  | none => rfl
  | some list =>
    obtain ⟨parent,hnode⟩ := entries_eq_some.mp hentries
    exact absurd hnode (h parent list)

variable {path : List String} {e : ℕ}

theorem entries_of_realWalk
    (h : disk.realWalk d path=some e) : ∃ list, disk.entries d=some list := by
  cases path with
  | nil =>
    simp only [realWalk,map_eq_some_iff] at h
    obtain ⟨list,hlist,-⟩ := h
    exact ⟨list,hlist⟩
  | cons name path =>
    simp only [realWalk,bind_eq_some_iff] at h
    obtain ⟨list,hlist,-⟩ := h
    exact ⟨list,hlist⟩

variable {name : String}

theorem realWalk_concat (h : disk.realWalk d path=some e) (hlist : disk.entries e=some list)
    (hi : list.lookup name=some i) (hdir : (disk.entries i).isSome) :
    disk.realWalk d (path++[name])=some i := by
  induction path generalizing d with
  | nil =>
    simp only [realWalk,map_eq_some_iff] at h
    obtain ⟨_,_,rfl⟩ := h
    obtain ⟨sub,hsub⟩ := isSome_iff_exists.mp hdir
    simp [realWalk,hlist,hi,hsub]
  | cons first path ih =>
    simp only [realWalk,bind_eq_some_iff,cons_append] at h ⊢
    obtain ⟨found,hfound,j,hj,hrest⟩ := h
    exact ⟨found,hfound,j,hj,ih hrest⟩

theorem walk_of_realWalk (fuel : ℕ) (h : disk.realWalk d path=some e) :
    disk.walk fuel d (path.map .normal)=.ok e ∨ disk.walk fuel d (path.map .normal)=.error .loop := by
  induction path generalizing fuel d with
  | nil =>
    simp only [realWalk,map_eq_some_iff] at h
    obtain ⟨_,_,rfl⟩ := h
    left
    cases fuel <;> rfl
  | cons name path ih =>
    simp only [realWalk,bind_eq_some_iff] at h
    obtain ⟨list,hlist,i,hi,hrest⟩ := h
    cases fuel with
    | zero => exact .inr rfl
    | succ fuel =>
      obtain ⟨parent,hnode⟩ := entries_eq_some.mp hlist
      obtain ⟨sub,hsub⟩ := entries_of_realWalk hrest
      obtain ⟨up,hdir⟩ := entries_eq_some.mp hsub
      rw [map_cons,walk,hnode]
      dsimp only
      rw [hi]
      dsimp only
      rw [hdir]
      exact ih fuel hrest

variable {root : ℕ}

theorem inside_of_realWalk
    (hd : disk.Inside root d) (h : disk.realWalk d path=some e) : disk.Inside root e := by
  induction path generalizing d with
  | nil =>
    simp only [realWalk,map_eq_some_iff] at h
    obtain ⟨_,_,rfl⟩ := h
    exact hd
  | cons name path ih =>
    simp only [realWalk,bind_eq_some_iff] at h
    obtain ⟨list,hlist,i,hi,hrest⟩ := h
    exact ih (.entry hd hlist hi) hrest

@[simp] theorem nodes_setNode_self (disk : Disk) (i : ℕ) (node : Node) :
    (disk.setNode i node).nodes i=some node := Function.update_self i _ _

variable {j : ℕ} {node : Node}

theorem nodes_setNode_of_ne (h : j≠i) :
    (disk.setNode i node).nodes j=disk.nodes j := Function.update_of_ne h _ _

theorem nodes_setEntries_of_ne (h : i≠d) : (disk.setEntries d list).nodes i=disk.nodes i := by
  unfold setEntries
  split
  · exact nodes_setNode_of_ne h
  · rfl

variable {a b : Disk}

theorem entries_congr (h : a.nodes d=b.nodes d) : a.entries d=b.entries d := by
  rw [entries,entries,h]

theorem entries_setEntries_self {old : List (String×ℕ)}
    (h : disk.entries d=some old) : (disk.setEntries d list).entries d=some list := by
  obtain ⟨parent,hnode⟩ := entries_eq_some.mp h
  rw [setEntries,hnode]
  exact entries_eq_some.mpr ⟨parent,nodes_setNode_self _ _ _⟩

inductive Change (disk : Disk) : List ℕ → Disk → Prop
  | none : Change disk [] disk
  | create (d : ℕ) (name : String) (node : Node) (list : List (String×ℕ))
      (dir : disk.entries d=some list) (free : list.lookup name=.none)
      (empty : ∀ parent entries, node=.directory parent entries → entries=[]) :
      Change disk [d] (disk.create d name node)
  | link (d i : ℕ) (name : String) (list : List (String×ℕ)) (dir : disk.entries d=some list)
      (free : list.lookup name=.none) (leaf : disk.entries i=.none) :
      Change disk [d,i] (disk.addEntry d name i)
  | unlink (d i : ℕ) (name : String) (list : List (String×ℕ)) (dir : disk.entries d=some list)
      (entry : list.lookup name=some i) (leaf : disk.entries i=.none) :
      Change disk [d] (disk.removeEntry d name)
  | content (i : ℕ) (old new : Bytes) (file : disk.nodes i=some (.file old)) :
      Change disk [i] (disk.setNode i (.file new))

def Numbered (disk : Disk) : Prop := ∀ i, disk.next ≤ i → disk.nodes i=none

/-- Directories stay directories and keep their subdirectories. -/
def Grows (a b : Disk) : Prop :=
  ∀ d list, a.entries d=some list → ∃ list', b.entries d=some list' ∧
    ∀ name i, list.lookup name=some i → (a.entries i).isSome → list'.lookup name=some i

theorem Grows.refl (a : Disk) : Grows a a := fun _ list h => ⟨list,h,fun _ _ hi _ => hi⟩

theorem Grows.trans {c : Disk} (h : Grows a b) (h' : Grows b c) : Grows a c := by
  intro d list hlist
  obtain ⟨mid,hmid,hkeep⟩ := h d list hlist
  obtain ⟨last,hlast,hkeep'⟩ := h' d mid hmid
  refine ⟨last,hlast,fun name i hi hdir => hkeep' name i (hkeep name i hi hdir) ?_⟩
  obtain ⟨list',hlist'⟩ := isSome_iff_exists.mp hdir
  obtain ⟨_,hsub,-⟩ := h i list' hlist'
  rw [hsub]
  rfl

theorem Grows.realWalk (h : Grows a b)
    (hwalk : a.realWalk d path=some e) : b.realWalk d path=some e := by
  induction path generalizing d with
  | nil =>
    simp only [Disk.realWalk,map_eq_some_iff] at hwalk ⊢
    obtain ⟨list,hlist,rfl⟩ := hwalk
    obtain ⟨list',hlist',-⟩ := h d list hlist
    exact ⟨list',hlist',rfl⟩
  | cons name path ih =>
    simp only [Disk.realWalk,bind_eq_some_iff] at hwalk ⊢
    obtain ⟨list,hlist,i,hi,hrest⟩ := hwalk
    obtain ⟨list',hlist',hkeep⟩ := h d list hlist
    obtain ⟨_,hdir⟩ := entries_of_realWalk hrest
    have hsome : (a.entries i).isSome := by
      rw [hdir]
      rfl
    exact ⟨list',hlist',i,hkeep name i hi hsome,ih hrest⟩

theorem entries_setEntries : (disk.setEntries d list).entries e=
      if e=d ∧ (disk.entries d).isSome then some list else disk.entries e := by
  by_cases he : e=d
  · subst he
    cases hentries : disk.entries e with
    | none =>
      have hsame : disk.setEntries e list=disk := by
        unfold setEntries
        split
        · rename_i parent old hnode
          rw [entries_eq_some.mpr ⟨parent,hnode⟩] at hentries
          cases hentries
        · rfl
      simp [hsame,hentries]
    | some old => simp [entries_setEntries_self hentries]
  · rw [if_neg (fun h => he h.1)]
    exact entries_congr (nodes_setEntries_of_ne he)

theorem grows_setEntries {old new : List (String×ℕ)} (hold : disk.entries d=some old)
    (hkeep : ∀ name i, old.lookup name=some i → (disk.entries i).isSome → new.lookup name=some i) :
    Grows disk (disk.setEntries d new) := by
  intro e list hlist
  rw [entries_setEntries]
  by_cases he : e=d
  · subst he
    rw [hold,some.injEq] at hlist
    subst hlist
    rw [if_pos ⟨rfl,by rw [hold]; rfl⟩]
    exact ⟨new,rfl,hkeep⟩
  · rw [if_neg (fun h => he h.1)]
    exact ⟨list,hlist,fun _ _ hi _ => hi⟩

variable {other : String}

theorem lookup_concat_of_some
    (h : list.lookup other=some j) : (list++[(name,i)]).lookup other=some j := by
  rw [lookup_append,h]
  rfl

theorem lookup_filter : (list.filter fun entry => entry.1≠name).lookup other=
      if other=name then none else list.lookup other := by
  induction list with
  | nil => simp
  | cons entry list ih =>
    obtain ⟨first,i⟩ := entry
    by_cases hfirst : first=name
    · subst hfirst
      rw [filter_cons_of_neg (by simp),ih,lookup_cons]
      by_cases hother : other=first
      · rw [if_pos hother,if_pos hother]
      · have hne : (other==first)=false := by simpa using hother
        rw [if_neg hother,if_neg hother,hne]
    · rw [filter_cons_of_pos (by simpa using hfirst),lookup_cons,lookup_cons,ih]
      by_cases hother : other=name
      · subst hother
        have hne : (other==first)=false := by simpa using fun h => hfirst h.symm
        rw [if_pos rfl,if_pos rfl,hne]
      · rw [if_neg hother,if_neg hother]

theorem Numbered.lt (h : Numbered disk) (hnode : disk.nodes i=some node) : i < disk.next := by
  by_contra hle
  rw [h i (Nat.le_of_not_lt hle)] at hnode
  cases hnode

theorem Numbered.lt_of_entries (h : Numbered disk)
    (hlist : disk.entries d=some list) : d < disk.next := by
  obtain ⟨_,hnode⟩ := entries_eq_some.mp hlist
  exact h.lt hnode

/-- The disk with a new inode that has no name yet. -/
def allocate (disk : Disk) (node : Node) : Disk :=
  { disk.setNode disk.next node with next := disk.next+1 }

theorem create_eq (disk : Disk) (d : ℕ) (name : String) (node : Node) :
    disk.create d name node=(disk.allocate node).addEntry d name disk.next := rfl

theorem nodes_allocate (h : i < disk.next) :
    (disk.allocate node).nodes i=disk.nodes i := nodes_setNode_of_ne (ne_of_lt h)

theorem entries_allocate (h : d < disk.next) :
    (disk.allocate node).entries d=disk.entries d := entries_congr (nodes_allocate h)

variable {disk' : Disk} {touched : List ℕ}

theorem Change.grows (h : Change disk touched disk')
    (hnumbered : Numbered disk) : Grows disk disk' := by
  cases h with
  | none => exact .refl disk
  | create d name node list dir free empty =>
    have hd := hnumbered.lt_of_entries dir
    have hdir : (disk.allocate node).entries d=some list := by rw [entries_allocate hd,dir]
    have hallocate : Grows disk (disk.allocate node) := by
      intro e found hfound
      rw [entries_allocate (hnumbered.lt_of_entries hfound)]
      exact ⟨found,hfound,fun _ _ hi _ => hi⟩
    rw [create_eq,addEntry,hdir]
    exact hallocate.trans (grows_setEntries hdir fun _ _ hi _ => lookup_concat_of_some hi)
  | link d i name list dir free leaf =>
    rw [addEntry,dir]
    exact grows_setEntries dir fun _ _ hi _ => lookup_concat_of_some hi
  | unlink d i name list dir entry leaf =>
    rw [removeEntry,dir]
    refine grows_setEntries dir fun other j hj hdir => ?_
    have hne : other≠name := by
      rintro rfl
      rw [entry,some.injEq] at hj
      rw [←hj,leaf] at hdir
      cases hdir
    rw [getD_some,lookup_filter,if_neg hne]
    exact hj
  | content i old new file =>
    intro e list hlist
    have hne : e≠i := by
      rintro rfl
      obtain ⟨_,hnode⟩ := entries_eq_some.mp hlist
      rw [file] at hnode
      cases hnode
    rw [entries_congr (nodes_setNode_of_ne hne)]
    exact ⟨list,hlist,fun _ _ hi _ => hi⟩

theorem Change.nodes_eq (h : Change disk touched disk')
    (hi : i ∉ touched) (hlt : i < disk.next) : disk'.nodes i=disk.nodes i := by
  cases h with
  | none => rfl
  | create d name node list dir free empty =>
    rw [create_eq,addEntry,nodes_setEntries_of_ne (by simpa using hi),nodes_allocate hlt]
  | link d j name list dir free leaf =>
    simp only [mem_cons,not_or] at hi
    rw [addEntry,nodes_setEntries_of_ne hi.1]
  | unlink d j name list dir entry leaf =>
    rw [removeEntry,nodes_setEntries_of_ne (by simpa using hi)]
  | content j old new file => exact nodes_setNode_of_ne (by simpa using hi)

theorem Change.numbered (h : Change disk touched disk')
    (hnumbered : Numbered disk) : Numbered disk' ∧ disk.next ≤ disk'.next := by
  have hset : ∀ (a : Disk) (d : ℕ) list, (a.setEntries d list).next=a.next := by
    intro a d list
    unfold setEntries
    split <;> rfl
  cases h with
  | none => exact ⟨hnumbered,le_rfl⟩
  | create d name node list dir free empty =>
    have hd := hnumbered.lt_of_entries dir
    have hnext : (disk.create d name node).next=disk.next+1 := by
      rw [create_eq,addEntry,hset]
      rfl
    refine ⟨fun i hi => ?_,by omega⟩
    rw [create_eq,addEntry,nodes_setEntries_of_ne (by omega)]
    exact (nodes_setNode_of_ne (by omega)).trans (hnumbered i (by omega))
  | link d j name list dir free leaf =>
    have hd := hnumbered.lt_of_entries dir
    rw [addEntry]
    refine ⟨fun i hi => ?_,by rw [hset]⟩
    rw [hset] at hi
    rw [nodes_setEntries_of_ne (by omega),hnumbered i hi]
  | unlink d j name list dir entry leaf =>
    have hd := hnumbered.lt_of_entries dir
    rw [removeEntry]
    refine ⟨fun i hi => ?_,by rw [hset]⟩
    rw [hset] at hi
    rw [nodes_setEntries_of_ne (by omega),hnumbered i hi]
  | content j old new file =>
    have hj := hnumbered.lt file
    refine ⟨fun i hi => ?_,le_rfl⟩
    have hi' : disk.next ≤ i := hi
    rw [nodes_setNode_of_ne (by omega),hnumbered i hi']

theorem lookup_concat_cases
    (h : (list++[(name,j)]).lookup other=some i) : list.lookup other=some i ∨ i=j := by
  rw [lookup_append] at h
  cases hlist : list.lookup other with
  | some k =>
    rw [hlist] at h
    exact .inl h
  | none =>
    rw [hlist,Option.none_or,lookup_cons] at h
    split at h
    · exact .inr (some.inj h).symm
    · cases h

theorem Change.entry_cases (h : Change disk touched disk')
    (hnumbered : Numbered disk) {list' : List (String×ℕ)}
    (hlist : disk'.entries d=some list') (hfound : list'.lookup name=some i) :
    (∃ list, disk.entries d=some list ∧ list.lookup name=some i) ∨ i=disk.next ∨ i ∈ touched := by
  cases h with
  | none => exact .inl ⟨list',hlist,hfound⟩
  | create e new node list dir free empty =>
    have he := hnumbered.lt_of_entries dir
    rw [create_eq,addEntry,entries_allocate he,dir,getD_some,entries_setEntries] at hlist
    split_ifs at hlist with hcase
    · obtain ⟨rfl,-⟩ := hcase
      cases hlist
      rcases lookup_concat_cases hfound with hfound | hnew
      · exact .inl ⟨list,dir,hfound⟩
      · exact .inr (.inl hnew)
    · by_cases hd : d=disk.next
      · -- the new inode has no entries
        subst hd
        obtain ⟨parent,hnode⟩ := entries_eq_some.mp hlist
        have hnew : (disk.allocate node).nodes disk.next=some node := nodes_setNode_self _ _ _
        rw [hnew,some.injEq] at hnode
        rw [empty parent list' hnode] at hfound
        cases hfound
      · have hsame : (disk.allocate node).entries d=disk.entries d :=
          entries_congr (nodes_setNode_of_ne hd)
        rw [hsame] at hlist
        exact .inl ⟨list',hlist,hfound⟩
  | link e j new list dir free leaf =>
    rw [addEntry,dir,getD_some,entries_setEntries] at hlist
    split_ifs at hlist with hcase
    · obtain ⟨rfl,-⟩ := hcase
      cases hlist
      rcases lookup_concat_cases hfound with hfound | hnew
      · exact .inl ⟨list,dir,hfound⟩
      · rw [hnew]
        exact .inr (.inr (mem_cons_of_mem _ mem_cons_self))
    · exact .inl ⟨list',hlist,hfound⟩
  | unlink e j old list dir entry leaf =>
    rw [removeEntry,dir,getD_some,entries_setEntries] at hlist
    split_ifs at hlist with hcase
    · obtain ⟨rfl,-⟩ := hcase
      cases hlist
      rw [lookup_filter] at hfound
      split at hfound
      · cases hfound
      · exact .inl ⟨list,dir,hfound⟩
    · exact .inl ⟨list',hlist,hfound⟩
  | content j old new file =>
    by_cases hd : d=j
    · subst hd
      obtain ⟨_,hnode⟩ := entries_eq_some.mp hlist
      rw [nodes_setNode_self] at hnode
      cases hnode
    · rw [entries_congr (nodes_setNode_of_ne hd)] at hlist
      exact .inl ⟨list',hlist,hfound⟩

theorem Change.inside (h : Change disk touched disk')
    (hnumbered : Numbered disk) (htouched : ∀ t ∈ touched, disk.Inside root t)
    (hi : disk'.Inside root i) : disk.Inside root i ∨ i=disk.next := by
  induction hi with
  | root => exact .inl .root
  | entry _ hlist hfound ih =>
    rcases h.entry_cases hnumbered hlist hfound with ⟨list,hold,hin⟩ | hnew | ht
    · rcases ih with hdir | hdir
      · exact .inl (.entry hdir hold hin)
      · have hlt := hnumbered.lt_of_entries hold
        omega
    · exact .inr hnew
    · exact .inl (htouched _ ht)

theorem Grows.inside (h : Grows a b) (hd : a.Inside root d)
    (hdir : (a.entries d).isSome) : b.Inside root d := by
  induction hd with
  | root => exact .root
  | entry _ hlist hfound ih =>
    obtain ⟨list',hlist',hkeep⟩ := h _ _ hlist
    exact .entry (ih (by rw [hlist]; rfl)) hlist' (hkeep _ _ hfound hdir)

theorem lookup_create (node : Node) (hnumbered : Numbered disk) (hlist : disk.entries d=some list)
    (hnone : list.lookup name=none) :
    (disk.create d name node).entries d=some (list++[(name,disk.next)]) ∧
      (list++[(name,disk.next)]).lookup name=some disk.next ∧
      (disk.create d name node).nodes disk.next=some node := by
  have hd := hnumbered.lt_of_entries hlist
  have hdir : (disk.allocate node).entries d=some list := by rw [entries_allocate hd,hlist]
  rw [create_eq,addEntry,hdir]
  refine ⟨entries_setEntries_self hdir,?_,?_⟩
  · rw [lookup_append,hnone]
    simp
  · rw [nodes_setEntries_of_ne (ne_of_gt hd)]
    exact nodes_setNode_self _ _ _

theorem Change.directory_cases (h : Change disk touched disk') (hnumbered : Numbered disk)
    (hdir : (disk'.entries d).isSome) : (disk.entries d).isSome ∨
      ∃ t ∈ touched, (disk.entries t).isSome ∧
        ∃ list name, disk'.entries t=some list ∧ list.lookup name=some d := by
  cases h with
  | none => exact .inl hdir
  | create e new node list dir free empty =>
    by_cases hd : d=disk.next
    · subst hd
      obtain ⟨hentries,hfound,-⟩ := lookup_create node hnumbered dir free
      exact .inr ⟨e,mem_cons_self,by rw [dir]; rfl,_,new,hentries,hfound⟩
    · left
      rw [create_eq,addEntry,entries_setEntries] at hdir
      have hsame : (disk.allocate node).entries d=disk.entries d :=
        entries_congr (nodes_setNode_of_ne hd)
      split_ifs at hdir with hcase
      · rw [hcase.1,dir]
        rfl
      · rwa [hsame] at hdir
  | link e j new list dir free leaf =>
    left
    rw [addEntry,entries_setEntries] at hdir
    split_ifs at hdir with hcase
    · rw [hcase.1,dir]
      rfl
    · exact hdir
  | unlink e j old list dir entry leaf =>
    left
    rw [removeEntry,entries_setEntries] at hdir
    split_ifs at hdir with hcase
    · rw [hcase.1,dir]
      rfl
    · exact hdir
  | content j old new file =>
    left
    by_cases hd : d=j
    · subst hd
      rw [entries,nodes_setNode_self] at hdir
      cases hdir
    · rwa [entries_congr (nodes_setNode_of_ne hd)] at hdir

/-- The inode exists, and is not below the directory or has a name elsewhere. -/
def Outside (disk : Disk) (root i : ℕ) : Prop :=
  (disk.nodes i).isSome ∧ (¬disk.Inside root i ∨ i≠root ∧ ∃ d list name,
    disk.entries d=some list ∧ list.lookup name=some i ∧ ¬disk.Inside root d)

/-- Used inodes have used numbers, and every entry leads to an inode. -/
structure WellFormed (disk : Disk) : Prop where
  numbered : Numbered disk
  linked : ∀ d list name i, disk.entries d=some list → list.lookup name=some i →
    (disk.nodes i).isSome

/-- The directory holds no second name of an inode outside. -/
def NoForeignLink (disk : Disk) (root : ℕ) : Prop :=
  ∀ i, disk.Inside root i → ¬disk.Outside root i

/-- Of the old inodes only those below the directory may have changed, and no other is below it. -/
structure Contained (start : Disk) (root : ℕ) (disk : Disk) : Prop where
  numbered : Numbered disk
  next_le : start.next ≤ disk.next
  inner : ∀ i, i < start.next → disk.Inside root i → start.Inside root i
  outer : ∀ i, i < start.next → ¬start.Inside root i → disk.nodes i=start.nodes i
  directories : ∀ d, (disk.entries d).isSome → (d < start.next → start.Inside root d) →
    disk.Inside root d

variable {start : Disk}

theorem Contained.refl (h : Numbered start) : Contained start root start := by
  refine ⟨h,le_rfl,fun _ _ hi => hi,fun _ _ _ => rfl,fun d hdir hin => hin ?_⟩
  obtain ⟨list,hlist⟩ := isSome_iff_exists.mp hdir
  exact h.lt_of_entries hlist

theorem Contained.step (hcontained : Contained start root disk) (h : Change disk touched disk')
    (htouched : ∀ t ∈ touched, disk.Inside root t) : Contained start root disk' := by
  obtain ⟨hnumbered,hle⟩ := h.numbered hcontained.numbered
  have hgrows := h.grows hcontained.numbered
  refine ⟨hnumbered,le_trans hcontained.next_le hle,fun i hi hin => ?_,fun i hi hout => ?_,
    fun d hdir hold => ?_⟩
  · rcases h.inside hcontained.numbered htouched hin with hin | hnew
    · exact hcontained.inner i hi hin
    · have := hcontained.next_le
      omega
  · have hnot : i ∉ touched := fun ht => hout (hcontained.inner i hi (htouched i ht))
    rw [h.nodes_eq hnot (lt_of_lt_of_le hi hcontained.next_le)]
    exact hcontained.outer i hi hout
  · rcases h.directory_cases hcontained.numbered hdir with
      hbefore | ⟨t,ht,htdir,list,name,hlist,hfound⟩
    · exact hgrows.inside (hcontained.directories d hbefore hold) hbefore
    · exact .entry (hgrows.inside (htouched t ht) htdir) hlist hfound

theorem Contained.outside (h : Contained start root disk)
    (hstart : start.WellFormed) (hforeign : start.NoForeignLink root)
    (hi : start.Outside root i) : disk.nodes i=start.nodes i := by
  have hin : ¬start.Inside root i := fun hin => hforeign i hin hi
  obtain ⟨node,hnode⟩ := isSome_iff_exists.mp hi.1
  exact h.outer i (hstart.numbered.lt hnode) hin

theorem Contained.created (h : Contained start root disk) (hstart : start.WellFormed)
    (hi : start.nodes i=none) (hlist : disk.entries d=some list) (hfound : list.lookup name=some i) :
    disk.Inside root d := by
  refine h.directories d (by rw [hlist]; rfl) fun hd => ?_
  by_contra hout
  rw [entries_congr (h.outer d hd hout)] at hlist
  have hsome := hstart.linked d list name i hlist hfound
  rw [hi] at hsome
  cases hsome

/-- Every component but the last is a real directory. -/
def Direct (disk : Disk) (root : ℕ) (path : List String) : Prop :=
  path≠[] ∧ (disk.realWalk root path.dropLast).isSome

def Held (disk : Disk) (root : ℕ) (path : List String) (i : ℕ) : Prop :=
  ∃ d name, disk.realWalk root path.dropLast=some d ∧ path.getLast?=some name ∧
    disk.lookup d name=.ok i

/-- Paths that an operation resolves or whose entry it changes. -/
def Mutation.paths : Mutation → List (List String)
  | .createDir path => [path]
  | .openFile path _ _ => [path]
  | .writeAt path _ _ _ => [path]
  | .setLength path _ _ => [path]
  | .removeFile path => [path]
  | .hardLink source path => [source,path]
  | .symlink _ path => [path]

def Mutation.handle : Mutation → Option ℕ
  | .writeAt _ inode _ _ => some inode
  | .setLength _ inode _ => some inode
  | _ => none

/-- The operation follows no link: its paths are direct, and a handle is that of its path. -/
structure Sound (disk : Disk) (root : ℕ) (m : Mutation) : Prop where
  direct : ∀ path ∈ m.paths, disk.Direct root path
  handle : ∀ i, m.handle=some i → ∀ path ∈ m.paths, disk.Held root path i

theorem lookup_eq_ok :
    disk.lookup d name=.ok i ↔ ∃ list, disk.entries d=some list ∧ list.lookup name=some i := by
  unfold lookup
  cases disk.entries d with
  | none => simp
  | some list => cases hlookup : list.lookup name <;> simp [hlookup]

theorem lookup_eq_notFound : disk.lookup d name=.error .notFound ↔
      ∃ list, disk.entries d=some list ∧ list.lookup name=none := by
  unfold lookup
  cases disk.entries d with
  | none => simp
  | some list =>
    cases hlookup : list.lookup name with
    | none =>
      simp only [hlookup,true_iff]
      exact ⟨list,rfl,hlookup⟩
    | some i =>
      simp only [hlookup,reduceCtorEq,false_iff,not_exists,not_and,some.injEq]
      rintro _ rfl
      rw [hlookup]
      exact Option.some_ne_none i

theorem Direct.locate (h : disk.Direct root path)
    {place : ℕ×String} (hplace : disk.locate root path=.ok place) :
    disk.realWalk root path.dropLast=some place.1 ∧ path.getLast?=some place.2 ∧
      disk.Inside root place.1 := by
  obtain ⟨d,hd⟩ := isSome_iff_exists.mp h.2
  unfold Disk.locate at hplace
  split at hplace
  · cases hplace
  · rename_i name hname
    rcases walk_of_realWalk disk.budget hd with hwalk | hwalk
    · rw [hwalk] at hplace
      cases hplace
      exact ⟨hd,hname,inside_of_realWalk .root hd⟩
    · rw [hwalk] at hplace
      cases hplace

theorem Held.inside (h : disk.Held root path i) : disk.Inside root i := by
  obtain ⟨d,name,hd,-,hi⟩ := h
  obtain ⟨list,hlist,hlookup⟩ := lookup_eq_ok.mp hi
  exact .entry (inside_of_realWalk .root hd) hlist hlookup

theorem rewrite_change (disk : Disk) (i : ℕ) (f : Bytes → Bytes) :
    disk.rewrite i f=disk ∨ ∃ old, disk.nodes i=some (.file old) ∧
      disk.rewrite i f=disk.setNode i (.file (f old)) := by
  unfold rewrite
  split
  · rename_i old hnode
    exact .inr ⟨old,hnode,rfl⟩
  · exact .inl rfl

/-- The change of an operation, all of it below the directory. -/
def ChangesInside (disk : Disk) (root : ℕ) (disk' : Disk) : Prop :=
  ∃ touched, Change disk touched disk' ∧ ∀ t ∈ touched, disk.Inside root t

theorem changesInside_rewrite (hi : disk.Inside root i)
    (f : Bytes → Bytes) : disk.ChangesInside root (disk.rewrite i f) := by
  rcases rewrite_change disk i f with h | ⟨old,hnode,h⟩
  · rw [h]
    exact ⟨[],.none,by simp⟩
  · rw [h]
    exact ⟨[i],.content i old (f old) hnode,by simpa using hi⟩

theorem changesInside_create (hd : disk.Inside root d) (hfree : disk.lookup d name=.error .notFound)
    (hempty : ∀ parent entries, node=.directory parent entries → entries=[]) :
    disk.ChangesInside root (disk.create d name node) := by
  obtain ⟨list,hlist,hnone⟩ := lookup_eq_notFound.mp hfree
  exact ⟨[d],.create d name node list hlist hnone hempty,by simpa using hd⟩

theorem createAt_inside {node : ℕ → Node}
    (hdirect : disk.Direct root path) (h : disk.createAt root path node=.ok (disk',i))
    (hempty : ∀ d parent entries, node d=.directory parent entries → entries=[]) :
    disk.ChangesInside root disk' := by
  obtain ⟨⟨d,name⟩,hplace,h⟩ := bind_eq_ok.mp h
  obtain ⟨-,-,hin⟩ := hdirect.locate hplace
  dsimp only at h
  split at h
  · cases h
  · rename_i hfree
    cases h
    exact changesInside_create hin hfree (hempty d)
  · cases h

theorem apply_inside {m : Mutation} (hsound : disk.Sound root m)
    (h : disk.apply root m=.ok (disk',i)) : disk.ChangesInside root disk' := by
  cases m with
  | createDir path =>
    rw [apply] at h
    refine createAt_inside (hsound.direct path mem_cons_self) h fun d parent entries hnode => ?_
    cases hnode
    rfl
  | symlink target path =>
    rw [apply] at h
    refine createAt_inside (hsound.direct path mem_cons_self) h fun d parent entries hnode => ?_
    cases hnode
  | writeAt path inode offset bytes =>
    cases h
    exact changesInside_rewrite (hsound.handle i rfl path mem_cons_self).inside _
  | setLength path inode length =>
    cases h
    exact changesInside_rewrite (hsound.handle i rfl path mem_cons_self).inside _
  | openFile path truncate createNew =>
    simp only [apply,openAt] at h
    obtain ⟨⟨d,name⟩,hplace,h⟩ := bind_eq_ok.mp h
    obtain ⟨-,-,hin⟩ := (hsound.direct path mem_cons_self).locate hplace
    split at h
    · rename_i j hj
      obtain ⟨list,hlist,hlookup⟩ := lookup_eq_ok.mp hj
      split at h
      · cases h
      split at h
      · cases h
        exact changesInside_rewrite (.entry hin hlist hlookup) _
      · cases h
      · cases h
    · rename_i hfree
      cases h
      refine changesInside_create hin hfree fun parent entries hnode => ?_
      cases hnode
    · cases h
  | removeFile path =>
    obtain ⟨⟨d,name⟩,hplace,h⟩ := bind_eq_ok.mp h
    obtain ⟨-,-,hin⟩ := (hsound.direct path mem_cons_self).locate hplace
    obtain ⟨j,hj,h⟩ := bind_eq_ok.mp h
    obtain ⟨list,hlist,hlookup⟩ := lookup_eq_ok.mp hj
    split at h
    · cases h
    · rename_i node hleaf hnode
      cases h
      refine ⟨[d],.unlink d i name list hlist hlookup ?_,by simpa using hin⟩
      refine entries_eq_none fun parent found hdir => ?_
      rw [hnode,some.injEq] at hdir
      exact hleaf parent found hdir
    · cases h
  | hardLink source path =>
    simp only [apply,linkAt] at h
    obtain ⟨⟨s,old⟩,hsource,h⟩ := bind_eq_ok.mp h
    obtain ⟨-,-,hins⟩ := (hsound.direct source mem_cons_self).locate hsource
    obtain ⟨j,hj,h⟩ := bind_eq_ok.mp h
    obtain ⟨list,hlist,hlookup⟩ := lookup_eq_ok.mp hj
    split at h
    · cases h
    · rename_i node hleaf hnode
      obtain ⟨⟨d,name⟩,hplace,h⟩ := bind_eq_ok.mp h
      obtain ⟨-,-,hin⟩ :=
        (hsound.direct path (mem_cons_of_mem _ mem_cons_self)).locate hplace
      split at h
      · cases h
      · rename_i hfree
        cases h
        obtain ⟨free,hdir,hnone⟩ := lookup_eq_notFound.mp hfree
        have hsub : disk.Inside root i := .entry hins hlist hlookup
        refine ⟨[d,i],.link d i name free hdir hnone ?_,by simp [hin,hsub]⟩
        refine entries_eq_none fun parent found hdir => ?_
        rw [hnode,some.injEq] at hdir
        exact hleaf parent found hdir
      · cases h
    · cases h

variable {dir : List String}

theorem direct_concat (name : String)
    (h : disk.realWalk root dir=some d) : disk.Direct root (dir++[name]) := by
  refine ⟨by simp,?_⟩
  rw [dropLast_concat,h]
  rfl

theorem locate_concat {e : ℕ} {last : String} (hdir : disk.realWalk root dir=some d)
    (hplace : disk.locate root (dir++[name])=.ok (e,last)) : d=e ∧ name=last := by
  obtain ⟨hwalk,hlast,-⟩ := (direct_concat name hdir).locate hplace
  rw [dropLast_concat,hdir] at hwalk
  rw [getLast?_concat] at hlast
  exact ⟨some.inj hwalk,some.inj hlast⟩

theorem symlinkMetadata_eq_ok (hdir : disk.realWalk root dir=some d)
    (h : disk.symlinkMetadata root (dir++[name])=.ok node) :
    ∃ i, disk.lookup d name=.ok i ∧ disk.nodes i=some node := by
  obtain ⟨⟨e,last⟩,hplace,h⟩ := bind_eq_ok.mp h
  obtain ⟨rfl,rfl⟩ := locate_concat hdir hplace
  obtain ⟨i,hi,h⟩ := bind_eq_ok.mp h
  split at h
  · rename_i found hfound
    cases h
    exact ⟨i,hi,hfound⟩
  · cases h

theorem realWalk_of_metadata {parent : ℕ} (hdir : disk.realWalk root dir=some d)
    (h : disk.symlinkMetadata root (dir++[name])=.ok (.directory parent list)) :
    ∃ e, disk.realWalk root (dir++[name])=some e := by
  obtain ⟨i,hi,hnode⟩ := symlinkMetadata_eq_ok hdir h
  obtain ⟨found,hfound,hlookup⟩ := lookup_eq_ok.mp hi
  refine ⟨i,realWalk_concat hdir hfound hlookup ?_⟩
  rw [entries_eq_some.mpr ⟨parent,hnode⟩]
  rfl

theorem realWalk_createDir (hnumbered : Numbered disk) (hdir : disk.realWalk root dir=some d)
    (h : disk.apply root (.createDir (dir++[name]))=.ok (disk',i)) :
    ∃ e, disk'.realWalk root (dir++[name])=some e := by
  simp only [apply,createAt] at h
  obtain ⟨⟨e,last⟩,hplace,h⟩ := bind_eq_ok.mp h
  obtain ⟨rfl,rfl⟩ := locate_concat hdir hplace
  split at h
  · cases h
  · rename_i hfree
    cases h
    obtain ⟨old,hold,hnone⟩ := lookup_eq_notFound.mp hfree
    obtain ⟨hlist,hlookup,hnode⟩ := lookup_create (.directory d []) hnumbered hold hnone
    have hgrows := (Change.create d name (.directory d []) old hold hnone
      (fun parent entries hnode => by cases hnode; rfl)).grows hnumbered
    refine ⟨disk.next,realWalk_concat (hgrows.realWalk hdir) hlist hlookup ?_⟩
    rw [entries_eq_some.mpr ⟨d,hnode⟩]
    rfl
  · cases h

theorem entries_rewrite (disk : Disk) (i d : ℕ) (f : Bytes → Bytes) :
    (disk.rewrite i f).entries d=disk.entries d := by
  rcases rewrite_change disk i f with h | ⟨old,hnode,h⟩
  · rw [h]
  · rw [h]
    by_cases hd : d=i
    · subst hd
      rw [entries,entries,nodes_setNode_self,hnode]
    · exact entries_congr (nodes_setNode_of_ne hd)

theorem Held.rewrite (h : disk.Held root path i)
    (j : ℕ) (f : Bytes → Bytes) : (disk.rewrite j f).Held root path i := by
  obtain ⟨d,name,hd,hname,hi⟩ := h
  have hgrows : Grows disk (disk.rewrite j f) := by
    intro e list hlist
    rw [entries_rewrite]
    exact ⟨list,hlist,fun _ _ hi _ => hi⟩
  refine ⟨d,name,hgrows.realWalk hd,hname,?_⟩
  rw [lookup,entries_rewrite]
  exact hi

theorem Held.sound_writeAt (h : disk.Held root path i) (offset : ℕ) (bytes : Bytes) :
    disk.Sound root (.writeAt path i offset bytes) := by
  refine ⟨fun other hother => ?_,fun j hj other hother => ?_⟩
  · rw [mem_singleton.mp hother]
    obtain ⟨d,name,hd,hname,-⟩ := h
    refine ⟨?_,by rw [hd]; rfl⟩
    rintro rfl
    cases hname
  · rw [mem_singleton.mp hother,←some.inj hj]
    exact h

theorem Held.writeAt {offset : ℕ} {bytes : Bytes}
    (h : disk.Held root path i) (happly : disk.apply root (.writeAt path i offset bytes)=.ok (disk',j)) :
    disk'.Held root path i := by
  simp only [apply,Except.ok.injEq,Prod.mk.injEq] at happly
  rw [←happly.1]
  exact h.rewrite _ _

theorem held_openFile
    {truncate createNew : Bool} (hnumbered : Numbered disk) (hdirect : disk.Direct root path)
    (h : disk.apply root (.openFile path truncate createNew)=.ok (disk',i)) :
    disk'.Held root path i := by
  simp only [apply,openAt] at h
  obtain ⟨⟨d,name⟩,hplace,h⟩ := bind_eq_ok.mp h
  obtain ⟨hwalk,hname,-⟩ := hdirect.locate hplace
  split at h
  · rename_i j hj
    split at h
    · cases h
    split at h
    · cases h
      exact Held.rewrite ⟨d,name,hwalk,hname,hj⟩ _ _
    · cases h
    · cases h
  · rename_i hfree
    cases h
    obtain ⟨old,hold,hnone⟩ := lookup_eq_notFound.mp hfree
    have hgrows := (Change.create d name (.file []) old hold hnone
      (fun parent entries hnode => by cases hnode)).grows hnumbered
    obtain ⟨hlist,hlookup,-⟩ := lookup_create (.file []) hnumbered hold hnone
    exact ⟨d,name,hgrows.realWalk hwalk,hname,lookup_eq_ok.mpr ⟨_,hlist,hlookup⟩⟩
  · cases h

end Disk

end Remanence.Foundation
