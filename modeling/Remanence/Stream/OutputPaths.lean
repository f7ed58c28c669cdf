import Mathlib.Data.List.Nodup
import Remanence.Foundation.Paths
import Remanence.Stream.Recovery

/-!
# Output paths of a recovery

Every choice of an output path ends, and no path is chosen twice. The
manifest's own path is not among the taken paths at the start, so the first
entry that asks for it gets it.
-/

namespace Remanence.Stream.Recovery

open Foundation Format List

theorem toString_injective : Function.Injective (toString : ℕ → String) := by
  intro a b h
  rw [Nat.toString_eq_repr,Nat.toString_eq_repr,Nat.repr_eq_ofList_toDigits,
    Nat.repr_eq_ofList_toDigits,String.ofList_inj] at h
  rw [←Nat.ofDigitChars_toDigits (n := a) (show 1 < 10 by decide) (Nat.le_refl 10),h,
    Nat.ofDigitChars_toDigits (by decide) (Nat.le_refl 10)]

theorem candidate_injective (relative suffix : String) :
    Function.Injective (candidate relative suffix) := by
  have hlong : ∀ k : ℕ, relative++"._"++suffix++"_"++toString k≠relative := by
    intro k h
    have hlength := congrArg String.length h
    simp only [String.length_append] at hlength
    have : "._".length=2 := rfl
    omega
  intro a b h
  unfold candidate at h
  split_ifs at h with ha hb hb
  · rw [ha,hb]
  · exact absurd h.symm (hlong b)
  · exact absurd h (hlong a)
  · exact toString_injective (String.append_right_inj _ |>.mp h)

variable {relative path : String}

theorem assignLoop_eq_some {used : List String} {suffix : String}
    {fuel count next : ℕ} (h : assignLoop used relative suffix fuel count=some (path,next)) :
    path ∉ used ∧ ∃ k, count ≤ k ∧ path=candidate relative suffix k ∧ next=k+1 ∧
      ∀ j, count ≤ j → j < k → candidate relative suffix j ∈ used := by
  induction fuel generalizing count with
  | zero => cases h
  | succ fuel ih =>
    rw [assignLoop] at h
    split_ifs at h with hused
    · obtain ⟨hfree,k,hk,hpath,hnext,hbetween⟩ := ih h
      refine ⟨hfree,k,by omega,hpath,hnext,fun j hj hjk => ?_⟩
      rcases Nat.eq_or_lt_of_le hj with rfl | hj
      · exact hused
      · exact hbetween j hj hjk
    · cases h
      exact ⟨hused,count,le_rfl,rfl,rfl,fun j hj hjk => absurd hj (by omega)⟩

theorem assignLoop_eq_none {used : List String} {suffix : String} {fuel count : ℕ}
    (h : assignLoop used relative suffix fuel count=none) :
    ∀ j < fuel, candidate relative suffix (count+j) ∈ used := by
  induction fuel generalizing count with
  | zero => intro j hj; omega
  | succ fuel ih =>
    rw [assignLoop] at h
    split_ifs at h with hused
    intro j hj
    cases j with
    | zero => exact hused
    | succ j =>
      have hnext := ih h j (by omega)
      rwa [show count+1+j=count+(j+1) by omega] at hnext

theorem assignOutputPath_isSome (s : RecoveryFilesystemSink) (relative fileId : String) :
    (s.assignOutputPath relative fileId).isSome := by
  unfold RecoveryFilesystemSink.assignOutputPath
  rw [Option.isSome_map]
  by_contra hnone
  rw [Option.not_isSome_iff_eq_none] at hnone
  have htaken := assignLoop_eq_none hnone
  -- the candidates met are as many different taken paths
  let met := (List.range (s.usedOutputPaths.length+1)).map fun j =>
    candidate relative (sanitizeForSuffix fileId) (s.pathCollisionCounts relative+j)
  have hnodup : met.Nodup := List.Nodup.map
    (fun a b h => add_left_cancel (candidate_injective _ _ h)) nodup_range
  have hsubset : met ⊆ s.usedOutputPaths := by
    intro path hpath
    obtain ⟨j,hj,rfl⟩ := mem_map.mp hpath
    exact htaken j (mem_range.mp hj)
  have hlength := hnodup.length_le_of_subset hsubset
  rw [length_map,length_range] at hlength
  omega

theorem assignOutputPath_eq_some {s s' : RecoveryFilesystemSink} {fileId : String}
    (h : s.assignOutputPath relative fileId=some (path,s')) :
    path ∉ s.usedOutputPaths ∧ ∃ k, s.pathCollisionCounts relative ≤ k ∧
      path=candidate relative (sanitizeForSuffix fileId) k ∧
      (∀ j, s.pathCollisionCounts relative ≤ j → j < k →
        candidate relative (sanitizeForSuffix fileId) j ∈ s.usedOutputPaths) ∧
      s'={ s with
        pathCollisionCounts := Function.update s.pathCollisionCounts relative (k+1)
        usedOutputPaths := path::s.usedOutputPaths } := by
  unfold RecoveryFilesystemSink.assignOutputPath at h
  obtain ⟨⟨found,next⟩,hloop,hresult⟩ := Option.map_eq_some_iff.mp h
  cases hresult
  obtain ⟨hfree,k,hk,hpath,rfl,hbetween⟩ := assignLoop_eq_some hloop
  exact ⟨hfree,k,hk,hpath,hbetween,rfl⟩

def PlainPath (path : String) : Prop :=
  ∃ names, (∀ name ∈ names, PlainName name) ∧ names≠[] ∧ path=joinNames names

theorem PlainPath.normalizedRelativeComponents (h : PlainPath path) :
    ∃ names, Recovery.normalizedRelativeComponents path=.ok names ∧ joinNames names=path := by
  obtain ⟨names,hnames,hne,rfl⟩ := h
  have hall : ∀ list : List String, relativeNames (joinNames names) (list.map .normal)=.ok list := by
    intro list
    induction list with
    | nil => rfl
    | cons name list ih =>
      rw [map_cons,relativeNames,ih]
      rfl
  refine ⟨names,?_,rfl⟩
  unfold Recovery.normalizedRelativeComponents
  rw [components_joinNames hnames hne,hall names]
  simp [bind,Except.bind,rejectIf,hne,pure,Except.pure]

theorem PlainPath.append {tail : String} (h : PlainPath path) (hlength : 2 ≤ tail.length)
    (hsep : '/' ∉ tail.toList) : PlainPath (path++tail) := by
  obtain ⟨names,hnames,hne,rfl⟩ := h
  obtain ⟨front,last,rfl⟩ : ∃ front last, names=front++[last] :=
    ⟨names.dropLast,names.getLast hne,(dropLast_append_getLast hne).symm⟩
  refine ⟨front++[last++tail],?_,by simp,joinNames_append⟩
  intro name hname
  rcases mem_append.mp hname with hname | hname
  · exact hnames name (mem_append_left _ hname)
  · rw [mem_singleton.mp hname]
    exact (hnames last (by simp)).append hlength hsep

theorem archiveNames_mem {list : List Component} {names : List String}
    (h : archiveNames path list=.ok names) : ∀ name ∈ names, .normal name ∈ list := by
  induction list generalizing names with
  | nil =>
    cases h
    simp
  | cons component list ih =>
    cases component with
    | rootDir => cases h
    | parentDir => cases h
    | curDir =>
      rw [archiveNames] at h
      exact fun name hname => mem_cons_of_mem _ (ih h name hname)
    | normal part =>
      rw [archiveNames] at h
      simp only [eq_ok] at h
      obtain ⟨_,_,rest,hrest,rfl⟩ := h
      intro name hname
      rcases mem_cons.mp hname with rfl | hname
      · exact mem_cons_self
      · exact mem_cons_of_mem _ (ih hrest name hname)

theorem plainPath_of_normalizeArchivePath
    (h : normalizeArchivePath path=.ok relative) : PlainPath relative := by
  simp only [normalizeArchivePath,eq_ok] at h
  obtain ⟨_,_,names,hnames,_,hne,rfl⟩ := h
  exact ⟨names,fun name hname => plainName_of_mem_components (archiveNames_mem hnames name hname),
    hne,rfl⟩

theorem sanitizeForSuffix_chars {value : String} {ch : Char}
    (h : ch ∈ (sanitizeForSuffix value).toList) : ch ≠ '/' ∧ ch ≠ '.' := by
  unfold sanitizeForSuffix at h
  dsimp only at h
  split_ifs at h
  · have hentry : "entry".toList=['e','n','t','r','y'] := rfl
    simp only [hentry,mem_cons,not_mem_nil,or_false] at h
    rcases h with rfl | rfl | rfl | rfl | rfl <;> decide
  · rw [String.toList_ofList] at h
    obtain ⟨old,-,rfl⟩ := mem_map.mp h
    unfold suffixChar
    split_ifs with hplain
    · constructor <;> rintro rfl <;> revert hplain <;> decide
    · decide

theorem sanitizeForSuffix_ne_empty (value : String) : sanitizeForSuffix value≠"" := by
  unfold sanitizeForSuffix
  dsimp only
  split_ifs with h
  · decide
  · exact h

theorem plainName_of_chars {name : String} (hne : name≠"")
    (h : ∀ ch ∈ name.toList, ch ≠ '/' ∧ ch ≠ '.') : PlainName name := by
  refine ⟨hne,?_,?_,fun hsep => (h _ hsep).1 rfl⟩
  · rintro rfl
    exact (h '.' (by decide)).2 rfl
  · rintro rfl
    exact (h '.' (by decide)).2 rfl

theorem plainName_leaf (fileId path : String) :
    PlainName (if sanitizeForSuffix path="entry" then sanitizeForSuffix fileId
      else sanitizeForSuffix fileId++"_"++sanitizeForSuffix path) := by
  split_ifs
  · exact plainName_of_chars (sanitizeForSuffix_ne_empty _) fun ch hch => sanitizeForSuffix_chars hch
  · refine plainName_of_chars ?_ fun ch hch => ?_
    · intro hempty
      rw [String.append_eq_empty_iff] at hempty
      exact sanitizeForSuffix_ne_empty _ hempty.2
    · rw [String.toList_append,String.toList_append,mem_append,mem_append] at hch
      rcases hch with (hch | hch) | hch
      · exact sanitizeForSuffix_chars hch
      · rw [mem_singleton.mp (show ch ∈ ['_'] from hch)]
        decide
      · exact sanitizeForSuffix_chars hch

theorem plainPath_recovered {leaf : String} (h : PlainName leaf) :
    PlainPath ("_remanence_recovered/"++leaf) := by
  refine ⟨["_remanence_recovered",leaf],fun name hname => ?_,by simp,?_⟩
  · rcases mem_cons.mp hname with rfl | hname
    · exact ⟨by decide,by decide,by decide,by decide⟩
    · rw [mem_singleton.mp hname]
      exact h
  · rw [←String.toList_inj,joinNames,String.toList_intercalate]
    simp [List.intercalate]

theorem recoveryRelativePath_plain (entry : NormalizedEntry) :
    PlainPath (recoveryRelativePath entry) := by
  unfold recoveryRelativePath
  split
  · rename_i relative h
    exact plainPath_of_normalizeArchivePath h
  · exact plainPath_recovered (plainName_leaf entry.fileId entry.path)

theorem toString_no_separator (k : ℕ) : '/' ∉ (toString k).toList := by
  rw [Nat.toString_eq_repr,Nat.repr_eq_ofList_toDigits,String.toList_ofList]
  intro h
  have hdigit := Nat.isDigit_of_mem_toDigits (by decide) (Nat.le_refl 10) h
  revert hdigit
  decide

theorem candidate_plain (h : PlainPath relative) (fileId : String) (k : ℕ) :
    PlainPath (candidate relative (sanitizeForSuffix fileId) k) := by
  unfold candidate
  split_ifs
  · exact h
  · rw [String.append_assoc,String.append_assoc,String.append_assoc]
    refine h.append ?_ ?_
    · rw [String.length_append]
      exact Nat.le_add_right 2 _
    · simp only [String.toList_append,mem_append,not_or]
      exact ⟨by decide,fun hsep => (sanitizeForSuffix_chars hsep).1 rfl,by decide,
        toString_no_separator k⟩

theorem candidate_eq_manifest {entry : NormalizedEntry} {k : ℕ}
    (h : candidate (recoveryRelativePath entry) (sanitizeForSuffix entry.fileId) k=
      recoveryManifestRelativePath) :
    k=0 ∧ normalizeArchivePath entry.path=.ok recoveryManifestRelativePath := by
  unfold candidate at h
  split_ifs at h with hk
  · refine ⟨hk,?_⟩
    unfold recoveryRelativePath at h
    split at h
    · rename_i relative hrelative
      rw [hrelative,h]
    · -- the replacement starts with an underscore
      have hhead := congrArg (fun path => path.toList.head?) h
      unfold sanitizedRecoveryPath at hhead
      dsimp only at hhead
      rw [String.toList_append] at hhead
      revert hhead
      simp [recoveryManifestRelativePath]
  · -- a number follows a dot and an underscore
    have hinfix : "._".toList <:+: recoveryManifestRelativePath.toList := by
      refine ⟨(recoveryRelativePath entry).toList,
        (sanitizeForSuffix entry.fileId++"_"++toString k).toList,?_⟩
      rw [←h]
      simp only [String.toList_append,append_assoc]
    exact absurd hinfix (by decide)

theorem recoveryRelativePath_eq {entry : NormalizedEntry}
    (h : normalizeArchivePath entry.path=.ok relative) : recoveryRelativePath entry=relative := by
  unfold recoveryRelativePath
  rw [h]

end Remanence.Stream.Recovery
