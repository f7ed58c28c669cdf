import Mathlib.Algebra.BigOperators.Group.List.Basic
import Mathlib.Algebra.GroupWithZero.Nat
import Mathlib.Tactic.Common

/-!
# Greedy packing of entries into bounded blocks

Entries are placed one after another; one that does not fit before the limit opens a new block.
`greedyGroups` is the resulting grouping. A run of equally sized entries has a closed form.
-/

namespace Remanence.Foundation.Packing

open List

section Grouping

variable {α : Type*} (size : α → ℕ) (limit : ℕ)

def total (group : List α) : ℕ := (group.map size).sum

/-- Entries of the current block and the groups of the blocks opened later. -/
def greedyGroups : ℕ → List α → List α×List (List α)
  | _,[] => ([],[])
  | offset,entry::rest =>
    if offset+size entry ≤ limit then
      let tail := greedyGroups (offset+size entry) rest
      (entry::tail.1,tail.2)
    else
      let tail := greedyGroups (size entry) rest
      ([],(entry::tail.1)::tail.2)

@[simp] theorem total_nil : total size ([] : List α)=0 := rfl

@[simp] theorem total_cons (entry : α) (group : List α) :
    total size (entry::group)=size entry+total size group := rfl

@[simp] theorem total_append (a b : List α) : total size (a++b)=total size a+total size b := by
  simp [total]

theorem greedyGroups_flatten (offset : ℕ) (entries : List α) :
    (greedyGroups size limit offset entries).1++(greedyGroups size limit offset entries).2.flatten=entries := by
  induction entries generalizing offset with
  | nil => rfl
  | cons entry rest ih =>
    rw [greedyGroups]
    split
    · simpa using ih (offset+size entry)
    · simpa using ih (size entry)

variable {offset : ℕ}

theorem greedyGroups_fst_le (h : offset ≤ limit) (entries : List α) :
    offset+total size (greedyGroups size limit offset entries).1 ≤ limit := by
  induction entries generalizing offset with
  | nil => simpa [greedyGroups] using h
  | cons entry rest ih =>
    rw [greedyGroups]
    split
    · rename_i hfit
      have := ih hfit
      simp only [total_cons]
      omega
    · simpa using h

inductive Greedy : ℕ → List (List α) → Prop
  | nil (used : ℕ) : Greedy used []
  | cons {used : ℕ} {entry : α} {group : List α} {rest : List (List α)}
      (full : limit < used+size entry) (fits : size entry+total size group ≤ limit)
      (tail : Greedy (size entry+total size group) rest) :
      Greedy used ((entry::group)::rest)

theorem Greedy.fits {size : α → ℕ} {limit used : ℕ} {groups : List (List α)}
    (h : Greedy size limit used groups) {group : List α} (hmem : group ∈ groups) :
    total size group ≤ limit := by
  induction h with
  | nil => cases hmem
  | cons _ hfits _ ih =>
    rcases mem_cons.mp hmem with rfl | hmem
    · exact hfits
    · exact ih hmem

theorem greedyGroups_greedy {entries : List α} (hsize : ∀ entry ∈ entries, size entry ≤ limit) :
    Greedy size limit (offset+total size (greedyGroups size limit offset entries).1)
      (greedyGroups size limit offset entries).2 := by
  induction entries generalizing offset with
  | nil => exact Greedy.nil _
  | cons entry rest ih =>
    have hrest : ∀ e ∈ rest, size e ≤ limit := fun e he => hsize e (by simp [he])
    rw [greedyGroups]
    split
    · simp only [total_cons,←add_assoc]
      exact ih hrest
    · rename_i hfull
      have hfit := greedyGroups_fst_le size limit (hsize entry (by simp)) rest
      exact Greedy.cons (by simpa using hfull) hfit (ih hrest)

end Grouping

section Scan

variable (limit : ℕ)

/-- Number of blocks opened and final offset of a run of entry sizes. -/
def scan : ℕ → List ℕ → ℕ×ℕ
  | offset,[] => (0,offset)
  | offset,size::rest =>
    if offset+size ≤ limit then scan (offset+size) rest
    else ((scan size rest).1+1,(scan size rest).2)

theorem greedyGroups_length {α : Type*} (size : α → ℕ) (offset : ℕ) (entries : List α) :
    (greedyGroups size limit offset entries).2.length=(scan limit offset (entries.map size)).1 := by
  induction entries generalizing offset with
  | nil => rfl
  | cons entry rest ih =>
    rw [greedyGroups,map_cons,scan]
    split
    · exact ih _
    · simpa using ih (size entry)

theorem scan_fst_le (offset : ℕ) (sizes : List ℕ) : (scan limit offset sizes).1 ≤ sizes.length := by
  induction sizes generalizing offset with
  | nil => exact Nat.le_refl 0
  | cons size rest ih =>
    rw [scan]
    split
    · exact Nat.le_succ_of_le (ih _)
    · exact Nat.succ_le_succ (ih size)

theorem scan_append (offset : ℕ) (a b : List ℕ) : scan limit offset (a++b)=
      ((scan limit offset a).1+(scan limit (scan limit offset a).2 b).1,
        (scan limit (scan limit offset a).2 b).2) := by
  induction a generalizing offset with
  | nil => simp [scan]
  | cons size rest ih =>
    simp only [cons_append,scan]
    split
    · exact ih _
    · rw [ih]
      ext <;> simp
      omega

variable {count : ℕ}

theorem scan_replicate_fit {offset size : ℕ} (h : offset+count*size ≤ limit) :
    scan limit offset (replicate count size)=(0,offset+count*size) := by
  induction count generalizing offset with
  | zero => simp [scan]
  | succ count ih =>
    rw [Nat.succ_mul] at h
    rw [replicate_succ,scan,if_pos (by omega),ih (by omega)]
    congr 1
    rw [Nat.succ_mul]
    omega

def addedBlocks (perBlock count : ℕ) : ℕ :=
  count/perBlock+if count%perBlock=0 then 0 else 1

variable {perBlock : ℕ}

theorem addedBlocks_le (hpos : 0 < count) (hle : count ≤ perBlock) :
    addedBlocks perBlock count=1 := by
  unfold addedBlocks
  rcases Nat.lt_or_eq_of_le hle with hlt | heq
  · rw [Nat.div_eq_of_lt hlt,Nat.mod_eq_of_lt hlt,if_neg (by omega)]
  · subst heq
    rw [Nat.div_self hpos,Nat.mod_self,if_pos rfl]

theorem addedBlocks_add (hpos : 0 < perBlock) :
    addedBlocks perBlock (perBlock+count)=addedBlocks perBlock count+1 := by
  unfold addedBlocks
  rw [Nat.add_div_left _ hpos,Nat.add_mod_left]
  omega

theorem addedBlocks_bounds (hpos : 0 < perBlock) (hcount : 0 < count) :
    1 ≤ addedBlocks perBlock count ∧ addedBlocks perBlock count ≤ count ∧
      (addedBlocks perBlock count-1)*perBlock ≤ count ∧
      count-(addedBlocks perBlock count-1)*perBlock ≤ perBlock := by
  induction count using Nat.strongRecOn with
  | _ count ih =>
    by_cases hsmall : count ≤ perBlock
    · rw [addedBlocks_le hcount hsmall]
      omega
    · obtain ⟨rest,rfl⟩ : ∃ rest, count=perBlock+rest := ⟨count-perBlock,by omega⟩
      obtain ⟨hone,hle,hbefore,hlast⟩ := ih rest (by omega) (by omega)
      obtain ⟨added,hadded⟩ : ∃ added, addedBlocks perBlock rest=added+1 :=
        ⟨addedBlocks perBlock rest-1,by omega⟩
      rw [addedBlocks_add hpos,hadded,Nat.add_sub_cancel,Nat.succ_mul]
      rw [hadded,Nat.add_sub_cancel] at hbefore hlast
      omega

theorem scan_replicate_spill {offset size : ℕ} (hsize : 0 < size) (hle : size ≤ limit)
    (hfull : limit < offset+size) (hcount : 0 < count) :
    scan limit offset (replicate count size)= (addedBlocks (limit/size) count,
        (count-(addedBlocks (limit/size) count-1)*(limit/size))*size) := by
  have hper := Nat.div_pos hle hsize
  have hcap := Nat.div_mul_le_self limit size
  have hnext : limit < limit/size*size+size := by
    have := Nat.lt_div_mul_add hsize (a := limit)
    omega
  -- the first entry opens a block; the rest of that block is a fitting run
  have hopen : ∀ n, 0 < n → n ≤ limit/size → ∀ off, limit < off+size →
      scan limit off (replicate n size)=(1,n*size) := by
    intro n hn hnle off hoff
    obtain ⟨n,rfl⟩ : ∃ p, n=p+1 := ⟨n-1,by omega⟩
    have hbytes : size+n*size ≤ limit := by
      have := Nat.mul_le_mul_right size hnle
      rw [Nat.succ_mul] at this
      omega
    rw [replicate_succ,scan,if_neg (by omega),scan_replicate_fit limit hbytes]
    congr 1
    rw [Nat.succ_mul]
    omega
  induction count using Nat.strongRecOn generalizing offset with
  | _ count ih =>
    by_cases hsmall : count ≤ limit/size
    · rw [hopen count hcount hsmall offset hfull,addedBlocks_le hcount hsmall]
      simp
    · obtain ⟨rest,rfl⟩ : ∃ rest, count=limit/size+rest := ⟨count-limit/size,by omega⟩
      have hrest : 0 < rest := by omega
      have hpos := (addedBlocks_bounds hper hrest).1
      rw [replicate_add,scan_append,hopen _ hper (Nat.le_refl _) offset hfull,
        ih rest (by omega) hnext hrest,addedBlocks_add hper]
      ext
      · simp only
        omega
      · simp only [Nat.add_sub_cancel]
        congr 1
        obtain ⟨added,hadded⟩ : ∃ added, addedBlocks (limit/size) rest=added+1 :=
          ⟨addedBlocks (limit/size) rest-1,by omega⟩
        rw [hadded,Nat.add_sub_cancel,Nat.succ_mul]
        omega

end Scan

section Inline

variable {α : Type*} (size : α → ℕ) (limit : ℕ)

/-- A run that opens no block stays in the current one; otherwise it settles the current block. -/
theorem greedyGroups_append_fst (offset : ℕ) (a b : List α) :
    (greedyGroups size limit offset (a++b)).1= if (scan limit offset (a.map size)).1=0
      then a++(greedyGroups size limit (scan limit offset (a.map size)).2 b).1
      else (greedyGroups size limit offset a).1 := by
  induction a generalizing offset with
  | nil => simp [scan]
  | cons entry rest ih =>
    rw [cons_append,greedyGroups,map_cons,scan]
    by_cases hfit : offset+size entry ≤ limit
    · rw [if_pos hfit,if_pos hfit,greedyGroups,if_pos hfit]
      simp only [ih]
      split <;> simp
    · rw [if_neg hfit,if_neg hfit,greedyGroups,if_neg hfit]
      simp

theorem total_greedyGroups_fst_run {entries : List α} {each : ℕ}
    (heach : ∀ entry ∈ entries, size entry=each) (hpos : 0 < each)
    (hle : offset ≤ limit) :
    total size (greedyGroups size limit offset entries).1=
      min entries.length ((limit-offset)/each)*each := by
  induction entries generalizing offset with
  | nil => simp [greedyGroups]
  | cons entry rest ih =>
    have hentry := heach entry (by simp)
    have hrest : ∀ e ∈ rest, size e=each := fun e he => heach e (by simp [he])
    rw [greedyGroups,hentry]
    by_cases hfit : offset+each ≤ limit
    · rw [if_pos hfit]
      simp only [total_cons,hentry,ih hrest hfit,length_cons]
      have hdiv : (limit-offset)/each=(limit-(offset+each))/each+1 := by
        have : limit-offset=limit-(offset+each)+each := by omega
        rw [this,Nat.add_div_right _ hpos]
      rw [hdiv,Nat.add_min_add_right,Nat.succ_mul]
      omega
    · rw [if_neg hfit]
      have hzero : (limit-offset)/each=0 := Nat.div_eq_of_lt (by omega)
      simp [hzero]

end Inline

end Remanence.Foundation.Packing
