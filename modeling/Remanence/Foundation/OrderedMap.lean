import Mathlib.Data.String.Basic
import Mathlib.Order.Basic

/-!
# Maps as entries in key order

An ordered map is a list of entries with ascending keys. An insertion keeps
the order and replaces an equal key.
-/

namespace Remanence.Foundation

open List

variable {α β : Type*} [LinearOrder α]

def insertEntry (key : α) (value : β) : List (α×β) → List (α×β)
  | [] => [(key,value)]
  | (k,v)::rest =>
    if key < k then (key,value)::(k,v)::rest
    else if key=k then (key,value)::rest
    else (k,v)::insertEntry key value rest

variable {key : α} {value : β} {entries : List (α×β)}

theorem key_of_mem_insertEntry {entry : α×β}
    (h : entry ∈ insertEntry key value entries) : entry.1=key ∨ entry ∈ entries := by
  induction entries with
  | nil =>
    obtain rfl : entry=(key,value) := by simpa [insertEntry] using h
    exact .inl rfl
  | cons head rest ih =>
    obtain ⟨k,v⟩ := head
    rw [insertEntry] at h
    split_ifs at h with hlt heq
    · rcases mem_cons.mp h with rfl | h
      · exact .inl rfl
      · exact .inr h
    · rcases mem_cons.mp h with rfl | h
      · exact .inl rfl
      · exact .inr (mem_cons_of_mem _ h)
    · rcases mem_cons.mp h with rfl | h
      · exact .inr mem_cons_self
      · exact (ih h).imp_right (mem_cons_of_mem _)

theorem insertEntry_ascending (h : entries.Pairwise fun a b => a.1 < b.1) :
    (insertEntry key value entries).Pairwise fun a b => a.1 < b.1 := by
  induction entries with
  | nil => simp [insertEntry]
  | cons head rest ih =>
    obtain ⟨k,v⟩ := head
    obtain ⟨hhead,hrest⟩ := pairwise_cons.mp h
    rw [insertEntry]
    split_ifs with hlt heq
    · refine pairwise_cons.mpr ⟨?_,h⟩
      intro entry hentry
      rcases mem_cons.mp hentry with rfl | hentry
      · exact hlt
      · exact hlt.trans (hhead entry hentry)
    · subst heq
      exact pairwise_cons.mpr ⟨hhead,hrest⟩
    · refine pairwise_cons.mpr ⟨?_,ih hrest⟩
      intro entry hentry
      rcases key_of_mem_insertEntry hentry with hkey | hentry
      · rw [hkey]
        exact lt_of_le_of_ne (not_lt.mp hlt) (Ne.symm heq)
      · exact hhead entry hentry

theorem insertEntry_of_forall_lt (h : ∀ entry ∈ entries, entry.1 < key) :
    insertEntry key value entries=entries++[(key,value)] := by
  induction entries with
  | nil => rfl
  | cons head rest ih =>
    obtain ⟨k,v⟩ := head
    have hk : k < key := h (k,v) mem_cons_self
    rw [insertEntry,if_neg hk.not_gt,if_neg hk.ne',
      ih fun entry hentry => h entry (mem_cons_of_mem _ hentry),cons_append]

structure OrderedMap (α β : Type*) [LinearOrder α] where
  entries : List (α×β)
  ascending : entries.Pairwise fun a b => a.1 < b.1

namespace OrderedMap

def empty : OrderedMap α β := ⟨[],List.Pairwise.nil⟩

def insert (map : OrderedMap α β) (key : α) (value : β) : OrderedMap α β :=
  ⟨insertEntry key value map.entries,insertEntry_ascending map.ascending⟩

def insertSome (map : OrderedMap α β) (key : α) : Option β → OrderedMap α β
  | some value => map.insert key value
  | none => map

def keys (map : OrderedMap α β) : List α := map.entries.map Prod.fst

def get? (map : OrderedMap α β) (key : α) : Option β :=
  (map.entries.find? fun entry => entry.1=key).map Prod.snd

end OrderedMap

end Remanence.Foundation
