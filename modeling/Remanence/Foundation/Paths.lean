import Mathlib.Data.List.Infix
import Remanence.Foundation.Disk

/-!
# Paths as lists of names

A plain name is one that a path can hold between two separators and that
names an entry. A path of plain names splits into exactly these names, so
different lists of plain names are different paths.
-/

namespace Remanence.Foundation

open List

structure PlainName (name : String) : Prop where
  nonempty : name≠""
  ne_dot : name≠"."
  ne_dots : name≠".."
  no_separator : '/' ∉ name.toList

def joinNames (names : List String) : String := "/".intercalate names

theorem not_mem_of_mem_splitOn {α : Type} [DecidableEq α] {x : α} {xs piece : List α}
    (h : piece ∈ xs.splitOn x) : x ∉ piece := by
  induction xs generalizing piece with
  | nil =>
    rw [mem_singleton.mp (show piece ∈ [[]] from h)]
    exact not_mem_nil
  | cons y xs ih =>
    unfold List.splitOn at h ih
    rw [splitOnP_cons_eq_if_modifyHead] at h
    split at h
    · rcases mem_cons.mp h with rfl | h
      · exact not_mem_nil
      · exact ih h
    · rename_i hy
      cases hsplit : xs.splitOnP (· == x) with
      | nil =>
        rw [hsplit] at h
        cases h
      | cons first rest =>
        rw [hsplit] at h ih
        rcases mem_cons.mp h with rfl | h
        · rw [mem_cons,not_or]
          exact ⟨fun hxy => hy (by simp [hxy]),ih mem_cons_self⟩
        · exact ih (mem_cons_of_mem _ h)

variable {name : String}

theorem plainName_of_mem_components {path : String} (h : .normal name ∈ components path) :
    PlainName name := by
  unfold components at h
  rcases mem_append.mp h with h | h
  · split_ifs at h <;> simp at h
  · obtain ⟨piece,hpiece,hname⟩ := mem_filterMap.mp h
    unfold pieceComponent at hname
    split_ifs at hname with hempty hdots
    · rw [Option.some.injEq] at hname
      cases hname
    · rw [Option.some.injEq,Component.normal.injEq] at hname
      subst hname
      rw [not_or] at hempty
      obtain ⟨chars,hchars,rfl⟩ := mem_map.mp hpiece
      refine ⟨hempty.1,hempty.2,hdots,?_⟩
      rw [String.toList_ofList]
      exact not_mem_of_mem_splitOn hchars

theorem PlainName.pieceComponent (h : PlainName name) :
    pieceComponent name=some (.normal name) := by
  rw [Foundation.pieceComponent,if_neg (by simp [h.nonempty,h.ne_dot]),if_neg h.ne_dots]

variable {names : List String}

theorem pieces_joinNames (h : ∀ name ∈ names, PlainName name)
    (hne : names≠[]) : pieces (joinNames names)=names := by
  have hsep : ∀ chars ∈ names.map String.toList, '/' ∉ chars := by
    intro chars hchars
    obtain ⟨name,hname,rfl⟩ := mem_map.mp hchars
    exact (h name hname).no_separator
  have hslash : "/".toList=['/'] := rfl
  rw [pieces,joinNames,String.toList_intercalate,hslash,
    splitOn_intercalate _ hsep (by simpa using hne),map_map]
  exact (map_congr_left fun name _ => String.ofList_toList).trans (map_id _)

theorem head_joinNames (h : PlainName name) : (joinNames (name::names)).toList.head?≠some '/' := by
  have hslash : "/".toList=['/'] := rfl
  rw [joinNames,String.toList_intercalate,hslash,map_cons]
  cases hchars : name.toList with
  | nil => exact absurd (String.toList_eq_nil_iff.mp hchars) h.nonempty
  | cons c chars =>
    have hc : c ≠ '/' := fun hc => h.no_separator (by simp [hchars,hc])
    cases names <;> simp [List.intercalate,hc]

theorem components_joinNames (h : ∀ name ∈ names, PlainName name)
    (hne : names≠[]) : components (joinNames names)=names.map .normal := by
  cases names with
  | nil => exact absurd rfl hne
  | cons name names =>
    have hname := h name mem_cons_self
    unfold components
    rw [pieces_joinNames h hne,if_neg (head_joinNames hname),head?_cons,
      if_neg (by simpa using hname.ne_dot),nil_append]
    have hall : ∀ list : List String, (∀ n ∈ list, PlainName n) →
        list.filterMap pieceComponent=list.map .normal := by
      intro list hlist
      induction list with
      | nil => rfl
      | cons n list ih =>
        rw [filterMap_cons_some (hlist n mem_cons_self).pieceComponent,
          ih fun m hm => hlist m (mem_cons_of_mem _ hm),map_cons]
    exact hall _ h

theorem joinNames_append {last tail : String} :
    joinNames (names++[last])++tail=joinNames (names++[last++tail]) := by
  rw [←String.toList_inj]
  have hslash : "/".toList=['/'] := rfl
  simp only [joinNames,String.toList_append,String.toList_intercalate,hslash,map_append,
    map_cons,map_nil]
  induction names with
  | nil => simp [List.intercalate]
  | cons name names ih =>
    cases names with
    | nil => simp [List.intercalate]
    | cons next names =>
      simp only [map_cons,cons_append,List.intercalate,intersperse_cons_cons,
        flatten_cons,append_assoc] at ih ⊢
      rw [ih]

theorem PlainName.append {tail : String} (h : PlainName name) (hlength : 2 ≤ tail.length)
    (hsep : '/' ∉ tail.toList) : PlainName (name++tail) := by
  have hname : 0 < name.length := by
    rw [Nat.pos_iff_ne_zero,Ne,String.length_eq_zero_iff]
    exact h.nonempty
  have hlong : 3 ≤ (name++tail).length := by
    rw [String.length_append]
    omega
  have hne : ∀ short : String, short.length ≤ 2 → name++tail≠short := by
    rintro short hshort rfl
    omega
  refine ⟨hne _ (by decide),hne _ (by decide),hne _ (by decide),?_⟩
  rw [String.toList_append,mem_append,not_or]
  exact ⟨h.no_separator,hsep⟩

end Remanence.Foundation
