import Remanence.Foundation.Tiling
import Remanence.TapeLog.ClosingSteps

/-!
# The uncovered range

The fold keeps, for every object, the ordinals no sidecar covers. After every accepted frame the
published extents tile `[W,T)`, and each is the end of one accepted object row. A pending group
keeps only the extents of its own objects.
-/

namespace Remanence.TapeLog

open Foundation Parity List List.Sublist
open UInt64 (lt_iff_toNat_lt le_iff_toNat_le)

variable {env : LogServices}

def ExtentsTile (lo hi : ℕ) (extents : List UncoveredExtent) : Prop :=
  Tiles (fun e : UncoveredExtent => e.first.toNat) (fun e => e.stop.toNat) lo hi extents

structure ExtentOf (row : TapeFileEntry) (e : UncoveredExtent) : Prop where
  file : row.tapeFileNumber=e.tapeFileNumber
  placed : ∃ start first : UInt64, row.physicalStartHint=some start ∧
    row.firstParityDataOrdinal=some first ∧ first.toNat ≤ e.first.toNat ∧
    e.stop.toNat=first.toNat+row.blockCount.toNat ∧
    e.startLba.toNat=start.toNat+(e.first.toNat-first.toNat) ∧
    start.toNat+row.blockCount.toNat < 2^64

def extentFiles (extents : List UncoveredExtent) : List UInt64 :=
  extents.map UncoveredExtent.tapeFileNumber

variable {lo : ℕ} {lower : UInt64} {extents : List UncoveredExtent}

theorem tile_trim {hi : ℕ} (h : ExtentsTile lo hi extents) (hle : lower.toNat ≤ hi) :
    ExtentsTile (max lo lower.toNat) hi (trim lower extents) := by
  induction extents generalizing lo with
  | nil =>
    have hend : lo=hi := h
    change max lo lower.toNat=hi
    omega
  | cons e rest ih =>
    obtain ⟨hfirst,hlt,hrest⟩ := h
    simp only [le_iff_toNat_le,trim,lt_iff_toNat_lt]
    dsimp only at hfirst hlt hrest
    split_ifs with hstop hcut
    · have hmax : max lo lower.toNat=max e.stop.toNat lower.toNat := by omega
      rw [hmax]
      exact ih hrest
    · exact ⟨by dsimp only; omega,by dsimp only; omega,hrest⟩
    · exact ⟨by dsimp only; omega,hlt,hrest⟩

theorem trim_eq_nil {hi : ℕ} (h : ExtentsTile lo hi extents) (hle : hi ≤ lower.toNat) :
    trim lower extents=[] := by
  induction extents generalizing lo with
  | nil => rfl
  | cons e rest ih =>
    obtain ⟨-,-,hrest⟩ := h
    have hstop : e.stop.toNat ≤ hi := hrest.le
    rw [trim,if_pos (le_iff_toNat_le.mpr (by omega))]
    exact ih hrest

theorem extentFiles_trim (lower : UInt64) (extents : List UncoveredExtent) :
    (extentFiles (trim lower extents)).Sublist (extentFiles extents) := by
  induction extents with
  | nil => exact refl _
  | cons e rest ih =>
    unfold trim
    split_ifs
    · exact ih.cons _
    · exact refl _
    · exact refl _

variable {rows : List TapeFileEntry}

theorem extentOf_trim (h : ∀ e ∈ extents, ∃ row ∈ rows, ExtentOf row e) :
    ∀ e ∈ trim lower extents, ∃ row ∈ rows, ExtentOf row e := by
  induction extents with
  | nil => exact h
  | cons e rest ih =>
    rw [forall_mem_cons] at h
    unfold trim
    split_ifs with hstop hcut
    · exact ih h.2
    · rw [forall_mem_cons]
      refine ⟨?_,h.2⟩
      obtain ⟨row,hrow,hfile,start,first,hstart,hordinal,hfirst,hend,hlba,hfits⟩ := h.1
      rw [le_iff_toNat_le] at hstop
      rw [lt_iff_toNat_lt] at hcut
      have hsub : (lower-e.first).toNat=lower.toNat-e.first.toNat :=
        UInt64.toNat_sub_of_le _ _ (le_iff_toNat_le.mpr (by omega))
      refine ⟨row,hrow,hfile,start,first,hstart,hordinal,?_,hend,?_,hfits⟩
      · dsimp only
        omega
      · dsimp only
        rw [UInt64.toNat_add,hsub,Nat.mod_eq_of_lt (by omega)]
        omega
    · exact forall_mem_cons.mpr h

def objectOf (row : TapeFileEntry) : List TapeFileEntry := if row.kind=.object then [row] else []

def Chunk.objectRows : Chunk → List TapeFileEntry
  | .fileRow row => objectOf row
  | _ => []

def Frame.objectRows (f : Frame) : List TapeFileEntry :=
  match f.record with
  | .payloadContinuation c => c.chunk.objectRows
  | _ => []

def objectRows (frames : List Frame) : List TapeFileEntry := frames.flatMap Frame.objectRows

/-- The uncovered range of a published state, given the object rows so far. -/
structure Covered (rows : List TapeFileEntry) (s : TapeSummary) : Prop where
  protected_le : s.protectedUpTo ≤ s.total
  bounded : ∀ scheme ∈ s.scheme, s.total.toNat-s.protectedUpTo.toNat < scheme.k*scheme.stripes
  tiled : s.scheme≠none → ExtentsTile s.protectedUpTo.toNat s.total.toNat s.uncovered
  files : (extentFiles s.uncovered).Pairwise (· < ·)
  placed : ∀ e ∈ s.uncovered, ∃ row ∈ rows, ExtentOf row e
  parityOff : s.scheme=none → s.protectedUpTo=0 ∧ s.uncovered=[]
  check : s.check=.empty ∧ s.provenance=.empty ↔ s.scheme=none ∨ s.protectedUpTo=s.total
  since : s.unprotectedSince≠none ↔ s.uncovered≠[]

/-- What the induction carries for the published state. -/
structure Settled (rows : List TapeFileEntry) (s : TapeSummary) : Prop extends Covered rows s where
  valid : ∀ scheme ∈ s.scheme, scheme.Valid
  below : ∀ n ∈ extentFiles s.uncovered, n < s.nextFile
  rowsBelow : ∀ row ∈ rows, row.tapeFileNumber < s.nextFile
  rowsIncreasing : rows.Pairwise fun a b => a.tapeFileNumber < b.tapeFileNumber

/-- The group's extents reach from some `lo ≥ W` up to `T`, and only new objects raise `T`. -/
structure Gathered (s : TapeSummary) (group : List TapeFileEntry) (p : Pending) : Prop where
  tapeUuid : p.state.tapeUuid=s.tapeUuid
  scheme : p.state.scheme=s.scheme
  protected_mono : s.protectedUpTo.toNat ≤ p.state.protectedUpTo.toNat
  total_mono : s.total.toNat ≤ p.state.total.toNat
  file_mono : s.nextFile.toNat ≤ p.state.nextFile.toNat
  protected_le : p.state.protectedUpTo.toNat ≤ p.state.total.toNat
  tiled : p.state.scheme≠none → ∃ lo, p.state.protectedUpTo.toNat ≤ lo ∧
    ExtentsTile lo p.state.total.toNat p.state.uncovered
  grown : p.state.uncovered=[] ∨ s.total.toNat < p.state.total.toNat
  files : (extentFiles p.state.uncovered).Pairwise (· < ·)
  between : ∀ n ∈ extentFiles p.state.uncovered,
    s.nextFile.toNat ≤ n.toNat ∧ n.toNat < p.state.nextFile.toNat
  placed : ∀ e ∈ p.state.uncovered, ∃ row ∈ group, ExtentOf row e
  rowsBetween : ∀ row ∈ group, s.nextFile.toNat ≤ row.tapeFileNumber.toNat ∧
    row.tapeFileNumber.toNat < p.state.nextFile.toNat
  rowsIncreasing : group.Pairwise fun a b => a.tapeFileNumber < b.tapeFileNumber
  objects : p.objects.toNat=group.length
  counted : p.objects.toNat ≤ p.rows.toNat

variable {s : TapeSummary}

theorem Settled.gathered_new (h : Settled rows s)
    (sequence offset : UInt64) : Gathered s [] (.new s sequence offset) where
  tapeUuid := rfl
  scheme := rfl
  protected_mono := le_rfl
  total_mono := le_rfl
  file_mono := le_rfl
  protected_le := UInt64.le_iff_toNat_le.mp h.protected_le
  tiled := fun _ => ⟨s.total.toNat,UInt64.le_iff_toNat_le.mp h.protected_le,rfl⟩
  grown := .inl rfl
  files := List.Pairwise.nil
  between := fun _ hn => absurd hn not_mem_nil
  placed := fun _ he => absurd he not_mem_nil
  rowsBetween := fun _ hrow => absurd hrow not_mem_nil
  rowsIncreasing := List.Pairwise.nil
  objects := rfl
  counted := le_rfl

theorem toNat_epochBlocks {scheme : ParityScheme} (hs : s.scheme=some scheme)
    (hvalid : scheme.Valid) :
    s.epochBlocks.toNat=scheme.k*scheme.stripes ∧ 2 ≤ s.epochBlocks.toNat := by
  have hk : scheme.dataBlocksPerStripe.toNat < 2^16 := UInt16.toNat_lt _
  have hS : scheme.stripesPerNeighborhood.toNat < 2^32 := UInt32.toNat_lt _
  have hfits := Nat.mul_lt_mul'' hk hS
  have heq : s.epochBlocks.toNat=scheme.k*scheme.stripes := by
    rw [TapeSummary.epochBlocks,hs]
    rw [UInt64.toNat_mul,UInt16.toNat_toUInt64,UInt32.toNat_toUInt64]
    exact Nat.mod_eq_of_lt (by omega)
  refine ⟨heq,?_⟩
  rw [heq]
  exact Nat.mul_le_mul hvalid.two_le_k hvalid.one_le_stripes

variable {s' : TapeSummary}

theorem extendOrdinals_plain {row : TapeFileEntry} (h : extendOrdinals s row=.ok s')
    (hs : s.scheme=none) :
    ∃ total, s.total.toNat+row.blockCount.toNat=total.toNat ∧ s'={ s with total := total } := by
  simp only [extendOrdinals,hs,ne_eq,not_true_eq_false,if_false,eq_ok,add_eq_ok] at h
  obtain ⟨_,_,total,htotal,rfl⟩ := h
  exact ⟨total,htotal,by rw [hs]⟩

theorem extendOrdinals_parity {row : TapeFileEntry} (h : extendOrdinals s row=.ok s')
    (hs : s.scheme≠none) :
    row.firstParityDataOrdinal=some s.total ∧ ∃ stop lower first startLba : UInt64,
      s.total.toNat+row.blockCount.toNat=stop.toNat ∧
      lower.toNat=max s.protectedUpTo.toNat (stop.toNat-(s.epochBlocks-1).toNat) ∧
      first.toNat=max s.total.toNat lower.toNat ∧
      startLba.toNat=s.cursor.lba.toNat+(first.toNat-s.total.toNat) ∧
      s'={ s with
        uncovered := trim lower s.uncovered++[⟨first,stop,row.tapeFileNumber,startLba,""⟩]
        total := stop } := by
  simp only [extendOrdinals,if_pos hs,eq_ok,add_eq_ok, not_not] at h
  obtain ⟨_,hordinal,stop,hstop,startLba,hlba,rfl⟩ := h
  refine ⟨hordinal,stop,_,_,startLba,hstop,?_,toNat_max64 _ _,?_,rfl⟩
  · rw [toNat_max64,toNat_saturatingSub64]
  · rw [UInt64.toNat_sub_of_le] at hlba
    · exact hlba.symm
    · rw [le_iff_toNat_le,toNat_max64]
      exact Nat.le_max_left _ _

theorem tile_extend {total stop : ℕ} {e : UncoveredExtent} (h : ExtentsTile lo total extents)
    (hfirst : e.first.toNat=max total lower.toNat) (hstop : e.stop.toNat=stop)
    (htotal : total < stop) (hlower : lower.toNat < stop) :
    ExtentsTile (max lo lower.toNat) stop (trim lower extents++[e]) := by
  have hlast : ExtentsTile (max total lower.toNat) stop [e] :=
    ⟨hfirst,by dsimp only; omega,hstop⟩
  rcases Nat.lt_or_ge total lower.toNat with habove | hbelow
  · -- the object alone is longer than an epoch
    rw [trim_eq_nil h (le_of_lt habove)]
    have hle : lo ≤ total := h.le
    have hlo : max lo lower.toNat=max total lower.toNat := by omega
    rw [hlo]
    exact hlast
  · rw [Nat.max_eq_left hbelow] at hlast
    exact (tile_trim h hbelow).append hlast

variable {group : List TapeFileEntry} {p p' : Pending}

section

variable (g : Gathered s group p)
include g

/-- What a row leaves of the old extents, what it adds and how it moves the counters. -/
theorem Gathered.extend {added : List TapeFileEntry}
    {row : TapeFileEntry} {kept new : List UncoveredExtent}
    (htape : p'.state.tapeUuid=p.state.tapeUuid) (hscheme : p'.state.scheme=p.state.scheme)
    (hnumber : row.tapeFileNumber=p.state.nextFile)
    (hfile : p.state.nextFile.toNat+1=p'.state.nextFile.toNat)
    (hprotected : p.state.protectedUpTo.toNat ≤ p'.state.protectedUpTo.toNat)
    (hle : p'.state.protectedUpTo.toNat ≤ p'.state.total.toNat)
    (htotal : p.state.total.toNat ≤ p'.state.total.toNat)
    (htiled : p'.state.scheme≠none → ∃ lo, p'.state.protectedUpTo.toNat ≤ lo ∧
      ExtentsTile lo p'.state.total.toNat p'.state.uncovered)
    (huncovered : p'.state.uncovered=kept++new)
    (hfiles : (extentFiles kept).Sublist (extentFiles p.state.uncovered))
    (hkept : ∀ e ∈ kept, ∃ row ∈ group, ExtentOf row e)
    (hadded : added=[] ∧ new=[] ∨ added=[row] ∧ p.state.total.toNat < p'.state.total.toNat ∧
      (new=[] ∨ ∃ e, new=[e] ∧ ExtentOf row e))
    (hobjects : p'.objects.toNat=p.objects.toNat+added.length)
    (hrows : p.rows.toNat+1=p'.rows.toNat) : Gathered s (group++added) p' := by
  have hlength : added.length ≤ 1 := by
    rcases hadded with ⟨rfl,-⟩ | ⟨rfl,-⟩ <;> simp
  have haddedRow : ∀ r ∈ added, r=row := by
    rcases hadded with ⟨rfl,-⟩ | ⟨rfl,-⟩ <;> simp
  have hnew : ∀ e ∈ new, row ∈ added ∧ ExtentOf row e := by
    rcases hadded with ⟨-,rfl⟩ | ⟨rfl,-,rfl | ⟨e,rfl,he⟩⟩
    · simp
    · simp
    · simpa using he
  have hnewFiles : ∀ n ∈ extentFiles new, n=p.state.nextFile := by
    intro n hn
    obtain ⟨e,he,rfl⟩ := mem_map.mp hn
    rw [←(hnew e he).2.file,hnumber]
  have hkeptFiles : ∀ n ∈ extentFiles kept,
      s.nextFile.toNat ≤ n.toNat ∧ n.toNat < p.state.nextFile.toNat :=
    fun n hn => g.between n (hfiles.subset hn)
  have hsplit : extentFiles p'.state.uncovered=extentFiles kept++extentFiles new := by
    rw [huncovered,extentFiles,map_append]
    rfl
  have hmono := g.file_mono
  refine ⟨htape.trans g.tapeUuid,hscheme.trans g.scheme,g.protected_mono.trans hprotected,
    g.total_mono.trans htotal,by omega,hle,htiled,?_,?_,?_,?_,?_,?_,?_,?_⟩
  · -- extents need an object
    rcases hadded with ⟨-,rfl⟩ | ⟨-,hgrow,-⟩
    · rcases g.grown with hnil | hgrow
      · left
        rw [hnil] at hfiles
        have hempty : kept=[] := map_eq_nil_iff.mp (sublist_nil.mp hfiles)
        rw [huncovered,hempty]
        rfl
      · exact .inr (lt_of_lt_of_le hgrow htotal)
    · exact .inr (lt_of_le_of_lt g.total_mono hgrow)
  · rw [hsplit,pairwise_append]
    refine ⟨g.files.sublist hfiles,?_,?_⟩
    · rcases hadded with ⟨-,rfl⟩ | ⟨-,-,rfl | ⟨e,rfl,-⟩⟩ <;> simp [extentFiles]
    · intro m hm n hn
      rw [hnewFiles n hn,lt_iff_toNat_lt]
      exact (hkeptFiles m hm).2
  · intro n hn
    rw [hsplit,mem_append] at hn
    rcases hn with hn | hn
    · have := hkeptFiles n hn
      omega
    · rw [hnewFiles n hn]
      omega
  · intro e he
    rw [huncovered,mem_append] at he
    rcases he with he | he
    · obtain ⟨r,hr,hextent⟩ := hkept e he
      exact ⟨r,mem_append_left _ hr,hextent⟩
    · exact ⟨row,mem_append_right _ (hnew e he).1,(hnew e he).2⟩
  · intro r hr
    rcases mem_append.mp hr with hr | hr
    · have := g.rowsBetween r hr
      omega
    · rw [haddedRow r hr,hnumber]
      omega
  · rw [pairwise_append]
    refine ⟨g.rowsIncreasing,?_,?_⟩
    · rcases hadded with ⟨rfl,-⟩ | ⟨rfl,-⟩ <;> simp
    · intro a ha b hb
      rw [haddedRow b hb,hnumber,lt_iff_toNat_lt]
      exact (g.rowsBetween a ha).2
  · rw [hobjects,g.objects,length_append]
  · have := g.counted
    omega

theorem Gathered.object {q : Pending} {row : TapeFileEntry} {state : TapeSummary}
    (hvalid : ∀ scheme ∈ s.scheme, scheme.Valid) (hcheck : checkRow p row=.ok ())
    (hobject : applyObject p row=.ok q) (hadvance : advance q.state row=.ok state)
    (hcount : countRow { q with state := state } row false=.ok p') :
    Gathered s (group++[row]) p' := by
  obtain ⟨-,hnumber,hblocks,hstart⟩ := checkRow_eq_ok hcheck
  have hpositive := Nat.pos_of_ne_zero fun hzero => hblocks (UInt64.toNat_inj.mp hzero)
  obtain ⟨-,grown,objectCount,objects,catalog,hextend,hobjects,rfl⟩ := applyObject_eq_ok hobject
  obtain ⟨lba,nextFile,hlba,hfile,rfl⟩ := advance_eq_ok hadvance
  obtain ⟨rows,bytes,hrows,-,rfl⟩ := countRow_eq_ok hcount
  have hle := g.protected_le
  cases hscheme : p.state.scheme with
  | none =>
    obtain ⟨total,htotal,rfl⟩ := extendOrdinals_plain hextend hscheme
    refine g.extend  rfl rfl hnumber hfile le_rfl ?_ ?_ ?_
      (append_nil _).symm (refl _) g.placed (.inr ⟨rfl,?_,.inl rfl⟩) hobjects.symm hrows
    · dsimp only
      omega
    · dsimp only
      omega
    · intro hsome
      exact absurd hscheme hsome
    · dsimp only
      omega
  | some scheme =>
    have hne : p.state.scheme≠none := by
      rw [hscheme]
      exact Option.some_ne_none _
    obtain ⟨hordinal,stop,lower,first,startLba,hstop,hlower,hfirst,hstartLba,rfl⟩ :=
      extendOrdinals_parity hextend hne
    have hepoch := (toNat_epochBlocks hscheme (hvalid scheme (g.scheme ▸ hscheme))).2
    have hone : (p.state.epochBlocks-1).toNat=p.state.epochBlocks.toNat-1 :=
      UInt64.toNat_sub_of_le _ _ (le_iff_toNat_le.mpr (by
        change 1 ≤ p.state.epochBlocks.toNat
        omega))
    have hbelow : lower.toNat < stop.toNat := by omega
    have hgrow : p.state.total.toNat < stop.toNat := by omega
    have hafter : p.state.total.toNat ≤ first.toNat := by omega
    dsimp only at hlba hfile
    have hfits : lba.toNat < 2^64 := UInt64.toNat_lt _
    refine g.extend rfl rfl hnumber hfile le_rfl ?_ ?_ ?_ rfl
      (extentFiles_trim lower _) (extentOf_trim g.placed) (.inr ⟨rfl,?_,.inr ⟨_,rfl,rfl,?_⟩⟩)
      hobjects.symm hrows
    · dsimp only
      omega
    · dsimp only
      omega
    · intro _
      obtain ⟨lo,hlo,htiled⟩ := g.tiled hne
      exact ⟨max lo lower.toNat,le_max_of_le_left hlo, tile_extend htiled hfirst rfl hgrow hbelow⟩
    · exact hgrow
    · exact ⟨p.state.cursor.lba,p.state.total,hstart,hordinal,hafter,hstop.symm,hstartLba,by omega⟩

theorem Gathered.row {row : TapeFileEntry} (hvalid : ∀ scheme ∈ s.scheme, scheme.Valid)
    (h : applyRow p row false=.ok p') : Gathered s (group++objectOf row) p' := by
  obtain ⟨hcheck,q,state,hkind,hadvance,hcount⟩ := applyRow_eq_ok h
  obtain ⟨-,hnumber,-,-⟩ := checkRow_eq_ok hcheck
  rcases applyKind_cases hkind with ⟨hobject,happly⟩ | ⟨hsidecar,happly⟩ |
    ⟨hobject,-,maps,components,rfl⟩
  · rw [objectOf,if_pos hobject]
    exact g.object hvalid hcheck happly hadvance hcount
  · obtain ⟨stop,blocks,identity,epoch,-,hscheme,hlt,hle,rfl⟩ := applySidecar_eq_ok happly
    obtain ⟨lba,nextFile,-,hfile,rfl⟩ := advance_eq_ok hadvance
    obtain ⟨rows,bytes,hrows,-,rfl⟩ := countRow_eq_ok hcount
    have hobject : objectOf row=[] := by rw [objectOf,hsidecar]; rfl
    rw [hobject]
    refine g.extend rfl rfl hnumber hfile (le_of_lt hlt) hle le_rfl ?_
      (append_nil _).symm (extentFiles_trim stop _) (extentOf_trim g.placed)
      (.inl ⟨rfl,rfl⟩) rfl hrows
    intro _
    obtain ⟨lo,-,htiled⟩ := g.tiled hscheme
    exact ⟨max lo stop.toNat,Nat.le_max_right _ _,tile_trim htiled hle⟩
  · obtain ⟨lba,nextFile,-,hfile,rfl⟩ := advance_eq_ok hadvance
    obtain ⟨rows,bytes,hrows,-,rfl⟩ := countRow_eq_ok hcount
    rw [objectOf,if_neg hobject]
    exact g.extend rfl rfl hnumber hfile le_rfl g.protected_le le_rfl
      g.tiled (append_nil _).symm (refl _) g.placed (.inl ⟨rfl,rfl⟩)
      rfl hrows

theorem Gathered.congr (hstate : p'.state=p.state) (hobjects : p'.objects=p.objects)
    (hrows : p'.rows=p.rows) : Gathered s group p' := by
  cases p
  cases p'
  cases hstate
  cases hobjects
  cases hrows
  exact ⟨g.1,g.2,g.3,g.4,g.5,g.6,g.7,g.8,g.9,g.10,g.11,g.12,g.13,g.14,g.15⟩

theorem Gathered.chunk {payload : Bytes} {chunk : Chunk}
    (hvalid : ∀ scheme ∈ s.scheme, scheme.Valid) (h : applyChunk s p payload chunk=.ok p') :
    Gathered s (group++chunk.objectRows) p' ∧ p'.rows.toNat ≤ p.rows.toNat+1 := by
  obtain ⟨row,rfl,hrow⟩ | ⟨hother,hkeep⟩ := applyChunk_cases h
  · exact ⟨g.row hvalid hrow,(applyRow_counts hrow).2.1.ge⟩
  · have hnone : chunk.objectRows=[] := by
      cases chunk with
      | fileRow row => exact absurd rfl (hother row)
      | _ => rfl
    rw [hnone,append_nil,hkeep.rows]
    exact ⟨g.congr hkeep.state hkeep.objects hkeep.rows,Nat.le_succ _⟩

end

theorem Settled.congr {a b : TapeSummary} (h : Settled rows a) (hsame : SameMedia a b) :
    Settled rows b := by
  cases a
  cases b
  obtain ⟨⟨⟩,⟨⟩,⟨⟩,⟨⟩,⟨⟩,⟨⟩,⟨⟩,⟨⟩,⟨⟩⟩ := hsame
  have c := h.toCovered
  exact ⟨⟨c.1,c.2,c.3,c.4,c.5,c.6,c.7,c.8⟩,h.valid,h.below,h.rowsBelow,h.rowsIncreasing⟩

variable {closed : List TapeFileEntry}

section

variable (g : Gathered s group p)
include g

theorem Settled.rows_pairwise (h : Settled closed s) :
    (closed++group).Pairwise fun a b => a.tapeFileNumber < b.tapeFileNumber := by
  refine pairwise_append.mpr ⟨h.rowsIncreasing,g.rowsIncreasing,fun a ha b hb => ?_⟩
  exact lt_of_lt_of_le (lt_iff_toNat_lt.mp (h.rowsBelow a ha)) (g.rowsBetween b hb).1

/-- Publication of a group's state `u` whose extents start where the published
ones end. -/
theorem Settled.publish {u : TapeSummary} (h : Settled closed s)
    (hscheme : u.scheme=p.state.scheme) (hprotected : u.protectedUpTo=p.state.protectedUpTo)
    (htotal : u.total=p.state.total) (hfile : u.nextFile=p.state.nextFile)
    (hfiles : (extentFiles u.uncovered).Sublist (extentFiles p.state.uncovered))
    (hplaced : ∀ e ∈ u.uncovered, ∃ row ∈ group, ExtentOf row e)
    (hbounded : ∀ scheme ∈ u.scheme, u.total.toNat-u.protectedUpTo.toNat < scheme.k*scheme.stripes)
    (htiled : u.scheme≠none →
      ExtentsTile (max u.protectedUpTo.toNat s.total.toNat) u.total.toNat u.uncovered)
    (hoff : u.scheme=none → u.protectedUpTo=0 ∧ u.uncovered=[])
    (hcheck : u.check=.empty ∧ u.provenance=.empty ↔ u.scheme=none ∨ u.protectedUpTo=u.total) :
    Settled (closed++group) (publishMedia s u) := by
  have hsame := hscheme.trans g.scheme
  have hnext : s.nextFile.toNat ≤ u.nextFile.toNat := by
    rw [hfile]
    exact g.file_mono
  have hold : (extentFiles (trim u.protectedUpTo s.uncovered)).Sublist (extentFiles s.uncovered) :=
    extentFiles_trim _ _
  have hnew : ∀ n ∈ extentFiles u.uncovered, s.nextFile.toNat ≤ n.toNat ∧
      n.toNat < u.nextFile.toNat := by
    intro n hn
    rw [hfile]
    exact g.between n (hfiles.subset hn)
  have hjoined : extentFiles (publishMedia s u).uncovered=
      extentFiles (trim u.protectedUpTo s.uncovered)++extentFiles u.uncovered := map_append
  constructor
  · constructor
    · change u.protectedUpTo ≤ u.total
      rw [hprotected,htotal,le_iff_toNat_le]
      exact g.protected_le
    · exact hbounded
    · intro hparity
      change ExtentsTile u.protectedUpTo.toNat u.total.toNat
        (trim u.protectedUpTo s.uncovered++u.uncovered)
      have hbefore := h.tiled (hsame ▸ hparity)
      have hmono : s.protectedUpTo.toNat ≤ u.protectedUpTo.toNat := by
        rw [hprotected]
        exact g.protected_mono
      have hafter := htiled hparity
      rcases Nat.le_total u.protectedUpTo.toNat s.total.toNat with hle | hge
      · rw [Nat.max_eq_right hle] at hafter
        have hcut := tile_trim hbefore hle
        rw [Nat.max_eq_right hmono] at hcut
        exact hcut.append hafter
      · rw [Nat.max_eq_left hge] at hafter
        rw [trim_eq_nil hbefore hge]
        exact hafter
    · rw [hjoined,pairwise_append]
      refine ⟨h.files.sublist hold,g.files.sublist hfiles,?_⟩
      intro m hm n hn
      have hm := lt_iff_toNat_lt.mp (h.below m (hold.subset hm))
      exact lt_of_lt_of_le hm (hnew n hn).1
    · intro e he
      rcases mem_append.mp he with he | he
      · obtain ⟨row,hrow,hextent⟩ := extentOf_trim h.placed e he
        exact ⟨row,mem_append_left _ hrow,hextent⟩
      · obtain ⟨row,hrow,hextent⟩ := hplaced e he
        exact ⟨row,mem_append_right _ hrow,hextent⟩
    · intro hnone
      obtain ⟨hzero,hempty⟩ := hoff hnone
      refine ⟨hzero,?_⟩
      change trim u.protectedUpTo s.uncovered++u.uncovered=[]
      rw [hempty,(h.parityOff (hsame ▸ hnone)).2]
      rfl
    · exact hcheck
    · change (Option.map _ (trim u.protectedUpTo s.uncovered++u.uncovered).head?)≠none ↔
        trim u.protectedUpTo s.uncovered++u.uncovered≠[]
      rw [ne_eq,Option.map_eq_none_iff,head?_eq_none_iff]
  · intro scheme hmem
    exact h.valid scheme (hsame ▸ hmem)
  · intro n hn
    rw [hjoined,mem_append] at hn
    rcases hn with hn | hn
    · exact lt_of_lt_of_le (lt_iff_toNat_lt.mp (h.below n (hold.subset hn))) hnext
    · exact (hnew n hn).2
  · intro row hrow
    change row.tapeFileNumber < u.nextFile
    rcases mem_append.mp hrow with hrow | hrow
    · exact lt_of_lt_of_le (lt_iff_toNat_lt.mp (h.rowsBelow row hrow)) hnext
    · rw [hfile]
      exact (g.rowsBetween row hrow).2
  · exact h.rows_pairwise g

theorem Settled.commit {u v : TapeSummary} {c : Committed} (h : Settled closed s)
    (hc : CommitOf p s c u) (hsame : SameMedia u v) :
    Settled (closed++group) (publishMedia s v) := by
  refine Settled.congr ?_ (hsame.publish s)
  obtain ⟨-,-,hprotected,htotal,hwithin,hoff,w,hextents,rfl⟩ := hc
  have hcut : ∀ {es : List UncoveredExtent},
      (extentFiles (es.map fun e => { e with committedAtUtc := c.committedAtUtc })).Sublist
        (extentFiles es) := by
    intro es
    rw [extentFiles,map_map]
    exact refl _
  have hdated : ∀ {es : List UncoveredExtent}, (∀ e ∈ es, ∃ row ∈ group, ExtentOf row e) →
      ∀ e ∈ es.map fun e => { e with committedAtUtc := c.committedAtUtc },
        ∃ row ∈ group, ExtentOf row e := by
    intro es hes e he
    obtain ⟨e,hmem,rfl⟩ := mem_map.mp he
    obtain ⟨row,hrow,hextent⟩ := hes e hmem
    exact ⟨row,hrow,hextent.file,hextent.placed⟩
  have hle := g.protected_le
  have hmono := g.total_mono
  have hbounded : ∀ scheme ∈ p.state.scheme,
      p.state.total.toNat-p.state.protectedUpTo.toNat < scheme.k*scheme.stripes := by
    intro scheme hscheme
    have hlt := hwithin (by rw [hscheme]; exact Option.some_ne_none _)
    rwa [htotal,hprotected,lt_iff_toNat_lt,
      UInt64.toNat_sub_of_le _ _ (le_iff_toNat_le.mpr hle),
      (toNat_epochBlocks hscheme (h.valid scheme (g.scheme ▸ hscheme))).1] at hlt
  rcases checkUncovered_eq_ok hextents with ⟨hempty,hcheck,hprovenance,rfl⟩ |
    ⟨hparity,hne,hprovenance,hfirst,rfl⟩
  · rw [htotal,hprotected] at hempty
    refine h.publish g rfl rfl rfl rfl hcut (hdated g.placed) hbounded ?_ ?_ ?_
    · intro hparity
      -- nothing of the group is uncovered
      have hequal := hempty.resolve_left hparity
      obtain ⟨lo,hlo,htiled⟩ := g.tiled hparity
      have hnil := htiled.eq_nil (by rw [hequal]; exact hlo)
      rw [hnil,hequal]
      rw [hequal] at hmono
      exact Nat.max_eq_left hmono
    · intro hnone
      obtain ⟨hzero,hnil⟩ := hoff hnone
      rw [hnil,←hprotected]
      exact ⟨hzero,rfl⟩
    · refine iff_of_true ⟨hcheck,hprovenance⟩ ?_
      exact hempty.imp_right Eq.symm
  · rw [hprotected] at hfirst ⊢
    refine h.publish g rfl rfl rfl rfl (hcut.trans (extentFiles_trim _ _))
      (hdated (extentOf_trim g.placed)) hbounded ?_ ?_ ?_
    · intro _
      refine Tiles.map ?_ (fun _ _ => rfl) (fun _ _ => rfl)
      obtain ⟨lo,hlo,htiled⟩ := g.tiled hparity
      have hcutTiles := tile_trim htiled hle
      rw [Nat.max_eq_left hlo] at hcutTiles
      rw [htotal] at hfirst
      rcases Nat.lt_or_ge s.total.toNat p.state.total.toNat with hgrown | hsame
      · -- the check ties the first extent to the published end
        have hhead := hfirst (lt_iff_toNat_lt.mpr hgrown)
        cases hlist : trim p.state.protectedUpTo p.state.uncovered with
        | nil =>
          rw [hlist] at hhead
          cases hhead
        | cons e rest =>
          rw [hlist] at hhead hcutTiles
          have hmax := Option.some.inj hhead
          have hlow : e.first.toNat=lo := hcutTiles.1
          rw [hmax,toNat_max64] at hlow
          rw [hlow]
          exact hcutTiles
      · -- no object: `T` is unchanged
        have hnil := g.grown.resolve_right (not_lt.mpr hsame)
        rw [hnil]
        have hequal := le_antisymm hmono hsame
        rw [hequal]
        exact Nat.max_eq_right hle
    · intro hnone
      exact absurd hnone hparity
    · refine iff_of_false (fun hboth => hprovenance hboth.2) ?_
      rintro (hnone | hequal)
      · exact hparity hnone
      · rw [htotal,hprotected] at hne
        exact hne hequal.symm

theorem Settled.closeout {v : TapeSummary} (h : Settled closed s) (hparity : s.scheme≠none)
    (hcovered : p.state.protectedUpTo=p.state.total)
    (hsame : SameMedia { p.state with check := .empty,provenance := .empty } v) :
    Settled (closed++group) (publishMedia s v) := by
  refine Settled.congr ?_ (hsame.publish s)
  have hscheme : p.state.scheme≠none := by
    rw [g.scheme]
    exact hparity
  obtain ⟨lo,hlo,htiled⟩ := g.tiled hscheme
  have hmono := g.total_mono
  have hnil := htiled.eq_nil (by rw [←hcovered]; exact hlo)
  refine h.publish g rfl rfl rfl rfl (refl _) g.placed ?_ ?_ ?_ ?_
  · intro scheme hmem
    have hvalid := h.valid scheme (g.scheme ▸ hmem)
    rw [hcovered,Nat.sub_self]
    exact Nat.mul_pos (lt_of_lt_of_le Nat.zero_lt_two hvalid.two_le_k) hvalid.one_le_stripes
  · intro _
    rw [hnil,hcovered]
    exact Nat.max_eq_left hmono
  · intro hnone
    exact absurd hnone hscheme
  · exact iff_of_true ⟨rfl,rfl⟩ (.inr hcovered)

theorem Gathered.eq_nil (hframes : p.rows.toNat ≤ p.group.reference.frameCount.toNat)
    (h : NoObjects p) : group=[] := by
  have hcounted := g.counted
  have hobjects := g.objects
  have hzero : p.objects.toNat=0 := by
    rcases h with h | h | h
    · rw [h]
      rfl
    · rw [h] at hcounted
      exact Nat.le_zero.mp hcounted
    · rw [h] at hframes
      have hnone := Nat.le_zero.mp hframes
      omega
  exact eq_nil_of_length_eq_zero (by omega)

theorem Settled.close (h : Settled closed s)
    (hframes : p.rows.toNat ≤ p.group.reference.frameCount.toNat) (effect : MediaEffect s p s') :
    Settled (closed++group) s' ∧ s'.tapeUuid=s.tapeUuid := by
  cases effect with
  | quiet same empty =>
    rw [g.eq_nil hframes empty,append_nil]
    exact ⟨h.congr same,same.tapeUuid⟩
  | commit c u v checked same published =>
    rw [published]
    refine ⟨h.commit g checked same,?_⟩
    obtain ⟨w,hw,rfl⟩ := checked.extents
    have htape := same.tapeUuid
    have hkept : w.tapeUuid=p.state.tapeUuid := by
      rcases checkUncovered_eq_ok hw with ⟨-,-,-,rfl⟩ | ⟨-,-,-,-,rfl⟩ <;> rfl
    exact (htape.trans hkept).trans g.tapeUuid
  | closeout v parity covered same published =>
    rw [published]
    have htape := same.tapeUuid
    exact ⟨h.closeout g parity covered same,htape.trans g.tapeUuid⟩

end

structure Ledger (frames : List Frame) (fold : Fold) : Prop where
  fresh : fold.summary.isFresh → fold.summary={}
  split : ∃ closed group, objectRows frames=closed++group ∧ Settled closed fold.summary ∧
    (fold.pending=none → group=[]) ∧ ∀ p ∈ fold.pending, Gathered fold.summary group p ∧
      p.rows.toNat ≤ p.group.reference.frameCount.toNat

variable {scheme : Option ParityScheme}

theorem settled_empty (tapeUuid : Option (FixedBytes 16)) (nextFile : UInt64)
    (hvalid : ∀ s ∈ scheme, s.Valid) :
    Settled [] { tapeUuid := tapeUuid,scheme := scheme,nextFile := nextFile } where
  protected_le := UInt64.le_refl _
  bounded := fun scheme hmem => Nat.mul_pos
    (lt_of_lt_of_le Nat.zero_lt_two (hvalid scheme hmem).two_le_k)
    (hvalid scheme hmem).one_le_stripes
  tiled := fun _ => rfl
  files := List.Pairwise.nil
  placed := fun _ he => absurd he not_mem_nil
  parityOff := fun _ => ⟨rfl,rfl⟩
  check := iff_of_true ⟨rfl,rfl⟩ (.inr rfl)
  since := iff_of_false (fun h => h rfl) (fun h => h rfl)
  valid := hvalid
  below := fun _ hn => absurd hn not_mem_nil
  rowsBelow := fun _ hrow => absurd hrow not_mem_nil
  rowsIncreasing := List.Pairwise.nil

theorem ledger_new : Ledger [] Fold.new where
  fresh := fun _ => rfl
  split := ⟨[],[],rfl,settled_empty none 0 (by simp),fun _ => rfl,fun _ hp => absurd hp (by simp [Fold.new])⟩

theorem checkScheme_eq_ok {u : Unit} (h : checkScheme scheme=.ok u) : ∀ s ∈ scheme, s.Valid := by
  intro s hs
  rw [hs] at h
  simp only [checkScheme,bind_eq_ok,mapError_eq_ok] at h
  obtain ⟨_,_,_,hvalid,-⟩ := h
  exact (ParityScheme.validate_eq_ok.mp hvalid).1

theorem settled_initialized {f : Frame} {init : Initialized}
    (h : applyInitialized {} none f init=.ok s) : Settled [] s ∧ ¬s.isFresh := by
  obtain ⟨hscheme,lba,nextFile,count,rfl⟩ := applyInitialized_eq_ok h
  exact ⟨(settled_empty _ nextFile (checkScheme_eq_ok hscheme)).congr
    ⟨rfl,rfl,rfl,rfl,rfl,rfl,rfl,rfl,rfl⟩,fun hfresh => absurd hfresh (Option.some_ne_none _)⟩

theorem Ledger.step {frames : List Frame} {fold next : Fold} {f : Frame} (h : Ledger frames fold)
    (happly : fold.apply env f=.ok next) : Ledger (frames++[f]) next := by
  obtain ⟨hfresh,closed,group,hrows,hsettled,hnone,hpending⟩ := h
  have happend : objectRows (frames++[f])=closed++group++f.objectRows := by
    rw [objectRows,flatMap_append,flatMap_singleton,←objectRows,hrows]
  have hgroup : Gathered fold.summary group (groupOf fold f) ∧ (groupOf fold f).rows.toNat ≤
      (groupOf fold f).group.reference.frameCount.toNat := by
    unfold groupOf
    cases hcase : fold.pending with
    | none =>
      rw [hnone hcase]
      exact ⟨hsettled.gathered_new _ _,le_rfl⟩
    | some p => exact hpending p hcase
  rcases Fold.apply_cases happly with ⟨init,hrecord,hidle,hnext,hinit⟩ |
    ⟨c,p,hrecord,hsummary,hnext,hcontinue⟩ | ⟨hinit,hcontinuation,hnext,hclosing⟩
  · -- initialization: nothing came before
    have hempty := hfresh (applyInitialized_fresh hinit)
    rw [hempty] at hinit hsettled
    rw [hidle] at hinit
    obtain ⟨hresult,hnot⟩ := settled_initialized hinit
    have hclosed : closed=[] := by
      apply eq_nil_iff_forall_not_mem.mpr
      intro row hrow
      exact absurd (lt_iff_toNat_lt.mp (hsettled.rowsBelow row hrow)) (Nat.not_lt_zero _)
    have hbrings : f.objectRows=[] := by
      rw [Frame.objectRows,hrecord]
    refine ⟨fun hf => absurd hf hnot,[],[],?_,hresult,fun _ => rfl,?_⟩
    · rw [happend,hclosed,hnone hidle,hbrings]
      rfl
    · intro p hp
      rw [hnext] at hp
      cases hp
  · obtain ⟨-,q,digest,hchunk,-,hcount,rfl⟩ := applyContinuation_eq_ok hcontinue
    obtain ⟨hgathered,hone⟩ := hgroup.1.chunk hsettled.valid hchunk
    have hbrings : f.objectRows=c.chunk.objectRows := by
      rw [Frame.objectRows,hrecord]
    refine ⟨hsummary ▸ hfresh,closed,group++c.chunk.objectRows,?_,hsummary ▸ hsettled,?_,?_⟩
    · rw [happend,hbrings,append_assoc]
    · intro hempty
      rw [hnext] at hempty
      cases hempty
    · intro p hp
      rw [hnext,Option.mem_def,Option.some.injEq] at hp
      subst hp
      rw [hsummary]
      refine ⟨hgathered.congr rfl rfl rfl,?_⟩
      dsimp only
      omega
  · obtain ⟨hused,s,hclose,hsummary⟩ := applyClosing_eq_ok hclosing
    obtain ⟨hresult,htape⟩ := hsettled.close hgroup.1 hgroup.2 (closeRecord_effect hclose)
    have hbrings : f.objectRows=[] := by
      unfold Frame.objectRows
      split
      · rename_i c hrecord
        exact absurd hrecord (hcontinuation c)
      · rfl
    refine ⟨?_,closed++group,[],?_,?_,fun _ => rfl,?_⟩
    · intro hf
      rw [hsummary] at hf
      exact absurd (htape.symm.trans hf) hused
    · rw [happend,hbrings]
    · rw [hsummary]
      exact hresult.congr ⟨rfl,rfl,rfl,rfl,rfl,rfl,rfl,rfl,rfl⟩
    · intro p hp
      rw [hnext] at hp
      cases hp

theorem Ledger.run {done rest : List Frame} {fold last : Fold} (h : Ledger done fold)
    (hrest : fold.pushAll env rest=.ok last) : Ledger (done++rest) last := by
  induction rest generalizing done fold with
  | nil =>
    cases hrest
    rw [append_nil]
    exact h
  | cons f rest ih =>
    obtain ⟨next,hpush,hlater⟩ := Fold.pushAll_cons_eq_ok.mp hrest
    have hlast := ih (h.step (Fold.push_eq_ok.mp hpush).2) hlater
    rwa [append_assoc] at hlast

/-- The published extents tile the uncovered range, each at the end of its own object row. -/
theorem covered_of_pushAll {frames : List Frame} {fold : Fold}
    (h : Fold.new.pushAll env frames=.ok fold) : Covered (objectRows frames) fold.summary ∧
      (objectRows frames).Pairwise fun a b => a.tapeFileNumber < b.tapeFileNumber := by
  obtain ⟨-,closed,group,hrows,hsettled,hnone,hpending⟩ := ledger_new.run h
  rw [nil_append] at hrows
  rw [hrows]
  constructor
  · refine { hsettled.toCovered with placed := ?_ }
    intro e he
    obtain ⟨row,hrow,hextent⟩ := hsettled.placed e he
    exact ⟨row,mem_append_left _ hrow,hextent⟩
  · cases hcase : fold.pending with
    | none =>
      rw [hnone hcase,append_nil]
      exact hsettled.rowsIncreasing
    | some p => exact hsettled.rows_pairwise (hpending p hcase).1

/-- Services with a constant hash that take every text for a UTC time. -/
def parityServices : LogServices := ⟨⟨fun _ => .zero 32,fun _ _ => .zero 32⟩,fun _ => some 0⟩

def parityUuid : FixedBytes 16 := .filled 16 1

def parityObject : TapeFileEntry :=
  ⟨1,.object,1,some 2,some "o",some 0,none,none,none,none,
    some ⟨1,1,some [111],.plaintext 0 1 1 (.zero 32)⟩⟩

def parityCatalog : Bytes :=
  [0xa7,0x00,0xa7,0x00,0x61,0x6f,0x01,0xf6,0x02,0x60,0x03,0xf6,0x04,0xf6,0x05,0xf6,0x06,0xf6,
    0x01,0xac,0x00,0x61,0x6f,0x01,0x50]++parityUuid.bytes++
  [0x02,0x01,0x03,0x00,0x04,0x00,0x05,0xf6,0x06,0x60,0x07,0x60,0x08,0xf6,0x09,0xf6,0x0a,0xf6,
    0x0b,0xf6,0x02,0x1a,0x00,0x04,0x00,0x00,0x03,0x01,0x04,0xf4,0x05,0x01,0x06]++
  (parityObject.objectRecoveryRow.bind Wire.put).getD []

def parityFrame (sequence : UInt64) (record : Record) (payload : Bytes) : Frame :=
  ⟨0,0,sequence,record,payload,[],[],true⟩

def parityFrames : List Frame :=
  [parityFrame 1 (.initialized ⟨parityUuid,1,1,256*1024,some ⟨"s",2,1,1⟩,
    ⟨0,.bootstrap,1,some 0,none,none,none,none,none,none,none⟩⟩) [],
  parityFrame 2 (.sessionOpened ⟨parityUuid,1,1,⟨0,2,1⟩,"now"⟩) [],
  parityFrame 3 (.payloadContinuation ⟨3,.fileRow parityObject⟩) [],
  parityFrame 4 (.payloadContinuation ⟨3,.catalog 1 0 true⟩) parityCatalog,
  parityFrame 5 (.committed ⟨⟨3,0,2,UInt64.ofNat parityCatalog.length,0,.zero 32⟩,⟨0,4⟩,0,1,⟨7⟩,
    .originalWrite,0,2,1,parityUuid,some parityUuid,none,"now"⟩) []]

/-- The small log leaves the object's only block uncovered. -/
theorem covered_parityFrames : ∃ fold, Fold.new.pushAll parityServices parityFrames=.ok fold ∧
    fold.summary.uncovered=[⟨0,1,1,2,"now"⟩] ∧ Covered [parityObject] fold.summary := by
  have huncovered : ((fun fold => fold.summary.uncovered) <$>
      Fold.new.pushAll parityServices parityFrames)=.ok [⟨0,1,1,2,"now"⟩] := by
    decide +kernel
  obtain ⟨fold,hpush,hextents⟩ := map_eq_ok.mp huncovered
  exact ⟨fold,hpush,hextents,(covered_of_pushAll hpush).1⟩

end Remanence.TapeLog
