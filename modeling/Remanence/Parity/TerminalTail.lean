import Remanence.Parity.FileRows

/-!
# Plans of a terminal tail

Three replicas of the index are written with a separation between each two.
A plan is built forward from the first file, and an independent check repeats
its sums. The two agree on every plan.
-/

namespace Remanence.Parity

open Foundation

namespace TerminalTailComponentPlan

def follow (component : TerminalTailComponentPlan) (kind : TerminalTailComponentKind)
    (ordinal : UInt16) (recordCount : UInt64) :
    Except TerminalTailLayoutError TerminalTailComponentPlan := do
  let start ← component.expectedNextLba
  let file ← orElseError (checkedAdd64 component.plannedTapeFileNumber 1)
    (.arithmeticOverflow "terminal tape-file number")
  return ⟨kind,ordinal,file,start,recordCount⟩

def next (component : TerminalTailComponentPlan) : ℕ :=
  component.plannedStartLba.toNat+component.recordCount.toNat+1

def Adjoins (component other : TerminalTailComponentPlan) : Prop :=
  other.plannedTapeFileNumber.toNat=component.plannedTapeFileNumber.toNat+1 ∧
    other.plannedStartLba.toNat=component.next

variable {component other : TerminalTailComponentPlan}

theorem expectedNextLba_eq_ok {lba : UInt64} : component.expectedNextLba=.ok lba ↔
    lba.toNat=component.next := by
  have hone : (1 : UInt64).toNat=1 := rfl
  simp only [expectedNextLba,next,eq_ok,checkedAdd64_eq_some,hone]
  constructor
  · rintro ⟨span,hspan,hlba⟩
    omega
  · intro h
    have hlba : lba.toNat < UInt64.size := lba.toNat_lt
    have hspan : (UInt64.ofNat (component.recordCount.toNat+1)).toNat=component.recordCount.toNat+1 :=
      UInt64.toNat_ofNat_of_lt' (by omega)
    exact ⟨_,hspan.symm,by omega⟩

theorem follow_eq_ok {kind : TerminalTailComponentKind} {ordinal : UInt16} {recordCount : UInt64} :
    component.follow kind ordinal recordCount=.ok other ↔
      (other.kind=kind ∧ other.ordinal=ordinal ∧ other.recordCount=recordCount) ∧
        component.Adjoins other := by
  have hone : (1 : UInt64).toNat=1 := rfl
  simp only [follow,eq_ok,expectedNextLba_eq_ok,checkedAdd64_eq_some,hone]
  constructor
  · rintro ⟨start,hstart,file,hfile,rfl⟩
    exact ⟨⟨rfl,rfl,rfl⟩,hfile.symm,hstart⟩
  · rintro ⟨⟨rfl,rfl,rfl⟩,hfile,hstart⟩
    exact ⟨_,hstart,_,hfile.symm,rfl⟩

theorem checkAdjacent_eq_ok {index : ℕ} {u : Unit} :
    TerminalTailLayout.checkAdjacent index component other=.ok u ↔ component.Adjoins other := by
  have hone : (1 : UInt64).toNat=1 := rfl
  simp only [TerminalTailLayout.checkAdjacent,eq_ok,expectedNextLba_eq_ok,checkedAdd64_eq_some,hone,
    not_not,exists_const]
  constructor
  · rintro ⟨file,hfile,rfl,start,hstart,rfl⟩
    exact ⟨hfile.symm,hstart⟩
  · rintro ⟨hfile,hstart⟩
    exact ⟨_,hfile.symm,rfl,_,hstart,rfl⟩

end TerminalTailComponentPlan

namespace TerminalTailLayout

open TerminalTailComponentPlan

def new (partition blockSize : UInt32)
    (firstTapeFileNumber firstStartLba replicaRecords separationRecords : UInt64) :
    Except TerminalTailLayoutError TerminalTailLayout := do
  rejectIf (partition≠0) (.unsupportedPartition partition)
  rejectIf (blockSize ∉ terminalIndexBlockSizes) (.unsupportedBlockSize blockSize)
  rejectIf (replicaRecords < 2) (.invalidRecordCount .tapeIndexReplica replicaRecords 2)
  rejectIf (separationRecords < 2) (.invalidRecordCount .indexSeparationExtent separationRecords 2)
  let a : TerminalTailComponentPlan :=
    ⟨.tapeIndexReplica,1,firstTapeFileNumber,firstStartLba,replicaRecords⟩
  let ab ← a.follow .indexSeparationExtent 1 separationRecords
  let b ← ab.follow .tapeIndexReplica 2 replicaRecords
  let bc ← b.follow .indexSeparationExtent 2 separationRecords
  let c ← bc.follow .tapeIndexReplica 3 replicaRecords
  let expectedEodLba ← c.expectedNextLba
  let layout : TerminalTailLayout := ⟨partition,blockSize,[a,ab,b,bc,c],rfl,expectedEodLba⟩
  layout.validate
  return layout

theorem checkUniform_eq_ok {expected : UInt64} {component : TerminalTailComponentPlan} {u : Unit} :
    checkUniform expected component=.ok u ↔ component.recordCount=expected := by
  rw [checkUniform,rejectIf_eq_ok,not_not]

section

variable {partition blockSize : UInt32} {a ab b bc c : TerminalTailComponentPlan} {eod : UInt64}

theorem validate_eq_ok {u : Unit} :
    (⟨partition,blockSize,[a,ab,b,bc,c],rfl,eod⟩ : TerminalTailLayout).validate=.ok u ↔
      (partition=0 ∧ blockSize ∈ terminalIndexBlockSizes) ∧
      ([a,ab,b,bc,c].map fun component => (component.kind,component.ordinal))=expectedOrder ∧
      (∀ component ∈ [a,ab,b,bc,c], 2 ≤ component.recordCount) ∧
      (b.recordCount=a.recordCount ∧ c.recordCount=a.recordCount ∧ bc.recordCount=ab.recordCount) ∧
      (a.Adjoins ab ∧ ab.Adjoins b ∧ b.Adjoins bc ∧ bc.Adjoins c) ∧ eod.toNat=c.next := by
  simp only [validate,checkComponents,expectedOrder,eq_ok,checkAdjacent_eq_ok,checkUniform_eq_ok,
    expectedNextLba_eq_ok,not_not,not_or,exists_const,List.map_cons,List.map_nil,List.cons.injEq,
    Prod.mk.injEq,List.forall_mem_cons,UInt64.not_lt,and_true]
  constructor
  · rintro ⟨hpartition,hsize,⟨ha,hra,haab,hab,hrab,habb,hb,hrb,hbbc,hbc,hrbc,hbcc,hc,hrc⟩,hthird,hfifth,
      hfourth,eod,heod,rfl⟩
    exact ⟨⟨hpartition,hsize⟩,⟨ha,hab,hb,hbc,hc⟩,⟨hra,hrab,hrb,hrbc,hrc,List.forall_mem_nil _⟩,
      ⟨hthird,hfifth,hfourth⟩,⟨haab,habb,hbbc,hbcc⟩,heod⟩
  · rintro ⟨⟨hpartition,hsize⟩,⟨ha,hab,hb,hbc,hc⟩,⟨hra,hrab,hrb,hrbc,hrc,-⟩,⟨hthird,hfifth,hfourth⟩,
      ⟨haab,habb,hbbc,hbcc⟩,heod⟩
    exact ⟨hpartition,hsize,⟨ha,hra,haab,hab,hrab,habb,hb,hrb,hbbc,hbc,hrbc,hbcc,hc,hrc⟩,hthird,hfifth,
      hfourth,eod,heod,rfl⟩

end

variable {partition blockSize : UInt32} {file start replicas separations : UInt64}

theorem new_eq_ok {layout : TerminalTailLayout} :
    new partition blockSize file start replicas separations=.ok layout ↔
      layout.validate=.ok () ∧ layout.partition=partition ∧ layout.blockSize=blockSize ∧
        (layout.component 0).plannedTapeFileNumber=file ∧
        (layout.component 0).plannedStartLba=start ∧ (layout.component 0).recordCount=replicas ∧
        (layout.component 1).recordCount=separations := by
  constructor
  · intro h
    simp only [new,eq_ok,follow_eq_ok,exists_const] at h
    obtain ⟨-,-,-,-,ab,⟨⟨-,-,hab⟩,-⟩,b,-,bc,-,c,-,eod,-,⟨⟩,hvalid,rfl⟩ := h
    exact ⟨hvalid,rfl,rfl,rfl,rfl,rfl,hab⟩
  · obtain ⟨partition,blockSize,components,hlength,eod⟩ := layout
    obtain ⟨⟨kind,ordinal,file,start,records⟩,ab,b,bc,c,rfl⟩ := exists_of_length_five hlength
    rintro ⟨hvalid,rfl,rfl,rfl,rfl,rfl,rfl⟩
    obtain ⟨⟨hpartition,hsize⟩,horder,hrecords,⟨hb,hc,hbc⟩,⟨haab,habb,hbbc,hbcc⟩,heod⟩ :=
      validate_eq_ok.mp hvalid
    simp only [expectedOrder,List.map_cons,List.map_nil,List.cons.injEq,Prod.mk.injEq,
      List.forall_mem_cons] at horder hrecords
    obtain ⟨⟨rfl,rfl⟩,⟨hkab,hoab⟩,⟨hkb,hob⟩,⟨hkbc,hobc⟩,⟨hkc,hoc⟩,-⟩ := horder
    simp only [new,eq_ok,follow_eq_ok,not_not,UInt64.not_lt,exists_const]
    exact ⟨hpartition,hsize,hrecords.1,hrecords.2.1,ab,⟨⟨hkab,hoab,rfl⟩,haab⟩,b,⟨⟨hkb,hob,hb⟩,habb⟩,bc,
      ⟨⟨hkbc,hobc,hbc⟩,hbbc⟩,c,⟨⟨hkc,hoc,hc⟩,hbcc⟩,eod,expectedNextLba_eq_ok.mpr heod,(),hvalid,rfl⟩

theorem exists_new : (∃ layout, new partition blockSize file start replicas separations=.ok layout) ↔
    partition=0 ∧ blockSize ∈ terminalIndexBlockSizes ∧ 2 ≤ replicas ∧ 2 ≤ separations ∧
      file.toNat+4 < 2^64 ∧ start.toNat+3*(replicas.toNat+1)+2*(separations.toNat+1) < 2^64 := by
  constructor
  · rintro ⟨⟨partition,blockSize,components,hlength,eod⟩,h⟩
    obtain ⟨hvalid,rfl,rfl,rfl,rfl,rfl,rfl⟩ := new_eq_ok.mp h
    obtain ⟨a,ab,b,bc,c,rfl⟩ := exists_of_length_five hlength
    obtain ⟨⟨hpartition,hsize⟩,-,hrecords,⟨hb,hc,hbc⟩,⟨haab,habb,hbbc,hbcc⟩,heod⟩ :=
      validate_eq_ok.mp hvalid
    simp only [Adjoins,next,hb,hc,hbc] at haab habb hbbc hbcc heod
    have hfile := c.plannedTapeFileNumber.toNat_lt
    have hend := eod.toNat_lt
    exact ⟨hpartition,hsize,hrecords a (by simp),hrecords ab (by simp),
      show a.plannedTapeFileNumber.toNat+4 < 2^64 by omega,
      show a.plannedStartLba.toNat+3*(a.recordCount.toNat+1)+2*(ab.recordCount.toNat+1) < 2^64 by omega⟩
  · rintro ⟨hpartition,hsize,hreplicas,hseparations,hfile,hstart⟩
    refine ⟨⟨partition,blockSize,[⟨.tapeIndexReplica,1,file,start,replicas⟩,
      ⟨.indexSeparationExtent,1,file+1,start+replicas+1,separations⟩,
      ⟨.tapeIndexReplica,2,file+2,start+replicas+separations+2,replicas⟩,
      ⟨.indexSeparationExtent,2,file+3,start+2*replicas+separations+3,separations⟩,
      ⟨.tapeIndexReplica,3,file+4,start+2*replicas+2*separations+4,replicas⟩],rfl,
      start+3*replicas+2*separations+5⟩,new_eq_ok.mpr ⟨validate_eq_ok.mpr ⟨⟨hpartition,hsize⟩,rfl,
        by simp [hreplicas,hseparations],⟨rfl,rfl,rfl⟩,?_⟩,rfl,rfl,rfl,rfl,rfl,rfl⟩⟩
    simp only [Adjoins,next,UInt64.toNat_add,UInt64.toNat_mul,UInt64.reduceToNat]
    omega

/-- Plans are accepted, every accepted plan is the one built from its own arguments, and arguments
are refused only if they are out of range or a position is. -/
theorem new_sound_and_complete :
    (∀ partition blockSize file start replicas separations layout,
      new partition blockSize file start replicas separations=.ok layout → layout.validate=.ok ()) ∧
    (∀ layout : TerminalTailLayout, layout.validate=.ok () →
      new layout.partition layout.blockSize (layout.component 0).plannedTapeFileNumber
        (layout.component 0).plannedStartLba (layout.component 0).recordCount
        (layout.component 1).recordCount=.ok layout) ∧
    ∀ partition blockSize file start replicas separations error,
      new partition blockSize file start replicas separations=.error error →
        partition≠0 ∨ blockSize ∉ terminalIndexBlockSizes ∨ replicas < 2 ∨ separations < 2 ∨
          2^64 ≤ file.toNat+4 ∨ 2^64 ≤ start.toNat+3*(replicas.toNat+1)+2*(separations.toNat+1) := by
  refine ⟨fun _ _ _ _ _ _ _ h => (new_eq_ok.mp h).1,
    fun _ h => new_eq_ok.mpr ⟨h,rfl,rfl,rfl,rfl,rfl,rfl⟩,?_⟩
  intro partition blockSize file start replicas separations error h
  by_contra hnone
  simp only [not_or,not_not,UInt64.not_lt,not_le,ne_eq] at hnone
  obtain ⟨layout,hlayout⟩ := exists_new.mpr hnone
  cases h.symm.trans hlayout

theorem new_sound_and_complete_two : ∃ layout, new 0 262144 7 40 2 3=.ok layout ∧
    layout.validate=.ok () := by
  obtain ⟨layout,h⟩ := exists_of_isOk (show (new 0 262144 7 40 2 3).isOk=true by decide +kernel)
  exact ⟨layout,h,new_sound_and_complete.1 _ _ _ _ _ _ _ h⟩

end TerminalTailLayout

end Remanence.Parity
