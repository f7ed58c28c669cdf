import Remanence.Append.Ring
import Mathlib.Algebra.BigOperators.Group.List.Basic
import Mathlib.Tactic.Ring

/-!
# Deadlocks of the append ring

While the tape side is paused it keeps the slot of the slab read last, so the producer can fill
all slabs but one. The ring is free of deadlocks exactly if the high watermark leaves a slab
free, or the object ends before the ring is exhausted.
-/

namespace Remanence.Append

open Foundation Relation List ProducerPhase
open Option (getD_some mem_def toList_some map_some toList_none)

structure AppendRing.WellFormed (ring : AppendRing) : Prop where
  slab_pos : 0 < ring.slabBytes
  count_pos : 0 < ring.slabCount
  low_lt_high : ring.lowBytes < ring.highBytes
  high_le_capacity : ring.highBytes ≤ ring.slabCount*ring.slabBytes
  high_le_declared : ring.highBytes ≤ max ring.declaredSizeBytes 1

theorem roundedSize_pos (declaredSizeBytes : ℕ) : 0 < roundedSize declaredSizeBytes := by
  have hslab : appendRingSlabBytes=1048576 := rfl
  have hmax : wordMax=18446744073709551615 := rfl
  have hone : 1 ≤ (max declaredSizeBytes 1+(appendRingSlabBytes-1))/appendRingSlabBytes := by
    rw [Nat.one_le_div_iff (by omega)]
    omega
  unfold roundedSize
  dsimp only
  generalize (max declaredSizeBytes 1+(appendRingSlabBytes-1))/appendRingSlabBytes=slabs at hone ⊢
  have hproduct : appendRingSlabBytes ≤ slabs*appendRingSlabBytes := Nat.le_mul_of_pos_left _ hone
  omega

variable {ring : AppendRing}

theorem createAppendRing_wellFormed {settings : RingSettings} {memory : IoMemory} {declared : ℕ}
    (hsettings : validateRingSettings settings=.ok ())
    (hring : createAppendRing memory settings.appendRingBytes settings.appendRingHighPct
      settings.appendRingLowPct declared=.ok ring) : ring.WellFormed := by
  simp only [validateRingSettings,eq_ok] at hsettings
  obtain ⟨_,hbytes,_,-,_,-,hpct⟩ := hsettings
  simp only [createAppendRing,eq_ok] at hring
  obtain ⟨_,-,_,-,hring⟩ := hring
  cases hring
  have hslab : appendRingSlabBytes=1048576 := rfl
  have hrounded := roundedSize_pos declared
  set capacity := min settings.appendRingBytes (roundedSize declared)
  set slab := min capacity appendRingSlabBytes
  have hslabPos : 0 < slab := by omega
  have hcount : 0 < capacity/slab := Nat.div_pos (by omega) hslabPos
  have hmark : watermark (capacity/slab*slab) settings.appendRingHighPct ≤ capacity/slab*slab := by
    refine le_trans (Nat.min_le_left _ _) ?_
    have hle : capacity/slab*slab*settings.appendRingHighPct ≤ capacity/slab*slab*100 :=
      Nat.mul_le_mul_left _ (by omega)
    omega
  have hcapacityPos := Nat.mul_pos hcount hslabPos
  have hmax : max (capacity/slab) 1=capacity/slab := by omega
  refine ⟨hslabPos,?_,?_,?_,?_⟩
  · change 0 < max (capacity/slab) 1
    omega
  · change min _ (max _ 1-1) < max _ 1
    omega
  · change max (min _ declared) 1 ≤ max (capacity/slab) 1*slab
    rw [hmax]
    omega
  · change max (min _ declared) 1 ≤ max declared 1
    omega

def slabsOf : List RingMessage → List ℕ
  | [] => []
  | .data bytes::rest => bytes::slabsOf rest
  | .complete::rest => slabsOf rest

@[simp]
theorem slabsOf_append (left right : List RingMessage) :
    slabsOf (left++right)=slabsOf left++slabsOf right := by
  induction left with
  | nil => rfl
  | cons message rest ih => cases message <;> simp [slabsOf,ih]

def ProducerPhase.inFlight : ProducerPhase → List ℕ
  | .sending bytes _ => [bytes]
  | _ => []

def RingState.queued (state : RingState) : List ℕ :=
  slabsOf state.channel++(state.producer.inFlight++state.held.toList)

def RingState.offset (state : RingState) : ℕ := (state.current.map Prod.snd).getD 0

def RingState.unread (state : RingState) : ℕ := (state.current.map fun slab => slab.1-slab.2).getD 0

/-- While the producer pushes, everything that has been sent is full. -/
structure Pushing (ring : AppendRing) (state : RingState) : Prop where
  channel : ∀ message ∈ state.channel, message=.data ring.slabBytes
  current : ∀ slab ∈ state.current, slab.1=ring.slabBytes
  recycled : ∃ count, state.recycled=count*ring.slabBytes
  complete : state.complete=false

/-- Before the completion message is sent. -/
structure Finishing (ring : AppendRing) (state : RingState) : Prop where
  pushed : state.pushed=ring.declaredSizeBytes
  held : state.held=none
  channel : (slabsOf state.channel).length=state.channel.length
  complete : state.complete=false

def ProducerOk (ring : AppendRing) (state : RingState) : Prop :=
  match state.producer with
  | .ready => Pushing ring state ∧ ∀ filled ∈ state.held, filled ≤ ring.slabBytes
  | .acquiring => Pushing ring state ∧ state.held=none ∧ state.pushed < ring.declaredSizeBytes
  | .sending bytes false => Pushing ring state ∧ state.held=none ∧ bytes=ring.slabBytes ∧
    state.pushed < ring.declaredSizeBytes
  | .sending _ true | .completing => Finishing ring state
  | .closing | .done => state.held=none

def TapeOk (ring : AppendRing) (state : RingState) : Prop :=
  match state.tape with
  | .prefill => state.current=none ∧ state.recycled=0 ∧ state.complete=false
  | .idle => (ring.highBytes ≤ state.pushed ∨ state.producerFinished=true) ∧
    (state.current=none → state.recycled=0 ∨ state.complete=true)
  | .reading output => (ring.highBytes ≤ state.pushed ∨ state.producerFinished=true) ∧ 0 < output
  | .paused => (ring.highBytes ≤ state.recycled+state.offset+ring.lowBytes ∨
      state.producerFinished=true) ∧ (state.current=none → state.recycled=0 ∨ state.complete=true) ∧
      (ring.highBytes ≤ state.pushed ∨ state.producerFinished=true)

structure RingInv (ring : AppendRing) (state : RingState) : Prop where
  slots : state.freeSlots+state.queued.length+state.current.toList.length=ring.slabCount
  occupancy : state.occupancyBytes=state.queued.sum+state.unread
  pushed : state.pushed=state.occupancyBytes+state.recycled+state.offset
  bound : state.pushed ≤ ring.declaredSizeBytes
  offset : ∀ slab ∈ state.current, slab.2 ≤ slab.1
  empty : ring.declaredSizeBytes=0 → state.queued=[]
  finished : state.producerFinished=true → state.producer=.done
  producer : ProducerOk ring state
  tape : TapeOk ring state

theorem ringInv_initial (ring : AppendRing) : RingInv ring ring.initial where
  slots := rfl
  occupancy := rfl
  pushed := rfl
  bound := Nat.zero_le _
  offset := fun slab hslab => by cases hslab
  empty := fun _ => rfl
  finished := fun h => by cases h
  producer := by
    have hrecycled : ring.initial.recycled=0*ring.slabBytes := (zero_mul _).symm
    exact ⟨⟨by simp [AppendRing.initial],by simp [AppendRing.initial],⟨0,hrecycled⟩,rfl⟩,
      by simp [AppendRing.initial]⟩
  tape := ⟨rfl,rfl,rfl⟩

variable {state after : RingState}

theorem TapeOk.of_producer (h : TapeOk ring state) (htape : after.tape=state.tape)
    (hcurrent : after.current=state.current) (hrecycled : after.recycled=state.recycled)
    (hcomplete : after.complete=state.complete) (hpushed : state.pushed ≤ after.pushed)
    (hfinished : state.producerFinished=true → after.producerFinished=true) :
    TapeOk ring after := by
  have hreached : ring.highBytes ≤ state.pushed ∨ state.producerFinished=true →
      ring.highBytes ≤ after.pushed ∨ after.producerFinished=true :=
    Or.imp (fun hle => le_trans hle hpushed) hfinished
  have hoffset : after.offset=state.offset := by rw [RingState.offset,RingState.offset,hcurrent]
  unfold TapeOk at h ⊢
  rw [htape,hcurrent,hrecycled,hcomplete,hoffset]
  cases hphase : state.tape <;> rw [hphase] at h
  case prefill => exact h
  case idle => exact ⟨hreached h.1,h.2⟩
  case reading => exact ⟨hreached h.1,h.2⟩
  case paused => exact ⟨h.1.imp_right hfinished,h.2.1,hreached h.2.2⟩

theorem Pushing.of_eq (h : Pushing ring state) (hchannel : after.channel=state.channel)
    (hcurrent : after.current=state.current) (hrecycled : after.recycled=state.recycled)
    (hcomplete : after.complete=state.complete) : Pushing ring after :=
  ⟨by rw [hchannel]; exact h.channel,by rw [hcurrent]; exact h.current,
    by rw [hrecycled]; exact h.recycled,by rw [hcomplete]; exact h.complete⟩

theorem Pushing.slabsOf_channel (h : Pushing ring state) :
    slabsOf state.channel=replicate state.channel.length ring.slabBytes := by
  have hall := h.channel
  generalize state.channel=channel at hall
  induction channel with
  | nil => rfl
  | cons message rest ih =>
    obtain ⟨rfl,hrest⟩ := forall_mem_cons.mp hall
    rw [slabsOf,ih hrest,length_cons,replicate_succ]

/-- A step of the producer adds as many bytes to the occupancy as it pushes. -/
structure ProducerMove (state after : RingState) (gained : ℕ) : Prop where
  tape : after.tape=state.tape
  current : after.current=state.current
  recycled : after.recycled=state.recycled
  complete : after.complete=state.complete
  slots : after.freeSlots+after.queued.length=state.freeSlots+state.queued.length
  pushed : after.pushed=state.pushed+gained
  occupancy : after.occupancyBytes=state.occupancyBytes+gained
  sum : after.queued.sum=state.queued.sum+gained

variable {phase : ProducerPhase}

theorem RingInv.not_finished (h : RingInv ring state) (hphase : state.producer=phase)
    (hopen : phase≠.done) : state.producerFinished≠true :=
  fun hfinished => hopen (hphase.symm.trans (h.finished hfinished))

theorem RingInv.of_move (h : RingInv ring state) (hphase : state.producer=phase)
    (hopen : phase≠.done) (gained : ℕ) (hmove : ProducerMove state after gained)
    (hbound : after.pushed ≤ ring.declaredSizeBytes)
    (hempty : ring.declaredSizeBytes=0 → after.queued=[])
    (hfinished : after.producerFinished=true → state.producerFinished=true ∨ after.producer=.done)
    (hproducer : ProducerOk ring after) : RingInv ring after := by
  have hunread : after.unread=state.unread := by rw [RingState.unread,RingState.unread,hmove.current]
  have hoffset : after.offset=state.offset := by rw [RingState.offset,RingState.offset,hmove.current]
  have hslots := h.slots
  have hoccupancy := h.occupancy
  have hpushed := h.pushed
  have hnot := h.not_finished hphase hopen
  refine ⟨?_,?_,?_,hbound,?_,hempty,fun hend => (hfinished hend).resolve_left hnot,hproducer,?_⟩
  · rw [hmove.current,hmove.slots]
    exact hslots
  · rw [hmove.occupancy,hmove.sum,hunread]
    omega
  · rw [hmove.pushed,hmove.occupancy,hmove.recycled,hoffset]
    omega
  · rw [hmove.current]
    exact h.offset
  · refine h.tape.of_producer hmove.tape hmove.current hmove.recycled hmove.complete ?_
      fun hdone => absurd hdone hnot
    rw [hmove.pushed]
    exact Nat.le_add_right _ _

theorem RingInv.of_handing (h : RingInv ring state) (hphase : state.producer=phase)
    (hopen : phase≠.done) (hsame : after.tape=state.tape ∧ after.current=state.current ∧ after.recycled=state.recycled ∧
      after.complete=state.complete ∧ after.freeSlots=state.freeSlots ∧ after.pushed=state.pushed ∧
      after.occupancyBytes=state.occupancyBytes)
    (hqueued : after.queued=state.queued)
    (hfinished : after.producerFinished=true → state.producerFinished=true ∨ after.producer=.done)
    (hproducer : ProducerOk ring after) : RingInv ring after := by
  obtain ⟨htape,hcurrent,hrecycled,hcomplete,hfree,hpushed,hoccupancy⟩ := hsame
  refine h.of_move hphase hopen 0 ⟨htape,hcurrent,hrecycled,hcomplete,?_,hpushed,hoccupancy,?_⟩ ?_ ?_
    hfinished hproducer
  · rw [hfree,hqueued]
  · rw [hqueued,add_zero]
  · rw [hpushed]
    exact h.bound
  · rw [hqueued]
    exact h.empty

theorem length_slabsOf_le (channel : List RingMessage) : (slabsOf channel).length ≤ channel.length := by
  induction channel with
  | nil => exact Nat.le_refl 0
  | cons message rest ih =>
    cases message with
    | data bytes => exact Nat.succ_le_succ ih
    | complete => exact Nat.le_succ_of_le ih

theorem ProducerOk.of_reader (h : ProducerOk ring state) (hphase : after.producer=state.producer)
    (hheld : after.held=state.held) (hpushed : after.pushed=state.pushed)
    (hpushing : Pushing ring state → Pushing ring after)
    (hfinishing : Finishing ring state → Finishing ring after) : ProducerOk ring after := by
  unfold ProducerOk at h ⊢
  rw [hphase,hheld,hpushed]
  cases hproducer : state.producer <;> rw [hproducer] at h
  case ready => exact ⟨hpushing h.1,h.2⟩
  case acquiring => exact ⟨hpushing h.1,h.2⟩
  case sending bytes last =>
    cases last with
    | false => exact ⟨hpushing h.1,h.2⟩
    | true => exact hfinishing h
  case completing => exact hfinishing h
  case closing => exact h
  case done => exact h

theorem RingInv.of_tape (h : RingInv ring state) (phase : TapePhase)
    (htape : TapeOk ring { state with tape := phase }) :
    RingInv ring { state with tape := phase } :=
  ⟨h.slots,h.occupancy,h.pushed,h.bound,h.offset,h.empty,h.finished,
    h.producer.of_reader rfl rfl rfl (fun hpushing => hpushing.of_eq rfl rfl rfl rfl)
      (fun hfinishing => ⟨hfinishing.1,hfinishing.2,hfinishing.3,hfinishing.4⟩),htape⟩

variable {output bytes : ℕ}

section

variable (h : RingInv ring state) (hphase : state.tape=.reading output)
include h hphase

theorem RingInv.take {offset : ℕ} (hcurrent : state.current=some (bytes,offset)) :
    RingInv ring { state with
      current := some (bytes,offset+min output (bytes-offset))
      occupancyBytes := state.occupancyBytes-min output (bytes-offset)
      tape := .idle } := by
  have hle := h.offset _ (mem_def.mpr hcurrent)
  have hoccupancy := h.occupancy
  have hpushed := h.pushed
  have htape := h.tape
  simp only [RingState.unread,RingState.offset,hcurrent,map_some,getD_some] at hoccupancy hpushed hle
  refine ⟨?_,?_,?_,h.bound,?_,h.empty,h.finished,?_,?_⟩
  · have hslots := h.slots
    rwa [hcurrent] at hslots
  · change state.occupancyBytes-min output (bytes-offset)=
      state.queued.sum+(bytes-(offset+min output (bytes-offset)))
    omega
  · change state.pushed=state.occupancyBytes-min output (bytes-offset)+state.recycled+
      (offset+min output (bytes-offset))
    omega
  · intro slab hslab
    cases hslab
    omega
  · refine h.producer.of_reader rfl rfl rfl (fun hpushing => ?_)
      (fun hfinishing => ⟨hfinishing.1,hfinishing.2,hfinishing.3,hfinishing.4⟩)
    refine ⟨hpushing.1,fun slab hslab => ?_,hpushing.3,hpushing.4⟩
    cases hslab
    exact hpushing.current (bytes,offset) (mem_def.mpr hcurrent)
  · rw [TapeOk,hphase] at htape
    exact ⟨htape.1,fun hnone => by cases hnone⟩

theorem RingInv.recycle {offset : ℕ} (hcurrent : state.current=some (bytes,offset))
    (hexhausted : bytes ≤ offset) :
    RingInv ring { state with
      current := none
      freeSlots := state.freeSlots+1
      recycled := state.recycled+bytes } := by
  have hle := h.offset _ (mem_def.mpr hcurrent)
  have hslots := h.slots
  have hoccupancy := h.occupancy
  have hpushed := h.pushed
  have htape := h.tape
  simp only [RingState.unread,RingState.offset,hcurrent,map_some,getD_some,
    toList_some,length_singleton] at hslots hoccupancy hpushed hle
  refine ⟨?_,?_,?_,h.bound,fun slab hslab => (by cases hslab),h.empty,h.finished,?_,?_⟩
  · change state.freeSlots+1+state.queued.length+0=ring.slabCount
    omega
  · change state.occupancyBytes=state.queued.sum+0
    omega
  · change state.pushed=state.occupancyBytes+(state.recycled+bytes)+0
    omega
  · refine h.producer.of_reader rfl rfl rfl (fun hpushing => ?_)
      (fun hfinishing => ⟨hfinishing.1,hfinishing.2,hfinishing.3,hfinishing.4⟩)
    obtain ⟨count,hcount⟩ := hpushing.recycled
    have hfull : bytes=ring.slabBytes := hpushing.current (bytes,offset) (mem_def.mpr hcurrent)
    have hnext : state.recycled+bytes=(count+1)*ring.slabBytes := by
      rw [hcount,hfull,add_mul,one_mul]
    exact ⟨hpushing.1,fun slab hslab => (by cases hslab),⟨count+1,hnext⟩,hpushing.4⟩
  · simp only [TapeOk,hphase] at htape ⊢
    exact htape

theorem RingInv.receiveData {rest : List RingMessage} (hcurrent : state.current=none)
    (hchannel : state.channel=.data bytes::rest) :
    RingInv ring { state with current := some (bytes,0), channel := rest } := by
  have hqueued : state.queued=
      bytes::RingState.queued { state with current := some (bytes,0), channel := rest } := by
    simp [RingState.queued,hchannel,slabsOf]
  have hslots := h.slots
  have hoccupancy := h.occupancy
  have hpushed := h.pushed
  have htape := h.tape
  simp only [RingState.unread,RingState.offset,hcurrent,Option.map_none,Option.getD_none,hqueued,
    toList_none,length_nil,length_cons,sum_cons] at hslots hoccupancy hpushed
  refine ⟨?_,?_,?_,h.bound,?_,?_,h.finished,?_,?_⟩
  · change state.freeSlots+_+1=ring.slabCount
    omega
  · change state.occupancyBytes=_+(bytes-0)
    omega
  · change state.pushed=state.occupancyBytes+state.recycled+0
    omega
  · intro slab hslab
    cases hslab
    exact Nat.zero_le _
  · intro hzero
    have hnil := h.empty hzero
    rw [hqueued] at hnil
    cases hnil
  · refine h.producer.of_reader rfl rfl rfl (fun hpushing => ?_) (fun hfinishing => ?_)
    · have hall := hpushing.channel
      rw [hchannel] at hall
      obtain ⟨hfirst,hrest⟩ := forall_mem_cons.mp hall
      refine ⟨hrest,fun slab hslab => ?_,hpushing.3,hpushing.4⟩
      cases hslab
      exact RingMessage.data.inj hfirst
    · have hall := hfinishing.channel
      rw [hchannel,slabsOf,length_cons,length_cons] at hall
      exact ⟨hfinishing.1,hfinishing.2,Nat.succ.inj hall,hfinishing.4⟩
  · simp only [TapeOk,hphase] at htape ⊢
    exact htape

theorem RingInv.receiveComplete {rest : List RingMessage}
    (hchannel : state.channel=.complete::rest) :
    RingInv ring { state with complete := true, channel := rest } := by
  have hqueued : RingState.queued { state with complete := true, channel := rest }=state.queued := by
    simp [RingState.queued,hchannel,slabsOf]
  have htape := h.tape
  refine ⟨by rw [hqueued]; exact h.slots,by rw [hqueued]; exact h.occupancy,h.pushed,h.bound,h.offset,
    by rw [hqueued]; exact h.empty,h.finished,?_,?_⟩
  · refine h.producer.of_reader rfl rfl rfl (fun hpushing => ?_) (fun hfinishing => ?_)
    · have hall := hpushing.channel
      rw [hchannel] at hall
      cases (forall_mem_cons.mp hall).1
    · have hall := hfinishing.channel
      have hle := length_slabsOf_le rest
      rw [hchannel,slabsOf,length_cons] at hall
      omega
  · simp only [TapeOk,hphase] at htape ⊢
    exact htape

end

theorem RingInv.step (h : RingInv ring state) (hstep : RingStep ring state after) :
    RingInv ring after := by
  have hproducer := h.producer
  have htape := h.tape
  unfold ProducerOk at hproducer
  unfold TapeOk at htape
  cases hstep with
  | sendFull hphase hmore hheld =>
    rw [hphase] at hproducer
    refine h.of_handing hphase nofun ⟨rfl,rfl,rfl,rfl,rfl,rfl,rfl⟩ ?_ .inl
      ⟨hproducer.1.of_eq rfl rfl rfl rfl,rfl,rfl,hmore⟩
    simp [RingState.queued,inFlight,hphase,hheld]
  | needSlab hphase hmore hheld =>
    rw [hphase] at hproducer
    refine h.of_handing hphase nofun ⟨rfl,rfl,rfl,rfl,rfl,rfl,rfl⟩ ?_ .inl
      ⟨hproducer.1.of_eq rfl rfl rfl rfl,hheld,hmore⟩
    simp [RingState.queued,inFlight,hphase]
  | acquire hphase hfree =>
    rw [hphase] at hproducer
    obtain ⟨hpushing,hheld,hmore⟩ := hproducer
    refine h.of_move hphase nofun 0 ⟨rfl,rfl,rfl,rfl,?_,rfl,rfl,?_⟩ h.bound (fun hzero => ?_)
      .inl ⟨hpushing.of_eq rfl rfl rfl rfl,fun filled hfilled => ?_⟩
    · simp [RingState.queued,inFlight,hphase,hheld,hfree]
      omega
    · simp [RingState.queued,inFlight,hphase,hheld]
    · omega
    · cases hfilled
      exact Nat.zero_le _
  | fill take hphase hheld hpositive hroom hdeclared =>
    rw [hphase] at hproducer
    refine h.of_move hphase nofun take ⟨rfl,rfl,rfl,rfl,?_,rfl,rfl,?_⟩ hdeclared (fun hzero => ?_)
      .inl ?_
    · simp [RingState.queued,hheld]
    · simp [RingState.queued,hheld]
      omega
    · omega
    · simp only [ProducerOk,hphase]
      refine ⟨hproducer.1.of_eq rfl rfl rfl rfl,fun filled hfilled => ?_⟩
      cases hfilled
      exact hroom
  | finishHeld hphase hall hheld =>
    rw [hphase] at hproducer
    have hslabs := hproducer.1.slabsOf_channel
    refine h.of_handing hphase nofun ⟨rfl,rfl,rfl,rfl,rfl,rfl,rfl⟩ ?_ .inl
      ⟨hall,rfl,by rw [hslabs,length_replicate],hproducer.1.complete⟩
    simp [RingState.queued,inFlight,hphase,hheld]
  | finishEmpty hphase hall hheld =>
    rw [hphase] at hproducer
    have hslabs := hproducer.1.slabsOf_channel
    refine h.of_handing hphase nofun ⟨rfl,rfl,rfl,rfl,rfl,rfl,rfl⟩ ?_ .inl
      ⟨hall,hheld,by rw [hslabs,length_replicate],hproducer.1.complete⟩
    simp [RingState.queued,inFlight,hphase]
  | @deliver bytes last hphase hspace =>
    rw [hphase] at hproducer
    refine h.of_handing hphase nofun ⟨rfl,rfl,rfl,rfl,rfl,rfl,rfl⟩ ?_ .inl ?_
    · cases last <;> simp [RingState.queued,inFlight,hphase,slabsOf]
    · cases last with
      | false =>
        obtain ⟨hpushing,hheld,rfl,hmore⟩ := hproducer
        refine ⟨⟨?_,hpushing.2,hpushing.3,hpushing.4⟩,hheld,hmore⟩
        exact forall_mem_append.mpr ⟨hpushing.channel,forall_mem_singleton.mpr rfl⟩
      | true =>
        refine ⟨hproducer.1,hproducer.2,?_,hproducer.4⟩
        rw [slabsOf_append,length_append,length_append,hproducer.3]
        rfl
  | deliverComplete hphase hspace =>
    rw [hphase] at hproducer
    refine h.of_handing hphase nofun ⟨rfl,rfl,rfl,rfl,rfl,rfl,rfl⟩ ?_ .inl
      hproducer.held
    simp [RingState.queued,inFlight,hphase,slabsOf]
  | finish hphase =>
    rw [hphase] at hproducer
    refine h.of_handing hphase nofun ⟨rfl,rfl,rfl,rfl,rfl,rfl,rfl⟩ ?_ (fun _ => .inr rfl) hproducer
    simp [RingState.queued,inFlight,hphase]
  | start hphase hfilled =>
    rw [hphase] at htape
    refine h.of_tape .idle ⟨?_,fun _ => .inl htape.2.1⟩
    exact hfilled.imp_left fun hle => le_trans hle (by rw [h.pushed]; omega)
  | call output hphase hpositive =>
    rw [hphase] at htape
    exact h.of_tape (.reading output) ⟨htape.1,hpositive⟩
  | take hphase hcurrent havailable => exact h.take hphase hcurrent
  | recycle hphase hcurrent hexhausted => exact h.recycle hphase hcurrent hexhausted
  | receiveData hphase hcurrent hopen hchannel => exact h.receiveData hphase hcurrent hchannel
  | receiveComplete hphase hcurrent hopen hchannel => exact h.receiveComplete hphase hchannel
  | endOfData hphase hcurrent hcomplete =>
    rw [hphase] at htape
    exact h.of_tape .idle ⟨htape.1,fun _ => .inr hcomplete⟩
  | pause hphase hlow =>
    rw [hphase] at htape
    refine h.of_tape .paused ⟨?_,htape.2,htape.1⟩
    refine htape.1.imp_left fun hle => ?_
    have hpushed := h.pushed
    have hlow := hlow.2
    change ring.highBytes ≤ state.recycled+state.offset+ring.lowBytes
    omega
  | resume hphase hfilled =>
    rw [hphase] at htape
    exact h.of_tape .idle ⟨htape.2.2,htape.2.1⟩

theorem RingInv.of_reachable (h : ring.Reachable state) : RingInv ring state := by
  induction h with
  | refl => exact ringInv_initial ring
  | tail _ hstep ih => exact ih.step hstep

/-- Slabs to finish before the occupancy falls from the high to the low watermark. -/
def AppendRing.pauseSlabs (ring : AppendRing) : ℕ :=
  (ring.highBytes-ring.lowBytes+(ring.slabBytes-1))/ring.slabBytes

/-- The watermark leaves a slab free, or the object ends before the ring can be exhausted in a pause. -/
def AppendRing.Safe (ring : AppendRing) : Prop :=
  ring.highBytes ≤ (ring.slabCount-1)*ring.slabBytes ∨
    ring.declaredSizeBytes ≤ (ring.slabCount-1+ring.pauseSlabs)*ring.slabBytes

theorem AppendRing.WellFormed.pauseSlabs_le_iff (hring : ring.WellFormed) (count : ℕ) :
    ring.pauseSlabs ≤ count ↔ ring.highBytes-ring.lowBytes ≤ count*ring.slabBytes := by
  have hslab := hring.slab_pos
  unfold AppendRing.pauseSlabs
  rw [Nat.div_le_iff_le_mul_add_pred hslab,mul_comm]
  omega

/-- A producer that waits for a slot has filled all slabs but the one the reader keeps. -/
theorem RingInv.acquiring (h : RingInv ring state) (hphase : state.producer=.acquiring)
    (hslots : state.freeSlots=0) :
    state.current=none ∧ state.occupancyBytes=ring.slabCount*ring.slabBytes ∨
      ∃ offset count, state.current=some (ring.slabBytes,offset) ∧ offset ≤ ring.slabBytes ∧
        state.recycled=count*ring.slabBytes ∧ ring.slabCount=state.channel.length+1 ∧
        state.occupancyBytes=state.channel.length*ring.slabBytes+(ring.slabBytes-offset) := by
  have hproducer := h.producer
  rw [ProducerOk,hphase] at hproducer
  obtain ⟨hpushing,hheld,-⟩ := hproducer
  have hqueued : state.queued=replicate state.channel.length ring.slabBytes := by
    simp [RingState.queued,hphase,inFlight,hheld,hpushing.slabsOf_channel]
  have hall := h.slots
  have hoccupancy := h.occupancy
  rw [hslots,hqueued,length_replicate] at hall
  rw [hqueued,sum_replicate_nat] at hoccupancy
  cases hcurrent : state.current with
  | none =>
    simp only [RingState.unread,hcurrent,toList_none,length_nil,Option.map_none,
      Option.getD_none,zero_add,add_zero] at hall hoccupancy
    exact .inl ⟨rfl,by rw [hoccupancy,hall]⟩
  | some slab =>
    obtain ⟨bytes,offset⟩ := slab
    have hfull := hpushing.current _ (mem_def.mpr hcurrent)
    have hoffset := h.offset _ (mem_def.mpr hcurrent)
    obtain ⟨count,hcount⟩ := hpushing.recycled
    subst hfull
    simp only [RingState.unread,hcurrent,toList_some,length_singleton,map_some,
      getD_some] at hall hoccupancy
    exact .inr ⟨offset,count,rfl,hoffset,hcount,by omega,hoccupancy⟩

/-- Every slab in the channel owns a slot, so the producer never waits for the channel. -/
theorem RingInv.filled_of_completing (hring : ring.WellFormed) (h : RingInv ring state)
    (hphase : state.producer=.completing) (hwaits : ring.slabCount ≤ state.channel.length)
    (htapePhase : state.tape=.prefill ∨ state.tape=.paused) : ring.Filled state := by
  have hproducer := h.producer
  rw [ProducerOk,hphase] at hproducer
  have hslots := h.slots
  have hpushed := h.pushed
  have hcountPos := hring.count_pos
  have hdeclared := hring.high_le_declared
  have hqueued : state.queued.length=state.channel.length := by
    simp [RingState.queued,hphase,inFlight,hproducer.held,hproducer.channel]
  have hcurrent : state.current=none := by
    cases hcurrent : state.current with
    | none => rfl
    | some slab =>
      rw [hcurrent,toList_some,length_singleton] at hslots
      omega
  have hrecycled : state.recycled=0 := by
    have htape := h.tape
    unfold TapeOk at htape
    rcases htapePhase with hprefill | hpaused
    · rw [hprefill] at htape
      exact htape.2.1
    · rw [hpaused] at htape
      refine (htape.2.1 hcurrent).resolve_right ?_
      rw [hproducer.complete]
      exact Bool.false_ne_true
  have hoffset : state.offset=0 := by rw [RingState.offset,hcurrent]; rfl
  have hpos : 0 < ring.declaredSizeBytes ∨ ring.declaredSizeBytes=0 := by omega
  rw [hproducer.pushed,hrecycled,hoffset] at hpushed
  rcases hpos with hpos | hzero
  · exact .inl (by omega)
  · -- an empty object has no slab that could fill the channel
    exfalso
    have hempty := h.empty hzero
    rw [hempty,length_nil] at hqueued
    omega

theorem RingInv.not_deadlocked (hring : ring.WellFormed) (hsafe : ring.Safe)
    (h : RingInv ring state) : ¬ring.Deadlocked state := by
  rintro ⟨hproducer,htapePhase,hnotFilled⟩
  have hlow : state.occupancyBytes < ring.highBytes := by
    by_contra hge
    exact hnotFilled (.inl (not_lt.mp hge))
  unfold AppendRing.ProducerWaits at hproducer
  have hok := h.producer
  unfold ProducerOk at hok
  cases hphase : state.producer <;> rw [hphase] at hproducer hok
  case ready => exact hproducer
  case closing => exact hproducer
  case done => exact hproducer
  case completing =>
    exact hnotFilled (h.filled_of_completing hring hphase hproducer htapePhase)
  case sending bytes last =>
    -- the slab that is sent owns a slot too
    have hslots := h.slots
    have hslabs : (slabsOf state.channel).length=state.channel.length := by
      cases last with
      | false => rw [hok.1.slabsOf_channel,length_replicate]
      | true => exact hok.channel
    have hqueued : state.channel.length+1 ≤ state.queued.length := by
      simp only [RingState.queued,hphase,inFlight,length_append,hslabs,
        length_singleton]
      omega
    omega
  case acquiring =>
    have hcapacity := hring.high_le_capacity
    rcases h.acquiring hphase hproducer with ⟨-,hfull⟩ | ⟨offset,count,hcurrent,hoffset,hcount,hslabs,hfull⟩
    · omega
    · rcases hsafe with hhigh | hdeclared
      · rw [hslabs,Nat.add_sub_cancel] at hhigh
        omega
      · have htape := h.tape
        unfold TapeOk at htape
        rcases htapePhase with hprefill | hpaused
        · rw [hprefill,hcurrent] at htape
          cases htape.1
        · rw [hpaused] at htape
          have hread : state.offset=offset := by rw [RingState.offset,hcurrent]; rfl
          have hfall := htape.1.resolve_right (h.not_finished hphase nofun)
          have hpause : ring.pauseSlabs ≤ count+1 := by
            rw [hring.pauseSlabs_le_iff,add_mul,one_mul]
            omega
          have hpushed := h.pushed
          have hbound : (ring.slabCount-1+ring.pauseSlabs)*ring.slabBytes ≤
              (state.channel.length+(count+1))*ring.slabBytes :=
            Nat.mul_le_mul_right _ (by omega)
          rw [add_mul state.channel.length,add_mul count,one_mul] at hbound
          omega

/-- A state before the end with full slabs in the channel and among those given back. -/
structure Shape (ring : AppendRing) (slabs : ℕ) (held : Option ℕ) (current : Option (ℕ×ℕ))
    (producer : ProducerPhase) (tape : TapePhase) (recycled : ℕ) (state : RingState) : Prop where
  channel : state.channel=replicate slabs (.data ring.slabBytes)
  held : state.held=held
  current : state.current=current
  producer : state.producer=producer
  tape : state.tape=tape
  recycled : state.recycled=recycled*ring.slabBytes
  complete : state.complete=false
  finished : state.producerFinished=false

/-- Some interleaving comes to such a state. -/
def AppendRing.Arrives (ring : AppendRing) (slabs : ℕ) (held : Option ℕ) (current : Option (ℕ×ℕ))
    (producer : ProducerPhase) (tape : TapePhase) (recycled : ℕ) : Prop :=
  ∃ state, ring.Reachable state ∧ Shape ring slabs held current producer tape recycled state

section Runs

variable {slabs filled recycled : ℕ} {held : Option ℕ} {current : Option (ℕ×ℕ)}
  {producer : ProducerPhase} {tape : TapePhase}

theorem slabsOf_replicate (count bytes : ℕ) :
    slabsOf (replicate count (.data bytes))=replicate count bytes := by
  induction count with
  | zero => rfl
  | succ count ih => rw [replicate_succ,slabsOf,ih,replicate_succ]

def readSlabs (current : Option (ℕ×ℕ)) : ℕ := current.toList.length

variable {free occupancy pushed : ℕ}

theorem AppendRing.Arrives.exists_reachable
    (h : ring.Arrives slabs held current producer tape recycled) : ∃ free occupancy pushed,
      ring.Reachable ⟨free,replicate slabs (.data ring.slabBytes),held,current,false,occupancy,
        false,producer,tape,pushed,recycled*ring.slabBytes⟩ := by
  obtain ⟨⟨free,_,_,_,_,occupancy,_,_,_,pushed,_⟩,hreach,⟨⟨⟩,⟨⟩,⟨⟩,⟨⟩,⟨⟩,⟨⟩,⟨⟩,⟨⟩⟩⟩ := h
  exact ⟨free,occupancy,pushed,hreach⟩

section

variable (hcurrent : current=none ∨ current=some (ring.slabBytes,ring.slabBytes))
include hcurrent

theorem counts_of_reachable (hreach : ring.Reachable ⟨free,replicate slabs (.data ring.slabBytes),
      held,current,false,occupancy,false,producer,tape,pushed,recycled*ring.slabBytes⟩)
    (hidle : producer.inFlight=[]) :
    free+slabs+held.toList.length+readSlabs current=ring.slabCount ∧
      occupancy=slabs*ring.slabBytes+held.getD 0 ∧
      pushed=(slabs+recycled+readSlabs current)*ring.slabBytes+held.getD 0 := by
  have hinv := RingInv.of_reachable hreach
  have hslots := hinv.slots
  have hoccupancy := hinv.occupancy
  have hpushed := hinv.pushed
  have hheld : held.toList.sum=held.getD 0 := by cases held <;> simp
  simp only [RingState.queued,hidle,slabsOf_replicate,nil_append,length_append,length_replicate,
    sum_append,sum_replicate_nat,hheld,RingState.unread,RingState.offset] at hslots hoccupancy hpushed
  rw [add_mul,add_mul]
  rcases hcurrent with rfl | rfl
  · simp only [readSlabs,toList_none,length_nil,Option.map_none,Option.getD_none,
      add_zero,zero_mul] at hslots hoccupancy hpushed ⊢
    exact ⟨by omega,hoccupancy,by omega⟩
  · simp only [readSlabs,toList_some,length_singleton,map_some,getD_some,
      Nat.sub_self,add_zero,one_mul] at hslots hoccupancy hpushed ⊢
    exact ⟨by omega,hoccupancy,by omega⟩

theorem AppendRing.Arrives.acquire (h : ring.Arrives slabs none current .acquiring tape recycled)
    (hfree : slabs+readSlabs current < ring.slabCount) :
    ring.Arrives slabs (some 0) current .ready tape recycled := by
  obtain ⟨free,_,_,hreach⟩ := h.exists_reachable
  have hslots := (counts_of_reachable hcurrent hreach rfl).1
  rw [toList_none,length_nil] at hslots
  obtain ⟨free,rfl⟩ := Nat.exists_eq_succ_of_ne_zero (show free≠0 by omega)
  exact ⟨_,hreach.tail (.acquire rfl rfl),rfl,rfl,rfl,rfl,rfl,rfl,rfl,rfl⟩

theorem AppendRing.Arrives.fill (take : ℕ)
    (h : ring.Arrives slabs (some filled) current .ready tape recycled)
    (hroom : filled+take ≤ ring.slabBytes)
    (hmore : (slabs+recycled+readSlabs current)*ring.slabBytes+(filled+take) ≤ ring.declaredSizeBytes) :
    ring.Arrives slabs (some (filled+take)) current .ready tape recycled := by
  rcases Nat.eq_zero_or_pos take with rfl | hpositive
  · exact h
  · obtain ⟨_,_,pushed,hreach⟩ := h.exists_reachable
    have hpushed := (counts_of_reachable hcurrent hreach rfl).2.2
    rw [getD_some] at hpushed
    have hdeclared : pushed+take ≤ ring.declaredSizeBytes := by omega
    exact ⟨_,hreach.tail (.fill take rfl rfl hpositive hroom hdeclared),rfl,rfl,rfl,rfl,rfl,rfl,rfl,rfl⟩

theorem AppendRing.Arrives.send
    (h : ring.Arrives slabs (some ring.slabBytes) current .ready tape recycled)
    (hmore : (slabs+recycled+readSlabs current+1)*ring.slabBytes < ring.declaredSizeBytes) :
    ring.Arrives (slabs+1) none current .acquiring tape recycled := by
  obtain ⟨_,_,pushed,hreach⟩ := h.exists_reachable
  obtain ⟨hslots,-,hpushed⟩ := counts_of_reachable hcurrent hreach rfl
  rw [toList_some,length_singleton] at hslots
  rw [Nat.succ_mul] at hmore
  rw [getD_some] at hpushed
  have hsend := hreach.tail (.sendFull rfl (show pushed < _ by omega) rfl)
  have hspace : (replicate slabs (RingMessage.data ring.slabBytes)).length < ring.slabCount := by
    rw [length_replicate]
    omega
  exact ⟨_,hsend.tail (@RingStep.deliver ring _ ring.slabBytes false rfl hspace),replicate_succ'.symm,rfl,
    rfl,rfl,rfl,rfl,rfl,rfl⟩

theorem AppendRing.Arrives.fillSlots (count : ℕ)
    (h : ring.Arrives slabs none current .acquiring tape recycled)
    (hfree : slabs+count+readSlabs current ≤ ring.slabCount)
    (hmore : (slabs+count+recycled+readSlabs current)*ring.slabBytes < ring.declaredSizeBytes) :
    ring.Arrives (slabs+count) none current .acquiring tape recycled := by
  induction count with
  | zero => exact h
  | succ count ih =>
    have hassoc : slabs+count+recycled+readSlabs current+1=slabs+(count+1)+recycled+readSlabs current := by
      omega
    have hnext := hmore
    rw [←hassoc,Nat.succ_mul] at hnext
    have hfull : 0+ring.slabBytes=ring.slabBytes := zero_add _
    have hfilled := ((ih (by omega) (by omega)).acquire hcurrent (by omega)).fill hcurrent
      ring.slabBytes (by omega) (by omega)
    rw [hfull] at hfilled
    exact hfilled.send hcurrent (by rwa [←hassoc] at hmore)

end

theorem AppendRing.Arrives.take
    (h : ring.Arrives (slabs+1) held none producer (.reading ring.slabBytes) recycled)
    (hslab : 0 < ring.slabBytes) :
    ring.Arrives slabs held (some (ring.slabBytes,ring.slabBytes)) producer .idle recycled := by
  obtain ⟨_,_,_,hreach⟩ := h.exists_reachable
  have hreceive := hreach.tail (.receiveData rfl rfl rfl rfl)
  refine ⟨_,hreceive.tail (.take rfl rfl hslab),rfl,rfl,?_,rfl,rfl,rfl,rfl,rfl⟩
  rw [Nat.sub_zero,Nat.min_self,zero_add]

theorem AppendRing.Arrives.readSlabs (hslab : 0 < ring.slabBytes) (count : ℕ)
    (h : ring.Arrives (slabs+(count+1)) held none producer .idle 0) :
    ring.Arrives slabs held (some (ring.slabBytes,ring.slabBytes)) producer .idle count := by
  induction count generalizing slabs with
  | zero =>
    obtain ⟨_,_,_,hreach⟩ := h.exists_reachable
    refine AppendRing.Arrives.take ⟨_,hreach.tail (.call ring.slabBytes rfl hslab),?_⟩ hslab
    exact ⟨rfl,rfl,rfl,rfl,rfl,rfl,rfl,rfl⟩
  | succ count ih =>
    have hassoc : slabs+(count+1+1)=slabs+1+(count+1) := by omega
    obtain ⟨_,_,_,hreach⟩ := (ih (by rw [←hassoc]; exact h)).exists_reachable
    have hcall := hreach.tail (.call ring.slabBytes rfl hslab)
    refine AppendRing.Arrives.take ⟨_,hcall.tail (.recycle rfl rfl le_rfl),?_⟩ hslab
    exact ⟨rfl,rfl,rfl,rfl,rfl,(Nat.succ_mul _ _).symm,rfl,rfl⟩

theorem AppendRing.Arrives.start (h : ring.Arrives slabs (some filled) none .ready .prefill recycled)
    (hhigh : ring.highBytes ≤ slabs*ring.slabBytes+filled) :
    ring.Arrives slabs (some filled) none .ready .idle recycled := by
  obtain ⟨_,_,_,hreach⟩ := h.exists_reachable
  obtain ⟨-,rfl,-⟩ := counts_of_reachable (.inl rfl) hreach rfl
  exact ⟨_,hreach.tail (.start rfl (.inl hhigh)),rfl,rfl,rfl,rfl,rfl,rfl,rfl,rfl⟩

theorem AppendRing.Arrives.pause
    (h : ring.Arrives slabs held (some (ring.slabBytes,ring.slabBytes)) producer .idle recycled)
    (hidle : producer.inFlight=[]) (hlow : slabs*ring.slabBytes+held.getD 0 ≤ ring.lowBytes) :
    ring.Arrives slabs held (some (ring.slabBytes,ring.slabBytes)) producer .paused recycled := by
  obtain ⟨_,_,_,hreach⟩ := h.exists_reachable
  obtain ⟨-,rfl,-⟩ := counts_of_reachable (.inr rfl) hreach hidle
  exact ⟨_,hreach.tail (.pause rfl ⟨rfl,hlow⟩),rfl,rfl,rfl,rfl,rfl,rfl,rfl,rfl⟩

theorem arrives_loaded (filled : ℕ) (hring : ring.WellFormed) (hfilled : filled ≤ ring.slabBytes)
    (hmore : (ring.slabCount-1)*ring.slabBytes+filled < ring.declaredSizeBytes) :
    ring.Arrives (ring.slabCount-1) (some filled) none .ready .prefill 0 := by
  have hcount := hring.count_pos
  have hnone : readSlabs none=0 := rfl
  have hneed : ring.Arrives 0 none none .acquiring .prefill 0 :=
    ⟨_,.tail .refl (.needSlab rfl (show 0 < ring.declaredSizeBytes by omega) rfl),rfl,rfl,rfl,rfl,rfl,
      (zero_mul _).symm,rfl,rfl⟩
  have hslabs := hneed.fillSlots (.inl rfl) (ring.slabCount-1) (by omega)
    (by rw [hnone,zero_add]; exact Nat.lt_of_add_right_lt hmore)
  rw [zero_add] at hslabs
  have hload := (hslabs.acquire (.inl rfl) (by omega)).fill (.inl rfl) filled (by omega)
    (by rw [hnone,zero_add]; exact le_of_lt hmore)
  rwa [zero_add] at hload

end Runs

/-- A pause in which the producer has filled all other slabs is a deadlock. -/
theorem AppendRing.Arrives.deadlocked {recycled : ℕ}
    (h : ring.Arrives (ring.slabCount-1) none (some (ring.slabBytes,ring.slabBytes)) .acquiring .paused
      recycled) (hhigh : (ring.slabCount-1)*ring.slabBytes < ring.highBytes) :
    ∃ state, ring.Reachable state ∧ ring.Deadlocked state := by
  obtain ⟨free,_,_,hreach⟩ := h.exists_reachable
  obtain ⟨hslots,rfl,-⟩ := counts_of_reachable (.inr rfl) hreach rfl
  change free+(ring.slabCount-1)+0+1=ring.slabCount at hslots
  refine ⟨_,hreach,show free=0 by omega,.inr rfl,?_⟩
  rintro (hle | hfinished)
  · exact absurd hhigh (not_lt.mpr hle)
  · cases hfinished

theorem arrives_stuck_of_lt (hring : ring.WellFormed) {count : ℕ}
    (hhigh : (ring.slabCount-1)*ring.slabBytes < ring.highBytes)
    (hpause : ring.highBytes-ring.lowBytes ≤ (count+1)*ring.slabBytes)
    (hcount : count+1 < ring.slabCount)
    (hmore : (ring.slabCount-1+(count+1))*ring.slabBytes < ring.declaredSizeBytes) :
    ring.Arrives (ring.slabCount-1) none (some (ring.slabBytes,ring.slabBytes)) .acquiring .paused count := by
  have hcapacity := hring.high_le_capacity
  have hone : ∀ current, current=some (ring.slabBytes,ring.slabBytes) → readSlabs current=1 := by
    rintro _ rfl
    rfl
  obtain ⟨rest,hrest⟩ := Nat.exists_eq_add_of_le (Nat.le_sub_one_of_lt hcount)
  have hslots : ring.slabCount=count+1+rest+1 := by omega
  rw [hslots,Nat.succ_mul] at hcapacity
  rw [hrest] at hhigh hmore ⊢
  have hsplit : (count+1+rest)*ring.slabBytes=(count+1)*ring.slabBytes+rest*ring.slabBytes := add_mul _ _ _
  have hsum : (count+1+rest+(count+1))*ring.slabBytes=
      (count+1+rest)*ring.slabBytes+(count*ring.slabBytes+ring.slabBytes) := by
    rw [add_mul,Nat.succ_mul]
  obtain ⟨filled,hfilled⟩ := Nat.exists_eq_add_of_lt hhigh
  have hload := arrives_loaded (filled+1) hring (by omega) (by rw [hrest]; omega)
  rw [hrest,add_comm (count+1) rest] at hload
  have hreads := ((hload.start (by rw [add_comm rest]; omega)).readSlabs hring.slab_pos count).pause rfl
    (by rw [getD_some]; omega)
  have hfull : filled+1+(ring.slabBytes-(filled+1))=ring.slabBytes := by omega
  have hassoc : rest+count+1=count+1+rest := by omega
  have hfill := hreads.fill (.inr rfl) (ring.slabBytes-(filled+1)) (by omega)
    (by rw [hone _ rfl,hassoc]; omega)
  rw [hfull] at hfill
  have hsend := hfill.send (.inr rfl) (by rw [hone _ rfl,hassoc,Nat.succ_mul]; omega)
  have hfills := hsend.fillSlots (.inr rfl) count (by rw [hone _ rfl]; omega) (by
      have hassoc : rest+1+count+count+1=count+1+rest+(count+1) := by omega
      rw [hone _ rfl,hassoc]
      exact hmore)
  have hslabs : rest+1+count=count+1+rest := by omega
  rwa [hslabs] at hfills

theorem arrives_stuck_of_eq (hring : ring.WellFormed) {count : ℕ} (hcount : ring.slabCount=count+1)
    (hmore : (ring.slabCount-1+(count+1))*ring.slabBytes < ring.declaredSizeBytes) :
    ring.Arrives (ring.slabCount-1) none (some (ring.slabBytes,ring.slabBytes)) .acquiring .paused count := by
  have hcapacity := hring.high_le_capacity
  have hpred : ring.slabCount-1=count := by omega
  have hsum : (count+(count+1))*ring.slabBytes=
      count*ring.slabBytes+(count*ring.slabBytes+ring.slabBytes) := by
    rw [add_mul,Nat.succ_mul]
  rw [hcount,Nat.succ_mul] at hcapacity
  rw [hpred] at hmore
  have hload := arrives_loaded ring.slabBytes hring le_rfl (by rw [hpred]; omega)
  rw [hpred] at hload ⊢
  have hsend := (hload.start hcapacity).send (.inl rfl) (by
      change (count+0+0+1)*ring.slabBytes < _
      rw [Nat.add_zero,Nat.add_zero,Nat.succ_mul]
      omega)
  rw [←Nat.zero_add (count+1)] at hsend
  have hpause := (hsend.readSlabs hring.slab_pos count).pause rfl (by rw [Nat.zero_mul]; exact Nat.zero_le _)
  have hfills := hpause.fillSlots (.inr rfl) count (by
      change 0+count+1 ≤ _
      omega)
    (by
      rw [zero_add,add_assoc]
      exact hmore)
  rwa [zero_add] at hfills

theorem exists_reachable_deadlocked (hring : ring.WellFormed) (hrefused : ¬ring.Safe) :
    ∃ state, ring.Reachable state ∧ ring.Deadlocked state := by
  obtain ⟨hhigh,hmore⟩ := not_or.mp hrefused
  rw [Nat.not_le] at hhigh hmore
  have hlow := hring.low_lt_high
  have hcapacity := hring.high_le_capacity
  have hpauseLe : ring.pauseSlabs ≤ ring.slabCount := by
    rw [hring.pauseSlabs_le_iff]
    omega
  have hpausePos : ring.pauseSlabs≠0 := by
    intro hzero
    have hle := (hring.pauseSlabs_le_iff 0).mp (le_of_eq hzero)
    omega
  obtain ⟨count,hcount⟩ := Nat.exists_eq_succ_of_ne_zero hpausePos
  have hpause := (hring.pauseSlabs_le_iff (count+1)).mp (le_of_eq hcount)
  rw [hcount] at hmore hpauseLe
  rcases Nat.lt_or_eq_of_le hpauseLe with hless | heq
  · exact (arrives_stuck_of_lt hring hhigh hpause hless hmore).deadlocked hhigh
  · exact (arrives_stuck_of_eq hring heq.symm hmore).deadlocked hhigh

theorem createAppendRing_deadlock_free_iff {settings : RingSettings} {memory : IoMemory} {declared : ℕ}
    {ring : AppendRing} (hsettings : validateRingSettings settings=.ok ())
    (hring : createAppendRing memory settings.appendRingBytes settings.appendRingHighPct
      settings.appendRingLowPct declared=.ok ring) :
    (∀ state, ring.Reachable state → ¬ring.Deadlocked state) ↔ ring.Safe := by
  have hwell := createAppendRing_wellFormed hsettings hring
  constructor
  · intro hfree
    by_contra hrefused
    obtain ⟨state,hreachable,hdeadlocked⟩ := exists_reachable_deadlocked hwell hrefused
    exact hfree state hreachable hdeadlocked
  · intro hsafe state hreachable
    exact (RingInv.of_reachable hreachable).not_deadlocked hwell hsafe

def sampleSettings (slabs : ℕ) : RingSettings where
  ioMemoryCeiling := 16*appendRingSlabBytes
  appendRingBytes := slabs*appendRingSlabBytes
  appendStagingMode := .overlap
  appendOverlapMinBytes := none
  appendRingLowPct := 25
  appendRingHighPct := 90

def sampleMemory : IoMemory := ⟨16*appendRingSlabBytes,0,""⟩

/-- With sixteen slabs the watermark leaves a slab free. -/
theorem createAppendRing_deadlock_free_sixteen :
    ∃ ring, createAppendRing sampleMemory (sampleSettings 16).appendRingBytes 90 25
        (64*appendRingSlabBytes)=.ok ring ∧
      ∀ state, ring.Reachable state → ¬ring.Deadlocked state := by
  have hsettings : validateRingSettings (sampleSettings 16)=.ok () := by decide +kernel
  have hring : createAppendRing sampleMemory (sampleSettings 16).appendRingBytes
      (sampleSettings 16).appendRingHighPct (sampleSettings 16).appendRingLowPct
      (64*appendRingSlabBytes)=.ok ⟨16777216,1048576,16,15099494,4194304,67108864⟩ := by decide +kernel
  exact ⟨_,hring,(createAppendRing_deadlock_free_iff hsettings hring).mpr (.inl (by decide))⟩

theorem exists_deadlock_of_four_slabs : validateRingSettings (sampleSettings 4)=.ok () ∧
      ∃ ring, createAppendRing sampleMemory (sampleSettings 4).appendRingBytes 90 25
          (8*appendRingSlabBytes)=.ok ring ∧
        ∃ state, ring.Reachable state ∧ ring.Deadlocked state := by
  have hsettings : validateRingSettings (sampleSettings 4)=.ok () := by decide +kernel
  have hring : createAppendRing sampleMemory (sampleSettings 4).appendRingBytes
      (sampleSettings 4).appendRingHighPct (sampleSettings 4).appendRingLowPct (8*appendRingSlabBytes)=
      .ok ⟨4194304,1048576,4,3774873,1048576,8388608⟩ := by decide +kernel
  refine ⟨hsettings,_,hring,exists_reachable_deadlocked (createAppendRing_wellFormed hsettings hring) ?_⟩
  rintro (hhigh | hdeclared)
  · exact absurd hhigh (by decide)
  · exact absurd hdeclared (by decide)

/-- Nothing lies behind the completion message, which is sent when all bytes are pushed. -/
structure Framed (ring : AppendRing) (state : RingState) : Prop where
  pushed : state.complete=true ∨ .complete ∈ state.channel →
    state.pushed=ring.declaredSizeBytes ∧ (state.producer=.closing ∨ state.producer=.done)
  last : .complete ∉ state.channel.dropLast
  received : state.complete=true → state.channel=[]

theorem Framed.of_open (hopen : ¬(state.complete=true ∨ .complete ∈ state.channel)) :
    Framed ring state where
  pushed := fun h => absurd h hopen
  last := fun h => hopen (.inr ((dropLast_sublist _).mem h))
  received := fun h => absurd (.inl h) hopen

theorem Framed.step (h : Framed ring state) (hinv : RingInv ring state)
    (hstep : RingStep ring state after) : Framed ring after := by
  have hopen : state.producer≠.closing → state.producer≠.done →
      ¬(state.complete=true ∨ .complete ∈ state.channel) := fun hclosing hdone hend =>
    (h.pushed hend).2.elim hclosing hdone
  cases hstep with
  | sendFull hphase | needSlab hphase | acquire hphase | fill _ hphase | finishHeld hphase
  | finishEmpty hphase => exact .of_open (hopen (by simp [hphase]) (by simp [hphase]))
  | deliver hphase =>
    have hnone := hopen (by simp [hphase]) (by simp [hphase])
    exact .of_open (by simpa using hnone)
  | deliverComplete hphase =>
    have hnone := hopen (by simp [hphase]) (by simp [hphase])
    have hproducer := hinv.producer
    simp only [ProducerOk,hphase] at hproducer
    refine ⟨fun _ => ⟨hproducer.pushed,.inl rfl⟩,?_,fun hend => absurd (.inl hend) hnone⟩
    rw [dropLast_concat]
    exact fun hmem => hnone (.inr hmem)
  | finish hphase => exact ⟨fun hend => ⟨(h.pushed hend).1,.inr rfl⟩,h.last,h.received⟩
  | receiveData _ _ hcomplete hchannel =>
    refine ⟨fun hend => h.pushed (hend.imp_right fun hmem => ?_),fun hmem => h.last ?_,
      fun hend => absurd (hend.symm.trans hcomplete) nofun⟩
    · rw [hchannel]
      exact mem_cons_of_mem _ hmem
    · rw [hchannel,dropLast_cons_of_ne_nil (ne_nil_of_mem ((dropLast_sublist _).mem hmem))]
      exact mem_cons_of_mem _ hmem
  | @receiveComplete _ rest _ _ _ hchannel =>
    have hlast := h.last
    have hend := h.pushed (.inr (by rw [hchannel]; exact mem_cons_self))
    cases rest with
    | nil => exact ⟨fun _ => hend,not_mem_nil,fun _ => rfl⟩
    | cons => simp [hchannel] at hlast
  | start | call | take | recycle | endOfData | pause | resume => exact ⟨h.pushed,h.last,h.received⟩

theorem Framed.of_reachable (h : ring.Reachable state) : Framed ring state := by
  induction h with
  | refl => exact .of_open (by simp [AppendRing.initial])
  | tail hrun hstep ih => exact ih.step (.of_reachable hrun) hstep

/-- No byte is lost: what was pushed is what was read and what is still in the ring, and a reader
that meets the end of data has read the whole object. -/
theorem reachable_delivers (h : ring.Reachable state) :
    state.pushed=state.recycled+state.offset+(state.queued.sum+state.unread) ∧
      (state.complete=true → state.current=none →
        state.recycled=ring.declaredSizeBytes ∧ state.queued=[]) := by
  have hinv := RingInv.of_reachable h
  have hpushed := hinv.pushed
  have hoccupancy := hinv.occupancy
  refine ⟨by omega,fun hcomplete hcurrent => ?_⟩
  obtain ⟨hall,hphase⟩ := (Framed.of_reachable h).pushed (.inl hcomplete)
  have hchannel := (Framed.of_reachable h).received hcomplete
  have hproducer := hinv.producer
  have hqueued : state.queued=[] := by
    rcases hphase with hphase | hphase <;>
      simp only [ProducerOk,hphase] at hproducer <;>
      simp [RingState.queued,hchannel,slabsOf,hphase,inFlight,hproducer]
  have hoffset : state.offset=0 := by rw [RingState.offset,hcurrent]; rfl
  have hunread : state.unread=0 := by rw [RingState.unread,hcurrent]; rfl
  rw [hqueued,sum_nil] at hoccupancy
  exact ⟨by omega,hqueued⟩

/-- An object of one byte, pushed and read to its end. -/
theorem reachable_delivers_one : ∃ state, (⟨1,1,1,1,0,1⟩ : AppendRing).Reachable state ∧
    state.complete=true ∧ state.recycled=1 ∧ state.queued=[] := by
  have hrun : (⟨1,1,1,1,0,1⟩ : AppendRing).Reachable
      ⟨1,[],none,none,true,0,true,.done,.reading 1,1,1⟩ := by
    refine .tail (.tail (.tail (.tail (.tail (.tail (.tail (.tail (.tail (.tail (.tail (.tail (.tail
      (.tail .refl (.needSlab rfl (by decide) rfl)) (.acquire rfl rfl)) (.fill 1 rfl rfl (by decide)
      (by decide) (by decide))) (.finishHeld rfl rfl rfl)) (.deliver rfl (by decide)))
      (.start rfl (.inl (by decide)))) (.call 1 rfl (by decide))) (.receiveData rfl rfl rfl rfl))
      (.take rfl rfl (by decide))) (.deliverComplete rfl (by decide))) (.finish rfl))
      (.call 1 rfl (by decide))) (.recycle rfl rfl (by decide))) (.receiveComplete rfl rfl rfl rfl)
  exact ⟨_,hrun,rfl,(reachable_delivers hrun).2 rfl rfl⟩

end Remanence.Append
