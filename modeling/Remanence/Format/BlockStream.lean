import Remanence.Format.Writer

/-!
# What a block writer has written

The full blocks behind the sink followed by the buffer are the bytes that were
written. Under a sink that takes enough blocks every write succeeds and appends
its bytes to them.
-/

namespace Remanence.Format

open Foundation List

variable {σ : Type} (sink : BlockSink σ) (blocks : σ → List Bytes)

/-- The sink takes the next blocks of this size in full. -/
def Accepts (size : ℕ) : ℕ → σ → Prop
  | 0,_ => True
  | count+1,state => ∀ block, block.length=size → ∃ outcome state',
      sink.writeBlock state block=.ok (outcome,state') ∧ outcome.bytesWritten.toNat=size ∧
      outcome.endOfMedium=false ∧ blocks state'=blocks state++[block] ∧ Accepts size count state'

theorem vecBlockSink_accepts {size count : ℕ} {state : VecBlockSink} (hsize : size < 2^32)
    (hcount : state.nextLba.toNat+count < 2^64) :
    Accepts vecBlockSink VecBlockSink.blocks size count state := by
  induction count generalizing state with
  | zero => trivial
  | succ count ih =>
    intro block hblock
    have hone : (1 : UInt64).toNat=1 := rfl
    have hnext : (state.nextLba+1).toNat=state.nextLba.toNat+1 := by
      rw [UInt64.toNat_add,hone,Nat.mod_eq_of_lt (by omega)]
    have hadd : checkedAdd64 state.nextLba 1=some (state.nextLba+1) :=
      checkedAdd64_eq_some.mpr hnext.symm
    refine ⟨⟨UInt32.ofNat block.length,false,false⟩,⟨state.blocks++[block],state.nextLba+1⟩,?_,?_,rfl,rfl,
      ih (by dsimp only; omega)⟩
    · simp only [vecBlockSink,hadd,orElseError_some,ok_bind]
      rfl
    · rw [hblock]
      exact UInt32.toNat_ofNat_of_lt' hsize

variable {sink blocks}

structure Written (sink : BlockSink σ) (blocks : σ → List Bytes) (size capacity : ℕ)
    (before : List Bytes) (writer : BodyBlockWriter σ) (done : Bytes) : Prop where
  size_eq : writer.blockSize=size
  unfinished : writer.finished=false
  body : ∃ full : List Bytes, blocks writer.sink=before++full ∧ full.length=writer.blocksWritten ∧
    (∀ block ∈ full, block.length=size) ∧ full.flatten++writer.buffer=done
  accepts : Accepts sink blocks size (capacity-writer.blocksWritten) writer.sink

theorem length_flatten_of_blocks {full : List Bytes} {size : ℕ}
    (h : ∀ block ∈ full, block.length=size) : full.flatten.length=full.length*size := by
  induction full with
  | nil => simp
  | cons block full ih =>
    rw [flatten_cons,length_append,h block mem_cons_self,
      ih fun other hother => h other (mem_cons_of_mem _ hother),length_cons,Nat.succ_mul,
      add_comm]

namespace Written

variable {size capacity : ℕ} {before : List Bytes} {writer : BodyBlockWriter σ} {done : Bytes}

variable (h : Written sink blocks size capacity before writer done)
include h

theorem length_eq : done.length=writer.blocksWritten*size+writer.buffer.length := by
  obtain ⟨full,-,hcount,hfull,hdone⟩ := h.body
  rw [←hdone,length_append,length_flatten_of_blocks hfull,hcount]

theorem flush (bytes : Bytes) (hfull : (writer.buffer++bytes).length=size)
    (hfits : done.length+bytes.length ≤ capacity*size) :
    ∃ writer', writer.flushFullBlock sink (writer.buffer++bytes)=.ok writer' ∧
      Written sink blocks size capacity before writer' (done++bytes) ∧ writer'.buffer=[] ∧
      writer'.blocksWritten=writer.blocksWritten+1 := by
  have hroom := writer.room
  rw [h.size_eq] at hroom
  have hlength := h.length_eq
  rw [length_append] at hfull
  have hleft : writer.blocksWritten < capacity := by
    have hsum : (writer.blocksWritten+1)*size ≤ capacity*size := by
      rw [Nat.succ_mul]
      omega
    exact Nat.lt_of_succ_le (Nat.le_of_mul_le_mul_right hsum (by omega))
  have haccepts := h.accepts
  obtain ⟨left,hcapacity⟩ : ∃ left, capacity-writer.blocksWritten=left+1 :=
    ⟨capacity-writer.blocksWritten-1,by omega⟩
  rw [hcapacity] at haccepts
  obtain ⟨outcome,state',hwrite,hbytes,hmedium,hblocks,hrest⟩ :=
    haccepts (writer.buffer++bytes) (by rw [length_append]; exact hfull)
  refine ⟨⟨state',writer.blockSize,[],writer.blocksWritten+1,writer.finished,
    Nat.lt_of_le_of_lt (Nat.zero_le _) writer.room⟩,?_,⟨h.size_eq,h.unfinished,?_,?_⟩,rfl,rfl⟩
  · rw [BodyBlockWriter.flushFullBlock,hwrite,ok_bind]
    dsimp only
    rw [rejectIf_pos,ok_bind]
    · rfl
    · rw [hmedium,hbytes,length_append,hfull]
      simp
  · obtain ⟨full,hbefore,hcount,hsizes,hdone⟩ := h.body
    refine ⟨full++[writer.buffer++bytes],?_,?_,?_,?_⟩
    · rw [hblocks,hbefore,append_assoc]
    · rw [length_append,hcount]
      rfl
    · intro block hblock
      rcases mem_append.mp hblock with hblock | hblock
      · exact hsizes block hblock
      · rw [mem_singleton.mp hblock,length_append,hfull]
    · rw [flatten_append,flatten_singleton,append_nil,←hdone,append_assoc]
  · change Accepts sink blocks size (capacity-(writer.blocksWritten+1)) state'
    have hsame : capacity-(writer.blocksWritten+1)=left := by omega
    rw [hsame]
    exact hrest

theorem writeBytes (bytes : Bytes) (hfits : done.length+bytes.length ≤ capacity*size) :
    ∃ writer', writer.writeBytes sink bytes=.ok writer' ∧
      Written sink blocks size capacity before writer' (done++bytes) := by
  -- every round takes bytes, so the induction is on how many are left
  induction hn : bytes.length using Nat.strong_induction_on generalizing writer done bytes with
  | _ n ih =>
    unfold BodyBlockWriter.writeBytes
    by_cases hempty : bytes=[]
    · rw [if_pos hempty]
      exact ⟨writer,rfl,by rw [hempty,append_nil]; exact h⟩
    rw [if_neg hempty]
    have hpositive := length_pos_iff.mpr hempty
    have hroom := writer.room
    set take := min (writer.blockSize-writer.buffer.length) bytes.length
    dsimp only
    have hlength : (writer.buffer++bytes.take take).length=writer.buffer.length+take := by
      rw [length_append,length_take]
      omega
    by_cases hsmall : (writer.buffer++bytes.take take).length < writer.blockSize
    · -- the bytes end inside the buffer
      rw [dif_pos hsmall]
      have hall : bytes.take take=bytes := take_of_length_le (by omega)
      refine ⟨_,rfl,⟨h.size_eq,h.unfinished,?_,h.accepts⟩⟩
      obtain ⟨full,hbefore,hcount,hsizes,hdone⟩ := h.body
      refine ⟨full,hbefore,hcount,hsizes,?_⟩
      dsimp only
      rw [hall,←append_assoc,hdone]
    · rw [dif_neg hsmall]
      have hsplit : (bytes.take take).length+(bytes.drop take).length=bytes.length := by
        rw [←length_append,take_append_drop]
      obtain ⟨flushed,hflush,hwritten,-,-⟩ := h.flush (bytes.take take)
        (show (writer.buffer++bytes.take take).length=size by rw [←h.size_eq]; omega) (by omega)
      obtain ⟨writer',hrest,hwritten'⟩ := ih (bytes.drop take).length (by
        rw [length_drop]
        omega) hwritten (bytes.drop take) (by rw [length_append]; omega) rfl
      refine ⟨writer',?_,?_⟩
      · rw [hflush,ok_bind]
        exact hrest
      · rwa [append_assoc,take_append_drop] at hwritten'

theorem writeAll (bytes : Bytes) (hfits : done.length+bytes.length ≤ capacity*size) :
    ∃ writer', writer.writeAll sink bytes=.ok writer' ∧
      Written sink blocks size capacity before writer' (done++bytes) := by
  have hopen : ¬writer.finished=true := by rw [h.unfinished]; decide
  rw [BodyBlockWriter.writeAll,rejectIf_pos hopen,ok_bind]
  exact h.writeBytes bytes hfits

theorem finish {count : ℕ} (hcount : done.length ≤ count*size)
    (hleast : count*size < done.length+size) (hfits : count ≤ capacity) :
    ∃ writer' full, writer.finishAfterTarEof sink=.ok writer' ∧ writer'.blocksWritten=count ∧
      blocks writer'.sink=before++full ∧ full.length=count ∧ (∀ block ∈ full, block.length=size) ∧
      full.flatten=done++replicate (count*size-done.length) 0 := by
  have hroom := writer.room
  rw [h.size_eq] at hroom
  have hlength := h.length_eq
  have hopen : ¬writer.finished=true := by rw [h.unfinished]; decide
  rw [BodyBlockWriter.finishAfterTarEof,if_neg hopen]
  by_cases hempty : writer.buffer=[]
  · -- the last block is already full
    rw [if_pos hempty]
    rw [hempty,length_nil,add_zero] at hlength
    have hblocks : count=writer.blocksWritten := by
      refine le_antisymm ?_ (Nat.le_of_mul_le_mul_right (hlength ▸ hcount) (by omega))
      have hlt : count*size < (writer.blocksWritten+1)*size := by
        rw [Nat.succ_mul]
        omega
      exact Nat.le_of_lt_succ (Nat.lt_of_mul_lt_mul_right hlt)
    obtain ⟨full,hbefore,hfull,hsizes,hdone⟩ := h.body
    refine ⟨_,full,rfl,hblocks.symm,hbefore,hfull.trans hblocks.symm,hsizes,?_⟩
    rw [hempty,append_nil] at hdone
    rw [hdone,hblocks,←hlength,Nat.sub_self]
    simp
  · rw [if_neg hempty]
    have hpositive := length_pos_iff.mpr hempty
    have hblocks : count=writer.blocksWritten+1 := by
      refine le_antisymm ?_ ?_
      · have hlt : count*size < (writer.blocksWritten+2)*size := by
          rw [add_mul]
          omega
        exact Nat.le_of_lt_succ (Nat.lt_of_mul_lt_mul_right hlt)
      · have hlt : writer.blocksWritten*size < count*size := by omega
        exact Nat.lt_of_mul_lt_mul_right hlt
    have hsum : count*size=writer.blocksWritten*size+size := by rw [hblocks,Nat.succ_mul]
    have hcapacity := Nat.mul_le_mul_right size hfits
    obtain ⟨flushed,hflush,hwritten,hbuffer,hnext⟩ := h.flush
      (replicate (writer.blockSize-writer.buffer.length) 0)
      (by rw [length_append,length_replicate,h.size_eq]; omega)
      (by rw [length_replicate,h.size_eq]; omega)
    obtain ⟨full,hbefore,hfull,hsizes,hdone⟩ := hwritten.body
    refine ⟨{ flushed with finished := true },full,?_,?_,hbefore,?_,hsizes,?_⟩
    · rw [hflush]
      rfl
    · exact hnext.trans hblocks.symm
    · exact hfull.trans (hnext.trans hblocks.symm)
    · rw [hbuffer,append_nil] at hdone
      rw [hdone,h.size_eq]
      congr 2
      omega

end Written

end Remanence.Format
