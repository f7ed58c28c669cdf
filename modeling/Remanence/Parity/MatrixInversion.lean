import Remanence.Parity.Codec
import Mathlib.Data.List.GetD

/-!
# The codec's matrix inversion computes an inverse

Byte matrices of the right shape are read as matrices over `GF256`. Each row operation of
`invert_matrix` is one of the elimination library, so a nonsingular input runs through every
column and leaves its inverse.
-/

namespace Remanence.Parity.Codec

open Foundation Foundation.GaussJordan Gf256 List

structure Shape (n width : ℕ) (matrix : ByteMatrix) : Prop where
  length_eq : matrix.length=n
  row_length : ∀ row ∈ matrix, row.length=width

def symbol (matrix : ByteMatrix) (row col : ℕ) : GF256 := ⟨entry matrix row col⟩

def toMatrix (n : ℕ) (matrix : ByteMatrix) : Matrix (Fin n) (Fin n) GF256 :=
  fun i j => symbol matrix i j

section Lists

variable {n width : ℕ} {a b : ByteMatrix}

theorem Shape.rowAt_length (h : Shape n width a) {i : ℕ} (hi : i < n) :
    (rowAt a i).length=width := by
  have hlt : i < a.length := by rw [h.length_eq]; exact hi
  have hrow : rowAt a i=a[i] := by simp [rowAt,getD_eq_getElem?_getD,hlt]
  rw [hrow]
  exact h.row_length _ (getElem_mem hlt)

theorem Shape.ext (ha : Shape n width a) (hb : Shape n width b)
    (h : ∀ i < n, ∀ j < width, entry a i j=entry b i j) : a=b := by
  apply ext_getElem (by rw [ha.length_eq,hb.length_eq])
  intro i hia hib
  have hi : i < n := by rw [←ha.length_eq]; exact hia
  have hra := ha.row_length _ (getElem_mem hia)
  have hrb := hb.row_length _ (getElem_mem hib)
  apply ext_getElem (by rw [hra,hrb])
  intro j hja hjb
  have hentry := h i hi j (by rw [←hra]; exact hja)
  simpa [entry,rowAt,getD_eq_getElem?_getD,hia,hib,hja,hjb] using hentry

theorem Shape.set (h : Shape n width a) (i : ℕ) {row : List UInt8} (hrow : row.length=width) :
    Shape n width (a.set i row) := by
  refine ⟨by rw [length_set,h.length_eq],?_⟩
  intro r hr
  rcases mem_or_eq_of_mem_set hr with hr | rfl
  · exact h.row_length r hr
  · exact hrow

theorem Shape.rowAt_set (h : Shape n width a) {i : ℕ} (hi : i < n) (row : List UInt8) (j : ℕ) :
    rowAt (a.set i row) j=if j=i then row else rowAt a j := by
  have hlt : i < a.length := by rw [h.length_eq]; exact hi
  unfold rowAt
  rw [getD_eq_getElem?_getD,getElem?_set,getD_eq_getElem?_getD]
  by_cases hj : j=i
  · simp [hj,hlt]
  · rw [if_neg (Ne.symm hj),if_neg hj]

theorem gfMulSliceXor_length {c : UInt8} {input output : List UInt8}
    (h : input.length=output.length) : (gfMulSliceXor c input output).length=output.length := by
  simp [gfMulSliceXor,h]

theorem getD_gfMulSliceXor {c : UInt8} {input output : List UInt8} (h : input.length=output.length)
    (p : ℕ) :
    (gfMulSliceXor c input output).getD p 0=output.getD p 0^^^gfMul c (input.getD p 0) := by
  unfold gfMulSliceXor
  by_cases hp : p < output.length
  · have hp' : p < input.length := by omega
    simp [getD_eq_getElem?_getD,hp,hp']
  · have hp' : ¬p < input.length := by omega
    have hlen : (List.zipWith (fun out byte => out^^^gfMul c byte) output input).length ≤ p := by
      simp only [length_zipWith]
      omega
    rw [getD_eq_default _ _ hlen,getD_eq_default _ _ (by omega), getD_eq_default _ _ (by omega)]
    simp

theorem getD_map_gfMul (row : List UInt8) (factor : UInt8) (p : ℕ) :
    (row.map fun value => gfMul value factor).getD p 0=gfMul (row.getD p 0) factor := by
  have h := getD_map (l := row) (d := 0) (n := p) (fun value => gfMul value factor)
  rwa [zero_gfMul] at h

end Lists

section RowOperations

variable {n : ℕ} {a : ByteMatrix} {i : ℕ}

section

variable (h : Shape n n a)
include h

theorem Shape.toMatrix_set (i : Fin n) (row : List UInt8) :
    toMatrix n (a.set i.val row)=(toMatrix n a).updateRow i fun j => ⟨row.getD j.val 0⟩ := by
  funext x y
  rw [Matrix.updateRow_apply]
  unfold toMatrix symbol entry
  rw [h.rowAt_set i.isLt]
  by_cases hx : x=i
  · simp [hx]
  · rw [if_neg hx,if_neg (fun hv => hx (Fin.ext hv))]

theorem Shape.toMatrix_swapRows (i j : Fin n) :
    toMatrix n (swapRows a i.val j.val)=(toMatrix n a).submatrix (Equiv.swap i j) id := by
  have hi := h.set i.val (h.rowAt_length j.isLt)
  unfold swapRows
  rw [hi.toMatrix_set,h.toMatrix_set]
  funext x y
  rw [Matrix.updateRow_apply,Matrix.submatrix_apply,Matrix.updateRow_apply,id]
  by_cases hxj : x=j
  · subst hxj
    rw [if_pos rfl,Equiv.swap_apply_right]
    rfl
  · rw [if_neg hxj]
    by_cases hxi : x=i
    · subst hxi
      rw [if_pos rfl,Equiv.swap_apply_left]
      rfl
    · rw [if_neg hxi,Equiv.swap_apply_of_ne_of_ne hxi hxj]

theorem Shape.swapRows {j : ℕ} (hi : i < n) (hj : j < n) : Shape n n (swapRows a i j) :=
  (h.set i (h.rowAt_length hj)).set j (h.rowAt_length hi)

theorem Shape.toMatrix_scaleRow (i : Fin n) (factor : UInt8) : toMatrix n (scaleRow a i.val factor)=
      (toMatrix n a).updateRow i ((⟨factor⟩ : GF256) • toMatrix n a i) := by
  unfold scaleRow
  rw [h.toMatrix_set]
  congr 1
  funext j
  rw [getD_map_gfMul,GF256.mk_gfMul,Pi.smul_apply,smul_eq_mul,mul_comm]
  rfl

theorem Shape.scaleRow (hi : i < n) (factor : UInt8) : Shape n n (scaleRow a i factor) :=
  h.set i (by rw [length_map,h.rowAt_length hi])

theorem Shape.toMatrix_addRow (i j : Fin n) (factor : UInt8) :
    toMatrix n (a.set i.val (gfMulSliceXor factor (rowAt a j.val) (rowAt a i.val)))=
      (toMatrix n a).updateRow i (toMatrix n a i+(⟨factor⟩ : GF256) • toMatrix n a j) := by
  rw [h.toMatrix_set]
  congr 1
  funext y
  have hlen : (rowAt a j.val).length=(rowAt a i.val).length := by
    rw [h.rowAt_length j.isLt,h.rowAt_length i.isLt]
  rw [getD_gfMulSliceXor hlen,GF256.mk_xor,GF256.mk_gfMul]
  rfl

theorem Shape.addRow {j : ℕ} (hi : i < n) (hj : j < n) (factor : UInt8) :
    Shape n n (a.set i (gfMulSliceXor factor (rowAt a j) (rowAt a i))) := by
  have hlen : (rowAt a j).length=(rowAt a i).length := by
    rw [h.rowAt_length hj,h.rowAt_length hi]
  exact h.set i (by rw [gfMulSliceXor_length hlen,h.rowAt_length hi])

end

theorem shape_identityMatrix (n : ℕ) : Shape n n (identityMatrix n) := by
  refine ⟨by simp [identityMatrix],?_⟩
  intro row hrow
  obtain ⟨i,_,rfl⟩ := mem_map.mp hrow
  simp

theorem getD_unitRow (n i j : ℕ) (hj : j < n) :
    (((replicate n (0 : UInt8)).set i 1).getD j 0)=if i=j then 1 else 0 := by
  rw [getD_eq_getElem?_getD,getElem?_set]
  by_cases h : i=j
  · subst h
    simp [hj]
  · simp [h,hj]

theorem toMatrix_identityMatrix (n : ℕ) : toMatrix n (identityMatrix n)=1 := by
  funext i j
  have hrow : rowAt (identityMatrix n) i.val=(replicate n 0).set i.val 1 := by
    simp [rowAt,identityMatrix,getD_eq_getElem?_getD]
  unfold toMatrix symbol entry
  rw [hrow,getD_unitRow n i j j.isLt,Matrix.one_apply]
  by_cases h : i=j
  · simp [h]
  · rw [if_neg h,if_neg (fun hv => h (Fin.ext hv))]
    rfl

end RowOperations

section Run

variable {n : ℕ} {A : Matrix (Fin n) (Fin n) GF256} {state : ByteMatrix×ByteMatrix}

structure Running (A : Matrix (Fin n) (Fin n) GF256) (col : ℕ) (state : ByteMatrix×ByteMatrix) :
    Prop where
  left : Shape n n state.1
  right : Shape n n state.2
  tracks : Tracks A (toMatrix n state.1) (toMatrix n state.2)
  cleared : Cleared col (toMatrix n state.1)

structure Sweeping (A : Matrix (Fin n) (Fin n) GF256) (col : Fin n) (row : ℕ)
    (state : ByteMatrix×ByteMatrix) : Prop extends Running A col.val state where
  pivot : toMatrix n state.1 col col=1
  processed : ∀ i : Fin n, i.val < row → i≠col → toMatrix n state.1 i col=0

variable {col : Fin n}

theorem Sweeping.step {row : ℕ} (h : Sweeping A col row state) (hrow : row < n) :
    Sweeping A col (row+1) (eliminateRow col.val state row) := by
  unfold eliminateRow
  by_cases hpivot : row=col.val
  · rw [if_pos hpivot]
    refine ⟨h.toRunning,h.pivot,?_⟩
    intro i hi hic
    have hne : i.val≠col.val := fun hv => hic (Fin.ext hv)
    exact h.processed i (by omega) hic
  · rw [if_neg hpivot]
    have hne : (⟨row,hrow⟩ : Fin n)≠col := fun hv => hpivot (congrArg Fin.val hv)
    by_cases hzero : entry state.1 row col.val=0
    · rw [if_pos hzero]
      refine ⟨h.toRunning,h.pivot,?_⟩
      intro i hi hic
      rcases Nat.lt_succ_iff_lt_or_eq.mp hi with hlt | heq
      · exact h.processed i hlt hic
      · have hi : toMatrix n state.1 i col=symbol state.1 row col.val := by rw [←heq]; rfl
        rw [hi]
        exact GF256.mk_eq_zero.mpr hzero
    · rw [if_neg hzero]
      -- the left matrix adds `factor` times its pivot row to this row
      have hleft := h.left.toMatrix_addRow ⟨row,hrow⟩ col (entry state.1 row col.val)
      have hright := h.right.toMatrix_addRow ⟨row,hrow⟩ col (entry state.1 row col.val)
      refine ⟨⟨h.left.addRow hrow col.isLt _,h.right.addRow hrow col.isLt _,?_,?_⟩,?_,?_⟩
      · dsimp only at hleft hright ⊢
        rw [hleft,hright]
        exact h.tracks.addRow hne _
      · dsimp only at hleft ⊢
        rw [hleft]
        exact h.cleared.addRow le_rfl _
      · dsimp only at hleft ⊢
        rw [hleft,Matrix.updateRow_ne (Ne.symm hne)]
        exact h.pivot
      · intro i hi hic
        dsimp only at hleft ⊢
        rw [hleft,Matrix.updateRow_apply]
        split
        · rename_i hir
          subst hir
          rw [Pi.add_apply,Pi.smul_apply,h.pivot,smul_eq_mul,mul_one]
          change (⟨entry state.1 row col.val⟩ : GF256)+⟨entry state.1 row col.val⟩=0
          exact CharTwo.add_self_eq_zero _
        · rename_i hir
          have hne' : i.val≠row := fun hv => hir (Fin.ext hv)
          exact h.processed i (by omega) hic

theorem Sweeping.fold (h : Sweeping A col 0 state) (count : ℕ) (hcount : count ≤ n) :
    Sweeping A col count ((List.range count).foldl (eliminateRow col.val) state) := by
  induction count with
  | zero => exact h
  | succ count ih =>
    rw [range_succ,foldl_append]
    exact (ih (by omega)).step (by omega)

theorem gfInv_eq_ok {value : UInt8} (h : value≠0) : gfInv value=.ok (gfPow value 254) := by
  unfold gfInv
  rw [rejectIf_pos h]
  rfl

section

variable (h : Running A col.val state)
include h

theorem Running.find_pivot (hA : A.det≠0) :
    ∃ pivot, (List.range' col.val (n-col.val)).find? (fun row => entry state.1 row col.val≠0)=
        some pivot ∧ col.val ≤ pivot ∧ pivot < n ∧ entry state.1 pivot col.val≠0 := by
  obtain ⟨i,hci,hi⟩ := h.tracks.exists_pivot hA h.cleared
  have hentry : entry state.1 i.val col.val≠0 := fun hz => hi (GF256.mk_eq_zero.mpr hz)
  cases hfind : (List.range' col.val (n-col.val)).find? (fun row => entry state.1 row col.val≠0) with
  | none =>
    have hall := find?_eq_none.mp hfind i.val (by
      rw [mem_range'_1]
      have := i.isLt
      exact ⟨hci,by omega⟩)
    simp [hentry] at hall
  | some pivot =>
    have hmem := mem_of_find?_eq_some hfind
    have hne := find?_some hfind
    rw [mem_range'_1] at hmem
    have := col.isLt
    exact ⟨pivot,rfl,hmem.1,by omega,by simpa using hne⟩

theorem Running.swap {pivot : ℕ} (hle : col.val ≤ pivot) (hlt : pivot < n)
    (hne : entry state.1 pivot col.val≠0) :
    let swapped := if pivot≠col.val
      then (swapRows state.1 pivot col.val,swapRows state.2 pivot col.val) else state
    Running A col.val swapped ∧ entry swapped.1 col.val col.val≠0 := by
  dsimp only
  by_cases hpc : pivot=col.val
  · rw [if_neg (by simpa using hpc)]
    subst hpc
    exact ⟨h,hne⟩
  · rw [if_pos hpc]
    have hleft := h.left.toMatrix_swapRows ⟨pivot,hlt⟩ col
    have hright := h.right.toMatrix_swapRows ⟨pivot,hlt⟩ col
    dsimp only at hleft hright
    refine ⟨⟨h.left.swapRows hlt col.isLt,h.right.swapRows hlt col.isLt,?_,?_⟩,?_⟩
    · dsimp only
      rw [hleft,hright]
      exact h.tracks.swap _ _
    · dsimp only
      rw [hleft]
      exact h.cleared.swap hle le_rfl
    · intro hz
      have hpivot := congrFun (congrFun hleft col) col
      rw [Matrix.submatrix_apply,Equiv.swap_apply_right] at hpivot
      have hzero : toMatrix n (swapRows state.1 pivot col.val) col col=0 := GF256.mk_eq_zero.mpr hz
      rw [hzero] at hpivot
      exact hne (GF256.mk_eq_zero.mp hpivot.symm)

theorem Running.scale (hne : entry state.1 col.val col.val≠0) :
    Sweeping A col 0 (scaleRow state.1 col.val (gfPow (entry state.1 col.val col.val) 254),
      scaleRow state.2 col.val (gfPow (entry state.1 col.val col.val) 254)) := by
  have hfield : (⟨entry state.1 col.val col.val⟩ : GF256)≠0 :=
    fun hz => hne (GF256.mk_eq_zero.mp hz)
  have hinv := GF256.mk_gfPow_254 hne
  have hleft := h.left.toMatrix_scaleRow col (gfPow (entry state.1 col.val col.val) 254)
  have hright := h.right.toMatrix_scaleRow col (gfPow (entry state.1 col.val col.val) 254)
  rw [hinv] at hleft hright
  refine ⟨⟨h.left.scaleRow col.isLt _,h.right.scaleRow col.isLt _,?_,?_⟩,?_,?_⟩
  · dsimp only
    rw [hleft,hright]
    exact h.tracks.scale col (inv_ne_zero hfield)
  · dsimp only
    rw [hleft]
    exact h.cleared.scale le_rfl _
  · dsimp only
    rw [hleft,Matrix.updateRow_self,Pi.smul_apply,smul_eq_mul]
    exact inv_mul_cancel₀ hfield
  · intro i hi
    omega

theorem Running.step (hA : A.det≠0) :
    ∃ next, eliminateColumn n state col.val=.ok next ∧ Running A (col.val+1) next := by
  obtain ⟨pivot,hfind,hle,hlt,hne⟩ := h.find_pivot hA
  obtain ⟨hswap,hdiag⟩ := h.swap hle hlt hne
  have hsweep := (hswap.scale hdiag).fold n le_rfl
  refine ⟨_,?_,⟨hsweep.left,hsweep.right,hsweep.tracks,hsweep.cleared.succ ?_⟩⟩
  · unfold eliminateColumn
    rw [hfind,orElseError_some,ok_bind]
    dsimp only
    rw [gfInv_eq_ok hdiag,ok_bind]
    rfl
  · intro i
    by_cases hic : i=col
    · rw [if_pos hic,hic]
      exact hsweep.pivot
    · rw [if_neg hic]
      exact hsweep.processed i i.isLt hic

end

theorem Running.fold (h : Running A 0 state) (hA : A.det≠0) (count : ℕ) (hcount : count ≤ n) :
    ∃ next, (List.range count).foldlM (eliminateColumn n) state=.ok next ∧
      Running A count next := by
  induction count with
  | zero => exact ⟨state,rfl,h⟩
  | succ count ih =>
    obtain ⟨mid,hmid,hrun⟩ := ih (by omega)
    have hcol : Running A (⟨count,by omega⟩ : Fin n).val mid := hrun
    obtain ⟨next,hnext,hdone⟩ := hcol.step hA
    refine ⟨next,?_,hdone⟩
    rw [range_succ,foldlM_append,hmid,ok_bind,foldlM_cons,hnext]
    rfl

theorem invertMatrix_spec {matrix : ByteMatrix} (hshape : Shape n n matrix)
    (hdet : (toMatrix n matrix).det≠0) :
    ∃ inverse, invertMatrix matrix=.ok inverse ∧ Shape n n inverse ∧
      toMatrix n inverse*toMatrix n matrix=1 := by
  have hstart : Running (toMatrix n matrix) 0 (matrix,identityMatrix n) := by
    refine ⟨hshape,shape_identityMatrix n,?_,cleared_zero _⟩
    rw [toMatrix_identityMatrix]
    exact Tracks.start _
  obtain ⟨state,hfold,hdone⟩ := hstart.fold hdet n le_rfl
  refine ⟨state.2,?_,hdone.right,hdone.tracks.inverse hdone.cleared⟩
  have hsquare : ¬(matrix.any fun row => row.length≠matrix.length)=true := by
    rw [any_eq_true]
    rintro ⟨row,hrow,hbad⟩
    have hlen := hshape.row_length row hrow
    rw [hshape.length_eq] at hbad
    simp [hlen] at hbad
  unfold invertMatrix
  dsimp only
  rw [rejectIf_pos hsquare,ok_bind,hshape.length_eq,hfold]
  rfl

end Run

end Remanence.Parity.Codec
