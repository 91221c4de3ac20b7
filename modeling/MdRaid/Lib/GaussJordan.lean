import Mathlib

/-!
# In-place Gauss-Jordan inversion

The matrix to invert and the identity are transformed side by side: in column
`i` a row with a non-zero entry is brought to position `i`, scaled to a leading
one and subtracted from every other row. The inversion fails when no such row
exists at or below `i`.

One invariant carries both directions. The right matrix multiplied with the
original gives the left one, so a left matrix that has become the identity makes
the right one an inverse; and the left matrix annihilates nothing the original
does not, so a missing pivot exhibits a vector the original annihilates.
-/

namespace MdRaid.GaussJordan

open Matrix Equiv GaussJordan List Option

variable {F : Type*} {n : Nat}

/-- The two matrices of the elimination: the one being reduced, and the one that
started as the identity. -/
structure Work (F : Type*) (n : Nat) where
  inMat : Matrix (Fin n) (Fin n) F
  outMat : Matrix (Fin n) (Fin n) F

def swapRows (i j : Fin n) (A : Matrix (Fin n) (Fin n) F) : Matrix (Fin n) (Fin n) F :=
  fun r => A (swap i j r)

/-- The row that supplies the pivot of column `i`: row `i` itself, or the first
row below it with a non-zero entry in that column. -/
def pivotRow [Zero F] [DecidableEq F] (A : Matrix (Fin n) (Fin n) F) (i : Fin n) : Option (Fin n) :=
  if A i i = 0 then (finRange n).find? fun j => decide (i < j) && decide (A j i ≠ 0)
  else some i

section Field

variable [Field F]

def scaleRow (i : Fin n) (t : F) (A : Matrix (Fin n) (Fin n) F) : Matrix (Fin n) (Fin n) F :=
  fun r => if r = i then t • A i else A r

def clearRows (i : Fin n) (t : Fin n → F) (A : Matrix (Fin n) (Fin n) F) :
    Matrix (Fin n) (Fin n) F :=
  fun r => if r = i then A r else A r - t r • A i

/-- Column `i` with pivot row `j`: the row operations are chosen from the left
matrix and applied to both. -/
def eliminate (i j : Fin n) (w : Work F n) : Work F n :=
  let left := scaleRow i (w.inMat j i)⁻¹ (swapRows i j w.inMat)
  let right := scaleRow i (w.inMat j i)⁻¹ (swapRows i j w.outMat)
  ⟨clearRows i (fun r => left r i) left, clearRows i (fun r => left r i) right⟩

variable [DecidableEq F]

def step (w : Work F n) (i : Fin n) : Option (Work F n) :=
  (pivotRow w.inMat i).map fun j => eliminate i j w

def invert (A : Matrix (Fin n) (Fin n) F) : Option (Matrix (Fin n) (Fin n) F) :=
  ((finRange n).foldlM step ⟨A, 1⟩).map Work.outMat

/-! ## One column -/

variable {A : Matrix (Fin n) (Fin n) F} {i : Fin n}

omit [Field F] in
theorem pivotRow_some [Zero F] {i j : Fin n} (h : pivotRow A i = some j) : i ≤ j ∧ A j i ≠ 0 := by
  unfold pivotRow at h
  split_ifs at h with hii
  · have hj := find?_some h
    simp only [ne_eq, Bool.and_eq_true, decide_eq_true_eq] at hj
    exact ⟨hj.1.le, hj.2⟩
  · cases h
    exact ⟨le_rfl, hii⟩

omit [Field F] in
theorem pivotRow_none [Zero F] (h : pivotRow A i = none) : ∀ r, i ≤ r → A r i = 0 := by
  unfold pivotRow at h
  split_ifs at h with hii
  intro r hr
  rcases hr.eq_or_lt with rfl | hlt
  · exact hii
  · have hnot := find?_eq_none.mp h r (mem_finRange r)
    simpa [hlt] using hnot

omit [DecidableEq F] in
/-- The row operations of one column act on each row of a matrix in the same way. -/
theorem combine_apply (i j : Fin n) (s : F) (t : Fin n → F) (A : Matrix (Fin n) (Fin n) F)
    (r : Fin n) : clearRows i t (scaleRow i s (swapRows i j A)) r =
      if r = i then s • A j else A (swap i j r) - t r • s • A j := by
  by_cases hr : r = i
  · simp [clearRows, scaleRow, swapRows, hr]
  · simp [clearRows, scaleRow, swapRows, hr]

omit [DecidableEq F] in
theorem combine_mul (i j : Fin n) (s : F) (t : Fin n → F) (A B : Matrix (Fin n) (Fin n) F) :
    clearRows i t (scaleRow i s (swapRows i j A)) * B =
      clearRows i t (scaleRow i s (swapRows i j (A * B))) := by
  funext r
  rw [mul_apply_eq_vecMul, combine_apply, combine_apply]
  split_ifs with hr
  · rw [smul_vecMul, mul_apply_eq_vecMul]
  · rw [sub_vecMul, smul_vecMul, smul_vecMul, mul_apply_eq_vecMul, mul_apply_eq_vecMul]

omit [DecidableEq F] in
/-- The row operations of one column can be undone. -/
theorem mulVec_eq_zero_of_combine {i j : Fin n} {s : F} {t : Fin n → F} {v : Fin n → F} (hs : s ≠ 0)
    (h : clearRows i t (scaleRow i s (swapRows i j A)) *ᵥ v = 0) : A *ᵥ v = 0 := by
  have hrow : ∀ r, clearRows i t (scaleRow i s (swapRows i j A)) r ⬝ᵥ v = 0 :=
    fun r => congrFun h r
  have hpivot : A j ⬝ᵥ v = 0 := by
    have hi := hrow i
    rw [combine_apply, if_pos rfl, smul_dotProduct, smul_eq_mul] at hi
    exact (mul_eq_zero.mp hi).resolve_left hs
  funext r
  by_cases hr : swap i j r = i
  · have hrj : r = j := (swap i j).injective (hr.trans (swap_apply_right i j).symm)
    subst hrj
    exact hpivot
  · have hother := hrow (swap i j r)
    rw [combine_apply, if_neg hr, swap_apply_self, sub_dotProduct, smul_dotProduct,
      smul_dotProduct, hpivot, smul_zero, smul_zero, sub_zero] at hother
    exact hother

/-! ## The invariant -/

/-- After the first `m` columns. -/
structure Reduced (A : Matrix (Fin n) (Fin n) F) (m : Nat) (w : Work F n) : Prop where
  product : w.outMat * A = w.inMat
  kernel : ∀ v, w.inMat *ᵥ v = 0 → A *ᵥ v = 0
  unit : ∀ c : Fin n, c.val < m → ∀ r, w.inMat r c = (1 : Matrix (Fin n) (Fin n) F) r c

omit [DecidableEq F] in
theorem Reduced.init (A : Matrix (Fin n) (Fin n) F) : Reduced A 0 ⟨A, 1⟩ where
  product := one_mul A
  kernel := fun _ hv => hv
  unit := fun _ hc => absurd hc (Nat.not_lt_zero _)

omit [DecidableEq F] in
theorem Reduced.eliminate {w : Work F n} {i j : Fin n}
    (h : Reduced A i w) (hij : i ≤ j) (hpivot : w.inMat j i ≠ 0) :
    Reduced A (i + 1) (eliminate i j w) where
  product := by
    show clearRows _ _ _ * A = clearRows _ _ _
    rw [combine_mul, h.product]
  kernel := fun v hv => h.kernel v (mulVec_eq_zero_of_combine (inv_ne_zero hpivot) hv)
  unit := by
    intro c hc r
    unfold GaussJordan.eliminate
    simp only [combine_apply]
    rcases (Nat.lt_succ_iff.mp hc).eq_or_lt with heq | hlt
    · -- the column of the pivot itself
      obtain rfl : c = i := Fin.ext heq
      split_ifs with hr
      · subst hr
        simp [hpivot]
      · simp [hr, scaleRow, swapRows, hpivot]
    · -- earlier columns are zero in the pivot row
      have hci : c ≠ i := fun he => absurd (congrArg Fin.val he) hlt.ne
      have hcj : c ≠ j := fun he => absurd (Fin.le_def.mp (he ▸ hij)) (not_le.mpr hlt)
      have hzero : w.inMat j c = 0 := by rw [h.unit c hlt, one_apply_ne (Ne.symm hcj)]
      split_ifs with hr
      · subst hr
        simp [hzero, one_apply_ne (Ne.symm hci)]
      · by_cases hrj : r = j
        · subst hrj
          simp [hzero, h.unit c hlt, one_apply_ne (Ne.symm hci), one_apply_ne (Ne.symm hcj)]
        · simp [hzero, swap_apply_of_ne_of_ne hr hrj, h.unit c hlt]

omit [DecidableEq F] in
/-- Without a pivot the original matrix annihilates a non-zero vector. -/
theorem Reduced.exists_kernel {w : Work F n}
    (h : Reduced A i w) (hzero : ∀ r, i ≤ r → w.inMat r i = 0) : ∃ v, v ≠ 0 ∧ A *ᵥ v = 0 := by
  -- column `i` is a combination of the unit columns before it
  let v : Fin n → F := fun c => if c = i then 1 else if c < i then - w.inMat c i else 0
  refine ⟨v, fun hv => ?_, h.kernel v ?_⟩
  · have := congrFun hv i
    simp [v] at this
  · funext r
    show ∑ c, w.inMat r c * v c = 0
    have hterm : ∀ c, w.inMat r c * v c =
        (if c = i then w.inMat r i else 0) - (if c = r then
          (if r < i then w.inMat r i else 0) else 0) := by
      intro c
      by_cases hci : c = i
      · subst hci
        by_cases hcr : c = r <;> simp [v, hcr]
      · by_cases hlt : c < i
        · rw [h.unit c hlt]
          by_cases hcr : c = r
          · subst hcr
            simp [v, hci, hlt]
          · simp [v, hci, hcr, one_apply_ne (Ne.symm hcr)]
        · by_cases hcr : c = r
          · subst hcr
            simp [v, hci, hlt]
          · simp [v, hci, hlt, hcr]
    rw [Finset.sum_congr rfl fun c _ => hterm c, Finset.sum_sub_distrib]
    simp only [Finset.sum_ite_eq', Finset.mem_univ, if_true]
    by_cases hr : r < i
    · simp [hr]
    · simp [hr, hzero r (not_lt.mp hr)]

/-! ## The whole inversion -/

theorem Reduced.step {w w' : Work F n}
    (h : Reduced A i w) (hstep : step w i = some w') : Reduced A (i + 1) w' := by
  obtain ⟨j, hj, rfl⟩ := map_eq_some_iff.mp hstep
  exact h.eliminate (pivotRow_some hj).1 (pivotRow_some hj).2

theorem Reduced.step_isSome {w : Work F n}
    (h : Reduced A i w) (hA : ∀ v, A *ᵥ v = 0 → v = 0) : ∃ w', GaussJordan.step w i = some w' := by
  cases hj : pivotRow w.inMat i with
  | some j => exact ⟨GaussJordan.eliminate i j w, by simp [GaussJordan.step, hj]⟩
  | none =>
    obtain ⟨v, hv, hAv⟩ := h.exists_kernel (pivotRow_none hj)
    exact absurd (hA v hAv) hv

theorem Reduced.foldlM : ∀ (l : List (Fin n)) (m : Nat) (w w' : Work F n), Reduced A m w →
      l.map Fin.val = List.range' m l.length → l.foldlM GaussJordan.step w = some w' →
      Reduced A (m + l.length) w'
  | [], m, w, w', h, _, hw => by
    cases hw
    exact h
  | i :: l, m, w, w', h, hl, hw => by
    rw [map_cons, length_cons, range'_succ] at hl
    obtain ⟨rfl, hl⟩ := cons.inj hl
    obtain ⟨w₁, hw₁, hw⟩ := bind_eq_some_iff.mp hw
    rw [length_cons, add_comm l.length 1, ← add_assoc]
    exact Reduced.foldlM l (i + 1) w₁ w' (h.step hw₁) hl hw

theorem foldlM_isSome (hA : ∀ v, A *ᵥ v = 0 → v = 0) :
    ∀ (l : List (Fin n)) (m : Nat) (w : Work F n), Reduced A m w →
      l.map Fin.val = range' m l.length → ∃ w', l.foldlM step w = some w'
  | [], _, w, _, _ => ⟨w, rfl⟩
  | i :: l, m, w, h, hl => by
    rw [map_cons, length_cons, range'_succ] at hl
    obtain ⟨rfl, hl⟩ := cons.inj hl
    obtain ⟨w₁, hw₁⟩ := h.step_isSome hA
    rw [foldlM_cons, hw₁]
    exact foldlM_isSome hA l (i + 1) w₁ (h.step hw₁) hl

/-- **Gauss-Jordan inversion is sound.** What it returns is a left inverse. -/
theorem invert_some {B : Matrix (Fin n) (Fin n) F} (h : invert A = some B) : B * A = 1 := by
  obtain ⟨w, hw, rfl⟩ := map_eq_some_iff.mp h
  have hred := Reduced.foldlM _ 0 _ w (Reduced.init A) (by simp [List.range_eq_range']) hw
  rw [hred.product]
  funext r c
  exact hred.unit c (by simp) r

/-- **Gauss-Jordan inversion is complete.** A matrix that annihilates only zero is
inverted. -/
theorem invert_of_injective (hA : ∀ v, A *ᵥ v = 0 → v = 0) :
    ∃ B, invert A = some B ∧ B * A = 1 := by
  obtain ⟨w, hw⟩ := foldlM_isSome hA (finRange n) 0 ⟨A, 1⟩ (Reduced.init A)
    (by simp [range_eq_range'])
  have hB : invert A = some w.outMat := by rw [invert, hw, map_some]
  exact ⟨w.outMat, hB, invert_some hB⟩

end Field

end MdRaid.GaussJordan
