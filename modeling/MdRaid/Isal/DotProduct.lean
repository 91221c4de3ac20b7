import MdRaid.Isal.Tables
import MdRaid.Raid6.IntSyndrome

/-!
# The two-output dot product kernels

Both kernels compute two linear combinations of `k` source blocks. The AVX2 one
takes three vectors of 32 bytes per pass, then at most one group of two and one
single vector, and copies the remainder through a zeroed buffer; the AVX-512 one
takes 64 bytes per pass and masks the remainder. A vector of bytes is a function of
the byte's position in it.
-/

namespace MdRaid.Isal

open Columns GF256 Raid6 Finset Nat

/-- The coefficient tables, as 64-bit words. -/
abbrev Tbls := Nat → BitVec 64

/-- Four copies of the matrix of each coefficient; the words behind the last
coefficient are not written. -/
def ecInitTablesGfni (k rows : Nat) (a : Nat → GF256) : Tbls :=
  fun u => if u < 4 * (rows * k) then gfniMatrix (a (u / 4)) else 0#64

/-! ## AVX2 -/

/-- Output `row` for the source vectors `x`: each group of eight bytes meets its own
copy of the matrix. -/
def dotAvx2 (k : Nat) (tbls : Tbls) (row : Nat) (x : Nat → Nat → GF256) : Nat → GF256 :=
  (List.range k).foldl (fun p i t => p t + affine (tbls (4 * (row * k + i) + t / 8)) (x i t))
    fun _ => 0

/-- One pass over `n` vectors: all loads come before the first store. -/
def avx2Vectors (k : Nat) (tbls : Tbls) (src : Nat → BufId) (d1 d2 : BufId) (n pos : Nat)
    (mem : Mem) : Mem :=
  (List.range n).foldl (fun m v =>
    let x := fun i t => mem (src i) (pos + 32 * v + t)
    store 32 d2 (pos + 32 * v) (dotAvx2 k tbls 1 x)
      (store 32 d1 (pos + 32 * v) (dotAvx2 k tbls 0 x) m)) mem

/-- The last `rem` bytes. -/
def avx2Tail (k : Nat) (tbls : Tbls) (src : Nat → BufId) (d1 d2 : BufId) (rem pos : Nat)
    (mem : Mem) : Mem :=
  let buf := fun i t => if t < rem then mem (src i) (pos + t) else 0
  store rem d2 pos (dotAvx2 k tbls 1 buf) (store rem d1 pos (dotAvx2 k tbls 0 buf) mem)

/-- The position after a group of `w` bytes that is taken only if it fits. -/
def advance (len w pos : Nat) : Nat := if pos + w ≤ len then pos + w else pos

def gf2vectDotProdAvx2Gfni (len k : Nat) (tbls : Tbls) (src : Nat → BufId) (d1 d2 : BufId)
    (mem : Mem) : Mem :=
  let mem := stride 96 (avx2Vectors k tbls src d1 d2 3) (len / 96) mem
  let pos := 96 * (len / 96)
  let mem2 := if pos + 64 ≤ len then avx2Vectors k tbls src d1 d2 2 pos mem else mem
  let pos2 := advance len 64 pos
  let mem1 := if pos2 + 32 ≤ len then avx2Vectors k tbls src d1 d2 1 pos2 mem2 else mem2
  let pos1 := advance len 32 pos2
  if pos1 < len then avx2Tail k tbls src d1 d2 (len - pos1) pos1 mem1 else mem1

/-! ## AVX-512 -/

/-- Output `row` for the source vectors `x`: the first copy of the matrix, broadcast. -/
def dotAvx512 (k : Nat) (tbls : Tbls) (row : Nat) (x : Nat → Nat → GF256) : Nat → GF256 :=
  (List.range k).foldl (fun p i t => p t + affine (tbls (4 * (row * k + i))) (x i t)) fun _ => 0

def avx512Vector (k : Nat) (tbls : Tbls) (src : Nat → BufId) (d1 d2 : BufId) (pos : Nat)
    (mem : Mem) : Mem :=
  let x := fun i t => mem (src i) (pos + t)
  store 64 d2 pos (dotAvx512 k tbls 1 x) (store 64 d1 pos (dotAvx512 k tbls 0 x) mem)

def tailMask (len pos : Nat) : BitVec 64 := (1#64 <<< (len - pos)) - 1#64

/-- Masked-off bytes are loaded as zero and not stored. -/
def avx512Tail (k : Nat) (tbls : Tbls) (src : Nat → BufId) (d1 d2 : BufId) (len pos : Nat)
    (mem : Mem) : Mem :=
  let m := tailMask len pos
  let x := fun i t => if m.getLsbD t then mem (src i) (pos + t) else 0
  let maskStore := fun (b : BufId) (v : Nat → GF256) (mem : Mem) =>
    store 64 b pos (fun t => if m.getLsbD t then v t else mem b (pos + t)) mem
  maskStore d2 (dotAvx512 k tbls 1 x) (maskStore d1 (dotAvx512 k tbls 0 x) mem)

def gf2vectDotProdAvx512Gfni (len k : Nat) (tbls : Tbls) (src : Nat → BufId) (d1 d2 : BufId)
    (mem : Mem) : Mem :=
  let mem := stride 64 (avx512Vector k tbls src d1 d2) (len / 64) mem
  let pos := 64 * (len / 64)
  if pos < len then avx512Tail k tbls src d1 d2 len pos mem else mem

/-! ## What they compute -/

/-- The two linear combinations of one column, with the coefficients row by row. -/
def dotColumn (k : Nat) (a : Nat → GF256) (src : Nat → BufId) (d1 d2 : BufId) :
    (BufId → GF256) → BufId → GF256 :=
  setTwo d1 d2 (fun col => ∑ i ∈ range k, a i * col (src i))
    fun col => ∑ i ∈ range k, a (k + i) * col (src i)

theorem foldl_range_add (f : Nat → Nat → GF256) (t : Nat) : ∀ k,
    (List.range k).foldl (fun (p : Nat → GF256) i t => p t + f i t) (fun _ => 0) t =
      ∑ i ∈ Finset.range k, f i t
  | 0 => rfl
  | k + 1 => by
    rw [List.range_succ, List.foldl_append, List.foldl_cons, List.foldl_nil,
      foldl_range_add f t k, Finset.sum_range_succ]

theorem ecInitTablesGfni_apply {k row i lane : Nat} (a : Nat → GF256) (hrow : row < 2) (hi : i < k)
    (hlane : lane < 4) :
    ecInitTablesGfni k 2 a (4 * (row * k + i) + lane) = gfniMatrix (a (row * k + i)) := by
  have hlt : row * k + i < 2 * k := by
    interval_cases row <;> omega
  rw [ecInitTablesGfni, if_pos (by omega)]
  congr 2
  omega

section Kernels

variable {k : Nat} (a : Nat → GF256) (src : Nat → BufId) (d1 d2 : BufId)

theorem dotAvx2_apply {row t : Nat} (hrow : row < 2) (ht : t < 32) (x : Nat → Nat → GF256) :
    dotAvx2 k (ecInitTablesGfni k 2 a) row x t = ∑ i ∈ range k, a (row * k + i) * x i t := by
  rw [dotAvx2, foldl_range_add fun i t =>
    affine (ecInitTablesGfni k 2 a (4 * (row * k + i) + t / 8)) (x i t)]
  refine sum_congr rfl fun i hi => ?_
  rw [ecInitTablesGfni_apply a hrow (mem_range.mp hi) (by omega), affine_gfniMatrix]

theorem dotAvx512_apply {row : Nat} (hrow : row < 2) (x : Nat → Nat → GF256) (t : Nat) :
    dotAvx512 k (ecInitTablesGfni k 2 a) row x t = ∑ i ∈ range k, a (row * k + i) * x i t := by
  rw [dotAvx512, foldl_range_add fun i t =>
    affine (ecInitTablesGfni k 2 a (4 * (row * k + i))) (x i t)]
  refine sum_congr rfl fun i hi => ?_
  have hentry := ecInitTablesGfni_apply a hrow (mem_range.mp hi) (show 0 < 4 by omega)
  rw [add_zero] at hentry
  rw [hentry, affine_gfniMatrix]

/-- Two vector results stored over the columns they were computed from. -/
theorem store_dot_eq {n d : Nat} {v w : Nat → GF256} {mem : Mem}
    (hv : ∀ t < n, v t = ∑ i ∈ range k, a (0 * k + i) * mem (src i) (d + t))
    (hw : ∀ t < n, w t = ∑ i ∈ range k, a (1 * k + i) * mem (src i) (d + t)) :
    store n d2 d w (store n d1 d v mem) = mapRange (dotColumn k a src d1 d2) d n mem := by
  simp only [zero_mul, zero_add, one_mul] at hv hw
  exact store_store_eq_mapRange hv hw

theorem avx2Vectors_eq (pos : Nat) (mem : Mem) : ∀ n,
    avx2Vectors k (ecInitTablesGfni k 2 a) src d1 d2 n pos mem =
      mapRange (dotColumn k a src d1 d2) pos (32 * n) mem
  | 0 => by rw [mul_zero, mapRange_zero]; rfl
  | n + 1 => by
    have hprev := avx2Vectors_eq pos mem n
    rw [avx2Vectors] at hprev ⊢
    rw [List.range_succ, List.foldl_append, List.foldl_cons, List.foldl_nil, hprev, mul_succ,
      ← mapRange_mapRange]
    -- the columns of this vector are as they were at the loads
    have hcol : ∀ t i, mapRange (dotColumn k a src d1 d2) pos (32 * n) mem (src i)
        (pos + 32 * n + t) = mem (src i) (pos + 32 * n + t) :=
      fun t i => mapRange_of_not_mem _ _ _ (by omega)
    refine store_dot_eq a src d1 d2 (fun t ht => ?_) fun t ht => ?_
    · simp only [hcol, dotAvx2_apply a (show 0 < 2 by omega) ht]
    · simp only [hcol, dotAvx2_apply a (show 1 < 2 by omega) ht]

theorem avx2Tail_eq {rem : Nat} (hrem : rem < 32) (pos : Nat) (mem : Mem) :
    avx2Tail k (ecInitTablesGfni k 2 a) src d1 d2 rem pos mem =
      mapRange (dotColumn k a src d1 d2) pos rem mem := by
  refine store_dot_eq a src d1 d2 (fun t ht => ?_) fun t ht => ?_
  · rw [dotAvx2_apply a (by omega) (by omega)]
    simp only [if_pos ht]
  · rw [dotAvx2_apply a (by omega) (by omega)]
    simp only [if_pos ht]

/-- **The AVX2 kernel, for every length.** -/
theorem gf2vectDotProdAvx2Gfni_eq (len : Nat) (mem : Mem) :
    gf2vectDotProdAvx2Gfni len k (ecInitTablesGfni k 2 a) src d1 d2 mem =
      mapRange (dotColumn k a src d1 d2) 0 len mem := by
  refine groupsThenTail_eq (show 0 < 32 by decide) (fun n pos mem => ?_)
    (fun rem pos mem hrem => ?_)
    len mem
  · rw [mul_comm]
    exact avx2Vectors_eq a src d1 d2 pos mem n
  · exact avx2Tail_eq a src d1 d2 hrem pos mem

theorem tailMask_getLsbD {len pos t : Nat} (hlen : len - pos < 64) :
    (tailMask len pos).getLsbD t = decide (t < len - pos) := by
  have hpow : 2 ^ (len - pos) < 2 ^ 64 := Nat.pow_lt_pow_right (by omega) hlen
  have hone : 1 ≤ 2 ^ (len - pos) := Nat.one_le_two_pow
  have hshift : (1#64 <<< (len - pos)).toNat = 2 ^ (len - pos) := by
    rw [BitVec.toNat_shiftLeft, BitVec.toNat_ofNat, shiftLeft_eq]
    simpa using hpow
  have hval : (tailMask len pos).toNat = 2 ^ (len - pos) - 1 := by
    rw [tailMask, BitVec.toNat_sub_of_le (by rw [BitVec.le_def, hshift]; exact hone), hshift]
    rfl
  rw [BitVec.getLsbD, hval, testBit_two_pow_sub_one]

theorem avx512Vector_eq (pos : Nat) (mem : Mem) :
    avx512Vector k (ecInitTablesGfni k 2 a) src d1 d2 pos mem =
      mapRange (dotColumn k a src d1 d2) pos 64 mem := by
  refine store_dot_eq a src d1 d2 (fun t _ => ?_) fun t _ => ?_
  · exact dotAvx512_apply a (by omega) _ t
  · exact dotAvx512_apply a (by omega) _ t

/-- A masked store writes the bytes below the mask's length. -/
theorem store_mask_eq {len pos : Nat} (hlen : len - pos < 64) (b : BufId) (v : Nat → GF256)
    (mem : Mem) :
    store 64 b pos (fun t => if (tailMask len pos).getLsbD t then v t else mem b (pos + t)) mem =
      store (len - pos) b pos v mem := by
  funext c x
  by_cases hx : pos ≤ x ∧ x < pos + 64
  · rw [store_of_mem _ _ _ _ hx, tailMask_getLsbD hlen]
    by_cases hin : pos ≤ x ∧ x < pos + (len - pos)
    · rw [store_of_mem _ _ _ _ hin]
      simp [show x - pos < len - pos by omega]
    · rw [store_of_not_mem _ _ _ _ hin, decide_eq_false (by omega), Nat.add_sub_cancel' hx.1]
      by_cases hc : c = b
      · simp [hc]
      · exact if_neg hc
  · rw [store_of_not_mem _ _ _ _ hx, store_of_not_mem _ _ _ _ (by omega)]

theorem avx512Tail_eq {len pos : Nat} (hlen : len - pos < 64) (mem : Mem) :
    avx512Tail k (ecInitTablesGfni k 2 a) src d1 d2 len pos mem =
      mapRange (dotColumn k a src d1 d2) pos (len - pos) mem := by
  unfold avx512Tail
  simp only [store_mask_eq hlen]
  refine store_dot_eq a src d1 d2 (fun t ht => ?_) fun t ht => ?_
  · rw [dotAvx512_apply a (by omega)]
    simp only [tailMask_getLsbD hlen, ht, decide_true, if_true]
  · rw [dotAvx512_apply a (by omega)]
    simp only [tailMask_getLsbD hlen, ht, decide_true, if_true]

/-- **The AVX-512 kernel, for every length.** -/
theorem gf2vectDotProdAvx512Gfni_eq (len : Nat) (mem : Mem) :
    gf2vectDotProdAvx512Gfni len k (ecInitTablesGfni k 2 a) src d1 d2 mem =
      mapRange (dotColumn k a src d1 d2) 0 len mem :=
  vectorsThenTail_eq (show 0 < 64 by decide) (avx512Vector_eq a src d1 d2)
    (fun _ _ mem hlen => avx512Tail_eq a src d1 d2 hlen mem) len mem

end Kernels

end MdRaid.Isal
