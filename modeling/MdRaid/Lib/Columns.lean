import Mathlib

/-!
# Loops over blocks of bytes

A family of equally long blocks is processed some columns at a time, a column
being the bytes of all blocks at one offset. A routine whose step treats every
column of its stride by one and the same function treats every column it covers
by that function, whatever its stride: routines with different strides and tails
are compared through the function they apply to a column.
-/

namespace MdRaid.Columns

open Function Nat

variable {ι β σ : Type*}

/-- Apply `f` to the `n` columns from offset `a` on. -/
def mapRange (f : (ι → β) → ι → β) (a n : Nat) (mem : ι → Nat → β) : ι → Nat → β :=
  fun i x => if a ≤ x ∧ x < a + n then f (fun i => mem i x) i else mem i x

section

variable (f : (ι → β) → ι → β) {a n x : Nat} (mem : ι → Nat → β) (i : ι)
include f mem i

theorem mapRange_of_mem (h : a ≤ x ∧ x < a + n) : mapRange f a n mem i x = f (fun i => mem i x) i :=
  if_pos h

theorem mapRange_of_not_mem (h : ¬ (a ≤ x ∧ x < a + n)) : mapRange f a n mem i x = mem i x :=
  if_neg h

end

@[simp] theorem mapRange_zero (f : (ι → β) → ι → β) (a : Nat) (mem : ι → Nat → β) :
    mapRange f a 0 mem = mem := by
  funext i x
  exact mapRange_of_not_mem f mem i fun h => absurd h.2 (not_lt.mpr h.1)

theorem mapRange_id (a n : Nat) (mem : ι → Nat → β) : mapRange (fun col => col) a n mem = mem := by
  funext i x
  exact ite_self _

/-- Adjacent ranges. -/
theorem mapRange_mapRange (f : (ι → β) → ι → β) (a m n : Nat) (mem : ι → Nat → β) :
    mapRange f (a + m) n (mapRange f a m mem) = mapRange f a (m + n) mem := by
  funext i x
  by_cases hlow : a ≤ x ∧ x < a + m
  · rw [mapRange_of_not_mem _ _ _ (by omega), mapRange_of_mem _ _ _ hlow,
      mapRange_of_mem _ _ _ (by omega)]
  · by_cases hhigh : a + m ≤ x ∧ x < a + m + n
    · have hcol : (fun j => mapRange f a m mem j x) = fun j => mem j x :=
        funext fun j => mapRange_of_not_mem f mem j hlow
      rw [mapRange_of_mem _ _ _ hhigh, hcol, mapRange_of_mem _ _ _ (by omega)]
    · rw [mapRange_of_not_mem _ _ _ hhigh, mapRange_of_not_mem _ _ _ hlow,
        mapRange_of_not_mem _ _ _ (by omega)]

/-- Two passes over the same range. -/
theorem mapRange_comp (f g : (ι → β) → ι → β) (a n : Nat) (mem : ι → Nat → β) :
    mapRange g a n (mapRange f a n mem) = mapRange (fun col => g (f col)) a n mem := by
  funext i x
  by_cases hx : a ≤ x ∧ x < a + n
  · have hcol : (fun j => mapRange f a n mem j x) = f fun j => mem j x :=
      funext fun j => mapRange_of_mem f mem j hx
    rw [mapRange_of_mem _ _ _ hx, hcol, mapRange_of_mem _ _ _ hx]
  · rw [mapRange_of_not_mem _ _ _ hx, mapRange_of_not_mem _ _ _ hx, mapRange_of_not_mem _ _ _ hx]

/-- Only the columns in the range matter. -/
theorem mapRange_congr {f g : (ι → β) → ι → β} {a n : Nat} {mem : ι → Nat → β}
    (h : ∀ x, a ≤ x → x < a + n → f (fun i => mem i x) = g fun i => mem i x) :
    mapRange f a n mem = mapRange g a n mem := by
  funext i x
  by_cases hx : a ≤ x ∧ x < a + n
  · rw [mapRange_of_mem _ _ _ hx, mapRange_of_mem _ _ _ hx, h x hx.1 hx.2]
  · rw [mapRange_of_not_mem _ _ _ hx, mapRange_of_not_mem _ _ _ hx]

/-! ## Stores -/

section Store

variable [DecidableEq ι]

/-- Write the first `n` values of `v` to block `b` at offset `d`. -/
def store (n : Nat) (b : ι) (d : Nat) (v : Nat → β) (mem : ι → Nat → β) : ι → Nat → β :=
  update mem b fun x => if d ≤ x ∧ x < d + n then v (x - d) else mem b x

section

variable {n d x : Nat} (b c : ι) (v : Nat → β) (mem : ι → Nat → β)
include b c v mem

theorem store_of_mem
    (h : d ≤ x ∧ x < d + n) : store n b d v mem c x = if c = b then v (x - d) else mem c x := by
  simp only [store, update_apply]
  split_ifs with hc
  · exact if_pos h
  · rfl

theorem store_of_not_mem (h : ¬ (d ≤ x ∧ x < d + n)) : store n b d v mem c x = mem c x := by
  simp only [store, update_apply]
  split_ifs with hc
  · rw [hc]
    exact if_neg h
  · rfl

end

/-- The function a column undergoes when two of its entries are replaced. -/
def setTwo (b c : ι) (f g : (ι → β) → β) (col : ι → β) : ι → β :=
  update (update col b (f col)) c (g col)

theorem setTwo_self (b c : ι) (col : ι → β) :
    setTwo b c (fun col => col b) (fun col => col c) col = col := by
  rw [setTwo, update_eq_self, update_eq_self]

/-- Two results of a step, each stored over the columns of the step. -/
theorem store_store_eq_mapRange {n d : Nat} {b c : ι} {v w : Nat → β} {f g : (ι → β) → β}
    {mem : ι → Nat → β} (hv : ∀ t < n, v t = f fun i => mem i (d + t))
    (hw : ∀ t < n, w t = g fun i => mem i (d + t)) :
    store n c d w (store n b d v mem) = mapRange (setTwo b c f g) d n mem := by
  funext i x
  by_cases hx : d ≤ x ∧ x < d + n
  · rw [mapRange_of_mem _ _ _ hx, store_of_mem _ _ _ _ hx, store_of_mem _ _ _ _ hx,
      hv _ (by omega), hw _ (by omega), Nat.add_sub_cancel' hx.1]
    simp only [setTwo, update_apply]
  · rw [mapRange_of_not_mem _ _ _ hx, store_of_not_mem _ _ _ _ hx, store_of_not_mem _ _ _ _ hx]

end Store

/-! ## Strides -/

/-- `n` passes of `body`, at the offsets `0, w, 2 * w, ...`. -/
def stride (w : Nat) (body : Nat → σ → σ) : Nat → σ → σ
  | 0, s => s
  | n + 1, s => body (w * n) (stride w body n s)

theorem stride_eq_mapRange {w : Nat} {f : (ι → β) → ι → β}
    {body : Nat → (ι → Nat → β) → ι → Nat → β}
    (hbody : ∀ pos mem, body pos mem = mapRange f pos w mem) :
    ∀ n mem, stride w body n mem = mapRange f 0 (w * n) mem
  | 0, mem => by rw [mul_zero, mapRange_zero]; rfl
  | n + 1, mem => by
    have hadj := mapRange_mapRange f 0 (w * n) w mem
    rw [zero_add] at hadj
    rw [stride, hbody, stride_eq_mapRange hbody n mem, hadj, mul_succ]

/-! ## Vector kernels -/

section Kernel

variable {f : (ι → β) → ι → β} {tail : Nat → Nat → (ι → Nat → β) → ι → Nat → β}

theorem mapRange_from_zero (f : (ι → β) → ι → β) {pos len : Nat} (h : pos ≤ len)
    (mem : ι → Nat → β) :
    mapRange f pos (len - pos) (mapRange f 0 pos mem) = mapRange f 0 len mem := by
  have hadj := mapRange_mapRange f 0 pos (len - pos) mem
  rwa [zero_add, Nat.add_sub_cancel' h] at hadj

/-- Whole vectors of `w`, then the remainder. -/
def vectorsThenTail (w : Nat) (body : Nat → σ → σ) (tail : Nat → Nat → σ → σ) (len : Nat) (s : σ) :
    σ :=
  let s := stride w body (len / w) s
  let pos := w * (len / w)
  if pos < len then tail len pos s else s

theorem vectorsThenTail_eq {w : Nat} (hw : 0 < w)
    {body : Nat → (ι → Nat → β) → ι → Nat → β} (hbody : ∀ pos mem,
    body pos mem = mapRange f pos w mem)
    (htail : ∀ len pos mem, len - pos < w → tail len pos mem = mapRange f pos (len - pos) mem)
    (len : Nat) (mem : ι → Nat → β) :
    vectorsThenTail w body tail len mem = mapRange f 0 len mem := by
  have hpos : w * (len / w) ≤ len := mul_div_le len w
  simp only [vectorsThenTail, stride_eq_mapRange hbody]
  split_ifs with hrem
  · have hlt : len - w * (len / w) < w := by
      have := lt_mul_div_succ len hw
      rw [mul_succ] at this
      omega
    rw [htail _ _ _ hlt, mapRange_from_zero f hpos]
  · rw [le_antisymm hpos (not_lt.mp hrem)]

/-- Groups of three vectors of `w`, at most one group of two and one vector, then the
remainder. -/
def groupsThenTail (w : Nat) (vectors tail : Nat → Nat → σ → σ) (len : Nat) (s : σ) : σ :=
  let s3 := stride (3 * w) (vectors 3) (len / (3 * w)) s
  let pos3 := 3 * w * (len / (3 * w))
  let s2 := if pos3 + 2 * w ≤ len then vectors 2 pos3 s3 else s3
  let pos2 := if pos3 + 2 * w ≤ len then pos3 + 2 * w else pos3
  let s1 := if pos2 + 1 * w ≤ len then vectors 1 pos2 s2 else s2
  let pos1 := if pos2 + 1 * w ≤ len then pos2 + 1 * w else pos2
  if pos1 < len then tail (len - pos1) pos1 s1 else s1

theorem group_eq {w n len pos : Nat} {vectors : Nat → Nat → (ι → Nat → β) → ι → Nat → β}
    (hvec : ∀ n pos mem, vectors n pos mem = mapRange f pos (n * w) mem) {mem s : ι → Nat → β}
    (hs : s = mapRange f 0 pos mem) :
    (if pos + n * w ≤ len then vectors n pos s else s) =
      mapRange f 0 (if pos + n * w ≤ len then pos + n * w else pos) mem := by
  split_ifs
  · have hadj := mapRange_mapRange f 0 pos (n * w) mem
    rw [zero_add] at hadj
    rw [hvec, hs, hadj]
  · exact hs

theorem groupsThenTail_eq {w : Nat} (hw : 0 < w) {vectors : Nat → Nat → (ι → Nat → β) → ι → Nat → β}
    (hvec : ∀ n pos mem, vectors n pos mem = mapRange f pos (n * w) mem)
    (htail : ∀ rem pos mem, rem < w → tail rem pos mem = mapRange f pos rem mem)
    (len : Nat) (mem : ι → Nat → β) :
    groupsThenTail w vectors tail len mem = mapRange f 0 len mem := by
  have h3 : stride (3 * w) (vectors 3) (len / (3 * w)) mem =
      mapRange f 0 (3 * w * (len / (3 * w))) mem := stride_eq_mapRange (hvec 3) _ _
  have hlow : 3 * w * (len / (3 * w)) ≤ len := mul_div_le len _
  have hhigh : len < 3 * w * (len / (3 * w)) + 3 * w := by
    have := lt_mul_div_succ len (show 0 < 3 * w by omega)
    rwa [mul_succ] at this
  unfold groupsThenTail
  generalize 3 * w * (len / (3 * w)) = pos3 at h3 hlow hhigh ⊢
  have h2 := @group_eq ι β f w 2 len pos3 vectors hvec mem _ h3
  have h1 := @group_eq ι β f w 1 len _ vectors hvec mem _ h2
  dsimp only
  rw [h1]
  generalize hpos1 : (if (if pos3 + 2 * w ≤ len then pos3 + 2 * w else pos3) + 1 * w ≤ len then
    (if pos3 + 2 * w ≤ len then pos3 + 2 * w else pos3) + 1 * w
    else if pos3 + 2 * w ≤ len then pos3 + 2 * w else pos3) = pos1
  have hrem : pos1 ≤ len ∧ len - pos1 < w := by
    split_ifs at hpos1 <;> omega
  split_ifs with htl
  · rw [htail _ _ _ hrem.2, mapRange_from_zero f hrem.1]
  · rw [le_antisymm hrem.1 (not_lt.mp htl)]

end Kernel

end MdRaid.Columns
