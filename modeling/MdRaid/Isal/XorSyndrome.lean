import MdRaid.Isal.DropIn

/-!
# The incremental syndrome

The update of `P` and `Q` for some of the data slots takes one pass per slot, which multiplies
the slot with its two coefficients and adds the products to both pages. The portable update
reads the slots once, from the highest down. They are compared through the column again, and
the law of the update follows from what it does to a column: adding the old bytes of a slot
takes them out, since every byte is its own negative.
-/

namespace MdRaid.Isal

open Columns GF256 Raid6 Syndrome Function Finset List Nat

/-! ## The multiply-accumulate kernels -/

/-- Row `row` of slot `i` for the bytes `x`; the matrix is broadcast. -/
def madTerm (k i : Nat) (tbls : Tbls) (row : Nat) (x : Nat → GF256) (t : Nat) : GF256 :=
  affine (tbls (4 * (row * k + i))) (x t)

/-- One pass over `n` vectors: all sources are loaded first, and the two destinations of a vector
just before they are stored. -/
def madAvx2Vectors (k i : Nat) (tbls : Tbls) (src d1 d2 : BufId) (n pos : Nat) (mem : Mem) : Mem :=
  (List.range n).foldl (fun m v =>
    let x := fun t => mem src (pos + 32 * v + t)
    let y := fun (b : BufId) (row t : Nat) => m b (pos + 32 * v + t) + madTerm k i tbls row x t
    store 32 d2 (pos + 32 * v) (y d2 1) (store 32 d1 (pos + 32 * v) (y d1 0) m)) mem

/-- The last `rem` bytes go through zeroed buffers, one destination after the other. -/
def madAvx2Tail (k i : Nat) (tbls : Tbls) (src d1 d2 : BufId) (rem pos : Nat) (mem : Mem) : Mem :=
  let sbuf := fun t => if t < rem then mem src (pos + t) else 0
  let acc := fun (b : BufId) (row : Nat) (m : Mem) =>
    let dbuf := fun t => if t < rem then m b (pos + t) else 0
    store rem b pos (fun t => dbuf t + madTerm k i tbls row sbuf t) m
  acc d2 1 (acc d1 0 mem)

def gf2vectMadAvx2Gfni (len k i : Nat) (tbls : Tbls) (src d1 d2 : BufId) (mem : Mem) : Mem :=
  let mem := stride 96 (madAvx2Vectors k i tbls src d1 d2 3) (len / 96) mem
  let pos := 96 * (len / 96)
  let mem2 := if pos + 64 ≤ len then madAvx2Vectors k i tbls src d1 d2 2 pos mem else mem
  let pos2 := advance len 64 pos
  let mem1 := if pos2 + 32 ≤ len then madAvx2Vectors k i tbls src d1 d2 1 pos2 mem2 else mem2
  let pos1 := advance len 32 pos2
  if pos1 < len then madAvx2Tail k i tbls src d1 d2 (len - pos1) pos1 mem1 else mem1

def madAvx512Vector (k i : Nat) (tbls : Tbls) (src d1 d2 : BufId) (pos : Nat) (mem : Mem) : Mem :=
  let x := fun t => mem src (pos + t)
  let y := fun (b : BufId) (row t : Nat) => mem b (pos + t) + madTerm k i tbls row x t
  store 64 d2 pos (y d2 1) (store 64 d1 pos (y d1 0) mem)

/-- Masked-off bytes are loaded as zero and not stored. -/
def madAvx512Tail (k i : Nat) (tbls : Tbls) (src d1 d2 : BufId) (len pos : Nat) (mem : Mem) : Mem :=
  let m := tailMask len pos
  let load := fun (b : BufId) (t : Nat) => if m.getLsbD t then mem b (pos + t) else 0
  let y := fun (b : BufId) (row t : Nat) => load b t + madTerm k i tbls row (load src) t
  let maskStore := fun (b : BufId) (v : Nat → GF256) (mem : Mem) =>
    store 64 b pos (fun t => if m.getLsbD t then v t else mem b (pos + t)) mem
  maskStore d2 (y d2 1) (maskStore d1 (y d1 0) mem)

def gf2vectMadAvx512Gfni (len k i : Nat) (tbls : Tbls) (src d1 d2 : BufId) (mem : Mem) : Mem :=
  let mem := stride 64 (madAvx512Vector k i tbls src d1 d2) (len / 64) mem
  let pos := 64 * (len / 64)
  if pos < len then madAvx512Tail k i tbls src d1 d2 len pos mem else mem

/-- The kernel for the instruction set found at installation. -/
def mad (useAvx512 : Bool) (bytes k i : Nat) (tbls : Tbls) (src d1 d2 : BufId) (mem : Mem) : Mem :=
  if useAvx512 then gf2vectMadAvx512Gfni bytes k i tbls src d1 d2 mem
  else gf2vectMadAvx2Gfni bytes k i tbls src d1 d2 mem

/-- Without memory for the tables, or with slots out of range, nothing is written. `alloc` is the
outcome of the `kmalloc`. -/
def isalXorSyndrome (useAvx512 alloc : Bool) (disks start stop bytes : Nat) (ptrs : Ptrs)
    (mem : Mem) : Mem :=
  let k := disks - 2
  if disks ≤ 2 ∨ 32 < k ∨ k ≤ stop ∨ stop < start then mem
  else if alloc then
    (range' start (stop + 1 - start)).foldl (fun mem z =>
      mad useAvx512 bytes k z (ecInitTablesGfni k 2 (genCoefs k)) (ptrs z) (ptrs k)
        (ptrs (k + 1)) mem)
      mem
  else mem

/-! ## What the kernels compute -/

/-- One slot added to two entries of a column, each with its own coefficient. -/
def madColumn (k : Nat) (a : Nat → GF256) (i : Nat) (src d1 d2 : BufId) :
    (BufId → GF256) → BufId → GF256 :=
  setTwo d1 d2 (fun col => col d1 + a i * col src) fun col => col d2 + a (k + i) * col src

section Kernels

variable {k i : Nat} (a : Nat → GF256) (src d1 d2 : BufId)

theorem madTerm_apply {row : Nat} (hrow : row < 2) (hi : i < k) (x : Nat → GF256) (t : Nat) :
    madTerm k i (ecInitTablesGfni k 2 a) row x t = a (row * k + i) * x t := by
  have hentry := ecInitTablesGfni_apply a hrow hi (show 0 < 4 by omega)
  rw [add_zero] at hentry
  rw [madTerm, hentry, affine_gfniMatrix]

/-- Two accumulated vectors stored over the columns they were computed from. -/
theorem store_mad_eq {n d : Nat} {v w : Nat → GF256} {mem : Mem}
    (hv : ∀ t < n, v t = mem d1 (d + t) + a (0 * k + i) * mem src (d + t))
    (hw : ∀ t < n, w t = mem d2 (d + t) + a (1 * k + i) * mem src (d + t)) :
    store n d2 d w (store n d1 d v mem) = mapRange (madColumn k a i src d1 d2) d n mem := by
  simp only [zero_mul, zero_add, one_mul] at hv hw
  exact store_store_eq_mapRange hv hw

section

variable (hi : i < k)
include hi

theorem madAvx2Vectors_eq (pos : Nat) (mem : Mem) : ∀ n,
    madAvx2Vectors k i (ecInitTablesGfni k 2 a) src d1 d2 n pos mem =
      mapRange (madColumn k a i src d1 d2) pos (n * 32) mem := by
  intro n
  induction n with
  | zero =>
    rw [zero_mul, mapRange_zero]
    rfl
  | succ n ih =>
    rw [madAvx2Vectors] at ih ⊢
    have hlen : (n + 1) * 32 = 32 * n + 32 := by omega
    rw [List.range_succ, List.foldl_append, List.foldl_cons, List.foldl_nil, ih, hlen,
      ← mapRange_mapRange, mul_comm n 32]
    have hcol : ∀ t b, mapRange (madColumn k a i src d1 d2) pos (32 * n) mem b
        (pos + 32 * n + t) = mem b (pos + 32 * n + t) :=
      fun t b => mapRange_of_not_mem _ _ _ (by omega)
    dsimp only
    refine store_mad_eq a src d1 d2 (fun t _ => ?_) fun t _ => ?_
    · rw [madTerm_apply a (by omega) hi, hcol t src]
    · rw [madTerm_apply a (by omega) hi, hcol t src]

theorem madAvx2Tail_eq (hd : d1 ≠ d2) (rem pos : Nat) (mem : Mem) :
    madAvx2Tail k i (ecInitTablesGfni k 2 a) src d1 d2 rem pos mem =
      mapRange (madColumn k a i src d1 d2) pos rem mem := by
  unfold madAvx2Tail
  dsimp only
  refine store_mad_eq a src d1 d2 (fun t ht => ?_) fun t ht => ?_
  · rw [if_pos ht, madTerm_apply a (by omega) hi, if_pos ht]
  · have hother : ∀ v, store rem d1 pos v mem d2 = mem d2 := fun v =>
      update_of_ne hd.symm _ _
    rw [if_pos ht, madTerm_apply a (by omega) hi, if_pos ht, hother]

/-- **The AVX2 kernel, for every length.** -/
theorem gf2vectMadAvx2Gfni_eq (hd : d1 ≠ d2) (len : Nat) (mem : Mem) :
    gf2vectMadAvx2Gfni len k i (ecInitTablesGfni k 2 a) src d1 d2 mem =
      mapRange (madColumn k a i src d1 d2) 0 len mem :=
  groupsThenTail_eq (show 0 < 32 by decide)
    (fun n pos mem => madAvx2Vectors_eq a src d1 d2 hi pos mem n)
    (fun rem pos mem _ => madAvx2Tail_eq a src d1 d2 hi hd rem pos mem) len mem

theorem madAvx512Vector_eq (pos : Nat) (mem : Mem) :
    madAvx512Vector k i (ecInitTablesGfni k 2 a) src d1 d2 pos mem =
      mapRange (madColumn k a i src d1 d2) pos 64 mem := by
  unfold madAvx512Vector
  dsimp only
  refine store_mad_eq a src d1 d2 (fun t _ => ?_) fun t _ => ?_
  · rw [madTerm_apply a (by omega) hi]
  · rw [madTerm_apply a (by omega) hi]

theorem madAvx512Tail_eq {len pos : Nat} (hlen : len - pos < 64) (mem : Mem) :
    madAvx512Tail k i (ecInitTablesGfni k 2 a) src d1 d2 len pos mem =
      mapRange (madColumn k a i src d1 d2) pos (len - pos) mem := by
  unfold madAvx512Tail
  simp only [store_mask_eq hlen]
  refine store_mad_eq a src d1 d2 (fun t ht => ?_) fun t ht => ?_
  · simp only [madTerm_apply a (show 0 < 2 by omega) hi, tailMask_getLsbD hlen, ht, decide_true,
      if_true]
  · simp only [madTerm_apply a (show 1 < 2 by omega) hi, tailMask_getLsbD hlen, ht, decide_true,
      if_true]

/-- **The AVX-512 kernel, for every length.** -/
theorem gf2vectMadAvx512Gfni_eq (len : Nat) (mem : Mem) :
    gf2vectMadAvx512Gfni len k i (ecInitTablesGfni k 2 a) src d1 d2 mem =
      mapRange (madColumn k a i src d1 d2) 0 len mem :=
  vectorsThenTail_eq (show 0 < 64 by decide) (madAvx512Vector_eq a src d1 d2 hi)
    (fun _ _ mem hlen => madAvx512Tail_eq a src d1 d2 hi hlen mem) len mem

end

theorem mad_eq (useAvx512 : Bool) (bytes : Nat) (hi : i < k) (hd : d1 ≠ d2) (mem : Mem) :
    mad useAvx512 bytes k i (ecInitTablesGfni k 2 a) src d1 d2 mem =
      mapRange (madColumn k a i src d1 d2) 0 bytes mem := by
  unfold mad
  split_ifs
  · exact gf2vectMadAvx512Gfni_eq a src d1 d2 hi bytes mem
  · exact gf2vectMadAvx2Gfni_eq a src d1 d2 hi hd bytes mem

end Kernels

/-! ## The update -/

section Update

variable {k start stop bytes : Nat} {ptrs : Ptrs}

theorem genCoefs_p {z : Nat} (hz : z < k) (x : GF256) : genCoefs k z * x = x := by
  rw [genCoefs, if_pos hz]
  exact one_mul x

theorem genCoefs_q (z : Nat) (x : GF256) : genCoefs k (k + z) * x = alpha ^ z * x := by
  rw [genCoefs, if_neg (by omega), Nat.add_sub_cancel_left, alphaPow_eq]

/-- One more slot. -/
theorem madColumn_xorColumn (hown : OwnPages k ptrs [k, k + 1]) {n : Nat} (hz : start + n < k)
    (col : BufId → GF256) :
    madColumn k (genCoefs k) (start + n) (ptrs (start + n)) (ptrs k) (ptrs (k + 1))
        (setTwo (ptrs k) (ptrs (k + 1))
          (fun col => col (ptrs k) + ∑ z ∈ Finset.Ico start (start + n), col (ptrs z))
          (fun col => col (ptrs (k + 1)) + ∑ z ∈ Finset.Ico start (start + n), alpha ^ z *
            col (ptrs z))
          col) = setTwo (ptrs k) (ptrs (k + 1))
        (fun col => col (ptrs k) + ∑ z ∈ Finset.Ico start (start + (n + 1)), col (ptrs z))
        (fun col => col (ptrs (k + 1)) +
          ∑ z ∈ Finset.Ico start (start + (n + 1)), alpha ^ z * col (ptrs z)) col := by
  have hpz : ptrs (start + n) ≠ ptrs k := hown k (by simp) _ (by omega) (by omega)
  have hqz : ptrs (start + n) ≠ ptrs (k + 1) := hown (k + 1) (by simp) _ (by omega) (by omega)
  have hpq : ptrs k ≠ ptrs (k + 1) := hown (k + 1) (by simp) _ (by omega) (by omega)
  simp only [← add_assoc, sum_Ico_succ_top (le_add_right start n)]
  funext b
  by_cases hbq : b = ptrs (k + 1)
  · rw [hbq]
    simp only [madColumn, setTwo, update_self, update_of_ne hqz,
      update_of_ne hpz, genCoefs_q, add_assoc]
  · by_cases hbp : b = ptrs k
    · rw [hbp]
      simp only [madColumn, setTwo, update_self, update_of_ne hpq,
        update_of_ne hqz, update_of_ne hpz, genCoefs_p hz, add_assoc]
    · simp only [madColumn, setTwo, update_of_ne hbq, update_of_ne hbp]

theorem foldl_mad_eq (useAvx512 : Bool) (hown : OwnPages k ptrs [k, k + 1]) (mem : Mem) :
    ∀ n, start + n ≤ k → (range' start n).foldl (fun mem z => mad useAvx512 bytes k z
          (ecInitTablesGfni k 2 (genCoefs k)) (ptrs z) (ptrs k) (ptrs (k + 1)) mem) mem =
        mapRange (setTwo (ptrs k) (ptrs (k + 1))
          (fun col => col (ptrs k) + ∑ z ∈ Finset.Ico start (start + n), col (ptrs z))
          fun col => col (ptrs (k + 1)) + ∑ z ∈ Finset.Ico start (start + n), alpha ^ z *
            col (ptrs z))
          0 bytes mem := by
  have hpq : ptrs k ≠ ptrs (k + 1) := hown (k + 1) (by simp) _ (by omega) (by omega)
  intro n
  induction n with
  | zero =>
    intro _
    simp only [Finset.Ico_self, sum_empty, add_zero]
    rw [funext (setTwo_self (ptrs k) (ptrs (k + 1))), mapRange_id]
    rfl
  | succ n ih =>
    intro hn
    rw [range'_concat, foldl_append, foldl_cons, foldl_nil, ih (by omega),
      one_mul, mad_eq _ _ _ _ _ _ (by omega) hpq, mapRange_comp]
    simp only [madColumn_xorColumn hown (show start + n < k by omega)]

/-- **The update of the library**, when it has its tables. -/
theorem isalXorSyndrome_eq (useAvx512 : Bool) (hk : k ≤ 32) (hss : start ≤ stop) (hstop : stop < k)
    (hown : OwnPages k ptrs [k, k + 1]) (mem : Mem) :
    isalXorSyndrome useAvx512 true (k + 2) start stop bytes ptrs mem =
      mapRange (xorColumn k start stop ptrs) 0 bytes mem := by
  have hlast : start + (stop + 1 - start) = stop + 1 := by omega
  simp only [isalXorSyndrome, Nat.add_sub_cancel, if_true]
  rw [if_neg (by omega), foldl_mad_eq useAvx512 hown mem _ (by omega), hlast]
  rfl

end Update

/-! ## The law of the update -/

/-- Two pointer tables and memories that differ at most in the data of the slots `start` to
`stop`. -/
structure SameElsewhere (k start stop : Nat) (ptrs ptrs' : Ptrs) (mem mem' : Mem) : Prop where
  p : ptrs' k = ptrs k ∧ mem' (ptrs k) = mem (ptrs k)
  q : ptrs' (k + 1) = ptrs (k + 1) ∧ mem' (ptrs (k + 1)) = mem (ptrs (k + 1))
  data : ∀ z < k, z ∉ Finset.Ico start (stop + 1) → mem' (ptrs' z) = mem (ptrs z)

/-- **The two-step law** for an update: from the syndromes of the old data, adding the old pages
and then the new ones gives the syndromes of the new data. -/
def TwoStepLaw (xorSyndrome : Nat → Ptrs → Mem → Mem) (k start stop : Nat) : Prop :=
  ∀ (bytes : Nat) (ptrs ptrs' : Ptrs) (mem mem' : Mem), 8 ∣ bytes → bytes + 96 < 2 ^ 31 →
    OwnPages k ptrs [k, k + 1] → OwnPages k ptrs' [k, k + 1] →
    SameElsewhere k start stop ptrs ptrs'
      (xorSyndrome bytes ptrs (raid6IntGenSyndrome (k + 2) bytes ptrs mem)) mem' →
    xorSyndrome bytes ptrs' mem' = raid6IntGenSyndrome (k + 2) bytes ptrs' mem'

section Law

variable {k start stop : Nat} {ptrs ptrs' : Ptrs}

/-- Both entries of a column that the generator and then the update have gone through. -/
theorem xorColumn_syndromeColumn (hown : OwnPages k ptrs [k, k + 1]) (hstop : stop < k)
    (col : BufId → GF256) : xorColumn k start stop ptrs (syndromeColumn k ptrs col) =
      setTwo (ptrs k) (ptrs (k + 1))
        (fun col => wsum (range k) (fun _ => (1 : GF256)) (fun z => col (ptrs z)) +
          wsum (Finset.Ico start (stop + 1)) (fun _ => (1 : GF256)) fun z => col (ptrs z))
        (fun col => wsum (range k) (alpha ^ ·) (fun z => col (ptrs z)) +
          wsum (Finset.Ico start (stop + 1)) (alpha ^ ·) fun z => col (ptrs z)) col := by
  have hpq : ptrs k ≠ ptrs (k + 1) := hown (k + 1) (by simp) _ (by omega) (by omega)
  have hdata : ∀ z ∈ Finset.Ico start (stop + 1),
      syndromeColumn k ptrs col (ptrs z) = col (ptrs z) := by
    intro z hz
    rw [mem_Ico] at hz
    rw [syndromeColumn, setTwo, update_of_ne (hown (k + 1) (by simp) z (by omega) (by omega)),
      update_of_ne (hown k (by simp) z (by omega) (by omega))]
  funext b
  by_cases hbq : b = ptrs (k + 1)
  · rw [hbq]
    simp only [xorColumn, setTwo, update_self, wsum, smul_eq_mul]
    rw [sum_congr rfl fun z hz => by rw [hdata z hz]]
    simp only [syndromeColumn, setTwo, update_self]
  · by_cases hbp : b = ptrs k
    · rw [hbp]
      simp only [xorColumn, setTwo, update_self, update_of_ne hpq, wsum, one_smul]
      rw [sum_congr rfl hdata]
      simp only [syndromeColumn, setTwo, update_self, update_of_ne hpq]
    · simp only [xorColumn, syndromeColumn, setTwo, update_of_ne hbq,
        update_of_ne hbp]

/-- The law, for any update that does to a column what it should. -/
theorem twoStepLaw_of_column {xorSyndrome : Nat → Ptrs → Mem → Mem} (hk : 0 < k) (hstop : stop < k)
    (hxor : ∀ bytes ptrs mem, 8 ∣ bytes → OwnPages k ptrs [k, k + 1] →
      xorSyndrome bytes ptrs mem = mapRange (xorColumn k start stop ptrs) 0 bytes mem) :
    TwoStepLaw xorSyndrome k start stop := by
  intro bytes ptrs ptrs' mem mem' h8 _ hown hown' hsame
  obtain ⟨k, rfl⟩ : ∃ k', k = k' + 1 := ⟨k - 1, by omega⟩
  rw [hxor bytes ptrs' mem' h8 hown', raid6IntGenSyndrome_eq k h8]
  rw [hxor bytes ptrs _ h8 hown, raid6IntGenSyndrome_eq k h8, mapRange_comp] at hsame
  simp only [xorColumn_syndromeColumn hown hstop] at hsame
  refine mapRange_congr fun x _ hx => ?_
  have hin : 0 ≤ x ∧ x < 0 + bytes := ⟨zero_le x, hx⟩
  have hpq : ptrs (k + 1) ≠ ptrs (k + 2) := hown (k + 2) (by simp) _ (by omega) (by omega)
  -- what the first step left in this column
  have hp := congrFun hsame.p.2 x
  have hq := congrFun hsame.q.2 x
  rw [mapRange_of_mem _ _ _ hin] at hp hq
  simp only [setTwo, update_self] at hq
  simp only [setTwo, update_of_ne hpq, update_self] at hp
  have hoff : ∀ z ∈ Finset.range (k + 1), z ∉ Finset.Ico start (stop + 1) →
      mem (ptrs z) x = mem' (ptrs' z) x := by
    intro z hz hout
    have hlt := Finset.mem_range.mp hz
    have hz := congrFun (hsame.data z hlt hout) x
    rw [mapRange_of_mem _ _ _ hin] at hz
    simp only [setTwo] at hz
    rw [update_of_ne (hown (k + 2) (by simp) z (by omega) (by omega)),
      update_of_ne (hown (k + 1) (by simp) z (by omega) (by omega))] at hz
    exact hz.symm
  have hsub : Finset.Ico start (stop + 1) ⊆ Finset.range (k + 1) := by
    intro z hz
    rw [Finset.mem_Ico] at hz
    exact Finset.mem_range.mpr (by omega)
  have hpsum := wsum_exchange_subset GF256 hsub (fun _ => (1 : GF256)) hoff
  have hqsum := wsum_exchange_subset GF256 hsub (alpha ^ ·) hoff
  rw [← hp, ← hsame.p.1] at hpsum
  rw [← hq, ← hsame.q.1] at hqsum
  simp only [wsum, smul_eq_mul, one_mul] at hpsum hqsum
  unfold xorColumn syndromeColumn setTwo
  dsimp only
  rw [hpsum, hqsum]

end Law

/-- The update of the library is the portable one and obeys the law. -/
structure IncrementalUpdate (useAvx512 alloc : Bool) (k start stop : Nat) : Prop where
  agrees : ∀ (bytes : Nat) (ptrs : Ptrs) (mem : Mem), 8 ∣ bytes → bytes + 96 < 2 ^ 31 →
    OwnPages k ptrs [k, k + 1] →
    isalXorSyndrome useAvx512 alloc (k + 2) start stop bytes ptrs mem =
      raid6IntXorSyndrome (k + 2) start stop bytes ptrs mem
  twoStep : TwoStepLaw (isalXorSyndrome useAvx512 alloc (k + 2) start stop) k start stop

/-- Ones in one block, zeros in all others. -/
def onesIn (z : Nat) : Mem := fun b _ => if b = .block z then 1 else 0

/-- The portable update adds the ones to `P`. -/
theorem raid6IntXorSyndrome_onesIn {k start stop : Nat} (hss : start ≤ stop) (hstop : stop < k) :
    raid6IntXorSyndrome (k + 2) start stop 8 .block (onesIn start) (.block k) 0 = 1 := by
  have hne : k ≠ start := by omega
  rw [raid6IntXorSyndrome_eq k hss (dvd_refl 8) (by simp), mapRange_of_mem _ _ _
    (by omega), xorColumn,
    setTwo, update_of_ne (by simp), update_self,
    sum_eq_single_of_mem start (mem_Ico.mpr ⟨le_rfl, by omega⟩)]
  · simp [onesIn, hne]
  · intro z _ hz
    simp [onesIn, hz]

/-- **The incremental syndrome law.** The portable update obeys it, and the update of the
library is the portable one exactly when it has memory for its tables. -/
theorem incremental_syndrome_iff (useAvx512 alloc : Bool) {k start stop : Nat} (hk : k ≤ 32)
    (hss : start ≤ stop) (hstop : stop < k) :
    TwoStepLaw (raid6IntXorSyndrome (k + 2) start stop) k start stop ∧
      (IncrementalUpdate useAvx512 alloc k start stop ↔ alloc = true) := by
  have hpq : ∀ ptrs : Ptrs, OwnPages k ptrs [k, k + 1] → ptrs k ≠ ptrs (k + 1) := fun ptrs hown =>
    hown (k + 1) (by simp) _ (by omega) (by omega)
  have hint : ∀ bytes ptrs mem, 8 ∣ bytes → OwnPages k ptrs [k, k + 1] →
      raid6IntXorSyndrome (k + 2) start stop bytes ptrs mem =
        mapRange (xorColumn k start stop ptrs) 0 bytes mem := fun bytes ptrs mem h8 hown =>
    raid6IntXorSyndrome_eq k hss h8 (hpq ptrs hown) mem
  refine ⟨twoStepLaw_of_column (by omega) hstop hint, ?_, ?_⟩
  · intro h
    by_contra halloc
    have heq := h.agrees 8 .block (onesIn start) (dvd_refl 8) (by decide) (ownPages_block _ _)
    have hbyte := congrFun (congrFun heq (.block k)) 0
    have hnoop : isalXorSyndrome useAvx512 alloc (k + 2) start stop 8 .block (onesIn start) =
        onesIn start := by
      unfold isalXorSyndrome
      rw [Bool.eq_false_of_not_eq_true halloc]
      exact ite_self _
    rw [raid6IntXorSyndrome_onesIn hss hstop, hnoop, onesIn, if_neg (by simp; omega)] at hbyte
    exact zero_ne_one hbyte
  · rintro rfl
    constructor
    · intro bytes ptrs mem h8 _ hown
      rw [isalXorSyndrome_eq useAvx512 hk hss hstop hown, hint bytes ptrs mem h8 hown]
    · exact twoStepLaw_of_column (by omega) hstop fun bytes ptrs mem _ hown =>
        isalXorSyndrome_eq useAvx512 hk hss hstop hown mem

theorem incremental_syndrome_six_disks :
    TwoStepLaw (raid6IntXorSyndrome 8 1 4) 6 1 4 ∧
      (IncrementalUpdate true true 6 1 4 ↔ true = true) :=
  incremental_syndrome_iff true true (by decide) (by decide) (by decide)

/-- Without memory for the tables `P` is not updated. -/
theorem isal_xor_syndrome_skips :
    isalXorSyndrome true false 8 1 4 8 .block (onesIn 1) (.block 6) 0 = 0 ∧
      raid6IntXorSyndrome 8 1 4 8 .block (onesIn 1) (.block 6) 0 = 1 :=
  ⟨rfl, raid6IntXorSyndrome_onesIn (by decide) (by decide)⟩

end MdRaid.Isal
