import MdRaid.Isal.Raid6Isal
import MdRaid.Lib.Syndrome

/-!
# Decoding through the inverse

The surviving blocks are the image of the data under a matrix that annihilates only
zero, so the inversion succeeds and its result, applied to the survivors, gives the
data back. The sources and the rows of the matrix are listed in the same order, which
is what ties the coefficient at a position to the block at that position.
-/

namespace MdRaid.Isal

open Columns GF256 Raid6 Syndrome Finset GaussJordan List List.Forall₂

theorem alphaPow_eq : ∀ e, alphaPow e = alpha ^ e
  | 0 => rfl
  | e + 1 => by
    rw [alphaPow, gfMul_eq, alphaPow_eq e, pow_succ]
    rfl

theorem dotProd_eq (useAvx512 : Bool) (bytes k : Nat) (a : Nat → GF256) (src : Nat → BufId)
    (d1 d2 : BufId) (mem : Mem) : dotProd useAvx512 bytes k (ecInitTablesGfni k 2 a) src d1 d2 mem =
      mapRange (dotColumn k a src d1 d2) 0 bytes mem := by
  unfold dotProd
  split_ifs
  · exact gf2vectDotProdAvx512Gfni_eq a src d1 d2 bytes mem
  · exact gf2vectDotProdAvx2Gfni_eq a src d1 d2 bytes mem

/-! ## Inversion -/

section Invert

variable {n : Nat}

theorem gfSwapRows_eq (i j : Fin n) (m : Matrix (Fin n) (Fin n) GF256) :
    gfSwapRows i j m = swapRows i j m := by
  funext r c
  unfold gfSwapRows swapRows
  rw [Equiv.swap_apply_def]
  split_ifs <;> rfl

theorem gfScaleRow_eq (i : Fin n) (t : GF256) (m : Matrix (Fin n) (Fin n) GF256) :
    gfScaleRow i t m = scaleRow i t m := by
  funext r c
  unfold gfScaleRow scaleRow
  split_ifs with hr
  · rw [gfMul_eq, hr, mul_comm]
    rfl
  · rfl

theorem gfClearRows_eq (i : Fin n) (t : Fin n → GF256) (m : Matrix (Fin n) (Fin n) GF256) :
    gfClearRows i t m = clearRows i t m := by
  funext r c
  unfold gfClearRows clearRows
  split_ifs with hr
  · rfl
  · rw [gfMul_eq]
    rfl

theorem gfInvertColumn_eq (w : GaussJordan.Work GF256 n) (i : Fin n) :
    gfInvertColumn w i = step w i := by
  have hpivot : gfPivotRow w.inMat i = pivotRow w.inMat i := rfl
  unfold gfInvertColumn step
  rw [hpivot]
  cases hj : pivotRow w.inMat i with
  | none => rfl
  | some j =>
    -- without a zero at the pivot position the row is its own pivot row
    have hswap : ∀ m : Matrix (Fin n) (Fin n) GF256,
        (if w.inMat i i = 0 then gfSwapRows i j m else m) = swapRows i j m := by
      intro m
      split_ifs with hii
      · exact gfSwapRows_eq i j m
      · unfold pivotRow at hj
        rw [if_neg hii] at hj
        cases hj
        funext r
        rw [swapRows, Equiv.swap_self, Equiv.refl_apply]
    have hpiv : swapRows i j w.inMat i i = w.inMat j i := by
      rw [swapRows, Equiv.swap_apply_left]
    simp only [hswap, hpiv, gfScaleRow_eq, gfClearRows_eq, gfInv_eq, Option.map_some,
      eliminate]

theorem gfInvertMatrix_eq (m : Matrix (Fin n) (Fin n) GF256) : gfInvertMatrix m = invert m := by
  have hstep : gfInvertColumn = step (F := GF256) (n := n) :=
    funext fun w => funext fun i => gfInvertColumn_eq w i
  rw [gfInvertMatrix, invert, hstep]

/-- **Inversion is exact.** An invertible matrix is inverted, and a singular one is reported
as such. -/
theorem gfInvertMatrix_exact (m : Matrix (Fin n) (Fin n) GF256) :
    (IsUnit m → ∃ out, gfInvertMatrix m = some out ∧ m * out = 1) ∧
      (¬ IsUnit m → gfInvertMatrix m = none) := by
  rw [gfInvertMatrix_eq]
  constructor
  · intro hm
    have hinj : ∀ v, m.mulVec v = 0 → v = 0 := fun v hv =>
      Matrix.mulVec_injective_of_isUnit hm (hv.trans (Matrix.mulVec_zero m).symm)
    obtain ⟨out, hout, hmul⟩ := invert_of_injective hinj
    exact ⟨out, hout, mul_eq_one_comm.mp hmul⟩
  · intro hm
    cases hout : invert m with
    | none => rfl
    | some out => exact absurd (IsUnit.of_mul_eq_one_right _ (invert_some hout)) hm

end Invert

/-! ## Survivors -/

theorem sum_unit_row {k j : Nat} (hj : j < k) (v : Fin k → GF256) :
    ∑ c : Fin k, (if c.val = j then (⟨0x01#8⟩ : GF256) else 0) * v c = v ⟨j, hj⟩ := by
  rw [sum_eq_single_of_mem ⟨j, hj⟩ (mem_univ _) fun c _ hc => by
    rw [if_neg fun he => hc (Fin.ext he), zero_mul], if_pos rfl]
  exact one_mul _

section Survivors

variable {mode : RecovMode} {k faila : Nat} {failb : Int}

/-- The failure patterns: two data disks, or one data disk and `P`, whose second
position is keyed as `-1`. -/
def ValidPattern (mode : RecovMode) (k faila : Nat) (failb : Int) : Prop :=
  faila < k ∧
    match mode with
    | .twoData => ∃ b : Nat, failb = b ∧ faila < b ∧ b < k
    | .dataP => failb = -1

theorem isLost_twoData (faila b j : Nat) : isLost .twoData faila b j ↔ j = faila ∨ j = b := by
  simp [isLost]

theorem isLost_dataP (faila : Nat) (failb : Int) (j : Nat) :
    isLost .dataP faila failb j ↔ j = faila := by
  simp [isLost]

section

variable (h : ValidPattern mode k faila failb)
include h

theorem length_survivors : ((List.range k).filter fun j => !isLost mode faila failb j).length +
      (if mode = .twoData then 1 else 0) + 1 = k := by
  have hcard : ∀ s : Finset Nat, (∀ j, j ∈ s ↔ j < k ∧ isLost mode faila failb j = false) →
      ((List.range k).filter fun j => !isLost mode faila failb j).length = s.card := by
    intro s hs
    have hnodup := (nodup_range (n := k)).filter fun j => !isLost mode faila failb j
    rw [← toFinset_card_of_nodup hnodup]
    congr 1
    ext j
    simp [hs]
  obtain ⟨ha, hb⟩ := h
  cases mode with
  | twoData =>
    obtain ⟨b, rfl, hab, hbk⟩ := hb
    rw [hcard (((Finset.range k).erase faila).erase b), Finset.card_erase_of_mem,
      card_erase_of_mem (mem_range.mpr ha), card_range]
    · simp only [if_true]
      omega
    · simp [hbk, hab.ne']
    · intro j
      have := isLost_twoData faila b j
      rw [← Bool.not_eq_true, this]
      simp only [Finset.mem_erase, Finset.mem_range]
      tauto
  | dataP =>
    rw [hcard ((Finset.range k).erase faila),
      card_erase_of_mem (mem_range.mpr ha), card_range]
    · simp only [reduceCtorEq, if_false]
      omega
    · intro j
      have := isLost_dataP faila failb j
      rw [← Bool.not_eq_true, this]
      simp only [Finset.mem_erase, Finset.mem_range]
      tauto

theorem length_isalEncRows : (isalEncRows mode k faila failb).length = k := by
  have hlen := length_survivors h
  rw [isalEncRows, length_append, length_append, length_map, length_singleton]
  cases mode <;> simpa using hlen

/-- A property of every row of the list holds of every row of the matrix. -/
theorem mem_isalEncRows {row : Nat → GF256} (hrow : row ∈ isalEncRows mode k faila failb) :
    ∃ r : Fin k, ∀ c : Fin k, isalEnc mode k faila failb r c = row c := by
  obtain ⟨r, hr, rfl⟩ := getElem_of_mem hrow
  refine ⟨⟨r, by rwa [length_isalEncRows h] at hr⟩, fun c => ?_⟩
  rw [isalEnc, getD_eq_getElem _ _ hr]

end

open Matrix in
/-- **The survivors determine the data.** -/
theorem isalEnc_injective (h : ValidPattern mode k faila failb) (hk : k ≤ 255) (v : Fin k → GF256)
    (hv : isalEnc mode k faila failb *ᵥ v = 0) : v = 0 := by
  have hrow : ∀ row ∈ isalEncRows mode k faila failb, ∑ c : Fin k, row c * v c = 0 := by
    intro row hmem
    obtain ⟨r, hr⟩ := mem_isalEncRows h hmem
    have hzero : ∑ c, isalEnc mode k faila failb r c * v c = 0 := congrFun hv r
    simpa only [hr] using hzero
  have hunit : ∀ j : Fin k, isLost mode faila failb j = false → v j = 0 := by
    intro j hj
    have hmem : (fun c => if c = j.val then ⟨0x01#8⟩ else 0 : Nat → GF256) ∈
        isalEncRows mode k faila failb := by
      unfold isalEncRows
      refine mem_append_left _ (mem_append_left _ (mem_map.mpr ⟨j, ?_, rfl⟩))
      simp [hj]
    have hsum := hrow _ hmem
    rw [sum_unit_row j.isLt v] at hsum
    exact hsum
  have hq : wsum univ (fun c : Fin k => alpha ^ c.val) v =
      wsum univ (fun c : Fin k => alpha ^ c.val) 0 := by
    have hsum := hrow alphaPow (by simp [isalEncRows])
    simpa [wsum, alphaPow_eq] using hsum
  obtain ⟨ha, hb⟩ := h
  cases mode with
  | twoData =>
    obtain ⟨b, rfl, hab, hbk⟩ := hb
    have hoff : ∀ i ∈ univ, i ≠ (⟨faila, ha⟩ : Fin k) → i ≠ ⟨b, hbk⟩ → v i = 0 := by
      intro i _ hia hib
      refine hunit i (Bool.not_eq_true _ ▸ fun hlost => ?_)
      rcases (isLost_twoData faila b i).mp hlost with he | he
      · exact hia (Fin.ext he)
      · exact hib (Fin.ext he)
    have hp : ∑ i, v i = ∑ i : Fin k, (0 : Fin k → GF256) i := by
      have hsum := hrow (fun _ => ⟨0x01#8⟩) (by simp [isalEncRows])
      refine Eq.trans ?_ (hsum.trans (by simp))
      exact sum_congr rfl fun c _ => (one_mul (v c)).symm
    have hne : alpha ^ faila ≠ alpha ^ b := fun he =>
      hab.ne (alpha_pow_inj (by omega) (by omega) he)
    obtain ⟨hva, hvb⟩ := eq_of_sums_eq (fun he => hab.ne (congrArg Fin.val he))
      (mem_univ _) (mem_univ _) hne hoff hp hq
    funext i
    by_cases hia : i = ⟨faila, ha⟩
    · exact hia ▸ hva
    · by_cases hib : i = ⟨b, hbk⟩
      · exact hib ▸ hvb
      · exact hoff i (mem_univ i) hia hib
  | dataP =>
    have hoff : ∀ i ∈ univ, i ≠ (⟨faila, ha⟩ : Fin k) → v i = 0 := by
      intro i _ hia
      refine hunit i (Bool.not_eq_true _ ▸ fun hlost => ?_)
      exact hia (Fin.ext ((isLost_dataP faila failb i).mp hlost))
    have hva : v ⟨faila, ha⟩ = (0 : Fin k → GF256) ⟨faila, ha⟩ :=
      eq_of_wsum_eq (mem_univ _) (pow_ne_zero faila alpha_ne_zero) hoff hq
    funext i
    by_cases hia : i = ⟨faila, ha⟩
    · exact hia ▸ hva
    · exact hoff i (mem_univ i) hia

/-- A column in which the surviving blocks hold the data `d` and its syndromes. -/
structure Survives (mode : RecovMode) (k faila : Nat) (failb : Int) (ptrs : Ptrs)
    (col : BufId → GF256) (d : Nat → GF256) : Prop where
  data : ∀ j < k, isLost mode faila failb j = false → col (ptrs j) = d j
  p : mode = .twoData → col (ptrs k) = ∑ c : Fin k, d c
  q : col (ptrs (k + 1)) = ∑ c : Fin k, alpha ^ c.val * d c

/-- The source at each position is the row at that position applied to the data. -/
theorem Survives.src_eq {ptrs : Ptrs} {col : BufId → GF256} {d : Nat → GF256}
    (hs : Survives mode k faila failb ptrs col d) (h : ValidPattern mode k faila failb)
    (r : Fin k) :
    col ((isalBuildSrcs mode k faila failb ptrs).getD r .zeroPage) =
      ∑ c : Fin k, isalEnc mode k faila failb r c * d c := by
  have hall : List.Forall₂ (fun s row => col s = ∑ c : Fin k, row c.val * d c)
      (isalBuildSrcs mode k faila failb ptrs) (isalEncRows mode k faila failb) := by
    unfold isalBuildSrcs isalEncRows
    refine rel_append (rel_append ?_ ?_) ?_
    · rw [forall₂_map_left_iff, forall₂_map_right_iff, forall₂_same]
      intro j hj
      simp only [List.mem_filter, List.mem_range, Bool.not_eq_true'] at hj
      rw [hs.data j hj.1 hj.2]
      exact (sum_unit_row hj.1 fun c => d c).symm
    · split_ifs with hmode
      · refine cons ((hs.p hmode).trans ?_) nil
        exact sum_congr rfl fun c _ => (one_mul _).symm
      · exact nil
    · refine cons (hs.q.trans ?_) nil
      exact sum_congr rfl fun c _ => by rw [alphaPow_eq]
  have hrow : r.val < (isalEncRows mode k faila failb).length := by
    rw [length_isalEncRows h]
    exact r.isLt
  have hsrc : r.val < (isalBuildSrcs mode k faila failb ptrs).length := by
    rwa [hall.length_eq]
  have hget := hall.get hsrc hrow
  rw [getD_eq_getElem _ _ hsrc]
  refine hget.trans (sum_congr rfl fun c _ => ?_)
  rw [isalEnc, getD_eq_getElem _ _ hrow]
  rfl

open Matrix in
/-- The decode coefficients of one lost row, applied to the survivors. -/
theorem decode_row {ptrs : Ptrs} {col : BufId → GF256} {d : Nat → GF256}
    (hs : Survives mode k faila failb ptrs col d) (h : ValidPattern mode k faila failb)
    {inv : Matrix (Fin k) (Fin k) GF256} (hinv : inv * isalEnc mode k faila failb = 1)
    (out : Nat → GF256) : ∑ i : Fin k, (∑ j : Fin k, gfMul (out j) (inv j i)) *
        col ((isalBuildSrcs mode k faila failb ptrs).getD i .zeroPage) =
      ∑ c : Fin k, out c * d c := by
  let u : Fin k → GF256 := fun j => out j
  let e : Fin k → GF256 := fun c => d c
  have hrow : ∀ i : Fin k, ∑ j : Fin k, gfMul (out j) (inv j i) = (u ᵥ* inv) i := by
    intro i
    exact sum_congr rfl fun j _ => gfMul_eq _ _
  have hcol : ∀ i : Fin k, col ((isalBuildSrcs mode k faila failb ptrs).getD i .zeroPage) =
      (isalEnc mode k faila failb *ᵥ e) i := hs.src_eq h
  calc _ = (u ᵥ* inv) ⬝ᵥ (isalEnc mode k faila failb *ᵥ e) :=
        sum_congr rfl fun i _ => by rw [hrow, hcol]
    _ = u ⬝ᵥ ((inv * isalEnc mode k faila failb) *ᵥ e) := by
        rw [← dotProduct_mulVec, mulVec_mulVec]
    _ = u ⬝ᵥ e := by rw [hinv, one_mulVec]

theorem exists_isalBuildTbls (h : ValidPattern mode k faila failb) (hk : k ≤ 255) :
    ∃ inv, inv * isalEnc mode k faila failb = 1 ∧
      gfInvertMatrix (isalEnc mode k faila failb) = some inv := by
  obtain ⟨inv, hinv, hmul⟩ := invert_of_injective (isalEnc_injective h hk)
  exact ⟨inv, hmul, (gfInvertMatrix_eq _).trans hinv⟩

/-- The dot product with the decode coefficients puts the two lost rows of the data
into a column. -/
theorem dotColumn_isalDec {ptrs : Ptrs} {col : BufId → GF256} {d : Nat → GF256}
    (hs : Survives mode k faila failb ptrs col d) (h : ValidPattern mode k faila failb)
    {inv : Matrix (Fin k) (Fin k) GF256} (hinv : inv * isalEnc mode k faila failb = 1)
    (d0 d1 : BufId) : dotColumn k (isalDec (isalOut0 faila) (isalOut1 mode failb) inv)
        (fun i => (isalBuildSrcs mode k faila failb ptrs).getD i .zeroPage) d0 d1 col =
      Function.update (Function.update col d0 (d faila)) d1
        (∑ c : Fin k, isalOut1 mode failb c * d c) := by
  have hrow0 : ∑ c : Fin k, isalOut0 faila c * d c = d faila := sum_unit_row h.1 fun c => d c
  have hdec0 : ∀ i : Fin k, isalDec (isalOut0 faila) (isalOut1 mode failb) inv i =
      ∑ j : Fin k, gfMul (isalOut0 faila j) (inv j i) := by
    intro i
    rw [isalDec, dif_pos i.isLt]
  have hdec1 : ∀ i : Fin k, isalDec (isalOut0 faila) (isalOut1 mode failb) inv (k + i) =
      ∑ j : Fin k, gfMul (isalOut1 mode failb j) (inv j i) := by
    intro i
    have hlt : k + i.val - k < k := by omega
    rw [isalDec, dif_neg (by omega), dif_pos hlt]
    simp only [Nat.add_sub_cancel_left]
  simp only [dotColumn, setTwo, sum_range, hdec0, hdec1]
  rw [decode_row hs h hinv, decode_row hs h hinv, hrow0]

end Survivors

/-! ## The cache -/

/-- A valid entry holds the tables of its own key. -/
def IsalCpuCache.Ok (cc : IsalCpuCache) : Prop :=
  cc.valid = true → isalBuildTbls cc.mode cc.k cc.faila cc.failb = some cc.tbls

section Cache

variable {useAvx512 : Bool} {mode : RecovMode} {k faila : Nat} {failb : Int} {bytes : Nat}
  {ptrs : Ptrs} {d0 d1 : BufId} {cc : IsalCpuCache} {mem : Mem}

theorem IsalCpuCache.Ok.hit (hcc : cc.Ok) (h : cc.hit mode k faila failb) :
    isalBuildTbls mode k faila failb = some cc.tbls := by
  simp only [IsalCpuCache.hit, Bool.and_eq_true, decide_eq_true_eq] at h
  obtain ⟨⟨⟨⟨hvalid, rfl⟩, rfl⟩, rfl⟩, rfl⟩ := h
  exact hcc hvalid

theorem isalRecovCached_ok (hcc : cc.Ok) :
    (isalRecovCached useAvx512 mode k faila failb bytes ptrs d0 d1 cc mem).2.Ok := by
  unfold isalRecovCached
  split_ifs with hk hhit
  · exact hcc
  · exact hcc
  · cases htbls : isalBuildTbls mode k faila failb with
    | none => rintro ⟨⟩
    | some tbls => exact fun _ => htbls

/-- **The cache is transparent**: whatever it holds, the result is that of fresh
tables. -/
theorem isalRecovCached_eq (hcc : cc.Ok) (hk : k ≤ 32) {tbls : Tbls}
    (htbls : isalBuildTbls mode k faila failb = some tbls) :
    (isalRecovCached useAvx512 mode k faila failb bytes ptrs d0 d1 cc mem).1 =
      some (dotProd useAvx512 bytes k tbls
        (fun i => (isalBuildSrcs mode k faila failb ptrs).getD i .zeroPage) d0 d1 mem) := by
  unfold isalRecovCached
  rw [if_neg (by omega)]
  by_cases hhit : cc.hit mode k faila failb
  · have hsame : cc.tbls = tbls := Option.some.inj ((hcc.hit hhit).symm.trans htbls)
    simp only [hhit, if_true, hsame]
  · simp only [hhit, htbls]
    rfl

end Cache

end MdRaid.Isal
