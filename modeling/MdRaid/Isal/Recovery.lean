import MdRaid.Isal.DropIn

/-!
# Recovery by the vector library

Up to 64 data disks the library has its own tables for every pattern of two losses. They are
built on the stack and in the cache of the CPU up to 32 data disks, and in allocated memory
beyond. A recovery that cannot allocate hands over to the saved in-tree routine, which asks
the installed generator for the syndromes of what is left; beyond 32 data disks that generator
writes nothing.
-/

namespace MdRaid.Isal

open Columns GF256 Raid6 Function

/-! ## What a recovery owes -/

/-- **Recovery is exact and the cache is transparent.** The matrix of the survivors is
inverted, both routines put back the lost bytes and touch nothing else, and a table from the cache
gives what a fresh one gives. The cache is as any sequence of recoveries on this CPU left it. Byte
counts are those the `int` loop counters can hold. -/
structure RecovExact (calls : Raid6Calls) (alloc : Alloc) (k : Nat) : Prop where
  invertible : ∀ (mode : RecovMode) (faila : Nat) (failb : Int), ValidPattern mode k faila failb →
    ∃ inv, gfInvertMatrix (isalEnc mode k faila failb) = some inv ∧
      inv * isalEnc mode k faila failb = 1
  twoData : ∀ (bytes faila failb : Nat) (ptrs : Ptrs) (cc : IsalCpuCache) (mem : Mem)
    (junkA junkB : Nat → GF256), bytes + 96 < 2 ^ 31 → CacheReachable cc →
    faila < failb → failb < k → OwnPages k ptrs [faila, failb, k, k + 1] →
    Encoded k bytes ptrs mem →
    (isal2dataRecov calls alloc (k + 2) bytes faila failb ptrs cc
        (loseTwo (ptrs faila) (ptrs failb) junkA junkB mem)).1 =
      restored bytes mem (loseTwo (ptrs faila) (ptrs failb) junkA junkB mem)
  dataP : ∀ (bytes faila : Nat) (ptrs : Ptrs) (cc : IsalCpuCache) (mem : Mem)
    (junkA junkP : Nat → GF256), bytes + 96 < 2 ^ 31 → CacheReachable cc →
    faila < k → OwnPages k ptrs [faila, k, k + 1] → Encoded k bytes ptrs mem →
    (isalDatapRecov calls alloc (k + 2) bytes faila ptrs cc
        (loseTwo (ptrs faila) (ptrs k) junkA junkP mem)).1 =
      restored bytes mem (loseTwo (ptrs faila) (ptrs k) junkA junkP mem)
  cached : ∀ (useAvx512 : Bool) (mode : RecovMode) (faila : Nat) (failb : Int) (bytes : Nat)
    (ptrs : Ptrs) (d0 d1 : BufId) (cc fresh : IsalCpuCache) (mem : Mem), CacheReachable cc →
    fresh.valid = false →
    (isalRecovCached useAvx512 mode k faila failb bytes ptrs d0 d1 cc mem).1 =
      (isalRecovCached useAvx512 mode k faila failb bytes ptrs d0 d1 fresh mem).1

/-! ## The cache -/

/-- A cached table is the one that would be built. -/
theorem isalRecovCached_fresh {useAvx512 : Bool} {mode : RecovMode} {k faila : Nat} {failb : Int}
    {bytes : Nat} {ptrs : Ptrs} {d0 d1 : BufId} {cc fresh : IsalCpuCache} {mem : Mem} (hcc : cc.Ok)
    (hfresh : fresh.valid = false) :
    (isalRecovCached useAvx512 mode k faila failb bytes ptrs d0 d1 cc mem).1 =
      (isalRecovCached useAvx512 mode k faila failb bytes ptrs d0 d1 fresh mem).1 := by
  have hmiss : fresh.hit mode k faila failb = false := by
    rw [IsalCpuCache.hit, hfresh]
    rfl
  unfold isalRecovCached
  split_ifs with hk hhit hnever
  · rfl
  · rw [hmiss] at hnever
    cases hnever
  · rw [hcc.hit hhit]
  · rw [hmiss] at *
    contradiction
  · cases isalBuildTbls mode k faila failb <;> rfl

/-! ## The fallback beyond 32 data disks -/

/-- Without its memory the recovery is the in-tree one on pages the generator has not
written. -/
theorem isal2dataRecov_fallback {calls : Raid6Calls} {alloc : Alloc} {k bytes faila failb : Nat}
    {ptrs : Ptrs} {cc : IsalCpuCache} {mem : Mem} (hover : calls.overridden)
    (hk : 32 < k) (halloc : ¬ NoFallback alloc k) :
    (isal2dataRecov calls alloc (k + 2) bytes faila failb ptrs cc mem).1 =
      raid62dataRecovIntx1 (fun _ _ _ mem => mem) (k + 2) bytes faila failb ptrs mem := by
  have hplain : isalRecovPlain calls.useAvx512 alloc .twoData k faila failb bytes ptrs (ptrs faila)
      (ptrs failb) mem = none := by
    unfold isalRecovPlain
    split_ifs with h64 henc htbls
    · rfl
    · rw [Bool.and_eq_true] at htbls
      exact absurd (.inr ⟨not_lt.mp h64, henc, htbls.1, htbls.2⟩) halloc
    · rfl
    · rfl
  have hgen : raid6CallGenSyndrome calls alloc (k + 2) = fun _ _ mem => mem := by
    funext bytes ptrs mem
    rw [raid6CallGenSyndrome, if_pos hover]
    exact isalGenSyndrome_of_lt _ _ hk _ _ _
  simp only [isal2dataRecov, Nat.add_sub_cancel, if_neg (show ¬ k < 2 by omega), isalRecov,
    isalRecovCached, if_pos hk, hplain, raid62dataRecovIntx1, hgen]

/-- Zero data, with ones left on the page of the first disk. -/
def onesLeft : Mem := loseTwo (.block 0) (.block 1) (fun _ => 1) (fun _ => 0) fun _ _ => 0

theorem encoded_zero (k bytes : Nat) (ptrs : Ptrs) : Encoded k bytes ptrs fun _ _ => 0 := by
  intro x _
  constructor
  · exact Finset.sum_const_zero.symm
  · exact (Finset.sum_eq_zero fun c _ => mul_zero _).symm

/-- What the in-tree routine makes of the ones: the difference of the two lost bytes is taken
for the `P` of the rest. -/
theorem fallback_onesLeft_ne {k : Nat} (hk : 2 < k) :
    raid62dataRecovIntx1 (fun _ _ _ mem => mem) (k + 2) 1 0 1 .block onesLeft ≠
      restored 1 (fun _ _ => 0) onesLeft := by
  intro h
  have hcol : ∀ b, raid62dataRecovIntx1 (fun _ _ _ mem => mem) (k + 2) 1 0 1 .block
    onesLeft b 0 = 0 :=
    fun b => congrFun (congrFun h b) 0
  have hp : onesLeft (.block k) 0 = 0 := by
    rw [onesLeft, loseTwo_of_ne] <;> simp <;> omega
  have hb := hcol (.block 1)
  have ha := hcol (.block 0)
  simp only [raid62dataRecovIntx1] at ha hb
  rw [mapRange_of_mem _ _ _ (by omega)] at ha hb
  simp only [setTwo] at ha hb
  rw [update_self] at ha
  rw [update_of_ne (by simp), update_self] at hb
  rw [hb, zero_add, Nat.add_sub_cancel, hp, zero_add] at ha
  cases ha

/-! ## The contract -/

/-- **Recovery by the vector library.** After a successful installation, for two to 64 data
disks, it is exact exactly when it does not have to fall back: up to 32 data disks, or when its
allocations succeed. -/
theorem isal_recov_exact_iff {cpu : BootCpu} {validated : Bool} {calls : Raid6Calls}
    (hinstall : isalInstallRaid6Call cpu validated = some calls) (alloc : Alloc) {k : Nat}
    (hlow : 1 < k) (hhigh : k ≤ 64) : RecovExact calls alloc k ↔
      k ≤ 32 ∨ (alloc .recovEnc = true ∧ alloc .recovInv = true ∧ alloc .recovTbls = true) := by
  have hpath : NoFallback alloc k ↔
      k ≤ 32 ∨ (alloc .recovEnc = true ∧ alloc .recovInv = true ∧ alloc .recovTbls = true) :=
    or_congr Iff.rfl (and_iff_right hhigh)
  rw [← hpath]
  constructor
  · intro h
    by_contra hno
    have hk : 32 < k := not_le.mp fun hle => hno (.inl hle)
    have heq := h.twoData 1 0 1 .block ⟨false, .twoData, 0, 0, 0, fun _ => 0#64⟩ (fun _ _ => 0)
      (fun _ => 1) (fun _ => 0) (by decide) (.boot _ rfl) (by decide) hlow (ownPages_block _ _)
      (encoded_zero _ _ _)
    rw [isal2dataRecov_fallback (overridden_of_install hinstall) hk hno] at heq
    exact fallback_onesLeft_ne (by omega) heq
  · intro hno
    refine ⟨fun mode faila failb hvalid => ?_, ?_, ?_, ?_⟩
    · obtain ⟨inv, hmul, hinv⟩ := exists_isalBuildTbls hvalid (hhigh.trans (by decide))
      exact ⟨inv, hinv, hmul⟩
    · intro bytes faila failb ptrs cc mem junkA junkB _ hcc hab hb hown henc
      exact isal2dataRecov_restores hcc.ok hno hab hb hown henc junkA junkB
    · intro bytes faila ptrs cc mem junkA junkP _ hcc ha hown henc
      exact isalDatapRecov_restores hcc.ok hno ha hown henc junkA junkP
    · intro useAvx512 mode faila failb bytes ptrs d0 d1 cc fresh mem hcc hfresh
      exact isalRecovCached_fresh hcc.ok hfresh

theorem isal_recov_exact_forty_disks : RecovExact ⟨true, true⟩ (fun _ => true) 40 ↔
      40 ≤ 32 ∨ ((fun _ => true : Alloc) .recovEnc = true ∧ (fun _ => true : Alloc)
        .recovInv = true ∧
        (fun _ => true : Alloc) .recovTbls = true) :=
  isal_recov_exact_iff (show isalInstallRaid6Call fullCpu true = some ⟨true, true⟩ from rfl) _
    (by decide) (by decide)

/-- With 33 data disks, no memory and zero data, the second lost disk comes back with a byte
that is not zero. -/
theorem isal_recov_corrupts_33_disks : isalInstallRaid6Call fullCpu true = some ⟨true, true⟩ ∧
      Encoded 33 1 .block (fun _ _ => 0) ∧
      (isal2dataRecov ⟨true, true⟩ (fun _ => false) 35 1 0 1 .block
        ⟨false, .twoData, 0, 0, 0, fun _ => 0#64⟩ onesLeft).1 (.block 1) 0 = ⟨0xf4#8⟩ := by
  refine ⟨rfl, encoded_zero _ _ _, ?_⟩
  rw [isal2dataRecov_fallback rfl (by decide) (by simp [NoFallback])]
  decide

end MdRaid.Isal
