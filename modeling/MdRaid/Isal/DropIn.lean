import MdRaid.Isal.Decode

/-!
# When the vector library can stand in for the in-tree calls

Every routine is compared through what it does to a column of bytes. Up to 32 data
disks the generator writes the two syndromes, and both recoveries solve for the lost
bytes, from cached tables or fresh ones. Beyond 32 the generator writes nothing.
-/

namespace MdRaid.Isal

open Columns GF256 Raid6 Syndrome Function Finset

/-! ## The generator -/

theorem dotColumn_genCoefs (k : Nat) (ptrs : Ptrs) :
    dotColumn k (genCoefs k) ptrs (ptrs k) (ptrs (k + 1)) = syndromeColumn k ptrs := by
  unfold dotColumn syndromeColumn
  congr 1
  · funext col
    refine sum_congr rfl fun i hi => ?_
    rw [genCoefs, if_pos (mem_range.mp hi)]
    exact one_mul _
  · funext col
    refine sum_congr rfl fun i _ => ?_
    rw [genCoefs, if_neg (by omega), Nat.add_sub_cancel_left, alphaPow_eq]

theorem isalGenSyndrome_eq {k : Nat} (useAvx512 : Bool) {alloc : Alloc} (hpos : 0 < k)
    (hk : k ≤ 32) (halloc : alloc .genTbls) (bytes : Nat) (ptrs : Ptrs) (mem : Mem) :
    isalGenSyndrome useAvx512 alloc (k + 2) bytes ptrs mem =
      mapRange (syndromeColumn k ptrs) 0 bytes mem := by
  simp only [isalGenSyndrome, Nat.add_sub_cancel]
  rw [if_neg (by omega), if_pos halloc, dotProd_eq, dotColumn_genCoefs]

theorem isalGenSyndrome_of_lt {k : Nat} (useAvx512 : Bool) (alloc : Alloc) (hk : 32 < k)
    (bytes : Nat) (ptrs : Ptrs) (mem : Mem) :
    isalGenSyndrome useAvx512 alloc (k + 2) bytes ptrs mem = mem := by
  simp only [isalGenSyndrome, Nat.add_sub_cancel]
  rw [if_pos (.inr hk)]

/-! ## Recovery -/

/-- The lost bytes are the original ones; nothing else has changed. -/
def restored (bytes : Nat) (orig damaged : Mem) : Mem :=
  fun b x => if x < bytes then orig b x else damaged b x

/-- `P` and `Q` are what the in-tree generator writes. -/
def InSync (k bytes : Nat) (ptrs : Ptrs) (mem : Mem) : Prop :=
  raid6IntGenSyndrome (k + 2) bytes ptrs mem = mem

/-- The pages at the listed positions are no other position's page. Absent data disks
may share the page of zeros. -/
def OwnPages (k : Nat) (ptrs : Ptrs) (l : List Nat) : Prop :=
  ∀ a ∈ l, ∀ i < k + 2, i ≠ a → ptrs i ≠ ptrs a

theorem ownPages_block (k : Nat) (l : List Nat) : OwnPages k .block l := by
  intro a _ i _ hne heq
  exact hne (BufId.block.inj heq)

/-- `P` and `Q` of every column are the two syndromes of its data. -/
def Encoded (k bytes : Nat) (ptrs : Ptrs) (mem : Mem) : Prop :=
  ∀ x < bytes, mem (ptrs k) x = ∑ c : Fin k, mem (ptrs c) x ∧
    mem (ptrs (k + 1)) x = ∑ c : Fin k, alpha ^ c.val * mem (ptrs c) x

theorem InSync.encoded {k bytes : Nat} {ptrs : Ptrs} {mem : Mem} (h : InSync (k + 1) bytes ptrs mem)
    (h8 : 8 ∣ bytes) (hpq : ptrs (k + 1) ≠ ptrs (k + 2)) : Encoded (k + 1) bytes ptrs mem := by
  intro x hx
  unfold InSync at h
  rw [raid6IntGenSyndrome_eq k h8] at h
  have hcol : ∀ b, syndromeColumn (k + 1) ptrs (fun b => mem b x) b = mem b x := by
    intro b
    have hmem : 0 ≤ x ∧ x < 0 + bytes := by omega
    rw [← mapRange_of_mem (syndromeColumn (k + 1) ptrs) mem b hmem, h]
  have hp := hcol (ptrs (k + 1))
  have hq := hcol (ptrs (k + 2))
  simp only [syndromeColumn, setTwo, update_self, sum_range] at hq
  simp only [syndromeColumn, setTwo, update_of_ne hpq, update_self,
    sum_range] at hp
  exact ⟨hp.symm, hq.symm⟩

section Recovery

variable {mode : RecovMode} {k faila : Nat} {failb : Int} {ptrs : Ptrs} {orig damaged : Mem}
  {d0 d1 : BufId} {bytes : Nat}

/-- A dot product with the decode coefficients restores every column in which the
survivors hold the original data. -/
theorem mapRange_isalDec (h : ValidPattern mode k faila failb)
    {inv : Matrix (Fin k) (Fin k) GF256} (hinv : inv * isalEnc mode k faila failb = 1)
    (hsurv : ∀ x < bytes, Survives mode k faila failb ptrs (fun b => damaged b x)
      fun j => orig (ptrs j) x) (hd0 : d0 = ptrs faila)
    (hd1 : ∀ x < bytes, ∑ c : Fin k, isalOut1 mode failb c * orig (ptrs c) x = orig d1 x)
    (hsame : ∀ b, b ≠ d0 → b ≠ d1 → damaged b = orig b) :
    mapRange (dotColumn k (isalDec (isalOut0 faila) (isalOut1 mode failb) inv)
        (fun i => (isalBuildSrcs mode k faila failb ptrs).getD i .zeroPage) d0 d1) 0 bytes damaged =
      restored bytes orig damaged := by
  funext b x
  by_cases hx : x < bytes
  · rw [mapRange_of_mem _ _ _ (by omega), dotColumn_isalDec (hsurv x hx) h hinv, hd1 x hx, restored,
      if_pos hx]
    by_cases hb1 : b = d1
    · rw [hb1, update_self]
    · by_cases hb0 : b = d0
      · rw [update_of_ne hb1, hb0, update_self, hd0]
      · rw [update_of_ne hb1, update_of_ne hb0, hsame b hb0 hb1]
  · rw [mapRange_of_not_mem _ _ _ (by omega), restored, if_neg hx]

/-- The paths that do not fall back: the cached one, and the plain one when its
allocations succeed. -/
def NoFallback (alloc : Alloc) (k : Nat) : Prop :=
  k ≤ 32 ∨ (k ≤ 64 ∧ alloc .recovEnc = true ∧ alloc .recovInv = true ∧ alloc .recovTbls = true)

theorem isalRecov_eq {useAvx512 : Bool} {alloc : Alloc} {cc : IsalCpuCache} (hcc : cc.Ok)
    (hpath : NoFallback alloc k) {inv : Matrix (Fin k) (Fin k) GF256}
    (hinv : gfInvertMatrix (isalEnc mode k faila failb) = some inv) (fallback : Mem → Mem)
    (mem : Mem) :
    (isalRecov useAvx512 alloc mode k faila failb bytes ptrs d0 d1 fallback cc mem).1 =
      mapRange (dotColumn k (isalDec (isalOut0 faila) (isalOut1 mode failb) inv)
        (fun i => (isalBuildSrcs mode k faila failb ptrs).getD i .zeroPage) d0 d1) 0 bytes mem := by
  have htbls : isalBuildTbls mode k faila failb =
      some (ecInitTablesGfni k 2 (isalDec (isalOut0 faila) (isalOut1 mode failb) inv)) := by
    rw [isalBuildTbls, hinv]
    rfl
  by_cases hk : k ≤ 32
  · have hcached : (isalRecovCached useAvx512 mode k faila failb bytes ptrs d0 d1 cc mem).1 = _ :=
      isalRecovCached_eq hcc hk htbls
    rw [dotProd_eq] at hcached
    unfold isalRecov
    generalize isalRecovCached useAvx512 mode k faila failb bytes ptrs d0 d1 cc mem =
      res at hcached ⊢
    obtain ⟨res, cc'⟩ := res
    simp only at hcached
    rw [hcached]
  · obtain ⟨h64, henc, hinvA, htblsA⟩ := hpath.resolve_left hk
    simp only [isalRecov, isalRecovCached, if_pos (show 32 < k by omega), isalRecovPlain,
      if_neg (show ¬ 64 < k by omega), henc, hinvA, htblsA, Bool.and_self, if_true, hinv,
      Option.map_some, dotProd_eq]

end Recovery

/-- The pages of two lost data disks hold anything. -/
def loseTwo (b c : BufId) (junkB junkC : Nat → GF256) (mem : Mem) : Mem :=
  update (update mem b junkB) c junkC

theorem loseTwo_of_ne {b c e : BufId} (junkB junkC : Nat → GF256) (mem : Mem) (hb : e ≠ b)
    (hc : e ≠ c) : loseTwo b c junkB junkC mem e = mem e := by
  rw [loseTwo, update_of_ne hc, update_of_ne hb]

section Restore

variable {calls : Raid6Calls} {alloc : Alloc} {k bytes faila : Nat} {ptrs : Ptrs}
  {cc : IsalCpuCache} {mem : Mem}

/-- **Two lost data disks are restored** on every path that does not fall back. -/
theorem isal2dataRecov_restores {failb : Nat} (hcc : cc.Ok) (hpath : NoFallback alloc k)
    (hab : faila < failb) (hb : failb < k)
    (hown : OwnPages k ptrs [faila, failb, k, k + 1]) (henc : Encoded k bytes ptrs mem)
    (junkA junkB : Nat → GF256) : (isal2dataRecov calls alloc (k + 2) bytes faila failb ptrs cc
        (loseTwo (ptrs faila) (ptrs failb) junkA junkB mem)).1 =
      restored bytes mem (loseTwo (ptrs faila) (ptrs failb) junkA junkB mem) := by
  obtain ⟨k, rfl⟩ : ∃ k', k = k' + 1 := ⟨k - 1, by omega⟩
  have hvalid : ValidPattern .twoData (k + 1) faila failb := ⟨by omega, failb, rfl, hab, hb⟩
  have hk : k + 1 ≤ 255 := by
    rcases hpath with h | h <;> omega
  obtain ⟨inv, hmul, hinv⟩ := exists_isalBuildTbls hvalid hk
  have hkeep : ∀ i < k + 1 + 2, i ≠ faila → i ≠ failb →
      loseTwo (ptrs faila) (ptrs failb) junkA junkB mem (ptrs i) = mem (ptrs i) := by
    intro i hi hia hib
    exact loseTwo_of_ne _ _ _ (hown faila (by simp) i hi hia) (hown failb (by simp) i hi hib)
  simp only [isal2dataRecov, Nat.add_sub_cancel]
  rw [if_neg (by omega), isalRecov_eq hcc hpath hinv]
  refine mapRange_isalDec hvalid hmul (fun x hx => ?_) rfl (fun x _ => ?_) fun b hb0 hb1 => ?_
  · obtain ⟨hp, hq⟩ := henc x hx
    refine ⟨fun j hj hlost => ?_, fun _ => ?_, ?_⟩
    · have hne := mt (isLost_twoData faila failb j).mpr (Bool.not_eq_true _ ▸ hlost)
      rw [hkeep j (by omega) (fun he => hne (.inl he)) fun he => hne (.inr he)]
    · rw [hkeep (k + 1) (by omega) (by omega) (by omega), hp]
    · rw [hkeep (k + 2) (by omega) (by omega) (by omega), hq]
  · have hrow := sum_unit_row hb fun c => mem (ptrs c) x
    simpa [isalOut1] using hrow
  · exact loseTwo_of_ne _ _ _ hb0 hb1

/-- **A lost data disk and a lost `P` are restored** on every path that does not fall
back. -/
theorem isalDatapRecov_restores (hcc : cc.Ok) (hpath : NoFallback alloc k)
    (ha : faila < k) (hown : OwnPages k ptrs [faila, k, k + 1]) (henc : Encoded k bytes ptrs mem)
    (junkA junkP : Nat → GF256) : (isalDatapRecov calls alloc (k + 2) bytes faila ptrs cc
        (loseTwo (ptrs faila) (ptrs k) junkA junkP mem)).1 =
      restored bytes mem (loseTwo (ptrs faila) (ptrs k) junkA junkP mem) := by
  obtain ⟨k, rfl⟩ : ∃ k', k = k' + 1 := ⟨k - 1, by omega⟩
  have hvalid : ValidPattern .dataP (k + 1) faila (-1) := ⟨ha, rfl⟩
  have hk : k + 1 ≤ 255 := by
    rcases hpath with h | h <;> omega
  obtain ⟨inv, hmul, hinv⟩ := exists_isalBuildTbls hvalid hk
  have hkeep : ∀ i < k + 1 + 2, i ≠ faila → i ≠ k + 1 →
      loseTwo (ptrs faila) (ptrs (k + 1)) junkA junkP mem (ptrs i) = mem (ptrs i) := by
    intro i hi hia hip
    exact loseTwo_of_ne _ _ _ (hown faila (by simp) i hi hia) (hown (k + 1) (by simp) i hi hip)
  simp only [isalDatapRecov, Nat.add_sub_cancel]
  rw [if_neg (by omega), isalRecov_eq hcc hpath hinv]
  refine mapRange_isalDec hvalid hmul (fun x hx => ?_) rfl (fun x hx => ?_) fun b hb0 hb1 => ?_
  · obtain ⟨-, hq⟩ := henc x hx
    refine ⟨fun j hj hlost => ?_, by simp, ?_⟩
    · have hne := mt (isLost_dataP faila (-1) j).mpr (Bool.not_eq_true _ ▸ hlost)
      rw [hkeep j (by omega) hne (by omega)]
    · rw [hkeep (k + 2) (by omega) (by omega) (by omega), hq]
  · rw [(henc x hx).1]
    exact sum_congr rfl fun c _ => one_mul _
  · exact loseTwo_of_ne _ _ _ hb0 hb1

end Restore

/-! ## The contract -/

theorem isalRecov_ok {useAvx512 : Bool} {alloc : Alloc} {mode : RecovMode} {k faila : Nat}
    {failb : Int} {bytes : Nat} {ptrs : Ptrs} {d0 d1 : BufId} {fallback : Mem → Mem}
    {cc : IsalCpuCache} {mem : Mem} (hcc : cc.Ok) :
    (isalRecov useAvx512 alloc mode k faila failb bytes ptrs d0 d1 fallback cc mem).2.Ok := by
  have hok : (isalRecovCached useAvx512 mode k faila failb bytes ptrs d0 d1 cc mem).2.Ok :=
    isalRecovCached_ok hcc
  unfold isalRecov
  generalize isalRecovCached useAvx512 mode k faila failb bytes ptrs d0 d1 cc mem = res at hok ⊢
  rcases res with ⟨_ | mem', cc'⟩
  · cases isalRecovPlain useAvx512 alloc mode k faila failb bytes ptrs d0 d1 mem <;> exact hok
  · exact hok

/-- The states of one CPU's cache: invalid at first, then as the recoveries that ran
on this CPU left it. -/
inductive CacheReachable : IsalCpuCache → Prop
  | boot (cc : IsalCpuCache) (h : cc.valid = false) : CacheReachable cc
  | twoData {cc : IsalCpuCache} (calls : Raid6Calls) (alloc : Alloc)
      (disks bytes faila failb : Nat) (ptrs : Ptrs) (mem : Mem) (h : CacheReachable cc) :
      CacheReachable (isal2dataRecov calls alloc disks bytes faila failb ptrs cc mem).2
  | dataP {cc : IsalCpuCache} (calls : Raid6Calls) (alloc : Alloc)
      (disks bytes faila : Nat) (ptrs : Ptrs) (mem : Mem) (h : CacheReachable cc) :
      CacheReachable (isalDatapRecov calls alloc disks bytes faila ptrs cc mem).2

theorem CacheReachable.ok {cc : IsalCpuCache} (h : CacheReachable cc) : cc.Ok := by
  induction h with
  | boot cc hinvalid => exact fun hvalid => (by cases hinvalid.symm.trans hvalid)
  | twoData calls alloc disks bytes faila failb ptrs mem _ ih =>
    simp only [isal2dataRecov]
    split_ifs
    · exact ih
    · exact isalRecov_ok ih
  | dataP calls alloc disks bytes faila ptrs mem _ ih =>
    simp only [isalDatapRecov]
    split_ifs
    · exact ih
    · exact isalRecov_ok ih

/-- The installed calls can stand in for the in-tree ones on `k` data disks, when the
allocations of a call turn out as `alloc`. Byte counts are those the `int` loop counters
of both sides can hold. -/
structure DropIn (calls : Raid6Calls) (alloc : Alloc) (k : Nat) : Prop where
  genSyndrome : ∀ (bytes : Nat) (ptrs : Ptrs) (mem : Mem), 8 ∣ bytes → bytes + 96 < 2 ^ 31 →
    raid6CallGenSyndrome calls alloc (k + 2) bytes ptrs mem =
      raid6IntGenSyndrome (k + 2) bytes ptrs mem
  twoData : ∀ (bytes faila failb : Nat) (ptrs : Ptrs) (cc : IsalCpuCache) (mem : Mem)
    (junkA junkB : Nat → GF256), 8 ∣ bytes → bytes + 96 < 2 ^ 31 → CacheReachable cc →
    faila < failb → failb < k → OwnPages k ptrs [faila, failb, k, k + 1] →
    InSync k bytes ptrs mem →
    (isal2dataRecov calls alloc (k + 2) bytes faila failb ptrs cc
        (loseTwo (ptrs faila) (ptrs failb) junkA junkB mem)).1 =
      restored bytes mem (loseTwo (ptrs faila) (ptrs failb) junkA junkB mem)
  dataP : ∀ (bytes faila : Nat) (ptrs : Ptrs) (cc : IsalCpuCache) (mem : Mem)
    (junkA junkP : Nat → GF256), 8 ∣ bytes → bytes + 96 < 2 ^ 31 → CacheReachable cc →
    faila < k → OwnPages k ptrs [faila, k, k + 1] → InSync k bytes ptrs mem →
    (isalDatapRecov calls alloc (k + 2) bytes faila ptrs cc
        (loseTwo (ptrs faila) (ptrs k) junkA junkP mem)).1 =
      restored bytes mem (loseTwo (ptrs faila) (ptrs k) junkA junkP mem)

theorem overridden_of_install {cpu : BootCpu} {validated : Bool} {calls : Raid6Calls}
    (h : isalInstallRaid6Call cpu validated = some calls) : calls.overridden := by
  unfold isalInstallRaid6Call at h
  split_ifs at h
  cases h
  rfl

/-- Zero data under a `P` page of ones. -/
def staleParity (k : Nat) : Mem := fun b _ => if b = .block k then 1 else 0

/-- The in-tree generator clears the stale page. -/
theorem raid6IntGenSyndrome_staleParity (k : Nat) :
    raid6IntGenSyndrome (k + 1 + 2) 8 .block (staleParity (k + 1)) (.block (k + 1)) 0 = 0 := by
  rw [raid6IntGenSyndrome_eq k (dvd_refl 8), mapRange_of_mem _ _ _ (by omega)]
  simp only [syndromeColumn, setTwo]
  rw [update_of_ne (by simp), update_self]
  refine sum_eq_zero fun z hz => ?_
  have hne : z ≠ k + 1 := (mem_range.mp hz).ne
  simp [staleParity, hne]

/-- **Replacing the in-tree calls.** After a successful installation the calls can
stand in for the in-tree ones exactly up to 32 data disks, and only while the
generator's tables can be allocated. -/
theorem isal_drop_in_iff {cpu : BootCpu} {validated : Bool} {calls : Raid6Calls}
    (hinstall : isalInstallRaid6Call cpu validated = some calls) (alloc : Alloc) {k : Nat}
    (hlow : 2 ≤ k) : DropIn calls alloc k ↔ k ≤ 32 ∧ alloc .genTbls = true := by
  have hover := overridden_of_install hinstall
  have hgen : raid6CallGenSyndrome calls alloc = isalGenSyndrome calls.useAvx512 alloc := by
    rw [raid6CallGenSyndrome, if_pos hover]
  obtain ⟨k, rfl⟩ : ∃ k', k = k' + 1 := ⟨k - 1, by omega⟩
  constructor
  · intro h
    -- a generator that returns early leaves the stale parity page
    by_contra hcond
    have hnoop : isalGenSyndrome calls.useAvx512 alloc (k + 1 + 2) 8 .block (staleParity (k + 1)) =
        staleParity (k + 1) := by
      simp only [isalGenSyndrome, Nat.add_sub_cancel]
      split_ifs with hwide halloc
      · rfl
      · exact absurd ⟨by omega, halloc⟩ hcond
      · rfl
    have heq := h.genSyndrome 8 .block (staleParity (k + 1)) (dvd_refl 8) (by omega)
    rw [hgen, hnoop] at heq
    have hbyte := congrFun (congrFun heq (.block (k + 1))) 0
    rw [raid6IntGenSyndrome_staleParity] at hbyte
    simp [staleParity] at hbyte
  · rintro ⟨hk, halloc⟩
    refine ⟨fun bytes ptrs mem h8 _ => ?_, ?_, ?_⟩
    · rw [hgen, isalGenSyndrome_eq _ (by omega) hk halloc, raid6IntGenSyndrome_eq k h8]
    · intro bytes faila failb ptrs cc mem junkA junkB h8 _ hcc hab hb hown hsync
      have hpq : ptrs (k + 1) ≠ ptrs (k + 2) :=
        hown (k + 2) (by simp) (k + 1) (by omega) (by omega)
      exact isal2dataRecov_restores hcc.ok (.inl hk) hab hb hown (hsync.encoded h8 hpq) junkA junkB
    · intro bytes faila ptrs cc mem junkA junkP h8 _ hcc ha hown hsync
      have hpq : ptrs (k + 1) ≠ ptrs (k + 2) :=
        hown (k + 2) (by simp) (k + 1) (by omega) (by omega)
      exact isalDatapRecov_restores hcc.ok (.inl hk) ha hown (hsync.encoded h8 hpq) junkA junkP

/-- A processor with every feature. -/
def fullCpu : BootCpu := ⟨true, true, true, true, true⟩

theorem isal_drop_in_six_disks :
    DropIn ⟨true, true⟩ (fun _ => true) 6 ↔ 6 ≤ 32 ∧ (fun _ => true : Alloc) .genTbls = true :=
  isal_drop_in_iff (show isalInstallRaid6Call fullCpu true = some ⟨true, true⟩ from rfl) _
    (by decide)

/-- With 33 data disks and every allocation successful the installed generator leaves
`P` as it was. -/
theorem isal_gen_syndrome_skips_33_disks : isalInstallRaid6Call fullCpu true = some ⟨true, true⟩ ∧
      raid6CallGenSyndrome ⟨true, true⟩ (fun _ => true) 35 8 .block (staleParity 33) (.block 33) 0 =
        1 ∧ raid6IntGenSyndrome 35 8 .block (staleParity 33) (.block 33) 0 = 0 :=
  ⟨rfl, rfl, raid6IntGenSyndrome_staleParity 32⟩

end MdRaid.Isal
