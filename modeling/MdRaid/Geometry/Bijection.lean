import MdRaid.Geometry.ComputeSector

/-!
# RAID-4/5/6 address mapping: the two switches are inverse

`raid5_compute_sector` and `raid5_compute_blocknr` code each layout twice, once
per direction. Within one row of chunks both reduce to a map between the data
indices `0 .. data_disks - 1` and the device indices that carry no parity; a
`RowMap` says that such a pair of maps is a bijection. `place_rowMap` builds one
for every accepted layout, and the division by chunk and by row around the
switches is the same for all of them.
-/

namespace MdRaid.Geometry

open Int

/-! ## Rows -/

/-- `place` and `unplace` restricted to one row: data index to device index and
back, around fixed parity positions `pd` and `qd`. -/
structure RowMap (n m pd qd : Int) (place unplace : Int → Int) : Prop where
  pd_range : 0 ≤ pd ∧ pd < n
  qd_range : qd = -1 ∨ (0 ≤ qd ∧ qd < n ∧ qd ≠ pd)
  place_range : ∀ d, 0 ≤ d → d < m → 0 ≤ place d ∧ place d < n
  place_ne : ∀ d, 0 ≤ d → d < m → place d ≠ pd ∧ place d ≠ qd
  unplace_place : ∀ d, 0 ≤ d → d < m → unplace (place d) = d
  unplace_range : ∀ i, 0 ≤ i → i < n → i ≠ pd → i ≠ qd →
    0 ≤ unplace i ∧ unplace i < m
  place_unplace : ∀ i, 0 ≤ i → i < n → i ≠ pd → i ≠ qd → place (unplace i) = i

/-- A sum that crosses the modulus at most once. -/
theorem emod_of_lt_two_mul {a n : Int} (h0 : 0 ≤ a) (h2 : a < 2 * n) :
    a % n = if a < n then a else a - n := by
  split
  · exact emod_eq_of_lt h0 (by omega)
  · rw [← sub_emod_right]
    exact emod_eq_of_lt (by omega) (by omega)

/-- Fixed parity devices after the data. -/
theorem rowMap_parityN {n m qd : Int} (hm : 0 < m)
    (hn : (qd = -1 ∧ n = m + 1) ∨ (qd = m + 1 ∧ n = m + 2)) :
    RowMap n m m qd (fun d => d) (fun i => i) where
  pd_range := by omega
  qd_range := by omega
  place_range := by intro d h0 h1; omega
  place_ne := by intro d h0 h1; omega
  unplace_place := by intro d h0 h1; rfl
  unplace_range := by intro i h0 h1 hp hq; omega
  place_unplace := by intro i h0 h1 hp hq; rfl

/-- Fixed parity devices before the data; Q may also be last. -/
theorem rowMap_parity0 {n m skip qd : Int} (hm : 0 < m)
    (hn : (qd = -1 ∧ skip = 1 ∧ n = m + 1) ∨ (qd = 1 ∧ skip = 2 ∧ n = m + 2) ∨
      (qd = m + 1 ∧ skip = 1 ∧ n = m + 2)) :
    RowMap n m 0 qd (fun d => d + skip) (fun i => i - skip) where
  pd_range := by omega
  qd_range := by omega
  place_range := by intro d h0 h1; omega
  place_ne := by intro d h0 h1; omega
  unplace_place := by intro d h0 h1; omega
  unplace_range := by intro i h0 h1 hp hq; omega
  place_unplace := by intro i h0 h1 hp hq; omega

/-- P at any position of the first `m + 1` devices, data in order around it. -/
theorem rowMap_stepOver {n m pd qd : Int} (hpd : 0 ≤ pd ∧ pd ≤ m)
    (hn : (qd = -1 ∧ n = m + 1) ∨ (qd = m + 1 ∧ n = m + 2)) :
    RowMap n m pd qd (stepOver pd) (fun i => if i > pd then i - 1 else i) where
  pd_range := by omega
  qd_range := by omega
  place_range := by intro d h0 h1; unfold stepOver; split_ifs <;> omega
  place_ne := by intro d h0 h1; unfold stepOver; split_ifs <;> omega
  unplace_place := by intro d h0 h1; unfold stepOver; split_ifs <;> omega
  unplace_range := by intro i h0 h1 hp hq; split_ifs <;> omega
  place_unplace := by intro i h0 h1 hp hq; unfold stepOver; split_ifs <;> omega

/-- P at any position of the first `m + 1` devices, data continuing after it and
wrapping around. -/
theorem rowMap_rotate {n m pd qd : Int} (hpd : 0 ≤ pd ∧ pd ≤ m)
    (hn : (qd = -1 ∧ n = m + 1) ∨ (qd = m + 1 ∧ n = m + 2)) :
    RowMap n m pd qd (fun d => (pd + 1 + d) % (m + 1)) (unrotate (m + 1) pd 1) := by
  have hmod : ∀ d, 0 ≤ d → d < m →
      (pd + 1 + d) % (m + 1) = if pd + 1 + d < m + 1 then pd + 1 + d
        else pd + 1 + d - (m + 1) :=
    fun d h0 h1 => emod_of_lt_two_mul (by omega) (by omega)
  have hun : ∀ i, 0 ≤ i → i < n → i ≠ pd → i ≠ qd →
      0 ≤ unrotate (m + 1) pd 1 i ∧ unrotate (m + 1) pd 1 i < m := by
    intro i h0 h1 hp hq
    unfold unrotate
    split_ifs <;> omega
  refine ⟨by omega, by omega, ?_, ?_, ?_, hun, ?_⟩
  · intro d h0 h1
    rw [hmod d h0 h1]
    split_ifs <;> omega
  · intro d h0 h1
    rw [hmod d h0 h1]
    split_ifs <;> omega
  · intro d h0 h1
    rw [hmod d h0 h1]
    unfold unrotate
    split_ifs <;> omega
  · intro i h0 h1 hp hq
    have hr := hun i h0 h1 hp hq
    rw [hmod _ hr.1 hr.2]
    unfold unrotate
    split_ifs <;> omega

/-! ### RAID-6 rows with P and Q side by side -/

/-- Position of Q in the asymmetric layouts. -/
def asymmetricQ (n pd : Int) : Int := if pd = n - 1 then 0 else pd + 1

/-- Device index of data block `d` in the asymmetric layouts. -/
def asymmetricDd (n pd d : Int) : Int :=
  if pd = n - 1 then d + 1 else if d ≥ pd then d + 2 else d

theorem asymmetricPQ_eq (n pd d : Int) (ddf : Bool) :
    asymmetricPQ n pd d ddf = ⟨⟨pd, asymmetricQ n pd, ddf⟩, asymmetricDd n pd d⟩ := by
  unfold asymmetricPQ asymmetricQ asymmetricDd
  split
  · rfl
  · split <;> rfl

theorem rowMap_asymmetricPQ {n m pd : Int} (hm : 0 < m) (hn : n = m + 2) (hpd : 0 ≤ pd ∧ pd < n) :
    RowMap n m pd (asymmetricQ n pd) (asymmetricDd n pd)
      (fun i => if pd = n - 1 then i - 1 else if i > pd then i - 2 else i) := by
  unfold asymmetricQ asymmetricDd
  refine ⟨hpd, ?_, ?_, ?_, ?_, ?_, ?_⟩
  · split_ifs <;> omega
  · intro d h0 h1
    split_ifs <;> omega
  · intro d h0 h1
    split_ifs <;> omega
  · intro d h0 h1
    split_ifs <;> omega
  · intro i h0 h1 hp hq
    split_ifs at hq ⊢ <;> omega
  · intro i h0 h1 hp hq
    split_ifs at hq ⊢ <;> omega

/-- Both parity blocks side by side, then the data, wrapping around: `a` blocks behind P, with
Q behind P or before it. -/
theorem rowMap_aroundPQ {n m pd q a e : Int} (hm : 0 < m) (hn : n = m + 2) (hpd : 0 ≤ pd ∧ pd < n)
    (h : a = 2 ∧ e = n - 1 ∧ (pd + 1 < n ∧ q = pd + 1 ∨ pd + 1 = n ∧ q = 0) ∨
      a = 1 ∧ e = 0 ∧ (0 < pd ∧ q = pd - 1 ∨ pd = 0 ∧ q = n - 1)) :
    RowMap n m pd q (fun d => (pd + a + d) % n)
      (fun i => if pd = e then i - 1 else unrotate n pd a i) := by
  have hmod : ∀ d, 0 ≤ d → d < m →
      (pd + a + d) % n = if pd + a + d < n then pd + a + d else pd + a + d - n :=
    fun d h0 h1 => emod_of_lt_two_mul (by omega) (by omega)
  have hun : ∀ i, 0 ≤ i → i < n → i ≠ pd → i ≠ q →
      0 ≤ (if pd = e then i - 1 else unrotate n pd a i) ∧
      (if pd = e then i - 1 else unrotate n pd a i) < m := by
    intro i _ _ _ _
    unfold unrotate
    split_ifs <;> omega
  refine ⟨hpd, .inr (by omega), ?_, ?_, ?_, hun, ?_⟩
  · intro d h0 h1
    rw [hmod d h0 h1]
    split_ifs <;> omega
  · intro d h0 h1
    rw [hmod d h0 h1]
    split_ifs <;> omega
  · intro d h0 h1
    rw [hmod d h0 h1]
    unfold unrotate
    split_ifs <;> omega
  · intro i h0 h1 hp hiq
    have hr := hun i h0 h1 hp hiq
    rw [hmod _ hr.1 hr.2]
    unfold unrotate
    split_ifs <;> omega

section

variable {n m pd : Int} (hm : 0 < m) (hn : n = m + 2) (hpd : 0 ≤ pd ∧ pd < n)
include hm hn hpd

/-- P then Q then the data, wrapping around. -/
theorem rowMap_symmetricPQ : RowMap n m pd ((pd + 1) % n) (fun d => (pd + 2 + d) % n)
      (fun i => if pd = n - 1 then i - 1 else unrotate n pd 2 i) := by
  refine rowMap_aroundPQ hm hn hpd (.inl ⟨rfl, rfl, ?_⟩)
  rw [emod_of_lt_two_mul (by omega) (by omega)]
  split_ifs <;> omega

/-- Q then P then the data, wrapping around (`ROTATING_N_CONTINUE`). -/
theorem rowMap_continueQP : RowMap n m pd ((pd + n - 1) % n) (fun d => (pd + 1 + d) % n)
      (fun i => if pd = 0 then i - 1 else unrotate n pd 1 i) := by
  refine rowMap_aroundPQ hm hn hpd (.inr ⟨rfl, rfl, ?_⟩)
  rw [emod_of_lt_two_mul (by omega) (by omega)]
  split_ifs <;> omega

end

/-! ## Every accepted layout is a row map -/

/-- One row of a layout: the parity positions do not depend on the data index,
and the two switches are the two halves of a `RowMap`. -/
structure RowLayout (level : Level) (n m : Int) (place : Int → Option Placement)
    (unplace : Int → Int → Option Int) (idx : StripeIdx) (f g : Int → Int) : Prop where
  place_eq : ∀ d, place d = some ⟨idx, f d⟩
  unplace_eq : ∀ i, unplace idx.pdIdx i = some (g i)
  rowMap : RowMap n m idx.pdIdx idx.qdIdx f g
  qd_none : level ≠ .raid6 → idx.qdIdx = -1
  qd_some : level = .raid6 → idx.qdIdx ≠ -1

theorem rowLayout_raid5 {alg : Algorithm} {n m rot : Int} (hm : 0 < m) (hn : n = m + 1)
    (hrot : 0 ≤ rot ∧ rot < n)
    (halg : alg = .leftAsymmetric ∨ alg = .rightAsymmetric ∨ alg = .leftSymmetric ∨
      alg = .rightSymmetric ∨ alg = .parity0 ∨ alg = .parityN) :
    ∃ idx f g, RowLayout .raid5 n m (placeRaid5 alg n m rot) (unplaceRaid5 alg n) idx f g := by
  have hside : ((-1 : Int) = -1 ∧ n = m + 1) ∨ ((-1 : Int) = m + 1 ∧ n = m + 2) :=
    .inl ⟨rfl, hn⟩
  have hpd : 0 ≤ m - rot ∧ m - rot ≤ m := by omega
  have hrot' : 0 ≤ rot ∧ rot ≤ m := by omega
  rcases halg with rfl | rfl | rfl | rfl | rfl | rfl
  · exact ⟨⟨m - rot, -1, false⟩, _, _, fun _ => rfl, fun _ => rfl,
      rowMap_stepOver hpd hside, fun _ => rfl, by simp⟩
  · exact ⟨⟨rot, -1, false⟩, _, _, fun _ => rfl, fun _ => rfl,
      rowMap_stepOver hrot' hside, fun _ => rfl, by simp⟩
  · subst hn
    exact ⟨⟨m - rot, -1, false⟩, _, _, fun _ => rfl, fun _ => rfl,
      rowMap_rotate hpd hside, fun _ => rfl, by simp⟩
  · subst hn
    exact ⟨⟨rot, -1, false⟩, _, _, fun _ => rfl, fun _ => rfl,
      rowMap_rotate hrot' hside, fun _ => rfl, by simp⟩
  · exact ⟨⟨0, -1, false⟩, _, _, fun _ => rfl, fun _ => rfl,
      rowMap_parity0 hm (.inl ⟨rfl, rfl, hn⟩), fun _ => rfl, by simp⟩
  · exact ⟨⟨m, -1, false⟩, _, _, fun _ => rfl, fun _ => rfl,
      rowMap_parityN hm hside, fun _ => rfl, by simp⟩

theorem rowLayout_raid6 (alg : Algorithm) {n m : Int} (s : Nat) (hm : 0 < m) (hn : n = m + 2) :
    ∃ idx f g, RowLayout .raid6 n m (placeRaid6 alg n m s) (unplaceRaid6 alg n m) idx f g := by
  have hrange : ∀ (a : Int) (b : Int), 0 < b → 0 ≤ a % b ∧ a % b < b := fun a b hb =>
    ⟨emod_nonneg a (by omega), emod_lt_of_pos a hb⟩
  have hr := hrange s n (by omega)
  have hr1 := hrange (sectorT (s + 1)) n (by omega)
  have hl : 0 ≤ n - 1 - (s : Int) % n ∧ n - 1 - (s : Int) % n < n := by omega
  have hl1 : 0 ≤ n - 1 - (sectorT (s + 1) : Int) % n ∧
      n - 1 - (sectorT (s + 1) : Int) % n < n := by omega
  have hr5 : 0 ≤ (s : Int) % (m + 1) ∧ (s : Int) % (m + 1) ≤ m := by
    have := hrange s (m + 1) (by omega)
    omega
  have hl5 : 0 ≤ m - (s : Int) % (m + 1) ∧ m - (s : Int) % (m + 1) ≤ m := by omega
  have hlast : (m + 1 = -1 ∧ n = m + 1) ∨ (m + 1 = m + 1 ∧ n = m + 2) := .inr ⟨rfl, hn⟩
  have hasym : ∀ pd : Int, 0 ≤ pd → asymmetricQ n pd ≠ -1 := by
    intro pd h0
    unfold asymmetricQ
    split_ifs <;> omega
  have hne : ∀ a : Int, a % n ≠ -1 := fun a => by
    have := hrange a n (by omega)
    omega
  have hn1 : n - 1 = m + 1 := by omega
  cases alg with
  | leftAsymmetric =>
    exact ⟨_, _, _, fun d => by rw [placeRaid6, asymmetricPQ_eq], fun _ => rfl,
      rowMap_asymmetricPQ hm hn hl, by simp, fun _ => hasym _ hl.1⟩
  | rightAsymmetric =>
    exact ⟨_, _, _, fun d => by rw [placeRaid6, asymmetricPQ_eq], fun _ => rfl,
      rowMap_asymmetricPQ hm hn hr, by simp, fun _ => hasym _ hr.1⟩
  | leftSymmetric =>
    exact ⟨_, _, _, fun _ => rfl, fun _ => rfl,
      rowMap_symmetricPQ hm hn hl, by simp, fun _ => hne _⟩
  | rightSymmetric =>
    exact ⟨_, _, _, fun _ => rfl, fun _ => rfl,
      rowMap_symmetricPQ hm hn hr, by simp, fun _ => hne _⟩
  | parity0 =>
    exact ⟨⟨0, 1, false⟩, _, _, fun _ => rfl, fun _ => rfl,
      rowMap_parity0 hm (.inr (.inl ⟨rfl, rfl, hn⟩)), by simp, by simp⟩
  | parityN =>
    exact ⟨⟨m, m + 1, false⟩, _, _, fun _ => rfl, fun _ => rfl,
      rowMap_parityN hm hlast, by simp, fun _ => by simp only []; omega⟩
  | rotatingZeroRestart =>
    exact ⟨_, _, _, fun d => by rw [placeRaid6, asymmetricPQ_eq], fun _ => rfl,
      rowMap_asymmetricPQ hm hn hr, by simp, fun _ => hasym _ hr.1⟩
  | rotatingNRestart =>
    exact ⟨_, _, _, fun d => by rw [placeRaid6, asymmetricPQ_eq], fun _ => rfl,
      rowMap_asymmetricPQ hm hn hl1, by simp, fun _ => hasym _ hl1.1⟩
  | rotatingNContinue =>
    exact ⟨_, _, _, fun _ => rfl, fun _ => rfl,
      rowMap_continueQP hm hn hl, by simp, fun _ => hne _⟩
  | leftAsymmetric6 =>
    refine ⟨_, _, _, fun _ => rfl, fun _ => rfl, ?_, by simp, fun _ => by simp only []; omega⟩
    simp only [hn1]
    exact rowMap_stepOver hl5 hlast
  | rightAsymmetric6 =>
    refine ⟨_, _, _, fun _ => rfl, fun _ => rfl, ?_, by simp, fun _ => by simp only []; omega⟩
    simp only [hn1]
    exact rowMap_stepOver hr5 hlast
  | leftSymmetric6 =>
    refine ⟨_, _, _, fun _ => rfl, fun _ => rfl, ?_, by simp, fun _ => by simp only []; omega⟩
    simp only [hn1]
    exact rowMap_rotate hl5 hlast
  | rightSymmetric6 =>
    refine ⟨_, _, _, fun _ => rfl, fun _ => rfl, ?_, by simp, fun _ => by simp only []; omega⟩
    simp only [hn1]
    exact rowMap_rotate hr5 hlast
  | parity06 =>
    refine ⟨_, _, _, fun _ => rfl, fun _ => rfl, ?_, by simp, fun _ => by simp only []; omega⟩
    simp only [hn1]
    exact rowMap_parity0 hm (.inr (.inr ⟨rfl, rfl, hn⟩))

/-! ## Reading the checks of `setup_conf` -/

theorem setupConfChecks_ok {newLevel newLayout : Int} {raidDisks newChunkSectors : Nat}
    (h : setupConfChecks newLevel newLayout raidDisks newChunkSectors = .ok ()) :
    (newLevel = 5 → algorithmValidRaid5 newLayout) ∧
    (newLevel = 6 → algorithmValidRaid6 newLayout) ∧
    newChunkSectors ≠ 0 ∧ (newChunkSectors <<< 9) % pageSize = 0 ∧ isPowerOf2 newChunkSectors := by
  unfold setupConfChecks at h
  by_cases h1 : newLevel ≠ 5 ∧ newLevel ≠ 4 ∧ newLevel ≠ 6
  · rw [if_pos h1] at h
    cases h
  rw [if_neg h1] at h
  by_cases h2 : (newLevel = 5 ∧ ¬ algorithmValidRaid5 newLayout) ∨
      (newLevel = 6 ∧ ¬ algorithmValidRaid6 newLayout)
  · rw [if_pos h2] at h
    cases h
  rw [if_neg h2] at h
  by_cases h3 : newLevel = 6 ∧ raidDisks < 4
  · rw [if_pos h3] at h
    cases h
  rw [if_neg h3] at h
  by_cases h4 : newChunkSectors = 0 ∨ (newChunkSectors <<< 9) % pageSize ≠ 0 ∨
      ¬ isPowerOf2 newChunkSectors
  · rw [if_pos h4] at h
    cases h
  push Not at h2 h4
  exact ⟨h2.1, h2.2, h4⟩

/-- Below its own power of two a number that is not one shares its top bit with its
predecessor. -/
theorem eq_two_pow_log2 {n : Nat} (h : isPowerOf2 n) : n = 2 ^ n.log2 := by
  simp only [isPowerOf2, ne_eq, Bool.and_eq_true, decide_eq_true_eq] at h
  obtain ⟨hne, hand⟩ := h
  have hlo : 2 ^ n.log2 ≤ n := Nat.log2_self_le hne
  have hhi : n < 2 ^ (n.log2 + 1) := Nat.lt_log2_self
  by_contra hcontra
  have htop : (n &&& (n - 1)).testBit n.log2 := by
    rw [Nat.testBit_and, Nat.testBit_of_two_pow_le_and_two_pow_add_one_gt hlo hhi,
      Nat.testBit_of_two_pow_le_and_two_pow_add_one_gt (by omega) (by omega)]
    rfl
  rw [hand, Nat.zero_testBit] at htop
  cases htop

variable {previous : Bool} {conf : Conf}

/-- What an accepted geometry gives the arithmetic: a layout number the switches
know, a chunk of at least one page, and at least one data device. -/
theorem accepted_facts (h : Accepted conf previous) :
    (conf.level = .raid5 → algorithmValidRaid5 (conf.algo previous)) ∧
    (conf.level = .raid6 → algorithmValidRaid6 (conf.algo previous)) ∧
    stripeSectors ≤ conf.sectorsPerChunk previous ∧
    conf.disks previous = conf.dataDisks previous + conf.level.maxDegraded ∧
    0 < conf.dataDisks previous := by
  obtain ⟨h5, h6, h0, hp, -⟩ := setupConfChecks_ok h.checks
  have hmin := h.minDisks
  have hchunk : stripeSectors ≤ conf.sectorsPerChunk previous := by
    rw [Nat.shiftLeft_eq] at hp
    unfold pageSize at hp
    unfold stripeSectors
    omega
  refine ⟨fun hl => h5 (by rw [hl]; rfl), fun hl => h6 (by rw [hl]; rfl), hchunk, ?_⟩
  unfold Conf.dataDisks
  cases hl : conf.level <;> rw [hl] at hmin <;>
    simp only [Level.minDisks, Level.maxDegraded] at hmin ⊢ <;> omega

theorem Accepted.stripe_dvd (h : Accepted conf previous) :
    stripeSectors ∣ conf.sectorsPerChunk previous := by
  obtain ⟨-, -, -, hp, -⟩ := setupConfChecks_ok h.checks
  rw [Nat.shiftLeft_eq] at hp
  unfold pageSize at hp
  unfold stripeSectors
  omega

theorem Accepted.chunk_pos (h : Accepted conf previous) : 0 < conf.sectorsPerChunk previous :=
  lt_of_lt_of_le (by decide) (accepted_facts h).2.2.1

theorem Accepted.dataDisks_pos (h : Accepted conf previous) :
    0 < conf.dataDisks previous := (accepted_facts h).2.2.2.2

theorem algorithm_of_valid5 {layout : Int} (h : algorithmValidRaid5 layout) :
    ∃ alg, algorithmOfLayout layout = some alg ∧
      (alg = .leftAsymmetric ∨ alg = .rightAsymmetric ∨ alg = .leftSymmetric ∨
        alg = .rightSymmetric ∨ alg = .parity0 ∨ alg = .parityN) := by
  simp only [algorithmValidRaid5, Bool.and_eq_true, decide_eq_true_eq] at h
  obtain ⟨h0, h5⟩ := h
  interval_cases layout <;> exact ⟨_, rfl, by simp⟩

theorem algorithm_of_valid6 {layout : Int} (h : algorithmValidRaid6 layout) :
    ∃ alg, algorithmOfLayout layout = some alg := by
  simp only [algorithmValidRaid6, Bool.or_eq_true, Bool.and_eq_true, decide_eq_true_eq] at h
  rcases h with (⟨h0, h1⟩ | ⟨h0, h1⟩) | ⟨h0, h1⟩ <;> interval_cases layout <;> exact ⟨_, rfl⟩

/-- The layout of row `row` in one of the two geometries of `conf`. -/
def Conf.RowLayoutAt (conf : Conf) (previous : Bool) (row : Nat) (idx : StripeIdx)
    (f g : Int → Int) : Prop :=
  RowLayout conf.level (conf.disks previous) (conf.dataDisks previous)
    (place conf.level (conf.algo previous) (conf.disks previous)
      (conf.dataDisks previous) row)
    (unplace conf.level (conf.algo previous) (conf.disks previous)
      (conf.dataDisks previous)) idx f g

/-- Every row of an accepted geometry is laid out bijectively. -/
theorem accepted_rowLayout (h : Accepted conf previous)
    (row : Nat) : ∃ idx f g, conf.RowLayoutAt previous row idx f g := by
  unfold Conf.RowLayoutAt
  obtain ⟨h5, h6, -, hn, hm⟩ := accepted_facts h
  have hm' : (0 : Int) < conf.dataDisks previous := by exact_mod_cast hm
  have hn' : ((conf.disks previous : Nat) : Int) =
      conf.dataDisks previous + conf.level.maxDegraded := by exact_mod_cast hn
  cases hl : conf.level with
  | raid4 =>
    rw [hl] at hn'
    exact ⟨⟨conf.dataDisks previous, -1, false⟩, _, _, fun _ => rfl, fun _ => rfl,
      rowMap_parityN hm' (.inl ⟨rfl, hn'⟩), fun _ => rfl, by simp⟩
  | raid5 =>
    rw [hl] at hn'
    obtain ⟨alg, halg, hmem⟩ := algorithm_of_valid5 (h5 hl)
    have hrot := emod_nonneg (row : Int)
      (show ((conf.disks previous : Nat) : Int) ≠ 0 by omega)
    have hrot' := emod_lt_of_pos (row : Int)
      (show (0 : Int) < (conf.disks previous : Nat) by omega)
    obtain ⟨idx, f, g, hrow⟩ := rowLayout_raid5 hm' hn' ⟨hrot, hrot'⟩ hmem
    refine ⟨idx, f, g, fun d => ?_, fun i => ?_, hrow.rowMap, hrow.qd_none, hrow.qd_some⟩
    · simp only [place, halg, Option.bind_some]
      exact hrow.place_eq d
    · simp only [unplace, halg, Option.bind_some]
      exact hrow.unplace_eq i
  | raid6 =>
    rw [hl] at hn'
    obtain ⟨alg, halg⟩ := algorithm_of_valid6 (h6 hl)
    obtain ⟨idx, f, g, hrow⟩ := rowLayout_raid6 alg row hm' hn'
    refine ⟨idx, f, g, fun d => ?_, fun i => ?_, hrow.rowMap, hrow.qd_none, hrow.qd_some⟩
    · simp only [place, halg, Option.bind_some]
      exact hrow.place_eq d
    · simp only [unplace, halg, Option.bind_some]
      exact hrow.unplace_eq i

/-! ## Logical sectors and positions -/

/-- The logical sector of data block `d` of row `row`, at `offset` in its chunk. -/
def logicalSector (conf : Conf) (previous : Bool) (row d offset : Nat) : Nat :=
  (row * conf.dataDisks previous + d) * conf.sectorsPerChunk previous + offset

theorem mul_add_div_of_lt {a b c : Nat} (h : c < b) : (a * b + c) / b = a := by
  rw [add_comm, Nat.add_mul_div_right _ _ (by omega), Nat.div_eq_of_lt h, zero_add]

/-- The device sector is at most the logical sector, so it fits. -/
theorem row_le (r c m : Nat) : r / c / m * c + r % c ≤ r :=
  calc r / c / m * c + r % c ≤ r / c * c + r % c :=
        Nat.add_le_add_right (Nat.mul_le_mul_right _ (Nat.div_le_self _ _)) _
    _ = r := Nat.div_add_mod' _ _

/-- A sector between two boundaries of chunks is in a chunk between them. -/
theorem chunk_between {a b s c : Nat} (hc : 0 < c) (ha : c ∣ a) (hb : c ∣ b) (hle : a ≤ s)
    (hlt : s < b) : a ≤ s / c * c ∧ s / c * c + c ≤ b := by
  obtain ⟨i, rfl⟩ := ha
  obtain ⟨j, rfl⟩ := hb
  have hi : i ≤ s / c := (Nat.le_div_iff_mul_le hc).mpr (by rwa [mul_comm])
  have hj : s / c < j := (Nat.div_lt_iff_lt_mul hc).mpr (by rwa [mul_comm])
  constructor
  · rw [mul_comm c i]
    exact Nat.mul_le_mul_right c hi
  · rw [← Nat.succ_mul, mul_comm c j]
    exact Nat.mul_le_mul_right c hj

/-- The logical sectors of a row, by the device sector. -/
theorem row_bounds {r c m : Nat} (hc : 0 < c) (hm : 0 < m) :
    (r / c / m * c + r % c) / c * c * m ≤ r ∧ r < ((r / c / m * c + r % c) / c * c + c) * m := by
  have hrow : (r / c / m * c + r % c) / c = r / c / m := mul_add_div_of_lt (Nat.mod_lt r hc)
  have hchunk := Nat.div_add_mod' r c
  have hoff := Nat.mod_lt r hc
  rw [hrow]
  constructor
  · calc r / c / m * c * m = r / c / m * m * c := by ring
      _ ≤ r / c * c := Nat.mul_le_mul_right c (Nat.div_mul_le_self _ _)
      _ ≤ r := Nat.div_mul_le_self r c
  · have hlt : r / c < (r / c / m + 1) * m := by
      have := Nat.lt_mul_div_succ (r / c) hm
      rwa [mul_comm] at this
    calc r < (r / c + 1) * c := by rw [Nat.succ_mul]; omega
      _ ≤ (r / c / m + 1) * m * c := Nat.mul_le_mul_right c hlt
      _ = (r / c / m * c + c) * m := by ring

/-- A logical sector below the size is on the devices. -/
theorem row_lt {r c d size : Nat} (hc : 0 < c) (hd : 0 < d) (hdvd : c ∣ size) (hr : r < size * d) :
    r / c / d * c + r % c < size := by
  obtain ⟨hlow, -⟩ := row_bounds (r := r) hc hd
  generalize hs : r / c / d * c + r % c = sector at hlow ⊢
  have hrow : sector / c * c < size := Nat.lt_of_mul_lt_mul_right (hlow.trans_lt hr)
  have hchunk := (chunk_between hc (dvd_zero _) hdvd (Nat.zero_le _) hrow).2
  rw [Nat.mul_div_cancel _ hc] at hchunk
  have := Nat.lt_div_mul_add (a := sector) hc
  omega

section Mapping

variable {conf : Conf} {previous : Bool} {row d offset : Nat}

theorem logicalSector_lt {devSectors : Nat} (hdvd : conf.sectorsPerChunk previous ∣ devSectors)
    (hrow : row * conf.sectorsPerChunk previous + offset < devSectors)
    (hd : d < conf.dataDisks previous) (ho : offset < conf.sectorsPerChunk previous) :
    logicalSector conf previous row d offset < devSectors * conf.dataDisks previous := by
  obtain ⟨rows, rfl⟩ := hdvd
  unfold logicalSector
  generalize conf.sectorsPerChunk previous = spc at *
  generalize conf.dataDisks previous = m at *
  have hr : row < rows := by
    by_contra hc
    have := Nat.mul_le_mul_left spc (Nat.le_of_not_lt hc)
    rw [mul_comm row] at hrow
    omega
  calc (row * m + d) * spc + offset
      < (row * m + d) * spc + spc := by omega
    _ = (row * m + d + 1) * spc := by ring
    _ ≤ (row * m + m) * spc := Nat.mul_le_mul_right spc (by omega)
    _ = (row + 1) * m * spc := by ring
    _ ≤ rows * m * spc := Nat.mul_le_mul_right spc (Nat.mul_le_mul_right m hr)
    _ = spc * rows * m := by ring

/-- Every logical sector is the logical sector of its own row, index and offset. -/
theorem exists_logicalSector (h : Accepted conf previous) (r : Nat) :
    ∃ row d offset, r = logicalSector conf previous row d offset ∧
      d < conf.dataDisks previous ∧ offset < conf.sectorsPerChunk previous ∧
      row * conf.sectorsPerChunk previous + offset ≤ r := by
  obtain ⟨-, -, hspc, -, hm⟩ := accepted_facts h
  unfold stripeSectors at hspc
  refine ⟨r / conf.sectorsPerChunk previous / conf.dataDisks previous,
    r / conf.sectorsPerChunk previous % conf.dataDisks previous,
    r % conf.sectorsPerChunk previous, ?_, Nat.mod_lt _ hm, Nat.mod_lt _ (by omega), ?_⟩
  · unfold logicalSector
    rw [Nat.div_add_mod', Nat.div_add_mod']
  · exact row_le r _ _

variable {idx : StripeIdx} {f g : Int → Int}

/-- `raid5_compute_sector` on a logical sector given by row, index and offset. -/
theorem raid5ComputeSector_logical (hlay : conf.RowLayoutAt previous row idx f g)
    (hd : d < conf.dataDisks previous) (ho : offset < conf.sectorsPerChunk previous)
    (hfit : row * conf.sectorsPerChunk previous + offset < 2 ^ 64) :
    raid5ComputeSector conf (logicalSector conf previous row d offset) previous =
      some ⟨row * conf.sectorsPerChunk previous + offset, f d, idx⟩ := by
  have hdiv : logicalSector conf previous row d offset / conf.sectorsPerChunk previous =
      row * conf.dataDisks previous + d := mul_add_div_of_lt ho
  have hmod : logicalSector conf previous row d offset % conf.sectorsPerChunk previous =
      offset := Nat.mul_add_mod_of_lt ho
  have hrow : (row * conf.dataDisks previous + d) / conf.dataDisks previous = row :=
    mul_add_div_of_lt hd
  have hidx : (row * conf.dataDisks previous + d) % conf.dataDisks previous = d :=
    Nat.mul_add_mod_of_lt hd
  unfold raid5ComputeSector
  simp only [hdiv, hmod, hrow, hidx, hlay.place_eq, Option.map_some, sectorT,
    Nat.mod_eq_of_lt hfit]

/-- `stripe_set_idx` finds the positions of the row its sector lies in. -/
theorem stripeSetIdx_row (hlay : conf.RowLayoutAt previous row idx f g)
    (hm : 0 < conf.dataDisks previous) (ho : offset < conf.sectorsPerChunk previous)
    (hfit : logicalSector conf previous row 0 offset < 2 ^ 64)
    (hfit' : row * conf.sectorsPerChunk previous + offset < 2 ^ 64) :
    stripeSetIdx conf (row * conf.sectorsPerChunk previous + offset) previous = some idx := by
  have hfirst : sectorT (row * conf.dataDisks previous * conf.sectorsPerChunk previous +
      offset) = logicalSector conf previous row 0 offset := by
    unfold sectorT
    rw [show row * conf.dataDisks previous * conf.sectorsPerChunk previous + offset =
      logicalSector conf previous row 0 offset from rfl]
    exact Nat.mod_eq_of_lt hfit
  unfold stripeSetIdx
  simp only [mul_add_div_of_lt ho, Nat.mul_add_mod_of_lt ho, hfirst]
  rw [raid5ComputeSector_logical hlay hm ho hfit']
  rfl

/-- `raid5_compute_blocknr` on a data device of a row: its own check passes, and
it returns the logical sector of the block. -/
theorem blocknrOutcome_logical (hlay : conf.RowLayoutAt previous row idx f g)
    (hd : d < conf.dataDisks previous) (ho : offset < conf.sectorsPerChunk previous)
    (hfit : logicalSector conf previous row d offset < 2 ^ 64)
    (hfit' : row * conf.sectorsPerChunk previous + offset < 2 ^ 64) : blocknrOutcome conf
      ⟨row * conf.sectorsPerChunk previous + offset, conf.disks previous, idx⟩
      (f d) previous = .sector (logicalSector conf previous row d offset) := by
  have hne := hlay.rowMap.place_ne d (by omega) (by exact_mod_cast hd)
  have hchunk : row * conf.dataDisks previous + d < 2 ^ 64 :=
    calc row * conf.dataDisks previous + d
        ≤ (row * conf.dataDisks previous + d) * conf.sectorsPerChunk previous :=
          Nat.le_mul_of_pos_right _ (by omega)
      _ ≤ logicalSector conf previous row d offset := Nat.le_add_right _ _
      _ < 2 ^ 64 := hfit
  have hcn : ((((row * conf.dataDisks previous : Nat) : Int) + (d : Int)) % 2 ^ 64).toNat =
      row * conf.dataDisks previous + d := by
    rw [Int.emod_eq_of_lt (by omega) (by exact_mod_cast hchunk)]
    omega
  have hsec : sectorT ((row * conf.dataDisks previous + d) *
      conf.sectorsPerChunk previous + offset) = logicalSector conf previous row d offset :=
    Nat.mod_eq_of_lt hfit
  have hcomp := raid5ComputeSector_logical hlay hd ho hfit'
  unfold blocknrOutcome
  simp only [mul_add_div_of_lt ho, Nat.mul_add_mod_of_lt ho, if_neg hne.1, hne.2,
    and_false, if_false]
  rw [show conf.disks previous - conf.level.maxDegraded = conf.dataDisks previous from rfl,
    hlay.unplace_eq, hlay.rowMap.unplace_place d (by omega) (by exact_mod_cast hd)]
  simp only [hcn, hsec, hcomp, ne_eq, not_true_eq_false, or_self, if_false]

end Mapping

variable {previous : Bool} {conf : Conf}

/-- The device sector, whatever the layout. -/
theorem raid5ComputeSector_newSector {r : Nat} {t : Target}
    (ht : raid5ComputeSector conf r previous = some t) :
    t.newSector = sectorT (r / conf.sectorsPerChunk previous / conf.dataDisks previous *
      conf.sectorsPerChunk previous + r % conf.sectorsPerChunk previous) := by
  unfold raid5ComputeSector at ht
  obtain ⟨p, -, rfl⟩ := Option.map_eq_some_iff.mp ht
  rfl

theorem sectorT_row {r : Nat} (hr : r < 2 ^ 64) (c m : Nat) :
    sectorT (r / c / m * c + r % c) = r / c / m * c + r % c :=
  Nat.mod_eq_of_lt (lt_of_le_of_lt (row_le r c m) hr)

/-- The indices `raid5_compute_sector` yields: in range, pairwise distinct, and
Q present exactly on level 6. -/
structure WellPlaced (level : Level) (n : Nat) (t : Target) : Prop where
  dd_range : 0 ≤ t.ddIdx ∧ t.ddIdx < n
  pd_range : 0 ≤ t.idx.pdIdx ∧ t.idx.pdIdx < n
  dd_ne_pd : t.ddIdx ≠ t.idx.pdIdx
  dd_ne_qd : t.ddIdx ≠ t.idx.qdIdx
  qd_range : level = .raid6 → 0 ≤ t.idx.qdIdx ∧ t.idx.qdIdx < n ∧ t.idx.qdIdx ≠ t.idx.pdIdx
  qd_none : level ≠ .raid6 → t.idx.qdIdx = -1

theorem RowLayout.wellPlaced {level : Level} {n m : Nat} {place : Int → Option Placement}
    {unplace : Int → Int → Option Int} {idx : StripeIdx} {f g : Int → Int} {d : Nat}
    (h : RowLayout level n m place unplace idx f g) (hd : d < m) (sector : Nat) :
    WellPlaced level n ⟨sector, f d, idx⟩ := by
  have hd' : (d : Int) < m := by exact_mod_cast hd
  have hne := h.rowMap.place_ne d (by omega) hd'
  refine ⟨h.rowMap.place_range d (by omega) hd', h.rowMap.pd_range, hne.1, hne.2, ?_,
    h.qd_none⟩
  intro hl
  rcases h.rowMap.qd_range with hq | hq
  · exact absurd hq (h.qd_some hl)
  · exact hq

section

variable (h : Accepted conf previous)
include h

theorem raid5ComputeSector_wellPlaced {r : Nat} (hr : r < 2 ^ 64) :
    ∃ t, raid5ComputeSector conf r previous = some t ∧
      WellPlaced conf.level (conf.disks previous) t := by
  obtain ⟨row, d, offset, rfl, hd, ho, hle⟩ := exists_logicalSector h r
  obtain ⟨idx, f, g, hlay⟩ := accepted_rowLayout h row
  exact ⟨_, raid5ComputeSector_logical hlay hd ho (lt_of_le_of_lt hle hr),
    hlay.wellPlaced hd _⟩

/-- The parity positions of a stripe of an accepted geometry. -/
theorem initStripe_wellPlaced
    {sector : Nat} {sh : StripeHead} (hs : initStripe conf sector previous = some sh) :
    sh.disks = conf.disks previous ∧
      ∃ t, WellPlaced conf.level (conf.disks previous) t ∧ sh.idx = t.idx := by
  simp only [initStripe, stripeSetIdx, Option.map_map, Option.map_eq_some_iff] at hs
  obtain ⟨t, ht, rfl⟩ := hs
  obtain ⟨t', ht', hwell⟩ := raid5ComputeSector_wellPlaced h
    (r := sectorT (sector / conf.sectorsPerChunk previous * conf.dataDisks previous *
      conf.sectorsPerChunk previous + sector % conf.sectorsPerChunk previous))
    (Nat.mod_lt _ (by decide))
  refine ⟨rfl, t', hwell, ?_⟩
  cases ht.symm.trans ht'
  rfl

/-- A logical sector goes to well-placed indices, and back from there. -/
theorem raid5ComputeSector_roundTrip
    {r : Nat} (hr : r < 2 ^ 64) : ∃ t sh, raid5ComputeSector conf r previous = some t ∧
      WellPlaced conf.level (conf.disks previous) t ∧
      initStripe conf t.newSector previous = some sh ∧ sh.idx = t.idx ∧
      blocknrOutcome conf sh t.ddIdx previous = .sector r ∧
      raid5ComputeBlocknr conf sh t.ddIdx previous = r := by
  obtain ⟨-, -, -, -, hm⟩ := accepted_facts h
  obtain ⟨row, d, offset, rfl, hd, ho, hle⟩ := exists_logicalSector h r
  obtain ⟨idx, f, g, hlay⟩ := accepted_rowLayout h row
  have hfit' := lt_of_le_of_lt hle hr
  have hfit0 : logicalSector conf previous row 0 offset < 2 ^ 64 := by
    refine lt_of_le_of_lt ?_ hr
    unfold logicalSector
    exact Nat.add_le_add_right (Nat.mul_le_mul_right _ (by omega)) _
  have hout := blocknrOutcome_logical hlay hd ho hr hfit'
  refine ⟨_, ⟨row * conf.sectorsPerChunk previous + offset, conf.disks previous, idx⟩,
    raid5ComputeSector_logical hlay hd ho hfit', hlay.wellPlaced hd _, ?_, rfl, hout, ?_⟩
  · simp only [initStripe, stripeSetIdx_row hlay hm ho hfit0 hfit', Option.map_some]
  · simp only [raid5ComputeBlocknr, hout]

/-- Every data position of a device of `devSectors` sectors is that of one logical sector. -/
theorem exists_logical_of_data
    {devSectors : Nat} (hdvd : conf.sectorsPerChunk previous ∣ devSectors)
    (hsize : devSectors * conf.dataDisks previous < 2 ^ 64) {sector : Nat}
    (hsector : sector < devSectors) : ∃ sh, initStripe conf sector previous = some sh ∧
      ∀ i : Int, 0 ≤ i → i < conf.disks previous → i ≠ sh.idx.pdIdx → i ≠ sh.idx.qdIdx →
        ∃ r, r < devSectors * conf.dataDisks previous ∧
          raid5ComputeSector conf r previous = some ⟨sector, i, sh.idx⟩ ∧
          ∀ r' < 2 ^ 64, ∀ t, raid5ComputeSector conf r' previous = some t →
            t.newSector = sector → t.ddIdx = i → r' = r := by
  obtain ⟨-, -, hspc, -, hm⟩ := accepted_facts h
  unfold stripeSectors at hspc
  obtain ⟨row, offset, hsec, ho⟩ : ∃ row offset,
      sector = row * conf.sectorsPerChunk previous + offset ∧
      offset < conf.sectorsPerChunk previous :=
    ⟨_, _, (Nat.div_add_mod' sector _).symm, Nat.mod_lt _ (by omega)⟩
  subst hsec
  obtain ⟨idx, f, g, hlay⟩ := accepted_rowLayout h row
  have hin : ∀ d, d < conf.dataDisks previous →
      logicalSector conf previous row d offset < devSectors * conf.dataDisks previous :=
    fun d hd => logicalSector_lt hdvd hsector hd ho
  have hfit' : row * conf.sectorsPerChunk previous + offset < 2 ^ 64 :=
    lt_of_lt_of_le hsector (le_trans (Nat.le_mul_of_pos_right _ hm) hsize.le)
  have hinit : initStripe conf (row * conf.sectorsPerChunk previous + offset) previous =
      some ⟨row * conf.sectorsPerChunk previous + offset, conf.disks previous, idx⟩ := by
    simp only [initStripe, stripeSetIdx_row hlay hm ho ((hin 0 hm).trans hsize) hfit',
      Option.map_some]
  refine ⟨_, hinit, ?_⟩
  intro i h0 hn hpd hqd
  have hg := hlay.rowMap.unplace_range i h0 (by exact_mod_cast hn) hpd hqd
  obtain ⟨d, hgd⟩ := eq_ofNat_of_zero_le hg.1
  have hd : d < conf.dataDisks previous := by
    rw [hgd] at hg
    exact_mod_cast hg.2
  have hfi : f d = i := by
    have := hlay.rowMap.place_unplace i h0 (by exact_mod_cast hn) hpd hqd
    rwa [hgd] at this
  have hcomp := raid5ComputeSector_logical hlay hd ho hfit'
  have hout := blocknrOutcome_logical hlay hd ho ((hin d hd).trans hsize) hfit'
  rw [hfi] at hcomp hout
  refine ⟨_, hin d hd, hcomp, ?_⟩
  intro r' hr' t ht hts hti
  obtain ⟨t', sh', ht', -, hsh', -, hout', -⟩ := raid5ComputeSector_roundTrip h hr'
  rw [ht] at ht'
  cases ht'
  rw [hts, hinit] at hsh'
  cases hsh'
  rw [hti, hout] at hout'
  exact (BlocknrOutcome.sector.inj hout').symm

end

/-- **The address mapping is a bijection.** For an accepted geometry, current or
previous: every logical sector goes to a device sector and well-placed indices,
`init_stripe` on that device sector finds the same parity positions, and
`raid5_compute_blocknr` returns the sector without reaching its warning.
Conversely every data position of a device of `devSectors` sectors (whole
chunks, with an array size that fits a `sector_t`) is hit by exactly one
logical sector, one inside the array. -/
theorem address_mapping_bijective (conf : Conf) (previous : Bool) (h : Accepted conf previous) :
    (∀ r < 2 ^ 64, ∃ t sh, raid5ComputeSector conf r previous = some t ∧
      WellPlaced conf.level (conf.disks previous) t ∧
      initStripe conf t.newSector previous = some sh ∧ sh.idx = t.idx ∧
      blocknrOutcome conf sh t.ddIdx previous = .sector r ∧
      raid5ComputeBlocknr conf sh t.ddIdx previous = r) ∧
    (∀ devSectors, conf.sectorsPerChunk previous ∣ devSectors →
      devSectors * conf.dataDisks previous < 2 ^ 64 →
      ∀ sector < devSectors, ∃ sh, initStripe conf sector previous = some sh ∧
        ∀ i : Int, 0 ≤ i → i < conf.disks previous → i ≠ sh.idx.pdIdx → i ≠ sh.idx.qdIdx →
          ∃ r, r < devSectors * conf.dataDisks previous ∧
            raid5ComputeSector conf r previous = some ⟨sector, i, sh.idx⟩ ∧
            ∀ r' < 2 ^ 64, ∀ t, raid5ComputeSector conf r' previous = some t →
              t.newSector = sector → t.ddIdx = i → r' = r) := by
  refine ⟨fun r hr => raid5ComputeSector_roundTrip h hr, ?_⟩
  intro devSectors hdvd hsize sector hsector
  exact exists_logical_of_data h hdvd hsize hsector

/-- A five-disk RAID-6 with the default layout and 64 KiB chunks. -/
def exampleConf : Conf :=
  ⟨.raid6, 2, 2, 128, 128, 5, 5⟩

theorem address_mapping_bijective_example : Accepted exampleConf false ∧
    ∀ r < 2 ^ 64, ∃ t sh, raid5ComputeSector exampleConf r false = some t ∧
      WellPlaced exampleConf.level (exampleConf.disks false) t ∧
      initStripe exampleConf t.newSector false = some sh ∧ sh.idx = t.idx ∧
      blocknrOutcome exampleConf sh t.ddIdx false = .sector r ∧
      raid5ComputeBlocknr exampleConf sh t.ddIdx false = r := by
  have h : Accepted exampleConf false := ⟨by rfl, by decide⟩
  exact ⟨h, (address_mapping_bijective exampleConf false h).1⟩

end MdRaid.Geometry
