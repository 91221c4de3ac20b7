import MdRaid.Takeover.Places

/-!
# A level change leaves every block where it is

An accepted level change is one of four moves: a striped array gets a parity device, a
mirror of two becomes an array with parity, one level with parity becomes another, or the
parity device is left away. Each keeps all blocks in place under a condition of its own on
the array before the change.
-/

namespace MdRaid.Takeover

open MdRaid.Geometry Conf Except Level List Bool Option Nat

/-! ## What a level change does -/

theorem setupConf_ok {mddev new : Mddev} (h : setupConf mddev = .ok new) :
    ∃ level, mddev.newLevel.raid456 = some level ∧
      new = { mddev with pers := .raid456 (newConf mddev level) } ∧
      (level.minDisks ≤ mddev.raidDisks → Accepted (newConf mddev level) false) := by
  unfold setupConf at h
  split at h
  · cases h
  · cases h
  next level hchecks hlevel =>
    refine ⟨level, hlevel, (ok.inj h).symm, fun hmin => ⟨?_, hmin⟩⟩
    have hnumber : mddev.newLevel.number = level.number := by
      cases hnew : mddev.newLevel <;> rw [hnew] at hlevel <;> cases hlevel <;> rfl
    rw [hnumber] at hchecks
    exact hchecks

/-- The zone of a running striped array that a level with parity can take over. -/
theorem running_singleZone {mddev : Mddev} {conf : R0conf} {zone : StripZone}
    (hrun : Running mddev) (hp : mddev.pers = .raid0 conf) (hzone : conf.stripZone = [zone]) :
    ∃ zoneSize, conf = singleZone zoneSize mddev.raidDisks ∧ 0 < mddev.raidDisks ∧
      size mddev = zoneSize * mddev.raidDisks ∧ mddev.chunkSectors ≤ zoneSize := by
  have hpers := hrun.pers
  have hnonempty := hrun.nonempty
  unfold PersOk at hpers
  rw [hp] at hpers
  obtain ⟨-, layout, defaultLayout, hcreate⟩ := hpers
  obtain ⟨hlen, others, hothers, hzones, hlayout⟩ := createStripZones_ok hcreate
  have hnil : others = [] := (cons.inj (hzones.symm.trans hzone)).2
  have hded : (mddev.rdevs.map (·.rounded mddev.chunkSectors)).dedup.length ≤ 1 := by
    rw [hnil, length_nil] at hothers
    omega
  set zoneSize := smallest (mddev.rdevs.map (·.rounded mddev.chunkSectors)) with hsize
  have hsum : size mddev = zoneSize * mddev.raidDisks := by
    have hconst : mddev.rdevs.map (·.rounded mddev.chunkSectors) =
        mddev.rdevs.map fun _ => zoneSize :=
      map_congr_left fun rdev hr => rounded_eq_smallest hded hr
    unfold size wholeChunks
    rw [hp]
    dsimp only
    rw [hconst, map_const', sum_replicate_nat, hlen, mul_comm]
  rw [hsum] at hnonempty
  have hdisks : 0 < mddev.raidDisks := Nat.pos_of_mul_pos_left hnonempty
  refine ⟨zoneSize, eq_singleZone hzones hnil hlayout, hdisks, hsum, ?_⟩
  -- the zone is made of whole chunks, and it is not empty
  obtain ⟨rdev, hr⟩ : ∃ rdev, rdev ∈ mddev.rdevs :=
    exists_mem_of_length_pos (by omega)
  have hround : rdev.sectors / mddev.chunkSectors * mddev.chunkSectors = zoneSize :=
    rounded_eq_smallest hded hr
  have hpos : 0 < zoneSize := Nat.pos_of_mul_pos_right hnonempty
  rw [← hround] at hpos ⊢
  exact Nat.le_mul_of_pos_left _ (Nat.pos_of_mul_pos_right hpos)

/-- What a level change that is accepted does, by the personalities before and after. -/
inductive Moved (old new : Mddev) (l : MdLevel) : Prop where
  | striped (conf : Conf) (zoneSize : Nat) (hlevel : old.level = .raid0)
      (hnew : new.level ≠ .raid6)
      (hold : old.pers = .raid0 (singleZone zoneSize (conf.dataDisks false)))
      (hpers : new.pers = .raid456 conf) (hlast : ParityLast conf)
      (hdevs : dataDevices old = conf.dataDisks false)
      (hchunk : conf.chunkSectors = old.chunkSectors) (hpos : 0 < conf.dataDisks false)
      (hsize : size old = zoneSize * conf.dataDisks false) (hzone : old.chunkSectors ≤ zoneSize)
      (hacc : Accepted conf false)
  | mirror (conf : Conf) (hlevel : old.level = .raid1) (hold : old.pers = .raid1)
      (hdisks : old.raidDisks = 2) (hpers : new.pers = .raid456 conf) (hnew : new.level = .raid5)
      (hacc : Accepted conf false) (hone : conf.dataDisks false = 1)
  | parity (conf conf' : Conf) (hl : l ≠ .raid0) (hold : old.pers = .raid456 conf)
    (hpers : new.pers = .raid456 conf')
      (hagree : Agree conf.level conf.algorithm conf.raidDisks conf'.level conf'.algorithm
        conf'.raidDisks (conf.dataDisks false))
      (hdata : conf'.dataDisks false = conf.dataDisks false)
      (hchunk : conf'.chunkSectors = old.newChunkSectors)
      (hacc : Accepted conf false) (hacc' : Accepted conf' false)
      (hlevel : old.level.raid456 = some conf.level)
        (hlevel' : new.level.raid456 = some conf'.level)
      (hne : new.level ≠ old.level) (hc : conf.chunkSectors = old.chunkSectors)
  | unparity (conf : Conf) (zoneSize : Nat) (hl : l = .raid0) (hold : old.pers = .raid456 conf)
      (hlevel : old.level.raid456 = some conf.level) (hnew : new.level = .raid0)
      (hpers : new.pers = .raid0 (singleZone zoneSize (conf.dataDisks false)))
      (hlast : ParityLast conf) (hchunk : new.chunkSectors = conf.chunkSectors)
      (hc : conf.chunkSectors = old.chunkSectors) (hacc : Accepted conf false)
      (hsize : size old = zoneSize * conf.dataDisks false) (hzone : old.chunkSectors ≤ zoneSize)

section LevelStore

variable {old new : Mddev}

/-- `level_store` behind the takeover. -/
def finish (mddev : Mddev) : Mddev :=
  { mddev with
    level := mddev.newLevel
    layout := mddev.newLayout
    chunkSectors := mddev.newChunkSectors
    deltaDisks := 0
    degraded := 0
    rdevs := mddev.rdevs.map fun rdev =>
      if rdev.raidDisk ≥ (mddev.raidDisks : Int) then { rdev with raidDisk := -1 } else rdev }

variable {defaultLayout : Int} {l : MdLevel}

theorem levelStore_ok (h : levelStore defaultLayout old l = .ok new) (hne : l ≠ old.level) :
    ∃ m, takeover defaultLayout old l = .ok m ∧ new = finish m := by
  unfold levelStore at h
  rw [if_neg hne] at h
  split_ifs at h with hro hbusy
  cases htake : takeover defaultLayout old l with
  | error e =>
    rw [htake] at h
    cases h
  | ok m =>
    rw [htake] at h
    exact ⟨m, rfl, (ok.inj h).symm⟩

theorem levelStore_same (h : levelStore defaultLayout old old.level = .ok new) : new = old := by
  unfold levelStore at h
  rw [if_pos rfl] at h
  split_ifs at h
  exact (ok.inj h).symm

theorem moved_striped (hrun : Running old) {m : Mddev} {level : Level}
    (hl : l.raid456 = some level) (hlast : level = .raid4 ∨ level = .raid5)
    (hlevel : old.level = .raid0) (h : raid45TakeoverRaid0 old l = .ok m) :
    Moved old (finish m) l := by
  unfold raid45TakeoverRaid0 at h
  cases hp : old.pers with
  | raid1 =>
    rw [hp] at h
    cases h
  | raid456 conf =>
    rw [hp] at h
    cases h
  | raid0 conf =>
    rw [hp] at h
    dsimp only at h
    split at h
    next zone hzone =>
      obtain ⟨zoneSize, rfl, hdisks, hsize, hle⟩ := running_singleZone hrun hp hzone
      obtain ⟨level', hl', rfl, hacc⟩ := setupConf_ok h
      obtain rfl : level' = level := some.inj (hl'.symm.trans hl)
      have hdata : ∀ m : Mddev, m.raidDisks = old.raidDisks + 1 →
          (newConf m level').dataDisks false = old.raidDisks := by
        intro m hm
        simp only [dataDisks, disks, newConf, false_eq_true, if_false, hm]
        rcases hlast with rfl | rfl <;> rfl
      refine .striped _ zoneSize hlevel ?_ ?_ rfl ?_ ?_ rfl ?_ ?_ hle (hacc ?_)
      · show l ≠ .raid6
        rintro rfl
        rcases hlast with rfl | rfl <;> cases hl
      · rw [hdata _ rfl, hp]
      · rcases hlast with rfl | rfl
        · exact .inl rfl
        · exact .inr ⟨rfl, rfl⟩
      · rw [hdata _ rfl, dataDevices, hp]
      · rwa [hdata _ rfl]
      · rwa [hdata _ rfl]
      · show level'.minDisks ≤ old.raidDisks + 1
        rcases hlast with rfl | rfl <;> simp only [minDisks] <;> omega
    · cases h

/-- What is known of a running array with parity. -/
theorem running_raid456 (hrun : Running old) {level : Level}
    (hl : old.level.raid456 = some level) : ∃ conf, old.pers = .raid456 conf ∧
      conf.level = level ∧ conf.algorithm = old.layout ∧ conf.chunkSectors = old.chunkSectors ∧
      conf.raidDisks = old.raidDisks ∧ Accepted conf false := by
  have hpers := hrun.pers
  unfold PersOk at hpers
  cases hp : old.pers with
  | raid0 conf =>
    rw [hp] at hpers
    rw [hpers.1] at hl
    cases hl
  | raid1 =>
    rw [hp] at hpers
    rw [hpers] at hl
    cases hl
  | raid456 conf =>
    rw [hp] at hpers
    obtain ⟨hlevel, halg, hc, hn, hacc⟩ := hpers
    exact ⟨conf, rfl, some.inj (hlevel.symm.trans hl), halg, hc, hn, hacc⟩

theorem moved_mirror (hlevel : old.level = .raid1) (hrun : Running old) {m : Mddev}
    (h : raid5TakeoverRaid1 old = .ok m) : Moved old (finish m) .raid5 := by
  unfold raid5TakeoverRaid1 at h
  split_ifs at h with hguard hchunk
  obtain ⟨level, hl, rfl, hacc⟩ := setupConf_ok h
  obtain rfl : raid5 = level := some.inj hl
  have hdisks : old.raidDisks = 2 := by
    by_contra hne
    exact hguard (.inl hne)
  have hpers := hrun.pers
  unfold PersOk at hpers
  cases hp : old.pers with
  | raid0 conf =>
    rw [hp] at hpers
    rw [hpers.1] at hlevel
    cases hlevel
  | raid456 conf =>
    rw [hp] at hpers
    rw [hlevel] at hpers
    cases hpers.1
  | raid1 =>
    refine .mirror _ hlevel hp hdisks rfl rfl (hacc ?_) ?_
    · show 2 ≤ old.raidDisks
      omega
    · show old.raidDisks - 1 = 1
      omega

/-- Between two levels with parity. -/
theorem moved_parity (hrun : Running old) {level level' : Level} {asked m : Mddev}
    (hl₀ : l ≠ .raid0) (h : setupConf asked = .ok m) (hl : old.level.raid456 = some level)
    (hl' : asked.newLevel.raid456 = some level')
    (hne : asked.newLevel ≠ old.level) (hchunk : asked.newChunkSectors = old.newChunkSectors)
    (hdata : asked.raidDisks - level'.maxDegraded = old.raidDisks - level.maxDegraded)
    (hmin : level.minDisks ≤ old.raidDisks → level'.minDisks ≤ asked.raidDisks)
    (hagree : level.minDisks ≤ old.raidDisks →
      Agree level old.layout old.raidDisks level' asked.newLayout asked.raidDisks
        (old.raidDisks - level.maxDegraded : Nat)) : Moved old (finish m) l := by
  obtain ⟨conf, hp, rfl, halg, hc, hn, hacc⟩ := running_raid456 hrun hl
  obtain ⟨level₁, hl₁, rfl, hacc'⟩ := setupConf_ok h
  obtain rfl : level₁ = level' := some.inj (hl₁.symm.trans hl')
  have hold : conf.dataDisks false = old.raidDisks - conf.level.maxDegraded := by
    rw [← hn]
    rfl
  have hdisks : conf.level.minDisks ≤ old.raidDisks := hn ▸ hacc.minDisks
  refine .parity conf _ hl₀ hp rfl ?_ ?_ hchunk hacc (hacc' (hmin hdisks)) hl hl' hne hc
  · rw [hold, halg, hn]
    exact hagree hdisks
  · rw [hold, ← hdata]
    rfl

theorem moved_unparity (hrun : Running old) {level : Level} {m : Mddev}
    (hl : old.level.raid456 = some level) (hlast : level = .raid4 ∨ level = .raid5 ∧ old.layout = 5)
    (h : raid0TakeoverRaid45 defaultLayout old = .ok m) : Moved old (finish m) .raid0 := by
  obtain ⟨conf, hp, rfl, halg, hc, hn, hacc⟩ := running_raid456 hrun hl
  unfold raid0TakeoverRaid45 at h
  split_ifs at h with hdeg hmissing
  dsimp only at h
  generalize hrdevs : (old.rdevs.map fun rdev => { rdev with sectors := old.devSectors }) = rdevs
    at h
  cases hcreate : createStripZones rdevs (old.raidDisks - 1) old.chunkSectors old.layout
      defaultLayout with
  | error e =>
    rw [hcreate] at h
    cases h
  | ok zones =>
    rw [hcreate] at h
    obtain rfl := ok.inj h
    obtain ⟨hlen, others, hothers, hzones, hlayout⟩ := createStripZones_ok hcreate
    have hdata : conf.dataDisks false = old.raidDisks - 1 := by
      rw [← hn]
      rcases hlast with hl | ⟨hl, -⟩ <;> simp [dataDisks, disks, hl, maxDegraded]
    have hpos : 0 < conf.dataDisks false := (accepted_facts hacc).2.2.2.2
    -- all devices have been given the same size
    have hsizes : rdevs.map (·.rounded old.chunkSectors) =
        replicate rdevs.length (old.devSectors / old.chunkSectors * old.chunkSectors) := by
      rw [← map_const']
      refine map_congr_left fun rdev hr => ?_
      rw [← hrdevs] at hr
      obtain ⟨rdev₀, -, rfl⟩ := mem_map.mp hr
      rfl
    have hded : (rdevs.map (·.rounded old.chunkSectors)).dedup.length ≤ 1 := by
      rw [hsizes]
      rcases Nat.eq_zero_or_pos rdevs.length with h0 | h0
      · rw [h0]
        exact zero_le _
      · rw [replicate_dedup (by omega)]
        exact le_refl _
    have hnil : others = [] := length_eq_zero_iff.mp (by omega)
    obtain ⟨rdev, hr⟩ : ∃ rdev, rdev ∈ rdevs := exists_mem_of_length_pos (by omega)
    have hleast : smallest (rdevs.map (·.rounded old.chunkSectors)) =
        old.devSectors / old.chunkSectors * old.chunkSectors := by
      rw [← rounded_eq_smallest hded hr]
      have hmem : rdev.rounded old.chunkSectors ∈ rdevs.map (·.rounded old.chunkSectors) :=
        mem_map_of_mem hr
      rw [hsizes] at hmem
      exact (mem_replicate.mp hmem).2
    rw [hleast, ← hdata] at hzones
    have hsize : size old = old.devSectors / old.chunkSectors * old.chunkSectors *
        conf.dataDisks false := by
      unfold size
      rw [hp]
    refine .unparity conf _ rfl hp hl rfl ?_ ?_ hc.symm hc hacc hsize ?_
    · exact congrArg Private.raid0 (eq_singleZone hzones hnil hlayout)
    · rcases hlast with hl | ⟨hl, h5⟩
      · exact .inl hl
      · exact .inr ⟨hl, halg.trans h5⟩
    · have hnonempty := hrun.nonempty
      rw [hsize] at hnonempty
      exact Nat.le_mul_of_pos_left _
        (Nat.pos_of_mul_pos_right (Nat.pos_of_mul_pos_right hnonempty))

/-- **What an accepted level change does.** -/
theorem levelStore_moved (hrun : Running old)
    (h : levelStore defaultLayout old l = .ok new) (hne : l ≠ old.level) : Moved old new l := by
  obtain ⟨m, htake, rfl⟩ := levelStore_ok h hne
  cases l with
  | raid1 => cases htake
  | raid0 =>
    simp only [takeover, raid0Takeover] at htake
    by_cases hbitmap : old.bitmap
    · rw [if_pos hbitmap] at htake
      cases htake
    rw [if_neg hbitmap] at htake
    cases hlevel : old.level with
    | raid0 => exact absurd hlevel.symm hne
    | raid1 => rw [hlevel] at htake; cases htake
    | raid6 => rw [hlevel] at htake; cases htake
    | raid4 =>
      rw [hlevel] at htake
      exact moved_unparity hrun (by rw [hlevel]; rfl) (.inl rfl) htake
    | raid5 =>
      rw [hlevel] at htake
      dsimp only at htake
      split_ifs at htake with hlayout
      exact moved_unparity hrun (by rw [hlevel]; rfl) (.inr ⟨rfl, hlayout⟩) htake
  | raid4 =>
    simp only [takeover, raid4Takeover] at htake
    cases hlevel : old.level with
    | raid0 =>
      rw [hlevel] at htake
      exact moved_striped hrun rfl (.inl rfl) hlevel htake
    | raid1 => rw [hlevel] at htake; cases htake
    | raid4 => exact absurd hlevel.symm hne
    | raid6 => rw [hlevel] at htake; cases htake
    | raid5 =>
      rw [hlevel] at htake
      dsimp only at htake
      split_ifs at htake with hlayout
      have hl : old.level.raid456 = some .raid5 := by rw [hlevel]; rfl
      refine moved_parity hrun (by simp) htake hl rfl hne rfl rfl id fun _ => ?_
      rw [hlayout]
      exact (agree_raid4_parityN _ _ _).symm
  | raid5 =>
    simp only [takeover, raid5Takeover] at htake
    cases hlevel : old.level with
    | raid0 =>
      rw [hlevel] at htake
      exact moved_striped hrun rfl (.inr rfl) hlevel htake
    | raid1 =>
      rw [hlevel] at htake
      exact moved_mirror hlevel hrun htake
    | raid4 =>
      rw [hlevel] at htake
      have hl : old.level.raid456 = some .raid4 := by rw [hlevel]; rfl
      exact moved_parity hrun (by simp) htake hl rfl hne rfl rfl id fun _ =>
        agree_raid4_parityN _ _ _
    | raid5 => exact absurd hlevel.symm hne
    | raid6 =>
      rw [hlevel] at htake
      dsimp only [raid5TakeoverRaid6] at htake
      split at htake
      · cases htake
      next newLayout hmap =>
        have hl : old.level.raid456 = some .raid6 := by rw [hlevel]; rfl
        refine moved_parity hrun (by simp) htake hl rfl hne rfl ?_ ?_ fun hmin => ?_
        · show old.raidDisks - 1 - 1 = old.raidDisks - 2
          omega
        · show 4 ≤ old.raidDisks → 2 ≤ old.raidDisks - 1
          omega
        · have hmin' : 4 ≤ old.raidDisks := hmin
          have hagree := agree_layout5To6 (layout5To6_of_layout6To5 hmap)
            ((old.raidDisks - 1 : Nat) : Int) ((old.raidDisks - 2 : Nat) : Int)
          rw [show ((old.raidDisks - 1 : Nat) : Int) + 1 = old.raidDisks by omega] at hagree
          exact hagree.symm
  | raid6 =>
    simp only [takeover, raid6Takeover] at htake
    split_ifs at htake with hguard
    have hlevel : old.level = .raid5 := by
      by_contra hne5
      exact hguard (.inl hne5)
    have hthree : 3 ≤ old.raidDisks := by
      by_contra hlt
      exact hguard (.inr (.inr (.inr (by omega))))
    split at htake
    · cases htake
    next newLayout hmap =>
      have hl : old.level.raid456 = some .raid5 := by rw [hlevel]; rfl
      refine moved_parity hrun (by simp) htake hl rfl hne rfl ?_ ?_ fun hmin => ?_
      · show old.raidDisks + 1 - 2 = old.raidDisks - 1
        omega
      · show 2 ≤ old.raidDisks → 4 ≤ old.raidDisks + 1
        omega
      · exact agree_layout5To6 hmap _ _

end LevelStore

/-! ## Changes in place -/

section InPlace

variable {old new : Mddev}

theorem Kept.of_same (hpers : new.pers = old.pers) (hchunk : new.chunkSectors = old.chunkSectors)
    (hdisks : new.raidDisks = old.raidDisks) (r : Nat) : Kept old new r := by
  have hmapped : mapped new r = mapped old r := by
    simp only [mapped, hpers, hchunk, hdisks]
  refine ⟨fun hne => hmapped ▸ hne, fun p hp => mem_append_left _ (hmapped ▸ hp), fun _ => ?_⟩
  simp only [parityPlace, hpers]

theorem chunk_mod_page {n : Nat} (hpow : isPowerOf2 n) (hmin : 8 ≤ n) :
    (n <<< 9) % pageSize = 0 := by
  have hn := eq_two_pow_log2 hpow
  have hlog : 3 ≤ n.log2 := (le_log2 (by omega)).mpr hmin
  obtain ⟨k, hk⟩ := Nat.exists_eq_add_of_le hlog
  rw [hk, pow_add] at hn
  rw [shiftLeft_eq, hn, pageSize]
  omega

section

variable (hrun : Running old)
include hrun

/-- The change an array of two devices takes over at once. -/
theorem kept_changeInPlace {asked : Mddev} {conf : Conf} (hp : old.pers = .raid456 conf)
    (hlevel : asked.level = old.level) (hdisks : asked.raidDisks = old.raidDisks)
    (htwo : asked.level ≠ .raid6 ∧ asked.raidDisks = 2) (hvalid : newGeometryValid asked)
    (hpers : new.pers = (changeInPlace asked conf).pers) (hnew : new.level = old.level)
    {r : Nat} (hr : r < 2 ^ 64) : Kept old new r := by
  have hok := hrun.pers
  unfold PersOk at hok
  rw [hp] at hok
  obtain ⟨hl, halg, hc, hn, hacc⟩ := hok
  have hl6 : conf.level ≠ .raid6 := by
    intro h6
    rw [h6] at hl
    cases hlev : old.level <;> rw [hlev] at hl <;> simp [MdLevel.raid456] at hl
    exact htwo.1 (hlevel.trans hlev)
  have hdata : ∀ c : Conf, c.level = conf.level → c.raidDisks = conf.raidDisks →
      c.dataDisks false = 1 := by
    intro c hcl hcn
    simp only [dataDisks, disks, false_eq_true, if_false, hcl, hcn, hn, ← hdisks,
      htwo.2]
    cases hlc : conf.level <;> simp [maxDegraded]
    exact absurd hlc hl6
  obtain ⟨h5, h6, h0, hpage, hpow⟩ := setupConfChecks_ok hacc.checks
  rw [newGeometryValid, and_eq_true] at hvalid
  -- the structure after the change passes the checks again
  obtain ⟨conf', hp', hcl, hcn, halg', hpow', hpage'⟩ : ∃ conf', new.pers = .raid456 conf' ∧
      conf'.level = conf.level ∧ conf'.raidDisks = conf.raidDisks ∧
      (conf.level = .raid5 → algorithmValidRaid5 conf'.algorithm) ∧
      isPowerOf2 conf'.chunkSectors ∧ (conf'.chunkSectors <<< 9) % pageSize = 0 := by
    refine ⟨_, hpers, ?_, ?_, ?_, ?_, ?_⟩
    · split_ifs <;> rfl
    · split_ifs <;> rfl
    · intro hl5
      have hkeep : algorithmValidRaid5 conf.algorithm := h5 (by rw [hl5]; rfl)
      have hnewv : asked.newLayout ≥ 0 → algorithmValidRaid5 asked.newLayout := by
        intro hge
        have hv := hvalid.1
        rw [if_neg htwo.1, or_eq_true, decide_eq_true_eq] at hv
        exact hv.resolve_left (by omega)
      split_ifs with h1 h2 h2
      · exact hnewv h2
      · exact hkeep
      · exact hnewv h2
      · exact hkeep
    all_goals
      have hv := hvalid.2
      rw [or_eq_true, and_eq_true, and_eq_true, decide_eq_true_eq,
        decide_eq_true_eq] at hv
      split_ifs with h1 h2 h2
    · exact (hv.resolve_left (by omega)).1.1
    · exact (hv.resolve_left (by omega)).1.1
    · exact hpow
    · exact hpow
    · exact chunk_mod_page (hv.resolve_left (by omega)).1.1 (hv.resolve_left (by omega)).1.2
    · exact chunk_mod_page (hv.resolve_left (by omega)).1.1 (hv.resolve_left (by omega)).1.2
    · exact hpage
    · exact hpage
  have hacc' : Accepted conf' false := by
    refine ⟨?_, ?_⟩
    · have hne0 : conf'.chunkSectors ≠ 0 := fun h0 => by
        rw [h0] at hpow'
        cases hpow'
      unfold setupConfChecks
      simp only [algo, disks, sectorsPerChunk, false_eq_true, if_false, hcl]
      cases hlc : conf.level with
      | raid6 => exact absurd hlc hl6
      | raid4 => simp [number, hne0, hpow', hpage']
      | raid5 => simp [number, hne0, hpow', hpage', halg' hlc]
    · have hmin := hacc.minDisks
      simp only [disks, false_eq_true, if_false, hcl, hcn] at hmin ⊢
      exact hmin
  refine kept_of_twoDevices hp' hacc' (hdata conf' hcl hcn) hr
    (holders_twoDevices hp hacc (hdata conf rfl rfl) hr) (fun _ => ?_) (hlevel ▸ htwo.1)
  rw [hnew, ← hlevel]
  exact htwo.1

/-- `check_reshape` either leaves the placement alone or changes two devices at once. -/
theorem kept_checkReshape (asked : Mddev) (hold : asked.pers = old.pers)
    (hlevel : asked.level = old.level) (hdisks : asked.raidDisks = old.raidDisks)
    (hchunk : asked.chunkSectors = old.chunkSectors) {rest : Except MdError Unit}
    (hpers : new.pers = (checkReshape asked rest).1.pers)
    (hnewl : new.level = (checkReshape asked rest).1.level)
    (hnewd : new.raidDisks = (checkReshape asked rest).1.raidDisks)
    (hnewc : new.chunkSectors = (checkReshape asked rest).1.chunkSectors)
    {r : Nat} (hr : r < 2 ^ 64) : Kept old new r := by
  unfold checkReshape at hpers hnewl hnewd hnewc
  cases hp : asked.pers with
  | raid0 conf =>
    rw [hp] at hpers hnewl hnewd hnewc
    exact .of_same (hpers.trans hold) (hnewc.trans hchunk) (hnewd.trans hdisks) r
  | raid1 =>
    rw [hp] at hpers hnewl hnewd hnewc
    exact .of_same (hpers.trans hold) (hnewc.trans hchunk) (hnewd.trans hdisks) r
  | raid456 conf =>
    rw [hp] at hpers hnewl hnewd hnewc
    dsimp only at hpers hnewl hnewd hnewc
    by_cases hvalid : newGeometryValid asked
    · rw [if_neg (not_not.mpr hvalid)] at hpers hnewl hnewd hnewc
      by_cases htwo : asked.level ≠ .raid6 ∧ asked.raidDisks = 2
      · rw [if_pos htwo] at hpers hnewl
        exact kept_changeInPlace hrun (hold ▸ hp) hlevel hdisks htwo hvalid hpers
          (hnewl.trans hlevel) hr
      · rw [if_neg htwo] at hpers hnewd hnewc
        exact .of_same (hpers.trans hold) (hnewc.trans hchunk) (hnewd.trans hdisks) r
    · rw [if_pos hvalid] at hpers hnewd hnewc
      exact .of_same (hpers.trans hold) (hnewc.trans hchunk) (hnewd.trans hdisks) r

theorem kept_layoutStore (n : Int) (rest : Except MdError Unit) {r : Nat}
    (hr : r < 2 ^ 64) : Kept old (layoutStore old n rest) r := by
  unfold layoutStore
  split_ifs with hro
  · exact .of_same rfl rfl rfl r
  · rcases hck : checkReshape { old with newLayout := n } rest with ⟨m, e⟩
    cases e <;>
      exact kept_checkReshape hrun { old with newLayout := n } rfl rfl rfl rfl
        (by rw [hck]) (by rw [hck]) (by rw [hck]) (by rw [hck]) hr

theorem kept_chunkSizeStore (n : Nat) (rest : Except MdError Unit) {r : Nat}
    (hr : r < 2 ^ 64) : Kept old (chunkSizeStore old n rest) r := by
  unfold chunkSizeStore
  split_ifs with hro
  · exact .of_same rfl rfl rfl r
  · rcases hck : checkReshape { old with newChunkSectors := n >>> 9 } rest with ⟨m, e⟩
    cases e <;>
      exact kept_checkReshape hrun { old with newChunkSectors := n >>> 9 } rfl rfl rfl
        rfl (by rw [hck]) (by rw [hck]) (by rw [hck]) (by rw [hck]) hr

end

end InPlace

/-! ## The level change as a whole -/

section Level

variable {old new : Mddev} {l : MdLevel}

section Striped

variable (hfits : size old < 2 ^ 64) {conf : Conf} {zoneSize : Nat} (hlast : ParityLast conf)
  (hc : conf.chunkSectors = old.chunkSectors) (hpos : 0 < conf.dataDisks false)
  (h0 : 0 < conf.chunkSectors) (hsize : size old = zoneSize * conf.dataDisks false)
  (hzone : old.chunkSectors ≤ zoneSize)

include hfits hlast hc hpos h0 hsize hzone

/-- Sectors of a striped array and of the array with parity behind it, if the parity array is
the new one. -/
theorem kept_striped_iff (hlevel : old.level = .raid0)
    (hold : old.pers = .raid0 (singleZone zoneSize (conf.dataDisks false)))
    (hpers : new.pers = .raid456 conf) :
    (∀ r < size old, Kept old new r) ↔ conf.dataDisks false * conf.chunkSectors < 2 ^ 32 := by
  have hno : ∀ r, parityPlace old r = none := fun r => by simp [parityPlace, hold]
  constructor
  · intro hall
    by_contra hlarge
    obtain ⟨r, hr, hne⟩ := mapped_striped_ne hold hpers hlast hc.symm hpos h0
      (hc ▸ hzone) (hsize ▸ hfits) (Nat.le_of_not_lt hlarge)
    have ht := raid5ComputeSector_parityLast hlast r
    have hmem : (((r / conf.chunkSectors % conf.dataDisks false : Nat) : Int),
        sectorT (r / conf.chunkSectors / conf.dataDisks false * conf.chunkSectors +
          r % conf.chunkSectors)) ∈ mapped new r := by
      rw [mapped_raid456 hpers ht]
      exact mem_singleton_self _
    have hheld := (hall r (hsize ▸ hr)).held _ hmem
    rw [holders, hno, toList_none, ite_self, append_nil] at hheld
    exact hne _ hheld (mem_append_left _ hmem)
  · intro hsmall r hr
    obtain ⟨heq, hne⟩ := mapped_striped_eq hold hpers hlast hc.symm hpos h0 (hsize ▸ hr) hsmall
    refine ⟨fun _ => hne, fun p hp => mem_append_left _ (heq ▸ hp), fun hor => ?_⟩
    rw [hlevel] at hor
    rcases hor with ⟨h5, -⟩ | ⟨h6, -⟩
    · cases h5
    · cases h6

theorem kept_unparity_iff (hnew : new.level = .raid0) (hold : old.pers = .raid456 conf)
    (hpers : new.pers = .raid0 (singleZone zoneSize (conf.dataDisks false)))
    (hchunk : new.chunkSectors = conf.chunkSectors) :
    (∀ r < size old, Kept old new r) ↔ conf.dataDisks false * conf.chunkSectors < 2 ^ 32 := by
  constructor
  · intro hall
    by_contra hlarge
    obtain ⟨r, hr, hne⟩ := mapped_striped_ne hpers hold hlast hchunk hpos h0 (hc ▸ hzone)
      (hsize ▸ hfits) (Nat.le_of_not_lt hlarge)
    have hkept := hall r (hsize ▸ hr)
    have hmapped : mapped old r ≠ [] := by
      rw [mapped_raid456 hold (raid5ComputeSector_parityLast hlast r)]
      exact cons_ne_nil _ _
    obtain ⟨p, hp⟩ := exists_mem_of_ne_nil _ (hkept.found hmapped)
    exact hne p hp (hkept.held p hp)
  · intro hsmall r hr
    obtain ⟨heq, hne⟩ := mapped_striped_eq hpers hold hlast hchunk hpos h0 (hsize ▸ hr) hsmall
    refine ⟨fun _ => heq ▸ hne, fun p hp => mem_append_left _ (heq ▸ hp), fun hor => ?_⟩
    rw [hnew] at hor
    rcases hor with ⟨-, h6⟩ | ⟨-, h5⟩
    · cases h6
    · cases h5

end Striped

theorem kept_parity_iff (hrun : Running old) {conf conf' : Conf} (hold : old.pers = .raid456 conf)
    (hpers : new.pers = .raid456 conf')
    (hagree : Agree conf.level conf.algorithm conf.raidDisks conf'.level conf'.algorithm
      conf'.raidDisks (conf.dataDisks false)) (hdata : conf'.dataDisks false = conf.dataDisks false)
    (hchunk : conf'.chunkSectors = old.newChunkSectors)
    (hacc : Accepted conf false) (hacc' : Accepted conf' false)
    (hlevel : old.level.raid456 = some conf.level) (hlevel' : new.level.raid456 = some conf'.level)
    (hc : conf.chunkSectors = old.chunkSectors) : (∀ r < size old, Kept old new r) ↔
      old.newChunkSectors = old.chunkSectors ∨ conf.dataDisks false = 1 := by
  obtain ⟨-, -, hspc, hn, hm⟩ := accepted_facts hacc
  obtain ⟨-, -, hspc', hn', -⟩ := accepted_facts hacc'
  have h0 : 0 < conf.chunkSectors := lt_of_lt_of_le (by decide) hspc
  have h0' : 0 < conf'.chunkSectors := lt_of_lt_of_le (by decide) hspc'
  have hsize : size old = old.devSectors / old.chunkSectors * old.chunkSectors *
      conf.dataDisks false := by
    unfold size
    rw [hold]
  constructor
  · intro hall
    by_contra hno
    push Not at hno
    have htwo : 2 ≤ conf.dataDisks false := by omega
    -- the array has at least one chunk on each of two devices
    have hrow : conf.chunkSectors ≤ old.devSectors / old.chunkSectors * old.chunkSectors := by
      have hnonempty := hrun.nonempty
      rw [hsize] at hnonempty
      rw [hc]
      exact Nat.le_mul_of_pos_left _
        (Nat.pos_of_mul_pos_right (Nat.pos_of_mul_pos_right hnonempty))
    have hlt : min conf.chunkSectors conf'.chunkSectors < size old := by
      refine (min_le_left _ _).trans_lt ?_
      rw [hsize]
      calc conf.chunkSectors ≤ old.devSectors / old.chunkSectors * old.chunkSectors := hrow
        _ < old.devSectors / old.chunkSectors * old.chunkSectors * 2 := by omega
        _ ≤ _ := mul_le_mul_left _ htwo
    refine not_kept_of_chunk hold hpers hdata htwo hacc' h0 h0' ?_ (hlt.trans hrun.fits)
      (hall _ hlt)
    rw [hchunk, hc]
    exact hno.1
  · rintro (hsame | hone) r hr
    · exact kept_of_agree hold hpers hagree hdata ((hchunk.trans hsame).trans hc.symm)
    · refine kept_of_twoDevices hpers hacc' (hdata.trans hone) (hr.trans hrun.fits)
        (holders_twoDevices hold hacc hone (hr.trans hrun.fits)) (fun hl6 h6 => ?_) fun h6 => ?_
      · rw [h6] at hlevel'
        exact hl6 (some.inj hlevel').symm
      · rw [h6] at hlevel
        have hmin := hacc.minDisks
        rw [(some.inj hlevel).symm] at hmin hn
        simp only [minDisks, maxDegraded, hone] at hmin hn
        omega

/-- **A level change keeps every block in place exactly if nothing is pending.** For every
running array and every change of its level, layout or chunk size that is accepted, all
sectors of the array stay where they were if and only if no other chunk size was recorded
before the level was changed between levels with parity, and a striped array has less than
`2 ^ 32` sectors in a row. -/
theorem takeover_in_place_iff {defaultLayout : Int} {change : Change} (hrun : Running old)
    (h : change.apply defaultLayout old = .ok new) :
    (∀ r < size old, Kept old new r) ↔ change.Settled old := by
  cases change with
  | layout n rest =>
    obtain rfl := ok.inj h
    exact iff_of_true (fun r hr => kept_layoutStore hrun n rest (hr.trans hrun.fits)) trivial
  | chunkSize n rest =>
    obtain rfl := ok.inj h
    exact iff_of_true (fun r hr => kept_chunkSizeStore hrun n rest (hr.trans hrun.fits)) trivial
  | level l =>
    by_cases hsame : l = old.level
    · subst hsame
      obtain rfl := levelStore_same h
      refine iff_of_true (fun r _ => .of_same rfl rfl rfl r) ?_
      rw [Change.Settled, if_pos (.inl rfl)]
      trivial
    unfold Change.Settled
    dsimp only
    cases levelStore_moved hrun h hsame with
    | striped conf zoneSize hlevel hnew hold hpers hlast hdevs hchunk hpos hsize hzone hacc =>
      have h0 : 0 < conf.chunkSectors :=
        lt_of_lt_of_le (by decide) (accepted_facts hacc).2.2.1
      rw [if_neg (by rw [hlevel] at hsame ⊢; rintro (h | h); exacts [hsame h, (by cases h)]),
        if_pos (.inr hlevel), hdevs, ← hchunk]
      exact kept_striped_iff hrun.fits hlast hchunk hpos h0 hsize hzone hlevel hold hpers
    | mirror conf hlevel hold hdisks hpers hnew hacc hone =>
      rw [if_pos (.inr hlevel)]
      refine iff_of_true (fun r hr => ?_) trivial
      refine kept_of_twoDevices hpers hacc hone (hr.trans hrun.fits) (fun i hi => ?_)
        (fun _ => by rw [hnew]; simp) (by rw [hlevel]; simp)
      refine mem_append_left _ ?_
      rw [mapped, hold, hdisks]
      rcases hi with rfl | rfl
      · exact mem_map.mpr ⟨0, by decide, rfl⟩
      · exact mem_map.mpr ⟨1, by decide, rfl⟩
    | parity conf conf' hl hold hpers hagree hdata hchunk hacc hacc' hlevel hlevel' hne hc =>
      have h1 : old.level ≠ .raid1 := fun h1 => by rw [h1] at hlevel; cases hlevel
      have h0 : old.level ≠ .raid0 := fun h0 => by rw [h0] at hlevel; cases hlevel
      rw [if_neg (not_or.mpr ⟨hsame, h1⟩), if_neg (not_or.mpr ⟨hl, h0⟩),
        dataDevices_raid456 hold]
      exact kept_parity_iff hrun hold hpers hagree hdata hchunk hacc hacc' hlevel hlevel' hc
    | unparity conf zoneSize hl hold hlevel hnew hpers hlast hchunk hc hacc hsize hzone =>
      obtain ⟨-, -, hspc, -, hm⟩ := accepted_facts hacc
      have h1 : old.level ≠ .raid1 := fun h1 => by rw [h1] at hlevel; cases hlevel
      rw [if_neg (not_or.mpr ⟨hsame, h1⟩), if_pos (.inl hl), dataDevices_raid456 hold, ← hc]
      exact kept_unparity_iff hrun.fits hlast hc hm (lt_of_lt_of_le (by decide) hspc)
        hsize hzone hnew hold hpers hchunk

end Level

/-- A three-disk RAID-5 with the default layout and 64 KiB chunks, of 512 KiB a device. -/
def exampleArray : Mddev where
  level := .raid5
  layout := 2
  chunkSectors := 128
  newLevel := .raid5
  newLayout := 2
  newChunkSectors := 128
  raidDisks := 3
  deltaDisks := 0
  degraded := 0
  devSectors := 1024
  arraySectors := 2048
  rdevs := [⟨0, 1024, 512⟩, ⟨1, 1024, 512⟩, ⟨2, 1024, 512⟩]
  pers := .raid456 ⟨.raid5, 2, 2, 128, 128, 3, 3⟩
  bitmap := false
  readOnly := false
  recoveryRunning := false
  reshaping := false
  sysfsActive := false

theorem exampleArray_running : Running exampleArray :=
  ⟨⟨rfl, rfl, rfl, rfl, ⟨by rfl, by decide⟩⟩, by decide, by decide⟩

/-- The array after 128 KiB chunks were asked for. -/
def pendingArray : Mddev := chunkSizeStore exampleArray 131072 (.ok ())

/-- The array after the change to level 6. -/
def pendingArray6 : Mddev :=
  { pendingArray with
    level := .raid6, layout := 18, chunkSectors := 256
    newLevel := .raid6, newLayout := 18, raidDisks := 4
    pers := .raid456 ⟨.raid6, 18, 18, 256, 256, 4, 4⟩ }

theorem pendingArray_running : Running pendingArray :=
  ⟨⟨rfl, rfl, rfl, rfl, ⟨by rfl, by decide⟩⟩, by decide, by decide⟩

/-- With a chunk size pending, the change to level 6 moves the second chunk of the array. -/
theorem pendingArray_moves :
    Running pendingArray ∧ levelStore 0 pendingArray .raid6 = .ok pendingArray6 ∧
      128 < size pendingArray ∧ ¬ Kept pendingArray pendingArray6 128 := by
  refine ⟨pendingArray_running, by decide, by decide, fun hkept => ?_⟩
  have hmem : ((0 : Int), 128) ∈ mapped pendingArray6 128 := by decide
  have hheld := hkept.held _ hmem
  exact absurd hheld (by decide)

/-- The same array without a pending chunk size. -/
def exampleArray6 : Mddev :=
  { exampleArray with
    level := .raid6, layout := 18
    newLevel := .raid6, newLayout := 18, raidDisks := 4
    pers := .raid456 ⟨.raid6, 18, 18, 128, 128, 4, 4⟩ }

theorem exampleArray_in_place : levelStore 0 exampleArray .raid6 = .ok exampleArray6 ∧
      ∀ r < size exampleArray, Kept exampleArray exampleArray6 r := by
  have h : Change.apply 0 exampleArray (.level .raid6) = .ok exampleArray6 := by decide
  exact ⟨h, (takeover_in_place_iff exampleArray_running h).mpr (.inl rfl)⟩

end MdRaid.Takeover
