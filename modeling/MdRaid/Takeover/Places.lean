import MdRaid.Takeover.LevelStore

/-!
# Where the blocks of an array are

A level change moves no data. The blocks of the array stay readable only if the map of the
new personality sends every logical sector to a place that held it before. Between the
layouts with parity this is an equality of the placements within a row of chunks, and it
holds as long as the rows are the same, that is if the chunk size stays what it was.

An array of two devices with parity keeps every sector twice, as data and as its own parity,
and a mirror keeps it on every device.
-/

namespace MdRaid.Takeover

open MdRaid.Geometry List Nat

/-! ## Where a sector is kept -/

/-- The places a personality addresses for a logical sector. -/
def mapped (mddev : Mddev) (r : Nat) : List (Int × Nat) :=
  match mddev.pers with
  | .raid0 conf => (raid0Map conf mddev.chunkSectors r).toList.map fun e => ((e.1 : Int), e.2)
  | .raid1 => (range mddev.raidDisks).map fun i => ((i : Int), r)
  | .raid456 conf => (raid5ComputeSector conf r false).toList.map fun t => (t.ddIdx, t.newSector)

/-- The place of the `P` block of the stripe of a logical sector. -/
def parityPlace (mddev : Mddev) (r : Nat) : Option (Int × Nat) :=
  match mddev.pers with
  | .raid456 conf => (raid5ComputeSector conf r false).map fun t => (t.idx.pdIdx, t.newSector)
  | .raid0 _ | .raid1 => none

/-- The number of devices that carry different data. -/
def dataDevices (mddev : Mddev) : Nat :=
  match mddev.pers with
  | .raid0 _ => mddev.raidDisks
  | .raid1 => 1
  | .raid456 conf => conf.dataDisks false

/-- The places that hold the contents of a logical sector. The parity of a single block is the
block itself. -/
def holders (mddev : Mddev) (r : Nat) : List (Int × Nat) :=
  mapped mddev r ++ if dataDevices mddev = 1 then (parityPlace mddev r).toList else []

/-- The new map finds the sector where it was. From level 5 to 6 and back its `P` block stays
as well. -/
structure Kept (old new : Mddev) (r : Nat) : Prop where
  found : mapped old r ≠ [] → mapped new r ≠ []
  held : ∀ p ∈ mapped new r, p ∈ holders old r
  parity : (old.level = .raid5 ∧ new.level = .raid6) ∨ (old.level = .raid6 ∧ new.level = .raid5) →
    parityPlace new r = parityPlace old r

/-! ## Running arrays -/

def size (mddev : Mddev) : Nat :=
  match mddev.pers with
  | .raid0 _ => wholeChunks mddev.rdevs mddev.chunkSectors
  | .raid1 => mddev.devSectors
  | .raid456 conf =>
    mddev.devSectors / mddev.chunkSectors * mddev.chunkSectors * conf.dataDisks false

/-- The private structure of a running array is the one its fields describe. -/
def PersOk (mddev : Mddev) : Prop :=
  match mddev.pers with
  | .raid0 conf => mddev.level = .raid0 ∧ ∃ layout defaultLayout,
      createStripZones mddev.rdevs mddev.raidDisks mddev.chunkSectors layout defaultLayout =
        .ok conf
  | .raid1 => mddev.level = .raid1
  | .raid456 conf => mddev.level.raid456 = some conf.level ∧ conf.algorithm = mddev.layout ∧
      conf.chunkSectors = mddev.chunkSectors ∧ conf.raidDisks = mddev.raidDisks ∧
      Accepted conf false

structure Running (mddev : Mddev) : Prop where
  pers : PersOk mddev
  nonempty : 0 < size mddev
  fits : size mddev < 2 ^ 64

/-! ## Changes -/

inductive Change : Type where
  | level (l : MdLevel)
  | layout (n : Int) (rest : Except MdError Unit)
  | chunkSize (n : Nat) (rest : Except MdError Unit)

def Change.apply (defaultLayout : Int) (mddev : Mddev) : Change → Except MdError Mddev
  | .level l => levelStore defaultLayout mddev l
  | .layout n rest => .ok (layoutStore mddev n rest)
  | .chunkSize n rest => .ok (chunkSizeStore mddev n rest)

/-- No change of the chunk size is pending when the level changes between the levels with
parity, and a row of a striped array has less than `2 ^ 32` sectors. -/
def Change.Settled (mddev : Mddev) : Change → Prop
  | .level l =>
    if l = mddev.level ∨ mddev.level = .raid1 then True
    else if l = .raid0 ∨ mddev.level = .raid0 then
      dataDevices mddev * mddev.chunkSectors < 2 ^ 32
    else mddev.newChunkSectors = mddev.chunkSectors ∨ dataDevices mddev = 1
  | .layout _ _ | .chunkSize _ _ => True

/-! ## Placements -/

/-- Two layouts put the data and `P` of every row on the same devices. -/
def Agree (level : Level) (alg n : Int) (level' : Level) (alg' n' m : Int) : Prop :=
  ∀ (stripe : Nat) (d : Int), ∃ p p', place level alg n m stripe d = some p ∧
    place level' alg' n' m stripe d = some p' ∧ p'.ddIdx = p.ddIdx ∧ p'.idx.pdIdx = p.idx.pdIdx

theorem Agree.symm {level level' : Level} {alg n alg' n' m : Int}
    (h : Agree level alg n level' alg' n' m) : Agree level' alg' n' level alg n m := by
  intro stripe d
  obtain ⟨p, p', hp, hp', hd, hpd⟩ := h stripe d
  exact ⟨p', p, hp', hp, hd.symm, hpd.symm⟩

/-- The `*_6` layouts place data and `P` like their namesakes on all devices but the last. -/
theorem agree_layout5To6 {layout newLayout : Int} (h : layout5To6 layout = some newLayout)
    (n m : Int) : Agree .raid5 layout n .raid6 newLayout (n + 1) m := by
  intro stripe d
  unfold layout5To6 at h
  split at h <;> cases h <;>
    exact ⟨_, _, rfl, rfl, by simp [add_sub_cancel_right], by simp [add_sub_cancel_right]⟩

theorem layout5To6_of_layout6To5 {layout newLayout : Int} (h : layout6To5 layout = some newLayout) :
    layout5To6 newLayout = some layout := by
  unfold layout6To5 at h
  split at h <;> cases h <;> rfl

/-- Level 4 is level 5 with the parity device at the end. -/
theorem agree_raid4_parityN (alg n m : Int) : Agree .raid4 alg n .raid5 5 n m :=
  fun _ _ => ⟨_, _, rfl, rfl, rfl, rfl⟩

/-! ## Arrays with parity -/

section Parity

variable {old new : Mddev} {conf conf' : Conf} {r : Nat}

section

variable (hp : new.pers = .raid456 conf) {t : Target}
  (ht : raid5ComputeSector conf r false = some t)
include hp ht

theorem mapped_raid456 : mapped new r = [(t.ddIdx, t.newSector)] := by
  simp [mapped, hp, ht]

theorem parityPlace_raid456 : parityPlace new r = some (t.idx.pdIdx, t.newSector) := by
  simp [parityPlace, hp, ht]

end

theorem dataDevices_raid456 (hp : new.pers = .raid456 conf) :
    dataDevices new = conf.dataDisks false := by
  simp [dataDevices, hp]

theorem raid5ComputeSector_sector {t : Target} (ht : raid5ComputeSector conf r false = some t) :
    t.newSector = sectorT (r / conf.chunkSectors / conf.dataDisks false * conf.chunkSectors +
      r % conf.chunkSectors) :=
  raid5ComputeSector_newSector ht

section

variable (hp : old.pers = .raid456 conf) (hp' : new.pers = .raid456 conf')
include hp hp'

/-- Rows of the same chunks, laid out alike. -/
theorem kept_of_agree
    (hagree : Agree conf.level conf.algorithm conf.raidDisks conf'.level conf'.algorithm
      conf'.raidDisks (conf.dataDisks false)) (hm : conf'.dataDisks false = conf.dataDisks false)
    (hc : conf'.chunkSectors = conf.chunkSectors) : Kept old new r := by
  obtain ⟨p, p', hplace, hplace', hd, hpd⟩ := hagree
    (r / conf.chunkSectors / conf.dataDisks false)
    ((r / conf.chunkSectors % conf.dataDisks false : Nat) : Int)
  have ht : raid5ComputeSector conf r false = some
      ⟨sectorT (r / conf.chunkSectors / conf.dataDisks false * conf.chunkSectors +
        r % conf.chunkSectors), p.ddIdx, p.idx⟩ := by
    unfold raid5ComputeSector
    exact Option.map_eq_some_iff.mpr ⟨p, hplace, rfl⟩
  have ht' : raid5ComputeSector conf' r false = some
      ⟨sectorT (r / conf.chunkSectors / conf.dataDisks false * conf.chunkSectors +
        r % conf.chunkSectors), p'.ddIdx, p'.idx⟩ := by
    unfold raid5ComputeSector
    simp only [Conf.sectorsPerChunk, Conf.algo, Conf.disks, Bool.false_eq_true, if_false, hm, hc]
    exact Option.map_eq_some_iff.mpr ⟨p', hplace', rfl⟩
  refine ⟨fun _ => ?_, fun q hq => ?_, fun _ => ?_⟩
  · rw [mapped_raid456 hp' ht']
    exact cons_ne_nil _ _
  · rw [mapped_raid456 hp' ht', mem_singleton] at hq
    rw [holders, mapped_raid456 hp ht, hq, hd]
    exact mem_append_left _ (mem_singleton_self _)
  · rw [parityPlace_raid456 hp' ht', parityPlace_raid456 hp ht, hpd]

/-- Chunks of different sizes disagree about the sector at the end of the smaller one. -/
theorem not_kept_of_chunk
    (hm : conf'.dataDisks false = conf.dataDisks false) (htwo : 2 ≤ conf.dataDisks false)
    (hacc' : Accepted conf' false) (h0 : 0 < conf.chunkSectors) (h0' : 0 < conf'.chunkSectors)
    (hne : conf'.chunkSectors ≠ conf.chunkSectors)
    (hfit : min conf.chunkSectors conf'.chunkSectors < 2 ^ 64) :
    ¬ Kept old new (min conf.chunkSectors conf'.chunkSectors) := by
  intro hkept
  set r := min conf.chunkSectors conf'.chunkSectors with hr
  obtain ⟨t₀, ht₀, -⟩ := raid5ComputeSector_wellPlaced hacc' hfit
  obtain ⟨q, hq⟩ : ∃ q, q ∈ mapped new r := ⟨_, by
    rw [mapped_raid456 hp' ht₀]
    exact mem_singleton_self _⟩
  have hheld := hkept.held q hq
  -- the sector of any place either map names
  have hsector : q.2 = r / conf'.chunkSectors / conf.dataDisks false * conf'.chunkSectors +
      r % conf'.chunkSectors := by
    cases ht : raid5ComputeSector conf' r false with
    | none => simp [mapped, hp', ht] at hq
    | some t =>
      rw [mapped_raid456 hp' ht, mem_singleton] at hq
      rw [hq, raid5ComputeSector_sector ht, hm, sectorT_row hfit]
  have hsector' : q.2 = r / conf.chunkSectors / conf.dataDisks false * conf.chunkSectors +
      r % conf.chunkSectors := by
    have hone : dataDevices old ≠ 1 := by
      rw [dataDevices_raid456 hp]
      omega
    rw [holders, if_neg hone, append_nil] at hheld
    cases ht : raid5ComputeSector conf r false with
    | none => simp [mapped, hp, ht] at hheld
    | some t =>
      rw [mapped_raid456 hp ht, mem_singleton] at hheld
      rw [hheld, raid5ComputeSector_sector ht, sectorT_row hfit]
  -- chunk 1 of the smaller size starts row 0, where the larger one is still in chunk 0
  have hsmall : ∀ {c c' : Nat}, 0 < c → c < c' →
      c / c / conf.dataDisks false * c + c % c ≠ c / c' / conf.dataDisks false * c' + c % c' := by
    intro c c' hc hlt
    rw [Nat.div_self hc, Nat.div_eq_of_lt (by omega : 1 < conf.dataDisks false), Nat.mod_self,
      Nat.div_eq_of_lt hlt, Nat.zero_div, Nat.mod_eq_of_lt hlt]
    omega
  rw [hsector] at hsector'
  rcases lt_or_gt_of_ne hne with hlt | hlt
  · have hmin : r = conf'.chunkSectors := hr.trans (min_eq_right hlt.le)
    rw [hmin] at hsector'
    exact hsmall h0' hlt hsector'
  · have hmin : r = conf.chunkSectors := hr.trans (min_eq_left hlt.le)
    rw [hmin] at hsector'
    exact hsmall h0 hlt hsector'.symm

end

/-- One data device: the sector is kept under its own number, on both devices. -/
theorem twoDevices_sector (h : Accepted conf false) (hone : conf.dataDisks false = 1)
    (hr : r < 2 ^ 64) : ∃ t, raid5ComputeSector conf r false = some t ∧ t.newSector = r ∧
      (t.ddIdx = 0 ∧ t.idx.pdIdx = 1 ∨ t.ddIdx = 1 ∧ t.idx.pdIdx = 0) := by
  obtain ⟨t, ht, hwell⟩ := raid5ComputeSector_wellPlaced h hr
  have hdisks : conf.disks false = 2 := by
    obtain ⟨-, -, -, hn, -⟩ := accepted_facts h
    have hmin := h.minDisks
    rw [hone] at hn
    cases hl : conf.level <;> rw [hl] at hn hmin <;>
      simp only [Level.maxDegraded, Level.minDisks] at hn hmin <;> omega
  refine ⟨t, ht, ?_, ?_⟩
  · rw [raid5ComputeSector_sector ht, sectorT_row hr, hone, Nat.div_one, Nat.div_add_mod']
  · have h1 := hwell.dd_range
    have h2 := hwell.pd_range
    have h3 := hwell.dd_ne_pd
    rw [hdisks] at h1 h2
    omega

theorem kept_of_twoDevices (hp' : new.pers = .raid456 conf') (h' : Accepted conf' false)
    (hone' : conf'.dataDisks false = 1) (hr : r < 2 ^ 64)
    (hold : ∀ i : Int, i = 0 ∨ i = 1 → (i, r) ∈ holders old r)
    (hlevel : conf'.level ≠ .raid6 → new.level ≠ .raid6)
    (hlevel' : old.level ≠ .raid6) : Kept old new r := by
  obtain ⟨t, ht, hsector, hidx⟩ := twoDevices_sector h' hone' hr
  have hl : conf'.level ≠ .raid6 := fun hl => by
    have hmin := h'.minDisks
    obtain ⟨-, -, -, hn, -⟩ := accepted_facts h'
    rw [hl] at hmin hn
    simp only [Level.minDisks, Level.maxDegraded, hone'] at hmin hn
    omega
  refine ⟨fun _ => ?_, fun q hq => ?_, fun hor => ?_⟩
  · rw [mapped_raid456 hp' ht]
    exact cons_ne_nil _ _
  · rw [mapped_raid456 hp' ht, mem_singleton] at hq
    rw [hq, hsector]
    apply hold
    omega
  · rcases hor with ⟨-, h6⟩ | ⟨h6, -⟩
    · exact absurd h6 (hlevel hl)
    · exact absurd h6 hlevel'

theorem holders_twoDevices (hp : old.pers = .raid456 conf) (h : Accepted conf false)
    (hone : conf.dataDisks false = 1) (hr : r < 2 ^ 64) :
    ∀ i : Int, i = 0 ∨ i = 1 → (i, r) ∈ holders old r := by
  intro i hi
  obtain ⟨t, ht, hsector, hidx⟩ := twoDevices_sector h hone hr
  rw [holders, if_pos ((dataDevices_raid456 hp).trans hone), mapped_raid456 hp ht,
    parityPlace_raid456 hp ht, hsector]
  rcases hi with rfl | rfl <;> rcases hidx with ⟨hd, hpd⟩ | ⟨hd, hpd⟩ <;> simp [hd, hpd]

end Parity

/-! ## Striped arrays -/

section Striped

variable {striped parity : Mddev} {conf : Conf} {zoneSize r : Nat}

/-- The parity device is behind the data devices in every row. -/
def ParityLast (conf : Conf) : Prop :=
  conf.level = .raid4 ∨ conf.level = .raid5 ∧ conf.algorithm = 5

theorem raid5ComputeSector_parityLast (h : ParityLast conf) (r : Nat) :
    raid5ComputeSector conf r false = some
      ⟨sectorT (r / conf.chunkSectors / conf.dataDisks false * conf.chunkSectors +
          r % conf.chunkSectors), (r / conf.chunkSectors % conf.dataDisks false : Nat),
        ⟨conf.dataDisks false, -1, false⟩⟩ := by
  unfold raid5ComputeSector
  rcases h with hl | ⟨hl, halg⟩
  · simp only [place, hl]
    rfl
  · simp only [place, hl, Conf.algo, Bool.false_eq_true, if_false, halg]
    rfl

section

variable (hp : striped.pers = .raid0 (singleZone zoneSize (conf.dataDisks false)))
include hp

theorem mapped_striped
    (hc : striped.chunkSectors = conf.chunkSectors) (hm : 0 < conf.dataDisks false)
    (hr : r < zoneSize * conf.dataDisks false) : mapped striped r =
      if divisor32 (conf.dataDisks false * conf.chunkSectors) = 0 then []
      else [(((r / conf.chunkSectors % conf.dataDisks false : Nat) : Int),
        sectorT (r / divisor32 (conf.dataDisks false * conf.chunkSectors) * conf.chunkSectors +
          r % conf.chunkSectors))] := by
  unfold mapped
  rw [hp]
  dsimp only
  rw [hc, raid0Map_single hm hr]
  split_ifs <;> rfl

section

variable (hp' : parity.pers = .raid456 conf) (hlast : ParityLast conf)
  (hc : striped.chunkSectors = conf.chunkSectors) (hm : 0 < conf.dataDisks false)
  (h0 : 0 < conf.chunkSectors)
include hp' hlast hc hm h0

/-- Striped rows and rows with the parity behind them are the same. -/
theorem mapped_striped_eq (hr : r < zoneSize * conf.dataDisks false)
    (hsmall : conf.dataDisks false * conf.chunkSectors < 2 ^ 32) :
    mapped striped r = mapped parity r ∧ mapped parity r ≠ [] := by
  have hdiv : divisor32 (conf.dataDisks false * conf.chunkSectors) =
      conf.dataDisks false * conf.chunkSectors := Nat.mod_eq_of_lt hsmall
  have hpos : conf.dataDisks false * conf.chunkSectors ≠ 0 := (Nat.mul_pos hm h0).ne'
  rw [mapped_raid456 hp' (raid5ComputeSector_parityLast hlast r), mapped_striped hp hc hm hr, hdiv,
    if_neg hpos, Nat.div_div_eq_div_mul, mul_comm conf.chunkSectors]
  exact ⟨rfl, cons_ne_nil _ _⟩

/-- When the row size wraps, the sector at the wrapped size is looked for one chunk too far. -/
theorem mapped_striped_ne (hzone : conf.chunkSectors ≤ zoneSize)
    (hfit : zoneSize * conf.dataDisks false < 2 ^ 64)
    (hlarge : 2 ^ 32 ≤ conf.dataDisks false * conf.chunkSectors) :
    ∃ r < zoneSize * conf.dataDisks false, ∀ p ∈ mapped striped r, p ∉ holders parity r := by
  set row := conf.dataDisks false * conf.chunkSectors with hrow
  have hlt : divisor32 row < row := (mod_lt _ (by decide)).trans_le hlarge
  have hin : divisor32 row < zoneSize * conf.dataDisks false := by
    refine hlt.trans_le ?_
    rw [hrow, mul_comm]
    exact mul_le_mul_right _ hzone
  refine ⟨divisor32 row, hin, fun p hmem hheld => ?_⟩
  rw [mapped_striped hp hc hm hin] at hmem
  split_ifs at hmem with hzero
  · exact absurd hmem not_mem_nil
  have hsector : p.2 = sectorT (conf.chunkSectors + divisor32 row % conf.chunkSectors) := by
    rw [mem_singleton.mp hmem, ← hrow, Nat.div_self (pos_of_ne_zero hzero), one_mul]
  have hsector' : p.2 = sectorT (divisor32 row % conf.chunkSectors) := by
    have hzeroRow : divisor32 row / conf.chunkSectors / conf.dataDisks false = 0 := by
      rw [Nat.div_div_eq_div_mul, mul_comm, ← hrow]
      exact div_eq_of_lt hlt
    have ht := raid5ComputeSector_parityLast hlast (divisor32 row)
    rw [hzeroRow, zero_mul, zero_add] at ht
    rw [holders, mapped_raid456 hp' ht, parityPlace_raid456 hp' ht] at hheld
    split_ifs at hheld <;> simp at hheld
    · rcases hheld with rfl | rfl <;> rfl
    · rw [hheld]
  -- both fit, and they differ by a chunk
  have hmod : divisor32 row % conf.chunkSectors < conf.chunkSectors := mod_lt _ h0
  have hbound : conf.chunkSectors < 2 ^ 64 :=
    lt_of_le_of_lt (hzone.trans (Nat.le_mul_of_pos_right _ hm)) hfit
  rw [hsector, sectorT, sectorT] at hsector'
  omega

end

end

end Striped

end MdRaid.Takeover
