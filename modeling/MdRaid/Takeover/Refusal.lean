import MdRaid.Takeover.LevelStore

/-!
# A level change that is refused

The `takeover` method of a personality writes to the array before it is known whether the array
is accepted. When it is not, `level_store` sets the `new_*` fields back and takes `delta_disks`
off `raid_disks` again; whatever else the method has written stays. The methods of
`LevelStore` give the array they accept; here they give the array they leave, accepted or not.
-/

namespace MdRaid.Takeover.Refusal

open MdRaid.Geometry

/-- `UNSUPPORTED_MDDEV_FLAGS` of RAID-0: `MD_JOURNAL_CLEAN`, `MD_HAS_JOURNAL`,
`MD_FAILFAST_SUPPORTED`, `MD_HAS_PPL` and `MD_HAS_MULTIPLE_PPLS`. -/
def unsupportedFlags : BitVec 64 := 0b11101100#64

/-- The fields of `struct mddev` that `level_store` and the takeovers read or write. -/
structure Mddev where
  level : Int
  layout : Int
  chunkSectors : Nat
  newLevel : Int
  newLayout : Int
  newChunkSectors : Nat
  raidDisks : Int
  deltaDisks : Int
  reshapeBackwards : Bool
  degraded : Int
  recoveryCp : Nat
  flags : BitVec 64
  devSectors : Nat
  arraySectors : Nat
  bitmap : Bool
  /-- The zones of a RAID-0 array. -/
  stripZone : List StripZone
  rdevs : List Rdev

/-- What the methods find out on their way. -/
structure Outcome where
  /-- `create_strip_zones` gets its first piece of memory. -/
  conf : Bool
  /-- And the others. -/
  zones : Bool
  /-- `setup_conf` gets through once its checks are passed. -/
  setup : Bool

inductive Pers : Type where
  | raid0
  | raid4
  | raid5
  | raid6

namespace Mddev

variable (o : Outcome) (defaultLayout : Int) (m : Mddev)

/-! ## Takeovers: the array they leave, and whether they accept it -/

/-- `setup_conf`, which writes nothing to the array. -/
def setupConf : Mddev × Bool :=
  (m, (setupConfChecks m.newLevel m.newLayout m.raidDisks.toNat m.newChunkSectors).isOk && o.setup)

/-- The slot `create_strip_zones` takes a member for. -/
def slot (rdev : Rdev) : Int :=
  if m.level = 10 then rdev.raidDisk.tdiv 2 else if m.level = 1 then 0 else rdev.raidDisk

/-- `create_strip_zones`, which rounds the sizes of the members before it looks further. -/
def createStripZones : Mddev × Bool :=
  if o.conf then
    ({ m with
        rdevs := m.rdevs.map fun rdev => { rdev with sectors := rdev.rounded m.chunkSectors } },
      o.zones && (Takeover.createStripZones
        (m.rdevs.map fun rdev => { rdev with raidDisk := m.slot rdev }) m.raidDisks.toNat
        m.chunkSectors m.layout defaultLayout).isOk)
  else (m, false)

/-- "Set new parameters" -/
def toRaid0 (chunkSectors : Nat) (delta : Int) : Mddev :=
  { m with
    newLevel := 0
    newLayout := 0
    newChunkSectors := chunkSectors
    raidDisks := m.raidDisks + delta
    deltaDisks := delta
    recoveryCp := maxSector
    flags := m.flags &&& ~~~unsupportedFlags }

/-- The loop of `raid0_takeover_raid45`, which stops at the parity disk. -/
def setSectors (parity : Int) (sectors : Nat) : List Rdev → List Rdev × Bool
  | [] => ([], true)
  | rdev :: rest =>
    if rdev.raidDisk = parity then (rdev :: rest, false)
    else ({ rdev with sectors := sectors } :: (setSectors parity sectors rest).1,
      (setSectors parity sectors rest).2)

def raid0TakeoverRaid45 : Mddev × Bool :=
  if m.degraded ≠ 1 then (m, false)
  else
    let (rdevs, ok) := setSectors (m.raidDisks - 1) m.devSectors m.rdevs
    if ok then (toRaid0 { m with rdevs := rdevs } m.chunkSectors (-1)).createStripZones o
      defaultLayout
    else ({ m with rdevs := rdevs }, false)

def raid0TakeoverRaid10 : Mddev × Bool :=
  if m.layout ≠ 0x102 ∨ m.raidDisks % 2 = 1 ∨ m.degraded ≠ m.raidDisks / 2 then (m, false)
  else (toRaid0 { m with degraded := 0 } m.chunkSectors ((-m.raidDisks).tdiv 2)).createStripZones o
    defaultLayout

def raid0TakeoverRaid1 : Mddev × Bool :=
  let chunksect := suitableChunk m.arraySectors
  if m.raidDisks - 1 ≠ m.degraded ∨ chunksect <<< 9 < pageSize then (m, false)
  else (toRaid0 { m with chunkSectors := chunksect } chunksect (1 - m.raidDisks)).createStripZones o
    defaultLayout

def raid0Takeover : Mddev × Bool :=
  if m.bitmap then (m, false)
  else if m.level = 4 ∨ m.level = 5 ∧ m.layout = 5 then m.raid0TakeoverRaid45 o defaultLayout
  else if m.level = 10 then m.raid0TakeoverRaid10 o defaultLayout
  else if m.level = 1 then m.raid0TakeoverRaid1 o defaultLayout
  else (m, false)

def raid45TakeoverRaid0 (level : Int) : Mddev × Bool :=
  if 1 < m.stripZone.length then (m, false)
  else setupConf o
    { m with
      devSectors := (m.stripZone.head?.map fun zone => zone.zoneEnd / zone.nbDev).getD 0
      newLevel := level
      newLayout := 5
      newChunkSectors := m.chunkSectors
      raidDisks := m.raidDisks + 1
      deltaDisks := 1
      recoveryCp := maxSector }

def raid5TakeoverRaid1 : Mddev × Bool :=
  let chunksect := suitableChunk m.arraySectors
  if m.raidDisks ≠ 2 ∨ m.degraded > 1 ∨ chunksect <<< 9 < pageSize then (m, false)
  else
    let (m, ok) := setupConf o
      { m with newLevel := 5, newLayout := 2, newChunkSectors := chunksect }
    (if ok then { m with flags := m.flags &&& ~~~(0b100000#64) } else m, ok)

def raid5TakeoverRaid6 : Mddev × Bool :=
  match layout6To5 m.layout with
  | none => (m, false)
  | some newLayout => setupConf o
      { m with newLevel := 5, newLayout, deltaDisks := -1, raidDisks := m.raidDisks - 1 }

def raid5Takeover : Mddev × Bool :=
  if m.level = 0 then m.raid45TakeoverRaid0 o 5
  else if m.level = 1 then m.raid5TakeoverRaid1 o
  else if m.level = 4 then setupConf o { m with newLayout := 5, newLevel := 5 }
  else if m.level = 6 then m.raid5TakeoverRaid6 o
  else (m, false)

def raid4Takeover : Mddev × Bool :=
  if m.level = 0 then m.raid45TakeoverRaid0 o 4
  else if m.level = 5 ∧ m.layout = 5 then setupConf o { m with newLayout := 0, newLevel := 4 }
  else (m, false)

def raid6Takeover : Mddev × Bool :=
  if m.level ≠ 5 ∨ m.degraded > 1 ∨ m.raidDisks > 253 ∨ m.raidDisks < 3 then (m, false)
  else match layout5To6 m.layout with
    | none => (m, false)
    | some newLayout => setupConf o
        { m with newLevel := 6, newLayout, deltaDisks := 1, raidDisks := m.raidDisks + 1 }

def takeover : Pers → Mddev × Bool
  | .raid0 => m.raid0Takeover o defaultLayout
  | .raid4 => m.raid4Takeover o
  | .raid5 => m.raid5Takeover o
  | .raid6 => m.raid6Takeover o

/-- What `level_store` does when the personality "would not accept array". -/
def restore : Mddev :=
  { m with
    newLevel := m.level
    newLayout := m.layout
    newChunkSectors := m.chunkSectors
    raidDisks := m.raidDisks - m.deltaDisks
    deltaDisks := 0
    reshapeBackwards := false }

/-- `level_store` from the call of the takeover on: the array a refusal leaves, if it is refused. -/
def refused (pers : Pers) : Option Mddev :=
  match m.takeover o defaultLayout pers with
  | (_, true) => none
  | (m', false) => some m'.restore

/-! ## What a refusal leaves as it was -/

@[mk_iff] structure Unchanged (m m' : Mddev) : Prop where
  level : m'.level = m.level
  layout : m'.layout = m.layout
  chunkSectors : m'.chunkSectors = m.chunkSectors
  raidDisks : m'.raidDisks = m.raidDisks
  degraded : m'.degraded = m.degraded
  recoveryCp : m'.recoveryCp = m.recoveryCp
  flags : m'.flags = m.flags
  sectors : m'.rdevs.map (·.sectors) = m.rdevs.map (·.sectors)

/-- RAID-0 has nothing to clear, and gives the members the sizes they have. -/
@[mk_iff] structure Plain (chunkSectors : Nat) (size : Rdev → Nat) : Prop where
  recoveryCp : maxSector = m.recoveryCp
  flags : m.flags &&& ~~~unsupportedFlags = m.flags
  sectors : ∀ rdev ∈ m.rdevs,
    (if o.conf then size rdev / chunkSectors * chunkSectors else size rdev) = rdev.sectors

/-- When a refusal leaves the array as it was, by the place `raid0_takeover` gets to. -/
def SparedRaid45 : Prop :=
  if m.degraded ≠ 1 then m.deltaDisks = 0
  else if ∃ rdev ∈ m.rdevs, rdev.raidDisk = m.raidDisks - 1 then
    m.deltaDisks = 0 ∧
      ∀ rdev ∈ m.rdevs.takeWhile (·.raidDisk ≠ m.raidDisks - 1), m.devSectors = rdev.sectors
  else m.Plain o m.chunkSectors fun _ => m.devSectors

def SparedRaid10 : Prop :=
  if m.layout ≠ 0x102 ∨ m.raidDisks % 2 = 1 ∨ m.degraded ≠ m.raidDisks / 2 then m.deltaDisks = 0
  else 0 = m.degraded ∧ m.Plain o m.chunkSectors (·.sectors)

def SparedRaid1 : Prop :=
  if m.raidDisks - 1 ≠ m.degraded ∨ suitableChunk m.arraySectors <<< 9 < pageSize then
    m.deltaDisks = 0
  else suitableChunk m.arraySectors = m.chunkSectors ∧
    m.Plain o (suitableChunk m.arraySectors) (·.sectors)

def Spared : Pers → Prop
  | .raid0 =>
    if m.bitmap then m.deltaDisks = 0
    else if m.level = 4 ∨ m.level = 5 ∧ m.layout = 5 then m.SparedRaid45 o
    else if m.level = 10 then m.SparedRaid10 o
    else if m.level = 1 then m.SparedRaid1 o
    else m.deltaDisks = 0
  | .raid4 => if m.level = 0 ∧ m.stripZone.length ≤ 1 then maxSector = m.recoveryCp else
    m.deltaDisks = 0
  | .raid5 =>
    if m.level = 0 ∧ m.stripZone.length ≤ 1 then maxSector = m.recoveryCp
    else m.level = 6 ∧ layout6To5 m.layout ≠ none ∨ m.deltaDisks = 0
  | .raid6 =>
    m.level = 5 ∧ m.degraded ≤ 1 ∧ m.raidDisks ≤ 253 ∧ 3 ≤ m.raidDisks ∧
      layout5To6 m.layout ≠ none ∨
      m.deltaDisks = 0

variable {o defaultLayout m}

/-- Where nothing was counted, only `delta_disks` matters. -/
theorem unchanged_restore : m.Unchanged m.restore ↔ m.deltaDisks = 0 := by
  simp [unchanged_iff, restore]

theorem createStripZones_fst : (m.createStripZones o defaultLayout).1 =
    { m with
      rdevs := m.rdevs.map fun rdev => { rdev with
      sectors := if o.conf then rdev.rounded m.chunkSectors else rdev.sectors } } := by
  unfold createStripZones
  split_ifs
  · rfl
  · simp

section

variable {parity : Int} {sectors : Nat} {rdevs : List Rdev}

theorem setSectors_of_ne
    (h : ∀ rdev ∈ rdevs, rdev.raidDisk ≠ parity) : setSectors parity sectors rdevs =
      (rdevs.map fun rdev => { rdev with sectors := sectors }, true) := by
  induction rdevs with
  | nil => rfl
  | cons rdev rest ih =>
    obtain ⟨hne, hrest⟩ := List.forall_mem_cons.mp h
    rw [setSectors, if_neg hne, ih hrest]
    rfl

theorem setSectors_of_parity
    (h : ∃ rdev ∈ rdevs, rdev.raidDisk = parity) : (setSectors parity sectors rdevs).2 = false ∧
      ((setSectors parity sectors rdevs).1.map (·.sectors) = rdevs.map (·.sectors) ↔
        ∀ rdev ∈ rdevs.takeWhile (·.raidDisk ≠ parity), sectors = rdev.sectors) := by
  induction rdevs with
  | nil =>
    obtain ⟨_, hmem, _⟩ := h
    cases hmem
  | cons rdev rest ih =>
    by_cases hp : rdev.raidDisk = parity
    · simp [setSectors, hp]
    · obtain ⟨hfalse, hiff⟩ := ih (by simpa [hp] using h)
      rw [setSectors, if_neg hp, List.takeWhile_cons_of_pos (by simpa using hp),
        List.forall_mem_cons, ← hiff]
      exact ⟨hfalse, List.cons_eq_cons⟩

end

theorem unchanged_raid45 :
    m.Unchanged (m.raid0TakeoverRaid45 o defaultLayout).1.restore ↔ m.SparedRaid45 o := by
  unfold raid0TakeoverRaid45 SparedRaid45
  split_ifs with hdegraded hparity
  · exact unchanged_restore
  · obtain ⟨hfalse, hiff⟩ := @setSectors_of_parity _ m.devSectors _ hparity
    rw [← hiff]
    simp [hfalse, unchanged_iff, restore]
  · rw [setSectors_of_ne fun rdev hmem heq => hparity ⟨rdev, hmem, heq⟩]
    simp [unchanged_iff, plain_iff, restore, createStripZones_fst, toRaid0, Rdev.rounded]

theorem unchanged_raid10 :
    m.Unchanged (m.raid0TakeoverRaid10 o defaultLayout).1.restore ↔ m.SparedRaid10 o := by
  unfold raid0TakeoverRaid10 SparedRaid10
  split_ifs
  · exact unchanged_restore
  · simp [unchanged_iff, plain_iff, restore, createStripZones_fst, toRaid0, Rdev.rounded]

theorem unchanged_raid1 :
    m.Unchanged (m.raid0TakeoverRaid1 o defaultLayout).1.restore ↔ m.SparedRaid1 o := by
  unfold raid0TakeoverRaid1 SparedRaid1
  dsimp only
  split_ifs
  · exact unchanged_restore
  · simp [unchanged_iff, plain_iff, restore, createStripZones_fst, toRaid0, Rdev.rounded]

theorem unchanged_raid0 :
    m.Unchanged (m.raid0Takeover o defaultLayout).1.restore ↔ m.Spared o .raid0 := by
  unfold raid0Takeover
  dsimp only [Spared]
  split_ifs
  · exact unchanged_restore
  · exact unchanged_raid45
  · exact unchanged_raid10
  · exact unchanged_raid1
  · exact unchanged_restore

theorem unchanged_raid45_raid0 {level : Int} :
    m.Unchanged (m.raid45TakeoverRaid0 o level).1.restore ↔
      if m.stripZone.length ≤ 1 then maxSector = m.recoveryCp else m.deltaDisks = 0 := by
  unfold raid45TakeoverRaid0
  split_ifs with hzones hone
  · omega
  · exact unchanged_restore
  · simp [unchanged_iff, restore, setupConf]
  · omega

theorem unchanged_raid4 : m.Unchanged (m.raid4Takeover o).1.restore ↔ m.Spared o .raid4 := by
  unfold raid4Takeover
  dsimp only [Spared]
  by_cases hlevel : m.level = 0
  · simp only [hlevel, if_true, true_and]
    exact unchanged_raid45_raid0
  · simp only [hlevel, if_false, false_and]
    split_ifs <;> simp [unchanged_iff, restore, setupConf]

theorem unchanged_raid6 : m.Unchanged (m.raid6Takeover o).1.restore ↔ m.Spared o .raid6 := by
  unfold raid6Takeover
  dsimp only [Spared]
  split_ifs with hcheck
  · rw [unchanged_restore]
    refine ⟨.inr, fun h => h.resolve_left fun hin => ?_⟩
    omega
  · cases hlayout : layout5To6 m.layout with
    | none =>
      simp [unchanged_restore]
    | some newLayout =>
      simp [unchanged_iff, restore, setupConf]
      omega

theorem unchanged_raid5_raid1 (h : (m.raid5TakeoverRaid1 o).2 = false) :
    m.Unchanged (m.raid5TakeoverRaid1 o).1.restore ↔ m.deltaDisks = 0 := by
  unfold raid5TakeoverRaid1 at h ⊢
  by_cases hcheck : m.raidDisks ≠ 2 ∨ m.degraded > 1 ∨ suitableChunk m.arraySectors <<< 9 < pageSize
  · rw [if_pos hcheck]
    exact unchanged_restore
  · rw [if_neg hcheck] at h ⊢
    dsimp only at h ⊢
    rw [h]
    simp [unchanged_iff, restore, setupConf]

theorem unchanged_raid5 (h : (m.raid5Takeover o).2 = false) :
    m.Unchanged (m.raid5Takeover o).1.restore ↔ m.Spared o .raid5 := by
  unfold raid5Takeover at h ⊢
  dsimp only [Spared]
  by_cases h0 : m.level = 0
  · rw [if_pos h0, unchanged_raid45_raid0]
    simp [h0]
  · rw [if_neg h0] at h ⊢
    rw [if_neg (not_and_of_not_left _ h0)]
    split_ifs at h ⊢ with h1 h4 h6
    · simp [unchanged_raid5_raid1 h, h1]
    · simp [unchanged_iff, restore, setupConf, h4]
    · unfold raid5TakeoverRaid6
      cases hlayout : layout6To5 m.layout with
      | none => simp [unchanged_restore]
      | some newLayout => simp [unchanged_iff, restore, setupConf, h6]
    · simp [unchanged_restore, h6]

/-- **A refused level change** leaves the array as it was exactly when the takeover had nothing to
change before it found out. -/
theorem refused_unchanged_iff (o : Outcome) (defaultLayout : Int) (m m' : Mddev) (pers : Pers)
    (h : m.refused o defaultLayout pers = some m') : m.Unchanged m' ↔ m.Spared o pers := by
  unfold refused at h
  split at h
  · cases h
  · next m₁ htake =>
    cases h
    have hfst : m₁ = (m.takeover o defaultLayout pers).1 := by rw [htake]
    have hsnd : (m.takeover o defaultLayout pers).2 = false := by rw [htake]
    rw [hfst]
    cases pers with
    | raid0 => exact unchanged_raid0
    | raid4 => exact unchanged_raid4
    | raid5 => exact unchanged_raid5 hsnd
    | raid6 => exact unchanged_raid6

/-- A RAID-4 of three disks whose parity disk has been removed, with a spare added. The members
have `sectors` sectors each, of which the array uses 1024. -/
def parityMissing (sectors : Nat) : Mddev where
  level := 4
  layout := 0
  chunkSectors := 128
  newLevel := 4
  newLayout := 0
  newChunkSectors := 128
  raidDisks := 3
  deltaDisks := 0
  reshapeBackwards := false
  degraded := 1
  recoveryCp := maxSector
  flags := 0
  devSectors := 1024
  arraySectors := 2048
  bitmap := false
  stripZone := []
  rdevs := [⟨0, sectors, 512⟩, ⟨1, sectors, 512⟩, ⟨-1, sectors, 512⟩]

theorem refused_unchanged_parityMissing : ∃ m',
    (parityMissing 1024).refused ⟨true, true, true⟩ 0 .raid0 = some m' ∧
      (parityMissing 1024).Unchanged m' := by
  refine ⟨_, rfl, (refused_unchanged_iff ⟨true, true, true⟩ 0 _ _ .raid0 rfl).mpr ?_⟩
  simp [Spared, SparedRaid45, plain_iff, parityMissing, unsupportedFlags]

/-- The spare makes `create_strip_zones` refuse the array, after the sizes of the members have been
set to `dev_sectors`. -/
theorem refused_sectors_lost : ∃ m',
    (parityMissing 1100).refused ⟨true, true, true⟩ 0 .raid0 = some m' ∧
      m'.rdevs.map (·.sectors) = [1024, 1024, 1024] ∧ ¬ (parityMissing 1100).Unchanged m' :=
  ⟨_, rfl, by decide, fun h => (by cases h.sectors)⟩

end Mddev

end MdRaid.Takeover.Refusal
