import MdRaid.Takeover.Raid0

/-!
# Changing the level of a running array

`level_store` hands the array to the `takeover` method of the new personality. The method
records the geometry of the new level in the `new_*` fields and sets up its private
structure; `level_store` then makes the `new_*` fields the current ones. `layout_store` and
`chunk_size_store` record a change for a later reshape, except that an array of two devices
takes it over at once.
-/

namespace MdRaid.Takeover

open MdRaid.Geometry

/-- The levels a takeover can start from or lead to here. -/
inductive MdLevel : Type where
  | raid0
  | raid1
  | raid4
  | raid5
  | raid6
deriving DecidableEq, Repr

def MdLevel.number : MdLevel → Int
  | .raid0 => 0
  | .raid1 => 1
  | .raid4 => 4
  | .raid5 => 5
  | .raid6 => 6

/-- `mddev->private`, by personality. -/
inductive Private : Type where
  | raid0 (conf : R0conf)
  | raid1
  | raid456 (conf : Conf)
deriving DecidableEq, Repr

/-- The fields of `struct mddev` a level change reads or writes. -/
structure Mddev where
  level : MdLevel
  layout : Int
  chunkSectors : Nat
  newLevel : MdLevel
  newLayout : Int
  newChunkSectors : Nat
  raidDisks : Nat
  deltaDisks : Int
  degraded : Nat
  devSectors : Nat
  arraySectors : Nat
  rdevs : List Rdev
  pers : Private
  bitmap : Bool
  readOnly : Bool
  /-- `MD_RECOVERY_RUNNING` -/
  recoveryRunning : Bool
  /-- `reshape_position != MaxSector` -/
  reshaping : Bool
  sysfsActive : Bool
deriving DecidableEq, Repr

def MdLevel.raid456 : MdLevel → Option Level
  | .raid4 => some .raid4
  | .raid5 => some .raid5
  | .raid6 => some .raid6
  | .raid0 | .raid1 => none

def ofErrno : Errno → MdError
  | .eio => .eio
  | .einval => .einval

variable (defaultLayout : Int) (mddev : Mddev)

/-- The structure `setup_conf` builds for an array that is not being reshaped. -/
def newConf (level : Level) : Conf where
  level := level
  algorithm := mddev.newLayout
  prevAlgo := mddev.newLayout
  chunkSectors := mddev.newChunkSectors
  prevChunkSectors := mddev.newChunkSectors
  raidDisks := mddev.raidDisks
  previousRaidDisks := mddev.raidDisks

/-- `setup_conf`; its allocations succeed. -/
def setupConf : Except MdError Mddev :=
  match setupConfChecks mddev.newLevel.number mddev.newLayout mddev.raidDisks
      mddev.newChunkSectors, mddev.newLevel.raid456 with
  | .error e, _ => .error (ofErrno e)
  | .ok (), none => .error .eio
  | .ok (), some level =>
    .ok { mddev with pers := .raid456 (newConf mddev level) }

/-! ## Takeovers -/

def raid45TakeoverRaid0 (level : MdLevel) : Except MdError Mddev :=
  match mddev.pers with
  | .raid0 conf =>
    match conf.stripZone with
    | [zone] =>
      setupConf { mddev with
        devSectors := zone.zoneEnd / zone.nbDev
        newLevel := level
        newLayout := 5
        newChunkSectors := mddev.chunkSectors
        raidDisks := mddev.raidDisks + 1
        deltaDisks := 1 }
    | _ => .error .einval
  | _ => .error .einval

/-- The loop that halves 64 KiB until the array size is a multiple. -/
def suitableChunk (arraySectors : Nat) : Nat :=
  (([128, 64, 32, 16, 8, 4, 2] : List Nat).find? fun chunksect =>
    decide (arraySectors &&& (chunksect - 1) = 0)).getD 1

def raid5TakeoverRaid1 : Except MdError Mddev :=
  if mddev.raidDisks ≠ 2 ∨ mddev.degraded > 1 then .error .einval
  else if suitableChunk mddev.arraySectors <<< 9 < pageSize then .error .einval
  else setupConf { mddev with
    newLevel := .raid5
    newLayout := 2
    newChunkSectors := suitableChunk mddev.arraySectors }

/-- The layouts of level 6 that have `Q` on a device of its own, as layouts of level 5. -/
def layout6To5 : Int → Option Int
  | 16 => some 0
  | 17 => some 1
  | 18 => some 2
  | 19 => some 3
  | 20 => some 4
  | 5 => some 5
  | _ => none

def raid5TakeoverRaid6 : Except MdError Mddev :=
  match layout6To5 mddev.layout with
  | none => .error .einval
  | some newLayout => setupConf { mddev with
      newLevel := .raid5
      newLayout := newLayout
      deltaDisks := -1
      raidDisks := mddev.raidDisks - 1 }

def raid5Takeover : Except MdError Mddev :=
  match mddev.level with
  | .raid0 => raid45TakeoverRaid0 mddev .raid5
  | .raid1 => raid5TakeoverRaid1 mddev
  | .raid4 => setupConf { mddev with newLayout := 5, newLevel := .raid5 }
  | .raid6 => raid5TakeoverRaid6 mddev
  | .raid5 => .error .einval

def raid4Takeover : Except MdError Mddev :=
  match mddev.level with
  | .raid0 => raid45TakeoverRaid0 mddev .raid4
  | .raid5 =>
    if mddev.layout = 5 then setupConf { mddev with newLayout := 0, newLevel := .raid4 }
    else .error .einval
  | _ => .error .einval

/-- The layouts of level 5 with a `Q` device behind them. -/
def layout5To6 : Int → Option Int
  | 0 => some 16
  | 1 => some 17
  | 2 => some 18
  | 3 => some 19
  | 4 => some 20
  | 5 => some 5
  | _ => none

def raid6Takeover : Except MdError Mddev :=
  if mddev.level ≠ .raid5 ∨ mddev.degraded > 1 ∨ mddev.raidDisks > 253 ∨ mddev.raidDisks < 3 then
    .error .einval
  else
    match layout5To6 mddev.layout with
    | none => .error .einval
    | some newLayout => setupConf { mddev with
        newLevel := .raid6
        newLayout := newLayout
        deltaDisks := 1
        raidDisks := mddev.raidDisks + 1 }

def raid0TakeoverRaid45 : Except MdError Mddev :=
  if mddev.degraded ≠ 1 then .error .einval
  else if mddev.rdevs.any fun rdev => decide (rdev.raidDisk = (mddev.raidDisks : Int) - 1) then
    .error .einval
  else
    let rdevs := mddev.rdevs.map fun rdev => { rdev with sectors := mddev.devSectors }
    (createStripZones rdevs (mddev.raidDisks - 1) mddev.chunkSectors mddev.layout
      defaultLayout).map fun conf =>
        { mddev with
          rdevs := rdevs
          newLevel := .raid0
          newLayout := 0
          newChunkSectors := mddev.chunkSectors
          raidDisks := mddev.raidDisks - 1
          deltaDisks := -1
          pers := .raid0 conf }

/-- `raid0_takeover` from the levels with parity. -/
def raid0Takeover : Except MdError Mddev :=
  if mddev.bitmap then .error .ebusy
  else match mddev.level with
    | .raid4 => raid0TakeoverRaid45 defaultLayout mddev
    | .raid5 => if mddev.layout = 5 then raid0TakeoverRaid45 defaultLayout mddev
        else .error .einval
    | _ => .error .einval

/-- `pers->takeover`, by the level asked for. -/
def takeover : MdLevel → Except MdError Mddev
  | .raid0 => raid0Takeover defaultLayout mddev
  | .raid1 => .error .einval
  | .raid4 => raid4Takeover mddev
  | .raid5 => raid5Takeover mddev
  | .raid6 => raid6Takeover mddev

/-- `level_store` on a running array. -/
def levelStore (level : MdLevel) : Except MdError Mddev :=
  if mddev.readOnly then .error .erofs
  else if mddev.recoveryRunning || mddev.reshaping || mddev.sysfsActive then .error .ebusy
  else if level = mddev.level then .ok mddev
  else (takeover defaultLayout mddev level).map fun mddev =>
    { mddev with
      level := mddev.newLevel
      layout := mddev.newLayout
      chunkSectors := mddev.newChunkSectors
      deltaDisks := 0
      degraded := 0
      rdevs := mddev.rdevs.map fun rdev =>
        if rdev.raidDisk ≥ (mddev.raidDisks : Int) then { rdev with raidDisk := -1 } else rdev }

/-! ## Changes of layout and chunk size -/

/-- The validity tests of `raid5_check_reshape` and `raid6_check_reshape`. -/
def newGeometryValid : Bool :=
  (decide (mddev.newLayout < 0) ||
    if mddev.level = .raid6 then algorithmValidRaid6 mddev.newLayout
    else algorithmValidRaid5 mddev.newLayout) &&
  (decide (mddev.newChunkSectors = 0) ||
    (isPowerOf2 mddev.newChunkSectors && decide (8 ≤ mddev.newChunkSectors) &&
      decide (mddev.arraySectors &&& (mddev.newChunkSectors - 1) = 0)))

/-- The change `raid5_check_reshape` makes at once when there are two devices. -/
def changeInPlace (conf : Conf) : Mddev :=
  let conf := if mddev.newLayout ≥ 0 then { conf with algorithm := mddev.newLayout } else conf
  let conf := if mddev.newChunkSectors > 0 then
    { conf with chunkSectors := mddev.newChunkSectors } else conf
  { mddev with
    layout := if mddev.newLayout ≥ 0 then mddev.newLayout else mddev.layout
    chunkSectors := if mddev.newChunkSectors > 0 then mddev.newChunkSectors
      else mddev.chunkSectors
    pers := .raid456 conf }

/-- `check_reshape` of the personality. `rest` is what the function of that name behind the
tests returns; it only looks at memory and failed devices. -/
def checkReshape (rest : Except MdError Unit) : Mddev × Except MdError Unit :=
  match mddev.pers with
  | .raid456 conf =>
    if ¬ newGeometryValid mddev then (mddev, .error .einval)
    else if mddev.level ≠ .raid6 ∧ mddev.raidDisks = 2 then (changeInPlace mddev conf, rest)
    else (mddev, rest)
  | .raid0 _ => (mddev, .error .ebusy)
  | .raid1 => (mddev, .error .einval)

def layoutStore (n : Int) (rest : Except MdError Unit) : Mddev :=
  if mddev.readOnly then mddev
  else match checkReshape { mddev with newLayout := n } rest with
    | (mddev, .ok ()) => mddev
    | (mddev, .error _) => { mddev with newLayout := mddev.layout }

def chunkSizeStore (n : Nat) (rest : Except MdError Unit) : Mddev :=
  if mddev.readOnly then mddev
  else match checkReshape { mddev with newChunkSectors := n >>> 9 } rest with
    | (mddev, .ok ()) => mddev
    | (mddev, .error _) => { mddev with newChunkSectors := mddev.chunkSectors }

end MdRaid.Takeover
