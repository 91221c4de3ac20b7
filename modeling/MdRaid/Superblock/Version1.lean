import MdRaid.Sectors

/-!
# The version-1 superblock

What the kernel writes to a member's superblock page and what it reads back. Integers of
the program are their bits, so that a conversion to the little-endian field of the page
and back is the identity unless it cuts bits off. `bitmap_offset` shares its word with the
offset and size of the partial parity log, and `recovery_offset` its place with
`journal_tail`.

The page keeps what `super_1_sync` does not write. The layout of the page only matters for
its checksum and is left as a parameter. The contents of the bad block log are not
modelled, only whether it can be read.
-/

namespace MdRaid.Superblock.Version1

/-! ## State -/

inductive Feature where
  | bitmapOffset
  | recoveryOffset
  | reshapeActive
  | badBlocks
  | replacement
  | reshapeBackwards
  | newOffset
  | recoveryBitmap
  | clustered
  | journal
  | ppl
  | multiplePpls
  | raid0Layout
deriving DecidableEq, Repr

/-- `struct mdp_superblock_1`. -/
structure Superblock1 where
  magic : BitVec 32
  majorVersion : BitVec 32
  featureMap : Feature → Bool
  /-- A bit of `feature_map` outside `MD_FEATURE_ALL`. -/
  unknownFeatures : Bool
  pad0 : BitVec 32
  setUuid : BitVec 128
  ctime : BitVec 64
  level : BitVec 32
  layout : BitVec 32
  size : BitVec 64
  chunksize : BitVec 32
  raidDisks : BitVec 32
  /-- Also `ppl.offset`, in the low half, and `ppl.size`. -/
  bitmapOffset : BitVec 32
  newLevel : BitVec 32
  reshapePosition : BitVec 64
  deltaDisks : BitVec 32
  newLayout : BitVec 32
  newChunk : BitVec 32
  newOffset : BitVec 32
  dataOffset : BitVec 64
  dataSize : BitVec 64
  superOffset : BitVec 64
  /-- Also `journal_tail`. -/
  recoveryOffset : BitVec 64
  devNumber : BitVec 32
  cntCorrectedRead : BitVec 32
  writeMostly1 : Bool
  failFast1 : Bool
  bblogSize : BitVec 16
  bblogOffset : BitVec 32
  utime : BitVec 64
  events : BitVec 64
  resyncOffset : BitVec 64
  sbCsum : BitVec 32
  maxDev : BitVec 32
  pad3 : BitVec 256
  devRoles : Nat → BitVec 16

/-- The array. -/
structure Mddev where
  uuid : BitVec 128
  ctime : BitVec 64
  utime : BitVec 64
  level : BitVec 32
  layout : BitVec 32
  chunkSectors : BitVec 32
  raidDisks : BitVec 32
  devSectors : BitVec 64
  events : BitVec 64
  inSync : Bool
  recoveryCp : BitVec 64
  reshapePosition : BitVec 64
  deltaDisks : BitVec 32
  newLevel : BitVec 32
  newLayout : BitVec 32
  newChunkSectors : BitVec 32
  reshapeBackwards : Bool
  /-- `mddev->pers` is set. -/
  pers : Bool
  /-- The bitmap in use, with its `events_cleared`. -/
  bitmap : Option (BitVec 64)
  bitmapFile : Bool
  bitmapOffset : BitVec 64
  clustered : Bool
  frozen : Bool
  journalClean : Bool
  hasJournal : Bool
  hasPpl : Bool
  hasMultiplePpls : Bool

/-- A member. -/
structure Rdev where
  descNr : BitVec 32
  raidDisk : BitVec 32
  savedRaidDisk : BitVec 32
  dataOffset : BitVec 64
  newDataOffset : BitVec 64
  sectors : BitVec 64
  sbStart : BitVec 64
  sbSize : Nat
  recoveryOffset : BitVec 64
  journalTail : BitVec 64
  correctedErrors : BitVec 32
  pplOffset : BitVec 16
  pplSize : BitVec 32
  pplSector : BitVec 64
  badblocksCount : Nat
  faulty : Bool
  inSync : Bool
  bitmapSync : Bool
  journal : Bool
  writeMostly : Bool
  failFast : Bool
  replacement : Bool

/-- The member disk: its sectors and block size, the minor version of its superblock, and
whether its bad block log can be read. -/
structure Device where
  nrSectors : BitVec 64
  logicalBlockSize : Nat
  minorVersion : Nat
  badBlocksRead : Bool

inductive Errno where
  | einval
  | eio
  | euclean
deriving DecidableEq, Repr

def mdSbMagic : BitVec 32 := 0xa92b4efc

def maxSector : BitVec 64 := BitVec.ofNat 64 MdRaid.maxSector

def roleSpare : BitVec 16 := 0xffff

def roleFaulty : BitVec 16 := 0xfffe

def roleJournal : BitVec 16 := 0xfffd

def roleMax : BitVec 16 := 0xff00

/-- The most roles a page has room for. -/
def maxDevs : BitVec 32 := (4096 - 256) / 2

/-- Feature `f` is added to the map if `on`. -/
def Superblock1.setIf (sb : Superblock1) (on : Bool) (f : Feature) : Superblock1 :=
  { sb with featureMap := fun g => sb.featureMap g || on && decide (g = f) }

/-! ## Writing -/

section

variable (words : Superblock1 → List (BitVec 32))

/-- The sum over the words of the page, with `sb_csum` taken as 0. -/
def calcSb1Csum (sb : Superblock1) : BitVec 32 :=
  let newcsum := ((words { sb with sbCsum := 0 }).map BitVec.toNat).sum % 2 ^ 64
  BitVec.ofNat 32 (newcsum % 2 ^ 32 + newcsum / 2 ^ 32)

def sbSize (dev : Device) (maxDev : Nat) : Nat :=
  let size := maxDev * 2 + 256
  let bmask := dev.logicalBlockSize - 1
  if size &&& bmask ≠ 0 then (size ||| bmask) + 1 else size

section

variable (mddev : Mddev) (rdev : Rdev) (sb : Superblock1)

/-- `md_error`, with the error handlers of the personalities: one of level 4, 5 or 6 fails the
member, the striping one fails the array. -/
def mdError : Rdev :=
  let fails := mddev.pers && mddev.level != 0
  { rdev with faulty := rdev.faulty || fails, inSync := rdev.inSync && (rdev.faulty || !fails) }

/-- The entry of a member in `dev_roles`. -/
def Rdev.role : BitVec 16 :=
  if rdev.faulty then roleFaulty
  else if rdev.inSync then rdev.raidDisk.truncate 16
  else if rdev.journal then roleJournal
  else if 0 ≤ rdev.raidDisk.toInt then rdev.raidDisk.truncate 16
  else roleSpare

/-- What the array and the member have in every superblock. -/
def syncState : Superblock1 :=
  { sb with
    featureMap := fun _ => false
    unknownFeatures := false
    pad0 := 0
    recoveryOffset := 0
    pad3 := 0
    utime := mddev.utime
    events := mddev.events
    resyncOffset :=
      if mddev.inSync then mddev.recoveryCp else if mddev.journalClean then maxSector else 0
    cntCorrectedRead := rdev.correctedErrors
    raidDisks := mddev.raidDisks
    size := mddev.devSectors
    chunksize := mddev.chunkSectors
    level := mddev.level
    layout := mddev.layout
    failFast1 := rdev.failFast
    writeMostly1 := rdev.writeMostly
    dataOffset := rdev.dataOffset
    dataSize := rdev.sectors }

def syncBitmap : Superblock1 :=
  let internal := mddev.bitmap.isSome && !mddev.bitmapFile
  { sb with
    bitmapOffset := if internal then mddev.bitmapOffset.truncate 32 else sb.bitmapOffset }.setIf
      internal .bitmapOffset

/-- The member has a place in the array and is not in sync. -/
def Rdev.recovering : Bool :=
  decide (0 ≤ rdev.raidDisk.toInt) && !rdev.journal && !rdev.inSync

def syncRecovery : Superblock1 :=
  (({ sb with
    recoveryOffset :=
      if rdev.journal then rdev.journalTail
      else if rdev.recovering then rdev.recoveryOffset else sb.recoveryOffset }.setIf
        rdev.recovering .recoveryOffset).setIf
        (rdev.recovering && decide (0 ≤ rdev.savedRaidDisk.toInt) && mddev.bitmap.isSome)
        .recoveryBitmap).setIf
        rdev.replacement .replacement

def syncReshape : Superblock1 :=
  let active := decide (mddev.reshapePosition ≠ maxSector)
  let moves := active && decide (rdev.newDataOffset ≠ rdev.dataOffset)
  (({ sb with
    reshapePosition := if active then mddev.reshapePosition else sb.reshapePosition
    newLayout := if active then mddev.newLayout else sb.newLayout
    deltaDisks := if active then mddev.deltaDisks else sb.deltaDisks
    newLevel := if active then mddev.newLevel else sb.newLevel
    newChunk := if active then mddev.newChunkSectors else sb.newChunk
    newOffset :=
      if moves then (rdev.newDataOffset - rdev.dataOffset).truncate 32 else sb.newOffset }.setIf
        active .reshapeActive).setIf
        (active && decide (mddev.deltaDisks = 0) && mddev.reshapeBackwards) .reshapeBackwards).setIf
        moves .newOffset

/-- The member after bad blocks could not be recorded. -/
def syncBadBlocks : Rdev :=
  if rdev.badblocksCount ≠ 0 ∧ sb.bblogOffset = 0 then mdError mddev rdev else rdev

/-- One more than the highest number of a member. -/
def highestDev (rdevs : List Rdev) : Int :=
  rdevs.foldl (fun maxDev rdev => max maxDev (rdev.descNr.toInt + 1)) 0

def syncRoles (rdevs : List Rdev) (sb : Superblock1) : Superblock1 :=
  let maxDev := max (highestDev rdevs) sb.maxDev.toNat
  { sb with
    maxDev := BitVec.ofInt 32 maxDev
    devRoles := rdevs.foldl
      (fun roles rdev => Function.update roles rdev.descNr.toNat rdev.role)
      fun i => if (i : Int) < maxDev then roleSpare else sb.devRoles i }

def syncLog : Superblock1 :=
  (({ sb with
    bitmapOffset :=
      if mddev.hasPpl then rdev.pplSize.truncate 16 ++ rdev.pplOffset else sb.bitmapOffset }.setIf
        mddev.hasJournal .journal).setIf
        (mddev.hasPpl && mddev.hasMultiplePpls) .multiplePpls).setIf
        (mddev.hasPpl && !mddev.hasMultiplePpls) .ppl

/-- The page before the roles are filled in. -/
def syncPage : Superblock1 :=
  let sb := syncBitmap mddev (syncState mddev rdev sb)
  let sb := syncReshape mddev rdev (syncRecovery mddev rdev sb)
  (sb.setIf mddev.clustered .clustered).setIf
    (decide (rdev.badblocksCount ≠ 0 ∧ sb.bblogOffset ≠ 0)) .badBlocks

end

/-- The page with its roles, its log and its checksum; `rdev` and the `others` are the members of
the array. -/
def syncTail (mddev : Mddev) (others : List Rdev) (rdev : Rdev) (sb : Superblock1) : Superblock1 :=
  let sb := syncLog mddev rdev (syncRoles (rdev :: others) sb)
  { sb with sbCsum := calcSb1Csum words sb }

def super1Sync (dev : Device) (mddev : Mddev) (others : List Rdev) (rdev : Rdev)
    (sb : Superblock1) : Rdev × Superblock1 :=
  let sb := syncPage mddev rdev sb
  let rdev := syncBadBlocks mddev rdev sb
  let grows := decide (highestDev (rdev :: others) > sb.maxDev.toNat)
  let sb := syncTail words mddev others rdev sb
  ({ rdev with sbSize := if grows then sbSize dev sb.maxDev.toNat else rdev.sbSize }, sb)

/-! ## Reading -/

def super1SbStart (dev : Device) : Option (BitVec 64) :=
  match dev.minorVersion with
  | 0 => some ((dev.nrSectors - 8 * 2) &&& ~~~(4 * 2 - 1))
  | 1 => some 0
  | 2 => some 8
  | _ => none

/-- The page says that the member has a role in the array. -/
def activeRole (sb : Superblock1) (descNr : BitVec 32) : Bool :=
  decide (0 ≤ descNr.toInt) && decide (descNr < sb.maxDev) &&
    (decide (sb.devRoles descNr.toNat < roleMax) || decide (sb.devRoles descNr.toNat = roleJournal))

def refuse (c : Prop) [Decidable c] (e : Errno) : Except Errno Unit :=
  if c then .error e else .ok ()

/-- Where the data of the member can start. -/
def dataStart (dev : Device) (sbStart : BitVec 64) (maxDev : Nat) : BitVec 64 :=
  sbStart + BitVec.ofNat 64 (sbSize dev maxDev / 512)

/-- The sectors the member has for data. -/
def roomForData (dev : Device) (sbStart dataOffset : BitVec 64) : BitVec 64 :=
  if dev.minorVersion ≠ 0 then dev.nrSectors - dataOffset else sbStart

/-- Where the data of the member goes to in a reshape. -/
def Superblock1.newDataOffset (sb : Superblock1) : BitVec 64 :=
  if sb.featureMap .reshapeActive && sb.featureMap .newOffset then
    sb.dataOffset + sb.newOffset.signExtend 64
  else sb.dataOffset

def Superblock1.hasPpl (sb : Superblock1) : Bool :=
  sb.featureMap .ppl || sb.featureMap .multiplePpls

/-- The member as its superblock describes it. -/
def Superblock1.rdev (sb : Superblock1) (dev : Device) (sbStart : BitVec 64) (rdev : Rdev) : Rdev :=
  { rdev with
    sbStart := sbStart
    dataOffset := sb.dataOffset
    newDataOffset := sb.newDataOffset
    correctedErrors := sb.cntCorrectedRead
    sbSize := sbSize dev sb.maxDev.toNat
    descNr := sb.devNumber
    pplOffset := if sb.hasPpl then sb.bitmapOffset.extractLsb' 0 16 else rdev.pplOffset
    pplSize := if sb.hasPpl then (sb.bitmapOffset.extractLsb' 16 16).zeroExtend 32 else rdev.pplSize
    pplSector :=
      if sb.hasPpl then sbStart + (sb.bitmapOffset.extractLsb' 0 16).signExtend 64
      else rdev.pplSector
    sectors := sb.dataSize }

/-- `refsb` is the superblock the member is compared with, if any. Returned with the member:
whether its superblock is the better one. -/
def super1Load (dev : Device) (rdev : Rdev) (sb : Superblock1) (refsb : Option Superblock1) :
    Except Errno (Rdev × Bool) := do
  let some sbStart := super1SbStart dev | .error .einval
  refuse (sb.magic ≠ mdSbMagic ∨ sb.majorVersion ≠ 1 ∨ sb.maxDev > maxDevs ∨
    sb.superOffset ≠ sbStart ∨ sb.unknownFeatures = true) .einval
  refuse (calcSb1Csum words sb ≠ sb.sbCsum) .einval
  refuse (sb.dataSize < 10) .einval
  refuse (sb.pad0 ≠ 0 ∨ sb.pad3 ≠ 0) .einval
  refuse (dev.minorVersion ≠ 0 ∧ sb.dataOffset < dataStart dev sbStart sb.maxDev.toNat) .einval
  refuse (dev.minorVersion ≠ 0 ∧ sb.newDataOffset < dataStart dev sbStart sb.maxDev.toNat) .einval
  refuse (sb.featureMap .badBlocks = true ∧ rdev.badblocksCount = 0 ∧
    (sb.bblogSize > 8 ∨ sb.bblogOffset = 0)) .einval
  refuse (sb.featureMap .badBlocks = true ∧ rdev.badblocksCount = 0 ∧
    dev.badBlocksRead = false) .eio
  refuse (sb.featureMap .raid0Layout = true ∧ sb.level ≠ 0) .einval
  refuse (∃ ref ∈ refsb, sb.setUuid ≠ ref.setUuid ∨ sb.level ≠ ref.level ∨ sb.layout ≠ ref.layout ∨
    sb.chunksize ≠ ref.chunksize) .einval
  refuse (roomForData dev sbStart sb.dataOffset < sb.dataSize) .einval
  return (sb.rdev dev sbStart rdev,
    activeRole sb sb.devNumber && refsb.all fun ref => decide (ref.events < sb.events))

/-- The array as the superblock describes it. -/
def Superblock1.mddev (sb : Superblock1) (mddev : Mddev) : Mddev :=
  let reshapes := sb.featureMap .reshapeActive
  { mddev with
    chunkSectors := sb.chunksize
    ctime := sb.ctime
    utime := sb.utime
    level := sb.level
    layout := if sb.level = 0 ∧ sb.featureMap .raid0Layout = false then -1 else sb.layout
    raidDisks := sb.raidDisks
    devSectors := sb.size
    events := sb.events
    recoveryCp := sb.resyncOffset
    uuid := sb.setUuid
    bitmapOffset :=
      if sb.featureMap .bitmapOffset && !mddev.bitmapFile then sb.bitmapOffset.signExtend 64 else 0
    reshapePosition := if reshapes then sb.reshapePosition else maxSector
    deltaDisks := if reshapes then sb.deltaDisks else 0
    newLevel := if reshapes then sb.newLevel else sb.level
    newLayout := if reshapes then sb.newLayout else sb.layout
    newChunkSectors := if reshapes then sb.newChunk else sb.chunksize
    reshapeBackwards := reshapes && (decide (sb.deltaDisks.toInt < 0) ||
      decide (sb.deltaDisks = 0) && sb.featureMap .reshapeBackwards)
    hasJournal := mddev.hasJournal || sb.featureMap .journal
    hasPpl := mddev.hasPpl || sb.hasPpl }

/-- The entry of the member in `dev_roles`, or in those of the freshest superblock if the member's
own is behind. -/
def readRole (mddev : Mddev) (freshest : Option Superblock1) (rdev : Rdev) (sb : Superblock1) :
    Except Errno (Rdev × BitVec 16) :=
  if rdev.descNr.toInt < 0 ∨ sb.maxDev ≤ rdev.descNr then
    .ok ({ rdev with descNr := -1 }, roleSpare)
  else
    match freshest with
    | none => .ok (rdev, sb.devRoles rdev.descNr.toNat)
    | some fresh =>
      if mddev.pers = false ∧ sb.events < mddev.events then
        if fresh.maxDev ≤ rdev.descNr then .error .euclean
        else .ok (rdev, fresh.devRoles rdev.descNr.toNat)
      else .ok (rdev, sb.devRoles rdev.descNr.toNat)

def takeRole (mddev : Mddev) (rdev : Rdev) (sb : Superblock1) (role : BitVec 16) :
    Except Errno Rdev :=
  if role = roleSpare then .ok rdev
  else if role = roleFaulty then .ok { rdev with faulty := true }
  else if role = roleJournal then
    if sb.featureMap .journal then
      .ok { rdev with journal := true, journalTail := sb.recoveryOffset, raidDisk := 0 }
    else .error .einval
  else
    let recovers := sb.featureMap .recoveryOffset
    .ok { rdev with
      raidDisk := role.zeroExtend 32
      recoveryOffset := if recovers then sb.recoveryOffset else rdev.recoveryOffset
      savedRaidDisk := if recovers && !sb.featureMap .recoveryBitmap then -1 else role.zeroExtend 32
      inSync := rdev.inSync || !recovers && !mddev.frozen }

/-- The rest of `super_1_validate`, after the array has been looked at. -/
def validateRdev (mddev : Mddev) (freshest : Option Superblock1) (rdev : Rdev) (sb : Superblock1) :
    Except Errno Rdev := do
  let (rdev, role) ← readRole mddev freshest rdev sb
  let rdev ← takeRole mddev rdev sb role
  return { rdev with
    writeMostly := rdev.writeMostly || sb.writeMostly1
    failFast := rdev.failFast || sb.failFast1
    replacement := rdev.replacement || sb.featureMap .replacement }

def super1Validate (mddev : Mddev) (freshest : Option Superblock1) (rdev : Rdev)
    (sb : Superblock1) : Except Errno (Mddev × Rdev) := do
  let rdev := { rdev with
    raidDisk := -1, faulty := false, inSync := false, bitmapSync := false, writeMostly := false }
  if mddev.raidDisks = 0 then
    refuse (sb.hasPpl = true ∧
      (sb.featureMap .bitmapOffset || sb.featureMap .journal) = true) .einval
    refuse (sb.featureMap .ppl = true ∧ sb.featureMap .multiplePpls = true) .einval
    let mddev := sb.mddev mddev
    return (mddev, ← validateRdev mddev freshest rdev sb)
  else if mddev.pers = false then
    refuse (activeRole sb rdev.descNr = true ∧ sb.events + 1 < mddev.events) .einval
    return (mddev, ← validateRdev mddev freshest rdev sb)
  else
    match mddev.bitmap with
    | some eventsCleared =>
      if sb.events < eventsCleared then return (mddev, rdev)
      else
        let rdev := { rdev with bitmapSync := decide (sb.events < mddev.events) }
        return (mddev, ← validateRdev mddev freshest rdev sb)
    | none =>
      if sb.events < mddev.events then return (mddev, rdev)
      else return (mddev, ← validateRdev mddev freshest rdev sb)

end

end MdRaid.Superblock.Version1
