import MdRaid.Sectors

/-!
# RAID-4/5/6 address mapping: the definitions

The part of `raid5.c` that maps a logical sector of the array to a device and
a device sector (`raid5_compute_sector`), the inverse walk from a stripe to
the logical sector of one of its blocks (`raid5_compute_blocknr`), and the
recomputation of the parity positions of a stripe (`stripe_set_idx`).

A `sector_t` is a natural number below `2 ^ 64`; every product or sum the code
stores in one goes through `sectorT`. Device indices are C `int`s and stay
integers, since a stripe without Q carries `qd_idx = -1`. A `switch` that falls
into `BUG()` is the value `none`.
-/

namespace MdRaid.Geometry

/-- Storing into a `sector_t` (an unsigned 64-bit integer). -/
def sectorT (n : Nat) : Nat := n % 2 ^ 64

/-- The three levels the personality accepts. -/
inductive Level : Type where
  | raid4
  | raid5
  | raid6
deriving DecidableEq, Repr

/-- The layouts of `raid5.h`, without their numbers. -/
inductive Algorithm : Type where
  | leftAsymmetric
  | rightAsymmetric
  | leftSymmetric
  | rightSymmetric
  | parity0
  | parityN
  | rotatingZeroRestart
  | rotatingNRestart
  | rotatingNContinue
  | leftAsymmetric6
  | rightAsymmetric6
  | leftSymmetric6
  | rightSymmetric6
  | parity06
deriving DecidableEq, Repr

/-- The `ALGORITHM_*` numbers. `none` is a number no `case` label carries. -/
def algorithmOfLayout (layout : Int) : Option Algorithm :=
  match layout with
  | 0 => some .leftAsymmetric
  | 1 => some .rightAsymmetric
  | 2 => some .leftSymmetric
  | 3 => some .rightSymmetric
  | 4 => some .parity0
  | 5 => some .parityN
  | 8 => some .rotatingZeroRestart
  | 9 => some .rotatingNRestart
  | 10 => some .rotatingNContinue
  | 16 => some .leftAsymmetric6
  | 17 => some .rightAsymmetric6
  | 18 => some .leftSymmetric6
  | 19 => some .rightSymmetric6
  | 20 => some .parity06
  | _ => none

def algorithmValidRaid5 (layout : Int) : Bool :=
  decide (layout ≥ 0) && decide (layout ≤ 5)

def algorithmValidRaid6 (layout : Int) : Bool :=
  (decide (layout ≥ 0) && decide (layout ≤ 5)) ||
  (decide (layout ≥ 8) && decide (layout ≤ 10)) ||
  (decide (layout ≥ 16) && decide (layout ≤ 20))

/-- The fields of `struct r5conf` the mapping reads: the level, and the current
and the previous geometry (they differ only while a reshape runs). -/
structure Conf where
  level : Level
  algorithm : Int
  prevAlgo : Int
  chunkSectors : Nat
  prevChunkSectors : Nat
  raidDisks : Nat
  previousRaidDisks : Nat
deriving DecidableEq, Repr

/-- `conf->max_degraded`, set by `setup_conf` from the level. -/
def Level.maxDegraded : Level → Nat
  | .raid4 => 1
  | .raid5 => 1
  | .raid6 => 2

/-- `previous ? conf->prev_algo : conf->algorithm`. -/
def Conf.algo (conf : Conf) (previous : Bool) : Int :=
  if previous then conf.prevAlgo else conf.algorithm

/-- `previous ? conf->prev_chunk_sectors : conf->chunk_sectors`. -/
def Conf.sectorsPerChunk (conf : Conf) (previous : Bool) : Nat :=
  if previous then conf.prevChunkSectors else conf.chunkSectors

/-- `previous ? conf->previous_raid_disks : conf->raid_disks`. -/
def Conf.disks (conf : Conf) (previous : Bool) : Nat :=
  if previous then conf.previousRaidDisks else conf.raidDisks

/-- Number of data devices of a geometry. -/
def Conf.dataDisks (conf : Conf) (previous : Bool) : Nat :=
  conf.disks previous - conf.level.maxDegraded

/-- The positions `raid5_compute_sector` records in a stripe head. -/
structure StripeIdx where
  pdIdx : Int
  qdIdx : Int
  ddfLayout : Bool
deriving DecidableEq, Repr

/-- What the parity switch of `raid5_compute_sector` leaves behind: the
positions, and the data index after it stepped over the parity devices. -/
structure Placement where
  idx : StripeIdx
  ddIdx : Int
deriving DecidableEq, Repr

/-- `Q D D D P` when P is last, else two slots after P (`D D P Q D`): the
common tail of the asymmetric RAID-6 cases. -/
def asymmetricPQ (raidDisks pdIdx ddIdx : Int) (ddf : Bool) : Placement :=
  if pdIdx = raidDisks - 1 then ⟨⟨pdIdx, 0, ddf⟩, ddIdx + 1⟩
  else if ddIdx ≥ pdIdx then ⟨⟨pdIdx, pdIdx + 1, ddf⟩, ddIdx + 2⟩
  else ⟨⟨pdIdx, pdIdx + 1, ddf⟩, ddIdx⟩

/-- `if (*dd_idx >= pd_idx) (*dd_idx)++`. -/
def stepOver (pdIdx ddIdx : Int) : Int :=
  if ddIdx ≥ pdIdx then ddIdx + 1 else ddIdx

/-- The level-5 cases of the parity switch; `rot` is
`sector_div(stripe2, raid_disks)`. -/
def placeRaid5 (alg : Algorithm) (raidDisks dataDisks : Int) (rot ddIdx : Int) : Option Placement :=
  match alg with
  | .leftAsymmetric =>
    let pdIdx := dataDisks - rot
    some ⟨⟨pdIdx, -1, false⟩, stepOver pdIdx ddIdx⟩
  | .rightAsymmetric => some ⟨⟨rot, -1, false⟩, stepOver rot ddIdx⟩
  | .leftSymmetric =>
    let pdIdx := dataDisks - rot
    some ⟨⟨pdIdx, -1, false⟩, (pdIdx + 1 + ddIdx) % raidDisks⟩
  | .rightSymmetric => some ⟨⟨rot, -1, false⟩, (rot + 1 + ddIdx) % raidDisks⟩
  | .parity0 => some ⟨⟨0, -1, false⟩, ddIdx + 1⟩
  | .parityN => some ⟨⟨dataDisks, -1, false⟩, ddIdx⟩
  | _ => none

/-- The level-6 cases. `stripe2` is the stripe number before the remainder is
taken, since the rotations divide by `raid_disks` or `raid_disks - 1` and
`ROTATING_N_RESTART` adds one first. -/
def placeRaid6 (alg : Algorithm) (raidDisks dataDisks : Int) (stripe2 : Nat)
    (ddIdx : Int) : Option Placement :=
  let rot : Int := stripe2 % raidDisks
  let rot5 : Int := stripe2 % (raidDisks - 1)
  match alg with
  | .leftAsymmetric => some (asymmetricPQ raidDisks (raidDisks - 1 - rot) ddIdx false)
  | .rightAsymmetric => some (asymmetricPQ raidDisks rot ddIdx false)
  | .leftSymmetric =>
    let pdIdx := raidDisks - 1 - rot
    some ⟨⟨pdIdx, (pdIdx + 1) % raidDisks, false⟩, (pdIdx + 2 + ddIdx) % raidDisks⟩
  | .rightSymmetric =>
    some ⟨⟨rot, (rot + 1) % raidDisks, false⟩, (rot + 2 + ddIdx) % raidDisks⟩
  | .parity0 => some ⟨⟨0, 1, false⟩, ddIdx + 2⟩
  | .parityN => some ⟨⟨dataDisks, dataDisks + 1, false⟩, ddIdx⟩
  | .rotatingZeroRestart => some (asymmetricPQ raidDisks rot ddIdx true)
  | .rotatingNRestart =>
    -- `stripe2 += 1`: the first stripe is `D D D P Q`, not `Q D D D P`
    let rot' : Int := sectorT (stripe2 + 1) % raidDisks
    some (asymmetricPQ raidDisks (raidDisks - 1 - rot') ddIdx true)
  | .rotatingNContinue =>
    let pdIdx := raidDisks - 1 - rot
    some ⟨⟨pdIdx, (pdIdx + raidDisks - 1) % raidDisks, true⟩,
      (pdIdx + 1 + ddIdx) % raidDisks⟩
  | .leftAsymmetric6 =>
    let pdIdx := dataDisks - rot5
    some ⟨⟨pdIdx, raidDisks - 1, false⟩, stepOver pdIdx ddIdx⟩
  | .rightAsymmetric6 => some ⟨⟨rot5, raidDisks - 1, false⟩, stepOver rot5 ddIdx⟩
  | .leftSymmetric6 =>
    let pdIdx := dataDisks - rot5
    some ⟨⟨pdIdx, raidDisks - 1, false⟩, (pdIdx + 1 + ddIdx) % (raidDisks - 1)⟩
  | .rightSymmetric6 =>
    some ⟨⟨rot5, raidDisks - 1, false⟩, (rot5 + 1 + ddIdx) % (raidDisks - 1)⟩
  | .parity06 => some ⟨⟨0, raidDisks - 1, false⟩, ddIdx + 1⟩

/-- The parity switch of `raid5_compute_sector`. Level 4 ignores the layout. -/
def place (level : Level) (algorithm : Int) (raidDisks dataDisks : Int)
    (stripe2 : Nat) (ddIdx : Int) : Option Placement :=
  match level with
  | .raid4 => some ⟨⟨dataDisks, -1, false⟩, ddIdx⟩
  | .raid5 =>
    (algorithmOfLayout algorithm).bind fun alg =>
      placeRaid5 alg raidDisks dataDisks (stripe2 % raidDisks) ddIdx
  | .raid6 =>
    (algorithmOfLayout algorithm).bind fun alg =>
      placeRaid6 alg raidDisks dataDisks stripe2 ddIdx

/-- The outputs of `raid5_compute_sector`: the device sector it returns, the
data index, and the positions it stores in the stripe head. -/
structure Target where
  newSector : Nat
  ddIdx : Int
  idx : StripeIdx
deriving DecidableEq, Repr

def raid5ComputeSector (conf : Conf) (rSector : Nat) (previous : Bool) : Option Target :=
  let sectorsPerChunk := conf.sectorsPerChunk previous
  let raidDisks := conf.disks previous
  let dataDisks := conf.dataDisks previous
  let chunkOffset := rSector % sectorsPerChunk
  let chunkNumber := rSector / sectorsPerChunk
  let stripe := chunkNumber / dataDisks
  let ddIdx : Int := (chunkNumber % dataDisks : Nat)
  (place conf.level (conf.algo previous) raidDisks dataDisks stripe ddIdx).map fun p =>
    { newSector := sectorT (stripe * sectorsPerChunk + chunkOffset)
      ddIdx := p.ddIdx
      idx := p.idx }

/-- The part of a stripe head that `raid5_compute_blocknr` reads. -/
structure StripeHead where
  sector : Nat
  disks : Nat
  idx : StripeIdx
deriving DecidableEq, Repr

/-- `stripe_set_idx`: the positions of the row of `stripe`, read off the first
data block of that row. -/
def stripeSetIdx (conf : Conf) (stripe : Nat) (previous : Bool) : Option StripeIdx :=
  let sectorsPerChunk := conf.sectorsPerChunk previous
  let chunkOffset := stripe % sectorsPerChunk
  let row := stripe / sectorsPerChunk
  (raid5ComputeSector conf
    (sectorT (row * conf.dataDisks previous * sectorsPerChunk + chunkOffset))
    previous).map Target.idx

/-- The geometry `init_stripe` gives a stripe head for `sector`. -/
def initStripe (conf : Conf) (sector : Nat) (previous : Bool) : Option StripeHead :=
  (stripeSetIdx conf sector previous).map fun idx =>
    { sector := sector, disks := conf.disks previous, idx := idx }

/-- `if (i < sh->pd_idx) i += raid_disks; i -= (sh->pd_idx + 1)`, with the
modulus and the distance to the first data block as parameters. -/
def unrotate (modulus pdIdx skip i : Int) : Int :=
  (if i < pdIdx then i + modulus else i) - (pdIdx + skip)

/-- The level-5 cases of the switch of `raid5_compute_blocknr`. -/
def unplaceRaid5 (alg : Algorithm) (raidDisks pdIdx i : Int) : Option Int :=
  match alg with
  | .leftAsymmetric | .rightAsymmetric => some (if i > pdIdx then i - 1 else i)
  | .leftSymmetric | .rightSymmetric => some (unrotate raidDisks pdIdx 1 i)
  | .parity0 => some (i - 1)
  | .parityN => some i
  | _ => none

/-- The level-6 cases. -/
def unplaceRaid6 (alg : Algorithm) (raidDisks dataDisks pdIdx i : Int) : Option Int :=
  match alg with
  | .leftAsymmetric | .rightAsymmetric | .rotatingZeroRestart | .rotatingNRestart =>
    -- `Q D D D P`, else `D D P Q D`
    some (if pdIdx = raidDisks - 1 then i - 1
      else if i > pdIdx then i - 2 else i)
  | .leftSymmetric | .rightSymmetric =>
    some (if pdIdx = raidDisks - 1 then i - 1 else unrotate raidDisks pdIdx 2 i)
  | .parity0 => some (i - 2)
  | .parityN => some i
  | .rotatingNContinue =>
    -- `P D D D Q`, else `D D Q P D`
    some (if pdIdx = 0 then i - 1 else unrotate raidDisks pdIdx 1 i)
  | .leftAsymmetric6 | .rightAsymmetric6 => some (if i > pdIdx then i - 1 else i)
  | .leftSymmetric6 | .rightSymmetric6 => some (unrotate (dataDisks + 1) pdIdx 1 i)
  | .parity06 => some (i - 1)

/-- The switch of `raid5_compute_blocknr`: device index to data index. -/
def unplace (level : Level) (algorithm : Int) (raidDisks dataDisks pdIdx i : Int) : Option Int :=
  match level with
  | .raid4 => some i
  | .raid5 =>
    (algorithmOfLayout algorithm).bind fun alg => unplaceRaid5 alg raidDisks pdIdx i
  | .raid6 =>
    (algorithmOfLayout algorithm).bind fun alg =>
      unplaceRaid6 alg raidDisks dataDisks pdIdx i

/-- How a call of `raid5_compute_blocknr` ends. The C function returns `0` for
a parity device and also after the warning. -/
inductive BlocknrOutcome : Type where
  | parity
  | sector (rSector : Nat)
  | mapNotCorrect
  | bug
deriving DecidableEq, Repr

def blocknrOutcome (conf : Conf) (sh : StripeHead) (i : Int) (previous : Bool) : BlocknrOutcome :=
  let sectorsPerChunk := conf.sectorsPerChunk previous
  let dataDisks := sh.disks - conf.level.maxDegraded
  let chunkOffset := sh.sector % sectorsPerChunk
  let stripe := sh.sector / sectorsPerChunk
  if i = sh.idx.pdIdx then .parity
  else if conf.level = .raid6 ∧ i = sh.idx.qdIdx then .parity
  else
    match unplace conf.level (conf.algo previous) sh.disks dataDisks sh.idx.pdIdx i with
    | none => .bug
    | some d =>
      let chunkNumber := (((stripe * dataDisks : Nat) : Int) + d) % 2 ^ 64
      let rSector := sectorT (chunkNumber.toNat * sectorsPerChunk + chunkOffset)
      match raid5ComputeSector conf rSector previous with
      | none => .bug
      | some check =>
        if check.newSector ≠ sh.sector ∨ check.ddIdx ≠ i ∨
            check.idx.pdIdx ≠ sh.idx.pdIdx ∨ check.idx.qdIdx ≠ sh.idx.qdIdx then
          .mapNotCorrect
        else .sector rSector

def raid5ComputeBlocknr (conf : Conf) (sh : StripeHead) (i : Int) (previous : Bool) : Nat :=
  match blocknrOutcome conf sh i previous with
  | .sector rSector => rSector
  | .parity | .mapNotCorrect | .bug => 0

/-! ## The checks of `setup_conf` -/

/-- The error returns of the parameter checks. -/
inductive Errno : Type where
  | eio
  | einval
deriving DecidableEq, Repr

/-- `PAGE_SIZE`. -/
def pageSize : Nat := 4096

def isPowerOf2 (n : Nat) : Bool := n ≠ 0 && n &&& (n - 1) = 0

/-- The parameter checks at the head of `setup_conf`, on the level number, the
layout, the device count and the chunk size in sectors. -/
def setupConfChecks (newLevel newLayout : Int) (raidDisks newChunkSectors : Nat) :
    Except Errno Unit :=
  if newLevel ≠ 5 ∧ newLevel ≠ 4 ∧ newLevel ≠ 6 then .error .eio
  else if (newLevel = 5 ∧ ¬ algorithmValidRaid5 newLayout) ∨
      (newLevel = 6 ∧ ¬ algorithmValidRaid6 newLayout) then .error .eio
  else if newLevel = 6 ∧ raidDisks < 4 then .error .einval
  else if newChunkSectors = 0 ∨ (newChunkSectors <<< 9) % pageSize ≠ 0 ∨
      ¬ isPowerOf2 newChunkSectors then .error .einval
  else .ok ()

def Level.number : Level → Int
  | .raid4 => 4
  | .raid5 => 5
  | .raid6 => 6

/-- `min` in `check_reshape`: "For raid6, 4 is the minimum size. Otherwise 2 is
the minimum". `setup_conf` itself has no lower bound for levels 4 and 5. -/
def Level.minDisks : Level → Nat
  | .raid4 => 2
  | .raid5 => 2
  | .raid6 => 4

/-- A geometry the personality accepts: it passes the checks of `setup_conf`
and has the minimum number of devices of its level. The previous geometry of a
reshape was the current one before it, so it passed the same checks. -/
structure Accepted (conf : Conf) (previous : Bool) : Prop where
  checks : setupConfChecks conf.level.number (conf.algo previous)
    (conf.disks previous) (conf.sectorsPerChunk previous) = .ok ()
  minDisks : conf.level.minDisks ≤ conf.disks previous

end MdRaid.Geometry
