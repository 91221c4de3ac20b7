import MdRaid.Lib.Runs
import MdRaid.Resync.Bitmap
import MdRaid.Sectors

/-!
# A resync: `md_do_sync` driving `raid5_sync_request`

`md_do_sync` walks over the array with the cursor `j`; each call of
`raid5_sync_request` skips a stretch the bitmap knows to be in sync, or submits a window
of up to `RAID5_SYNC_WINDOW` stripes. A request to stop, `MD_RECOVERY_INTR`, is seen
between the calls and right behind one, before the cursor has moved. Whatever ends the
walk, one last call ends the sync of the chunk at `curr_resync` if the walk was cut
short, and closes the sync of all chunks.

One run is a machine whose events are what the environment does: the bitmap's daemon and
the writes that come and go with counter pages, the request to stop, and for each call of
`raid5_sync_request` whether `daemon_sleep` has passed, how many stripes beyond the first
the stripe cache lets through, and whether the stop came during the call. No disk is
missing and no sync of a stripe fails.
-/

namespace MdRaid.Resync

/-- `RAID5_SYNC_WINDOW`. -/
def syncWindow : Nat := 128

/-- `MD_RESYNC_ACTIVE`, the smallest `curr_resync` that stands for a sector. -/
def resyncActive : Nat := 3

/-! ## `raid5_sync_request` -/

/-- The bitmap, and the stripes marked `STRIPE_SYNC_REQUESTED` by their first sector. -/
structure Progress where
  bitmap : Bitmap
  syncRequested : List Nat

def Progress.request (p : Progress) (bitmap : Bitmap) (sector : Nat) : Progress :=
  ⟨bitmap, sector :: p.syncRequested⟩

/-- The window behind the first stripe. `room` bounds the stripes submitted: the size of the
window, or what waiters, prereads and free stripes leave of it. -/
def submitWindow (maxSector : Nat) : Nat → Nat → Progress → Nat × Progress
  | 0, _, p => (0, p)
  | room + 1, winSector, p =>
    if winSector < maxSector then
      let r := bitmapStartSync p.bitmap winSector false
      if r.rv then
        let q := submitWindow maxSector room (winSector + stripeSectors)
          (p.request r.bitmap winSector)
        (q.1 + 1, q.2)
      else (0, { p with bitmap := r.bitmap })
    else (0, p)

/-- The stretch from `sectorNr` on can be skipped. -/
def canSkip (all : Bool) (b : Bitmap) (sectorNr : Nat) : Bool :=
  !all && !(bitmapStartSync b sectorNr true).rv &&
    decide (stripeSectors ≤ (bitmapStartSync b sectorNr true).blocks)

/-- `raid5_sync_request` below `max_sector`: the sectors done, and the progress. `all` is set
for a requested check or repair, and for a full sync. -/
def raid5SyncRequest (all : Bool) (maxSector : Nat) (p : Progress) (sectorNr : Nat) (due : Bool)
    (room : Nat) : Nat × Progress :=
  if canSkip all p.bitmap sectorNr then
    ((bitmapStartSync p.bitmap sectorNr true).blocks / stripeSectors * stripeSectors,
      { p with bitmap := (bitmapStartSync p.bitmap sectorNr true).bitmap })
  else
    let b := bitmapCondEndSync maxSector p.bitmap sectorNr due
    let r := bitmapStartSync b sectorNr false
    let q := submitWindow maxSector (min room (syncWindow - 1)) (sectorNr + stripeSectors)
      (p.request r.bitmap sectorNr)
    ((q.1 + 1) * stripeSectors, q.2)

/-- `raid5_sync_request` at `max_sector`: the end of a sync. -/
def raid5SyncFinish (maxSector currResync : Nat) (b : Bitmap) : Bitmap :=
  bitmapCloseSync maxSector
    (if currResync < maxSector then (bitmapEndSync b currResync true).2 else b)

/-! ## `md_do_sync` -/

/-- What does not change during a sync. -/
structure SyncConf where
  maxSectors : Nat
  /-- `MD_RECOVERY_REQUESTED` -/
  requested : Bool

structure Mddev extends Progress where
  j : Nat
  currResync : Nat
  /-- `MD_RECOVERY_INTR` -/
  intr : Bool
  fullsync : Bool
  finished : Bool

/-- `curr_resync` for the position `j`. -/
def currResyncOf (j : Nat) : Nat := if resyncActive ≤ j then j else resyncActive

/-- The sync enters its loop at sector `j`. -/
def Mddev.start (b : Bitmap) (j : Nat) (fullsync : Bool) : Mddev :=
  { bitmap := b
    syncRequested := []
    j := j
    currResync := currResyncOf j
    intr := false
    fullsync := fullsync
    finished := false }

inductive Event where
  | checkpage (page : Nat)
  | checkfree (page : Nat)
  | setIntr
  /-- One pass of the loop; `intr` says that the stop came before the test behind the call. -/
  | syncRequest (due : Bool) (room : Nat) (intr : Bool)
  | finish
deriving DecidableEq, Repr

/-- The loop goes on after `sectors` more sectors. -/
def Mddev.advance (conf : SyncConf) (m : Mddev) (sectors : Nat) : Mddev :=
  let j := min (m.j + sectors) conf.maxSectors
  { m with
    j := j
    currResync := if resyncActive ≤ j then j else m.currResync }

/-- `sync_request` at the cursor. -/
def Mddev.call (conf : SyncConf) (m : Mddev) (due : Bool) (room : Nat) : Nat × Progress :=
  raid5SyncRequest (conf.requested || m.fullsync) conf.maxSectors m.toProgress m.j due room

def step (conf : SyncConf) (m : Mddev) : Event → Option Mddev
  | .checkpage page => if m.finished then none else some
    { m with bitmap := m.bitmap.checkpage page }
  | .checkfree page => if m.finished then none else some
    { m with bitmap := m.bitmap.checkfree page }
  | .setIntr => if m.finished then none else some { m with intr := true }
  | .syncRequest due room intr =>
    if m.finished ∨ m.intr ∨ conf.maxSectors ≤ m.j then none
    else
      let r := m.call conf due room
      let m' := { m with toProgress := r.2 }
      if intr then some { m' with intr := true } else some (m'.advance conf r.1)
  | .finish =>
    if m.finished ∨ (m.intr = false ∧ m.j < conf.maxSectors) then none
    else some { m with
      bitmap := raid5SyncFinish conf.maxSectors m.currResync m.bitmap
      fullsync := m.fullsync && decide (m.currResync < conf.maxSectors)
      finished := true }

/-! ## The honest bitmap -/

/-- Every chunk that was `NEEDED` at the start and has a stripe that was not submitted is
`NEEDED`. -/
def Honest (conf : SyncConf) (b₀ : Bitmap) (m : Mddev) : Prop :=
  ∀ w, stripeSectors ∣ w → w < conf.maxSectors → (b₀.counter (b₀.chunk w)).needed = true →
    w ∉ m.syncRequested → (m.bitmap.counter (b₀.chunk w)).needed = true

end MdRaid.Resync
