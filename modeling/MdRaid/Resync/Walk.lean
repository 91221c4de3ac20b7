import MdRaid.Resync.Window

/-!
# The walk of `md_do_sync` and its checkpoints

`md_do_sync` moves the cursor `j` over the array by calls of `raid5_sync_request`, each of
which skips a stretch or marks a window of stripes. The stripes complete in any order, and
some of them fail. What the bitmap answers, how many devices are missing, how far the stripe
cache lets a window go, when the walk is interrupted and when it is time for a checkpoint
is up to the environment. A reshape is left out, and so are `resync_max` and the speed
limits, which only make the walk wait.
-/

namespace MdRaid.Resync.Walk

/-! ## `raid5_sync_request` -/

/-- What does not change during a walk. `maxSectors` is `max_sectors` as well as
`mddev->dev_sectors`, which are the same for raid5 and a whole number of chunks. -/
structure Conf where
  maxSectors : Nat
  aligned : stripeSectors ∣ maxSectors
  maxSectors_pos : 0 < maxSectors
  maxDegraded : Nat
  /-- `MD_RECOVERY_SYNC`; otherwise `MD_RECOVERY_RECOVER` -/
  sync : Bool
  /-- `MD_RECOVERY_REQUESTED` -/
  requested : Bool
  /-- `MD_RECOVERY_CHECK` -/
  check : Bool

/-- The answers of `start_sync` during one call: for the cursor, and for the stripes of the
window. -/
structure Answers where
  rv : Bool
  syncBlocks : Nat
  window : Nat → Bool

/-- What one call finds. `room` bounds the stripes behind the first one: waiters, prereads and
free stripes may end the window early. -/
structure Env where
  degraded : Nat
  fullsync : Bool
  bitmap : Option Answers
  room : Nat

/-- The bitmap reports the sector at distance `d` from the cursor as clean. -/
def Env.ReportsClean (env : Env) (d : Nat) : Prop :=
  ∃ b, env.bitmap = some b ∧ b.rv = false ∧ d < b.syncBlocks

/-- There are too many failed devices to resync. -/
def Env.TooManyFailed (conf : Conf) (env : Env) : Prop :=
  env.degraded ≥ conf.maxDegraded ∧ conf.sync = true

instance (conf : Conf) (env : Env) : Decidable (env.TooManyFailed conf) := by
  unfold Env.TooManyFailed
  infer_instance

/-- The sectors the bitmap lets the call skip. -/
def Env.skip (conf : Conf) (env : Env) : Option Nat :=
  match env.bitmap with
  | none => none
  | some b =>
    if !conf.requested && !env.fullsync && !b.rv && decide (stripeSectors ≤ b.syncBlocks) then
      some (b.syncBlocks / stripeSectors * stripeSectors)
    else none

/-- How many stripes from `winSector` on go into the window. -/
def windowLength (maxSectors : Nat) (env : Env) : Nat → Nat → Nat
  | 0, _ => 0
  | room + 1, winSector =>
    if winSector < maxSectors ∧ (env.bitmap.all fun b => b.window winSector) = true then
      windowLength maxSectors env room (winSector + stripeSectors) + 1
    else 0

/-- `raid5_sync_request` below `max_sector`. -/
structure Call where
  sectors : Nat
  skipped : Bool
  /-- The stripes marked `STRIPE_SYNC_REQUESTED`. -/
  marked : List Nat
deriving DecidableEq, Repr

def raid5SyncRequest (conf : Conf) (env : Env) (sectorNr : Nat) : Call :=
  if env.TooManyFailed conf then ⟨conf.maxSectors - sectorNr, true, []⟩
  else match env.skip conf with
    | some blocks => ⟨blocks, true, []⟩
    | none =>
      let submitted := windowLength conf.maxSectors env (min env.room (syncWindow - 1))
        (sectorNr + stripeSectors) + 1
      ⟨submitted * stripeSectors, false,
        (List.range submitted).map fun i => sectorNr + i * stripeSectors⟩

/-! ### The bitmap behind the answers -/

/-- What the bitmap answers. -/
def answers (b : Bitmap) (sectorNr : Nat) : Answers where
  rv := (bitmapStartSync b sectorNr true).rv
  syncBlocks := (bitmapStartSync b sectorNr true).blocks
  window w := (b.counter (b.chunk w)).dirty

theorem windowLength_eq {maxSectors : Nat} {env : Env} {b : Bitmap} {sectorNr : Nat}
    (hb : env.bitmap = some (answers b sectorNr)) : ∀ {room win n : Nat},
      WindowEnd maxSectors room b win n → windowLength maxSectors env room win = n
  | 0, _, _, h => (Nat.le_zero.mp h.le_room).symm
  | room + 1, win, 0, h => by
    rw [windowLength, hb, if_neg]
    rintro ⟨hlt, hdirty⟩
    have hstops := h.stops
    rw [zero_mul, add_zero] at hstops
    rcases hstops with h0 | hmax | hclean
    · cases h0
    · exact absurd hlt (not_lt.mpr hmax)
    · cases hclean.symm.trans hdirty
  | room + 1, win, n + 1, h => by
    have hpos : ∀ i, win + stripeSectors + i * stripeSectors = win + (i + 1) * stripeSectors :=
      fun i => by ring
    have hfirst := h.inside 0 n.succ_pos
    rw [zero_mul, add_zero] at hfirst
    rw [windowLength, hb, if_pos (by exact hfirst), windowLength_eq hb
      ⟨Nat.le_of_succ_le_succ h.le_room,
        fun i hi => hpos i ▸ h.inside (i + 1) (Nat.succ_lt_succ hi), ?_⟩]
    rw [hpos]
    exact h.stops.imp_left Nat.succ.inj

/-- **The call is that of the sync with its bitmap**, when the answers are those of the bitmap. -/
theorem call_eq (conf : Conf) (m : Resync.Mddev) (due : Bool) {env : Env}
    (hfull : env.fullsync = m.fullsync) (hb : env.bitmap = some (answers m.bitmap m.j))
    (henv : ¬ env.TooManyFailed conf) :
    let call := m.call ⟨conf.maxSectors, conf.requested⟩ due env.room
    let c := raid5SyncRequest conf env m.j
    call.1 = c.sectors ∧ ∀ w, w ∈ call.2.syncRequested ↔ w ∈ m.syncRequested ∨ w ∈ c.marked := by
  have hskip : env.skip conf = if m.skips ⟨conf.maxSectors, conf.requested⟩ then
      some ((answers m.bitmap m.j).syncBlocks / stripeSectors * stripeSectors) else none := by
    simp [Env.skip, hb, hfull, Resync.Mddev.skips, canSkip, answers]
  dsimp only
  unfold raid5SyncRequest
  rw [if_neg henv, hskip]
  by_cases hs : m.skips ⟨conf.maxSectors, conf.requested⟩
  · rw [(call_of_skips hs due env.room).1, if_pos hs]
    refine ⟨?_, by simp⟩
    exact congrArg Prod.fst (if_pos hs : m.call ⟨conf.maxSectors, conf.requested⟩ due env.room = _)
  · obtain ⟨n, hn, hwin, hend⟩ := call_of_not_skips (Bool.eq_false_iff.mpr hs) due env.room
    rw [if_neg hs, hn]
    dsimp only at hend ⊢
    rw [windowLength_eq hb hend]
    refine ⟨rfl, fun w => (hwin.requested w).trans (or_congr_right ?_)⟩
    simp [eq_comm]

/-! ## `md_do_sync` -/

/-- What a checkpoint needs of a member. -/
structure Member where
  inSync : Bool
  faulty : Bool
  recoveryOffset : Nat
deriving DecidableEq, Repr

/-- One call as it was made. -/
structure Record where
  env : Env
  sectorNr : Nat

def Record.call (conf : Conf) (c : Record) : Call := raid5SyncRequest conf c.env c.sectorNr

/-- The call skipped the sector. -/
def Record.Skips (conf : Conf) (c : Record) (w : Nat) : Prop :=
  (c.call conf).skipped = true ∧ c.sectorNr ≤ w ∧ w < c.sectorNr + (c.call conf).sectors

/-- The state of a walk over `n` members. The last fields keep what happened: the calls made, the
stripes synced, and the bad blocks of each member. -/
structure Mddev (n : Nat) where
  j : Nat
  currResync : Nat
  currResyncCompleted : Nat
  recoveryActive : Int
  recoveryCp : Nat
  /-- `MD_RECOVERY_INTR` -/
  intr : Bool
  /-- `MD_RECOVERY_ERROR` -/
  error : Bool
  finished : Bool
  members : Fin n → Member
  inFlight : List Nat
  added : Nat
  calls : List Record
  synced : List Nat
  badBlocks : Fin n → List Nat

/-- A member the recovery writes to. -/
def Member.recovering (m : Member) : Bool := !m.inSync && !m.faulty

/-- `md_sync_position`: a check or repair is requested, a resync is not. -/
def mdSyncPosition {n : Nat} (conf : Conf) (bitmap : Bool) (resyncMin recoveryCp : Nat)
    (members : Fin n → Member) : Nat :=
  if conf.sync then
    if conf.requested then resyncMin
    else if bitmap then 0 else recoveryCp
  else
    (List.finRange n).foldl (fun start i =>
      if (members i).recovering = true ∧ (members i).recoveryOffset < start then
        (members i).recoveryOffset
      else start) maxSector

/-- The stripes marked `STRIPE_SYNC_REQUESTED` so far. -/
def Mddev.marks {n : Nat} (conf : Conf) (m : Mddev n) : List Nat :=
  m.calls.flatMap fun c => (c.call conf).marked

/-- The sector was skipped because the bitmap reported it as clean. -/
def Mddev.SkippedClean {n : Nat} (conf : Conf) (m : Mddev n) (w : Nat) : Prop :=
  ∃ c ∈ m.calls, c.Skips conf w ∧ c.env.ReportsClean (w - c.sectorNr)

/-- The sector was skipped because there were too many failed devices. -/
def Mddev.SkippedFailed {n : Nat} (conf : Conf) (m : Mddev n) (w : Nat) : Prop :=
  ∃ c ∈ m.calls, c.Skips conf w ∧ c.env.TooManyFailed conf

/-- The loop is entered at sector `j`. -/
def Mddev.start {n : Nat} (j recoveryCp : Nat) (members : Fin n → Member) : Mddev n where
  j := j
  currResync := currResyncOf j
  currResyncCompleted := j
  recoveryActive := 0
  recoveryCp := recoveryCp
  intr := false
  error := false
  finished := false
  members := members
  inFlight := []
  added := 0
  calls := []
  synced := []
  badBlocks _ := []

inductive Event (n : Nat) : Type where
  /-- Time to update `curr_resync_completed`. -/
  | checkpoint
  | setIntr
  /-- A device fails. -/
  | mdError (i : Fin n)
  /-- One call; `intr` says that a stop came before the test behind the call. -/
  | syncRequest (env : Env) (intr : Bool)
  /-- The sync of a stripe is done. -/
  | doneSync (w : Nat)
  /-- `handle_failed_sync`; `recorded` says which members could record the bad block. -/
  | failedSync (w : Nat) (recorded : Fin n → Bool)
  /-- `md_update_sb`, by any thread. -/
  | updateSb
  | finish

section Steps

variable {n : Nat} (conf : Conf) (m : Mddev n)

/-- The update waits until nothing is in flight. -/
def Mddev.checkpoint : Mddev n :=
  { m with
    currResyncCompleted := m.j
    recoveryCp := if conf.sync = true ∧ m.j > m.recoveryCp then m.j else m.recoveryCp }

def Mddev.mdError (i : Fin n) : Mddev n :=
  { m with
    intr := true
    members := Function.update m.members i { m.members i with faulty := true, inSync := false } }

def Mddev.syncRequest (env : Env) (intr : Bool) : Mddev n :=
  let r := raid5SyncRequest conf env m.j
  let m' : Mddev n :=
    { m with
      calls := m.calls ++ [⟨env, m.j⟩]
      inFlight := r.marked ++ m.inFlight
      recoveryActive := if r.skipped then m.recoveryActive else m.recoveryActive + r.sectors
      added := if r.skipped then m.added else m.added + r.sectors }
  if intr then { m' with intr := true }
  else
    let j := min (m.j + r.sectors) conf.maxSectors
    { m' with j := j, currResync := if resyncActive ≤ j then j else m.currResync }

/-- `md_done_sync` for one stripe. -/
def Mddev.mdDoneSync (w : Nat) (ok : Bool) : Mddev n :=
  { m with
    inFlight := m.inFlight.erase w
    recoveryActive := m.recoveryActive - stripeSectors
    intr := m.intr || !ok
    error := m.error || !ok }

def Mddev.doneSync (w : Nat) : Mddev n :=
  { m.mdDoneSync w true with synced := w :: m.synced }

/-- A recovery records the block as bad on every member it writes to, or is aborted. -/
def Mddev.failedSync (w : Nat) (recorded : Fin n → Bool) : Mddev n :=
  if conf.sync then m.mdDoneSync w true
  else
    { m.mdDoneSync w (decide (∀ i, (m.members i).recovering = true → recorded i = true)) with
      badBlocks := fun i => if (m.members i).recovering && recorded i then w :: m.badBlocks i
        else m.badBlocks i }

/-- The offsets of a recovery are brought up to date, those of failed members as well. -/
def Mddev.updateSb : Mddev n :=
  if conf.sync then m
  else
    { m with
      members := fun i =>
        if (m.members i).inSync = false ∧ (m.members i).recoveryOffset < m.currResyncCompleted then
          { m.members i with recoveryOffset := m.currResyncCompleted }
        else m.members i }

/-- The checkpoint behind the loop. -/
def Mddev.finish : Mddev n :=
  let m : Mddev n :=
    { m with
      finished := true
      currResyncCompleted := if m.intr = false ∧ resyncActive ≤ m.currResync then m.currResync
        else m.currResyncCompleted }
  if conf.check = true ∨ m.currResync ≤ resyncActive then m
  else if conf.sync then
    { m with
      recoveryCp :=
        if m.intr then
          if m.currResync ≥ m.recoveryCp then
            if m.error then m.currResyncCompleted else m.currResync
          else m.recoveryCp
        else maxSector }
  else
    let curr := if m.intr then m.currResync else maxSector
    { m with
      currResync := curr
      members := fun i =>
        if (m.members i).recovering = true ∧ (m.members i).recoveryOffset < curr then
          { m.members i with recoveryOffset := curr }
        else m.members i }

def step (m : Mddev n) : Event n → Option (Mddev n)
  | .checkpoint =>
    if m.finished ∨ conf.maxSectors ≤ m.j ∨ m.recoveryActive ≠ 0 then none
    else some (m.checkpoint conf)
  | .setIntr => if m.finished then none else some { m with intr := true }
  | .mdError i => if m.finished then none else some (m.mdError i)
  | .syncRequest env intr =>
    if m.finished ∨ m.intr ∨ conf.maxSectors ≤ m.j then none
    else some (m.syncRequest conf env intr)
  | .doneSync w => if w ∉ m.inFlight then none else some (m.doneSync w)
  | .failedSync w recorded => if w ∉ m.inFlight then none else some (m.failedSync conf w recorded)
  | .updateSb => some (m.updateSb conf)
  | .finish =>
    if m.finished ∨ (m.intr = false ∧ m.j < conf.maxSectors) ∨ m.recoveryActive ≠ 0 then none
    else some (m.finish conf)

end Steps

end MdRaid.Resync.Walk
