import MdRaid.Journal.Basic
import MdRaid.Lib.Ring
import MdRaid.Sectors

/-!
# The write-back cache on the log

The stripes over the io units: a stripe in its caching phase puts new data in the log
and returns the requests; written out, it logs its parity, then writes data and parity
to the member disks. The log is a ring, and reclaim moves its tail.

`handle_stripe` is split where other contexts can come in between, with the part still
to run kept in the stripe's place; so is `r5l_do_reclaim`. A stripe head has one place
at a time: a list, or what holds a reference to it. The writes of a data device not yet
on its member disk are remembered with the units that hold them. Requests are not failed
and data is not discarded; both parity pages of level 6 go together.
-/

namespace MdRaid.Journal.WriteBack

open RingLog

/-! ## State -/

structure Dev where
  towrite : Nat
  overwrite : Bool
  written : Nat
  wantwrite : Bool
  locked : Bool
  inJournal : Bool
  /-- A write to the member disk is in flight. -/
  writing : Bool
  /-- The units holding data of this device that is not on the member disk. -/
  behind : List Nat
deriving DecidableEq, Repr

structure Parity where
  wantwrite : Bool
  locked : Bool
  inJournal : Bool
deriving DecidableEq, Repr

inductive ReconstructState where
  | idle
  | drainRun
  | drainResult
deriving DecidableEq, Repr

/-- What `analyse_stripe` counted: devices with requests to write, and with requests
being written. -/
structure HeadState where
  toWrite : Bool
  written : Bool
deriving DecidableEq, Repr

/-- The part of `handle_stripe` still to run. -/
inductive Stage where
  | returning (s : HeadState)
  | finishing (s : HeadState)
  | writing (s : HeadState)
  | io
deriving DecidableEq, Repr

inductive Place where
  | inactiveList
  | handleList
  | fullStripeList
  | partialStripeList
  | handling (stage : Stage)
  | opsRunning
  | logging
  | noSpace
  | memberWrites
deriving DecidableEq, Repr

structure StripeHead (d : Nat) where
  dev : Fin d → Dev
  parity : Parity
  caching : Bool
  partialStripe : Bool
  fullStripe : Bool
  logTrapped : Bool
  handle : Bool
  syncRequested : Bool
  syncing : Bool
  reconstruct : ReconstructState
  place : Place
  /-- `none` for `MaxSector`. -/
  logStart : Option Pos

/-- How far `r5l_do_reclaim` is. -/
inductive Reclaim where
  | idle
  | waiting (target : Nat) (writeSuper : Bool)
  | writing (checkpoint : Pos)
deriving DecidableEq, Repr

/-- An array with `d` data disks and its log. -/
structure R5conf (d : Nat) where
  deviceSize : Nat
  maxDegraded : Nat
  groupCnt : Nat
  /-- How many stripe heads there are. -/
  nrStripes : Nat
  log : R5lLog
  /-- `io->log_start` -/
  start : Nat → Pos
  logStart : Pos
  lastCheckpoint : Pos
  nextCheckpoint : Pos
  /-- `rdev->journal_tail` -/
  journalTail : Pos
  /-- The tail in a superblock on its way to the disks. -/
  superWriting : Option Pos
  /-- The tail in the superblock on the disks. -/
  durableTail : Pos
  reclaimTarget : Nat
  reclaim : Reclaim
  logTight : Bool
  logCritical : Bool
  sh : Nat → StripeHead d
  stripeInJournalList : List Nat
  suspended : Bool
  quiesce : Bool
  /-- A `BUG_ON` of `r5c_make_stripe_write_out` or `r5c_finish_cache_stripe` fired. -/
  bug : Bool

variable {d : Nat} (c : R5conf d) (n : Nat) (st : StripeHead d)

def R5conf.modify (f : StripeHead d → StripeHead d) : R5conf d :=
  { c with sh := Function.update c.sh n (f (c.sh n)) }

def StripeHead.mapDev (f : Dev → Dev) : StripeHead d :=
  { st with dev := fun i => f (st.dev i) }

def r5cIsWriteback : Bool := c.log.writeBack

/-- The devices with `R5_InJournal`, the parity device included. -/
def StripeHead.injournal : Nat :=
  (List.finRange d).countP (fun i => (st.dev i).inJournal) + st.parity.inJournal.toNat

/-! ## The ring -/

def r5lRingDistance (start stop : Nat) : Nat :=
  RingLog.distance c.deviceSize start stop

def r5lHasFreeSpace (size : Nat) : Bool :=
  decide (c.deviceSize > r5lRingDistance c c.lastCheckpoint.sector c.logStart.sector + size)

def r5cLogRequiredToFlushCache : Nat :=
  if r5cIsWriteback c then
    blockSectors * ((c.maxDegraded + 1) * c.stripeInJournalList.length + d * (c.groupCnt + 1))
  else 0

def r5cUpdateLogState : R5conf d :=
  if r5cIsWriteback c then
    let freeSpace := r5lRingDistance c c.logStart.sector c.lastCheckpoint.sector
    let reclaimSpace := r5cLogRequiredToFlushCache c
    { c with
      logCritical := decide (freeSpace < 2 * reclaimSpace)
      logTight := decide (freeSpace < 3 * reclaimSpace) }
  else c

/-- `r5_reserve_log_entry`, for `blocks` blocks. -/
def reserveLogEntry (c : R5conf d) : Nat → Pos
  | 0 => c.logStart
  | blocks + 1 => Pos.advance c.deviceSize blockSectors (reserveLogEntry c blocks)

/-- The log moves on to `log`, with a meta block if that has a new unit and with `pages`
pages behind it. -/
def takeBlocks (log : R5lLog) (pages : Nat) : R5conf d :=
  r5cUpdateLogState
    { c with
      log := log
      start := if c.log.seq < log.seq then Function.update c.start c.log.seq c.logStart else c.start
      logStart := reserveLogEntry c (log.seq - c.log.seq + pages) }

/-- `next_checkpoint` after `r5l_complete_finished_ios` has turned the log into `log`. -/
def nextCheckpointAfter (log : R5lLog) : Pos :=
  match (c.log.finishedIos.take (c.log.finishedIos.length - log.finishedIos.length)).getLast? with
  | none => c.nextCheckpoint
  | some u => c.start u

def r5lWakeReclaim (space : Nat) : R5conf d :=
  if space < c.reclaimTarget then c else { c with reclaimTarget := space }

/-! ## Phases and lists -/

def r5cMakeStripeWriteOut : R5conf d :=
  { c.modify n fun st => { st with caching := false } with bug := c.bug || !r5cIsWriteback c }

/-- `do_release_stripe`: the last reference is gone. -/
def doReleaseStripe : R5conf d :=
  let injournal := if r5cIsWriteback c then (c.sh n).injournal else 0
  let c :=
    if (c.sh n).syncRequested ||
        (c.quiesce && r5cIsWriteback c && !(c.sh n).handle && decide (injournal ≠ 0)) then
      (if (c.sh n).caching then r5cMakeStripeWriteOut c n else c).modify n fun st =>
        { st with handle := true }
    else c
  c.modify n fun st =>
    if st.handle then { st with place := .handleList }
    else if !r5cIsWriteback c || decide (injournal = 0) then { st with place := .inactiveList }
    else if injournal = d then
      { st with fullStripe := true, partialStripe := false, place := .fullStripeList }
    else { st with place := .partialStripeList }

/-- A reference is taken and dropped. -/
def touch : R5conf d :=
  match (c.sh n).place with
  | .inactiveList | .handleList | .fullStripeList | .partialStripeList => doReleaseStripe c n
  | _ => c

def addStripeBio (i : Fin d) (covers : Bool) : R5conf d :=
  touch (c.modify n fun st =>
    { st with
      handle := true
      dev := Function.update st.dev i
        { st.dev i with
          towrite := (st.dev i).towrite + 1, overwrite := (st.dev i).overwrite || covers } }) n

def requestSync : R5conf d :=
  touch (c.modify n fun st => { st with handle := true, syncRequested := true }) n

/-! ## Completion of a log write -/

def r5cHandleDataCached : StripeHead d :=
  { st.mapDev fun dev =>
      if dev.wantwrite then { dev with wantwrite := false, inJournal := true, locked := false }
      else dev with
    logTrapped := false }

def r5cHandleParityCached : StripeHead d :=
  st.mapDev fun dev => if dev.inJournal then { dev with wantwrite := true } else dev

def r5cFinishCacheStripe : R5conf d :=
  if !r5cIsWriteback c then
    { c.modify n fun st => { st with parity := { st.parity with
      inJournal := true } } with
      bug := c.bug || (c.sh n).caching }
  else if (c.sh n).caching then c.modify n r5cHandleDataCached
  else
    c.modify n fun st =>
      { r5cHandleParityCached st with parity := { st.parity with inJournal := true } }

/-- What `r5l_io_run_stripes` does with one stripe. -/
def runStripe : R5conf d :=
  doReleaseStripe ((r5cFinishCacheStripe c n).modify n fun st => { st with handle := true }) n

/-- The io units have gone from `c.log` to `log`; the stripes released go on. -/
def runLog (log : R5lLog) : R5conf d :=
  ((log.releases.drop c.log.releases.length).map Release.stripe).foldl runStripe
    { c with log := log, nextCheckpoint := nextCheckpointAfter c log }

/-! ## Handling a stripe -/

def StripeHead.analyse : HeadState where
  toWrite := decide (∃ i, 0 < (st.dev i).towrite)
  written := decide (∃ i, 0 < (st.dev i).written)

/-- `blocked`: the superblock has to be written first, so nothing but I/O is done. -/
def handleStart (blocked : Bool) : R5conf d :=
  c.modify n fun st =>
    let sync := st.syncRequested && !st.partialStripe && !st.fullStripe
    { st with
      syncRequested := st.syncRequested && !sync
      syncing := st.syncing || sync
      handle := blocked && !st.logTrapped
      place := .handling (if st.logTrapped || blocked then .io else .returning st.analyse) }

def reconstructDone : StripeHead d :=
  if st.reconstruct = .drainResult then
    { st.mapDev fun dev =>
        if dev.locked && (decide (0 < dev.written) || dev.inJournal) then
          { dev with wantwrite := true }
        else dev with
      reconstruct := .idle
      parity := { st.parity with wantwrite := st.parity.wantwrite || st.parity.locked } }
  else st

def handleStripeCleanEvent : StripeHead d :=
  st.mapDev fun dev => if dev.locked then dev else { dev with written := 0 }

def r5cHandleCachedDataEndio : StripeHead d :=
  st.mapDev fun dev => { dev with written := 0 }

/-- `clean`: the parity on the member disks is up to date. -/
def returnRequests (clean : Bool) : StripeHead d :=
  let justCached := decide (∃ i, (st.dev i).inJournal = true ∧ 0 < (st.dev i).written)
  let st := reconstructDone st
  let st := if clean && !st.parity.locked then handleStripeCleanEvent st else st
  if justCached then r5cHandleCachedDataEndio st else st

def logStripeWriteFinished : R5conf d :=
  let log := r5lStripeWriteFinished c.log n
  { c with log := log, nextCheckpoint := nextCheckpointAfter c log }

def handleReturn (s : HeadState) (clean : Bool) : R5conf d :=
  logStripeWriteFinished
    (c.modify n fun st => { returnRequests st clean with place := .handling (.finishing s) }) n

def r5lAppendFlushPayload (alloc : Bool) : R5conf d :=
  if c.quiesce then c else takeBlocks c (Journal.r5lAppendFlushPayload c.log alloc) 0

def r5cFinishStripeWriteOut (alloc : Bool) : R5conf d :=
  if !(c.sh n).parity.inJournal then c
  else
    let c := c.modify n fun st => { st with parity := { st.parity with inJournal := false } }
    if !r5cIsWriteback c then c
    else
      let c := c.modify n fun st =>
        { st.mapDev fun dev => { dev with
          inJournal := false } with
          logStart := none, partialStripe := false, fullStripe := false }
      let c := { c with stripeInJournalList := c.stripeInJournalList.erase n }
      let c := r5lAppendFlushPayload (r5cUpdateLogState c) alloc
      if (c.sh n).syncRequested then c.modify n fun st => { st with handle := true } else c

/-- `degradedRead`: a read needs a failed device, so that a stripe with data in the journal
is written out first. -/
def handleStripeFill (degradedRead : Bool) : R5conf d :=
  if degradedRead && decide ((c.sh n).injournal ≠ 0) && decide ((c.sh n).reconstruct = .idle) then
    (if (c.sh n).caching then r5cMakeStripeWriteOut c n else c).modify n fun st =>
      { st with handle := true }
  else c

def handleFinish (s : HeadState) (degradedRead alloc : Bool) : R5conf d :=
  (r5cFinishStripeWriteOut (handleStripeFill c n degradedRead) n alloc).modify n fun st =>
    { st with place := .handling (.writing s) }

/-- `ops_run_biodrain` on one device. -/
def Dev.drain (dev : Dev) : Dev :=
  { dev with
    inJournal := false, overwrite := false
    written := dev.written + dev.towrite, towrite := 0 }

/-- The stripe after a caching write was tried, and whether the write has to go to the
array after all. `failed`: a member has failed; `counted`: the stripe could be counted in
`big_stripe_tree`. -/
def r5cTryCachingWrite (s : HeadState) (failed counted : Bool) : R5conf d × Bool :=
  let st := c.sh n
  if !st.caching && (decide (0 < st.injournal) || s.written) then (c, true)
  else
    let c := c.modify n fun st => { st with caching := true }
    if failed || st.syncing ||
        decide (∃ i, 0 < (st.dev i).towrite ∧ (st.dev i).overwrite = false ∧
          (st.dev i).inJournal = false) ||
        (!st.partialStripe && !st.fullStripe && !counted) then
      (r5cMakeStripeWriteOut c n, true)
    else
      (c.modify n fun st =>
        { st.mapDev fun dev =>
            if 0 < dev.towrite then { dev.drain with wantwrite := true, locked := true } else
              dev with
          partialStripe := st.partialStripe || !st.fullStripe
          logTrapped := st.logTrapped || decide (∃ i, 0 < (st.dev i).towrite) }, false)

/-- The devices whose requests are drained are those of `drain`; the others wait. -/
def scheduleReconstruction (drain : Fin d → Bool) : StripeHead d :=
  if ∃ i, (0 < (st.dev i).towrite ∧ drain i = true) ∨ (st.dev i).inJournal = true then
    { st with
      dev := fun i =>
        if 0 < (st.dev i).towrite ∧ drain i = true then { (st.dev i).drain with locked := true }
        else if (st.dev i).inJournal then { st.dev i with locked := true }
        else st.dev i
      parity := { st.parity with locked := true }
      reconstruct := .drainRun }
  else st

/-- `s->locked` is not zero. -/
def StripeHead.anyLocked : Bool :=
  st.parity.locked || decide (∃ i, (st.dev i).locked = true)

/-- `ready`: all blocks needed have been read. -/
def handleStripeDirtying (ready : Bool) (drain : Fin d → Bool) : R5conf d :=
  c.modify n fun st =>
    { if ready && !st.anyLocked then scheduleReconstruction st drain else st with handle := true }

def newWrites (s : HeadState) (failed counted ready : Bool) (drain : Fin d → Bool) : R5conf d :=
  if (c.sh n).reconstruct ≠ .idle ∨ c.log.logIo n ≠ none then c
  else if !r5cIsWriteback c then
    if s.toWrite then handleStripeDirtying c n ready drain else c
  else
    let tried := if s.toWrite then r5cTryCachingWrite c n s failed counted else (c, false)
    if tried.2 || (!(tried.1.sh n).caching && decide (0 < (tried.1.sh n).injournal)) then
      handleStripeDirtying tried.1 n ready drain
    else tried.1

def handleWrite (s : HeadState) (failed counted ready : Bool) (drain : Fin d → Bool) : R5conf d :=
  (newWrites c n s failed counted ready drain).modify n fun st => { st with place := .handling .io }

/-- The flagged writes go to the member disks. -/
def issueWrites : R5conf d :=
  if (c.sh n).parity.wantwrite = true ∨ ∃ i, ((c.sh n).dev i).wantwrite = true then
    c.modify n fun st =>
      { st.mapDev fun dev =>
          if dev.wantwrite then { dev with wantwrite := false, writing := true } else dev with
        parity := { st.parity with wantwrite := false }
        place := .memberWrites }
  else if (c.sh n).reconstruct = .drainRun then c.modify n fun st =>
    { st with place := .opsRunning }
  else doReleaseStripe c n

/-- `r5l_add_no_space_stripe`; a stripe without memory for its unit waits likewise. -/
def r5lAddNoSpaceStripe : R5conf d :=
  c.modify n fun st => { st with place := .noSpace }

/-- The data pages `r5l_log_stripe` appends. -/
def StripeHead.dataPages : Nat :=
  (List.finRange d).countP fun i => (st.dev i).wantwrite && !(st.dev i).inJournal

def r5lLogStripe (parityPages : Nat) (preflush fua alloc : Bool) : R5conf d :=
  let pages := (c.sh n).dataPages
  let log := Journal.r5lLogStripe c.log n pages parityPages preflush fua alloc
  match log.logIo n with
  | none => r5lAddNoSpaceStripe (takeBlocks c log 0) n
  | some u =>
    let c := (takeBlocks c log (pages + parityPages)).modify n fun st =>
      { st.mapDev fun dev =>
          if dev.wantwrite && !dev.inJournal then { dev with behind := dev.behind ++ [u] }
          else dev with
        place := .logging }
    if !r5cIsWriteback c then c
    else
      match (c.sh n).logStart with
      | some _ => c
      | none =>
        { c.modify n fun st => { st with
          logStart := some (c.start u) } with
          stripeInJournalList := c.stripeInJournalList ++ [n] }

/-- Space for the stripe is there or it waits; `none` for `BUG()`. -/
def logOrWait (writeDisks parityPages : Nat) (preflush fua alloc : Bool) : Option (R5conf d) :=
  let reserve := (1 + writeDisks) * blockSectors
  if r5cIsWriteback c && c.logCritical && (c.sh n).logStart.isNone then
    some (r5lWakeReclaim (r5lAddNoSpaceStripe c n) 0)
  else if !r5lHasFreeSpace c reserve then
    if r5cIsWriteback c then
      if (c.sh n).logStart.map Pos.sector = some c.lastCheckpoint.sector then none
      else some (r5lAddNoSpaceStripe c n)
    else some (r5lWakeReclaim (r5lAddNoSpaceStripe c n) reserve)
  else some (r5lLogStripe c n parityPages preflush fua alloc)

def r5lWriteStripe (preflush fua alloc : Bool) : Option (R5conf d) :=
  let st := c.sh n
  if c.log.logIo n ≠ none ∨ st.parity.wantwrite = false ∨ st.syncing = true then
    some (issueWrites (c.modify n fun st => { st with logTrapped := false }) n)
  else
    let writeDisks := st.dataPages + if st.parity.inJournal then 0 else c.maxDegraded
    logOrWait (c.modify n fun st => { st with logTrapped := true }) n writeDisks c.maxDegraded
      preflush fua alloc

def r5cCacheData (preflush fua alloc : Bool) : Option (R5conf d) :=
  let pages := (List.finRange d).countP fun i => ((c.sh n).dev i).wantwrite
  logOrWait c n pages 0 preflush fua alloc

def opsRunIo (preflush fua alloc : Bool) : Option (R5conf d) :=
  if !(c.sh n).caching then r5lWriteStripe c n preflush fua alloc
  else if (c.sh n).logTrapped then r5cCacheData c n preflush fua alloc
  else some (issueWrites c n)

def opsComplete : R5conf d :=
  doReleaseStripe (c.modify n fun st => { st with reconstruct := .drainResult, handle := true }) n

/-- The last of the stripe's writes to the member disks has ended. -/
def endWrites : R5conf d :=
  doReleaseStripe (c.modify n fun st =>
    { st.mapDev fun dev =>
        if dev.writing then { dev with writing := false, locked := false, behind := [] } else
          dev with
      parity := { st.parity with locked := false }
      handle := true }) n

/-! ## Reclaim -/

def r5cFlushStripe : R5conf d :=
  doReleaseStripe (r5cMakeStripeWriteOut (c.modify n fun st => { st with handle := true }) n) n

def r5cCalculateNewCp : Pos :=
  if !r5cIsWriteback c then c.nextCheckpoint
  else
    match c.stripeInJournalList.head? with
    | none => c.nextCheckpoint
    | some n => ((c.sh n).logStart).getD c.nextCheckpoint

def r5lReclaimableSpace : Nat :=
  r5lRingDistance c c.lastCheckpoint.sector (r5cCalculateNewCp c).sector

def maxFreeSpace : Nat := min (c.deviceSize / 4) (10 * 1024 * 1024 * 2)

def waitingForSpace : Bool :=
  decide (∃ n < c.nrStripes, (c.sh n).place = .noSpace)

def r5lDoReclaimEnter : R5conf d :=
  { c with
    reclaimTarget := 0
    reclaim := .waiting c.reclaimTarget
      (decide (r5lReclaimableSpace c > maxFreeSpace c) || decide (c.reclaimTarget ≠ 0) ||
        waitingForSpace c) }

/-- The wait is over: enough can be reclaimed, or nothing is left to wait for. -/
def reclaimReady (target : Nat) : Bool :=
  decide (r5lReclaimableSpace c ≥ target) ||
    (c.log.runningIos.isEmpty && c.log.ioEndIos.isEmpty && c.log.flushingIos.isEmpty &&
      c.log.finishedIos.isEmpty)

def r5lWriteSuper (cp : Pos) : R5conf d := { c with journalTail := cp }

def r5lDoReclaimPick (writeSuper : Bool) : R5conf d :=
  if r5lReclaimableSpace c = 0 ∨ writeSuper = false then { c with reclaim := .idle }
  else { r5lWriteSuper c (r5cCalculateNewCp c) with reclaim := .writing (r5cCalculateNewCp c) }

def r5lDoReclaimDone (cp : Pos) : R5conf d :=
  { r5cUpdateLogState { c with lastCheckpoint := cp } with reclaim := .idle }

def r5lHandleFlushRequest (alloc : Bool) : R5conf d :=
  if r5cIsWriteback c then takeBlocks c (Journal.r5lHandleFlushRequest c.log alloc) 0 else c

/-! ## Switching the mode -/

/-- `mddev_suspend` has returned: no request is accepted and all have ended. -/
def Suspended : Prop :=
  c.suspended = true ∧
    ∀ n < c.nrStripes, ∀ i, ((c.sh n).dev i).towrite = 0 ∧ ((c.sh n).dev i).written = 0

instance : Decidable (Suspended c) := by unfold Suspended; infer_instance

def setMode (writeBack : Bool) : R5conf d :=
  { c with log := { c.log with writeBack := writeBack } }

def r5cJournalModeSet (writeBack degraded : Bool) : R5conf d :=
  if degraded && writeBack then c else setMode c writeBack

/-! ## The machine -/

/-- What the log device and the threads behind it do on their own. -/
inductive LogEvent where
  | writeStripeRun
  | doSubmitIo (u : Nat)
  | submitIoAsync
  | logEndio (u : Nat)
  | logEndioTail (u : Nat)
  | flushStripeToRaid
  | submitFlush
  | logFlushEndio
deriving DecidableEq, Repr

def LogEvent.toEvent : LogEvent → Journal.Event
  | .writeStripeRun => .writeStripeRun
  | .doSubmitIo u => .doSubmitIo u
  | .submitIoAsync => .submitIoAsync
  | .logEndio u => .logEndio u
  | .logEndioTail u => .logEndioTail u
  | .flushStripeToRaid => .flushStripeToRaid
  | .submitFlush => .submitFlush
  | .logFlushEndio => .logFlushEndio

inductive Event (d : Nat) where
  | addBio (n : Nat) (i : Fin d) (covers : Bool)
  | requestSync (n : Nat)
  | handleStart (n : Nat) (blocked : Bool)
  | handleReturn (n : Nat) (clean : Bool)
  | handleFinish (n : Nat) (degradedRead alloc : Bool)
  | handleWrite (n : Nat) (failed counted ready : Bool) (drain : Fin d → Bool)
  | handleIo (n : Nat) (preflush fua alloc : Bool)
  | opsComplete (n : Nat)
  | endWrites (n : Nat)
  | runWaiting (n : Nat)
  | log (e : LogEvent)
  | flushRequest (alloc : Bool)
  | flushStripe (n : Nat)
  | wakeReclaim (space : Nat)
  | reclaimEnter
  | reclaimPick
  | reclaimDone
  | superStart
  | superDone
  | setQuiesce (quiesce : Bool)
  | suspend
  | resume
  | journalModeStore (writeBack degraded : Bool)
  | disableWritebackAsync

/-- A stripe-head event of a stripe in the cache, at the place it needs. -/
def at? (p : Place → Bool) (next : Option (R5conf d)) : Option (R5conf d) :=
  if n < c.nrStripes ∧ p (c.sh n).place = true then next else none

def step : Event d → Option (R5conf d)
  | .addBio n i covers =>
    at? c n (fun _ => !c.suspended) (some (addStripeBio c n i covers))
  | .requestSync n => at? c n (fun _ => true) (some (requestSync c n))
  | .handleStart n blocked => at? c n (· == .handleList) (some (handleStart c n blocked))
  | .handleReturn n clean =>
    at? c n (fun _ => true) <|
      match (c.sh n).place with
      | .handling (.returning s) => some (handleReturn c n s clean)
      | _ => none
  | .handleFinish n degradedRead alloc =>
    at? c n (fun _ => true) <|
      match (c.sh n).place with
      | .handling (.finishing s) => some (handleFinish c n s degradedRead alloc)
      | _ => none
  | .handleWrite n failed counted ready drain =>
    at? c n (fun _ => true) <|
      match (c.sh n).place with
      | .handling (.writing s) => some (handleWrite c n s failed counted ready drain)
      | _ => none
  | .handleIo n preflush fua alloc =>
    at? c n (· == .handling .io) (opsRunIo c n preflush fua alloc)
  | .opsComplete n => at? c n (· == .opsRunning) (some (opsComplete c n))
  | .endWrites n => at? c n (· == .memberWrites) (some (endWrites c n))
  | .runWaiting n =>
    at? c n (· == .noSpace)
      (some (doReleaseStripe (c.modify n fun st => { st with handle := true }) n))
  | .log e => (Journal.step c.log e.toEvent).map (runLog c)
  | .flushRequest alloc => some (r5lHandleFlushRequest c alloc)
  | .flushStripe n =>
    at? c n (fun p => p == .fullStripeList || p == .partialStripeList) (some (r5cFlushStripe c n))
  | .wakeReclaim space => some (r5lWakeReclaim c space)
  | .reclaimEnter => if c.reclaim = .idle then some (r5lDoReclaimEnter c) else none
  | .reclaimPick =>
    match c.reclaim with
    | .waiting target writeSuper =>
      if reclaimReady c target then some (r5lDoReclaimPick c writeSuper) else none
    | _ => none
  | .reclaimDone =>
    match c.reclaim with
    | .writing cp => some (r5lDoReclaimDone c cp)
    | _ => none
  | .superStart =>
    if c.superWriting = none then some { c with superWriting := some c.journalTail } else none
  | .superDone =>
    c.superWriting.map fun tail => { c with superWriting := none, durableTail := tail }
  | .setQuiesce quiesce => some { c with quiesce := quiesce }
  | .suspend => some { c with suspended := true }
  | .resume => some { c with suspended := false }
  | .journalModeStore writeBack degraded =>
    if Suspended c then some (r5cJournalModeSet c writeBack degraded) else none
  | .disableWritebackAsync => if Suspended c then some (setMode c false) else none

/-! ## The start -/

def idleDev : Dev := ⟨0, false, 0, false, false, false, false, []⟩

def idleStripe (d : Nat) : StripeHead d where
  dev := fun _ => idleDev
  parity := ⟨false, false, false⟩
  caching := false
  partialStripe := false
  fullStripe := false
  logTrapped := false
  handle := false
  syncRequested := false
  syncing := false
  reconstruct := .idle
  place := .inactiveList
  logStart := none

/-- The parameters of an array with a log. -/
structure Setup where
  deviceSize : Nat
  maxDegraded : Nat
  groupCnt : Nat
  nrStripes : Nat
  needCacheFlush : Bool
  writeBack : Bool
  /-- Where the tail is: an empty meta block with nothing behind it. -/
  tail : Nat
deriving Repr

/-- The log has been loaded and is empty, and the superblock is on the disks. -/
def R5conf.loaded (d : Nat) (p : Setup) : R5conf d where
  deviceSize := p.deviceSize
  maxDegraded := p.maxDegraded
  groupCnt := p.groupCnt
  nrStripes := p.nrStripes
  log := { R5lLog.start p.writeBack with needCacheFlush := p.needCacheFlush }
  start := fun _ => ⟨p.tail, p.tail⟩
  logStart := Pos.advance p.deviceSize blockSectors ⟨p.tail, p.tail⟩
  lastCheckpoint := ⟨p.tail, p.tail⟩
  nextCheckpoint := ⟨p.tail, p.tail⟩
  journalTail := ⟨p.tail, p.tail⟩
  superWriting := none
  durableTail := ⟨p.tail, p.tail⟩
  reclaimTarget := 0
  reclaim := .idle
  logTight := false
  logCritical := false
  sh := fun _ => idleStripe d
  stripeInJournalList := []
  suspended := false
  quiesce := false
  bug := false

end MdRaid.Journal.WriteBack
