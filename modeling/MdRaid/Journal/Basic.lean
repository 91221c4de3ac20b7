import MdRaid.Lib.Runs

/-!
# The journal's io units

Stripes, flush requests and flush payloads are collected in io units, each written
to the log device by one bio. Units wait in the order of their creation on
`running_ios`; a finished write moves the finished front of that list on, either to
wait for a flush of the log device or, when the unit that just finished carries no
stripe, straight to `finished_ios`. Releasing a unit's stripes lets their writes to
the member disks start.

Every region under `io_list_lock` is one event; events of different contexts
interleave freely. Three fields record what the device has seen: the completed units,
and for each cache flush the units that had completed when it was issued.
-/

namespace MdRaid.Journal

open Function

inductive IoUnitState where
  | running
  | ioStart
  | ioEnd
  | stripeEnd
deriving DecidableEq, Repr

structure IoUnit where
  metaOffset : Nat
  pendingStripe : Nat
  stripeList : List Nat
  state : IoUnitState
  hasFlush : Bool
  hasFua : Bool
  hasNullFlush : Bool
  hasFlushPayload : Bool
  ioDeferred : Bool
  /-- Size-zero flush bios waiting for this unit. -/
  flushBarriers : Nat
  /-- Chosen for submission; `r5l_do_submit_io` has not run yet. -/
  submitting : Bool
  /-- `r5l_log_endio` has dropped the lock and still has to finish flush bios. -/
  endioTail : Bool
  /-- The units completed when this unit's bio was submitted. -/
  issued : List Nat
deriving Repr

/-- At or past `IO_UNIT_IO_END`. -/
def IoUnit.ended (io : IoUnit) : Bool :=
  match io.state with
  | .running | .ioStart => false
  | .ioEnd | .stripeEnd => true

/-- The flush bio of the log: not in use, about to be submitted for the units just
moved to `flushing_ios`, or submitted. -/
inductive FlushBio where
  | idle
  | chosen
  | inFlight (issued : List Nat)
deriving DecidableEq, Repr

/-- A stripe handed back to the stripe machine, with what the device had seen then. -/
structure Release where
  stripe : Nat
  unit : Nat
  completed : List Nat
  flushed : List (List Nat)
deriving DecidableEq, Repr

structure R5lLog where
  needCacheFlush : Bool
  writeBack : Bool
  seq : Nat
  currentIo : Option Nat
  unit : Nat → IoUnit
  runningIos : List Nat
  ioEndIos : List Nat
  flushingIos : List Nat
  finishedIos : List Nat
  flushBio : FlushBio
  /-- The unit a stripe was logged in, until its write to the array has finished. -/
  logIo : Nat → Option Nat
  completed : List Nat
  flushed : List (List Nat)
  releases : List Release

def pageSize : Nat := 4096

def metaBlockSize : Nat := 32

def payloadDataParitySize : Nat := 16

def payloadFlushSize : Nat := 16

def checksumSize : Nat := 4

def newIoUnit : IoUnit where
  metaOffset := metaBlockSize
  pendingStripe := 0
  stripeList := []
  state := .running
  hasFlush := false
  hasFua := false
  hasNullFlush := false
  hasFlushPayload := false
  ioDeferred := false
  flushBarriers := 0
  submitting := false
  endioTail := false
  issued := []

/-- An empty log on a device with a volatile cache. -/
def R5lLog.start (writeBack : Bool) : R5lLog where
  needCacheFlush := true
  writeBack := writeBack
  seq := 0
  currentIo := none
  unit := fun _ => newIoUnit
  runningIos := []
  ioEndIos := []
  flushingIos := []
  finishedIos := []
  flushBio := .idle
  logIo := fun _ => none
  completed := []
  flushed := []
  releases := []

variable (log : R5lLog)

def R5lLog.modifyUnit (u : Nat) (f : IoUnit → IoUnit) : R5lLog :=
  { log with unit := update log.unit u (f (log.unit u)) }

/-! ## Filling and submitting units -/

def r5lNewMeta : R5lLog :=
  { log with
    unit := update log.unit log.seq newIoUnit
    seq := log.seq + 1
    runningIos := log.runningIos ++ [log.seq]
    currentIo := some log.seq }

/-- A unit with a flush or a FUA request waits until it is the first on the list. -/
def r5lSubmitCurrentIo : R5lLog :=
  match log.currentIo with
  | none => log
  | some u =>
    let io := log.unit u
    let wait := (io.hasFlush || io.hasFua) && decide (log.runningIos.head? ≠ some u)
    { log with currentIo := none }.modifyUnit u fun io =>
      if wait then { io with ioDeferred := true } else { io with submitting := true }

/-- A current unit without room for `size` more bytes of metadata is submitted. -/
def r5lMakeRoom (size : Nat) : R5lLog :=
  match log.currentIo with
  | some u => if (log.unit u).metaOffset + size > pageSize then r5lSubmitCurrentIo log else log
  | none => log

/-- There is no current unit afterwards if a new one is needed and cannot be allocated. -/
def r5lGetMeta (size : Nat) (alloc : Bool) : R5lLog :=
  let log := r5lMakeRoom log size
  if log.currentIo.isNone && alloc then r5lNewMeta log else log

/-- `preflush` and `fua` say whether the stripe carries `STRIPE_R5C_PREFLUSH`, and data
with `R5_WantFUA`. -/
def r5lLogStripe (sh dataPages parityPages : Nat) (preflush fua alloc : Bool) : R5lLog :=
  let size := (payloadDataParitySize + checksumSize) * dataPages + payloadDataParitySize +
    checksumSize * parityPages
  let log := r5lGetMeta log size alloc
  match log.currentIo with
  | none => log
  | some u =>
    { log with logIo := update log.logIo sh (some u) }.modifyUnit u fun io =>
      { io with
        hasFlush := io.hasFlush || preflush || (fua && log.writeBack)
        hasFua := io.hasFua || (fua && log.writeBack)
        metaOffset := io.metaOffset + (payloadDataParitySize + checksumSize) * dataPages +
          (if parityPages = 0 then 0 else payloadDataParitySize + checksumSize * parityPages)
        stripeList := io.stripeList ++ [sh]
        pendingStripe := io.pendingStripe + 1 }

def r5lAppendFlushPayload (alloc : Bool) : R5lLog :=
  let log := r5lGetMeta log payloadFlushSize alloc
  match log.currentIo with
  | none => log
  | some u =>
    log.modifyUnit u fun io =>
      { io with
        metaOffset := io.metaOffset + payloadFlushSize
        hasFlushPayload := true
        pendingStripe := if io.hasFlushPayload then io.pendingStripe else io.pendingStripe + 1 }

/-- A flush request without data, in write-back mode. -/
def r5lHandleFlushRequest (alloc : Bool) : R5lLog :=
  let log := r5lGetMeta log 0 alloc
  match log.currentIo with
  | none => log
  | some u =>
    r5lSubmitCurrentIo (log.modifyUnit u fun io =>
      { io with
        flushBarriers := io.flushBarriers + 1
        hasFlush := true
        hasNullFlush := true
        pendingStripe := io.pendingStripe + 1 })

/-- The bio goes to the device. -/
def r5lDoSubmitIo (u : Nat) : R5lLog :=
  log.modifyUnit u fun io =>
    { io with state := .ioStart, submitting := false, issued := log.completed }

/-- Dispatch of a deferred unit that has become the first. -/
def r5lSubmitIoAsync : R5lLog :=
  match log.runningIos.head? with
  | none => log
  | some u =>
    if (log.unit u).ioDeferred then
      log.modifyUnit u fun io => { io with ioDeferred := false, submitting := true }
    else log

/-! ## Completion -/

def r5lIoRunStripes (u : Nat) : R5lLog :=
  { log with
    releases := log.releases ++
      (log.unit u).stripeList.map fun sh => Release.mk sh u log.completed log.flushed }.modifyUnit u
    fun io => { io with stripeList := [] }

/-- The finished front of `running_ios`. -/
def R5lLog.endedFront : List Nat :=
  log.runningIos.takeWhile fun u => (log.unit u).ended

def R5lLog.dropEndedFront : R5lLog :=
  { log with runningIos := log.runningIos.dropWhile fun u => (log.unit u).ended }

def r5lLogRunStripes : R5lLog :=
  log.endedFront.foldl r5lIoRunStripes
    { log.dropEndedFront with finishedIos := log.finishedIos ++ log.endedFront }

def r5lMoveToEndIos : R5lLog :=
  { log.dropEndedFront with ioEndIos := log.ioEndIos ++ log.endedFront }

/-- The device reports the unit's bio complete, and with it the flush the bio asked for. -/
def bioEnd (u : Nat) : R5lLog :=
  { log with
    completed := u :: log.completed
    flushed := if (log.unit u).hasFlush then (log.unit u).issued :: log.flushed else log.flushed
  }.modifyUnit u fun io =>
    { io with state := .ioEnd, endioTail := io.hasNullFlush || io.hasFlushPayload }

def r5lLogEndio (u : Nat) : R5lLog :=
  let ended := bioEnd log u
  if log.needCacheFlush && !(log.unit u).stripeList.isEmpty then r5lMoveToEndIos ended
  else r5lLogRunStripes ended

def r5lCompleteFinishedIos : R5lLog :=
  { log with
    finishedIos := log.finishedIos.dropWhile fun u => decide ((log.unit u).state = .stripeEnd) }

/-- `n` of the unit's pending stripes are done. -/
def decPending (u n : Nat) : R5lLog :=
  let left := (log.unit u).pendingStripe - n
  let log := log.modifyUnit u fun io => { io with pendingStripe := left }
  if left = 0 then
    r5lCompleteFinishedIos (log.modifyUnit u fun io => { io with state := .stripeEnd })
  else log

/-- What `r5l_log_endio` does after dropping the lock: the flush bios and the flush
payload count as pending stripes. -/
def r5lLogEndioTail (u : Nat) : R5lLog :=
  let io := log.unit u
  decPending (log.modifyUnit u fun io => { io with endioTail := false, flushBarriers := 0 }) u
    (io.flushBarriers + if io.hasFlushPayload then 1 else 0)

def r5lStripeWriteFinished (sh : Nat) : R5lLog :=
  match log.logIo sh with
  | none => log
  | some u => decPending { log with logIo := update log.logIo sh none } u 1

/-- The completed units are set apart; the flush bio follows outside the lock. -/
def r5lFlushStripeToRaid : R5lLog :=
  if !log.needCacheFlush || !log.flushingIos.isEmpty then log
  else
    { log with
      flushingIos := log.ioEndIos
      ioEndIos := []
      flushBio := if log.ioEndIos.isEmpty then log.flushBio else .chosen }

def r5lLogFlushEndio (issued : List Nat) : R5lLog :=
  let log := { log with flushed := issued :: log.flushed }
  log.flushingIos.foldl r5lIoRunStripes
    { log with
      flushingIos := []
      finishedIos := log.finishedIos ++ log.flushingIos
      flushBio := .idle }

/-! ## The machine -/

inductive Event where
  | logStripe (sh dataPages parityPages : Nat) (preflush fua alloc : Bool)
  | appendFlushPayload (alloc : Bool)
  | handleFlushRequest (alloc : Bool)
  | writeStripeRun
  | doSubmitIo (u : Nat)
  | submitIoAsync
  | logEndio (u : Nat)
  | logEndioTail (u : Nat)
  | flushStripeToRaid
  | submitFlush
  | logFlushEndio
  | stripeWriteFinished (sh : Nat)
deriving DecidableEq, Repr

/-- `none` for an event that cannot happen: a stripe is logged once at a time, a bio
completes once after its submission, and a stripe's write to the array finishes only
after the stripe was released. -/
def step : Event → Option R5lLog
  | .logStripe sh dataPages parityPages preflush fua alloc =>
    if log.logIo sh = none then
      some (r5lLogStripe log sh dataPages parityPages preflush fua alloc)
    else none
  | .appendFlushPayload alloc => some (r5lAppendFlushPayload log alloc)
  | .handleFlushRequest alloc =>
    if log.writeBack then some (r5lHandleFlushRequest log alloc) else none
  | .writeStripeRun => some (r5lSubmitCurrentIo log)
  | .doSubmitIo u => if (log.unit u).submitting then some (r5lDoSubmitIo log u) else none
  | .submitIoAsync => some (r5lSubmitIoAsync log)
  | .logEndio u => if (log.unit u).state = .ioStart then some (r5lLogEndio log u) else none
  | .logEndioTail u => if (log.unit u).endioTail then some (r5lLogEndioTail log u) else none
  | .flushStripeToRaid => some (r5lFlushStripeToRaid log)
  | .submitFlush =>
    if log.flushBio = .chosen then some { log with flushBio := .inFlight log.completed } else none
  | .logFlushEndio =>
    match log.flushBio with
    | .inFlight issued => some (r5lLogFlushEndio log issued)
    | _ => none
  | .stripeWriteFinished sh =>
    if (log.logIo sh).any fun u => (log.unit u).stripeList.contains sh then none
    else some (r5lStripeWriteFinished log sh)

end MdRaid.Journal
