import MdRaid.Lib.Runs
import MdRaid.Stripe.Recovery

/-!
# Checking and repairing the parity of a stripe

A stripe that is being synced is handled again and again: blocks are read, the
blocks of failed devices are computed, the parity is checked, and what has to be
written is marked, until `STRIPE_INSYNC` is set. Between two passes of
`handle_stripe` the reads, checks and computations it started complete in any
order. The stripe has no pending requests and no journal, and its devices do not
change while it is driven. A `BUG_ON` that fires is the result `none`.

The start of a read by `ops_run_io` and its end are one event. Passes may come at
any time, so `STRIPE_HANDLE` is left out.
-/

namespace MdRaid.Stripe

open MdRaid.Geometry Loops Syndrome GF256

/-! ## The state -/

/-- `enum check_states`. -/
inductive CheckState : Type where
  | idle
  | run
  | runQ
  | runPQ
  | checkResult
  | computeRun
  | computeResult
deriving DecidableEq, Repr

/-- The parts of the array the passes read. -/
structure SyncConf where
  level : Level
  fetch : FetchConf
  tx : AsyncTx

/-- A stripe being synced: the stripe head with its check state, the two bits of
`zero_sum_result`, `STRIPE_INSYNC` and `STRIPE_DEGRADED`; `MD_RECOVERY_CHECK` and the count of
mismatches of the array; and what the devices hold. -/
structure SyncStripe where
  sh : StripeHead
  checkState : CheckState
  zeroSumP : Bool
  zeroSumQ : Bool
  insync : Bool
  degraded : Bool
  check : Bool
  resyncMismatches : Nat
  disk : Nat → Page

namespace StripeHead

/-- The devices with a flag. -/
def devs (sh : StripeHead) (f : DevFlags → Bool) : Finset Nat :=
  (Finset.range sh.disks).filter fun i => f (sh.dev i).flags = true

/-- The devices that are not `R5_Insync`, in the order `analyse_stripe` meets them. -/
def failedDevs (sh : StripeHead) : List Nat :=
  (down sh.disks).filter fun i => !(sh.dev i).flags.insync

def clearUptodate (sh : StripeHead) (i : Nat) : StripeHead :=
  sh.modifyFlags i fun f => { f with uptodate := false }

/-- `R5_LOCKED` and `R5_Wantwrite` set. -/
def wantWrite (sh : StripeHead) (i : Nat) : StripeHead :=
  sh.modifyFlags i fun f => { f with locked := true, wantwrite := true }

/-- `R5_LOCKED` and `R5_Wantwrite` cleared again. -/
def unwantWrite (sh : StripeHead) (i : Nat) : StripeHead :=
  sh.modifyFlags i fun f => { f with locked := false, wantwrite := false }

end StripeHead

/-! ## Counting and filling -/

/-- The counts `analyse_stripe` takes of a stripe that is syncing. -/
def countStripe (sh : StripeHead) : StripeHeadState where
  syncing := true
  expanding := false
  replacing := false
  locked := (sh.devs (·.locked)).card
  uptodate := (uptodateDevs sh).card
  toWrite := ((Finset.range sh.disks).filter fun i => !(sh.dev i).towrite.isEmpty).card
  failed := sh.failedDevs.length
  failedNum0 := (sh.failedDevs[0]?.map Int.ofNat).getD (-1)
  failedNum1 := (sh.failedDevs[1]?.map Int.ofNat).getD (-1)
  reqCompute := false
  opComputeBlk := false

def analyseStripe (sh : StripeHead) : Option StripeHeadState :=
  if (sh.devs (·.wantcompute)).card > 2 then none else some (countStripe sh)

/-- The loop of `handle_stripe_fill`. -/
def fillLoop (conf : FetchConf) (disks : Nat) :
    List Nat → StripeHead → StripeHeadState → Option (StripeHead × StripeHeadState)
  | [], sh, s => some (sh, s)
  | i :: is, sh, s => (fetchBlock conf sh s i disks).bind fun f =>
    if f.stop then some (f.sh, f.s) else fillLoop conf disks is f.sh f.s

def handleStripeFill (conf : FetchConf) (checkState : CheckState) (sh : StripeHead)
    (s : StripeHeadState) : Option (StripeHead × StripeHeadState) :=
  if !sh.computeRun && decide (checkState = .idle) && decide (sh.reconstructState = .idle) then
    fillLoop conf sh.disks (down sh.disks) sh s
  else some (sh, s)

/-! ## The two state machines -/

/-- What the parity checks return: the stripe, its counts, and `STRIPE_OP_CHECK`. -/
structure Checks where
  st : SyncStripe
  s : StripeHeadState
  opCheck : Bool

variable (st : SyncStripe) (s : StripeHeadState)

/-- `check_state_compute_result` of level 5, for the device to write. -/
def writeResult5 (dev : Nat) : Option Checks :=
  if st.insync then some ⟨{ st with checkState := .idle }, s, false⟩
  else if !(st.sh.dev dev).flags.uptodate || decide (s.uptodate ≠ st.sh.disks) then none
  else some ⟨{ st with
      checkState := .idle, sh := st.sh.wantWrite dev, degraded := false, insync := true },
    { s with locked := s.locked + 1 }, false⟩

/-- `STRIPE_SECTORS` more in `resync_mismatches`. -/
def SyncStripe.mismatch : SyncStripe :=
  { st with resyncMismatches := st.resyncMismatches + 8 }

/-- `check_state_check_result` of level 5. -/
def checkResult5 : Checks :=
  if s.failed ≠ 0 then ⟨{ st with checkState := .idle }, s, false⟩
  else if !st.zeroSumP then ⟨{ st with checkState := .idle, insync := true }, s, false⟩
  else if st.check then
    ⟨{ st.mismatch with checkState := .idle, insync := true }, s, false⟩
  else
    ⟨{ st.mismatch with
        checkState := .computeRun
        sh := { st.sh.wantCompute st.sh.pd with
          computeRun := true, target := st.sh.idx.pdIdx, target2 := -1 } },
      { s with opComputeBlk := true, uptodate := s.uptodate + 1 }, false⟩

def handleParityChecks5 : Option Checks :=
  if st.sh.batchHead then none
  else match st.checkState with
    | .idle =>
      if s.failed = 0 then
        if s.uptodate ≠ st.sh.disks then none
        else some ⟨{ st with checkState := .run, sh := st.sh.clearUptodate st.sh.pd },
          { s with uptodate := s.uptodate - 1 }, true⟩
      else writeResult5 st s s.failedNum0.toNat
    | .computeResult => writeResult5 st s st.sh.pd
    | .run => some ⟨st, s, false⟩
    | .checkResult => some (checkResult5 st s)
    | .computeRun => some ⟨st, s, false⟩
    | .runQ => none
    | .runPQ => none

/-- `s->q_failed` of a level-6 stripe. -/
def qFailed (sh : StripeHead) (s : StripeHeadState) : Bool :=
  (decide (s.failed ≥ 1) && decide (s.failedNum0 = sh.idx.qdIdx)) ||
    (decide (s.failed ≥ 2) && decide (s.failedNum1 = sh.idx.qdIdx))

/-- The blocks level 6 writes back, in the order they are marked: those of failed devices, then
`P` and `Q` if they were recomputed. -/
def writeBack6 : List Nat :=
  (if s.failed = 2 then [s.failedNum1.toNat] else []) ++
    (if s.failed ≥ 1 then [s.failedNum0.toNat] else []) ++
    (if st.zeroSumP then [st.sh.pd] else []) ++ (if st.zeroSumQ then [st.sh.qd] else [])

/-- The `WARN_ONCE` looks at the last device marked only. -/
def warnNotUptodate (sh : StripeHead) (last : Option Nat) : StripeHead :=
  match last with
  | none => sh
  | some i => if (sh.dev i).flags.uptodate then sh else sh.unwantWrite i

/-- `check_state_compute_result` of level 6. -/
def writeResult6 : Checks :=
  if st.insync then ⟨{ st with checkState := .idle }, s, false⟩
  else
    let marks := writeBack6 st s
    ⟨{ st with
        checkState := .idle
        sh := warnNotUptodate (marks.foldl StripeHead.wantWrite st.sh) marks.getLast?
        degraded := false
        insync := true },
      { s with locked := s.locked + marks.length }, false⟩

/-- The state `check_state_idle` goes to on level 6. -/
def startCheck6 (sh : StripeHead) (s : StripeHeadState) : CheckState :=
  let checkP := decide (s.failed = (qFailed sh s).toNat)
  if !qFailed sh s && decide (s.failed < 2) then if checkP then .runPQ else .runQ
  else if checkP then .run else .idle

/-- The targets of a repair of `P`, of `Q` or of both. -/
def repairTargets : Int × Int :=
  if st.zeroSumP then (st.sh.idx.pdIdx, if st.zeroSumQ then st.sh.idx.qdIdx else -1)
  else (if st.zeroSumQ then st.sh.idx.qdIdx else -1, -1)

/-- `R5_Wantcompute` on the parity blocks that do not match. -/
def wantRepair : StripeHead :=
  let sh := if st.zeroSumP then st.sh.wantCompute st.sh.pd else st.sh
  if st.zeroSumQ then sh.wantCompute sh.qd else sh

/-- `check_state_check_result` of level 6. -/
def checkResult6 : Checks :=
  if !st.zeroSumP && !st.zeroSumQ then
    if s.failed = 0 then ⟨{ st with checkState := .idle, insync := true }, s, false⟩
    else ⟨{ st with checkState := .computeResult }, s, false⟩
  else if st.check then
    ⟨{ st.mismatch with checkState := .idle, insync := true }, s, false⟩
  else
    ⟨{ st.mismatch with
        checkState := .computeRun
        sh := { wantRepair st with
          computeRun := true, target := (repairTargets st).1, target2 := (repairTargets st).2 } },
      { s with
        opComputeBlk := true
        uptodate := s.uptodate + st.zeroSumP.toNat + st.zeroSumQ.toNat }, false⟩

def handleParityChecks6 : Option Checks :=
  if st.sh.batchHead || decide (s.failed > 2) then none
  else match st.checkState with
    | .idle =>
      -- discard a potentially stale `zero_sum_result`
      let st := { st with zeroSumP := false, zeroSumQ := false }
      match startCheck6 st.sh s with
      | .run =>
        -- `async_xor_zero_sum` destroys the contents of `P`
        some ⟨{ st with checkState := .run, sh := st.sh.clearUptodate st.sh.pd },
          { s with uptodate := s.uptodate - 1 }, true⟩
      | .idle => if s.failed ≠ 2 then none else some (writeResult6 st s)
      | start => some ⟨{ st with checkState := start }, s, true⟩
    | .computeResult => some (writeResult6 st s)
    | .run => some ⟨st, s, false⟩
    | .runQ => some ⟨st, s, false⟩
    | .runPQ => some ⟨st, s, false⟩
    | .checkResult => some (checkResult6 st s)
    | .computeRun => some ⟨st, s, false⟩

def handleParityChecks (level : Level) (st : SyncStripe) (s : StripeHeadState) : Option Checks :=
  if level = .raid6 then handleParityChecks6 st s else handleParityChecks5 st s

/-! ## The operations -/

/-- The look at every byte of a page that `async_xor_val` ends with. -/
def pageIsZero (p : Page) : Bool := (List.finRange 4096).all fun i => decide (p i = 0)

/-- `async_xor_val_offs` adds the data to `P` and looks whether anything is left. -/
def opsRunCheckP (tx : AsyncTx) (sh : StripeHead) : Option (StripeHead × Bool) :=
  if sh.batchHead then none
  else
    (asyncXor tx sh .dropDst (.page sh.pd) (.page sh.pd :: pagesBut sh sh.isParity)).map fun sh' =>
      (sh', !pageIsZero (sh'.dataPage sh.pd))

/-- `async_syndrome_val`: the bits of `P` and of `Q`, either of which may be left out. -/
def asyncSyndromeVal (tx : AsyncTx) (sh : StripeHead) (blocks : Blocks) (disks : Nat) :
    Option (Bool × Bool) :=
  let k := disks - 2
  let pq := tx.genSyndrome k (slotPage sh blocks)
  if disks < 4 ∨ disks > tx.maxDisks then none
  else some
    ((blocks k).any fun p => decide (sh.load p ≠ pq.1),
      (blocks (k + 1)).any fun q => decide (sh.load q ≠ pq.2))

def opsRunCheckPQ (tx : AsyncTx) (sh : StripeHead) (checkp : Bool) : Option (Bool × Bool) :=
  if sh.batchHead then none
  else
    let count := syndromeDisks sh.toStripeHead
    let srcs := setSyndromeSources sh .all
    asyncSyndromeVal tx sh (if checkp then srcs else Function.update srcs count none) (count + 2)

/-- The branch of `raid_run_ops` for `STRIPE_OP_CHECK`. -/
def raidRunCheck (tx : AsyncTx) (st : SyncStripe) : Option SyncStripe :=
  match st.checkState with
  | .run => (opsRunCheckP tx st.sh).map fun r =>
    { st with sh := r.1, zeroSumP := r.2, zeroSumQ := false }
  | .runQ => (opsRunCheckPQ tx st.sh false).map fun r =>
    { st with zeroSumP := r.1, zeroSumQ := r.2 }
  | .runPQ => (opsRunCheckPQ tx st.sh true).map fun r =>
    { st with zeroSumP := r.1, zeroSumQ := r.2 }
  | _ => none

def raidRunOps (conf : SyncConf) (c : Checks) : Option SyncStripe :=
  (if c.s.opComputeBlk then
      (raidRunCompute conf.tx conf.level c.st.sh).map fun sh => { c.st with sh := sh }
    else some c.st).bind fun st => if c.opCheck then raidRunCheck conf.tx st else some st

/-! ## Passes and completions -/

/-- The parity checks, which are held off while blocks are on their way. -/
def checkParity (conf : SyncConf) (st : SyncStripe) (s : StripeHeadState) : Option Checks :=
  if st.checkState ≠ .idle ∨ (s.locked = 0 ∧ st.sh.computeRun = false ∧ st.insync = false) then
    handleParityChecks conf.level st s
  else some ⟨st, s, false⟩

def handleStripe (conf : SyncConf) (st : SyncStripe) : Option SyncStripe :=
  (analyseStripe st.sh).bind fun s =>
    (if s.uptodate + (st.sh.devs (·.wantcompute)).card < st.sh.disks then
        handleStripeFill conf.fetch st.checkState st.sh s
      else some (st.sh, s)).bind fun r =>
    (checkParity conf { st with sh := r.1 } r.2).bind fun c => raidRunOps conf c

/-- A read that has brought the block of a device in. -/
def SyncStripe.endRead (i : Nat) : SyncStripe :=
  { st with sh := st.sh.modifyDev i fun dev => (dev.setPage (st.disk i)).modifyFlags fun f =>
      { f with uptodate := true, locked := false, wantread := false } }

def SyncStripe.completeCheck : SyncStripe :=
  { st with checkState := .checkResult }

def SyncStripe.completeCompute : Option SyncStripe :=
  (opsCompleteCompute st.sh).map fun sh =>
    { st with
      sh := sh
      checkState := if st.checkState = .computeRun then .computeResult else st.checkState }

inductive SyncEvent : Type where
  | handle
  | endRead (i : Nat)
  | completeCheck
  | completeCompute
deriving DecidableEq, Repr

def CheckState.running : CheckState → Bool
  | .run | .runQ | .runPQ => true
  | _ => false

/-- The stripe is driven until it is in sync. -/
def SyncStripe.step (conf : SyncConf) (st : SyncStripe) : SyncEvent → Option SyncStripe
  | .handle => if st.insync then none else handleStripe conf st
  | .endRead i =>
    if i < st.sh.disks ∧ (st.sh.dev i).flags.wantread = true then some (st.endRead i) else none
  | .completeCheck => if st.checkState.running then some st.completeCheck else none
  | .completeCompute => if st.sh.computeRun then st.completeCompute else none

/-- `STRIPE_SYNC_REQUESTED` is found on a stripe that is not being synced. -/
def SyncStripe.request (check : Bool) : SyncStripe :=
  { st with insync := false, check := check }

/-- What the devices hold once the blocks marked are written. -/
def SyncStripe.written (i : Nat) : Page :=
  if (st.sh.dev i).flags.wantwrite then st.sh.dataPage i else st.disk i

end MdRaid.Stripe
