import MdRaid.Stripe.ParityOps

/-!
# Computing lost blocks

`fetch_block` decides which blocks of a stripe are read and which are computed
from the others; the compute operations carry the computation out. A `BUG_ON`
that fires is the result `none`.
-/

namespace MdRaid.Stripe

open MdRaid.Geometry Loops GF256

/-- The fields of `struct stripe_head_state` that decide about fetching. -/
structure StripeHeadState where
  syncing : Bool
  expanding : Bool
  replacing : Bool
  locked : Nat
  uptodate : Nat
  toWrite : Nat
  failed : Nat
  failedNum0 : Int
  failedNum1 : Int
  reqCompute : Bool
  opComputeBlk : Bool
deriving DecidableEq, Repr

/-- The fields of `struct r5conf` that decide about fetching. `wantReplace` is `want_replace`,
which looks at the replacement devices only. -/
structure FetchConf where
  rmwDisabled : Bool
  recoveryCp : Nat
  wantReplace : Nat → Bool

/-! ## Which block to fetch -/

variable (tx : AsyncTx) (conf : FetchConf) (sh : StripeHead) (s : StripeHeadState)

/-- `s->failed_num[i]`. -/
def StripeHeadState.failedNum (i : Nat) : Int :=
  if i = 0 then s.failedNum0 else s.failedNum1

/-- The failed devices a loop `for (i = 0; i < s->failed && i < 2; i++)` visits. -/
def StripeHeadState.failedSlots : List Nat := List.range (min s.failed 2)

def needThisBlock (diskIdx : Nat) : Bool :=
  let dev := sh.dev diskIdx
  let fdev (i : Nat) : R5dev := sh.dev (s.failedNum i).toNat
  if dev.flags.locked || dev.flags.uptodate then false
  else if !dev.toread.isEmpty || (!dev.towrite.isEmpty && !dev.flags.overwrite) then true
  else if s.syncing || s.expanding || (s.replacing && conf.wantReplace diskIdx) then true
  else if (decide (s.failed ≥ 1) && !(fdev 0).toread.isEmpty) ||
      (decide (s.failed ≥ 2) && !(fdev 1).toread.isEmpty) then true
  else if s.failed = 0 || s.toWrite = 0 then false
  else if dev.flags.insync && !sh.prereadActive then false
  -- the first return of the first loop; the loop raises `force_rcw` on its way there
  else if s.failedSlots.any fun i => !(fdev i).towrite.isEmpty && !(fdev i).flags.uptodate &&
      !(fdev i).flags.overwrite then true
  else
    let forceRcw := conf.rmwDisabled || s.failedSlots.any fun i =>
      decide (s.failed ≥ 2) &&
        (!(fdev i).towrite.isEmpty || decide (s.failedNum i = sh.idx.pdIdx) ||
          decide (s.failedNum i = sh.idx.qdIdx)) && !(fdev i).flags.uptodate
    if !forceRcw && decide (sh.sector < conf.recoveryCp) then false
    else s.failedSlots.any fun i => decide (s.failedNum i ≠ sh.idx.pdIdx) &&
      decide (s.failedNum i ≠ sh.idx.qdIdx) && !(fdev i).flags.uptodate &&
      !(fdev i).flags.overwrite

/-- What `fetch_block` returns: the stripe, its state, and whether to stop looking. -/
structure Fetch where
  sh : StripeHead
  s : StripeHeadState
  stop : Bool

/-- The highest device other than `diskIdx` that is not up to date. -/
def otherNotUptodate (diskIdx disks : Nat) : Option Nat :=
  (down disks).find? fun other => decide (other ≠ diskIdx) && !(sh.dev other).flags.uptodate

def StripeHead.wantCompute (i : Nat) : StripeHead :=
  sh.modifyFlags i fun f => { f with wantcompute := true }

def fetchBlock (diskIdx disks : Nat) : Option Fetch :=
  let dev := sh.dev diskIdx
  if needThisBlock conf sh s diskIdx then
    if dev.flags.wantcompute || dev.flags.wantread || sh.batchHead then none
    else if s.uptodate + 1 = disks ∧
        ((sh.idx.qdIdx ≥ 0 ∧ sh.idx.pdIdx = diskIdx) ∨
          (s.failed ≠ 0 ∧ ((diskIdx : Int) = s.failedNum0 ∨ (diskIdx : Int) = s.failedNum1))) then
      some ⟨{ sh.wantCompute diskIdx with computeRun := true, target := diskIdx, target2 := -1 },
        { s with opComputeBlk := true, reqCompute := true, uptodate := s.uptodate + 1 }, true⟩
    else if s.uptodate + 2 = disks ∧ s.failed ≥ 2 then
      match otherNotUptodate sh diskIdx disks with
      | none => none
      | some other =>
        some ⟨{ (sh.wantCompute diskIdx).wantCompute other with
            computeRun := true, target := diskIdx, target2 := other },
          { s with opComputeBlk := true, reqCompute := true, uptodate := s.uptodate + 2 },
          true⟩
    else if dev.flags.insync then
      some ⟨sh.modifyFlags diskIdx fun f => { f with locked := true, wantread := true },
        { s with locked := s.locked + 1 }, false⟩
    else some ⟨sh, s, false⟩
  else some ⟨sh, s, false⟩

/-! ## The compute operations -/

/-- The pages of all devices but those left out, highest first. -/
def pagesBut (leave : Nat → Bool) : List PagePtr :=
  (down sh.disks).filterMap fun i => if !leave i then some (.page i) else none

def opsRunCompute5 : Option StripeHead :=
  let target := sh.target.toNat
  if sh.batchHead || !(sh.dev target).flags.wantcompute then none
  else xorOrCopy tx sh .zeroDst (.page target) (pagesBut sh fun i => decide (i = target))

def opsRunCompute6One : Option StripeHead :=
  if sh.batchHead then none
  else if sh.target ≥ 0 ∧ sh.target2 ≥ 0 then none
  else
    let target := if sh.target < 0 then sh.target2 else sh.target
    if target < 0 then none
    else
      let tgt := target.toNat
      if !(sh.dev tgt).flags.wantcompute then none
      else if target = sh.idx.qdIdx then
        let count := syndromeDisks sh.toStripeHead
        -- regenerating p is not necessary
        let blocks := Function.update (setSyndromeSources sh .all) count none
        if blocks (count + 1) ≠ some (.page tgt) then none
        else asyncGenSyndrome tx sh blocks (count + 2) false
      else
        asyncXor tx sh .zeroDst (.page tgt)
          (pagesBut sh fun i => decide (i = tgt) || decide ((i : Int) = sh.idx.qdIdx))

/-- The walk of `ops_run_compute6_2`, which enters every device. -/
def computeBlocks : Blocks :=
  writeAll (fun _ => true) Prod.snd (fun e => some (.page e.1)) (slotWalk sh.toStripeHead)
    fun _ => none

/-- The slot recorded when the walk passes `target`. -/
def failSlot (target : Nat) : Option Nat :=
  ((slotWalk sh.toStripeHead).find? fun e => e.1 == target).map Prod.snd

/-- The recovery for the lost slots `faila < failb`; `dataTarget` is the lost device other
than Q. -/
def recoverSlots (faila failb dataTarget : Nat) : Option StripeHead :=
  let sd := syndromeDisks sh.toStripeHead
  let blocks := computeBlocks sh
  if failb = sd + 1 then
    if faila = sd then
      -- Missing P+Q, just recompute
      asyncGenSyndrome tx sh blocks (sd + 2) false
    else
      -- Missing D+Q: recompute D from P, then recompute Q
      (asyncXor tx sh .zeroDst (.page dataTarget) (pagesBut sh fun i =>
          decide (i = dataTarget) || decide ((i : Int) = sh.idx.qdIdx))).bind fun sh =>
        asyncGenSyndrome tx sh (setSyndromeSources sh .all)
          (syndromeDisks sh.toStripeHead + 2) false
  else if failb = sd then
    -- We're missing D+P
    asyncRaid6DatapRecov tx sh (sd + 2) faila blocks
  else
    -- We're missing D+D
    asyncRaid6TwoDataRecov tx sh (sd + 2) faila failb blocks

def opsRunCompute6Two : Option StripeHead :=
  if sh.batchHead || decide (sh.target < 0) || decide (sh.target2 < 0) then none
  else
    let target := sh.target.toNat
    let target2 := sh.target2.toNat
    if !(sh.dev target).flags.wantcompute || !(sh.dev target2).flags.wantcompute then none
    else
      match failSlot sh target, failSlot sh target2 with
      | some faila, some failb =>
        let dataTarget := if sh.target = sh.idx.qdIdx then target2 else target
        if faila = failb then none
        else if failb < faila then recoverSlots tx sh failb faila dataTarget
        else recoverSlots tx sh faila failb dataTarget
      | _, _ => none

/-- The branch of `raid_run_ops` for `STRIPE_OP_COMPUTE_BLK`. -/
def raidRunCompute (level : Level) (sh : StripeHead) : Option StripeHead :=
  if level = .raid6 then
    if sh.target2 < 0 ∨ sh.target < 0 then opsRunCompute6One tx sh
    else opsRunCompute6Two tx sh
  else opsRunCompute5 tx sh

/-! ## Completion -/

def markTargetUptodate (target : Int) : Option StripeHead :=
  if target < 0 then some sh
  else if (sh.dev target.toNat).flags.wantcompute then
    some (sh.modifyFlags target.toNat fun f => { f with uptodate := true, wantcompute := false })
  else none

def opsCompleteCompute : Option StripeHead :=
  (markTargetUptodate sh sh.target).bind fun sh =>
    (markTargetUptodate sh sh.target2).map fun sh =>
      { sh with computeRun := false, handle := true }

end MdRaid.Stripe
