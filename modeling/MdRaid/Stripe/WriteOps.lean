import MdRaid.Stripe.AsyncTx

/-!
# The write path of stripe operations

Draining queued bios into the pages of a stripe, and bringing the parity pages up
to date around it: `prexor` takes the old data out of the parity before the
drain, `reconstruct` puts the new data in after it, or computes the parity anew.
A batch is its head stripe followed by its members; a lone stripe has no members.
-/

namespace MdRaid.Stripe

open MdRaid.Geometry Loops GF256

/-- The fields of `struct r5conf` the stripe operations read. -/
structure RunConf where
  level : Level
  skipCopy : Bool
  /-- `r5c_is_writeback(conf->log)` -/
  writeback : Bool
deriving DecidableEq, Repr

/-! ## Copying from a bio -/

/-- The byte at offset `n` of a page. -/
def pageByte (page : Page) (n : Nat) : GF256 := page (Fin.ofNat 4096 n)

/-- `memcpy(dst + dstOff, src + srcOff, len)`. -/
def memcpyPage (dst src : Page) (dstOff srcOff len : Nat) : Page := fun k =>
  if dstOff ≤ k.val ∧ k.val < dstOff + len then
    pageByte src (srcOff + (k.val - dstOff))
  else dst k

/-- The loop over the segments of `async_copy_data` with `frombio` set. -/
def copySegments (conf : RunConf) : List BioVec → Int → R5dev → R5dev
  | [], _, dev => dev
  | bvl :: rest, pageOffset, dev =>
    let bOffset : Int := if pageOffset < 0 then -pageOffset else 0
    let pageOffset : Int := if pageOffset < 0 then 0 else pageOffset
    let len : Int := bvl.bvLen - bOffset
    let clen : Int := if len > 0 ∧ pageOffset + len > 4096 then 4096 - pageOffset else len
    let dev :=
      if clen > 0 then
        let bOffset := bOffset + bvl.bvOffset
        if conf.skipCopy ∧ bOffset = 0 ∧ pageOffset = 0 ∧ clen = 4096 ∧
            conf.writeback = false then
          { dev with redirect := some bvl.bvPage }
        else
          dev.setPage (memcpyPage dev.page bvl.bvPage pageOffset.toNat bOffset.toNat
            clen.toNat)
      else dev
    -- hit end of page
    if clen < len then dev else copySegments conf rest (pageOffset + len) dev

variable (tx : AsyncTx) (conf : RunConf) (sh : StripeHead)

def asyncCopyData (bio : Bio) (dev : R5dev) : R5dev :=
  copySegments conf bio.vecs (((bio.biSector : Int) - dev.sector) * 512) dev

/-! ## Draining -/

/-- One bio of the chain. -/
def drainBio (wbi : Bio) (dev : R5dev) : R5dev :=
  let dev := dev.modifyFlags fun f =>
    { f with wantFUA := f.wantFUA || wbi.fua, syncIo := f.syncIo || wbi.sync }
  if wbi.op = .discard then dev.modifyFlags fun f => { f with discard := true }
  else
    let dev := asyncCopyData conf wbi dev
    if dev.redirect.isSome ∧ conf.writeback = false then
      dev.modifyFlags fun f => { f with skipCopy := true, uptodate := false, overwrite := false }
    else dev

/-- `while (wbi && wbi->bi_iter.bi_sector < dev->sector + RAID5_STRIPE_SECTORS(conf))`,
stepping with `r5_next_bio`. -/
def drainBios (conf : RunConf) : List Bio → R5dev → R5dev
  | [], dev => dev
  | wbi :: rest, dev =>
    if wbi.biSector < dev.sector + stripeSectors then
      let dev := drainBio conf wbi dev
      if wbi.endSector < dev.sector + stripeSectors then drainBios conf rest dev
      else dev
    else dev

/-- The device after its `towrite` chain has become its `written` chain. -/
def drainDev (dev : R5dev) : R5dev :=
  drainBios conf dev.towrite
    { dev.modifyFlags fun f => { f with
      inJournal := false } with
      towrite := [], written := dev.towrite }

/-- The part of the loop body from the label `again` on. -/
def drainStripe (i : Nat) : Option StripeHead :=
  if (sh.dev i).written.isEmpty then
    some { sh.modifyDev i (drainDev conf) with overwriteDisks := 0 }
  else none

def biodrainDev (batch : StripeHead × List StripeHead) (i : Nat) :
    Option (StripeHead × List StripeHead) :=
  if (batch.1.dev i).flags.wantdrain then
    let head := batch.1.modifyFlags i fun f => { f with wantdrain := false }
    (drainStripe conf head i).bind fun head =>
      if head.batchHead then (batch.2.mapM (drainStripe conf · i)).map (head, ·)
      else some (head, batch.2)
  else some batch

def opsRunBiodrain (head : StripeHead) (members : List StripeHead) :
    Option (StripeHead × List StripeHead) :=
  (down head.disks).foldlM (biodrainDev conf) (head, members)

/-! ## Sources of a syndrome -/

inductive SyndromeSrc : Type where
  | all
  | wantDrain
  | written
deriving DecidableEq, Repr

/-- Whether `set_syndrome_sources` enters device `i`. -/
def srcSelected (srctype : SyndromeSrc) (i : Nat) : Bool :=
  sh.isParity i ||
    match srctype with
    | .all => true
    | .wantDrain => (sh.dev i).flags.wantdrain || (sh.dev i).flags.inJournal
    | .written => !(sh.dev i).written.isEmpty || (sh.dev i).flags.inJournal

def srcPtr (i : Nat) : PagePtr :=
  if (sh.dev i).flags.inJournal then .origPage i else .page i

def setSyndromeSources (srctype : SyndromeSrc) : Blocks :=
  writeAll (fun e => srcSelected sh srctype e.1) Prod.snd (fun e => some (srcPtr sh e.1))
    (slotWalk sh.toStripeHead) fun _ => none

/-! ## Prexor -/

def opsRunPrexor5 : Option StripeHead :=
  if sh.batchHead then none
  else
    let srcs := .page sh.pd :: (down sh.disks).filterMap fun i =>
      if (sh.dev i).flags.inJournal then some (.origPage i)
      else if (sh.dev i).flags.wantdrain then some (.page i)
      else none
    asyncXor tx sh .dropDst (.page sh.pd) srcs

def opsRunPrexor6 : Option StripeHead :=
  asyncGenSyndrome tx sh (setSyndromeSources sh .wantDrain) (syndromeDisks sh.toStripeHead + 2) true

/-! ## Completion of a reconstruction -/

def StripeHead.anyDev (p : DevFlags → Bool) : Bool :=
  (List.range sh.disks).any fun i => p (sh.dev i).flags

/-- A loop over all devices that treats each by itself. -/
def StripeHead.mapDevs (f : Nat → R5dev → R5dev) : StripeHead :=
  { sh with dev := fun i => if i < sh.disks then f i (sh.dev i) else sh.dev i }

def reconstructResult : ReconstructState → Option ReconstructState
  | .drainRun => some .drainResult
  | .prexorDrainRun => some .prexorDrainResult
  | .run => some .result
  | _ => none

def opsCompleteReconstruct : Option StripeHead :=
  let fua := sh.anyDev (·.wantFUA)
  let sync := sh.anyDev (·.syncIo)
  let discard := sh.anyDev (·.discard)
  (reconstructResult sh.reconstructState).map fun state =>
    { sh.mapDevs fun i dev =>
        if !dev.written.isEmpty || sh.isParity i then
          let uptodate := !discard && !dev.flags.skipCopy
          dev.modifyFlags fun f => { f with
            uptodate := f.uptodate || uptodate
            expanded := f.expanded || (uptodate && sh.expandReady)
            wantFUA := f.wantFUA || fua
            syncIo := f.syncIo || sync }
        else dev
      with reconstructState := state, handle := true }

/-! ## Reconstruct -/

/-- The scan that ends without `break` when every device it does not skip is being
discarded. -/
def allDiscard (skip : Nat → Bool) : Bool :=
  (List.range sh.disks).all fun i => skip i || (sh.dev i).flags.discard

/-- `count == 1 ? async_memcpy(..) : async_xor_offs(..)`. -/
def xorOrCopy (flag : XorDst) (dest : PagePtr) (srcs : List PagePtr) : Option StripeHead :=
  match srcs with
  | [src] => some (asyncMemcpy sh dest src)
  | _ => asyncXor tx sh flag dest srcs

/-- One pass of `ops_run_reconstruct5` from the label `again` on. -/
def reconstruct5One (head sh : StripeHead) : Option StripeHead :=
  if head.reconstructState = .prexorDrainRun then
    xorOrCopy tx sh .dropDst (.page sh.pd) <|
      .page sh.pd :: (down sh.disks).filterMap fun i =>
        if !(head.dev i).written.isEmpty || (head.dev i).flags.inJournal then some (.page i)
        else none
  else
    xorOrCopy tx sh .zeroDst (.page sh.pd) <|
      (down sh.disks).filterMap fun i => if i ≠ sh.pd then some (.page i) else none

def opsRunReconstruct5 (head : StripeHead) (members : List StripeHead) :
    Option (StripeHead × List StripeHead) :=
  if allDiscard head fun i => decide ((i : Int) = head.idx.pdIdx) then
    (opsCompleteReconstruct
      (head.modifyFlags head.pd fun f => { f with discard := true })).map (·, members)
  else
    (reconstruct5One tx head head).bind fun head' =>
      if head.batchHead then (members.mapM (reconstruct5One tx head)).map (head', ·)
      else some (head', members)

/-- One pass of `ops_run_reconstruct6`; the state is that of the stripe at hand, and only the
last stripe of a batch is given the flags. -/
def reconstruct6One (last : Bool) (sh : StripeHead) : Option StripeHead :=
  if sh.reconstructState = .prexorDrainRun then
    asyncGenSyndrome tx sh (setSyndromeSources sh .written) (syndromeDisks sh.toStripeHead + 2) last
  else
    asyncGenSyndrome tx sh (setSyndromeSources sh .all) (syndromeDisks sh.toStripeHead + 2) false

def opsRunReconstruct6 (head : StripeHead) (members : List StripeHead) :
    Option (StripeHead × List StripeHead) :=
  if allDiscard head head.isParity then
    (opsCompleteReconstruct
      ((head.modifyFlags head.pd fun f => { f with discard := true }).modifyFlags head.qd
        fun f => { f with discard := true })).map (·, members)
  else
    (reconstruct6One tx (!head.batchHead || members.isEmpty) head).bind fun head' =>
      if head.batchHead then
        (members.zipIdx.mapM fun e =>
          reconstruct6One tx (decide (e.2 + 1 = members.length)) e.1).map (head', ·)
      else some (head', members)

/-! ## Write requests -/

/-- The write part of `raid_run_ops`: `STRIPE_OP_PREXOR` if `prexor`, then
`STRIPE_OP_BIODRAIN` and `STRIPE_OP_RECONSTRUCT`. -/
def raidRunWrite (prexor : Bool) (head : StripeHead)
    (members : List StripeHead) : Option (StripeHead × List StripeHead) :=
  let afterPrexor :=
    if prexor then
      if conf.level = .raid6 then opsRunPrexor6 tx head else opsRunPrexor5 tx head
    else some head
  afterPrexor.bind fun head =>
    (opsRunBiodrain conf head members).bind fun batch =>
      if conf.level = .raid6 then opsRunReconstruct6 tx batch.1 batch.2
      else opsRunReconstruct5 tx batch.1 batch.2

end MdRaid.Stripe
