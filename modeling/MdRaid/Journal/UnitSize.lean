import MdRaid.Geometry.ComputeSector
import MdRaid.Journal.Basic
import MdRaid.Lib.Ring

/-!
# The size of an io unit

The pages of an io unit go into one bio of `BIO_MAX_VECS` pages, or two if the log wraps
around inside the unit. Nothing counts the pages: what limits them is the meta page that
describes them, with 20 bytes for a data page or a single parity page but 24 bytes for the
two parity pages of a RAID-6 stripe. A unit is submitted when its meta page is full, by a
flush request, or by a thread that has handled a batch of stripes. `handle_active_stripes` ends
its batch after `MAX_STRIPE_BATCH` stripes; `retry_aligned_read` hands any number of stripes to
`handle_stripe` before that.

Positions are counted in blocks of `BLOCK_SECTORS`. A `BUG` ends the run and is kept in the
state.
-/

namespace MdRaid.Journal.UnitSize

open MdRaid.Geometry (Level)
open Runs Function

/-! ## Definitions -/

/-- `BIO_MAX_VECS`. -/
def bioMaxVecs : Nat := 256

/-- `MAX_STRIPE_BATCH`. -/
def maxStripeBatch : Nat := 8

/-- `threads` counts `raid5d` and the workers of all groups. -/
structure LogConf where
  level : Level
  raidDisks : Nat
  deviceBlocks : Nat
  threads : Nat

/-- `1 + !!(sh->qd_idx >= 0)`. -/
def LogConf.parityPages (conf : LogConf) : Nat := conf.level.maxDegraded

def LogConf.dataDisks (conf : LogConf) : Nat := conf.raidDisks - conf.level.maxDegraded

/-- The check of `r5l_init_log`, on an array with a data device. -/
structure LogConf.Accepted (conf : LogConf) : Prop where
  disks : conf.level.maxDegraded < conf.raidDisks
  fits : metaBlockSize + (payloadDataParitySize + checksumSize) * conf.raidDisks ≤ pageSize

/-- The two calls of `BUG` in `r5l_append_payload_page`. -/
inductive Bug : Type where
  | splitBio
  | bioAddPage
deriving DecidableEq, Repr

/-- `struct r5l_io_unit`; a bio is the number of its pages, `stripeList` that of its stripes. -/
structure FillUnit where
  logStart : Nat
  metaOffset : Nat
  currentBio : Nat
  splitBio : Option Nat
  needSplitBio : Bool
  stripeList : Nat
deriving DecidableEq, Repr

/-- The log with its current unit. -/
structure Fill where
  logStart : Nat
  io : FillUnit
deriving DecidableEq, Repr

section Append

variable (deviceBlocks : Nat)

def r5ReserveLogEntry (f : Fill) : Fill :=
  let logStart := RingLog.add deviceBlocks f.logStart 1
  ⟨logStart, { f.io with needSplitBio := f.io.needSplitBio || decide (logStart = 0) }⟩

def r5lNewMeta (logStart : Nat) : Fill :=
  r5ReserveLogEntry deviceBlocks
    ⟨logStart,
      { logStart := logStart
        metaOffset := metaBlockSize
        currentBio := 1
        splitBio := none
        needSplitBio := false
        stripeList := 0 }⟩

def r5lAppendPayloadMeta (f : Fill) (checksum2Valid : Bool) : Fill :=
  { f with
    io := { f.io with
      metaOffset := f.io.metaOffset + payloadDataParitySize +
        checksumSize * (1 + checksum2Valid.toNat) } }

def r5lAppendPayloadPage (f : Fill) : Except Bug Fill := do
  let io ←
    if f.io.needSplitBio then
      if f.io.splitBio.isSome then throw .splitBio
      else pure { f.io with
        splitBio := some f.io.currentBio, currentBio := 0, needSplitBio := false }
    else pure f.io
  if bioMaxVecs ≤ io.currentBio then throw .bioAddPage
  pure (r5ReserveLogEntry deviceBlocks { f with io := { io with currentBio := io.currentBio + 1 } })

/-- The data devices of the loop of `r5l_log_stripe` that have something to log. -/
def appendData : Nat → Fill → Except Bug Fill
  | 0, f => pure f
  | n + 1, f => do
      let f ← r5lAppendPayloadPage deviceBlocks (r5lAppendPayloadMeta f false)
      appendData n f

def appendParity (parityPages : Nat) (f : Fill) : Except Bug Fill :=
  if parityPages = 2 then do
    let f ← r5lAppendPayloadPage deviceBlocks (r5lAppendPayloadMeta f true)
    r5lAppendPayloadPage deviceBlocks f
  else if parityPages = 1 then
    r5lAppendPayloadPage deviceBlocks (r5lAppendPayloadMeta f false)
  else pure f

end Append

/-- The log as the threads see it; `batch` counts the stripes a thread has handled since its
last `log_write_stripe_run`. -/
structure Log (threads : Nat) where
  logStart : Nat
  currentIo : Option FillUnit
  batch : Fin threads → Nat
  bug : Option Bug

/-- `none` is `-ENOMEM`; the unit that was current is submitted in that case. -/
def r5lGetMeta (deviceBlocks logStart : Nat) (currentIo : Option FillUnit) (payloadSize : Nat)
    (alloc : Bool) : Option Fill :=
  match currentIo.filter fun io => decide (io.metaOffset + payloadSize ≤ pageSize) with
  | some io => some ⟨logStart, io⟩
  | none => if alloc then some (r5lNewMeta deviceBlocks logStart) else none

/-- A data device of a stripe: `R5_Wantwrite` and `R5_InJournal`. -/
structure DataDev where
  wantwrite : Bool
  inJournal : Bool
deriving DecidableEq, Repr

/-- The pages the loop of `r5l_log_stripe` appends. -/
def logged (devs : List DataDev) : Nat := devs.countP fun d => d.wantwrite && !d.inJournal

section Calls

variable (conf : LogConf) {n : Nat} (log : Log n)

def r5lLogStripe (devs : List DataDev) (dataPages parityPages : Nat) (alloc : Bool) : Log n :=
  let metaSize := (payloadDataParitySize + checksumSize) * dataPages + payloadDataParitySize +
    checksumSize * parityPages
  match r5lGetMeta conf.deviceBlocks log.logStart log.currentIo metaSize alloc with
  | none => { log with currentIo := none }
  | some f =>
    match appendData conf.deviceBlocks (logged devs) f >>=
        appendParity conf.deviceBlocks parityPages with
    | .error bug => { log with bug := some bug }
    | .ok f =>
      { log with
        logStart := f.logStart
        currentIo := some { f.io with stripeList := f.io.stripeList + 1 } }

/-- `r5l_write_stripe` on a stripe there is space for. -/
def r5lWriteStripe (devs : List DataDev) (alloc : Bool) : Log n :=
  r5lLogStripe conf log devs (logged devs) conf.parityPages alloc

/-- `r5c_cache_data`; it also reserves for the devices that are in the journal already. -/
def r5cCacheData (devs : List DataDev) (alloc : Bool) : Log n :=
  r5lLogStripe conf log devs (devs.countP DataDev.wantwrite) 0 alloc

def r5lAppendFlushPayload (alloc : Bool) : Log n :=
  match r5lGetMeta conf.deviceBlocks log.logStart log.currentIo payloadFlushSize alloc with
  | none => { log with currentIo := none }
  | some f =>
    { log with
      logStart := f.logStart
      currentIo := some { f.io with metaOffset := f.io.metaOffset + payloadFlushSize } }

/-- `r5l_handle_flush_request` of a flush without data: the unit it waits for is submitted. -/
def r5lHandleFlushRequest (alloc : Bool) : Log n :=
  match r5lGetMeta conf.deviceBlocks log.logStart log.currentIo 0 alloc with
  | none => { log with currentIo := none }
  | some f => { log with logStart := f.logStart, currentIo := none }

end Calls

/-- What `handle_stripe` logs for a stripe. -/
inductive LogCall : Type where
  | none
  | writeStripe (devs : List DataDev) (alloc : Bool)
  | cacheData (devs : List DataDev) (alloc : Bool)

inductive Event (n : Nat) : Type where
  /-- Thread `t` handles a stripe, which may have been written out before (`flush`, with the
  outcome of the allocation) and may have something to log. -/
  | handleStripe (t : Fin n) (flush : Option Bool) (call : LogCall)
  | writeStripeRun (t : Fin n)
  | flushRequest (alloc : Bool)

def logCall (conf : LogConf) {n : Nat} (log : Log n) : LogCall → Log n
  | .none => log
  | .writeStripe devs alloc => r5lWriteStripe conf log devs alloc
  | .cacheData devs alloc => r5cCacheData conf log devs alloc

/-- The call is about the data devices of the array. -/
def LogCall.sized (conf : LogConf) : LogCall → Bool
  | .none => true
  | .writeStripe devs _ | .cacheData devs _ => decide (devs.length = conf.dataDisks)

def step (conf : LogConf) {n : Nat} (log : Log n) (e : Event n) : Option (Log n) :=
  if log.bug.isSome then none
  else match e with
    | .handleStripe t flush call =>
      if call.sized conf = false then none
      else
        let log := { log with batch := update log.batch t (log.batch t + 1) }
        let log := flush.elim log (r5lAppendFlushPayload conf log)
        some (logCall conf log call)
    | .writeStripeRun t =>
      some { log with currentIo := none, batch := update log.batch t 0 }
    | .flushRequest alloc => some (r5lHandleFlushRequest conf log alloc)

/-- On level 6 a thread submits the unit after `MAX_STRIPE_BATCH` stripes. -/
def Batched (conf : LogConf) {n : Nat} (log : Log n) : Event n → Prop
  | .handleStripe t _ _ => conf.level ≠ .raid6 ∨ log.batch t < maxStripeBatch
  | _ => True

instance (conf : LogConf) {n : Nat} (log : Log n) (e : Event n) :
    Decidable (Batched conf log e) :=
  match e with
  | .handleStripe _ _ _ => inferInstanceAs (Decidable (_ ∨ _))
  | .writeStripeRun _ | .flushRequest _ => instDecidableTrue

/-- No current unit, no batch begun. -/
def Log.start {n : Nat} (logStart : Nat) : Log n := ⟨logStart, none, fun _ => 0, none⟩

/-- The current unit fits its meta page and its bios, and no `BUG` was reached. -/
structure Fits {n : Nat} (log : Log n) : Prop where
  no_bug : log.bug = none
  meta_page : ∀ io, log.currentIo = some io → io.metaOffset ≤ pageSize
  current_bio : ∀ io, log.currentIo = some io → io.currentBio ≤ bioMaxVecs
  split_bio : ∀ io, log.currentIo = some io → ∀ pages, io.splitBio = some pages → pages ≤ bioMaxVecs

/-! ## Pages and wraps -/

section Pages

variable {blocks : Nat}

/-- All pages of the unit, the meta page included. -/
def FillUnit.pages (io : FillUnit) : Nat := io.currentBio + io.splitBio.getD 0

/-- How often the log wrapped around inside the unit. -/
def FillUnit.wraps (io : FillUnit) : Nat := io.splitBio.isSome.toNat + io.needSplitBio.toNat

/-- The pages lie behind each other on the ring. -/
structure Placed (blocks : Nat) (f : Fill) : Prop where
  start_lt : f.io.logStart < blocks
  head_lt : f.logStart < blocks
  head : f.io.logStart + f.io.pages = f.logStart + blocks * f.io.wraps

/-- Reserving a block for a page that is in the bio already. -/
theorem placed_reserve {f : Fill} {logStart : Nat} (hstart : f.io.logStart < blocks)
    (hlt : logStart < blocks)
    (hhead : f.io.logStart + f.io.pages = logStart + 1 + blocks * f.io.wraps)
    (hneed : f.io.needSplitBio = false) (hf : f.logStart = logStart) :
    Placed blocks (r5ReserveLogEntry blocks f) := by
  subst hf
  have hpages : (r5ReserveLogEntry blocks f).io.pages = f.io.pages := rfl
  have hio : (r5ReserveLogEntry blocks f).io.logStart = f.io.logStart := rfl
  have hlog : (r5ReserveLogEntry blocks f).logStart = RingLog.add blocks f.logStart 1 := rfl
  have hwraps : (r5ReserveLogEntry blocks f).io.wraps =
      f.io.wraps + (decide (RingLog.add blocks f.logStart 1 = 0)).toNat := by
    simp only [r5ReserveLogEntry, FillUnit.wraps, hneed, Bool.false_or, Bool.toNat_false,
      Nat.add_zero]
  constructor
  · exact hstart
  · rw [hlog, RingLog.add]
    split <;> omega
  · rw [hio, hpages, hlog, hwraps, hhead, RingLog.add]
    split
    · have hzero : f.logStart + 1 - blocks = 0 := by omega
      rw [hzero, decide_eq_true rfl, Bool.toNat_true, Nat.mul_succ]
      omega
    · rw [decide_eq_false (by omega), Bool.toNat_false, Nat.add_zero f.io.wraps]

theorem placed_newMeta {logStart : Nat} (hlt : logStart < blocks) :
    Placed blocks (r5lNewMeta blocks logStart) :=
  placed_reserve hlt hlt rfl rfl rfl

section

variable {f : Fill} (h : Placed blocks f)
include h

theorem placed_appendMeta (b : Bool) :
    Placed blocks (r5lAppendPayloadMeta f b) := ⟨h.start_lt, h.head_lt, h.head⟩

/-- A unit shorter than the ring wraps at most once. -/
theorem Placed.wraps_le (hpages : f.io.pages ≤ blocks) : f.io.wraps ≤ 1 := by
  obtain ⟨hstart, hlt, hhead⟩ := h
  by_contra hcon
  have htwo : blocks * 2 ≤ blocks * f.io.wraps := Nat.mul_le_mul_left _ (Nat.lt_of_not_le hcon)
  omega

theorem appendPage_ok (hroom : f.io.pages < bioMaxVecs)
    (hring : bioMaxVecs ≤ blocks) : ∃ f', r5lAppendPayloadPage blocks f = .ok f' ∧
      Placed blocks f' ∧ f'.io.pages = f.io.pages + 1 := by
  have hwraps := h.wraps_le (hroom.le.trans hring)
  have hbio : f.io.currentBio ≤ f.io.pages := Nat.le_add_right _ _
  unfold r5lAppendPayloadPage
  by_cases hneed : f.io.needSplitBio
  · -- the first page behind the wrap opens the second bio
    have hsplit : f.io.splitBio = none := by
      rw [FillUnit.wraps, hneed] at hwraps
      cases hs : f.io.splitBio with
      | none => rfl
      | some pages =>
        rw [hs] at hwraps
        exact absurd hwraps (Nat.not_succ_le_self 1)
    have hpages : f.io.pages = f.io.currentBio := by
      rw [FillUnit.pages, hsplit, Option.getD_none, Nat.add_zero]
    rw [if_pos hneed, hsplit]
    refine ⟨_, rfl, placed_reserve h.start_lt h.head_lt ?_ rfl rfl, ?_⟩
    · have hhead := h.head
      simp only [FillUnit.wraps, FillUnit.pages, hsplit, hneed, Option.isSome_none,
        Option.isSome_some, Option.getD_none, Option.getD_some, Bool.toNat_false,
        Bool.toNat_true] at hhead ⊢
      omega
    · simp only [r5ReserveLogEntry, FillUnit.pages, hsplit, Option.getD_some, Option.getD_none]
      omega
  · rw [if_neg hneed]
    have hfull : ¬ bioMaxVecs ≤ f.io.currentBio := by omega
    simp only [pure_bind, if_neg hfull]
    refine ⟨_, rfl, placed_reserve h.start_lt h.head_lt ?_ (Bool.eq_false_iff.mpr hneed) rfl, ?_⟩
    · have hhead := h.head
      simp only [FillUnit.wraps, FillUnit.pages] at hhead ⊢
      omega
    · simp only [r5ReserveLogEntry, FillUnit.pages]
      omega

end

theorem appendData_ok (hring : bioMaxVecs ≤ blocks) : ∀ (n : Nat) {f : Fill}, Placed blocks f →
    f.io.pages + n ≤ bioMaxVecs → ∃ f', appendData blocks n f = .ok f' ∧
      Placed blocks f' ∧ f'.io.pages = f.io.pages + n := by
  intro n
  induction n with
  | zero =>
    intro f h _
    exact ⟨f, rfl, h, rfl⟩
  | succ n ih =>
    intro f h hroom
    obtain ⟨f₁, hf₁, hplaced, hpages⟩ :=
      appendPage_ok (placed_appendMeta h false) (Nat.lt_of_lt_of_le (by
        change f.io.pages < _
        exact Nat.lt_add_of_pos_right (Nat.succ_pos n)) hroom) hring
    have hpages' : f₁.io.pages = f.io.pages + 1 := hpages
    obtain ⟨f₂, hf₂, hplaced₂, hpages₂⟩ := ih hplaced (by omega)
    refine ⟨f₂, ?_, hplaced₂, by omega⟩
    rw [appendData, hf₁]
    exact hf₂

theorem appendParity_ok (hring : bioMaxVecs ≤ blocks) {parityPages : Nat} (hp : parityPages ≤ 2)
    {f : Fill} (h : Placed blocks f) (hroom : f.io.pages + parityPages ≤ bioMaxVecs) :
    ∃ f', appendParity blocks parityPages f = .ok f' ∧
      Placed blocks f' ∧ f'.io.pages = f.io.pages + parityPages := by
  unfold appendParity
  interval_cases parityPages
  · exact ⟨f, rfl, h, rfl⟩
  · exact appendPage_ok (placed_appendMeta h false) hroom hring
  · obtain ⟨f₁, hf₁, hplaced, hpages⟩ :=
      appendPage_ok (placed_appendMeta h true) (Nat.lt_of_succ_lt hroom) hring
    have hpages' : f₁.io.pages = f.io.pages + 1 := hpages
    obtain ⟨f₂, hf₂, hplaced₂, hpages₂⟩ := appendPage_ok hplaced (by omega) hring
    refine ⟨f₂, ?_, hplaced₂, by omega⟩
    rw [if_pos rfl, hf₁]
    exact hf₂

/-- The bytes `r5l_log_stripe` adds for the parity. -/
def parityMeta (parityPages : Nat) : Nat :=
  if parityPages = 0 then 0 else payloadDataParitySize + checksumSize * parityPages

/-- `size` more bytes of metadata, for the same stripes. -/
structure Described (f f' : Fill) (size : Nat) : Prop where
  meta_eq : f'.io.metaOffset = f.io.metaOffset + size
  stripes_eq : f'.io.stripeList = f.io.stripeList

section

variable {f f' : Fill}

theorem appendPage_described (h : r5lAppendPayloadPage blocks f = .ok f') : Described f f' 0 := by
  unfold r5lAppendPayloadPage at h
  simp only [bind, Except.bind, pure, Except.pure, throw, throwThe, MonadExceptOf.throw] at h
  split_ifs at h <;> cases h <;> exact ⟨rfl, rfl⟩

theorem appendData_described : ∀ (k : Nat) {f : Fill}, appendData blocks k f = .ok f' →
    Described f f' ((payloadDataParitySize + checksumSize) * k)
  | 0, _, h => by cases h; exact ⟨rfl, rfl⟩
  | k + 1, f, h => by
    unfold appendData at h
    cases hp : r5lAppendPayloadPage blocks (r5lAppendPayloadMeta f false) with
    | error e => rw [hp] at h; cases h
    | ok f₁ =>
      rw [hp] at h
      obtain ⟨hmeta, hstripes⟩ := appendPage_described hp
      have hmeta' : f₁.io.metaOffset = f.io.metaOffset +
        (payloadDataParitySize + checksumSize) := hmeta
      have hrest := appendData_described k h
      refine ⟨?_, hrest.stripes_eq.trans hstripes⟩
      rw [hrest.meta_eq, hmeta', Nat.mul_succ]
      omega

theorem appendParity_described {parityPages : Nat} (hp : parityPages ≤ 2)
    (h : appendParity blocks parityPages f = .ok f') : Described f f' (parityMeta parityPages) := by
  unfold appendParity at h
  interval_cases parityPages
  · cases h
    exact ⟨rfl, rfl⟩
  · obtain ⟨hmeta, hstripes⟩ := appendPage_described h
    exact ⟨hmeta, hstripes⟩
  · cases hf : r5lAppendPayloadPage blocks (r5lAppendPayloadMeta f true) with
    | error e => rw [if_pos rfl, hf] at h; cases h
    | ok f₁ =>
      rw [if_pos rfl, hf] at h
      obtain ⟨hmeta, hstripes⟩ := appendPage_described hf
      obtain ⟨hmeta₂, hstripes₂⟩ := appendPage_described h
      exact ⟨hmeta₂.trans hmeta, hstripes₂.trans hstripes⟩

end

end Pages

/-! ## One call -/

section Call

variable {conf : LogConf} {n : Nat}

/-- The pages a RAID-6 stripe has beyond what its metadata pays for at 20 bytes a page, in
bytes. -/
def LogConf.excess (conf : LogConf) : Nat := if conf.parityPages = 2 then 16 else 0

/-- A unit that fits: its pages are paid for by its metadata and its stripes. -/
structure UnitInv (conf : LogConf) (f : Fill) : Prop where
  placed : Placed conf.deviceBlocks f
  meta_le : f.io.metaOffset ≤ pageSize
  paid : metaBlockSize + 20 * f.io.pages ≤ f.io.metaOffset + 20 + conf.excess * f.io.stripeList

theorem unitInv_newMeta {logStart : Nat} (hlt : logStart < conf.deviceBlocks) :
    UnitInv conf (r5lNewMeta conf.deviceBlocks logStart) :=
  ⟨placed_newMeta hlt, show metaBlockSize ≤ pageSize by decide, le_refl _⟩

/-- Enough metadata and few enough stripes keep the pages below the limit. -/
theorem UnitInv.pages_le {f : Fill} (h : UnitInv conf f)
    (hexcess : conf.excess * f.io.stripeList ≤ 1024) :
    f.io.pages ≤ bioMaxVecs := by
  obtain ⟨-, hmeta, hpaid⟩ := h
  unfold metaBlockSize pageSize bioMaxVecs at *
  omega

/-- The current unit after `r5l_get_meta`, with room for the payload. -/
theorem unitInv_getMeta {logStart : Nat} {currentIo : Option FillUnit} {size : Nat} {alloc : Bool}
    {f : Fill} (hlt : logStart < conf.deviceBlocks) (hsize : metaBlockSize + size ≤ pageSize)
    (hcur : ∀ io, currentIo = some io → UnitInv conf ⟨logStart, io⟩)
    (hf : r5lGetMeta conf.deviceBlocks logStart currentIo size alloc = some f) :
    UnitInv conf f ∧ f.io.metaOffset + size ≤ pageSize ∧
      (f.io.stripeList = 0 ∨ currentIo = some f.io) := by
  unfold r5lGetMeta at hf
  split at hf
  next io hio =>
    cases hf
    obtain ⟨hcur', hfit⟩ := Option.filter_eq_some_iff.mp hio
    exact ⟨hcur io hcur', of_decide_eq_true hfit, .inr hcur'⟩
  next =>
    split_ifs at hf
    cases hf
    exact ⟨unitInv_newMeta hlt, hsize, .inl rfl⟩

/-- What holds between the calls: the stripes of the current unit are among those the threads
handled since they last submitted it, `slack` of which are not in it. -/
structure Inv (conf : LogConf) (slack : Nat) (log : Log n) : Prop where
  no_bug : log.bug = none
  head_lt : log.logStart < conf.deviceBlocks
  batch_le : conf.level ≠ .raid6 ∨ ∀ t, log.batch t ≤ maxStripeBatch
  slack_le : slack ≤ ∑ t, log.batch t
  unit : ∀ io, log.currentIo = some io → UnitInv conf ⟨log.logStart, io⟩ ∧
    io.stripeList + slack ≤ ∑ t, log.batch t

theorem Inv.weaken {log : Log n} (h : Inv conf 1 log) : Inv conf 0 log :=
  { h with
    slack_le := Nat.zero_le _
    unit io hio := ⟨(h.unit io hio).1, (Nat.le_succ _).trans (h.unit io hio).2⟩ }

/-- The excess pages of a unit are bounded: there are none, or few threads. -/
theorem excess_le (hfew : conf.level ≠ .raid6 ∨ n ≤ 8) {batch : Fin n → Nat}
    (hbatch : conf.level ≠ .raid6 ∨ ∀ t, batch t ≤ maxStripeBatch) :
    conf.excess * ∑ t, batch t ≤ 1024 := by
  rcases or_and_left.mpr ⟨hfew, hbatch⟩ with hlevel | ⟨hfew, hbatch⟩
  · have hzero : conf.excess = 0 := by
      unfold LogConf.excess LogConf.parityPages
      cases hl : conf.level with
      | raid4 | raid5 => rfl
      | raid6 => exact absurd hl hlevel
    rw [hzero, zero_mul]
    exact Nat.zero_le _
  · have hsum : ∑ t, batch t ≤ n * maxStripeBatch := by
      have hcard := Finset.sum_le_card_nsmul Finset.univ batch maxStripeBatch fun t _ => hbatch t
      rwa [Finset.card_univ, Fintype.card_fin, smul_eq_mul] at hcard
    have hexcess : conf.excess ≤ 16 := by
      unfold LogConf.excess
      split <;> omega
    calc conf.excess * ∑ t, batch t ≤ 16 * (8 * 8) :=
          Nat.mul_le_mul hexcess (hsum.trans (Nat.mul_le_mul_right _ hfew))
      _ = 1024 := rfl

theorem r5lAppendFlushPayload_inv {slack : Nat} {log : Log n} (h : Inv conf slack log)
    (alloc : Bool) : Inv conf slack (r5lAppendFlushPayload conf log alloc) := by
  unfold r5lAppendFlushPayload
  split
  next => exact { h with unit := by simp }
  next f hf =>
    obtain ⟨hinv, hroom, hstripes⟩ := unitInv_getMeta h.head_lt (by decide)
      (fun io hio => (h.unit io hio).1) hf
    refine ⟨h.no_bug, hinv.placed.head_lt, h.batch_le, h.slack_le, ?_⟩
    rintro io ⟨⟩
    refine ⟨⟨⟨hinv.placed.start_lt, hinv.placed.head_lt, hinv.placed.head⟩, hroom, ?_⟩, ?_⟩
    · have hpaid := hinv.paid
      change metaBlockSize + 20 * f.io.pages ≤
        f.io.metaOffset + payloadFlushSize + 20 + conf.excess * f.io.stripeList
      omega
    · rcases hstripes with hzero | hcur
      · change f.io.stripeList + slack ≤ _
        rw [hzero, zero_add]
        exact h.slack_le
      · exact (h.unit _ hcur).2

/-- The parity pages of a stripe are paid for by their metadata and the excess of one stripe. -/
theorem parity_paid {parityPages : Nat} (hp : parityPages = 0 ∨ parityPages = conf.parityPages) :
    20 * parityPages ≤ parityMeta parityPages + conf.excess ∧ parityPages ≤ 2 ∧
      parityMeta parityPages ≤ payloadDataParitySize + checksumSize * parityPages := by
  rcases hp with rfl | rfl
  · exact ⟨Nat.zero_le _, Nat.zero_le _, Nat.zero_le _⟩
  · unfold LogConf.excess LogConf.parityPages parityMeta
    cases conf.level <;> decide

theorem r5lLogStripe_inv (hring : bioMaxVecs ≤ conf.deviceBlocks)
    (hfew : conf.level ≠ .raid6 ∨ n ≤ 8) {log : Log n} (h : Inv conf 1 log) {devs : List DataDev}
    {dataPages parityPages : Nat} (hdata : logged devs ≤ dataPages)
    (hsize : metaBlockSize + ((payloadDataParitySize + checksumSize) * dataPages +
      payloadDataParitySize + checksumSize * parityPages) ≤ pageSize)
    (hp : parityPages = 0 ∨ parityPages = conf.parityPages) (alloc : Bool) :
    Inv conf 0 (r5lLogStripe conf log devs dataPages parityPages alloc) := by
  unfold r5lLogStripe
  dsimp only
  split
  next => exact ⟨h.no_bug, h.head_lt, h.batch_le, Nat.zero_le _, by simp⟩
  next f hf =>
    obtain ⟨hinv, hroom, hstripes⟩ := unitInv_getMeta h.head_lt hsize
      (fun io hio => (h.unit io hio).1) hf
    obtain ⟨hparity, hptwo, hpmeta⟩ := @parity_paid conf _ hp
    have hcount : f.io.stripeList + 1 ≤ ∑ t, log.batch t := by
      rcases hstripes with hzero | hcur
      · rw [hzero, zero_add]
        exact h.slack_le
      · exact (h.unit _ hcur).2
    have hexcess : conf.excess * f.io.stripeList + conf.excess ≤ 1024 := by
      rw [← Nat.mul_succ]
      exact (Nat.mul_le_mul_left _ hcount).trans (excess_le hfew h.batch_le)
    have hpaid := hinv.paid
    -- the metadata of the whole call fits, so its pages do
    have hpages : f.io.pages + logged devs + parityPages ≤ bioMaxVecs := by
      unfold metaBlockSize payloadDataParitySize checksumSize pageSize bioMaxVecs at *
      omega
    obtain ⟨f₁, hf₁, hplaced₁, hpages₁⟩ := appendData_ok hring (logged devs) hinv.placed (by omega)
    obtain ⟨f₂, hf₂, hplaced₂, hpages₂⟩ := appendParity_ok hring hptwo hplaced₁
      (by rw [hpages₁]; exact hpages)
    have hdata₁ := appendData_described _ hf₁
    have hparity₂ := appendParity_described hptwo hf₂
    have hbind : (appendData conf.deviceBlocks (logged devs) f >>=
        appendParity conf.deviceBlocks parityPages) = .ok f₂ := by
      rw [hf₁]
      exact hf₂
    rw [hpages₁] at hpages₂
    have hmeta₂ : f₂.io.metaOffset = f.io.metaOffset +
        (payloadDataParitySize + checksumSize) * logged devs + parityMeta parityPages := by
      rw [hparity₂.meta_eq, hdata₁.meta_eq]
    have hstripes₂ := hparity₂.stripes_eq.trans hdata₁.stripes_eq
    rw [hbind]
    refine ⟨h.no_bug, hplaced₂.head_lt, h.batch_le, Nat.zero_le _, ?_⟩
    rintro io ⟨⟩
    refine ⟨⟨⟨hplaced₂.start_lt, hplaced₂.head_lt, hplaced₂.head⟩, ?_, ?_⟩, ?_⟩
    · change f₂.io.metaOffset ≤ pageSize
      have hmul := Nat.mul_le_mul_left (payloadDataParitySize + checksumSize) hdata
      omega
    · change metaBlockSize + 20 * f₂.io.pages ≤
        f₂.io.metaOffset + 20 + conf.excess * (f₂.io.stripeList + 1)
      rw [hpages₂, hmeta₂, hstripes₂, Nat.mul_succ]
      unfold metaBlockSize payloadDataParitySize checksumSize pageSize at *
      omega
    · change f₂.io.stripeList + 1 + 0 ≤ _
      rw [hstripes₂]
      exact hcount

theorem logged_le (devs : List DataDev) : logged devs ≤ devs.countP DataDev.wantwrite := by
  apply List.countP_mono_left
  intro d _ hd
  exact (Bool.and_eq_true_iff.mp hd).1

/-- The metadata of a stripe of the array fits a meta page of its own. -/
theorem metaSize_le (hconf : conf.Accepted) {dataPages parityPages : Nat}
    (hdata : dataPages ≤ conf.dataDisks) (hp : parityPages = 0 ∨ parityPages = conf.parityPages) :
    metaBlockSize + ((payloadDataParitySize + checksumSize) * dataPages +
      payloadDataParitySize + checksumSize * parityPages) ≤ pageSize := by
  obtain ⟨hdisks, hfits⟩ := hconf
  have hdegraded : 1 ≤ conf.level.maxDegraded := by
    cases conf.level <;> decide
  unfold LogConf.parityPages at hp
  unfold LogConf.dataDisks at hdata
  unfold metaBlockSize payloadDataParitySize checksumSize pageSize at *
  omega

theorem logCall_inv (hconf : conf.Accepted) (hring : bioMaxVecs ≤ conf.deviceBlocks)
    (hfew : conf.level ≠ .raid6 ∨ n ≤ 8) {log : Log n} (h : Inv conf 1 log) {call : LogCall}
    (hsized : call.sized conf) : Inv conf 0 (logCall conf log call) := by
  cases call with
  | none => exact h.weaken
  | writeStripe devs alloc =>
    have hle : logged devs ≤ conf.dataDisks :=
      List.countP_le_length.trans_eq (of_decide_eq_true hsized)
    exact r5lLogStripe_inv hring hfew h (Nat.le_refl _) (metaSize_le hconf hle (.inr rfl))
      (.inr rfl) alloc
  | cacheData devs alloc =>
    have hle : devs.countP DataDev.wantwrite ≤ conf.dataDisks :=
      List.countP_le_length.trans_eq (of_decide_eq_true hsized)
    exact r5lLogStripe_inv hring hfew h (logged_le devs) (metaSize_le hconf hle (.inl rfl))
      (.inl rfl) alloc

end Call

/-! ## The units of the whole log -/

section Whole

variable {n : Nat} {whole : R5lLog} {log : Log n}

/-- The log with all its units (`R5lLog`) and the log here have filled the meta pages of their
current units alike. -/
def Agrees (whole : R5lLog) (log : Log n) : Prop :=
  (whole.currentIo.map fun u => (whole.unit u).metaOffset) = log.currentIo.map FillUnit.metaOffset

variable (h : Agrees whole log) (conf : LogConf) (alloc : Bool)
include h

/-- Both find room in the current unit, open a new one, or have none. -/
theorem Agrees.getMeta (size : Nat) :
    let w := Journal.r5lGetMeta whole size alloc
    let m := r5lGetMeta conf.deviceBlocks log.logStart log.currentIo size alloc
    w.currentIo = none ∧ m = none ∨
      ∃ u f, w.currentIo = some u ∧ m = some f ∧ (w.unit u).metaOffset = f.io.metaOffset := by
  unfold Journal.r5lGetMeta r5lGetMeta r5lMakeRoom
  unfold Agrees at h
  cases hw : whole.currentIo <;> cases hl : log.currentIo <;> rw [hw, hl] at h
  · cases alloc <;> simp [hw, Journal.r5lNewMeta, r5lNewMeta, r5ReserveLogEntry, newIoUnit]
  · cases h
  · cases h
  · next u io =>
    have hm : (whole.unit u).metaOffset = io.metaOffset := Option.some.inj h
    by_cases hroom : io.metaOffset + size ≤ pageSize
    · simp [hw, hm, Option.filter_some, hroom, not_lt.mpr hroom]
    · cases alloc <;> simp [hw, hm, Option.filter_some, hroom, not_le.mp hroom, r5lSubmitCurrentIo,
        R5lLog.modifyUnit, Journal.r5lNewMeta, r5lNewMeta, r5ReserveLogEntry, newIoUnit]

theorem Agrees.appendFlushPayload :
    Agrees (Journal.r5lAppendFlushPayload whole alloc) (r5lAppendFlushPayload conf log alloc) := by
  rcases h.getMeta conf alloc payloadFlushSize with ⟨hw, hm⟩ | ⟨u, f, hw, hm, heq⟩ <;>
    simp [Agrees, Journal.r5lAppendFlushPayload, r5lAppendFlushPayload, hw, hm, R5lLog.modifyUnit]
  exact heq

theorem Agrees.handleFlushRequest :
    Agrees (Journal.r5lHandleFlushRequest whole alloc) (r5lHandleFlushRequest conf log alloc) := by
  rcases h.getMeta conf alloc 0 with ⟨hw, hm⟩ | ⟨u, f, hw, hm, -⟩ <;>
    simp [Agrees, Journal.r5lHandleFlushRequest, r5lHandleFlushRequest, hw, hm, R5lLog.modifyUnit,
      r5lSubmitCurrentIo]

/-- A stripe that is logged without a `BUG`, with room reserved for the pages it logs. -/
theorem Agrees.logStripe (sh : Nat) (devs : List DataDev) {parityPages : Nat} (hp : parityPages ≤ 2)
    (preflush fua : Bool)
    (hbug : (r5lLogStripe conf log devs (logged devs) parityPages alloc).bug = none) :
    Agrees (Journal.r5lLogStripe whole sh (logged devs) parityPages preflush fua alloc)
      (r5lLogStripe conf log devs (logged devs) parityPages alloc) := by
  rcases h.getMeta conf alloc ((payloadDataParitySize + checksumSize) * logged devs +
    payloadDataParitySize + checksumSize * parityPages) with ⟨hw, hm⟩ | ⟨u, f, hw, hm, heq⟩
  · simp [Agrees, Journal.r5lLogStripe, r5lLogStripe, hw, hm]
  · simp only [r5lLogStripe, hm, bind, Except.bind] at hbug
    cases hd : appendData conf.deviceBlocks (logged devs) f with
    | error e => simp [hd] at hbug
    | ok f₁ =>
      cases hq : appendParity conf.deviceBlocks parityPages f₁ with
      | error e => simp [hd, hq] at hbug
      | ok f₂ =>
        simp [Agrees, Journal.r5lLogStripe, r5lLogStripe, hw, hm, hd, hq, bind, Except.bind,
          R5lLog.modifyUnit, (appendParity_described hp hq).meta_eq, heq, parityMeta,
          (appendData_described _ hd).meta_eq]

end Whole

/-! ## Runs -/

section Runs

variable {conf : LogConf} {n : Nat}

theorem inv_start {logStart : Nat} (hlt : logStart < conf.deviceBlocks) :
    Inv conf 0 (Log.start logStart : Log n) where
  no_bug := rfl
  head_lt := hlt
  batch_le := .inr fun _ => Nat.zero_le _
  slack_le := Nat.zero_le _
  unit := by rintro _ ⟨⟩

/-- A stripe more in the batch of a thread. -/
theorem inv_handled {log : Log n} (h : Inv conf 0 log) {t : Fin n}
    (ht : conf.level ≠ .raid6 ∨ log.batch t < maxStripeBatch) :
    Inv conf 1 { log with batch := update log.batch t (log.batch t + 1) } := by
  have hsum : ∑ i, update log.batch t (log.batch t + 1) i = ∑ i, log.batch i + 1 := by
    rw [Finset.sum_update_of_mem (Finset.mem_univ t), ← Finset.add_sum_erase _ _
      (Finset.mem_univ t),
      Finset.sdiff_singleton_eq_erase]
    omega
  refine ⟨h.no_bug, h.head_lt, ?_, ?_, ?_⟩
  · refine (or_and_left.mpr ⟨ht, h.batch_le⟩).imp_right fun ⟨ht, hle⟩ i => ?_
    change update log.batch t (log.batch t + 1) i ≤ _
    rw [update_apply]
    split
    · exact ht
    · exact hle i
  · change 1 ≤ ∑ i, update log.batch t (log.batch t + 1) i
    rw [hsum]
    omega
  · intro io hio
    refine ⟨(h.unit io hio).1, ?_⟩
    change io.stripeList + 1 ≤ ∑ i, update log.batch t (log.batch t + 1) i
    rw [hsum]
    exact Nat.succ_le_succ (h.unit io hio).2

theorem step_inv (hconf : conf.Accepted) (hring : bioMaxVecs ≤ conf.deviceBlocks)
    (hfew : conf.level ≠ .raid6 ∨ n ≤ 8) {log log' : Log n} {e : Event n} (h : Inv conf 0 log)
    (hbatched : Batched conf log e) (hs : step conf log e = some log') : Inv conf 0 log' := by
  obtain ⟨-, hs⟩ := Option.ite_none_left_eq_some.mp hs
  cases e with
  | handleStripe t flush call =>
    obtain ⟨hguard, rfl⟩ := guard_eq_some.mp hs
    refine logCall_inv hconf hring hfew ?_ (Bool.not_eq_false _ ▸ hguard)
    have hbatch := inv_handled h hbatched
    cases flush with
    | none => exact hbatch
    | some alloc => exact r5lAppendFlushPayload_inv hbatch alloc
  | writeStripeRun t =>
    cases hs
    refine ⟨h.no_bug, h.head_lt, ?_, Nat.zero_le _, by simp⟩
    refine h.batch_le.imp_right fun hle i => ?_
    change update log.batch t 0 i ≤ _
    rw [update_apply]
    split
    · exact Nat.zero_le _
    · exact hle i
  | flushRequest alloc =>
    cases hs
    unfold r5lHandleFlushRequest
    split
    next => exact ⟨h.no_bug, h.head_lt, h.batch_le, Nat.zero_le _, by simp⟩
    next f hf =>
      obtain ⟨hinv, -, -⟩ := unitInv_getMeta h.head_lt (by decide)
        (fun io hio => (h.unit io hio).1) hf
      exact ⟨h.no_bug, hinv.placed.head_lt, h.batch_le, Nat.zero_le _, by simp⟩

theorem Inv.fits (hfew : conf.level ≠ .raid6 ∨ n ≤ 8) {log : Log n} (h : Inv conf 0 log) :
    Fits log := by
  have hpages : ∀ io, log.currentIo = some io → io.pages ≤ bioMaxVecs := by
    intro io hio
    obtain ⟨hinv, hcount⟩ := h.unit io hio
    exact hinv.pages_le ((Nat.mul_le_mul_left _ hcount).trans (excess_le hfew h.batch_le))
  refine ⟨h.no_bug, fun io hio => (h.unit io hio).1.meta_le, ?_, ?_⟩
  · intro io hio
    exact (Nat.le_add_right _ _).trans (hpages io hio)
  · intro io hio pages hsplit
    have hle := hpages io hio
    rw [FillUnit.pages, hsplit, Option.getD_some] at hle
    omega

end Runs

/-- **Io units fit their bios on level 4 and 5, and on level 6 with up to eight threads that keep
to their batches.** For every array the log accepts, on a log device of at least `BIO_MAX_VECS`
blocks, from every position of the log: whatever the threads log, append and submit in between,
every unit fits its meta page and its bios, and neither `BUG` is reached. -/
theorem io_unit_fits (conf : LogConf) (hconf : conf.Accepted)
    (hring : bioMaxVecs ≤ conf.deviceBlocks) (hfew : conf.level ≠ .raid6 ∨ conf.threads ≤ 8)
    (logStart : Nat) (hlt : logStart < conf.deviceBlocks) (es : List (Event conf.threads))
    (halong : Along (step conf) (Batched conf) (Log.start logStart) es) (log : Log conf.threads)
    (hrun : run (step conf) (Log.start logStart) es = some log) : Fits log := by
  refine Inv.fits hfew (run_preserves (I := Inv conf 0) ?_ (inv_start hlt) halong hrun)
  intro log e log' h hbatched hs
  exact step_inv hconf hring hfew h hbatched hs

/-- RAID-6 on four disks, a log of 4 MiB. -/
def raid6Log (threads : Nat) : LogConf := ⟨.raid6, 4, 1024, threads⟩

/-- A stripe with `k` of its two data devices to log. -/
def stripeWith (k : Nat) : LogCall :=
  .writeStripe [⟨decide (1 ≤ k), false⟩, ⟨decide (2 ≤ k), false⟩] true

/-- Two threads log into one unit, around the end of the ring. -/
def twoHandled : List (Event 2) :=
  [.handleStripe 0 none (stripeWith 2), .handleStripe 1 (some true) (stripeWith 1)]

theorem io_unit_fits_two_threads : ∃ log : Log 2,
    run (step (raid6Log 2)) (Log.start 1020) twoHandled = some log ∧ Fits log :=
  have halong : Along (step (raid6Log 2)) (Batched (raid6Log 2)) (Log.start 1020) twoHandled := by
    decide
  ⟨_, rfl, io_unit_fits (raid6Log 2) ⟨by decide, by decide⟩ (by decide) (.inr (by decide))
    1020 (by decide) twoHandled halong _ rfl⟩

/-- Nine threads handle eight stripes each before any of them submits the unit, 44 of them with
two data pages and the others with one. The last one is left out. -/
def nineBatches : List (Event 9) :=
  ((List.finRange 9).flatMap fun t => (List.range 8).map fun i =>
    .handleStripe t none (stripeWith (if 8 * t.val + i < 44 then 2 else 1))).take 71

/-- The bio is full before the meta page is. -/
theorem nine_threads_bug : ∃ log : Log 9,
    run (step (raid6Log 9)) (Log.start 0) nineBatches = some log ∧ log.bug = some .bioAddPage :=
  exists_of_any (fun log => log.bug = some .bioAddPage) (by decide +kernel) fun _ _ hbug => hbug

end MdRaid.Journal.UnitSize
