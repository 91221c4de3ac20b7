import MdRaid.Geometry.ComputeSector
import MdRaid.Lib.Ring

/-!
# The scan of the log after a crash

`r5c_recovery_flush_log` reads meta block after meta block. It checks the checksums of all
pages a meta block describes before it loads any of them, and is meant to drop the
payloads of a meta block with a damaged page and to go on with the next one, "as io_unit
could finish out of order". Where the next one is it knows from `meta_total_blocks`, which
counts the pages while they are loaded.

A page of the log is a value of any type, with a checksum and with the meta block it holds if
it has the magic number, the version and the checksum of one. Allocations succeed.
-/

namespace MdRaid.Journal.Recovery

open MdRaid.Geometry (Level)

/-! ## Definitions -/

/-- The payloads of a meta block; `size` is in sectors. -/
inductive Payload : Type where
  | data (location size checksum : Nat)
  | parity (location size checksumP checksumQ : Nat)
  | flush (flushStripes : List Nat)
  | unknown
deriving DecidableEq, Repr

structure MetaBlock where
  seq : Nat
  position : Nat
  payloads : List Payload
deriving DecidableEq, Repr

/-- The log device and what recovery reads from it. -/
structure LogDevice (α : Type*) where
  deviceSize : Nat
  level : Level
  page : Nat → α
  crc : α → Nat
  metaBlock : α → Option MetaBlock

/-- `struct r5l_recovery_ctx`. The last fields keep what was done: the meta blocks that were
analysed, and the payloads that were loaded with their place in the log. -/
structure Ctx where
  pos : Nat
  seq : Nat
  metaTotalBlocks : Nat
  analysed : List MetaBlock
  loaded : List (Nat × Payload)
deriving DecidableEq, Repr

inductive Errno : Type where
  | einval
  | eagain
deriving DecidableEq, Repr

section Scan

variable {α : Type*} (log : LogDevice α)

def LogDevice.ringAdd (start inc : Nat) : Nat := RingLog.add log.deviceSize start inc

/-- The meta block at `pos` if it is valid there with sequence number `seq`. -/
def LogDevice.metaBlockAt (pos seq : Nat) : Option MetaBlock :=
  (log.metaBlock (log.page pos)).filter fun mb => decide (mb.seq = seq ∧ mb.position = pos)

def r5lRecoveryReadMetaBlock (ctx : Ctx) : Option (MetaBlock × Ctx) :=
  (log.metaBlockAt ctx.pos ctx.seq).map fun mb => (mb, { ctx with metaTotalBlocks := blockSectors })

def r5lRecoveryVerifyDataChecksum (logOffset logChecksum : Nat) : Bool :=
  decide (logChecksum = log.crc (log.page logOffset))

/-- The loop of `r5l_recovery_verify_data_checksum_for_mb`; `false` is the mismatch. -/
def r5lRecoveryVerifyDataChecksumForMb : Nat → List Payload → Bool
  | _, [] => true
  | logOffset, .data _ size checksum :: payloads =>
    r5lRecoveryVerifyDataChecksum log logOffset checksum &&
      r5lRecoveryVerifyDataChecksumForMb (log.ringAdd logOffset size) payloads
  | logOffset, .parity _ size checksumP checksumQ :: payloads =>
    r5lRecoveryVerifyDataChecksum log logOffset checksumP &&
      (!decide (log.level.maxDegraded = 2) ||
        r5lRecoveryVerifyDataChecksum log (log.ringAdd logOffset blockSectors) checksumQ) &&
      r5lRecoveryVerifyDataChecksumForMb (log.ringAdd logOffset size) payloads
  | logOffset, .flush _ :: payloads => r5lRecoveryVerifyDataChecksumForMb logOffset payloads
  | _, .unknown :: _ => false

/-- The loop of `r5c_recovery_analyze_meta_block` that loads the payloads. -/
def loadPayloads : Nat → List Payload → Ctx → Except Errno Ctx
  | _, [], ctx => .ok ctx
  | logOffset, .data location size checksum :: payloads, ctx =>
    loadPayloads (log.ringAdd logOffset size) payloads
      { ctx with
        metaTotalBlocks := ctx.metaTotalBlocks + blockSectors
        loaded := ctx.loaded ++ [(logOffset, .data location size checksum)] }
  | logOffset, .parity location size checksumP checksumQ :: payloads, ctx =>
    loadPayloads (log.ringAdd logOffset size) payloads
      { ctx with
        metaTotalBlocks := ctx.metaTotalBlocks + blockSectors * log.level.maxDegraded
        loaded := ctx.loaded ++ [(logOffset, .parity location size checksumP checksumQ)] }
  | logOffset, .flush flushStripes :: payloads, ctx =>
    loadPayloads logOffset payloads
      { ctx with loaded := ctx.loaded ++ [(logOffset, .flush flushStripes)] }
  | _, .unknown :: _, _ => .error .einval

def r5cRecoveryAnalyzeMetaBlock (mb : MetaBlock) (ctx : Ctx) : Except Errno Ctx :=
  let logOffset := log.ringAdd ctx.pos blockSectors
  if r5lRecoveryVerifyDataChecksumForMb log logOffset mb.payloads then
    (loadPayloads log logOffset mb.payloads ctx).map fun ctx =>
      { ctx with analysed := ctx.analysed ++ [mb] }
  else .error .eagain

/-- On to the next meta block. -/
def Ctx.next (ctx : Ctx) : Ctx :=
  { ctx with seq := ctx.seq + 1, pos := log.ringAdd ctx.pos ctx.metaTotalBlocks }

/-- The scan of `r5c_recovery_flush_log`, with a bound on the meta blocks it reads. -/
def r5cRecoveryFlushLog : Nat → Ctx → Option Ctx
  | 0, _ => none
  | fuel + 1, ctx =>
    match r5lRecoveryReadMetaBlock log ctx with
    | none => some ctx
    | some (mb, ctx) =>
      match r5cRecoveryAnalyzeMetaBlock log mb ctx with
      | .error .einval => some ctx
      | .error .eagain => r5cRecoveryFlushLog fuel (ctx.next log)
      | .ok ctx => r5cRecoveryFlushLog fuel (ctx.next log)

/-- Recovery starts at the last checkpoint. -/
def Ctx.start (pos seq : Nat) : Ctx := ⟨pos, seq, 0, [], []⟩

end Scan

/-! ## Valid logs -/

section Valid

variable {α : Type*} (log : LogDevice α)

/-- The pages of a payload. -/
def LogDevice.pages : Payload → Nat
  | .data .. => 1
  | .parity .. => log.level.maxDegraded
  | .flush _ | .unknown => 0

/-- As `r5l_append_payload_meta` and `r5l_append_flush_payload` write it. -/
def LogDevice.WellFormed (p : Payload) : Prop :=
  match p with
  | .data _ size _ => size = blockSectors
  | .parity _ size _ _ => size = blockSectors * log.level.maxDegraded
  | .flush _ => True
  | .unknown => False

def LogDevice.mbPages (payloads : List Payload) : Nat := (payloads.map log.pages).sum

/-- The place of each payload's first page behind `logOffset`. -/
def LogDevice.placed : Nat → List Payload → List (Nat × Payload)
  | _, [] => []
  | logOffset, p :: payloads =>
    (logOffset, p) ::
      LogDevice.placed (if log.pages p = 0 then logOffset
        else log.ringAdd logOffset (blockSectors * log.pages p)) payloads

/-- The pages a placed payload describes, with their checksums. -/
def LogDevice.described : Nat × Payload → List (Nat × Nat)
  | (logOffset, .data _ _ checksum) => [(logOffset, checksum)]
  | (logOffset, .parity _ _ checksumP checksumQ) =>
    (logOffset, checksumP) ::
      if log.level.maxDegraded = 2 then [(log.ringAdd logOffset blockSectors, checksumQ)] else []
  | (_, .flush _) | (_, .unknown) => []

/-- The payloads of a meta block and their places. -/
def LogDevice.payloadsOf (mb : MetaBlock) : List (Nat × Payload) :=
  log.placed (log.ringAdd mb.position blockSectors) mb.payloads

/-- All pages of the meta block have their checksums. -/
def LogDevice.intact (mb : MetaBlock) : Bool :=
  (log.payloadsOf mb).all fun p =>
    (log.described p).all fun d => decide (d.2 = log.crc (log.page d.1))

/-- A log from `pos` and `seq` on: valid meta blocks behind each other, up to a place where
there is none. The page behind a meta block that has pages does not pass for the next meta
block. -/
def LogDevice.LaidOut : Nat → Nat → List MetaBlock → Prop
  | pos, seq, [] => log.metaBlockAt pos seq = none
  | pos, seq, mb :: blocks =>
    log.metaBlockAt pos seq = some mb ∧ (∀ p ∈ mb.payloads, log.WellFormed p) ∧
      (log.mbPages mb.payloads ≠ 0 →
        log.metaBlockAt (log.ringAdd pos blockSectors) (seq + 1) = none) ∧
      LogDevice.LaidOut (log.ringAdd pos (blockSectors + blockSectors * log.mbPages mb.payloads))
        (seq + 1) blocks

/-- The scan ends, and has analysed and loaded what the intact meta blocks describe. -/
def LogDevice.RecoversExactly (pos seq : Nat) (blocks : List MetaBlock) : Prop :=
  ∀ fuel > blocks.length, ∃ ctx, r5cRecoveryFlushLog log fuel (.start pos seq) = some ctx ∧
    ctx.analysed = blocks.filter log.intact ∧
    ctx.loaded = (blocks.filter log.intact).flatMap log.payloadsOf

end Valid

/-! ## One meta block -/

section OneBlock

variable {α : Type*} {log : LogDevice α}

/-- The size field of a well-formed payload with pages is their size. -/
theorem placed_cons_data {logOffset location size checksum : Nat} {payloads : List Payload}
    (h : log.WellFormed (.data location size checksum)) :
    log.placed logOffset (.data location size checksum :: payloads) =
      (logOffset, .data location size checksum) ::
        log.placed (log.ringAdd logOffset size) payloads := by
  obtain rfl : size = blockSectors := h
  rfl

theorem maxDegraded_ne_zero (level : Level) : level.maxDegraded ≠ 0 := by
  cases level <;> decide

theorem placed_cons_parity {logOffset location size checksumP checksumQ : Nat}
    {payloads : List Payload} (h : log.WellFormed (.parity location size checksumP checksumQ)) :
    log.placed logOffset (.parity location size checksumP checksumQ :: payloads) =
      (logOffset, .parity location size checksumP checksumQ) ::
        log.placed (log.ringAdd logOffset size) payloads := by
  obtain rfl : size = blockSectors * log.level.maxDegraded := h
  rw [LogDevice.placed, if_neg (show log.pages (.parity ..) ≠ 0 from maxDegraded_ne_zero _)]
  rfl

/-- The checksum loop looks at the described pages. -/
theorem verify_eq : ∀ (payloads : List Payload) (logOffset : Nat),
    (∀ p ∈ payloads, log.WellFormed p) → r5lRecoveryVerifyDataChecksumForMb log logOffset payloads =
      (log.placed logOffset payloads).all fun p =>
        (log.described p).all fun d => decide (d.2 = log.crc (log.page d.1)) := by
  intro payloads
  induction payloads with
  | nil =>
    intro _ _
    rfl
  | cons p payloads ih =>
    intro logOffset hwf
    obtain ⟨hp, hrest⟩ := List.forall_mem_cons.mp hwf
    cases p with
    | data location size checksum =>
      rw [placed_cons_data hp, List.all_cons, ← ih _ hrest, r5lRecoveryVerifyDataChecksumForMb,
        LogDevice.described, List.all_cons, List.all_nil, Bool.and_true]
      rfl
    | parity location size checksumP checksumQ =>
      rw [placed_cons_parity hp, List.all_cons, ← ih _ hrest, r5lRecoveryVerifyDataChecksumForMb,
        LogDevice.described, List.all_cons]
      by_cases hq : log.level.maxDegraded = 2
      · rw [if_pos hq, decide_eq_true hq, List.all_cons, List.all_nil, Bool.and_true]
        rfl
      · rw [if_neg hq, decide_eq_false hq, List.all_nil]
        rfl
    | flush flushStripes => exact ih _ hrest
    | unknown => exact hp.elim

/-- The loading loop loads every payload and counts its pages. -/
theorem loadPayloads_eq : ∀ (payloads : List Payload) (logOffset : Nat) (ctx : Ctx),
    (∀ p ∈ payloads, log.WellFormed p) → loadPayloads log logOffset payloads ctx = .ok { ctx with
        metaTotalBlocks := ctx.metaTotalBlocks + blockSectors * log.mbPages payloads
        loaded := ctx.loaded ++ log.placed logOffset payloads } := by
  intro payloads
  induction payloads with
  | nil =>
    intro logOffset ctx _
    rw [loadPayloads, LogDevice.placed, List.append_nil]
    rfl
  | cons p payloads ih =>
    intro logOffset ctx hwf
    obtain ⟨hp, hrest⟩ := List.forall_mem_cons.mp hwf
    have hpages : log.mbPages (p :: payloads) = log.pages p + log.mbPages payloads := by
      rw [LogDevice.mbPages, List.map_cons, List.sum_cons]
      rfl
    cases p with
    | data location size checksum =>
      rw [loadPayloads, ih _ _ hrest, placed_cons_data hp, hpages, List.append_assoc,
        Nat.mul_add, ← Nat.add_assoc]
      rfl
    | parity location size checksumP checksumQ =>
      rw [loadPayloads, ih _ _ hrest, placed_cons_parity hp, hpages, List.append_assoc,
        Nat.mul_add, ← Nat.add_assoc]
      rfl
    | flush flushStripes =>
      rw [loadPayloads, ih _ _ hrest, hpages, List.append_assoc]
      rw [show log.pages (.flush flushStripes) = 0 from rfl, Nat.zero_add]
      rfl
    | unknown => exact hp.elim

theorem snd_mem_of_mem_placed {x : Nat × Payload} : ∀ {payloads : List Payload} {logOffset : Nat},
    x ∈ log.placed logOffset payloads → x.2 ∈ payloads := by
  intro payloads
  induction payloads with
  | nil => exact fun hx => absurd hx List.not_mem_nil
  | cons p payloads ih =>
    intro logOffset hx
    rcases List.mem_cons.mp hx with rfl | hx
    · exact List.mem_cons_self
    · exact List.mem_cons_of_mem _ (ih hx)

/-- A meta block without pages has nothing to be damaged. -/
theorem intact_of_no_pages {mb : MetaBlock} (h : log.mbPages mb.payloads = 0) : log.intact mb := by
  rw [LogDevice.intact, List.all_eq_true]
  rintro ⟨logOffset, p⟩ hx
  have hpages : log.pages p = 0 :=
    (List.sum_eq_zero_iff.mp h) _ (List.mem_map_of_mem (snd_mem_of_mem_placed hx))
  cases p with
  | data => exact absurd hpages Nat.one_ne_zero
  | parity => exact absurd hpages (maxDegraded_ne_zero _)
  | flush | unknown => rfl

/-- **One meta block of the scan.** An intact one is loaded as a whole; of a damaged one nothing
is, and its pages are not counted. -/
theorem analyze_eq {mb : MetaBlock} {ctx : Ctx} (hpos : mb.position = ctx.pos)
    (hwf : ∀ p ∈ mb.payloads, log.WellFormed p) : r5cRecoveryAnalyzeMetaBlock log mb ctx =
      if log.intact mb = true then .ok { ctx with
          metaTotalBlocks := ctx.metaTotalBlocks + blockSectors * log.mbPages mb.payloads
          analysed := ctx.analysed ++ [mb]
          loaded := ctx.loaded ++ log.payloadsOf mb }
      else .error .eagain := by
  have hverify : r5lRecoveryVerifyDataChecksumForMb log (log.ringAdd ctx.pos blockSectors)
      mb.payloads = log.intact mb := by
    rw [verify_eq _ _ hwf, ← hpos]
    rfl
  rw [r5cRecoveryAnalyzeMetaBlock, hverify]
  split
  · rw [loadPayloads_eq _ _ _ hwf, ← hpos]
    rfl
  · rfl

end OneBlock

/-! ## The scan -/

section Whole

variable {α : Type*} {log : LogDevice α}

theorem metaBlockAt_position {pos seq : Nat} {mb : MetaBlock}
    (h : log.metaBlockAt pos seq = some mb) : mb.position = pos :=
  (of_decide_eq_true (Option.filter_eq_some_iff.mp h).2).2

theorem flushLog_none {ctx : Ctx} {fuel : Nat} (h : log.metaBlockAt ctx.pos ctx.seq = none) :
    r5cRecoveryFlushLog log (fuel + 1) ctx = some ctx := by
  rw [r5cRecoveryFlushLog, r5lRecoveryReadMetaBlock, h]
  rfl

/-- **The scan stops behind the first damaged meta block.** -/
theorem flushLog_eq : ∀ (blocks : List MetaBlock) (ctx : Ctx) (fuel : Nat),
    log.LaidOut ctx.pos ctx.seq blocks → blocks.length < fuel →
    ∃ ctx', r5cRecoveryFlushLog log fuel ctx = some ctx' ∧
      ctx'.analysed = ctx.analysed ++ blocks.takeWhile log.intact ∧
      ctx'.loaded = ctx.loaded ++ (blocks.takeWhile log.intact).flatMap log.payloadsOf := by
  intro blocks
  induction blocks with
  | nil =>
    intro ctx fuel hlaid hfuel
    obtain ⟨fuel, rfl⟩ := Nat.exists_eq_succ_of_ne_zero (ne_of_gt hfuel)
    exact ⟨ctx, flushLog_none hlaid, (List.append_nil _).symm, (List.append_nil _).symm⟩
  | cons mb blocks ih =>
    intro ctx fuel hlaid hfuel
    obtain ⟨hmb, hwf, hpage, hrest⟩ := hlaid
    obtain ⟨fuel, rfl⟩ := Nat.exists_eq_succ_of_ne_zero (ne_of_gt (Nat.zero_lt_of_lt hfuel))
    have hfuel' : blocks.length < fuel := Nat.lt_of_succ_lt_succ hfuel
    rw [r5cRecoveryFlushLog, r5lRecoveryReadMetaBlock, hmb, Option.map_some]
    dsimp only
    rw [@analyze_eq _ log mb { ctx with metaTotalBlocks := blockSectors }
      (metaBlockAt_position hmb) hwf]
    by_cases hintact : log.intact mb
    · rw [if_pos hintact, List.takeWhile_cons_of_pos hintact]
      obtain ⟨ctx', hrun, hanalysed, hloaded⟩ := ih (Ctx.next log
        { ctx with
          metaTotalBlocks := blockSectors + blockSectors * log.mbPages mb.payloads
          analysed := ctx.analysed ++ [mb]
          loaded := ctx.loaded ++ log.payloadsOf mb }) fuel hrest hfuel'
      refine ⟨ctx', hrun, hanalysed.trans ?_, hloaded.trans ?_⟩
      · exact List.append_assoc _ _ _
      · rw [List.flatMap_cons]
        exact List.append_assoc _ _ _
    · -- the next read finds a page of the damaged meta block
      rw [if_neg hintact, List.takeWhile_cons_of_neg hintact]
      have hpages : log.mbPages mb.payloads ≠ 0 := fun h => hintact (intact_of_no_pages h)
      obtain ⟨fuel, rfl⟩ := Nat.exists_eq_succ_of_ne_zero (Nat.ne_of_gt (Nat.zero_lt_of_lt hfuel'))
      exact ⟨_, flushLog_none (hpage hpages), (List.append_nil _).symm, (List.append_nil _).symm⟩

/-- Taking while a test succeeds keeps all that pass it when none behind a failure passes. -/
theorem takeWhile_eq_filter_iff {β : Type*} {p : β → Bool} : ∀ {l : List β},
    l.takeWhile p = l.filter p ↔ l.Pairwise fun a b => p b → p a := by
  intro l
  induction l with
  | nil => exact iff_of_true rfl List.Pairwise.nil
  | cons a l ih =>
    rw [List.pairwise_cons]
    by_cases ha : p a
    · rw [List.takeWhile_cons_of_pos ha, List.filter_cons_of_pos ha, List.cons_inj_right, ih]
      exact (and_iff_right fun b _ _ => ha).symm
    · rw [List.takeWhile_cons_of_neg ha, List.filter_cons_of_neg ha, eq_comm,
        List.filter_eq_nil_iff]
      constructor
      · intro hall
        refine ⟨fun b hb hpb => absurd hpb (hall b hb), ?_⟩
        exact List.pairwise_of_forall_mem_list fun x _ y hy hpy => absurd hpy (hall y hy)
      · intro h b hb hpb
        exact ha (h.1 b hb hpb)

end Whole

/-- **A damaged page costs all later meta blocks.** On every valid log the scan analyses and
loads exactly the intact meta blocks if and only if no intact one follows a damaged one. -/
theorem recovers_exactly_iff {α : Type*} (log : LogDevice α) (pos seq : Nat)
    (blocks : List MetaBlock) (hlaid : log.LaidOut pos seq blocks) :
    log.RecoversExactly pos seq blocks ↔
      blocks.Pairwise fun a b => log.intact b = true → log.intact a = true := by
  have hscan := fun fuel hfuel => flushLog_eq blocks (.start pos seq) fuel hlaid hfuel
  rw [← takeWhile_eq_filter_iff]
  constructor
  · intro hexact
    obtain ⟨ctx, hrun, hanalysed, -⟩ := hexact _ (Nat.lt_succ_self _)
    obtain ⟨ctx', hrun', hanalysed', -⟩ := hscan _ (Nat.lt_succ_self _)
    obtain rfl := Option.some.inj (hrun.symm.trans hrun')
    exact hanalysed'.symm.trans hanalysed
  · intro heq fuel hfuel
    obtain ⟨ctx, hrun, hanalysed, hloaded⟩ := hscan fuel hfuel
    rw [heq] at hanalysed hloaded
    exact ⟨ctx, hrun, hanalysed, hloaded⟩

/-! ## A log of two meta blocks -/

/-- A page is a meta block or a number that is its own checksum. -/
inductive Content : Type where
  | block (mb : MetaBlock)
  | data (n : Nat)

def firstBlock : MetaBlock := ⟨1, 0, [.data 0 8 5]⟩

def secondBlock : MetaBlock := ⟨2, 16, [.data 8 8 9]⟩

/-- The first meta block expects a page with checksum 5 and finds `first`. -/
def twoBlockLog (first : Nat) : LogDevice Content where
  deviceSize := 800
  level := .raid5
  page sector :=
    if sector = 0 then .block firstBlock else if sector = 8 then .data first
    else if sector = 16 then .block secondBlock else if sector = 24 then .data 9
    else .data 0
  crc
    | .block _ => 0
    | .data n => n
  metaBlock
    | .block mb => some mb
    | .data _ => none

theorem twoBlockLog_laidOut (first : Nat) :
    (twoBlockLog first).LaidOut 0 1 [firstBlock, secondBlock] := by
  refine ⟨rfl, ?_, fun _ => rfl, rfl, ?_, fun _ => rfl, rfl⟩ <;>
    · intro p hp
      obtain rfl := List.mem_singleton.mp hp
      rfl

theorem recovers_exactly_undamaged :
    (twoBlockLog 5).RecoversExactly 0 1 [firstBlock, secondBlock] := by
  rw [recovers_exactly_iff (twoBlockLog 5) 0 1 _ (twoBlockLog_laidOut 5)]
  decide

/-- With the page of the first meta block damaged the intact second one is not analysed. -/
theorem second_block_lost : (twoBlockLog 7).LaidOut 0 1 [firstBlock, secondBlock] ∧
    (twoBlockLog 7).intact secondBlock = true ∧
    (r5cRecoveryFlushLog (twoBlockLog 7) 3 (.start 0 1)).map Ctx.analysed = some [] :=
  ⟨twoBlockLog_laidOut 7, by decide, by decide⟩

end MdRaid.Journal.Recovery
