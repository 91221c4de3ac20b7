import MdRaid.Stripe.StripeFill

/-!
# The phases of a scrub

While a stripe is driven it is in one of seven phases: blocks are gathered, lost
blocks are being computed, a check is running, its result is there, the parity is
being repaired, the repair is done, or the stripe is in sync. Each phase says what
the pages hold and what the two bits of the check mean, by comparison with the
stripe the devices determine.
-/

namespace MdRaid.Stripe

open MdRaid.Geometry Loops StripeHead

variable {conf : SyncConf} {disk : Nat → Page} {failed : Finset Nat} {check : Bool}
  {sh0 : StripeHead} {st : SyncStripe}

/-! ## What does not change -/

/-- What is set up before the stripe is driven and stays so. -/
structure Driven (conf : SyncConf) (disk : Nat → Page) (failed : Finset Nat) (check : Bool)
    (sh0 : StripeHead) (st : SyncStripe) : Prop where
  target : Target conf disk failed sh0
  geometry : st.sh.toStripeHead = sh0.toStripeHead
  lone : st.sh.batchHead = false
  noReconstruct : st.sh.reconstructState = .idle
  noJournal : NoJournal st.sh
  failed_iff : ∀ i, i ∈ failed ↔ i < st.sh.disks ∧ (st.sh.dev i).flags.insync = false
  disk_eq : st.disk = disk
  check_eq : st.check = check

namespace Driven

section

variable (h : Driven conf disk failed check sh0 st)
include h

theorem disks : st.sh.disks = sh0.disks := by
  rw [h.geometry]

theorem card_le : failed.card ≤ 2 := by
  have := h.target.degraded
  cases hl : conf.level <;> rw [hl] at this <;> simp only [Level.maxDegraded] at this <;> omega

theorem card_le_one (hl : conf.level ≠ .raid6) : failed.card ≤ 1 := by
  have := h.target.degraded
  cases hl' : conf.level with
  | raid6 => exact absurd hl' hl
  | raid4 => rwa [hl'] at this
  | raid5 => rwa [hl'] at this

/-- A change to pages and to flags other than those set up. -/
theorem congr {st' : SyncStripe}
    (hgeo : st'.sh.toStripeHead = st.sh.toStripeHead) (hlone : st'.sh.batchHead = st.sh.batchHead)
    (hrec : st'.sh.reconstructState = st.sh.reconstructState)
    (hflags : ∀ i, (st'.sh.dev i).flags.insync = (st.sh.dev i).flags.insync ∧
      (st'.sh.dev i).flags.inJournal = (st.sh.dev i).flags.inJournal)
    (hdisk : st'.disk = st.disk) (hcheck : st'.check = st.check) :
    Driven conf disk failed check sh0 st' where
  target := h.target
  geometry := hgeo.trans h.geometry
  lone := hlone.trans h.lone
  noReconstruct := hrec.trans h.noReconstruct
  noJournal i hi := by
    rw [(hflags i).2]
    exact h.noJournal i (by rwa [hgeo] at hi)
  failed_iff i := by
    rw [(hflags i).1, hgeo]
    exact h.failed_iff i
  disk_eq := hdisk.trans h.disk_eq
  check_eq := hcheck.trans h.check_eq

end

end Driven

/-- No block is on its way, being computed or being written. -/
structure Clear (sh0 : StripeHead) (st : SyncStripe) : Prop where
  locked : ∀ i < sh0.disks, (st.sh.dev i).flags.locked = false
  wantread : ∀ i < sh0.disks, (st.sh.dev i).flags.wantread = false
  wantwrite : ∀ i < sh0.disks, (st.sh.dev i).flags.wantwrite = false

theorem Clear.congr {sh0 : StripeHead} {st st' : SyncStripe} (h : Clear sh0 st)
    (hkeep : ∀ i, (st'.sh.dev i).flags.locked = (st.sh.dev i).flags.locked ∧
      (st'.sh.dev i).flags.wantread = (st.sh.dev i).flags.wantread ∧
      (st'.sh.dev i).flags.wantwrite = (st.sh.dev i).flags.wantwrite) : Clear sh0 st' :=
  ⟨fun i hi => (hkeep i).1.trans (h.locked i hi),
    fun i hi => (hkeep i).2.1.trans (h.wantread i hi),
    fun i hi => (hkeep i).2.2.trans (h.wantwrite i hi)⟩

/-! ## The phases -/

section

variable (conf disk failed check sh0 st)

/-- Blocks are read; those of failed devices are missing until they are computed. `P` is not the
only block that is missing, unless it is being read. -/
structure Gather : Prop where
  idle : st.checkState = .idle
  noCompute : st.sh.computeRun = false
  notDone : st.insync = false
  wantcompute : ∀ i < sh0.disks, (st.sh.dev i).flags.wantcompute = false
  wantwrite : ∀ i < sh0.disks, (st.sh.dev i).flags.wantwrite = false
  reading : ∀ i < sh0.disks, (st.sh.dev i).flags.wantread = (st.sh.dev i).flags.locked
  locked : ∀ i < sh0.disks, (st.sh.dev i).flags.locked = true →
    (st.sh.dev i).flags.uptodate = false ∧ i ∉ failed
  page : ∀ i < sh0.disks, (st.sh.dev i).flags.uptodate = true →
    st.sh.dataPage i = view disk failed sh0 i
  rebuilt : (∀ i ∈ failed, (st.sh.dev i).flags.uptodate = false) ∨
    ∀ i < sh0.disks, (st.sh.dev i).flags.uptodate = true
  pLast : conf.level = .raid6 → sh0.pd ∉ failed → (st.sh.dev sh0.pd).flags.uptodate = false →
    (st.sh.dev sh0.pd).flags.locked = false →
    (∀ i < sh0.disks, (st.sh.dev i).flags.locked = false) ∧
      ∃ i < sh0.disks, i ≠ sh0.pd ∧ (st.sh.dev i).flags.uptodate = false

/-- The blocks of the failed devices are being computed. -/
structure Filling : Prop extends Clear sh0 st where
  idle : st.checkState = .idle
  compute : st.sh.computeRun = true
  notDone : st.insync = false
  targets : Targets st.sh failed
  uptodate : ∀ i < sh0.disks, (st.sh.dev i).flags.uptodate = decide (i ∉ failed)
  page : ∀ i < sh0.disks, st.sh.dataPage i = view disk failed sh0 i

/-- The two bits of the check tell which parity blocks are not the right ones. -/
structure Sums : Prop where
  p : st.zeroSumP = true ↔ view disk failed sh0 sh0.pd ≠ sh0.dataPage sh0.pd
  q : conf.level = .raid6 →
    (st.zeroSumQ = true ↔ view disk failed sh0 sh0.qd ≠ sh0.dataPage sh0.qd)

/-- A check has been started; `P` may have been destroyed by it. -/
structure Checked : Prop extends Clear sh0 st, Sums conf disk failed sh0 st where
  noCompute : st.sh.computeRun = false
  notDone : st.insync = false
  wantcompute : ∀ i < sh0.disks, (st.sh.dev i).flags.wantcompute = false
  uptodate : ∀ i < sh0.disks, i ≠ sh0.pd → (st.sh.dev i).flags.uptodate = true
  destroyed : (st.sh.dev sh0.pd).flags.uptodate = false →
    sh0.pd ∉ failed ∧ (conf.level = .raid6 → sh0.qd ∈ failed)
  page : ∀ i < sh0.disks, (st.sh.dev i).flags.uptodate = true →
    st.sh.dataPage i = view disk failed sh0 i
  level5 : conf.level ≠ .raid6 → failed = ∅

/-- The parity blocks that did not match are being computed. -/
structure Repairing : Prop extends Clear sh0 st, Sums conf disk failed sh0 st where
  state : st.checkState = .computeRun
  compute : st.sh.computeRun = true
  notDone : st.insync = false
  repair : check = false
  targets : ∃ targets, Targets st.sh targets ∧
    ∀ i < sh0.disks, i ∉ targets → (st.sh.dev i).flags.uptodate = true
  page : ∀ i < sh0.disks, st.sh.dataPage i = sh0.dataPage i
  level5 : conf.level ≠ .raid6 → failed = ∅ ∧ st.zeroSumP = true

/-- What is left is to write. -/
structure Writing : Prop extends Clear sh0 st, Sums conf disk failed sh0 st where
  state : st.checkState = .computeResult
  noCompute : st.sh.computeRun = false
  notDone : st.insync = false
  wantcompute : ∀ i < sh0.disks, (st.sh.dev i).flags.wantcompute = false
  ready : ∀ i < sh0.disks, i ∈ failed ∨ view disk failed sh0 i ≠ sh0.dataPage i →
    (st.sh.dev i).flags.uptodate = true ∧ st.sh.dataPage i = sh0.dataPage i
  repair : check = true → ∀ i < sh0.disks, view disk failed sh0 i = sh0.dataPage i
  level5 : conf.level ≠ .raid6 → failed = ∅ ∧ st.zeroSumP = true ∧
    ∀ i < sh0.disks, (st.sh.dev i).flags.uptodate = true

/-- The stripe is in sync. In `check` mode only blocks of failed devices are written; otherwise
the devices hold the stripe once what is marked is written. -/
structure Done (disk : Nat → Page) (failed : Finset Nat) (check : Bool) (sh0 : StripeHead)
    (st : SyncStripe) : Prop where
  insync : st.insync = true
  idle : st.checkState = .idle
  noCompute : st.sh.computeRun = false
  wantread : ∀ i < sh0.disks, (st.sh.dev i).flags.wantread = false
  marked : ∀ i < sh0.disks, (st.sh.dev i).flags.wantwrite = true →
    i ∈ failed ∨ check = false ∧ i ∉ sh0.dataDevs
  written : check = false → ∀ i < sh0.disks, st.written i = sh0.dataPage i

inductive Phase : Prop where
  | gather (h : Gather conf disk failed sh0 st)
  | filling (h : Filling disk failed sh0 st)
  | checking (h : Checked conf disk failed sh0 st) (hrun : st.checkState.running = true)
      (hl : conf.level ≠ .raid6 → st.checkState = .run)
  | checked (h : Checked conf disk failed sh0 st) (hres : st.checkState = .checkResult)
  | repairing (h : Repairing conf disk failed check sh0 st)
  | writing (h : Writing conf disk failed check sh0 st)
  | done (h : Done disk failed check sh0 st)

end

/-! ## Marking blocks -/

theorem foldl_wantWrite_dev : ∀ (l : List Nat) (sh : StripeHead) (j : Nat),
    (l.foldl wantWrite sh).dev j = if j ∈ l then
      (sh.dev j).modifyFlags fun f => { f with locked := true, wantwrite := true } else sh.dev j
  | [], _, _ => rfl
  | i :: l, sh, j => by
    rw [List.foldl_cons, foldl_wantWrite_dev l, wantWrite, modifyFlags_dev]
    by_cases hj : j = i
    · rw [if_pos hj, if_pos (by simp [hj] : j ∈ i :: l)]
      split_ifs <;> rfl
    · rw [if_neg hj]
      exact if_congr (by simp [hj]) rfl rfl

theorem foldl_wantWrite_geometry : ∀ (l : List Nat) (sh : StripeHead),
    (l.foldl wantWrite sh).toStripeHead = sh.toStripeHead ∧
      (l.foldl wantWrite sh).computeRun = sh.computeRun ∧
      (l.foldl wantWrite sh).batchHead = sh.batchHead ∧
      (l.foldl wantWrite sh).reconstructState = sh.reconstructState
  | [], _ => ⟨rfl, rfl, rfl, rfl⟩
  | i :: l, sh => foldl_wantWrite_geometry l (sh.wantWrite i)

/-- **Marking and being in sync.** The blocks marked hold what the stripe is to hold, and the
others do on the devices. -/
theorem Driven.mark (h : Driven conf disk failed check sh0 st) (hclear : Clear sh0 st)
    (hcomp : st.sh.computeRun = false) {l : List Nat} {degraded : Bool} {sh' : StripeHead}
    (hsh : sh' = l.foldl wantWrite st.sh) (hpage : ∀ i ∈ l, st.sh.dataPage i = sh0.dataPage i)
    (hmark : ∀ i ∈ l, i ∈ failed ∨ check = false ∧ i ∉ sh0.dataDevs)
    (hrest : check = false → ∀ i < sh0.disks, i ∉ l →
      i ∉ failed ∧ view disk failed sh0 i = sh0.dataPage i) {p q : Bool} :
    Driven conf disk failed check sh0 { st with
        checkState := .idle, zeroSumP := p, zeroSumQ := q, sh := sh', degraded := degraded
        insync := true } ∧
      Done disk failed check sh0 { st with
        checkState := .idle, zeroSumP := p, zeroSumQ := q, sh := sh', degraded := degraded
        insync := true } := by
  obtain ⟨hgeo, hrun, hlone, hrec⟩ := foldl_wantWrite_geometry l st.sh
  subst hsh
  have hdev := foldl_wantWrite_dev l st.sh
  refine ⟨h.congr hgeo hlone hrec (fun i => ?_) rfl rfl,
    { insync := rfl, idle := rfl, noCompute := hrun.trans hcomp
      wantread := fun i hi => ?_, marked := fun i hi hw => ?_, written := fun hc i hi => ?_ }⟩
  · dsimp only
    rw [hdev]
    split_ifs <;> exact ⟨rfl, rfl⟩
  · dsimp only
    rw [hdev]
    split_ifs <;> exact hclear.wantread i hi
  · dsimp only at hw
    rw [hdev] at hw
    split_ifs at hw with hil
    · exact hmark i hil
    · rw [hclear.wantwrite i hi] at hw
      cases hw
  · unfold SyncStripe.written dataPage
    dsimp only
    rw [hdev]
    by_cases hil : i ∈ l
    · rw [if_pos hil, R5dev.modifyFlags_flags, if_pos rfl]
      exact hpage i hil
    · obtain ⟨hif, hview⟩ := hrest hc i hi hil
      rw [if_neg hil, if_neg (by rw [hclear.wantwrite i hi]; decide), h.disk_eq]
      rwa [view, if_neg hif] at hview

end MdRaid.Stripe
