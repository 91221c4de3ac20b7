import MdRaid.Stripe.ScrubChecks

/-!
# Scrub and repair end consistent

Every pass over a stripe that is being synced, and every completion between two
passes, takes the stripe to a phase of smaller rank or leaves it as it is, and no
`BUG_ON` fires. So the stripe is in sync in the end, whatever the order of the
completions.

`fetch_block` computes `P` on level 6 when it is the only block missing, instead of
reading it. A sync that starts so never looks at the `P` on the device.
-/

namespace MdRaid.Stripe

open MdRaid.Geometry Loops Runs Syndrome GF256 Geometry.StripeHead SyncStripe Option

/-! ## Steps -/

section Steps

variable {conf : SyncConf} {disk : Nat → Page} {failed : Finset Nat} {check : Bool}
  {sh0 : StripeHead} {st st' : SyncStripe}

/-- Something the stripe waits for. -/
def Pending (sh0 : StripeHead) (st : SyncStripe) : Prop :=
  (∃ i < sh0.disks, (st.sh.dev i).flags.wantread = true) ∨ st.checkState.running = true ∨
    st.sh.computeRun = true

section

variable (hd : Driven conf disk failed check sh0 st)

include hd

theorem Gather.handle (h : Gather conf disk failed sh0 st) :
    ∃ st', handleStripe conf st = some st' ∧
      (st' = st ∧ Pending sh0 st ∨ Next conf disk failed check sh0 st st') := by
  have hfull : (∀ i < sh0.disks, (st.sh.dev i).flags.uptodate) →
      ∃ st', handleStripe conf st = some st' ∧
        (st' = st ∧ Pending sh0 st ∨ Next conf disk failed check sh0 st st') := by
    intro hup
    have hf := h.full hup
    by_cases hl : conf.level = .raid6
    · obtain ⟨st', hrun, hnext⟩ := hf.handle6 hd hl
      exact ⟨st', hrun, .inr hnext⟩
    · obtain ⟨st', hrun, hnext⟩ := hf.handle5 hd hl
      exact ⟨st', hrun, .inr hnext⟩
  rcases h.rebuilt with hfm | hup
  · by_cases hex : ∃ j < sh0.disks, j ∉ failed ∧ (st.sh.dev j).flags.uptodate = false
    · obtain ⟨j, hj, hjf, hjm⟩ := hex
      obtain ⟨st', hrun, hcase⟩ := h.handle_reads hd hfm hj hjf hjm
      exact ⟨st', hrun, hcase.imp_left fun hs => ⟨hs.1, .inl hs.2⟩⟩
    · have hmiss : ∀ i < sh0.disks, (st.sh.dev i).flags.uptodate = decide (i ∉ failed) := by
        intro i hi
        by_cases hif : i ∈ failed
        · rw [hfm i hif]
          exact (decide_eq_false fun h => h hif).symm
        · rw [decide_eq_true hif]
          by_contra hup
          exact hex ⟨i, hi, hif, by simpa using hup⟩
      by_cases hne : failed.Nonempty
      · obtain ⟨st', hrun, hnext⟩ := h.handle_computes hd hne hmiss
        exact ⟨st', hrun, .inr hnext⟩
      · refine hfull fun i hi => ?_
        rw [hmiss i hi, Finset.not_nonempty_iff_eq_empty.mp hne]
        exact decide_eq_true (Finset.notMem_empty i)
  · exact hfull hup

/-- **No pass fires a `BUG_ON`**, and each either waits or brings the stripe closer to being in
sync. -/
theorem Phase.handle (h : Phase conf disk failed check sh0 st) (hnot : st.insync = false) :
    ∃ st', handleStripe conf st = some st' ∧
      (st' = st ∧ Pending sh0 st ∨ Next conf disk failed check sh0 st st') := by
  cases h with
  | gather h => exact h.handle hd
  | filling h => exact ⟨st, h.handle, .inl ⟨rfl, .inr (.inr h.compute)⟩⟩
  | checking h hrun hl => exact ⟨st, h.handle_running hd hrun hl, .inl ⟨rfl, .inr (.inl hrun)⟩⟩
  | checked h hres =>
    by_cases hl : conf.level = .raid6
    · obtain ⟨st', hrun, hnext⟩ := h.handle6 hd hres hl
      exact ⟨st', hrun, .inr hnext⟩
    · obtain ⟨st', hrun, hnext⟩ := h.handle5 hd hres hl
      exact ⟨st', hrun, .inr hnext⟩
  | repairing h => exact ⟨st, h.handle hd, .inl ⟨rfl, .inr (.inr h.compute)⟩⟩
  | writing h =>
    obtain ⟨st', hrun, hnext⟩ := h.handle hd
    exact ⟨st', hrun, .inr hnext⟩
  | done h => cases h.insync.symm.trans hnot

theorem Phase.endRead (h : Phase conf disk failed check sh0 st) {i : Nat} (hi : i < sh0.disks)
    (hread : (st.sh.dev i).flags.wantread) : Next conf disk failed check sh0 st (st.endRead i) := by
  have hclear : ∀ {p : Prop}, (st.sh.dev i).flags.wantread = false → p := fun hw =>
    (by cases hread.symm.trans hw)
  cases h with
  | gather h => exact h.endRead hd hi hread
  | filling h => exact hclear (h.wantread i hi)
  | checking h => exact hclear (h.wantread i hi)
  | checked h => exact hclear (h.wantread i hi)
  | repairing h => exact hclear (h.wantread i hi)
  | writing h => exact hclear (h.wantread i hi)
  | done h => exact hclear (h.wantread i hi)

theorem Phase.completeCheck (h : Phase conf disk failed check sh0 st)
    (hrun : st.checkState.running) :
    Next conf disk failed check sh0 st st.completeCheck := by
  have hother : ∀ {p : Prop} {s : CheckState}, st.checkState = s → s.running = false → p :=
    fun hs hr => (by cases (hs ▸ hrun).symm.trans hr)
  cases h with
  | gather h => exact hother h.idle rfl
  | filling h => exact hother h.idle rfl
  | checking h => exact h.completeCheck hd hrun
  | checked h hres => exact hother hres rfl
  | repairing h => exact hother h.state rfl
  | writing h => exact hother h.state rfl
  | done h => exact hother h.idle rfl

theorem Phase.completeCompute (h : Phase conf disk failed check sh0 st) (hrun : st.sh.computeRun) :
    ∃ st', st.completeCompute = some st' ∧ Next conf disk failed check sh0 st st' := by
  have hother : ∀ {p : Prop}, st.sh.computeRun = false → p := fun hs =>
    (by cases hrun.symm.trans hs)
  cases h with
  | gather h => exact hother h.noCompute
  | filling h => exact h.completeCompute hd
  | checking h => exact hother h.noCompute
  | checked h => exact hother h.noCompute
  | repairing h => exact h.completeCompute hd
  | writing h => exact hother h.noCompute
  | done h => exact hother h.noCompute

end

/-- The invariant of a drive. -/
def Drive (conf : SyncConf) (disk : Nat → Page) (failed : Finset Nat) (check : Bool)
    (sh0 : StripeHead) (st : SyncStripe) : Prop :=
  Driven conf disk failed check sh0 st ∧ Phase conf disk failed check sh0 st

/-- **One step.** -/
theorem Drive.step {e : SyncEvent} (h : Drive conf disk failed check sh0 st)
    (hs : st.step conf e = some st') :
    Drive conf disk failed check sh0 st' ∧ (st' = st ∨ st'.rank < st.rank) := by
  have hnext : Next conf disk failed check sh0 st st' →
      Drive conf disk failed check sh0 st' ∧ (st' = st ∨ st'.rank < st.rank) := fun hn =>
    ⟨⟨hn.driven, hn.phase⟩, .inr hn.rank⟩
  unfold SyncStripe.step at hs
  cases e with
  | handle =>
    dsimp only at hs
    rw [ite_none_left_eq_some] at hs
    obtain ⟨st'', hrun, hcase⟩ := h.2.handle h.1 (by simpa using hs.1)
    obtain rfl := some.inj (hrun.symm.trans hs.2)
    rcases hcase with ⟨rfl, -⟩ | hn
    · exact ⟨h, .inl rfl⟩
    · exact hnext hn
  | endRead i =>
    dsimp only at hs
    rw [ite_none_right_eq_some, some.injEq] at hs
    obtain ⟨⟨hi, hread⟩, rfl⟩ := hs
    exact hnext (h.2.endRead h.1 (h.1.disks ▸ hi) hread)
  | completeCheck =>
    dsimp only at hs
    rw [ite_none_right_eq_some, some.injEq] at hs
    obtain ⟨hrun, rfl⟩ := hs
    exact hnext (h.2.completeCheck h.1 hrun)
  | completeCompute =>
    dsimp only at hs
    rw [ite_none_right_eq_some] at hs
    obtain ⟨st'', hc, hn⟩ := h.2.completeCompute h.1 hs.1
    obtain rfl := some.inj (hc.symm.trans hs.2)
    exact hnext hn

/-- What a stripe waits for can happen. -/
theorem Drive.progress (h : Drive conf disk failed check sh0 st) :
    st.insync ∨ ∃ e st', st.step conf e = some st' ∧ st' ≠ st := by
  have hne : ∀ {st'}, Next conf disk failed check sh0 st st' → st' ≠ st := fun hn heq =>
    absurd hn.rank (by rw [heq]; exact lt_irrefl _)
  by_cases hin : st.insync
  · exact .inl hin
  right
  obtain ⟨st', hrun, hcase⟩ := h.2.handle h.1 (by simpa using hin)
  rcases hcase with ⟨-, hp | hp | hp⟩ | hn
  · obtain ⟨i, hi, hread⟩ := hp
    exact ⟨.endRead i, _, if_pos ⟨h.1.disks ▸ hi, hread⟩, hne (h.2.endRead h.1 hi hread)⟩
  · exact ⟨.completeCheck, _, if_pos hp, hne (h.2.completeCheck h.1 hp)⟩
  · obtain ⟨st'', hc, hn⟩ := h.2.completeCompute h.1 hp
    exact ⟨.completeCompute, st'', (if_pos hp).trans hc, hne hn⟩
  · exact ⟨.handle, st', (if_neg hin).trans hrun, hne hn⟩

end Steps

/-! ## The start of a sync -/

/-- The devices that have failed. -/
def StripeHead.failed (sh : StripeHead) : Finset Nat := sh.devs fun f => !f.insync

/-- A stripe of an array that has not lost more devices than its level can do without, about to be
synced: nothing is under way, and the blocks that are up to date are those on the devices. -/
structure SyncStart (conf : SyncConf) (st : SyncStripe) : Prop where
  parityIdx : ParityIdx conf.level st.sh.toStripeHead
  disks : 2 ≤ st.sh.disks
  disks6 : conf.level = .raid6 → 4 ≤ st.sh.disks
  maxDisks6 : conf.level = .raid6 → syndromeDisks st.sh.toStripeHead + 2 ≤ conf.tx.maxDisks
  maxDisks : conf.tx.maxDisks ≤ 255
  degraded : st.sh.failed.card ≤ conf.level.maxDegraded
  idle : st.checkState = .idle
  noCompute : st.sh.computeRun = false
  notDone : st.insync = false
  lone : st.sh.batchHead = false
  noReconstruct : st.sh.reconstructState = .idle
  noJournal : NoJournal st.sh
  quiet : ∀ i < st.sh.disks, (st.sh.dev i).flags.locked = false ∧
    (st.sh.dev i).flags.wantread = false ∧ (st.sh.dev i).flags.wantcompute = false ∧
    (st.sh.dev i).flags.wantwrite = false
  page : ∀ i < st.sh.disks, i ∉ st.sh.failed → (st.sh.dev i).flags.uptodate = true →
    st.sh.dataPage i = st.disk i

/-- The blocks of failed devices are missing, and `P` is not the only block that is. -/
structure Uncached (conf : SyncConf) (sh : StripeHead) : Prop where
  failed : ∀ i ∈ sh.failed, (sh.dev i).flags.uptodate = false
  p : conf.level = .raid6 → sh.pd ∉ sh.failed → (sh.dev sh.pd).flags.uptodate = false →
    ∃ i < sh.disks, i ≠ sh.pd ∧ (sh.dev i).flags.uptodate = false

section

variable {conf : SyncConf} {st : SyncStripe} (h : SyncStart conf st)
include h

theorem SyncStart.drive
    (hun : Uncached conf st.sh) {sh0 : StripeHead} (hgeo : sh0.toStripeHead = st.sh.toStripeHead)
    (htarget : Target conf st.disk st.sh.failed sh0) :
    Drive conf st.disk st.sh.failed st.check sh0 st := by
  have hdisks : sh0.disks = st.sh.disks := by rw [hgeo]
  have hpd : sh0.pd = st.sh.pd := by rw [hgeo]
  refine ⟨⟨htarget, hgeo.symm, h.lone, h.noReconstruct, h.noJournal, fun i => ?_, rfl, rfl⟩,
    .gather
      { idle := h.idle
        noCompute := h.noCompute
        notDone := h.notDone
        wantcompute := fun i hi => (h.quiet i (hdisks ▸ hi)).2.2.1
        wantwrite := fun i hi => (h.quiet i (hdisks ▸ hi)).2.2.2
        reading := fun i hi => by
          rw [(h.quiet i (hdisks ▸ hi)).1, (h.quiet i (hdisks ▸ hi)).2.1]
        locked := fun i hi hl => by
          rw [(h.quiet i (hdisks ▸ hi)).1] at hl
          cases hl
        page := fun i hi hup => by
          have hif : i ∉ st.sh.failed := fun hif => by
            rw [hun.failed i hif] at hup
            cases hup
          rw [view, if_neg hif]
          exact h.page i (hdisks ▸ hi) hif hup
        rebuilt := .inl hun.failed
        pLast := fun hl hpf hp _ => by
          rw [hpd] at hpf hp ⊢
          rw [hdisks]
          exact ⟨fun i hi => (h.quiet i hi).1, hun.p hl hpf hp⟩ }⟩
  rw [StripeHead.failed, mem_devs, Bool.not_eq_true']

/-- A consistent stripe that agrees with the surviving devices is the one they determine. -/
theorem SyncStart.target_of_agrees {sh1 : StripeHead} (hgeo : sh1.toStripeHead = st.sh.toStripeHead)
    (hc : Consistent conf.level sh1)
    (hagree : ∀ i < st.sh.disks, i ∉ st.sh.failed → sh1.dataPage i = st.disk i) :
    Target conf st.disk st.sh.failed sh1 := by
  have hdisks : sh1.disks = st.sh.disks := by rw [hgeo]
  have hidx : ParityIdx conf.level sh1.toStripeHead := by
    rw [hgeo]
    exact h.parityIdx
  exact
    { parityIdx := hidx
      consistent := hc
      disks := hdisks ▸ h.disks
      disks6 := fun hl => hdisks ▸ h.disks6 hl
      maxDisks6 := fun hl => by
        rw [hgeo]
        exact h.maxDisks6 hl
      maxDisks := h.maxDisks
      failed_lt := fun i hi => hdisks ▸ (mem_devs.mp hi).1
      degraded := h.degraded
      data := fun i hi hf =>
        hagree i (hdisks ▸ (mem_dataDevs.mp hi).1) hf
      p := fun _ hp => hagree _ (hdisks ▸ hidx.pd_lt_disks) hp
      q := fun hl _ hq => hagree _ (hdisks ▸ (hidx.validPQ hl).qd_lt_disks) hq }

end

/-! ## Whole drives -/

/-- **Scrub and repair end consistent.** Start to sync a stripe none of whose failed devices has
its block up to date and whose `P` is not the only block missing. Whatever the order in which
reads, checks and computations complete, no `BUG_ON` fires and the stripe is in sync in the end.
In `check` mode only blocks of failed devices are then marked for writing. Otherwise blocks of
failed devices and parity blocks are, and once they are written the devices hold a consistent
stripe; it is the only one that agrees with the surviving devices, if there is one. -/
theorem SyncStripe.scrub_ends_consistent (conf : SyncConf) (st : SyncStripe)
    (hstart : SyncStart conf st) (hun : Uncached conf st.sh) :
    Inevitable (step conf) (fun st' => st'.insync = true) st ∧
    ∀ es st', run (step conf) st es = some st' →
      (st'.insync = false → (handleStripe conf st').isSome = true ∧
        (st'.sh.computeRun = true → st'.completeCompute.isSome = true)) ∧
      (st'.insync = true → st.check = true → ∀ i < st.sh.disks,
        (st'.sh.dev i).flags.wantwrite = true → i ∈ st.sh.failed) ∧
      (st'.insync = true → st.check = false →
        (∀ i < st.sh.disks, (st'.sh.dev i).flags.wantwrite = true →
          i ∈ st.sh.failed ∨ i ∉ st.sh.dataDevs) ∧
        Consistent conf.level (st'.sh.holding st'.written) ∧
        ∀ sh1, sh1.toStripeHead = st.sh.toStripeHead → Consistent conf.level sh1 →
          (∀ i < st.sh.disks, i ∉ st.sh.failed → sh1.dataPage i = st.disk i) →
          ∀ i < st.sh.disks, st'.written i = sh1.dataPage i) := by
  obtain ⟨sh0, hgeo, htarget⟩ : ∃ sh0, sh0.toStripeHead = st.sh.toStripeHead ∧
      Target conf st.disk st.sh.failed sh0 := exists_target hstart.parityIdx hstart.disks
        hstart.disks6 hstart.maxDisks6 hstart.maxDisks
    (fun i hi => (mem_devs.mp hi).1) hstart.degraded
  have hdisks : sh0.disks = st.sh.disks := by rw [hgeo]
  have hdevs : sh0.dataDevs = st.sh.dataDevs := by rw [hgeo]
  have hrun : ∀ {sh1 es st'}, sh1.toStripeHead = st.sh.toStripeHead →
      Target conf st.disk st.sh.failed sh1 → run (step conf) st es = some st' →
      Drive conf st.disk st.sh.failed st.check sh1 st' := fun hgeo1 ht hr =>
    run_invariant (fun s e s' hI hs => (hI.step hs).1) (hstart.drive hun hgeo1 ht) hr
  have hdone : ∀ {sh1 st'}, Drive conf st.disk st.sh.failed st.check sh1 st' →
      st'.insync = true → Done st.disk st.sh.failed st.check sh1 st' := by
    intro sh1 st' hI hin
    have hother : ∀ {p : Prop}, st'.insync = false → p := fun hf =>
      (by cases hin.symm.trans hf)
    cases hI.2 with
    | gather h => exact hother h.notDone
    | filling h => exact hother h.notDone
    | checking h => exact hother h.notDone
    | checked h => exact hother h.notDone
    | repairing h => exact hother h.notDone
    | writing h => exact hother h.notDone
    | done h => exact h
  refine ⟨inevitable_of_rank rank (fun s hI => Drive.progress hI)
    (fun s e s' hI hs => hI.step hs) _ st (Nat.lt_succ_self _) (hstart.drive hun hgeo htarget),
    fun es st' hr => ⟨fun hnot => ⟨?_, fun hc => ?_⟩, fun hin hcheck i hi hw => ?_,
      fun hin hcheck => ⟨fun i hi hw => ?_, ?_, fun sh1 hgeo1 hc1 hagree i hi => ?_⟩⟩⟩
  · have hI := hrun hgeo htarget hr
    obtain ⟨st'', hh, -⟩ := hI.2.handle hI.1 hnot
    rw [hh]
    rfl
  · have hI := hrun hgeo htarget hr
    obtain ⟨st'', hh, -⟩ := hI.2.completeCompute hI.1 hc
    rw [hh]
    rfl
  · have hd := hdone (hrun hgeo htarget hr) hin
    refine (hd.marked i (hdisks.symm ▸ hi) hw).resolve_right fun h => ?_
    cases h.1.symm.trans hcheck
  · have hd := hdone (hrun hgeo htarget hr) hin
    exact (hd.marked i (hdisks.symm ▸ hi) hw).imp_right fun h => hdevs ▸ h.2
  · have hI := hrun hgeo htarget hr
    have hd := hdone hI hin
    have hw := hd.written hcheck
    have hgeo' : (st'.sh.holding st'.written).toStripeHead = sh0.toStripeHead := hI.1.geometry
    have hsum : ∀ g : Nat → GF256, wsum sh0.dataDevs g (st'.sh.holding st'.written).dataPage =
        wsum sh0.dataDevs g sh0.dataPage := fun g => wsum_congr fun i hi => by
      rw [holding_dataPage, hw i (mem_dataDevs.mp hi).1]
    refine ⟨?_, fun hl => ?_⟩
    · rw [hgeo', hsum, ← htarget.consistent.p, holding_dataPage,
        hw _ htarget.parityIdx.pd_lt_disks]
    · rw [hgeo', hsum, ← htarget.consistent.q hl, holding_dataPage,
        hw _ (htarget.parityIdx.validPQ hl).qd_lt_disks]
  · have hd := hdone (hrun hgeo1 (hstart.target_of_agrees hgeo1 hc1 hagree) hr) hin
    have hdisks1 : sh1.disks = st.sh.disks := by rw [hgeo1]
    exact hd.written hcheck i (hdisks1.symm ▸ hi)

/-! ### Instances -/

/-- A stripe in which nothing is up to date and one device has failed. -/
def scrubStripe (disks lost : Nat) (pd qd : Int) : StripeHead where
  sector := 0
  disks := disks
  idx := ⟨pd, qd, false⟩
  dev i :=
    { flags := { insync := decide (i ≠ lost) }, origPage := 0, redirect := none, toread := []
      towrite := [], written := [], sector := 0 }
  reconstructState := .idle
  target := -1
  target2 := -1
  overwriteDisks := 0
  batchHead := false
  prereadActive := false
  computeRun := false
  expandReady := false
  handle := false

/-- A `check` of four devices of level 6, of which the one with `Q` has failed. All bytes are zero
but those of `P`, which are one. -/
def exampleScrub : SyncStripe where
  sh := scrubStripe 4 3 2 3
  checkState := .idle
  zeroSumP := false
  zeroSumQ := false
  insync := false
  degraded := true
  check := true
  resyncMismatches := 0
  disk i := if i = 2 then fun _ => 1 else 0

def exampleScrubConf (level : Level) : SyncConf := ⟨level, ⟨false, 0, fun _ => false⟩, .direct 255⟩

theorem exampleScrub_start : SyncStart (exampleScrubConf .raid6) exampleScrub where
  parityIdx := ⟨by decide, by decide, fun _ => ⟨by decide, by decide, by decide, by decide,
    by decide⟩, fun h => absurd rfl h⟩
  disks := by decide
  disks6 _ := by decide
  maxDisks6 _ := by decide
  maxDisks := by decide
  degraded := by decide
  idle := rfl
  noCompute := rfl
  notDone := rfl
  lone := rfl
  noReconstruct := rfl
  noJournal _ _ := rfl
  quiet _ _ := ⟨rfl, rfl, rfl, rfl⟩
  page _ _ _ hup := absurd hup (by simp [exampleScrub, scrubStripe])

theorem SyncStripe.scrub_ends_consistent_check :
    Inevitable (step (exampleScrubConf .raid6)) (fun st => st.insync = true) exampleScrub :=
  (scrub_ends_consistent (exampleScrubConf .raid6) exampleScrub exampleScrub_start
    ⟨fun _ _ => rfl, fun _ _ _ => ⟨0, by decide, by decide, rfl⟩⟩).1

/-- The same three blocks on level 5, with a block of data lost. -/
def exampleScrub5 : SyncStripe := { exampleScrub with sh := scrubStripe 3 0 2 (-1) }

/-- **A `check` writes, and a repair does not look.** On level 5 a `check` marks the block of a
failed device for writing. On level 6 a `check` with the device of `Q` lost finds the wrong `P` and
forgets it; a repair of the stripe while it is cached then computes `P` instead of reading it, finds
it right, and is done with the wrong `P` still on its device. -/
theorem SyncStripe.repair_leaves_p : (∃ st, run (step (exampleScrubConf .raid5)) exampleScrub5
        [.handle, .endRead 1, .endRead 2, .handle, .completeCompute, .handle] = some st ∧
      st.insync = true ∧ st.check = true ∧ (st.sh.dev 0).flags.wantwrite = true) ∧
    ∃ st st', run (step (exampleScrubConf .raid6)) exampleScrub
        [.handle, .endRead 0, .endRead 1, .endRead 2, .handle, .completeCompute, .handle,
          .completeCheck, .handle] = some st ∧ st.insync = true ∧
      run (step (exampleScrubConf .raid6)) (st.request false)
        [.handle, .completeCompute, .handle, .completeCheck, .handle, .handle] = some st' ∧
      st'.insync = true ∧ st'.check = false ∧ ¬ Consistent .raid6 (st'.sh.holding st'.written) := by
  have hcheck : (run (step (exampleScrubConf .raid5)) exampleScrub5
      [.handle, .endRead 1, .endRead 2, .handle, .completeCompute, .handle]).any (fun st =>
        st.insync && st.check && (st.sh.dev 0).flags.wantwrite) = true := by decide +kernel
  have hrepair : (run (step (exampleScrubConf .raid6)) exampleScrub
      [.handle, .endRead 0, .endRead 1, .endRead 2, .handle, .completeCompute, .handle,
        .completeCheck, .handle]).any (fun st => st.insync &&
      (run (step (exampleScrubConf .raid6)) (st.request false)
        [.handle, .completeCompute, .handle, .completeCheck, .handle, .handle]).any (fun st' =>
          st'.insync && !st'.check && decide (st'.sh.idx = ⟨2, 3, false⟩) &&
            decide (st'.sh.disks = 4) && decide (st'.written 0 0 = 0) &&
            decide (st'.written 1 0 = 0) && decide (st'.written 2 0 = 1))) = true := by
    decide +kernel
  obtain ⟨st5, hrun5, h5⟩ := (any_eq_true _ _).mp hcheck
  obtain ⟨st, hrun, h⟩ := (any_eq_true _ _).mp hrepair
  rw [Bool.and_eq_true] at h
  obtain ⟨st', hrun', h'⟩ := (any_eq_true _ _).mp h.2
  simp only [Bool.and_eq_true, Bool.not_eq_true', decide_eq_true_eq] at h5 h'
  obtain ⟨⟨⟨⟨⟨⟨hin, hmode⟩, hidx⟩, hdisks⟩, h0⟩, h1⟩, h2⟩ := h'
  refine ⟨⟨st5, hrun5, h5.1.1, h5.1.2, h5.2⟩, st, st', hrun, h.1, hrun', hin, hmode, fun hc => ?_⟩
  -- the first byte of `P` is one, and those of the data are zero
  have hdevs : st'.sh.dataDevs = {0, 1} := by
    rw [dataDevs, hdisks]
    simp only [isParity, hidx]
    decide
  have hpd : st'.sh.pd = 2 := by
    rw [pd, hidx]
    rfl
  have hp := congrFun hc.p 0
  change ((st'.sh.holding st'.written).dataPage st'.sh.pd) 0 =
    (wsum st'.sh.dataDevs (fun _ => (1 : GF256)) (st'.sh.holding st'.written).dataPage) 0 at hp
  rw [holding_dataPage, hpd, h2, hdevs, wsum_one, Finset.sum_pair (by decide), holding_dataPage,
    holding_dataPage, Pi.add_apply, h0, h1] at hp
  cases hp

end MdRaid.Stripe
