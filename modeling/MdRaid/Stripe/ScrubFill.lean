import MdRaid.Stripe.ScrubPhases

/-!
# Gathering the blocks of a stripe

Passes that read or compute blocks, and completions. Each takes the stripe to a
phase of smaller rank or leaves it as it is.
-/

namespace MdRaid.Stripe

open MdRaid.Geometry Loops Runs Finset R5dev StripeHead SyncStripe Option

variable {conf : SyncConf} {disk : Nat → Page} {failed : Finset Nat} {check : Bool}
  {sh0 : StripeHead} {st : SyncStripe}

/-! ## The rank of a stripe -/

def missingDevs (sh : StripeHead) : Finset Nat :=
  (range sh.disks).filter fun i => (sh.dev i).flags.uptodate = false

def unreadDevs (sh : StripeHead) : Finset Nat := (range sh.disks).filter (Unread sh)

def SyncStripe.rank (st : SyncStripe) : Nat :=
  if st.insync then 0
  else match st.checkState with
    | .idle =>
      if st.sh.computeRun then 13
      else 12 + 2 * (missingDevs st.sh).card + (unreadDevs st.sh).card
    | .run | .runQ | .runPQ => 10
    | .checkResult => 9
    | .computeRun => 8
    | .computeResult => 7

theorem rank_done (h : st.insync) : st.rank = 0 := if_pos h

theorem rank_gather (h : Gather conf disk failed sh0 st) :
    st.rank = 12 + 2 * (missingDevs st.sh).card + (unreadDevs st.sh).card := by
  rw [rank, h.notDone, if_neg (by simp), h.idle]
  simp only [h.noCompute, Bool.false_eq_true, if_false]

theorem rank_filling (h : Filling disk failed sh0 st) : st.rank = 13 := by
  rw [rank, h.notDone, if_neg (by simp), h.idle]
  simp only [h.compute, if_true]

section

variable (hn : st.insync = false)
include hn

theorem rank_running (h : st.checkState.running) : st.rank = 10 := by
  rw [rank, hn, if_neg (by simp)]
  cases hs : st.checkState <;> rw [hs] at h <;> first | rfl | cases h

theorem rank_checked (h : st.checkState = .checkResult) : st.rank = 9 := by
  rw [rank, hn, if_neg (by simp), h]

theorem rank_repairing (h : st.checkState = .computeRun) : st.rank = 8 := by
  rw [rank, hn, if_neg (by simp), h]

theorem rank_writing (h : st.checkState = .computeResult) : st.rank = 7 := by
  rw [rank, hn, if_neg (by simp), h]

end

/-- What a step that is not idle leads to. -/
structure Next (conf : SyncConf) (disk : Nat → Page) (failed : Finset Nat) (check : Bool)
    (sh0 : StripeHead) (st st' : SyncStripe) : Prop where
  driven : Driven conf disk failed check sh0 st'
  phase : Phase conf disk failed check sh0 st'
  rank : st'.rank < st.rank

theorem Next.of_done {st' : SyncStripe} (h : Driven conf disk failed check sh0 st' ∧
      Done disk failed check sh0 st') (hrank : 0 < st.rank) :
    Next conf disk failed check sh0 st st' :=
  ⟨h.1, .done h.2, by rwa [rank_done h.2.insync]⟩

/-! ## Passes that do not fill -/

variable {targets : Finset Nat} {sh : StripeHead}

theorem card_uptodate_eq (h : ∀ i < sh.disks, (sh.dev i).flags.uptodate) :
    (uptodateDevs sh).card = sh.disks := by
  have heq : uptodateDevs sh = range sh.disks :=
    filter_true_of_mem fun i hi => h i (mem_range.mp hi)
  rw [heq, card_range]

theorem card_wantcompute (sh : StripeHead)
    (h : ∀ i < sh.disks, (sh.dev i).flags.wantcompute = false) :
    (sh.devs (·.wantcompute)).card = 0 := by
  rw [card_eq_zero, eq_empty_iff_forall_notMem]
  intro i hi
  obtain ⟨hlt, hw⟩ := mem_devs.mp hi
  rw [h i hlt] at hw
  cases hw

theorem card_locked (h : ∀ i < sh.disks, (sh.dev i).flags.locked = false) :
    (sh.devs (·.locked)).card = 0 := by
  rw [card_eq_zero, eq_empty_iff_forall_notMem]
  intro i hi
  obtain ⟨hlt, hw⟩ := mem_devs.mp hi
  rw [h i hlt] at hw
  cases hw

theorem handleStripe_noFill (hw : (st.sh.devs (·.wantcompute)).card ≤ 2)
    (h : (∀ i < st.sh.disks, (st.sh.dev i).flags.uptodate) ∨ st.checkState ≠ .idle ∨
      st.sh.computeRun) : handleStripe conf st =
      (checkParity conf st (countStripe st.sh)).bind fun c => raidRunOps conf c := by
  have hfill : (if (countStripe st.sh).uptodate + (st.sh.devs (·.wantcompute)).card <
        st.sh.disks then
        handleStripeFill conf.fetch st.checkState st.sh (countStripe st.sh)
      else some (st.sh, countStripe st.sh)) = some (st.sh, countStripe st.sh) := by
    refine ite_eq_right_iff.mpr fun hlt => ?_
    rcases h with h | h
    · have hcard : (countStripe st.sh).uptodate = st.sh.disks := card_uptodate_eq h
      omega
    · unfold handleStripeFill
      rw [if_neg]
      rcases h with h | h <;> simp [h]
  unfold handleStripe analyseStripe
  rw [if_neg (by omega), bind_some, hfill, bind_some]

theorem checkParity_running (h : st.checkState ≠ .idle) (s : StripeHeadState) :
    checkParity conf st s = handleParityChecks conf.level st s := if_pos (.inl h)

theorem handleParityChecks_six (hl : conf.level = .raid6) (s : StripeHeadState) :
    handleParityChecks conf.level st s = handleParityChecks6 st s := if_pos hl

theorem handleParityChecks_five (hl : conf.level ≠ .raid6) (s : StripeHeadState) :
    handleParityChecks conf.level st s = handleParityChecks5 st s := if_neg hl

theorem Driven.failed_count (h : Driven conf disk failed check sh0 st) :
    (countStripe st.sh).failed = failed.card := by
  have heq : failed = st.sh.failedDevs.toFinset := by
    ext i
    rw [List.mem_toFinset, mem_failedDevs, h.failed_iff]
  rw [heq, List.toFinset_card_of_nodup nodup_failedDevs]
  rfl

theorem Driven.checks6 (h : Driven conf disk failed check sh0 st) :
    (st.sh.batchHead || decide ((countStripe st.sh).failed > 2)) = false := by
  rw [h.lone, h.failed_count, Bool.false_or, decide_eq_false_iff_not]
  have := h.card_le
  omega

/-- Passes while a computation or a check is running leave the stripe alone. -/
theorem Filling.handle (h : Filling disk failed sh0 st) : handleStripe conf st = some st := by
  rw [handleStripe_noFill h.targets.card_le (.inr (.inr h.compute)), checkParity, if_neg]
  · rfl
  · rw [h.idle, h.compute]
    simp

variable (hd : Driven conf disk failed check sh0 st)

include hd

theorem Checked.handle_running (h : Checked conf disk failed sh0 st) (hrun : st.checkState.running)
    (hl5 : conf.level ≠ .raid6 → st.checkState = .run) : handleStripe conf st = some st := by
  have hidle : st.checkState ≠ .idle := fun hi => by
    rw [hi] at hrun
    cases hrun
  have hw := card_wantcompute st.sh fun i hi => h.wantcompute i (hd.disks ▸ hi)
  rw [handleStripe_noFill (by omega) (.inr (.inl hidle)), checkParity_running hidle]
  by_cases hl : conf.level = .raid6
  · rw [handleParityChecks_six hl, handleParityChecks6, hd.checks6]
    cases hs : st.checkState <;> rw [hs] at hrun <;> first | rfl | cases hrun
  · rw [handleParityChecks_five hl, handleParityChecks5, hd.lone, hl5 hl]
    rfl

theorem Repairing.handle (h : Repairing conf disk failed check sh0 st) :
    handleStripe conf st = some st := by
  have hidle : st.checkState ≠ .idle := by
    rw [h.state]
    decide
  obtain ⟨targets, ht, -⟩ := h.targets
  rw [handleStripe_noFill ht.card_le (.inr (.inl hidle)), checkParity_running hidle]
  by_cases hl : conf.level = .raid6
  · rw [handleParityChecks_six hl, handleParityChecks6, hd.checks6, h.state]
    rfl
  · rw [handleParityChecks_five hl, handleParityChecks5, hd.lone, h.state]
    rfl

/-! ## Completions -/

omit hd in
/-- What a completed computation leaves as it is. -/
structure KeptDev (d d' : R5dev) : Prop where
  insync : d'.flags.insync = d.flags.insync
  inJournal : d'.flags.inJournal = d.flags.inJournal
  locked : d'.flags.locked = d.flags.locked
  wantread : d'.flags.wantread = d.flags.wantread
  wantwrite : d'.flags.wantwrite = d.flags.wantwrite
  page : d'.page = d.page

omit hd in
theorem completed_keep {sh sh' : StripeHead}
    (hdev : ∀ j, sh'.dev j = if j ∈ targets then (sh.dev j).modifyFlags DevFlags.computed
      else sh.dev j) (i : Nat) : KeptDev (sh.dev i) (sh'.dev i) := by
  rw [hdev]
  split_ifs <;> exact ⟨rfl, rfl, rfl, rfl, rfl, rfl⟩

theorem Filling.completeCompute (h : Filling disk failed sh0 st) :
    ∃ st', st.completeCompute = some st' ∧ Next conf disk failed check sh0 st st' := by
  obtain ⟨sh', hop, hgeo, hlone, hrec, hrun, hdev⟩ := opsCompleteCompute_eq h.targets
  have hst : st.completeCompute = some { st with sh := sh', checkState := .idle } := by
    rw [SyncStripe.completeCompute, hop, h.idle]
    rfl
  have hup : ∀ i < sh0.disks, (sh'.dev i).flags.uptodate := by
    intro i hi
    rw [hdev]
    split_ifs with hif
    · rfl
    · rw [h.uptodate i hi]
      exact decide_eq_true hif
  have hkeep := completed_keep hdev
  have hgather : Gather conf disk failed sh0 { st with sh := sh', checkState := .idle } :=
    { idle := rfl
      noCompute := hrun
      notDone := h.notDone
      wantcompute := fun i hi => by
        dsimp only
        rw [hdev]
        split_ifs with hif
        · rfl
        · rw [h.targets.want i (hd.disks ▸ hi)]
          exact decide_eq_false hif
      wantwrite := fun i hi => (hkeep i).wantwrite.trans (h.wantwrite i hi)
      reading := fun i hi => by
        dsimp only
        rw [(hkeep i).locked, (hkeep i).wantread, h.wantread i hi, h.locked i hi]
      locked := fun i hi hl => by
        dsimp only at hl
        rw [(hkeep i).locked, h.locked i hi] at hl
        cases hl
      page := fun i hi _ => (hkeep i).page.trans (h.page i hi)
      rebuilt := .inr hup
      pLast := fun _ _ hp _ => by
        dsimp only at hp
        rw [hup _ hd.target.parityIdx.pd_lt_disks] at hp
        cases hp }
  refine ⟨_, hst, hd.congr hgeo hlone hrec (fun i =>
    ⟨(hkeep i).insync, (hkeep i).inJournal⟩) rfl rfl,
    .gather hgather, ?_⟩
  have hmiss : missingDevs sh' = ∅ := filter_false_of_mem fun i hi hmiss => by
    rw [hup i (by rw [← hd.disks, ← hgeo]; exact mem_range.mp hi)] at hmiss
    cases hmiss
  have hunread : unreadDevs sh' = ∅ := filter_false_of_mem fun i hi hun => by
    rw [Unread, hup i (by rw [← hd.disks, ← hgeo]; exact mem_range.mp hi)] at hun
    cases hun.2.1
  rw [rank_gather hgather, rank_filling h]
  dsimp only
  rw [hmiss, hunread]
  decide

theorem Checked.completeCheck (h : Checked conf disk failed sh0 st) (hrun : st.checkState.running) :
    Next conf disk failed check sh0 st st.completeCheck where
  driven := hd.congr rfl rfl rfl (fun _ => ⟨rfl, rfl⟩) rfl rfl
  phase := .checked ⟨⟨h.locked, h.wantread, h.wantwrite⟩, ⟨h.p, h.q⟩, h.noCompute, h.notDone,
    h.wantcompute, h.uptodate, h.destroyed, h.page, h.level5⟩ rfl
  rank := by
    rw [rank_running h.notDone hrun, @rank_checked st.completeCheck h.notDone rfl]
    decide

theorem Repairing.completeCompute (h : Repairing conf disk failed check sh0 st) :
    ∃ st', st.completeCompute = some st' ∧ Next conf disk failed check sh0 st st' := by
  obtain ⟨targets, ht, hrest⟩ := h.targets
  obtain ⟨sh', hop, hgeo, hlone, hrec, hrun, hdev⟩ := opsCompleteCompute_eq ht
  have hst : st.completeCompute = some { st with sh := sh', checkState := .computeResult } := by
    rw [SyncStripe.completeCompute, hop, h.state]
    rfl
  have hup : ∀ i < sh0.disks, (sh'.dev i).flags.uptodate := by
    intro i hi
    rw [hdev]
    split_ifs with hif
    · rfl
    · exact hrest i hi hif
  have hkeep := completed_keep hdev
  refine ⟨_, hst, hd.congr hgeo hlone hrec (fun i =>
    ⟨(hkeep i).insync, (hkeep i).inJournal⟩) rfl rfl,
    .writing
      { toClear :=
          h.toClear.congr fun i => ⟨(hkeep i).locked, (hkeep i).wantread, (hkeep i).wantwrite⟩
        p := h.p
        q := h.q
        state := rfl
        noCompute := hrun
        notDone := h.notDone
        wantcompute := fun i hi => by
          dsimp only
          rw [hdev]
          split_ifs with hif
          · rfl
          · rw [ht.want i (hd.disks ▸ hi)]
            exact decide_eq_false hif
        ready := fun i hi _ => ⟨hup i hi, (hkeep i).page.trans (h.page i hi)⟩
        repair := fun hc => (by cases h.repair.symm.trans hc)
        level5 := fun hl => ⟨(h.level5 hl).1, (h.level5 hl).2, hup⟩ }, ?_⟩
  rw [rank_repairing h.notDone h.state,
    @rank_writing { st with sh := sh', checkState := .computeResult } h.notDone rfl]
  decide

/-! ## Reading and computing blocks -/

theorem Driven.insync_of_not_failed {i : Nat}
    (hi : i < sh0.disks) (hf : i ∉ failed) : (st.sh.dev i).flags.insync := by
  by_contra hin
  exact hf ((hd.failed_iff i).mpr ⟨hd.disks ▸ hi, by simpa using hin⟩)

theorem Gather.endRead (h : Gather conf disk failed sh0 st) {i : Nat} (hi : i < sh0.disks)
    (hread : (st.sh.dev i).flags.wantread) : Next conf disk failed check sh0 st (st.endRead i) := by
  have hlocked : (st.sh.dev i).flags.locked := (h.reading i hi).symm.trans hread
  obtain ⟨hmiss, hf⟩ := h.locked i hi hlocked
  have hself : (st.endRead i).sh.dev i = ((st.sh.dev i).setPage (st.disk i)).modifyFlags fun f =>
      { f with uptodate := true, locked := false, wantread := false } := by
    unfold SyncStripe.endRead
    dsimp only
    rw [modifyDev_dev_self]
  have hother : ∀ j, j ≠ i → (st.endRead i).sh.dev j = st.sh.dev j := fun j hj => by
    unfold SyncStripe.endRead
    dsimp only
    rw [modifyDev_dev_of_ne _ _ _ hj]
  have hgather : Gather conf disk failed sh0 (st.endRead i) :=
    { idle := h.idle
      noCompute := h.noCompute
      notDone := h.notDone
      wantcompute := fun j hj => by
        by_cases hji : j = i
        · rw [hji, hself, modifyFlags_flags, setPage_flags]
          exact h.wantcompute i hi
        · rw [hother j hji]
          exact h.wantcompute j hj
      wantwrite := fun j hj => by
        by_cases hji : j = i
        · rw [hji, hself, modifyFlags_flags, setPage_flags]
          exact h.wantwrite i hi
        · rw [hother j hji]
          exact h.wantwrite j hj
      reading := fun j hj => by
        by_cases hji : j = i
        · rw [hji, hself]
          rfl
        · rw [hother j hji]
          exact h.reading j hj
      locked := fun j hj hl => by
        by_cases hji : j = i
        · rw [hji, hself] at hl
          cases hl
        · rw [hother j hji] at hl ⊢
          exact h.locked j hj hl
      page := fun j hj hup => by
        by_cases hji : j = i
        · rw [hji, dataPage, hself, modifyFlags_page, setPage_page, view,
            if_neg hf, hd.disk_eq]
        · rw [hother j hji] at hup
          rw [dataPage, hother j hji]
          exact h.page j hj hup
      rebuilt := by
        refine h.rebuilt.imp (fun hall j hj => ?_) fun hall j hj => ?_
        · rw [hother j (ne_of_mem_of_not_mem hj hf)]
          exact hall j hj
        · by_cases hji : j = i
          · rw [hji, hself]
            rfl
          · rw [hother j hji]
            exact hall j hj
      pLast := fun hl hpf hp hpl => by
        by_cases hpi : sh0.pd = i
        · rw [hpi, hself] at hp
          cases hp
        · rw [hother _ hpi] at hp hpl
          have := (h.pLast hl hpf hp hpl).1 i hi
          rw [hlocked] at this
          cases this }
  refine ⟨hd.congr rfl rfl rfl (fun j => ?_) rfl rfl, .gather hgather, ?_⟩
  · by_cases hji : j = i
    · rw [hji, hself, modifyFlags_flags, setPage_flags]
      exact ⟨rfl, rfl⟩
    · rw [hother j hji]
      exact ⟨rfl, rfl⟩
  · have hless : missingDevs (st.endRead i).sh ⊂ missingDevs st.sh := by
      refine ssubset_iff_of_subset (fun j hj => ?_) |>.mpr ⟨i, ?_, fun hmem => ?_⟩
      · obtain ⟨hjlt, hj'⟩ := mem_filter.mp hj
        refine mem_filter.mpr ⟨hjlt, ?_⟩
        by_cases hji : j = i
        · rw [hji]
          exact hmiss
        · rwa [hother j hji] at hj'
      · exact mem_filter.mpr ⟨mem_range.mpr (hd.disks ▸ hi), hmiss⟩
      · have := (mem_filter.mp hmem).2
        rw [hself] at this
        cases this
    have hsame : unreadDevs (st.endRead i).sh ⊆ unreadDevs st.sh := by
      intro j hj
      obtain ⟨hjlt, hj'⟩ := mem_filter.mp hj
      refine mem_filter.mpr ⟨hjlt, ?_⟩
      by_cases hji : j = i
      · rw [hji, Unread, hself] at hj'
        cases hj'.2.1
      · rwa [Unread, hother j hji] at hj'
    rw [rank_gather h, rank_gather hgather]
    have := card_lt_card hless
    have := card_le_card hsame
    omega

omit hd in
theorem card_missing (sh : StripeHead) :
    (uptodateDevs sh).card + (missingDevs sh).card = sh.disks := by
  have hcompl : missingDevs sh =
      (range sh.disks).filter fun i => ¬ (sh.dev i).flags.uptodate := by
    refine filter_congr fun i _ => ?_
    rw [Bool.not_eq_true]
  rw [hcompl, uptodateDevs, card_filter_add_card_filter_not, card_range]

theorem Driven.qd_neg (hl : conf.level ≠ .raid6) : st.sh.idx.qdIdx = -1 := by
  rw [hd.geometry]
  exact hd.target.parityIdx.no_qd hl

/-- While a surviving block is missing nothing is computed. -/
theorem Gather.not_computes (h : Gather conf disk failed sh0 st)
    (hfm : ∀ i ∈ failed, (st.sh.dev i).flags.uptodate = false)
    {j : Nat} (hj : j < sh0.disks) (hjf : j ∉ failed) (hjm : (st.sh.dev j).flags.uptodate = false)
    {i : Nat} (hi : i < sh0.disks) (him : (st.sh.dev i).flags.uptodate = false)
    (hil : (st.sh.dev i).flags.locked = false) :
    ¬ Computes st.sh (countStripe st.sh) i st.sh.disks := by
  have hcard := card_missing st.sh
  have hmem : ∀ {k}, k < sh0.disks → (st.sh.dev k).flags.uptodate = false →
      k ∈ missingDevs st.sh := fun hk hkm =>
    mem_filter.mpr ⟨mem_range.mpr (hd.disks ▸ hk), hkm⟩
  have hsub : insert j failed ⊆ missingDevs st.sh := by
    intro k hk
    rcases mem_insert.mp hk with rfl | hk
    · exact hmem hj hjm
    · exact hmem (hd.target.failed_lt k hk) (hfm k hk)
  have hle := card_le_card hsub
  rw [card_insert_of_notMem hjf] at hle
  have hcount : (countStripe st.sh).uptodate = (uptodateDevs st.sh).card := rfl
  rintro (⟨hone, hcase⟩ | ⟨htwo, hfail⟩)
  · have hempty : failed = ∅ := card_eq_zero.mp (by omega)
    have hfailed : (countStripe st.sh).failed = 0 := by
      rw [hd.failed_count, hempty]
      rfl
    rcases hcase with ⟨hq, hp⟩ | ⟨hne, -⟩
    · by_cases hl : conf.level = .raid6
      · have hip : i = sh0.pd := by
          have := (hd.target.parityIdx.validPQ hl).pd_cast
          rw [hd.geometry] at hp
          omega
        rw [hip] at him hil
        obtain ⟨-, k, hk, hkp, hkm⟩ := h.pLast hl (by simp [hempty]) him hil
        have hpair : ({sh0.pd, k} : Finset Nat) ⊆ missingDevs st.sh := by
          intro x hx
          rcases mem_insert.mp hx with rfl | hx
          · exact hmem (hip ▸ hi) him
          · exact mem_singleton.mp hx ▸ hmem hk hkm
        have := card_le_card hpair
        rw [card_pair hkp.symm] at this
        omega
      · rw [hd.qd_neg hl] at hq
        omega
    · exact hne hfailed
  · rw [hd.failed_count] at hfail
    omega

omit hd in
theorem handleStripe_fill (hw : (st.sh.devs (·.wantcompute)).card = 0)
    (hmiss : (uptodateDevs st.sh).card < st.sh.disks) (hidle : st.checkState = .idle)
    (hrun : st.sh.computeRun = false) (hrec : st.sh.reconstructState = .idle)
    {sh' : StripeHead} {s' : StripeHeadState}
    (hfill : fillLoop conf.fetch st.sh.disks (down st.sh.disks) st.sh (countStripe st.sh) =
      some (sh', s')) (hheld : s'.locked ≠ 0 ∨ sh'.computeRun) :
    handleStripe conf st = raidRunOps conf ⟨{ st with sh := sh' }, s', false⟩ := by
  have hcall : handleStripeFill conf.fetch st.checkState st.sh (countStripe st.sh) =
      some (sh', s') := by
    rw [handleStripeFill, hrun, hidle, hrec]
    exact hfill
  have hskip : checkParity conf { st with sh := sh' } s' = some
    ⟨{ st with sh := sh' }, s', false⟩ := by
    refine if_neg ?_
    rintro (hne | ⟨hl, hc, -⟩)
    · exact hne hidle
    · rcases hheld with h | h
      · exact h hl
      · cases hc.symm.trans h
  unfold handleStripe analyseStripe
  rw [if_neg (by omega), bind_some, hw]
  have hlt : (countStripe st.sh).uptodate + 0 < st.sh.disks := hmiss
  rw [if_pos hlt, hcall, bind_some, hskip, bind_some]

omit hd in
theorem readIn_dev (l : List Nat) (sh : StripeHead) (j : Nat) :
    (readIn l sh).dev j = if j ∈ l ∧ Unread sh j then (sh.dev j).startRead else sh.dev j := rfl

/-- **A pass while surviving blocks are missing** starts reads for those not yet asked for. -/
theorem Gather.handle_reads (h : Gather conf disk failed sh0 st)
    (hfm : ∀ i ∈ failed, (st.sh.dev i).flags.uptodate = false)
    {j : Nat} (hj : j < sh0.disks) (hjf : j ∉ failed) (hjm : (st.sh.dev j).flags.uptodate = false) :
    ∃ st', handleStripe conf st = some st' ∧
      ((st' = st ∧ ∃ i < sh0.disks, (st.sh.dev i).flags.wantread) ∨
        Next conf disk failed check sh0 st st') := by
  have hw := card_wantcompute st.sh fun i hi => h.wantcompute i (hd.disks ▸ hi)
  have hjmem : j ∈ missingDevs st.sh :=
    mem_filter.mpr ⟨mem_range.mpr (hd.disks ▸ hj), hjm⟩
  have hlt : (uptodateDevs st.sh).card < st.sh.disks := by
    have := card_missing st.sh
    have := card_pos.mpr ⟨j, hjmem⟩
    omega
  obtain ⟨k, hfill, hnone⟩ := @fillLoop_reads conf.fetch st.sh.disks
    (down st.sh.disks) st.sh (countStripe st.sh) (nodup_down _) rfl hd.lone
    fun i hi hil him => by
      have hi' : i < sh0.disks := hd.disks ▸ mem_down.mp hi
      exact ⟨h.wantcompute i hi', (h.reading i hi').trans hil,
        h.not_computes hd hfm hj hjf hjm hi' him hil⟩
  have hheld : (countStripe st.sh).locked + k ≠ 0 := by
    intro hz
    have hjl : (st.sh.dev j).flags.locked = false := by
      by_contra hjl
      have hmem : j ∈ st.sh.devs (·.locked) := mem_devs.mpr ⟨hd.disks ▸ hj, by simpa using hjl⟩
      have := card_pos.mpr ⟨j, hmem⟩
      have hcount : (countStripe st.sh).locked = (st.sh.devs (·.locked)).card := rfl
      omega
    exact hnone (by omega) j (mem_down.mpr (hd.disks ▸ hj))
      ⟨hjl, hjm, hd.insync_of_not_failed hj hjf⟩
  refine ⟨{ st with sh := readIn (down st.sh.disks) st.sh }, ?_, ?_⟩
  · rw [handleStripe_fill hw hlt h.idle h.noCompute hd.noReconstruct hfill (.inl hheld)]
    rfl
  by_cases hun : ∃ i ∈ down st.sh.disks, Unread st.sh i
  · right
    have hgather : Gather conf disk failed sh0
        { st with sh := readIn (down st.sh.disks) st.sh } :=
      { idle := h.idle
        noCompute := h.noCompute
        notDone := h.notDone
        wantcompute := fun i hi => by
          dsimp only
          rw [readIn_dev]
          split_ifs <;> exact h.wantcompute i hi
        wantwrite := fun i hi => by
          dsimp only
          rw [readIn_dev]
          split_ifs <;> exact h.wantwrite i hi
        reading := fun i hi => by
          dsimp only
          rw [readIn_dev]
          split_ifs
          · rfl
          · exact h.reading i hi
        locked := fun i hi hl => by
          dsimp only at hl ⊢
          rw [readIn_dev] at hl ⊢
          split_ifs at hl ⊢ with hu
          · refine ⟨hu.2.2.1, fun hif => ?_⟩
            have := ((hd.failed_iff i).mp hif).2
            rw [hu.2.2.2] at this
            cases this
          · exact h.locked i hi hl
        page := fun i hi hup => by
          unfold dataPage
          dsimp only at hup ⊢
          rw [readIn_dev] at hup ⊢
          split_ifs at hup ⊢ <;> exact h.page i hi hup
        rebuilt := .inl fun i hi => by
          dsimp only
          rw [readIn_dev]
          split_ifs <;> exact hfm i hi
        pLast := fun hl hpf hp hpl => by
          dsimp only at hp hpl
          have hpd := hd.target.parityIdx.pd_lt_disks
          rw [readIn_dev] at hp hpl
          split_ifs at hp hpl with hu
          · exact absurd hpl (by simp [startRead])
          · -- an unlocked `P` that can be read would have been asked for
            exact absurd ⟨mem_down.mpr (hd.disks ▸ hpd), hpl, hp,
              hd.insync_of_not_failed hpd hpf⟩ hu }
    refine ⟨hd.congr rfl rfl rfl (fun i => ?_) rfl rfl, .gather hgather, ?_⟩
    · dsimp only
      rw [readIn_dev]
      split_ifs <;> exact ⟨rfl, rfl⟩
    · have hmiss : missingDevs (readIn (down st.sh.disks) st.sh) = missingDevs st.sh := by
        refine filter_congr fun i _ => ?_
        rw [readIn_dev]
        split_ifs <;> rfl
      have hzero : unreadDevs (readIn (down st.sh.disks) st.sh) = ∅ := by
        refine filter_false_of_mem fun i hi hu => ?_
        rw [Unread, readIn_dev] at hu
        split_ifs at hu with hu'
        · exact absurd hu.1 (by simp [startRead])
        · exact hu' ⟨mem_down.mpr (mem_range.mp hi), hu⟩
      have hpos : 0 < (unreadDevs st.sh).card := by
        obtain ⟨i, hi, hu⟩ := hun
        exact card_pos.mpr
          ⟨i, mem_filter.mpr ⟨mem_range.mpr (mem_down.mp hi), hu⟩⟩
      rw [rank_gather h, rank_gather hgather]
      dsimp only
      rw [hmiss, hzero, card_empty]
      omega
  · left
    have hsame : readIn (down st.sh.disks) st.sh = st.sh :=
      readIn_of_none fun i hi hu => hun ⟨i, hi, hu⟩
    refine ⟨by rw [hsame], j, hj, ?_⟩
    rw [h.reading j hj]
    by_contra hjl
    exact hun ⟨j, mem_down.mpr (hd.disks ▸ hj), by simpa using hjl, hjm,
      hd.insync_of_not_failed hj hjf⟩

omit hd in
/-- The targets of a computation brought back, when all other blocks are those of the stripe. -/
theorem Parity.compute_targets (h : Parity conf sh0)
    (ht : Targets sh targets) (hgeo : sh.toStripeHead = sh0.toStripeHead) (hj : NoJournal sh)
    (hlone : sh.batchHead = false) (htwo : targets.card = 2 → conf.level = .raid6)
    (hpage : ∀ i < sh0.disks, i ∉ targets → sh.dataPage i = sh0.dataPage i) :
    ∃ sh', raidRunCompute conf.tx conf.level sh = some sh' ∧ PagesOnly sh sh' ∧
      ∀ i < sh0.disks, sh'.dataPage i = sh0.dataPage i := by
  have hdisks : sh.disks = sh0.disks := by rw [hgeo]
  have hd : Damaged sh0 sh (· ∈ targets) := ⟨hgeo, hpage⟩
  have hlt : ∀ i ∈ targets, i < sh0.disks := fun i hi => hdisks ▸ ht.lt i hi
  have hwant : ∀ i ∈ targets, (sh.dev i).flags.wantcompute := fun i hi =>
    (ht.want i (ht.lt i hi)).trans (decide_eq_true hi)
  rcases ht.cases with ⟨t, rfl, htgt, htgt2⟩ | ⟨t, t2, hne, rfl, htgt, htgt2⟩
  · have hmem := mem_singleton_self t
    refine ⟨_, h.compute_one hd hj hlone (hlt t hmem) htgt htgt2 (hwant t hmem) fun i hi =>
      .inl (mem_singleton.mp hi), .store _ _ _, fun i hi => ?_⟩
    exact (hd.store rfl).page i hi fun hl => hl.2 (mem_singleton.mp hl.1)
  · have hmem : t ∈ ({t, t2} : Finset Nat) := mem_insert_self _ _
    have hmem2 : t2 ∈ ({t, t2} : Finset Nat) :=
      mem_insert_of_mem (mem_singleton_self _)
    exact h.compute_two (htwo (card_pair hne)) hd hj hlone (hlt t hmem) (hlt t2 hmem2) hne
      htgt htgt2 (hwant t hmem) (hwant t2 hmem2) fun i hi =>
        (mem_insert.mp hi).imp_right mem_singleton.mp

omit hd in
theorem Requested.page {sh sh' : StripeHead} (h : Requested sh sh' targets)
    (i : Nat) : sh'.dataPage i = sh.dataPage i := by
  rw [dataPage, h.dev]
  split_ifs <;> rfl

/-- The blocks of the failed devices, computed from the others. -/
theorem Driven.fill_failed {sh' : StripeHead} (hr : Requested st.sh sh' failed)
    (hpage : ∀ i < sh0.disks, i ∉ failed → st.sh.dataPage i = view disk failed sh0 i) :
    ∃ sh'', raidRunCompute conf.tx conf.level sh' = some sh'' ∧ PagesOnly sh' sh'' ∧
      ∀ i < sh0.disks, sh''.dataPage i = view disk failed sh0 i := by
  have hgeo : sh'.toStripeHead = sh0.toStripeHead := hr.geometry.trans hd.geometry
  have hlone : sh'.batchHead = false := hr.batchHead.trans hd.lone
  have hj : NoJournal sh' := fun i hi => by
    rw [hr.geometry] at hi
    rw [hr.dev]
    split_ifs <;> exact hd.noJournal i hi
  have hpage' : ∀ i < sh0.disks, i ∉ failed → sh'.dataPage i = view disk failed sh0 i :=
    fun i hi hf => (hr.page i).trans (hpage i hi hf)
  by_cases hc : failed.card = 2
  · have hl : conf.level = .raid6 := by
      by_contra hl
      have := hd.card_le_one hl
      omega
    obtain ⟨sh'', hrun, honly, hres⟩ := hd.target.compute_targets hr.toTargets hgeo hj hlone
      (fun _ => hl) fun i hi hf => (hpage' i hi hf).trans (hd.target.view_of_two hc hi)
    exact ⟨sh'', hrun, honly, fun i hi => (hres i hi).trans (hd.target.view_of_two hc hi).symm⟩
  · rcases hr.cases with ⟨t, hf, htgt, htgt2⟩ | ⟨t, t2, hne, hf, -⟩
    · have hmem : t ∈ failed := by rw [hf]; exact mem_singleton_self t
      have ht := hd.target.failed_lt t hmem
      have hdam : Damaged sh0 sh' fun i => i = t ∨ view disk failed sh0 i ≠ sh0.dataPage i :=
        ⟨hgeo, fun i hi hnot => by
          rw [not_or, not_not] at hnot
          refine (hpage' i hi ?_).trans hnot.2
          rw [hf]
          exact fun h => hnot.1 (mem_singleton.mp h)⟩
      have hwant : (sh'.dev t).flags.wantcompute := by
        rw [hr.want t (hr.lt t hmem)]
        exact decide_eq_true hmem
      -- on level 6 the block is computed without the parity that need not be right
      have hlost : ∀ i < sh0.disks, i = t ∨ view disk failed sh0 i ≠ sh0.dataPage i →
          i = t ∨ conf.level = .raid6 ∧ (i = sh0.qd ∨ t = sh0.qd ∧ i = sh0.pd) := by
        rintro i hi (rfl | hne)
        · exact .inl rfl
        · rcases hd.target.parityIdx.device hi with hdat | rfl | ⟨hl, rfl⟩
          · exact absurd (hd.target.view_data hdat) hne
          · obtain ⟨hl, htq⟩ := hd.target.view_p hne t hmem
            exact .inr ⟨hl, .inr ⟨htq, rfl⟩⟩
          · exact .inr ⟨hl, .inl rfl⟩
      have hdam' : Damaged sh0 sh' fun i =>
          i < sh0.disks ∧ (i = t ∨ view disk failed sh0 i ≠ sh0.dataPage i) :=
        hdam.mono fun i hi hl => ⟨hi, hl⟩
      refine ⟨_, hd.target.compute_one hdam' hj hlone ht htgt htgt2 hwant fun i hl =>
        hlost i hl.1 hl.2, .store _ _ _, fun i hi => ?_⟩
      by_cases hit : i = t
      · rw [hit, dataPage, store_page_dev_self, setPage_page, view,
          if_pos hmem]
      · rw [dataPage, store_page_dev_of_ne _ _ _ hit]
        refine hpage' i hi ?_
        rw [hf]
        exact fun h => hit (mem_singleton.mp h)
    · exact absurd (by rw [hf]; exact card_pair hne) hc

/-- **A pass when only blocks of failed devices are missing** starts their computation. -/
theorem Gather.handle_computes (h : Gather conf disk failed sh0 st) (hne : failed.Nonempty)
    (hmiss : ∀ i < sh0.disks, (st.sh.dev i).flags.uptodate = decide (i ∉ failed)) :
    ∃ st', handleStripe conf st = some st' ∧ Next conf disk failed check sh0 st st' := by
  have hw := card_wantcompute st.sh fun i hi => h.wantcompute i (hd.disks ▸ hi)
  have hunlocked : ∀ i < sh0.disks, (st.sh.dev i).flags.locked = false := by
    intro i hi
    by_contra hl
    obtain ⟨hup, hf⟩ := h.locked i hi (by simpa using hl)
    rw [hmiss i hi, decide_eq_true hf] at hup
    cases hup
  obtain ⟨a, ha⟩ := hne
  have halt := hd.target.failed_lt a ha
  have ham : (st.sh.dev a).flags.uptodate = false := by
    rw [hmiss a halt]
    exact decide_eq_false fun h => h ha
  have hmempty : 0 < (missingDevs st.sh).card := card_pos.mpr
    ⟨a, mem_filter.mpr ⟨mem_range.mpr (hd.disks ▸ halt), ham⟩⟩
  obtain ⟨f, ⟨hr, hop⟩, hfill⟩ := @fillLoop_computes conf.fetch st.sh.disks
    st.sh (countStripe st.sh) rfl (fun f => Requested st.sh f.sh failed ∧
      f.s.opComputeBlk)
    (fun i hi hup => fetchBlock_failed hd.lone hd.failed_iff hd.card_le
      (fun i hi => hmiss i (hd.disks ▸ hi)) (fun i hi => h.wantcompute i (hd.disks ▸ hi))
      (fun i hi => by
        have hilt := hd.target.failed_lt i hi
        exact ⟨hunlocked i hilt, (h.reading i hilt).trans (hunlocked i hilt)⟩) hi hup)
    _ (fun i hi => mem_down.mp hi) ⟨a, mem_down.mpr (hd.disks ▸ halt), ham⟩
  have hlt : (uptodateDevs st.sh).card < st.sh.disks := by
    have := card_missing st.sh
    omega
  obtain ⟨sh'', hrun, honly, hpage⟩ := hd.fill_failed hr fun i hi hf => h.page i hi (by
    rw [hmiss i hi]
    exact decide_eq_true hf)
  have hflags : ∀ i, (sh''.dev i).flags = (f.sh.dev i).flags := honly.flags
  have hkeep : ∀ i, (f.sh.dev i).flags = if i ∈ failed then
      { (st.sh.dev i).flags with wantcompute := true } else (st.sh.dev i).flags := fun i => by
    rw [hr.dev]
    split_ifs <;> rfl
  have hclear : Clear sh0 st :=
    ⟨hunlocked, fun i hi => (h.reading i hi).trans (hunlocked i hi), h.wantwrite⟩
  have hfilling : Filling disk failed sh0 { st with sh := sh'' } :=
    { toClear := hclear.congr fun i => by
        dsimp only
        rw [hflags, hkeep]
        split_ifs <;> exact ⟨rfl, rfl, rfl⟩
      idle := h.idle
      compute := honly.computeRun.trans hr.computeRun
      notDone := h.notDone
      targets :=
        { lt := fun i hi => by
            dsimp only
            rw [honly.geometry]
            exact hr.lt i hi
          want := fun i hi => by
            dsimp only at hi ⊢
            rw [honly.geometry] at hi
            rw [hflags]
            exact hr.want i hi
          cases := by
            dsimp only
            rw [honly.target, honly.target2]
            exact hr.cases }
      uptodate := fun i hi => by
        dsimp only
        rw [hflags, hkeep, ← hmiss i hi]
        split_ifs <;> rfl
      page := hpage }
  refine ⟨{ st with sh := sh'' }, ?_, hd.congr (honly.geometry.trans hr.geometry)
    (honly.batchHead.trans hr.batchHead) (honly.reconstructState.trans hr.reconstructState)
    (fun i => ?_) rfl rfl, .filling hfilling, ?_⟩
  · rw [handleStripe_fill hw hlt h.idle h.noCompute hd.noReconstruct hfill (.inr hr.computeRun),
      raidRunOps, hop, if_pos rfl, hrun]
    rfl
  · dsimp only
    rw [hflags, hkeep]
    split_ifs <;> exact ⟨rfl, rfl⟩
  · rw [rank_filling hfilling, rank_gather h]
    omega

end MdRaid.Stripe
