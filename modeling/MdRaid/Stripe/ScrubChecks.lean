import MdRaid.Stripe.ScrubFill

/-!
# Checking a stripe and writing it back

Passes over a stripe whose blocks are all there: a check is started, its result
is looked at, and what is to be written is marked. Each takes the stripe to a
phase of smaller rank, on level 5 and on level 6.
-/

namespace MdRaid.Stripe

open MdRaid.Geometry Loops Runs Finset Geometry.StripeHead List StripeHead

variable {conf : SyncConf} {disk : Nat → Page} {failed : Finset Nat} {check : Bool}
  {sh0 : StripeHead} {st : SyncStripe}

/-! ## Starting a check -/

/-- Where a pass finds every block up to date. -/
structure Full (disk : Nat → Page) (failed : Finset Nat) (sh0 : StripeHead)
    (st : SyncStripe) : Prop extends Clear sh0 st where
  idle : st.checkState = .idle
  noCompute : st.sh.computeRun = false
  notDone : st.insync = false
  wantcompute : ∀ i < sh0.disks, (st.sh.dev i).flags.wantcompute = false
  uptodate : ∀ i < sh0.disks, (st.sh.dev i).flags.uptodate = true
  page : ∀ i < sh0.disks, st.sh.dataPage i = view disk failed sh0 i

theorem Gather.full (h : Gather conf disk failed sh0 st)
    (hup : ∀ i < sh0.disks, (st.sh.dev i).flags.uptodate) : Full disk failed sh0 st := by
  have hunlocked : ∀ i < sh0.disks, (st.sh.dev i).flags.locked = false := by
    intro i hi
    by_contra hl
    have := (h.locked i hi (by simpa using hl)).1
    rw [hup i hi] at this
    cases this
  exact ⟨⟨hunlocked, fun i hi => (h.reading i hi).trans (hunlocked i hi), h.wantwrite⟩, h.idle,
    h.noCompute, h.notDone, h.wantcompute, hup, fun i hi => h.page i hi (hup i hi)⟩

variable (hd : Driven conf disk failed check sh0 st)

include hd

theorem Full.handle (h : Full disk failed sh0 st) :
    handleStripe conf st = (handleParityChecks conf.level st (countStripe st.sh)).bind fun c =>
      raidRunOps conf c := by
  have hw := card_wantcompute st.sh fun i hi => h.wantcompute i (hd.disks ▸ hi)
  have hl : (countStripe st.sh).locked = 0 :=
    card_locked fun i hi => h.locked i (hd.disks ▸ hi)
  rw [handleStripe_noFill (by omega) (.inl fun i hi => h.uptodate i (hd.disks ▸ hi)), checkParity,
    if_pos (.inr ⟨hl, h.noCompute, h.notDone⟩)]

theorem Full.count (h : Full disk failed sh0 st) : (countStripe st.sh).uptodate = st.sh.disks :=
  card_uptodate_eq fun i hi => h.uptodate i (hd.disks ▸ hi)

theorem Driven.dataDevs_nonempty : sh0.dataDevs.Nonempty := by
  by_cases hl : conf.level = .raid6
  · -- of three devices one is neither `P` nor `Q`
    have hfour := hd.target.disks6 hl
    have hcast := (hd.target.parityIdx.validPQ hl).pd_cast
    have hcast' := (hd.target.parityIdx.validPQ hl).qd_cast
    have hex : ∃ i < 3, i ≠ sh0.pd ∧ i ≠ sh0.qd := by
      by_cases h0 : 0 ≠ sh0.pd ∧ 0 ≠ sh0.qd
      · exact ⟨0, by omega, h0⟩
      · by_cases h1 : 1 ≠ sh0.pd ∧ 1 ≠ sh0.qd
        · exact ⟨1, by omega, h1⟩
        · exact ⟨2, by omega, by omega, by omega⟩
    obtain ⟨i, hi, hp, hq⟩ := hex
    refine ⟨i, mem_dataDevs.mpr ⟨by omega,
      isParity_eq_false.mpr ⟨by omega, by omega⟩⟩⟩
  · have htwo := hd.target.disks
    have hex : ∃ i < 2, i ≠ sh0.pd := by
      by_cases h0 : 0 ≠ sh0.pd
      · exact ⟨0, by omega, h0⟩
      · exact ⟨1, by omega, by omega⟩
    obtain ⟨i, hi, hp⟩ := hex
    exact ⟨i, (hd.target.parityIdx.mem_dataDevs_iff hl).mpr ⟨by omega, hp⟩⟩

variable {s : StripeHeadState}

/-- The check of `P` alone, which leaves `P` destroyed. -/
theorem Full.run_p (h : Full disk failed sh0 st)
    (hl : conf.level = .raid6 → failed = {sh0.qd}) (hl5 : conf.level ≠ .raid6 → failed = ∅)
    (hs : s.opComputeBlk = false) {p q : Bool} : ∃ st', raidRunOps conf ⟨{ st with
        zeroSumP := p, zeroSumQ := q, checkState := .run, sh := st.sh.clearUptodate st.sh.pd },
        s, true⟩ = some st' ∧
      Next conf disk failed check sh0 st st' := by
  have hpd : st.sh.pd = sh0.pd := by rw [hd.geometry]
  have hpf : sh0.pd ∉ failed := by
    by_cases hlev : conf.level = .raid6
    · rw [hl hlev, Finset.mem_singleton]
      exact (hd.target.parityIdx.validPQ hlev).pd_ne
    · rw [hl5 hlev]
      exact notMem_empty _
  have hdev : ∀ j, (st.sh.clearUptodate sh0.pd).dev j = if j = sh0.pd then
      (st.sh.dev j).modifyFlags fun f => { f with uptodate := false } else st.sh.dev j :=
    fun j => modifyFlags_dev _ _ _ _
  have hpg : ∀ j, (st.sh.clearUptodate sh0.pd).dataPage j = st.sh.dataPage j := fun j => by
    rw [dataPage, hdev]
    split_ifs <;> rfl
  have hdata : ∀ i ∈ sh0.dataDevs,
      (st.sh.clearUptodate sh0.pd).dataPage i = sh0.dataPage i := fun i hi => by
    have hlt := (mem_dataDevs.mp hi).1
    rw [hpg, h.page i hlt, hd.target.view_data hi]
  have hgeo : (st.sh.clearUptodate sh0.pd).toStripeHead = sh0.toStripeHead := hd.geometry
  have hcheck := hd.target.opsRunCheckP hgeo hd.lone hdata hd.dataDevs_nonempty
  rw [hpg, h.page _ hd.target.parityIdx.pd_lt_disks] at hcheck
  have honly := PagesOnly.store (st.sh.clearUptodate sh0.pd) (.page sh0.pd)
    (view disk failed sh0 sh0.pd + sh0.dataPage sh0.pd)
  have hother : ∀ j, j ≠ sh0.pd → ((st.sh.clearUptodate sh0.pd).store (.page sh0.pd)
      (view disk failed sh0 sh0.pd + sh0.dataPage sh0.pd)).dev j = st.sh.dev j := fun j hj => by
    rw [store_page_dev_of_ne _ _ _ hj, hdev, if_neg hj]
  generalize (st.sh.clearUptodate sh0.pd).store (.page sh0.pd)
    (view disk failed sh0 sh0.pd + sh0.dataPage sh0.pd) = sh' at hcheck honly hother
  have hflags : ∀ i, (sh'.dev i).flags = if i = sh0.pd then
      { (st.sh.dev i).flags with uptodate := false } else (st.sh.dev i).flags := fun i => by
    rw [honly.flags, hdev]
    split_ifs <;> rfl
  have hchecked : Checked conf disk failed sh0 { st with
      checkState := .run, sh := sh', zeroSumQ := false
      zeroSumP := decide (view disk failed sh0 sh0.pd ≠ sh0.dataPage sh0.pd) } :=
    { toClear := h.toClear.congr fun i => by
        dsimp only
        rw [hflags]
        split_ifs <;> exact ⟨rfl, rfl, rfl⟩
      p := by
        dsimp only
        exact decide_eq_true_iff
      q := fun hlev => by
        refine iff_of_false Bool.false_ne_true (not_not.mpr ?_)
        rw [view, if_pos (by rw [hl hlev]; exact Finset.mem_singleton_self _)]
      noCompute := honly.computeRun.trans h.noCompute
      notDone := h.notDone
      wantcompute := fun i hi => by
        dsimp only
        rw [hflags]
        split_ifs <;> exact h.wantcompute i hi
      uptodate := fun i hi hne => by
        dsimp only
        rw [hother i hne]
        exact h.uptodate i hi
      destroyed := fun _ => ⟨hpf, fun hlev => by rw [hl hlev]; exact Finset.mem_singleton_self _⟩
      page := fun i hi hup => by
        dsimp only at hup
        have hne : i ≠ sh0.pd := by
          rintro rfl
          rw [hflags, if_pos rfl] at hup
          cases hup
        unfold dataPage
        dsimp only
        rw [hother i hne]
        exact h.page i hi
      level5 := hl5 }
  refine ⟨{ st with
      checkState := .run, sh := sh', zeroSumQ := false
      zeroSumP := decide (view disk failed sh0 sh0.pd ≠ sh0.dataPage sh0.pd) }, ?_,
    hd.congr honly.geometry honly.batchHead honly.reconstructState (fun i => ?_) rfl rfl,
    .checking hchecked rfl fun _ => rfl, ?_⟩
  · rw [raidRunOps, hs, if_neg (by simp), Option.bind_some, if_pos rfl, raidRunCheck,
      hpd, hcheck, Option.map_some]
  · dsimp only
    rw [hflags]
    split_ifs <;> exact ⟨rfl, rfl⟩
  · rw [rank_running hchecked.notDone rfl, SyncStripe.rank, h.notDone, if_neg (by simp),
      h.idle]
    simp only [h.noCompute, Bool.false_eq_true, if_false]
    omega

omit hd in
theorem Full.rank_le (h : Full disk failed sh0 st) : 12 ≤ st.rank := by
  rw [SyncStripe.rank, h.notDone, if_neg (by simp), h.idle]
  simp only [h.noCompute, Bool.false_eq_true, if_false]
  omega

omit hd in
theorem raidRunCheck_pq (tx : AsyncTx) (st : SyncStripe) (checkp p q : Bool) :
    raidRunCheck tx { st with
        zeroSumP := p, zeroSumQ := q, checkState := if checkp then .runPQ else .runQ } =
      (opsRunCheckPQ tx st.sh checkp).map fun r => { st with
        checkState := if checkp then .runPQ else .runQ, zeroSumP := r.1, zeroSumQ := r.2 } := by
  cases checkp <;> rfl

/-- The check by syndromes, with or without `P`. -/
theorem Full.run_pq (h : Full disk failed sh0 st) (hl : conf.level = .raid6) (checkp : Bool)
    (hp : checkp = false → view disk failed sh0 sh0.pd = sh0.dataPage sh0.pd)
    (hs : s.opComputeBlk = false) {p q : Bool} : ∃ st', raidRunOps conf ⟨{ st with
        zeroSumP := p, zeroSumQ := q, checkState := if checkp then .runPQ else .runQ },
        s, true⟩ = some st' ∧ Next conf disk failed check sh0 st st' := by
  have hpq := hd.target.parityIdx.validPQ hl
  have hcheck := hd.target.opsRunCheckPQ hl hd.geometry hd.noJournal hd.lone
    (fun i hi => by
      have hlt := (mem_dataDevs.mp hi).1
      rw [h.page i hlt, hd.target.view_data hi]) checkp
  rw [h.page _ hpq.pd_lt_disks, h.page _ hpq.qd_lt_disks] at hcheck
  have hchecked : Checked conf disk failed sh0 { st with
      checkState := if checkp then .runPQ else .runQ
      zeroSumP := checkp && decide (view disk failed sh0 sh0.pd ≠ sh0.dataPage sh0.pd)
      zeroSumQ := decide (view disk failed sh0 sh0.qd ≠ sh0.dataPage sh0.qd) } :=
    { locked := h.locked
      wantread := h.wantread
      wantwrite := h.wantwrite
      p := by
        dsimp only
        cases checkp with
        | true =>
          rw [Bool.true_and]
          exact decide_eq_true_iff
        | false => exact iff_of_false Bool.false_ne_true (not_not.mpr (hp rfl))
      q := fun _ => by
        dsimp only
        exact decide_eq_true_iff
      noCompute := h.noCompute
      notDone := h.notDone
      wantcompute := h.wantcompute
      uptodate := fun i hi _ => h.uptodate i hi
      destroyed := fun hp => by
        dsimp only at hp
        rw [h.uptodate _ hpq.pd_lt_disks] at hp
        cases hp
      page := fun i hi _ => h.page i hi
      level5 := fun hl5 => absurd hl hl5 }
  have hrunning : (if checkp then CheckState.runPQ else CheckState.runQ).running := by
    cases checkp <;> rfl
  refine ⟨{ st with
      checkState := if checkp then .runPQ else .runQ
      zeroSumP := checkp && decide (view disk failed sh0 sh0.pd ≠ sh0.dataPage sh0.pd)
      zeroSumQ := decide (view disk failed sh0 sh0.qd ≠ sh0.dataPage sh0.qd) }, ?_,
    hd.congr rfl rfl rfl (fun i => ⟨rfl, rfl⟩) rfl rfl,
    .checking hchecked hrunning fun hl5 => absurd hl hl5, ?_⟩
  · rw [raidRunOps, hs, if_neg (by simp), Option.bind_some, if_pos rfl, raidRunCheck_pq,
      hcheck, Option.map_some]
  · rw [rank_running hchecked.notDone hrunning]
    have := h.rank_le
    omega

theorem Driven.marked5 (hclear : Clear sh0 st)
    (hnot : st.insync = false) (hcomp : st.sh.computeRun = false) {t : Nat}
    (hup : (st.sh.dev t).flags.uptodate)
    (hs : s.opComputeBlk = false) (hcount : s.uptodate = st.sh.disks)
    (hpage : st.sh.dataPage t = sh0.dataPage t)
    (hmark : t ∈ failed ∨ check = false ∧ t ∉ sh0.dataDevs)
    (hrest : check = false → ∀ i < sh0.disks, i ≠ t →
      i ∉ failed ∧ view disk failed sh0 i = sh0.dataPage i) (hrank : 0 < st.rank) :
    ∃ st', ((writeResult5 st s t).bind fun c => raidRunOps conf c) = some st' ∧
      Next conf disk failed check sh0 st st' := by
  have hres : writeResult5 st s t = some ⟨{ st with
      checkState := .idle, sh := st.sh.wantWrite t, degraded := false, insync := true },
      { s with locked := s.locked + 1 }, false⟩ := by
    rw [writeResult5, hnot, if_neg (by simp), hup, hcount]
    simp
  rw [hres, Option.bind_some, raidRunOps]
  dsimp only
  rw [hs]
  refine ⟨_, rfl, .of_done (hd.mark hclear hcomp (l := [t]) rfl (fun i hi => ?_) (fun i hi => ?_)
    fun hc i hi hit => hrest hc i hi fun h => hit (h ▸ List.mem_singleton_self _)) hrank⟩
  · rw [List.mem_singleton.mp hi]
    exact hpage
  · rw [List.mem_singleton.mp hi]
    exact hmark

/-- **A pass over a full stripe of level 4 or 5.** -/
theorem Full.handle5 (h : Full disk failed sh0 st) (hl : conf.level ≠ .raid6) :
    ∃ st', handleStripe conf st = some st' ∧ Next conf disk failed check sh0 st st' := by
  have hcount := h.count hd
  have hrank := h.rank_le
  rw [h.handle hd, handleParityChecks_five hl, handleParityChecks5, hd.lone,
    if_neg (by simp), h.idle]
  dsimp only
  rcases failedDevs_cases hd.failed_iff hd.card_le with ⟨hf, hlist⟩ | ⟨a, hf, hlist⟩ |
    ⟨a, b, hab, hf, -⟩
  · have hzero : (countStripe st.sh).failed = 0 := by
      rw [hd.failed_count, hf]
      rfl
    rw [if_pos hzero, if_neg (not_not.mpr hcount), Option.bind_some]
    exact h.run_p hd (fun h6 => absurd h6 hl) (fun _ => hf) rfl
  · have hone : (countStripe st.sh).failed ≠ 0 := by
      rw [hd.failed_count, hf, card_singleton]
      decide
    have hnum : (countStripe st.sh).failedNum0.toNat = a := by
      simp [countStripe, hlist]
    have ha : a ∈ failed := by
      rw [hf]
      exact Finset.mem_singleton_self a
    have halt := hd.target.failed_lt a ha
    rw [if_neg hone, hnum]
    refine hd.marked5 h.toClear h.notDone h.noCompute (h.uptodate a halt) rfl hcount ?_ (.inl ha)
      (fun _ i hi hia => ?_) (by omega)
    · rw [h.page a halt, view, if_pos ha]
    · have hif : i ∉ failed := by
        rw [hf]
        exact fun hmem => hia (Finset.mem_singleton.mp hmem)
      refine ⟨hif, ?_⟩
      rcases hd.target.parityIdx.device hi with hdat | rfl | ⟨h6, -⟩
      · exact hd.target.view_data hdat
      · by_contra hne
        exact hl (hd.target.view_p hne a ha).1
      · exact absurd h6 hl
  · have := hd.card_le_one hl
    rw [hf, card_pair hab] at this
    omega

/-! ## Writing back on level 6 -/

omit hd in
theorem warnNotUptodate_eq {sh : StripeHead} {l : List Nat}
    (h : ∀ i ∈ l, (sh.dev i).flags.uptodate) : warnNotUptodate sh l.getLast? = sh := by
  unfold warnNotUptodate
  split
  · rfl
  · rename_i i hi
    rw [if_pos (h i (mem_of_getLast? hi))]

/-- The blocks written back are those of failed devices and the parity blocks that did not
match. -/
theorem Driven.mem_writeBack6 {i : Nat} : i ∈ writeBack6 st (countStripe st.sh) ↔
      i ∈ failed ∨ (st.zeroSumP ∧ i = sh0.pd) ∨ (st.zeroSumQ ∧ i = sh0.qd) := by
  have hpd : st.sh.pd = sh0.pd := by rw [hd.geometry]
  have hqd : st.sh.qd = sh0.qd := by rw [hd.geometry]
  have hfailed : i ∈ (if (countStripe st.sh).failed = 2 then
        [(countStripe st.sh).failedNum1.toNat] else []) ++
      (if (countStripe st.sh).failed ≥ 1 then [(countStripe st.sh).failedNum0.toNat] else []) ↔
      i ∈ failed := by
    rcases failedDevs_cases hd.failed_iff hd.card_le with ⟨hf, hlist⟩ | ⟨a, hf, hlist⟩ |
      ⟨a, b, hab, hf, hlist⟩
    · simp [countStripe, hlist, hf]
    · simp [countStripe, hlist, hf]
    · simp [countStripe, hlist, hf, or_comm]
  unfold writeBack6
  rw [mem_append, mem_append, hfailed, hpd, hqd, or_assoc]
  refine or_congr_right (or_congr ?_ ?_)
  · cases st.zeroSumP <;> simp
  · cases st.zeroSumQ <;> simp

/-- **The last pass of level 6.** -/
theorem Driven.writeResult6 (hclear : Clear sh0 st)
    (hl : conf.level = .raid6) (hsums : Sums conf disk failed sh0 st)
    (hnot : st.insync = false) (hcomp : st.sh.computeRun = false) (hrank : 0 < st.rank)
    (hready : ∀ i < sh0.disks, i ∈ failed ∨ view disk failed sh0 i ≠ sh0.dataPage i →
      (st.sh.dev i).flags.uptodate ∧ st.sh.dataPage i = sh0.dataPage i)
    (hrepair : check → ∀ i < sh0.disks, view disk failed sh0 i = sh0.dataPage i) :
    ∃ st', raidRunOps conf (Stripe.writeResult6 st (countStripe st.sh)) = some st' ∧
      Next conf disk failed check sh0 st st' := by
  have hpq := hd.target.parityIdx.validPQ hl
  have hbad : ∀ i ∈ writeBack6 st (countStripe st.sh),
      i < sh0.disks ∧ (i ∈ failed ∨ view disk failed sh0 i ≠ sh0.dataPage i ∧ i ∉
        sh0.dataDevs) := by
    intro i hi
    rcases hd.mem_writeBack6.mp hi with hf | ⟨hp, rfl⟩ | ⟨hq, rfl⟩
    · exact ⟨hd.target.failed_lt i hf, .inl hf⟩
    · exact ⟨hpq.pd_lt_disks, .inr ⟨hsums.p.mp hp, hd.target.parityIdx.pd_not_data⟩⟩
    · exact ⟨hpq.qd_lt_disks, .inr ⟨(hsums.q hl).mp hq, hpq.qd_not_data⟩⟩
  have hgood : ∀ i ∈ writeBack6 st (countStripe st.sh),
      (st.sh.dev i).flags.uptodate ∧ st.sh.dataPage i = sh0.dataPage i := fun i hi =>
    hready i (hbad i hi).1 ((hbad i hi).2.imp_right And.left)
  have hsh : warnNotUptodate ((writeBack6 st (countStripe st.sh)).foldl wantWrite st.sh)
      (writeBack6 st (countStripe st.sh)).getLast? =
      (writeBack6 st (countStripe st.sh)).foldl wantWrite st.sh := by
    refine warnNotUptodate_eq fun i hi => ?_
    rw [foldl_wantWrite_dev, if_pos hi]
    exact (hgood i hi).1
  unfold Stripe.writeResult6
  rw [hnot, if_neg (by simp)]
  dsimp only
  refine ⟨_, rfl, .of_done (hd.mark hclear hcomp hsh (fun i hi => (hgood i hi).2)
    (fun i hi => (hbad i hi).2.imp_right fun hb => ⟨?_, hb.2⟩) fun _ i hi hnot => ?_) hrank⟩
  · by_contra hc
    exact hb.1 (hrepair (by simpa using hc) i (hbad i hi).1)
  · rw [hd.mem_writeBack6, not_or, not_or] at hnot
    refine ⟨hnot.1, ?_⟩
    by_contra hne
    rcases hd.target.parityIdx.device hi with hdat | rfl | ⟨-, rfl⟩
    · exact hne (hd.target.view_data hdat)
    · exact hnot.2.1 ⟨hsums.p.mpr hne, rfl⟩
    · exact hnot.2.2 ⟨(hsums.q hl).mpr hne, rfl⟩

/-- **A pass over a full stripe of level 6.** -/
theorem Full.handle6 (h : Full disk failed sh0 st) (hl : conf.level = .raid6) :
    ∃ st', handleStripe conf st = some st' ∧ Next conf disk failed check sh0 st st' := by
  have hpq := hd.target.parityIdx.validPQ hl
  have hqd : st.sh.idx.qdIdx = (sh0.qd : Int) := by
    rw [hd.geometry]
    exact hpq.qd_cast.symm
  rw [h.handle hd, handleParityChecks_six hl, handleParityChecks6, hd.checks6,
    if_neg (by simp), h.idle]
  dsimp only
  rcases failedDevs_cases hd.failed_iff hd.card_le with ⟨hf, hlist⟩ | ⟨a, hf, hlist⟩ |
    ⟨a, b, hab, hf, hlist⟩
  · have hstart : startCheck6 st.sh (countStripe st.sh) = .runPQ := by
      simp [startCheck6, qFailed, countStripe, hlist]
    rw [hstart]
    exact h.run_pq hd hl true (by simp) (s := countStripe st.sh) rfl
  · by_cases haq : a = sh0.qd
    · have hstart : startCheck6 st.sh (countStripe st.sh) = .run := by
        simp [startCheck6, qFailed, countStripe, hlist, hqd, haq]
      rw [hstart]
      exact h.run_p hd (fun _ => by rw [hf, haq]) (fun hl5 => absurd hl hl5)
        (s := { countStripe st.sh with uptodate := (countStripe st.sh).uptodate - 1 }) rfl
    · have hstart : startCheck6 st.sh (countStripe st.sh) = .runQ := by
        simp [startCheck6, qFailed, countStripe, hlist, hqd, haq]
      rw [hstart]
      refine h.run_pq hd hl false (fun _ => ?_) (s := countStripe st.sh) rfl
      by_contra hne
      exact haq (hd.target.view_p hne a (by rw [hf]; exact Finset.mem_singleton_self a)).2
  · have htwo : (countStripe st.sh).failed = 2 := by
      rw [hd.failed_count, hf, Finset.card_pair hab]
    have hstart : startCheck6 st.sh (countStripe st.sh) = .idle := by
      have hle := Bool.toNat_le (qFailed st.sh (countStripe st.sh))
      simp only [startCheck6, htwo]
      rw [if_neg (by simp), if_neg (by simp; omega)]
    have hcard : failed.card = 2 := by rw [hf, card_pair hab]
    have hview : ∀ i < sh0.disks, view disk failed sh0 i = sh0.dataPage i := fun i hi =>
      hd.target.view_of_two hcard hi
    rw [hstart]
    dsimp only
    rw [if_neg (not_not.mpr htwo), Option.bind_some]
    have hd' : Driven conf disk failed check sh0 { st with zeroSumP := false, zeroSumQ := false } :=
      hd.congr rfl rfl rfl (fun _ => ⟨rfl, rfl⟩) rfl rfl
    have hsums : Sums conf disk failed sh0 { st with zeroSumP := false, zeroSumQ := false } :=
      ⟨iff_of_false Bool.false_ne_true (not_not.mpr (hview _ hpq.pd_lt_disks)), fun _ =>
        iff_of_false Bool.false_ne_true (not_not.mpr (hview _ hpq.qd_lt_disks))⟩
    have hrank : SyncStripe.rank { st with zeroSumP := false, zeroSumQ := false } = st.rank := rfl
    obtain ⟨st', hrun, hnext⟩ := hd'.writeResult6 ⟨h.locked, h.wantread, h.wantwrite⟩ hl hsums
      h.notDone h.noCompute (by have := h.rank_le; omega)
      (fun i hi _ => ⟨h.uptodate i hi, (h.page i hi).trans (hview i hi)⟩) fun _ => hview
    exact ⟨st', hrun, hnext.driven, hnext.phase, hrank ▸ hnext.rank⟩

/-! ## The result of a check -/

theorem Driven.mismatch :
    Driven conf disk failed check sh0 st.mismatch :=
  hd.congr rfl rfl rfl (fun _ => ⟨rfl, rfl⟩) rfl rfl

section

variable (h : Checked conf disk failed sh0 st)

include h

/-- The parity blocks that did not match, computed. -/
theorem Checked.repair (hst : st.checkState = .checkResult)
    (hc : check = false) {sh' : StripeHead} {targets : Finset Nat}
    (hr : Requested st.sh sh' targets) (hrest : ∀ i < sh0.disks, i ∉ targets →
      (st.sh.dev i).flags.uptodate ∧ view disk failed sh0 i = sh0.dataPage i)
    (htwo : targets.card = 2 → conf.level = .raid6) (hl5 : conf.level ≠ .raid6 → st.zeroSumP)
    (hs : s.opComputeBlk) :
    ∃ st', raidRunOps conf ⟨{ st.mismatch with checkState := .computeRun, sh := sh' }, s, false⟩ =
      some st' ∧ Next conf disk failed check sh0 st st' := by
  have hj : NoJournal sh' := fun i hi => by
    rw [hr.geometry] at hi
    rw [hr.dev]
    split_ifs <;> exact hd.noJournal i hi
  obtain ⟨sh'', hrun, honly, hpage⟩ := hd.target.compute_targets hr.toTargets
    (hr.geometry.trans hd.geometry) hj (hr.batchHead.trans hd.lone) htwo fun i hi hit => by
      rw [hr.page, h.page i hi (hrest i hi hit).1, (hrest i hi hit).2]
  have hflags : ∀ i, (sh''.dev i).flags = if i ∈ targets then
      { (st.sh.dev i).flags with wantcompute := true } else (st.sh.dev i).flags := fun i => by
    rw [honly.flags, hr.dev]
    split_ifs <;> rfl
  have hrep : Repairing conf disk failed check sh0
      { st.mismatch with checkState := .computeRun, sh := sh'' } :=
    { toClear := h.toClear.congr fun i => by
        dsimp only
        rw [hflags]
        split_ifs <;> exact ⟨rfl, rfl, rfl⟩
      p := h.p
      q := h.q
      state := rfl
      compute := honly.computeRun.trans hr.computeRun
      notDone := h.notDone
      repair := hc
      targets := by
        refine ⟨targets, ⟨fun i hi => ?_, fun i hi => ?_, ?_⟩, fun i hi hit => ?_⟩
        · dsimp only
          rw [honly.geometry]
          exact hr.lt i hi
        · dsimp only at hi ⊢
          rw [honly.geometry] at hi
          rw [honly.flags]
          exact hr.want i hi
        · dsimp only
          rw [honly.target, honly.target2]
          exact hr.cases
        · dsimp only
          rw [hflags, if_neg hit]
          exact (hrest i hi hit).1
      page := hpage
      level5 := fun hl => ⟨h.level5 hl, hl5 hl⟩ }
  refine ⟨{ st.mismatch with checkState := .computeRun, sh := sh'' }, ?_,
    hd.mismatch.congr (honly.geometry.trans hr.geometry) (honly.batchHead.trans hr.batchHead)
      (honly.reconstructState.trans hr.reconstructState) (fun i => ?_) rfl rfl,
    .repairing hrep, ?_⟩
  · rw [raidRunOps, hs, if_pos rfl]
    dsimp only
    rw [hrun]
    rfl
  · dsimp only
    rw [hflags]
    split_ifs <;> exact ⟨rfl, rfl⟩
  · rw [rank_repairing hrep.notDone rfl, rank_checked h.notDone hst]
    decide

theorem Checked.wantcompute' : ∀ i < st.sh.disks, (st.sh.dev i).flags.wantcompute = false :=
  fun i hi => h.wantcompute i (hd.disks ▸ hi)

section

variable (hst : st.checkState = .checkResult)

include hst

theorem Checked.handle :
    handleStripe conf st = (handleParityChecks conf.level st (countStripe st.sh)).bind fun c =>
      raidRunOps conf c := by
  have hidle : st.checkState ≠ .idle := by
    rw [hst]
    decide
  have hw := card_wantcompute st.sh (h.wantcompute' hd)
  rw [handleStripe_noFill (by omega) (.inr (.inl hidle)), checkParity_running hidle]

/-- A check whose result needs nothing written. -/
theorem Checked.insync (hrest : check = false → ∀ i < sh0.disks,
      i ∉ failed ∧ view disk failed sh0 i = sh0.dataPage i) {st' : SyncStripe}
    (hst' : st' = st ∨ st' = st.mismatch) :
    Next conf disk failed check sh0 st { st' with checkState := .idle, insync := true } := by
  have hd' : Driven conf disk failed check sh0 st' := by
    rcases hst' with rfl | rfl
    · exact hd
    · exact hd.mismatch
  have hsh : st'.sh = st.sh := by rcases hst' with rfl | rfl <;> rfl
  have hclear : Clear sh0 st' := by
    rcases hst' with rfl | rfl <;> exact ⟨h.locked, h.wantread, h.wantwrite⟩
  refine .of_done (hd'.mark hclear (by rw [hsh]; exact h.noCompute) (l := []) rfl
    (fun i hi => absurd hi not_mem_nil) (fun i hi => absurd hi not_mem_nil)
    fun hc i hi _ => hrest hc i hi) ?_
  rw [rank_checked h.notDone hst]
  decide

theorem Checked.handle5 (hl : conf.level ≠ .raid6) :
    ∃ st', handleStripe conf st = some st' ∧ Next conf disk failed check sh0 st st' := by
  have hf := h.level5 hl
  have hzero : ¬ (countStripe st.sh).failed ≠ 0 := by
    rw [hd.failed_count, hf]
    simp
  rw [h.handle hd hst, handleParityChecks_five hl, handleParityChecks5, hd.lone,
    if_neg (by simp), hst]
  dsimp only
  rw [Option.bind_some, checkResult5, if_neg hzero]
  by_cases hp : st.zeroSumP
  · rw [if_neg (by rw [hp]; decide)]
    by_cases hc : st.check
    · rw [if_pos hc]
      refine ⟨_, rfl, h.insync hd hst (fun hc' => ?_) (.inr rfl)⟩
      cases hc'.symm.trans (hd.check_eq.symm.trans hc)
    · rw [if_neg hc]
      have hpd : st.sh.pd = sh0.pd := by rw [hd.geometry]
      have hcast : st.sh.idx.pdIdx = (st.sh.pd : Int) := by
        rw [hpd, hd.geometry]
        exact hd.target.parityIdx.pd_cast.symm
      have hlt : st.sh.pd < st.sh.disks := by
        rw [hpd, hd.disks]
        exact hd.target.parityIdx.pd_lt_disks
      have hr := requested_one hlt (h.wantcompute' hd)
      rw [← hcast] at hr
      refine h.repair hd hst (hd.check_eq.symm.trans (by simpa using hc)) hr (fun i hi hit => ?_)
        (fun h2 => ?_) (fun _ => hp) rfl
      · rw [Finset.mem_singleton, hpd] at hit
        refine ⟨h.uptodate i hi hit, ?_⟩
        exact hd.target.view_data ((hd.target.parityIdx.mem_dataDevs_iff hl).mpr ⟨hi, hit⟩)
      · rw [card_singleton] at h2
        omega
  · rw [if_pos (by simpa using hp)]
    refine ⟨_, rfl, h.insync hd hst (fun _ i hi => ⟨?_, ?_⟩) (.inl rfl)⟩
    · rw [hf]
      exact notMem_empty i
    · by_contra hne
      rcases hd.target.parityIdx.device hi with hdat | rfl | ⟨h6, -⟩
      · exact hne (hd.target.view_data hdat)
      · exact hp (h.p.mpr hne)
      · exact hl h6

/-- The repair of `P`, of `Q` or of both. -/
theorem Checked.repair6 (hl : conf.level = .raid6) (hc : check = false)
    (hsum : ¬ (!st.zeroSumP && !st.zeroSumQ)) (hup : ∀ i < sh0.disks, st.zeroSumQ ∨ i ≠ sh0.pd →
      (st.sh.dev i).flags.uptodate) (hok : ∀ i < sh0.disks, (i = sh0.pd → st.zeroSumP = false) →
      (i = sh0.qd → st.zeroSumQ = false) → view disk failed sh0 i = sh0.dataPage i) {n : Nat} :
    ∃ st', raidRunOps conf ⟨{ st.mismatch with
        checkState := .computeRun
        sh := { wantRepair st with
          computeRun := true, target := (repairTargets st).1, target2 := (repairTargets st).2 } },
        { s with opComputeBlk := true, uptodate := n }, false⟩ = some st' ∧
      Next conf disk failed check sh0 st st' := by
  have hpq' : ValidPQ st.sh.toStripeHead := by
    rw [hd.geometry]
    exact hd.target.parityIdx.validPQ hl
  have hpd : st.sh.pd = sh0.pd := by rw [hd.geometry]
  have hqd : st.sh.qd = sh0.qd := by rw [hd.geometry]
  by_cases hp : st.zeroSumP
  · by_cases hq : st.zeroSumQ
    · have hr := requested_two hpq'.pd_lt_disks hpq'.qd_lt_disks hpq'.pd_ne (h.wantcompute' hd)
      rw [hpq'.pd_cast, hpq'.qd_cast] at hr
      simp only [wantRepair, repairTargets, hp, hq, if_true]
      refine h.repair hd hst hc hr (fun i hi hit => ?_) (fun _ => hl) (fun hl5 => absurd hl hl5) rfl
      rw [Finset.mem_insert, Finset.mem_singleton, not_or, hpd, hqd] at hit
      exact ⟨hup i hi (.inl hq), hok i hi (fun hip => absurd hip hit.1) fun hiq =>
        absurd hiq hit.2⟩
    · have hq : st.zeroSumQ = false := by simpa using hq
      have hr := requested_one hpq'.pd_lt_disks (h.wantcompute' hd)
      rw [hpq'.pd_cast] at hr
      simp only [wantRepair, repairTargets, hp, hq, Bool.false_eq_true, if_false, if_true]
      refine h.repair hd hst hc hr (fun i hi hit => ?_) (fun _ => hl) (fun hl5 => absurd hl hl5) rfl
      rw [Finset.mem_singleton, hpd] at hit
      exact ⟨hup i hi (.inr hit), hok i hi (fun hip => absurd hip hit) fun _ => hq⟩
  · have hp : st.zeroSumP = false := by simpa using hp
    have hq : st.zeroSumQ := by
      by_contra hq
      exact hsum (by simp [hp, hq])
    have hr := requested_one hpq'.qd_lt_disks (h.wantcompute' hd)
    rw [hpq'.qd_cast] at hr
    simp only [wantRepair, repairTargets, hp, hq, Bool.false_eq_true, if_false, if_true]
    refine h.repair hd hst hc hr (fun i hi hit => ?_) (fun _ => hl) (fun hl5 => absurd hl hl5) rfl
    rw [Finset.mem_singleton, hqd] at hit
    exact ⟨hup i hi (.inl hq), hok i hi (fun _ => hp) fun hiq => absurd hiq hit⟩

theorem Checked.handle6 (hl : conf.level = .raid6) :
    ∃ st', handleStripe conf st = some st' ∧ Next conf disk failed check sh0 st st' := by
  have hok : ∀ i < sh0.disks, (i = sh0.pd → st.zeroSumP = false) →
      (i = sh0.qd → st.zeroSumQ = false) → view disk failed sh0 i = sh0.dataPage i := by
    intro i hi hp hq
    by_contra hne
    rcases hd.target.parityIdx.device hi with hdat | rfl | ⟨-, rfl⟩
    · exact hne (hd.target.view_data hdat)
    · cases (h.p.mpr hne).symm.trans (hp rfl)
    · exact absurd (((h.q hl).mpr hne).symm.trans (hq rfl)) (by decide)
  -- if `P` was destroyed by the check, only `P` was checked
  have hup : ∀ i < sh0.disks, st.zeroSumQ ∨ i ≠ sh0.pd →
      (st.sh.dev i).flags.uptodate := by
    intro i hi hcase
    by_cases hip : i = sh0.pd
    · by_contra hnot
      rw [hip] at hnot
      have hqf := (h.destroyed (by simpa using hnot)).2 hl
      refine (h.q hl).mp (hcase.resolve_right fun hne => hne hip) ?_
      rw [view, if_pos hqf]
    · exact h.uptodate i hi hip
  rw [h.handle hd hst, handleParityChecks_six hl, handleParityChecks6, hd.checks6,
    if_neg (by simp), hst]
  dsimp only
  rw [Option.bind_some, checkResult6]
  by_cases hsum : (!st.zeroSumP && !st.zeroSumQ)
  · rw [if_pos hsum]
    rw [Bool.and_eq_true, Bool.not_eq_true', Bool.not_eq_true'] at hsum
    have hview : ∀ i < sh0.disks, view disk failed sh0 i = sh0.dataPage i := fun i hi =>
      hok i hi (fun _ => hsum.1) fun _ => hsum.2
    by_cases hf : (countStripe st.sh).failed = 0
    · rw [if_pos hf]
      refine ⟨_, rfl, h.insync hd hst (fun _ i hi => ⟨?_, hview i hi⟩) (.inl rfl)⟩
      rw [hd.failed_count, card_eq_zero] at hf
      rw [hf]
      exact notMem_empty i
    · rw [if_neg hf]
      have hwriting : Writing conf disk failed check sh0
          { st with checkState := .computeResult } :=
        { locked := h.locked
          wantread := h.wantread
          wantwrite := h.wantwrite
          p := h.p
          q := h.q
          state := rfl
          noCompute := h.noCompute
          notDone := h.notDone
          wantcompute := h.wantcompute
          ready := fun i hi hcase => by
            have hif : i ∈ failed := hcase.resolve_right fun hne => hne (hview i hi)
            have hiu : (st.sh.dev i).flags.uptodate := by
              by_cases hip : i = sh0.pd
              · by_contra hnot
                rw [hip] at hnot hif
                exact (h.destroyed (by simpa using hnot)).1 hif
              · exact h.uptodate i hi hip
            exact ⟨hiu, (h.page i hi hiu).trans (hview i hi)⟩
          repair := fun _ => hview
          level5 := fun hl5 => absurd hl hl5 }
      refine ⟨{ st with checkState := .computeResult }, rfl,
        hd.congr rfl rfl rfl (fun _ => ⟨rfl, rfl⟩) rfl rfl, .writing hwriting, ?_⟩
      rw [rank_checked h.notDone hst, rank_writing hwriting.notDone rfl]
      decide
  · rw [if_neg hsum]
    by_cases hc : st.check
    · rw [if_pos hc]
      refine ⟨_, rfl, h.insync hd hst (fun hc' => ?_) (.inr rfl)⟩
      cases hc'.symm.trans (hd.check_eq.symm.trans hc)
    · rw [if_neg hc]
      exact h.repair6 hd hst hl (hd.check_eq.symm.trans (by simpa using hc)) hsum hup hok

end

end

/-- **The pass after a repair.** -/
theorem Writing.handle (h : Writing conf disk failed check sh0 st) :
    ∃ st', handleStripe conf st = some st' ∧ Next conf disk failed check sh0 st st' := by
  have hidle : st.checkState ≠ .idle := by
    rw [h.state]
    decide
  have hw := card_wantcompute st.sh fun i hi => h.wantcompute i (hd.disks ▸ hi)
  have hrank : 0 < st.rank := by
    rw [rank_writing h.notDone h.state]
    decide
  rw [handleStripe_noFill (by omega) (.inr (.inl hidle)), checkParity_running hidle]
  by_cases hl : conf.level = .raid6
  · rw [handleParityChecks_six hl, handleParityChecks6, hd.checks6, if_neg (by simp),
      h.state]
    dsimp only
    rw [Option.bind_some]
    exact hd.writeResult6 h.toClear hl h.toSums h.notDone h.noCompute hrank h.ready h.repair
  · obtain ⟨hf, hp, hup⟩ := h.level5 hl
    have hpd : st.sh.pd = sh0.pd := by rw [hd.geometry]
    have hlt := hd.target.parityIdx.pd_lt_disks
    have hne := h.p.mp hp
    have hc : check = false := by
      by_contra hc
      exact hne (h.repair (by simpa using hc) _ hlt)
    rw [handleParityChecks_five hl, handleParityChecks5, hd.lone, if_neg (by simp),
      h.state]
    dsimp only
    rw [hpd]
    refine hd.marked5 h.toClear h.notDone h.noCompute (hup _ hlt) rfl
      (card_uptodate_eq fun i hi => hup i (hd.disks ▸ hi)) (h.ready _ hlt (.inr hne)).2
      (.inr ⟨hc, hd.target.parityIdx.pd_not_data⟩) (fun _ i hi hip => ⟨?_, ?_⟩) hrank
    · rw [hf]
      exact notMem_empty i
    · exact hd.target.view_data ((hd.target.parityIdx.mem_dataDevs_iff hl).mpr ⟨hi, hip⟩)

end MdRaid.Stripe
