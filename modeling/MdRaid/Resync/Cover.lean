import MdRaid.Resync.Walk
import MdRaid.Resync.Window

/-!
# A sync run covers everything once

A call moves the cursor by what it skipped or marked, and the next call goes on from
there. So behind the cursor every stripe was marked once or skipped.
-/

namespace MdRaid.Resync.Walk

open Runs List

variable {conf : Conf} {env : Env} {j : Nat}

/-! ## One call -/

theorem windowLength_lt (maxSectors : Nat) (env : Env) : ∀ (room w i : Nat),
    i < windowLength maxSectors env room w → w + i * stripeSectors < maxSectors
  | 0, _, _, hi => absurd hi (Nat.not_lt_zero _)
  | room + 1, w, i, hi => by
    rw [windowLength] at hi
    split_ifs at hi with h
    · rcases i with _ | i
      · rw [zero_mul, add_zero]
        exact h.1
      · have := windowLength_lt maxSectors env room _ i (Nat.lt_of_succ_lt_succ hi)
        rwa [Nat.succ_mul, add_comm (i * _), ← add_assoc]
    · exact absurd hi (Nat.not_lt_zero _)

theorem Env.skip_spec {blocks : Nat} (h : env.skip conf = some blocks) :
    stripeSectors ≤ blocks ∧ stripeSectors ∣ blocks ∧ ∀ d < blocks, env.ReportsClean d := by
  unfold Env.skip at h
  split at h
  · cases h
  · rename_i b hb
    split_ifs at h with hc
    simp only [Bool.and_eq_true, Bool.not_eq_true', decide_eq_true_eq] at hc
    cases h
    have hle := Nat.div_mul_le_self b.syncBlocks stripeSectors
    have hone : 1 ≤ b.syncBlocks / stripeSectors := (Nat.le_div_iff_mul_le (by decide)).mpr
      ((Nat.one_mul _).symm ▸ hc.2)
    refine ⟨Nat.le_mul_of_pos_left _ hone, Nat.dvd_mul_left _ _, fun d hd => ?_⟩
    exact ⟨b, hb, hc.1.2, lt_of_lt_of_le hd hle⟩

/-- **What one call does** at a stripe below the end. -/
structure CallSpec (conf : Conf) (env : Env) (j : Nat) (r : Call) : Prop where
  le_sectors : stripeSectors ≤ r.sectors
  aligned : stripeSectors ∣ min (j + r.sectors) conf.maxSectors
  skip : r.skipped = true → r.marked = [] ∧
    ((∀ d < r.sectors, env.ReportsClean d) ∨ env.TooManyFailed conf)
  window : r.skipped = false → ∃ k, r.sectors = k * stripeSectors ∧
    r.marked = (range k).map (fun i => j + i * stripeSectors) ∧
    j + r.sectors ≤ conf.maxSectors

theorem raid5SyncRequest_spec (hj : stripeSectors ∣ j) (hlt : j < conf.maxSectors) (env : Env) :
    CallSpec conf env j (raid5SyncRequest conf env j) := by
  have hdiv := conf.aligned
  unfold raid5SyncRequest
  split_ifs with hf
  · refine ⟨?_, ?_, fun _ => ⟨rfl, .inr hf⟩, by simp⟩
    · change stripeSectors ≤ conf.maxSectors - j
      exact Nat.le_of_dvd (Nat.sub_pos_of_lt hlt) (Nat.dvd_sub hdiv hj)
    · dsimp only
      rw [Nat.add_sub_cancel' hlt.le, min_self]
      exact hdiv
  · split
    · rename_i blocks hs
      obtain ⟨hle, hdvd, hclean⟩ := Env.skip_spec hs
      refine ⟨hle, ?_, fun _ => ⟨rfl, .inl hclean⟩, by simp⟩
      dsimp only
      rcases min_choice (j + blocks) conf.maxSectors with h | h <;> rw [h]
      · exact Nat.dvd_add hj hdvd
      · exact hdiv
    · generalize hk : windowLength conf.maxSectors env (min env.room (syncWindow - 1))
        (j + stripeSectors) = k
      have hlast : j + k * stripeSectors < conf.maxSectors := by
        rcases k with _ | k
        · rwa [zero_mul, add_zero]
        · have := windowLength_lt conf.maxSectors env _ _ k
            (lt_of_lt_of_eq (Nat.lt_succ_self k) hk.symm)
          rwa [Nat.succ_mul, add_comm (k * _), ← add_assoc]
      have hend : j + (k + 1) * stripeSectors ≤ conf.maxSectors := by
        have := Nat.le_of_dvd (Nat.sub_pos_of_lt hlast)
          (Nat.dvd_sub hdiv (Nat.dvd_add hj (Nat.dvd_mul_left stripeSectors k)))
        rw [Nat.succ_mul]
        omega
      refine ⟨?_, ?_, by simp, fun _ => ⟨k + 1, rfl, rfl, hend⟩⟩
      · exact Nat.le_mul_of_pos_left _ (Nat.succ_pos k)
      · dsimp only
        rw [min_eq_left hend]
        exact Nat.dvd_add hj (Nat.dvd_mul_left _ _)

/-- The stripes of a window, each once. -/
theorem count_window {k w : Nat} (hj : stripeSectors ∣ j) (hw : stripeSectors ∣ w) :
    ((range k).map fun i => j + i * stripeSectors).count w =
      if j ≤ w ∧ w < j + k * stripeSectors then 1 else 0 := by
  have hnd : ((range k).map fun i => j + i * stripeSectors).Nodup := by
    refine List.Nodup.map (fun a b hab => ?_) nodup_range
    simp only [stripeSectors] at hab
    omega
  split_ifs with h
  · obtain ⟨i, hi, rfl⟩ := exists_stripe hj hw h.1 h.2
    exact count_eq_one_of_mem hnd (mem_map.mpr ⟨i, mem_range.mpr hi, rfl⟩)
  · refine count_eq_zero.mpr fun hmem => h ?_
    obtain ⟨i, hi, rfl⟩ := mem_map.mp hmem
    rw [mem_range] at hi
    simp only [stripeSectors]
    omega

/-! ## Whole runs -/

section Runs

variable {n : Nat} {m m' : Mddev n} {j0 : Nat}

/-- Behind the cursor every stripe was marked once or skipped, ahead of it none was marked. -/
structure Covered (conf : Conf) (j0 : Nat) (m : Mddev n) : Prop where
  behind : ∀ w, stripeSectors ∣ w → j0 ≤ w → w < m.j → (m.marks conf).count w = 1 ∨
    (m.marks conf).count w = 0 ∧ (m.SkippedClean conf w ∨ m.SkippedFailed conf w)
  ahead : ∀ w, stripeSectors ∣ w → m.j ≤ w → (m.marks conf).count w = 0

structure Inv (conf : Conf) (j0 : Nat) (m : Mddev n) : Prop where
  aligned : stripeSectors ∣ m.j
  start_le : j0 ≤ m.j
  le_max : m.j ≤ conf.maxSectors
  currResync : m.finished = false → m.currResync = currResyncOf m.j
  added : m.added = stripeSectors * (m.marks conf).length
  few : stripeSectors * m.calls.length ≤ m.j - j0 + if m.intr then stripeSectors else 0
  covered : m.intr = false → Covered conf j0 m

/-- A step that leaves the cursor, the calls and what was added alone. -/
theorem Inv.keep (h : Inv conf j0 m) (hj : m'.j = m.j) (hcalls : m'.calls = m.calls)
    (hadded : m'.added = m.added) (hcurr : m'.finished = false → m.finished = false ∧
      m'.currResync = m.currResync) (hintr : m'.intr = false → m.intr = false) :
    Inv conf j0 m' := by
  have hmarks : m'.marks conf = m.marks conf := by rw [Mddev.marks, hcalls, Mddev.marks]
  refine ⟨hj ▸ h.aligned, hj ▸ h.start_le, hj ▸ h.le_max, fun hf => ?_, ?_, ?_, fun hi => ?_⟩
  · rw [(hcurr hf).2, hj]
    exact h.currResync (hcurr hf).1
  · rw [hadded, hmarks]
    exact h.added
  · have := h.few
    rw [hcalls, hj]
    cases hm : m.intr <;> cases hm' : m'.intr
    · rwa [hm] at this
    · rw [hm] at this
      exact this.trans (Nat.le_add_right _ _)
    · rw [hintr hm'] at hm
      cases hm
    · rwa [hm] at this
  · obtain ⟨hb, ha⟩ := h.covered (hintr hi)
    refine ⟨fun w hw hle hlt => ?_, fun w hw hle => ?_⟩
    · rw [hmarks, Mddev.SkippedClean, Mddev.SkippedFailed, hcalls]
      exact hb w hw hle (hj ▸ hlt)
    · rw [hmarks]
      exact ha w hw (hj ▸ hle)

theorem calls_syncRequest (env : Env) (intr : Bool) :
    (m.syncRequest conf env intr).calls = m.calls ++ [⟨env, m.j⟩] := by
  unfold Mddev.syncRequest
  cases intr <;> rfl

theorem marks_syncRequest (env : Env) (intr : Bool) : (m.syncRequest conf env intr).marks conf =
      m.marks conf ++ (raid5SyncRequest conf env m.j).marked := by
  rw [Mddev.marks, calls_syncRequest, flatMap_append, flatMap_singleton]
  rfl

/-- A call adds what it marks. -/
theorem CallSpec.added {r : Call} (h : CallSpec conf env j r) :
    (if r.skipped = true then 0 else r.sectors) = stripeSectors * r.marked.length := by
  by_cases hs : r.skipped
  · rw [if_pos hs, (h.skip hs).1, length_nil, mul_zero]
  · obtain ⟨k, hk, hm, -⟩ := h.window (Bool.eq_false_of_not_eq_true hs)
    rw [if_neg hs, hk, hm, length_map, length_range, mul_comm]

/-- What a call marks. -/
theorem CallSpec.count_marked {r : Call} (h : CallSpec conf env j r) (hj : stripeSectors ∣ j)
    {w : Nat} (hw : stripeSectors ∣ w) :
    r.marked.count w = if r.skipped = false ∧ j ≤ w ∧ w < j + r.sectors then 1 else 0 := by
  by_cases hs : r.skipped
  · rw [(h.skip hs).1, if_neg fun hc => Bool.noConfusion (hs.symm.trans hc.1)]
    rfl
  · have hf := Bool.eq_false_of_not_eq_true hs
    obtain ⟨k, hk, hm, -⟩ := h.window hf
    rw [hm, count_window hj hw, hk]
    exact if_congr ⟨fun hc => ⟨hf, hc⟩, And.right⟩ rfl rfl

theorem Mddev.SkippedClean.syncRequest {w : Nat} (env : Env) (intr : Bool)
    (h : m.SkippedClean conf w) : (m.syncRequest conf env intr).SkippedClean conf w := by
  obtain ⟨c, hc, hw⟩ := h
  refine ⟨c, ?_, hw⟩
  rw [calls_syncRequest]
  exact mem_append_left _ hc

theorem Mddev.SkippedFailed.syncRequest {w : Nat} (env : Env) (intr : Bool)
    (h : m.SkippedFailed conf w) : (m.syncRequest conf env intr).SkippedFailed conf w := by
  obtain ⟨c, hc, hw⟩ := h
  refine ⟨c, ?_, hw⟩
  rw [calls_syncRequest]
  exact mem_append_left _ hc

theorem mem_calls_syncRequest (env : Env) (intr : Bool) :
    (⟨env, m.j⟩ : Record) ∈ (m.syncRequest conf env intr).calls := by
  rw [calls_syncRequest]
  exact mem_append_right _ (mem_singleton.mpr rfl)

theorem skippedClean_last {w : Nat} {intr : Bool}
    (hclean : ∀ d < (raid5SyncRequest conf env m.j).sectors, env.ReportsClean d)
    (hs : (raid5SyncRequest conf env m.j).skipped) (hle : m.j ≤ w)
    (hlt : w < m.j + (raid5SyncRequest conf env m.j).sectors) :
    (m.syncRequest conf env intr).SkippedClean conf w :=
  ⟨_, mem_calls_syncRequest env intr, ⟨hs, hle, hlt⟩, hclean _ (Nat.sub_lt_left_of_lt_add hle hlt)⟩

/-- What the last call skipped was clean or there were too many failed devices. -/
theorem CallSpec.skipped_last {w : Nat} {intr : Bool}
    (h : CallSpec conf env m.j (raid5SyncRequest conf env m.j))
    (hs : (raid5SyncRequest conf env m.j).skipped) (hle : m.j ≤ w)
    (hlt : w < m.j + (raid5SyncRequest conf env m.j).sectors) :
    (m.syncRequest conf env intr).SkippedClean conf w ∨
      (m.syncRequest conf env intr).SkippedFailed conf w :=
  (h.skip hs).2.imp (fun hclean => skippedClean_last hclean hs hle hlt) fun hfailed =>
    ⟨_, mem_calls_syncRequest env intr, ⟨hs, hle, hlt⟩, hfailed⟩

theorem Inv.syncRequest_intr (h : Inv conf j0 m) (hlt : m.j < conf.maxSectors)
    (hintr : m.intr = false) (env : Env) : Inv conf j0 (m.syncRequest conf env true) := by
  have hspec := raid5SyncRequest_spec h.aligned hlt env
  refine ⟨h.aligned, h.start_le, h.le_max, h.currResync, ?_, ?_, by rintro ⟨⟩⟩
  · rw [marks_syncRequest, length_append, mul_add, ← h.added, ← hspec.added]
    change (if _ then m.added else m.added + _) = _
    split_ifs <;> rfl
  · have hfew := h.few
    rw [hintr] at hfew
    rw [calls_syncRequest, length_append, mul_add]
    exact Nat.add_le_add_right hfew _

theorem Inv.syncRequest (h : Inv conf j0 m) (hlt : m.j < conf.maxSectors)
    (hintr : m.intr = false) (env : Env) : Inv conf j0 (m.syncRequest conf env false) := by
  have hspec := raid5SyncRequest_spec h.aligned hlt env
  have hadv := hspec.le_sectors
  have hstart := h.start_le
  obtain ⟨hbehind, hahead⟩ := h.covered hintr
  have hj : (m.syncRequest conf env false).j =
      min (m.j + (raid5SyncRequest conf env m.j).sectors) conf.maxSectors := rfl
  have hnext : m.j + stripeSectors ≤ (m.syncRequest conf env false).j := by
    have hle := Nat.le_of_dvd (Nat.sub_pos_of_lt hlt) (Nat.dvd_sub conf.aligned h.aligned)
    rw [hj]
    omega
  refine ⟨hj ▸ hspec.aligned, by omega, hj ▸ min_le_right _ _, fun _ => ?_, ?_, ?_, fun _ =>
    ⟨fun w hw hle hltw => ?_, fun w hw hle => ?_⟩⟩
  · have hactive : resyncActive ≤ (m.syncRequest conf env false).j :=
      le_trans (by decide) ((Nat.le_add_left stripeSectors m.j).trans hnext)
    rw [currResyncOf, if_pos hactive]
    exact if_pos hactive
  · rw [marks_syncRequest, length_append, mul_add, ← h.added, ← hspec.added]
    change (if _ then m.added else m.added + _) = _
    split_ifs <;> rfl
  · have hfew := h.few
    rw [hintr] at hfew
    rw [calls_syncRequest, length_append, mul_add]
    change _ + stripeSectors ≤ _
    have : (if (m.syncRequest conf env false).intr = true then stripeSectors else 0) = 0 :=
      if_neg (by rw [show (m.syncRequest conf env false).intr = m.intr from rfl, hintr]; decide)
    rw [this]
    simp only [Bool.false_eq_true, if_false] at hfew
    omega
  · rw [marks_syncRequest, count_append, hspec.count_marked h.aligned hw]
    rcases lt_or_ge w m.j with hb | ha
    · rw [if_neg fun hc => absurd hc.2.1 (not_le.mpr hb)]
      refine (hbehind w hw hle hb).imp_right fun hskip => ⟨hskip.1, ?_⟩
      exact hskip.2.imp (.syncRequest env false) (.syncRequest env false)
    · have hin : w < m.j + (raid5SyncRequest conf env m.j).sectors :=
        hltw.trans_le (min_le_left _ _)
      rw [hahead w hw ha, zero_add]
      by_cases hs : (raid5SyncRequest conf env m.j).skipped
      · rw [if_neg fun hc => Bool.noConfusion (hs.symm.trans hc.1)]
        exact .inr ⟨rfl, hspec.skipped_last hs ha hin⟩
      · exact .inl (if_pos ⟨Bool.eq_false_of_not_eq_true hs, ha, hin⟩)
  · rw [marks_syncRequest, count_append, hspec.count_marked h.aligned hw,
      hahead w hw (by omega), if_neg]
    rintro ⟨hs, -, hin⟩
    obtain ⟨-, -, -, hend⟩ := hspec.window hs
    rw [hj, min_eq_left hend] at hle
    exact absurd hin (not_lt.mpr hle)

theorem Inv.step {e : Event n} (h : Inv conf j0 m) (hs : step conf m e = some m') :
    Inv conf j0 m' := by
  cases e with
  | checkpoint =>
    obtain ⟨-, rfl⟩ := guard_eq_some.mp hs
    exact h.keep rfl rfl rfl (fun hf => ⟨hf, rfl⟩) id
  | setIntr =>
    obtain ⟨-, rfl⟩ := guard_eq_some.mp hs
    exact h.keep rfl rfl rfl (fun hf => ⟨hf, rfl⟩) (by simp)
  | mdError i =>
    obtain ⟨-, rfl⟩ := guard_eq_some.mp hs
    exact h.keep rfl rfl rfl (fun hf => ⟨hf, rfl⟩) (by rintro ⟨⟩)
  | syncRequest env intr =>
    obtain ⟨hc, rfl⟩ := guard_eq_some.mp hs
    simp only [not_or, Bool.not_eq_true, not_le] at hc
    cases intr with
    | false => exact h.syncRequest hc.2.2 hc.2.1 env
    | true => exact h.syncRequest_intr hc.2.2 hc.2.1 env
  | doneSync w =>
    obtain ⟨-, rfl⟩ := guard_eq_some.mp hs
    exact h.keep rfl rfl rfl (fun hf => ⟨hf, rfl⟩) fun hi => (Bool.or_eq_false_iff.mp hi).1
  | failedSync w recorded =>
    obtain ⟨-, rfl⟩ := guard_eq_some.mp hs
    unfold Mddev.failedSync
    split_ifs
    · exact h.keep rfl rfl rfl (fun hf => ⟨hf, rfl⟩) fun hi => (Bool.or_eq_false_iff.mp hi).1
    · exact h.keep rfl rfl rfl (fun hf => ⟨hf, rfl⟩) fun hi => (Bool.or_eq_false_iff.mp hi).1
  | updateSb =>
    obtain rfl := Option.some.inj hs
    unfold Mddev.updateSb
    split_ifs
    · exact h
    · exact h.keep rfl rfl rfl (fun hf => ⟨hf, rfl⟩) id
  | finish =>
    obtain ⟨-, rfl⟩ := guard_eq_some.mp hs
    unfold Mddev.finish
    dsimp only
    split_ifs <;> exact h.keep rfl rfl rfl (by simp) id

theorem Inv.start {cp : Nat} {members : Fin n → Member} (hj : stripeSectors ∣ j0)
    (hle : j0 ≤ conf.maxSectors) : Inv conf j0 (.start j0 cp members) :=
  ⟨hj, le_rfl, hle, fun _ => rfl, rfl, Nat.zero_le _, fun _ =>
    ⟨fun _ _ hle hlt => absurd hlt (not_lt.mpr hle), fun _ _ _ => rfl⟩⟩

end Runs

/-- **A sync run covers everything once.** In every run from a stripe of the array the calls
made are bounded by the stripes to go, and what they added to `recovery_active` is what
they marked. When the loop ends without an interruption every stripe from the start on was
marked by one call and no other, or it was skipped: as clean, or because too many devices
have failed. -/
theorem sync_covers_once {n : Nat} (conf : Conf) {j0 cp : Nat} {members : Fin n → Member}
    (hj : stripeSectors ∣ j0) (hle : j0 ≤ conf.maxSectors) {es : List (Event n)} {m : Mddev n}
    (hrun : run (step conf) (.start j0 cp members) es = some m) :
    stripeSectors * m.calls.length ≤ conf.maxSectors - j0 + stripeSectors ∧
    m.added = stripeSectors * (m.marks conf).length ∧ (m.intr = false → conf.maxSectors ≤ m.j →
      (m.finished = false → m.currResync = conf.maxSectors) ∧
      ∀ w, stripeSectors ∣ w → j0 ≤ w → w < conf.maxSectors → (m.marks conf).count w = 1 ∨
        (m.marks conf).count w = 0 ∧ (m.SkippedClean conf w ∨ m.SkippedFailed conf w)) := by
  have h : Inv conf j0 m := run_invariant (fun _ _ _ => Inv.step) (.start hj hle) hrun
  refine ⟨?_, h.added, fun hintr hend => ?_⟩
  · have hfew := h.few
    have hmax := h.le_max
    split_ifs at hfew <;> omega
  · have hjm : m.j = conf.maxSectors := le_antisymm h.le_max hend
    refine ⟨fun hfin => ?_, fun w hw hle hlt => ?_⟩
    · rw [h.currResync hfin, hjm, currResyncOf, if_pos]
      exact le_trans (by decide) (Nat.le_of_dvd conf.maxSectors_pos conf.aligned)
    · exact (h.covered hintr).behind w hw hle (hjm ▸ hlt)

/-- A resync of two stripes without a bitmap. -/
def twoStripes : Conf where
  maxSectors := 16
  aligned := by decide
  maxSectors_pos := by decide
  maxDegraded := 1
  sync := true
  requested := false
  check := false

/-- Both stripes go into one window. -/
def wholeWindow : Env := ⟨0, false, none, 5⟩

theorem sync_covers_once_twoStripes : ∃ m : Mddev 0, run (step twoStripes) (.start 0 0 Fin.elim0)
      [.syncRequest wholeWindow false, .doneSync 8, .doneSync 0] = some m ∧
    m.added = stripeSectors * (m.marks twoStripes).length ∧ m.currResync = 16 ∧
    ∀ w, stripeSectors ∣ w → 0 ≤ w → w < 16 → (m.marks twoStripes).count w = 1 ∨
      (m.marks twoStripes).count w = 0 ∧
        (m.SkippedClean twoStripes w ∨ m.SkippedFailed twoStripes w) := by
  refine exists_of_any (fun m => m.intr = false ∧ m.finished = false ∧ 16 ≤ m.j) (by decide) ?_
  rintro m hrun ⟨hintr, hfinished, hj⟩
  obtain ⟨-, hadded, hend⟩ := sync_covers_once twoStripes ⟨0, rfl⟩ (Nat.zero_le _) hrun
  exact ⟨hadded, (hend hintr hj).1 hfinished, (hend hintr hj).2⟩

/-- A repair that is told to start behind the end leaves the loop where it started:
`sync_min` takes any multiple of a stripe up to `resync_max`. -/
theorem sync_from_beyond_end : ∃ m : Mddev 0,
    run (step { twoStripes with requested := true }) (.start 24 maxSector Fin.elim0) [] = some m ∧
    m.intr = false ∧ twoStripes.maxSectors ≤ m.j ∧ m.currResync = 24 ∧
    m.currResync ≠ twoStripes.maxSectors :=
  ⟨_, rfl, rfl, by decide, rfl, by decide⟩

end MdRaid.Resync.Walk
