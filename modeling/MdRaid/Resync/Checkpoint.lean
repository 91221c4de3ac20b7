import MdRaid.Resync.Cover

/-!
# Checkpoints do not run ahead of the work

Behind the cursor a stripe is synced, skipped as clean, recorded as bad or still in flight,
and a checkpoint is only taken when nothing is in flight. What breaks this is a stripe that
completes without any of the first three: a resync does not mind a failed stripe at all, and
a recovery that could not record it stops, but moves `recovery_offset` up to the cursor. And
`md_update_sb` moves the offset of a failed member too, which nothing is recorded on any more.
-/

namespace MdRaid.Resync.Walk

open Runs List Walk.Mddev Function

variable {n : Nat} {conf : Conf} {m0 m m' : Mddev n} {w : Nat}

/-! ## What a stripe needs -/

/-- The stripe was skipped as clean or synced. -/
def Mddev.Synced (conf : Conf) (m : Mddev n) (w : Nat) : Prop :=
  m.SkippedClean conf w ∨ w ∈ m.synced

/-- **The checkpoints are behind the work.** From the checkpoints of `m0` on, the checkpoints of
`m` have not passed a stripe that still needs work. -/
structure CheckpointsBehind (conf : Conf) (m0 m : Mddev n) : Prop where
  recoveryCp : conf.sync = true → ∀ w, stripeSectors ∣ w → m0.recoveryCp ≤ w →
    w < conf.maxSectors → ¬ m.Synced conf w → m.recoveryCp ≤ w
  recoveryOffset : conf.sync = false → ∀ i, (m.members i).inSync = false → ∀ w, stripeSectors ∣ w →
    (m0.members i).recoveryOffset ≤ w → w < conf.maxSectors → ¬ m.Synced conf w →
    w ∉ m.badBlocks i → (m.members i).recoveryOffset ≤ w

/-- Too many failed devices do not end a resync early, no stripe of a resync fails, a stripe that
fails in a recovery is recorded on every member the recovery writes to, and `md_update_sb` has no
offset of a failed member to move. -/
def Recorded (conf : Conf) (m : Mddev n) : Event n → Prop
  | .syncRequest env _ => ¬ env.TooManyFailed conf
  | .failedSync _ recorded =>
    conf.sync = false ∧ ∀ i, (m.members i).recovering = true → recorded i = true
  | .updateSb => conf.sync = false → ∀ i, (m.members i).inSync = false →
    (m.members i).faulty = true → m.currResyncCompleted ≤ (m.members i).recoveryOffset
  | _ => True

instance (conf : Conf) (m : Mddev n) (e : Event n) : Decidable (Recorded conf m e) := by
  cases e <;> unfold Recorded <;> infer_instance

/-! ## Where the walk starts -/

theorem foldl_min_le {α : Type} (p : α → Bool) (f : α → Nat) (l : List α) (start : Nat) :
    (l.foldl (fun start a => if p a ∧ f a < start then f a else start) start ≤ start) ∧
      ∀ a ∈ l, p a →
        l.foldl (fun start a => if p a ∧ f a < start then f a else start) start ≤ f a := by
  induction l generalizing start with
  | nil => exact ⟨le_rfl, fun _ ha => absurd ha not_mem_nil⟩
  | cons b l ih =>
    rw [foldl_cons]
    obtain ⟨hle, hmem⟩ := ih (if p b ∧ f b < start then f b else start)
    refine ⟨hle.trans ?_, fun a ha hp => ?_⟩
    · split_ifs with h
      · exact h.2.le
      · exact le_rfl
    · rcases mem_cons.mp ha with rfl | ha
      · refine hle.trans ?_
        split_ifs with h
        · exact le_rfl
        · exact not_lt.mp fun hlt => h ⟨hp, hlt⟩
      · exact hmem a ha hp

section

variable {bitmap : Bool} {resyncMin cp : Nat} {members : Fin n → Member}

theorem mdSyncPosition_le_recoveryCp (hsync : conf.sync) (hreq : conf.requested → resyncMin ≤ cp) :
    mdSyncPosition conf bitmap resyncMin cp members ≤ cp := by
  unfold mdSyncPosition
  rw [if_pos hsync]
  split_ifs with hr
  · exact hreq hr
  · exact Nat.zero_le _
  · exact le_rfl

theorem mdSyncPosition_le_recoveryOffset (hsync : conf.sync = false) {i : Fin n}
    (hi : (members i).recovering) :
    mdSyncPosition conf bitmap resyncMin cp members ≤ (members i).recoveryOffset := by
  unfold mdSyncPosition
  rw [if_neg (by rw [hsync]; decide)]
  exact (foldl_min_le (fun i => (members i).recovering) (fun i => (members i).recoveryOffset) _
    maxSector).2 i (mem_finRange i) hi

end

/-! ## The work behind the cursor -/

/-- The checkpoints the walk starts with are not behind its start. -/
structure StartsBehind (conf : Conf) (m0 : Mddev n) : Prop where
  recoveryCp : conf.sync = true → m0.j ≤ m0.recoveryCp
  recoveryOffset : conf.sync = false → ∀ i, (m0.members i).recovering = true →
    m0.j ≤ (m0.members i).recoveryOffset

/-- The stripe was skipped or synced, or is recorded on all members a recovery writes to. -/
def Mddev.Done (conf : Conf) (m : Mddev n) (w : Nat) : Prop :=
  m.Synced conf w ∨ conf.sync = false ∧ ∀ i, (m.members i).recovering = true → w ∈ m.badBlocks i

structure Work (conf : Conf) (m0 m : Mddev n) : Prop where
  walk : Inv conf m0.j m
  active : m.recoveryActive = stripeSectors * m.inFlight.length
  work : ∀ w, stripeSectors ∣ w → m0.j ≤ w → w < m.j → w ∈ m.inFlight ∨ m.Done conf w
  noError : conf.sync = true → m.error = false
  completed : ∀ w, stripeSectors ∣ w → m0.j ≤ w → w < m.currResyncCompleted → m.Done conf w
  recovering : ∀ i, (m.members i).recovering = true → (m0.members i).recovering = true
  cp : conf.sync = true → ∀ w, stripeSectors ∣ w → m0.recoveryCp ≤ w → w < conf.maxSectors →
    ¬ m.Synced conf w → m.recoveryCp ≤ w
  offsets : conf.sync = false → ∀ i w, stripeSectors ∣ w → (m0.members i).recoveryOffset ≤ w →
    w < conf.maxSectors → ¬ m.Synced conf w → w ∉ m.badBlocks i →
    (m.members i).recoveryOffset ≤ w

section

variable (h : Work conf m0 m)
include h

theorem Work.checkpointsBehind : CheckpointsBehind conf m0 m :=
  ⟨h.cp, fun hs i _ => h.offsets hs i⟩

/-- With nothing in flight the stripes behind the cursor are synced, or recorded as bad. -/
theorem Work.done (hactive : m.recoveryActive = 0) (hw : stripeSectors ∣ w)
    (hle : m0.j ≤ w) (hlt : w < m.j) : m.Done conf w := by
  refine (h.work w hw hle hlt).resolve_left fun hmem => ?_
  have hlen := h.active.symm.trans hactive
  have hpos := length_pos_of_mem hmem
  simp only [stripeSectors] at hlen
  omega

theorem Work.done_sync (hstart : StartsBehind conf m0)
    (hactive : m.recoveryActive = 0) (hsync : conf.sync) (hw : stripeSectors ∣ w)
    (hle : m0.recoveryCp ≤ w) (hlt : w < m.j) : m.Synced conf w :=
  (h.done hactive hw ((hstart.recoveryCp hsync).trans hle) hlt).resolve_right fun hr =>
    Bool.noConfusion (hsync.symm.trans hr.1)

theorem Work.done_recovery (hstart : StartsBehind conf m0)
    (hactive : m.recoveryActive = 0) (hsync : conf.sync = false) (hw : stripeSectors ∣ w)
    {i : Fin n} (hi : (m.members i).recovering)
    (hle : (m0.members i).recoveryOffset ≤ w) (hlt : w < m.j) :
    m.Synced conf w ∨ w ∈ m.badBlocks i :=
  (h.done hactive hw ((hstart.recoveryOffset hsync i (h.recovering i hi)).trans hle) hlt).imp_right
    fun hr => hr.2 i hi

end

/-- What a step does to the stripes: it only adds to what is done. -/
structure Grows (conf : Conf) (m m' : Mddev n) : Prop where
  synced : ∀ w, m.Synced conf w → m'.Synced conf w
  badBlocks : ∀ i w, w ∈ m.badBlocks i → w ∈ m'.badBlocks i
  recovering : ∀ i, (m'.members i).recovering = true → (m.members i).recovering = true
  offset : ∀ i, (m'.members i).recoveryOffset = (m.members i).recoveryOffset
  completed : m'.currResyncCompleted = m.currResyncCompleted

theorem Grows.done (hg : Grows conf m m') (h : m.Done conf w) : m'.Done conf w :=
  h.imp (hg.synced w) fun hr => ⟨hr.1, fun i hi => hg.badBlocks i w (hr.2 i (hg.recovering i hi))⟩

/-- A step that moves no checkpoint. -/
theorem Work.grow (h : Work conf m0 m) (hg : Grows conf m m') (hwalk : Inv conf m0.j m')
    (hactive : m'.recoveryActive = stripeSectors * m'.inFlight.length)
    (hwork : ∀ w, stripeSectors ∣ w → m0.j ≤ w → w < m'.j → w ∈ m'.inFlight ∨ m'.Done conf w)
    (herror : conf.sync → m'.error = false) (hcp : m'.recoveryCp = m.recoveryCp) :
    Work conf m0 m' where
  walk := hwalk
  active := hactive
  work := hwork
  noError := herror
  completed w hw hle hlt := hg.done (h.completed w hw hle (hg.completed ▸ hlt))
  recovering i hi := h.recovering i (hg.recovering i hi)
  cp hs w hw hle hlt hns := hcp ▸ h.cp hs w hw hle hlt fun hd => hns (hg.synced w hd)
  offsets hs i w hw hle hlt hns hnb :=
    hg.offset i ▸ h.offsets hs i w hw hle hlt (fun hd => hns (hg.synced w hd))
      fun hb => hnb (hg.badBlocks i w hb)

/-- Stripes behind the cursor stay in the state they are in when the step completes none. -/
theorem Work.work_grow (h : Work conf m0 m) (hg : Grows conf m m')
    (hfl : ∀ w, w ∈ m.inFlight → w ∈ m'.inFlight ∨ m'.Done conf w)
    (hw : stripeSectors ∣ w) (hle : m0.j ≤ w) (hlt : w < m.j) : w ∈ m'.inFlight ∨ m'.Done conf w :=
  (h.work w hw hle hlt).elim (hfl w) fun hd => .inr (hg.done hd)

/-! ## The steps -/

theorem Work.checkpoint (h : Work conf m0 m) (hstart : StartsBehind conf m0)
    (hwalk : Inv conf m0.j (m.checkpoint conf)) (hactive : m.recoveryActive = 0) :
    Work conf m0 (m.checkpoint conf) := by
  refine { h with
    walk := hwalk
    completed := fun _ hw hle hlt => h.done hactive hw hle hlt
    cp := ?_ }
  intro hs w hw hle hlt hns
  change (if _ then m.j else m.recoveryCp) ≤ w
  split_ifs
  · exact not_lt.mp fun hj => hns (h.done_sync hstart hactive hs hw hle hj)
  · exact h.cp hs w hw hle hlt hns

theorem grows_mdError (i : Fin n) : Grows conf m (m.mdError i) := by
  refine ⟨fun _ hd => hd, fun _ _ hb => hb, fun k hk => ?_, fun k => ?_, rfl⟩
  · rw [mdError] at hk
    dsimp only at hk
    by_cases hki : k = i
    · rw [hki, update_self] at hk
      exact absurd hk (by simp [Member.recovering])
    · rwa [update_of_ne hki] at hk
  · rw [mdError]
    dsimp only
    by_cases hki : k = i
    · rw [hki, update_self]
    · rw [update_of_ne hki]

theorem grows_syncRequest (env : Env) (intr : Bool) :
    Grows conf m (m.syncRequest conf env intr) := by
  cases intr <;> exact ⟨fun _ hd => hd.imp_left (.syncRequest env _), fun _ _ hb => hb,
    fun _ hi => hi,
    fun _ => rfl, rfl⟩

theorem Work.syncRequest (h : Work conf m0 m) (env : Env) (intr : Bool)
    (hwalk : Inv conf m0.j (m.syncRequest conf env intr)) (hlt : m.j < conf.maxSectors)
    (hok : ¬ env.TooManyFailed conf) : Work conf m0 (m.syncRequest conf env intr) := by
  have hspec := raid5SyncRequest_spec h.walk.aligned hlt env
  have hg : Grows conf m (m.syncRequest conf env intr) := grows_syncRequest env intr
  have hfl : (m.syncRequest conf env intr).inFlight =
      (raid5SyncRequest conf env m.j).marked ++ m.inFlight := by cases intr <;> rfl
  have hbehind : ∀ w, w ∈ m.inFlight → w ∈ (m.syncRequest conf env intr).inFlight := fun w hw =>
    hfl ▸ mem_append_right _ hw
  refine h.grow hg hwalk ?_ (fun w hw hle hltw => ?_) (fun hs => ?_) (by cases intr <;> rfl)
  · have hact : (m.syncRequest conf env intr).recoveryActive = m.recoveryActive +
        ((if (raid5SyncRequest conf env m.j).skipped = true then 0
          else (raid5SyncRequest conf env m.j).sectors : Nat) : Int) := by
      cases intr <;> by_cases hs : (raid5SyncRequest conf env m.j).skipped = true <;>
        simp [Mddev.syncRequest, hs]
    rw [hact, hspec.added, h.active, hfl, length_append]
    push_cast
    rw [Int.mul_add, Int.add_comm]
  · rcases lt_or_ge w m.j with hb | ha
    · exact h.work_grow hg (fun w hw => .inl (hbehind w hw)) hw hle hb
    · -- The cursor only moves when the call is not interrupted.
      cases intr with
      | true => exact absurd hltw (not_lt.mpr ha)
      | false =>
        have hin : w < m.j + (raid5SyncRequest conf env m.j).sectors :=
          hltw.trans_le (min_le_left _ _)
        by_cases hs : (raid5SyncRequest conf env m.j).skipped
        · exact .inr (.inl (.inl
            (skippedClean_last ((hspec.skip hs).2.resolve_right hok) hs ha hin)))
        · have hcount := hspec.count_marked h.walk.aligned hw
          rw [if_pos ⟨Bool.eq_false_of_not_eq_true hs, ha, hin⟩] at hcount
          refine .inl (hfl ▸ mem_append_left _ (count_pos_iff.mp ?_))
          rw [hcount]
          exact Nat.one_pos
  · cases intr <;> exact h.noError hs

theorem active_erase {l : List Nat} {a : Int} (ha : a = stripeSectors * l.length) (hw : w ∈ l) :
    a - stripeSectors = stripeSectors * ((l.erase w).length : Int) := by
  have hpos := length_pos_of_mem hw
  rw [length_erase_of_mem hw, ha]
  simp only [stripeSectors]
  omega

theorem Work.doneSync (h : Work conf m0 m) (hw : w ∈ m.inFlight)
    (hwalk : Inv conf m0.j (m.doneSync w)) : Work conf m0 (m.doneSync w) := by
  have hg : Grows conf m (m.doneSync w) := ⟨fun _ hd => hd.imp_right (mem_cons_of_mem _),
    fun _ _ hb => hb, fun _ hi => hi, fun _ => rfl, rfl⟩
  refine h.grow hg hwalk (active_erase h.active hw) (fun v hv hle hlt => ?_) (fun hs => ?_) rfl
  · refine h.work_grow hg (fun u hu => ?_) hv hle hlt
    by_cases huw : u = w
    · exact .inr (.inl (.inr (huw ▸ mem_cons_self)))
    · exact .inl ((mem_erase_of_ne huw).mpr hu)
  · exact (Bool.or_false _).trans (h.noError hs)

theorem Work.failedSync (h : Work conf m0 m) (hw : w ∈ m.inFlight) (hsync : conf.sync = false)
    {recorded : Fin n → Bool} (hrec : ∀ i, (m.members i).recovering → recorded i)
    (hwalk : Inv conf m0.j (m.failedSync conf w recorded)) :
    Work conf m0 (m.failedSync conf w recorded) := by
  have hbad : ∀ i, (m.failedSync conf w recorded).badBlocks i =
      if (m.members i).recovering && recorded i then w :: m.badBlocks i else m.badBlocks i := by
    intro i
    rw [Mddev.failedSync, if_neg (by rw [hsync]; decide)]
  have hfl : (m.failedSync conf w recorded).inFlight = m.inFlight.erase w := by
    rw [Mddev.failedSync]
    split_ifs <;> rfl
  have hact : (m.failedSync conf w recorded).recoveryActive = m.recoveryActive - stripeSectors := by
    rw [Mddev.failedSync]
    split_ifs <;> rfl
  have hmem : (m.failedSync conf w recorded).members = m.members := by
    rw [Mddev.failedSync]
    split_ifs <;> rfl
  have hg : Grows conf m (m.failedSync conf w recorded) := by
    refine ⟨fun u hu => ?_, fun i u hu => ?_, fun i hi => ?_, fun i => ?_, ?_⟩
    · rw [Mddev.failedSync]
      split_ifs <;> exact hu
    · rw [hbad]
      split_ifs
      · exact mem_cons_of_mem _ hu
      · exact hu
    · rwa [hmem] at hi
    · rw [hmem]
    · rw [Mddev.failedSync]
      split_ifs <;> rfl
  have hj : (m.failedSync conf w recorded).j = m.j := by
    rw [Mddev.failedSync]
    split_ifs <;> rfl
  refine h.grow hg hwalk ?_ (fun v hv hle hlt => ?_) (fun hs => ?_) ?_
  · rw [hact, hfl]
    exact active_erase h.active hw
  · refine h.work_grow hg (fun u hu => ?_) hv hle (hj ▸ hlt)
    by_cases huw : u = w
    · refine .inr (.inr ⟨hsync, fun i hi => ?_⟩)
      rw [hmem] at hi
      rw [hbad, if_pos (Bool.and_eq_true_iff.mpr ⟨hi, hrec i hi⟩), huw]
      exact mem_cons_self
    · exact .inl (hfl ▸ (mem_erase_of_ne huw).mpr hu)
  · cases hs.symm.trans hsync
  · rw [Mddev.failedSync]
    split_ifs <;> rfl

/-- Past its first stripe the walk reports its cursor. -/
theorem Inv.currResync_eq {j0 : Nat} (h : Inv conf j0 m) (hfin : m.finished = false)
    (hactive : resyncActive < m.currResync) : m.currResync = m.j := by
  have hcurr := h.currResync hfin
  rw [currResyncOf] at hcurr
  split_ifs at hcurr with hj
  · exact hcurr
  · exact absurd hactive (hcurr ▸ lt_irrefl _)

theorem Work.completed_finish (h : Work conf m0 m) (hfin : m.finished = false)
    (hend : m.intr = false → conf.maxSectors ≤ m.j) (hactive : m.recoveryActive = 0)
    (hw : stripeSectors ∣ w) (hle : m0.j ≤ w)
    (hlt : w < if m.intr = false ∧ resyncActive ≤ m.currResync then m.currResync
      else m.currResyncCompleted) : m.Done conf w := by
  split_ifs at hlt with hall
  · have hcurr := h.walk.currResync hfin
    have hpos := conf.maxSectors_pos.trans_le (hend hall.1)
    have hstripe := Nat.le_of_dvd hpos h.walk.aligned
    rw [hcurr, currResyncOf, if_pos (le_trans (by decide) hstripe)] at hlt
    exact h.done hactive hw hle hlt
  · exact h.completed w hw hle hlt

/-- The offsets that `md_update_sb` moves are those of members the recovery writes to. -/
theorem Work.updateSb (h : Work conf m0 m) (hstart : StartsBehind conf m0)
    (hfailed : conf.sync = false → ∀ i, (m.members i).inSync = false →
      (m.members i).faulty = true → m.currResyncCompleted ≤ (m.members i).recoveryOffset)
    (hwalk : Inv conf m0.j (m.updateSb conf)) : Work conf m0 (m.updateSb conf) := by
  unfold Mddev.updateSb at hwalk ⊢
  by_cases hs : conf.sync
  · rwa [if_pos hs]
  rw [if_neg hs] at hwalk ⊢
  have hsync := Bool.eq_false_of_not_eq_true hs
  have hsame : ∀ i, ((if (m.members i).inSync = false ∧
      (m.members i).recoveryOffset < m.currResyncCompleted then
        { m.members i with recoveryOffset := m.currResyncCompleted }
      else m.members i : Member)).recovering = (m.members i).recovering := by
    intro i
    split_ifs <;> rfl
  refine { h with walk := hwalk, work := ?_, completed := ?_, recovering := ?_, offsets := ?_ }
  · intro w hw hle hlt
    exact (h.work w hw hle hlt).imp_right (Or.imp_right fun hr => ⟨hr.1, fun i hi =>
      hr.2 i ((hsame i).symm.trans hi)⟩)
  · intro w hw hle hlt
    exact (h.completed w hw hle hlt).imp_right fun hr => ⟨hr.1, fun i hi =>
      hr.2 i ((hsame i).symm.trans hi)⟩
  · exact fun i hi => h.recovering i ((hsame i).symm.trans hi)
  · intro _ i w hw hle hlt hns hnb
    dsimp only
    split_ifs with hmove
    · have hrec : (m.members i).recovering = true := by
        rw [Member.recovering, hmove.1, Bool.not_false, Bool.true_and, Bool.not_eq_true']
        by_contra hf
        exact absurd hmove.2 (not_lt.mpr (hfailed hsync i hmove.1 (Bool.not_eq_false _ ▸ hf)))
      have hj := (hstart.recoveryOffset hsync i (h.recovering i hrec)).trans hle
      exact not_lt.mp fun hc => (h.completed w hw hj hc).elim hns fun hr => hnb (hr.2 i hrec)
    · exact h.offsets hsync i w hw hle hlt hns hnb

/-- The checkpoint behind the loop. -/
theorem Work.finish (h : Work conf m0 m) (hstart : StartsBehind conf m0)
    (hfin : m.finished = false) (hend : m.intr = false → conf.maxSectors ≤ m.j)
    (hactive : m.recoveryActive = 0) : Work conf m0 (m.finish conf) := by
  have hdone := fun w hw hle hlt => h.completed_finish (w := w) hfin hend hactive hw hle hlt
  unfold Mddev.finish
  dsimp only
  by_cases hskip : conf.check ∨ m.currResync ≤ resyncActive
  · rw [if_pos hskip]
    exact { h with walk := h.walk.keep rfl rfl rfl (by simp) id, completed := hdone }
  rw [if_neg hskip]
  have hcurr := h.walk.currResync_eq hfin (not_le.mp fun hle => hskip (.inr hle))
  by_cases hs : conf.sync
  · rw [if_pos hs]
    refine ⟨h.walk.keep rfl rfl rfl (by simp) id, h.active, h.work, h.noError, hdone,
      h.recovering, ?_, fun hs' => (by cases hs.symm.trans hs')⟩
    intro _ w hw hle hlt hns
    have hpast : m.j ≤ w :=
      not_lt.mp fun hj => hns (h.done_sync hstart hactive hs hw hle hj)
    dsimp only
    by_cases hintr : m.intr
    · rw [if_pos hintr, h.noError hs, if_neg Bool.false_ne_true, hcurr]
      split_ifs
      · exact hpast
      · exact h.cp hs w hw hle hlt hns
    · exact absurd (hend (Bool.eq_false_of_not_eq_true hintr)) (not_le.mpr (hpast.trans_lt hlt))
  · rw [if_neg hs]
    have hsync := Bool.eq_false_of_not_eq_true hs
    refine ⟨h.walk.keep rfl rfl rfl (by simp) id, h.active, fun w hw hle hlt => ?_, h.noError,
      fun w hw hle hlt => ?_, fun i hi => ?_, fun hs' => absurd hs' hs, ?_⟩
    · refine (h.work w hw hle hlt).imp_right (Or.imp_right fun hr => ⟨hr.1, fun i hi => ?_⟩)
      exact hr.2 i (by dsimp only at hi; split_ifs at hi <;> exact hi)
    · refine (hdone w hw hle hlt).imp_right fun hr => ⟨hr.1, fun i hi => ?_⟩
      exact hr.2 i (by dsimp only at hi; split_ifs at hi <;> exact hi)
    · exact h.recovering i (by dsimp only at hi; split_ifs at hi <;> exact hi)
    · intro _ i w hw hle hlt hns hnb
      dsimp only
      rw [hcurr]
      by_cases hi : (m.members i).recovering
      · have hpast : m.j ≤ w := not_lt.mp fun hj =>
          (h.done_recovery hstart hactive hsync hw hi hle hj).elim hns hnb
        have hintr : m.intr := by
          by_contra hintr
          exact absurd (hend (Bool.eq_false_of_not_eq_true hintr))
            (not_le.mpr (hpast.trans_lt hlt))
        rw [if_pos hintr]
        split_ifs
        · exact hpast
        · exact h.offsets hsync i w hw hle hlt hns hnb
      · rw [if_neg fun hc => hi hc.1]
        exact h.offsets hsync i w hw hle hlt hns hnb

theorem Work.step {e : Event n} (h : Work conf m0 m) (hstart : StartsBehind conf m0)
    (he : Recorded conf m e) (hs : step conf m e = some m') : Work conf m0 m' := by
  have hwalk := h.walk.step hs
  cases e with
  | checkpoint =>
    obtain ⟨hc, rfl⟩ := guard_eq_some.mp hs
    exact h.checkpoint hstart hwalk (not_not.mp fun ha => hc (.inr (.inr ha)))
  | setIntr =>
    obtain ⟨-, rfl⟩ := guard_eq_some.mp hs
    exact { h with walk := hwalk }
  | mdError i =>
    obtain ⟨-, rfl⟩ := guard_eq_some.mp hs
    exact h.grow (grows_mdError i) hwalk h.active (fun w hw hle hlt =>
      h.work_grow (grows_mdError i) (fun _ hf => .inl hf) hw hle hlt) h.noError rfl
  | syncRequest env intr =>
    obtain ⟨hc, rfl⟩ := guard_eq_some.mp hs
    exact h.syncRequest env intr hwalk (not_le.mp fun hj => hc (.inr (.inr hj))) he
  | doneSync w =>
    obtain ⟨hc, rfl⟩ := guard_eq_some.mp hs
    exact h.doneSync (not_not.mp hc) hwalk
  | failedSync w recorded =>
    obtain ⟨hc, rfl⟩ := guard_eq_some.mp hs
    exact h.failedSync (not_not.mp hc) he.1 he.2 hwalk
  | updateSb =>
    obtain rfl := Option.some.inj hs
    exact h.updateSb hstart he hwalk
  | finish =>
    obtain ⟨hc, rfl⟩ := guard_eq_some.mp hs
    simp only [not_or, not_and, not_not, Bool.not_eq_true, not_lt] at hc
    exact h.finish hstart hc.1 hc.2.1 hc.2.2

theorem Work.start {j0 cp : Nat} {members : Fin n → Member} (hj : stripeSectors ∣ j0)
    (hle : j0 ≤ conf.maxSectors) : Work conf (.start j0 cp members) (.start j0 cp members) where
  walk := .start hj hle
  active := rfl
  work _ _ hle hlt := absurd hlt (not_lt.mpr hle)
  noError _ := rfl
  completed _ _ hle hlt := absurd hlt (not_lt.mpr hle)
  recovering _ hi := hi
  cp _ _ _ hle _ _ := hle
  offsets _ _ _ _ hle _ _ _ := hle

/-- **Checkpoints never run ahead of the work** in a run from the position `md_do_sync` picks
whose failed stripes are all recorded, however the stripes complete and however the run
ends. -/
theorem checkpoints_behind_work {bitmap : Bool} {resyncMin cp : Nat} {members : Fin n → Member}
    (hj : stripeSectors ∣ mdSyncPosition conf bitmap resyncMin cp members)
    (hle : mdSyncPosition conf bitmap resyncMin cp members ≤ conf.maxSectors)
    (hreq : conf.sync = true → conf.requested = true → resyncMin ≤ cp) {es : List (Event n)}
    (hok : Along (step conf) (Recorded conf)
      (.start (mdSyncPosition conf bitmap resyncMin cp members) cp members) es)
    (hrun : run (step conf) (.start (mdSyncPosition conf bitmap resyncMin cp members) cp members)
      es = some m) : CheckpointsBehind conf
      (.start (mdSyncPosition conf bitmap resyncMin cp members) cp members) m := by
  have hstart : StartsBehind conf
      (.start (mdSyncPosition conf bitmap resyncMin cp members) cp members) :=
    ⟨fun hs => mdSyncPosition_le_recoveryCp hs (hreq hs), fun hs _ hi =>
      mdSyncPosition_le_recoveryOffset hs hi⟩
  have h := run_preserves (fun _ _ _ hi hc => Work.step hi hstart hc) (Work.start hj hle) hok hrun
  exact h.checkpointsBehind

/-- A member whose rebuild begins. -/
def spare : Member := ⟨false, false, 0⟩

/-- The first of two stripes fails and is recorded, then the rebuild is stopped. -/
theorem checkpoints_behind_recorded : ∃ m : Mddev 1,
    run (step { twoStripes with sync := false }) (.start 0 maxSector fun _ => spare)
      [.syncRequest wholeWindow false, .failedSync 0 (fun _ => true), .setIntr, .doneSync 8,
        .finish] = some m ∧
    (m.members 0).recoveryOffset = 16 ∧
    CheckpointsBehind { twoStripes with sync := false } (.start 0 maxSector fun _ => spare) m := by
  refine exists_of_any (fun m => (m.members 0).recoveryOffset = 16) (by decide) ?_
  refine fun m hrun hm => ⟨hm, ?_⟩
  exact @checkpoints_behind_work 1 _ m false 0 maxSector (fun _ => spare) (by decide) (by decide)
    (by simp) _ (by decide) hrun

theorem not_skippedClean (h : ∀ c ∈ m.calls, c.env.bitmap = none) : ¬ m.SkippedClean conf w := by
  rintro ⟨c, hc, -, b, hb, -⟩
  rw [h c hc] at hb
  cases hb

/-- Of two stripes of a rebuild the first fails and cannot be recorded, so the rebuild is
aborted. When the second one is done `recovery_offset` is behind both. -/
theorem recovery_offset_passes_failed : ∃ m : Mddev 1,
    run (step { twoStripes with sync := false }) (.start 0 maxSector fun _ => spare)
      [.syncRequest wholeWindow false, .failedSync 0 (fun _ => false), .doneSync 8,
        .finish] = some m ∧
    m.intr = true ∧ m.error = true ∧
    ¬ m.SkippedClean { twoStripes with sync := false } 0 ∧ 0 ∉ m.synced ∧ 0 ∉ m.badBlocks 0 ∧
    (m.members 0).inSync = false ∧ (m.members 0).recoveryOffset = 16 := by
  refine ⟨_, rfl, rfl, rfl, not_skippedClean ?_, by decide, by decide, rfl, rfl⟩
  intro c hc
  rw [mem_singleton.mp hc]
  rfl

end MdRaid.Resync.Walk
