import MdRaid.Reshape.Sources

/-!
# What a step may overwrite

A step of the reshape may only write where a crash would not need the old data: from the
position in the superblock on the disks, the data is still read in the old geometry.
`reshape_request` estimates where it reads and writes by quotients. The estimates are on
the safe side when `min_offset_diff` bounds what the offsets of the devices differ by;
it then updates the metadata in time, unless by the estimates it reads too close to where
it writes.
-/

namespace MdRaid.Reshape

open MdRaid.Geometry Mddev Nat

variable {m : Mddev}

/-! ## Estimates -/

/-- The device sector of a logical sector is less than a chunk off the quotient. -/
theorem newSector_bounds (hv : Valid m) {r : Nat} (hr : r < m.oldSize) {t : Target}
    (ht : raid5ComputeSector m.conf r true = some t) :
    r / m.dataDisks < t.newSector + m.reshapeSectors ∧
      t.newSector < r / m.dataDisks + m.reshapeSectors := by
  have hc : 0 < m.conf.prevChunkSectors := hv.old.chunk_pos
  have hcR : m.conf.prevChunkSectors ≤ m.reshapeSectors := le_max_right _ _
  have hfit : r < 2 ^ 64 :=
    hr.trans ((Nat.mul_le_mul (Nat.le_add_right _ _) (le_max_left _ _)).trans_lt hv.fits)
  have hsector : t.newSector = r / m.conf.prevChunkSectors / m.dataDisks * m.conf.prevChunkSectors +
      r % m.conf.prevChunkSectors := by
    rw [raid5ComputeSector_newSector ht, sectorT_row hfit]
    rfl
  have hle := div_mul_le_self (r / m.dataDisks) m.conf.prevChunkSectors
  have hlt := lt_div_mul_add (a := r / m.dataDisks) hc
  have hoff := mod_lt r hc
  rw [hsector, Nat.div_right_comm r]
  omega

/-- `min_offset_diff` is what `raid5_run` would compute now. -/
def OffsetsBounded (m : Mddev) : Prop :=
  ∀ k < m.conf.raidDisks,
    if m.reshapeBackwards then m.minOffsetDiff ≤ (m.newDataOffset k : Int) - m.dataOffset k
    else (m.newDataOffset k : Int) - m.dataOffset k ≤ m.minOffsetDiff

/-! ## What is recorded -/

/-- The first position is not ahead of the second. -/
def Behind (m : Mddev) (p q : Nat) : Prop := if m.reshapeBackwards then q ≤ p else p ≤ q

theorem Behind.refl (p : Nat) : Behind m p p := by
  unfold Behind
  split_ifs <;> exact le_rfl

theorem Behind.trans {p q r : Nat} (hpq : Behind m p q) (hqr : Behind m q r) : Behind m p r := by
  unfold Behind at *
  split_ifs at *
  · exact hqr.trans hpq
  · exact hpq.trans hqr

theorem Behind.antisymm {p q : Nat} (hpq : Behind m p q) (hqp : Behind m q p) : p = q := by
  unfold Behind at *
  split_ifs at *
  · exact le_antisymm hqp hpq
  · exact le_antisymm hpq hqp

/-- What is ahead of a position is ahead of all positions behind it. -/
theorem Behind.ahead {p q r : Nat} (hpq : Behind m p q) (hr : m.aheadOfReshape r q) :
    m.aheadOfReshape r p := by
  unfold Behind at hpq
  unfold aheadOfReshape at *
  split_ifs at * <;> simp only [decide_eq_true_eq] at * <;> omega

theorem behind_schedule (s : Mddev.State) (a : Nat) (due : Bool) :
    Behind m s.reshapeProgress (m.schedule s a due).reshapeProgress := by
  unfold Behind
  by_cases hb : m.reshapeBackwards
  · simp only [schedule, hb, if_true]
    exact sub_le _ _
  · simp only [schedule, hb, Bool.false_eq_true, if_false]
    exact le_add_right _ _

/-- The positions follow each other: what reshape takes to be recorded, what is on the disks, what
is to be written, and the progress. -/
structure Recorded (m : Mddev) (s : Mddev.State) : Prop where
  safe : Behind m s.reshapeSafe s.sbPosition
  position : Behind m s.reshapePosition s.reshapeProgress
  disks : Behind m s.sbPosition s.reshapePosition
  writing : ∀ p, s.sbWriting = some p → Behind m s.sbPosition p ∧ Behind m p s.reshapePosition
  current : s.sbChange = false →
    (s.sbWriting = none → s.sbPosition = s.reshapePosition) ∧
      ∀ p, s.sbWriting = some p → p = s.reshapePosition
  waiting : ∀ next, s.stage = .waitSuper next → s.reshapePosition = s.reshapeProgress
  ready : ∀ a, s.stage = .schedule a → s.reshapeSafe = s.reshapeProgress ∨
    m.mustUpdate (m.withOffset (m.positions s.reshapeProgress s.reshapeSafe)) = false

theorem recorded_starts {s : Mddev.State} (hs : m.Starts s) : Recorded m s := by
  have hall : ∀ p flag, Recorded m ⟨p, p, p, flag, none, p, 0, .idle, []⟩ := fun p flag =>
    ⟨.refl p, .refl p, .refl p, fun _ h => (by cases h), fun _ =>
      ⟨fun _ => rfl, fun _ h => (by cases h)⟩,
      fun _ h => (by cases h), fun _ h => (by cases h)⟩
  cases hs with
  | start => exact hall _ _
  | resumed h =>
    unfold continueReshape at h
    obtain ⟨-, rfl⟩ := Runs.of_guard h
    exact hall _ _

/-- The thread goes on after an update only when the superblock is on the disks. -/
def SuperWritten (s : Mddev.State) : Mddev.Event → Prop
  | .superSeen => s.sbWriting = none
  | _ => True

instance (s : Mddev.State) (e : Mddev.Event) : Decidable (SuperWritten s e) := by
  unfold SuperWritten
  split <;> infer_instance

theorem Stage.Rests.not_busy {stage : Mddev.Stage} (h : stage.Rests) :
    (∀ next, stage ≠ .waitSuper next) ∧ ∀ a, stage ≠ .schedule a := by
  rcases h with rfl | rfl <;> exact ⟨by simp, by simp⟩

/-- **One step keeps the positions in order.** -/
theorem Recorded.change {s s' : Mddev.State} {e : Mddev.Event} (h : Recorded m s)
    (hcond : SuperWritten s e) (hc : m.Change s e s') : Recorded m s' := by
  cases hc with
  | skip timeout due _ _ hrests =>
    exact { h with
      waiting := fun next hn => absurd hn ((Stage.Rests.not_busy hrests).1 next)
      ready := fun a ha => absurd ha ((Stage.Rests.not_busy hrests).2 a) }
  | wait =>
    exact { h with waiting := fun _ hn => (by cases hn), ready := fun _ ha => (by cases ha) }
  | ready timeout due _ _ _ hsafe =>
    exact { h with waiting := fun _ hn => (by cases hn), ready := fun _ _ => .inr hsafe }
  | record _ _ =>
    have hle := h.disks.trans h.position
    exact ⟨h.safe, .refl _, hle, fun p hp => ⟨(h.writing p hp).1,
      (h.writing p hp).2.trans h.position⟩,
      by simp, fun _ _ => rfl, fun _ ha => (by cases ha)⟩
  | @recorded next hstage hflag =>
    have hsame : s.sbPosition = s.reshapePosition := (h.current hflag).1 hcond
    have hdone := h.waiting next hstage
    refine ⟨by rw [hsame]; exact .refl _, h.position, h.disks, h.writing, h.current,
      fun next' hn => ?_,
      fun a _ => .inl hdone⟩
    cases next <;> cases hn
  | @schedule addr hstage due =>
    have hle := behind_schedule (m := m) s addr due
    refine ⟨h.safe, h.position.trans hle, h.disks, h.writing, h.current, fun next hn => ?_,
      fun a ha => ?_⟩
    · have hn' : (if due then Mddev.Stage.waitStripes none else .idle) = .waitSuper next := hn
      cases due <;> cases hn'
    · have ha' : (if due then Mddev.Stage.waitStripes none else .idle) = .schedule a := ha
      cases due <;> cases ha'
  | restart =>
    exact { h with waiting := fun _ hn => (by cases hn), ready := fun _ ha => (by cases ha) }
  | superStart hnone =>
    refine { h with writing := fun p hp => ?_, current := fun _ => ⟨by simp, fun p hp => ?_⟩ }
    · cases hp
      exact ⟨h.disks, .refl _⟩
    · exact (Option.some.inj hp).symm
  | @superDone position hwriting =>
    obtain ⟨hge, hle⟩ := h.writing position hwriting
    exact ⟨h.safe.trans hge, h.position, hle, fun _ hp => (by cases hp),
      fun hflag => ⟨fun _ => (h.current hflag).2 position hwriting, fun _ hp =>
        (by cases hp)⟩, h.waiting,
      h.ready⟩
  | stripeDone =>
    exact ⟨h.safe, h.position, h.disks, h.writing, h.current, h.waiting, h.ready⟩

theorem recorded_run {s s' : Mddev.State} (hstart : m.Starts s) {es : List Mddev.Event}
    (halong : Runs.Along m.step SuperWritten s es) (hrun : Runs.run m.step s es = some s') :
    Recorded m s' :=
  Runs.run_preserves (fun _ _ _ h hcond hs => Recorded.change h hcond (step_change hs))
    (recorded_starts hstart) halong hrun

/-! ## What is written over -/

/-- Where the step from `a` on writes comes before everything still to be read, on each device. -/
def Clear (m : Mddev) (s : Mddev.State) (a : Nat) : Prop :=
  ∀ k < m.conf.raidDisks, ∀ sector, a ≤ sector → sector < a + m.reshapeSectors →
    ∀ r < m.oldSize, m.aheadOfReshape r s.reshapeProgress = true →
      ∀ t, raid5ComputeSector m.conf r true = some t → t.ddIdx = k →
        if m.reshapeBackwards then m.dataOffset k + t.newSector < m.newDataOffset k + sector
        else m.newDataOffset k + sector < m.dataOffset k + t.newSector

/-- The step from `a` on writes where the old geometry has logical sector `r`. -/
def Overwrites (m : Mddev) (a r : Nat) : Prop :=
  ∃ t, raid5ComputeSector m.conf r true = some t ∧ ∃ k < m.conf.raidDisks, t.ddIdx = k ∧
    ∃ sector, a ≤ sector ∧ sector < a + m.reshapeSectors ∧
      m.newDataOffset k + sector = m.dataOffset k + t.newSector

/-- If what is recorded is not clear of the writes, then what is still to be read is. -/
def Tracked (m : Mddev) (s : Mddev.State) : Prop :=
  let pos := m.withOffset (m.positions s.reshapeProgress s.reshapeSafe)
  if m.reshapeBackwards then pos.safepos > pos.writepos → pos.readpos < pos.writepos
  else pos.safepos < pos.writepos → pos.readpos > pos.writepos

/-- The estimate of what is recorded is on the safe side. -/
theorem not_overwrites_of_safe (hv : Valid m) (hoff : OffsetsBounded m)
    {s : Mddev.State} {a r : Nat}
    (hdue : Due m s a) (hr : r < m.oldSize) (hahead : m.aheadOfReshape r s.reshapeSafe)
    (hpos : let pos := m.withOffset (m.positions s.reshapeProgress s.reshapeSafe)
      if m.reshapeBackwards then pos.safepos ≤ pos.writepos else pos.writepos ≤ pos.safepos) :
    ¬ Overwrites m a r := by
  rintro ⟨t, ht, k, hk, -, sector, hge, hlt, heq⟩
  have hnd := hv.newDataDisks_pos
  obtain ⟨hrow, hrow'⟩ := newSector_bounds hv hr ht
  have hbound := hoff k hk
  by_cases hb : m.reshapeBackwards
  · have hquot : s.reshapeProgress / m.newDataDisks = a + m.reshapeSectors := by
      rw [← hdue.backwards hb, Nat.mul_div_cancel _ hnd]
    simp only [aheadOfReshape, hb, if_true, decide_eq_true_eq] at hahead
    have hsafe : r / m.dataDisks ≤ s.reshapeSafe / m.dataDisks := Nat.div_le_div_right hahead.le
    simp only [hb, if_true] at hbound
    simp only [withOffset, positions, hb, if_true, hquot, Nat.add_sub_cancel] at hpos
    split_ifs at hpos with hneg <;> simp only at hpos <;> omega
  · have hf : m.reshapeBackwards = false := Bool.eq_false_iff.mpr hb
    have hquot : s.reshapeProgress / m.newDataDisks = a := by
      rw [← hdue.forward hf, Nat.mul_div_cancel _ hnd]
    simp only [aheadOfReshape, hf, Bool.false_eq_true, if_false, decide_eq_true_eq] at hahead
    have hsafe : s.reshapeSafe / m.dataDisks ≤ r / m.dataDisks := Nat.div_le_div_right hahead
    simp only [hf, Bool.false_eq_true, if_false] at hbound
    simp only [withOffset, positions, hf, Bool.false_eq_true, if_false, hquot] at hpos
    split_ifs at hpos with hneg <;> simp only at hpos <;> omega

theorem Clear.not_overwrites {s : Mddev.State} {a r : Nat} (h : Clear m s a) (hr : r < m.oldSize)
    (hahead : m.aheadOfReshape r s.reshapeProgress) : ¬ Overwrites m a r := by
  rintro ⟨t, ht, k, hk, hdd, sector, hge, hlt, heq⟩
  have hclear := h k hk sector hge hlt r hr hahead t ht hdd
  split_ifs at hclear <;> omega

/-- **A step does not overwrite what a crash would need.** In every run in which the reshape goes
on only once the superblock is on the disks, when stripes are about to be scheduled clear of
everything still to be read, with offsets within `min_offset_diff` and either what is recorded or
what is still to be read clear of the writes in the estimates, no sector written is the old place
of a logical sector at or ahead of the position on the disks. -/
theorem reshape_keeps_needed (m : Mddev) (hv : Valid m) (hoff : OffsetsBounded m)
    (s s' : Mddev.State)
    (hstart : m.Starts s) (es : List Mddev.Event) (halong : Runs.Along m.step SuperWritten s es)
    (hrun : Runs.run m.step s es = some s') (a : Nat) (hstage : s'.stage = .schedule a)
    (htracked : Tracked m s') (hclear : Clear m s' a) :
    ∀ r < m.oldSize, m.aheadOfReshape r s'.sbPosition = true → ¬ Overwrites m a r := by
  intro r hr hahead
  have hdue := (aligned_run hv hstart hrun).due a (by rw [hstage]; rfl)
  have hrec := recorded_run hstart halong hrun
  rcases hrec.ready a hstage with hsafe | hupdate
  · -- after an update all that is done is on the disks
    have hsame : s'.sbPosition = s'.reshapeProgress :=
      (hrec.disks.trans hrec.position).antisymm (hsafe ▸ hrec.safe)
    exact hclear.not_overwrites hr (hsame ▸ hahead)
  · refine not_overwrites_of_safe hv hoff hdue hr (hrec.safe.ahead hahead) ?_
    simp only [Tracked] at htracked
    simp only [mustUpdate] at hupdate
    split_ifs at htracked hupdate ⊢ with hb
    · simp only [Bool.and_eq_false_iff, decide_eq_false_iff_not] at hupdate
      dsimp only
      omega
    · simp only [Bool.and_eq_false_iff, decide_eq_false_iff_not] at hupdate
      dsimp only
      omega

/-- A change of the layout in place, with offsets that leave room in front. -/
def shiftedArray (minOffsetDiff : Int) : Mddev :=
  ⟨⟨.raid5, 3, 2, 8, 8, 3, 3⟩, 64, false, minOffsetDiff, fun _ => 2048, fun _ => 2032⟩

theorem shiftedArray_valid (minOffsetDiff : Int) : Valid (shiftedArray minOffsetDiff) :=
  ⟨⟨(rfl : setupConfChecks 5 2 3 8 = _), le_succ 2⟩,
    ⟨(rfl : setupConfChecks 5 3 3 8 = _), le_succ 2⟩, ⟨8, rfl⟩,
     (by decide : (64 + 8) * max 2 2 < 2 ^ 64)⟩

theorem reshape_keeps_needed_shifted :
    ∃ s, Runs.run (shiftedArray (-16)).step (shiftedArray (-16)).startReshape
        [.enter false false, .schedule false, .enter false false] = some s ∧ s.stage = .schedule 8 ∧
      ∀ r < (shiftedArray (-16)).oldSize,
        (shiftedArray (-16)).aheadOfReshape r s.sbPosition = true → ¬ Overwrites
          (shiftedArray (-16)) 8 r := by
  refine ⟨_, rfl, rfl, reshape_keeps_needed (shiftedArray (-16)) (shiftedArray_valid _)
    ?_ _ _ .start
    [.enter false false, .schedule false, .enter false false] (by decide) rfl 8 rfl ?_ ?_⟩
  · intro k _
    exact Int.le_refl (-16)
  · intro h
    exact absurd h (by decide)
  · intro k _ sector _ hlt r _ _ t _ _
    have hlt' : sector < 16 := hlt
    change 2032 + sector < 2048 + t.newSector
    omega

/-- Three steps with nothing recorded, the third of which clears its zone and writes over what a
restart still needs. -/
def ThirdStepOverwrites (diff : Int) : Prop :=
  ∃ s, Runs.run (shiftedArray diff).step (shiftedArray diff).startReshape
      [.enter false false, .schedule false, .enter false false, .schedule false,
        .enter false false] =
        some s ∧
    s.stage = .schedule 16 ∧ Clear (shiftedArray diff) s 16 ∧
    0 < (shiftedArray diff).oldSize ∧ (shiftedArray diff).aheadOfReshape 0 s.sbPosition = true ∧
    Overwrites (shiftedArray diff) 16 0

theorem shiftedArray_clear (diff : Int) {s : Mddev.State} (hprogress : s.reshapeProgress = 32) :
    Clear (shiftedArray diff) s 16 := by
  intro k _ sector _ hlt r hr hahead t ht _
  have hlt' : sector < 24 := hlt
  have hge : 32 ≤ r := hprogress ▸ of_decide_eq_true hahead
  have hrow : r / 2 < t.newSector + 8 := (newSector_bounds (shiftedArray_valid diff) hr ht).1
  change 2032 + sector < 2048 + t.newSector
  omega

/-- With nothing recorded, the third step writes over the first sectors of the array: the estimate
of where it reads only just meets that of where it writes, so it sees no need to update the
metadata.
The same if the offsets were changed after `raid5_run`, which had found no difference. -/
theorem shiftedArray_overwrites_needed : ThirdStepOverwrites (-16) ∧ ThirdStepOverwrites 0 := by
  constructor
  · exact ⟨_, rfl, rfl, shiftedArray_clear _ rfl, by decide, by decide, _, rfl, 0, by decide,
      by decide, 16, le_rfl, by decide, by decide⟩
  · exact ⟨_, rfl, rfl, shiftedArray_clear _ rfl, by decide, by decide, _, rfl, 0, by decide,
      by decide, 16, le_rfl, by decide, by decide⟩

end MdRaid.Reshape
