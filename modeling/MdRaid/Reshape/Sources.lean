import MdRaid.Reshape.Request

/-!
# The stripes of one step

The reshape goes in units of the larger chunk: every step starts at a multiple of it, so
its new stripes are whole rows of the new geometry, and their blocks one stretch of
logical sectors. The old stripes that are marked cover the rows of the old geometry in
which that stretch lies.
-/

namespace MdRaid.Reshape

open MdRaid.Geometry Mddev Nat Option

/-! ## Rows -/

theorem roundDown_roundDown {x a b : Nat} (hdvd : a ∣ b) (hb : 0 < b) :
    roundDown (roundDown x a) b = roundDown x b ∧ roundDown (roundDown x b) a = roundDown x b := by
  obtain ⟨k, rfl⟩ := hdvd
  have ha : 0 < a := Nat.pos_of_mul_pos_right hb
  unfold roundDown
  constructor
  · rw [← Nat.div_div_eq_div_mul, Nat.mul_div_cancel _ ha, Nat.div_div_eq_div_mul]
  · rw [mul_comm a k, ← mul_assoc, Nat.mul_div_cancel _ ha]

theorem roundDown_le (x a : Nat) : roundDown x a ≤ x := div_mul_le_self x a

theorem dvd_roundDown (x a : Nat) : a ∣ roundDown x a := dvd_mul_left a _

/-- Of two powers of two one divides the other. -/
theorem dvd_max_of_powerOf2 {a b : Nat} (ha : isPowerOf2 a) (hb : isPowerOf2 b) :
    a ∣ max a b ∧ b ∣ max a b := by
  rw [eq_two_pow_log2 ha, eq_two_pow_log2 hb]
  rcases le_total a.log2 b.log2 with hle | hle
  · rw [max_eq_right (Nat.pow_le_pow_right Nat.two_pos hle)]
    exact ⟨pow_dvd_pow 2 hle, dvd_rfl⟩
  · rw [max_eq_left (Nat.pow_le_pow_right Nat.two_pos hle)]
    exact ⟨dvd_rfl, pow_dvd_pow 2 hle⟩

/-! ## Arrays that are reshaped -/

variable {m : Mddev}

/-- Both geometries are accepted, the devices hold whole chunks of the old one, and the sizes fit
into a `sector_t`. -/
structure Valid (m : Mddev) : Prop where
  old : Accepted m.conf true
  new : Accepted m.conf false
  whole : m.conf.prevChunkSectors ∣ m.devSectors
  fits : (m.devSectors + m.reshapeSectors) * max m.dataDisks m.newDataDisks < 2 ^ 64

/-- The size of the array in the old geometry. -/
def Mddev.oldSize (m : Mddev) : Nat := m.devSectors * m.dataDisks

namespace Valid

section

variable (h : Valid m)
include h

theorem dataDisks_pos : 0 < m.dataDisks := (accepted_facts h.old).2.2.2.2

theorem newDataDisks_pos : 0 < m.newDataDisks := (accepted_facts h.new).2.2.2.2

theorem chunk_dvd :
    m.conf.chunkSectors ∣ m.reshapeSectors ∧ m.conf.prevChunkSectors ∣ m.reshapeSectors :=
  dvd_max_of_powerOf2 (setupConfChecks_ok h.new.checks).2.2.2.2
    (setupConfChecks_ok h.old.checks).2.2.2.2

theorem reshapeSectors_pos : 0 < m.reshapeSectors :=
  lt_of_lt_of_le h.new.chunk_pos (le_max_left _ _)

theorem roundDown_chunks :
    roundDown (roundDown m.devSectors m.conf.chunkSectors) m.conf.prevChunkSectors =
      roundDown m.devSectors m.reshapeSectors := by
  obtain ⟨hnew, hold⟩ := h.chunk_dvd
  unfold reshapeSectors at hnew hold ⊢
  rcases le_total m.conf.chunkSectors m.conf.prevChunkSectors with hle | hle
  · rw [max_eq_right hle] at hnew ⊢
    exact (roundDown_roundDown hnew h.old.chunk_pos).1
  · rw [max_eq_left hle] at hold ⊢
    exact (roundDown_roundDown hold h.new.chunk_pos).2

theorem raid5Size_eq :
    m.raid5Size = roundDown m.devSectors m.reshapeSectors * min m.newDataDisks m.dataDisks := by
  have hdisks : min m.conf.raidDisks m.conf.previousRaidDisks - m.conf.level.maxDegraded =
      min m.newDataDisks m.dataDisks := (Nat.sub_min_sub_right _ _ _).symm
  rw [raid5Size, hdisks, h.roundDown_chunks]

/-- Both sizes of the array, and one step more, can be addressed. -/
theorem new_lt {a : Nat} (ha : a < m.devSectors) :
    (a + m.reshapeSectors) * m.newDataDisks < 2 ^ 64 :=
  (Nat.mul_le_mul (Nat.add_le_add_right ha.le _) (le_max_right _ _)).trans_lt h.fits

theorem old_lt : m.devSectors * m.dataDisks < 2 ^ 64 :=
  (Nat.mul_le_mul (Nat.le_add_right _ _) (le_max_left _ _)).trans_lt h.fits

end

end Valid

/-! ## Steps start at multiples of the larger chunk -/

def Mddev.Stage.addr : Mddev.Stage → Option Nat
  | .idle => none
  | .waitStripes next | .waitSuper next => next
  | .schedule addr => some addr

/-- Stripes are about to be scheduled from sector `a` on. -/
structure Due (m : Mddev) (s : Mddev.State) (a : Nat) : Prop where
  aligned : m.reshapeSectors ∣ a
  lt : a < m.devSectors
  backwards : m.reshapeBackwards = true → (a + m.reshapeSectors) * m.newDataDisks =
    s.reshapeProgress
  forward : m.reshapeBackwards = false → a * m.newDataDisks = s.reshapeProgress

/-- The progress is a multiple of the new stripes' size, unless the array is to grow backwards,
which never gets past the warnings. -/
structure Aligned (m : Mddev) (s : Mddev.State) : Prop where
  progress : m.reshapeSectors * m.newDataDisks ∣ s.reshapeProgress ∨
    (m.reshapeBackwards = true ∧ s.reshapeProgress = m.raid5Size ∧ s.sectorNr = 0 ∧ s.stage = .idle)
  due : ∀ a, s.stage.addr = some a → Due m s a

theorem aligned_starts {s : Mddev.State} (hs : m.Starts s) : Aligned m s := by
  cases hs with
  | start =>
    refine ⟨?_, fun a ha => (by cases ha)⟩
    by_cases hb : m.reshapeBackwards
    · exact .inr ⟨hb, if_pos hb, rfl, rfl⟩
    · refine .inl ?_
      rw [startReshape, if_neg hb]
      exact dvd_zero _
  | @resumed position ro s h =>
    unfold continueReshape at h
    obtain ⟨hcan, rfl⟩ := Runs.of_guard h
    refine ⟨.inl (dvd_of_mod_eq_zero ?_), fun a ha => (by cases ha)⟩
    by_contra hne
    simp only [canContinue, if_pos hne, Bool.false_eq_true] at hcan

variable {s s' : Mddev.State} {a : Nat}

theorem Aligned.due_of_enter {s : Mddev.State} (h : Aligned m s) (hv : Valid m)
    (hlt : s.sectorNr < m.devSectors) (ha : m.stripeAddr? s = some a) : Due m s a := by
  have hnd := hv.newDataDisks_pos
  have hR := hv.reshapeSectors_pos
  unfold stripeAddr? positions at ha
  by_cases hb : m.reshapeBackwards
  · simp only [hb, if_true] at ha
    split_ifs at ha with hsmall hzero hsector
    push Not at hsmall hsector
    cases ha
    have hquot : roundDown m.devSectors m.reshapeSectors =
        s.reshapeProgress / m.newDataDisks + s.sectorNr := by omega
    have hprog : m.reshapeSectors * m.newDataDisks ∣ s.reshapeProgress := by
      refine h.progress.elim id fun ⟨_, hsize, hnr, _⟩ => ?_
      rw [hv.raid5Size_eq] at hsize
      rcases le_or_gt m.newDataDisks m.dataDisks with hle | hgrow
      · rw [hsize, min_eq_left hle]
        exact mul_dvd_mul_right (dvd_roundDown _ _) _
      · -- growing, the quotient falls short of the device and is warned of
        rw [min_eq_right hgrow.le] at hsize
        have hpos : 0 < roundDown m.devSectors m.reshapeSectors := by omega
        have hshort : s.reshapeProgress / m.newDataDisks <
            roundDown m.devSectors m.reshapeSectors := by
          rw [hsize, div_lt_iff_lt_mul hnd]
          exact mul_lt_mul_of_pos_left hgrow hpos
        omega
    obtain ⟨k, hk⟩ := hprog
    have hdiv : s.reshapeProgress / m.newDataDisks = m.reshapeSectors * k := by
      rw [hk, show m.reshapeSectors * m.newDataDisks * k = m.reshapeSectors * k *
        m.newDataDisks by ring,
        Nat.mul_div_cancel _ hnd]
    refine ⟨?_, ?_, fun _ => ?_, fun hf => (by cases hb.symm.trans hf)⟩
    · rw [hdiv]
      exact dvd_sub (dvd_mul_right _ _) dvd_rfl
    · have := roundDown_le m.devSectors m.reshapeSectors
      omega
    · rw [Nat.sub_add_cancel hsmall, hdiv, hk]
      ring
  · have hb' : m.reshapeBackwards = false := Bool.eq_false_iff.mpr hb
    simp only [hb', Bool.false_eq_true, if_false] at ha
    split_ifs at ha with hsector
    push Not at hsector
    cases ha
    obtain ⟨k, hk⟩ := h.progress.resolve_right fun ⟨hback, _⟩ => hb hback
    have hdiv : s.reshapeProgress / m.newDataDisks = m.reshapeSectors * k := by
      rw [hk, show m.reshapeSectors * m.newDataDisks * k = m.reshapeSectors * k *
        m.newDataDisks by ring,
        Nat.mul_div_cancel _ hnd]
    have hnr : s.sectorNr = m.reshapeSectors * k := by omega
    refine ⟨hnr ▸ dvd_mul_right _ _, hlt, fun hback => (by cases hback.symm.trans hb'), fun _ => ?_⟩
    rw [hnr, hk]
    ring

theorem Due.congr (h : Due m s a) (hprog : s'.reshapeProgress = s.reshapeProgress) : Due m s' a :=
  ⟨h.aligned, h.lt, fun hb => (h.backwards hb).trans hprog.symm,
    fun hf => (h.forward hf).trans hprog.symm⟩

theorem Due.dvd_progress {s : Mddev.State} (h : Due m s a) :
    m.reshapeSectors * m.newDataDisks ∣ s.reshapeProgress := by
  by_cases hb : m.reshapeBackwards
  · rw [← h.backwards hb]
    exact Nat.mul_dvd_mul_right (Nat.dvd_add h.aligned dvd_rfl) _
  · rw [← h.forward (Bool.eq_false_iff.mpr hb)]
    exact mul_dvd_mul_right h.aligned _

theorem Stage.Rests.addr {stage : Mddev.Stage} (h : stage.Rests) : stage.addr = none := by
  rcases h with rfl | rfl <;> rfl

/-- The thread is somewhere else, with the progress as it was. -/
theorem Aligned.move (h : Aligned m s)
    (hprog : s'.reshapeProgress = s.reshapeProgress) (hbusy : s.stage ≠ .idle)
    (haddr : s'.stage.addr = s.stage.addr) : Aligned m s' := by
  refine ⟨.inl ?_, fun a ha => (h.due a (haddr ▸ ha)).congr hprog⟩
  rw [hprog]
  exact h.progress.resolve_right fun hstuck => hbusy hstuck.2.2.2

theorem Aligned.change {e : Mddev.Event} (h : Aligned m s) (hv : Valid m)
    (hc : m.Change s e s') : Aligned m s' := by
  cases hc with
  | skip timeout due _ hskip hrests =>
    refine ⟨.inl (h.progress.resolve_right fun ⟨hb, hsize, hnr, _⟩ => hskip ?_), fun a ha => ?_⟩
    · simp [skipTo, hnr, hb, hsize]
    · cases (Stage.Rests.addr hrests).symm.trans ha
  | wait timeout due _ hlt haddr =>
    have hdue := h.due_of_enter hv hlt haddr
    exact ⟨.inl hdue.dvd_progress, fun a ha => some.inj ha ▸ hdue.congr rfl⟩
  | ready timeout due _ hlt haddr _ =>
    have hdue := h.due_of_enter hv hlt haddr
    exact ⟨.inl hdue.dvd_progress, fun a ha => some.inj ha ▸ hdue.congr rfl⟩
  | record hstage _ => exact h.move rfl (by rw [hstage]; simp) (by rw [hstage]; rfl)
  | @recorded next hstage _ =>
    refine h.move rfl (by rw [hstage]; simp) ?_
    rw [hstage]
    cases next <;> rfl
  | @schedule addr hstage due =>
    have hdvd := (h.due addr (by rw [hstage]; rfl)).dvd_progress
    refine ⟨.inl ?_, fun a ha => ?_⟩
    · show _ ∣ if m.reshapeBackwards = true then _ else _
      split_ifs
      · exact dvd_sub hdvd dvd_rfl
      · exact Nat.dvd_add hdvd dvd_rfl
    · have ha' : (if due then Mddev.Stage.waitStripes none else .idle).addr = some a := ha
      cases due <;> cases ha'
  | restart =>
    exact ⟨h.progress.imp_right fun hstuck => ⟨hstuck.1, hstuck.2.1, rfl, rfl⟩,
      fun a ha => (by cases ha)⟩
  | superStart | superDone | stripeDone => exact ⟨h.progress, fun a ha => (h.due a ha).congr rfl⟩

theorem aligned_run (hv : Valid m) (hstart : m.Starts s) {es : List Mddev.Event}
    (hrun : Runs.run m.step s es = some s') : Aligned m s' :=
  Runs.run_invariant (fun _ _ _ h hs => Aligned.change h hv (step_change hs))
    (aligned_starts hstart) hrun

/-! ## The blocks of a step -/

theorem mem_newStripes {a sector : Nat} (hv : Valid m) : sector ∈ m.newStripes a ↔
    a ≤ sector ∧ sector < a + m.reshapeSectors ∧ stripeSectors ∣ sector - a := by
  have hdvd : stripeSectors ∣ m.reshapeSectors :=
    hv.new.stripe_dvd.trans hv.chunk_dvd.1
  obtain ⟨k, hk⟩ := hdvd
  have hdiv : m.reshapeSectors / stripeSectors = k := by
    rw [hk, Nat.mul_div_cancel_left _ (by decide)]
  simp only [newStripes, hdiv, List.mem_map, List.mem_range]
  unfold stripeSectors at *
  constructor
  · rintro ⟨i, hi, rfl⟩
    omega
  · rintro ⟨hle, hlt, j, hj⟩
    exact ⟨j, by omega, by omega⟩

/-- A block of a new stripe lies in the stretch of the step. -/
theorem block_of_newStripe (hv : Valid m) (ha : m.reshapeSectors ∣ a) {r sector : Nat}
    (hfit : r < 2 ^ 64) (hsector : sector ∈ m.newStripes a) {t : Target}
    (ht : raid5ComputeSector m.conf r false = some t) (hts : t.newSector = sector) :
    a * m.newDataDisks ≤ r ∧ r < (a + m.reshapeSectors) * m.newDataDisks ∧ stripeSectors ∣ r := by
  obtain ⟨hle, hlt, hdvd⟩ := (mem_newStripes hv).mp hsector
  have hc := hv.new.chunk_pos
  have hchunk := hv.chunk_dvd.1
  have hnew : sector = r / m.conf.sectorsPerChunk false / m.conf.dataDisks false *
      m.conf.sectorsPerChunk false + r % m.conf.sectorsPerChunk false := by
    rw [← hts, raid5ComputeSector_newSector ht, sectorT_row hfit]
  have hbetween := chunk_between hc (hchunk.trans ha) (Nat.dvd_add (hchunk.trans ha) hchunk) hle hlt
  obtain ⟨hlow, hhigh⟩ := row_bounds (r := r) hc hv.newDataDisks_pos
  rw [newDataDisks] at hlow hhigh ⊢
  rw [← hnew] at hlow hhigh
  refine ⟨(mul_le_mul_right _ hbetween.1).trans hlow,
    hhigh.trans_le (mul_le_mul_right _ hbetween.2), ?_⟩
  -- the offset in the chunk decides, and it is that of the device sector
  have hs8 := hv.new.stripe_dvd
  have hsec8 : stripeSectors ∣ sector := by
    have ha8 : stripeSectors ∣ a := hs8.trans (hchunk.trans ha)
    exact (dvd_sub_iff_left hle ha8).mp hdvd
  have hoff : stripeSectors ∣ r % m.conf.sectorsPerChunk false := by
    rw [hnew] at hsec8
    exact (Nat.dvd_add_right (hs8.mul_left _)).mp hsec8
  exact (dvd_mod_iff hs8).mp hoff

/-- A block of the old array is on the devices. -/
theorem lt_devSectors (hv : Valid m) {r : Nat} (hold : r < m.oldSize) :
    r / m.conf.prevChunkSectors / m.dataDisks * m.conf.prevChunkSectors +
      r % m.conf.prevChunkSectors < m.devSectors :=
  row_lt hv.old.chunk_pos hv.dataDisks_pos hv.whole hold

section

variable (hv : Valid m) (ha : m.reshapeSectors ∣ a) (halt : a < m.devSectors)
include hv ha halt

/-- The range of sectors that is marked, without the clipping to the device. -/
theorem sourceRange_eq : ∃ first last, m.sourceRange a = some (first, min last (m.devSectors - 1)) ∧
      first = a * m.newDataDisks / m.conf.prevChunkSectors / m.dataDisks * m.conf.prevChunkSectors ∧
      last = ((a + m.reshapeSectors) * m.newDataDisks - 1) / m.conf.prevChunkSectors / m.dataDisks *
        m.conf.prevChunkSectors + (m.conf.prevChunkSectors - 1) := by
  have hc : 0 < m.conf.prevChunkSectors := hv.old.chunk_pos
  have hdvd : m.conf.prevChunkSectors ∣ a := hv.chunk_dvd.2.trans ha
  have hhigh := hv.new_lt halt
  have hlow : a * m.newDataDisks < 2 ^ 64 :=
    (mul_le_mul_right _ (le_add_right _ _)).trans_lt hhigh
  obtain ⟨first, -, hfirst, -⟩ := raid5ComputeSector_roundTrip hv.old hlow
  obtain ⟨last, -, hlast, -⟩ := raid5ComputeSector_roundTrip hv.old
    (r := (a + m.reshapeSectors) * m.newDataDisks - 1) (by omega)
  refine ⟨first.newSector, last.newSector, ?_, ?_, ?_⟩
  · have hclip : (if last.newSector ≥ m.devSectors then m.devSectors - 1 else last.newSector) =
        min last.newSector (m.devSectors - 1) := by
      split_ifs <;> omega
    have hlast64 : sectorT ((a + m.reshapeSectors) * m.newDataDisks - 1) =
        (a + m.reshapeSectors) * m.newDataDisks - 1 := mod_eq_of_lt (by omega)
    have hfirst64 : sectorT (a * m.newDataDisks) = a * m.newDataDisks := mod_eq_of_lt hlow
    rw [sourceRange, hfirst64, hlast64, hfirst, hlast, bind_some, map_some, hclip]
  · have hzero : a * m.newDataDisks % m.conf.prevChunkSectors = 0 :=
      mod_eq_zero_of_dvd (hdvd.mul_right _)
    rw [raid5ComputeSector_newSector hfirst, sectorT_row hlow]
    exact congrArg _ hzero
  · have hpred : ((a + m.reshapeSectors) * m.newDataDisks - 1) % m.conf.prevChunkSectors =
        m.conf.prevChunkSectors - 1 := by
      obtain ⟨k, hk⟩ : m.conf.prevChunkSectors ∣ (a + m.reshapeSectors) * m.newDataDisks :=
        (Nat.dvd_add hdvd hv.chunk_dvd.2).mul_right _
      have hpos : 0 < (a + m.reshapeSectors) * m.newDataDisks :=
        Nat.mul_pos (Nat.add_pos_right _ hv.reshapeSectors_pos) hv.newDataDisks_pos
      obtain ⟨j, rfl⟩ : ∃ j, k = j + 1 := exists_eq_succ_of_ne_zero (by rintro rfl; omega)
      have heq : (a + m.reshapeSectors) * m.newDataDisks - 1 =
          j * m.conf.prevChunkSectors + (m.conf.prevChunkSectors - 1) := by
        rw [hk, mul_succ, mul_comm j]
        omega
      rw [heq, mul_add_mod_of_lt (by omega)]
    rw [raid5ComputeSector_newSector hlast, sectorT_row (by omega)]
    exact congrArg _ hpred

/-- The old place of a block of the step is in a marked stripe. -/
theorem mem_sources
    {r : Nat} (hlow : a * m.newDataDisks ≤ r) (hhigh : r < (a + m.reshapeSectors) * m.newDataDisks)
    (h8 : stripeSectors ∣ r) (hold : r < m.oldSize) {t : Target}
    (ht : raid5ComputeSector m.conf r true = some t) : t.newSector ∈ m.sources a := by
  obtain ⟨first, last, hrange, hfirst, hlast⟩ := sourceRange_eq hv ha halt
  have hc : 0 < m.conf.prevChunkSectors := hv.old.chunk_pos
  have hs8 : stripeSectors ∣ m.conf.prevChunkSectors := hv.old.stripe_dvd
  have hfit : r < 2 ^ 64 := hhigh.trans (hv.new_lt halt)
  have hsector : t.newSector = r / m.conf.prevChunkSectors / m.dataDisks * m.conf.prevChunkSectors +
      r % m.conf.prevChunkSectors := by
    rw [raid5ComputeSector_newSector ht, sectorT_row hfit]
    rfl
  have hlt := lt_devSectors hv hold
  have hoff := mod_lt r hc
  -- rows are passed in order
  have hge : first ≤ t.newSector := by
    rw [hfirst, hsector]
    refine (mul_le_mul_right _ ?_).trans (le_add_right _ _)
    exact Nat.div_le_div_right (Nat.div_le_div_right hlow)
  have hle : t.newSector ≤ last := by
    rw [hlast, hsector]
    refine Nat.add_le_add (Nat.mul_le_mul_right _ ?_) (by omega)
    exact Nat.div_le_div_right (Nat.div_le_div_right (by omega))
  have hstep : stripeSectors ∣ t.newSector - first := by
    refine dvd_sub ?_ (hfirst ▸ hs8.mul_left _)
    rw [hsector]
    exact Nat.dvd_add (hs8.mul_left _) ((Nat.dvd_mod_iff hs8).mpr h8)
  obtain ⟨i, hi⟩ := hstep
  rw [sources, hrange]
  refine List.mem_map.mpr ⟨i, List.mem_range.mpr ?_, ?_⟩
  · rw [lt_div_iff_mul_lt (by decide)]
    unfold stripeSectors at *
    omega
  · unfold stripeSectors at *
    omega

end

end MdRaid.Reshape
