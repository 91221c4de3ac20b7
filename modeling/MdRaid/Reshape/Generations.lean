import MdRaid.Reshape.UserIo

/-!
# The geometry a request uses

A request that is past its check holds an old stripe that is ahead of the reshape as a
whole. Blocks are copied from old stripes of which some part has been passed, so none of
its blocks has been copied. A stripe with a reference is not taken for handling; so none will
be copied while the request holds it, unless it got the stripe when that was already taken and
not yet looked at. A request for a new stripe is behind what is recorded, and with
it all the stripe, since the reshape proceeds by whole rows.
-/

namespace MdRaid.Reshape

open MdRaid.Geometry List Mddev Request Runs Nat

variable {m : Mddev}

/-! ## Blocks of a stripe -/

theorem ahead_of_stripeAhead {s : Mddev.State} {o : Nat} (h : m.stripeAheadOfReshape s o = false)
    {b : Nat} (hb : b ∈ m.stripeBlocks o true) : m.aheadOfReshape b s.reshapeProgress := by
  have hmin : (m.stripeBlocks o true).foldl min maxSector ≤ b :=
    Loops.foldl_of_mem (I := fun _ => True) (P := (· ≤ b)) hb trivial (fun _ _ _ _ => trivial)
      (fun _ _ => min_le_right _ _) fun _ _ _ _ hle => (min_le_left _ _).trans hle
  have hmax : b ≤ (m.stripeBlocks o true).foldl max 0 :=
    Loops.foldl_of_mem (I := fun _ => True) (P := (b ≤ ·)) hb trivial (fun _ _ _ _ => trivial)
      (fun _ _ => le_max_right _ _) fun _ _ _ _ hle => hle.trans (le_max_left _ _)
  simp only [stripeAheadOfReshape, rangeAheadOfReshape, Bool.not_eq_false'] at h
  unfold aheadOfReshape
  split_ifs at h ⊢
  · exact decide_eq_true (hmax.trans_lt (of_decide_eq_true h))
  · exact decide_eq_true ((of_decide_eq_true h).trans hmin)

/-- A block is in one old stripe. -/
theorem place_of_oldBlock (hv : Valid m) {o b : Nat} (ho : o < m.devSectors)
    (hb : b ∈ m.stripeBlocks o true) :
    ∃ t, raid5ComputeSector m.conf b true = some t ∧ t.newSector = o := by
  obtain ⟨sh, hinit, i, hi, rfl⟩ := Traffic.mem_stripeBlocks.mp hb
  obtain ⟨sh', hinit', hdata⟩ := exists_oldBlock hv ho
  obtain rfl := Option.some.inj (hinit.symm.trans hinit')
  obtain ⟨r, -, hcomp, hblock⟩ := hdata i hi
  exact ⟨_, by rw [hblock]; exact hcomp, rfl⟩

theorem oldStripe_unique (hv : Valid m) {o o' b : Nat} (ho : o < m.devSectors)
    (ho' : o' < m.devSectors)
    (hb : b ∈ m.stripeBlocks o true) (hb' : b ∈ m.stripeBlocks o' true) : o = o' := by
  obtain ⟨t, ht, rfl⟩ := place_of_oldBlock hv ho hb
  obtain ⟨t', ht', rfl⟩ := place_of_oldBlock hv ho' hb'
  rw [Option.some.inj (ht.symm.trans ht')]

/-- Rows between the first and the last one have a chunk in the stretch. -/
theorem exists_chunk_of_row {k K d q : Nat} (hd : 0 < d) (hlt : k < K) (hfirst : k / d ≤ q)
    (hlast : q ≤ (K - 1) / d) : ∃ y, y / d = q ∧ k ≤ y ∧ y < K := by
  refine ⟨max k (q * d), ?_, le_max_left _ _, max_lt hlt ?_⟩
  · have hk : k < (q + 1) * d := (div_lt_iff_lt_mul hd).mp (lt_succ_of_le hfirst)
    rw [Nat.div_eq_iff hd]
    rw [succ_mul] at hk
    omega
  · have := (le_div_iff_mul_le hd).mp hlast
    omega

/-- A marked stripe has a block of the step. -/
theorem exists_block_of_source (hv : Valid m) {a o : Nat} (ha : m.reshapeSectors ∣ a)
    (halt : a < m.devSectors) (ho : o ∈ m.sources a) : ∃ b ∈ m.stripeBlocks o true,
      a * m.newDataDisks ≤ b ∧ b < (a + m.reshapeSectors) * m.newDataDisks := by
  obtain ⟨first, last, hrange, hfirst, hlast⟩ := sourceRange_eq hv ha halt
  have hc : 0 < m.conf.prevChunkSectors := hv.old.chunk_pos
  have hd := hv.dataDisks_pos
  have hnd := hv.newDataDisks_pos
  have hca : m.conf.prevChunkSectors ∣ a := hv.chunk_dvd.2.trans ha
  obtain ⟨k, hk⟩ : m.conf.prevChunkSectors ∣ a * m.newDataDisks := hca.mul_right _
  obtain ⟨K, hK⟩ : m.conf.prevChunkSectors ∣ (a + m.reshapeSectors) * m.newDataDisks :=
    (dvd_add hca hv.chunk_dvd.2).mul_right _
  have hhigh := hv.new_lt halt
  have hkK : k < K := by
    refine Nat.lt_of_mul_lt_mul_left (a := m.conf.prevChunkSectors) ?_
    rw [← hk, ← hK]
    exact Nat.mul_lt_mul_of_pos_right (Nat.lt_add_of_pos_right hv.reshapeSectors_pos) hnd
  have hbounds : first ≤ o ∧ o ≤ last := by
    rw [sources, hrange] at ho
    obtain ⟨i, hi, rfl⟩ := mem_map.mp ho
    rw [mem_range, lt_div_iff_mul_lt (by decide)] at hi
    unfold stripeSectors at *
    omega
  have hpred : (m.conf.prevChunkSectors * K - 1) / m.conf.prevChunkSectors = K - 1 := by
    obtain ⟨j, rfl⟩ := exists_eq_succ_of_ne_zero (ne_zero_of_lt hkK)
    rw [Nat.mul_succ, Nat.add_sub_assoc hc, mul_comm, mul_add_div_of_lt (by omega)]
    rfl
  rw [hfirst, hlast, hk, hK, Nat.mul_div_cancel_left _ hc, hpred] at hbounds
  obtain ⟨y, hy, hky, hyK⟩ := exists_chunk_of_row (q := o / m.conf.prevChunkSectors) hd hkK
    ((le_div_iff_mul_le hc).mpr hbounds.1)
    (Nat.lt_succ_iff.mp ((Nat.div_lt_iff_lt_mul hc).mpr (by rw [Nat.succ_mul]; omega)))
  have hoff := mod_lt o hc
  have hlt : y * m.conf.prevChunkSectors + o % m.conf.prevChunkSectors <
      (a + m.reshapeSectors) * m.newDataDisks := by
    have := mul_le_mul_left m.conf.prevChunkSectors hyK
    rw [mul_succ, mul_comm _ y] at this
    omega
  obtain ⟨t, sh, ht, hinit, -, hdd, hblock⟩ := exists_place hv.old (hlt.trans hhigh)
  have ho' : t.newSector = o := by
    rw [raid5ComputeSector_newSector ht, sectorT_row (hlt.trans hhigh)]
    change (y * m.conf.prevChunkSectors + o % m.conf.prevChunkSectors) / m.conf.prevChunkSectors /
      m.dataDisks * m.conf.prevChunkSectors +
        (y * m.conf.prevChunkSectors + o % m.conf.prevChunkSectors) % m.conf.prevChunkSectors = o
    rw [mul_add_div_of_lt hoff, mul_add_mod_of_lt hoff, hy, div_add_mod']
  refine ⟨_, Traffic.mem_stripeBlocks.mpr ⟨sh, ho' ▸ hinit, _, hdd, hblock⟩, ?_, hlt⟩
  rw [hk, mul_comm]
  exact (mul_le_mul_right _ hky).trans (le_add_right _ _)

/-! ## The old stripes a copy comes from -/

theorem not_ahead_of_behind {p q b : Nat} (hpq : Behind m p q) (hb : m.aheadOfReshape b p = false) :
    m.aheadOfReshape b q = false := by
  refine Bool.eq_false_iff.mpr fun hq => ?_
  rw [hpq.ahead hq] at hb
  cases hb

/-- The reshape has passed some part of the old stripe. -/
def Touched (m : Mddev) (s : Mddev.State) (o : Nat) : Prop :=
  o < m.devSectors ∧ ∃ b ∈ m.stripeBlocks o true, m.aheadOfReshape b s.reshapeProgress = false

theorem Touched.mono {s s' : Mddev.State} {o : Nat} (h : Touched m s o)
    (hle : Behind m s.reshapeProgress s'.reshapeProgress) : Touched m s' o := by
  obtain ⟨hlt, b, hb, hbehind⟩ := h
  exact ⟨hlt, b, hb, not_ahead_of_behind hle hbehind⟩

/-- What a step has scheduled comes to be behind it. -/
theorem not_ahead_schedule {s : Mddev.State} {a b : Nat} (hdue : Due m s a) (due : Bool) :
    m.aheadOfReshape b (m.schedule s a due).reshapeProgress = false ↔
      m.aheadOfReshape b s.reshapeProgress = false ∨
        a * m.newDataDisks ≤ b ∧ b < (a + m.reshapeSectors) * m.newDataDisks := by
  have hend := add_mul a m.reshapeSectors m.newDataDisks
  unfold aheadOfReshape schedule
  by_cases hb : m.reshapeBackwards
  · have hprog := hdue.backwards hb
    simp only [hb, if_true, decide_eq_false_iff_not]
    omega
  · have hprog := hdue.forward (Bool.eq_false_iff.mpr hb)
    simp only [hb, Bool.false_eq_true, if_false, decide_eq_false_iff_not]
    omega

theorem touched_source (hv : Valid m) {s : Mddev.State} {a o : Nat} (hdue : Due m s a) (due : Bool)
    (ho : o ∈ m.sources a) : Touched m (m.schedule s a due) o := by
  obtain ⟨b, hb, hin⟩ := exists_block_of_source hv hdue.aligned hdue.lt ho
  exact ⟨source_lt hv hdue.aligned hdue.lt ho, b, hb, (not_ahead_schedule hdue due).mpr (.inr hin)⟩

namespace Traffic

variable {arraySectors : Nat} {s s' : Traffic} {e : Event}

/-- Only stripes that are touched are marked, expanded and copied from. -/
structure Marked (m : Mddev) (s : Traffic) : Prop where
  toMark : ∀ o ∈ s.toMark, Touched m s.reshape o
  source : ∀ o ∈ s.expandSource, Touched m s.reshape o
  handling : ∀ o, (s.handling o).Expands → Touched m s.reshape o
  copied : ∀ b ∈ s.copied, ∃ o, b ∈ m.stripeBlocks o true ∧ Touched m s.reshape o

theorem Marked.mono (h : Marked m s) (hle : Behind m s.reshape.reshapeProgress
    s'.reshape.reshapeProgress)
    (hmark : s'.toMark = s.toMark) (hsource : s'.expandSource = s.expandSource)
    (hhandling : s'.handling = s.handling) (hcopied : s'.copied = s.copied) : Marked m s' where
  toMark o ho := (h.toMark o (hmark ▸ ho)).mono hle
  source o ho := (h.source o (hsource ▸ ho)).mono hle
  handling o ho := (h.handling o (hhandling ▸ ho)).mono hle
  copied b hb := by
    obtain ⟨o, hbo, ho⟩ := h.copied b (hcopied ▸ hb)
    exact ⟨o, hbo, ho.mono hle⟩

theorem Marked.change (h : Marked m s) (hv : Valid m) (ha : Aligned m s.reshape)
    (hc : Change m arraySectors s e s') : Marked m s' := by
  cases hc with
  | @reshape e r hs hprog _ =>
    have hle : Behind m s.reshape.reshapeProgress r.reshapeProgress := by
      rw [hprog]
      exact .refl _
    exact h.mono hle rfl rfl rfl rfl
  | @schedule addr hstage due _ =>
    have hdue := ha.due addr (by rw [hstage]; rfl)
    have hrest : Marked m { s with reshape := m.schedule s.reshape addr due } :=
      h.mono (behind_schedule _ _ _) rfl rfl rfl rfl
    exact { hrest with toMark := fun o ho => touched_source hv hdue due ho }
  | stripeDone _ => exact h.mono (.refl _) rfl rfl rfl rfl
  | newStripes _ _ => exact h.mono (.refl _) rfl rfl rfl rfl
  | @mark o rest hmark =>
    have hall := h.toMark
    rw [hmark] at hall
    refine ⟨fun o' ho => hall o' (mem_cons_of_mem o ho), fun o' ho => ?_, h.handling, h.copied⟩
    rcases mem_cons.mp ho with rfl | ho
    · exact hall o' mem_cons_self
    · exact h.source o' ho
  | locate => exact h.mono (.refl _) rfl rfl rfl rfl
  | move => exact h.mono (.refl _) rfl rfl rfl rfl
  | handle _ hsub _ hexp =>
    exact ⟨h.toMark, fun o ho => h.source o (hsub o ho),
      fun o ho => (hexp o ho).elim (h.handling o) fun hs => h.source o hs.2, h.copied⟩
  | @copy o i b hstage hb =>
    refine { h with copied := fun b' hb' => ?_ }
    rcases mem_cons.mp hb' with rfl | hb'
    · exact ⟨o, hb, h.handling o (.inr hstage)⟩
    · exact h.copied b' hb'
  | same => exact h

/-! ## Requests for old stripes -/

/-- No request gets an old stripe that is taken for handling and not yet looked at; the reshape
goes on only once the superblock is on the disks. -/
def Undisturbed (s : Traffic) : Event → Prop
  | .reshape e => SuperWritten s.reshape e
  | .getStripe i => ∀ q ∈ s.requests[i]?, q.previous = true → s.handling q.newSector ≠ .taken
  | _ => True

instance (s : Traffic) (e : Event) : Decidable (Undisturbed s e) := by
  unfold Undisturbed
  split <;> infer_instance

/-- A stripe that is held is not about to be looked at, and from one with a request past its check
no block has been copied, or will be. -/
structure OldIntact (m : Mddev) (s : Traffic) : Prop where
  held : ∀ q ∈ s.requests, q.previous = true → q.holds = true → s.handling q.newSector ≠ .taken
  past : ∀ q ∈ s.requests, q.previous = true → q.isPast = true →
    ¬ (s.handling q.newSector).Expands
  place : ∀ q ∈ s.requests, q.previous = true → q.newSector < m.devSectors
  copied : ∀ q ∈ s.requests, q.previous = true → q.isPast = true →
    ∀ b ∈ m.stripeBlocks q.newSector true, b ∉ s.copied

theorem mem_moveTo {i : Nat} {q q' : Request} {stage : RequestStage} (hq : s.requests[i]? = some q)
    (hq' : q' ∈ (s.moveTo i q stage).requests) :
    q' ∈ s.requests ∨ (q ∈ s.requests ∧ q' = { q with stage := stage }) := by
  rcases mem_or_eq_of_mem_set hq' with hmem | rfl
  · exact .inl hmem
  · exact .inr ⟨mem_of_getElem? hq, rfl⟩

/-- A request that is past its check after a move was so before, or has just passed it. -/
theorem Moves.isPast {q : Request} {stage : RequestStage} (h : Moves m s q stage)
    (hpast : isPast { q with stage := stage } = true) : q.isPast ∨
      (q.previous → m.stripeAheadOfReshape s.reshape q.newSector = false) := by
  cases h with
  | got => cases hpast
  | passed _ hahead => exact .inr hahead
  | ready hstage => exact .inl (by simp [Request.isPast, Request.holds, hstage])
  | attached hstage => exact .inl (by simp [Request.isPast, Request.holds, hstage])
  | _ => cases hpast

theorem Moves.holds {q : Request} {stage : RequestStage} (h : Moves m s q stage)
    (hholds : holds { q with stage := stage } = true) : q.holds = true ∨ stage = .got := by
  cases h with
  | got => exact .inr rfl
  | passed hstage | ready hstage | attached hstage => exact .inl (by simp [Request.holds, hstage])
  | _ => cases hholds

/-- A stripe that is ahead is not expanded. -/
theorem Marked.not_expands (h : Marked m s) {o : Nat}
    (hahead : m.stripeAheadOfReshape s.reshape o = false) : ¬ (s.handling o).Expands := by
  intro he
  obtain ⟨-, b, hb, hbehind⟩ := h.handling o he
  rw [ahead_of_stripeAhead hahead hb] at hbehind
  cases hbehind

/-- Nothing of a stripe that is ahead has been copied. -/
theorem Marked.not_copied (h : Marked m s) (hv : Valid m) {o : Nat} (ho : o < m.devSectors)
    (hahead : m.stripeAheadOfReshape s.reshape o = false) {b : Nat}
    (hb : b ∈ m.stripeBlocks o true) :
    b ∉ s.copied := by
  intro hcopied
  obtain ⟨o', hb', hlt, x, hx, hbehind⟩ := h.copied b hcopied
  obtain rfl := oldStripe_unique hv ho hlt hb hb'
  rw [ahead_of_stripeAhead hahead hx] at hbehind
  cases hbehind

theorem OldIntact.change (h : OldIntact m s) (hv : Valid m) (hm : Marked m s)
    (hsize : arraySectors ≤ m.oldSize) (hcond : Undisturbed s e)
    (hc : Change m arraySectors s e s') :
    OldIntact m s' := by
  cases hc with
  | reshape | schedule | stripeDone | newStripes | mark | same =>
    exact ⟨h.held, h.past, h.place, h.copied⟩
  | handle _ _ htaken hexp =>
    refine ⟨fun q hq hprev hholds ht => ?_, fun q hq hprev hpast he => ?_, h.place, h.copied⟩
    · refine (htaken _ ht).elim (h.held q hq hprev hholds) fun hfree => ?_
      have hnone := all_eq_true.mp (Bool.and_eq_true_iff.mp hfree).2 q hq
      simp [hprev, hholds] at hnone
    · have hholds : q.holds = true := (Bool.and_eq_true_iff.mp hpast).1
      exact (hexp _ he).elim (h.past q hq hprev hpast) fun hs => h.held q hq hprev hholds hs.1
  | @locate q hstage _ hlt hlast t ht hsector _ _ =>
    refine ⟨fun q' hq' => ?_, fun q' hq' => ?_, fun q' hq' => ?_, fun q' hq' => ?_⟩
    · rcases mem_append.mp hq' with hq' | hq'
      · exact h.held q' hq'
      · obtain rfl := mem_singleton.mp hq'
        intro _ hholds
        simp [holds, hstage] at hholds
    · rcases mem_append.mp hq' with hq' | hq'
      · exact h.past q' hq'
      · obtain rfl := mem_singleton.mp hq'
        intro _ hpast
        simp [isPast, holds, hstage] at hpast
    · rcases mem_append.mp hq' with hq' | hq'
      · exact h.place q' hq'
      · obtain rfl := mem_singleton.mp hq'
        intro hprev
        have hold : q'.logicalSector < m.oldSize := by omega
        have hfit : q'.logicalSector < 2 ^ 64 := hold.trans hv.old_lt
        rw [hsector, raid5ComputeSector_newSector (hprev ▸ ht), sectorT_row hfit]
        exact lt_devSectors hv hold
    · rcases mem_append.mp hq' with hq' | hq'
      · exact h.copied q' hq'
      · obtain rfl := mem_singleton.mp hq'
        intro _ hpast
        simp [isPast, holds, hstage] at hpast
  | @move i q hq stage hmove _ _ hget =>
    refine ⟨fun q' hq' hprev hholds => ?_, fun q' hq' hprev hpast => ?_, fun q' hq' hprev => ?_,
      fun q' hq' hprev hpast b hb => ?_⟩
    · rcases mem_moveTo hq hq' with hmem | ⟨hmem, rfl⟩
      · exact h.held q' hmem hprev hholds
      · rcases hmove.holds hholds with hheld | hgot
        · exact h.held q hmem hprev hheld
        · obtain rfl := hget hgot
          exact hcond q hq hprev
    · rcases mem_moveTo hq hq' with hmem | ⟨hmem, rfl⟩
      · exact h.past q' hmem hprev hpast
      · rcases hmove.isPast hpast with hpast | hahead
        · exact h.past q hmem hprev hpast
        · exact hm.not_expands (hahead hprev)
    · rcases mem_moveTo hq hq' with hmem | ⟨hmem, rfl⟩
      · exact h.place q' hmem hprev
      · exact h.place q hmem hprev
    · rcases mem_moveTo hq hq' with hmem | ⟨hmem, rfl⟩
      · exact h.copied q' hmem hprev hpast b hb
      · rcases hmove.isPast hpast with hpast | hahead
        · exact h.copied q hmem hprev hpast b hb
        · exact hm.not_copied hv (h.place q hmem hprev) (hahead hprev) hb
  | @copy o i b hstage hb =>
    refine ⟨h.held, h.past, h.place, fun q hq hprev hpast b' hb' hmem =>
      (mem_cons.mp hmem).elim ?_ (h.copied q hq hprev hpast b' hb')⟩
    -- the block is of the stripe being copied, which this request does not hold
    rintro rfl
    have hsame := oldStripe_unique hv (h.place q hq hprev) (hm.handling o (.inr hstage)).1 hb' hb
    exact h.past q hq hprev hpast (hsame ▸ .inr hstage)

end Traffic

/-! ## Whole rows -/

/-- The position is between two steps. -/
def OnRow (m : Mddev) (p : Nat) : Prop :=
  m.reshapeSectors * m.newDataDisks ∣ p ∨ (m.reshapeBackwards = true ∧ p = m.raid5Size)

structure OnRows (m : Mddev) (s : Mddev.State) : Prop where
  position : OnRow m s.reshapePosition
  safe : OnRow m s.reshapeSafe

theorem Aligned.onRow {s : Mddev.State} (h : Aligned m s) : OnRow m s.reshapeProgress :=
  h.progress.imp_right fun hstuck => ⟨hstuck.1, hstuck.2.1⟩

theorem onRows_starts {s : Mddev.State} (hs : m.Starts s) : OnRows m s := by
  have hrow := (aligned_starts hs).onRow
  cases hs with
  | start => exact ⟨hrow, hrow⟩
  | resumed h =>
    obtain ⟨-, rfl⟩ := of_guard h
    exact ⟨hrow, hrow⟩

theorem OnRows.change {s s' : Mddev.State} {e : Mddev.Event} (h : OnRows m s) (ha : Aligned m s)
    (hc : m.Change s e s') : OnRows m s' := by
  cases hc with
  | record => exact ⟨ha.onRow, h.safe⟩
  | recorded => exact ⟨h.position, h.position⟩
  | skip | wait | ready | schedule | restart | superStart | superDone | stripeDone =>
    exact ⟨h.position, h.safe⟩

/-- The recorded position only moves on. -/
theorem Recorded.safe_behind {s s' : Mddev.State} {e : Mddev.Event} (h : Recorded m s)
    (hc : m.Change s e s') : Behind m s.reshapeSafe s'.reshapeSafe := by
  cases hc with
  | recorded => exact h.safe.trans h.disks
  | skip | wait | ready | record | schedule | restart | superStart | superDone | stripeDone =>
    exact .refl _

/-- Blocks of the same new stripe are on the same side of a position between two steps. -/
theorem not_ahead_of_row (hv : Valid m) {a r b p : Nat} (ha : m.reshapeSectors ∣ a)
    (hp : m.reshapeSectors * m.newDataDisks ∣ p) (hrlow : a * m.newDataDisks ≤ r)
    (hrhigh : r < (a + m.reshapeSectors) * m.newDataDisks) (hblow : a * m.newDataDisks ≤ b)
    (hbhigh : b < (a + m.reshapeSectors) * m.newDataDisks) (hr : m.aheadOfReshape r p = false) :
    m.aheadOfReshape b p = false := by
  obtain ⟨k, rfl⟩ := ha
  obtain ⟨j, rfl⟩ := hp
  have hrow : ∀ i, m.reshapeSectors * i * m.newDataDisks = m.reshapeSectors * m.newDataDisks * i :=
    fun i => by ring
  have hpos : 0 < m.reshapeSectors * m.newDataDisks :=
    mul_pos hv.reshapeSectors_pos hv.newDataDisks_pos
  rw [← mul_succ, hrow] at hrhigh hbhigh
  rw [hrow] at hrlow hblow
  unfold aheadOfReshape at hr ⊢
  split_ifs at hr ⊢
  · rw [decide_eq_false_iff_not, not_lt] at hr ⊢
    have hjk : j ≤ k := Nat.lt_succ_iff.mp (Nat.lt_of_mul_lt_mul_left (hr.trans_lt hrhigh))
    exact (mul_le_mul_left _ hjk).trans hblow
  · rw [decide_eq_false_iff_not, ge_iff_le, not_le] at hr ⊢
    have hkj : k < j := Nat.lt_of_mul_lt_mul_left (hrlow.trans_lt hr)
    exact hbhigh.trans_le (mul_le_mul_left _ hkj)

/-! ## The array -/

/-- `raid5_size` for the new number of disks -/
def Mddev.newSize (m : Mddev) : Nat :=
  roundDown (roundDown m.devSectors m.conf.chunkSectors) m.conf.prevChunkSectors *
    m.newDataDisks

/-- The array fits both geometries, and going backwards the number of disks does not grow. -/
structure Fits (m : Mddev) (arraySectors : Nat) : Prop where
  old : arraySectors ≤ m.oldSize
  new : arraySectors ≤ m.newSize
  shrinks : m.reshapeBackwards = true → m.newDataDisks ≤ m.dataDisks

theorem Valid.newSize_eq (hv : Valid m) :
    m.newSize = roundDown m.devSectors m.reshapeSectors * m.newDataDisks := by
  rw [newSize, hv.roundDown_chunks]

theorem Fits.le_raid5Size {arraySectors : Nat} (h : Fits m arraySectors) (hv : Valid m)
    (hb : m.reshapeBackwards) : arraySectors ≤ m.raid5Size := by
  refine h.new.trans_eq ?_
  rw [hv.newSize_eq, hv.raid5Size_eq, min_eq_left (h.shrinks hb)]

theorem Fits.lt_two_pow {arraySectors r : Nat} (h : Fits m arraySectors) (hv : Valid m)
    (hr : r < arraySectors) : r < 2 ^ 64 := (hr.trans_le h.old).trans hv.old_lt

/-- The stretch of the step a block belongs to. -/
theorem exists_step_of_block (hv : Valid m) {arraySectors r : Nat} (hfits : Fits m arraySectors)
    (hr : r < arraySectors) (h8 : stripeSectors ∣ r) {t : Target}
    (ht : raid5ComputeSector m.conf r false = some t) :
    t.newSector < roundDown m.devSectors m.reshapeSectors ∧
      ∃ a, m.reshapeSectors ∣ a ∧ t.newSector ∈ m.newStripes a := by
  have hc : 0 < m.conf.chunkSectors := hv.new.chunk_pos
  have hs8 : stripeSectors ∣ m.conf.chunkSectors := hv.new.stripe_dvd
  have hsector : t.newSector = r / m.conf.chunkSectors / m.newDataDisks * m.conf.chunkSectors +
      r % m.conf.chunkSectors := by
    rw [raid5ComputeSector_newSector ht, sectorT_row (hfits.lt_two_pow hv hr)]
    rfl
  have h8' : stripeSectors ∣ t.newSector := by
    rw [hsector]
    exact dvd_add (hs8.mul_left _) ((dvd_mod_iff hs8).mpr h8)
  constructor
  · rw [hsector]
    exact row_lt hc hv.newDataDisks_pos (hv.chunk_dvd.1.trans (dvd_roundDown _ _))
      (hr.trans_le (hv.newSize_eq ▸ hfits.new))
  · refine ⟨t.newSector / m.reshapeSectors * m.reshapeSectors, dvd_mul_left _ _,
      (mem_newStripes hv).mpr ?_⟩
    refine ⟨div_mul_le_self _ _, lt_div_mul_add hv.reshapeSectors_pos, dvd_sub h8' ?_⟩
    exact (hs8.trans hv.chunk_dvd.1).mul_left _

/-- Where a block of a new stripe is. -/
theorem place_of_newBlock (hv : Valid m) {sector b : Nat}
    (hs : sector < roundDown m.devSectors m.reshapeSectors) (hb : b ∈ m.stripeBlocks sector false) :
    b < 2 ^ 64 ∧ ∃ t, raid5ComputeSector m.conf b false = some t ∧ t.newSector = sector := by
  obtain ⟨sh, hinit, i, hi, rfl⟩ := Traffic.mem_stripeBlocks.mp hb
  have hsize : roundDown m.devSectors m.reshapeSectors * m.conf.dataDisks false < 2 ^ 64 :=
    (Nat.mul_le_mul ((roundDown_le _ _).trans (Nat.le_add_right _ _))
    (le_max_right _ _)).trans_lt hv.fits
  obtain ⟨sh', hinit', hdata⟩ :=
    exists_block hv.new (hv.chunk_dvd.1.trans (dvd_roundDown m.devSectors _)) hsize hs
  obtain rfl := Option.some.inj (hinit.symm.trans hinit')
  obtain ⟨r, hr, hcomp, hblock⟩ := hdata i hi
  rw [hblock]
  exact ⟨hr.trans hsize, _, hcomp, rfl⟩

namespace Traffic

variable {arraySectors : Nat} {s s' : Traffic} {e : Event}

/-! ## Requests for new stripes -/

/-- A reshape just started, or one to be continued, where what is behind the position has been
written. -/
inductive Starts (m : Mddev) (arraySectors : Nat) : Traffic → Prop
  | start : Starts m arraySectors ⟨m.startReshape, [], [], [], [], [], fun _ => .idle, [], [], []⟩
  | resumed {position : Nat} {ro : Bool} {r : Mddev.State} {written : List Nat}
      (h : m.continueReshape position ro = some r)
      (hwritten : ∀ b < arraySectors, stripeSectors ∣ b → m.aheadOfReshape b position = false →
        ∀ t, raid5ComputeSector m.conf b false = some t → t.newSector ∈ written) :
      Starts m arraySectors ⟨r, [], [], [], [], [], fun _ => .idle, [], written, []⟩

theorem Starts.reshape (h : Starts m arraySectors s) : m.Starts s.reshape := by
  cases h with
  | start => exact .start
  | resumed h _ => exact .resumed h

/-- What is behind the progress is written, or about to be; what is behind the position for the
superblock is written. -/
structure Behinds (m : Mddev) (arraySectors : Nat) (s : Traffic) : Prop where
  progress : ∀ b < arraySectors, stripeSectors ∣ b →
    m.aheadOfReshape b s.reshape.reshapeProgress = false →
      ∀ t, raid5ComputeSector m.conf b false = some t →
        t.newSector ∈ s.written ∨ t.newSector ∈ s.reshape.reshapeStripes
  position : ∀ b < arraySectors, stripeSectors ∣ b →
    m.aheadOfReshape b s.reshape.reshapePosition = false →
      ∀ t, raid5ComputeSector m.conf b false = some t → t.newSector ∈ s.written
  /-- Requests for new stripes are behind what is recorded. -/
  requests : ∀ q ∈ s.requests, q.previous = false →
    q.logicalSector < q.lastSector ∧ q.lastSector ≤ arraySectors ∧ stripeSectors ∣ q.logicalSector ∧
      m.aheadOfReshape q.logicalSector s.reshape.reshapeSafe = false ∧
      ∃ t, raid5ComputeSector m.conf q.logicalSector false = some t ∧ q.newSector = t.newSector

theorem behinds_starts (hv : Valid m) (hfits : Fits m arraySectors) (hs : Starts m arraySectors s) :
    Behinds m arraySectors s := by
  cases hs with
  | start =>
    -- the whole array is ahead
    have hahead : ∀ b < arraySectors, m.aheadOfReshape b m.startReshape.reshapeProgress := by
      intro b hb
      unfold aheadOfReshape startReshape
      split_ifs with hback
      · exact decide_eq_true (hb.trans_le (hfits.le_raid5Size hv hback))
      · exact decide_eq_true (zero_le b)
    refine ⟨fun b hb _ hbehind => ?_, fun b hb _ hbehind => ?_, by simp⟩
    · cases (hahead b hb).symm.trans hbehind
    · cases (hahead b hb).symm.trans hbehind
  | resumed h hwritten =>
    obtain ⟨-, rfl⟩ := of_guard h
    exact ⟨fun b hb h8 hbehind t ht => .inl (hwritten b hb h8 hbehind t ht), hwritten, by simp⟩

section

variable (h : Behinds m arraySectors s)
include h

/-- A step of the reshape that leaves the progress and the stripes alone. -/
theorem Behinds.reshape (hrec : Recorded m s.reshape) {e : Mddev.Event}
    {r : Mddev.State} (hs : m.Change s.reshape e r)
    (hprog : r.reshapeProgress = s.reshape.reshapeProgress)
    (hstripes : r.reshapeStripes = s.reshape.reshapeStripes) :
    Behinds m arraySectors { s with reshape := r } := by
  refine ⟨?_, fun b hb h8 hbehind t ht => ?_, fun q hq hnew => ?_⟩
  · simpa only [hprog, hstripes] using h.progress
  · cases hs with
    | record _ hdone =>
      have hor := h.progress b hb h8 hbehind t ht
      rw [hdone] at hor
      exact hor.resolve_right not_mem_nil
    | skip | wait | ready | recorded | schedule | restart | superStart | superDone | stripeDone =>
      exact h.position b hb h8 hbehind t ht
  · obtain ⟨hlt, hlast, h8, hsafe, ht⟩ := h.requests q hq hnew
    exact ⟨hlt, hlast, h8, not_ahead_of_behind (hrec.safe_behind hs) hsafe, ht⟩

/-- What a step schedules is about to be written. -/
theorem Behinds.schedule (hv : Valid m) {a : Nat}
    (hdue : Due m s.reshape a) (due : Bool) (toMark : List Nat) :
    Behinds m arraySectors { s with reshape := m.schedule s.reshape a due, toMark := toMark } := by
  refine ⟨fun b hb h8 hbehind t ht => ?_, h.position, h.requests⟩
  rcases (not_ahead_schedule hdue due).mp hbehind with hold | ⟨hlow, hhigh⟩
  · exact (h.progress b hb h8 hold t ht).imp_right fun hmem => mem_append.mpr (.inl hmem)
  · refine .inr (mem_append.mpr (.inr ?_))
    exact newStripe_of_block hv hdue.aligned hdue.lt hlow hhigh h8 ht

theorem Behinds.change (hv : Valid m) (ha : Aligned m s.reshape)
    (hrec : Recorded m s.reshape) (hc : Change m arraySectors s e s') :
    Behinds m arraySectors s' := by
  cases hc with
  | reshape hs hprog hstripes => exact h.reshape hrec hs hprog hstripes
  | @schedule addr hstage due _ => exact h.schedule hv (ha.due addr (by rw [hstage]; rfl)) due _
  | @stripeDone sector _ =>
    refine ⟨fun b hb h8 hbehind t ht => ?_,
      fun b hb h8 hbehind t ht => mem_cons_of_mem _ (h.position b hb h8 hbehind t ht), h.requests⟩
    by_cases heq : t.newSector = sector
    · exact .inl (heq ▸ mem_cons_self)
    · exact (h.progress b hb h8 hbehind t ht).imp (mem_cons_of_mem _)
        fun hmem => (mem_erase_of_ne heq).mpr hmem
  | newStripes | mark | handle | copy | same => exact ⟨h.progress, h.position, h.requests⟩
  | @locate q _ h8 hlt hlast t ht hsector hloc _ =>
    refine ⟨h.progress, h.position, fun q' hq' hnew => ?_⟩
    rcases mem_append.mp hq' with hq' | hq'
    · exact h.requests q' hq' hnew
    · obtain rfl := mem_singleton.mp hq'
      exact ⟨hlt, hlast, h8, hloc hnew, t, hnew ▸ ht, hsector⟩
  | @move i q hq stage _ _ _ =>
    refine ⟨h.progress, h.position, fun q' hq' hnew => ?_⟩
    rcases mem_moveTo hq hq' with hmem | ⟨hmem, rfl⟩
    · exact h.requests q' hmem hnew
    · exact h.requests q hmem hnew

end

/-! ## Runs -/

structure Invariant (m : Mddev) (arraySectors : Nat) (s : Traffic) : Prop where
  aligned : Aligned m s.reshape
  recorded : Recorded m s.reshape
  rows : OnRows m s.reshape
  marked : Marked m s
  old : OldIntact m s
  new : Behinds m arraySectors s

/-- The reshape of a step that is not one of the reshape stays as it is. -/
theorem Change.reshape_eq (hc : Change m arraySectors s e s') :
    s'.reshape = s.reshape ∨ ∃ e', e = .reshape e' ∧ m.Change s.reshape e' s'.reshape := by
  cases hc with
  | reshape hs _ _ => exact .inr ⟨_, rfl, hs⟩
  | schedule hstage due _ => exact .inr ⟨_, rfl, .schedule hstage due⟩
  | stripeDone hmem => exact .inr ⟨_, rfl, .stripeDone hmem⟩
  | newStripes | mark | locate | move | handle | copy | same => exact .inl rfl

theorem invariant_starts (hv : Valid m) (hfits : Fits m arraySectors)
    (hs : Starts m arraySectors s) :
    Invariant m arraySectors s := by
  have hidle : s.toMark = [] ∧ s.expandSource = [] ∧ (∀ o, s.handling o = .idle) ∧ s.copied = [] ∧
      s.requests = [] := by
    cases hs <;> exact ⟨rfl, rfl, fun _ => rfl, rfl, rfl⟩
  obtain ⟨hmark, hsource, hhandling, hcopied, hrequests⟩ := hidle
  refine ⟨aligned_starts hs.reshape, recorded_starts hs.reshape, onRows_starts hs.reshape, ?_, ?_,
    behinds_starts hv hfits hs⟩
  · refine ⟨by rw [hmark]; simp, by rw [hsource]; simp, fun o ho => ?_,
      by rw [hcopied]; simp⟩
    rw [hhandling] at ho
    exact ho.elim (by simp) (by simp)
  · constructor <;> rw [hrequests] <;> simp

theorem Invariant.step (h : Invariant m arraySectors s) (hv : Valid m) (hfits : Fits m arraySectors)
    (hcond : Undisturbed s e) (hc : Change m arraySectors s e s') :
    Invariant m arraySectors s' := by
  have hreshape : Aligned m s'.reshape ∧ Recorded m s'.reshape ∧ OnRows m s'.reshape := by
    rcases hc.reshape_eq with heq | ⟨e', rfl, hs⟩
    · rw [heq]
      exact ⟨h.aligned, h.recorded, h.rows⟩
    · exact ⟨h.aligned.change hv hs, h.recorded.change hcond hs, h.rows.change h.aligned hs⟩
  exact ⟨hreshape.1, hreshape.2.1, hreshape.2.2, h.marked.change hv h.aligned hc,
    h.old.change hv h.marked hfits.old hcond hc, h.new.change hv h.aligned h.recorded hc⟩

theorem invariant_run {es : List Event} (hv : Valid m) (hfits : Fits m arraySectors)
    (hs : Starts m arraySectors s) (halong : Runs.Along (step m arraySectors) Undisturbed s es)
    (hrun : run (step m arraySectors) s es = some s') : Invariant m arraySectors s' :=
  run_preserves (fun _ _ _ h hcond hstep => h.step hv hfits hcond (step_change hstep))
    (invariant_starts hv hfits hs) halong hrun

/-- What a request for a new stripe attaches to is behind what is recorded. -/
theorem Invariant.behind (h : Invariant m arraySectors s) (hv : Valid m)
    (hfits : Fits m arraySectors)
    {q : Request} (hq : q ∈ s.requests) (hnew : q.previous = false) {b : Nat}
    (hb : b ∈ q.blocks m) :
    b < arraySectors ∧ stripeSectors ∣ b ∧ m.aheadOfReshape b s.reshape.reshapeSafe = false ∧
      ∃ t, raid5ComputeSector m.conf b false = some t := by
  obtain ⟨hlt, hlast, h8, hsafe, t, ht, hsector⟩ := h.new.requests q hq hnew
  obtain ⟨hmem, hrange⟩ := mem_filter.mp hb
  rw [hnew, hsector] at hmem
  rw [Bool.and_eq_true, decide_eq_true_eq, decide_eq_true_eq] at hrange
  have hr : q.logicalSector < arraySectors := hlt.trans_le hlast
  obtain ⟨hdev, a, ha, hstripe⟩ := exists_step_of_block hv hfits hr h8 ht
  obtain ⟨hfit, t', ht', hsame⟩ := place_of_newBlock hv hdev hmem
  obtain ⟨hrlow, hrhigh, -⟩ := block_of_newStripe hv ha (hfits.lt_two_pow hv hr) hstripe ht rfl
  obtain ⟨hblow, hbhigh, hb8⟩ := block_of_newStripe hv ha hfit hstripe ht' hsame
  refine ⟨hrange.2.trans_le hlast, hb8, ?_, t', ht'⟩
  rcases h.rows.safe with hrow | ⟨hback, hstuck⟩
  · exact not_ahead_of_row hv ha hrow hrlow hrhigh hblow hbhigh hsafe
  · -- nothing is behind the start of a reshape that goes backwards
    have hle := hfits.le_raid5Size hv hback
    simp only [aheadOfReshape, hback, if_true, decide_eq_false_iff_not] at hsafe
    omega

/-- **Requests use the geometry where the data is.** In every run in which no request gets an old
stripe between its being taken for handling and `analyse_stripe`, and the reshape goes on only once
the superblock is on the disks: as long as a request holds an old stripe it has attached a bio to,
the blocks have not been
copied; and when a bio is attached to a new stripe, its blocks have been written there and are
behind the position on the disks. -/
theorem requests_follow_reshape (m : Mddev) (hv : Valid m) (arraySectors : Nat)
    (hfits : Fits m arraySectors) (s s' : Traffic) (hstart : Starts m arraySectors s)
    (es : List Event)
    (halong : Runs.Along (step m arraySectors) Undisturbed s es)
    (hrun : run (step m arraySectors) s es = some s') :
    (∀ q ∈ s'.requests, q.previous = true → q.stage = .attached → ∀ b ∈ q.blocks m, b ∉ s'.copied) ∧
    ∀ i s'', step m arraySectors s' (.attach i) = some s'' →
      ∀ q, s'.requests[i]? = some q → q.previous = false → ∀ b ∈ q.blocks m,
        (∃ t, raid5ComputeSector m.conf b false = some t ∧ t.newSector ∈ s'.written) ∧
          m.aheadOfReshape b s'.reshape.sbPosition = false := by
  have hinv := invariant_run hv hfits hstart halong hrun
  refine ⟨fun q hq hprev hstage b hb => ?_, fun i s'' _ q hq hnew b hb => ?_⟩
  · have hpast : q.isPast = true := by simp [isPast, holds, hstage]
    exact hinv.old.copied q hq hprev hpast b (hprev ▸ (mem_filter.mp hb).1)
  · obtain ⟨hlt, h8, hsafe, t, ht⟩ := hinv.behind hv hfits (mem_of_getElem? hq) hnew hb
    have hdisks := not_ahead_of_behind hinv.recorded.safe hsafe
    have hposition := not_ahead_of_behind hinv.recorded.disks hdisks
    exact ⟨⟨t, ht, hinv.new.position b hlt h8 hposition t ht⟩, hdisks⟩

/-- Three disks to which a fourth is added. -/
def growing : Mddev :=
  ⟨⟨.raid5, 2, 2, 8, 8, 4, 3⟩, 16, false, 0, fun _ => 2048, fun _ => 2048⟩

def growingStart : Traffic :=
  ⟨growing.startReshape, [], [], [], [], [], fun _ => .idle, [], [], []⟩

/-- The first step: its stripe is filled from two old ones and written. -/
def growingStep : List Event :=
  [.reshape (.enter false false), .setExpanding 0, .reshape (.schedule true), .mark, .mark,
    .releaseNew 0,
    .take 0, .analyse 0, .expansion 0, .copy 0 0, .copy 0 1, .finish 0,
    .take 8, .analyse 8, .expansion 8, .copy 8 0, .copy 8 2, .finish 8,
    .writeOut 0, .reshape (.stripeDone 0), .reshape .stripesDone, .reshape .superStart]

def readFirst : List Event := [.locate 0 8 0, .getStripe 0, .checkAhead 0, .checkExpanding 0]

theorem growing_valid : Valid growing :=
  ⟨⟨rfl, by decide⟩, ⟨rfl, by decide⟩, by decide, by decide⟩

theorem requests_follow_reshape_growing : ∃ s, run (step growing 32) growingStart
        (growingStep ++ [.reshape .superDone, .reshape .superSeen] ++ readFirst) = some s ∧
      ∃ s' q, step growing 32 s (.attach 0) = some s' ∧ s.requests[0]? = some q ∧
        q.previous = false ∧
        0 ∈ q.blocks growing ∧ growing.aheadOfReshape 0 s.reshape.sbPosition = false := by
  refine ⟨_, rfl, _, _, rfl, rfl, rfl, by decide, ?_⟩
  exact ((requests_follow_reshape growing growing_valid 32 ⟨by decide, by decide, by rintro ⟨⟩⟩
    growingStart _ .start
    (growingStep ++ [.reshape .superDone, .reshape .superSeen] ++ readFirst) (by decide) rfl).2
    0 _ rfl _ rfl rfl 0 (by decide)).2

/-- A stripe is taken for handling after a write of all of it. Then a request gets it and passes its
check, the reshape moves on and marks the stripe, and its blocks are copied before the bio is
attached. And a request for a new stripe is served before the superblock is on the disks, since
`reshape_request` has waited for a flag only. -/
theorem growing_requests_race : (∃ s, run (step growing 32) growingStart
        [.locate 0 16 0, .getStripe 0, .checkAhead 0, .checkExpanding 0, .attach 0, .release 0,
          .take 0, .analyse 0, .finish 0, .endIo 0, .take 0,
          .locate 0 8 0, .getStripe 1, .checkAhead 1,
          .reshape (.enter false false), .setExpanding 0, .reshape (.schedule false), .mark,
          .analyse 0, .expansion 0, .copy 0 0, .checkExpanding 1, .attach 1] = some s ∧
      ∃ q ∈ s.requests, q.previous = true ∧ q.stage = .attached ∧ 0 ∈ q.blocks growing ∧
        0 ∈ s.copied) ∧
    ∃ s, run (step growing 32) growingStart (growingStep ++ [.reshape .superSeen] ++ readFirst) =
        some s ∧
      ∃ s' q, step growing 32 s (.attach 0) = some s' ∧ s.requests[0]? = some q ∧
        q.previous = false ∧
        0 ∈ q.blocks growing ∧ growing.aheadOfReshape 0 s.reshape.sbPosition = true := by
  refine ⟨⟨_, rfl, _, mem_cons_of_mem _ mem_cons_self, rfl, rfl, by decide, by decide⟩, ?_⟩
  exact ⟨_, rfl, _, _, rfl, rfl, rfl, by decide, by decide⟩

end Traffic

end MdRaid.Reshape
