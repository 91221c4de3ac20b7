import MdRaid.Resync.DoSync

/-!
# What one call of `raid5_sync_request` submits

A call that skips leaves everything as it was. A call that does not skip submits a run of
stripes from the cursor on, starts the sync of every chunk they lie in, and leaves the
counters of all other chunks from the cursor on alone.
-/

namespace MdRaid.Resync

/-! ## Stripes and chunks -/

/-- The next stripe lies in the same chunk or begins one. -/
theorem next_stripe {c w : Nat} (hc : stripeSectors ∣ c) (hpos : 0 < c)
    (hw : stripeSectors ∣ w) : (w + stripeSectors) / c = w / c ∨ c ∣ w + stripeSectors := by
  obtain ⟨d, rfl⟩ := hc
  obtain ⟨a, rfl⟩ := hw
  have h8 : 0 < stripeSectors := by decide
  rw [← Nat.mul_succ, Nat.mul_div_mul_left _ _ h8, Nat.mul_div_mul_left _ _ h8, Nat.succ_div]
  by_cases hd : d ∣ a + 1
  · exact .inr (mul_dvd_mul_left _ hd)
  · rw [if_neg hd, add_zero]
    exact .inl rfl

/-- A stripe between two others is a whole number of stripes behind the first. -/
theorem exists_stripe {j w : Nat} {n : Nat} (hj : stripeSectors ∣ j) (hw : stripeSectors ∣ w)
    (hle : j ≤ w) (hlt : w < j + n * stripeSectors) : ∃ i < n, w = j + i * stripeSectors := by
  obtain ⟨i, hi⟩ := Nat.dvd_sub hw hj
  simp only [stripeSectors] at *
  exact ⟨i, by omega, by omega⟩

theorem chunk_currResyncOf {c j : Nat} (hc : stripeSectors ≤ c) (hj : stripeSectors ∣ j) :
    currResyncOf j / c = j / c := by
  unfold currResyncOf
  split_ifs with h
  · rfl
  · have h0 : j = 0 := Nat.eq_zero_of_dvd_of_lt hj
      (lt_trans (not_le.mp h) (by decide))
    have h3 : resyncActive < c := lt_of_lt_of_le (by decide) hc
    rw [h0, Nat.div_eq_of_lt h3, Nat.zero_div]

theorem currResyncOf_lt {j max : Nat} (hmax : stripeSectors ∣ max) (hj : stripeSectors ∣ j) :
    currResyncOf j < max ↔ j < max := by
  unfold currResyncOf
  split_ifs with h
  · rfl
  · simp only [resyncActive, stripeSectors] at *
    omega

/-! ## What a call submits -/

/-- `q` is `p` with `n` stripes from `j` on submitted. -/
structure Window (p : Progress) (j n : Nat) (q : Progress) : Prop where
  csize : q.bitmap.csize = p.bitmap.csize
  requested : ∀ w, w ∈ q.syncRequested ↔
    w ∈ p.syncRequested ∨ ∃ i < n, w = j + i * stripeSectors
  touched : ∀ i < n, q.bitmap.counter (p.bitmap.chunk (j + i * stripeSectors)) =
    (p.bitmap.counter (p.bitmap.chunk (j + i * stripeSectors))).start
  untouched : ∀ k, (∀ i < n, p.bitmap.chunk (j + i * stripeSectors) ≠ k) →
    q.bitmap.counter k = p.bitmap.counter k

namespace Window

open Progress Nat

theorem refl (p : Progress) (j : Nat) : Window p j 0 p where
  csize := rfl
  requested w := by simp
  touched _ hi := absurd hi (not_lt_zero _)
  untouched _ _ := rfl

/-- One more stripe, in front of the window. -/
theorem cons {p q : Progress} {j n : Nat}
    (h : Window (p.request (bitmapStartSync p.bitmap j false).bitmap j) (j + stripeSectors) n q) :
    Window p j (n + 1) q := by
  have hpos : ∀ i, j + stripeSectors + i * stripeSectors = j + (i + 1) * stripeSectors :=
    fun i => by ring
  have hchunk : ∀ w, (bitmapStartSync p.bitmap j false).bitmap.chunk w = p.bitmap.chunk w :=
    fun w => by rw [Bitmap.chunk, csize_bitmapStartSync, Bitmap.chunk]
  have hstart : ∀ k, ((bitmapStartSync p.bitmap j false).bitmap.counter k).start =
      (p.bitmap.counter k).start := fun k => by
    rw [counter_bitmapStartSync]
    split_ifs
    · exact BitmapCounter.start_start _
    · rfl
  have htouched : ∀ i < n, q.bitmap.counter (p.bitmap.chunk (j + (i + 1) * stripeSectors)) =
      (p.bitmap.counter (p.bitmap.chunk (j + (i + 1) * stripeSectors))).start := fun i hi => by
    have ht := h.touched i hi
    rw [request, hpos, hchunk, hstart] at ht
    exact ht
  refine ⟨h.csize.trans (csize_bitmapStartSync false), fun w => ?_, fun i hi => ?_, fun k hk => ?_⟩
  · rw [h.requested, request, List.mem_cons]
    simp only [hpos, exists_lt_succ_left, zero_mul, add_zero]
    tauto
  · rcases i with _ | i
    · rw [zero_mul, add_zero]
      -- the window may go on in the chunk of the first stripe
      by_cases hback : ∃ i < n, p.bitmap.chunk (j + (i + 1) * stripeSectors) = p.bitmap.chunk j
      · obtain ⟨i, hi, heq⟩ := hback
        rw [← heq]
        exact htouched i hi
      · have hu := h.untouched (p.bitmap.chunk j) fun i hi heq => hback ⟨i, hi, by
          rw [← hpos, ← hchunk]
          exact heq⟩
        rw [hu, request, counter_bitmapStartSync, if_pos rfl]
    · exact htouched i (lt_of_succ_lt_succ hi)
  · have hu := h.untouched k fun i hi => by
      rw [hpos]
      exact (hchunk _).symm ▸ hk (i + 1) (succ_lt_succ hi)
    rw [hu, request, counter_bitmapStartSync, if_neg]
    exact fun hk' => hk 0 (succ_pos n) (by rw [zero_mul, add_zero, hk'])

end Window

/-- The window goes on until its room is used up, the array ends, or the bitmap says that
the next chunk is in sync; every stripe it takes lies in a chunk that is not. -/
structure WindowEnd (maxSector room : Nat) (b : Bitmap) (win n : Nat) : Prop where
  le_room : n ≤ room
  inside : ∀ i < n, win + i * stripeSectors < maxSector ∧
    (b.counter (b.chunk (win + i * stripeSectors))).dirty = true
  stops : n = room ∨ maxSector ≤ win + n * stripeSectors ∨
    (b.counter (b.chunk (win + n * stripeSectors))).dirty = false

theorem dirty_bitmapStartSync (b : Bitmap) (offset k : Nat) :
    ((bitmapStartSync b offset false).bitmap.counter k).dirty = (b.counter k).dirty := by
  rw [counter_bitmapStartSync]
  split_ifs
  · exact BitmapCounter.dirty_start _
  · rfl

theorem submitWindow_spec (maxSector : Nat) : ∀ (room win : Nat) (p : Progress),
    Window p win (submitWindow maxSector room win p).1 (submitWindow maxSector room win p).2 ∧
      WindowEnd maxSector room p.bitmap win (submitWindow maxSector room win p).1
  | 0, win, p => ⟨.refl p win, le_rfl, fun _ hi => absurd hi (Nat.not_lt_zero _), .inl rfl⟩
  | room + 1, win, p => by
    rw [submitWindow]
    by_cases hmax : win < maxSector
    · by_cases hrv : (bitmapStartSync p.bitmap win false).rv
      · obtain ⟨hwin, hend⟩ := submitWindow_spec maxSector room (win + stripeSectors)
          (p.request (bitmapStartSync p.bitmap win false).bitmap win)
        simp only [hmax, hrv, if_true]
        refine ⟨hwin.cons, Nat.succ_le_succ hend.le_room, fun i hi => ?_, ?_⟩
        · rcases i with _ | i
          · rw [zero_mul, add_zero]
            exact ⟨hmax, bitmapStartSync_rv false ▸ hrv⟩
          · have hi := hend.inside i (Nat.lt_of_succ_lt_succ hi)
            rw [Progress.request, dirty_bitmapStartSync, Bitmap.chunk,
              csize_bitmapStartSync] at hi
            rwa [Nat.succ_mul, Nat.add_comm (i * _), ← Nat.add_assoc]
        · have hs := hend.stops
          rw [Progress.request, dirty_bitmapStartSync, Bitmap.chunk,
            csize_bitmapStartSync] at hs
          rwa [Nat.succ_mul, Nat.add_comm (_ * stripeSectors), ← Nat.add_assoc, Nat.succ_inj]
      · have hclean : (p.bitmap.counter (p.bitmap.chunk win)).dirty = false := by
          rw [← bitmapStartSync_rv false]
          exact Bool.eq_false_iff.mpr hrv
        simp only [hmax, hrv, if_true, Bool.false_eq_true, if_false]
        refine ⟨⟨csize_bitmapStartSync false, by simp, fun _ hi => absurd hi (Nat.not_lt_zero _),
          fun k _ => ?_⟩, Nat.zero_le _, fun _ hi => absurd hi (Nat.not_lt_zero _), ?_⟩
        · rw [counter_bitmapStartSync]
          split_ifs with hk
          · rw [hk, BitmapCounter.start_of_not_dirty hclean]
          · rfl
        · rw [zero_mul, add_zero]
          exact .inr (.inr hclean)
    · rw [if_neg hmax]
      refine ⟨.refl p win, Nat.zero_le _, fun _ hi => absurd hi (Nat.not_lt_zero _),
        .inr (.inl ?_)⟩
      rw [zero_mul]
      exact not_lt.mp hmax

section Call

variable {conf : SyncConf} {m : Mddev}

/-- The call at the cursor skips a stretch. -/
def Mddev.skips (conf : SyncConf) (m : Mddev) : Bool :=
  canSkip (conf.requested || m.fullsync) m.bitmap m.j

/-- A call that skips changes nothing, and what it skips is in sync. -/
theorem call_of_skips (hskip : m.skips conf) (due : Bool) (room : Nat) :
    (m.call conf due room).2 = m.toProgress ∧ stripeSectors ∣ (m.call conf due room).1 ∧
      ∀ w, m.j ≤ w → w < m.j + (m.call conf due room).1 →
        (m.bitmap.counter (m.bitmap.chunk w)).dirty = false := by
  have hclean : (m.bitmap.counter (m.bitmap.chunk m.j)).dirty = false := by
    rw [← bitmapStartSync_rv true]
    simp only [Mddev.skips, canSkip, Bool.and_eq_true, Bool.not_eq_true'] at hskip
    exact hskip.1.2
  unfold Mddev.call raid5SyncRequest
  rw [Mddev.skips] at hskip
  rw [if_pos hskip, bitmapStartSync_degraded]
  refine ⟨rfl, dvd_mul_left _ _, fun w hle hlt => clean_stretch hclean hle ?_⟩
  rw [bitmapStartSync_blocks] at hlt
  exact lt_of_lt_of_le hlt (Nat.add_le_add_left (Nat.div_mul_le_self _ _) _)

/-- A call that does not skip submits the stripe at the cursor and a window behind it. -/
theorem call_of_not_skips (hskip : m.skips conf = false) (due : Bool) (room : Nat) :
    ∃ n, (m.call conf due room).1 = (n + 1) * stripeSectors ∧
      Window ⟨bitmapCondEndSync conf.maxSectors m.bitmap m.j due, m.syncRequested⟩ m.j (n + 1)
        (m.call conf due room).2 ∧
      WindowEnd conf.maxSectors (min room (syncWindow - 1)) m.bitmap (m.j + stripeSectors) n := by
  set b := bitmapCondEndSync conf.maxSectors m.bitmap m.j due with hb
  obtain ⟨hwin, hend⟩ := submitWindow_spec conf.maxSectors (min room (syncWindow - 1))
    (m.j + stripeSectors) (m.toProgress.request (bitmapStartSync b m.j false).bitmap m.j)
  have hcall : m.call conf due room = _ := if_neg (Bool.eq_false_iff.mp hskip)
  -- from the cursor on, neither function before the window changes what is in sync
  have hdirty : ∀ w, m.j ≤ w →
      ((bitmapStartSync b m.j false).bitmap.counter
        ((bitmapStartSync b m.j false).bitmap.chunk w)).dirty =
      (m.bitmap.counter (m.bitmap.chunk w)).dirty := fun w hw => by
    rw [dirty_bitmapStartSync, Bitmap.chunk, csize_bitmapStartSync, hb, csize_bitmapCondEndSync,
      counter_bitmapCondEndSync_of_ge due (Nat.div_le_div_right hw)]
    rfl
  refine ⟨_, by rw [hcall], ?_, hend.le_room, fun i hi => ?_, ?_⟩
  · rw [hcall]
    exact Window.cons hwin
  · rw [← hdirty _ (by omega)]
    exact hend.inside i hi
  · rw [← hdirty _ (by omega)]
    exact hend.stops

end Call

end MdRaid.Resync
