import MdRaid.Resync.Window

/-!
# What an interrupted resync leaves in the bitmap

`raid5_sync_request` starts the sync of every chunk its window enters, which takes the
chunk's `NEEDED` bit. If the stop comes during the call, the cursor stays where the window
began, and only the chunk there is marked again. A chunk the window entered later and
did not finish is then closed as if it were in sync.

The invariant carries two positions: the cursor `j`, and the end `e` of what was
submitted. They differ only after a call that was interrupted.
-/

namespace MdRaid.Resync

open Runs Bitmap BitmapCounter Mddev

variable {conf : SyncConf} {b₀ : Bitmap} {j₀ e : Nat} {m m' : Mddev}

/-! ## The invariant -/

/-- A sync that started from the bitmap `b₀` at sector `j₀` and has submitted what it had to
below `e`. -/
structure Inv (b₀ : Bitmap) (j₀ e : Nat) (m : Mddev) : Prop where
  csize : m.bitmap.csize = b₀.csize
  curr : m.currResync = currResyncOf m.j
  dvd_j : stripeSectors ∣ m.j
  dvd_e : stripeSectors ∣ e
  start_le : j₀ ≤ m.j
  le_end : m.j ≤ e
  cursor : m.intr = false → e = m.j
  below : ∀ k < b₀.chunk j₀, (m.bitmap.counter k).needed = (b₀.counter k).needed
  done : ∀ w, stripeSectors ∣ w → j₀ ≤ w → w < e → (b₀.counter (b₀.chunk w)).needed = true →
    w ∈ m.syncRequested
  todo : ∀ w ∈ m.syncRequested, w < e
  current : (b₀.counter (b₀.chunk m.j)).needed = true →
    (m.bitmap.counter (b₀.chunk m.j)).dirty = true
  entered : ∀ k, b₀.chunk m.j < k → k * b₀.csize < e →
    m.bitmap.counter k = (b₀.counter k).start
  ahead : ∀ k, e ≤ k * b₀.csize → m.bitmap.counter k = b₀.counter k

theorem inv_start (hj : stripeSectors ∣ j₀) (fullsync : Bool) :
    Inv b₀ j₀ j₀ (start b₀ j₀ fullsync) where
  csize := rfl
  curr := rfl
  dvd_j := hj
  dvd_e := hj
  start_le := le_rfl
  le_end := le_rfl
  cursor _ := rfl
  below _ _ := rfl
  done _ _ hle hlt := absurd hlt (not_lt.mpr hle)
  todo _ hw := absurd hw List.not_mem_nil
  current h := dirty_of_needed h
  entered _ hk hlt := absurd (b₀.chunk_lt_iff.mp hk) (not_lt.mpr hlt.le)
  ahead _ _ := rfl

theorem Inv.chunk (h : Inv b₀ j₀ e m) (w : Nat) : m.bitmap.chunk w = b₀.chunk w := by
  rw [Bitmap.chunk, h.csize, Bitmap.chunk]

/-- Before a call, a chunk from the cursor on that was `NEEDED` still is, or its sync has
begun. -/
theorem Inv.dirty_of_needed (h : Inv b₀ j₀ m.j m) {k : Nat} (hk : b₀.chunk m.j ≤ k)
    (hn : (b₀.counter k).needed) : (m.bitmap.counter k).dirty := by
  rcases hk.eq_or_lt with rfl | hlt
  · exact h.current hn
  · rw [h.ahead k (b₀.chunk_lt_iff.mp hlt).le]
    exact BitmapCounter.dirty_of_needed hn

/-! ## A call -/

section Submit

variable {due : Bool} {n : Nat} {q : Progress}

section

variable (h : Inv b₀ j₀ e m) (hwin : Window ⟨bitmapCondEndSync conf.maxSectors m.bitmap m.j due,
  m.syncRequested⟩ m.j n q)

include h hwin

theorem Inv.window_csize : q.bitmap.csize = b₀.csize := by
  rw [hwin.csize, csize_bitmapCondEndSync, h.csize]

/-- Chunks that the window enters are started, all others from the cursor on left alone. -/
theorem Inv.window_counter {k : Nat} (hk : b₀.chunk m.j ≤ k) :
    ((∃ i < n, b₀.chunk (m.j + i * stripeSectors) = k) ∧
      q.bitmap.counter k = (m.bitmap.counter k).start) ∨
    ((∀ i < n, b₀.chunk (m.j + i * stripeSectors) ≠ k) ∧
      q.bitmap.counter k = m.bitmap.counter k) := by
  have hchunk : ∀ w, (bitmapCondEndSync conf.maxSectors m.bitmap m.j due).chunk w = b₀.chunk w :=
    fun w => by rw [Bitmap.chunk, csize_bitmapCondEndSync, h.csize, Bitmap.chunk]
  have hsame : (bitmapCondEndSync conf.maxSectors m.bitmap m.j due).counter k =
      m.bitmap.counter k := counter_bitmapCondEndSync_of_ge due (h.chunk m.j ▸ hk)
  by_cases hex : ∃ i < n, b₀.chunk (m.j + i * stripeSectors) = k
  · obtain ⟨i, hi, rfl⟩ := hex
    have ht := hwin.touched i hi
    rw [hchunk, hsame] at ht
    exact .inl ⟨⟨i, hi, rfl⟩, ht⟩
  · push Not at hex
    have hu := hwin.untouched k fun i hi => hchunk _ ▸ hex i hi
    exact .inr ⟨hex, hu.trans hsame⟩

theorem Inv.window_dirty {k : Nat} (hk : b₀.chunk m.j ≤ k) :
    (q.bitmap.counter k).dirty = (m.bitmap.counter k).dirty := by
  rcases h.window_counter hwin hk with ⟨-, hq⟩ | ⟨-, hq⟩
  · rw [hq, dirty_start]
  · rw [hq]

theorem Inv.window_needed {k : Nat} (hk : k < b₀.chunk m.j) :
    (q.bitmap.counter k).needed = (m.bitmap.counter k).needed := by
  rw [hwin.untouched k fun i _ heq => ?_, needed_bitmapCondEndSync]
  rw [Bitmap.chunk, csize_bitmapCondEndSync, h.csize] at heq
  exact absurd (Nat.div_le_div_right (Nat.le_add_right m.j _)) (not_le.mpr (heq ▸ hk))

end

/-- A window was submitted from the cursor on; the cursor moved behind it, or stayed because
of an interrupt. -/
theorem Inv.submit (h : Inv b₀ j₀ m.j m) (hc : stripeSectors ∣ b₀.csize)
    (hwin : Window ⟨bitmapCondEndSync conf.maxSectors m.bitmap m.j due, m.syncRequested⟩ m.j n q)
    (hq : m'.toProgress = q) (hj : m'.j = m.j ∨ m'.j = m.j + n * stripeSectors)
    (hcurr : m'.currResync = currResyncOf m'.j)
    (hintr : m'.intr = false → m'.j = m.j + n * stripeSectors) :
    Inv b₀ j₀ (m.j + n * stripeSectors) m' := by
  subst hq
  have hle : m.j ≤ m'.j := by omega
  have hdvd : stripeSectors ∣ m.j + n * stripeSectors :=
    Nat.dvd_add h.dvd_j (Nat.dvd_mul_left _ _)
  have hchunk : b₀.chunk m.j ≤ b₀.chunk m'.j := b₀.chunk_mono hle
  refine
    { csize := h.window_csize hwin
      curr := hcurr
      dvd_j := ?_
      dvd_e := hdvd
      start_le := h.start_le.trans hle
      le_end := by omega
      cursor := fun hi => (hintr hi).symm
      below := fun k hk => ?_
      done := fun w hdw hge hlt hn => ?_
      todo := fun w hw => ?_
      current := fun hn => ?_
      entered := fun k hk hlt => ?_
      ahead := fun k hk => ?_ }
  · rcases hj with hj | hj
    · exact hj ▸ h.dvd_j
    · exact hj ▸ hdvd
  · have hk' : k < b₀.chunk m.j := lt_of_lt_of_le hk (b₀.chunk_mono h.start_le)
    rw [h.window_needed hwin hk', h.below k hk]
  · rw [hwin.requested]
    rcases lt_or_ge w m.j with hw | hw
    · exact .inl (h.done w hdw hge hw hn)
    · exact .inr (exists_stripe h.dvd_j hdw hw hlt)
  · rcases (hwin.requested w).mp hw with hw | ⟨i, hi, rfl⟩
    · exact lt_of_lt_of_le (h.todo w hw) (Nat.le_add_right _ _)
    · exact Nat.add_lt_add_left (Nat.mul_lt_mul_of_pos_right hi (by decide)) _
  · rw [h.window_dirty hwin hchunk]
    exact h.dirty_of_needed hchunk hn
  · -- the chunk begins inside the window, so that its first stripe was submitted
    have hk' : b₀.chunk m.j < k := lt_of_le_of_lt hchunk hk
    have hbegin : m.j < k * b₀.csize := b₀.chunk_lt_iff.mp hk'
    obtain ⟨i, hi, hw⟩ := exists_stripe h.dvd_j (hc.mul_left k) hbegin.le hlt
    rcases h.window_counter hwin hk'.le with ⟨-, hq⟩ | ⟨hno, -⟩
    · rw [hq, h.ahead k hbegin.le]
    · exact absurd (by rw [← hw]; exact Nat.mul_div_cancel _ b₀.csize_pos) (hno i hi)
  · have hk' : b₀.chunk m.j ≤ k := Nat.div_le_of_le_mul (by
      rw [mul_comm]
      exact (Nat.le_add_right _ _).trans hk)
    rcases h.window_counter hwin hk' with ⟨⟨i, hi, rfl⟩, -⟩ | ⟨-, hq⟩
    · have hin := Nat.div_mul_le_self (m.j + i * stripeSectors) b₀.csize
      have hlt := Nat.mul_lt_mul_of_pos_right hi (show 0 < stripeSectors by decide)
      exact absurd (hk.trans hin) (by omega)
    · rw [hq, h.ahead k ((Nat.le_add_right _ _).trans hk)]

end Submit

/-- Nothing the invariant speaks of has changed. -/
theorem Inv.congr (h : Inv b₀ j₀ e m) (hcs : m'.bitmap.csize = m.bitmap.csize)
    (hcounter : ∀ k, m'.bitmap.counter k = m.bitmap.counter k)
    (hreq : m'.syncRequested = m.syncRequested) (hj : m'.j = m.j)
    (hcurr : m'.currResync = m.currResync) (hintr : m'.intr = false → m.intr = false) :
    Inv b₀ j₀ e m' where
  csize := hcs.trans h.csize
  curr := by rw [hcurr, hj, h.curr]
  dvd_j := hj ▸ h.dvd_j
  dvd_e := h.dvd_e
  start_le := hj ▸ h.start_le
  le_end := hj ▸ h.le_end
  cursor hi := hj ▸ h.cursor (hintr hi)
  below k hk := by rw [hcounter, h.below k hk]
  done w hdw hge hlt hn := hreq ▸ h.done w hdw hge hlt hn
  todo w hw := h.todo w (hreq ▸ hw)
  current hn := by
    rw [hcounter, hj]
    exact h.current (hj ▸ hn)
  entered k hk hlt := by rw [hcounter, h.entered k (hj ▸ hk) hlt]
  ahead k hk := by rw [hcounter, h.ahead k hk]

/-- The cursor moved over a stretch that is in sync. -/
theorem Inv.skip (h : Inv b₀ j₀ m.j m) (hq : m'.toProgress = m.toProgress) (hle : m.j ≤ m'.j)
    (hclean : ∀ w, m.j ≤ w → w < m'.j → (m.bitmap.counter (m.bitmap.chunk w)).dirty = false)
    (hdvd : stripeSectors ∣ m'.j) (hcurr : m'.currResync = currResyncOf m'.j) :
    Inv b₀ j₀ m'.j m' := by
  have hchunk : b₀.chunk m.j ≤ b₀.chunk m'.j := b₀.chunk_mono hle
  refine
    { csize := ?_
      curr := hcurr
      dvd_j := hdvd
      dvd_e := hdvd
      start_le := h.start_le.trans hle
      le_end := le_rfl
      cursor := fun _ => rfl
      below := fun k hk => ?_
      done := fun w hdw hge hlt hn => ?_
      todo := fun w hw => ?_
      current := fun hn => ?_
      entered := fun k hk hlt => ?_
      ahead := fun k hk => ?_ }
  · rw [hq, h.csize]
  · rw [hq, h.below k hk]
  · rw [hq]
    rcases lt_or_ge w m.j with hw | hw
    · exact h.done w hdw hge hw hn
    · have hdirty := h.dirty_of_needed (b₀.chunk_mono hw) hn
      rw [← h.chunk, hclean w hw hlt] at hdirty
      cases hdirty
  · exact lt_of_lt_of_le (h.todo w (hq ▸ hw)) hle
  · rw [hq]
    exact h.dirty_of_needed hchunk hn
  · exact absurd (b₀.chunk_lt_iff.mp hk) (not_lt.mpr hlt.le)
  · rw [hq, h.ahead k (hle.trans hk)]

/-! ## Where a stop is allowed -/

/-- No chunk that the sync entered behind the cursor's is cut by the end of what was
submitted. -/
def Whole (conf : SyncConf) (b₀ : Bitmap) (j e : Nat) : Prop :=
  b₀.chunk e = b₀.chunk j ∨ b₀.csize ∣ e ∨ conf.maxSectors ≤ e ∨
    b₀.counter (b₀.chunk e) ≠ ⟨true, false⟩

/-- Where the window of a call ends if it meets no chunk that is in sync. -/
def Mddev.windowLimit (conf : SyncConf) (m : Mddev) (room : Nat) : Nat :=
  min (m.j + (min room (syncWindow - 1) + 1) * stripeSectors) conf.maxSectors

/-- A stop during a call finds no chunk half submitted: the call skips, or its window ends
in the chunk it began in, on a chunk boundary, at the end of the array or in a chunk that
is not newly started, or a chunk in sync ends it before. -/
def NoOpenChunk (conf : SyncConf) (m : Mddev) : Event → Prop
  | .syncRequest _ room true =>
    m.skips conf = true ∨
    m.bitmap.chunk (m.windowLimit conf room) = m.bitmap.chunk m.j ∨
    m.bitmap.csize ∣ m.windowLimit conf room ∨
    conf.maxSectors ≤ m.windowLimit conf room ∨
    m.bitmap.counter (m.bitmap.chunk (m.windowLimit conf room)) ≠ ⟨true, false⟩ ∨
    ∃ w < m.windowLimit conf room, m.j < w ∧ stripeSectors ∣ w ∧
      (m.bitmap.counter (m.bitmap.chunk w)).dirty = false
  | _ => True

section Limit

variable {room n : Nat}

/-- A window that met no chunk in sync ends at its limit. -/
theorem windowLimit_eq (hmax : stripeSectors ∣ conf.maxSectors) (hj : stripeSectors ∣ m.j)
    (hlt : m.j < conf.maxSectors)
    (hend : WindowEnd conf.maxSectors (min room (syncWindow - 1)) m.bitmap
      (m.j + stripeSectors) n) : m.j + (n + 1) * stripeSectors ≤ m.windowLimit conf room ∧
      (m.j + (n + 1) * stripeSectors = m.windowLimit conf room ∨
        (m.bitmap.counter (m.bitmap.chunk (m.j + (n + 1) * stripeSectors))).dirty = false) := by
  have hle : m.j + (n + 1) * stripeSectors ≤ conf.maxSectors := by
    rcases n with _ | n
    · simp only [stripeSectors] at *
      omega
    · have hin := (hend.inside n (Nat.lt_succ_self n)).1
      simp only [stripeSectors] at *
      omega
  have hroom := hend.le_room
  have hpos : m.j + stripeSectors + n * stripeSectors = m.j + (n + 1) * stripeSectors := by ring
  have hstops := hend.stops
  rw [hpos] at hstops
  unfold windowLimit
  have hlimit : m.j + (n + 1) * stripeSectors ≤
      min (m.j + (min room (syncWindow - 1) + 1) * stripeSectors) conf.maxSectors :=
    le_min (Nat.add_le_add_left (Nat.mul_le_mul_right _ (Nat.succ_le_succ hroom)) _) hle
  refine ⟨hlimit, ?_⟩
  rcases hstops with rfl | hge | hclean
  · exact .inl (min_eq_left hle).symm
  · exact .inl (le_antisymm hlimit ((min_le_right _ _).trans hge))
  · exact .inr hclean

/-- A window that a chunk in sync ended does not cut a chunk. -/
theorem whole_of_clean (hc : stripeSectors ∣ b₀.csize) (hj : stripeSectors ∣ m.j)
    (hcs : m.bitmap.csize = b₀.csize)
    (hend : WindowEnd conf.maxSectors (min room (syncWindow - 1)) m.bitmap (m.j + stripeSectors) n)
    (hclean : (m.bitmap.counter (m.bitmap.chunk (m.j + (n + 1) * stripeSectors))).dirty = false) :
    Whole conf b₀ m.j (m.j + (n + 1) * stripeSectors) := by
  have hnext := next_stripe hc b₀.csize_pos (Nat.dvd_add hj (Nat.dvd_mul_left stripeSectors n))
  have hpos : m.j + n * stripeSectors + stripeSectors = m.j + (n + 1) * stripeSectors := by ring
  rw [hpos] at hnext
  rcases hnext with hsame | hdvd
  · rcases n with _ | n
    · rw [zero_mul, add_zero] at hsame
      exact .inl hsame
    · -- the last stripe of the window is in the same chunk, which is not in sync
      have hdirty := (hend.inside n (Nat.lt_succ_self n)).2
      rw [show m.j + stripeSectors + n * stripeSectors = m.j + (n + 1) * stripeSectors by ring,
        chunk, hcs, ← hsame, ← hcs] at hdirty
      rw [chunk, hdirty] at hclean
      cases hclean
  · exact .inr (.inl hdvd)

theorem whole_iff_noOpenChunk (h : Inv b₀ j₀ m.j m) (hc : stripeSectors ∣ b₀.csize)
    (hmax : stripeSectors ∣ conf.maxSectors) (hlt : m.j < conf.maxSectors) (due : Bool)
    (hskip : m.skips conf = false)
    (hend : WindowEnd conf.maxSectors (min room (syncWindow - 1)) m.bitmap
      (m.j + stripeSectors) n) : Whole conf b₀ m.j (m.j + (n + 1) * stripeSectors) ↔
      NoOpenChunk conf m (.syncRequest due room true) := by
  obtain ⟨hle, hstop⟩ := windowLimit_eq hmax h.dvd_j hlt hend
  simp only [NoOpenChunk, hskip, Bool.false_eq_true, false_or, h.chunk, h.csize]
  have hcounter : b₀.chunk (m.j + (n + 1) * stripeSectors) = b₀.chunk m.j ∨
      m.bitmap.counter (b₀.chunk (m.j + (n + 1) * stripeSectors)) =
        b₀.counter (b₀.chunk (m.j + (n + 1) * stripeSectors)) := by
    rcases (b₀.chunk_mono (Nat.le_add_right m.j _)).eq_or_lt with hsame | hgt
    · exact .inl hsame.symm
    · exact .inr (h.ahead _ (b₀.chunk_lt_iff.mp hgt).le)
  rcases hle.eq_or_lt with heq | hbefore
  · rw [← heq]
    constructor
    · rintro (hsame | hdvd | hge | hnew)
      · exact .inl hsame
      · exact .inr (.inl hdvd)
      · exact .inr (.inr (.inl hge))
      · rcases hcounter with hsame | hcounter
        · exact .inl hsame
        · exact .inr (.inr (.inr (.inl (hcounter ▸ hnew))))
    · rintro (hsame | hdvd | hge | hnew | ⟨w, hw, hjw, hdw, hclean⟩)
      · exact .inl hsame
      · exact .inr (.inl hdvd)
      · exact .inr (.inr (.inl hge))
      · rcases hcounter with hsame | hcounter
        · exact .inl hsame
        · exact .inr (.inr (.inr (hcounter ▸ hnew)))
      · -- every stripe behind the first lies in a chunk that is not in sync
        obtain ⟨i, hi, rfl⟩ := exists_stripe h.dvd_j hdw hjw.le hw
        rcases i with _ | i
        · exact absurd hjw (by simp)
        · have hdirty := (hend.inside i (Nat.lt_of_succ_lt_succ hi)).2
          rw [show m.j + stripeSectors + i * stripeSectors = m.j + (i + 1) * stripeSectors by ring,
            h.chunk, hclean] at hdirty
          cases hdirty
  · have hclean := hstop.resolve_left hbefore.ne
    refine iff_of_true (whole_of_clean hc h.dvd_j h.csize hend hclean)
      (.inr (.inr (.inr (.inr ⟨_, hbefore, ?_, ?_, ?_⟩))))
    · exact Nat.lt_add_of_pos_right (Nat.mul_pos (Nat.succ_pos n) (by decide))
    · exact Nat.dvd_add h.dvd_j (Nat.dvd_mul_left _ _)
    · rwa [← h.chunk]

end Limit

/-! ## A pass of the loop -/

theorem whole_self (conf : SyncConf) (b₀ : Bitmap) (j : Nat) : Whole conf b₀ j j := .inl rfl

section Advance

variable {q : Progress} {sectors : Nat}

theorem Inv.advance_curr (h : Inv b₀ j₀ e m) (hlt : m.j < conf.maxSectors) :
    ({ m with toProgress := q }.advance conf sectors).currResync =
      currResyncOf (min (m.j + sectors) conf.maxSectors) := by
  have hcurr : ({ m with toProgress := q }.advance conf sectors).currResync =
      if resyncActive ≤ min (m.j + sectors) conf.maxSectors
        then min (m.j + sectors) conf.maxSectors else m.currResync := rfl
  rw [hcurr, h.curr, currResyncOf, currResyncOf]
  split_ifs
  · rfl
  · omega
  · rfl

theorem dvd_advance (hmax : stripeSectors ∣ conf.maxSectors) (hj : stripeSectors ∣ m.j)
    (hs : stripeSectors ∣ sectors) : stripeSectors ∣ min (m.j + sectors) conf.maxSectors := by
  rcases min_choice (m.j + sectors) conf.maxSectors with h | h
  · rw [h]
    exact Nat.dvd_add hj hs
  · rw [h]
    exact hmax

end Advance

section

variable (hc : stripeSectors ∣ b₀.csize) (hmax : stripeSectors ∣ conf.maxSectors)
include hc hmax

/-- One call of `raid5_sync_request`, with the tests behind it. -/
theorem syncRequest_inv
    (h : Inv b₀ j₀ m.j m) (hlt : m.j < conf.maxSectors) (due : Bool) (room : Nat) :
    (∃ e, Inv b₀ j₀ e { m with toProgress := (m.call conf due room).2, intr := true } ∧
      (Whole conf b₀ m.j e ↔ NoOpenChunk conf m (.syncRequest due room true))) ∧
    ∃ e, Inv b₀ j₀ e ({ m with toProgress := (m.call conf due room).2 }.advance conf
        (m.call conf due room).1) ∧
      Whole conf b₀ (min (m.j + (m.call conf due room).1) conf.maxSectors) e := by
  rcases hskip : m.skips conf with _ | _
  · obtain ⟨n, hsectors, hwin, hend⟩ := call_of_not_skips hskip due room
    have hle : m.j + (n + 1) * stripeSectors ≤ conf.maxSectors :=
      (windowLimit_eq hmax h.dvd_j hlt hend).1.trans (min_le_right _ _)
    refine ⟨⟨_, h.submit hc hwin rfl (.inl rfl) h.curr (by simp),
      whole_iff_noOpenChunk h hc hmax hlt due hskip hend⟩, ?_⟩
    have hj : min (m.j + (m.call conf due room).1) conf.maxSectors =
        m.j + (n + 1) * stripeSectors := by rw [hsectors, min_eq_left hle]
    refine ⟨m.j + (n + 1) * stripeSectors,
      h.submit hc hwin rfl (.inr hj) (h.advance_curr hlt) (fun _ => hj), ?_⟩
    rw [hj]
    exact whole_self _ _ _
  · obtain ⟨hsame, hdvd, hclean⟩ := call_of_skips hskip due room
    refine ⟨⟨m.j, ?_, iff_of_true (whole_self _ _ _) (.inl hskip)⟩,
      ({ m with toProgress := (m.call conf due room).2 }.advance conf
        (m.call conf due room).1).j, ?_, whole_self _ _ _⟩
    · rw [hsame]
      exact h.congr rfl (fun _ => rfl) rfl rfl rfl (by simp)
    · refine h.skip hsame (le_min (Nat.le_add_right _ _) hlt.le) (fun w hw hw' => ?_)
        (dvd_advance hmax h.dvd_j hdvd) (h.advance_curr hlt)
      exact hclean w hw (lt_of_lt_of_le hw' (min_le_left _ _))

/-- Each step keeps the invariant, and no chunk stays cut unless a stop cuts one. -/
theorem step_inv (h : Inv b₀ j₀ e m) {ev : Event} (hstep : step conf m ev = some m')
    (hfin : m'.finished = false) : ∃ e', Inv b₀ j₀ e' m' ∧
      (Whole conf b₀ m'.j e' ↔ Whole conf b₀ m.j e ∧ NoOpenChunk conf m ev) := by
  cases ev with
  | checkpage page =>
    obtain ⟨-, rfl⟩ := guard_eq_some.mp hstep
    exact ⟨e, h.congr rfl (fun k => m.bitmap.counter_checkpage page k) rfl rfl rfl id,
      (and_iff_left trivial).symm⟩
  | checkfree page =>
    obtain ⟨-, rfl⟩ := guard_eq_some.mp hstep
    exact ⟨e, h.congr rfl (fun k => m.bitmap.counter_checkfree page k) rfl rfl rfl id,
      (and_iff_left trivial).symm⟩
  | setIntr =>
    obtain ⟨-, rfl⟩ := guard_eq_some.mp hstep
    exact ⟨e, h.congr rfl (fun _ => rfl) rfl rfl rfl (by simp),
      (and_iff_left trivial).symm⟩
  | syncRequest due room intr =>
    obtain ⟨hguard, hstep⟩ := Option.ite_none_left_eq_some.mp hstep
    simp only [not_or, Bool.not_eq_true, not_le] at hguard
    obtain ⟨-, hintr, hlt⟩ := hguard
    obtain rfl := h.cursor hintr
    obtain ⟨⟨e₁, hinv₁, hwhole₁⟩, e₂, hinv₂, hwhole₂⟩ := syncRequest_inv hc hmax h hlt due room
    cases intr with
    | true =>
      cases hstep
      exact ⟨e₁, hinv₁, hwhole₁.trans (and_iff_right (whole_self _ _ _)).symm⟩
    | false =>
      cases hstep
      exact ⟨e₂, hinv₂, iff_of_true hwhole₂ ⟨whole_self _ _ _, trivial⟩⟩
  | finish =>
    obtain ⟨-, rfl⟩ := guard_eq_some.mp hstep
    cases (hfin : true = false)

end

/-! ## The end of the sync -/

/-- The last call keeps what is `NEEDED`, and marks the chunk at the cursor again. -/
theorem needed_raid5SyncFinish {max curr k : Nat} (b : Bitmap) (hk : k * b.csize < max) :
    ((raid5SyncFinish max curr b).counter k).needed =
      if curr < max ∧ k = b.chunk curr then (b.counter k).dirty else (b.counter k).needed := by
  unfold raid5SyncFinish
  rw [counter_bitmapCloseSync]
  by_cases hcurr : curr < max
  · rw [if_pos hcurr, csize_bitmapEndSync, if_pos hk, needed_stop_false,
      counter_bitmapEndSync]
    simp only [hcurr, true_and]
    split_ifs
    · exact needed_stop_true _
    · rfl
  · simp only [hcurr, if_false, false_and, if_pos hk, needed_stop_false]

/-- After the last call the bitmap is honest exactly if no chunk was cut. -/
theorem finish_honest_iff (hc : stripeSectors ∣ b₀.csize) (hmax : stripeSectors ∣ conf.maxSectors)
    (hstart : b₀.csize ∣ j₀ ∨ (b₀.counter (b₀.chunk j₀)).needed = false)
    (h : Inv b₀ j₀ e m) (hstep : step conf m .finish = some m') :
    Honest conf b₀ m' ↔ Whole conf b₀ m.j e := by
  obtain ⟨-, rfl⟩ := guard_eq_some.mp hstep
  have hcurr : b₀.chunk m.currResync = b₀.chunk m.j := by
    rw [h.curr]
    exact chunk_currResyncOf (Nat.le_of_dvd b₀.csize_pos hc) h.dvd_j
  have hneeded : ∀ k, k * b₀.csize < conf.maxSectors →
      ((raid5SyncFinish conf.maxSectors m.currResync m.bitmap).counter k).needed =
        if m.j < conf.maxSectors ∧ k = b₀.chunk m.j then (m.bitmap.counter k).dirty
        else (m.bitmap.counter k).needed := fun k hk => by
    rw [needed_raid5SyncFinish m.bitmap (h.csize ▸ hk), h.chunk, hcurr, h.curr]
    simp only [currResyncOf_lt hmax h.dvd_j]
  have hinside : ∀ w, b₀.chunk w * b₀.csize ≤ w := fun w => Nat.div_mul_le_self w b₀.csize
  constructor
  · intro hon
    by_contra hcut
    simp only [Whole, not_or, not_le, not_not] at hcut
    obtain ⟨hne, hndvd, hlt, hnew⟩ := hcut
    have hgt : b₀.chunk m.j < b₀.chunk e := lt_of_le_of_ne (b₀.chunk_mono h.le_end) (Ne.symm hne)
    have hbegin : b₀.chunk e * b₀.csize < e :=
      lt_of_le_of_ne (hinside e) fun heq => hndvd ⟨b₀.chunk e, by rw [mul_comm, heq]⟩
    -- the first stripe behind the window was not submitted, and its chunk was started
    have hstripe := hon e h.dvd_e hlt (by rw [hnew]) fun hw => lt_irrefl e (h.todo e hw)
    dsimp only at hstripe
    rw [hneeded _ (lt_of_le_of_lt (hinside e) hlt), if_neg fun hk => hne hk.2,
      h.entered _ hgt hbegin, hnew] at hstripe
    cases hstripe
  · intro hwhole w hdw hlt hn hreq
    have hk := lt_of_le_of_lt (hinside w) hlt
    dsimp only at hreq ⊢
    rw [hneeded _ hk]
    rcases lt_or_ge w j₀ with hw | hw
    · -- in front of the sync
      have hbefore : b₀.chunk w < b₀.chunk j₀ := by
        refine lt_of_le_of_ne (b₀.chunk_mono hw.le) fun heq => ?_
        rcases hstart with hdvd | hclean
        · have hj₀ : b₀.chunk j₀ * b₀.csize = j₀ := Nat.div_mul_cancel hdvd
          exact absurd (heq ▸ hinside w) (by omega)
        · rw [heq, hclean] at hn
          cases hn
      have hne : b₀.chunk w ≠ b₀.chunk m.j :=
        (lt_of_lt_of_le hbefore (b₀.chunk_mono h.start_le)).ne
      rw [if_neg fun hk => hne hk.2, h.below _ hbefore, hn]
    · -- behind what was submitted
      have hge : e ≤ w := not_lt.mp fun hlt => hreq (h.done w hdw hw hlt hn)
      by_cases hsame : b₀.chunk w = b₀.chunk m.j
      · rw [if_pos ⟨lt_of_le_of_lt (h.le_end.trans hge) hlt, hsame⟩, hsame]
        exact h.current (hsame ▸ hn)
      · rw [if_neg fun hk => hsame hk.2]
        rcases lt_or_ge (b₀.chunk w * b₀.csize) e with hin | hout
        · have hke : b₀.chunk w = b₀.chunk e :=
            le_antisymm ((Nat.le_div_iff_mul_le b₀.csize_pos).mpr hin.le) (b₀.chunk_mono hge)
          have hgt : b₀.chunk m.j < b₀.chunk w :=
            lt_of_le_of_ne (b₀.chunk_mono (h.le_end.trans hge)) (Ne.symm hsame)
          rcases hwhole with hj | hdvd | hend | hold
          · exact absurd (hke.trans hj) hsame
          · exact absurd (Nat.div_mul_cancel hdvd) (hke ▸ hin).ne
          · exact absurd hlt (not_lt.mpr (hend.trans hge))
          · rw [h.entered _ hgt hin]
            rw [← hke] at hold
            rcases hcounter : b₀.counter (b₀.chunk w) with ⟨_ | _, _ | _⟩
            · cases hcounter ▸ hn
            · cases hcounter ▸ hn
            · exact absurd hcounter hold
            · rfl
        · rw [h.ahead _ hout, hn]

/-! ## Runs -/

/-- The sync is over when its last call is made, and not before. -/
theorem finished_of_step {ev : Event} (hstep : step conf m ev = some m')
    (hfin : m'.finished) : m.finished = false ∧ ev = .finish := by
  cases ev with
  | checkpage page =>
    obtain ⟨hopen, rfl⟩ := guard_eq_some.mp hstep
    exact absurd hfin hopen
  | checkfree page =>
    obtain ⟨hopen, rfl⟩ := guard_eq_some.mp hstep
    exact absurd hfin hopen
  | setIntr =>
    obtain ⟨hopen, rfl⟩ := guard_eq_some.mp hstep
    exact absurd hfin hopen
  | syncRequest due room intr =>
    obtain ⟨hguard, hstep⟩ := Option.ite_none_left_eq_some.mp hstep
    rw [not_or] at hguard
    cases intr <;> cases Option.some.inj hstep <;> exact absurd hfin hguard.1
  | finish =>
    obtain ⟨hguard, -⟩ := guard_eq_some.mp hstep
    rw [not_or, Bool.not_eq_true] at hguard
    exact ⟨hguard.1, rfl⟩

/-- Until its last call, a sync has cut no chunk exactly if no stop cut one. -/
theorem run_inv (hc : stripeSectors ∣ b₀.csize) (hmax : stripeSectors ∣ conf.maxSectors)
    (hj : stripeSectors ∣ j₀) {fullsync : Bool} {es : List Event}
    (hrun : run (step conf) (start b₀ j₀ fullsync) es = some m) (hfin : m.finished = false) :
    ∃ e, Inv b₀ j₀ e m ∧ (Whole conf b₀ m.j e ↔
      Along (step conf) (NoOpenChunk conf) (start b₀ j₀ fullsync) es) := by
  induction es using List.reverseRecOn generalizing m with
  | nil =>
    cases hrun
    exact ⟨j₀, inv_start hj fullsync, iff_of_true (whole_self _ _ _) trivial⟩
  | append_singleton es ev ih =>
    obtain ⟨m₀, hrun₀, hstep⟩ := run_concat.mp hrun
    have hopen : m₀.finished = false := by
      rcases hf : m₀.finished with _ | _
      · rfl
      · cases ev <;> simp [step, hf] at hstep
    obtain ⟨e₀, hinv, hwhole⟩ := ih hrun₀ hopen
    obtain ⟨e, hinv', hwhole'⟩ := step_inv hc hmax hinv hstep hfin
    refine ⟨e, hinv', ?_⟩
    rw [hwhole', hwhole, along_concat_of_run hrun₀]

/-- **An interrupted resync keeps the bitmap honest exactly if no stop cuts a chunk.** When
the sync starts on a chunk boundary, or in a chunk that does not need it, its last call
leaves `NEEDED` every chunk that was so and has a stripe that was not submitted, if and
only if no call was stopped with its window ending inside a chunk the window had newly
started. -/
theorem resync_honest_iff (conf : SyncConf) (b₀ : Bitmap) (j₀ : Nat) (fullsync : Bool)
    (hshift : 3 ≤ b₀.chunkshift) (hmax : stripeSectors ∣ conf.maxSectors) (hj : stripeSectors ∣ j₀)
    (hstart : b₀.csize ∣ j₀ ∨ (b₀.counter (b₀.chunk j₀)).needed = false) {es : List Event}
    (hrun : run (step conf) (start b₀ j₀ fullsync) es = some m) (hfin : m.finished = true) :
    Honest conf b₀ m ↔ Along (step conf) (NoOpenChunk conf) (start b₀ j₀ fullsync) es := by
  have hc : stripeSectors ∣ b₀.csize := Nat.pow_dvd_pow 2 hshift
  induction es using List.reverseRecOn with
  | nil =>
    cases hrun
    cases (hfin : false = true)
  | append_singleton es ev =>
    obtain ⟨m₀, hrun₀, hstep⟩ := run_concat.mp hrun
    obtain ⟨hopen, rfl⟩ := finished_of_step hstep hfin
    obtain ⟨e, hinv, hwhole⟩ := run_inv hc hmax hj hrun₀ hopen
    rw [finish_honest_iff hc hmax hstart hinv hstep, hwhole, along_concat_of_run hrun₀]
    exact (and_iff_left trivial).symm

/-- Four chunks of two stripes, all of which need a sync. -/
def fourChunks : Bitmap :=
  { chunkshift := 4
    bp := fun page => if page = 0 then some fun off => ⟨decide (off < 4), false⟩ else none }

/-- The cache has room for three stripes of the first window, and the stop comes during the
call. -/
def stopInSecondChunk : List Event := [.syncRequest false 2 true, .finish]

/-- The second chunk is taken to be in sync, with its second stripe not submitted. -/
theorem stopInSecondChunk_not_honest :
    ∃ m, run (step ⟨64, false⟩) (start fourChunks 0 false) stopInSecondChunk = some m ∧
      m.finished = true ∧ m.syncRequested = [16, 8, 0] ∧
      (fourChunks.counter 1).needed = true ∧ (m.bitmap.counter 1).needed = false ∧
      ¬ Honest ⟨64, false⟩ fourChunks m := by
  refine ⟨_, rfl, rfl, rfl, rfl, rfl, fun hon => ?_⟩
  cases hon 24 (by decide) (by decide) (by decide) (by decide)

/-- The start matters as well: a requested check from the second stripe on, run to its end,
takes the first chunk's bit without its first stripe. -/
example : ∃ m, run (step ⟨64, true⟩) (start fourChunks 8 false)
      [.syncRequest false 127 false, .finish] = some m ∧
    0 ∉ m.syncRequested ∧ (m.bitmap.counter 0).needed = false := by
  exact ⟨_, rfl, by decide, by decide⟩

/-- The cache has room for the two stripes of the first chunk and then for three; the stop
comes between the calls. -/
def stopBetweenCalls : List Event :=
  [.syncRequest false 1 false, .syncRequest false 2 false, .setIntr, .finish]

theorem resync_honest_stopBetweenCalls :
    ∃ m, run (step ⟨64, false⟩) (start fourChunks 0 false) stopBetweenCalls = some m ∧
      m.finished = true ∧
      (Honest ⟨64, false⟩ fourChunks m ↔ Along (step ⟨64, false⟩) (NoOpenChunk ⟨64, false⟩)
        (start fourChunks 0 false) stopBetweenCalls) :=
  ⟨_, rfl, rfl, resync_honest_iff ⟨64, false⟩ fourChunks 0 false (by decide) (by decide)
    (by decide) (.inl (by decide)) rfl rfl⟩

end MdRaid.Resync
