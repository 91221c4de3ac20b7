import MdRaid.WriteIntent.InBitmap

/-!
# The counters are exact

As long as no page is hijacked, a counter is two more than the writes that are counted in
its chunk, or, when there are none, ages from two to zero; it never reaches the flag bits
above it. The daemon clears the bit of a chunk only while nothing is written to it and no
resync is owed for it.

`bitmap_start_sync`, `bitmap_close_sync` and `bitmap_cond_end_sync` are sequences of calls of
`__bitmap_start_sync` and `__bitmap_end_sync`, each of which takes the lock for itself.
-/

namespace MdRaid.WriteIntent

open Runs Finset Bitmap Counter Counts Prod

/-! ## No counter is too high -/

/-- No counter is above what the writes account for. -/
structure Capped (b : Bitmap) (w : Nat → Nat) : Prop where
  counted : ∀ k, (b.counts.counterAt k).count ≤ w k + 2
  max : ∀ k, (b.counts.counterAt k).count ≤ max

/-- No counter gets higher. -/
def Shrinks (b b' : Bitmap) : Prop :=
  ∀ k, (b'.counts.counterAt k).count ≤ (b.counts.counterAt k).count

theorem Shrinks.refl (b : Bitmap) : Shrinks b b := fun _ => le_refl _

theorem Shrinks.trans {b b' b'' : Bitmap} (h : Shrinks b b') (h' : Shrinks b' b'') :
    Shrinks b b'' :=
  fun k => (h' k).trans (h k)

theorem shrinks_same {b b' : Bitmap} (h : b.counts.Same b'.counts) : Shrinks b b' := fun k => by
  rw [h.counterAt]

section Capped

variable {b b' : Bitmap} {w w' : Nat → Nat} {offset : Nat}

theorem Capped.congr (h : Capped b w) (hw : ∀ k, w' k = w k) : Capped b w' := by
  obtain rfl : w' = w := funext hw
  exact h

theorem Capped.shrinks (h : Capped b w) (hle : Shrinks b b') : Capped b' w :=
  ⟨fun k => (hle k).trans (h.counted k), fun k => (hle k).trans (h.max k)⟩

/-- The counter of one chunk has changed, and with it the writes counted in it. -/
theorem Capped.sets {c : Counter} (h : Capped b w)
    (hsets : ∀ k, b'.counts.counterAt k = if k = b.counts.chunk offset then c else
    b.counts.counterAt k)
    (hother : ∀ k, k ≠ b.counts.chunk offset → w' k = w k)
    (hcounted : c.count ≤ w' (b.counts.chunk offset) + 2) (hmax : c.count ≤ Counter.max) :
    Capped b' w' := by
  constructor
  · intro k
    rw [hsets]
    split_ifs with hk
    · rw [hk]
      exact hcounted
    · rw [hother k hk]
      exact h.counted k
  · intro k
    rw [hsets]
    split_ifs
    · exact hmax
    · exact h.max k

theorem shrinks_sets {c : Counter}
    (hsets : ∀ k, b'.counts.counterAt k = if k = b.counts.chunk offset then c else
    b.counts.counterAt k)
    (hle : c.count ≤ (b.counts.counterAt (b.counts.chunk offset)).count) : Shrinks b b' := by
  intro k
  rw [hsets]
  split_ifs with hk
  · rw [hk]
    exact hle
  · exact le_refl _

/-! ## The calls -/

theorem counterAt_startCounter (hno : b.counts.NoHijack)
    (hmapped : b.counts.Mapped (b.counts.page offset))
    (c : Counter) (k : Nat) : (b.startCounter offset c).counts.counterAt k =
      if k = b.counts.chunk offset then (if c.is 0 || c.is 1 then ⟨false, false, 3⟩ else c.inc)
      else b.counts.counterAt k := by
  unfold Bitmap.startCounter
  by_cases hzero : c.is 0
  · obtain ⟨-, hcounts, -⟩ := fileSetBit_keeps b offset
    rw [if_pos hzero, hzero, Bool.true_or, if_pos rfl]
    dsimp only
    rw [hcounts]
    exact (Counts.sets_use _ hno hmapped).counterAt k
  · rw [if_neg hzero, Bool.eq_false_iff.mpr hzero, Bool.false_or]
    exact (Counts.stored_setCounter _ hno hmapped).counterAt k

/-- A turn of `bitmap_startwrite`: a write more, unless the counter is full. -/
theorem Capped.startTurn (h : Capped b w) (hs : Sound b w) {turn : Turn}
    (hpage : b.counts.page offset < b.counts.pages) (hturn : b.startTurn offset true = (b', turn)) :
    turn = .full ∧ Capped b' w ∨ turn ≠ .full ∧
      ∀ w', (∀ k, k ≠ b.counts.chunk offset → w' k = w k) →
        w' (b.counts.chunk offset) = w (b.counts.chunk offset) + 1 → Capped b' w' := by
  have hsame := same_checkpage (b := b.counts) (b.counts.page offset)
  obtain ⟨hmapped, hget⟩ := getCounter_checkpage hs.noHijack hpage
  obtain ⟨hframe, hs₁⟩ := hs.same hsame (Counts.tallied_checkpage hs.tallied _)
  have h₁ : Capped (b.setCounts (b.counts.checkpage (b.counts.page offset) true)) w :=
    h.shrinks (shrinks_same hsame)
  unfold Bitmap.startTurn at hturn
  rw [if_neg (Nat.not_le.mpr hpage)] at hturn
  dsimp only at hturn
  have hchunk := hframe.chunk
  generalize b.counts.checkpage (b.counts.page offset) true = c at *
  rw [show (b.setCounts c).counts.getCounter offset = _ from hget] at hturn
  dsimp only at hturn
  split_ifs at hturn with hfull
  · obtain ⟨rfl, rfl⟩ := mk.inj hturn
    exact .inl ⟨rfl, h₁⟩
  · obtain ⟨rfl, rfl⟩ := mk.inj hturn
    refine .inr ⟨by simp, fun w' hother hself => ?_⟩
    have hcounted : (c.counterAt (c.chunk offset)).count ≤ _ := h₁.counted _
    have hmax : (c.counterAt (c.chunk offset)).count ≤ _ := h₁.max _
    refine h₁.sets (counterAt_startCounter hs₁.noHijack hmapped _) (hchunk ▸ hother) ?_ ?_
    · rw [hchunk, hself]
      rw [show c.chunk = b.counts.chunk from hchunk] at *
      split_ifs
      · show 3 ≤ _
        omega
      · show _ + 1 ≤ _
        omega
    · split_ifs
      · show 3 ≤ 2 ^ 14 - 1
        decide
      · exact lt_of_le_of_ne hmax hfull

/-- A turn of `bitmap_endwrite`: a write less. -/
theorem Capped.endTurn (h : Capped b w) (hs : Sound b w) {success : Bool} {blocks : Nat}
    (hpos : 0 < w (b.counts.chunk offset)) (hturn : b.endTurn offset success = some (b', blocks))
    (hother : ∀ k, k ≠ b.counts.chunk offset → w' k = w k)
    (hself : w' (b.counts.chunk offset) + 1 = w (b.counts.chunk offset)) : Capped b' w' := by
  unfold Bitmap.endTurn at hturn
  rcases hs.getCounter offset with ⟨-, hmapped, hget⟩ | ⟨hget, -⟩
  · rw [hget] at hturn
    obtain ⟨rfl, -⟩ := mk.inj (Option.some.inj hturn)
    have hcounted := hs.counted _ hpos
    have hle := h.counted (b.counts.chunk offset)
    have hmax := h.max (b.counts.chunk offset)
    generalize hc : b.counts.counterAt (b.counts.chunk offset) = c at *
    unfold endCounter
    dsimp only
    have hdec : ((if (!success && !c.needed) = true then { c with needed := true } else
      c).dec).count + 1 =
        c.count := count_endCounter (by omega) success
    generalize (if (!success && !c.needed) = true then { c with needed := true } else
      c).dec = c' at *
    have hset : Capped (b.setCounts (b.counts.setCounter offset c')) w' :=
      h.sets (stored_setCounter c' hs.noHijack hmapped).counterAt hother (by omega) (by omega)
    split_ifs
    · exact hset.shrinks (shrinks_same (same_setPending offset))
    · exact hset
  · generalize b.counts.getCounter offset = found at hget hturn
    obtain ⟨c, blocks'⟩ := found
    obtain rfl : c = none := hget
    cases hturn

/-- A counter whose flags change keeps its count. -/
theorem shrinks_setCounter (hs : Sound b w) (hmapped : b.counts.Mapped (b.counts.page offset))
    {c : Counter}
    (hle : c.count ≤ (b.counts.counterAt (b.counts.chunk offset)).count) :
    Shrinks b (b.setCounts (b.counts.setCounter offset c)) :=
  shrinks_sets (stored_setCounter c hs.noHijack hmapped).counterAt hle

theorem shrinks_setPending (b : Bitmap) (offset : Nat) :
    Shrinks b (b.setCounts (b.counts.setPending offset)) :=
  shrinks_same (same_setPending offset)

theorem shrinks_startSync (hs : Sound b w) (offset : Nat) (degraded : Bool) :
    Shrinks b (b.startSync offset degraded) := by
  unfold startSync
  rcases hs.getCounter offset with ⟨-, hmapped, hget⟩ | ⟨hget, -⟩
  · rw [hget]
    dsimp only
    split_ifs
    · exact shrinks_setCounter hs hmapped (le_refl _)
    · exact Shrinks.refl b
  · rw [hget]
    exact Shrinks.refl b

theorem shrinks_endSync (hs : Sound b w) (offset : Nat) (aborted : Bool) :
    Shrinks b (b.endSync offset aborted) := by
  unfold endSync
  rcases hs.getCounter offset with ⟨-, hmapped, hget⟩ | ⟨hget, -⟩
  · rw [hget]
    dsimp only
    split_ifs
    · exact shrinks_setCounter hs hmapped (le_refl _)
    · exact (shrinks_setCounter
        (c := { (b.counts.counterAt (b.counts.chunk offset)) with resync := false })
        hs hmapped (le_refl _)).trans (shrinks_setPending _ offset)
    · exact shrinks_setCounter hs hmapped (le_refl _)
    · exact Shrinks.refl b
  · rw [hget]
    exact Shrinks.refl b

/-! ## The daemon -/

/-- The counter stands for no write and has no flag. -/
def Counter.Idle (c : Counter) : Prop := c.needed = false ∧ c.resync = false ∧ c.count ≤ 2

theorem Counter.idle_of_is {c : Counter} {n : Nat} (hn : n ≤ 2) (h : c.is n) : c.Idle := by
  simp only [is, Bool.and_eq_true, Bool.not_eq_true', beq_iff_eq] at h
  exact ⟨h.1.1, h.1.2, h.2.trans_le hn⟩

/-- What the daemon does to a bitmap: no counter gets higher, and only idle ones change or lose
their bit. -/
structure Sweeps (b b' : Bitmap) : Prop where
  shrinks : Shrinks b b'
  bitAt : ∀ k, b'.store.bitAt k = b.store.bitAt k
  changes : ∀ k, b'.counts.counterAt k = b.counts.counterAt k ∨ (b.counts.counterAt k).Idle
  clears : ∀ k, b'.store.filemap (b.store.bitAt k) = b.store.filemap (b.store.bitAt k) ∨
    (b.counts.counterAt k).Idle

theorem Sweeps.refl (b : Bitmap) : Sweeps b b :=
  ⟨Shrinks.refl b, fun _ => rfl, fun _ => .inl rfl, fun _ => .inl rfl⟩

theorem Sweeps.trans {b'' : Bitmap} (h : Sweeps b b') (h' : Sweeps b' b'') : Sweeps b b'' := by
  have hidle : ∀ k, (b'.counts.counterAt k).Idle → (b.counts.counterAt k).Idle := by
    intro k hidle
    rcases h.changes k with heq | hold
    · rw [← heq]
      exact hidle
    · exact hold
  refine ⟨h.shrinks.trans h'.shrinks, fun k => (h'.bitAt k).trans (h.bitAt k),
    fun k => ?_, fun k => ?_⟩
  · rcases h'.changes k with heq | hold
    · rw [heq]
      exact h.changes k
    · exact .inr (hidle k hold)
  · rcases h'.clears k with heq | hold
    · rw [h.bitAt] at heq
      rw [heq]
      exact h.clears k
    · exact .inr (hidle k hold)

/-- Counters that read the same, and the file as it was. -/
theorem sweeps_same {c : Counts} (h : b.counts.Same c) : Sweeps b (b.setCounts c) :=
  ⟨shrinks_same h, fun _ => rfl, fun k => .inl (h.counterAt k), fun _ => .inl rfl⟩

/-- An idle counter of a page goes down. -/
theorem sweeps_sets {block : Nat} {c : Counts} {v : Counter}
    (hsets : Counts.Sets b.counts c block v)
    (hidle : (b.counts.counterAt (b.counts.chunk block)).Idle)
    (hle : v.count ≤ (b.counts.counterAt (b.counts.chunk block)).count) :
    Sweeps b (b.setCounts c) := by
  refine ⟨shrinks_sets hsets.counterAt hle, fun _ => rfl, fun k => ?_, fun _ => .inl rfl⟩
  by_cases hk : k = b.counts.chunk block
  · rw [hk]
    exact .inr hidle
  · exact .inl ((hsets.counterAt k).trans (if_neg hk))

theorem sweeps_sweepCounter (hs : Sound b w) {block : Nat} (needSync : Bool)
    (hmapped : b.counts.Mapped (b.counts.page block)) :
    Sweeps b (b.sweepCounter block (b.counts.counterAt (b.counts.chunk block)) needSync) := by
  unfold sweepCounter
  generalize hc : b.counts.counterAt (b.counts.chunk block) = c
  split_ifs with hone hlow
  · -- the bit goes with the counter
    have his := (Bool.and_eq_true_iff.mp hone).1
    have hidle := idle_of_is (by decide) his
    have hold : c ≠ zero := by
      rintro rfl
      cases his
    obtain ⟨hsets, -⟩ := sets_release hs.tallied hs.noHijack hmapped (hc ▸ hold)
    have hsweeps := sweeps_sets hsets (hc ▸ hidle) (Nat.zero_le _)
    generalize (b.counts.setCounter block zero).countPage block (-1) = counts at *
    obtain ⟨hframe, hcounts, hbits⟩ := fileClearBit_keeps (b.setCounts counts) block
    rw [hsets.frame.chunk] at hbits
    refine ⟨fun k => ?_, fun k => (hframe.bitAt k).trans (hsweeps.bitAt k),
      fun k => ?_, fun k => ?_⟩
    · rw [hcounts]
      exact hsweeps.shrinks k
    · rw [hcounts]
      exact hsweeps.changes k
    · by_cases hk : k = b.counts.chunk block
      · rw [hk, hc]
        exact .inr hidle
      · exact .inl (hbits k hk)
  · -- from two to one
    simp only [Bool.and_eq_true, Bool.not_eq_true', Counter.atMost, decide_eq_true_eq] at hlow
    have hidle : c.Idle := ⟨hlow.2.1.1, hlow.2.1.2, hlow.2.2⟩
    have hpos : 0 < c.count := by
      refine Nat.pos_of_ne_zero fun hzero => ?_
      have his : c.is 0 := by
        simp only [Counter.is, hidle.1, hidle.2.1, hzero, Bool.not_false, Bool.and_self,
          beq_self_eq_true]
      cases hlow.1.symm.trans his
    have hsweeps := sweeps_sets (Counts.stored_setCounter ⟨false, false, 1⟩ hs.noHijack
      hmapped).toSets
      (hc ▸ hidle) (hc ▸ hpos)
    exact hsweeps.trans (sweeps_same (Counts.same_setPending block))
  · exact Sweeps.refl b

/-- **The daemon changes only counters that stand for no write and have no flag**, and clears no
other bits. -/
theorem sweeps_sweep (needSync : Bool) : ∀ {fuel j nextpage : Nat} {b : Bitmap}, Sound b w →
    Sweeps b (sweep needSync fuel j nextpage b) := by
  intro fuel
  induction fuel with
  | zero => exact fun _ => Sweeps.refl _
  | succ fuel ih =>
    intro j nextpage b hs
    unfold sweep
    by_cases hj : j < b.counts.chunks
    · rw [if_pos hj]
      dsimp only
      by_cases hskip : j = nextpage ∧ (b.counts.bp (j / pageCounters)).pending = false
      · rw [if_pos hskip]
        exact ih hs
      · rw [if_neg hskip]
        generalize (if j = nextpage then nextpage + pageCounters else nextpage) = nextpage'
        have hpending : Sweeps b (if j = nextpage then b.takePending (j / pageCounters) else b) ∧
            Sound (if j = nextpage then b.takePending (j / pageCounters) else b) w := by
          split_ifs
          · exact ⟨sweeps_same (same_setPage rfl), (hs.takePending _).2⟩
          · exact ⟨Sweeps.refl b, hs⟩
        generalize (if j = nextpage then b.takePending (j / pageCounters) else b) = b₁ at *
        obtain ⟨hsweeps, hs₁⟩ := hpending
        rcases hs₁.getCounter (j * b₁.counts.csize) with ⟨-, hmapped, hget⟩ | ⟨hget, -⟩
        · rw [hget]
          exact (hsweeps.trans (sweeps_sweepCounter hs₁ needSync hmapped)).trans
            (ih (hs₁.sweepCounter needSync hmapped).2)
        · rw [hget]
          exact hsweeps.trans (ih hs₁)
    · rw [if_neg hj]
      exact Sweeps.refl b

end Capped

/-! ## Runs -/

namespace Dirty

/-- The counters are exact, each page knows how many of its counters are in use, and the daemon
would take no bit from a chunk that is written to or has a flag. -/
structure Exact (s : Dirty) : Prop where
  busy : ∀ k, 0 < s.counted k → (s.bitmap.counts.counterAt k).count = 2 + s.counted k
  aging : ∀ k, s.counted k = 0 → (s.bitmap.counts.counterAt k).count ∈ [2, 1, 0]
  below : ∀ k, (s.bitmap.counts.counterAt k).count ≤ max
  inUse : ∀ page, (s.bitmap.counts.bp page).count =
    ((range pageCounters).filter fun o =>
      s.bitmap.counts.counterAt (page * pageCounters + o) ≠ zero).card
  daemon : ∀ k, s.bitmap.store.filemap (s.bitmap.store.bitAt k) = true →
    s.daemonWork.bitmap.store.filemap (s.bitmap.store.bitAt k) = false →
      s.counted k = 0 ∧ (s.bitmap.counts.counterAt k).needed = false ∧
        (s.bitmap.counts.counterAt k).resync = false

structure ExactInv (s : Dirty) : Prop extends Inv s where
  capped : Capped s.bitmap s.counted

/-- One write moves on, and the bitmap keeps its shape. -/
theorem Capped.setPhase {s t : Dirty} {b : Bitmap} {i : Nat} {w' : Write}
    (hframe : Frame s.bitmap b)
    (hcapped : Capped b fun k => (s.writes.set i w').countP fun w =>
      w.holds s.bitmap.counts.csize s.bitmap.counts.pages k) (hb : t.bitmap = b)
    (hw : t.writes = s.writes.set i w') : Capped t.bitmap t.counted := by
  rw [hb]
  refine hcapped.congr fun k => ?_
  rw [counted, hb, hw, hframe.csize, hframe.pages]

theorem Capped.setBitmap {s t : Dirty} {b : Bitmap} (hframe : Frame s.bitmap b)
    (hcapped : Capped b s.counted)
    (hb : t.bitmap = b) (hw : t.writes = s.writes) : Capped t.bitmap t.counted := by
  rw [hb]
  refine hcapped.congr fun k => ?_
  rw [counted, hb, hw, hframe.csize, hframe.pages, counted]

theorem ExactInv.startTurn {s s' : Dirty} {i : Nat} (h : s.ExactInv)
    (hstep : s.startTurn i true = some s') :
    s'.ExactInv := by
  refine ⟨h.toInv.startTurn hstep, ?_⟩
  obtain ⟨o, n, cur, left, hi, b, turn, hturn, hs'⟩ := startTurn_cases hstep
  have hp := h.proper _ (List.mem_of_getElem? hi)
  have hc := s.bitmap.counts.csize_pos
  rcases lt_or_ge (s.bitmap.counts.page cur) s.bitmap.counts.pages with hpage | hpage
  · have hcap := h.capped.startTurn h.sound hpage hturn
    obtain ⟨b', hframe, ⟨hturn', -⟩ | ⟨hturn', -⟩⟩ := h.sound.startTurn hpage
    · obtain ⟨rfl, rfl⟩ := Prod.mk.inj (hturn.symm.trans hturn')
      subst hs'
      rcases hcap with ⟨-, hcap⟩ | ⟨hne, -⟩
      · exact Capped.setBitmap hframe hcap rfl rfl
      · exact absurd rfl hne
    · obtain ⟨rfl, rfl⟩ := Prod.mk.inj (hturn.symm.trans hturn')
      subst hs'
      obtain ⟨-, hold, hnew, hother⟩ := holds_took hc hp hpage rfl
      rcases hcap with ⟨hfull, -⟩ | ⟨-, hcap⟩
      · cases hfull
      · exact Capped.setPhase hframe (hcap _ (fun k hk => countP_set_same hi (hother k hk))
          (countP_set_more hi hold hnew)) rfl rfl
  · obtain ⟨rfl, rfl⟩ := Prod.mk.inj (hturn.symm.trans (startTurn_beyond _ _ hpage))
    subst hs'
    exact Capped.setPhase (Frame.refl _)
      (h.capped.congr fun k => countP_set_same hi (holds_beyond hc hp hpage k)) rfl rfl

theorem ExactInv.endTurn {s s' : Dirty} {i : Nat} (h : s.ExactInv) (hstep : s.endTurn i = some s') :
    s'.ExactInv := by
  refine ⟨h.toInv.endTurn hstep, ?_⟩
  obtain ⟨o, n, cur, left, success, hi, hcases⟩ := endTurn_cases hstep
  have hp := h.proper _ (List.mem_of_getElem? hi)
  have hc := s.bitmap.counts.csize_pos
  rcases lt_or_ge (s.bitmap.counts.page cur) s.bitmap.counts.pages with hpage | hpage
  · obtain ⟨-, hold, hnew, hother⟩ := holds_gave hc hp hpage rfl
    have hpos := counted_pos (List.mem_of_getElem? hi) hold
    obtain ⟨b, hturn, hframe, -⟩ := h.sound.endTurn success hpage hpos
    rcases hcases with ⟨hnone, -⟩ | ⟨b', blocks, hturn', rfl⟩
    · cases hturn.symm.trans hnone
    · obtain ⟨rfl, rfl⟩ := Prod.mk.inj (Option.some.inj (hturn'.symm.trans hturn))
      refine Capped.setPhase hframe (h.capped.endTurn h.sound hpos hturn'
        (fun k hk => countP_set_same hi (hother k hk)) (countP_set_less hi hold hnew)) rfl ?_
      show (s.noteEvents success).writes.set i _ = _
      rw [writes_noteEvents]
  · rcases hcases with ⟨-, rfl⟩ | ⟨b', blocks, hturn', -⟩
    · have hnone : ∀ k, Write.holds s.bitmap.counts.csize s.bitmap.counts.pages ⟨o, n, .ended⟩ k =
          Write.holds s.bitmap.counts.csize s.bitmap.counts.pages
            ⟨o, n, .ending cur left success⟩ k := by
        intro k
        rw [holds_ended_beyond hc hpage]
        exact Bool.and_false _
      exact Capped.setPhase (Frame.refl _) (h.capped.congr fun k => countP_set_same hi
        (hnone k)) rfl rfl
    · cases (endTurn_beyond _ _ hpage).symm.trans hturn'

theorem ExactInv.step {s s' : Dirty} {e : Event} (h : s.ExactInv) (halloc : s.Allocates e)
    (hstep : s.step e = some s') : s'.ExactInv := by
  have hinv := h.toInv.step halloc hstep
  cases e with
  | begin offset sectors =>
    cases hstep
    exact ⟨hinv, h.capped.congr (counted_begin s offset sectors)⟩
  | startTurn i alloc =>
    exact h.startTurn (halloc.startTurn.symm.trans hstep)
  | endwrite i success =>
    obtain ⟨o, n, hi, rfl⟩ := endwrite_cases hstep
    exact ⟨hinv, Capped.setPhase (Frame.refl _)
      (h.capped.congr fun k => countP_set_same hi (holds_endwrite success k)) rfl rfl⟩
  | endTurn i => exact h.endTurn hstep
  | startSync offset degraded =>
    cases hstep
    exact ⟨hinv, Capped.setBitmap (h.sound.startSync offset degraded).1
      (h.capped.shrinks (shrinks_startSync h.sound offset degraded)) rfl rfl⟩
  | endSync offset aborted =>
    cases hstep
    exact ⟨hinv, Capped.setBitmap (h.sound.endSync offset aborted).1
      (h.capped.shrinks (shrinks_endSync h.sound offset aborted)) rfl rfl⟩
  | daemonWork =>
    cases hstep
    exact ⟨hinv, Capped.setBitmap (sweep_sound (s.needSync && s.bitmap.external) h.sound).1
      (h.capped.shrinks (sweeps_sweep _ h.sound).shrinks) rfl rfl⟩
  | setArray degraded events =>
    cases hstep
    exact ⟨hinv, h.capped⟩

theorem card_inUse {b : Counts} (htallied : b.Tallied) (hno : b.NoHijack) (page : Nat) :
    (b.bp page).count = ((Finset.range pageCounters).filter fun o =>
      b.counterAt (page * pageCounters + o) ≠ Counter.zero).card := by
  have hplace : ∀ o < pageCounters, (page * pageCounters + o) / pageCounters = page ∧
      (page * pageCounters + o) % pageCounters = o := by
    intro o ho
    rw [Nat.mul_comm, Nat.mul_add_div pageCounters_pos, Nat.div_eq_of_lt ho, Nat.mul_add_mod,
      Nat.mod_eq_of_lt ho]
    exact ⟨Nat.add_zero _, rfl⟩
  cases hmap : (b.bp page).map with
  | missing =>
    rw [(htallied page).2 hmap, Finset.filter_false_of_mem, Finset.card_empty]
    intro o ho
    rw [not_not, Counts.counterAt, (hplace o (Finset.mem_range.mp ho)).1, hmap]
  | hijacked lo hi => exact absurd hmap (hno page lo hi)
  | mapped map =>
    rw [(htallied page).1 map hmap, WriteIntent.inUse]
    refine congrArg Finset.card (Finset.filter_congr fun o ho => ?_)
    obtain ⟨hdiv, hmod⟩ := hplace o (Finset.mem_range.mp ho)
    rw [Counts.counterAt, hdiv, hmap, hmod]

theorem ExactInv.exact {s : Dirty} (h : s.ExactInv) : s.Exact := by
  refine ⟨fun k hk => ?_, fun k hk => ?_, h.capped.max, card_inUse h.sound.tallied h.sound.noHijack,
    fun k hset hclear => ?_⟩
  · have hge := h.sound.counted k hk
    have hle := h.capped.counted k
    omega
  · have hle := h.capped.counted k
    rw [hk] at hle
    simp only [List.mem_cons, List.not_mem_nil, or_false]
    omega
  · rcases (sweeps_sweep (s.needSync && s.bitmap.external) h.sound).clears k with heq
      | ⟨hneeded, hresync, hcount⟩
    · exact absurd ((heq.trans hset).symm.trans hclear) Bool.true_eq_false.mp
    · refine ⟨Nat.eq_zero_of_not_pos fun hpos => ?_, hneeded, hresync⟩
      have hge := h.sound.counted k hpos
      omega

/-- A bitmap as it is after loading: nothing is written, and no counter is above two. -/
structure Loaded (s : Dirty) : Prop extends AtRest s where
  low : ∀ k, (s.bitmap.counts.counterAt k).count ≤ 2

theorem Loaded.exactInv {s : Dirty} (h : s.Loaded) : s.ExactInv :=
  ⟨h.toAtRest.inv, fun k => (h.low k).trans (Nat.le_add_left _ _), fun k =>
    (h.low k).trans (by decide)⟩

/-- **The counters are exact** after every run that allocates the pages it needs. -/
theorem counters_exact {s s' : Dirty} {es : List Event} (h : s.Loaded)
    (halloc : Along step Allocates s es)
    (hrun : run step s es = some s') : s'.Exact :=
  (run_preserves (I := ExactInv) (fun _ _ _ hi ha hs => hi.step ha hs) h.exactInv halloc hrun).exact

/-- Two writes to a chunk, of which one has ended, and two passes of the daemon. -/
theorem counters_exact_two : ∃ s, run step idle [.begin 0 8, .startTurn 0 true, .begin 0 8,
    .startTurn 1 true,
    .endwrite 0 true, .endTurn 0, .daemonWork, .daemonWork] = some s ∧ s.Exact :=
  ⟨_, rfl, counters_exact ⟨idle_atRest, fun _ => Nat.zero_le 2⟩ (by decide +kernel)
    (rfl : run step idle [.begin 0 8, .startTurn 0 true, .begin 0 8, .startTurn 1 true,
      .endwrite 0 true, .endTurn 0, .daemonWork, .daemonWork] = some _)⟩

end Dirty

end MdRaid.WriteIntent
