import MdRaid.WriteIntent.Writes

/-!
# A write is inside the bitmap

As long as no page is hijacked, the counter of a chunk is at least two more than the
writes that are counted in it, and a chunk whose counter is not zero has its bit. A page
is freed only when all its counters are zero, for it keeps the number of those that are
not.
-/

namespace MdRaid.WriteIntent

open Runs Function Finset List Bitmap Counter Counts WriteIntent.Frame Option Write

/-! ## Pages that keep their tally -/

/-- The counters of a page that are not zero. -/
@[irreducible] def inUse (map : Nat → Counter) : Finset Nat :=
  (Finset.range pageCounters).filter fun o => map o ≠ Counter.zero

section

variable {map : Nat → Counter}

theorem mem_inUse {o : Nat} : o ∈ inUse map ↔ o < pageCounters ∧ map o ≠ zero := by
  unfold inUse
  rw [Finset.mem_filter, Finset.mem_range]

theorem inUse_eq_empty : (inUse map).card = 0 ↔ ∀ o < pageCounters, map o = Counter.zero := by
  rw [card_eq_zero, eq_empty_iff_forall_notMem]
  simp only [mem_inUse, not_and, not_not]

theorem inUse_update_use {o : Nat} {c : Counter} (ho : o < pageCounters)
    (hzero : map o = zero) (hc : c ≠ zero) :
    (inUse (update map o c)).card = (inUse map).card + 1 := by
  have heq : inUse (update map o c) = insert o (inUse map) := by
    ext x
    simp only [mem_inUse, mem_insert]
    by_cases hx : x = o
    · rw [hx, update_self]
      exact ⟨fun _ => .inl rfl, fun _ => ⟨ho, hc⟩⟩
    · rw [update_of_ne hx]
      exact ⟨.inr, fun h => h.resolve_left hx⟩
  rw [heq, card_insert_of_notMem]
  intro hmem
  exact (mem_inUse.mp hmem).2 hzero

theorem inUse_update_keep {o : Nat} {c : Counter} (hold : map o ≠ zero)
    (hc : c ≠ zero) : inUse (update map o c) = inUse map := by
  ext x
  rw [mem_inUse, mem_inUse]
  refine and_congr_right fun _ => ?_
  by_cases hx : x = o
  · rw [hx, update_self]
    exact ⟨fun _ => hold, fun _ => hc⟩
  · rw [update_of_ne hx]

theorem inUse_update_release {o : Nat} (ho : o < pageCounters)
    (hold : map o ≠ zero) : (inUse (update map o zero)).card + 1 = (inUse map).card := by
  have h := @inUse_update_use (update map o zero) o _ ho (update_self ..) hold
  rw [update_idem, update_eq_self] at h
  exact h.symm

end

namespace Counts

variable {b : Counts}

/-- Every page knows how many of its counters are in use. -/
def Tallied (b : Counts) : Prop :=
  ∀ page, (∀ map, (b.bp page).map = .mapped map → (b.bp page).count = (inUse map).card) ∧
    ((b.bp page).map = .missing → (b.bp page).count = 0)

theorem tallied_setPage {page : Nat} {p : BitmapPage} (h : b.Tallied)
    (hmapped : ∀ map, p.map = .mapped map → p.count = (inUse map).card)
    (hmissing : p.map = .missing → p.count = 0) : (b.setPage page p).Tallied := by
  intro page'
  by_cases hp : page' = page
  · rw [hp, bp_setPage_self]
    exact ⟨hmapped, hmissing⟩
  · rw [bp_setPage_of_ne p hp]
    exact h page'

theorem tallied_checkpage (h : b.Tallied) (page : Nat) : (b.checkpage page true).Tallied := by
  unfold checkpage
  split
  · next hmap =>
      refine tallied_setPage h (fun map hm => ?_) (by simp)
      obtain rfl := PageMap.mapped.inj hm
      show (b.bp page).count = _
      rw [(h page).2 hmap]
      symm
      exact inUse_eq_empty.mpr fun _ _ => rfl
  · exact h

theorem tallied_setPending (h : b.Tallied) (offset : Nat) : (b.setPending offset).Tallied :=
  tallied_setPage h (h _).1 (h _).2

theorem counterAt_chunk {offset : Nat} {map : Nat → Counter}
    (hmap : (b.bp (b.page offset)).map = .mapped map) :
    b.counterAt (b.chunk offset) = map (b.chunk offset % pageCounters) := by
  unfold counterAt
  rw [show b.chunk offset / pageCounters = b.page offset from rfl, hmap]

theorem setCounter_eq {offset : Nat} {map : Nat → Counter} (c : Counter)
    (hmap : (b.bp (b.page offset)).map = .mapped map) :
    b.setCounter offset c = b.setPage (b.page offset)
      ⟨.mapped (update map (b.chunk offset % pageCounters) c), (b.bp (b.page offset)).pending,
        (b.bp (b.page offset)).count⟩ := by
  rw [setCounter, hmap]
  rfl

theorem countPage_eq (b : Counts) (offset : Nat) (inc : Int) :
    b.countPage offset inc = (b.setPage (b.page offset)
      ⟨(b.bp (b.page offset)).map, (b.bp (b.page offset)).pending,
        ((b.bp (b.page offset)).count + inc).toNat⟩).checkfree (b.page offset) :=
  rfl

section

variable {offset : Nat} {c : Counter} (h : b.Tallied) (hmapped : b.Mapped (b.page offset))
include h hmapped

/-- A counter in use gets another value. -/
theorem tallied_keep (hold : b.counterAt (b.chunk offset) ≠ zero) (hc : c ≠ zero) :
    (b.setCounter offset c).Tallied := by
  obtain ⟨map, hmap⟩ := hmapped
  rw [setCounter_eq c hmap]
  rw [counterAt_chunk hmap] at hold
  refine tallied_setPage h (fun m hm => ?_) (by simp)
  obtain rfl := PageMap.mapped.inj hm
  rw [inUse_update_keep hold hc]
  exact (h _).1 map hmap

/-- A counter is taken into use. -/
theorem tallied_use (hold : b.counterAt (b.chunk offset) = zero) (hc : c ≠ zero) :
    ((b.countPage offset 1).setCounter offset c).Tallied := by
  obtain ⟨map, hmap⟩ := hmapped
  rw [counterAt_chunk hmap] at hold
  have hcount : b.countPage offset 1 = b.setPage (b.page offset)
      ⟨.mapped map, (b.bp (b.page offset)).pending, (b.bp (b.page offset)).count + 1⟩ := by
    rw [countPage_eq, checkfree, bp_setPage_self, hmap, if_neg]
    · rfl
    · show (((b.bp (b.page offset)).count : Int) + 1).toNat ≠ 0
      omega
  rw [hcount, setCounter_eq c (by rw [page_setPage, bp_setPage_self]), page_setPage, chunk_setPage,
    setPage_setPage, bp_setPage_self]
  refine tallied_setPage h (fun m hm => ?_) (by simp)
  obtain rfl := PageMap.mapped.inj hm
  rw [inUse_update_use (Nat.mod_lt _ pageCounters_pos) hold hc]
  exact congrArg (· + 1) ((h _).1 map hmap)

end

/-- A counter goes out of use, and with the last one of its page the page. -/
theorem sets_release {offset : Nat} (h : b.Tallied) (hno : b.NoHijack)
    (hmapped : b.Mapped (b.page offset))
    (hold : b.counterAt (b.chunk offset) ≠ zero) :
    Sets b ((b.setCounter offset zero).countPage offset (-1)) offset zero ∧
      ((b.setCounter offset zero).countPage offset (-1)).Tallied := by
  obtain ⟨-, hcounter⟩ := (setCounter_mapped (c := zero) hno hmapped.choose_spec).2
  obtain ⟨map, hmap⟩ := hmapped
  rw [counterAt_chunk hmap] at hold
  have hcard := inUse_update_release (Nat.mod_lt _ pageCounters_pos) hold
  rw [← (h _).1 map hmap] at hcard
  rw [setCounter_eq _ hmap] at hcounter
  rw [setCounter_eq _ hmap, countPage_eq, page_setPage, setPage_setPage, bp_setPage_self]
  dsimp only
  generalize hmap' : update map (b.chunk offset % pageCounters) zero = map' at *
  have hcount : (((b.bp (b.page offset)).count : Int) + -1).toNat = (inUse map').card := by omega
  rw [hcount, checkfree, bp_setPage_self, setPage_setPage]
  have hsame : ∀ p : BitmapPage, p.map = .mapped map' → ∀ k,
    (b.setPage (b.page offset) p).counterAt k =
      if k = b.chunk offset then zero else b.counterAt k := by
    intro p hp k
    rw [← hcounter k, counterAt_setPage, counterAt_setPage, hp]
  split_ifs with hzero
  · -- the last one: no counter of the page is in use
    have hall := inUse_eq_empty.mp hzero
    refine ⟨⟨rfl, rfl, rfl, noHijack_setPage hno fun lo hi => by simp, fun k => ?_⟩,
      tallied_setPage h (by simp) fun _ => hzero⟩
    rw [← hsame ⟨.mapped map', false, 0⟩ rfl k, counterAt_setPage, counterAt_setPage]
    split_ifs
    · exact (hall _ (Nat.mod_lt _ pageCounters_pos)).symm
    · rfl
  · refine ⟨⟨rfl, rfl, rfl, noHijack_setPage hno fun lo hi => by simp, hsame _ rfl⟩,
      tallied_setPage h (fun m hm => ?_) (by simp)⟩
    show (inUse map').card = _
    rw [PageMap.mapped.inj hm]

end Counts

/-! ## Counters and writes -/

/-- The counters against the writes that are counted, `w k` of them in chunk `k`. -/
structure Sound (b : Bitmap) (w : Nat → Nat) : Prop where
  noHijack : b.counts.NoHijack
  tallied : b.counts.Tallied
  pages : ∀ k < b.counts.chunks, k / pageCounters < b.counts.pages
  fits : ∀ k < b.counts.chunks, b.store.bitAt k / pageBits < b.store.filePages
  counted : ∀ k, 0 < w k → w k + 2 ≤ (b.counts.counterAt k).count
  flags : ∀ k, ((b.counts.counterAt k).needed || (b.counts.counterAt k).resync) = true →
    2 ≤ (b.counts.counterAt k).count
  bit : ∀ k < b.counts.chunks, b.counts.counterAt k ≠ zero →
    b.store.filemap (b.store.bitAt k) = true

theorem ne_zero_of_count {c : Counter} (h : 0 < c.count) : c ≠ zero := by
  rintro rfl
  exact lt_irrefl 0 h

/-- A counter that is neither zero nor one is at least two, if those with flags are. -/
theorem two_le_count {c : Counter} (hzero : c.is 0 = false) (hone : c.is 1 = false)
    (hflags : (c.needed || c.resync) → 2 ≤ c.count) : 2 ≤ c.count := by
  by_cases hf : (c.needed || c.resync)
  · exact hflags hf
  · obtain ⟨hneeded, hresync⟩ := Bool.or_eq_false_iff.mp (Bool.eq_false_iff.mpr hf)
    simp only [Counter.is, hneeded, hresync, Bool.not_false, Bool.and_self, Bool.true_and,
      beq_eq_false_iff_ne] at hzero hone
    omega

section Sound

variable {b b' : Bitmap} {w w' : Nat → Nat}

theorem Sound.congr (h : Sound b w) (hw : ∀ k, w' k = w k) : Sound b w' := by
  obtain rfl : w' = w := funext hw
  exact h

/-- `b'` has the shape of `b` and counts the writes `w`. -/
abbrev StaysSound (b b' : Bitmap) (w : Nat → Nat) : Prop :=
  Frame b b' ∧ Sound b' w

theorem Sound.stays (h : Sound b w) : StaysSound b b w :=
  ⟨refl b, h⟩

theorem StaysSound.trans {b'' : Bitmap} (h : StaysSound b b' w) (h' : StaysSound b' b'' w') :
    StaysSound b b'' w' :=
  ⟨h.1.trans h'.1, h'.2⟩

/-- Counters that read the same. -/
theorem Sound.same {c : Counts} (h : Sound b w) (hsame : b.counts.Same c) (htally : c.Tallied) :
    StaysSound b (b.setCounts c) w := by
  have hframe := hsame.frame
  refine ⟨hframe, hsame.noHijack h.noHijack, htally, fun k hk => ?_, fun k hk => ?_,
    fun k => ?_, fun k => ?_,
    fun k hk => ?_⟩
  · rw [hframe.pages]
    exact h.pages k (hframe.chunks ▸ hk)
  · exact h.fits k (hframe.chunks ▸ hk)
  · show _ → _ ≤ (c.counterAt k).count
    rw [hsame.counterAt]
    exact h.counted k
  · show ((c.counterAt k).needed || (c.counterAt k).resync) → 2 ≤ (c.counterAt k).count
    rw [hsame.counterAt]
    exact h.flags k
  · show c.counterAt k ≠ _ → _
    rw [hsame.counterAt]
    exact h.bit k (hframe.chunks ▸ hk)

/-- One counter has changed, and with it the writes counted in it. -/
theorem Sound.sets {block : Nat} {c : Counter} (h : Sound b w) (hframe : Frame b b')
    (hsets : Counts.Sets b.counts b'.counts block c) (htally : b'.counts.Tallied)
    (hother : ∀ k, k ≠ b.counts.chunk block → w' k = w k)
    (hcounted : 0 < w' (b.counts.chunk block) → w' (b.counts.chunk block) + 2 ≤ c.count)
    (hflags : (c.needed || c.resync) → 2 ≤ c.count)
    (hbit : ∀ k < b.counts.chunks, (k = b.counts.chunk block → c ≠ zero) →
      (k ≠ b.counts.chunk block → b.store.filemap (b.store.bitAt k)) →
      b'.store.filemap (b.store.bitAt k)) : Sound b' w' := by
  refine ⟨hsets.noHijack, htally, fun k hk => ?_, fun k hk => ?_, fun k hk => ?_, fun k hk => ?_,
    fun k hk hne => ?_⟩
  · rw [hframe.pages]
    exact h.pages k (hframe.chunks ▸ hk)
  · rw [hframe.bitAt, hframe.filePages]
    exact h.fits k (hframe.chunks ▸ hk)
  · rw [hsets.counterAt]
    by_cases hq : k = b.counts.chunk block
    · subst hq
      rw [if_pos rfl]
      exact hcounted hk
    · rw [if_neg hq]
      rw [hother k hq] at hk ⊢
      exact h.counted k hk
  · rw [hsets.counterAt] at hk ⊢
    by_cases hq : k = b.counts.chunk block
    · rw [if_pos hq] at hk ⊢
      exact hflags hk
    · rw [if_neg hq] at hk ⊢
      exact h.flags k hk
  · rw [hframe.chunks] at hk
    rw [hsets.counterAt] at hne
    rw [hframe.bitAt]
    refine hbit k hk (fun hq => ?_) fun hq => ?_
    · rw [if_pos hq] at hne
      exact hne
    · rw [if_neg hq] at hne
      exact h.bit k hk hne

/-- A counter in use gets another value that is not zero. -/
theorem Sound.keep {block : Nat} {c : Counter} (h : Sound b w)
    (hmapped : b.counts.Mapped (b.counts.page block))
    (hold : b.counts.counterAt (b.counts.chunk block) ≠ zero) (hc : c ≠ zero)
    (hother : ∀ k, k ≠ b.counts.chunk block → w' k = w k)
    (hcounted : 0 < w' (b.counts.chunk block) → w' (b.counts.chunk block) + 2 ≤ c.count)
    (hflags : (c.needed || c.resync) → 2 ≤ c.count) :
    StaysSound b (b.setCounts (b.counts.setCounter block c)) w' := by
  have hstored := stored_setCounter c h.noHijack hmapped
  have hframe := hstored.frame
  refine ⟨hframe, h.sets hframe hstored.toSets (tallied_keep h.tallied hmapped hold hc)
    hother hcounted
    hflags fun k hk _ hset => ?_⟩
  by_cases hq : k = b.counts.chunk block
  · subst hq
    exact h.bit _ hk hold
  · exact hset hq

theorem StaysSound.setPending (h : StaysSound b b' w) (offset : Nat) :
    StaysSound b (b'.setCounts (b'.counts.setPending offset)) w :=
  h.trans (h.2.same (same_setPending offset) (tallied_setPending h.2.tallied offset))

theorem fileSetBit_keeps (b : Bitmap) (block : Nat) :
    Frame b (b.fileSetBit block) ∧ (b.fileSetBit block).counts = b.counts ∧
      ∀ bit, b.store.filemap bit → (b.fileSetBit block).store.filemap bit := by
  unfold fileSetBit
  dsimp only
  split_ifs
  · exact ⟨refl b, rfl, fun _ h => h⟩
  · refine ⟨⟨rfl, rfl, rfl, rfl, rfl⟩, rfl, fun bit h => ?_⟩
    show update b.store.filemap _ true bit
    by_cases hb : bit = b.store.bitAt (b.counts.chunk block)
    · rw [hb, update_self]
    · rw [update_of_ne hb]
      exact h

theorem fileClearBit_keeps (b : Bitmap) (block : Nat) :
    Frame b (b.fileClearBit block) ∧ (b.fileClearBit block).counts = b.counts ∧
      ∀ k, k ≠ b.counts.chunk block →
        (b.fileClearBit block).store.filemap (b.store.bitAt k) = b.store.filemap
          (b.store.bitAt k) := by
  unfold fileClearBit
  dsimp only
  split_ifs
  · exact ⟨refl b, rfl, fun _ _ => rfl⟩
  · refine ⟨⟨rfl, rfl, rfl, rfl, rfl⟩, rfl, fun k hk => ?_⟩
    exact update_of_ne (fun heq => hk (bitAt_injective _ heq)) ..

/-- **A write is counted.** -/
theorem Sound.startCounter {offset : Nat} (h : Sound b w)
    (hmapped : b.counts.Mapped (b.counts.page offset))
    (hother : ∀ k, k ≠ b.counts.chunk offset → w' k = w k)
    (hself : w' (b.counts.chunk offset) = w (b.counts.chunk offset) + 1) :
    StaysSound b (b.startCounter offset (b.counts.counterAt (b.counts.chunk offset))) w' := by
  have hcounted := h.counted (b.counts.chunk offset)
  have hflags := h.flags (b.counts.chunk offset)
  unfold Bitmap.startCounter
  by_cases hzero : b.counts.counterAt (b.counts.chunk offset) = zero
  · -- the first write of the chunk sets the bit
    rw [hzero] at hcounted ⊢
    rw [if_pos (by decide)]
    dsimp only
    have hnone : w (b.counts.chunk offset) = 0 := by
      by_contra hne
      exact absurd (hcounted (Nat.pos_of_ne_zero hne)) (Nat.not_succ_le_zero _)
    obtain ⟨hframe, hcounts, hbits⟩ := fileSetBit_keeps b offset
    rw [hcounts]
    have hsets := sets_use ⟨false, false, 3⟩ h.noHijack hmapped
    have hframe' := hframe.trans (Counts.Sets.frame (by rw [hcounts]; exact hsets))
    refine ⟨hframe', h.sets hframe' hsets (tallied_use h.tallied hmapped hzero (by decide))
      hother ?_ (by simp)
      fun k hk _ hset => ?_⟩
    · intro _
      rw [hself, hnone]
    · by_cases hq : k = b.counts.chunk offset
      · rw [hq] at hk ⊢
        exact ((fileSetBit_spec (h.fits _ hk)).2.2 _).mpr (.inr rfl)
      · exact hbits _ (hset hq)
  · generalize hc : b.counts.counterAt (b.counts.chunk offset) = c at *
    have hnot : c.is 0 = false := Bool.eq_false_iff.mpr fun his =>
      hzero (Counter.is_zero_iff.mp his)
    rw [hnot, if_neg (by simp)]
    by_cases hone : c.is 1
    · rw [if_pos hone]
      have hnone : w (b.counts.chunk offset) = 0 := by
        by_contra hne
        have := hcounted (Nat.pos_of_ne_zero hne)
        simp only [Counter.is, Bool.and_eq_true, beq_iff_eq] at hone
        omega
      refine h.keep hmapped (hc ▸ hzero) (by decide) hother (fun _ => ?_) (by simp)
      rw [hself, hnone]
    · rw [if_neg hone]
      refine h.keep hmapped (hc ▸ hzero) (ne_zero_of_count (Nat.succ_pos _)) hother
        (fun _ => ?_) fun hf => ?_
      · show _ ≤ c.count + 1
        have htwo := two_le_count hnot (Bool.eq_false_iff.mpr hone) hflags
        rw [hself]
        rcases Nat.eq_zero_or_pos (w (b.counts.chunk offset)) with hw | hw
        · omega
        · have := hcounted hw
          omega
      · exact (hflags hf).trans (Nat.le_succ _)

/-- A failed write sets a flag; the count goes down in either case. -/
theorem count_endCounter {c : Counter} (hpos : 0 < c.count) (success : Bool) :
    ((if (!success && !c.needed) = true then { c with needed := true } else c).dec).count + 1 =
    c.count := by
  have hcount : (if (!success && !c.needed) = true then { c with needed := true } else c :
    Counter).count =
      c.count := by
    split_ifs <;> rfl
  rw [dec, if_pos (by rw [hcount]; exact hpos)]
  show (if (!success && !c.needed) = true then { c with needed := true } else c : Counter).count -
    1 + 1 = c.count
  rw [hcount]
  omega

/-- **A write is counted out.** -/
theorem Sound.endCounter {offset : Nat} (h : Sound b w)
    (hmapped : b.counts.Mapped (b.counts.page offset))
    (success : Bool) (hpos : 0 < w (b.counts.chunk offset))
    (hother : ∀ k, k ≠ b.counts.chunk offset → w' k = w k)
    (hself : w' (b.counts.chunk offset) + 1 = w (b.counts.chunk offset)) :
    StaysSound b (b.endCounter offset (b.counts.counterAt (b.counts.chunk offset)) success) w' := by
  have hcounted := h.counted (b.counts.chunk offset) hpos
  have hold : b.counts.counterAt (b.counts.chunk offset) ≠ zero := ne_zero_of_count (by omega)
  unfold Bitmap.endCounter
  generalize hc : b.counts.counterAt (b.counts.chunk offset) = c at *
  dsimp only
  have hdec := count_endCounter (c := c) (by omega) success
  generalize (if (!success && !c.needed) = true then { c with needed := true } else c).dec = c' at *
  have hkeep := @Sound.keep _ _ w' _ _ h hmapped (hc ▸ hold)
    (ne_zero_of_count (by omega : 0 < c'.count)) hother
    (fun _ => by omega) fun _ => by omega
  split_ifs
  · exact hkeep.setPending offset
  · exact hkeep

/-- What a read finds: the counter of the chunk in its page, or nothing. -/
theorem Sound.getCounter (h : Sound b w) (offset : Nat) :
    b.counts.page offset < b.counts.pages ∧ b.counts.Mapped (b.counts.page offset) ∧
        b.counts.getCounter offset = (some (b.counts.counterAt (b.counts.chunk offset)),
          b.counts.csize - offset % b.counts.csize) ∨
      (b.counts.getCounter offset).1 = none ∧ (b.counts.page offset < b.counts.pages →
        b.counts.counterAt (b.counts.chunk offset) = zero) := by
  rcases lt_or_ge (b.counts.page offset) b.counts.pages with hpage | hpage
  · rcases getCounter_cases h.noHijack hpage with ⟨hmapped, hget⟩ | ⟨-, hzero, hget⟩
    · exact .inl ⟨hpage, hmapped, hget⟩
    · exact .inr ⟨congrArg Prod.fst hget, fun _ => hzero⟩
  · refine .inr ⟨?_, fun hlt => absurd hlt (not_lt.mpr hpage)⟩
    rw [Counts.getCounter, if_pos hpage]

/-- **A turn of `bitmap_startwrite`** when the page can be allocated. -/
theorem Sound.startTurn (h : Sound b w) {offset : Nat}
    (hpage : b.counts.page offset < b.counts.pages) :
    ∃ b', Frame b b' ∧ (b.startTurn offset true = (b', .full) ∧ Sound b' w ∨
        b.startTurn offset true = (b', .took (b.counts.csize - offset % b.counts.csize)) ∧
          ∀ w', (∀ k, k ≠ b.counts.chunk offset → w' k = w k) →
            w' (b.counts.chunk offset) = w (b.counts.chunk offset) + 1 → Sound b' w') := by
  have hsame := same_checkpage (b := b.counts) (b.counts.page offset)
  obtain ⟨hmapped, hget⟩ := getCounter_checkpage h.noHijack hpage
  obtain ⟨hframe, hsound⟩ := h.same hsame (tallied_checkpage h.tallied _)
  have hchunk := hframe.chunk
  unfold Bitmap.startTurn
  rw [if_neg (not_le.mpr hpage)]
  dsimp only at hget ⊢
  generalize b.counts.checkpage (b.counts.page offset) true = c at *
  rw [show (b.setCounts c).counts.getCounter offset = _ from hget]
  dsimp only
  by_cases hfull : (c.counterAt (c.chunk offset)).count = max
  · rw [if_pos hfull]
    exact ⟨_, hframe, .inl ⟨rfl, hsound⟩⟩
  · rw [if_neg hfull]
    refine ⟨_, hframe.trans (@Sound.startCounter _ _ (update w
      (c.chunk offset) (w (c.chunk offset) + 1)) _ hsound hmapped (fun k hk => update_of_ne hk ..)
      (update_self ..)).1, .inr ⟨?_, fun w' hother hself => ?_⟩⟩
    · rw [show c.csize = b.counts.csize from hframe.csize]
      rfl
    · exact (hsound.startCounter hmapped (hchunk ▸ hother) (hchunk ▸ hself)).2

/-- **A turn of `bitmap_endwrite`** for a chunk the write is counted in. -/
theorem Sound.endTurn (h : Sound b w) {offset : Nat} (success : Bool)
    (hpage : b.counts.page offset < b.counts.pages) (hpos : 0 < w (b.counts.chunk offset)) :
    ∃ b', b.endTurn offset success = some (b', b.counts.csize - offset % b.counts.csize)
      ∧ Frame b b' ∧
      ∀ w', (∀ k, k ≠ b.counts.chunk offset → w' k = w k) →
        w' (b.counts.chunk offset) + 1 = w (b.counts.chunk offset) → Sound b' w' := by
  rcases h.getCounter offset with ⟨-, hmapped, hget⟩ | ⟨-, hzero⟩
  · unfold Bitmap.endTurn
    rw [hget]
    refine ⟨_, rfl, (@Sound.endCounter _ _ (update w (b.counts.chunk offset)
      (w (b.counts.chunk offset) - 1)) _ h hmapped success hpos
        (fun k hk => update_of_ne hk ..) ?_).1,
      fun w' hother hself => (h.endCounter hmapped success hpos hother hself).2⟩
    rw [update_self]
    omega
  · have := h.counted _ hpos
    rw [hzero hpage] at this
    exact absurd this (Nat.not_succ_le_zero _)

theorem endTurn_beyond (b : Bitmap) {offset : Nat} (success : Bool)
    (hpage : b.counts.pages ≤ b.counts.page offset) : b.endTurn offset success = none := by
  unfold endTurn getCounter
  rw [if_pos hpage]

/-- A page that is there is not allocated. -/
theorem startTurn_of_there {b : Bitmap} {offset : Nat} (alloc : Bool)
    (hmap : (b.counts.bp (b.counts.page offset)).map ≠ .missing) :
    b.startTurn offset alloc = b.startTurn offset true := by
  have hsame : ∀ alloc, b.counts.checkpage (b.counts.page offset) alloc = b.counts := by
    intro alloc
    unfold checkpage
    split
    · next h => exact absurd h hmap
    · rfl
  rw [Bitmap.startTurn, Bitmap.startTurn, hsame, hsame]

theorem startTurn_beyond (b : Bitmap) {offset : Nat} (alloc : Bool)
    (hpage : b.counts.pages ≤ b.counts.page offset) : b.startTurn offset alloc = (b, .beyond) := by
  unfold startTurn
  rw [if_pos hpage]

section

variable (h : Sound b w)
include h

/-- A counter with flags keeps its writes when the flags change. -/
theorem Sound.setFlags {offset : Nat} {c : Counter}
    (hmapped : b.counts.Mapped (b.counts.page offset))
    (hflag : ((b.counts.counterAt (b.counts.chunk offset)).needed ||
      (b.counts.counterAt (b.counts.chunk offset)).resync))
    (hcount : c.count = (b.counts.counterAt (b.counts.chunk offset)).count) :
    StaysSound b (b.setCounts (b.counts.setCounter offset c)) w := by
  have htwo := h.flags _ hflag
  refine h.keep hmapped (ne_zero_of_count (by omega)) (ne_zero_of_count (by omega)) (fun _ _ => rfl)
    ?_ fun _ => by omega
  rw [hcount]
  exact h.counted _

theorem Sound.startSync (offset : Nat) (degraded : Bool) :
    StaysSound b (b.startSync offset degraded) w := by
  unfold Bitmap.startSync
  rcases h.getCounter offset with ⟨-, hmapped, hget⟩ | ⟨hget, -⟩
  · rw [hget]
    dsimp only
    split_ifs with hset
    · refine h.setFlags hmapped ?_ rfl
      simp only [Bool.and_eq_true] at hset
      rw [hset.1.2, Bool.true_or]
    · exact h.stays
  · rw [hget]
    exact h.stays

theorem Sound.endSync (offset : Nat) (aborted : Bool) :
    StaysSound b (b.endSync offset aborted) w := by
  unfold Bitmap.endSync
  rcases h.getCounter offset with ⟨-, hmapped, hget⟩ | ⟨hget, -⟩
  · rw [hget]
    dsimp only
    by_cases hresync : (b.counts.counterAt (b.counts.chunk offset)).resync
    · have hflag : ((b.counts.counterAt (b.counts.chunk offset)).needed ||
          (b.counts.counterAt (b.counts.chunk offset)).resync) := by
        rw [hresync, Bool.or_true]
      rw [if_pos hresync]
      split_ifs
      · exact h.setFlags hmapped hflag rfl
      · exact (h.setFlags (c := ⟨_, false, _⟩) hmapped hflag rfl).setPending offset
      · exact h.setFlags hmapped hflag rfl
    · rw [if_neg hresync]
      exact h.stays
  · rw [hget]
    exact h.stays

/-- **The daemon** clears the bit of a chunk only when no write is counted in it. -/
theorem Sound.sweepCounter {block : Nat} (needSync : Bool)
    (hmapped : b.counts.Mapped (b.counts.page block)) :
    StaysSound b (b.sweepCounter block (b.counts.counterAt (b.counts.chunk block)) needSync) w := by
  have hcounted := h.counted (b.counts.chunk block)
  unfold Bitmap.sweepCounter
  generalize hc : b.counts.counterAt (b.counts.chunk block) = c at *
  by_cases hone : (c.is 1 && !needSync)
  · rw [if_pos hone]
    simp only [is, Bool.and_eq_true, beq_iff_eq] at hone
    have hold : c ≠ zero := ne_zero_of_count (by omega)
    obtain ⟨hsets, htally⟩ := sets_release h.tallied h.noHijack hmapped (hc ▸ hold)
    generalize hcounts : (b.counts.setCounter block zero).countPage block (-1) = counts at *
    have hframe := hsets.frame
    obtain ⟨hframe', hsame, hbits⟩ := fileClearBit_keeps (b.setCounts counts) block
    rw [hframe.chunk] at hbits
    have hall := hframe.trans hframe'
    refine ⟨hall, h.sets hall (c := zero) (by rw [hsame]; exact hsets) (by rw [hsame]; exact htally)
      (fun _ _ => rfl) (fun hpos => absurd (hcounted hpos) (by omega)) (by rintro ⟨⟩)
        fun k hk hne hset => ?_⟩
    have hq : k ≠ b.counts.chunk block := fun hq => hne hq rfl
    exact (hbits k hq).trans (hset hq)
  · rw [if_neg hone]
    split_ifs with hlow
    · simp only [atMost, Bool.and_eq_true, Bool.not_eq_true', decide_eq_true_eq] at hlow
      have hold : c ≠ zero := fun hz => by
        rw [is_zero_iff.mpr hz] at hlow
        cases hlow.1
      have hkeep := @Sound.keep _ _ w _ ⟨false, false, 1⟩ h hmapped (hc ▸ hold) (by decide)
        (fun _ _ => rfl) (fun hpos => absurd (hcounted hpos) (by omega)) (by simp)
      exact hkeep.setPending block
    · exact h.stays

theorem Sound.takePending (page : Nat) : StaysSound b (b.takePending page) w :=
  h.same (same_setPage rfl) (tallied_setPage h.tallied (h.tallied page).1 (h.tallied page).2)

end

theorem sweep_sound (needSync : Bool) : ∀ {fuel j nextpage : Nat} {b : Bitmap}, Sound b w →
    StaysSound b (sweep needSync fuel j nextpage b) w := by
  intro fuel
  induction fuel with
  | zero => exact fun h => ⟨refl _, h⟩
  | succ fuel ih =>
    intro j nextpage b h
    unfold sweep
    by_cases hj : j < b.counts.chunks
    · rw [if_pos hj]
      dsimp only
      by_cases hskip : j = nextpage ∧ (b.counts.bp (j / pageCounters)).pending = false
      · rw [if_pos hskip]
        exact ih h
      · rw [if_neg hskip]
        generalize (if j = nextpage then nextpage + pageCounters else nextpage) = nextpage'
        have hpending : StaysSound b (if j = nextpage then b.takePending
          (j / pageCounters) else b) w := by
          split_ifs
          · exact h.takePending _
          · exact h.stays
        generalize (if j = nextpage then b.takePending (j / pageCounters) else b) = b₁ at *
        rcases hpending.2.getCounter (j * b₁.counts.csize) with ⟨-, hmapped, hget⟩ | ⟨hget, -⟩
        · rw [hget]
          have hswept := hpending.2.sweepCounter needSync hmapped
          exact (hpending.trans hswept).trans (ih hswept.2)
        · rw [hget]
          exact hpending.trans (ih hpending.2)
    · rw [if_neg hj]
      exact h.stays

end Sound

/-! ## The chunks a write is counted in -/

/-- Whether the write is counted in chunk `k`, for chunks of `c` sectors in `pages` pages. -/
def Write.holds (c pages : Nat) (w : Write) (k : Nat) : Bool :=
  decide (k / pageCounters < pages) &&
    match w.phase with
    | .starting cur _ => decide (w.offset < (k + 1) * c ∧ (k + 1) * c ≤ cur)
    | .started => decide (0 < w.sectors ∧ k * c < w.offset + w.sectors ∧ w.offset < (k + 1) * c)
    | .ending cur _ _ => decide (cur < (k + 1) * c ∧ k * c < w.offset + w.sectors)
    | .ended => false

/-- The loops stand between the ends of the write. -/
def Write.Proper (w : Write) : Prop :=
  match w.phase with
  | .starting cur left | .ending cur left _ => 0 < left ∧ w.offset ≤ cur ∧ cur + left =
    w.offset + w.sectors
  | _ => True

/-- The chunk that comes next, and the end of it. -/
theorem next_chunk {c : Nat} (cur : Nat) (hc : 0 < c) :
    cur + (c - cur % c) = (cur / c + 1) * c ∧ cur / c * c ≤ cur ∧
      ∀ k, (cur < (k + 1) * c ↔ cur / c ≤ k) ∧ ((k + 1) * c ≤ cur ↔ k < cur / c) := by
  have hmod := Nat.mod_lt cur hc
  have hdiv := Nat.div_add_mod cur c
  rw [Nat.mul_comm] at hdiv
  refine ⟨by rw [Nat.succ_mul]; omega, by omega, fun k => ⟨?_, ?_⟩⟩
  · rw [← Nat.div_lt_iff_lt_mul hc, Nat.lt_succ_iff]
  · rw [← Nat.le_div_iff_mul_le hc, Nat.succ_le_iff]

section Holds

variable {c pages o n cur left : Nat} (hc : 0 < c)

include hc

/-- A turn of `bitmap_startwrite` counts the write in one chunk more. -/
theorem holds_took {phase : Phase} (hp : Write.Proper ⟨o, n, .starting cur left⟩)
    (hpage : cur / c / pageCounters < pages) (hphase : phase = if left ≤ c - cur % c then .started
      else .starting (cur + (c - cur % c)) (left - (c - cur % c))) :
    Write.Proper ⟨o, n, phase⟩ ∧ holds c pages ⟨o, n, .starting cur left⟩ (cur / c) = false ∧
      holds c pages ⟨o, n, phase⟩ (cur / c) ∧ ∀ k, k ≠ cur / c →
        holds c pages ⟨o, n, phase⟩ k = holds c pages ⟨o, n, .starting cur left⟩ k := by
  subst hphase
  obtain ⟨hleft, hle, hsum⟩ := hp
  dsimp only at hle hsum
  obtain ⟨hend, hstart, hchunk⟩ := next_chunk cur hc
  have hstarts := next_chunk o hc
  have hn : 0 < n := by omega
  have hfirst : o / c ≤ cur / c := Nat.div_le_div_right hle
  have hpos : 0 < c - cur % c := Nat.sub_pos_of_lt (Nat.mod_lt _ hc)
  refine ⟨?_, ?_, ?_, ?_⟩
  · split_ifs with hlast
    · trivial
    · exact ⟨by omega, by dsimp only; omega, by dsimp only; omega⟩
  · simp only [holds, (hchunk _).2, lt_irrefl, and_false, decide_false, Bool.and_false]
  · split_ifs with hlast
    · simp only [holds, hpage, (hstarts.2.2 _).1, hfirst, hn, and_true, true_and, decide_true,
        Bool.true_and, decide_eq_true_eq]
      omega
    · simp only [holds, hpage, (hstarts.2.2 _).1, hfirst, hend, le_refl, and_true, decide_true,
        Bool.and_self]
  · intro k hk
    split_ifs with hlast
    · have hiff : (k * c < o + n) ↔ (k + 1) * c ≤ cur := by
        rw [(hchunk k).2]
        constructor
        · intro hlt
          have : k * c < (cur / c + 1) * c := by omega
          have := (Nat.mul_lt_mul_right hc).mp this
          omega
        · intro hlt
          have := Nat.mul_le_mul_right c hlt.le
          omega
      simp only [holds, hiff, hn, true_and]
      congr 1
      exact decide_eq_decide.mpr and_comm
    · simp only [holds, hend]
      congr 1
      refine decide_eq_decide.mpr (and_congr_right fun _ => ?_)
      rw [(hchunk k).2, Nat.mul_le_mul_right_iff hc]
      omega

/-- A turn of `bitmap_endwrite` counts it out of one. -/
theorem holds_gave {success : Bool} {phase : Phase}
    (hp : Write.Proper ⟨o, n, .ending cur left success⟩)
    (hpage : cur / c / pageCounters < pages) (hphase : phase = if left ≤ c - cur % c then .ended
      else .ending (cur + (c - cur % c)) (left - (c - cur % c)) success) :
    Write.Proper ⟨o, n, phase⟩ ∧ holds c pages ⟨o, n, .ending cur left success⟩ (cur / c) ∧
      holds c pages ⟨o, n, phase⟩ (cur / c) = false ∧ ∀ k, k ≠ cur / c →
        holds c pages ⟨o, n, phase⟩ k = holds c pages ⟨o, n, .ending cur left success⟩ k := by
  subst hphase
  obtain ⟨hleft, hle, hsum⟩ := hp
  dsimp only at hle hsum
  obtain ⟨hend, hstart, hchunk⟩ := next_chunk cur hc
  have hpos : 0 < c - cur % c := Nat.sub_pos_of_lt (Nat.mod_lt _ hc)
  refine ⟨?_, ?_, ?_, ?_⟩
  · split_ifs with hlast
    · trivial
    · exact ⟨by omega, by dsimp only; omega, by dsimp only; omega⟩
  · simp only [holds, hpage, (hchunk _).1, le_refl, true_and, decide_true, Bool.true_and,
      decide_eq_true_eq]
    omega
  · split_ifs with hlast
    · simp only [holds, Bool.and_false]
    · simp only [holds, hend, lt_irrefl, false_and, decide_false, Bool.and_false]
  · intro k hk
    split_ifs with hlast
    · have hnot : ¬ (cur < (k + 1) * c ∧ k * c < o + n) := by
        rw [(hchunk k).1]
        rintro ⟨hge, hlt⟩
        have : k * c < (cur / c + 1) * c := by omega
        have := (Nat.mul_lt_mul_right hc).mp this
        omega
      simp only [holds, hnot, decide_false]
    · simp only [holds, hend]
      congr 1
      refine decide_eq_decide.mpr (and_congr_left fun _ => ?_)
      rw [(hchunk k).1, Nat.mul_lt_mul_right hc]
      omega

/-- Past the last page nothing is left to count. -/
theorem holds_beyond (hp : Write.Proper ⟨o, n, .starting cur left⟩)
    (hpage : pages ≤ cur / c / pageCounters)
    (k : Nat) : holds c pages ⟨o, n, .started⟩ k = holds c pages ⟨o, n, .starting cur left⟩ k := by
  obtain ⟨hleft, hle, hsum⟩ := hp
  dsimp only at hle hsum
  obtain ⟨-, hstart, hchunk⟩ := next_chunk cur hc
  unfold holds
  dsimp only
  by_cases hk : k / pageCounters < pages
  · have hlt : k < cur / c := Nat.lt_of_div_lt_div (hk.trans_le hpage)
    congr 1
    have hle' := (hchunk k).2.mpr hlt
    have : k * c ≤ (k + 1) * c := Nat.mul_le_mul_right c (Nat.le_succ k)
    have hin : k * c < o + n := by omega
    exact decide_eq_decide.mpr ⟨fun h => ⟨h.2.2, hle'⟩, fun h => ⟨by omega, hin, h.1⟩⟩
  · rw [decide_eq_false hk, Bool.false_and, Bool.false_and]

theorem holds_ended_beyond {success : Bool} (hpage : pages ≤ cur / c / pageCounters) (k : Nat) :
    holds c pages ⟨o, n, .ending cur left success⟩ k = false := by
  unfold holds
  dsimp only
  by_cases hk : k / pageCounters < pages
  · have hlt : k < cur / c := Nat.lt_of_div_lt_div (hk.trans_le hpage)
    have hnot : ¬ cur < (k + 1) * c := fun h => absurd
      (((next_chunk cur hc).2.2 k).1.mp h) (by omega)
    rw [decide_eq_false (p := cur < (k + 1) * c ∧ k * c < o + n) (fun h => hnot h.1),
      Bool.and_false]
  · rw [decide_eq_false hk, Bool.false_and]

omit hc in
theorem holds_endwrite (success : Bool) (k : Nat) :
    holds c pages ⟨o, n, if n = 0 then .ended else .ending o n success⟩ k =
      holds c pages ⟨o, n, .started⟩ k := by
  unfold holds
  split_ifs with hn
  · simp [hn]
  · simp only [Nat.pos_of_ne_zero hn, true_and]
    congr 1
    exact decide_eq_decide.mpr and_comm

end Holds

/-! ## The invariant -/

namespace Dirty

/-- The writes counted in chunk `k`. -/
def counted (s : Dirty) (k : Nat) : Nat :=
  s.writes.countP fun w => w.holds s.bitmap.counts.csize s.bitmap.counts.pages k

structure Inv (s : Dirty) : Prop where
  sound : Sound s.bitmap s.counted
  proper : ∀ w ∈ s.writes, w.Proper

theorem countP_set (p : Write → Bool) {ws : List Write} {i : Nat} {w : Write} (w' : Write)
    (hi : ws[i]? = some w) :
    (ws.set i w').countP p + (if p w then 1 else 0) = ws.countP p + (if p w' then 1 else 0) := by
  obtain ⟨hlt, hw⟩ := List.getElem?_eq_some_iff.mp hi
  have hle : (if p w then 1 else 0) ≤ ws.countP p := by
    split_ifs with hp
    · exact countP_pos_iff.mpr ⟨w, mem_of_getElem? hi, hp⟩
    · exact Nat.zero_le _
  rw [List.countP_set hlt, hw]
  omega

section CountP

variable {p : Write → Bool} {ws : List Write} {i : Nat} {w w' : Write} (hi : ws[i]? = some w)

include hi

theorem countP_set_same (h : p w' = p w) : (ws.set i w').countP p = ws.countP p := by
  have hset := countP_set p w' hi
  rw [h] at hset
  exact Nat.add_right_cancel hset

theorem countP_set_more (hold : p w = false) (hnew : p w') :
    (ws.set i w').countP p = ws.countP p + 1 := by
  have hset := countP_set p w' hi
  rw [hold, hnew] at hset
  exact hset

theorem countP_set_less (hold : p w) (hnew : p w' = false) :
    (ws.set i w').countP p + 1 = ws.countP p := by
  have hset := countP_set p w' hi
  rw [hold, hnew] at hset
  exact hset

end CountP

/-- One write moves on, and the bitmap keeps its shape. -/
theorem Inv.setPhase {s : Dirty} {b : Bitmap} {i : Nat} (h : s.Inv) (w' : Write)
    (hframe : Frame s.bitmap b)
    (hproper : w'.Proper) (hsound : Sound b fun k => (s.writes.set i w').countP fun w =>
      w.holds s.bitmap.counts.csize s.bitmap.counts.pages k) (t : Dirty) (hb : t.bitmap = b)
    (hw : t.writes = s.writes.set i w') : t.Inv := by
  refine ⟨?_, fun v hv => ?_⟩
  · rw [hb]
    refine hsound.congr fun k => ?_
    rw [counted, hb, hw, hframe.csize, hframe.pages]
  · rw [hw] at hv
    rcases mem_or_eq_of_mem_set hv with hold | rfl
    · exact h.proper v hold
    · exact hproper

theorem Inv.setBitmap {s : Dirty} {b : Bitmap} (h : s.Inv)
    (hstays : StaysSound s.bitmap b s.counted)
    (t : Dirty) (hb : t.bitmap = b) (hw : t.writes = s.writes) : t.Inv := by
  refine ⟨?_, hw ▸ h.proper⟩
  rw [hb]
  refine hstays.2.congr fun k => ?_
  rw [counted, hb, hw, hstays.1.csize, hstays.1.pages, counted]

theorem counted_pos {s : Dirty} {w : Write} {k : Nat} (hw : w ∈ s.writes)
    (h : w.holds s.bitmap.counts.csize s.bitmap.counts.pages k) : 0 < s.counted k :=
  countP_pos_iff.mpr ⟨w, hw, h⟩

/-- What a turn of `bitmap_startwrite` can come to. -/
theorem startTurn_cases {s s' : Dirty} {i : Nat} {alloc : Bool}
    (hstep : s.startTurn i alloc = some s') :
    ∃ o n cur left, s.writes[i]? = some ⟨o, n, .starting cur left⟩ ∧
      ∃ b turn, s.bitmap.startTurn cur alloc = (b, turn) ∧
        match turn with
        | .beyond => s' = (s.setBitmap b).setPhase i ⟨o, n, .started⟩ .started
        | .full => s' = s.setBitmap b
        | .took blocks => s' = (s.setBitmap b).setPhase i ⟨o, n, .started⟩
            (if left ≤ blocks then .started else .starting (cur + blocks) (left - blocks)) := by
  unfold Dirty.startTurn at hstep
  split at hstep
  · next o n cur left hi =>
      refine ⟨o, n, cur, left, hi, (s.bitmap.startTurn cur alloc).1,
        (s.bitmap.startTurn cur alloc).2, rfl, ?_⟩
      generalize s.bitmap.startTurn cur alloc = turned at hstep
      obtain ⟨b, turn⟩ := turned
      cases turn <;> exact (some.inj hstep).symm
  · cases hstep

/-- What a turn of `bitmap_endwrite` can come to. -/
theorem endTurn_cases {s s' : Dirty} {i : Nat} (hstep : s.endTurn i = some s') :
    ∃ o n cur left success, s.writes[i]? = some ⟨o, n, .ending cur left success⟩ ∧
      (s.bitmap.endTurn cur success = none ∧ s' = s.setPhase i ⟨o, n, .ended⟩ .ended ∨
        ∃ b blocks, s.bitmap.endTurn cur success = some (b, blocks) ∧
          s' = ((s.noteEvents success).setBitmap b).setPhase i ⟨o, n, .ended⟩
            (if left ≤ blocks then .ended else .ending (cur + blocks) (left - blocks)
              success)) := by
  unfold Dirty.endTurn at hstep
  split at hstep
  · next o n cur left success hi =>
      refine ⟨o, n, cur, left, success, hi, ?_⟩
      cases hturn : s.bitmap.endTurn cur success with
      | none =>
        rw [hturn] at hstep
        exact .inl ⟨rfl, (some.inj hstep).symm⟩
      | some turned =>
        rw [hturn] at hstep
        obtain ⟨b, blocks⟩ := turned
        exact .inr ⟨b, blocks, rfl, (some.inj hstep).symm⟩
  · cases hstep

theorem writes_noteEvents (s : Dirty) (success : Bool) :
    (s.noteEvents success).writes = s.writes := by
  unfold noteEvents
  split_ifs <;> rfl

section

variable {s s' : Dirty} {i : Nat}

/-- **Every turn keeps the invariant**, when a page that is needed can be allocated. -/
theorem Inv.startTurn (h : s.Inv) (hstep : s.startTurn i true = some s') : s'.Inv := by
  obtain ⟨o, n, cur, left, hi, b, turn, hturn, hs'⟩ := startTurn_cases hstep
  have hp := h.proper _ (mem_of_getElem? hi)
  have hc := s.bitmap.counts.csize_pos
  rcases lt_or_ge (s.bitmap.counts.page cur) s.bitmap.counts.pages with hpage | hpage
  · obtain ⟨b', hframe, ⟨hturn', hsound⟩ | ⟨hturn', hsound⟩⟩ := h.sound.startTurn hpage
    · obtain ⟨rfl, rfl⟩ := Prod.mk.inj (hturn.symm.trans hturn')
      subst hs'
      exact h.setBitmap ⟨hframe, hsound⟩ _ rfl rfl
    · obtain ⟨rfl, rfl⟩ := Prod.mk.inj (hturn.symm.trans hturn')
      subst hs'
      obtain ⟨hproper, hold, hnew, hother⟩ := holds_took hc hp hpage rfl
      exact h.setPhase _ hframe hproper (hsound _ (fun k hk => countP_set_same hi (hother k hk))
        (countP_set_more hi hold hnew)) _ rfl rfl
  · obtain ⟨rfl, rfl⟩ := Prod.mk.inj (hturn.symm.trans (startTurn_beyond _ _ hpage))
    subst hs'
    exact h.setPhase ⟨o, n, .started⟩ (refl _) trivial
      (h.sound.congr fun k => countP_set_same hi (holds_beyond hc hp hpage k)) _ rfl rfl

theorem Inv.endTurn (h : s.Inv) (hstep : s.endTurn i = some s') : s'.Inv := by
  obtain ⟨o, n, cur, left, success, hi, hcases⟩ := endTurn_cases hstep
  have hp := h.proper _ (mem_of_getElem? hi)
  have hc := s.bitmap.counts.csize_pos
  rcases lt_or_ge (s.bitmap.counts.page cur) s.bitmap.counts.pages with hpage | hpage
  · obtain ⟨hproper, hold, hnew, hother⟩ := holds_gave hc hp hpage rfl
    obtain ⟨b, hturn, hframe, hsound⟩ := h.sound.endTurn success hpage
      (counted_pos (mem_of_getElem? hi) hold)
    rcases hcases with ⟨hnone, -⟩ | ⟨b', blocks, hturn', rfl⟩
    · cases hturn.symm.trans hnone
    · obtain ⟨rfl, rfl⟩ := Prod.mk.inj (some.inj (hturn'.symm.trans hturn))
      refine h.setPhase _ hframe hproper (hsound _ (fun k hk => countP_set_same hi (hother k hk))
        (countP_set_less hi hold hnew)) _ rfl ?_
      show (s.noteEvents success).writes.set i _ = _
      rw [writes_noteEvents]
  · rcases hcases with ⟨-, rfl⟩ | ⟨b', blocks, hturn', -⟩
    · refine h.setPhase ⟨o, n, .ended⟩ (refl _) trivial
        (h.sound.congr fun k => countP_set_same hi ?_) _ rfl rfl
      rw [holds_ended_beyond hc hpage]
      exact Bool.and_false _
    · cases (endTurn_beyond _ _ hpage).symm.trans hturn'

theorem endwrite_cases {success : Bool} (hstep : s.endwrite i success = some s') :
    ∃ o n, s.writes[i]? = some ⟨o, n, .started⟩ ∧
      s' = s.setPhase i ⟨o, n, .started⟩ (if n = 0 then .ended else .ending o n success) := by
  unfold Dirty.endwrite at hstep
  split at hstep
  · next o n hi => exact ⟨o, n, hi, (some.inj hstep).symm⟩
  · cases hstep

theorem Inv.endwrite {success : Bool} (h : s.Inv)
    (hstep : s.endwrite i success = some s') : s'.Inv := by
  obtain ⟨o, n, hi, rfl⟩ := endwrite_cases hstep
  refine h.setPhase ⟨o, n, if n = 0 then .ended else .ending o n success⟩ (refl _) ?_
    (h.sound.congr fun k => countP_set_same hi (holds_endwrite success k)) _ rfl rfl
  split_ifs with hn
  · trivial
  · exact ⟨Nat.pos_of_ne_zero hn, Nat.le_refl _, rfl⟩

end

/-- A write that has only begun is counted nowhere. -/
theorem counted_begin (s : Dirty) (offset sectors k : Nat) :
    (s.begin offset sectors).counted k = s.counted k := by
  have hnone : holds s.bitmap.counts.csize s.bitmap.counts.pages
      ⟨offset, sectors, if sectors = 0 then .started else .starting offset sectors⟩ k = false := by
    unfold holds
    split_ifs with hn
    · simp [hn]
    · have hnot : ¬ (offset < (k + 1) * s.bitmap.counts.csize ∧ (k + 1) *
        s.bitmap.counts.csize ≤ offset) :=
        fun hand => absurd hand.1 (not_lt.mpr hand.2)
      exact (congrArg (_ && ·) (decide_eq_false hnot)).trans (Bool.and_false _)
  refine (countP_append ..).trans ?_
  rw [countP_singleton]
  exact congrArg (s.counted k + if · then 1 else 0) hnone

theorem Inv.begin {s : Dirty} (h : s.Inv) (offset sectors : Nat) :
    (s.begin offset sectors).Inv := by
  refine ⟨h.sound.congr (counted_begin s offset sectors), fun w hw => ?_⟩
  rcases mem_append.mp hw with hold | hnew
  · exact h.proper w hold
  · obtain rfl := List.mem_singleton.mp hnew
    split_ifs with hn
    · trivial
    · exact ⟨Nat.pos_of_ne_zero hn, Nat.le_refl _, rfl⟩

/-- The page of counters that the next turn of write `i` uses is there. -/
def pageThere (s : Dirty) (i : Nat) : Bool :=
  match s.writes[i]? with
  | some ⟨_, _, .starting offset _⟩ =>
    match (s.bitmap.counts.bp (s.bitmap.counts.page offset)).map with
    | .missing => false
    | _ => true
  | _ => true

/-- A page that a turn of `bitmap_startwrite` needs is there or can be allocated. -/
def Allocates (s : Dirty) : Event → Prop
  | .startTurn i alloc => alloc = true ∨ s.pageThere i = true
  | _ => True

instance (s : Dirty) : ∀ e, Decidable (s.Allocates e)
  | .startTurn _ _ => inferInstanceAs (Decidable (_ ∨ _))
  | .begin _ _ | .endwrite _ _ | .endTurn _ | .startSync _ _ | .endSync _ _ | .daemonWork
    | .setArray _ _ =>
    isTrue trivial

theorem Allocates.startTurn {s : Dirty} {i : Nat} {alloc : Bool}
    (h : s.Allocates (.startTurn i alloc)) :
    s.startTurn i alloc = s.startTurn i true := by
  rcases h with rfl | h
  · rfl
  · unfold pageThere at h
    unfold Dirty.startTurn
    revert h
    rcases s.writes[i]? with _ | ⟨o, n, _ | _ | _ | _⟩ <;> intro h
    · rfl
    · dsimp only at h ⊢
      rw [startTurn_of_there alloc fun hmap => by rw [hmap] at h; cases h]
    all_goals rfl

theorem Inv.step {s s' : Dirty} {e : Event} (h : s.Inv) (halloc : s.Allocates e)
    (hstep : s.step e = some s') :
    s'.Inv := by
  cases e with
  | begin offset sectors => exact some.inj hstep ▸ h.begin offset sectors
  | startTurn i alloc =>
    exact h.startTurn (halloc.startTurn.symm.trans hstep)
  | endwrite i success => exact h.endwrite hstep
  | endTurn i => exact h.endTurn hstep
  | startSync offset degraded =>
    cases hstep
    exact h.setBitmap (h.sound.startSync offset degraded) _ rfl rfl
  | endSync offset aborted =>
    cases hstep
    exact h.setBitmap (h.sound.endSync offset aborted) _ rfl rfl
  | daemonWork =>
    cases hstep
    exact h.setBitmap (sweep_sound _ h.sound) _ rfl rfl
  | setArray degraded events =>
    cases hstep
    exact ⟨h.sound, h.proper⟩

theorem Inv.inBitmap {s : Dirty} (h : s.Inv) : s.InBitmap := by
  rintro ⟨o, n, phase⟩ hw rfl k hk htouch
  refine h.sound.bit k hk (ne_zero_of_count ?_)
  have hholds : holds s.bitmap.counts.csize s.bitmap.counts.pages ⟨o, n, .started⟩ k := by
    unfold holds
    rw [decide_eq_true (h.sound.pages k hk), Bool.true_and]
    exact decide_eq_true htouch
  have := h.sound.counted k (counted_pos hw hholds)
  omega

/-- A bitmap at rest: nothing is written, no page is hijacked, a counter with a flag is at least
two,
and a chunk whose counter is not zero has its bit. -/
structure AtRest (s : Dirty) : Prop where
  writes : s.writes = []
  noHijack : s.bitmap.counts.NoHijack
  tallied : s.bitmap.counts.Tallied
  pages : ∀ k < s.bitmap.counts.chunks, k / pageCounters < s.bitmap.counts.pages
  fits : ∀ k < s.bitmap.counts.chunks, s.bitmap.store.bitAt k / pageBits < s.bitmap.store.filePages
  flags : ∀ k, ((s.bitmap.counts.counterAt k).needed ||
    (s.bitmap.counts.counterAt k).resync) = true →
    2 ≤ (s.bitmap.counts.counterAt k).count
  bit : ∀ k < s.bitmap.counts.chunks, s.bitmap.counts.counterAt k ≠ zero →
    s.bitmap.store.filemap (s.bitmap.store.bitAt k) = true

theorem AtRest.inv {s : Dirty} (h : s.AtRest) : s.Inv := by
  have hnone : ∀ k, s.counted k = 0 := fun k => by
    rw [counted, h.writes]
    rfl
  refine ⟨{ h with counted := fun k hk => ?_ }, fun w hw => ?_⟩
  · rw [hnone] at hk
    exact absurd hk (lt_irrefl 0)
  · rw [h.writes] at hw
    exact absurd hw not_mem_nil

/-- **A write is never outside the bitmap**, in a run that allocates the pages it needs. -/
theorem writes_inBitmap {s s' : Dirty} {es : List Event} (h : s.AtRest)
    (halloc : Along step Allocates s es)
    (hrun : run step s es = some s') : s'.InBitmap :=
  (run_preserves (I := Inv) (fun _ _ _ hi ha hs => hi.step ha hs) h.inv halloc hrun).inBitmap

/-! ## A hijacked page -/

/-- An idle bitmap of four chunks of 4K. -/
def idle : Dirty where
  bitmap :=
    { counts := ⟨3, 4, 1, fun _ => ⟨.missing, false, 0⟩⟩
      store := storageAlloc 4 true
      external := false }
  needSync := false
  degraded := false
  events := 1
  eventsCleared := 1
  writes := []

theorem idle_atRest : idle.AtRest := by
  refine ⟨rfl, fun _ _ _ h => ?_, fun _ => ⟨fun _ h => ?_, fun _ => rfl⟩, ?_, ?_, fun _ h => ?_,
    fun _ _ h => absurd rfl h⟩
  · cases h
  · cases h
  · intro k hk
    have : k < 4 := hk
    show k / 2048 < 1
    omega
  · intro k hk
    have : k < 4 := hk
    show (k + 256 * 8) / 32768 < 1
    omega
  · cases h

/-- A write of two chunks, when its page cannot be allocated, is started with one turn and one bit;
so is a second write, to the next chunk, which finds the counter in use and sets none. -/
theorem hijacked_write_outside :
    ((run step idle [.begin 0 16, .startTurn 0 false]).map fun s => decide s.InBitmap)
    = some false ∧
    ((run step idle [.begin 0 8, .startTurn 0 false, .begin 8 8, .startTurn 1 false]).map fun s =>
      (s.writes.map (·.phase), decide s.InBitmap)) = some ([.started, .started], false) := by
  decide +kernel

/-- The two writes, when the page is allocated. -/
theorem writes_inBitmap_two :
    ∃ s, run step idle [.begin 0 16, .startTurn 0 true, .startTurn 0 true, .begin 8 8,
      .startTurn 1 true] = some s ∧
      s.InBitmap :=
  ⟨_, rfl, writes_inBitmap idle_atRest (by decide +kernel)
    (rfl : run step idle [.begin 0 16, .startTurn 0 true, .startTurn 0 true, .begin 8 8,
    .startTurn 1 true] = some _)⟩

end Dirty

end MdRaid.WriteIntent
