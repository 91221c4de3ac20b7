import MdRaid.WriteIntent.Counts

/-!
# Taking over the bitmap of another node

In a cluster every node keeps a bitmap of its own. When a node fails, another one reads that
node's bitmap, marks its chunks in its own and is told from where to where they reach, which
is the part of the array it resyncs.
-/

namespace MdRaid.WriteIntent

/-! ## The code -/

/-- The value a counter is given: 2 if it was not in use, with the flag if it is asked for. -/
def Counter.marked (c : Counter) (needed : Bool) : Counter :=
  let value := if c.is 0 then ⟨false, false, 2⟩ else c
  { value with needed := value.needed || needed }

/-- `md_bitmap_set_memory_bits`. A page of counters that cannot be allocated is hijacked. -/
def Counts.setMemoryBits (b : Counts) (offset : Nat) (needed alloc : Bool) : Counts :=
  if b.pages ≤ b.page offset then b
  else
    let b := b.checkpage (b.page offset) alloc
    match (b.getCounter offset).1 with
    | none => b
    | some c =>
      let marked := b.setCounter offset (c.marked needed)
      if c.is 0 then (marked.countPage offset 1).setPending offset else marked

/-- `md_bitmap_file_test_bit`; the error for a page that is not there counts as set. -/
def Bitmap.fileTestBit (b : Bitmap) (block : Nat) : Bool :=
  let bit := b.store.bitAt (b.counts.chunk block)
  decide (b.store.filePages ≤ bit / pageBits) || b.store.filemap bit

/-- The bitmap of this node, and the variables `lo` and `hi`. -/
structure SlotCopy where
  bitmap : Bitmap
  lo : Nat
  hi : Nat

/-- The first sector of a chunk of the slot's bitmap. -/
def Bitmap.block (slot : Bitmap) (j : Nat) : Nat := j <<< slot.counts.chunkshift

def SlotCopy.turn (slot : Bitmap) (alloc : Bool) (s : SlotCopy) (j : Nat) : SlotCopy :=
  let block := slot.block j
  if slot.fileTestBit block then
    let counts := s.bitmap.counts.setMemoryBits block true alloc
    ⟨(s.bitmap.setCounts counts).fileSetBit block, if s.lo = 0 then block else s.lo, block⟩
  else s

/-- `bitmap_copy_from_slot` after `n` turns of its loop. -/
def copyFromSlot (slot : Bitmap) (alloc : Nat → Bool) (b : Bitmap) : Nat → SlotCopy
  | 0 => ⟨b, 0, 0⟩
  | n + 1 => (copyFromSlot slot alloc b n).turn slot (alloc n) n

/-! ## Marking a chunk -/

/-- A counter that is set with the flag has it, and no other loses it. -/
theorem PageMap.needed_set {m : PageMap} {c : Counter} (hc : c.needed) (i j : Nat)
    (h : m ≠ .missing ∧ j = i ∨ (m.counter j).any (·.needed)) :
    ((m.set i c).counter j).any (·.needed) := by
  cases m with
  | missing => simp [counter] at h
  | hijacked lo hi =>
    simp only [set]
    split_ifs with hi'
    · by_cases hj : j * 2 > pageCounters - 1
      · simpa [counter, hj] using hc
      · rcases h with ⟨-, rfl⟩ | h
        · exact absurd hi' hj
        · simpa [counter, hj] using h
    · by_cases hj : j * 2 > pageCounters - 1
      · rcases h with ⟨-, rfl⟩ | h
        · exact absurd hj hi'
        · simpa [counter, hj] using h
      · simpa [counter, hj] using hc
  | mapped map =>
    by_cases hj : j = i
    · simpa [set, counter, hj] using hc
    · have h := h.resolve_left fun h => hj h.2
      simpa [set, counter, hj] using h

namespace Counts

/-- The sector lies in a chunk that is `NEEDED`. -/
def NeededAt (b : Counts) (s : Nat) : Prop := (b.getCounter s).1.any (·.needed) = true

variable {b : Counts} {offset s : Nat}

theorem neededAt_iff_counter : b.NeededAt s ↔ b.page s < b.pages ∧
    ((b.bp (b.page s)).map.counter (b.chunk s % pageCounters)).any (·.needed) := by
  unfold NeededAt getCounter
  by_cases h : b.pages ≤ b.page s
  · rw [if_pos h]
    exact ⟨by simp, fun hs => absurd hs.1 (not_lt.mpr h)⟩
  · rw [if_neg h, and_iff_right (not_le.mp h)]

/-- Only counters change, and no chunk loses the flag. -/
structure Keeps (b b' : Counts) : Prop where
  chunkshift : b'.chunkshift = b.chunkshift
  chunks : b'.chunks = b.chunks
  pages : b'.pages = b.pages
  needed : ∀ s, b.NeededAt s → b'.NeededAt s

theorem Keeps.trans {b₁ b₂ b₃ : Counts} (h : b₁.Keeps b₂) (h' : b₂.Keeps b₃) : b₁.Keeps b₃ :=
  ⟨h'.chunkshift.trans h.chunkshift, h'.chunks.trans h.chunks, h'.pages.trans h.pages,
    fun s hs => h'.needed s (h.needed s hs)⟩

theorem keeps_setPage {page : Nat} {p : BitmapPage}
    (hp : ∀ j, ((b.bp page).map.counter j).any (·.needed) → (p.map.counter j).any (·.needed)) :
    b.Keeps (b.setPage page p) := by
  refine ⟨rfl, rfl, rfl, fun s h => ?_⟩
  rw [neededAt_iff_counter] at h ⊢
  refine ⟨h.1, ?_⟩
  rw [page_setPage, chunk_setPage]
  by_cases hs : b.page s = page
  · subst hs
    rw [bp_setPage_self]
    exact hp _ h.2
  · rw [bp_setPage_of_ne p hs]
    exact h.2

/-- The page of counters is there afterwards. -/
theorem keeps_checkpage (page : Nat) (alloc : Bool) :
    b.Keeps (b.checkpage page alloc) ∧ ((b.checkpage page alloc).bp page).map ≠ .missing := by
  unfold checkpage
  split
  · next hmap =>
      refine ⟨keeps_setPage fun j hj => by simp [hmap, PageMap.counter] at hj, ?_⟩
      rw [bp_setPage_self]
      cases alloc <;> simp
  · next hmap => exact ⟨⟨rfl, rfl, rfl, fun _ h => h⟩, hmap⟩

theorem keeps_setCounter {c : Counter} (hc : c.needed) (hpage : b.page offset < b.pages)
    (hmap : (b.bp (b.page offset)).map ≠ .missing) :
    b.Keeps (b.setCounter offset c) ∧ (b.setCounter offset c).NeededAt offset := by
  refine ⟨keeps_setPage fun j hj => PageMap.needed_set hc _ j (.inr hj), ?_⟩
  rw [neededAt_iff_counter, setCounter, page_setPage, bp_setPage_self]
  exact ⟨hpage, PageMap.needed_set hc _ _ (.inl ⟨hmap, rfl⟩)⟩

theorem keeps_use : b.Keeps ((b.countPage offset 1).setPending offset) := by
  refine Keeps.trans ?_ (keeps_setPage fun _ hj => hj)
  have hcount : (((b.bp (b.page offset)).count : Int) + 1).toNat ≠ 0 := by omega
  unfold countPage checkfree
  rw [if_neg (by rw [bp_setPage_self]; exact hcount)]
  exact keeps_setPage fun _ hj => hj

/-- The chunk is marked, and none is unmarked. -/
theorem keeps_setMemoryBits (alloc : Bool) (hpage : b.page offset < b.pages) :
    b.Keeps (b.setMemoryBits offset true alloc) ∧
      (b.setMemoryBits offset true alloc).NeededAt offset := by
  obtain ⟨hkeep, hmap⟩ := b.keeps_checkpage (b.page offset) alloc
  unfold setMemoryBits
  rw [if_neg (not_le.mpr hpage)]
  generalize b.checkpage (b.page offset) alloc = b₁ at *
  rw [← (spans_eq hkeep.chunkshift).2.2] at hmap hpage
  have hpage₁ : b₁.page offset < b₁.pages := hkeep.pages ▸ hpage
  dsimp only
  split
  · next hnone =>
      rw [getCounter, if_neg (not_le.mpr hpage₁)] at hnone
      cases h : (b₁.bp (b₁.page offset)).map with
      | missing => exact absurd h hmap
      | hijacked | mapped => rw [h] at hnone; cases hnone
  · next c _ =>
      have hneeded : (c.marked true).needed := Bool.or_true _
      obtain ⟨hset, hself⟩ := keeps_setCounter hneeded hpage₁ hmap
      split_ifs
      · exact ⟨hkeep.trans (hset.trans keeps_use), keeps_use.needed _ hself⟩
      · exact ⟨hkeep.trans hset, hself⟩

end Counts

/-! ## The loop -/

/-- The chunks of the slot's bitmap that are set. -/
def Bitmap.setChunks (slot : Bitmap) (n : Nat) : Set Nat :=
  {j | j < n ∧ slot.fileTestBit (slot.block j) = true}

/-- The chunk is `NEEDED` and its bit is set. -/
def Bitmap.Marked (b : Bitmap) (block : Nat) : Prop :=
  b.counts.NeededAt block ∧ b.store.filemap (b.store.bitAt (b.counts.chunk block)) = true

/-- The bitmap has a counter and a bit for every chunk of the slot's bitmap. -/
def Bitmap.Covers (b slot : Bitmap) : Prop :=
  ∀ j < slot.counts.chunks, b.counts.page (slot.block j) < b.counts.pages ∧
    b.store.bitAt (b.counts.chunk (slot.block j)) / pageBits < b.store.filePages

/-- After `n` turns. The variable `lo` passes over the first chunk, whose sector is zero. -/
structure Copied (slot b : Bitmap) (n : Nat) (s : SlotCopy) : Prop where
  frame : Frame b s.bitmap
  marked : ∀ j ∈ slot.setChunks n, s.bitmap.Marked (slot.block j)
  hi : ∀ j, IsGreatest (slot.setChunks n) j → s.hi = slot.block j
  lo : ∀ j, IsLeast {j ∈ slot.setChunks n | 0 < j} j → s.lo = slot.block j
  none : (∀ j ∈ slot.setChunks n, j = 0) → s.lo = 0

variable {slot b : Bitmap} {n : Nat} {s : SlotCopy}

/-- One chunk is marked, and the others stay marked. -/
theorem marked_turn {c : Bitmap} (hcover : b.Covers slot) (hframe : Frame b c) {j : Nat}
    (hj : j < slot.counts.chunks) (alloc : Bool) :
    let c' := (c.setCounts (c.counts.setMemoryBits (slot.block j) true alloc)).fileSetBit
      (slot.block j)
    Frame c c' ∧ c'.Marked (slot.block j) ∧ ∀ block, c.Marked block → c'.Marked block := by
  obtain ⟨hpage, hbit⟩ := hcover j hj
  rw [← hframe.chunk, ← hframe.bitAt, ← hframe.filePages] at hbit
  rw [Counts.page, ← hframe.chunk, ← hframe.pages] at hpage
  obtain ⟨hkeep, hself⟩ := Counts.keeps_setMemoryBits alloc hpage
  have hset := frame_setCounts hkeep.chunkshift hkeep.chunks hkeep.pages
  generalize c.counts.setMemoryBits (slot.block j) true alloc = counts at *
  have hbit' : (c.setCounts counts).store.bitAt ((c.setCounts counts).counts.chunk
      (slot.block j)) / pageBits < (c.setCounts counts).store.filePages := by
    rw [hset.chunk]
    exact hbit
  obtain ⟨hfile, hcounts, hbits⟩ := fileSetBit_spec hbit'
  have hall := hset.trans hfile
  refine ⟨hall, ⟨?_, ?_⟩, fun block hm => ⟨?_, ?_⟩⟩
  · rw [hcounts]
    exact hself
  · rw [hfile.bitAt, hfile.chunk]
    exact (hbits _).mpr (.inr rfl)
  · rw [hcounts]
    exact hkeep.needed block hm.1
  · rw [hall.bitAt, hall.chunk]
    exact (hbits _).mpr (.inl hm.2)

theorem mem_setChunks_succ {j : Nat} : j ∈ slot.setChunks (n + 1) ↔
    j ∈ slot.setChunks n ∨ j = n ∧ slot.fileTestBit (slot.block n) := by
  simp only [Bitmap.setChunks, Set.mem_ofPred_eq, Nat.lt_succ_iff_lt_or_eq]
  constructor
  · rintro ⟨hlt | rfl, hset⟩
    · exact .inl ⟨hlt, hset⟩
    · exact .inr ⟨rfl, hset⟩
  · rintro (⟨hlt, hset⟩ | ⟨rfl, hset⟩)
    · exact ⟨.inl hlt, hset⟩
    · exact ⟨.inr rfl, hset⟩

theorem Bitmap.block_pos (slot : Bitmap) {j : Nat} (hj : 0 < j) : 0 < slot.block j := by
  rw [Bitmap.block, Nat.shiftLeft_eq]
  exact Nat.mul_pos hj (Nat.two_pow_pos _)

theorem Copied.turn (h : Copied slot b n s) (hcover : b.Covers slot) (hn : n < slot.counts.chunks)
    (alloc : Bool) : Copied slot b (n + 1) (s.turn slot alloc n) := by
  unfold SlotCopy.turn
  by_cases hset : slot.fileTestBit (slot.block n)
  · obtain ⟨hframe, hself, hothers⟩ := marked_turn hcover h.frame hn alloc
    rw [if_pos hset]
    have hmem : n ∈ slot.setChunks (n + 1) := mem_setChunks_succ.mpr (.inr ⟨rfl, hset⟩)
    refine ⟨h.frame.trans hframe, ?_, ?_, ?_, ?_⟩
    · intro j hj
      rcases mem_setChunks_succ.mp hj with hj | ⟨rfl, -⟩
      · exact hothers _ (h.marked j hj)
      · exact hself
    · rintro j ⟨hj, hmax⟩
      have hle : j ≤ n := Nat.lt_succ_iff.mp hj.1
      rw [le_antisymm hle (hmax hmem)]
    · rintro j ⟨⟨hj, hpos⟩, hmin⟩
      rcases mem_setChunks_succ.mp hj with hj | ⟨rfl, -⟩
      · -- an earlier chunk has set the variable, which is not zero since the chunk is not the first
        rw [h.lo j ⟨⟨hj, hpos⟩, fun i hi => hmin ⟨mem_setChunks_succ.mpr (.inl hi.1), hi.2⟩⟩]
        exact if_neg (slot.block_pos hpos).ne'
      · refine if_pos (h.none fun i hi => by_contra fun hne => ?_)
        exact absurd hi.1 (hmin ⟨mem_setChunks_succ.mpr (.inl hi), pos_of_ne_zero hne⟩).not_gt
    · intro hzero
      rw [h.none fun j hj => hzero j (mem_setChunks_succ.mpr (.inl hj)), hzero n hmem]
      exact Nat.zero_shiftLeft _
  · rw [if_neg hset]
    have hsame : slot.setChunks (n + 1) = slot.setChunks n := by
      ext j
      rw [mem_setChunks_succ]
      exact or_iff_left fun hj => hset hj.2
    exact ⟨h.frame, hsame ▸ h.marked, hsame ▸ h.hi, hsame ▸ h.lo, hsame ▸ h.none⟩

theorem copied_copyFromSlot (hcover : b.Covers slot) (alloc : Nat → Bool) :
    ∀ n ≤ slot.counts.chunks, Copied slot b n (copyFromSlot slot alloc b n) := by
  intro n hn
  induction n with
  | zero =>
    have hno : ∀ j, j ∉ slot.setChunks 0 := fun j hj => Nat.not_lt_zero j hj.1
    exact ⟨Frame.refl b, fun j h => absurd h (hno j), fun j h => absurd h.1 (hno j),
      fun j h => absurd h.1.1 (hno j), fun _ => rfl⟩
  | succ n ih => exact (ih (Nat.le_of_succ_le hn)).turn hcover hn (alloc n)

/-- **Which chunks are taken over.** Every chunk that is set in the slot's bitmap is marked and
the high end is that of the last of them. The low end is that of the first of them unless the
very first chunk is set and is not the only one. -/
theorem copyFromSlot_extent_iff (hcover : b.Covers slot) (alloc : Nat → Bool) :
    let taken := slot.setChunks slot.counts.chunks
    let s := copyFromSlot slot alloc b slot.counts.chunks
    (∀ j ∈ taken, s.bitmap.Marked (slot.block j)) ∧
      (∀ j, IsGreatest taken j → s.hi = slot.block j) ∧
      ((∀ j, IsLeast taken j → s.lo = slot.block j) ↔ ¬ (0 ∈ taken ∧ ∃ j ∈ taken, j ≠ 0)) := by
  intro taken s
  have h := copied_copyFromSlot hcover alloc _ le_rfl
  refine ⟨h.marked, h.hi, fun hlow ⟨hzero, j, hj, hne⟩ => ?_, fun hnot j ⟨hj, hmin⟩ => ?_⟩
  · have hex : {j ∈ taken | 0 < j}.Nonempty := ⟨j, hj, pos_of_ne_zero hne⟩
    have hleast : IsLeast {j ∈ taken | 0 < j} (sInf {j ∈ taken | 0 < j}) :=
      ⟨Nat.sInf_mem hex, fun i hi => Nat.sInf_le hi⟩
    have hlo := (h.lo _ hleast).symm.trans (hlow 0 ⟨hzero, fun i _ => Nat.zero_le i⟩)
    rw [Bitmap.block, Bitmap.block, Nat.zero_shiftLeft] at hlo
    exact (slot.block_pos hleast.1.2).ne' hlo
  · rcases Nat.eq_zero_or_pos j with rfl | hpos
    · have hall : ∀ i ∈ taken, i = 0 :=
        fun i hi => by_contra fun hne => hnot ⟨hj, i, hi, hne⟩
      exact (h.none hall).trans (Nat.zero_shiftLeft _).symm
    · exact h.lo j ⟨⟨hj, hpos⟩, fun i hi => hmin hi.1⟩

/-- The bitmap of an array of two chunks of eight sectors, with these bits set. -/
def twoChunks (filemap : Nat → Bool) : Bitmap where
  counts := ⟨3, 2, 1, fun _ => ⟨.missing, false, 0⟩⟩
  store := ⟨false, 1, filemap, fun _ => false⟩
  external := true

theorem copyFromSlot_extent_second :
    (copyFromSlot (twoChunks (· == 1)) (fun _ => true) (twoChunks fun _ => false) 2).lo = 8 := by
  have hcover : (twoChunks fun _ => false).Covers (twoChunks (· == 1)) := by
    intro j hj
    have hj : j < 2 := hj
    interval_cases j <;> exact ⟨by decide, by decide⟩
  have hzero : 0 ∉ (twoChunks (· == 1)).setChunks 2 := fun h => (by cases h.2)
  obtain ⟨-, -, hlow⟩ := copyFromSlot_extent_iff hcover fun _ => true
  refine hlow.mpr (fun h => hzero h.1) 1 ⟨⟨by decide, by decide⟩, fun j hj => ?_⟩
  exact pos_of_ne_zero fun h => hzero (h ▸ hj)

/-- Both chunks are set in the slot's bitmap; the low end is the second one. -/
theorem copyFromSlot_low_skips :
    (∀ j < 2, (twoChunks fun _ => true).fileTestBit ((twoChunks fun _ => true).block j)) ∧
      (twoChunks fun _ => true).block 0 = 0 ∧
      (copyFromSlot (twoChunks fun _ => true) (fun _ => true) (twoChunks fun _ => false) 2).lo = 8 ∧
      (copyFromSlot (twoChunks fun _ => true) (fun _ => true)
        (twoChunks fun _ => false) 2).hi = 8 :=
  ⟨by decide, rfl, rfl, rfl⟩

end MdRaid.WriteIntent
