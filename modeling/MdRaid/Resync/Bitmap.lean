import MdRaid.Sectors

/-!
# The bitmap during a resync

`md-bitmap.c` keeps one counter for each bitmap chunk; its two top bits, `NEEDED` and
`RESYNC`, say that the chunk has to be resynced and that a resync of it is under way.
The counters lie in pages that exist only while one of their counters is in use. This
file models `__bitmap_start_sync`, `__bitmap_end_sync`, `bitmap_close_sync` and
`bitmap_cond_end_sync`, and says of each what it does to the counter of any chunk.

The low bits of a counter (the number of writes in flight) decide only when a page is
written back, and no sync function changes them; they are left out. So are the hijacked
pages, the fallback for a page that could not be allocated.
-/

namespace MdRaid.Resync

/-! ## Counters -/

/-- The flag bits of a `bitmap_counter_t`. -/
structure BitmapCounter where
  needed : Bool
  resync : Bool
deriving DecidableEq, Repr

namespace BitmapCounter

def zero : BitmapCounter := ⟨false, false⟩

/-- The chunk is not known to be in sync. -/
def dirty (c : BitmapCounter) : Bool := c.resync || c.needed

/-- `__bitmap_start_sync` on an array that is not degraded. -/
def start (c : BitmapCounter) : BitmapCounter :=
  if c.resync then c
  else if c.needed then { c with resync := true, needed := false }
  else c

/-- `__bitmap_end_sync`: a chunk under resync is in sync, or needed again if aborted. -/
def stop (aborted : Bool) (c : BitmapCounter) : BitmapCounter :=
  if c.resync then { c with resync := false, needed := c.needed || aborted } else c

@[simp] theorem dirty_start (c : BitmapCounter) : c.start.dirty = c.dirty := by
  rcases c with ⟨_ | _, _ | _⟩ <;> rfl

theorem start_start (c : BitmapCounter) : c.start.start = c.start := by
  rcases c with ⟨_ | _, _ | _⟩ <;> rfl

theorem start_of_not_dirty {c : BitmapCounter} (h : c.dirty = false) : c.start = c := by
  rcases c with ⟨_ | _, _ | _⟩ <;> first | rfl | cases h

@[simp] theorem stop_zero (aborted : Bool) : zero.stop aborted = zero := rfl

@[simp] theorem needed_stop_false (c : BitmapCounter) : (c.stop false).needed = c.needed := by
  rcases c with ⟨_ | _, _ | _⟩ <;> rfl

theorem needed_stop_true (c : BitmapCounter) : (c.stop true).needed = c.dirty := by
  rcases c with ⟨_ | _, _ | _⟩ <;> rfl

theorem dirty_of_needed {c : BitmapCounter} (h : c.needed) : c.dirty := by
  rw [dirty, h, Bool.or_true]

end BitmapCounter

/-! ## Counter pages -/

/-- `struct bitmap_counts`: a page that is not there holds no counter. -/
structure Bitmap where
  chunkshift : Nat
  bp : Nat → Option (Nat → BitmapCounter)

namespace Bitmap

open BitmapCounter

variable (b : Bitmap)

def csize : Nat := 2 ^ b.chunkshift

def chunk (offset : Nat) : Nat := offset / b.csize

/-- The counter of a chunk, zero if its page is not there. -/
def counter (k : Nat) : BitmapCounter :=
  match b.bp (k / pageCounters) with
  | some map => map (k % pageCounters)
  | none => zero

/-- `md_bitmap_get_counter`: the counter for a sector, and how many sectors from there on
the answer covers. -/
def getCounter (offset : Nat) : Option BitmapCounter × Nat :=
  match b.bp (b.chunk offset / pageCounters) with
  | some map => (some (map (b.chunk offset % pageCounters)), b.csize - offset % b.csize)
  | none => (none, b.csize * pageCounters - offset % (b.csize * pageCounters))

/-- The counter of chunk `k` in its page becomes `c`. -/
def setCounter (k : Nat) (c : BitmapCounter) : Bitmap :=
  { b with bp := fun page =>
      if page = k / pageCounters then
        (b.bp page).map fun map off => if off = k % pageCounters then c else map off
      else b.bp page }

/-- `md_bitmap_checkpage` with `create`: the page of a chunk that is written is there. -/
def checkpage (page : Nat) : Bitmap :=
  { b with bp := fun p =>
      if p = page then some ((b.bp p).getD fun _ => zero) else b.bp p }

/-- `md_bitmap_checkfree`: a page whose counters are all zero is freed. -/
def checkfree (page : Nat) : Bitmap :=
  { b with bp := fun p =>
      if p = page ∧ ∀ off < pageCounters, ((b.bp p).getD fun _ => zero) off =
          zero then none
      else b.bp p }

theorem csize_pos : 0 < b.csize := Nat.two_pow_pos _

theorem chunk_mono {w w' : Nat} (h : w ≤ w') : b.chunk w ≤ b.chunk w' := Nat.div_le_div_right h

theorem chunk_lt_iff {w k : Nat} : b.chunk w < k ↔ w < k * b.csize :=
  Nat.div_lt_iff_lt_mul b.csize_pos

theorem counter_getCounter (offset : Nat) :
    b.counter (b.chunk offset) = (b.getCounter offset).1.getD zero := by
  unfold counter getCounter
  split <;> rfl

theorem eq_of_div_eq_of_mod_eq {k k' : Nat} (hd : k' / pageCounters = k / pageCounters)
    (hm : k' % pageCounters = k % pageCounters) : k' = k := by
  rw [← Nat.div_add_mod k' pageCounters, ← Nat.div_add_mod k pageCounters, hd, hm]

/-- A counter is set in a page that is there. -/
theorem counter_setCounter {k : Nat} (hpage : (b.bp (k / pageCounters)).isSome)
    (c : BitmapCounter) (k' : Nat) :
    (b.setCounter k c).counter k' = if k' = k then c else b.counter k' := by
  obtain ⟨map, hmap⟩ := Option.isSome_iff_exists.mp hpage
  unfold counter setCounter
  dsimp only
  by_cases hd : k' / pageCounters = k / pageCounters
  · rw [if_pos hd, hd, hmap]
    by_cases hm : k' % pageCounters = k % pageCounters
    · simp [eq_of_div_eq_of_mod_eq hd hm]
    · have hne : k' ≠ k := fun h => hm (h ▸ rfl)
      simp [hm, hne]
  · have hne : k' ≠ k := fun h => hd (h ▸ rfl)
    rw [if_neg hd, if_neg hne]

@[simp] theorem counter_checkpage (page k : Nat) : (b.checkpage page).counter k = b.counter k := by
  unfold counter checkpage
  dsimp only
  split_ifs with h
  · cases hb : b.bp (k / pageCounters) <;> rfl
  · rfl

@[simp] theorem counter_checkfree (page k : Nat) : (b.checkfree page).counter k = b.counter k := by
  unfold counter checkfree
  dsimp only
  split_ifs with h
  · have hzero := h.2 (k % pageCounters) (Nat.mod_lt _ pageCounters_pos)
    cases hb : b.bp (k / pageCounters) with
    | none => rfl
    | some map =>
      rw [hb] at hzero
      exact hzero.symm
  · rfl

end Bitmap

/-! ## Starting and ending the sync of a chunk -/

structure StartSync where
  rv : Bool
  blocks : Nat
  bitmap : Bitmap

/-- `bitmap_start_sync`. Chunks have at least the eight sectors of a page, so that one
`__bitmap_start_sync` covers what the loop around it asks for. -/
def bitmapStartSync (b : Bitmap) (offset : Nat) (degraded : Bool) : StartSync :=
  match b.getCounter offset with
  | (none, blocks) => ⟨false, blocks, b⟩
  | (some bmc, blocks) =>
    if bmc.resync then ⟨true, blocks, b⟩
    else if bmc.needed then
      ⟨true, blocks, if degraded then b
        else b.setCounter (b.chunk offset) { bmc with resync := true, needed := false }⟩
    else ⟨false, blocks, b⟩

/-- `__bitmap_end_sync`, with the number of sectors that the chunk covers. -/
def bitmapEndSync (b : Bitmap) (offset : Nat) (aborted : Bool) : Nat × Bitmap :=
  match b.getCounter offset with
  | (none, blocks) => (blocks, b)
  | (some bmc, blocks) =>
    (blocks, if bmc.resync then
      b.setCounter (b.chunk offset)
        { bmc with resync := false, needed := bmc.needed || aborted }
      else b)

/-- The loop of `bitmap_close_sync` and `bitmap_cond_end_sync` from sector `s` on. -/
def endSyncBelow (limit : Nat) : Nat → Nat → Bitmap → Bitmap
  | 0, _, b => b
  | fuel + 1, s, b =>
    if s < limit then
      let r := bitmapEndSync b s false
      endSyncBelow limit fuel (s + r.1) r.2
    else b

/-- `bitmap_close_sync`. -/
def bitmapCloseSync (resyncMaxSectors : Nat) (b : Bitmap) : Bitmap :=
  endSyncBelow resyncMaxSectors resyncMaxSectors 0 b

/-- `bitmap_cond_end_sync`: nothing at sector 0, or before `daemon_sleep` has passed. -/
def bitmapCondEndSync (resyncMaxSectors : Nat) (b : Bitmap) (sector : Nat) (due : Bool) : Bitmap :=
  if sector = 0 then b
  else if due then
    endSyncBelow (min (sector / b.csize * b.csize) resyncMaxSectors) resyncMaxSectors 0 b
  else b

/-! ## What they do to a chunk -/

section Spec

variable {b : Bitmap} {offset : Nat}

theorem isSome_page {bmc : BitmapCounter} {blocks : Nat}
    (h : b.getCounter offset = (some bmc, blocks)) :
    (b.bp (b.chunk offset / pageCounters)).isSome := by
  unfold Bitmap.getCounter at h
  split at h
  · next hmap => rw [hmap]; rfl
  · cases congrArg Prod.fst h

@[simp] theorem bitmapStartSync_blocks (degraded : Bool) :
    (bitmapStartSync b offset degraded).blocks = (b.getCounter offset).2 := by
  unfold bitmapStartSync
  split
  · next h => rw [h]
  · next h => rw [h]; split_ifs <;> rfl

theorem bitmapStartSync_rv (degraded : Bool) :
    (bitmapStartSync b offset degraded).rv = (b.counter (b.chunk offset)).dirty := by
  rw [b.counter_getCounter]
  unfold bitmapStartSync
  split
  · next h => rw [h]; rfl
  · next bmc _ h =>
      rw [h]
      rcases bmc with ⟨_ | _, _ | _⟩ <;> rfl

@[simp] theorem bitmapStartSync_degraded : (bitmapStartSync b offset true).bitmap = b := by
  unfold bitmapStartSync
  simp only [if_true]
  split
  · rfl
  · split_ifs <;> rfl

@[simp] theorem csize_bitmapStartSync (degraded : Bool) :
    (bitmapStartSync b offset degraded).bitmap.csize = b.csize := by
  unfold bitmapStartSync
  split
  · rfl
  · split_ifs <;> rfl

theorem counter_bitmapStartSync (k : Nat) : (bitmapStartSync b offset false).bitmap.counter k =
      if k = b.chunk offset then (b.counter k).start else b.counter k := by
  have hc := b.counter_getCounter offset
  unfold bitmapStartSync
  split
  · next h =>
      rw [h] at hc
      split_ifs with hk
      · rw [hk, hc]; rfl
      · rfl
  · next bmc _ h =>
      rw [h, Option.getD_some] at hc
      rw [if_neg Bool.false_ne_true]
      by_cases hk : k = b.chunk offset
      · rw [if_pos hk, hk, hc, BitmapCounter.start]
        split_ifs with hr hn
        · exact hc
        · rw [b.counter_setCounter (isSome_page h), if_pos rfl]
        · exact hc
      · rw [if_neg hk]
        split_ifs
        · rfl
        · rw [b.counter_setCounter (isSome_page h), if_neg hk]
        · rfl

@[simp] theorem csize_bitmapEndSync (aborted : Bool) :
    (bitmapEndSync b offset aborted).2.csize = b.csize := by
  unfold bitmapEndSync
  split
  · rfl
  · dsimp only; split_ifs <;> rfl

@[simp] theorem bitmapEndSync_fst (aborted : Bool) :
    (bitmapEndSync b offset aborted).1 = (b.getCounter offset).2 := by
  unfold bitmapEndSync
  split <;> next h => rw [h]

theorem counter_bitmapEndSync (aborted : Bool) (k : Nat) :
    (bitmapEndSync b offset aborted).2.counter k =
      if k = b.chunk offset then (b.counter k).stop aborted else b.counter k := by
  have hc := b.counter_getCounter offset
  unfold bitmapEndSync
  split
  · next h =>
      rw [h] at hc
      split_ifs with hk
      · rw [hk, hc]; rfl
      · rfl
  · next bmc _ h =>
      rw [h, Option.getD_some] at hc
      dsimp only
      by_cases hk : k = b.chunk offset
      · rw [if_pos hk, hk, hc, BitmapCounter.stop]
        split_ifs
        · rw [b.counter_setCounter (isSome_page h), if_pos rfl]
        · exact hc
      · rw [if_neg hk]
        split_ifs
        · rw [b.counter_setCounter (isSome_page h), if_neg hk]
        · rfl

/-! ## The stretch one answer covers -/

/-- The stretch ends on a chunk boundary behind the sector, and the counters of the
chunks that begin inside it are zero. -/
theorem getCounter_blocks (b : Bitmap) (offset : Nat) :
    ∃ k, offset + (b.getCounter offset).2 = k * b.csize ∧ b.chunk offset < k ∧
      ∀ k', b.chunk offset < k' → k' < k → b.counter k' = BitmapCounter.zero := by
  have hpos := b.csize_pos
  unfold Bitmap.getCounter
  split
  · refine ⟨b.chunk offset + 1, ?_, Nat.lt_succ_self _, fun k' h h' => absurd h' (by omega)⟩
    have hdm := Nat.div_add_mod offset b.csize
    have hlt := Nat.mod_lt offset hpos
    rw [Bitmap.chunk, Nat.add_mul, Nat.mul_comm (offset / b.csize)]
    dsimp only
    omega
  · next hnone =>
      have hcs : 0 < b.csize * pageCounters := Nat.mul_pos hpos pageCounters_pos
      have hpage : offset / (b.csize * pageCounters) = b.chunk offset / pageCounters :=
        (Nat.div_div_eq_div_mul _ _ _).symm
      have hin := Nat.lt_succ_self (b.chunk offset / pageCounters)
      refine ⟨(b.chunk offset / pageCounters + 1) * pageCounters, ?_,
        (Nat.div_lt_iff_lt_mul (by decide)).mp hin, fun k' hk hk' => ?_⟩
      · have hdm := Nat.div_add_mod offset (b.csize * pageCounters)
        have hlt := Nat.mod_lt offset hcs
        rw [hpage] at hdm
        rw [Nat.mul_assoc, Nat.mul_comm pageCounters, Nat.add_mul,
          Nat.mul_comm (b.chunk offset / pageCounters)]
        dsimp only
        omega
      · have hpage' : k' / pageCounters = b.chunk offset / pageCounters :=
          Nat.le_antisymm (Nat.le_of_lt_succ ((Nat.div_lt_iff_lt_mul (by decide)).mpr hk'))
            (Nat.div_le_div_right hk.le)
        rw [Bitmap.counter, hpage', hnone]

/-- Where the bitmap says that nothing has to be done, it says so for the whole stretch. -/
theorem clean_stretch (h : (b.counter (b.chunk offset)).dirty = false) {w : Nat}
    (hle : offset ≤ w) (hlt : w < offset + (b.getCounter offset).2) :
    (b.counter (b.chunk w)).dirty = false := by
  obtain ⟨k, hk, -, hzero⟩ := getCounter_blocks b offset
  rw [hk] at hlt
  rcases (b.chunk_mono hle).eq_or_lt with heq | hgt
  · rw [← heq]
    exact h
  · rw [hzero _ hgt (b.chunk_lt_iff.mpr hlt)]
    rfl

/-! ## Ending the sync of all chunks below a sector -/

@[simp] theorem csize_endSyncBelow (limit : Nat) : ∀ (fuel s : Nat) (b : Bitmap),
    (endSyncBelow limit fuel s b).csize = b.csize
  | 0, _, _ => rfl
  | fuel + 1, s, b => by
    rw [endSyncBelow]
    split_ifs
    · dsimp only
      rw [csize_endSyncBelow limit fuel, csize_bitmapEndSync]
    · rfl

/-- From a chunk boundary on, the loop ends the sync of every chunk that begins below the
limit. -/
theorem counter_endSyncBelow (limit : Nat) : ∀ (fuel c : Nat) (b : Bitmap),
    limit ≤ c * b.csize + fuel → ∀ k, (endSyncBelow limit fuel (c * b.csize) b).counter k =
      if c ≤ k ∧ k * b.csize < limit then (b.counter k).stop false else b.counter k
  | 0, c, b, hfuel, k => by
    have hno : ¬ (c ≤ k ∧ k * b.csize < limit) := fun h =>
      absurd (Nat.mul_le_mul_right b.csize h.1) (by omega)
    rw [endSyncBelow, if_neg hno]
  | fuel + 1, c, b, hfuel, k => by
    have hchunk : b.chunk (c * b.csize) = c := Nat.mul_div_cancel _ b.csize_pos
    rw [endSyncBelow]
    by_cases hlim : c * b.csize < limit
    · obtain ⟨c', hc', hlt, hzero⟩ := getCounter_blocks b (c * b.csize)
      rw [hchunk] at hlt hzero
      have hstep : c * b.csize < c' * b.csize := Nat.mul_lt_mul_of_pos_right hlt b.csize_pos
      have hcs : (bitmapEndSync b (c * b.csize) false).2.csize = b.csize :=
        csize_bitmapEndSync false
      have ih := counter_endSyncBelow limit fuel c' (bitmapEndSync b (c * b.csize) false).2
        (by rw [hcs]; omega) k
      rw [hcs, counter_bitmapEndSync, hchunk] at ih
      rw [if_pos hlim]
      dsimp only
      rw [bitmapEndSync_fst, hc', ih]
      -- the chunk itself, those of a page that is not there, and those the loop goes on to
      rcases lt_trichotomy k c with hk | rfl | hk
      · rw [if_neg (fun h => absurd h.1 (by omega)), if_neg (by omega),
          if_neg (fun h => absurd h.1 (by omega))]
      · rw [if_neg (fun h => absurd h.1 (by omega)), if_pos rfl, if_pos ⟨le_rfl, hlim⟩]
      · rw [if_neg (show ¬ k = c by omega)]
        by_cases hk' : c' ≤ k
        · simp only [hk', hk.le, true_and]
        · rw [hzero k hk (by omega), BitmapCounter.stop_zero, ite_self, ite_self]
    · have hno : ¬ (c ≤ k ∧ k * b.csize < limit) := fun h =>
        absurd (Nat.mul_le_mul_right b.csize h.1) (by omega)
      rw [if_neg hlim, if_neg hno]

variable {resyncMaxSectors : Nat}

theorem counter_bitmapCloseSync (k : Nat) : (bitmapCloseSync resyncMaxSectors b).counter k =
      if k * b.csize < resyncMaxSectors then (b.counter k).stop false else b.counter k := by
  have h := counter_endSyncBelow resyncMaxSectors resyncMaxSectors 0 b (by omega) k
  rw [zero_mul] at h
  rw [bitmapCloseSync, h]
  simp only [Nat.zero_le, true_and]

@[simp] theorem csize_bitmapCondEndSync (sector : Nat) (due : Bool) :
    (bitmapCondEndSync resyncMaxSectors b sector due).csize = b.csize := by
  unfold bitmapCondEndSync
  split_ifs <;> simp

/-- Chunks from that of the sector on are not touched. -/
theorem counter_bitmapCondEndSync_of_ge {sector k : Nat} (due : Bool) (hk : b.chunk sector ≤ k) :
    (bitmapCondEndSync resyncMaxSectors b sector due).counter k = b.counter k := by
  unfold bitmapCondEndSync
  split_ifs
  · rfl
  · have h := counter_endSyncBelow (min (sector / b.csize * b.csize) resyncMaxSectors)
      resyncMaxSectors 0 b (by omega) k
    have hle : sector / b.csize * b.csize ≤ k * b.csize := Nat.mul_le_mul_right _ hk
    rw [zero_mul] at h
    rw [h, if_neg (by omega)]
  · rfl

/-- No chunk loses or gains its `NEEDED` bit. -/
theorem needed_bitmapCondEndSync (sector k : Nat) (due : Bool) :
    ((bitmapCondEndSync resyncMaxSectors b sector due).counter k).needed =
      (b.counter k).needed := by
  unfold bitmapCondEndSync
  split_ifs
  · rfl
  · have h := counter_endSyncBelow (min (sector / b.csize * b.csize) resyncMaxSectors)
      resyncMaxSectors 0 b (by omega) k
    rw [zero_mul] at h
    rw [h, apply_ite BitmapCounter.needed, BitmapCounter.needed_stop_false, ite_self]
  · rfl

end Spec

end MdRaid.Resync
