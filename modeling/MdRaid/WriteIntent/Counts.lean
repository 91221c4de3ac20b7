import MdRaid.Sectors

/-!
# The counters of the write-intent bitmap

`md-bitmap.c` keeps a 16-bit counter for every bitmap chunk, in pages of 2048 that are
allocated on demand and freed when all their counters are zero. When a page cannot be
allocated its pointer is hijacked: the pointer itself then holds two counters, one for
each half of the page's chunks. Beside the counters stands the file, one bit a chunk.
-/

namespace MdRaid.WriteIntent

open Function Nat

/-! ## Counters -/

/-- `bitmap_counter_t`: the two flag bits, and the 14 bits below them. -/
structure Counter where
  needed : Bool
  resync : Bool
  count : Nat
deriving DecidableEq, Repr

namespace Counter

def zero : Counter := ⟨false, false, 0⟩

/-- `COUNTER_MAX` -/
def max : Nat := 2 ^ 14 - 1

/-- `*bmc == v`, for a value without flags. -/
def is (c : Counter) (v : Nat) : Bool := !c.needed && !c.resync && c.count == v

/-- `*bmc <= v`, for a value without flags. -/
def atMost (c : Counter) (v : Nat) : Bool := !c.needed && !c.resync && decide (c.count ≤ v)

def inc (c : Counter) : Counter := { c with count := c.count + 1 }

/-- `(*bmc)--`, which borrows from the flag bits below zero. -/
def dec (c : Counter) : Counter :=
  if 0 < c.count then { c with count := c.count - 1 }
  else if c.resync then ⟨c.needed, false, max⟩
  else ⟨!c.needed, true, max⟩

theorem is_zero_iff {c : Counter} : c.is 0 ↔ c = zero := by
  rcases c with ⟨_ | _, _ | _, n⟩ <;> simp [is, zero]

end Counter

/-! ## Pages -/

/-- What `map` and `hijacked` of a `struct bitmap_page` say. -/
inductive PageMap where
  | missing
  | hijacked (lo hi : Counter)
  | mapped (map : Nat → Counter)

namespace PageMap

/-- The counter for the `i`-th chunk of the page, if there is one. -/
def counter : PageMap → Nat → Option Counter
  | .missing, _ => none
  | .hijacked lo hi, i => some (if i * 2 > pageCounters - 1 then hi else lo)
  | .mapped map, i => some (map i)

/-- A value is stored in that counter. -/
def set : PageMap → Nat → Counter → PageMap
  | .missing, _, _ => .missing
  | .hijacked lo hi, i, c => if i * 2 > pageCounters - 1 then .hijacked lo c else .hijacked c hi
  | .mapped map, i, c => .mapped (update map i c)

end PageMap

structure BitmapPage where
  map : PageMap
  pending : Bool
  /-- The counters of the page that are not zero. -/
  count : Nat

/-- `struct bitmap_counts` -/
structure Counts where
  chunkshift : Nat
  chunks : Nat
  pages : Nat
  bp : Nat → BitmapPage

namespace Counts

variable (b : Counts)

def csize : Nat := 2 ^ b.chunkshift

def chunk (offset : Nat) : Nat := offset / b.csize

def page (offset : Nat) : Nat := b.chunk offset / pageCounters

def setPage (page : Nat) (p : BitmapPage) : Counts :=
  { b with bp := update b.bp page p }

/-- `md_bitmap_checkpage` with `create`. -/
def checkpage (page : Nat) (alloc : Bool) : Counts :=
  match (b.bp page).map with
  | .missing =>
    b.setPage page { b.bp page with
      map := if alloc then .mapped fun _ => Counter.zero else .hijacked Counter.zero Counter.zero }
  | _ => b

/-- `md_bitmap_checkfree` -/
def checkfree (page : Nat) : Counts :=
  if (b.bp page).count = 0 then b.setPage page { b.bp page with map := .missing } else b

/-- `md_bitmap_count_page` -/
def countPage (offset : Nat) (inc : Int) : Counts :=
  (b.setPage (b.page offset)
    { b.bp (b.page offset) with count := ((b.bp (b.page offset)).count + inc).toNat }).checkfree
    (b.page offset)

/-- `md_bitmap_set_pending` -/
def setPending (offset : Nat) : Counts :=
  b.setPage (b.page offset) { b.bp (b.page offset) with pending := true }

/-- `md_bitmap_get_counter` without `create`: the counter for a sector, if there is one, and how
many sectors from there on it is taken to stand for. -/
def getCounter (offset : Nat) : Option Counter × Nat :=
  if b.pages ≤ b.page offset then (none, b.csize - offset % b.csize)
  else
    ((b.bp (b.page offset)).map.counter (b.chunk offset % pageCounters),
      match (b.bp (b.page offset)).map with
      | .mapped _ => b.csize - offset % b.csize
      | _ => b.csize * pageCounters - offset % (b.csize * pageCounters))

/-- A value is stored through the pointer `md_bitmap_get_counter` returned. -/
def setCounter (offset : Nat) (c : Counter) : Counts :=
  b.setPage (b.page offset) { b.bp (b.page offset) with
    map := (b.bp (b.page offset)).map.set (b.chunk offset % pageCounters) c }

/-! ## Chunk by chunk -/

/-- The counter of a chunk whose page is not hijacked. -/
def counterAt (k : Nat) : Counter :=
  match (b.bp (k / pageCounters)).map with
  | .mapped map => map (k % pageCounters)
  | _ => Counter.zero

def NoHijack : Prop := ∀ page lo hi, (b.bp page).map ≠ .hijacked lo hi

def Mapped (page : Nat) : Prop := ∃ map, (b.bp page).map = .mapped map

theorem csize_pos : 0 < b.csize := Nat.two_pow_pos _

variable {b}

variable {offset : Nat} {block : Nat}

/-- Chunks of one size are the same chunks. -/
theorem spans_eq {b b' : Counts} (h : b'.chunkshift = b.chunkshift) :
    b'.csize = b.csize ∧ b'.chunk = b.chunk ∧ b'.page = b.page := by
  have hcsize : b'.csize = b.csize := by rw [csize, h, csize]
  have hchunk : b'.chunk = b.chunk := by
    unfold chunk
    rw [hcsize]
  refine ⟨hcsize, hchunk, ?_⟩
  unfold page
  rw [hchunk]

theorem getCounter_of_mapped {map : Nat → Counter} (hpage : b.page offset < b.pages)
    (hmap : (b.bp (b.page offset)).map = .mapped map) :
    b.getCounter offset = (some (b.counterAt (b.chunk offset)), b.csize - offset % b.csize) := by
  have hcounter : b.counterAt (b.chunk offset) = map (b.chunk offset % pageCounters) := by
    unfold counterAt
    rw [show b.chunk offset / pageCounters = b.page offset from rfl, hmap]
  unfold getCounter
  rw [if_neg (not_le.mpr hpage), hmap, hcounter]
  rfl

theorem getCounter_of_missing (hpage : b.page offset < b.pages)
    (hmap : (b.bp (b.page offset)).map = .missing) :
    b.getCounter offset = (none, b.csize * pageCounters - offset % (b.csize * pageCounters)) := by
  unfold getCounter
  rw [if_neg (not_le.mpr hpage), hmap]
  rfl

/-- What a read finds of a bitmap without hijacked pages. -/
theorem getCounter_cases (hno : b.NoHijack) (hpage : b.page offset < b.pages) :
    b.Mapped (b.page offset) ∧
        b.getCounter offset = (some (b.counterAt (b.chunk offset)), b.csize - offset % b.csize) ∨
      (b.bp (b.page offset)).map = .missing ∧ b.counterAt (b.chunk offset) = Counter.zero ∧
        b.getCounter offset = (none, b.csize * pageCounters - offset %
          (b.csize * pageCounters)) := by
  cases hmap : (b.bp (b.page offset)).map with
  | missing =>
    refine .inr ⟨rfl, ?_, getCounter_of_missing hpage hmap⟩
    unfold counterAt
    rw [show b.chunk offset / pageCounters = b.page offset from rfl, hmap]
  | hijacked lo hi => exact absurd hmap (hno _ lo hi)
  | mapped map => exact .inl ⟨⟨map, hmap⟩, getCounter_of_mapped hpage hmap⟩

/-- The counters of the two are the same, and a page that was there is there. -/
structure Same (b b' : Counts) : Prop where
  chunkshift : b'.chunkshift = b.chunkshift
  chunks : b'.chunks = b.chunks
  pages : b'.pages = b.pages
  noHijack : b.NoHijack → b'.NoHijack
  counterAt : ∀ k, b'.counterAt k = b.counterAt k
  mapped : ∀ page, b.Mapped page → b'.Mapped page

section

variable (page : Nat) (p : BitmapPage)
include page p

@[simp] theorem bp_setPage_self : (b.setPage page p).bp page = p :=
  update_self ..

@[simp] theorem chunk_setPage (offset : Nat) :
    (b.setPage page p).chunk offset = b.chunk offset := rfl

@[simp] theorem page_setPage (offset : Nat) : (b.setPage page p).page offset = b.page offset := rfl

end

@[simp] theorem setPage_setPage (page : Nat) (p q : BitmapPage) :
    (b.setPage page p).setPage page q = b.setPage page q :=
  congrArg (Counts.mk b.chunkshift b.chunks b.pages) (update_idem ..)

theorem bp_setPage_of_ne {page page' : Nat} (p : BitmapPage) (h : page' ≠ page) :
    (b.setPage page p).bp page' = b.bp page' :=
  update_of_ne h ..

theorem counterAt_setPage (page : Nat) (p : BitmapPage) (k : Nat) : (b.setPage page p).counterAt k =
      if k / pageCounters = page then
        match p.map with
        | .mapped map => map (k % pageCounters)
        | _ => Counter.zero
      else b.counterAt k := by
  unfold counterAt
  split_ifs with hk
  · rw [hk, bp_setPage_self]
  · rw [bp_setPage_of_ne p hk]

theorem noHijack_setPage {page : Nat} {p : BitmapPage} (hno : b.NoHijack)
    (hp : ∀ lo hi, p.map ≠ .hijacked lo hi) : (b.setPage page p).NoHijack := by
  intro page' lo hi
  by_cases h : page' = page
  · rw [h, bp_setPage_self]
    exact hp lo hi
  · rw [bp_setPage_of_ne p h]
    exact hno page' lo hi

/-- A page keeps its counters when only its other fields change. -/
theorem same_setPage {page : Nat} {p : BitmapPage} (hp : p.map = (b.bp page).map) :
    b.Same (b.setPage page p) := by
  refine ⟨rfl, rfl, rfl, fun hno => noHijack_setPage hno ?_, fun k => ?_, fun page' hmapped => ?_⟩
  · rw [hp]
    exact hno page
  · rw [counterAt_setPage]
    split_ifs with hk
    · rw [hp, counterAt, hk]
    · rfl
  · unfold Mapped
    by_cases h : page' = page
    · rw [h, bp_setPage_self, hp]
      exact h ▸ hmapped
    · rw [bp_setPage_of_ne p h]
      exact hmapped

theorem same_checkpage (page : Nat) : b.Same (b.checkpage page true) := by
  unfold checkpage
  split
  · next hmap =>
      refine ⟨rfl, rfl, rfl, fun hno => noHijack_setPage hno fun lo hi => by simp, fun k => ?_,
        fun page' hmapped => ?_⟩
      · rw [counterAt_setPage]
        by_cases hk : k / pageCounters = page
        · rw [if_pos hk, counterAt, hk, hmap]
          rfl
        · rw [if_neg hk]
      · have hne : page' ≠ page := by
          rintro rfl
          obtain ⟨map, hmap'⟩ := hmapped
          cases hmap.symm.trans hmap'
        rw [Mapped, bp_setPage_of_ne _ hne]
        exact hmapped
  · exact ⟨rfl, rfl, rfl, id, fun _ => rfl, fun _ h => h⟩

theorem checkpage_mapped (hno : b.NoHijack) (page : Nat) : (b.checkpage page true).Mapped page := by
  unfold checkpage Mapped
  cases hmap : (b.bp page).map with
  | missing => exact ⟨_, by rw [bp_setPage_self]; rfl⟩
  | hijacked lo hi => exact absurd hmap (hno _ lo hi)
  | mapped map => exact ⟨map, hmap⟩

/-- A read that makes the page. -/
theorem getCounter_checkpage (hno : b.NoHijack) (hpage : b.page offset < b.pages) :
    let c := b.checkpage (b.page offset) true
    c.Mapped (c.page offset) ∧
      c.getCounter offset = (some (c.counterAt (c.chunk offset)), c.csize - offset % c.csize) := by
  have hsame := same_checkpage (b := b) (b.page offset)
  have hmapped := checkpage_mapped hno (b.page offset)
  intro c
  change c.Mapped _ at hmapped
  change b.Same c at hsame
  rw [← hsame.pages] at hpage
  rw [← (spans_eq hsame.chunkshift).2.2] at hmapped hpage
  obtain ⟨map, hmap⟩ := hmapped
  exact ⟨⟨map, hmap⟩, getCounter_of_mapped hpage hmap⟩

theorem same_setPending (offset : Nat) : b.Same (b.setPending offset) := same_setPage rfl

theorem same_countPage_one (offset : Nat) : b.Same (b.countPage offset 1) := by
  unfold countPage checkfree
  have hcount : (((b.bp (b.page offset)).count : Int) + 1).toNat ≠ 0 := by omega
  rw [if_neg (by rw [bp_setPage_self]; exact hcount)]
  exact same_setPage rfl

theorem setCounter_mapped {c : Counter} {map : Nat → Counter} (hno : b.NoHijack)
    (hmap : (b.bp (b.page offset)).map = .mapped map) :
    (b.setCounter offset c).NoHijack ∧ (b.setCounter offset c).Mapped (b.page offset) ∧
      ∀ k, (b.setCounter offset c).counterAt k = if k = b.chunk offset then c else
        b.counterAt k := by
  have heq : b.setCounter offset c = b.setPage (b.page offset) { b.bp (b.page offset) with
      map := .mapped (update map (b.chunk offset % pageCounters) c) } := by
    rw [setCounter, hmap]
    rfl
  rw [heq]
  refine ⟨noHijack_setPage hno fun lo hi => by simp,
    ⟨_, congrArg BitmapPage.map (bp_setPage_self _ _)⟩,
    fun k => ?_⟩
  rw [counterAt_setPage]
  by_cases hk : k = b.chunk offset
  · have hpage : b.chunk offset / pageCounters = b.page offset := rfl
    rw [hk, if_pos rfl, hpage, if_pos rfl]
    exact update_self ..
  · rw [if_neg hk]
    split_ifs with hpage
    · have hoff : k % pageCounters ≠ b.chunk offset % pageCounters := fun hmod => hk <| by
        rw [← div_add_mod k pageCounters, ← div_add_mod (b.chunk offset) pageCounters, hmod, hpage]
        rfl
      rw [counterAt, hpage, hmap]
      exact update_of_ne hoff ..
    · rfl

theorem setCounter_fields (offset : Nat) (c : Counter) :
    (b.setCounter offset c).chunkshift = b.chunkshift ∧ (b.setCounter offset c).chunks = b.chunks ∧
      (b.setCounter offset c).pages = b.pages :=
  ⟨rfl, rfl, rfl⟩

/-- Only the counter of one chunk has changed. -/
structure Sets (b b' : Counts) (block : Nat) (c : Counter) : Prop where
  chunkshift : b'.chunkshift = b.chunkshift
  chunks : b'.chunks = b.chunks
  pages : b'.pages = b.pages
  noHijack : b'.NoHijack
  counterAt : ∀ k, b'.counterAt k = if k = b.chunk block then c else b.counterAt k

/-- And its page is there. -/
structure Stored (b b' : Counts) (block : Nat) (c : Counter) : Prop extends Sets b b' block c where
  mapped : b'.Mapped (b.page block)

theorem stored_setCounter (c : Counter) (hno : b.NoHijack) (hmapped : b.Mapped (b.page block)) :
    Stored b (b.setCounter block c) block c := by
  obtain ⟨map, hmap⟩ := hmapped
  obtain ⟨hshift, hchunks, hpages⟩ := b.setCounter_fields block c
  obtain ⟨hno', hmapped', hcounter⟩ := setCounter_mapped (c := c) hno hmap
  exact ⟨⟨hshift, hchunks, hpages, hno', hcounter⟩, hmapped'⟩

section

variable (c : Counter) (hno : b.NoHijack) (hmapped : b.Mapped (b.page block))
include c hno hmapped

theorem sets_use : Sets b ((b.countPage block 1).setCounter block c) block c := by
  have hone := same_countPage_one (b := b) block
  obtain ⟨-, hchunk, hpage⟩ := spans_eq hone.chunkshift
  have hstored := stored_setCounter c (hone.noHijack hno) (hpage ▸ hone.mapped _ hmapped)
  refine ⟨hstored.chunkshift.trans hone.chunkshift, hstored.chunks.trans hone.chunks,
    hstored.pages.trans hone.pages, hstored.noHijack, fun k => ?_⟩
  rw [hstored.counterAt, hchunk, hone.counterAt]

end

end Counts

/-! ## The file -/

/-- `PAGE_BITS` -/
def pageBits : Nat := 2 ^ 15

/-- `struct bitmap_storage`, a bit of the file addressed by its place from the start of the pages.
-/
structure Storage where
  sbPage : Bool
  filePages : Nat
  filemap : Nat → Bool
  /-- `BITMAP_PAGE_DIRTY`, by page. -/
  dirty : Nat → Bool

/-- The place of the bit of a chunk, behind the superblock if there is one. -/
def Storage.bitAt (store : Storage) (chunk : Nat) : Nat :=
  if store.sbPage then chunk + 256 * 8 else chunk

/-- `md_bitmap_storage_alloc` -/
def storageAlloc (chunks : Nat) (withSuper : Bool) : Storage :=
  let bytes := (chunks + 7) / 8 + if withSuper then 256 else 0
  ⟨withSuper, (bytes + 4095) / 4096, fun _ => false, fun _ => false⟩

/-- The bitmap, with what of `mddev->bitmap_info` it reads. -/
structure Bitmap where
  counts : Counts
  store : Storage
  /-- `bitmap_info.external` -/
  external : Bool

namespace Bitmap

variable (b : Bitmap)

def setCounts (c : Counts) : Bitmap := { b with counts := c }

def setStore (s : Storage) : Bitmap := { b with store := s }

/-- `md_bitmap_file_set_bit` -/
def fileSetBit (block : Nat) : Bitmap :=
  let bit := b.store.bitAt (b.counts.chunk block)
  if b.store.filePages ≤ bit / pageBits then b
  else
    b.setStore { b.store with
      filemap := update b.store.filemap bit true
      dirty := update b.store.dirty (bit / pageBits) true }

end Bitmap

/-- The shape of the bitmap, which only a resize changes. -/
structure Frame (b b' : Bitmap) : Prop where
  chunkshift : b'.counts.chunkshift = b.counts.chunkshift
  chunks : b'.counts.chunks = b.counts.chunks
  pages : b'.counts.pages = b.counts.pages
  sbPage : b'.store.sbPage = b.store.sbPage
  filePages : b'.store.filePages = b.store.filePages

section

variable {b b' : Bitmap} (h : Frame b b')
include h

theorem Frame.csize : b'.counts.csize = b.counts.csize := by
  rw [Counts.csize, h.chunkshift, Counts.csize]

theorem Frame.chunk : b'.counts.chunk = b.counts.chunk :=
  (Counts.spans_eq h.chunkshift).2.1

theorem Frame.bitAt (k : Nat) : b'.store.bitAt k = b.store.bitAt k := by
  rw [Storage.bitAt, h.sbPage, Storage.bitAt]

end

theorem Frame.refl (b : Bitmap) : Frame b b := ⟨rfl, rfl, rfl, rfl, rfl⟩

theorem Frame.trans {b b' b'' : Bitmap} (h : Frame b b') (h' : Frame b' b'') : Frame b b'' :=
  ⟨h'.chunkshift.trans h.chunkshift, h'.chunks.trans h.chunks, h'.pages.trans h.pages,
    h'.sbPage.trans h.sbPage,
    h'.filePages.trans h.filePages⟩

section

variable {b : Bitmap} {c : Counts}

theorem frame_setCounts (hshift : c.chunkshift = b.counts.chunkshift)
    (hchunks : c.chunks = b.counts.chunks) (hpages : c.pages = b.counts.pages) :
    Frame b (b.setCounts c) :=
  ⟨hshift, hchunks, hpages, rfl, rfl⟩

theorem Counts.Same.frame (h : b.counts.Same c) : Frame b (b.setCounts c) :=
  frame_setCounts h.chunkshift h.chunks h.pages

theorem Counts.Sets.frame {block : Nat} {n : Counter}
    (h : b.counts.Sets c block n) : Frame b (b.setCounts c) :=
  frame_setCounts h.chunkshift h.chunks h.pages

end

theorem bitAt_injective (store : Storage) {k k' : Nat}
    (h : store.bitAt k = store.bitAt k') : k = k' := by
  unfold Storage.bitAt at h
  split_ifs at h with hsb
  · exact add_right_cancel h
  · exact h

/-- The bit of a block that has room in the file. -/
theorem fileSetBit_spec {b : Bitmap} {block : Nat}
    (hfits : b.store.bitAt (b.counts.chunk block) / pageBits < b.store.filePages) :
    Frame b (b.fileSetBit block) ∧ (b.fileSetBit block).counts = b.counts ∧
      ∀ k, (b.fileSetBit block).store.filemap (b.store.bitAt k) ↔
        b.store.filemap (b.store.bitAt k) ∨ k = b.counts.chunk block := by
  unfold Bitmap.fileSetBit
  dsimp only
  rw [if_neg (not_le.mpr hfits)]
  refine ⟨⟨rfl, rfl, rfl, rfl, rfl⟩, rfl, fun k => ?_⟩
  show update b.store.filemap _ true _ ↔ _
  by_cases hk : k = b.counts.chunk block
  · rw [hk, update_self]
    exact ⟨fun _ => .inr rfl, fun _ => rfl⟩
  · rw [update_of_ne fun heq => hk (bitAt_injective _ heq)]
    exact ⟨.inl, fun h => h.resolve_right hk⟩

end MdRaid.WriteIntent
