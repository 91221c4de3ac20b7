import MdRaid.Lib.Runs
import MdRaid.Resync.Bitmap
import MdRaid.WriteIntent.Counts

/-!
# Writes under the bitmap

`bitmap_startwrite` counts a write in the counter of each chunk it touches, and sets the
bit of a chunk whose counter was zero; `bitmap_endwrite` takes the write back out, and
the daemon clears the bits of chunks that stay idle. Each turn of their loops holds the
lock, and the turns of different writes come in any order.
-/

namespace MdRaid.WriteIntent

/-! ## The calls -/

/-- Where a write stands; the loops carry the offset and the sectors that are left. -/
inductive Phase where
  | starting (offset sectors : Nat)
  | started
  | ending (offset sectors : Nat) (success : Bool)
  | ended
deriving DecidableEq, Repr

structure Write where
  offset : Nat
  sectors : Nat
  phase : Phase
deriving DecidableEq, Repr

/-- What came of a turn of the loop of `bitmap_startwrite`. -/
inductive Turn where
  | beyond
  | full
  | took (blocks : Nat)
deriving DecidableEq, Repr

namespace Bitmap

variable (b : Bitmap)

/-- `md_bitmap_file_clear_bit` -/
def fileClearBit (block : Nat) : Bitmap :=
  let bit := b.store.bitAt (b.counts.chunk block)
  if b.store.filePages ≤ bit / pageBits then b
  else b.setStore { b.store with filemap := Function.update b.store.filemap bit false }

/-- The counter of a chunk that gets one write more. -/
def startCounter (offset : Nat) (c : Counter) : Bitmap :=
  if c.is 0 then
    let marked := b.fileSetBit offset
    marked.setCounts ((marked.counts.countPage offset 1).setCounter offset ⟨false, false, 3⟩)
  else b.setCounts (b.counts.setCounter offset (if c.is 1 then ⟨false, false, 3⟩ else c.inc))

/-- One turn of `bitmap_startwrite`; `alloc` says whether a page could be allocated. -/
def startTurn (offset : Nat) (alloc : Bool) : Bitmap × Turn :=
  if b.counts.pages ≤ b.counts.page offset then (b, .beyond)
  else
    let b := b.setCounts (b.counts.checkpage (b.counts.page offset) alloc)
    match b.counts.getCounter offset with
    | (none, _) => (b, .beyond)
    | (some c, blocks) =>
      if c.count = Counter.max then (b, .full) else (b.startCounter offset c, .took blocks)

/-- The counter of a chunk that has one write less. -/
def endCounter (offset : Nat) (c : Counter) (success : Bool) : Bitmap :=
  let c' := (if !success && !c.needed then { c with needed := true } else c).dec
  let counts := b.counts.setCounter offset c'
  b.setCounts (if c'.atMost 2 then counts.setPending offset else counts)

/-- One turn of `bitmap_endwrite`, and the sectors it is for. -/
def endTurn (offset : Nat) (success : Bool) : Option (Bitmap × Nat) :=
  match b.counts.getCounter offset with
  | (none, _) => none
  | (some c, blocks) => some (b.endCounter offset c success, blocks)

/-- `__bitmap_start_sync` -/
def startSync (offset : Nat) (degraded : Bool) : Bitmap :=
  match (b.counts.getCounter offset).1 with
  | none => b
  | some c =>
    if !c.resync && c.needed && !degraded then
      b.setCounts (b.counts.setCounter offset { c with resync := true, needed := false })
    else b

/-- `__bitmap_end_sync` -/
def endSync (offset : Nat) (aborted : Bool) : Bitmap :=
  match (b.counts.getCounter offset).1 with
  | none => b
  | some c =>
    if c.resync then
      let c' : Counter := { c with resync := false }
      if !c'.needed && aborted then b.setCounts (b.counts.setCounter offset
        { c' with needed := true })
      else
        let counts := b.counts.setCounter offset c'
        b.setCounts (if c'.atMost 2 then counts.setPending offset else counts)
    else b

/-- What the daemon does with the counter of a chunk. -/
def sweepCounter (block : Nat) (c : Counter) (needSync : Bool) : Bitmap :=
  if c.is 1 && !needSync then
    (b.setCounts ((b.counts.setCounter block Counter.zero).countPage block (-1))).fileClearBit block
  else if !c.is 0 && c.atMost 2 then
    b.setCounts ((b.counts.setCounter block ⟨false, false, 1⟩).setPending block)
  else b

/-- The `pending` flag of a page is taken down. -/
def takePending (page : Nat) : Bitmap :=
  b.setCounts (b.counts.setPage page { b.counts.bp page with pending := false })

/-- The loop of `bitmap_daemon_work` over the counters; `j |= PAGE_COUNTER_MASK` goes on with the
next page. -/
def sweep (needSync : Bool) : Nat → Nat → Nat → Bitmap → Bitmap
  | 0, _, _, b => b
  | fuel + 1, j, nextpage, b =>
    if j < b.counts.chunks then
      let page := j / pageCounters
      if j = nextpage ∧ (b.counts.bp page).pending = false then
        sweep needSync fuel ((page + 1) * pageCounters) (nextpage + pageCounters) b
      else
        let b := if j = nextpage then b.takePending page else b
        let nextpage := if j = nextpage then nextpage + pageCounters else nextpage
        let block := j * b.counts.csize
        match (b.counts.getCounter block).1 with
        | none => sweep needSync fuel ((page + 1) * pageCounters) nextpage b
        | some c => sweep needSync fuel (j + 1) nextpage (b.sweepCounter block c needSync)
    else b

end Bitmap

/-! ## What a resync sees -/

def Counter.flags (c : Counter) : Resync.BitmapCounter := ⟨c.needed, c.resync⟩

/-- The flags of the counters, in the pages that are there. -/
def Counts.flags (b : Counts) : Resync.Bitmap where
  chunkshift := b.chunkshift
  bp page :=
    match (b.bp page).map with
    | .mapped map => some fun i => (map i).flags
    | _ => none

theorem Counts.counter_flags (b : Counts) (k : Nat) :
    b.flags.counter k = (b.counterAt k).flags := by
  simp only [Resync.Bitmap.counter, flags, counterAt]
  cases (b.bp (k / pageCounters)).map <;> rfl

namespace Bitmap

variable {b : Bitmap} {offset : Nat} (hno : b.counts.NoHijack)
  (hpage : b.counts.page offset < b.counts.pages) (k : Nat)
include hno hpage

/-- The two functions do to the flags of a chunk what they do in the bitmap of a resync. -/
theorem flags_startSync : ((b.startSync offset false).counts.counterAt k).flags =
    (Resync.bitmapStartSync b.counts.flags offset false).bitmap.counter k := by
  rw [Resync.counter_bitmapStartSync, Counts.counter_flags]
  change _ = if k = b.counts.chunk offset then _ else _
  unfold startSync
  rcases Counts.getCounter_cases hno hpage with ⟨⟨map, hmap⟩, hget⟩ | ⟨-, hzero, hget⟩
  · have hset := fun c => (Counts.setCounter_mapped (c := c) hno hmap).2.2
    by_cases hk : k = b.counts.chunk offset <;>
      rcases hc : b.counts.counterAt (b.counts.chunk offset) with ⟨_ | _, _ | _, n⟩ <;>
      simp [hget, hset, hc, hk, setCounts, Counter.flags, Resync.BitmapCounter.start]
  · rw [hget]
    split_ifs with hk
    · rw [hk, hzero]; rfl
    · rfl

theorem flags_endSync (aborted : Bool) : ((b.endSync offset aborted).counts.counterAt k).flags =
    (Resync.bitmapEndSync b.counts.flags offset aborted).2.counter k := by
  rw [Resync.counter_bitmapEndSync, Counts.counter_flags]
  change _ = if k = b.counts.chunk offset then _ else _
  unfold endSync
  rcases Counts.getCounter_cases hno hpage with ⟨⟨map, hmap⟩, hget⟩ | ⟨-, hzero, hget⟩
  · have hset := fun c => (Counts.setCounter_mapped (c := c) hno hmap).2.2
    have hpend : ∀ (c : Counter) k, (if c.atMost 2 then
        (b.counts.setCounter offset c).setPending offset
        else b.counts.setCounter offset c).counterAt k = _ := fun c k => by
      rw [apply_ite (Counts.counterAt · k), (Counts.same_setPending offset).counterAt, ite_self,
        hset]
    by_cases hk : k = b.counts.chunk offset <;>
      rcases hc : b.counts.counterAt (b.counts.chunk offset) with ⟨_ | _, _ | _, n⟩ <;>
      cases aborted <;>
      simp [hget, hset, hpend, hc, hk, setCounts, Counter.flags, Resync.BitmapCounter.stop]
  · rw [hget]
    split_ifs with hk
    · rw [hk, hzero]; rfl
    · rfl

end Bitmap

/-! ## The machine -/

/-- The bitmap, what of the array its functions read, and the writes. -/
structure Dirty where
  bitmap : Bitmap
  needSync : Bool
  degraded : Bool
  events : Nat
  eventsCleared : Nat
  writes : List Write

namespace Dirty

variable (s : Dirty)

def setBitmap (b : Bitmap) : Dirty := { s with bitmap := b }

def setPhase (i : Nat) (w : Write) (p : Phase) : Dirty :=
  { s with writes := s.writes.set i ⟨w.offset, w.sectors, p⟩ }

/-- What `bitmap_endwrite` notes about the events. -/
def noteEvents (success : Bool) : Dirty :=
  if success && !s.degraded && decide (s.eventsCleared < s.events) then
    { s with eventsCleared := s.events, needSync := true }
  else s

/-- `bitmap_daemon_work`, past the checks of the time. -/
def daemonWork : Dirty :=
  let needSync := s.needSync && s.bitmap.external
  { s with
    needSync := needSync
    bitmap := Bitmap.sweep needSync s.bitmap.counts.chunks 0 0 s.bitmap }

/-- `bitmap_startwrite` is called. -/
def begin (offset sectors : Nat) : Dirty :=
  { s with writes := s.writes ++
      [⟨offset, sectors, if sectors = 0 then .started else .starting offset sectors⟩] }

/-- The next turn of a `bitmap_startwrite`. -/
def startTurn (i : Nat) (alloc : Bool) : Option Dirty :=
  match s.writes[i]? with
  | some ⟨o, n, .starting offset sectors⟩ =>
    match s.bitmap.startTurn offset alloc with
    | (b, .beyond) => some ((s.setBitmap b).setPhase i ⟨o, n, .started⟩ .started)
    | (b, .full) => some (s.setBitmap b)
    | (b, .took blocks) =>
      some ((s.setBitmap b).setPhase i ⟨o, n, .started⟩
        (if sectors ≤ blocks then .started else .starting (offset + blocks) (sectors - blocks)))
  | _ => none

/-- `bitmap_endwrite` is called. -/
def endwrite (i : Nat) (success : Bool) : Option Dirty :=
  match s.writes[i]? with
  | some ⟨o, n, .started⟩ =>
    some (s.setPhase i ⟨o, n, .started⟩ (if n = 0 then .ended else .ending o n success))
  | _ => none

/-- The next turn of a `bitmap_endwrite`. -/
def endTurn (i : Nat) : Option Dirty :=
  match s.writes[i]? with
  | some ⟨o, n, .ending offset sectors success⟩ =>
    match s.bitmap.endTurn offset success with
    | none => some (s.setPhase i ⟨o, n, .ended⟩ .ended)
    | some (b, blocks) =>
      some (((s.noteEvents success).setBitmap b).setPhase i ⟨o, n, .ended⟩
        (if sectors ≤ blocks then .ended else .ending (offset + blocks) (sectors - blocks) success))
  | _ => none

inductive Event where
  | begin (offset sectors : Nat)
  | startTurn (i : Nat) (alloc : Bool)
  | endwrite (i : Nat) (success : Bool)
  | endTurn (i : Nat)
  | startSync (offset : Nat) (degraded : Bool)
  | endSync (offset : Nat) (aborted : Bool)
  | daemonWork
  | setArray (degraded : Bool) (events : Nat)
deriving DecidableEq, Repr

def step : Event → Option Dirty
  | .begin offset sectors => some (s.begin offset sectors)
  | .startTurn i alloc => s.startTurn i alloc
  | .endwrite i success => s.endwrite i success
  | .endTurn i => s.endTurn i
  | .startSync offset degraded => some (s.setBitmap (s.bitmap.startSync offset degraded))
  | .endSync offset aborted => some (s.setBitmap (s.bitmap.endSync offset aborted))
  | .daemonWork => some s.daemonWork
  | .setArray degraded events => some { s with degraded := degraded, events := events }

/-- The write touches chunk `k`. -/
def Touches (w : Write) (k : Nat) : Prop :=
  0 < w.sectors ∧ k * s.bitmap.counts.csize < w.offset + w.sectors ∧
    w.offset < (k + 1) * s.bitmap.counts.csize

instance (w : Write) (k : Nat) : Decidable (s.Touches w k) := inferInstanceAs
    (Decidable (_ ∧ _ ∧ _))

/-- Every chunk of a write between `bitmap_startwrite` and `bitmap_endwrite` has its bit. -/
def InBitmap : Prop :=
  ∀ w ∈ s.writes, w.phase = .started → ∀ k < s.bitmap.counts.chunks, s.Touches w k →
    s.bitmap.store.filemap (s.bitmap.store.bitAt k) = true

instance : Decidable s.InBitmap :=
  inferInstanceAs (Decidable (∀ w ∈ s.writes, w.phase = .started → ∀ k < s.bitmap.counts.chunks,
    s.Touches w k → s.bitmap.store.filemap (s.bitmap.store.bitAt k) = true))

end Dirty

end MdRaid.WriteIntent
