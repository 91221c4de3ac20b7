import MdRaid.Lib.Runs
import MdRaid.Sectors

/-!
# Writing the partial parity log of a member

The log of a member has an area on the disk, checked by `ppl_validate_rdev`. Stripes are
gathered in io units, each a page of header and a page of partial parity for every stripe
that is not written whole. The first unit of the list is written to the area when no other
is; in an area with room for several units they go one behind the other.

`ppl.size` counts sectors in 32 bits, and is turned into bytes in 32 bits as well.
-/

namespace MdRaid.Ppl

open Runs

inductive Errno where
  | ebusy
  | eexist
  | einval
  | enodev
  | enospc
  | enomem
  | eio
deriving DecidableEq, Repr

/-! ## The area -/

def pageSize : Nat := 4096

def pplHeaderSize : Nat := 4096

/-- `PPL_HEADER_SIZE >> 9` -/
def pplHeaderSectors : Nat := 8

def pplSpaceSize : Nat := 128 * 1024

/-- The entries of 24 bytes behind what else is in the header page. -/
def pplHdrMaxEntries : Nat := (pplHeaderSize - 512 - 4 * 4 - 8) / 24

/-- What a member says of the places of its data, its superblock and its log. -/
structure Rdev where
  /-- of the array: the metadata are kept by user space -/
  external : Bool
  dataOffset : Nat
  sectors : Nat
  sbStart : Nat
  sbSize : Nat
  pplSector : Nat
  pplSize : Nat
  pplOffset : Int
  size_lt : pplSize < 2 ^ 32
  -- no disk has 2⁶³ sectors
  data_lt : dataOffset + sectors < 2 ^ 63
  sector_lt : pplSector < 2 ^ 63
  /-- `super_1_load`, `ppl_sector_store` and `ppl_size_store` -/
  native : external = false → (pplSector : Int) = sbStart + pplOffset ∧ pplSize < 2 ^ 16

/-- A member with a superblock at sector 8, a log of 264 sectors behind it and its data
behind that. -/
def plainRdev : Rdev where
  external := false
  dataOffset := 2048
  sectors := 4096
  sbStart := 8
  sbSize := 1024
  pplSector := 16
  pplSize := 264
  pplOffset := 8
  size_lt := by decide
  data_lt := by decide
  sector_lt := by decide
  native := fun _ => by decide

/-- The value of an `int` after arithmetic that may have overflowed. -/
def int32 (z : Int) : Int := Int.bmod z (2 ^ 32)

theorem int32_spec (z : Int) :
    -2 ^ 31 ≤ int32 z ∧ int32 z < 2 ^ 31 ∧ ∃ k : Int, int32 z = z - 2 ^ 32 * k := by
  have hlow : -(((2 ^ 32 : Nat) : Int) / 2) ≤ int32 z := Int.le_bmod (by decide)
  have hhigh : int32 z < (((2 ^ 32 : Nat) : Int) + 1) / 2 := Int.bmod_lt (by decide)
  refine ⟨by omega, by omega, z.bdiv (2 ^ 32), ?_⟩
  have := Int.bmod_add_bdiv z (2 ^ 32)
  simp only [int32]
  omega

/-- `ppl_data_sectors`, an `int`, rounded down to whole stripes. -/
def pplDataSectors (rdev : Rdev) : Int :=
  let room := int32 (rdev.pplSize - pplHeaderSectors)
  if room > 0 then room / stripeSectors * stripeSectors else room

/-- `ppl_size_new`, an `int` -/
def pplSizeNew (rdev : Rdev) : Int := int32 (pplDataSectors rdev + pplHeaderSectors)

/-- The new `ppl.size`, or why the member is refused. -/
def pplValidateRdev (rdev : Rdev) : Except Errno Nat :=
  if pplDataSectors rdev ≤ 0 then .error .enospc
  else if (rdev.pplSector < rdev.dataOffset ∧
        (rdev.pplSector + pplSizeNew rdev) % 2 ^ 64 > rdev.dataOffset) ∨
      (rdev.pplSector ≥ rdev.dataOffset ∧ rdev.dataOffset + rdev.sectors > rdev.pplSector) then
    .error .einval
  else if rdev.external = false ∧
      ((rdev.pplOffset > 0 ∧ rdev.pplOffset < (rdev.sbSize / 512 : Nat)) ∨
        (rdev.pplOffset ≤ 0 ∧ rdev.pplOffset + pplSizeNew rdev > 0)) then
    .error .einval
  else .ok (pplSizeNew rdev % 2 ^ 32).toNat

/-- An interval of sectors of a disk. -/
structure Extent where
  start : Nat
  stop : Nat
deriving DecidableEq, Repr

def Extent.Apart (a b : Extent) : Prop := a.stop ≤ b.start ∨ b.stop ≤ a.start

namespace Rdev

def data (rdev : Rdev) : Extent := ⟨rdev.dataOffset, rdev.dataOffset + rdev.sectors⟩

def superblock (rdev : Rdev) : Extent := ⟨rdev.sbStart, rdev.sbStart + rdev.sbSize / 512⟩

/-- The area, when the size left by `ppl_validate_rdev` is `size`. -/
def area (rdev : Rdev) (size : Nat) : Extent := ⟨rdev.pplSector, rdev.pplSector + size⟩

end Rdev

/-- A size of 2³¹ sectors is negative as an `int`, and the area may then reach into the data. -/
def Rdev.ReachesData (rdev : Rdev) (size : Nat) : Prop :=
  size = 2 ^ 31 ∧ rdev.pplSector < rdev.dataOffset ∧ rdev.dataOffset < rdev.pplSector + size

instance (rdev : Rdev) (size : Nat) : Decidable (rdev.ReachesData size) :=
  inferInstanceAs (Decidable (_ ∧ _ ∧ _))

/-- What `ppl_validate_rdev` has checked when it accepts. -/
structure Accepted (rdev : Rdev) (size : Nat) : Prop where
  whole : size % 8 = 0
  room : 16 ≤ size
  small : size ≤ 2 ^ 31
  shrinks : size ≤ rdev.pplSize
  beforeData : size < 2 ^ 31 → rdev.pplSector < rdev.dataOffset →
    rdev.pplSector + size ≤ rdev.dataOffset
  behindData : rdev.dataOffset ≤ rdev.pplSector →
    rdev.dataOffset + rdev.sectors ≤ rdev.pplSector
  superblock : rdev.external = false →
    (rdev.pplOffset > 0 → (rdev.sbSize / 512 : Nat) ≤ rdev.pplOffset) ∧
      (rdev.pplOffset ≤ 0 → rdev.pplOffset + size ≤ 0)

section

variable {rdev : Rdev}

theorem pplDataSectors_pos (h : 0 < pplDataSectors rdev) :
    ∃ n : Nat, pplDataSectors rdev = 8 * n ∧ 1 ≤ n ∧ n < 2 ^ 28 ∧ 8 * n + 8 ≤ rdev.pplSize := by
  have hlt := rdev.size_lt
  obtain ⟨hlow, hhigh, k, hk⟩ := int32_spec (rdev.pplSize - pplHeaderSectors)
  simp only [pplDataSectors] at h ⊢
  split at h
  · rename_i hroom
    rw [if_pos hroom]
    simp only [pplHeaderSectors, stripeSectors] at *
    exact ⟨(int32 (rdev.pplSize - (8 : Nat)) / 8).toNat, by omega, by omega, by omega, by omega⟩
  · contradiction

theorem accepted_of_validate {size : Nat}
    (h : pplValidateRdev rdev = .ok size) : Accepted rdev size := by
  have hsector := rdev.sector_lt
  have hdata := rdev.data_lt
  unfold pplValidateRdev at h
  split at h
  · cases h
  rename_i hroom
  split at h
  · cases h
  rename_i hover
  split at h
  · cases h
  rename_i hsuper
  obtain ⟨n, hn, hpos, hsmall, hshrinks⟩ := pplDataSectors_pos (Int.not_le.mp hroom)
  -- the new size is negative only when it is 2³¹
  have hnew : pplSizeNew rdev = if 8 * n + 8 < 2 ^ 31 then (8 * n + 8 : Int) else -2 ^ 31 := by
    obtain ⟨hlow, hhigh, k, hk⟩ := int32_spec (8 * n + pplHeaderSectors)
    rw [pplSizeNew, hn]
    simp only [pplHeaderSectors] at *
    split <;> omega
  have hsize : size = 8 * n + 8 := by
    rw [hnew] at h
    injection h with h
    split at h <;> omega
  subst hsize
  constructor
  · omega
  · omega
  · omega
  · exact hshrinks
  · intro hlt hbefore
    rw [hnew, if_pos hlt] at hover
    omega
  · intro hbehind
    omega
  · intro hnative
    have hsixteen := (rdev.native hnative).2
    rw [hnew, if_pos (by omega)] at hsuper
    constructor
    · intro hoff
      by_contra hcon
      exact hsuper ⟨hnative, .inl ⟨hoff, by omega⟩⟩
    · intro hoff
      by_contra hcon
      exact hsuper ⟨hnative, .inr ⟨hoff, by push_cast at hcon; omega⟩⟩

/-- The member with the size `ppl_validate_rdev` leaves. -/
def Rdev.resized (rdev : Rdev) {size : Nat} (h : pplValidateRdev rdev = .ok size) : Rdev :=
  { rdev with
    pplSize := size
    size_lt := (accepted_of_validate h).shrinks.trans_lt rdev.size_lt
    native := fun hn => (rdev.native hn).imp_right (accepted_of_validate h).shrinks.trans_lt }

theorem Accepted.apart_superblock {size : Nat} (h : Accepted rdev size)
    (hnative : rdev.external = false) : (rdev.area size).Apart rdev.superblock := by
  have hplace := (rdev.native hnative).1
  obtain ⟨hafter, hbefore⟩ := h.superblock hnative
  rcases Int.lt_or_le 0 rdev.pplOffset with hoff | hoff
  · have := hafter hoff
    right
    simp only [Rdev.area, Rdev.superblock]
    omega
  · have := hbefore hoff
    left
    simp only [Rdev.area, Rdev.superblock]
    omega

theorem Accepted.apart_data {size : Nat} (h : Accepted rdev size) :
    (rdev.area size).Apart rdev.data ↔ ¬ rdev.ReachesData size := by
  have hroom := h.room
  simp only [Extent.Apart, Rdev.area, Rdev.data, Rdev.ReachesData]
  constructor
  · rintro hapart ⟨-, hbefore, hreach⟩
    omega
  · intro hreach
    rcases lt_or_ge rdev.pplSector rdev.dataOffset with hbefore | hbehind
    · left
      rcases lt_or_ge size (2 ^ 31) with hlt | hge
      · exact h.beforeData hlt hbefore
      · by_contra hcon
        exact hreach ⟨le_antisymm h.small hge, hbefore, by omega⟩
    · exact .inr (h.behindData hbehind)

end

/-! ## Units -/

/-- What `ppl_log_stripe` reads of a stripe. -/
structure Stripe where
  sector : Nat
  pdIdx : Nat
  /-- `dev->sector` of each data device with `R5_Wantwrite` -/
  wantwrite : List Nat
  /-- `STRIPE_FULL_WRITE` -/
  fullWrite : Bool
deriving DecidableEq, Repr

namespace Stripe

/-- `data_sector`: the first of the sectors written -/
def dataSector (sh : Stripe) : Nat :=
  match sh.wantwrite with
  | [] => 0
  | sector :: sectors => sectors.foldl min sector

def dataDisks (sh : Stripe) : Nat := sh.wantwrite.length

/-- The bytes of partial parity that are logged for the stripe. -/
def ppSize (sh : Stripe) : Nat := if sh.fullWrite then 0 else pageSize

end Stripe

/-- `struct ppl_header_entry`, without the checksum of its partial parity -/
structure Entry where
  dataSector : Nat
  ppSize : Nat
  dataSize : Nat
  parityDisk : Nat
deriving DecidableEq, Repr

namespace Entry

/-- An entry of the cleared header page, taken for a stripe. -/
def fresh (sh : Stripe) : Entry := ⟨sh.dataSector, 0, 0, sh.pdIdx⟩

/-- The stripe is counted in the entry, whose fields have 32 bits. -/
def grow (e : Entry) (sh : Stripe) : Entry :=
  { e with
    dataSize := (e.dataSize + sh.dataDisks * pageSize) % 2 ^ 32
    ppSize := (e.ppSize + sh.ppSize) % 2 ^ 32 }

/-- The stripe is just behind the last one logged, and writes the same disks. -/
def Takes (chunkSectors : Nat) (last : Entry) (shLast sh : Stripe) : Prop :=
  sh.sector = shLast.sector + stripeSectors ∧
    sh.dataSector / 2 ^ chunkSectors.log2 = last.dataSector / 2 ^ chunkSectors.log2 ∧
    ((sh.dataSector : Int) - last.dataSector) * sh.dataDisks = (last.dataSize / 512 : Nat)

instance (chunkSectors : Nat) (last : Entry) (shLast sh : Stripe) :
    Decidable (Takes chunkSectors last shLast sh) := inferInstanceAs (Decidable (_ ∧ _ ∧ _))

end Entry

/-- `struct ppl_io_unit`; entries and stripes have the newest first. -/
structure IoUnit where
  seq : Nat
  entries : List Entry
  ppSize : Nat
  stripes : List Stripe
  submitted : Bool
deriving DecidableEq, Repr

/-- A bio of a unit: a first sector and a number of sectors. -/
structure Bio where
  sector : Nat
  sectors : Nat
deriving DecidableEq, Repr

namespace IoUnit

def pplNewIounit (seq : Nat) : IoUnit := ⟨seq, [], 0, [], false⟩

/-- The rest of `ppl_log_stripe`, for the unit that takes the stripe. -/
def add (chunkSectors : Nat) (io : IoUnit) (sh : Stripe) : IoUnit :=
  { io with
    entries :=
      match io.entries, io.stripes with
      | last :: rest, shLast :: _ =>
        if last.Takes chunkSectors shLast sh then last.grow sh :: rest
        else (Entry.fresh sh).grow sh :: last :: rest
      | entries, _ => (Entry.fresh sh).grow sh :: entries
    ppSize := (io.ppSize + sh.ppSize) % 2 ^ 32
    stripes := sh :: io.stripes }

/-- `(PPL_HEADER_SIZE + io->pp_size) >> 9` -/
def sectors (io : IoUnit) : Nat := (pplHeaderSize + io.ppSize) % 2 ^ 32 / 512

/-- The pages of partial parity. -/
def pages (io : IoUnit) : Nat := io.stripes.countP fun sh => !sh.fullWrite

/-- One `bio_add_page`: when the bio has no room, another is chained to it. -/
def addPage (fits : Bool) (bio : Bio) (done : List Bio) : Bio × List Bio :=
  if fits then (⟨bio.sector, bio.sectors + stripeSectors⟩, done)
  else (⟨bio.sector + bio.sectors, stripeSectors⟩, bio :: done)

/-- The bio that is filled and those submitted before, after a number of pages. -/
def fill (fits : Nat → Bool) (sector : Nat) : Nat → Bio × List Bio
  | 0 => (⟨sector, pplHeaderSectors⟩, [])
  | n + 1 => addPage (fits n) (fill fits sector n).1 (fill fits sector n).2

def bios (io : IoUnit) (fits : Nat → Bool) (sector : Nat) : List Bio :=
  (fill fits sector io.pages).1 :: (fill fits sector io.pages).2

end IoUnit

/-! ## The log -/

structure Log where
  pplSector : Nat
  pplSize : Nat
  chunkSectors : Nat
  entrySpace : Nat
  useMultippl : Bool
  nextIoSector : Nat
  /-- `ppl_conf->seq` -/
  seq : Nat
  /-- `io_list` without `current_io`, which is at its end -/
  queue : List IoUnit
  currentIo : Option IoUnit
  /-- all that was submitted -/
  bios : List Bio
deriving DecidableEq, Repr

/-- `rdev->ppl.size << 9`, an `unsigned int` -/
def pplBytes (size : Nat) : Nat := size * 512 % 2 ^ 32

def pplEntrySpace (size : Nat) : Nat :=
  if (pplSpaceSize + pplHeaderSize) * 2 ≤ pplBytes size then pplSpaceSize
  else (pplBytes size + 2 ^ 32 - pplHeaderSize) % 2 ^ 32

def pplInitChildLog (rdev : Rdev) (size chunkSectors seq : Nat) : Log where
  pplSector := rdev.pplSector
  pplSize := size
  chunkSectors := chunkSectors
  entrySpace := pplEntrySpace size
  useMultippl := decide ((pplSpaceSize + pplHeaderSize) * 2 ≤ pplBytes size)
  nextIoSector := rdev.pplSector
  seq := seq
  queue := []
  currentIo := none
  bios := []

namespace Log

def ioList (log : Log) : List IoUnit := log.queue ++ log.currentIo.toList

def Full (log : Log) (io : IoUnit) : Prop :=
  io.ppSize = log.entrySpace ∨ io.entries.length = pplHdrMaxEntries

instance (log : Log) (io : IoUnit) : Decidable (log.Full io) :=
  inferInstanceAs (Decidable (_ ∨ _))

/-- `ppl_log_stripe`; `none` is `-ENOMEM`. `alloc` says whether the pool gives a new unit. -/
def pplLogStripe (log : Log) (sh : Stripe) (alloc : Bool) : Option Log :=
  match log.currentIo.filter fun io => !decide (log.Full io) with
  | some io => some { log with currentIo := some (io.add log.chunkSectors sh) }
  | none =>
    if alloc then
      some { log with
        queue := log.queue ++ log.currentIo.toList
        currentIo := some ((IoUnit.pplNewIounit (log.seq + 1)).add log.chunkSectors sh)
        seq := log.seq + 1 }
    else none

/-- Where the next unit goes; the differences of sectors have 64 bits. -/
def place (log : Log) (io : IoUnit) : Nat :=
  if log.useMultippl ∧
      (log.pplSector + log.pplSize + 2 ^ 64 - log.nextIoSector) % 2 ^ 64 < io.sectors then
    log.pplSector
  else log.nextIoSector

/-- `gone`: there is no member any more, or it is faulty. -/
def pplSubmitIounit (log : Log) (io : IoUnit) (gone : Bool) (fits : Nat → Bool) : Log :=
  if gone then log
  else
    { log with
      nextIoSector :=
        if log.useMultippl then log.place io + io.sectors else log.place io
      bios := io.bios fits (log.place io) ++ log.bios }

def pplSubmitCurrentIo (log : Log) (gone : Bool) (fits : Nat → Bool) : Log :=
  match log.queue, log.currentIo with
  | io :: rest, _ =>
    if io.submitted then log
    else pplSubmitIounit { log with queue := { io with submitted := true } :: rest } io gone fits
  | [], some io =>
    if io.submitted then log
    else
      pplSubmitIounit { log with queue := [{ io with submitted := true }], currentIo := none }
        io gone fits
  | [], none => log

/-- `ppl_io_unit_finished`, for a unit that was submitted -/
def pplIoUnitFinished (log : Log) (i : Nat) : Option Log :=
  match log.queue[i]? with
  | some io => if io.submitted then some { log with queue := log.queue.eraseIdx i } else none
  | none => none

inductive Event where
  | logStripe (sh : Stripe) (alloc : Bool)
  | submit (gone : Bool) (fits : Nat → Bool)
  | finished (i : Nat)
  /-- another log of the array has taken a sequence number -/
  | otherSeq

/-- A stripe without data to be written is a `BUG_ON`. -/
def step (log : Log) : Event → Option Log
  | .logStripe sh alloc =>
    if sh.dataDisks = 0 then none else some ((log.pplLogStripe sh alloc).getD log)
  | .submit gone fits => some (log.pplSubmitCurrentIo gone fits)
  | .finished i => log.pplIoUnitFinished i
  | .otherSeq => some { log with seq := log.seq + 1 }

/-- What the log keeps to. -/
structure InLimits (area : Extent) (log : Log) : Prop where
  entries : ∀ io ∈ log.ioList, io.entries.length ≤ pplHdrMaxEntries
  space : ∀ io ∈ log.ioList, io.ppSize ≤ log.entrySpace
  single : (log.ioList.filter (·.submitted)).length ≤ 1
  inside : ∀ bio ∈ log.bios, area.start ≤ bio.sector ∧ bio.sector + bio.sectors ≤ area.stop

end Log

end MdRaid.Ppl
