import MdRaid.Superblock.RoundTrip

/-!
# Data offsets

`super_1_load` checks the offsets and the size it finds on the page against the device, and
`new_offset_store` checks a new data offset that is asked for, both with unsigned 64-bit
arithmetic; the distance of a new offset is kept in 32 bits of the page. What the checks
leave to go wrong is what wraps around, and what they do not look at.
-/

namespace MdRaid.Superblock.Version1

open BitVec

/-! ## What a loaded superblock describes -/

variable {words : Superblock1 → List (BitVec 32)} {dev : Device} {rdev r : Rdev}
  {sb : Superblock1} {refsb : Option Superblock1} {better : Bool}

theorem of_refuse_bind {α : Type} {c : Prop} [Decidable c] {e : Errno}
    {f : Unit → Except Errno α} {a : α} (h : (refuse c e >>= f) = .ok a) : ¬ c ∧ f () = .ok a := by
  unfold refuse at h
  split_ifs at h with hc
  · cases h
  · exact ⟨hc, h⟩

/-- What `super_1_load` has checked of the offsets. -/
structure Checked (dev : Device) (sb : Superblock1) (sbStart : BitVec 64) : Prop where
  start : super1SbStart dev = some sbStart
  maxDev : sb.maxDev ≤ maxDevs
  data : dev.minorVersion ≠ 0 → dataStart dev sbStart sb.maxDev.toNat ≤ sb.dataOffset
  newData : dev.minorVersion ≠ 0 → dataStart dev sbStart sb.maxDev.toNat ≤ sb.newDataOffset
  room : sb.dataSize ≤ roomForData dev sbStart sb.dataOffset

theorem super1Load_ok (h : super1Load words dev rdev sb refsb = .ok (r, better)) :
    ∃ sbStart, Checked dev sb sbStart ∧ r = sb.rdev dev sbStart rdev := by
  unfold super1Load at h
  cases hs : super1SbStart dev with
  | none =>
    rw [hs] at h
    cases h
  | some sbStart =>
    rw [hs] at h
    obtain ⟨hid, h⟩ := of_refuse_bind h
    obtain ⟨-, h⟩ := of_refuse_bind h
    obtain ⟨-, h⟩ := of_refuse_bind h
    obtain ⟨-, h⟩ := of_refuse_bind h
    obtain ⟨hdata, h⟩ := of_refuse_bind h
    obtain ⟨hnew, h⟩ := of_refuse_bind h
    obtain ⟨-, h⟩ := of_refuse_bind h
    obtain ⟨-, h⟩ := of_refuse_bind h
    obtain ⟨-, h⟩ := of_refuse_bind h
    obtain ⟨-, h⟩ := of_refuse_bind h
    obtain ⟨hroom, h⟩ := of_refuse_bind h
    refine ⟨sbStart, ⟨hs, ?_, ?_, ?_, BitVec.not_lt.mp hroom⟩, ?_⟩
    · exact BitVec.not_lt.mp fun hgt => hid (.inr (.inr (.inl hgt)))
    · exact fun hminor => BitVec.not_lt.mp fun hlt => hdata ⟨hminor, hlt⟩
    · exact fun hminor => BitVec.not_lt.mp fun hlt => hnew ⟨hminor, hlt⟩
    · exact (congrArg Prod.fst (Except.ok.inj h)).symm

/-- The area of the member from an offset on is on the device and apart from its
superblock. -/
def Rdev.Exists (r : Rdev) (dev : Device) (offset : BitVec 64) : Prop :=
  offset.toNat + r.sectors.toNat ≤ dev.nrSectors.toNat ∧
    (offset.toNat + r.sectors.toNat ≤ r.sbStart.toNat ∨
      r.sbStart.toNat + r.sbSize / 512 ≤ offset.toNat)

instance (r : Rdev) (dev : Device) (offset : BitVec 64) : Decidable (r.Exists dev offset) :=
  inferInstanceAs (Decidable (_ ∧ _))

/-- The page records a reshape with a new offset. -/
def Superblock1.moves (sb : Superblock1) : Bool :=
  sb.featureMap .reshapeActive && sb.featureMap .newOffset

theorem sbSize_le (hblock : dev.logicalBlockSize ≤ 2 ^ 32) (hmax : sb.maxDev ≤ maxDevs) :
    sbSize dev sb.maxDev.toNat ≤ 2 ^ 32 := by
  have hdevs : sb.maxDev.toNat ≤ 1920 := le_def.mp hmax
  have hor : (sb.maxDev.toNat * 2 + 256) ||| (dev.logicalBlockSize - 1) < 2 ^ 32 :=
    Nat.or_lt_two_pow (by omega) (by omega)
  unfold sbSize
  dsimp only
  split <;> omega

/-- Behind the superblock of minor version 1 or 2 an offset can only be too high. -/
theorem exists_iff_of_minor (rdev : Rdev) {sbStart offset : BitVec 64}
    (hminor : dev.minorVersion ≠ 0)
    (hblock : dev.logicalBlockSize ≤ 2 ^ 32) (hc : Checked dev sb sbStart)
    (hoff : dataStart dev sbStart sb.maxDev.toNat ≤ offset) :
    (sb.rdev dev sbStart rdev).Exists dev offset ↔
      offset.toNat + sb.dataSize.toNat ≤ dev.nrSectors.toNat := by
  refine and_iff_left_of_imp fun _ => .inr ?_
  have hsize := sbSize_le hblock hc.maxDev
  have hlow : sbStart.toNat ≤ 8 := by
    have hs := hc.start
    unfold super1SbStart at hs
    split at hs <;> simp_all <;> simp [← hs]
  have hle := le_def.mp hoff
  unfold dataStart at hle
  rw [toNat_add, toNat_ofNat] at hle
  change sbStart.toNat + sbSize dev sb.maxDev.toNat / 512 ≤ offset.toNat
  omega

/-- Where the areas have to lie for `super_1_load` to be right about them. -/
def Superblock1.Fits (sb : Superblock1) (dev : Device) (r : Rdev) (offset : BitVec 64) : Prop :=
  if dev.minorVersion = 0 then
    offset.toNat + sb.dataSize.toNat ≤ r.sbStart.toNat ∨
      (r.sbStart.toNat + r.sbSize / 512 ≤ offset.toNat ∧
        offset.toNat + sb.dataSize.toNat ≤ dev.nrSectors.toNat)
  else offset.toNat + sb.dataSize.toNat ≤ dev.nrSectors.toNat

instance (sb : Superblock1) (dev : Device) (r : Rdev) (offset : BitVec 64) :
    Decidable (sb.Fits dev r offset) :=
  inferInstanceAs (Decidable (ite _ _ _))

/-- **What a loaded superblock describes exists exactly when nothing has wrapped around.** With
minor version 1 or 2 the data offset need only be on the device; the new offset, and both
with minor version 0, are not checked against its end. -/
theorem loaded_exists_iff (words : Superblock1 → List (BitVec 32)) (dev : Device) (rdev r : Rdev)
    (sb : Superblock1) (refsb : Option Superblock1) (better : Bool)
    (hblock : dev.logicalBlockSize ≤ 2 ^ 32) (hread : r.sbStart.toNat + 8 ≤ dev.nrSectors.toNat)
    (h : super1Load words dev rdev sb refsb = .ok (r, better)) :
    (r.Exists dev r.dataOffset ∧ (sb.moves = true → r.Exists dev r.newDataOffset)) ↔
      ((if dev.minorVersion = 0 then sb.Fits dev r r.dataOffset
        else r.dataOffset.toNat ≤ dev.nrSectors.toNat) ∧
        (sb.moves = true → sb.Fits dev r r.newDataOffset)) := by
  obtain ⟨sbStart, hc, rfl⟩ := super1Load_ok h
  unfold Superblock1.Fits
  by_cases hminor : dev.minorVersion = 0
  · have hfits : ∀ offset, (sb.rdev dev sbStart rdev).Exists dev offset ↔
        sb.Fits dev (sb.rdev dev sbStart rdev) offset := by
      intro offset
      unfold Rdev.Exists Superblock1.Fits
      rw [if_pos hminor]
      have hsame : (sb.rdev dev sbStart rdev).sectors = sb.dataSize := rfl
      rw [hsame]
      omega
    simp only [hfits, if_pos hminor, Superblock1.Fits]
  · have hdata := exists_iff_of_minor rdev hminor hblock hc (hc.data hminor)
    have hnew := exists_iff_of_minor rdev hminor hblock hc (hc.newData hminor)
    have hroom := le_def.mp hc.room
    rw [roomForData, if_pos hminor, toNat_sub] at hroom
    have hoffset : sb.dataOffset.toNat + sb.dataSize.toNat ≤ dev.nrSectors.toNat ↔
        sb.dataOffset.toNat ≤ dev.nrSectors.toNat := by omega
    rw [if_neg hminor, if_neg hminor]
    exact and_congr (hdata.trans hoffset) (imp_congr_right fun _ => hnew)

/-- The data of a member of `disk` at an offset, with a recorded move by `distance`. -/
def pageAt (dataOffset : BitVec 64) (distance : BitVec 32) : Superblock1 :=
  { emptySb with
    dataOffset := dataOffset, dataSize := 0x1000, superOffset := 8, newOffset := distance
    featureMap := fun f => decide (distance ≠ 0) && decide (f = .reshapeActive ∨ f = .newOffset) }

theorem loaded_exists_moved :
    ∃ r better, super1Load (fun _ => []) disk emptyRdev (pageAt 0x1000 16) none =
        .ok (r, better) ∧ r.Exists disk r.dataOffset ∧ r.Exists disk r.newDataOffset := by
  refine ⟨_, _, rfl, ?_⟩
  have h := (loaded_exists_iff (fun _ => []) disk emptyRdev _ (pageAt 0x1000 16) none _ (by decide)
    (by decide) rfl).mpr ⟨by decide, fun _ => by decide⟩
  exact ⟨h.1, h.2 rfl⟩

/-- A data offset behind the end of the device is accepted, since the room for data wraps
around; a new offset is not checked against the end at all. -/
theorem loaded_outside_device :
    (∃ r better, super1Load (fun _ => []) disk emptyRdev (pageAt 0x300000 0) none =
      .ok (r, better) ∧ ¬ r.Exists disk r.dataOffset) ∧
    ∃ r better, super1Load (fun _ => []) disk emptyRdev (pageAt 0x1000 0x7fffffff) none =
      .ok (r, better) ∧ ¬ r.Exists disk r.newDataOffset :=
  ⟨⟨_, _, rfl, by decide⟩, _, _, rfl, by decide⟩

/-! ## A new data offset -/

inductive OffsetError where
  | ebusy
  | einval
  | e2big
deriving DecidableEq, Repr

/-- What `new_offset_store` looks at besides the array and the member: whether recovery runs,
the metadata in use, the pages of the bitmap if they are known, and the bad block log. -/
structure Metadata where
  running : Bool
  persistent : Bool
  majorVersion : Nat
  minorVersion : Nat
  bitmapPages : Option (BitVec 64)
  badblocksEnd : BitVec 64

def super90AllowNewOffset (newOffset : BitVec 64) : Bool := newOffset = 0

def super1AllowNewOffset (md : Metadata) (mddev : Mddev) (rdev : Rdev) (newOffset : BitVec 64) :
    Bool :=
  if rdev.dataOffset ≤ newOffset then true
  else if md.minorVersion = 0 then true
  else if newOffset < rdev.sbStart + (32 + 4) * 2 then false
  else if !mddev.bitmapFile && md.bitmapPages.any fun pages =>
    newOffset < rdev.sbStart + mddev.bitmapOffset + pages * 8 then false
  else !decide (newOffset < md.badblocksEnd)

def newOffsetStore (md : Metadata) (mddev : Mddev) (rdev : Rdev) (newOffset : BitVec 64) :
    Except OffsetError (Mddev × Rdev) :=
  if md.running then .error .ebusy
  else if rdev.dataOffset < newOffset ∧
    rdev.sectors < newOffset - rdev.dataOffset + mddev.devSectors then .error .e2big
  else if newOffset < rdev.dataOffset ∧ mddev.reshapeBackwards then .error .einval
  else if rdev.dataOffset < newOffset ∧ !mddev.reshapeBackwards then .error .einval
  else if mddev.pers ∧ md.persistent ∧ !(if md.majorVersion = 0 then
      super90AllowNewOffset newOffset else super1AllowNewOffset md mddev rdev newOffset) then
    .error .e2big
  else .ok ({ mddev with reshapeBackwards := if rdev.dataOffset < newOffset then true
      else if newOffset < rdev.dataOffset then false else mddev.reshapeBackwards },
    { rdev with newDataOffset := newOffset })

/-- What an accepted offset has passed. -/
theorem newOffsetStore_ok {md : Metadata} {mddev mddev' : Mddev} {rdev rdev' : Rdev}
    {newOffset : BitVec 64} (h : newOffsetStore md mddev rdev newOffset = .ok (mddev', rdev')) :
    (rdev.dataOffset < newOffset → newOffset - rdev.dataOffset + mddev.devSectors ≤ rdev.sectors) ∧
      rdev' = { rdev with newDataOffset := newOffset } := by
  unfold newOffsetStore at h
  split_ifs at h with _ hbig
  all_goals
    refine ⟨fun hlt => BitVec.not_lt.mp fun hover => hbig ⟨hlt, hover⟩, ?_⟩
    exact (congrArg Prod.snd (Except.ok.inj h)).symm

/-- The distance survives in 32 bits only if it is a 32-bit number. -/
theorem signExtend_truncate_eq_iff {x : BitVec 64} :
    (x.truncate 32).signExtend 64 = x ↔ -2 ^ 31 ≤ x.toInt ∧ x.toInt < 2 ^ 31 := by
  refine ⟨fun h => ?_, fun h => signExtend_truncate h.1 h.2⟩
  rw [← h, toInt_signExtend_of_le (by decide)]
  exact ⟨le_toInt _, toInt_lt⟩

/-- The new offset on the page of a member in a reshape. -/
theorem sync_newDataOffset {mddev : Mddev} {others : List Rdev} (hr : mddev.Reshapes) :
    (super1Sync words dev mddev others rdev sb).2.newDataOffset = rdev.newDataOffset ↔
      -2 ^ 31 ≤ (rdev.newDataOffset - rdev.dataOffset).toInt ∧
        (rdev.newDataOffset - rdev.dataOffset).toInt < 2 ^ 31 := by
  have hactive : decide (mddev.reshapePosition ≠ maxSector) := decide_eq_true hr
  have hdata : (super1Sync words dev mddev others rdev sb).2.dataOffset = rdev.dataOffset := rfl
  rw [← signExtend_truncate_eq_iff, Superblock1.newDataOffset, sync_featureMap, hdata]
  simp only [features, hactive, Bool.true_and]
  by_cases hn : rdev.newDataOffset = rdev.dataOffset
  · simp [hn]
  · have hnew : (super1Sync words dev mddev others rdev sb).2.newOffset =
        (rdev.newDataOffset - rdev.dataOffset).truncate 32 :=
      if_pos (Bool.and_eq_true_iff.mpr ⟨hactive, decide_eq_true hn⟩)
    rw [if_pos (decide_eq_true hn), hnew, add_comm, ← eq_sub_iff_add_eq]

/-- **An accepted offset is usable and recordable exactly when it fits in the fields.** The sum
that is compared must not wrap around, an offset that is not above the old one is not compared
at all, and the distance has to be a signed 32-bit number. -/
theorem new_offset_usable_iff (words : Superblock1 → List (BitVec 32)) (dev : Device)
    (md : Metadata) (mddev mddev' array : Mddev) (others : List Rdev) (rdev rdev' : Rdev)
    (sb : Superblock1) (newOffset : BitVec 64) (hr : array.Reshapes)
    (h : newOffsetStore md mddev rdev newOffset = .ok (mddev', rdev')) :
    (newOffset.toNat + mddev.devSectors.toNat ≤ rdev.dataOffset.toNat + rdev.sectors.toNat ∧
      (super1Sync words dev array others rdev' sb).2.newDataOffset = newOffset) ↔
    ((if rdev.dataOffset < newOffset then
        newOffset.toNat - rdev.dataOffset.toNat + mddev.devSectors.toNat < 2 ^ 64
      else newOffset.toNat + mddev.devSectors.toNat ≤ rdev.dataOffset.toNat + rdev.sectors.toNat) ∧
      -2 ^ 31 ≤ (newOffset - rdev.dataOffset).toInt ∧
        (newOffset - rdev.dataOffset).toInt < 2 ^ 31) := by
  obtain ⟨hfits, rfl⟩ := newOffsetStore_ok h
  refine and_congr ?_
    (@sync_newDataOffset words dev { rdev with newDataOffset := newOffset } sb array others hr)
  split_ifs with hlt
  · have hle := le_def.mp (hfits hlt)
    have hlt' := lt_def.mp hlt
    rw [BitVec.toNat_add, BitVec.toNat_sub_of_le (BitVec.le_of_lt hlt)] at hle
    omega
  · exact Iff.rfl

/-- Metadata of minor version 2 without a bitmap. -/
def metadata : Metadata := ⟨false, true, 1, 2, none, 0⟩

/-- An array that is to be reshaped backwards, and a member with room to spare. -/
def backwards : Mddev := { growingMddev with devSectors := 0x1000, reshapeBackwards := true }

theorem new_offset_usable_near :
    ∃ mddev' rdev', newOffsetStore metadata backwards (memberAt 0) 4096 = .ok (mddev', rdev') ∧
      (super1Sync (fun _ => []) disk backwards [] rdev' emptySb).2.newDataOffset = 4096 :=
  ⟨_, _, rfl, ((new_offset_usable_iff (fun _ => []) disk metadata backwards _ backwards []
    (memberAt 0) _ emptySb 4096 (by decide) rfl).mpr (by decide)).2⟩

/-- A move by `2 ^ 31` sectors on a large enough member is accepted and read back with the
wrong sign. An offset so high that the sum wraps around is accepted on any member. -/
theorem new_offset_not_kept :
    (∃ mddev' rdev', newOffsetStore metadata backwards { memberAt 0 with sectors := 0x100000000 }
        0x80000800 = .ok (mddev', rdev') ∧
      (super1Sync (fun _ => []) disk backwards [] rdev' emptySb).2.newDataOffset ≠ 0x80000800) ∧
    ∃ mddev' rdev', newOffsetStore metadata backwards (memberAt 0) (-2) = .ok (mddev', rdev') ∧
      ¬ (rdev'.newDataOffset.toNat + backwards.devSectors.toNat ≤
        rdev'.dataOffset.toNat + rdev'.sectors.toNat) :=
  ⟨⟨_, _, rfl, by decide⟩, _, _, rfl, by decide⟩

end MdRaid.Superblock.Version1
