import MdRaid.Geometry.Bijection

/-!
# The striping personality

Strip zones of a RAID-0 array and the map from a logical sector to a device and a device
sector. Zone 0 runs over all devices; when the devices differ in size, further zones run
over those that reach beyond the zone before.

`sector_div` divides by an unsigned 32-bit number, so the size of a row of chunks is taken
modulo `2 ^ 32`; a division by zero is the result `none`.
-/

namespace MdRaid.Takeover

open MdRaid.Geometry List

/-- The error returns of the functions behind a level change. -/
inductive MdError : Type where
  | eio
  | einval
  | ebusy
  | erofs
  | eopnotsupp
deriving DecidableEq, Repr

/-- `struct md_rdev`. -/
structure Rdev where
  raidDisk : Int
  sectors : Nat
  logicalBlockSize : Nat
deriving DecidableEq, Repr

/-- `struct strip_zone`, with its row of `conf->devlist`. -/
structure StripZone where
  zoneEnd : Nat
  devStart : Nat
  nbDev : Nat
  devs : List Nat
deriving DecidableEq, Repr

/-- `RAID0_ORIG_LAYOUT` and `RAID0_ALT_MULTIZONE_LAYOUT`. -/
inductive Raid0Layout : Type where
  | orig
  | altMultizone
deriving DecidableEq, Repr

structure R0conf where
  stripZone : List StripZone
  layout : Raid0Layout
deriving DecidableEq, Repr

/-! ## `create_strip_zones` -/

/-- The device size rounded to whole chunks. -/
def Rdev.rounded (chunkSectors : Nat) (rdev : Rdev) : Nat :=
  rdev.sectors / chunkSectors * chunkSectors

/-- The rounded size of the device in a slot. -/
def slotSectors (rdevs : List Rdev) (chunkSectors slot : Nat) : Nat :=
  ((rdevs.find? fun rdev => rdev.raidDisk == (slot : Int)).map (·.rounded chunkSectors)).getD 0

/-- The least element of a list of sizes. -/
def smallest : List Nat → Nat
  | [] => 0
  | [n] => n
  | n :: m :: rest => min n (smallest (m :: rest))

/-- The zones behind the first one: each starts where the smallest device of the zone before
ends. -/
def otherZones (size : Nat → Nat) (raidDisks : Nat) : Nat → Nat → Nat → List StripZone
  | 0, _, _ => []
  | k + 1, devStart, currZoneEnd =>
    let devs := (range raidDisks).filter fun j => decide (devStart < size j)
    let next := smallest (devs.map size)
    let zoneEnd := currZoneEnd + (next - devStart) * devs.length
    ⟨zoneEnd, devStart, devs.length, devs⟩ :: otherZones size raidDisks k next zoneEnd

def raid0LayoutOf : Int → Option Raid0Layout
  | 1 => some .orig
  | 2 => some .altMultizone
  | _ => none

def createStripZones (rdevs : List Rdev) (raidDisks chunkSectors : Nat)
    (layout defaultLayout : Int) : Except MdError R0conf :=
  let sizes := rdevs.map (·.rounded chunkSectors)
  let blksize := rdevs.foldl (fun b rdev => max b rdev.logicalBlockSize) 512
  if (chunkSectors <<< 9) % blksize ≠ 0 then .error .einval
  else if rdevs.any fun rdev => decide (rdev.raidDisk < 0 ∨ rdev.raidDisk ≥ raidDisks) then
    .error .einval
  else if ¬ (rdevs.map (·.raidDisk)).Nodup then .error .einval
  else if rdevs.length ≠ raidDisks then .error .einval
  else
    let least := smallest sizes
    let zone : StripZone := ⟨least * raidDisks, 0, raidDisks, range raidDisks⟩
    let others := otherZones (slotSectors rdevs chunkSectors) raidDisks
      (sizes.dedup.length - 1) least (least * raidDisks)
    match others with
    | [] => .ok ⟨[zone], .orig⟩
    | zone1 :: _ =>
      if zone1.nbDev = 1 then .ok ⟨zone :: others, .orig⟩
      else match raid0LayoutOf layout, raid0LayoutOf defaultLayout with
        | some l, _ => .ok ⟨zone :: others, l⟩
        | none, some l => .ok ⟨zone :: others, l⟩
        | none, none => .error .eopnotsupp

/-! ## `raid0_map_submit_bio` -/

/-- `find_zone`: the zone of a sector, and the sector counted from its start. -/
def findZone : List StripZone → Nat → Nat → Option (StripZone × Nat)
  | [], _, _ => none
  | zone :: rest, zoneStart, sector =>
    if sector < zone.zoneEnd then some (zone, sector - zoneStart)
    else findZone rest zone.zoneEnd sector

/-- The divisor of `sector_div`. -/
def divisor32 (n : Nat) : Nat := n % 2 ^ 32

/-- `map_sector`: the slot of the device and the sector in the zone of that device. -/
def mapSector (chunkSects : Nat) (zone : StripZone) (sector sectorOffset : Nat) :
    Option (Nat × Nat) :=
  let rowSectors := if isPowerOf2 chunkSects then zone.nbDev <<< chunkSects.log2
    else chunkSects * zone.nbDev
  let sectInChunk := if isPowerOf2 chunkSects then sector &&& (chunkSects - 1)
    else sector % chunkSects
  let chunkNr := if isPowerOf2 chunkSects then sector >>> chunkSects.log2 else sector / chunkSects
  if divisor32 rowSectors = 0 then none
  else
    (zone.devs[chunkNr % zone.nbDev]?).map fun slot =>
      (slot, sectorT (sectorOffset / divisor32 rowSectors * chunkSects + sectInChunk))

/-- The device and the sector of the device a bio goes to. -/
def raid0Map (conf : R0conf) (chunkSects bioSector : Nat) : Option (Nat × Nat) :=
  (findZone conf.stripZone 0 bioSector).bind fun (zone, sector) =>
    (match conf.layout with
      | .orig => mapSector chunkSects zone bioSector sector
      | .altMultizone => mapSector chunkSects zone sector sector).map fun (slot, s) =>
        (slot, s + zone.devStart)

/-- The space of the devices in whole chunks. -/
def wholeChunks (rdevs : List Rdev) (chunkSectors : Nat) : Nat :=
  (rdevs.map (·.rounded chunkSectors)).sum

/-! ## Arrays with a single zone -/

/-- `map_sector` on whole rows: both flows divide by the size of a row and by the chunk. -/
theorem mapSector_eq (chunkSects : Nat) (zone : StripZone) (sector sectorOffset : Nat) :
    mapSector chunkSects zone sector sectorOffset =
      if divisor32 (zone.nbDev * chunkSects) = 0 then none
      else (zone.devs[sector / chunkSects % zone.nbDev]?).map fun slot =>
        (slot, sectorT (sectorOffset / divisor32 (zone.nbDev * chunkSects) * chunkSects +
          sector % chunkSects)) := by
  unfold mapSector
  by_cases h : isPowerOf2 chunkSects
  · have hpow := eq_two_pow_log2 h
    have hrow : zone.nbDev <<< chunkSects.log2 = zone.nbDev * chunkSects := by
      rw [Nat.shiftLeft_eq, ← hpow]
    have hmod : sector &&& (chunkSects - 1) = sector % chunkSects := by
      conv_lhs => rw [hpow]
      rw [Nat.and_two_pow_sub_one_eq_mod, ← hpow]
    have hdiv : sector >>> chunkSects.log2 = sector / chunkSects := by
      rw [Nat.shiftRight_eq_div_pow, ← hpow]
    simp only [h, if_true, hrow, hmod, hdiv]
  · simp only [h, mul_comm chunkSects]
    rfl

theorem smallest_mem : ∀ {l : List Nat}, l ≠ [] → smallest l ∈ l
  | [], h => absurd rfl h
  | [n], _ => mem_singleton_self n
  | n :: m :: rest, _ => by
    rw [smallest]
    rcases min_choice n (smallest (m :: rest)) with h | h
    · rw [h]
      exact mem_cons_self
    · rw [h]
      exact mem_cons_of_mem _ (smallest_mem (cons_ne_nil _ _))

theorem otherZones_length (size : Nat → Nat) (raidDisks : Nat) : ∀ (k devStart currZoneEnd : Nat),
      (otherZones size raidDisks k devStart currZoneEnd).length = k
  | 0, _, _ => rfl
  | k + 1, _, _ => congrArg (· + 1) (otherZones_length size raidDisks k _ _)

/-- What `create_strip_zones` has checked, and the zones it makes. -/
theorem createStripZones_zones {rdevs : List Rdev} {raidDisks chunkSectors : Nat}
    {layout defaultLayout : Int} {conf : R0conf}
    (h : createStripZones rdevs raidDisks chunkSectors layout defaultLayout = .ok conf) :
    (∀ rdev ∈ rdevs, 0 ≤ rdev.raidDisk ∧ rdev.raidDisk < raidDisks) ∧
      (rdevs.map (·.raidDisk)).Nodup ∧ rdevs.length = raidDisks ∧ conf.stripZone =
        ⟨smallest (rdevs.map (·.rounded chunkSectors)) * raidDisks, 0, raidDisks,
          range raidDisks⟩ :: otherZones (slotSectors rdevs chunkSectors) raidDisks
          ((rdevs.map (·.rounded chunkSectors)).dedup.length - 1)
          (smallest (rdevs.map (·.rounded chunkSectors)))
          (smallest (rdevs.map (·.rounded chunkSectors)) * raidDisks) ∧
      (conf.stripZone.length = 1 → conf.layout = .orig) := by
  unfold createStripZones at h
  dsimp only at h
  split_ifs at h with hblk hslot hdup hlen
  rw [not_not] at hlen
  rw [Bool.not_eq_true, any_eq_false] at hslot
  refine ⟨fun rdev hr => ?_, hdup, hlen, ?_⟩
  · have := hslot rdev hr
    rw [decide_eq_true_eq] at this
    omega
  · generalize otherZones (slotSectors rdevs chunkSectors) raidDisks
      ((rdevs.map (·.rounded chunkSectors)).dedup.length - 1)
      (smallest (rdevs.map (·.rounded chunkSectors)))
      (smallest (rdevs.map (·.rounded chunkSectors)) * raidDisks) = others at h ⊢
    cases others with
    | nil =>
      obtain rfl := Except.ok.inj h
      exact ⟨rfl, fun _ => rfl⟩
    | cons zone1 rest =>
      dsimp only at h
      split_ifs at h
      · obtain rfl := Except.ok.inj h
        exact ⟨rfl, by simp⟩
      · split at h
        · obtain rfl := Except.ok.inj h
          exact ⟨rfl, by simp⟩
        · obtain rfl := Except.ok.inj h
          exact ⟨rfl, by simp⟩
        · cases h

/-- What `create_strip_zones` returns: the zone over all devices, and one more for every
further device size. -/
theorem createStripZones_ok {rdevs : List Rdev} {raidDisks chunkSectors : Nat}
    {layout defaultLayout : Int} {conf : R0conf}
    (h : createStripZones rdevs raidDisks chunkSectors layout defaultLayout = .ok conf) :
    rdevs.length = raidDisks ∧
      ∃ others, others.length = (rdevs.map (·.rounded chunkSectors)).dedup.length - 1 ∧
        conf.stripZone = ⟨smallest (rdevs.map (·.rounded chunkSectors)) * raidDisks, 0, raidDisks,
          range raidDisks⟩ :: others ∧ (others = [] → conf.layout = .orig) := by
  obtain ⟨-, -, hlen, hzones, hlayout⟩ := createStripZones_zones h
  refine ⟨hlen, _, otherZones_length _ _ _ _ _, hzones, fun hnil => hlayout ?_⟩
  rw [hzones, hnil]
  rfl

/-- The structure of an array with one zone. -/
def singleZone (size raidDisks : Nat) : R0conf :=
  ⟨[⟨size * raidDisks, 0, raidDisks, range raidDisks⟩], .orig⟩

theorem eq_singleZone {conf : R0conf} {zone : StripZone} {others : List StripZone}
    (hzones : conf.stripZone = zone :: others) (hnil : others = [])
    (hlayout : others = [] → conf.layout = .orig) : conf = ⟨[zone], .orig⟩ := by
  obtain ⟨zones, layout⟩ := conf
  subst hnil
  obtain rfl : zones = [zone] := hzones
  obtain rfl : layout = .orig := hlayout rfl
  rfl

/-- All devices of an array with one zone have the same rounded size. -/
theorem rounded_eq_smallest {rdevs : List Rdev} {chunkSectors : Nat}
    (h : (rdevs.map (·.rounded chunkSectors)).dedup.length ≤ 1) {rdev : Rdev} (hr : rdev ∈ rdevs) :
    rdev.rounded chunkSectors = smallest (rdevs.map (·.rounded chunkSectors)) := by
  have hmem : rdev.rounded chunkSectors ∈ rdevs.map (·.rounded chunkSectors) :=
    mem_map_of_mem hr
  have hleast := smallest_mem (ne_nil_of_mem hmem)
  rw [← mem_dedup] at hmem hleast
  rcases hd : (rdevs.map (·.rounded chunkSectors)).dedup with - | ⟨n, - | ⟨m, rest⟩⟩
  · rw [hd] at hmem
    exact absurd hmem not_mem_nil
  · rw [hd, mem_singleton] at hmem hleast
    rw [hmem, hleast]
  · rw [hd] at h
    simp at h

/-- Where an array with one zone keeps a sector. -/
theorem raid0Map_single {raidDisks chunkSects size sector : Nat} (hdisks : 0 < raidDisks)
    (hsector : sector < size * raidDisks) : raid0Map (singleZone size raidDisks) chunkSects sector =
      if divisor32 (raidDisks * chunkSects) = 0 then none
      else some (sector / chunkSects % raidDisks,
        sectorT (sector / divisor32 (raidDisks * chunkSects) * chunkSects +
          sector % chunkSects)) := by
  have hslot : sector / chunkSects % raidDisks < raidDisks := Nat.mod_lt _ hdisks
  simp only [raid0Map, singleZone, findZone, hsector, if_true, Option.bind_some, mapSector_eq,
    Nat.sub_zero]
  split_ifs with hdiv
  · rfl
  · rw [getElem?_range hslot]
    rfl

end MdRaid.Takeover
