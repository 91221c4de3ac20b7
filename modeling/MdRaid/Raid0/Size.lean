import MdRaid.Raid0.Bijection

/-!
# The size a striped array announces

The zones cover the devices up to whole chunks. `raid0_size` adds the device sizes up
again, with a mask that is meant to round to chunks. It does so only for chunk sizes that
are powers of two; for others the mask drops bits of sizes that are whole chunks already.
-/

namespace MdRaid.Takeover

open MdRaid.Geometry List BitVec

/-- `rdev->sectors & ~(sector_t)(chunk_sectors - 1)`. -/
def maskChunk (chunkSectors sectors : Nat) : Nat :=
  (BitVec.ofNat 64 sectors &&& ~~~BitVec.ofNat 64 (chunkSectors - 1)).toNat

/-- `raid0_size`, with the device sizes that `create_strip_zones` leaves. -/
def raid0Size (rdevs : List Rdev) (chunkSectors : Nat) : Nat :=
  sectorT (rdevs.map fun rdev => maskChunk chunkSectors (rdev.rounded chunkSectors)).sum

/-! ## The zones -/

/-- What a zone takes from the devices, and what it leaves to the next ones. -/
theorem sum_sub_eq {size : Nat → Nat} {devStart next : Nat} (hle : devStart ≤ next) :
    ∀ {l : List Nat}, (∀ j ∈ l, devStart < size j → next ≤ size j) →
      (l.map fun j => size j - devStart).sum =
        (next - devStart) * (l.filter fun j => decide (devStart < size j)).length +
          (l.map fun j => size j - next).sum
  | [], _ => rfl
  | j :: l, h => by
    have ih := sum_sub_eq hle fun i hi => h i (mem_cons_of_mem _ hi)
    have hj := h j mem_cons_self
    rw [map_cons, sum_cons, map_cons, sum_cons, ih]
    by_cases hlt : devStart < size j
    · rw [filter_cons, if_pos (decide_eq_true hlt), length_cons, Nat.mul_succ]
      have := hj hlt
      omega
    · rw [filter_cons, if_neg (by simpa using hlt)]
      omega

/-- The zones end where the devices do. -/
theorem lastEnd_otherZones {size : Nat → Nat} {n : Nat} : ∀ {k devStart : Nat} (zoneStart : Nat),
    (sizesAbove size n devStart).card = k →
      lastEnd (otherZones size n k devStart zoneStart) zoneStart =
        zoneStart + ((range n).map fun j => size j - devStart).sum
  | 0, devStart, zoneStart, hcard => by
    have hnone : ∀ j ∈ range n, size j - devStart = 0 := by
      intro j hj
      by_contra hne
      have hmem : size j ∈ sizesAbove size n devStart :=
        mem_sizesAbove.mpr ⟨⟨j, mem_range.mp hj, rfl⟩, by omega⟩
      rw [Finset.card_eq_zero.mp hcard] at hmem
      exact absurd hmem (Finset.notMem_empty _)
    rw [List.map_congr_left hnone, List.map_const', List.sum_replicate_nat, Nat.mul_zero]
    rfl
  | k + 1, devStart, zoneStart, hcard => by
    obtain ⟨-, hnext, hle, hrest⟩ := exists_zone hcard
    have hlt := (mem_sizesAbove.mp hnext).2
    have hsum := sum_sub_eq hlt.le fun j hj hj' =>
      hle j (mem_filter.mpr ⟨hj, decide_eq_true hj'⟩)
    rw [otherZones, lastEnd, lastEnd_otherZones _ hrest, hsum, add_assoc]

section

variable {rdevs : List Rdev} {raidDisks chunkSectors : Nat}

/-- Adding up over the slots is adding up over the devices. -/
theorem sum_slotSectors (hslot : ∀ rdev ∈ rdevs, 0 ≤ rdev.raidDisk ∧ rdev.raidDisk < raidDisks)
    (hnodup : (rdevs.map (·.raidDisk)).Nodup) (hlen : rdevs.length = raidDisks) :
    ((range raidDisks).map (slotSectors rdevs chunkSectors)).sum =
      wholeChunks rdevs chunkSectors := by
  have hsub : (rdevs.map (·.raidDisk.toNat)).Subperm (range raidDisks) := by
    refine subperm_of_subset (List.Nodup.of_map (fun i : Nat => (i : Int)) ?_) ?_
    · have hslots : rdevs.map ((fun i : Nat => (i : Int)) ∘ fun rdev => rdev.raidDisk.toNat) =
          rdevs.map (·.raidDisk) :=
        map_congr_left fun rdev hr => Int.toNat_of_nonneg (hslot rdev hr).1
      rwa [map_map, hslots]
    · intro j hj
      obtain ⟨rdev, hr, rfl⟩ := mem_map.mp hj
      obtain ⟨hge, hlt⟩ := hslot rdev hr
      exact mem_range.mpr (by omega)
  have hperm := hsub.perm_of_length_le (by rw [length_range, length_map, hlen])
  rw [← (hperm.map _).sum_eq, map_map, wholeChunks]
  refine congrArg sum (map_congr_left fun rdev hr => ?_)
  exact slotSectors_eq hnodup hr (Int.toNat_of_nonneg (hslot rdev hr).1).symm

/-- The last zone ends after all whole chunks of the devices. -/
theorem lastEnd_eq_wholeChunks {layout defaultLayout : Int} {conf : R0conf}
    (h : createStripZones rdevs raidDisks chunkSectors layout defaultLayout = .ok conf) :
    lastEnd conf.stripZone 0 = wholeChunks rdevs chunkSectors := by
  obtain ⟨hslot, hnodup, hlen, hzones, -⟩ := createStripZones_zones h
  have hcard := card_sizesAbove chunkSectors hslot hnodup hlen
  rw [hzones, lastEnd, lastEnd_otherZones _ hcard, ← sum_slotSectors hslot hnodup hlen]
  generalize hleast : smallest (rdevs.map (·.rounded chunkSectors)) = least
  have hle : ∀ j ∈ range raidDisks, slotSectors rdevs chunkSectors j =
      least + (slotSectors rdevs chunkSectors j - least) := by
    intro j hj
    have := smallest_le ((mem_sizes chunkSectors hslot hnodup hlen).mpr
      ⟨j, mem_range.mp hj, rfl⟩)
    omega
  rw [map_congr_left hle, sum_map_add, map_const', sum_replicate_nat,
    length_range, mul_comm]

end

/-! ## The mask -/

/-- The mask keeps what is not in the low bits. -/
theorem maskChunk_add {chunkSectors sectors : Nat} (hsectors : sectors < 2 ^ 64)
    (hchunk : chunkSectors < 2 ^ 64) :
    maskChunk chunkSectors sectors + (sectors &&& (chunkSectors - 1)) = sectors := by
  generalize hx : BitVec.ofNat 64 sectors = x
  generalize hm : BitVec.ofNat 64 (chunkSectors - 1) = m
  have hdisj : (x &&& ~~~m) &&& (x &&& m) = 0 := by
    ext i hi
    simp only [getElem_and, getElem_not]
    cases x[i] <;> cases m[i] <;> simp
  have hjoin : (x &&& ~~~m) ||| (x &&& m) = x := by
    ext i hi
    simp only [getElem_or, getElem_and, getElem_not]
    cases x[i] <;> cases m[i] <;> rfl
  have hsum := BitVec.add_eq_or_of_and_eq_zero _ _ hdisj
  rw [hjoin] at hsum
  have hnat := congrArg BitVec.toNat hsum
  rw [toNat_add_of_and_eq_zero hdisj, toNat_and x m, ← hx, ← hm,
    toNat_ofNat, toNat_ofNat, Nat.mod_eq_of_lt hsectors,
    Nat.mod_eq_of_lt (by omega)] at hnat
  exact hnat

/-- **The announced size is the mapped one exactly when the mask drops nothing**, that is,
when no device has a size in whole chunks with a bit in common with `chunk_sectors - 1`. -/
theorem raid0Size_eq_lastEnd_iff (rdevs : List Rdev) (raidDisks chunkSectors : Nat)
    (layout defaultLayout : Int) (conf : R0conf) (hchunk : chunkSectors < 2 ^ 31)
    (hdisks : raidDisks < 2 ^ 31) (hsectors : ∀ rdev ∈ rdevs, rdev.sectors < 2 ^ 64)
    (h : createStripZones rdevs raidDisks chunkSectors layout defaultLayout = .ok conf) :
    raid0Size rdevs chunkSectors = sectorT (lastEnd conf.stripZone 0) ↔
      ∀ rdev ∈ rdevs, rdev.rounded chunkSectors &&& (chunkSectors - 1) = 0 := by
  obtain ⟨-, -, hlen, -⟩ := createStripZones_zones h
  rw [lastEnd_eq_wholeChunks h]
  set lost := fun rdev : Rdev => rdev.rounded chunkSectors &&& (chunkSectors - 1) with hlost
  have hsum : (rdevs.map fun rdev => maskChunk chunkSectors (rdev.rounded chunkSectors)).sum +
      (rdevs.map lost).sum = wholeChunks rdevs chunkSectors := by
    rw [← sum_map_add, wholeChunks]
    refine congrArg sum (map_congr_left fun rdev hr => maskChunk_add ?_ (by omega))
    exact lt_of_le_of_lt (Nat.div_mul_le_self _ _) (hsectors rdev hr)
  have hbound : (rdevs.map lost).sum ≤ rdevs.length * 2 ^ 31 := by
    refine (sum_le_card_nsmul _ (2 ^ 31) ?_).trans_eq (by rw [length_map]; rfl)
    intro x hx
    obtain ⟨rdev, -, rfl⟩ := mem_map.mp hx
    exact Nat.and_le_right.trans (by omega)
  have hzero : raid0Size rdevs chunkSectors = sectorT (wholeChunks rdevs chunkSectors) ↔
      (rdevs.map lost).sum = 0 := by
    unfold raid0Size sectorT
    omega
  rw [hzero, sum_eq_zero_iff]
  simp [lost]

/-- Chunks of a power of two: three devices that make two zones. -/
theorem raid0Size_eq_lastEnd_unequal :
    ∃ conf, createStripZones [⟨0, 30, 512⟩, ⟨1, 8, 512⟩, ⟨2, 36, 512⟩] 3 8 2 0 = .ok conf ∧
      raid0Size [⟨0, 30, 512⟩, ⟨1, 8, 512⟩, ⟨2, 36, 512⟩] 8 = sectorT (lastEnd conf.stripZone 0) :=
  ⟨_, rfl, (raid0Size_eq_lastEnd_iff [⟨0, 30, 512⟩, ⟨1, 8, 512⟩, ⟨2, 36, 512⟩] 3 8 2 0 _
    (by decide) (by decide) (by decide) rfl).mpr (by decide)⟩

/-- Chunks of 24 sectors: of two devices of 48 sectors the array announces 64 sectors and
maps 96. -/
theorem raid0Size_ne_lastEnd :
    ∃ conf, createStripZones [⟨0, 48, 512⟩, ⟨1, 48, 512⟩] 2 24 2 0 = .ok conf ∧
      lastEnd conf.stripZone 0 = 96 ∧ raid0Size [⟨0, 48, 512⟩, ⟨1, 48, 512⟩] 24 = 64 :=
  ⟨_, rfl, rfl, by decide⟩

end MdRaid.Takeover
