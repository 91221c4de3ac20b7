import MdRaid.Takeover.Raid0
import MdRaid.Lib.Striping

/-!
# The map of the striping personality

Every logical sector of the array is at one place of one device, and every sector of a
device, up to whole chunks, is a place. Each zone is striped over its devices from the
start of the zone to the end of the smallest of them; the layouts differ in the device a
zone starts with. There are as many zones as different device sizes.
-/

namespace MdRaid.Takeover

open MdRaid.Geometry Striping Finset List Option Set Nat

variable {layout : Raid0Layout} {c : Nat}

/-! ## One zone -/

def zoneMap (layout : Raid0Layout) (c : Nat) (zone : StripZone) (zoneStart sector : Nat) :
    Option (Nat × Nat) :=
  (match layout with
    | .orig => mapSector c zone sector (sector - zoneStart)
    | .altMultizone => mapSector c zone (sector - zoneStart) (sector - zoneStart)).map
      fun (slot, s) => (slot, s + zone.devStart)

/-- The map of the zones from one on. -/
def mapFrom (layout : Raid0Layout) (c : Nat) : List StripZone → Nat → Nat → Option (Nat × Nat)
  | [], _, _ => none
  | zone :: rest, zoneStart, sector =>
    if sector < zone.zoneEnd then zoneMap layout c zone zoneStart sector
    else mapFrom layout c rest zone.zoneEnd sector

theorem raid0Map_eq (conf : R0conf) (c sector : Nat) :
    raid0Map conf c sector = mapFrom conf.layout c conf.stripZone 0 sector := by
  rw [raid0Map]
  generalize conf.stripZone = zones
  generalize 0 = zoneStart
  induction zones generalizing zoneStart with
  | nil => rfl
  | cons zone rest ih =>
    rw [findZone, mapFrom]
    split_ifs
    · rfl
    · exact ih zone.zoneEnd

/-- The first device of a zone, as the layouts count. -/
def firstDev (layout : Raid0Layout) (c zoneStart : Nat) : Nat :=
  match layout with
  | .orig => zoneStart / c
  | .altMultizone => 0

/-- A zone is striped over its devices. -/
theorem zoneMap_eq {zone : StripZone} {zoneStart o : Nat} (hc : 0 < c) (hdev : 0 < zone.nbDev)
    (hrow : zone.nbDev * c < 2 ^ 32) (hstart : c ∣ zoneStart)
    (hfit : (stripe (firstDev layout c zoneStart) zone.nbDev c o).2 < 2 ^ 64) :
    zoneMap layout c zone zoneStart (zoneStart + o) =
      (zone.devs[(stripe (firstDev layout c zoneStart) zone.nbDev c o).1]?).map fun slot =>
        (slot, (stripe (firstDev layout c zoneStart) zone.nbDev c o).2 + zone.devStart) := by
  obtain ⟨k, rfl⟩ := hstart
  have hdiv : divisor32 (zone.nbDev * c) = zone.nbDev * c := Nat.mod_eq_of_lt hrow
  have hpos : zone.nbDev * c ≠ 0 := (Nat.mul_pos hdev hc).ne'
  have hfit' : sectorT (o / (zone.nbDev * c) * c + o % c) = o / (zone.nbDev * c) * c + o % c :=
    Nat.mod_eq_of_lt hfit
  unfold zoneMap
  rw [Nat.add_sub_cancel_left]
  cases layout with
  | orig =>
    simp only [mapSector_eq, hdiv, if_neg hpos, Nat.mul_add_div hc, Nat.mul_add_mod, hfit',
      Option.map_map]
    simp only [stripe, firstDev, Nat.mul_div_cancel_left k hc]
    rfl
  | altMultizone =>
    simp only [mapSector_eq, hdiv, if_neg hpos, hfit', Option.map_map]
    simp only [stripe, firstDev, zero_add]
    rfl

/-- The places of the devices for which `P` holds. -/
def places (P : Nat → Nat → Prop) : Set (Option (Nat × Nat)) :=
  {x | ∃ slot off, P slot off ∧ x = some (slot, off)}

variable (layout) in
/-- **A zone is one to one.** -/
theorem zoneMap_bijOn (zone : StripZone) (zoneStart rows : Nat) (hc : 0 < c) (hdev : 0 < zone.nbDev)
    (hdevs : zone.devs.length = zone.nbDev) (hnodup : zone.devs.Nodup)
    (hrow : zone.nbDev * c < 2 ^ 32)
    (hstart : c ∣ zoneStart) (hfit : rows * c < 2 ^ 64) :
    Set.BijOn (zoneMap layout c zone zoneStart)
      (Set.Ico zoneStart (zoneStart + rows * zone.nbDev * c))
      (places fun slot off => slot ∈ zone.devs ∧ zone.devStart ≤ off ∧ off < zone.devStart +
        rows * c) := by
  have hbij := stripe_bijOn (firstDev layout c zoneStart) rows hdev hc
  have hmap : ∀ o < rows * zone.nbDev * c,
      ∃ hlt : (stripe (firstDev layout c zoneStart) zone.nbDev c o).1 < zone.devs.length,
        zoneMap layout c zone zoneStart (zoneStart + o) =
          some (zone.devs.get ⟨_, hlt⟩,
            (stripe (firstDev layout c zoneStart) zone.nbDev c o).2 + zone.devStart) ∧
        (stripe (firstDev layout c zoneStart) zone.nbDev c o).2 < rows * c := by
    intro o ho
    obtain ⟨hcol, hplace⟩ := hbij.mapsTo ho
    refine ⟨hdevs ▸ hcol, ?_, hplace⟩
    rw [zoneMap_eq hc hdev hrow hstart (lt_trans hplace hfit)]
    rw [getElem?_eq_getElem (hdevs ▸ hcol), map_some]
    rfl
  refine ⟨?_, ?_, ?_⟩
  · rintro sector ⟨hge, hlt⟩
    obtain ⟨o, rfl⟩ := Nat.exists_eq_add_of_le hge
    obtain ⟨hcol, heq, hplace⟩ := hmap o (Nat.lt_of_add_lt_add_left hlt)
    exact ⟨_, _, ⟨get_mem _ _, Nat.le_add_left _ _, by omega⟩, heq⟩
  · rintro s ⟨hge, hlt⟩ s' ⟨hge', hlt'⟩ heq
    obtain ⟨o, rfl⟩ := Nat.exists_eq_add_of_le hge
    obtain ⟨o', rfl⟩ := Nat.exists_eq_add_of_le hge'
    obtain ⟨hcol, hs, -⟩ := hmap o (Nat.lt_of_add_lt_add_left hlt)
    obtain ⟨hcol', hs', -⟩ := hmap o' (Nat.lt_of_add_lt_add_left hlt')
    obtain ⟨hslot, hoff⟩ := Prod.mk.inj (some.inj (hs.symm.trans (heq.trans hs')))
    have hidx := Fin.mk.inj (hnodup.injective_get hslot)
    have hsame := stripe_injective hc (Prod.ext hidx (Nat.add_right_cancel hoff))
    rw [hsame]
  · rintro x ⟨slot, off, ⟨hslot, hge, hlt⟩, rfl⟩
    obtain ⟨⟨i, hi⟩, hget⟩ := mem_iff_get.mp hslot
    have hplace : off - zone.devStart < rows * c := by omega
    obtain ⟨o, ho, hstripe⟩ := hbij.surjOn (mk_mem_prod (mem_Iio.mpr (hdevs ▸ hi)) hplace)
    obtain ⟨hcol, hs, -⟩ := hmap o ho
    refine ⟨zoneStart + o, ⟨Nat.le_add_right _ _, Nat.add_lt_add_left ho _⟩, ?_⟩
    rw [hs]
    simp only [hstripe, hget, Nat.sub_add_cancel hge]

/-! ## The zones -/

theorem smallest_le : ∀ {l : List Nat} {x : Nat}, x ∈ l → smallest l ≤ x
  | [n], x, hx => (List.mem_singleton.mp hx).ge
  | n :: m :: rest, x, hx => by
    rw [smallest]
    rcases mem_cons.mp hx with rfl | hx
    · exact min_le_left _ _
    · exact (min_le_right _ _).trans (smallest_le hx)

/-- Where the last zone ends. -/
def lastEnd : List StripZone → Nat → Nat
  | [], zoneStart => zoneStart
  | zone :: rest, _ => lastEnd rest zone.zoneEnd

section Zones

variable {size : Nat → Nat} {n : Nat}

theorem le_lastEnd (size : Nat → Nat) (n : Nat) : ∀ k devStart zoneStart,
    zoneStart ≤ lastEnd (otherZones size n k devStart zoneStart) zoneStart
  | 0, _, _ => le_rfl
  | k + 1, _, _ => (le_add_right _ _).trans (le_lastEnd size n k _ _)

/-- The device sizes beyond a sector. -/
def sizesAbove (size : Nat → Nat) (n devStart : Nat) : Finset Nat :=
  ((Finset.range n).image size).filter (devStart < ·)

theorem mem_sizesAbove {devStart x : Nat} :
    x ∈ sizesAbove size n devStart ↔ (∃ j < n, size j = x) ∧ devStart < x := by
  simp [sizesAbove]

/-- Above the least of them there is one less. -/
theorem card_sizesAbove_least {devStart least : Nat} (hmem : least ∈ sizesAbove size n devStart)
    (hle : ∀ x ∈ sizesAbove size n devStart, least ≤ x) :
    (sizesAbove size n least).card + 1 = (sizesAbove size n devStart).card := by
  have herase : sizesAbove size n least = (sizesAbove size n devStart).erase least := by
    ext x
    rw [mem_erase]
    constructor
    · intro hx
      obtain ⟨hsize, hlt⟩ := mem_sizesAbove.mp hx
      exact ⟨hlt.ne', mem_sizesAbove.mpr ⟨hsize, (mem_sizesAbove.mp hmem).2.trans hlt⟩⟩
    · rintro ⟨hne, hx⟩
      exact mem_sizesAbove.mpr ⟨(mem_sizesAbove.mp hx).1, lt_of_le_of_ne (hle x hx) hne.symm⟩
  rw [herase, card_erase_add_one hmem]

/-- A zone, and those after it. -/
theorem mapFrom_cons_bijOn {zone : StripZone} {rest : List StripZone} {zoneStart : Nat}
    {P Q R : Nat → Nat → Prop}
    (hfirst : Set.BijOn (zoneMap layout c zone zoneStart)
    (Set.Ico zoneStart zone.zoneEnd) (places P))
    (hothers : Set.BijOn (mapFrom layout c rest zone.zoneEnd)
      (Set.Ico zone.zoneEnd (lastEnd rest zone.zoneEnd)) (places Q))
    (hle : zoneStart ≤ zone.zoneEnd) (hend : zone.zoneEnd ≤ lastEnd rest zone.zoneEnd)
    (hdisj : ∀ slot off, P slot off → ¬ Q slot off)
    (hR : ∀ slot off, R slot off ↔ P slot off ∨ Q slot off) :
    Set.BijOn (mapFrom layout c (zone :: rest) zoneStart)
      (Set.Ico zoneStart (lastEnd (zone :: rest) zoneStart)) (places R) := by
  have hunion := bijOn_union
    (hfirst.congr fun s hs => show _ = mapFrom layout c (zone :: rest) zoneStart s by
      rw [mapFrom, if_pos hs.2])
    (hothers.congr fun s hs => by rw [mapFrom, if_neg (not_lt.mpr hs.1)])
    (by
      refine disjoint_left.mpr ?_
      rintro x ⟨slot, off, hp, rfl⟩ ⟨slot', off', hq, heq⟩
      obtain ⟨rfl, rfl⟩ := Prod.mk.inj (some.inj heq)
      exact hdisj slot off hp hq)
  have hplaces : places R = places P ∪ places Q := by
    refine ext fun x => ⟨?_, ?_⟩
    · rintro ⟨slot, off, hr, rfl⟩
      exact ((hR slot off).mp hr).imp (fun hp => ⟨slot, off, hp, rfl⟩) fun hq =>
        ⟨slot, off, hq, rfl⟩
    · rintro (⟨slot, off, hp, rfl⟩ | ⟨slot, off, hq, rfl⟩)
      · exact ⟨slot, off, (hR slot off).mpr (.inl hp), rfl⟩
      · exact ⟨slot, off, (hR slot off).mpr (.inr hq), rfl⟩
  rw [Set.Ico_union_Ico_eq_Ico hle hend, ← hplaces] at hunion
  exact hunion

/-- The devices of a zone, and how far it goes on them. -/
theorem exists_zone {k devStart : Nat} (hcard : (sizesAbove size n devStart).card = k + 1) :
    let devs := (List.range n).filter fun j => decide (devStart < size j)
    let next := smallest (devs.map size)
    0 < devs.length ∧ next ∈ sizesAbove size n devStart ∧ (∀ j ∈ devs, next ≤ size j) ∧
      (sizesAbove size n next).card = k := by
  intro devs next
  have hmem : ∀ {x}, x ∈ devs.map size ↔ x ∈ sizesAbove size n devStart := by
    intro x
    rw [mem_sizesAbove]
    simp only [devs, List.mem_map, List.mem_filter, List.mem_range, decide_eq_true_eq]
    constructor
    · rintro ⟨j, ⟨hj, hlt⟩, rfl⟩
      exact ⟨⟨j, hj, rfl⟩, hlt⟩
    · rintro ⟨⟨j, hj, rfl⟩, hlt⟩
      exact ⟨j, ⟨hj, hlt⟩, rfl⟩
  obtain ⟨x, hx⟩ := card_pos.mp (by rw [hcard]; exact succ_pos k)
  have hne : devs.map size ≠ [] := ne_nil_of_mem (hmem.mpr hx)
  have hnext : next ∈ sizesAbove size n devStart := hmem.mp (smallest_mem hne)
  refine ⟨?_, hnext, fun j hj => smallest_le (mem_map_of_mem hj), ?_⟩
  · rw [length_pos_iff]
    exact fun hnil => hne (by rw [hnil]; rfl)
  · have hone := card_sizesAbove_least hnext fun x hx => smallest_le (hmem.mpr hx)
    omega

variable (layout) in
/-- **The zones are one to one.** From the sector of the devices where a zone starts on, if there
are as many zones as sizes beyond it. -/
theorem mapFrom_bijOn (hc : 0 < c) (hdvd : ∀ j, c ∣ size j) (hrow : n * c < 2 ^ 32)
    (hfit : ∀ j, size j < 2 ^ 64) : ∀ k devStart zoneStart,
      (sizesAbove size n devStart).card = k → c ∣ devStart → c ∣ zoneStart →
      Set.BijOn (mapFrom layout c (otherZones size n k devStart zoneStart) zoneStart)
        (Set.Ico zoneStart (lastEnd (otherZones size n k devStart zoneStart) zoneStart))
        (places fun slot off => slot < n ∧ devStart ≤ off ∧ off < size slot)
  | 0, devStart, zoneStart, hcard, _, _ => by
    have hempty : places (fun slot off => slot < n ∧ devStart ≤ off ∧ off < size slot) = ∅ := by
      refine eq_empty_of_forall_notMem ?_
      rintro x ⟨slot, off, ⟨hslot, hge, hlt⟩, -⟩
      have hmem : size slot ∈ sizesAbove size n devStart :=
        mem_sizesAbove.mpr ⟨⟨slot, hslot, rfl⟩, lt_of_le_of_lt hge hlt⟩
      exact absurd hcard (card_pos.mpr ⟨_, hmem⟩).ne'
    rw [hempty, show lastEnd (otherZones size n 0 devStart zoneStart) zoneStart =
      zoneStart from rfl,
      Set.Ico_self]
    exact bijOn_empty _
  | k + 1, devStart, zoneStart, hcard, hstart, hzone => by
    obtain ⟨hdevs, hnext, hle, hrest⟩ := exists_zone hcard
    rw [otherZones]
    generalize hd : (List.range n).filter (fun j => decide (devStart < size j)) = devs at *
    generalize hx : smallest (devs.map size) = next at *
    obtain ⟨⟨j, hj, rfl⟩, hlt⟩ := mem_sizesAbove.mp hnext
    have hmem : ∀ slot, slot ∈ devs ↔ slot < n ∧ devStart < size slot := by
      intro slot
      rw [← hd, List.mem_filter, List.mem_range, decide_eq_true_eq]
    have hlen : devs.length ≤ n := by
      rw [← hd]
      exact (length_filter_le _ _).trans_eq length_range
    obtain ⟨rows, hrows⟩ := dvd_sub (hdvd j) hstart
    have hsize : size j - devStart = rows * c := hrows.trans (mul_comm _ _)
    have hzoneEnd : zoneStart + (size j - devStart) * devs.length =
        zoneStart + rows * devs.length * c := by
      rw [hsize]
      ring
    have hfirst := zoneMap_bijOn layout
      ⟨zoneStart + (size j - devStart) * devs.length, devStart, devs.length, devs⟩ zoneStart
        rows hc hdevs rfl
      (hd ▸ nodup_range.filter _) (lt_of_le_of_lt (mul_le_mul_right c hlen) hrow) hzone
      (lt_of_le_of_lt (by omega) (hfit j))
    have hothers := mapFrom_bijOn hc hdvd hrow hfit k (size j)
      (zoneStart + (size j - devStart) * devs.length) hrest (hdvd j)
      (dvd_add hzone (Dvd.dvd.mul_right (hsize ▸ dvd_mul_left c rows) _))
    have hend := le_lastEnd size n k (size j) (zoneStart + (size j - devStart) * devs.length)
    dsimp only at hfirst
    rw [← hzoneEnd] at hfirst
    refine mapFrom_cons_bijOn hfirst hothers (le_add_right _ _) hend (fun slot off hp hq => ?_)
      fun slot off => ⟨fun ⟨hslot, hge, hoff⟩ => ?_, ?_⟩
    · omega
    · rcases lt_or_ge off (size j) with hlt' | hge'
      · exact .inl ⟨(hmem slot).mpr ⟨hslot, by omega⟩, hge, by omega⟩
      · exact .inr ⟨hslot, hge', hoff⟩
    · rintro (⟨hslot, hge, hoff⟩ | ⟨hslot, hge, hoff⟩)
      · have hsmall := hle slot hslot
        exact ⟨((hmem slot).mp hslot).1, hge, by omega⟩
      · exact ⟨hslot, by omega, hoff⟩

end Zones

/-! ## The array -/

section Slots

variable {rdevs : List Rdev} {raidDisks chunkSectors : Nat}

/-- Every slot has one device. -/
theorem exists_rdev (hslot : ∀ rdev ∈ rdevs, 0 ≤ rdev.raidDisk ∧ rdev.raidDisk < raidDisks)
    (hnodup : (rdevs.map (·.raidDisk)).Nodup) (hlen : rdevs.length = raidDisks) {j : Nat}
    (hj : j < raidDisks) : ∃ rdev ∈ rdevs, rdev.raidDisk = j := by
  have hsub : (rdevs.map (·.raidDisk)).toFinset ⊆ (Finset.range raidDisks).image
    (fun i : Nat => (i : Int)) := by
    intro x hx
    obtain ⟨rdev, hr, rfl⟩ := mem_map.mp (mem_toFinset.mp hx)
    obtain ⟨hge, hlt⟩ := hslot rdev hr
    exact Finset.mem_image.mpr ⟨rdev.raidDisk.toNat, Finset.mem_range.mpr (by omega), by omega⟩
  have heq := eq_of_subset_of_card_le hsub (by
    rw [toFinset_card_of_nodup hnodup, length_map, hlen]
    exact card_image_le.trans_eq (card_range raidDisks))
  have hmem : (j : Int) ∈ (rdevs.map (·.raidDisk)).toFinset :=
    heq ▸ Finset.mem_image_of_mem _ (Finset.mem_range.mpr hj)
  obtain ⟨rdev, hr, hdisk⟩ := mem_map.mp (mem_toFinset.mp hmem)
  exact ⟨rdev, hr, hdisk⟩

theorem slotSectors_eq (hnodup : (rdevs.map (·.raidDisk)).Nodup) {rdev : Rdev} (hr : rdev ∈ rdevs)
    {j : Nat} (hj : rdev.raidDisk = j) :
    slotSectors rdevs chunkSectors j = rdev.rounded chunkSectors := by
  have hfind : (rdevs.find? fun rdev => rdev.raidDisk == (j : Int)).isSome := by
    rw [find?_isSome]
    exact ⟨rdev, hr, beq_iff_eq.mpr hj⟩
  obtain ⟨rdev', hfound⟩ := isSome_iff_exists.mp hfind
  have hsame : rdev' = rdev := by
    refine inj_on_of_nodup_map hnodup (mem_of_find?_eq_some hfound) hr ?_
    have hdisk := find?_some hfound
    exact (beq_iff_eq.mp hdisk).trans hj.symm
  rw [slotSectors, hfound, hsame]
  rfl

theorem slotSectors_dvd (rdevs : List Rdev) (chunkSectors j : Nat) :
    chunkSectors ∣ slotSectors rdevs chunkSectors j := by
  unfold slotSectors
  cases rdevs.find? fun rdev => rdev.raidDisk == (j : Int) with
  | none => exact dvd_zero _
  | some rdev => exact dvd_mul_left _ _

theorem slotSectors_le (rdevs : List Rdev) (chunkSectors j : Nat) :
    slotSectors rdevs chunkSectors j ≤ wholeChunks rdevs chunkSectors := by
  unfold slotSectors
  cases hfind : rdevs.find? fun rdev => rdev.raidDisk == (j : Int) with
  | none => exact zero_le _
  | some rdev =>
    exact single_le_sum (fun _ _ => zero_le _) _
      (mem_map_of_mem (mem_of_find?_eq_some hfind))

variable (chunkSectors) in
/-- The sizes of the devices are those of the slots. -/
theorem mem_sizes (hslot : ∀ rdev ∈ rdevs, 0 ≤ rdev.raidDisk ∧ rdev.raidDisk < raidDisks)
    (hnodup : (rdevs.map (·.raidDisk)).Nodup) (hlen : rdevs.length = raidDisks) {x : Nat} :
    x ∈ rdevs.map (·.rounded chunkSectors) ↔ ∃ j < raidDisks, slotSectors rdevs
      chunkSectors j = x := by
  rw [List.mem_map]
  constructor
  · rintro ⟨rdev, hr, rfl⟩
    obtain ⟨hge, hlt⟩ := hslot rdev hr
    exact ⟨rdev.raidDisk.toNat, by omega, slotSectors_eq hnodup hr (by omega)⟩
  · rintro ⟨j, hj, rfl⟩
    obtain ⟨rdev, hr, hdisk⟩ := exists_rdev hslot hnodup hlen hj
    exact ⟨rdev, hr, (slotSectors_eq hnodup hr hdisk).symm⟩

variable (chunkSectors) in
/-- There is one more zone for every size beyond the smallest. -/
theorem card_sizesAbove (hslot : ∀ rdev ∈ rdevs, 0 ≤ rdev.raidDisk ∧ rdev.raidDisk < raidDisks)
    (hnodup : (rdevs.map (·.raidDisk)).Nodup) (hlen : rdevs.length = raidDisks) :
    (sizesAbove (slotSectors rdevs chunkSectors) raidDisks
      (smallest (rdevs.map (·.rounded chunkSectors)))).card =
        (rdevs.map (·.rounded chunkSectors)).dedup.length - 1 := by
  have hmem {x : Nat} := mem_sizes chunkSectors (x := x) hslot hnodup hlen
  have hset : (sizesAbove (slotSectors rdevs chunkSectors) raidDisks
      (smallest (rdevs.map (·.rounded chunkSectors)))) =
        (rdevs.map (·.rounded chunkSectors)).toFinset.erase
          (smallest (rdevs.map (·.rounded chunkSectors))) := by
    ext x
    rw [mem_sizesAbove, ← hmem, mem_erase, List.mem_toFinset]
    exact ⟨fun ⟨hx, hlt⟩ => ⟨hlt.ne', hx⟩, fun ⟨hne, hx⟩ =>
      ⟨hx, lt_of_le_of_ne (smallest_le hx) hne.symm⟩⟩
  rw [hset, ← List.card_toFinset]
  by_cases hnil : rdevs.map (·.rounded chunkSectors) = []
  · rw [hnil]
    rfl
  · rw [card_erase_of_mem (List.mem_toFinset.mpr (smallest_mem hnil))]

end Slots

/-- **The map of the array is one to one.** Once the zones are made, every sector up to the end of
the last zone goes to a device of the array and a sector of it below its size in whole chunks, and
every such sector of a device is where exactly one sector goes. -/
theorem raid0Map_bijOn (rdevs : List Rdev) (raidDisks chunkSectors : Nat)
    (layout defaultLayout : Int)
    (conf : R0conf) (hchunk : 0 < chunkSectors) (hrow : chunkSectors * raidDisks < 2 ^ 31)
    (hsize : wholeChunks rdevs chunkSectors < 2 ^ 64)
    (h : createStripZones rdevs raidDisks chunkSectors layout defaultLayout = .ok conf) :
    Set.BijOn (raid0Map conf chunkSectors) (Set.Iio (lastEnd conf.stripZone 0))
      (places fun slot off => slot < raidDisks ∧ off < slotSectors rdevs chunkSectors slot) := by
  obtain ⟨hslot, hnodup, hlen, hzones, -⟩ := createStripZones_zones h
  have hmem {x : Nat} := mem_sizes chunkSectors (x := x) hslot hnodup hlen
  have hmap : raid0Map conf chunkSectors = mapFrom conf.layout chunkSectors conf.stripZone 0 :=
    funext (raid0Map_eq conf chunkSectors)
  have hcard := card_sizesAbove chunkSectors hslot hnodup hlen
  rw [hmap, hzones]
  generalize hk : (rdevs.map (·.rounded chunkSectors)).dedup.length - 1 = k at *
  generalize hleast : smallest (rdevs.map (·.rounded chunkSectors)) = least at *
  have hle : ∀ slot < raidDisks, least ≤ slotSectors rdevs chunkSectors slot := by
    intro slot hs
    rw [← hleast]
    exact smallest_le (hmem.mpr ⟨slot, hs, rfl⟩)
  have hdvd : chunkSectors ∣ least := by
    by_cases hnil : rdevs.map (·.rounded chunkSectors) = []
    · rw [← hleast, hnil]
      exact dvd_zero _
    · obtain ⟨rdev, -, hr⟩ := mem_map.mp (smallest_mem hnil)
      rw [← hleast, ← hr]
      exact Nat.dvd_mul_left _ _
  have hfit : ∀ j, slotSectors rdevs chunkSectors j < 2 ^ 64 := fun j =>
    lt_of_le_of_lt (slotSectors_le rdevs chunkSectors j) hsize
  have hrow' : raidDisks * chunkSectors < 2 ^ 32 := by
    rw [mul_comm]
    omega
  have hothers := mapFrom_bijOn conf.layout hchunk (slotSectors_dvd rdevs chunkSectors) hrow' hfit
    k least (least * raidDisks) hcard hdvd (hdvd.mul_right _)
  have hfirst : Set.BijOn (zoneMap conf.layout chunkSectors ⟨least * raidDisks, 0, raidDisks,
      range raidDisks⟩ 0) (Set.Ico 0 (least * raidDisks))
      (places fun slot off => slot < raidDisks ∧ off < least) := by
    obtain ⟨rows, hrows⟩ := hdvd
    rcases Nat.eq_zero_or_pos raidDisks with hzero | hpos
    · have hempty : places (fun slot off => slot < raidDisks ∧ off < least) = ∅ := by
        refine eq_empty_of_forall_notMem ?_
        rintro x ⟨slot, off, ⟨hs, -⟩, -⟩
        omega
      rw [hempty, hzero, mul_zero, Set.Ico_self]
      exact bijOn_empty _
    · have hbij := zoneMap_bijOn conf.layout
        ⟨least * raidDisks, 0, raidDisks, range raidDisks⟩ 0 rows hchunk hpos length_range
        nodup_range hrow' (dvd_zero _)
        (by rw [mul_comm, ← hrows]; exact lt_of_le_of_lt (hle 0 hpos) (hfit 0))
      have hend : 0 + rows * raidDisks * chunkSectors = least * raidDisks := by
        rw [hrows]
        ring
      rw [hend] at hbij
      simpa only [List.mem_range, Nat.zero_le, true_and, Nat.zero_add, Nat.mul_comm rows,
        ← hrows] using hbij
  rw [show Set.Iio (lastEnd _ 0) = Set.Ico 0 (lastEnd _ 0) from Set.Ico_bot.symm]
  refine mapFrom_cons_bijOn hfirst hothers (Nat.zero_le _) (le_lastEnd _ _ _ _ _)
    (fun slot off hp hq => ?_)
    fun slot off => ⟨fun ⟨hs, hoff⟩ => ?_, ?_⟩
  · omega
  · rcases lt_or_ge off least with hlt | hge
    · exact .inl ⟨hs, hlt⟩
    · exact .inr ⟨hs, hge, hoff⟩
  · rintro (⟨hs, hoff⟩ | ⟨hs, -, hoff⟩)
    · exact ⟨hs, lt_of_lt_of_le hoff (hle slot hs)⟩
    · exact ⟨hs, hoff⟩

/-- Two devices of three chunks and one of one, which makes two zones. -/
theorem raid0Map_bijOn_unequal :
    ∃ conf, createStripZones [⟨0, 30, 512⟩, ⟨1, 10, 512⟩, ⟨2, 36, 512⟩] 3 10 2 0 = .ok conf ∧
      lastEnd conf.stripZone 0 = 70 ∧
      Set.BijOn (raid0Map conf 10) (Set.Iio (lastEnd conf.stripZone 0))
        (places fun slot off => slot < 3 ∧
          off < slotSectors [⟨0, 30, 512⟩, ⟨1, 10, 512⟩, ⟨2, 36, 512⟩] 10 slot) :=
  ⟨_, rfl, rfl, raid0Map_bijOn [⟨0, 30, 512⟩, ⟨1, 10, 512⟩, ⟨2, 36, 512⟩] 3 10 2 0 _
    (by decide) (by decide)
    (by decide) rfl⟩

end MdRaid.Takeover
