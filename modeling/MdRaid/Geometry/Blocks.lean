import MdRaid.Geometry.Bijection
import MdRaid.Geometry.Slots

/-!
# The blocks of a stripe

A data device of a stripe holds one block of `RAID5_STRIPE_SECTORS` logical sectors, from
the sector `raid5_compute_blocknr` gives. Its sectors are those that
`raid5_compute_sector` maps to this device and to a device sector of this stripe.
-/

namespace MdRaid.Geometry

open StripeHead Option Nat

variable {previous : Bool} {conf : Conf}

theorem initStripe_eq {sector : Nat} {sh : StripeHead}
    (h : initStripe conf sector previous = some sh) :
    sh.sector = sector ∧ sh.disks = conf.disks previous := by
  obtain ⟨idx, -, rfl⟩ := map_eq_some_iff.mp h
  exact ⟨rfl, rfl⟩

/-- The logical block of a data device of a stripe. -/
theorem exists_block (h : Accepted conf previous) {devSectors : Nat}
    (hdvd : conf.sectorsPerChunk previous ∣ devSectors)
    (hsize : devSectors * conf.dataDisks previous < 2 ^ 64) {sector : Nat}
    (hsector : sector < devSectors) : ∃ sh, initStripe conf sector previous = some sh ∧
      ∀ j ∈ sh.dataDevs, ∃ r < devSectors * conf.dataDisks previous,
        raid5ComputeSector conf r previous = some ⟨sector, j, sh.idx⟩ ∧
        raid5ComputeBlocknr conf sh j previous = r := by
  obtain ⟨sh, hinit, hdata⟩ := exists_logical_of_data h hdvd hsize hsector
  refine ⟨sh, hinit, fun j hj => ?_⟩
  obtain ⟨hlt, hpar⟩ := mem_dataDevs.mp hj
  obtain ⟨hpd, hqd⟩ := isParity_eq_false.mp hpar
  obtain ⟨r, hr, hcomp, -⟩ := hdata j (Int.natCast_nonneg j)
    (by rw [← (initStripe_eq hinit).2]; exact_mod_cast hlt) hpd hqd
  refine ⟨r, hr, hcomp, ?_⟩
  obtain ⟨t, sh', ht, -, hinit', -, -, hblock⟩ := raid5ComputeSector_roundTrip h (hr.trans hsize)
  obtain rfl := some.inj (hcomp.symm.trans ht)
  obtain rfl := some.inj (hinit.symm.trans hinit')
  exact hblock

/-- The stripe and the device of a logical block. -/
theorem exists_place (h : Accepted conf previous) {r : Nat}
    (hr : r < 2 ^ 64) : ∃ t sh, raid5ComputeSector conf r previous = some t ∧
      initStripe conf t.newSector previous = some sh ∧ (t.ddIdx.toNat : Int) = t.ddIdx ∧
      t.ddIdx.toNat ∈ sh.dataDevs ∧ raid5ComputeBlocknr conf sh t.ddIdx.toNat previous = r := by
  obtain ⟨t, sh, ht, hwell, hinit, hidx, -, hblock⟩ := raid5ComputeSector_roundTrip h hr
  obtain ⟨hge, hlt⟩ := hwell.dd_range
  have hcast : (t.ddIdx.toNat : Int) = t.ddIdx := Int.toNat_of_nonneg hge
  refine ⟨t, sh, ht, hinit, hcast, mem_dataDevs.mpr ⟨?_, ?_⟩, by rw [hcast]; exact hblock⟩
  · rw [(initStripe_eq hinit).2]
    omega
  · rw [isParity_eq_false, hcast, hidx]
    exact ⟨hwell.dd_ne_pd, hwell.dd_ne_qd⟩

/-! ## Pages -/

/-- `sector & ~(RAID5_STRIPE_SECTORS - 1)`. -/
def stripeStart (sector : Nat) : Nat := sector / stripeSectors * stripeSectors

theorem stripeStart_le (sector : Nat) : stripeStart sector ≤ sector := div_mul_le_self _ _

theorem lt_stripeStart_add (sector : Nat) : sector < stripeStart sector + stripeSectors := by
  unfold stripeStart stripeSectors
  omega

theorem stripeStart_dvd (sector : Nat) : stripeSectors ∣ stripeStart sector := dvd_mul_left _ _

theorem stripeStart_eq_iff {sector s : Nat} (hs : stripeSectors ∣ s) :
    stripeStart sector = s ↔ s ≤ sector ∧ sector < s + stripeSectors := by
  unfold stripeStart stripeSectors at *
  omega

theorem stripeStart_add {a : Nat} (ha : stripeSectors ∣ a) (b : Nat) :
    stripeStart (a + b) = a + stripeStart b := by
  unfold stripeStart stripeSectors at *
  omega

theorem row_le_logicalSector {row d offset : Nat} (hm : 0 < conf.dataDisks previous) :
    row * conf.sectorsPerChunk previous + offset ≤ logicalSector conf previous row d offset := by
  unfold logicalSector
  exact Nat.add_le_add_right (Nat.mul_le_mul_right _
    ((Nat.le_mul_of_pos_right row hm).trans (Nat.le_add_right _ _))) _

/-- The page a logical sector is kept in: its stripe and its device. -/
def pageOf (conf : Conf) (r : Nat) (previous : Bool) : Option (Nat × Int) :=
  (raid5ComputeSector conf r previous).map fun t => (stripeStart t.newSector, t.ddIdx)

section Page

variable {conf : Conf} {previous : Bool}

theorem pageOf_logical {row d offset : Nat} {idx : StripeIdx} {f g : Int → Int}
    (hlay : conf.RowLayoutAt previous row idx f g) (hd : d < conf.dataDisks previous)
    (ho : offset < conf.sectorsPerChunk previous)
    (hfit : row * conf.sectorsPerChunk previous + offset < 2 ^ 64) :
    pageOf conf (logicalSector conf previous row d offset) previous =
      some (stripeStart (row * conf.sectorsPerChunk previous + offset), f d) := by
  rw [pageOf, raid5ComputeSector_logical hlay hd ho hfit, map_some]

section

variable (h : Accepted conf previous)
include h

theorem exists_page {r : Nat} (hr : r < 2 ^ 64) : ∃ s i, pageOf conf r previous = some (s, i) := by
  obtain ⟨t, ht, -⟩ := raid5ComputeSector_wellPlaced h hr
  exact ⟨_, _, by rw [pageOf, ht, map_some]⟩

section

variable {r s : Nat} {i : Int} (hr : r < 2 ^ 64) (hp : pageOf conf r previous = some (s, i))
include hr hp

/-- The stripe that holds a logical sector. -/
theorem pageOf_stripe : s = r / conf.sectorsPerChunk previous / conf.dataDisks previous *
      conf.sectorsPerChunk previous + stripeStart (r % conf.sectorsPerChunk previous) := by
  obtain ⟨t, ht, hpage⟩ := map_eq_some_iff.mp hp
  obtain ⟨rfl, -⟩ := Prod.mk.inj hpage
  rw [raid5ComputeSector_newSector ht, sectorT_row hr,
    stripeStart_add (h.stripe_dvd.trans (dvd_mul_left _ _))]

/-- It lies in the row of the sector. -/
theorem pageOf_row : s / conf.sectorsPerChunk previous =
      r / (conf.sectorsPerChunk previous * conf.dataDisks previous) := by
  have ho := Nat.mod_lt r h.chunk_pos
  rw [pageOf_stripe h hr hp, mul_add_div_of_lt ((stripeStart_le _).trans_lt ho),
    Nat.div_div_eq_div_mul]

/-- It is a page of a data device of its stripe. -/
theorem pageOf_dataDev :
    ∃ sh, initStripe conf s previous = some sh ∧ ∃ j ∈ sh.dataDevs, (j : Int) = i := by
  obtain ⟨row, d, offset, rfl, hd, ho, hle⟩ := exists_logicalSector h r
  obtain ⟨idx, f, g, hlay⟩ := accepted_rowLayout h row
  rw [pageOf_logical hlay hd ho (hle.trans_lt hr), some_inj, Prod.mk.injEq,
    stripeStart_add (h.stripe_dvd.trans (dvd_mul_left _ _))] at hp
  obtain ⟨rfl, rfl⟩ := hp
  -- the first sector of the page has the same row and device
  have hstart := stripeStart_le offset
  have hfirst : logicalSector conf previous row d (stripeStart offset) < 2 ^ 64 :=
    (Nat.add_le_add_left hstart _).trans_lt hr
  obtain ⟨t, sh, ht, hinit, hcast, hj, -⟩ := exists_place h hfirst
  rw [raid5ComputeSector_logical hlay hd (hstart.trans_lt ho)
    ((row_le_logicalSector h.dataDisks_pos).trans_lt hfirst)] at ht
  cases ht
  exact ⟨sh, hinit, _, hj, hcast⟩

end

end

/-- **The sectors of a block.** The logical sectors of a data device's page are those that
the mapping sends there. -/
theorem mem_block_iff (h : Accepted conf previous) {devSectors : Nat}
    (hdvd : conf.sectorsPerChunk previous ∣ devSectors)
    (hsize : devSectors * conf.dataDisks previous < 2 ^ 64) {s : Nat} (hs : s < devSectors)
    (h8 : stripeSectors ∣ s) {sh : StripeHead} (hinit : initStripe conf s previous = some sh)
    {j : Nat} (hj : j ∈ sh.dataDevs) {r : Nat} (hr : r < 2 ^ 64) :
    (raid5ComputeBlocknr conf sh j previous ≤ r ∧
      r < raid5ComputeBlocknr conf sh j previous + stripeSectors) ↔
    pageOf conf r previous = some (s, (j : Int)) := by
  obtain ⟨sh', hinit', hblock⟩ := exists_block h hdvd hsize hs
  obtain rfl := some.inj (hinit.symm.trans hinit')
  obtain ⟨b, hb, hcomp, hnr⟩ := hblock j hj
  rw [hnr]
  obtain ⟨row, d, offset, rfl, hd, ho, hle⟩ := exists_logicalSector h b
  obtain ⟨idx, f, g, hlay⟩ := accepted_rowLayout h row
  have htarget := (raid5ComputeSector_logical hlay hd ho (hle.trans_lt (hb.trans hsize))).symm.trans
    hcomp
  obtain ⟨hsec, hdev, -⟩ := Target.mk.inj (some.inj htarget)
  have hoff : stripeSectors ∣ offset := by
    rw [← hsec] at h8
    exact (Nat.dvd_add_right (h.stripe_dvd.trans (Nat.dvd_mul_left _ _))).mp h8
  have hroom : ∀ k < stripeSectors, offset + k < conf.sectorsPerChunk previous := by
    intro k hk
    have hc := h.stripe_dvd
    unfold stripeSectors at *
    omega
  constructor
  · rintro ⟨hlow, hhigh⟩
    obtain ⟨k, rfl⟩ := Nat.exists_eq_add_of_le hlow
    have hk : k < stripeSectors := by omega
    rw [show logicalSector conf previous row d offset + k =
      logicalSector conf previous row d (offset + k) from add_assoc _ _ _] at hr ⊢
    have hfit : row * conf.sectorsPerChunk previous + (offset + k) < 2 ^ 64 :=
      (row_le_logicalSector h.dataDisks_pos).trans_lt hr
    rw [pageOf_logical hlay hd (hroom k hk) hfit, ← add_assoc, hsec, hdev,
      (stripeStart_eq_iff h8).mpr ⟨Nat.le_add_right _ _, Nat.add_lt_add_left hk _⟩]
  · intro hp
    obtain ⟨row', d', offset', rfl, hd', ho', hle'⟩ := exists_logicalSector h r
    obtain ⟨idx', f', g', hlay'⟩ := accepted_rowLayout h row'
    rw [pageOf_logical hlay' hd' ho' (hle'.trans_lt hr), some_inj, Prod.mk.injEq, ← hsec,
      stripeStart_add (h.stripe_dvd.trans (dvd_mul_left _ _))] at hp
    obtain ⟨hstripe, hdev'⟩ := hp
    -- the stripe fixes the row, the row and the device fix the data index
    obtain rfl : row' = row := by
      have hdiv := congrArg (· / conf.sectorsPerChunk previous) hstripe
      rwa [mul_add_div_of_lt ho, mul_add_div_of_lt ((stripeStart_le _).trans_lt ho')] at hdiv
    have hf : f d' = f d := by
      have hplace := (hlay'.place_eq d').symm.trans (hlay.place_eq d')
      rw [hdev, ← hdev']
      exact (Placement.mk.inj (some.inj hplace)).2.symm
    have hd_eq : (d' : Int) = d := by
      have hback := congrArg g hf
      rwa [hlay.rowMap.unplace_place d' (by omega) (by exact_mod_cast hd'),
        hlay.rowMap.unplace_place d (by omega) (by exact_mod_cast hd)] at hback
    obtain rfl : d' = d := by exact_mod_cast hd_eq
    have hoffset := (stripeStart_eq_iff hoff).mp (add_left_cancel hstripe)
    unfold logicalSector
    omega

end Page

end MdRaid.Geometry
