import MdRaid.Geometry.Bijection
import MdRaid.Stripe.Compute

/-!
# A level-6 stripe survives the loss of any two blocks

The stripe before the loss has consistent parity. Whatever the pages of one or
two devices have become since, the computation `fetch_block` selects brings every
page back. The cases follow the slots: a lost block is a data block, `P` or `Q`.
-/

namespace MdRaid.Stripe

open MdRaid.Geometry Loops Syndrome GF256 Function Bool Finset StripeHead
open Geometry.StripeHead (mem_dataDevs isParity_eq_false isParity_eq_true)

/-! ## Stripes with lost pages -/

/-- The pages of devices that are not lost are still those of `sh0`. -/
structure Damaged (sh0 sh : StripeHead) (lost : Nat → Prop) : Prop where
  geometry : sh.toStripeHead = sh0.toStripeHead
  page : ∀ i < sh0.disks, ¬ lost i → sh.dataPage i = sh0.dataPage i

namespace Damaged

variable {sh0 sh : StripeHead} {lost : Nat → Prop}

section

variable (h : Damaged sh0 sh lost)
include h

/-- Writing the original contents to a page takes it off the lost ones. -/
theorem store {t : Nat} {p : Page} (hp : p = sh0.dataPage t) :
    Damaged sh0 (sh.store (.page t) p) (fun i => lost i ∧ i ≠ t) where
  geometry := (store_geometry _ _ _).trans h.geometry
  page i hi hnot := by
    by_cases hit : i = t
    · rw [dataPage, hit, store_page_dev_self, R5dev.setPage_page, hp]
    · rw [dataPage, store_page_dev_of_ne _ _ _ hit]
      exact h.page i hi fun hl => hnot ⟨hl, hit⟩

theorem mono {lost' : Nat → Prop}
    (hle : ∀ i < sh0.disks, lost i → lost' i) : Damaged sh0 sh lost' :=
  ⟨h.geometry, fun i hi hnot => h.page i hi fun hl => hnot (hle i hi hl)⟩

theorem of_store_pair {a b : Nat} {p q : Page}
    (hp : p = sh0.dataPage a) (hq : q = sh0.dataPage b) (hlost : ∀ i, lost i → i = a ∨ i = b) :
    Damaged sh0 ((sh.store (.page a) p).store (.page b) q) (fun _ => False) :=
  ((h.store hp).store hq).mono fun i _ hl =>
    (hlost i hl.1.1).elim (fun ha => hl.1.2 ha) (fun hb => hl.2 hb)

end

end Damaged

/-! ## One block from the others -/

section Xor

variable {sh0 sh : StripeHead} {lost : Nat → Prop}

theorem sum_pagesBut (sh : StripeHead) (leave : Nat → Bool) :
    ((pagesBut sh leave).map sh.load).sum =
      ∑ i ∈ (range sh.disks).filter (fun i => leave i = false), sh.dataPage i := by
  unfold pagesBut
  rw [sum_load_down sh fun i => !leave i, sum_filter]
  refine sum_congr rfl fun i _ => ?_
  cases leave i <;> rfl

theorem length_pagesBut (sh : StripeHead) (leave : Nat → Bool) : (pagesBut sh leave).length =
      ((range sh.disks).filter (fun i => leave i = false)).card := by
  have hsum := sum_filterMap_down
    (fun i => if !leave i then some (PagePtr.page i) else none) (fun _ => 1) sh.disks
  rw [List.map_const', List.sum_replicate, smul_eq_mul, mul_one] at hsum
  rw [pagesBut, hsum, card_filter]
  refine sum_congr rfl fun i _ => ?_
  cases leave i <;> rfl

/-- A block is the sum of the others in a set that sums to zero. -/
theorem Damaged.sum_erase (h : Damaged sh0 sh lost) {E : Finset Nat} {t : Nat} (ht : t ∈ E)
    (hE : ∀ i ∈ E, i < sh0.disks) (hzero : ∑ i ∈ E, sh0.dataPage i = 0)
    (hlost : ∀ i ∈ E, lost i → i = t) : ∑ i ∈ E.erase t, sh.dataPage i = sh0.dataPage t := by
  have hsame : ∑ i ∈ E.erase t, sh.dataPage i = ∑ i ∈ E.erase t, sh0.dataPage i :=
    sum_congr rfl fun i hi => h.page i (hE i (mem_of_mem_erase hi)) fun hl =>
      ne_of_mem_erase hi (hlost i (mem_of_mem_erase hi) hl)
  rw [← add_sum_erase E _ ht] at hzero
  rw [hsame, ← add_zero (sh0.dataPage t), ← hzero, ← add_assoc, add_self GF256, zero_add]

end Xor

/-! ## Level 6 -/

section Level6

variable {sh0 sh : StripeHead} {lost : Nat → Prop} (hpq : ValidPQ sh0.toStripeHead)
  (hc : Consistent .raid6 sh0)

include hpq in
/-- All devices but `Q` make up the plain equation. -/
theorem erase_qd_eq : (range sh0.disks).erase sh0.qd = insert sh0.pd sh0.dataDevs := by
  ext i
  have hp := hpq.pd_cast
  have hq := hpq.qd_cast
  have hpl := hpq.pd_lt_disks
  have hne := hpq.pd_ne
  rw [mem_erase, mem_range, mem_insert, mem_dataDevs,
    isParity_eq_false]
  omega

include hpq hc in
theorem sum_erase_qd : ∑ i ∈ (range sh0.disks).erase sh0.qd, sh0.dataPage i = 0 := by
  have hnot : sh0.pd ∉ sh0.dataDevs := fun hmem =>
    (isParity_eq_false.mp
      (mem_dataDevs.mp hmem).2).1 hpq.pd_cast
  rw [erase_qd_eq hpq, sum_insert hnot, hc.p, wsum_one, add_self GF256]

variable (hd : Damaged sh0 sh lost)
include hpq hd

/-- The devices whose pages are added up to get device `t`. -/
theorem filter_leave (t : Nat) : (range sh.disks).filter
        (fun i => (decide (i = t) || decide ((i : Int) = sh.idx.qdIdx)) = false) =
      ((range sh0.disks).erase sh0.qd).erase t := by
  have hq := hpq.qd_cast
  ext i
  rw [hd.geometry, mem_filter, mem_erase, mem_erase, mem_range,
    or_eq_false_iff, decide_eq_false_iff_not, decide_eq_false_iff_not]
  omega

include hc in
/-- A data block, or `P`, from the other blocks without `Q`. -/
theorem asyncXor_restores (tx : AsyncTx) (hdisks : 4 ≤ sh0.disks) {t : Nat} (ht : t < sh0.disks)
    (htq : t ≠ sh0.qd) (hlost : ∀ i, lost i → i = t ∨ i = sh0.qd) :
    asyncXor tx sh .zeroDst (.page t) (pagesBut sh fun i =>
        decide (i = t) || decide ((i : Int) = sh.idx.qdIdx)) =
      some (sh.store (.page t) (sh0.dataPage t)) := by
  have htE : t ∈ (range sh0.disks).erase sh0.qd :=
    mem_erase.mpr ⟨htq, mem_range.mpr ht⟩
  have hlen : ¬ (pagesBut sh fun i =>
      decide (i = t) || decide ((i : Int) = sh.idx.qdIdx)).length ≤ 1 := by
    rw [length_pagesBut, filter_leave hpq hd, card_erase_of_mem htE,
      card_erase_of_mem (mem_range.mpr hpq.qd_lt_disks), card_range]
    omega
  unfold asyncXor
  rw [if_neg hlen]
  dsimp only
  rw [tx.xorBlocks_eq, sum_pagesBut, filter_leave hpq hd,
    hd.sum_erase htE (fun i hi => mem_range.mp (mem_of_mem_erase hi))
      (sum_erase_qd hpq hc)]
  intro i hi hl
  exact (hlost i hl).resolve_right (ne_of_mem_erase hi)

/-! ### By syndromes -/

omit hpq hd in
theorem blocksOf_computeBlocks (sh : StripeHead) (h : ValidPQ sh.toStripeHead) :
    BlocksOf sh (fun i => some (.page i)) (computeBlocks sh) :=
  blocksOf_walk sh h (fun _ => true) .page

omit hpq in
theorem Damaged.computeBlocks_eq : computeBlocks sh = computeBlocks sh0 := by
  unfold computeBlocks
  rw [hd.geometry]

omit hd in
theorem computeBlocks_slot {i : Nat} (hi : i < sh0.disks) :
    computeBlocks sh0 (slotOf sh0.toStripeHead i) = some (.page i) :=
  (blocksOf_computeBlocks sh0 hpq).at_slot i hi

/-- A slot whose device is not lost has its original contents. -/
theorem Damaged.slotPage_eq {s : Nat}
    (hs : ∀ i < sh0.disks, slotOf sh0.toStripeHead i = s → ¬ lost i) :
    slotPage sh (computeBlocks sh) s = slotPage sh0 (computeBlocks sh0) s := by
  unfold slotPage
  rw [hd.computeBlocks_eq]
  by_cases hex : ∃ i < sh0.disks, slotOf sh0.toStripeHead i = s
  · obtain ⟨i, hi, rfl⟩ := hex
    rw [computeBlocks_slot hpq hi]
    exact hd.page i hi (hs i hi rfl)
  · rw [(blocksOf_computeBlocks sh0 hpq).elsewhere s fun i hi heq => hex ⟨i, hi, heq⟩]
    rfl

omit hd in
theorem slotPage_slot {i : Nat} (hi : i < sh0.disks) :
    slotPage sh0 (computeBlocks sh0) (slotOf sh0.toStripeHead i) = sh0.dataPage i := by
  rw [slotPage, computeBlocks_slot hpq hi]
  rfl

omit hd in
include hc in
/-- The two equations in terms of slots. -/
theorem slot_equations :
    ∑ s ∈ range (syndromeDisks sh0.toStripeHead), slotPage sh0 (computeBlocks sh0) s =
        sh0.dataPage sh0.pd ∧ wsum (range (syndromeDisks sh0.toStripeHead)) (alpha ^ ·)
        (slotPage sh0 (computeBlocks sh0)) = sh0.dataPage sh0.qd := by
  have hb := blocksOf_computeBlocks sh0 hpq
  rw [← wsum_one (F := GF256), hb.wsum_slotPage hpq, hb.wsum_slotPage hpq, hc.p, hc.q rfl]
  exact ⟨rfl, rfl⟩

include hc in
/-- `P` and `Q` lost. -/
theorem recover_pq (tx : AsyncTx) (hmax : syndromeDisks sh0.toStripeHead + 2 ≤ tx.maxDisks)
    (hlost : ∀ i, lost i → i = sh0.pd ∨ i = sh0.qd) :
    ∃ sh', asyncGenSyndrome tx sh (computeBlocks sh) (syndromeDisks sh0.toStripeHead + 2) false =
      some sh' ∧ Damaged sh0 sh' (fun _ => False) := by
  have hpq' : ValidPQ sh.toStripeHead := by rw [hd.geometry]; exact hpq
  have hdata : ∀ i ∈ sh0.dataDevs, selPage sh (fun i => some (.page i)) i = sh0.dataPage i := by
    intro i hi
    obtain ⟨hlt, hnp⟩ := mem_dataDevs.mp hi
    obtain ⟨hp, hq⟩ := isParity_eq_false.mp hnp
    refine hd.page i hlt fun hl => ?_
    rcases hlost i hl with rfl | rfl
    · exact hp hpq.pd_cast
    · exact hq hpq.qd_cast
  have hrun := (blocksOf_computeBlocks sh hpq').asyncGenSyndrome hpq' rfl rfl tx false
    (by rw [hd.geometry]; exact hmax)
  simp only [false_eq_true, if_false, zero_add, hd.geometry] at hrun
  rw [wsum_congr hdata, wsum_congr hdata, ← hc.p, ← hc.q rfl] at hrun
  refine ⟨_, hrun, ?_⟩
  unfold setPQ
  rw [hd.geometry]
  exact hd.of_store_pair rfl rfl hlost

include hc in
/-- A data block and `Q` lost: the data block from `P`, then both parity blocks. -/
theorem recover_dq (tx : AsyncTx) (hmax : syndromeDisks sh0.toStripeHead + 2 ≤ tx.maxDisks)
    (hj : NoJournal sh) (hdisks : 4 ≤ sh0.disks) {x : Nat} (hx : x ∈ sh0.dataDevs)
    (hlost : ∀ i, lost i → i = x ∨ i = sh0.qd) :
    ∃ sh', ((asyncXor tx sh .zeroDst (.page x) (pagesBut sh fun i =>
        decide (i = x) || decide ((i : Int) = sh.idx.qdIdx))).bind fun sh =>
      asyncGenSyndrome tx sh (setSyndromeSources sh .all)
        (syndromeDisks sh.toStripeHead + 2) false) = some sh' ∧
      Damaged sh0 sh' (fun _ => False) := by
  have hxq : x ≠ sh0.qd := fun h => hpq.qd_not_data (h ▸ hx)
  have hxlt := (mem_dataDevs.mp hx).1
  rw [asyncXor_restores hpq hc hd tx hdisks hxlt hxq hlost, Option.bind_some]
  have hd1 := hd.store (t := x) rfl
  have hj1 : NoJournal (sh.store (.page x) (sh0.dataPage x)) := by
    intro i hi
    rw [store_geometry] at hi
    by_cases hix : i = x
    · rw [hix, store_page_dev_self, R5dev.setPage_flags]
      exact hj x (hix ▸ hi)
    · rw [store_page_dev_of_ne _ _ _ hix]
      exact hj i hi
  have hdata : ∀ i ∈ sh0.dataDevs, (if srcSelected (sh.store (.page x) (sh0.dataPage x)) .all i
      then (sh.store (.page x) (sh0.dataPage x)).dataPage i else 0) = sh0.dataPage i := by
    intro i hi
    rw [srcSelected, Bool.or_true, if_pos rfl]
    refine hd1.page i (mem_dataDevs.mp hi).1 fun hl => ?_
    rcases hlost i hl.1 with h | h
    · exact hl.2 h
    · exact hpq.qd_not_data (h ▸ hi)
  have hrun := asyncGenSyndrome_sources (by rw [hd1.geometry]; exact hpq) hj1 tx .all false
    (by rw [hd1.geometry]; exact hmax)
  simp only [false_eq_true, if_false, zero_add] at hrun
  rw [hd1.geometry, wsum_congr hdata, wsum_congr hdata, ← hc.p, ← hc.q rfl] at hrun
  refine ⟨_, by rw [hd1.geometry]; exact hrun, ?_⟩
  unfold setPQ
  rw [hd1.geometry]
  refine (hd1.of_store_pair (a := sh0.pd) (b := sh0.qd) rfl rfl fun i hl => .inr ?_)
  exact (hlost i hl.1).resolve_left hl.2

include hc in
/-- A data block and `P` lost. -/
theorem recover_dp (tx : AsyncTx) {x : Nat} (hx : x ∈ sh0.dataDevs)
    (hlost : ∀ i, lost i → i = x ∨ i = sh0.pd) :
    ∃ sh', asyncRaid6DatapRecov tx sh (syndromeDisks sh0.toStripeHead + 2)
        (slotOf sh0.toStripeHead x) (computeBlocks sh) = some sh' ∧
      Damaged sh0 sh' (fun _ => False) := by
  have hxlt := (mem_dataDevs.mp hx).1
  have hxs := slotOf_data_lt _ hpq hx
  obtain ⟨hsum, hq⟩ := slot_equations hpq hc
  -- the slots that are not lost have their original contents
  have hqpage : slotPage sh (computeBlocks sh) (syndromeDisks sh0.toStripeHead + 1) =
      sh0.dataPage sh0.qd := by
    rw [← slotOf_qd _ hpq, hd.slotPage_eq hpq, slotPage_slot hpq hpq.qd_lt_disks]
    intro i hi hslot hl
    obtain rfl := slotOf_injOn _ hpq hi hpq.qd_lt_disks hslot
    rcases hlost _ hl with h | h
    · exact hpq.qd_not_data (h ▸ hx)
    · exact hpq.pd_ne h.symm
  have hoff : ∀ s ∈ range (syndromeDisks sh0.toStripeHead), ∀ y,
      s ≠ slotOf sh0.toStripeHead x →
      (update (slotPage sh (computeBlocks sh)) (slotOf sh0.toStripeHead x) y) s =
        slotPage sh0 (computeBlocks sh0) s := by
    intro s hs y hne
    rw [update_of_ne hne, hd.slotPage_eq hpq]
    rintro i hi rfl hl
    rcases hlost _ hl with rfl | rfl
    · exact hne rfl
    · rw [mem_range, slotOf_pd _ hpq] at hs
      omega
  obtain ⟨hsol, hp⟩ := tx.datapRecov_solves (syndromeDisks sh0.toStripeHead)
    (slotOf sh0.toStripeHead x) (slotPage sh (computeBlocks sh)) (sh0.dataPage sh0.qd) hxs
  have hxpage := eq_of_wsum_eq (mem_range.mpr hxs) (pow_ne_zero _ alpha_ne_zero)
    (fun s hs hne => hoff s hs _ hne) (hsol.trans hq.symm)
  have hppage : (tx.datapRecov (syndromeDisks sh0.toStripeHead) (slotOf sh0.toStripeHead x)
      (slotPage sh (computeBlocks sh)) (sh0.dataPage sh0.qd)).2 = sh0.dataPage sh0.pd := by
    rw [← hp, ← hsum]
    refine sum_congr rfl fun s hs => ?_
    by_cases hsx : s = slotOf sh0.toStripeHead x
    · rw [hsx]
      exact hxpage
    · exact hoff s hs _ hsx
  rw [update_self, slotPage_slot hpq hxlt] at hxpage
  have hbx := computeBlocks_slot hpq hxlt
  have hbp := computeBlocks_slot hpq hpq.pd_lt_disks
  rw [slotOf_pd _ hpq] at hbp
  unfold asyncRaid6DatapRecov
  simp only [Nat.add_sub_cancel, hqpage]
  rw [hd.computeBlocks_eq, hbx, hbp, ← hd.computeBlocks_eq]
  exact ⟨_, rfl, hd.of_store_pair hxpage hppage hlost⟩

include hc in
/-- Two data blocks lost. -/
theorem recover_dd (tx : AsyncTx) (hmax : syndromeDisks sh0.toStripeHead + 2 ≤ 255) {x y : Nat}
    (hx : x ∈ sh0.dataDevs) (hy : y ∈ sh0.dataDevs)
    (hxy : slotOf sh0.toStripeHead x < slotOf sh0.toStripeHead y)
    (hlost : ∀ i, lost i → i = x ∨ i = y) :
    ∃ sh', asyncRaid6TwoDataRecov tx sh (syndromeDisks sh0.toStripeHead + 2)
        (slotOf sh0.toStripeHead x) (slotOf sh0.toStripeHead y) (computeBlocks sh) = some sh' ∧
      Damaged sh0 sh' (fun _ => False) := by
  have hxlt := (mem_dataDevs.mp hx).1
  have hylt := (mem_dataDevs.mp hy).1
  have hxs := slotOf_data_lt _ hpq hx
  have hys := slotOf_data_lt _ hpq hy
  obtain ⟨hsum, hq⟩ := slot_equations hpq hc
  have hparity : ∀ i < sh0.disks, i ∉ sh0.dataDevs →
      slotPage sh (computeBlocks sh) (slotOf sh0.toStripeHead i) = sh0.dataPage i := by
    intro i hi hnot
    rw [hd.slotPage_eq hpq, slotPage_slot hpq hi]
    intro j hj hslot hl
    obtain rfl := slotOf_injOn _ hpq hj hi hslot
    rcases hlost _ hl with rfl | rfl
    · exact hnot hx
    · exact hnot hy
  have hpdata : sh0.pd ∉ sh0.dataDevs := fun hmem =>
    (isParity_eq_false.mp
      (mem_dataDevs.mp hmem).2).1 hpq.pd_cast
  have hppage := hparity _ hpq.pd_lt_disks hpdata
  have hqpage := hparity _ hpq.qd_lt_disks hpq.qd_not_data
  rw [slotOf_pd _ hpq] at hppage
  rw [slotOf_qd _ hpq] at hqpage
  have hoff : ∀ s, s ≠ slotOf sh0.toStripeHead x → s ≠ slotOf sh0.toStripeHead y → ∀ u v,
      (update (update (slotPage sh (computeBlocks sh))
        (slotOf sh0.toStripeHead x) u) (slotOf sh0.toStripeHead y) v) s =
        slotPage sh0 (computeBlocks sh0) s := by
    intro s hnx hny u v
    rw [update_of_ne hny, update_of_ne hnx, hd.slotPage_eq hpq]
    rintro i hi rfl hl
    rcases hlost _ hl with rfl | rfl
    · exact hnx rfl
    · exact hny rfl
  -- the original contents solve the equations
  have hold : update (update (slotPage sh (computeBlocks sh))
      (slotOf sh0.toStripeHead x) (sh0.dataPage x)) (slotOf sh0.toStripeHead y)
      (sh0.dataPage y) = slotPage sh0 (computeBlocks sh0) := by
    funext s
    by_cases hny : s = slotOf sh0.toStripeHead y
    · rw [hny, update_self, slotPage_slot hpq hylt]
    · by_cases hnx : s = slotOf sh0.toStripeHead x
      · rw [update_of_ne hny, hnx, update_self, slotPage_slot hpq hxlt]
      · exact hoff s hnx hny _ _
  obtain ⟨hsolp, hsolq⟩ := tx.twoDataRecov_solves (syndromeDisks sh0.toStripeHead)
    (slotOf sh0.toStripeHead x) (slotOf sh0.toStripeHead y) (slotPage sh (computeBlocks sh))
    (sh0.dataPage sh0.pd) (sh0.dataPage sh0.qd) hxy hys
    ⟨sh0.dataPage x, sh0.dataPage y, by rw [hold]; exact hsum, by rw [hold]; exact hq⟩
  have hne : alpha ^ slotOf sh0.toStripeHead x ≠ alpha ^ slotOf sh0.toStripeHead y := fun h => by
    have := alpha_pow_inj (by omega) (by omega) h
    omega
  obtain ⟨hxpage, hypage⟩ := eq_of_sums_eq (ne_of_lt hxy) (mem_range.mpr hxs)
    (mem_range.mpr hys) hne (fun s _ hnx hny => hoff s hnx hny _ _)
    (hsolp.trans hsum.symm) (hsolq.trans hq.symm)
  rw [update_of_ne (ne_of_lt hxy), update_self,
    slotPage_slot hpq hxlt] at hxpage
  rw [update_self, slotPage_slot hpq hylt] at hypage
  have hbx := computeBlocks_slot hpq hxlt
  have hby := computeBlocks_slot hpq hylt
  unfold asyncRaid6TwoDataRecov
  simp only [Nat.add_sub_cancel, hppage, hqpage]
  rw [hd.computeBlocks_eq, hbx, hby, ← hd.computeBlocks_eq]
  exact ⟨_, rfl, hd.of_store_pair hxpage hypage hlost⟩

include hc in
/-- **Recovery of two slots.** -/
theorem recoverSlots_restores (tx : AsyncTx) (htx : tx.maxDisks ≤ 255)
    (hmax : syndromeDisks sh0.toStripeHead + 2 ≤ tx.maxDisks) (hj : NoJournal sh)
    (hdisks : 4 ≤ sh0.disks) {x y dataTarget : Nat} (hx : x < sh0.disks) (hy : y < sh0.disks)
    (hxy : slotOf sh0.toStripeHead x < slotOf sh0.toStripeHead y)
    (hdt : y = sh0.qd → dataTarget = x) (hlost : ∀ i, lost i → i = x ∨ i = y) :
    ∃ sh', recoverSlots tx sh (slotOf sh0.toStripeHead x) (slotOf sh0.toStripeHead y)
      dataTarget = some sh' ∧ Damaged sh0 sh' (fun _ => False) := by
  have hdata : ∀ i < sh0.disks, i ≠ sh0.pd → i ≠ sh0.qd → i ∈ sh0.dataDevs := by
    intro i hi hp hq
    have hpc := hpq.pd_cast
    have hqc := hpq.qd_cast
    refine mem_dataDevs.mpr
      ⟨hi, isParity_eq_false.mpr ⟨?_, ?_⟩⟩ <;> omega
  have hspd := slotOf_pd _ hpq
  have hsqd := slotOf_qd _ hpq
  have hxq : x ≠ sh0.qd := by
    rintro rfl
    by_cases hyd : y ∈ sh0.dataDevs
    · have := slotOf_data_lt _ hpq hyd
      omega
    · have hcases : y = sh0.pd ∨ y = sh0.qd := by
        by_contra hno
        exact hyd (hdata y hy (fun h => hno (.inl h)) fun h => hno (.inr h))
      rcases hcases with rfl | rfl <;> omega
  unfold recoverSlots
  rw [hd.geometry]
  dsimp only
  by_cases hyq : y = sh0.qd
  · obtain rfl := hyq
    rw [if_pos hsqd]
    by_cases hxp : x = sh0.pd
    · obtain rfl := hxp
      rw [if_pos hspd]
      exact recover_pq hpq hc hd tx hmax hlost
    · have hxd := hdata x hx hxp hxq
      have hlt := slotOf_data_lt _ hpq hxd
      rw [if_neg (by omega), hdt rfl]
      have h := recover_dq hpq hc hd tx hmax hj hdisks hxd hlost
      rwa [hd.geometry] at h
  · have hyne : slotOf sh0.toStripeHead y ≠ syndromeDisks sh0.toStripeHead + 1 := fun h =>
      hyq (slotOf_injOn _ hpq hy hpq.qd_lt_disks (h.trans hsqd.symm))
    rw [if_neg hyne]
    by_cases hyp : y = sh0.pd
    · obtain rfl := hyp
      have hxp : x ≠ sh0.pd := by
        rintro rfl
        omega
      rw [if_pos hspd]
      exact recover_dp hpq hc hd tx (hdata x hx hxp hxq) hlost
    · have hyd := hdata y hy hyp hyq
      have hlt := slotOf_data_lt _ hpq hyd
      have hxp : x ≠ sh0.pd := by
        rintro rfl
        omega
      rw [if_neg (by omega)]
      exact recover_dd hpq hc hd tx (by omega) (hdata x hx hxp hxq) hyd hxy hlost

/-! ### The compute operations -/

include hc in
/-- `Q` from the data blocks. -/
theorem recover_q (tx : AsyncTx) (hmax : syndromeDisks sh0.toStripeHead + 2 ≤ tx.maxDisks)
    (hj : NoJournal sh) (hlost : ∀ i ∈ sh0.dataDevs, ¬ lost i) :
    asyncGenSyndrome tx sh (update (setSyndromeSources sh .all)
        (syndromeDisks sh0.toStripeHead) none) (syndromeDisks sh0.toStripeHead + 2) false =
      some (sh.store (.page sh0.qd) (sh0.dataPage sh0.qd)) := by
  have hpq' : ValidPQ sh.toStripeHead := by rw [hd.geometry]; exact hpq
  have hqd := setSyndromeSources_qd hpq' hj .all
  have hq := wsum_setSyndromeSources hpq' hj (alpha ^ ·)
  have hdata : wsum sh0.dataDevs (fun i => alpha ^ slotOf sh0.toStripeHead i) sh.dataPage =
      sh0.dataPage sh0.qd := by
    rw [hc.q rfl]
    exact wsum_congr fun i hi =>
      hd.page i (mem_dataDevs.mp hi).1 (hlost i hi)
  rw [hd.geometry] at hqd hq
  rw [hdata] at hq
  unfold asyncGenSyndrome
  simp only [Nat.add_sub_cancel, update_self]
  rw [if_neg (by omega), update_of_ne (by omega), hqd]
  simp only [syndromeInto, tx.genSyndrome_eq, false_eq_true, if_false, zero_add,
    wsum_slotPage_update, hq]

include hc in
/-- One block computed. `Q` is used for no other block, and `P` is not used for `Q`. -/
theorem opsRunCompute6One_eq (tx : AsyncTx)
    (hmax : syndromeDisks sh0.toStripeHead + 2 ≤ tx.maxDisks) (hj : NoJournal sh)
    (hdisks : 4 ≤ sh0.disks) (hb : sh.batchHead = false) {t : Nat} (ht : t < sh0.disks)
    (htgt : sh.target = t) (htgt2 : sh.target2 = -1) (hwant : (sh.dev t).flags.wantcompute)
    (hlost : ∀ i, lost i → i = t ∨ i = sh0.qd ∨ t = sh0.qd ∧ i = sh0.pd) :
    opsRunCompute6One tx sh = some (sh.store (.page t) (sh0.dataPage t)) := by
  unfold opsRunCompute6One
  rw [hb, htgt, htgt2]
  have hneg : ¬ ((t : Int) < 0) := by omega
  simp only [Bool.false_eq_true, if_false, hneg, Int.toNat_natCast, hwant, Bool.not_true]
  rw [if_neg (by omega), hd.geometry]
  by_cases htq : t = sh0.qd
  · obtain rfl := htq
    have hdata : ∀ i ∈ sh0.dataDevs, ¬ lost i := by
      intro i hi hl
      obtain ⟨hp, hq⟩ := isParity_eq_false.mp (mem_dataDevs.mp hi).2
      have hpc := hpq.pd_cast
      have hqc := hpq.qd_cast
      rcases hlost i hl with h | h | ⟨-, h⟩ <;> omega
    have hpq' : ValidPQ sh.toStripeHead := by rw [hd.geometry]; exact hpq
    have h := setSyndromeSources_qd hpq' hj .all
    rw [hd.geometry] at h
    rw [if_pos hpq.qd_cast, update_of_ne (by omega), h, if_neg (by simp)]
    exact recover_q hpq hc hd tx hmax hj hdata
  · have hne : (t : Int) ≠ sh0.idx.qdIdx := by
      have := hpq.qd_cast
      omega
    have h := asyncXor_restores hpq hc hd tx hdisks ht htq fun i hl =>
      (hlost i hl).imp_right fun h => h.resolve_right fun h => htq h.1
    rw [hd.geometry] at h
    rw [if_neg hne]
    exact h

omit hd in
theorem failSlot_eq {t : Nat} (hgeo : sh.toStripeHead = sh0.toStripeHead) (ht : t < sh0.disks) :
    failSlot sh t = some (slotOf sh0.toStripeHead t) := by
  have hmem := slotOf_mem _ hpq ht
  unfold failSlot slotOf
  rw [hgeo]
  cases hf : (slotWalk sh0.toStripeHead).find? fun e => e.1 == t with
  | none => exact absurd (List.find?_eq_none.mp hf _ hmem) (by simp)
  | some e => rfl

include hc in
theorem opsRunCompute6Two_restores (tx : AsyncTx) (htx : tx.maxDisks ≤ 255)
    (hmax : syndromeDisks sh0.toStripeHead + 2 ≤ tx.maxDisks) (hj : NoJournal sh)
    (hdisks : 4 ≤ sh0.disks) (hb : sh.batchHead = false) {t t2 : Nat} (ht : t < sh0.disks)
    (ht2 : t2 < sh0.disks) (hne : t ≠ t2) (htgt : sh.target = t) (htgt2 : sh.target2 = t2)
    (hwant : (sh.dev t).flags.wantcompute)
    (hwant2 : (sh.dev t2).flags.wantcompute) (hlost : ∀ i, lost i → i = t ∨ i = t2) :
    ∃ sh', opsRunCompute6Two tx sh = some sh' ∧ Damaged sh0 sh' (fun _ => False) := by
  have hslot : slotOf sh0.toStripeHead t ≠ slotOf sh0.toStripeHead t2 := fun h =>
    hne (slotOf_injOn _ hpq ht ht2 h)
  have hq := hpq.qd_cast
  unfold opsRunCompute6Two
  rw [hb, htgt, htgt2]
  simp only [Int.toNat_natCast, hwant, hwant2, failSlot_eq hpq hd.geometry ht,
    failSlot_eq hpq hd.geometry ht2]
  rw [if_neg (by simp), if_neg (by simp), if_neg hslot, hd.geometry]
  by_cases hlt : slotOf sh0.toStripeHead t2 < slotOf sh0.toStripeHead t
  · rw [if_pos hlt]
    refine recoverSlots_restores hpq hc hd tx htx hmax hj hdisks ht2 ht hlt (fun h => ?_)
      fun i hl => (hlost i hl).symm
    rw [if_pos (by omega)]
  · rw [if_neg hlt]
    refine recoverSlots_restores hpq hc hd tx htx hmax hj hdisks ht ht2 (by omega) (fun h => ?_)
      hlost
    rw [if_neg (by omega)]

end Level6

/-! ## The choice of `fetch_block` -/

/-- The devices that are up to date. -/
def uptodateDevs (sh : StripeHead) : Finset Nat :=
  (range sh.disks).filter fun i => (sh.dev i).flags.uptodate = true

variable {sh : StripeHead} {s : StripeHeadState} {conf : FetchConf}

theorem not_uptodate_of_need {i : Nat}
    (h : needThisBlock conf sh s i) : (sh.dev i).flags.uptodate = false := by
  by_contra hup
  have hup : (sh.dev i).flags.uptodate := by simpa using hup
  simp [needThisBlock, hup] at h

/-- With all but `l.card` devices up to date, the devices of `l` are the others. -/
theorem mem_of_not_uptodate {l : Finset Nat}
    (hsub : ∀ i ∈ l, i < sh.disks ∧ (sh.dev i).flags.uptodate = false)
    (hcard : (uptodateDevs sh).card + l.card = sh.disks) {i : Nat} (hi : i < sh.disks)
    (hnot : (sh.dev i).flags.uptodate = false) : i ∈ l := by
  have hdisj : Disjoint (uptodateDevs sh) l := by
    rw [disjoint_left]
    intro j hj hjl
    have := (mem_filter.mp hj).2
    rw [(hsub j hjl).2] at this
    cases this
  have hall : uptodateDevs sh ∪ l = range sh.disks := by
    refine eq_of_subset_of_card_le (union_subset (filter_subset _ _) ?_) ?_
    · exact fun j hj => mem_range.mpr (hsub j hj).1
    · rw [card_range, card_union_of_disjoint hdisj, hcard]
  have hmem : i ∈ uptodateDevs sh ∪ l := by
    rw [hall]
    exact mem_range.mpr hi
  refine (mem_union.mp hmem).resolve_left fun hup => ?_
  have := (mem_filter.mp hup).2
  rw [hnot] at this
  cases this

/-- The stripe `fetch_block` hands to the compute operations: the targets are the devices that
are not up to date, and nothing else has changed but their flags. -/
structure ComputeRequest (sh sh' : StripeHead) (targets : Finset Nat) : Prop where
  geometry : sh'.toStripeHead = sh.toStripeHead
  lone : sh'.batchHead = false
  page : ∀ i, sh'.dataPage i = sh.dataPage i
  inJournal : ∀ i, (sh'.dev i).flags.inJournal = (sh.dev i).flags.inJournal
  want : ∀ i ∈ targets, (sh'.dev i).flags.wantcompute = true
  lost : ∀ i < sh.disks, (sh.dev i).flags.uptodate = false → i ∈ targets

theorem wantCompute_dev (sh : StripeHead) (i j : Nat) :
    (sh.wantCompute i).dev j = if j = i then
      (sh.dev j).modifyFlags fun f => { f with wantcompute := true } else sh.dev j := by
  by_cases h : j = i
  · rw [if_pos h, h, wantCompute, modifyFlags,
      modifyDev_dev_self]
  · rw [if_neg h, wantCompute, modifyFlags,
      modifyDev_dev_of_ne _ _ _ h]

theorem wantCompute_page (sh : StripeHead) (i j : Nat) :
    ((sh.wantCompute i).dev j).page = (sh.dev j).page := by
  rw [wantCompute_dev]
  split_ifs <;> rfl

theorem wantCompute_inJournal (sh : StripeHead) (i j : Nat) :
    ((sh.wantCompute i).dev j).flags.inJournal = (sh.dev j).flags.inJournal := by
  rw [wantCompute_dev]
  split_ifs <;> rfl

theorem wantCompute_want {i j : Nat} (h : j = i ∨ (sh.dev j).flags.wantcompute) :
    ((sh.wantCompute i).dev j).flags.wantcompute := by
  rw [wantCompute_dev]
  split_ifs with hji
  · rfl
  · exact h.resolve_left hji

theorem otherNotUptodate_spec {diskIdx disks other : Nat}
    (h : otherNotUptodate sh diskIdx disks = some other) :
    other < disks ∧ other ≠ diskIdx ∧ (sh.dev other).flags.uptodate = false := by
  have hmem := mem_down.mp (List.mem_of_find?_eq_some h)
  have hsome := List.find?_some h
  simp only [and_eq_true, decide_eq_true_eq, not_eq_true'] at hsome
  exact ⟨hmem, hsome.1, hsome.2⟩

/-- **What `fetch_block` has computed.** One target when one block is missing, two when two
are; no block that is up to date is a target. -/
theorem fetchBlock_request {diskIdx : Nat} {f : Fetch} (hi : diskIdx < sh.disks)
    (hup : s.uptodate = (uptodateDevs sh).card) (hs : s.opComputeBlk = false)
    (hf : fetchBlock conf sh s diskIdx sh.disks = some f) (hcomp : f.s.opComputeBlk) :
    (f.sh.target = diskIdx ∧ f.sh.target2 = -1 ∧ ComputeRequest sh f.sh {diskIdx}) ∨
    ∃ other : Nat, other < sh.disks ∧ diskIdx ≠ other ∧ f.sh.target = diskIdx ∧
      f.sh.target2 = other ∧ ComputeRequest sh f.sh {diskIdx, other} := by
  unfold fetchBlock at hf
  dsimp only at hf
  split_ifs at hf with hneed hbug hone htwo hread
  · cases hf
    have hnot := not_uptodate_of_need hneed
    have hb : sh.batchHead = false := by
      by_contra hb
      exact hbug (by simp [hb])
    refine .inl ⟨rfl, rfl, ⟨rfl, hb, wantCompute_page sh diskIdx,
      wantCompute_inJournal sh diskIdx, fun i hi => ?_, fun i hilt hin => ?_⟩⟩
    · exact wantCompute_want (.inl (mem_singleton.mp hi))
    · refine mem_of_not_uptodate (fun j hj => ?_) ?_ hilt hin
      · rw [mem_singleton.mp hj]
        exact ⟨hi, hnot⟩
      · rw [← hup, card_singleton]
        exact hone.1
  · cases hother : otherNotUptodate sh diskIdx sh.disks with
    | none =>
      rw [hother] at hf
      cases hf
    | some other =>
      rw [hother] at hf
      cases hf
      obtain ⟨holt, hone', honot⟩ := otherNotUptodate_spec hother
      have hnot := not_uptodate_of_need hneed
      have hb : sh.batchHead = false := by
        by_contra hb
        exact hbug (by simp [hb])
      refine .inr ⟨other, holt, hone'.symm, rfl, rfl, ⟨rfl, hb, fun i => ?_, fun i => ?_,
        fun i hi => ?_, fun i hilt hin => ?_⟩⟩
      · exact (wantCompute_page _ other i).trans (wantCompute_page sh diskIdx i)
      · exact (wantCompute_inJournal _ other i).trans (wantCompute_inJournal sh diskIdx i)
      · rcases mem_insert.mp hi with rfl | hi
        · exact wantCompute_want (.inr (wantCompute_want (.inl rfl)))
        · exact wantCompute_want (.inl (mem_singleton.mp hi))
      · refine mem_of_not_uptodate (fun j hj => ?_) ?_ hilt hin
        · rcases mem_insert.mp hj with rfl | hj
          · exact ⟨hi, hnot⟩
          · rw [mem_singleton.mp hj]
            exact ⟨holt, honot⟩
        · rw [← hup, card_pair hone'.symm]
          exact htwo.1
  all_goals
    cases hf
    exact absurd hcomp (by simp [hs])

/-- With the failed devices missing, `fetch_block` does choose a computation for each of
them. -/
theorem fetchBlock_computes {diskIdx : Nat} (hneed : needThisBlock conf sh s diskIdx)
    (hup : s.uptodate = (uptodateDevs sh).card) (hlone : sh.batchHead = false)
    (hidle : (sh.dev diskIdx).flags.wantcompute = false ∧ (sh.dev diskIdx).flags.wantread = false)
    (hcase : ((uptodateDevs sh).card + 1 = sh.disks ∧ s.failed ≠ 0 ∧
        ((diskIdx : Int) = s.failedNum0 ∨ (diskIdx : Int) = s.failedNum1)) ∨
      ((uptodateDevs sh).card + 2 = sh.disks ∧ s.failed ≥ 2)) :
    ∃ f, fetchBlock conf sh s diskIdx sh.disks = some f ∧ f.s.opComputeBlk := by
  have hbug : ¬ ((sh.dev diskIdx).flags.wantcompute || (sh.dev diskIdx).flags.wantread ||
      sh.batchHead) := by
    simp [hidle.1, hidle.2, hlone]
  unfold fetchBlock
  dsimp only
  rw [if_pos hneed, if_neg hbug]
  rcases hcase with ⟨hcard, hfail⟩ | ⟨hcard, hfail⟩
  · rw [if_pos ⟨by omega, .inr hfail⟩]
    exact ⟨_, rfl, rfl⟩
  · rw [if_neg (by omega), if_pos ⟨by omega, hfail⟩]
    cases hother : otherNotUptodate sh diskIdx sh.disks with
    | some other => exact ⟨_, rfl, rfl⟩
    | none =>
      -- the search can only fail if all devices but one are up to date
      exfalso
      have hsub : range sh.disks ⊆ insert diskIdx (uptodateDevs sh) := by
        intro j hj
        rw [mem_insert]
        by_contra hno
        have hnone := List.find?_eq_none.mp hother j (mem_down.mpr (mem_range.mp hj))
        have hup : (sh.dev j).flags.uptodate := by
          by_contra hjup
          have hjup : (sh.dev j).flags.uptodate = false := by simpa using hjup
          refine hnone ?_
          simp [show j ≠ diskIdx from fun h => hno (.inl h), hjup]
        exact hno (.inr (mem_filter.mpr ⟨hj, hup⟩))
      have := (card_le_card hsub).trans (card_insert_le _ _)
      rw [card_range] at this
      omega

/-! ## Any two losses -/

/-- What a full reconstruction leaves: the data as it was, and its parity. -/
theorem reconstruct6_consistent {tx : AsyncTx} {sh sh0 : StripeHead}
    (hpq : ValidPQ sh.toStripeHead) (hj : NoJournal sh) (hlone : sh.batchHead = false)
    (hst : sh.reconstructState ≠ .prexorDrainRun) (hdisc : allDiscard sh sh.isParity = false)
    (hrec : opsRunReconstruct6 tx sh [] = some (sh0, [])) :
    sh0.toStripeHead = sh.toStripeHead ∧ Consistent .raid6 sh0 ∧
      syndromeDisks sh.toStripeHead + 2 ≤ tx.maxDisks ∧
      ∀ i ∈ sh.dataDevs, sh0.dataPage i = sh.dataPage i := by
  unfold opsRunReconstruct6 at hrec
  rw [hdisc, if_neg (by simp), hlone] at hrec
  unfold reconstruct6One at hrec
  rw [if_neg hst] at hrec
  have hmax : syndromeDisks sh.toStripeHead + 2 ≤ tx.maxDisks := by
    by_contra hmax
    have hnone : asyncGenSyndrome tx sh (setSyndromeSources sh .all)
        (syndromeDisks sh.toStripeHead + 2) false = none := if_pos (by omega)
    rw [hnone] at hrec
    cases hrec
  have hall : ∀ g : Nat → GF256, wsum sh.dataDevs g
      (fun i => if srcSelected sh .all i then sh.dataPage i else 0) =
      wsum sh.dataDevs g sh.dataPage := by
    intro g
    refine wsum_congr fun i _ => ?_
    rw [srcSelected, Bool.or_true, if_pos rfl]
  rw [asyncGenSyndrome_sources hpq hj tx .all false hmax, hall, hall] at hrec
  simp only [Bool.false_eq_true, if_false, zero_add, Option.bind_some] at hrec
  obtain rfl := (Prod.mk.inj (Option.some.inj hrec)).1
  have hdata : ∀ p q, ∀ i ∈ sh.dataDevs, (setPQ sh p q).dataPage i = sh.dataPage i := by
    intro p q i hi
    obtain ⟨hp, hq⟩ := isParity_eq_false.mp (mem_dataDevs.mp hi).2
    have hpc := hpq.pd_cast
    have hqc := hpq.qd_cast
    rw [dataPage, setPQ_dev_of_ne _ _ _ (by omega) (by omega)]
    rfl
  refine ⟨setPQ_geometry _ _ _, ⟨?_, fun _ => ?_⟩, hmax, hdata _ _⟩
  · rw [setPQ_geometry, setPQ_page_pd _ _ _ hpq.pd_ne]
    exact (wsum_congr (hdata _ _)).symm
  · rw [setPQ_geometry, setPQ_page_qd]
    exact (wsum_congr (hdata _ _)).symm

/-- A request for a computation, carried out. -/
theorem ComputeRequest.restores {tx : AsyncTx} (htx : tx.maxDisks ≤ 255) {sh0 sh f : StripeHead}
    {diskIdx : Nat} (hpq : ValidPQ sh0.toStripeHead) (hc : Consistent .raid6 sh0)
    (hmax : syndromeDisks sh0.toStripeHead + 2 ≤ tx.maxDisks) (hdisks : 4 ≤ sh0.disks)
    (hd : Damaged sh0 sh fun i => i < sh0.disks ∧ (sh.dev i).flags.uptodate = false)
    (hj : NoJournal sh) (hi : diskIdx < sh0.disks)
    (hreq : (f.target = diskIdx ∧ f.target2 = -1 ∧ ComputeRequest sh f {diskIdx}) ∨
      ∃ other : Nat, other < sh0.disks ∧ diskIdx ≠ other ∧ f.target = diskIdx ∧
        f.target2 = other ∧ ComputeRequest sh f {diskIdx, other}) :
    ∃ sh', raidRunCompute tx .raid6 f = some sh' ∧ Damaged sh0 sh' (fun _ => False) := by
  have hgeo : sh.disks = sh0.disks := by rw [hd.geometry]
  have hdam : ∀ {l : Finset Nat}, ComputeRequest sh f l →
      Damaged sh0 f (fun i => i ∈ l) ∧ NoJournal f := by
    intro l hr
    refine ⟨⟨hr.geometry.trans hd.geometry, fun i hilt hnot => ?_⟩, fun i hilt => ?_⟩
    · rw [hr.page]
      exact hd.page i hilt fun hl => hnot (hr.lost i (hgeo ▸ hilt) hl.2)
    · rw [hr.geometry] at hilt
      rw [hr.inJournal]
      exact hj i hilt
  unfold raidRunCompute
  rw [if_pos rfl]
  rcases hreq with ⟨ht, ht2, hr⟩ | ⟨other, holt, hne, ht, ht2, hr⟩
  · rw [if_pos (.inl (by omega))]
    obtain ⟨hdf, hjf⟩ := hdam hr
    have hrun := opsRunCompute6One_eq hpq hc hdf tx hmax hjf hdisks hr.lone hi ht ht2
      (hr.want _ (mem_singleton_self _)) fun i hl => .inl (mem_singleton.mp hl)
    exact ⟨_, hrun, (hdf.store rfl).mono fun i _ hl => hl.2 (mem_singleton.mp hl.1)⟩
  · rw [if_neg (by omega)]
    obtain ⟨hdf, hjf⟩ := hdam hr
    exact opsRunCompute6Two_restores hpq hc hdf tx htx hmax hjf hdisks hr.lone hi holt hne ht ht2
      (hr.want _ (mem_insert_self _ _))
      (hr.want _ (mem_insert_of_mem (mem_singleton_self _)))
      fun i hl => (mem_insert.mp hl).imp_right mem_singleton.mp

/-- A stripe in which only blocks that are not up to date may have lost the contents they have in
`sh0`, with the counts `analyse_stripe` takes of it. -/
structure LostBlocks (sh0 bad : StripeHead) (s : StripeHeadState) : Prop where
  geometry : bad.toStripeHead = sh0.toStripeHead
  noJournal : NoJournal bad
  lone : bad.batchHead = false
  page : ∀ i < sh0.disks, (bad.dev i).flags.uptodate = true → bad.dataPage i = sh0.dataPage i
  count : s.uptodate = (uptodateDevs bad).card
  idle : s.opComputeBlk = false

/-- **RAID-6 survives any two losses.** For a stripe of an accepted level-6 geometry the walk from
`raid6_d0` gives every device one slot, all slots differ, and the parity devices have the two
slots after `syndrome_disks`. If a full reconstruction made the parity, then whatever has become
of the blocks that are not up to date, a computation `fetch_block` chooses ends and leaves every
block as it was; and it does choose one when the missing blocks are those of one or two failed
devices. -/
theorem raid6_survives_two_losses (tx : AsyncTx) (htx : tx.maxDisks ≤ 255) (conf : Conf)
    (previous : Bool) (hacc : Accepted conf previous) (hlevel : conf.level = .raid6)
    (sector : Nat) (sh : StripeHead)
    (hinit : initStripe conf sector previous = some sh.toStripeHead) :
    (((slotWalk sh.toStripeHead).map Prod.fst).Perm (List.range sh.disks) ∧
      ((slotWalk sh.toStripeHead).map Prod.snd).Nodup ∧
      (sh.pd, syndromeDisks sh.toStripeHead) ∈ slotWalk sh.toStripeHead ∧
      (sh.qd, syndromeDisks sh.toStripeHead + 1) ∈ slotWalk sh.toStripeHead) ∧
    (∀ sh0, NoJournal sh → sh.batchHead = false → sh.reconstructState ≠ .prexorDrainRun →
      allDiscard sh sh.isParity = false → opsRunReconstruct6 tx sh [] = some (sh0, []) →
      (∀ i ∈ sh.dataDevs, sh0.dataPage i = sh.dataPage i) ∧
      ∀ (fconf : FetchConf) (bad : StripeHead) (s : StripeHeadState) (diskIdx : Nat),
        LostBlocks sh0 bad s → diskIdx < sh.disks →
        (∀ f, fetchBlock fconf bad s diskIdx sh.disks = some f → f.s.opComputeBlk = true →
          ∃ fixed, raidRunCompute tx .raid6 f.sh = some fixed ∧
            ∀ i < sh.disks, fixed.dataPage i = sh0.dataPage i) ∧
        (needThisBlock fconf bad s diskIdx = true → (bad.dev diskIdx).flags.wantcompute = false ∧
            (bad.dev diskIdx).flags.wantread = false →
          ((uptodateDevs bad).card + 1 = sh.disks ∧ s.failed ≠ 0 ∧
              ((diskIdx : Int) = s.failedNum0 ∨ (diskIdx : Int) = s.failedNum1)) ∨
            ((uptodateDevs bad).card + 2 = sh.disks ∧ s.failed ≥ 2) →
          ∃ f, fetchBlock fconf bad s diskIdx sh.disks = some f ∧ f.s.opComputeBlk = true)) := by
  obtain ⟨hdisks, t, hwell, hidx⟩ := initStripe_wellPlaced hacc hinit
  have hq := hwell.qd_range hlevel
  have hp := hwell.pd_range
  have hpq : ValidPQ sh.toStripeHead := by
    constructor <;> rw [hidx] <;> omega
  have hfour : 4 ≤ sh.disks := by
    have := hacc.minDisks
    rw [hlevel] at this
    exact hdisks ▸ this
  refine ⟨⟨slotWalk_fst_perm _ hpq, slotWalk_snd_nodup _ hpq, ?_, ?_⟩, ?_⟩
  · have h := slotOf_mem _ hpq hpq.pd_lt_disks
    rwa [slotOf_pd _ hpq] at h
  · have h := slotOf_mem _ hpq hpq.qd_lt_disks
    rwa [slotOf_qd _ hpq] at h
  · intro sh0 hj hlone hst hdisc hrec
    obtain ⟨hgeo, hc, hmax, hdata⟩ := reconstruct6_consistent hpq hj hlone hst hdisc hrec
    refine ⟨hdata, fun fconf bad s diskIdx hlost hi => ?_⟩
    rw [← hgeo] at hpq hmax hi hfour ⊢
    have hbd : bad.disks = sh0.disks := by rw [hlost.geometry]
    rw [← hbd]
    refine ⟨fun f hf hcomp => ?_, fun hneed hidle hcase =>
      fetchBlock_computes hneed hlost.count hlost.lone hidle hcase⟩
    have hd : Damaged sh0 bad fun i => i < sh0.disks ∧ (bad.dev i).flags.uptodate = false :=
      ⟨hlost.geometry, fun i hilt hnot => hlost.page i hilt (by
        by_contra hup
        exact hnot ⟨hilt, by simpa using hup⟩)⟩
    have hreq := fetchBlock_request (hbd ▸ hi) hlost.count hlost.idle hf hcomp
    rw [hbd] at hreq ⊢
    obtain ⟨fixed, hrun, hfix⟩ :=
      ComputeRequest.restores htx hpq hc hmax hfour hd hlost.noJournal hi hreq
    exact ⟨fixed, hrun, fun i hilt => hfix.page i hilt fun h => h⟩

/-! ### An instance -/

/-- Five devices of the default level-6 layout; device `i` holds the byte `i + 1`
throughout. -/
def exampleLevel6 : StripeHead where
  sector := 0
  disks := 5
  idx := ⟨4, 0, false⟩
  dev i :=
    { flags := { uptodate := true }, origPage := fun _ => ⟨BitVec.ofNat 8 (i + 1)⟩
      redirect := none, toread := [], towrite := [], written := [], sector := 0 }
  reconstructState := .run
  target := -1
  target2 := -1
  overwriteDisks := 0
  batchHead := false
  prereadActive := false
  computeRun := false
  expandReady := false
  handle := false

/-- The stripe after devices 1 and 3 have failed and their pages were overwritten. -/
def exampleBad (sh : StripeHead) : StripeHead :=
  { sh with
    batchHead := false
    dev := fun i => if i = 1 ∨ i = 3 then
        { sh.dev i with flags := {}, origPage := fun _ => 0, redirect := none }
      else { sh.dev i with flags := { uptodate := true, insync := true } } }

def exampleState : StripeHeadState where
  syncing := true
  expanding := false
  replacing := false
  locked := 0
  uptodate := 3
  toWrite := 0
  failed := 2
  failedNum0 := 1
  failedNum1 := 3
  reqCompute := false
  opComputeBlk := false

theorem exampleBad_lost {sh0 : StripeHead}
    (hgeo : sh0.toStripeHead = exampleLevel6.toStripeHead) : LostBlocks sh0
    (exampleBad sh0) exampleState where
  geometry := rfl
  noJournal i _ := by
    unfold exampleBad
    dsimp only
    split_ifs <;> rfl
  lone := rfl
  page i _ hup := by
    by_cases hi : i = 1 ∨ i = 3
    · simp [exampleBad, hi] at hup
    · simp [exampleBad, dataPage, hi, R5dev.page]
  count := by
    have hdevs : uptodateDevs (exampleBad sh0) = (range 5).filter fun i =>
        ¬ (i = 1 ∨ i = 3) := by
      have hdisks : (exampleBad sh0).disks = 5 := congrArg disks hgeo
      unfold uptodateDevs
      rw [hdisks]
      refine filter_congr fun i _ => ?_
      by_cases hi : i = 1 ∨ i = 3 <;> simp [exampleBad, hi]
    rw [hdevs]
    rfl
  idle := rfl

theorem raid6_survives_two_losses_exampleLevel6 :
    ∃ sh0, opsRunReconstruct6 (.direct 255) exampleLevel6 [] = some (sh0, []) ∧
      ∃ f, fetchBlock ⟨false, 0, fun _ => false⟩ (exampleBad sh0) exampleState 1 5 = some f ∧
        ∃ fixed, raidRunCompute (.direct 255) .raid6 f.sh = some fixed ∧
          ∀ i < 5, fixed.dataPage i = sh0.dataPage i := by
  have hpq : ValidPQ exampleLevel6.toStripeHead :=
    ⟨by decide, by decide, by decide, by decide, by decide⟩
  have hj : NoJournal exampleLevel6 := fun _ _ => rfl
  obtain ⟨sh0, hgen, hgeo⟩ : ∃ sh0, asyncGenSyndrome (.direct 255) exampleLevel6
      (setSyndromeSources exampleLevel6 .all) (syndromeDisks exampleLevel6.toStripeHead + 2)
      false = some sh0 ∧ sh0.toStripeHead = exampleLevel6.toStripeHead :=
    ⟨_, asyncGenSyndrome_sources hpq hj (.direct 255) .all false (by decide),
      setPQ_geometry _ _ _⟩
  have hrec : opsRunReconstruct6 (.direct 255) exampleLevel6 [] = some (sh0, []) := by
    unfold opsRunReconstruct6 reconstruct6One
    rw [if_neg (by decide), if_neg (by decide), hgen]
    rfl
  have hlost := exampleBad_lost hgeo
  obtain ⟨hrestore, hchoose⟩ := ((raid6_survives_two_losses (.direct 255) (by decide) exampleConf
    false ⟨by rfl, by decide⟩ rfl 0 exampleLevel6 (by rfl)).2 sh0 hj rfl (by decide) (by decide)
    hrec).2 ⟨false, 0, fun _ => false⟩ (exampleBad sh0) exampleState 1 hlost (by decide)
  obtain ⟨f, hf, hcomp⟩ := hchoose (by simp [needThisBlock, exampleBad, exampleState])
    (by simp [exampleBad]) (.inr ⟨congrArg (· + 2) hlost.count.symm, by decide⟩)
  exact ⟨sh0, hrec, f, hf, hrestore f hf hcomp⟩

end MdRaid.Stripe
