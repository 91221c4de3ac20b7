import MdRaid.Stripe.ParityChecks

/-!
# The stripe a scrub works towards

From what the devices hold and which of them have failed follows one consistent
stripe: its data are the data of the surviving devices, and the blocks of failed
devices are those the surviving parity determines. The computations of a scrub
bring blocks of that stripe back, and its checks tell whether a parity block is
the one of that stripe.
-/

namespace MdRaid.Stripe

open MdRaid.Geometry Loops Syndrome GF256 Function Finset Geometry.StripeHead Stripe
  StripeHead Option

/-! ## Operations that touch pages only -/

/-- The two stripes differ in the contents of their pages at most. -/
structure PagesOnly (sh sh' : StripeHead) : Prop where
  geometry : sh'.toStripeHead = sh.toStripeHead
  flags : ∀ i, (sh'.dev i).flags = (sh.dev i).flags
  target : sh'.target = sh.target
  target2 : sh'.target2 = sh.target2
  computeRun : sh'.computeRun = sh.computeRun
  batchHead : sh'.batchHead = sh.batchHead
  reconstructState : sh'.reconstructState = sh.reconstructState

namespace PagesOnly

variable {sh sh' sh'' : StripeHead}

theorem trans (h : PagesOnly sh sh') (h' : PagesOnly sh' sh'') : PagesOnly sh sh'' where
  geometry := h'.geometry.trans h.geometry
  flags i := (h'.flags i).trans (h.flags i)
  target := h'.target.trans h.target
  target2 := h'.target2.trans h.target2
  computeRun := h'.computeRun.trans h.computeRun
  batchHead := h'.batchHead.trans h.batchHead
  reconstructState := h'.reconstructState.trans h.reconstructState

theorem store (sh : StripeHead) (ptr : PagePtr) (p : Page) : PagesOnly sh (sh.store ptr p) := by
  have hdev : ∀ (i : Nat) (f : R5dev → R5dev), (∀ dev, (f dev).flags = dev.flags) → ∀ j,
      ((sh.modifyDev i f).dev j).flags = (sh.dev j).flags := by
    intro i f hf j
    by_cases hj : j = i
    · rw [hj, modifyDev_dev_self, hf]
    · rw [modifyDev_dev_of_ne _ _ _ hj]
  cases ptr with
  | page i => exact ⟨rfl, hdev i _ fun dev => R5dev.setPage_flags dev p, rfl, rfl, rfl, rfl, rfl⟩
  | origPage i =>
    exact ⟨rfl, hdev i (fun dev => { dev with origPage := p }) fun _ => rfl, rfl, rfl,
      rfl, rfl, rfl⟩

theorem asyncXor {tx : AsyncTx} {flag : XorDst} {dest : PagePtr} {srcs : List PagePtr}
    (h : asyncXor tx sh flag dest srcs = some sh') : PagesOnly sh sh' := by
  unfold Stripe.asyncXor at h
  split_ifs at h
  cases flag <;> exact some.inj h ▸ store _ _ _

theorem asyncGenSyndrome {tx : AsyncTx} {blocks : Blocks} {disks : Nat} {xorDst : Bool}
    (h : asyncGenSyndrome tx sh blocks disks xorDst = some sh') : PagesOnly sh sh' := by
  unfold Stripe.asyncGenSyndrome at h
  dsimp only at h
  split_ifs at h
  split at h
  · cases h
  · exact some.inj h ▸ store _ _ _
  · exact some.inj h ▸ store _ _ _
  · exact some.inj h ▸ (store _ _ _).trans (store _ _ _)

theorem recoverSlots {tx : AsyncTx} {faila failb dataTarget : Nat}
    (h : recoverSlots tx sh faila failb dataTarget = some sh') : PagesOnly sh sh' := by
  unfold Stripe.recoverSlots at h
  dsimp only at h
  split_ifs at h
  · exact asyncGenSyndrome h
  · obtain ⟨sh1, hxor, hgen⟩ := bind_eq_some_iff.mp h
    exact (asyncXor hxor).trans (asyncGenSyndrome hgen)
  · unfold asyncRaid6DatapRecov at h
    dsimp only at h
    split at h
    · exact some.inj h ▸ (store _ _ _).trans (store _ _ _)
    · cases h
  · unfold asyncRaid6TwoDataRecov at h
    dsimp only at h
    split at h
    · exact some.inj h ▸ (store _ _ _).trans (store _ _ _)
    · cases h

theorem opsRunCompute6Two {tx : AsyncTx} (h : opsRunCompute6Two tx sh = some sh') :
    PagesOnly sh sh' := by
  unfold Stripe.opsRunCompute6Two at h
  dsimp only at h
  rw [ite_none_left_eq_some, ite_none_left_eq_some] at h
  obtain ⟨-, -, h⟩ := h
  split at h
  · rw [ite_none_left_eq_some] at h
    split_ifs at h
    all_goals exact recoverSlots h.2
  · cases h

end PagesOnly

/-! ## What the devices determine -/

/-- A consistent stripe of an array the offload routines can handle. -/
structure Parity (conf : SyncConf) (sh0 : StripeHead) : Prop where
  parityIdx : ParityIdx conf.level sh0.toStripeHead
  consistent : Consistent conf.level sh0
  disks : 2 ≤ sh0.disks
  disks6 : conf.level = .raid6 → 4 ≤ sh0.disks
  maxDisks6 : conf.level = .raid6 → syndromeDisks sh0.toStripeHead + 2 ≤ conf.tx.maxDisks
  maxDisks : conf.tx.maxDisks ≤ 255

/-- The stripe the devices determine when those in `failed` are left out. -/
structure Target (conf : SyncConf) (disk : Nat → Page) (failed : Finset Nat)
    (sh0 : StripeHead) : Prop extends Parity conf sh0 where
  failed_lt : ∀ i ∈ failed, i < sh0.disks
  degraded : failed.card ≤ conf.level.maxDegraded
  data : ∀ i ∈ sh0.dataDevs, i ∉ failed → sh0.dataPage i = disk i
  p : (∃ i ∈ failed, i ∈ sh0.dataDevs) → sh0.pd ∉ failed → sh0.dataPage sh0.pd = disk sh0.pd
  q : conf.level = .raid6 → failed.card = 2 → sh0.qd ∉ failed → sh0.dataPage sh0.qd = disk sh0.qd

/-- What a block up to date holds before any repair. -/
def view (disk : Nat → Page) (failed : Finset Nat) (sh0 : StripeHead) (i : Nat) : Page :=
  if i ∈ failed then sh0.dataPage i else disk i

/-- A stripe with the pages given. -/
def StripeHead.holding (sh : StripeHead) (pages : Nat → Page) : StripeHead :=
  { sh with dev := fun i => (sh.dev i).setPage (pages i) }

theorem holding_dataPage (sh : StripeHead) (pages : Nat → Page) (i : Nat) :
    (sh.holding pages).dataPage i = pages i := R5dev.setPage_page _ _

section Target

variable {conf : SyncConf} {disk : Nat → Page} {failed : Finset Nat} {sh0 : StripeHead}

/-- A device of level 6 holds data, `P` or `Q`. -/
theorem ParityIdx.device {level : Level} {sh : Geometry.StripeHead} (h : ParityIdx level sh)
    {i : Nat} (hi : i < sh.disks) : i ∈ sh.dataDevs ∨ i = sh.pd ∨ level = .raid6 ∧ i = sh.qd := by
  by_cases hl : level = .raid6
  · have hp := (h.validPQ hl).pd_cast
    have hq := (h.validPQ hl).qd_cast
    rw [mem_dataDevs, isParity_eq_false]
    by_cases hip : i = sh.pd
    · exact .inr (.inl hip)
    · by_cases hiq : i = sh.qd
      · exact .inr (.inr ⟨hl, hiq⟩)
      · exact .inl ⟨hi, by omega, by omega⟩
  · rw [h.mem_dataDevs_iff hl]
    omega

section

variable (h : Target conf disk failed sh0)
include h

theorem Target.view_data {i : Nat} (hi : i ∈ sh0.dataDevs) :
    view disk failed sh0 i = sh0.dataPage i := by
  unfold view
  split_ifs with hf
  · rfl
  · exact (h.data i hi hf).symm

/-- Where `P` need not be the right one, no other block than `Q` is lost. -/
theorem Target.view_p (hne : view disk failed sh0 sh0.pd ≠ sh0.dataPage sh0.pd) :
    ∀ i ∈ failed, conf.level = .raid6 ∧ i = sh0.qd := by
  unfold view at hne
  split_ifs at hne with hf
  · exact absurd rfl hne
  · intro i hi
    rcases h.parityIdx.device (h.failed_lt i hi) with hd | rfl | hq
    · exact absurd (h.p ⟨i, hi, hd⟩ hf).symm hne
    · exact absurd hi hf
    · exact hq

theorem Target.view_q (hl : conf.level = .raid6)
    (hne : view disk failed sh0 sh0.qd ≠ sh0.dataPage sh0.qd) :
    sh0.qd ∉ failed ∧ failed.card ≠ 2 := by
  unfold view at hne
  split_ifs at hne with hf
  · exact absurd rfl hne
  · exact ⟨hf, fun hc => hne (h.q hl hc hf).symm⟩

/-- With two blocks lost the others are those of the stripe. -/
theorem Target.view_of_two (hc : failed.card = 2) {i : Nat}
    (hi : i < sh0.disks) : view disk failed sh0 i = sh0.dataPage i := by
  rcases h.parityIdx.device hi with hd | rfl | ⟨hl, rfl⟩
  · exact h.view_data hd
  · by_contra hne
    have hsub : failed ⊆ {sh0.qd} := fun j hj => mem_singleton.mpr (h.view_p hne j hj).2
    have := card_le_card hsub
    rw [card_singleton] at this
    omega
  · by_contra hne
    exact (h.view_q hl hne).2 hc

end

end Target

/-! ## There is such a stripe -/

section Exists

variable {conf : SyncConf} {disk : Nat → Page} {failed : Finset Nat} {sh : StripeHead}

/-- The pages with the parity of the data in the parity blocks. -/
def withParity (level : Level) (sh : StripeHead) (pages : Nat → Page) (i : Nat) : Page :=
  if i = sh.pd then wsum sh.dataDevs (fun _ => (1 : GF256)) pages
  else if level = .raid6 ∧ i = sh.qd then wsum sh.dataDevs (coefQ sh.toStripeHead) pages
  else pages i

theorem withParity_data {level : Level} (h : ParityIdx level sh.toStripeHead) (pages : Nat → Page)
    {i : Nat} (hi : i ∈ sh.dataDevs) : withParity level sh pages i = pages i := by
  have hp : i ≠ sh.pd := fun hp => h.pd_not_data (hp ▸ hi)
  have hq : ¬ (level = .raid6 ∧ i = sh.qd) := fun hq => (h.validPQ hq.1).qd_not_data (hq.2 ▸ hi)
  rw [withParity, if_neg hp, if_neg hq]

theorem withParity_p (level : Level) (pages : Nat → Page) :
    withParity level sh pages sh.pd = wsum sh.dataDevs (fun _ => (1 : GF256)) pages := if_pos rfl

theorem withParity_q (h : ValidPQ sh.toStripeHead) (pages : Nat → Page) :
    withParity .raid6 sh pages sh.qd = wsum sh.dataDevs (coefQ sh.toStripeHead) pages := by
  unfold withParity
  rw [if_neg h.pd_ne.symm, if_pos ⟨rfl, rfl⟩]

theorem withParity_consistent {level : Level} (h : ParityIdx level sh.toStripeHead)
    (pages : Nat → Page) : Consistent level (sh.holding (withParity level sh pages)) where
  p := by
    rw [holding_dataPage]
    refine (withParity_p level pages).trans (wsum_congr fun i hi => ?_)
    rw [holding_dataPage, withParity_data h pages hi]
  q hl := by
    subst hl
    rw [holding_dataPage]
    refine (withParity_q (h.validPQ rfl) pages).trans (wsum_congr fun i hi => ?_)
    rw [holding_dataPage, withParity_data h pages hi]

/-- Data that agree with the surviving devices, and with the parity blocks that are used. -/
structure Fits (conf : SyncConf) (disk : Nat → Page) (failed : Finset Nat) (sh : StripeHead)
    (pages : Nat → Page) : Prop where
  data : ∀ i ∈ sh.dataDevs, i ∉ failed → pages i = disk i
  p : (∃ i ∈ failed, i ∈ sh.dataDevs) → sh.pd ∉ failed →
    wsum sh.dataDevs (fun _ => (1 : GF256)) pages = disk sh.pd
  q : conf.level = .raid6 → failed.card = 2 → sh.qd ∉ failed →
    wsum sh.dataDevs (coefQ sh.toStripeHead) pages = disk sh.qd

theorem coefQ_ne {sh : Geometry.StripeHead} (h : ValidPQ sh) (hmax : syndromeDisks sh + 2 ≤ 255)
    {i j : Nat} (hi : i ∈ sh.dataDevs) (hj : j ∈ sh.dataDevs) (hne : i ≠ j) :
    coefQ sh i ≠ coefQ sh j := by
  intro heq
  have hslot := alpha_pow_inj (by have := slotOf_data_lt sh h hi; omega)
    (by have := slotOf_data_lt sh h hj; omega) heq
  exact hne (slotOf_injOn sh h (mem_dataDevs.mp hi).1
    (mem_dataDevs.mp hj).1 hslot)

/-- A data block from `P`. -/
theorem fits_one (hidx : ParityIdx conf.level sh.toStripeHead) (hlt : ∀ i ∈ failed, i < sh.disks)
    {a : Nat} (had : a ∈ sh.dataDevs) (haf : a ∈ failed) (hp : sh.pd ∉ failed)
    (honly : ∀ b ∈ failed, b ∈ sh.dataDevs → b = a) : Fits conf disk failed sh (update disk a
      (solveOne sh.dataDevs (fun _ => (1 : GF256)) disk a (disk sh.pd))) where
  data i _ hif := update_of_ne (ne_of_mem_of_not_mem haf hif).symm _ _
  p _ _ := wsum_solveOne _ _ disk had one_ne_zero _
  q _ hc hq := by
    have hsub : failed ⊆ {a} := fun i hi => by
      rcases hidx.device (hlt i hi) with hd | rfl | ⟨-, rfl⟩
      · exact mem_singleton.mpr (honly i hi hd)
      · exact absurd hi hp
      · exact absurd hi hq
    have := card_le_card hsub
    rw [card_singleton] at this
    omega

/-- A data block from `Q`, with `P` lost as well. -/
theorem fits_datap {a : Nat} (had : a ∈ sh.dataDevs) (haf : a ∈ failed) (hp : sh.pd ∈ failed) :
    Fits conf disk failed sh (update disk a
      (solveOne sh.dataDevs (coefQ sh.toStripeHead) disk a (disk sh.qd))) where
  data i _ hif := update_of_ne (ne_of_mem_of_not_mem haf hif).symm _ _
  p _ hnot := absurd hp hnot
  q _ _ _ := by
    have hcoef : coefQ sh.toStripeHead a ≠ 0 := pow_ne_zero _ alpha_ne_zero
    exact wsum_solveOne _ _ disk had hcoef _

section

variable (hidx : ParityIdx conf.level sh.toStripeHead)
  (hmax : conf.level = .raid6 → syndromeDisks sh.toStripeHead + 2 ≤ 255)
include hidx hmax

/-- Two data blocks from `P` and `Q`. -/
theorem fits_two {a b : Nat} (haf : a ∈ failed)
    (had : a ∈ sh.dataDevs) (hbf : b ∈ failed) (hbd : b ∈ sh.dataDevs) (hab : a ≠ b) :
    Fits conf disk failed sh (update (update disk a
        (solveTwo sh.dataDevs (coefQ sh.toStripeHead) disk a b (disk sh.pd) (disk sh.qd)).1) b
      (solveTwo sh.dataDevs (coefQ sh.toStripeHead) disk a b (disk sh.pd) (disk sh.qd)).2) where
  data i _ hif := by
    rw [update_of_ne (ne_of_mem_of_not_mem hbf hif).symm, update_of_ne
      (ne_of_mem_of_not_mem haf hif).symm]
  p _ _ := by
    rw [wsum_one]
    exact solveTwo_plain hab had hbd
  q hl _ _ := solveTwo_weighted hab had hbd
    (.inl (coefQ_ne (hidx.validPQ hl) (hmax hl) had hbd hab))

theorem exists_fits
    (hlt : ∀ i ∈ failed, i < sh.disks) : ∃ pages, Fits conf disk failed sh pages := by
  by_cases hsome : ∃ a ∈ failed, a ∈ sh.dataDevs
  · obtain ⟨a, haf, had⟩ := hsome
    by_cases htwo : ∃ b ∈ failed, b ∈ sh.dataDevs ∧ b ≠ a
    · obtain ⟨b, hbf, hbd, hba⟩ := htwo
      exact ⟨_, fits_two hidx hmax haf had hbf hbd hba.symm⟩
    · have honly : ∀ b ∈ failed, b ∈ sh.dataDevs → b = a := fun b hbf hbd => by
        by_contra hba
        exact htwo ⟨b, hbf, hbd, hba⟩
      by_cases hp : sh.pd ∈ failed
      · exact ⟨_, fits_datap had haf hp⟩
      · exact ⟨_, fits_one hidx hlt had haf hp honly⟩
  · exact ⟨disk, fun _ _ _ => rfl, fun h => absurd h hsome, fun hl hc hq => by
      have hsub : failed ⊆ {sh.pd} := fun i hi => mem_singleton.mpr
        (((hidx.device (hlt i hi)).resolve_left fun hd => hsome ⟨i, hi, hd⟩).resolve_right
          fun h => hq (h.2 ▸ hi))
      have := card_le_card hsub
      rw [card_singleton] at this
      omega⟩

end

/-- **The devices determine a stripe.** Whatever they hold and whichever of them have failed, as
long as the level can do without these. -/
theorem exists_target (hidx : ParityIdx conf.level sh.toStripeHead) (hdisks : 2 ≤ sh.disks)
    (hdisks6 : conf.level = .raid6 → 4 ≤ sh.disks)
    (hmax6 : conf.level = .raid6 → syndromeDisks sh.toStripeHead + 2 ≤ conf.tx.maxDisks)
    (hmax : conf.tx.maxDisks ≤ 255) (hlt : ∀ i ∈ failed, i < sh.disks)
    (hdeg : failed.card ≤ conf.level.maxDegraded) :
    ∃ sh0, sh0.toStripeHead = sh.toStripeHead ∧ Target conf disk failed sh0 := by
  obtain ⟨pages, hfits⟩ : ∃ pages, Fits conf disk failed sh pages :=
    exists_fits hidx (fun hl => (hmax6 hl).trans hmax) hlt
  refine ⟨sh.holding (withParity conf.level sh pages), rfl,
    { parityIdx := hidx, consistent := withParity_consistent hidx pages, disks := hdisks
      disks6 := hdisks6, maxDisks6 := hmax6, maxDisks := hmax, failed_lt := hlt
      degraded := hdeg, data := fun i hi hf => ?_, p := fun hsome hp => ?_
      q := fun hl hc hq => ?_ }⟩
  · rw [holding_dataPage, withParity_data hidx pages hi, hfits.data i hi hf]
  · rw [holding_dataPage]
    exact (withParity_p _ pages).trans (hfits.p hsome hp)
  · rw [holding_dataPage, hl]
    exact (withParity_q (hidx.validPQ hl) pages).trans (hfits.q hl hc hq)

end Exists

/-! ## What the computations bring back -/

section Compute

variable {conf : SyncConf} {sh0 sh : StripeHead} {lost : Nat → Prop}

section

variable (h : Parity conf sh0)
include h

theorem Parity.sum_eq_zero (hl : conf.level ≠ .raid6) :
    ∑ i ∈ range sh0.disks, sh0.dataPage i = 0 := by
  have hdevs : range sh0.disks = insert sh0.pd sh0.dataDevs := by
    ext i
    have hlt := h.parityIdx.pd_lt_disks
    rw [mem_insert, h.parityIdx.mem_dataDevs_iff hl, mem_range]
    omega
  rw [hdevs, sum_insert h.parityIdx.pd_not_data, h.consistent.p, wsum_one, add_self GF256]

/-- Level 5 adds up all other blocks. -/
theorem Parity.opsRunCompute5 (hl : conf.level ≠ .raid6)
    (hd : Damaged sh0 sh lost) (hlone : sh.batchHead = false) {t : Nat} (ht : t < sh0.disks)
    (htgt : sh.target = t) (hwant : (sh.dev t).flags.wantcompute) (hlost : ∀ i, lost i → i = t) :
    opsRunCompute5 conf.tx sh = some (sh.store (.page t) (sh0.dataPage t)) := by
  have hfilter : (range sh.disks).filter (fun i => decide (i = t) = false) =
      (range sh0.disks).erase t := by
    ext i
    rw [hd.geometry, mem_filter, mem_erase, decide_eq_false_iff_not, and_comm]
  have hne : pagesBut sh (fun i => decide (i = t)) ≠ [] := by
    refine List.ne_nil_of_length_pos ?_
    have := h.disks
    rw [length_pagesBut, hfilter, Finset.card_erase_of_mem (Finset.mem_range.mpr ht),
      Finset.card_range]
    omega
  unfold Stripe.opsRunCompute5
  simp only [htgt, Int.toNat_natCast, hlone, hwant, Bool.not_true, Bool.or_self,
    Bool.false_eq_true, if_false]
  rw [xorOrCopy_zeroDst _ _ _ hne, sum_pagesBut, hfilter,
    hd.sum_erase (mem_range.mpr ht) (fun i hi => mem_range.mp hi)
      (h.sum_eq_zero hl) fun i _ hi => hlost i hi]

/-- One block computed; on level 6 the blocks that are not used may be any. -/
theorem Parity.compute_one (hd : Damaged sh0 sh lost) (hj : NoJournal sh)
    (hlone : sh.batchHead = false) {t : Nat} (ht : t < sh0.disks) (htgt : sh.target = t)
    (htgt2 : sh.target2 = -1) (hwant : (sh.dev t).flags.wantcompute) (hlost : ∀ i, lost i →
      i = t ∨ conf.level = .raid6 ∧ (i = sh0.qd ∨ t = sh0.qd ∧ i = sh0.pd)) :
    raidRunCompute conf.tx conf.level sh = some (sh.store (.page t) (sh0.dataPage t)) := by
  unfold raidRunCompute
  by_cases hl : conf.level = .raid6
  · have hc := h.consistent
    rw [hl] at hc
    rw [if_pos hl, if_pos (.inl (by omega))]
    exact opsRunCompute6One_eq (h.parityIdx.validPQ hl) hc hd conf.tx (h.maxDisks6 hl) hj
      (h.disks6 hl) hlone ht htgt htgt2 hwant fun i hi => (hlost i hi).imp_right And.right
  · rw [if_neg hl]
    exact h.opsRunCompute5 hl hd hlone ht htgt hwant fun i hi =>
      (hlost i hi).resolve_right fun hq => hl hq.1

/-- Two blocks of level 6 computed. -/
theorem Parity.compute_two (hl : conf.level = .raid6)
    (hd : Damaged sh0 sh lost) (hj : NoJournal sh) (hlone : sh.batchHead = false) {t t2 : Nat}
    (ht : t < sh0.disks) (ht2 : t2 < sh0.disks) (hne : t ≠ t2) (htgt : sh.target = t)
    (htgt2 : sh.target2 = t2) (hwant : (sh.dev t).flags.wantcompute)
    (hwant2 : (sh.dev t2).flags.wantcompute) (hlost : ∀ i, lost i → i = t ∨ i = t2) :
    ∃ sh', raidRunCompute conf.tx conf.level sh = some sh' ∧ PagesOnly sh sh' ∧
      ∀ i < sh0.disks, sh'.dataPage i = sh0.dataPage i := by
  have hc := h.consistent
  rw [hl] at hc
  obtain ⟨sh', hrun, hres⟩ := opsRunCompute6Two_restores (h.parityIdx.validPQ hl) hc hd conf.tx
    h.maxDisks (h.maxDisks6 hl) hj (h.disks6 hl) hlone ht ht2 hne htgt htgt2 hwant hwant2 hlost
  refine ⟨sh', ?_, .opsRunCompute6Two hrun, fun i hi => hres.page i hi fun hf => hf⟩
  unfold raidRunCompute
  rw [if_pos hl, if_neg (by omega)]
  exact hrun

end

end Compute

/-! ## What the checks find -/

section Check

variable {conf : SyncConf} {sh0 sh : StripeHead}

theorem pageIsZero_iff {p : Page} : pageIsZero p ↔ p = 0 := by
  rw [pageIsZero, List.all_eq_true]
  refine ⟨fun h => funext fun i => of_decide_eq_true (h i (List.mem_finRange i)), ?_⟩
  rintro rfl i _
  exact decide_eq_true rfl

/-- The check of `P` destroys it, and finds whether it was the right one. -/
theorem Parity.opsRunCheckP (h : Parity conf sh0) (hgeo : sh.toStripeHead = sh0.toStripeHead)
    (hlone : sh.batchHead = false)
    (hdata : ∀ i ∈ sh0.dataDevs, sh.dataPage i = sh0.dataPage i) (hsome : sh0.dataDevs.Nonempty) :
    opsRunCheckP conf.tx sh = some
      (sh.store (.page sh0.pd) (sh.dataPage sh0.pd + sh0.dataPage sh0.pd),
        decide (sh.dataPage sh0.pd ≠ sh0.dataPage sh0.pd)) := by
  have hfilter : (range sh.disks).filter (fun i => sh.isParity i = false) = sh0.dataDevs := by
    rw [hgeo]
    rfl
  have hsum : ((pagesBut sh sh.isParity).map sh.load).sum = sh0.dataPage sh0.pd := by
    rw [sum_pagesBut, hfilter, h.consistent.p, wsum_one]
    exact sum_congr rfl hdata
  have hlen : ¬ (PagePtr.page sh.pd :: pagesBut sh sh.isParity).length ≤ 1 := by
    have := hsome.card_pos
    rw [List.length_cons, length_pagesBut, hfilter]
    omega
  unfold Stripe.opsRunCheckP asyncXor
  rw [hlone, if_neg (by simp), if_neg hlen]
  dsimp only [List.tail_cons, map_some]
  rw [conf.tx.xorBlocks_eq, List.sum_cons]
  have hpage : ∀ p, (sh.store (.page sh0.pd) p).dataPage sh0.pd = p := fun p => by
    rw [dataPage, store_page_dev_self, R5dev.setPage_page]
  rw [hsum, hgeo, hpage]
  have hiff : sh.load (.page sh0.pd) + sh0.dataPage sh0.pd = 0 ↔
      sh.dataPage sh0.pd = sh0.dataPage sh0.pd := by
    refine ⟨fun hz => ?_, fun he => ?_⟩
    · rw [← add_zero (sh.dataPage _), ← add_self GF256 (sh0.dataPage sh0.pd), ← add_assoc]
      exact (congrArg (· + sh0.dataPage sh0.pd) hz).trans (zero_add _)
    · rw [load_page]
      exact (congrArg (· + sh0.dataPage sh0.pd) he).trans (add_self GF256 _)
  have hbit : (!pageIsZero (sh.load (.page sh0.pd) + sh0.dataPage sh0.pd)) =
      decide (sh.dataPage sh0.pd ≠ sh0.dataPage sh0.pd) := by
    rw [Bool.eq_iff_iff, Bool.not_eq_true', ← Bool.not_eq_true, pageIsZero_iff, hiff,
      decide_eq_true_iff]
  rw [hbit]
  rfl

/-- The check by syndromes leaves the pages alone. -/
theorem Parity.opsRunCheckPQ (h : Parity conf sh0) (hl : conf.level = .raid6)
    (hgeo : sh.toStripeHead = sh0.toStripeHead) (hj : NoJournal sh) (hlone : sh.batchHead = false)
    (hdata : ∀ i ∈ sh0.dataDevs, sh.dataPage i = sh0.dataPage i) (checkp : Bool) :
    opsRunCheckPQ conf.tx sh checkp =
      some (checkp && decide (sh.dataPage sh0.pd ≠ sh0.dataPage sh0.pd),
        decide (sh.dataPage sh0.qd ≠ sh0.dataPage sh0.qd)) := by
  have hpq : ValidPQ sh.toStripeHead := by rw [hgeo]; exact h.parityIdx.validPQ hl
  have hpd := setSyndromeSources_pd hpq hj .all
  have hqd := setSyndromeSources_qd hpq hj .all
  have hp := wsum_setSyndromeSources hpq hj fun _ => 1
  have hq := wsum_setSyndromeSources hpq hj (alpha ^ ·)
  have hdevs : sh.dataDevs = sh0.dataDevs := by rw [hgeo]
  rw [hdevs, wsum_congr hdata, ← h.consistent.p, hgeo] at hp
  have hcoef : (fun i => alpha ^ slotOf sh.toStripeHead i) = coefQ sh0.toStripeHead := by
    rw [hgeo]
    rfl
  rw [hdevs, wsum_congr hdata, hcoef, ← h.consistent.q hl, hgeo] at hq
  rw [hgeo] at hpd hqd
  have hfour : 4 ≤ syndromeDisks sh0.toStripeHead + 2 := by
    have := h.disks6 hl
    unfold syndromeDisks
    split_ifs <;> omega
  have hmax := h.maxDisks6 hl
  unfold Stripe.opsRunCheckPQ asyncSyndromeVal
  dsimp only
  rw [hlone, if_neg (by simp), hgeo, if_neg (by omega)]
  cases checkp with
  | true =>
    simp only [Nat.add_sub_cancel, if_true, hpd, hqd, any_some, conf.tx.genSyndrome_eq,
      hp, hq, Bool.true_and]
    rfl
  | false =>
    simp only [Nat.add_sub_cancel, Bool.false_eq_true, if_false, update_self,
      any_none, conf.tx.genSyndrome_eq, wsum_slotPage_update, hq, Bool.false_and]
    rw [update_of_ne (by omega), hqd, any_some]
    refine congrArg some (Prod.ext rfl ?_)
    rw [Bool.eq_iff_iff, decide_eq_true_iff, decide_eq_true_iff]
    rfl

end Check

end MdRaid.Stripe
