import MdRaid.Stripe.WriteOps

/-!
# What the parity operations compute

Each operation in terms of sums over data devices. A page of a stripe is a vector
over the bytes, so parity is a plain sum of pages and `Q` is a sum weighted with
the powers of the generator given by the slots.
-/

namespace MdRaid.Stripe

open MdRaid.Geometry Loops Syndrome GF256 Finset StripeHead
open Geometry.StripeHead (mem_dataDevs isParity_eq_false isParity_eq_true)

/-! ## Loads and stores -/

namespace StripeHead

variable (sh : StripeHead) (i : Nat) (p : Page)

@[simp] theorem store_geometry (ptr : PagePtr) :
    (sh.store ptr p).toStripeHead = sh.toStripeHead := by
  cases ptr <;> rfl

@[simp] theorem store_reconstructState (ptr : PagePtr) :
    (sh.store ptr p).reconstructState = sh.reconstructState := by
  cases ptr <;> rfl

@[simp] theorem store_page_dev_self : (sh.store (.page i) p).dev i = (sh.dev i).setPage p := by
  simp [store]

theorem store_page_dev_of_ne {j : Nat} (h : j ≠ i) : (sh.store (.page i) p).dev j = sh.dev j :=
  sh.modifyDev_dev_of_ne i (fun dev => dev.setPage p) h

@[simp] theorem load_page : sh.load (.page i) = (sh.dev i).page := rfl

end StripeHead

/-! ## Blocks by slot -/

/-- The blocks a walk sets up when `sel` says what is entered for each device. -/
structure BlocksOf (sh : StripeHead) (sel : Nat → Option PagePtr) (blocks : Blocks) : Prop where
  at_slot : ∀ i < sh.disks, blocks (slotOf sh.toStripeHead i) = sel i
  elsewhere : ∀ s, (∀ i < sh.disks, slotOf sh.toStripeHead i ≠ s) → blocks s = none

/-- What the data devices contribute under a selection. -/
def selPage (sh : StripeHead) (sel : Nat → Option PagePtr) (i : Nat) : Page :=
  (sel i).elim 0 sh.load

theorem BlocksOf.wsum_slotPage {sh : StripeHead} {sel : Nat → Option PagePtr} {blocks : Blocks}
    (hb : BlocksOf sh sel blocks) (h : ValidPQ sh.toStripeHead) (c : Nat → GF256) :
    wsum (range (syndromeDisks sh.toStripeHead)) c (slotPage sh blocks) =
      wsum sh.dataDevs (fun i => c (slotOf sh.toStripeHead i)) (selPage sh sel) := by
  have hlt : ∀ i ∈ sh.dataDevs, i < sh.disks := fun i hi =>
    mem_range.mp (mem_filter.mp hi).1
  have hsub : sh.dataDevs.image (slotOf sh.toStripeHead) ⊆ range
    (syndromeDisks sh.toStripeHead) := by
    intro s hs
    obtain ⟨i, hi, rfl⟩ := mem_image.mp hs
    exact mem_range.mpr (slotOf_data_lt sh.toStripeHead h hi)
  have hinj : Set.InjOn (slotOf sh.toStripeHead) sh.dataDevs := fun i hi j hj hij =>
    slotOf_injOn sh.toStripeHead h (hlt i hi) (hlt j hj) hij
  unfold wsum
  rw [← sum_subset hsub, sum_image hinj]
  · refine sum_congr rfl fun i hi => ?_
    rw [slotPage, hb.at_slot i (hlt i hi), selPage]
  · -- a slot below `syndrome_disks` that no data device has is a hole
    intro s hs hnot
    have hnone : blocks s = none := by
      refine hb.elsewhere s fun i hi hslot => ?_
      rw [mem_range] at hs
      cases hpar : sh.isParity i with
      | false =>
        refine hnot (mem_image.mpr ⟨i, ?_, hslot⟩)
        exact mem_filter.mpr ⟨mem_range.mpr hi, hpar⟩
      | true =>
        rcases mem_slotWalk sh.toStripeHead h (slotOf_mem sh.toStripeHead h hi) with hp | hq | hd
        · have := hp.2
          omega
        · have := hq.2.2
          omega
        · rw [hpar] at hd
          cases hd.1
    rw [slotPage, hnone, Option.elim_none, smul_zero]

theorem blocksOf_walk (sh : StripeHead) (h : ValidPQ sh.toStripeHead) (sel : Nat → Bool)
    (ptr : Nat → PagePtr) :
    BlocksOf sh (fun i => if sel i then some (ptr i) else none)
      (writeAll (fun e => sel e.1) Prod.snd (fun e => some (ptr e.1)) (slotWalk sh.toStripeHead)
        fun _ => none) where
  at_slot i hi := by
    have hmem := slotOf_mem sh.toStripeHead h hi
    have hnd := slotWalk_snd_nodup sh.toStripeHead h
    by_cases hs : sel i
    · rw [if_pos hs]
      exact writeAll_of_mem (e := (i, slotOf sh.toStripeHead i)) hnd hmem hs
    · rw [if_neg hs]
      refine writeAll_of_not_mem fun e he hse hkey => hs ?_
      have heq := List.inj_on_of_nodup_map hnd he hmem hkey
      rw [heq] at hse
      exact hse
  elsewhere s hs := by
    refine writeAll_of_not_mem fun e he _ hkey => ?_
    have hlt : e.1 < sh.disks := List.mem_range.mp
      ((slotWalk_fst_perm sh.toStripeHead h).mem_iff.mp (List.mem_map_of_mem he))
    have heq : e.2 = slotOf sh.toStripeHead e.1 := by
      have hfst : ((slotWalk sh.toStripeHead).map Prod.fst).Nodup :=
        (slotWalk_fst_perm sh.toStripeHead h).nodup_iff.mpr List.nodup_range
      exact congrArg Prod.snd (List.inj_on_of_nodup_map hfst he
        (slotOf_mem sh.toStripeHead h hlt) rfl)
    exact hs e.1 hlt (heq ▸ hkey)

theorem blocksOf_setSyndromeSources (sh : StripeHead) (h : ValidPQ sh.toStripeHead)
    (srctype : SyndromeSrc) :
    BlocksOf sh (fun i => if srcSelected sh srctype i then some (srcPtr sh i) else none)
      (setSyndromeSources sh srctype) :=
  blocksOf_walk sh h _ _

/-! ## Exclusive or -/

theorem xorOrCopy_dropDst (tx : AsyncTx) (sh : StripeHead) (dest : PagePtr) (rest : List PagePtr) :
    xorOrCopy tx sh .dropDst dest (dest :: rest) =
      some (sh.store dest (sh.load dest + (rest.map sh.load).sum)) := by
  cases rest with
  | nil => simp [xorOrCopy, asyncMemcpy]
  | cons src rest => simp [xorOrCopy, asyncXor, tx.xorBlocks_eq]

theorem xorOrCopy_zeroDst (tx : AsyncTx) (sh : StripeHead) (dest : PagePtr)
    {srcs : List PagePtr} (h : srcs ≠ []) :
    xorOrCopy tx sh .zeroDst dest srcs = some (sh.store dest (srcs.map sh.load).sum) := by
  match srcs, h with
  | [src], _ => simp [xorOrCopy, asyncMemcpy]
  | src :: src' :: rest, _ => simp [xorOrCopy, asyncXor, tx.xorBlocks_eq]

/-- The sum of the pages a descending loop collects. -/
theorem sum_load_down (sh : StripeHead) (p : Nat → Bool) : (((down sh.disks).filterMap fun i =>
        if p i then some (PagePtr.page i) else none).map sh.load).sum =
      ∑ i ∈ range sh.disks, if p i then (sh.dev i).page else 0 := by
  rw [sum_filterMap_down]
  refine sum_congr rfl fun i _ => ?_
  by_cases hp : p i = true <;> simp [hp]

/-! ## Consistent stripes -/

/-- The parity positions of a stripe of the given level. -/
structure ParityIdx (level : Level) (sh : Geometry.StripeHead) : Prop where
  pd_nonneg : 0 ≤ sh.idx.pdIdx
  pd_lt : sh.idx.pdIdx < sh.disks
  validPQ : level = .raid6 → ValidPQ sh
  no_qd : level ≠ .raid6 → sh.idx.qdIdx = -1

/-- The coefficient of a data device in `Q`. -/
def coefQ (sh : Geometry.StripeHead) (i : Nat) : GF256 := alpha ^ slotOf sh i

def StripeHead.dataPage (sh : StripeHead) (i : Nat) : Page := (sh.dev i).page

/-- The parity pages hold the parity of the data pages. -/
structure Consistent (level : Level) (sh : StripeHead) : Prop where
  p : sh.dataPage sh.pd = wsum sh.dataDevs (fun _ => (1 : GF256)) sh.dataPage
  q : level = .raid6 → sh.dataPage sh.qd = wsum sh.dataDevs (coefQ sh.toStripeHead) sh.dataPage

/-- No device of the stripe is held by a journal. -/
def NoJournal (sh : StripeHead) : Prop := ∀ i < sh.disks, (sh.dev i).flags.inJournal = false

/-- Both parity pages written. -/
def setPQ (sh : StripeHead) (p q : Page) : StripeHead :=
  (sh.store (.page sh.pd) p).store (.page sh.qd) q

section ParityIdx

variable {level : Level} {sh : Geometry.StripeHead} (h : ParityIdx level sh)
include h

theorem ParityIdx.pd_cast : ((sh.pd : Nat) : Int) = sh.idx.pdIdx :=
  Int.toNat_of_nonneg h.pd_nonneg

theorem ParityIdx.pd_lt_disks : sh.pd < sh.disks := by
  have := h.pd_cast
  have := h.pd_lt
  omega

theorem ParityIdx.pd_not_data : sh.pd ∉ sh.dataDevs := fun hmem =>
  (isParity_eq_false.mp (mem_dataDevs.mp hmem).2).1 h.pd_cast

/-- Without `Q` every device but one holds data. -/
theorem ParityIdx.mem_dataDevs_iff (hl : level ≠ .raid6) {i : Nat} :
    i ∈ sh.dataDevs ↔ i < sh.disks ∧ i ≠ sh.pd := by
  have hq := h.no_qd hl
  have hp := h.pd_cast
  rw [mem_dataDevs, isParity_eq_false, hq]
  omega

end ParityIdx

/-! ## Syndromes -/

section

variable {sh : StripeHead}

theorem srcPtr_eq (hj : NoJournal sh) {i : Nat} (hi : i < sh.disks) : srcPtr sh i = .page i := by
  rw [srcPtr, hj i hi]
  rfl

theorem srcSelected_of_parity {i : Nat} (hp : sh.isParity i)
    (srctype : SyndromeSrc) : srcSelected sh srctype i := by
  simp [srcSelected, hp]

/-- `async_gen_syndrome` on blocks that hold the two parity pages. -/
theorem BlocksOf.asyncGenSyndrome {sel : Nat → Option PagePtr}
    {blocks : Blocks} (hb : BlocksOf sh sel blocks) (h : ValidPQ sh.toStripeHead)
    (hp : sel sh.pd = some (.page sh.pd)) (hq : sel sh.qd = some (.page sh.qd)) (tx : AsyncTx)
    (xorDst : Bool) (hmax : syndromeDisks sh.toStripeHead + 2 ≤ tx.maxDisks) :
    asyncGenSyndrome tx sh blocks (syndromeDisks sh.toStripeHead + 2) xorDst = some (setPQ sh
        ((if xorDst then sh.dataPage sh.pd else 0) +
          wsum sh.dataDevs (fun _ => (1 : GF256)) (selPage sh sel))
        ((if xorDst then sh.dataPage sh.qd else 0) +
          wsum sh.dataDevs (coefQ sh.toStripeHead) (selPage sh sel))) := by
  have hpd := (hb.at_slot sh.pd h.pd_lt_disks).trans hp
  have hqd := (hb.at_slot sh.qd h.qd_lt_disks).trans hq
  rw [slotOf_pd _ h] at hpd
  rw [slotOf_qd _ h] at hqd
  unfold Stripe.asyncGenSyndrome
  simp only [Nat.add_sub_cancel]
  rw [if_neg (by omega), hpd, hqd]
  simp only [syndromeInto, tx.genSyndrome_eq, hb.wsum_slotPage h]
  rfl

/-- `async_gen_syndrome` on the blocks of `set_syndrome_sources`. -/
theorem asyncGenSyndrome_sources (h : ValidPQ sh.toStripeHead)
    (hj : NoJournal sh) (tx : AsyncTx) (srctype : SyndromeSrc) (xorDst : Bool)
    (hmax : syndromeDisks sh.toStripeHead + 2 ≤ tx.maxDisks) :
    asyncGenSyndrome tx sh (setSyndromeSources sh srctype) (syndromeDisks sh.toStripeHead + 2)
        xorDst = some (setPQ sh
        ((if xorDst then sh.dataPage sh.pd else 0) + wsum sh.dataDevs (fun _ => (1 : GF256))
          (fun i => if srcSelected sh srctype i then sh.dataPage i else 0))
        ((if xorDst then sh.dataPage sh.qd else 0) + wsum sh.dataDevs (coefQ sh.toStripeHead)
          (fun i => if srcSelected sh srctype i then sh.dataPage i else 0))) := by
  have hparity : ∀ i < sh.disks, sh.isParity i →
      (if srcSelected sh srctype i then some (srcPtr sh i) else none) = some (.page i) := by
    intro i hi hpar
    rw [srcSelected_of_parity hpar, if_pos rfl, srcPtr_eq hj hi]
  have hsel : ∀ g : Nat → GF256, wsum sh.dataDevs g (selPage sh fun i =>
        if srcSelected sh srctype i then some (srcPtr sh i) else none) =
      wsum sh.dataDevs g (fun i => if srcSelected sh srctype i then sh.dataPage i else 0) := by
    intro g
    refine wsum_congr fun i hi => ?_
    rw [selPage, srcPtr_eq hj (mem_dataDevs.mp hi).1]
    by_cases hs : srcSelected sh srctype i = true <;> simp [hs, dataPage]
  rw [(blocksOf_setSyndromeSources sh h srctype).asyncGenSyndrome h
    (hparity _ h.pd_lt_disks (isParity_eq_true.mpr (.inl h.pd_cast)))
    (hparity _ h.qd_lt_disks (isParity_eq_true.mpr (.inr h.qd_cast)))
    tx xorDst hmax, hsel, hsel]

end

section Sources

variable {sh : StripeHead} (h : ValidPQ sh.toStripeHead) (hj : NoJournal sh)
include h hj

theorem setSyndromeSources_parity {i : Nat} (hi : i < sh.disks) (hpar : sh.isParity i)
    (srctype : SyndromeSrc) :
    setSyndromeSources sh srctype (slotOf sh.toStripeHead i) = some (.page i) := by
  rw [(blocksOf_setSyndromeSources sh h srctype).at_slot i hi, srcSelected_of_parity hpar,
    if_pos rfl, srcPtr_eq hj hi]

theorem setSyndromeSources_pd (srctype : SyndromeSrc) :
    setSyndromeSources sh srctype (syndromeDisks sh.toStripeHead) = some (.page sh.pd) := by
  rw [← slotOf_pd _ h]
  exact setSyndromeSources_parity h hj h.pd_lt_disks
    (isParity_eq_true.mpr (.inl h.pd_cast)) srctype

theorem setSyndromeSources_qd (srctype : SyndromeSrc) :
    setSyndromeSources sh srctype (syndromeDisks sh.toStripeHead + 1) = some (.page sh.qd) := by
  rw [← slotOf_qd _ h]
  exact setSyndromeSources_parity h hj h.qd_lt_disks
    (isParity_eq_true.mpr (.inr h.qd_cast)) srctype

/-- The sum over the slots of all sources is one over the data devices. -/
theorem wsum_setSyndromeSources (c : Nat → GF256) : wsum (range (syndromeDisks sh.toStripeHead)) c
        (slotPage sh (setSyndromeSources sh .all)) =
      wsum sh.dataDevs (fun i => c (slotOf sh.toStripeHead i)) sh.dataPage := by
  rw [(blocksOf_setSyndromeSources sh h .all).wsum_slotPage h]
  refine wsum_congr fun i hi => ?_
  rw [selPage, srcSelected, Bool.or_true, if_pos rfl,
    srcPtr_eq hj (mem_dataDevs.mp hi).1]
  rfl

end Sources

/-- A parity slot left out of the blocks does not change the sum over the data slots. -/
theorem wsum_slotPage_update (sh : StripeHead) (blocks : Blocks) (k : Nat) (c : Nat → GF256) :
    wsum (range k) c (slotPage sh (Function.update blocks k none)) =
      wsum (range k) c (slotPage sh blocks) := by
  refine wsum_congr fun s hs => ?_
  rw [slotPage, slotPage, Function.update_of_ne (mem_range.mp hs).ne]

/-! ## Pages after the parity pages are written -/

section SetPQ

variable (sh : StripeHead) (p q : Page)

@[simp] theorem setPQ_geometry : (setPQ sh p q).toStripeHead = sh.toStripeHead := by
  simp [setPQ]

@[simp] theorem setPQ_reconstructState : (setPQ sh p q).reconstructState = sh.reconstructState := by
  simp [setPQ]

theorem setPQ_dev_of_ne {i : Nat} (hp : i ≠ sh.pd) (hq : i ≠ sh.qd) :
    (setPQ sh p q).dev i = sh.dev i := by
  rw [setPQ, store_page_dev_of_ne _ _ _ hq, store_page_dev_of_ne _ _ _ hp]

theorem setPQ_page_pd (hne : sh.pd ≠ sh.qd) : (setPQ sh p q).dataPage sh.pd = p := by
  rw [dataPage, setPQ, store_page_dev_of_ne _ _ _ hne,
    store_page_dev_self, R5dev.setPage_page]

theorem setPQ_page_qd : (setPQ sh p q).dataPage sh.qd = q := by
  rw [dataPage, setPQ, store_page_dev_self, R5dev.setPage_page]

end SetPQ

end MdRaid.Stripe
