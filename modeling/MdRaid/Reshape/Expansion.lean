import MdRaid.Reshape.Sources
import MdRaid.Geometry.Blocks

/-!
# Copying the blocks of one step

The new stripes of a step start with the blocks beyond the old array zeroed. Handling an
old stripe copies each of its blocks into the new stripe it belongs to, if that is being
expanded and does not have the block yet. A new stripe is ready when all its data blocks
are there.

A page is a value of any type with a zero. The cache holds the stripes with
`STRIPE_EXPANDING`, by sector; another stripe head, or none, is the same to the copy.
-/

namespace MdRaid.Reshape

open MdRaid.Geometry Function List Mddev StripeHead Nat

variable {α : Type*} [Zero α] {m : Mddev}

/-! ## Definitions -/

structure ExpandDev (α : Type*) where
  page : α
  /-- `R5_Expanded` -/
  expanded : Bool

structure NewStripe (α : Type*) where
  sh : StripeHead
  dev : Nat → ExpandDev α
  /-- `STRIPE_EXPAND_READY` -/
  expandReady : Bool

abbrev StripeCache (α : Type*) := Nat → Option (NewStripe α)

namespace Mddev

variable (m)

/-- The block is beyond the end of the old array, as `reshape_request` sees it. -/
def beyondOld (sh : StripeHead) (j : Nat) : Bool :=
  !sh.isParity j && decide (m.raid5Size ≤ raid5ComputeBlocknr m.conf sh j false)

/-- A new stripe, with what its pages held. -/
def expandStripe (sh : StripeHead) (page : Nat → α) : NewStripe α where
  sh := sh
  dev := fun j => if j < sh.disks ∧ m.beyondOld sh j = true then ⟨0, true⟩ else ⟨page j, false⟩
  expandReady := (range sh.disks).all fun j => sh.isParity j || m.beyondOld sh j

/-- The stripes of the step are in the cache. -/
def cacheStripes (a : Nat) (page : Nat → Nat → α) (cache : StripeCache α) : StripeCache α :=
  fun sector =>
    if sector ∈ m.newStripes a then
      (initStripe m.conf sector false).map fun sh => m.expandStripe sh (page sector)
    else cache sector

/-- All data blocks of the stripe are there. -/
def allExpanded (st : NewStripe α) : Bool :=
  (range m.conf.raidDisks).all fun j => st.sh.isParity j || (st.dev j).expanded

def fill (st : NewStripe α) (i : Nat) (page : α) : NewStripe α :=
  let filled := { st with dev := update st.dev i ⟨page, true⟩ }
  { filled with expandReady := st.expandReady || m.allExpanded filled }

/-- The copy of device `i` of the old stripe `sh`. -/
def expandBlock (sh : StripeHead) (page : Nat → α) (cache : StripeCache α) (i : Nat) :
    StripeCache α :=
  match raid5ComputeSector m.conf (raid5ComputeBlocknr m.conf sh i true) false with
  | none => cache
  | some t =>
    match cache t.newSector with
    | none => cache
    | some sh2 =>
      if (sh2.dev t.ddIdx.toNat).expanded then cache
      else update cache t.newSector (some (m.fill sh2 t.ddIdx.toNat (page i)))

def handleStripeExpansion (sh : StripeHead) (page : Nat → α) (cache : StripeCache α) :
    StripeCache α :=
  (range sh.disks).foldl
    (fun cache i => if sh.isParity i then cache else m.expandBlock sh page cache i) cache

/-- The old stripe at `sector` is handled; `content` is what the devices hold. -/
def expandSource (content : Nat → Nat → α) (cache : StripeCache α) (sector : Nat) : StripeCache α :=
  match initStripe m.conf sector true with
  | none => cache
  | some sh => m.handleStripeExpansion sh (fun i => content i sector) cache

/-- What the logical block `b` holds in the old geometry. -/
def oldContent (content : Nat → Nat → α) (b : Nat) : Option α :=
  (raid5ComputeSector m.conf b true).map fun t => content t.ddIdx.toNat t.newSector

end Mddev

/-- What the step from `a` on has to do. -/
structure StepCopies (α : Type*) [Zero α] (m : Mddev) (a : Nat) : Prop where
  /-- The old places of the blocks below the old size are marked. -/
  covers : ∀ sector ∈ m.newStripes a, ∀ sh, initStripe m.conf sector false = some sh →
    ∀ j ∈ sh.dataDevs, raid5ComputeBlocknr m.conf sh j false < m.oldSize →
      ∀ t, raid5ComputeSector m.conf (raid5ComputeBlocknr m.conf sh j false) true = some t →
        t.newSector ∈ m.sources a
  /-- Handling all marked stripes fills every data page. -/
  fills : ∀ (content page : Nat → Nat → α) (cache : StripeCache α) (handled : List Nat),
    (∀ o, o ∈ handled ↔ o ∈ m.sources a) → ∀ sector ∈ m.newStripes a,
      ∃ st, handled.foldl (m.expandSource content) (m.cacheStripes a page cache) sector = some st ∧
        initStripe m.conf sector false = some st.sh ∧
        ∀ j ∈ st.sh.dataDevs, (st.dev j).expanded = true ∧
          some (st.dev j).page =
            if raid5ComputeBlocknr m.conf st.sh j false < m.oldSize then
              m.oldContent content (raid5ComputeBlocknr m.conf st.sh j false)
            else some 0
  /-- At any time a stripe is ready exactly when its data pages are filled. -/
  ready : ∀ (content page : Nat → Nat → α) (cache : StripeCache α) (handled : List Nat),
    (∀ o ∈ handled, o ∈ m.sources a) → ∀ sector ∈ m.newStripes a,
      ∃ st, handled.foldl (m.expandSource content) (m.cacheStripes a page cache) sector = some st ∧
        (st.expandReady = true ↔ ∀ j ∈ st.sh.dataDevs, (st.dev j).expanded = true)

/-! ## Blocks and places -/

theorem newStripe_lt {a sector : Nat} (hv : Valid m) (hs : sector ∈ m.newStripes a) :
    sector < a + m.reshapeSectors := ((mem_newStripes hv).mp hs).2.1

section

variable (hv : Valid m) {a : Nat} (ha : m.reshapeSectors ∣ a) (halt : a < m.devSectors)
include hv ha halt

/-- The blocks of a new stripe. -/
theorem exists_newBlock {sector : Nat} (hs : sector ∈ m.newStripes a) :
    ∃ sh, initStripe m.conf sector false = some sh ∧ ∀ j ∈ sh.dataDevs, ∃ r < 2 ^ 64,
      raid5ComputeSector m.conf r false = some ⟨sector, j, sh.idx⟩ ∧
      raid5ComputeBlocknr m.conf sh j false = r := by
  have hdvd : m.conf.sectorsPerChunk false ∣ a + m.reshapeSectors :=
    dvd_add (hv.chunk_dvd.1.trans ha) hv.chunk_dvd.1
  obtain ⟨sh, hinit, hdata⟩ := exists_block hv.new hdvd (hv.new_lt halt) (newStripe_lt hv hs)
  refine ⟨sh, hinit, fun j hj => ?_⟩
  obtain ⟨r, hr, hcomp, hblock⟩ := hdata j hj
  exact ⟨r, hr.trans (hv.new_lt halt), hcomp, hblock⟩

theorem source_lt {o : Nat} (ho : o ∈ m.sources a) : o < m.devSectors := by
  obtain ⟨first, last, hrange, -, -⟩ := sourceRange_eq hv ha halt
  rw [sources, hrange] at ho
  obtain ⟨i, hi, rfl⟩ := mem_map.mp ho
  rw [mem_range, lt_div_iff_mul_lt (by decide)] at hi
  unfold stripeSectors at *
  omega

end

/-- The blocks of a marked stripe. -/
theorem exists_oldBlock (hv : Valid m) {o : Nat} (ho : o < m.devSectors) :
    ∃ sh, initStripe m.conf o true = some sh ∧ ∀ i ∈ sh.dataDevs, ∃ r < 2 ^ 64,
      raid5ComputeSector m.conf r true = some ⟨o, i, sh.idx⟩ ∧
      raid5ComputeBlocknr m.conf sh i true = r := by
  obtain ⟨sh, hinit, hdata⟩ := exists_block hv.old hv.whole hv.old_lt ho
  refine ⟨sh, hinit, fun i hi => ?_⟩
  obtain ⟨r, hr, hcomp, hblock⟩ := hdata i hi
  exact ⟨r, hr.trans hv.old_lt, hcomp, hblock⟩

/-! ## One new stripe -/

section Filling

variable {content : Nat → Nat → α} {sh : StripeHead} {sector : Nat}

/-- The stripe is being filled: what is there is right, what is beyond the old array is there, and
the stripe is ready when all is there. -/
structure Filling (m : Mddev) (content : Nat → Nat → α) (sh : StripeHead) (st : NewStripe α) :
    Prop where
  head : st.sh = sh
  right : ∀ j ∈ sh.dataDevs, (st.dev j).expanded = true →
    some (st.dev j).page =
      if raid5ComputeBlocknr m.conf sh j false < m.raid5Size then
        m.oldContent content (raid5ComputeBlocknr m.conf sh j false)
      else some 0
  beyond : ∀ j ∈ sh.dataDevs, m.raid5Size ≤ raid5ComputeBlocknr m.conf sh j false →
    (st.dev j).expanded = true
  ready : st.expandReady = true ↔ ∀ j ∈ sh.dataDevs, (st.dev j).expanded = true

theorem filling_expandStripe (page : Nat → α) : Filling m content sh (m.expandStripe sh page) := by
  have hdev : ∀ j ∈ sh.dataDevs, (m.expandStripe sh page).dev j =
      if m.raid5Size ≤ raid5ComputeBlocknr m.conf sh j false then ⟨0, true⟩ else
        ⟨page j, false⟩ := by
    intro j hj
    obtain ⟨hlt, hpar⟩ := mem_dataDevs.mp hj
    simp only [expandStripe, beyondOld, hlt, hpar, true_and, Bool.not_false,
      Bool.true_and, decide_eq_true_eq]
  refine ⟨rfl, fun j hj hexp => ?_, fun j hj hge => ?_, ?_⟩
  · rw [hdev j hj] at hexp ⊢
    split_ifs at hexp ⊢ with hge hlt
    · omega
    · rfl
  · rw [hdev j hj, if_pos hge]
  · simp only [expandStripe, all_eq_true, mem_range, Bool.or_eq_true]
    constructor
    · intro hall j hj
      obtain ⟨hlt, hpar⟩ := mem_dataDevs.mp hj
      have hbeyond := (hall j hlt).resolve_left (by rw [hpar]; exact Bool.false_ne_true)
      rw [if_pos ⟨hlt, hbeyond⟩]
    · intro hall j hlt
      by_cases hpar : sh.isParity j
      · exact .inl hpar
      · have hexp := hall j (mem_dataDevs.mpr ⟨hlt, Bool.eq_false_iff.mpr hpar⟩)
        refine .inr ?_
        by_contra hnot
        rw [if_neg fun hb => hnot hb.2] at hexp
        cases hexp

theorem Filling.fill {st : NewStripe α} (h : Filling m content sh st)
    (hdisks : sh.disks = m.conf.raidDisks) {i : Nat} (hi : i ∈ sh.dataDevs)
    (hexp : (st.dev i).expanded = false) {page : α}
    (hpage : some page = m.oldContent content (raid5ComputeBlocknr m.conf sh i false)) :
    Filling m content sh (m.fill st i page) := by
  have hdev : ∀ j, (m.fill st i page).dev j = if j = i then ⟨page, true⟩ else st.dev j := by
    intro j
    show update st.dev i ⟨page, true⟩ j = _
    rw [update_apply]
  refine ⟨h.head, fun j hj hexp' => ?_, fun j hj hge => ?_, ?_⟩
  · rw [hdev] at hexp' ⊢
    by_cases hji : j = i
    · subst hji
      -- beyond the old array the block would be there
      have hlt : raid5ComputeBlocknr m.conf sh j false < m.raid5Size := by
        refine Nat.lt_of_not_le fun hge => ?_
        rw [h.beyond j hj hge] at hexp
        cases hexp
      rw [if_pos rfl, if_pos hlt]
      exact hpage
    · rw [if_neg hji] at hexp' ⊢
      exact h.right j hj hexp'
  · rw [hdev]
    split_ifs
    · rfl
    · exact h.beyond j hj hge
  · have hall : m.allExpanded { st with dev := update st.dev i ⟨page, true⟩ } = true ↔
        ∀ j ∈ sh.dataDevs, ((m.fill st i page).dev j).expanded := by
      simp only [allExpanded, all_eq_true, mem_range, Bool.or_eq_true, h.head, ← hdisks]
      constructor
      · intro hall j hj
        obtain ⟨hlt, hpar⟩ := mem_dataDevs.mp hj
        exact (hall j hlt).resolve_left (by rw [hpar]; exact Bool.false_ne_true)
      · intro hall j hlt
        by_cases hpar : sh.isParity j
        · exact .inl hpar
        · exact .inr (hall j (mem_dataDevs.mpr ⟨hlt, Bool.eq_false_iff.mpr hpar⟩))
    show (st.expandReady || _) ↔ _
    rw [Bool.or_eq_true, hall]
    refine ⟨fun hor => hor.elim (fun hready => ?_) id, .inr⟩
    have hi' := h.ready.mp hready i hi
    rw [hexp] at hi'
    cases hi'

end Filling

/-! ## The cache -/

section Cache

variable {content : Nat → Nat → α} {sh : StripeHead} {sector : Nat} {cache : StripeCache α}

variable {old : StripeHead} {t : Target}

omit [Zero α] in
/-- What the copy of one block does to the stripe at `sector`. -/
theorem expandBlock_apply {page : Nat → α} {i : Nat}
    (ht : raid5ComputeSector m.conf (raid5ComputeBlocknr m.conf old i true) false = some t)
    {st : NewStripe α} (hc : cache sector = some st) : m.expandBlock old page cache i sector =
      some (if t.newSector = sector ∧ (st.dev t.ddIdx.toNat).expanded = false then
        m.fill st t.ddIdx.toNat (page i) else st) := by
  unfold expandBlock
  rw [ht]
  by_cases heq : t.newSector = sector
  · subst heq
    simp only [hc, true_and]
    by_cases hexp : (st.dev t.ddIdx.toNat).expanded
    · rw [if_pos hexp, if_neg (by rw [hexp]; simp), hc]
    · rw [if_neg hexp, if_pos (Bool.eq_false_iff.mpr hexp), update_self]
  · rw [if_neg fun h => heq h.1]
    dsimp only
    cases hc2 : cache t.newSector with
    | none => exact hc
    | some sh2 =>
      dsimp only
      split_ifs
      · exact hc
      · rw [update_of_ne (Ne.symm heq), hc]

/-- The stripe at `sector` is being filled. -/
def FillingAt (m : Mddev) (content : Nat → Nat → α) (sh : StripeHead) (sector : Nat)
    (cache : StripeCache α) : Prop :=
  ∃ st, cache sector = some st ∧ Filling m content sh st

def ExpandedAt (sector j : Nat) (cache : StripeCache α) : Prop :=
  ∃ st, cache sector = some st ∧ (st.dev j).expanded = true

omit [Zero α] in
theorem ExpandedAt.expandBlock {j : Nat} (h : ExpandedAt sector j cache) {page : Nat → α} {i : Nat}
    (ht : raid5ComputeSector m.conf (raid5ComputeBlocknr m.conf old i true) false = some t) :
    ExpandedAt sector j (m.expandBlock old page cache i) := by
  obtain ⟨st, hc, hexp⟩ := h
  refine ⟨_, expandBlock_apply ht hc, ?_⟩
  split_ifs
  · show (update st.dev t.ddIdx.toNat ⟨page i, true⟩ j).expanded
    rw [update_apply]
    split_ifs
    · rfl
    · exact hexp
  · exact hexp

section

variable (h : FillingAt m content sh sector cache)
include h

/-- The block copied is there. -/
theorem FillingAt.expandedAt {page : Nat → α} {i : Nat}
    (ht : raid5ComputeSector m.conf (raid5ComputeBlocknr m.conf old i true) false = some t)
    (hsector : t.newSector = sector) :
    ExpandedAt sector t.ddIdx.toNat (m.expandBlock old page cache i) := by
  obtain ⟨st, hc, -⟩ := h
  refine ⟨_, expandBlock_apply ht hc, ?_⟩
  split_ifs with hcopy
  · show (update st.dev t.ddIdx.toNat ⟨page i, true⟩ t.ddIdx.toNat).expanded
    rw [update_self]
  · exact Bool.not_eq_false _ ▸ fun hexp => hcopy ⟨hsector, hexp⟩

section

variable (hv : Valid m) (hinit : initStripe m.conf sector false = some sh)
include hv hinit

/-- A block comes from its old place and goes to its new one. -/
theorem FillingAt.expandBlock {o i r : Nat}
    (hr : r < 2 ^ 64) (hold : raid5ComputeSector m.conf r true = some ⟨o, i, old.idx⟩)
    (hblock : raid5ComputeBlocknr m.conf old i true = r) :
    FillingAt m content sh sector (m.expandBlock old (fun i => content i o) cache i) := by
  obtain ⟨st, hc, hfill⟩ := h
  obtain ⟨t, sh', ht, hinit', -, hdata, hnew⟩ := exists_place hv.new hr
  have ht' : raid5ComputeSector m.conf (raid5ComputeBlocknr m.conf old i true) false = some t := by
    rw [hblock]
    exact ht
  refine ⟨_, expandBlock_apply ht' hc, ?_⟩
  split_ifs with hcopy
  · obtain rfl : sh' = sh := by
      rw [hcopy.1] at hinit'
      exact Option.some.inj (hinit'.symm.trans hinit)
    refine hfill.fill (initStripe_eq hinit).2 hdata hcopy.2 ?_
    rw [hnew, oldContent, hold]
    rfl
  · exact hfill

/-- Handling an old stripe keeps what the stripe at `sector` has. -/
theorem FillingAt.expandSource {o : Nat} (ho : o < m.devSectors) :
    FillingAt m content sh sector (m.expandSource content cache o) := by
  obtain ⟨old, hold, hdata⟩ := exists_oldBlock hv ho
  simp only [Mddev.expandSource, hold, Mddev.handleStripeExpansion]
  refine List.foldlRecOn _ _ h fun cache hfill i hi => ?_
  split_ifs with hpar
  · exact hfill
  · obtain ⟨r, hr, hcomp, hblock⟩ := hdata i
      (mem_dataDevs.mpr ⟨List.mem_range.mp hi, Bool.eq_false_iff.mpr hpar⟩)
    exact hfill.expandBlock hv hinit hr hcomp hblock

end

end

omit [Zero α] in
theorem ExpandedAt.expandSource {j : Nat} (h : ExpandedAt sector j cache) (hv : Valid m) {o : Nat}
    (ho : o < m.devSectors) : ExpandedAt sector j (m.expandSource content cache o) := by
  obtain ⟨old, hold, hdata⟩ := exists_oldBlock hv ho
  simp only [Mddev.expandSource, hold, Mddev.handleStripeExpansion]
  refine List.foldlRecOn _ _ h fun cache hexp i hi => ?_
  split_ifs with hpar
  · exact hexp
  · obtain ⟨r, hr, -, hblock⟩ := hdata i
      (mem_dataDevs.mpr ⟨List.mem_range.mp hi, Bool.eq_false_iff.mpr hpar⟩)
    obtain ⟨t, -, ht, -⟩ := exists_place hv.new hr
    exact hexp.expandBlock (hblock ▸ ht)

/-- Handling the old stripe of a block brings the block to the stripe at `sector`. -/
theorem FillingAt.expandedAt_source (h : FillingAt m content sh sector cache) (hv : Valid m)
    (hinit : initStripe m.conf sector false = some sh) {r j : Nat} (hr : r < 2 ^ 64)
    (hnew : raid5ComputeSector m.conf r false = some ⟨sector, j, sh.idx⟩)
    (ht : raid5ComputeSector m.conf r true = some t) (ho : t.newSector < m.devSectors) :
    ExpandedAt sector j (m.expandSource content cache t.newSector) := by
  obtain ⟨t', old, ht', hold, hcast, hmem, hblock⟩ := exists_place hv.old hr
  obtain rfl := Option.some.inj (ht.symm.trans ht')
  obtain ⟨old', hold', hdata⟩ := exists_oldBlock hv ho
  obtain rfl := Option.some.inj (hold.symm.trans hold')
  obtain ⟨hlt, hpar⟩ := mem_dataDevs.mp hmem
  have hdata' : ∀ i ∈ range old.disks, old.isParity i = false → ∃ r < 2 ^ 64,
      raid5ComputeSector m.conf r true = some ⟨t.newSector, i, old.idx⟩ ∧
      raid5ComputeBlocknr m.conf old i true = r := fun i hi hpar =>
    hdata i (mem_dataDevs.mpr ⟨List.mem_range.mp hi, hpar⟩)
  simp only [Mddev.expandSource, hold, Mddev.handleStripeExpansion]
  refine Loops.foldl_of_mem (I := FillingAt m content sh sector) (List.mem_range.mpr hlt) h
    (fun cache i hi hfill => ?_) (fun cache hfill => ?_) fun cache i hi hfill hexp => ?_
  · split_ifs with hpar'
    · exact hfill
    · obtain ⟨r', hr', hcomp, hblock'⟩ := hdata' i hi (Bool.eq_false_iff.mpr hpar')
      exact hfill.expandBlock hv hinit hr' hcomp hblock'
  · rw [if_neg (by rw [hpar]; exact Bool.false_ne_true)]
    exact hfill.expandedAt (hblock ▸ hnew) rfl
  · split_ifs with hpar'
    · exact hexp
    · obtain ⟨r', hr', -, hblock'⟩ := hdata' i hi (Bool.eq_false_iff.mpr hpar')
      obtain ⟨t', -, ht', -⟩ := exists_place hv.new hr'
      exact hexp.expandBlock (hblock' ▸ ht')

end Cache

/-! ## The whole step -/

section Step

variable {a : Nat} (hv : Valid m) (ha : m.reshapeSectors ∣ a) (halt : a < m.devSectors)
include hv ha halt

/-- The new stripe of a block of the stretch is one of the step. -/
theorem newStripe_of_block {r : Nat} (hlow : a * m.newDataDisks ≤ r)
    (hhigh : r < (a + m.reshapeSectors) * m.newDataDisks) (h8 : stripeSectors ∣ r) {t : Target}
    (ht : raid5ComputeSector m.conf r false = some t) : t.newSector ∈ m.newStripes a := by
  have hc : 0 < m.conf.chunkSectors := hv.new.chunk_pos
  have hs8 : stripeSectors ∣ m.conf.chunkSectors := hv.new.stripe_dvd
  have hca : m.conf.chunkSectors ∣ a := hv.chunk_dvd.1.trans ha
  have hnd := hv.newDataDisks_pos
  have hfit : r < 2 ^ 64 := hhigh.trans (hv.new_lt halt)
  have hsector : t.newSector = r / m.conf.chunkSectors / m.newDataDisks * m.conf.chunkSectors +
      r % m.conf.chunkSectors := by
    rw [raid5ComputeSector_newSector ht, sectorT_row hfit]
    rfl
  obtain ⟨hrow, hrow'⟩ := row_bounds (r := r) hc hnd
  rw [← hsector] at hrow hrow'
  have hle : a ≤ t.newSector := by
    by_contra hlt
    have hnext := (chunk_between hc (dvd_zero _) hca (Nat.zero_le _) (Nat.lt_of_not_le hlt)).2
    have := mul_le_mul_right m.newDataDisks hnext
    omega
  have hlt : t.newSector < a + m.reshapeSectors := by
    by_contra hge
    have hchunk : (a + m.reshapeSectors) / m.conf.chunkSectors * m.conf.chunkSectors =
        a + m.reshapeSectors := Nat.div_mul_cancel (Nat.dvd_add hca hv.chunk_dvd.1)
    have hmono := Nat.mul_le_mul_right m.conf.chunkSectors
      (Nat.div_le_div_right (c := m.conf.chunkSectors) (Nat.le_of_not_lt hge))
    rw [hchunk] at hmono
    have := mul_le_mul_right m.newDataDisks hmono
    omega
  refine (mem_newStripes hv).mpr ⟨hle, hlt, dvd_sub ?_ (hs8.trans hca)⟩
  rw [hsector]
  exact dvd_add (hs8.mul_left _) ((dvd_mod_iff hs8).mpr h8)

section

variable {sector : Nat} (hs : sector ∈ m.newStripes a) {sh : StripeHead}
  (hinit : initStripe m.conf sector false = some sh) (content page : Nat → Nat → α)
  (cache : StripeCache α) {handled : List Nat}
include hs hinit content page cache

theorem fillingAt_handled (hhandled : ∀ o ∈ handled, o ∈ m.sources a) :
    FillingAt m content sh sector
      (handled.foldl (m.expandSource content) (m.cacheStripes a page cache)) := by
  refine foldlRecOn _ _ ⟨m.expandStripe sh (page sector), ?_, filling_expandStripe _⟩
    fun cache hfill o ho => hfill.expandSource hv hinit (source_lt hv ha halt (hhandled o ho))
  rw [cacheStripes, if_pos hs, hinit, Option.map_some]

/-- After all marked stripes have been handled the stripe has all its blocks. -/
theorem expanded_handled (hhandled : ∀ o, o ∈ handled ↔ o ∈ m.sources a)
    {j : Nat} (hj : j ∈ sh.dataDevs) :
    ExpandedAt sector j (handled.foldl (m.expandSource content) (m.cacheStripes a page cache)) := by
  obtain ⟨sh', hinit', hdata⟩ := exists_newBlock hv ha halt hs
  obtain rfl := Option.some.inj (hinit.symm.trans hinit')
  obtain ⟨r, hr, hnew, hblock⟩ := hdata j hj
  have hstart : FillingAt m content sh sector (m.cacheStripes a page cache) :=
    fillingAt_handled hv ha halt hs hinit content page cache fun o (ho : o ∈ []) => (by cases ho)
  have hdev : ∀ o ∈ handled, o < m.devSectors := fun o ho =>
    source_lt hv ha halt ((hhandled o).mp ho)
  rcases lt_or_ge r m.raid5Size with hlt | hge
  · -- its old stripe is one of those handled
    obtain ⟨hlow, hhigh, h8⟩ := block_of_newStripe hv ha hr hs hnew rfl
    have hold : r < m.oldSize := by
      refine hlt.trans_le ?_
      rw [hv.raid5Size_eq]
      exact Nat.mul_le_mul (roundDown_le _ _) (min_le_right _ _)
    obtain ⟨t, -, ht, -⟩ := exists_place hv.old hr
    have hmem := (hhandled t.newSector).mpr (mem_sources hv ha halt hlow hhigh h8 hold ht)
    exact Loops.foldl_of_mem (I := FillingAt m content sh sector) hmem hstart
      (fun cache o ho hfill => hfill.expandSource hv hinit (hdev o ho))
      (fun cache hfill => hfill.expandedAt_source hv hinit hr hnew ht (hdev _ hmem))
      fun cache o ho _ hexp => hexp.expandSource hv (hdev o ho)
  · obtain ⟨st, hst, hfill⟩ := fillingAt_handled hv ha halt hs hinit content page cache
      fun o ho => (hhandled o).mp ho
    exact ⟨st, hst, hfill.beyond j hj (by rw [hblock]; exact hge)⟩

end

/-- No block of the step is taken to be beyond the old array when it is not. -/
theorem stepCopies_of_le (hle : min m.oldSize ((a + m.reshapeSectors) * m.newDataDisks) ≤
    max m.raid5Size (a * m.newDataDisks)) : StepCopies α m a where
  covers := by
    intro sector hs sh hinit j hj hlt t ht
    obtain ⟨sh', hinit', hdata⟩ := exists_newBlock hv ha halt hs
    obtain rfl := Option.some.inj (hinit.symm.trans hinit')
    obtain ⟨r, hr, hnew, hblock⟩ := hdata j hj
    obtain ⟨hlow, hhigh, h8⟩ := block_of_newStripe hv ha hr hs hnew rfl
    rw [hblock] at hlt ht
    exact mem_sources hv ha halt hlow hhigh h8 hlt ht
  fills := by
    intro content page cache handled hhandled sector hs
    obtain ⟨sh, hinit, hdata⟩ := exists_newBlock hv ha halt hs
    obtain ⟨st, hst, hfill⟩ := fillingAt_handled hv ha halt hs hinit content page cache
      fun o ho => (hhandled o).mp ho
    refine ⟨st, hst, hfill.head ▸ hinit, fun j hj => ?_⟩
    rw [hfill.head] at hj ⊢
    obtain ⟨st', hst', hexp⟩ := expanded_handled hv ha halt hs hinit content page cache hhandled hj
    obtain rfl := Option.some.inj (hst.symm.trans hst')
    refine ⟨hexp, (hfill.right j hj hexp).trans ?_⟩
    obtain ⟨r, hr, hnew, hblock⟩ := hdata j hj
    obtain ⟨hlow, hhigh, -⟩ := block_of_newStripe hv ha hr hs hnew rfl
    have hsame : r < m.raid5Size ↔ r < m.oldSize := by
      refine ⟨fun hlt => hlt.trans_le ?_, fun hlt => ?_⟩
      · rw [hv.raid5Size_eq]
        exact Nat.mul_le_mul (roundDown_le _ _) (min_le_right _ _)
      · have := lt_min hlt hhigh
        omega
    simp only [hblock, hsame]
  ready := by
    intro content page cache handled hhandled sector hs
    obtain ⟨sh, hinit, -⟩ := exists_newBlock hv ha halt hs
    obtain ⟨st, hst, hfill⟩ := fillingAt_handled hv ha halt hs hinit content page cache hhandled
    exact ⟨st, hst, by rw [hfill.head]; exact hfill.ready⟩

/-- A block below the old size that is taken to be beyond it is zeroed. -/
theorem le_of_stepCopies [Nontrivial α] (h : StepCopies α m a) :
    min m.oldSize ((a + m.reshapeSectors) * m.newDataDisks) ≤
      max m.raid5Size (a * m.newDataDisks) := by
  by_contra hgt
  push Not at hgt
  generalize hr : max m.raid5Size (a * m.newDataDisks) = r at hgt
  have hlow : a * m.newDataDisks ≤ r := hr ▸ le_max_right _ _
  have hge : m.raid5Size ≤ r := hr ▸ le_max_left _ _
  obtain ⟨hold, hhigh⟩ := lt_min_iff.mp hgt
  have h8 : stripeSectors ∣ r := by
    have hs8 : stripeSectors ∣ m.reshapeSectors := hv.new.stripe_dvd.trans hv.chunk_dvd.1
    have hsize : stripeSectors ∣ m.raid5Size := by
      rw [hv.raid5Size_eq]
      exact (hs8.trans (dvd_roundDown _ _)).mul_right _
    rw [← hr]
    rcases max_choice m.raid5Size (a * m.newDataDisks) with hmax | hmax
    · rw [hmax]
      exact hsize
    · rw [hmax]
      exact (hs8.trans ha).mul_right _
  have hfit : r < 2 ^ 64 := hhigh.trans (hv.new_lt halt)
  obtain ⟨t, sh, ht, hinit, -, hj, hblock⟩ := exists_place hv.new hfit
  have hs := newStripe_of_block hv ha halt hlow hhigh h8 ht
  obtain ⟨x, hx⟩ := exists_ne (0 : α)
  have hhandled : ∀ o, o ∈ m.sources a ↔ o ∈ m.sources a := fun _ => Iff.rfl
  obtain ⟨st, hst, -, hall⟩ := h.fills (fun _ _ => x) (fun _ _ => x) (fun _ => none) _ hhandled _ hs
  obtain ⟨st', hst', hfill⟩ := fillingAt_handled hv ha halt hs hinit (fun _ _ => x) (fun _ _ => x)
    (fun _ => none) fun o ho => (hhandled o).mp ho
  obtain rfl := Option.some.inj (hst.symm.trans hst')
  rw [hfill.head] at hall
  obtain ⟨hexp, hpage⟩ := hall _ hj
  have hzero := hfill.right _ hj hexp
  rw [hblock, if_neg (not_lt.mpr hge)] at hzero
  rw [hblock, if_pos hold] at hpage
  obtain ⟨t', -, ht', -⟩ := exists_place hv.old hfit
  rw [oldContent, ht', Option.map_some, hzero] at hpage
  exact hx (Option.some.inj hpage).symm

end Step

/-- **The reshape copies exactly the right blocks, up to the size it takes the old array to have.**
Whenever stripes are about to be scheduled from `a` on, the step does what it has to if and only
if none of its blocks is below the old size and not below `raid5_size`. -/
theorem reshape_copies_iff (α : Type*) [Zero α] [Nontrivial α] (m : Mddev) (hv : Valid m)
    (s s' : Mddev.State) (hstart : m.Starts s) (es : List Mddev.Event)
    (hrun : Runs.run m.step s es = some s') (a : Nat) (hstage : s'.stage = .schedule a) :
    StepCopies α m a ↔ min m.oldSize ((a + m.reshapeSectors) * m.newDataDisks) ≤
      max m.raid5Size (a * m.newDataDisks) := by
  have hdue := (aligned_run hv hstart hrun).due a (by rw [hstage]; rfl)
  exact ⟨le_of_stepCopies hv hdue.aligned hdue.lt, stepCopies_of_le hv hdue.aligned hdue.lt⟩

/-- Three disks with chunks of 4 KiB become five with chunks of 8 KiB. -/
def growArray (devSectors : Nat) : Mddev :=
  ⟨⟨.raid5, 2, 2, 16, 8, 5, 3⟩, devSectors, false, 0, fun _ => 2048, fun _ => 2048⟩

theorem reshape_copies_grow :
    ∃ s, Runs.run (growArray 32).step (growArray 32).startReshape [.enter false false] = some s ∧
      s.stage = .schedule 0 ∧ StepCopies Nat (growArray 32) 0 := by
  have hv : Valid (growArray 32) := ⟨⟨rfl, by decide⟩, ⟨rfl, by decide⟩, by decide, by decide⟩
  exact ⟨_, rfl, rfl, (reshape_copies_iff Nat (growArray 32) hv _ _ .start
    [.enter false false] rfl 0
    rfl).mpr (by decide)⟩

/-- The devices hold three of the old chunks, one and a half of the new ones. Block 32 is in the
array, and `reshape_request` zeroes it. -/
theorem growArray_zeroes_old_block : 32 < (growArray 24).oldSize ∧
    (∃ s, Runs.run (growArray 24).step (growArray 24).startReshape [.enter false false] = some s ∧
      s.stage = .schedule 0) ∧ 0 ∈ (growArray 24).newStripes 0 ∧
    (initStripe (growArray 24).conf 0 false).map (fun sh =>
      (raid5ComputeBlocknr (growArray 24).conf sh 2 false,
        (((growArray 24).expandStripe sh fun _ => 1).dev 2).page,
        (((growArray 24).expandStripe sh fun _ => 1).dev 2).expanded)) = some (32, 0, true) ∧
    ¬ StepCopies Nat (growArray 24) 0 := by
  have hv : Valid (growArray 24) := ⟨⟨rfl, by decide⟩, ⟨rfl, by decide⟩, by decide, by decide⟩
  refine ⟨by decide, ⟨_, rfl, rfl⟩, by decide, by decide, fun h => ?_⟩
  exact absurd (le_of_stepCopies hv (by decide) (by decide) h) (by decide)

end MdRaid.Reshape
