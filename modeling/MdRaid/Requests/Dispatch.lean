import MdRaid.Requests.Discard
import MdRaid.Lib.Runs

/-!
# Dispatch of a request to its stripes

`raid5_make_request` keeps one bit for every page of the bio (`sectors_to_do`) and visits
stripes until no bit is left. A visit attaches the bio to every data page of the stripe that
lies in the request and clears their bits, so one visit takes pages of several chunks. The
loop starts at the sector `raid5_bio_lowest_chunk_sector` picks, goes on to the next bit that
is still set, and wraps at the end of the request.

A visit that cannot attach the bio (an overlap, a change of geometry) attaches nothing and
is made again: `STRIPE_RETRY`. There is no reshape here, so `STRIPE_SCHEDULE_AND_RETRY` does
not occur. `STRIPE_FAIL` ends the loop early.
-/

namespace MdRaid.Requests.Dispatch

open MdRaid.Geometry Runs List Nat

/-! ## Definitions -/

/-- A read or a write with data. -/
structure Bio where
  biSector : Nat
  /-- `bio_sectors` -/
  sectors : Nat
  sectors_pos : 0 < sectors
deriving DecidableEq

/-- `bio_end_sector`: `ctx.last_sector`. -/
def Bio.endSector (bi : Bio) : Nat := bi.biSector + bi.sectors

/-- `ctx.first_sector`. -/
def Bio.firstSector (bi : Bio) : Nat := stripeStart bi.biSector

/-- `stripe_cnt`. -/
def Bio.stripeCnt (bi : Bio) : Nat :=
  divRoundUpSectorT (bi.endSector - bi.firstSector) stripeSectors

/-- The logical sector of bit `k` of `sectors_to_do`. -/
def Bio.sectorOf (bi : Bio) (k : Nat) : Nat := bi.firstSector + k * stripeSectors

/-- `RAID5_MAX_REQ_STRIPES`. -/
def raid5MaxReqStripes : Nat := 256

/-- `lim.max_hw_sectors`. -/
def maxHwSectors : Nat := raid5MaxReqStripes * stripeSectors

/-- `while (dd_idx == pd_idx || dd_idx == qd_idx) dd_idx++`: there are at most two parity
devices to step over. -/
def skipParity (idx : StripeIdx) (ddIdx : Int) : Int :=
  if ddIdx = idx.pdIdx ∨ ddIdx = idx.qdIdx then
    if ddIdx + 1 = idx.pdIdx ∨ ddIdx + 1 = idx.qdIdx then ddIdx + 2 else ddIdx + 1
  else ddIdx

def raid5BioLowestChunkSector (conf : Conf) (bi : Bio) : Option Nat :=
  let rSector := stripeStart bi.biSector
  (raid5ComputeSector conf rSector false).map fun t =>
    let chunkOffset := t.newSector % conf.chunkSectors
    if bi.sectors ≤ conf.chunkSectors - chunkOffset then rSector
    -- the bio crosses to the next data disk
    else if (conf.raidDisks : Int) ≤ skipParity t.idx (t.ddIdx + 1) then rSector
    else rSector + (conf.chunkSectors - chunkOffset)

def findNextBit (bits : Nat → Bool) (size offset : Nat) : Nat :=
  ((range' offset (size - offset)).find? bits).getD size

def findNextBitWrap (bits : Nat → Bool) (size offset : Nat) : Nat :=
  let bit := findNextBit bits size offset
  if bit < size then bit
  else
    let bit := findNextBit bits offset 0
    if bit < offset then bit else size

inductive Phase where
  | running
  /-- The loop ended with no bit left. -/
  | ended
  /-- `STRIPE_FAIL`. -/
  | failed
deriving DecidableEq, Repr

/-- The `stripe_request_ctx` and the variables of `raid5_make_request`, and what its calls did. -/
structure Ctx where
  sectorsToDo : Nat → Bool
  s : Nat
  logicalSector : Nat
  attached : List Page
  /-- The calls of `bio_inc_remaining`. -/
  incRemaining : Nat
  /-- The bits of `sectors_to_do` that were set, cleared or searched from. -/
  used : List Nat
  phase : Phase

section

variable (conf : Conf) (bi : Bio)

/-- `make_stripe_request` gets the stripe of a logical sector. -/
def stripeAt (logicalSector : Nat) : Option StripeHead :=
  (raid5ComputeSector conf logicalSector false).bind fun t => initStripe conf t.newSector false

/-- The pages of a stripe that both loops of `add_all_stripe_bios` select. -/
def stripePages (sh : StripeHead) : List Page :=
  ((range sh.disks).filter fun dd => !sh.isParity dd &&
    decide (bi.firstSector ≤ raid5ComputeBlocknr conf sh dd false ∧
      raid5ComputeBlocknr conf sh dd false < bi.endSector)).map fun dd => ⟨sh, dd⟩

/-- `(dev->sector - ctx->first_sector) >> RAID5_STRIPE_SHIFT`. -/
def pageBit (p : Page) : Nat :=
  (raid5ComputeBlocknr conf p.sh p.dev false - bi.firstSector) / stripeSectors

/-- `__add_stripe_bio`, and the `clear_bit` after it. -/
def addStripeBio (d : Ctx) (p : Page) : Ctx :=
  { d with
    attached := d.attached ++ [p]
    incRemaining := d.incRemaining + 1
    sectorsToDo := Function.update d.sectorsToDo (pageBit conf bi p) false
    used := d.used ++ [pageBit conf bi p] }

def addAllStripeBios (sh : StripeHead) (d : Ctx) : Ctx :=
  (stripePages conf bi sh).foldl (addStripeBio conf bi) d

/-- The end of the loop's body, after `STRIPE_SUCCESS`. -/
def nextStripe (d : Ctx) : Ctx :=
  let s := findNextBitWrap d.sectorsToDo bi.stripeCnt d.s
  if s = bi.stripeCnt then { d with s := s, phase := .ended }
  else { d with s := s, logicalSector := bi.sectorOf s, used := d.used ++ [s] }

inductive StripeResult where
  | success
  | retry
  | fail
deriving DecidableEq, Repr

/-- One pass of the loop, by the result of `make_stripe_request`. -/
def step (d : Ctx) (res : StripeResult) : Option Ctx :=
  if d.phase ≠ .running then none
  else match res with
    | .fail => some { d with phase := .failed }
    | .retry => some d
    | .success =>
      (stripeAt conf d.logicalSector).map fun sh => nextStripe bi (addAllStripeBios conf bi sh d)

/-- `raid5_make_request` up to the loop. -/
def raid5MakeRequest : Option Ctx :=
  (raid5BioLowestChunkSector conf bi).map fun logicalSector =>
    let s := (logicalSector - bi.firstSector) / stripeSectors
    { sectorsToDo := fun k => decide (k < bi.stripeCnt)
      s := s
      logicalSector := logicalSector
      attached := []
      incRemaining := 0
      used := range bi.stripeCnt ++ [s]
      phase := .running }

end

/-- A page of a data device of the array. -/
structure ArrayPage (conf : Conf) (devSectors : Nat) (p : Page) : Prop where
  sector_lt : p.sh.sector < devSectors
  aligned : stripeSectors ∣ p.sh.sector
  init : initStripe conf p.sh.sector false = some p.sh
  data : p.dev ∈ p.sh.dataDevs

def Intersects (conf : Conf) (bi : Bio) (p : Page) : Prop :=
  ∃ r, bi.biSector ≤ r ∧ r < bi.endSector ∧ p.covers conf r = true

/-- Once to every page that intersects the bio, and to no other. -/
structure AttachedExactly (conf : Conf) (devSectors : Nat) (bi : Bio) (ps : List Page) : Prop where
  only : ∀ p ∈ ps, ArrayPage conf devSectors p ∧ Intersects conf bi p
  once : ∀ p, ArrayPage conf devSectors p → Intersects conf bi p → ps.count p = 1

/-! ## The bitmap -/

section Bits

variable {bits : Nat → Bool} {size offset : Nat}

theorem bit_of_findNextBit_lt (h : findNextBit bits size offset < size) :
    bits (findNextBit bits size offset) := by
  unfold findNextBit at h ⊢
  cases hf : (range' offset (size - offset)).find? bits with
  | none => simp [hf] at h
  | some k => exact find?_some hf

theorem findNextBit_lt {k : Nat} (hlow : offset ≤ k) (hk : k < size) (hbit : bits k) :
    findNextBit bits size offset < size := by
  unfold findNextBit
  cases hf : (range' offset (size - offset)).find? bits with
  | none =>
    have hmem : k ∈ range' offset (size - offset) := mem_range'_1.mpr (by omega)
    exact absurd hbit (find?_eq_none.mp hf k hmem)
  | some i =>
    have hi := mem_range'_1.mp (mem_of_find?_eq_some hf)
    rw [Option.getD_some]
    omega

theorem findNextBitWrap_lt_or_eq (ho : offset ≤ size) : (findNextBitWrap bits size offset < size ∧
      bits (findNextBitWrap bits size offset)) ∨
    findNextBitWrap bits size offset = size ∧ ∀ k < size, bits k = false := by
  unfold findNextBitWrap
  dsimp only
  split
  case isTrue h => exact .inl ⟨h, bit_of_findNextBit_lt h⟩
  case isFalse hnext =>
    split
    case isTrue h => exact .inl ⟨h.trans_le ho, bit_of_findNextBit_lt h⟩
    case isFalse hfirst =>
      refine .inr ⟨rfl, fun k hk => Bool.eq_false_iff.mpr fun hbit => ?_⟩
      rcases lt_or_ge k offset with hlt | hge
      · exact hfirst (findNextBit_lt (zero_le k) hlt hbit)
      · exact hnext (findNextBit_lt hge hk hbit)

end Bits

/-! ## One visit -/

section Visit

variable {conf : Conf} {bi : Bio}

section

variable (ps : List Page) (d : Ctx)
include ps d

theorem foldl_addStripeBio_attached :
    (ps.foldl (addStripeBio conf bi) d).attached = d.attached ++ ps := by
  induction ps generalizing d with
  | nil => exact (append_nil _).symm
  | cons p ps ih => rw [foldl_cons, ih, addStripeBio, append_assoc, singleton_append]

theorem foldl_addStripeBio_incRemaining :
    (ps.foldl (addStripeBio conf bi) d).incRemaining = d.incRemaining + ps.length := by
  induction ps generalizing d with
  | nil => rfl
  | cons p ps ih =>
    rw [foldl_cons, ih, length_cons, add_comm ps.length, ← add_assoc]
    rfl

theorem foldl_addStripeBio_sectorsToDo (k : Nat) :
    (ps.foldl (addStripeBio conf bi) d).sectorsToDo k ↔
      d.sectorsToDo k ∧ ∀ p ∈ ps, pageBit conf bi p ≠ k := by
  induction ps generalizing d with
  | nil => simp
  | cons p ps ih =>
    rw [foldl_cons, ih, forall_mem_cons, ← and_assoc]
    refine and_congr_left fun _ => ?_
    rw [show (addStripeBio conf bi d p).sectorsToDo k = _ from Function.update_apply ..]
    by_cases hk : k = pageBit conf bi p
    · simp [hk]
    · simp [hk, Ne.symm hk]

theorem foldl_addStripeBio_used :
    (ps.foldl (addStripeBio conf bi) d).used = d.used ++ ps.map (pageBit conf bi) := by
  induction ps generalizing d with
  | nil => exact (append_nil _).symm
  | cons p ps ih =>
    rw [foldl_cons, ih, addStripeBio, append_assoc, singleton_append, map_cons]

theorem foldl_addStripeBio_s : (ps.foldl (addStripeBio conf bi) d).s = d.s := by
  induction ps generalizing d with
  | nil => rfl
  | cons p ps ih => rw [foldl_cons, ih, addStripeBio]

theorem foldl_addStripeBio_phase : (ps.foldl (addStripeBio conf bi) d).phase = d.phase := by
  induction ps generalizing d with
  | nil => rfl
  | cons p ps ih => rw [foldl_cons, ih, addStripeBio]

end

theorem mem_stripePages {sh : StripeHead} {p : Page} :
    p ∈ stripePages conf bi sh ↔ p.sh = sh ∧ p.dev ∈ sh.dataDevs ∧
      bi.firstSector ≤ raid5ComputeBlocknr conf sh p.dev false ∧
      raid5ComputeBlocknr conf sh p.dev false < bi.endSector := by
  obtain ⟨sh', dev⟩ := p
  simp only [stripePages, mem_map, mem_filter, mem_range, Bool.and_eq_true,
    Bool.not_eq_true', decide_eq_true_eq, StripeHead.mem_dataDevs, Page.mk.injEq]
  constructor
  · rintro ⟨dd, ⟨hlt, hpar, hrange⟩, rfl, rfl⟩
    exact ⟨rfl, ⟨hlt, hpar⟩, hrange⟩
  · rintro ⟨rfl, ⟨hlt, hpar⟩, hrange⟩
    exact ⟨dev, ⟨hlt, hpar, hrange⟩, rfl, rfl⟩

theorem nodup_stripePages (sh : StripeHead) : (stripePages conf bi sh).Nodup :=
  (nodup_range.filter _).map fun _ _ h => (Page.mk.inj h).2

theorem nodup_flatMap_stripePages {visited : List StripeHead} (h : visited.Nodup) :
    (visited.flatMap (stripePages conf bi)).Nodup := by
  refine nodup_flatMap.mpr ⟨fun sh _ => nodup_stripePages sh, h.imp fun hne => ?_⟩
  intro p hp hp'
  exact hne ((mem_stripePages.mp hp).1.symm.trans (mem_stripePages.mp hp').1)

end Visit

/-! ## Bits and pages -/

section

variable {bi : Bio} (hmax : bi.sectors ≤ maxHwSectors)
include hmax

theorem Bio.stripeCnt_eq : bi.stripeCnt = (bi.endSector - bi.firstSector + 7) / 8 := by
  have hstart := lt_stripeStart_add bi.biSector
  unfold stripeCnt divRoundUpSectorT
  rw [show sectorT (bi.endSector - bi.firstSector + stripeSectors - 1) =
    bi.endSector - bi.firstSector + stripeSectors - 1 from mod_eq_of_lt ?_]
  · rfl
  · unfold endSector firstSector maxHwSectors raid5MaxReqStripes stripeSectors at *
    omega

/-- The bits of a request fit the bitmap, at any alignment of its start. -/
theorem Bio.stripeCnt_le : bi.stripeCnt ≤ raid5MaxReqStripes + 1 := by
  have hstart := lt_stripeStart_add bi.biSector
  rw [stripeCnt_eq hmax]
  unfold endSector firstSector maxHwSectors raid5MaxReqStripes stripeSectors at *
  omega

theorem Bio.lt_stripeCnt_iff {k : Nat} : k < bi.stripeCnt ↔ bi.sectorOf k < bi.endSector := by
  have hstart := stripeStart_le bi.biSector
  rw [stripeCnt_eq hmax]
  unfold sectorOf endSector firstSector stripeSectors at *
  omega

end

theorem Bio.exists_sectorOf {bi : Bio} {r : Nat} (h8 : stripeSectors ∣ r)
    (hlow : bi.firstSector ≤ r) : ∃ k, bi.sectorOf k = r := by
  obtain ⟨a, ha⟩ := stripeStart_dvd bi.biSector
  obtain ⟨b, rfl⟩ := h8
  refine ⟨b - a, ?_⟩
  unfold sectorOf firstSector at *
  unfold stripeSectors at *
  omega

theorem Bio.sectorOf_dvd (bi : Bio) (k : Nat) : stripeSectors ∣ bi.sectorOf k :=
  dvd_add (stripeStart_dvd _) (dvd_mul_left _ _)

theorem Bio.bit_sectorOf (bi : Bio) (k : Nat) :
    (bi.sectorOf k - bi.firstSector) / stripeSectors = k := by
  rw [sectorOf, Nat.add_sub_cancel_left, Nat.mul_div_cancel _ (by decide)]

/-- The request lies in an array of devices of `devSectors` sectors. -/
structure InArray (conf : Conf) (devSectors : Nat) (bi : Bio) : Prop where
  accepted : Accepted conf false
  whole : conf.chunkSectors ∣ devSectors
  size : devSectors * conf.dataDisks false < 2 ^ 64
  max_sectors : bi.sectors ≤ maxHwSectors
  inside : bi.endSector ≤ devSectors * conf.dataDisks false

section Pages

variable {conf : Conf} {devSectors : Nat} {bi : Bio}

variable (h : InArray conf devSectors bi)

include h

theorem InArray.sectorOf_lt {k : Nat} (hk : k < bi.stripeCnt) :
    bi.sectorOf k < devSectors * conf.dataDisks false :=
  ((Bio.lt_stripeCnt_iff h.max_sectors).mp hk).trans_le h.inside

/-- The visit of a bit's sector attaches the page of this bit. -/
theorem InArray.exists_page {k : Nat} (hk : k < bi.stripeCnt) :
    ∃ p ∈ stripePages conf bi p.sh, stripeAt conf (bi.sectorOf k) = some p.sh ∧
      pageBit conf bi p = k ∧ ArrayPage conf devSectors p := by
  have hlt := h.sectorOf_lt hk
  obtain ⟨t, sh, ht, hinit, -, hdata, hblock⟩ := exists_place h.accepted (hlt.trans h.size)
  have hsector : t.newSector = _ := (raid5ComputeSector_newSector ht).trans
    (sectorT_row (hlt.trans h.size) _ _)
  have hnew : sh.sector = t.newSector := (initStripe_eq hinit).1
  refine ⟨⟨sh, t.ddIdx.toNat⟩, mem_stripePages.mpr ⟨rfl, hdata, ?_⟩, ?_, ?_, ?_, ?_, ?_, hdata⟩
  · rw [hblock]
    exact ⟨le_add_right _ _, (Bio.lt_stripeCnt_iff h.max_sectors).mp hk⟩
  · rw [stripeAt, ht, Option.bind_some, hinit]
  · rw [pageBit, hblock, Bio.bit_sectorOf]
  · rw [hnew, hsector]
    exact row_lt h.accepted.chunk_pos h.accepted.dataDisks_pos h.whole hlt
  · rw [hnew, hsector]
    have hmod := (dvd_mod_iff h.accepted.stripe_dvd).mpr (bi.sectorOf_dvd k)
    exact dvd_add (h.accepted.stripe_dvd.trans (dvd_mul_left _ _)) hmod
  · rw [hnew, hinit]

/-- The block of a page, and the stripe a visit of it gets. -/
theorem InArray.exists_block {p : Page} (hp : ArrayPage conf devSectors p) :
    stripeSectors ∣ raid5ComputeBlocknr conf p.sh p.dev false ∧
      stripeAt conf (raid5ComputeBlocknr conf p.sh p.dev false) = some p.sh := by
  obtain ⟨sh, hinit, hblock⟩ := Geometry.exists_block h.accepted h.whole h.size hp.sector_lt
  obtain rfl := Option.some.inj (hp.init.symm.trans hinit)
  obtain ⟨r, hr, hcomp, hnr⟩ := hblock _ hp.data
  rw [hnr]
  refine ⟨?_, by rw [stripeAt, hcomp, Option.bind_some, hp.init]⟩
  have hsector := (raid5ComputeSector_newSector hcomp).trans (sectorT_row (hr.trans h.size) _ _)
  have h8 := hp.aligned
  rw [show p.sh.sector = _ from hsector] at h8
  exact (dvd_mod_iff h.accepted.stripe_dvd).mp
    ((Nat.dvd_add_right (h.accepted.stripe_dvd.trans (Nat.dvd_mul_left _ _))).mp h8)

/-- A page of the array that a visit selects has a bit, and the visit of this bit's sector
gets its stripe. -/
theorem InArray.exists_bit {p : Page}
    (hp : ArrayPage conf devSectors p) (hmem : p ∈ stripePages conf bi p.sh) :
    ∃ k < bi.stripeCnt, pageBit conf bi p = k ∧ stripeAt conf (bi.sectorOf k) = some p.sh := by
  obtain ⟨-, -, hlow, hhigh⟩ := mem_stripePages.mp hmem
  obtain ⟨h8, hstripe⟩ := h.exists_block hp
  obtain ⟨k, hk⟩ := Bio.exists_sectorOf h8 hlow
  refine ⟨k, (Bio.lt_stripeCnt_iff h.max_sectors).mpr (hk ▸ hhigh), ?_, hk ▸ hstripe⟩
  rw [pageBit, ← hk, Bio.bit_sectorOf]

/-- What a visit selects is what intersects the bio. -/
theorem InArray.mem_stripePages_iff {p : Page} (hp : ArrayPage conf devSectors p) :
    p ∈ stripePages conf bi p.sh ↔ Intersects conf bi p := by
  have h8 := (h.exists_block hp).1
  have hpos := bi.sectors_pos
  have hstart := lt_stripeStart_add bi.biSector
  have hstart8 := stripeStart_dvd bi.biSector
  rw [mem_stripePages, Intersects]
  simp only [Page.covers, decide_eq_true_eq]
  generalize raid5ComputeBlocknr conf p.sh p.dev false = b at h8 ⊢
  unfold Bio.firstSector Bio.endSector
  constructor
  · rintro ⟨-, -, hlow, hhigh⟩
    refine ⟨max b bi.biSector, le_max_right _ _, ?_, le_max_left _ _, ?_⟩
    · exact max_lt hhigh (by omega)
    · exact max_lt (Nat.lt_add_of_pos_right (by decide)) (by omega)
  · rintro ⟨r, hlow, hhigh, hbr, hrb⟩
    refine ⟨trivial, hp.data, ?_, by omega⟩
    unfold stripeStart stripeSectors at *
    omega

end Pages

/-! ## The first stripe -/

section First

variable {conf : Conf} {devSectors : Nat} {bi : Bio}

theorem InArray.firstSector_lt (h : InArray conf devSectors bi) : bi.firstSector < 2 ^ 64 := by
  have hstart := stripeStart_le bi.biSector
  have hpos := bi.sectors_pos
  refine lt_trans ?_ (lt_of_le_of_lt h.inside h.size)
  unfold Bio.firstSector Bio.endSector
  omega

/-- **The first stripe.** The sector the loop starts at is that of a bit of the request. -/
theorem InArray.exists_lowest (h : InArray conf devSectors bi) :
    ∃ k < bi.stripeCnt, raid5BioLowestChunkSector conf bi = some (bi.sectorOf k) := by
  obtain ⟨t, ht, -⟩ := raid5ComputeSector_wellPlaced h.accepted h.firstSector_lt
  have hpos := bi.sectors_pos
  have hstart := stripeStart_le bi.biSector
  have hchunk : t.newSector % conf.chunkSectors = bi.firstSector % conf.chunkSectors := by
    rw [(raid5ComputeSector_newSector ht).trans (sectorT_row h.firstSector_lt _ _)]
    exact mul_add_mod_of_lt (mod_lt _ h.accepted.chunk_pos)
  have hzero : 0 < bi.stripeCnt ∧ bi.sectorOf 0 = bi.firstSector := by
    refine ⟨(Bio.lt_stripeCnt_iff h.max_sectors).mpr ?_, ?_⟩ <;>
      simp only [Bio.sectorOf, Bio.firstSector, Bio.endSector] <;> omega
  rw [raid5BioLowestChunkSector, show stripeStart bi.biSector = bi.firstSector from rfl, ht,
    Option.map_some, hchunk]
  by_cases hcross : bi.sectors ≤ conf.chunkSectors - bi.firstSector % conf.chunkSectors
  · exact ⟨0, hzero.1, by rw [if_pos hcross, hzero.2]⟩
  rw [if_neg hcross]
  by_cases hlast : (conf.raidDisks : Int) ≤ skipParity t.idx (t.ddIdx + 1)
  · exact ⟨0, hzero.1, by rw [if_pos hlast, hzero.2]⟩
  rw [if_neg hlast]
  -- the next chunk begins in the request, since the bio leaves the first one
  have hfirst8 := stripeStart_dvd bi.biSector
  have hrest : stripeSectors ∣ conf.chunkSectors - bi.firstSector % conf.chunkSectors :=
    dvd_sub h.accepted.stripe_dvd ((dvd_mod_iff h.accepted.stripe_dvd).mpr hfirst8)
  obtain ⟨k, hk⟩ := Bio.exists_sectorOf (dvd_add hfirst8 hrest) (le_add_right _ _)
  refine ⟨k, (Bio.lt_stripeCnt_iff h.max_sectors).mpr ?_, by rw [hk]; rfl⟩
  rw [hk, Bio.endSector]
  omega

end First

/-! ## The loop -/

/-- Where the loop is after it visited the stripes `visited`: the bits that are left are those
of the other stripes. -/
structure Inv (conf : Conf) (bi : Bio) (visited : List StripeHead) (d : Ctx) : Prop where
  nodup : visited.Nodup
  stripes : ∀ sh ∈ visited, ∃ k < bi.stripeCnt, stripeAt conf (bi.sectorOf k) = some sh
  attached : d.attached = visited.flatMap (stripePages conf bi)
  incRemaining : d.incRemaining = d.attached.length
  todo : ∀ k < bi.stripeCnt, d.sectorsToDo k = true ↔
    ∀ sh ∈ visited, stripeAt conf (bi.sectorOf k) ≠ some sh
  used : ∀ k ∈ d.used, k < bi.stripeCnt
  running : d.phase = .running →
    d.s < bi.stripeCnt ∧ d.sectorsToDo d.s = true ∧ d.logicalSector = bi.sectorOf d.s
  ended : d.phase = .ended → ∀ k < bi.stripeCnt, d.sectorsToDo k = false

section Loop

variable {conf : Conf} {devSectors : Nat} {bi : Bio} {visited : List StripeHead} {d d' : Ctx}

variable (h : InArray conf devSectors bi)

include h

theorem inv_raid5MakeRequest : ∃ d, raid5MakeRequest conf bi = some d ∧ Inv conf bi [] d ∧
      d.phase = .running := by
  obtain ⟨k, hk, hlow⟩ := h.exists_lowest
  refine ⟨_, by rw [raid5MakeRequest, hlow, Option.map_some], ?_, rfl⟩
  exact
    { nodup := nodup_nil
      stripes := by simp
      attached := rfl
      incRemaining := rfl
      todo := fun i hi => by simp [hi]
      used := by
        intro i hi
        rcases mem_append.mp hi with hi | hi
        · exact mem_range.mp hi
        · rw [mem_singleton.mp hi, Bio.bit_sectorOf]
          exact hk
      running := fun _ => by
        dsimp only
        rw [Bio.bit_sectorOf]
        exact ⟨hk, decide_eq_true hk, rfl⟩
      ended := by simp }

/-- A stripe the loop visits is a stripe of the array. -/
theorem InArray.arrayPage_of_mem {k : Nat}
    (hk : k < bi.stripeCnt) {sh : StripeHead} (hsh : stripeAt conf (bi.sectorOf k) = some sh)
    {p : Page} (hp : p ∈ stripePages conf bi sh) : ArrayPage conf devSectors p := by
  obtain ⟨rfl, hdata, -⟩ := mem_stripePages.mp hp
  obtain ⟨p', -, hsh', -, hpage⟩ := h.exists_page hk
  obtain heq := Option.some.inj (hsh.symm.trans hsh')
  exact ⟨heq ▸ hpage.sector_lt, heq ▸ hpage.aligned, heq ▸ hpage.init, hdata⟩

/-- The bits one visit clears. -/
theorem InArray.cleared_iff {s : Nat} (hs : s < bi.stripeCnt)
    {sh : StripeHead} (hsh : stripeAt conf (bi.sectorOf s) = some sh) {k : Nat}
    (hk : k < bi.stripeCnt) : (∀ p ∈ stripePages conf bi sh, pageBit conf bi p ≠ k) ↔
      stripeAt conf (bi.sectorOf k) ≠ some sh := by
  constructor
  · intro hnone hk'
    obtain ⟨p, hp, hpsh, hbit, -⟩ := h.exists_page hk
    obtain rfl := Option.some.inj (hk'.symm.trans hpsh)
    exact hnone p hp hbit
  · intro hne p hp hbit
    have hpage := h.arrayPage_of_mem hs hsh hp
    obtain ⟨rfl, -⟩ := mem_stripePages.mp hp
    obtain ⟨i, -, hi, hstripe⟩ := h.exists_bit hpage hp
    exact hne ((hi.symm.trans hbit) ▸ hstripe)

section

variable (hI : Inv conf bi visited d) (hrun : d.phase = .running) {sh : StripeHead}
  (hsh : stripeAt conf d.logicalSector = some sh)
include hI hrun hsh

/-- A visit attaches the stripe of the current bit, which was not visited before. -/
theorem inv_addAllStripeBios (hd' : d' = addAllStripeBios conf bi sh d) :
    sh ∉ visited ∧ (∃ k < bi.stripeCnt, stripeAt conf (bi.sectorOf k) = some sh) ∧
    d'.attached = (visited ++ [sh]).flatMap (stripePages conf bi) ∧
    d'.incRemaining = d'.attached.length ∧ (∀ k < bi.stripeCnt, d'.sectorsToDo k ↔
      ∀ sh' ∈ visited ++ [sh], stripeAt conf (bi.sectorOf k) ≠ some sh') ∧
    (∀ k ∈ d'.used, k < bi.stripeCnt) ∧ d'.s = d.s ∧ d'.phase = .running := by
  obtain ⟨hs, hbit, hlog⟩ := hI.running hrun
  rw [hlog] at hsh
  subst hd'
  unfold addAllStripeBios
  refine ⟨fun hmem => (hI.todo d.s hs).mp hbit sh hmem hsh, ⟨d.s, hs, hsh⟩, ?_, ?_, ?_, ?_,
    foldl_addStripeBio_s _ _, (foldl_addStripeBio_phase _ _).trans hrun⟩
  · rw [foldl_addStripeBio_attached, hI.attached, flatMap_append, flatMap_singleton]
  · rw [foldl_addStripeBio_attached, foldl_addStripeBio_incRemaining, length_append,
      hI.incRemaining]
  · intro k hk
    rw [foldl_addStripeBio_sectorsToDo, hI.todo k hk, h.cleared_iff hs hsh hk,
      forall_mem_append, forall_mem_singleton]
  · intro k hk
    rw [foldl_addStripeBio_used, mem_append, mem_map] at hk
    rcases hk with hk | ⟨p, hp, rfl⟩
    · exact hI.used k hk
    · have hpage := h.arrayPage_of_mem hs hsh hp
      obtain ⟨rfl, -⟩ := mem_stripePages.mp hp
      obtain ⟨i, hi, rfl, -⟩ := h.exists_bit hpage hp
      exact hi

theorem inv_success :
    Inv conf bi (visited ++ [sh]) (nextStripe bi (addAllStripeBios conf bi sh d)) := by
  obtain ⟨hnew, hstripe, hatt, hinc, htodo, hused, hs, hphase⟩ :=
    inv_addAllStripeBios h hI hrun hsh rfl
  generalize addAllStripeBios conf bi sh d = d' at *
  have hnodup : (visited ++ [sh]).Nodup :=
    nodup_append.mpr ⟨hI.nodup, nodup_singleton _, fun a ha b hb =>
      mem_singleton.mp hb ▸ fun hab => hnew (hab ▸ ha)⟩
  have hstripes : ∀ sh' ∈ visited ++ [sh],
      ∃ k < bi.stripeCnt, stripeAt conf (bi.sectorOf k) = some sh' := by
    rw [forall_mem_append, forall_mem_singleton]
    exact ⟨hI.stripes, hstripe⟩
  have hle : d'.s ≤ bi.stripeCnt := hs ▸ (hI.running hrun).1.le
  unfold nextStripe
  dsimp only
  rcases @findNextBitWrap_lt_or_eq d'.sectorsToDo _ _ hle with ⟨hlt, hset⟩ | ⟨heq, hnone⟩
  · rw [if_neg hlt.ne]
    refine ⟨hnodup, hstripes, hatt, hinc, htodo, ?_, fun _ => ⟨hlt, hset, rfl⟩, fun hend => ?_⟩
    · rw [forall_mem_append, forall_mem_singleton]
      exact ⟨hused, hlt⟩
    · cases hphase.symm.trans hend
  · rw [if_pos heq]
    exact ⟨hnodup, hstripes, hatt, hinc, htodo, hused, by simp, fun _ => hnone⟩

end

/-- One pass visits at most one more stripe. -/
theorem inv_step (hI : Inv conf bi visited d)
    {res : StripeResult} (hs : step conf bi d res = some d') :
    ∃ more, Inv conf bi (visited ++ more) d' ∧
      more.length = if res = .success then 1 else 0 := by
  obtain ⟨hrun, hs⟩ := Option.ite_none_left_eq_some.mp hs
  rw [ne_eq, not_not] at hrun
  cases res with
  | success =>
    obtain ⟨sh, hsh, rfl⟩ := Option.map_eq_some_iff.mp hs
    exact ⟨[sh], inv_success h hI hrun hsh, rfl⟩
  | retry =>
    cases hs
    exact ⟨[], by rwa [append_nil], rfl⟩
  | fail =>
    cases hs
    refine ⟨[], ?_, rfl⟩
    rw [append_nil]
    exact { hI with running := by simp, ended := by simp }

theorem inv_run {es : List StripeResult}
    (hI : Inv conf bi visited d) (hrun : run (step conf bi) d es = some d') :
    ∃ more, Inv conf bi (visited ++ more) d' ∧ more.length = es.count .success := by
  induction es generalizing visited d with
  | nil =>
    cases hrun
    exact ⟨[], by rwa [append_nil], rfl⟩
  | cons e es ih =>
    obtain ⟨t, ht, hrest⟩ := run_cons.mp hrun
    obtain ⟨more, hI', hlen⟩ := inv_step h hI ht
    obtain ⟨more', hI'', hlen'⟩ := ih hI' hrest
    refine ⟨more ++ more', by rwa [← append_assoc], ?_⟩
    rw [length_append, hlen, hlen', count_cons, add_comm]
    simp

/-- A pass that is not a retry is possible, -/
theorem Inv.exists_success (hI : Inv conf bi visited d)
    (hrun : d.phase = .running) : ∃ d', step conf bi d .success = some d' := by
  obtain ⟨hs, -, hlog⟩ := hI.running hrun
  obtain ⟨p, -, hsh, -⟩ := h.exists_page hs
  rw [← hlog] at hsh
  exact ⟨_, by rw [step, if_neg (not_not.mpr hrun), hsh, Option.map_some]⟩

omit h in
/-- and there are no more of these than pages. -/
theorem Inv.visits_le (hI : Inv conf bi visited d) : visited.length ≤ bi.stripeCnt := by
  have hsub : visited.map some ⊆
      (range bi.stripeCnt).map fun k => stripeAt conf (bi.sectorOf k) := by
    intro x hx
    obtain ⟨sh, hsh, rfl⟩ := mem_map.mp hx
    obtain ⟨k, hk, hstripe⟩ := hI.stripes sh hsh
    exact mem_map.mpr ⟨k, mem_range.mpr hk, hstripe⟩
  have hlen := ((hI.nodup.map (Option.some_injective _)).subperm hsub).length_le
  simpa using hlen

theorem Inv.attached_page (hI : Inv conf bi visited d) {p : Page}
    (hp : p ∈ d.attached) : ArrayPage conf devSectors p ∧ p ∈ stripePages conf bi p.sh := by
  rw [hI.attached, mem_flatMap] at hp
  obtain ⟨sh, hsh, hp⟩ := hp
  obtain ⟨k, hk, hstripe⟩ := hI.stripes sh hsh
  have hpage := h.arrayPage_of_mem hk hstripe hp
  obtain ⟨rfl, -⟩ := mem_stripePages.mp hp
  exact ⟨hpage, hp⟩

omit h in
theorem Inv.attached_nodup (hI : Inv conf bi visited d) : d.attached.Nodup := by
  rw [hI.attached]
  exact nodup_flatMap_stripePages hI.nodup

theorem Inv.attachedExactly (hI : Inv conf bi visited d) (hend : d.phase = .ended) :
    AttachedExactly conf devSectors bi d.attached := by
  constructor
  · intro p hp
    obtain ⟨hpage, hmem⟩ := hI.attached_page h hp
    exact ⟨hpage, (h.mem_stripePages_iff hpage).mp hmem⟩
  · intro p hpage hinter
    have hp := (h.mem_stripePages_iff hpage).mpr hinter
    obtain ⟨k, hk, -, hstripe⟩ := h.exists_bit hpage hp
    -- its bit is clear, so its stripe was visited
    have hvisited : p.sh ∈ visited := by
      by_contra hno
      have htodo := (hI.todo k hk).mpr fun sh hsh heq =>
        hno (Option.some.inj (hstripe.symm.trans heq) ▸ hsh)
      rw [hI.ended hend k hk] at htodo
      exact Bool.false_ne_true htodo
    refine count_eq_one_of_mem hI.attached_nodup ?_
    rw [hI.attached]
    exact mem_flatMap.mpr ⟨p.sh, hvisited, hp⟩

end Loop

/-- **Dispatch is exact.** The loop starts inside the request, uses only bits of the bitmap
and counts one reference for each page; when it ends normally, the bio is on every page it
intersects, once, and on no other. The loop visits at most `stripe_cnt` stripes, whatever
the retries between, and goes on until it is done. -/
theorem dispatch_exact (conf : Conf) (devSectors : Nat) (bi : Bio)
    (h : InArray conf devSectors bi) : ∃ d₀, raid5MakeRequest conf bi = some d₀ ∧
      raid5BioLowestChunkSector conf bi = some d₀.logicalSector ∧
      bi.firstSector ≤ d₀.logicalSector ∧ d₀.logicalSector < bi.endSector ∧
      ∀ es d, run (step conf bi) d₀ es = some d → (∀ k ∈ d.used, k < raid5MaxReqStripes + 1) ∧
        d.incRemaining = d.attached.length ∧ es.count .success ≤ bi.stripeCnt ∧
        (d.phase = .running → ∃ d', step conf bi d .success = some d') ∧
        (d.phase = .ended → AttachedExactly conf devSectors bi d.attached) := by
  obtain ⟨d₀, hstart, hI, hrunning⟩ := inv_raid5MakeRequest h
  obtain ⟨hs, -, hlog⟩ := hI.running hrunning
  obtain ⟨low, hlow, hd₀⟩ := Option.map_eq_some_iff.mp hstart
  refine ⟨d₀, hstart, ?_, ?_, ?_, fun es d hrun => ?_⟩
  · rw [hlow, ← hd₀]
  · rw [hlog]
    exact Nat.le_add_right _ _
  · rw [hlog]
    exact (Bio.lt_stripeCnt_iff h.max_sectors).mp hs
  obtain ⟨visited, hI', hlen⟩ := inv_run h hI hrun
  rw [nil_append] at hI'
  exact ⟨fun k hk => (hI'.used k hk).trans_le (Bio.stripeCnt_le h.max_sectors), hI'.incRemaining,
    hlen ▸ hI'.visits_le, hI'.exists_success h, hI'.attachedExactly h⟩

/-- A bio that begins inside a page and goes on into the next chunk: 18 pages of 16 stripes. -/
def unalignedBio : Bio := ⟨108, 140, by decide⟩

theorem dispatch_exact_unaligned : InArray exampleConf 1024 unalignedBio ∧
    ∃ d₀ d, raid5MakeRequest exampleConf unalignedBio = some d₀ ∧ d₀.logicalSector = 128 ∧
      run (step exampleConf unalignedBio) d₀ (.retry :: replicate 16 .success) = some d ∧
      d.attached.length = 18 ∧ AttachedExactly exampleConf 1024 unalignedBio d.attached := by
  have h : InArray exampleConf 1024 unalignedBio :=
    ⟨⟨by rfl, by decide⟩, by decide, by decide, by decide, by decide⟩
  have hrun : ((raid5MakeRequest exampleConf unalignedBio).any fun d₀ =>
      d₀.logicalSector = 128 && (run (step exampleConf unalignedBio) d₀
        (.retry :: replicate 16 .success)).any fun d =>
          d.phase = .ended && d.attached.length = 18) = true := by
    decide +kernel
  simp only [Option.any_eq_true, Bool.and_eq_true, decide_eq_true_eq] at hrun
  obtain ⟨d₀, hstart, hlow, d, hd, hend, hlen⟩ := hrun
  obtain ⟨d₁, hstart', -, -, -, hall⟩ := dispatch_exact exampleConf 1024 unalignedBio h
  obtain rfl := Option.some.inj (hstart.symm.trans hstart')
  exact ⟨h, d₀, d, hstart, hlow, hd, hlen, (hall _ d hd).2.2.2.2 hend⟩

end MdRaid.Requests.Dispatch
