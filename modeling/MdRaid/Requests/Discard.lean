import MdRaid.Geometry.Blocks

/-!
# Discard requests

`make_discard_request` hands a discard to whole stripe rows only: it rounds the start of
the bio up and its end down to rows of `chunk_sectors * (raid_disks - max_degraded)`
logical sectors and attaches the bio to every data device of every stripe between. Before
the start is rounded up to a row it is rounded down to a page.

The waits of the loop (for a resync, or for requests pending on the stripe) end in the same
attachment and are left out. `stripe_sectors` is an `int` in the source and a natural number
here, so the results are about rows of fewer than `2 ^ 31` sectors.
-/

namespace MdRaid.Requests

open MdRaid.Geometry List Nat

/-! ## Definitions -/

structure DiscardBio where
  biSector : Nat
  /-- `bio_sectors` -/
  sectors : Nat
  /-- `REQ_NOWAIT` -/
  nowait : Bool
deriving DecidableEq, Repr

/-- `bio_end_sector`. -/
def DiscardBio.endSector (bi : DiscardBio) : Nat := bi.biSector + bi.sectors

/-- A page of a stripe, by the stripe and the device. -/
structure Page where
  sh : StripeHead
  dev : Nat
deriving DecidableEq, Repr

/-- The page holds logical sector `r`. -/
def Page.covers (conf : Conf) (r : Nat) (p : Page) : Bool :=
  decide (raid5ComputeBlocknr conf p.sh p.dev false ≤ r ∧
    r < raid5ComputeBlocknr conf p.sh p.dev false + stripeSectors)

def divRoundUpSectorT (ll d : Nat) : Nat := sectorT (ll + d - 1) / d

/-- `stripe_sectors`: the logical sectors of one row. -/
def rowSectors (conf : Conf) : Nat :=
  conf.chunkSectors * (conf.raidDisks - conf.level.maxDegraded)

/-- The body of the loop: the pages whose `towrite` becomes the bio. -/
def discardStripe (conf : Conf) (logicalSector : Nat) : List Page :=
  match initStripe conf logicalSector false with
  | none => []
  | some sh => ((range conf.raidDisks).filter fun d => !sh.isParity d).map fun d => ⟨sh, d⟩

def discardLoop (conf : Conf) (lastSector logicalSector : Nat) : List Page :=
  if logicalSector < lastSector then
    discardStripe conf logicalSector ++
      discardLoop conf lastSector (logicalSector + stripeSectors)
  else []
termination_by lastSector - logicalSector
decreasing_by
  unfold stripeSectors
  omega

/-- The pages a discard is attached to; `reshaping` is `reshape_position != MaxSector`. -/
def makeDiscardRequest (conf : Conf) (reshaping : Bool) (bi : DiscardBio) : List Page :=
  if bi.nowait then []
  else if reshaping then []
  else
    let first := divRoundUpSectorT (stripeStart bi.biSector) (rowSectors conf)
    let last := bi.endSector / rowSectors conf
    discardLoop conf (sectorT (last * conf.chunkSectors)) (sectorT (first * conf.chunkSectors))

/-- What a discard may and must do: no sector (a `sector_t`) outside the bio is touched, and
every sector of every whole row inside it is discarded exactly once. -/
structure DiscardsExactly (conf : Conf) (reshaping : Bool) (bi : DiscardBio) : Prop where
  inside : ∀ p ∈ makeDiscardRequest conf reshaping bi, ∀ r < 2 ^ 64, p.covers conf r = true →
    bi.biSector ≤ r ∧ r < bi.endSector
  rows : ∀ row, bi.biSector ≤ row * rowSectors conf → (row + 1) * rowSectors conf ≤ bi.endSector →
    ∀ r, row * rowSectors conf ≤ r → r < (row + 1) * rowSectors conf →
      (makeDiscardRequest conf reshaping bi).countP (Page.covers conf r) = 1

/-! ## The pages of the loop -/

section Loop

variable {conf : Conf} {last r : Nat}

section

variable (h : Accepted conf false) (hsize : last * rowSectors conf < 2 ^ 64)
include h hsize

/-- A stripe has one page for a sector of its own and none for another. -/
theorem countP_discardStripe {s x : Nat} {i : Int} (hr : r < 2 ^ 64)
    (hp : pageOf conf r false = some (s, i)) (h8 : stripeSectors ∣ x)
    (hx : x < last * conf.chunkSectors) :
    (discardStripe conf x).countP (Page.covers conf r) = if x = s then 1 else 0 := by
  have hdvd : conf.sectorsPerChunk false ∣ last * conf.chunkSectors := dvd_mul_left _ _
  have hsize' : last * conf.chunkSectors * conf.dataDisks false < 2 ^ 64 := by
    rwa [mul_assoc]
  obtain ⟨sh, hinit, -⟩ := exists_block h hdvd hsize' hx
  have hcov : ∀ j ∈ range conf.raidDisks,
      (Page.covers conf r ⟨sh, j⟩ && !sh.isParity j) ↔
        (x = s ∧ (j : Int) = i) ∧ sh.isParity j = false := by
    intro j hj
    rw [Bool.and_eq_true, Bool.not_eq_true', and_congr_left_iff]
    intro hpar
    have hdata : j ∈ sh.dataDevs := by
      rw [StripeHead.mem_dataDevs, (initStripe_eq hinit).2]
      exact ⟨mem_range.mp hj, hpar⟩
    rw [Page.covers, decide_eq_true_eq, mem_block_iff h hdvd hsize' hx h8 hinit hdata hr, hp,
      Option.some_inj, Prod.mk.injEq, eq_comm, @eq_comm _ i]
  rw [discardStripe, hinit]
  dsimp only
  rw [countP_map, countP_filter]
  by_cases hxs : x = s
  · subst hxs
    obtain ⟨sh', hinit', j, hj, rfl⟩ := pageOf_dataDev h hr hp
    obtain rfl := Option.some.inj (hinit.symm.trans hinit')
    obtain ⟨hlt, hpar⟩ := StripeHead.mem_dataDevs.mp hj
    rw [(initStripe_eq hinit).2] at hlt
    rw [if_pos rfl, ← count_eq_one_of_mem nodup_range (mem_range.mpr hlt)]
    apply countP_congr
    intro d hd
    rw [Function.comp_apply, hcov d hd, beq_iff_eq]
    constructor
    · rintro ⟨⟨-, hdj⟩, -⟩
      exact_mod_cast hdj
    · rintro rfl
      exact ⟨⟨rfl, rfl⟩, hpar⟩
  · rw [if_neg hxs, countP_eq_zero]
    intro d hd hcovers
    exact hxs ((hcov d hd).mp hcovers).1.1

theorem countP_discardLoop
    {s : Nat} {i : Int} (hr : r < 2 ^ 64) (hp : pageOf conf r false = some (s, i))
    (hs : stripeSectors ∣ s) : ∀ x, stripeSectors ∣ x →
    (discardLoop conf (last * conf.chunkSectors) x).countP (Page.covers conf r) =
      if x ≤ s ∧ s < last * conf.chunkSectors then 1 else 0 := by
  intro x
  fun_induction discardLoop conf (last * conf.chunkSectors) x with
  | case1 x hx ih =>
    intro h8
    rw [countP_append, countP_discardStripe h hsize hr hp h8 hx,
      ih (h8.add (dvd_refl _))]
    rcases lt_trichotomy x s with hlt | rfl | hgt
    · have hnext : x + stripeSectors ≤ s := by
        unfold stripeSectors at *
        omega
      rw [if_neg hlt.ne, zero_add]
      simp only [hnext, hlt.le]
    · rw [if_pos rfl, if_neg (by unfold stripeSectors; omega), if_pos ⟨le_refl _, hx⟩]
    · rw [if_neg hgt.ne', if_neg (by omega), if_neg (by omega)]
  | case2 x hx =>
    intro h8
    rw [countP_nil, if_neg (by omega)]

end

end Loop

/-! ## Rows -/

section Rows

variable {conf : Conf} {bi : DiscardBio}

theorem rowSectors_pos (h : Accepted conf false) : 0 < rowSectors conf :=
  mul_pos h.chunk_pos h.dataDisks_pos

theorem stripe_dvd_rowSectors (h : Accepted conf false) : stripeSectors ∣ rowSectors conf :=
  h.stripe_dvd.trans (dvd_mul_right _ _)

/-- The first row of the loop. -/
def firstRow (conf : Conf) (bi : DiscardBio) : Nat :=
  divRoundUpSectorT (stripeStart bi.biSector) (rowSectors conf)

/-- The first row after the loop. -/
def lastRow (conf : Conf) (bi : DiscardBio) : Nat := bi.endSector / rowSectors conf

section

variable (h : Accepted conf false) (hrow : rowSectors conf < 2 ^ 31) (hend : bi.endSector < 2 ^ 63)

include h hrow hend

/-- A start less than a page after a row boundary falls back to that row. -/
theorem firstRow_eq : firstRow conf bi =
      if bi.biSector % rowSectors conf < stripeSectors then bi.biSector / rowSectors conf
      else bi.biSector / rowSectors conf + 1 := by
  have hpos := rowSectors_pos h
  have h8 := stripe_dvd_rowSectors h
  have hle : bi.biSector ≤ bi.endSector := le_add_right _ _
  have hstart := stripeStart_le bi.biSector
  unfold firstRow divRoundUpSectorT sectorT
  rw [mod_eq_of_lt (by omega)]
  generalize rowSectors conf = row at *
  have hsplit := div_add_mod bi.biSector row
  have hmod := mod_lt bi.biSector hpos
  have hshift : stripeStart bi.biSector =
      row * (bi.biSector / row) + stripeStart (bi.biSector % row) := by
    rw [← stripeStart_add (h8.trans (dvd_mul_right _ _)), hsplit]
  rw [hshift, show row * (bi.biSector / row) + stripeStart (bi.biSector % row) + row - 1 =
    row * (bi.biSector / row) + (stripeStart (bi.biSector % row) + row - 1) by omega,
    mul_add_div hpos]
  have hstart' := stripeStart_le (bi.biSector % row)
  split
  · have hzero : stripeStart (bi.biSector % row) = 0 := by
      unfold stripeStart stripeSectors at *
      omega
    have hquot : (row - 1) / row = 0 := div_eq_of_lt (by omega)
    rw [hzero, zero_add, hquot, add_zero]
  · have hge : stripeSectors ≤ stripeStart (bi.biSector % row) := by
      unfold stripeStart stripeSectors at *
      omega
    have hquot : (stripeStart (bi.biSector % row) + row - 1) / row = 1 := by
      apply Nat.div_eq_of_lt_le <;> unfold stripeSectors at * <;> omega
    rw [hquot]

theorem div_le_firstRow : bi.biSector / rowSectors conf ≤ firstRow conf bi := by
  rw [firstRow_eq h hrow hend]
  split <;> omega

/-- A start on a row boundary, or at least a page after one, is rounded up. -/
theorem le_firstRow (hsafe : bi.biSector % rowSectors conf = 0 ∨
      stripeSectors ≤ bi.biSector % rowSectors conf) :
    bi.biSector ≤ firstRow conf bi * rowSectors conf := by
  have hsplit := div_add_mod' bi.biSector (rowSectors conf)
  rw [firstRow_eq h hrow hend]
  split
  · omega
  · have hmod := mod_lt bi.biSector (rowSectors_pos h)
    rw [succ_mul]
    omega

/-- No row that starts inside the request is left out. -/
theorem firstRow_le {row : Nat} (hlow : bi.biSector ≤ row * rowSectors conf) :
    firstRow conf bi ≤ row := by
  have hpos := rowSectors_pos h
  rw [firstRow_eq h hrow hend]
  split
  · exact (Nat.div_le_div_right hlow).trans_eq (Nat.mul_div_cancel _ hpos)
  · next hge =>
    have hsplit := div_add_mod' bi.biSector (rowSectors conf)
    refine Nat.lt_of_mul_lt_mul_right (a := rowSectors conf) ?_
    unfold stripeSectors at hge
    omega

/-- **The pages of the request.** A sector is discarded once if its row is one of the loop's,
and not at all otherwise. -/
theorem countP_makeDiscardRequest (hwait : bi.nowait = false) {r : Nat} (hr : r < 2 ^ 64) :
    (makeDiscardRequest conf false bi).countP (Page.covers conf r) =
      if firstRow conf bi ≤ r / rowSectors conf ∧ r / rowSectors conf < lastRow conf bi then 1
      else 0 := by
  obtain ⟨s, i, hp⟩ := exists_page h hr
  have hlast : lastRow conf bi * rowSectors conf ≤ bi.endSector := div_mul_le_self _ _
  have hfirst : firstRow conf bi * rowSectors conf ≤ bi.endSector + rowSectors conf := by
    rw [firstRow_eq h hrow hend]
    have hdiv := div_mul_le_self bi.biSector (rowSectors conf)
    have hle : bi.biSector ≤ bi.endSector := le_add_right _ _
    split
    · omega
    · rw [succ_mul]
      omega
  have hchunk : ∀ k, k * conf.chunkSectors ≤ k * rowSectors conf := fun k =>
    Nat.mul_le_mul_left k (Nat.le_mul_of_pos_right _ h.dataDisks_pos)
  have hl : sectorT (lastRow conf bi * conf.chunkSectors) = lastRow conf bi * conf.chunkSectors :=
    mod_eq_of_lt (((hchunk _).trans hlast).trans_lt (by omega))
  have hf : sectorT (firstRow conf bi * conf.chunkSectors) = firstRow conf bi * conf.chunkSectors :=
    mod_eq_of_lt (((hchunk _).trans hfirst).trans_lt (by omega))
  have h8 : stripeSectors ∣ s := by
    obtain ⟨t, -, hpage⟩ := Option.map_eq_some_iff.mp hp
    rw [← (Prod.mk.inj hpage).1]
    exact stripeStart_dvd _
  have hdef : makeDiscardRequest conf false bi =
      discardLoop conf (lastRow conf bi * conf.chunkSectors)
        (firstRow conf bi * conf.chunkSectors) := by
    unfold makeDiscardRequest
    rw [hwait, if_neg (by decide), if_neg (by decide)]
    exact congrArg₂ (discardLoop conf) hl hf
  have hdiv : s / conf.chunkSectors = r / rowSectors conf := pageOf_row h hr hp
  have hpos : 0 < conf.chunkSectors := h.chunk_pos
  have h8f : stripeSectors ∣ firstRow conf bi * conf.chunkSectors :=
    h.stripe_dvd.trans (dvd_mul_left _ _)
  rw [hdef, countP_discardLoop h (by omega) hr hp h8 _ h8f, ← hdiv]
  simp only [le_div_iff_mul_le hpos, div_lt_iff_lt_mul hpos]

end

/-- A whole row inside a request starts after it and ends before it. -/
theorem row_inside_iff (hpos : 0 < rowSectors conf) :
    (∃ row, bi.biSector ≤ row * rowSectors conf ∧ (row + 1) * rowSectors conf ≤ bi.endSector) ↔
      (bi.biSector + rowSectors conf - 1) / rowSectors conf < bi.endSector / rowSectors conf := by
  constructor
  · rintro ⟨row, hlow, hhigh⟩
    have hdiv : (bi.biSector + rowSectors conf - 1) / rowSectors conf < row + 1 := by
      rw [div_lt_iff_lt_mul hpos, succ_mul]
      omega
    exact (le_of_lt_succ hdiv).trans_lt ((le_div_iff_mul_le hpos).mpr hhigh)
  · intro hlt
    refine ⟨(bi.biSector + rowSectors conf - 1) / rowSectors conf, ?_,
      (le_div_iff_mul_le hpos).mp hlt⟩
    have hup := lt_div_mul_add (a := bi.biSector + rowSectors conf - 1) hpos
    omega

end Rows

/-- When a discard is exact. A request that is refused must have no whole row in it; one that
is carried out must not start less than a page after a row boundary, unless it ends before the
next one. -/
def SafeDiscard (conf : Conf) (reshaping : Bool) (bi : DiscardBio) : Prop :=
  if bi.nowait = true ∨ reshaping = true then
    bi.endSector / rowSectors conf ≤ (bi.biSector + rowSectors conf - 1) / rowSectors conf
  else bi.biSector % rowSectors conf = 0 ∨ stripeSectors ≤ bi.biSector % rowSectors conf ∨
    bi.endSector / rowSectors conf ≤ bi.biSector / rowSectors conf

/-- **Discards are exact when they do not start just after a row boundary.** For every accepted
geometry and every bio, the discard touches only sectors of the bio and discards every whole row
in it once, exactly when the request is safe. -/
theorem discard_exact_iff (conf : Conf) (h : Accepted conf false)
    (hrow : rowSectors conf < 2 ^ 31) (reshaping : Bool) (bi : DiscardBio)
    (hend : bi.endSector < 2 ^ 63) :
    DiscardsExactly conf reshaping bi ↔ SafeDiscard conf reshaping bi := by
  have hpos := rowSectors_pos h
  unfold SafeDiscard
  split
  next hskip =>
    have hnone : makeDiscardRequest conf reshaping bi = [] := by
      unfold makeDiscardRequest
      rcases hskip with hw | hr
      · rw [if_pos hw]
      · rw [if_pos hr, ite_self]
    rw [← not_lt, ← row_inside_iff hpos]
    constructor
    · rintro ⟨-, hrows⟩ ⟨row, hlow, hhigh⟩
      have hone := hrows row hlow hhigh (row * rowSectors conf) (le_refl _)
        (Nat.mul_lt_mul_of_pos_right (Nat.lt_succ_self _) hpos)
      rw [hnone, countP_nil] at hone
      cases hone
    · intro hno
      constructor
      · intro p hp
        rw [hnone] at hp
        exact absurd hp not_mem_nil
      · intro row hlow hhigh
        exact absurd ⟨row, hlow, hhigh⟩ hno
  next hgo =>
    obtain ⟨hwait, hresh⟩ := not_or.mp hgo
    obtain rfl := Bool.eq_false_iff.mpr hresh
    replace hwait := Bool.eq_false_iff.mpr hwait
    have hfirst := firstRow_eq h hrow hend
    have hcount := fun r (hr : r < 2 ^ 64) => countP_makeDiscardRequest h hrow hend hwait hr
    have hstart := Nat.div_add_mod bi.biSector (rowSectors conf)
    constructor
    · rintro ⟨hinside, -⟩
      by_contra hbad
      push Not at hbad
      obtain ⟨hne, hlt, hrows⟩ := hbad
      -- the row the request starts in is discarded from its beginning
      rw [if_pos hlt] at hfirst
      have hr : rowSectors conf * (bi.biSector / rowSectors conf) < 2 ^ 64 := by
        have hle : bi.biSector ≤ bi.endSector := Nat.le_add_right _ _
        omega
      have hdiscarded : 0 < (makeDiscardRequest conf false bi).countP
          (Page.covers conf (rowSectors conf * (bi.biSector / rowSectors conf))) := by
        rw [hcount _ hr, Nat.mul_div_cancel_left _ hpos, if_pos ⟨hfirst.le, hrows⟩]
        exact Nat.one_pos
      obtain ⟨p, hp, hcov⟩ := countP_pos_iff.mp hdiscarded
      have hlow := (hinside p hp _ hr hcov).1
      omega
    · intro hsafe
      constructor
      · intro p hp r hr hcov
        have hdiscarded := countP_pos_iff.mpr ⟨p, hp, hcov⟩
        rw [hcount r hr] at hdiscarded
        obtain ⟨hlow, hhigh⟩ : firstRow conf bi ≤ r / rowSectors conf ∧
            r / rowSectors conf < lastRow conf bi := by
          by_contra hout
          rw [if_neg hout] at hdiscarded
          exact absurd hdiscarded (lt_irrefl 0)
        constructor
        · refine (le_firstRow h hrow hend ?_).trans ((Nat.le_div_iff_mul_le hpos).mp hlow)
          rcases hsafe with hz | hge | hshort
          · exact .inl hz
          · exact .inr hge
          · exact absurd (hlow.trans_lt hhigh)
              (not_lt.mpr (hshort.trans (div_le_firstRow h hrow hend)))
        · rw [Nat.div_lt_iff_lt_mul hpos] at hhigh
          exact hhigh.trans_le (Nat.div_mul_le_self _ _)
      · intro row hlow hhigh r hge hlt
        have hr : r < 2 ^ 64 := by omega
        have hquot : r / rowSectors conf = row := Nat.div_eq_of_lt_le hge hlt
        rw [hcount r hr, hquot, if_pos ⟨firstRow_le h hrow hend hlow,
          (Nat.le_div_iff_mul_le hpos).mpr hhigh⟩]

/-- Three devices and 4 KiB chunks: rows of 16 sectors. -/
def smallConf : Conf := ⟨.raid5, 2, 2, 8, 8, 3, 3⟩

theorem discard_exact_iff_aligned : Accepted smallConf false ∧
    DiscardsExactly smallConf false ⟨8, 40, false⟩ := by
  have h : Accepted smallConf false := ⟨by rfl, by decide⟩
  refine ⟨h, (discard_exact_iff smallConf h (by decide) false ⟨8, 40, false⟩ (by decide)).mpr ?_⟩
  unfold SafeDiscard
  decide

/-- A discard of sectors 1 to 15 also discards sector 0. -/
theorem discard_before_start : ¬ DiscardsExactly smallConf false ⟨1, 15, false⟩ := by
  rintro ⟨hinside, -⟩
  have hp : (⟨⟨0, 3, ⟨2, -1, false⟩⟩, 0⟩ : Page) ∈
      makeDiscardRequest smallConf false ⟨1, 15, false⟩ := by
    change _ ∈ discardLoop smallConf 8 0
    rw [discardLoop, if_pos (by decide), mem_append]
    exact .inl (by decide)
  exact absurd (hinside _ hp 0 (by decide) (by decide)).1 (by decide)

end MdRaid.Requests
