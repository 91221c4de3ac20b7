import MdRaid.Stripe.WriteOps

/-!
# What a drain leaves in a page

`async_copy_data` copies the bytes of a bio that fall into the block, or makes `dev->page`
point to the bio's own page when one segment is the whole block. Read through `dev->page`
the two are the same: the bytes that a queued write covers are those of the write, all
others are as they were.
-/

namespace MdRaid.Stripe

open MdRaid.Geometry List R5dev

/-! ## What a drain leaves alone -/

section Frame

variable {α : Type*} (f : R5dev → α)

theorem copySegments_frame (conf : RunConf) (hpage : ∀ dev p, f (dev.setPage p) = f dev)
    (hred : ∀ (dev : R5dev) r, f { dev with redirect := r } = f dev) :
    ∀ (vecs : List BioVec) (pageOffset : Int) (dev : R5dev),
      f (copySegments conf vecs pageOffset dev) = f dev
  | [], _, _ => rfl
  | bvl :: rest, pageOffset, dev => by
    unfold copySegments
    dsimp only
    split_ifs <;> simp only [copySegments_frame conf hpage hred rest, hpage, hred]

-- the flags a drain never touches are those that do not depend on the bios
variable (hflags : ∀ (dev : R5dev) g, (∀ fl : DevFlags, (g fl).inJournal = fl.inJournal) →
  f (dev.modifyFlags g) = f dev)
include hflags

theorem drainBio_frame (conf : RunConf) (hpage : ∀ dev p, f (dev.setPage p) = f dev)
    (hred : ∀ (dev : R5dev) r, f { dev with redirect := r } = f dev) (wbi : Bio) (dev : R5dev) :
    f (drainBio conf wbi dev) = f dev := by
  have hcopy : ∀ d : R5dev, f (asyncCopyData conf wbi d) = f d := fun d =>
    copySegments_frame f conf hpage hred _ _ d
  unfold drainBio
  dsimp only
  split_ifs <;> simp only [hcopy, hflags, implies_true]

theorem drainBios_frame (conf : RunConf) (hpage : ∀ dev p, f (dev.setPage p) = f dev)
    (hred : ∀ (dev : R5dev) r, f { dev with redirect := r } = f dev) :
    ∀ (l : List Bio) (dev : R5dev), f (drainBios conf l dev) = f dev
  | [], _ => rfl
  | wbi :: rest, dev => by
    have hbio := drainBio_frame f hflags conf hpage hred wbi dev
    unfold drainBios
    dsimp only
    split_ifs
    · rw [drainBios_frame conf hpage hred rest, hbio]
    · exact hbio
    · rfl

end Frame

theorem drainBio_sector (conf : RunConf) (wbi : Bio) (dev : R5dev) :
    (drainBio conf wbi dev).sector = dev.sector :=
  drainBio_frame R5dev.sector (fun _ _ _ => rfl) conf
    (fun dev p => by cases h : dev.redirect <;> simp [R5dev.setPage, h]) (fun _ _ => rfl) _ _

/-! ## Bios as bytes -/

/-- Byte `n` of the data the segments hold. -/
def vecsByte : List BioVec → Nat → Option GF256
  | [], _ => none
  | bvl :: rest, n =>
    if n < bvl.bvLen then some (pageByte bvl.bvPage (bvl.bvOffset + n))
    else vecsByte rest (n - bvl.bvLen)

/-- The byte at `pos` of segments that start at `start`. -/
def vecsAt (vecs : List BioVec) (start : Int) (pos : Nat) : Option GF256 :=
  if start ≤ pos then vecsByte vecs ((pos : Int) - start).toNat else none

/-- The byte a write has for byte `pos` of the device; a discard has none. -/
def Bio.byteAt (bio : Bio) (pos : Nat) : Option GF256 :=
  if bio.op = .discard then none else vecsAt bio.vecs ((bio.biSector : Int) * 512) pos

/-- The bios of a queue are of whole sectors and follow each other. -/
structure InOrder (bios : List Bio) : Prop where
  whole : ∀ bio ∈ bios, 512 ∣ (bio.vecs.map (·.bvLen)).sum
  ordered : bios.Pairwise fun bio next => bio.endSector ≤ next.biSector

/-- `new` is the block at `sector` with the writes of `bios` in it, where they cover it, and with
the bytes of `old` elsewhere. -/
structure Overlaid (bios : List Bio) (sector : Nat) (old new : Page) : Prop where
  covered : ∀ bio ∈ bios, ∀ k v, bio.byteAt (sector * 512 + k.val) = some v → new k = v
  kept : ∀ k, (∀ bio ∈ bios, bio.byteAt (sector * 512 + k.val) = none) → new k = old k

theorem vecsByte_lt : ∀ {vecs : List BioVec} {n : Nat} {v : GF256}, vecsByte vecs n = some v →
    n < (vecs.map (·.bvLen)).sum
  | [], _, _, h => by cases h
  | bvl :: rest, n, v, h => by
    rw [map_cons, sum_cons]
    rw [vecsByte] at h
    split_ifs at h with hlt
    · omega
    · have := vecsByte_lt h
      omega

/-- A byte of a write lies between its first and its last sector. -/
theorem Bio.byteAt_bounds {bio : Bio} (hwhole : 512 ∣ (bio.vecs.map (·.bvLen)).sum) {pos : Nat}
    {v : GF256} (h : bio.byteAt pos = some v) :
    bio.biSector * 512 ≤ pos ∧ pos < bio.endSector * 512 := by
  unfold Bio.byteAt vecsAt at h
  split_ifs at h with _ hle
  have hlt := vecsByte_lt h
  unfold Bio.endSector Bio.sectors
  omega

/-! ## Copying -/

/-- The copy of one segment. -/
def copySegment (conf : RunConf) (bvl : BioVec) (pageOffset : Int) (dev : R5dev) : R5dev :=
  let bOffset : Int := if pageOffset < 0 then -pageOffset else 0
  let pageOffset : Int := if pageOffset < 0 then 0 else pageOffset
  let len : Int := bvl.bvLen - bOffset
  let clen : Int := if len > 0 ∧ pageOffset + len > 4096 then 4096 - pageOffset else len
  if clen > 0 then
    let bOffset := bOffset + bvl.bvOffset
    if conf.skipCopy ∧ bOffset = 0 ∧ pageOffset = 0 ∧ clen = 4096 ∧
        conf.writeback = false then
      { dev with redirect := some bvl.bvPage }
    else
      dev.setPage (memcpyPage dev.page bvl.bvPage pageOffset.toNat bOffset.toNat
        clen.toNat)
  else dev

theorem copySegments_cons (conf : RunConf) (bvl : BioVec) (rest : List BioVec)
    (pageOffset : Int) (dev : R5dev) :
    copySegments conf (bvl :: rest) pageOffset dev =
      if 0 < bvl.bvLen ∧ 4096 < pageOffset + bvl.bvLen then
        copySegment conf bvl pageOffset dev
      else copySegments conf rest (pageOffset + bvl.bvLen)
        (copySegment conf bvl pageOffset dev) := by
  have hnext : (if pageOffset < 0 then 0 else pageOffset) +
      ((bvl.bvLen : Int) - (if pageOffset < 0 then -pageOffset else 0)) =
        pageOffset + bvl.bvLen := by split_ifs <;> omega
  rw [copySegments]
  dsimp only
  rw [hnext]
  unfold copySegment
  dsimp only
  rw [hnext]
  congr 1
  apply propext
  split_ifs <;> omega

theorem copySegment_page (conf : RunConf) (bvl : BioVec) (pageOffset : Int) (dev : R5dev)
    (k : Fin 4096) : (copySegment conf bvl pageOffset dev).page k =
      if pageOffset ≤ k.val ∧ (k.val : Int) < pageOffset + bvl.bvLen then
        pageByte bvl.bvPage (bvl.bvOffset + ((k.val : Int) - pageOffset).toNat)
      else dev.page k := by
  have hin := bvl.inPage
  have hk := k.isLt
  unfold copySegment
  dsimp only
  generalize hp : (if pageOffset < 0 then 0 else pageOffset) = p
  generalize hb : (if pageOffset < 0 then -pageOffset else 0) = b
  -- the segment starts in front of the page, or inside it
  have hsplit : pageOffset = p - b ∧ 0 ≤ p ∧ 0 ≤ b ∧ (b = 0 ∨ p = 0) := by
    split_ifs at hp hb <;> omega
  obtain ⟨rfl, hp0, hb0, hor⟩ := hsplit
  generalize hc : (if (bvl.bvLen : Int) - b > 0 ∧ p + ((bvl.bvLen : Int) - b) > 4096 then 4096 - p
    else (bvl.bvLen : Int) - b) = clen
  by_cases hpos : clen > 0
  · rw [if_pos hpos]
    by_cases halias : conf.skipCopy ∧ b + bvl.bvOffset = 0 ∧ p = 0 ∧ clen = 4096 ∧
        conf.writeback = false
    · obtain ⟨-, hoff, rfl, rfl, -⟩ := id halias
      have hlen : bvl.bvLen = 4096 := by split_ifs at hc <;> omega
      rw [if_pos halias, if_pos (by omega)]
      simp only [R5dev.page, Option.getD_some, pageByte]
      congr 1
      apply Fin.ext
      simp only [Fin.ofNat, Fin.val_mk]
      omega
    · rw [if_neg halias, setPage_page]
      unfold memcpyPage
      by_cases hrange : p.toNat ≤ k.val ∧ k.val < p.toNat + clen.toNat
      · rw [if_pos hrange, if_pos (by split_ifs at hc <;> omega)]
        congr 1
        omega
      · rw [if_neg hrange, if_neg (by split_ifs at hc <;> omega)]
  · rw [if_neg hpos, if_neg (by split_ifs at hc <;> omega)]

/-- Read through `dev->page`, a copy lays the segments over the page. -/
theorem copySegments_page (conf : RunConf) (k : Fin 4096) : ∀ (vecs : List BioVec)
    (pageOffset : Int) (dev : R5dev), (copySegments conf vecs pageOffset dev).page k =
      (vecsAt vecs pageOffset k.val).getD (dev.page k)
  | [], pageOffset, dev => by simp [copySegments, vecsAt, vecsByte]
  | bvl :: rest, pageOffset, dev => by
    have hk := k.isLt
    have hseg := copySegment_page conf bvl pageOffset dev k
    rw [copySegments_cons, vecsAt]
    by_cases hlo : pageOffset ≤ k.val
    · rw [if_pos hlo, vecsByte]
      by_cases hin : (k.val : Int) < pageOffset + bvl.bvLen
      · -- the byte is in this segment, and those behind it do not reach it
        have hlt : ((k.val : Int) - pageOffset).toNat < bvl.bvLen := by omega
        rw [if_pos ⟨hlo, hin⟩] at hseg
        rw [if_pos hlt, Option.getD_some, ← hseg]
        split_ifs
        · rfl
        · rw [copySegments_page conf k rest, vecsAt, if_neg (by omega), Option.getD_none]
      · have hge : ¬ ((k.val : Int) - pageOffset).toNat < bvl.bvLen := by omega
        rw [if_neg fun h => hin h.2] at hseg
        rw [if_neg hge, if_neg (by omega), copySegments_page conf k rest, hseg, vecsAt,
          if_pos (by omega)]
        congr 2
        omega
    · rw [if_neg hlo, Option.getD_none]
      rw [if_neg (by omega)] at hseg
      split_ifs
      · exact hseg
      · rw [copySegments_page conf k rest, vecsAt, if_neg (by omega), Option.getD_none, hseg]

/-! ## Draining a queue -/

theorem drainBio_page (conf : RunConf) (wbi : Bio) (dev : R5dev) (k : Fin 4096) :
    (drainBio conf wbi dev).page k = (wbi.byteAt (dev.sector * 512 + k.val)).getD (dev.page k) := by
  have hcopy : ∀ dev : R5dev, (asyncCopyData conf wbi dev).page k =
      (vecsAt wbi.vecs ((wbi.biSector : Int) * 512) (dev.sector * 512 + k.val)).getD
        (dev.page k) := by
    intro dev
    rw [asyncCopyData, copySegments_page]
    unfold vecsAt
    congr 1
    refine if_congr (by push_cast; omega) (congrArg _ ?_) rfl
    push_cast
    omega
  unfold drainBio Bio.byteAt
  dsimp only
  split_ifs
  · rfl
  · exact hcopy _
  · exact hcopy _

/-- Draining a queue in order overwrites what its writes cover. -/
theorem drainBios_overlaid (conf : RunConf) : ∀ (bios : List Bio) (dev : R5dev), InOrder bios →
    Overlaid bios dev.sector dev.page (drainBios conf bios dev).page
  | [], _, _ => ⟨fun _ h => absurd h not_mem_nil, fun _ _ => rfl⟩
  | wbi :: rest, dev, h => by
    obtain ⟨hfirst, hrest⟩ := pairwise_cons.mp h.ordered
    have hwhole := h.whole wbi mem_cons_self
    have hlast : wbi.biSector ≤ wbi.endSector := Nat.le_add_right ..
    -- a bio that starts behind the byte does not have it
    have hbehind : ∀ bio ∈ wbi :: rest, ∀ pos, pos < bio.biSector * 512 → bio.byteAt pos = none :=
      fun bio hbio pos hpos => Option.eq_none_iff_forall_ne_some.mpr fun v hv =>
        absurd (Bio.byteAt_bounds (h.whole bio hbio) hv).1 (not_le.mpr hpos)
    have hpage := drainBio_page conf wbi dev
    have hstop : dev.sector + stripeSectors ≤ wbi.endSector → ∀ bio ∈ rest, ∀ k : Fin 4096,
        bio.byteAt (dev.sector * 512 + k.val) = none := fun hend bio hbio k => by
      refine hbehind bio (mem_cons_of_mem _ hbio) _ ?_
      have := hfirst bio hbio
      have hk := k.isLt
      unfold stripeSectors at hend
      omega
    unfold drainBios
    dsimp only
    rw [drainBio_sector]
    split_ifs with hstart hend
    · obtain ⟨hcov, hkept⟩ := drainBios_overlaid conf rest (drainBio conf wbi dev)
        ⟨fun bio hbio => h.whole bio (mem_cons_of_mem _ hbio), hrest⟩
      rw [drainBio_sector] at hcov hkept
      refine ⟨fun bio hbio k v hv => ?_, fun k hnone => ?_⟩
      · rcases mem_cons.mp hbio with rfl | hbio
        · have hnone : ∀ next ∈ rest, next.byteAt (dev.sector * 512 + k.val) = none := by
            intro next hnext
            refine hbehind next (mem_cons_of_mem _ hnext) _ ?_
            exact lt_of_lt_of_le (Bio.byteAt_bounds hwhole hv).2
              (Nat.mul_le_mul_right 512 (hfirst next hnext))
          rw [hkept k hnone, hpage, hv]
          rfl
        · exact hcov bio hbio k v hv
      · rw [hkept k fun bio hbio => hnone bio (mem_cons_of_mem _ hbio), hpage,
          hnone wbi mem_cons_self]
        rfl
    · refine ⟨fun bio hbio k v hv => ?_, fun k hnone => ?_⟩
      · rcases mem_cons.mp hbio with rfl | hbio
        · rw [hpage, hv]
          rfl
        · cases (hstop (not_lt.mp hend) bio hbio k).symm.trans hv
      · rw [hpage, hnone wbi mem_cons_self]
        rfl
    · refine ⟨fun bio hbio k v hv => ?_, fun _ _ => rfl⟩
      have hk := k.isLt
      rcases mem_cons.mp hbio with rfl | hbio
      · refine absurd ((hbehind bio mem_cons_self _ ?_).symm.trans hv) (by simp)
        unfold stripeSectors at hstart
        omega
      · cases (hstop ((not_lt.mp hstart).trans hlast) bio hbio k).symm.trans hv

theorem drainDev_overlaid (conf : RunConf) (dev : R5dev) (hq : InOrder dev.towrite) :
    Overlaid dev.towrite dev.sector dev.page (drainDev conf dev).page :=
  drainBios_overlaid conf dev.towrite { dev.modifyFlags fun f => { f with inJournal := false } with
    towrite := [], written := dev.towrite } hq

end MdRaid.Stripe
