import MdRaid.Stripe.ReadModifyWrite
import MdRaid.Stripe.Recovery

/-!
# A written stripe that loses blocks
-/

namespace MdRaid.Stripe

open MdRaid.Geometry

/-- **What was written survives two losses.** After a write of a consistent stripe in either way,
lost blocks that `fetch_block` chooses to compute come back with the new data: the bytes of the
queued writes, and the old ones elsewhere. -/
theorem written_survives_losses (tx : AsyncTx) (htx : tx.maxDisks ≤ 255) {conf : RunConf}
    (hl : conf.level = .raid6) {sh : StripeHead} (hw : WriteReady conf.level sh)
    (hc : Consistent conf.level sh) (hmax : syndromeDisks sh.toStripeHead + 2 ≤ tx.maxDisks)
    (hfour : 4 ≤ sh.disks) {rmw : Bool} (hst : sh.reconstructState = .prexorDrainRun ↔ rmw = true) :
    ∃ sh0, raidRunWrite tx conf rmw sh [] = some (sh0, []) ∧
      sh0.toStripeHead = sh.toStripeHead ∧ ∀ fconf bad s diskIdx f,
        LostBlocks sh0 bad s → diskIdx < sh.disks →
          fetchBlock fconf bad s diskIdx sh.disks = some f → f.s.opComputeBlk = true →
          ∃ fixed, raidRunCompute tx .raid6 f.sh = some fixed ∧
            ∀ i ∈ sh.dataDevs, fixed.dataPage i = newPage conf sh i ∧
              (InOrder (sh.dev i).towrite → Overlaid (sh.dev i).towrite (sh.dev i).sector
                (sh.dataPage i) (fixed.dataPage i)) := by
  obtain ⟨sh0, hrun, hnew⟩ : ∃ sh0, raidRunWrite tx conf rmw sh [] = some (sh0, []) ∧
      NewData conf sh sh0 := by
    cases rmw with
    | true => exact hw.rmw tx hc (fun _ => hmax) (hst.mpr rfl)
    | false => exact hw.rcw tx (fun _ => hmax) fun h => by cases hst.mp h
  refine ⟨sh0, hrun, hnew.geometry, fun fconf bad s diskIdx f hlost hi hf hcomp => ?_⟩
  have hgeo := hlost.geometry.trans hnew.geometry
  have hreq := fetchBlock_request (hgeo ▸ hi) hlost.count hlost.idle (hgeo ▸ hf) hcomp
  rw [hlost.geometry] at hreq
  have hdam : Damaged sh0 bad fun i => i < sh0.disks ∧ (bad.dev i).flags.uptodate = false :=
    ⟨hlost.geometry, fun i hilt hnot => hlost.page i hilt (by
      by_contra hup
      exact hnot ⟨hilt, by simpa using hup⟩)⟩
  obtain ⟨fixed, hfix, hpages⟩ := ComputeRequest.restores htx
    (hnew.geometry ▸ hw.idx.validPQ hl) (hl ▸ hnew.consistent) (hnew.geometry ▸ hmax)
    (hnew.geometry ▸ hfour) hdam hlost.noJournal (hnew.geometry ▸ hi) hreq
  refine ⟨fixed, hfix, fun i hdata => ?_⟩
  have hpage : fixed.dataPage i = sh0.dataPage i :=
    hpages.page i (hnew.geometry ▸ (Geometry.StripeHead.mem_dataDevs.mp hdata).1) id
  exact ⟨hpage.trans (hnew.data i hdata), fun hq => hpage ▸ hnew.overlaid hw hdata hq⟩

/-- The five devices of `exampleLevel6` with pages of zeros, and a write pending on device 1. -/
def pendingLevel6 : StripeHead :=
  { exampleLevel6 with dev := fun i => exampleStripe.dev (if i = 1 then 0 else 1) }

theorem pendingLevel6_ready : WriteReady .raid6 pendingLevel6 where
  idx := ⟨by decide, by decide, fun _ => ⟨by decide, by decide, by decide, by decide, by decide⟩,
    fun h => absurd rfl h⟩
  lone := rfl
  noJournal _ _ := rfl
  drain_iff i _ := by by_cases hi : i = 1 <;> simp [pendingLevel6, exampleStripe, hi]
  parity_idle i _ hp := by
    have hne : i ≠ 1 := fun h => (by cases h ▸ hp)
    simp [pendingLevel6, exampleStripe, hne]
  not_written _ _ := rfl
  pending := ⟨1, by decide, by simp [pendingLevel6, exampleStripe]⟩
  some_data := ⟨2, by decide, rfl, by simp [pendingLevel6, exampleStripe]⟩

theorem pendingLevel6_consistent : Consistent .raid6 pendingLevel6 := by
  have hzero : pendingLevel6.dataPage = fun _ => 0 := rfl
  constructor
  · rw [hzero]
    simp [Syndrome.wsum]
  · intro _
    rw [hzero]
    simp [Syndrome.wsum]

/-- The write is done, devices 1 and 3 fail, and device 1 comes back with the write. -/
theorem written_survives_losses_pendingLevel6 : ∃ sh0,
    raidRunWrite (.direct 255) ⟨.raid6, true, false⟩ false pendingLevel6 [] = some (sh0, []) ∧
      ∃ f, fetchBlock ⟨false, 0, fun _ => false⟩ (exampleBad sh0) exampleState 1 5 = some f ∧
        ∃ fixed, raidRunCompute (.direct 255) .raid6 f.sh = some fixed ∧
          ∀ k : Fin 4096, fixed.dataPage 1 k = if k.val < 2048 then 1 else 0 := by
  obtain ⟨sh0, hrun, hgeo, hrestore⟩ := @written_survives_losses (.direct 255) (by decide)
    ⟨.raid6, true, false⟩ rfl pendingLevel6 pendingLevel6_ready pendingLevel6_consistent (by decide)
    (by decide) false (by decide)
  have hlost := exampleBad_lost hgeo
  have hdisks : (exampleBad sh0).disks = 5 := congrArg Geometry.StripeHead.disks hgeo
  have hneed : needThisBlock ⟨false, 0, fun _ => false⟩ (exampleBad sh0) exampleState 1 := by
    simp [needThisBlock, exampleBad, exampleState]
  obtain ⟨f, hf, hcomp⟩ := fetchBlock_computes hneed hlost.count hlost.lone
    (by simp [exampleBad]) (.inr ⟨(congrArg (· + 2) hlost.count.symm).trans hdisks.symm, by decide⟩)
  rw [hdisks] at hf
  obtain ⟨fixed, hfix, hpages⟩ := hrestore _ _ _ 1 f hlost (by decide) hf hcomp
  exact ⟨sh0, hrun, f, hf, fixed, hfix,
    exampleWrite_bytes ((hpages 1 (by decide)).2 exampleWrite_inOrder)⟩

end MdRaid.Stripe
