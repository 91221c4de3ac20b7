import MdRaid.Stripe.Drain
import MdRaid.Stripe.ParityOps

/-!
# Read-modify-write and reconstruct-write agree

A write to some of the data devices can update the parity in two ways. In the
`prexor_drain` state the old contents of the devices to be written are taken out
of the parity pages before the drain and the new contents are added after it; in
the `drain` state the parity is computed from all data pages after the drain.
Both leave the same pages, and the parity of the new data.
-/

namespace MdRaid.Stripe

open MdRaid.Geometry Loops Syndrome GF256 List PagePtr R5dev StripeHead Bool Function
open Geometry.StripeHead (mem_dataDevs isParity_eq_false isParity_eq_true)

/-! ## What a drain leaves alone -/

theorem drainDev_written (conf : RunConf) (dev : R5dev) :
    (drainDev conf dev).written = dev.towrite := by
  unfold drainDev
  rw [drainBios_frame written (fun _ _ _ => rfl) conf setPage_written
    (fun _ _ => rfl)]

theorem drainDev_inJournal (conf : RunConf) (dev : R5dev) :
    (drainDev conf dev).flags.inJournal = false := by
  unfold drainDev
  rw [drainBios_frame (fun d => d.flags.inJournal) (fun dev _ h => h dev.flags) conf
    (fun d p => by rw [setPage_flags]) (fun _ _ => rfl)]
  rfl

/-- `R5_Discard` is set by discard bios only. -/
theorem drainBio_discard (conf : RunConf) {wbi : Bio} (hop : wbi.op ≠ .discard) (dev : R5dev) :
    (drainBio conf wbi dev).flags.discard = dev.flags.discard := by
  have hcopy : ∀ d : R5dev, (asyncCopyData conf wbi d).flags = d.flags := fun d =>
    copySegments_frame flags conf setPage_flags (fun _ _ => rfl) _ _ d
  unfold drainBio
  rw [if_neg hop]
  dsimp only
  split_ifs <;> simp only [modifyFlags_flags, hcopy]

theorem drainBios_discard (conf : RunConf) : ∀ (l : List Bio) (dev : R5dev),
    (∀ wbi ∈ l, wbi.op ≠ .discard) → (drainBios conf l dev).flags.discard = dev.flags.discard
  | [], _, _ => rfl
  | wbi :: rest, dev, h => by
    have hbio := drainBio_discard conf (h wbi mem_cons_self) dev
    have hrest : ∀ wbi' ∈ rest, wbi'.op ≠ .discard := fun wbi' hw =>
      h wbi' (mem_cons_of_mem wbi hw)
    unfold drainBios
    dsimp only
    split_ifs
    · rw [drainBios_discard conf rest _ hrest, hbio]
    · exact hbio
    · rfl

/-! ## The drain of a lone stripe -/

/-- The device after `ops_run_biodrain` has found `R5_Wantdrain` set. -/
def drained (conf : RunConf) (dev : R5dev) : R5dev :=
  drainDev conf (dev.modifyFlags fun f => { f with wantdrain := false })

/-- The effect of a drain of the first `n` devices. -/
structure Drained (conf : RunConf) (n : Nat) (sh sh' : StripeHead) : Prop where
  geometry : sh'.toStripeHead = sh.toStripeHead
  state : sh'.reconstructState = sh.reconstructState
  batch : sh'.batchHead = sh.batchHead
  dev : ∀ i, sh'.dev i =
    if i < n ∧ (sh.dev i).flags.wantdrain = true then drained conf (sh.dev i) else sh.dev i

theorem biodrainDev_drained (conf : RunConf) {sh : StripeHead} (hb : sh.batchHead = false)
    {i : Nat} (hd : (sh.dev i).flags.wantdrain) (hw : (sh.dev i).written = []) :
    ∃ sh', biodrainDev conf (sh, []) i = some (sh', []) ∧
      sh'.toStripeHead = sh.toStripeHead ∧ sh'.reconstructState = sh.reconstructState ∧
      sh'.batchHead = false ∧ sh'.dev = update sh.dev i (drained conf (sh.dev i)) := by
  refine ⟨{ (sh.modifyFlags i fun f => { f with wantdrain := false }).modifyDev i
      (drainDev conf) with overwriteDisks := 0 }, ?_, rfl, rfl, hb, ?_⟩
  · have hempty : ((sh.modifyFlags i fun f => { f with wantdrain := false }).dev i).written
        = [] := by
      simp [StripeHead.modifyFlags, R5dev.modifyFlags, hw]
    have hhead : (sh.modifyFlags i fun f => { f with wantdrain := false }).batchHead = false := hb
    simp [biodrainDev, hd, drainStripe, hempty, modifyDev, hhead]
  · simp [StripeHead.modifyFlags, StripeHead.modifyDev, drained]

theorem biodrain_loop (conf : RunConf) : ∀ (n : Nat) (sh : StripeHead), sh.batchHead = false →
    (∀ i < n, (sh.dev i).flags.wantdrain → (sh.dev i).written = []) →
    ∃ sh', (down n).foldlM (biodrainDev conf) (sh, []) = some (sh', []) ∧ Drained conf n sh sh'
  | 0, sh, _, _ => ⟨sh, rfl, ⟨rfl, rfl, rfl, fun i => by simp⟩⟩
  | n + 1, sh, hb, hw => by
    rw [down_succ]
    cases hd : (sh.dev n).flags.wantdrain with
    | false =>
      obtain ⟨sh', hrun, hdr⟩ := biodrain_loop conf n sh hb fun i hi => hw i (by omega)
      refine ⟨sh', ?_, { hdr with dev := fun i => ?_ }⟩
      · simpa [biodrainDev, hd] using hrun
      · rw [hdr.dev i]
        by_cases hin : i = n
        · simp [hin, hd]
        · have hlt : i < n ↔ i < n + 1 := by omega
          simp only [hlt]
    | true =>
      obtain ⟨sh1, hstep, hgeo, hst, hb1, hdev⟩ :=
        biodrainDev_drained conf hb hd (hw n (Nat.lt_succ_self n) hd)
      have hne : ∀ i < n, sh1.dev i = sh.dev i := fun i hi => by
        rw [hdev, update_of_ne (by omega)]
      obtain ⟨sh', hrun, hdr⟩ := biodrain_loop conf n sh1 hb1 fun i hi => by
        rw [hne i hi]
        exact hw i (by omega)
      refine ⟨sh', ?_, ⟨hdr.geometry.trans hgeo, hdr.state.trans hst,
        hdr.batch.trans (hb1.trans hb.symm), fun i => ?_⟩⟩
      · rw [foldlM_cons, hstep]
        exact hrun
      · rw [hdr.dev i, hdev]
        by_cases hin : i = n
        · simp [hin, hd]
        · have hlt : i < n ↔ i < n + 1 := by omega
          simp only [update_of_ne hin, hlt]

theorem drained_discard (conf : RunConf) {dev : R5dev}
    (h : ∀ wbi ∈ dev.towrite, wbi.op ≠ .discard) :
    (drained conf dev).flags.discard = dev.flags.discard :=
  drainBios_discard conf dev.towrite _ h

theorem drained_written (conf : RunConf) (dev : R5dev) : (drained conf dev).written = dev.towrite :=
  drainDev_written conf _

/-! ## Stripes with writes pending -/

/-- A lone stripe whose devices with queued bios have been marked for the drain, on an array
without journal. -/
structure WriteReady (level : Level) (sh : StripeHead) : Prop where
  idx : ParityIdx level sh.toStripeHead
  lone : sh.batchHead = false
  noJournal : NoJournal sh
  drain_iff : ∀ i < sh.disks, ((sh.dev i).flags.wantdrain = true ↔ (sh.dev i).towrite ≠ [])
  parity_idle : ∀ i < sh.disks, sh.isParity i = true → (sh.dev i).towrite = []
  not_written : ∀ i < sh.disks, (sh.dev i).written = []
  pending : ∃ i < sh.disks, (sh.dev i).towrite ≠ []
  /-- Not the whole stripe is being discarded. -/
  some_data : ∃ i ∈ sh.dataDevs, (sh.dev i).flags.discard = false ∧
    ∀ wbi ∈ (sh.dev i).towrite, wbi.op ≠ .discard

/-- A stripe that differs in the contents of parity pages and the state only. -/
structure SameData (sh sh' : StripeHead) : Prop where
  geometry : sh'.toStripeHead = sh.toStripeHead
  batch : sh'.batchHead = sh.batchHead
  dev : ∀ i, sh.isParity i = false → sh'.dev i = sh.dev i
  flags : ∀ i, (sh'.dev i).flags = (sh.dev i).flags
  written : ∀ i, (sh'.dev i).written = (sh.dev i).written

/-- The device once the bios queued on it are drained. -/
def afterDrain (conf : RunConf) (sh : StripeHead) (i : Nat) : R5dev :=
  if (sh.dev i).flags.wantdrain then drained conf (sh.dev i) else sh.dev i

/-- The page of a device once the bios queued on it are drained. -/
def newPage (conf : RunConf) (sh : StripeHead) (i : Nat) : Page := (afterDrain conf sh i).page

theorem SameData.store_parity {sh : StripeHead} {k : Nat} (hk : sh.isParity k)
    (p : Page) : SameData sh (sh.store (.page k) p) := by
  have hcase : ∀ i, (sh.store (.page k) p).dev i =
      if i = k then (sh.dev i).setPage p else sh.dev i := by
    intro i
    by_cases hi : i = k
    · rw [if_pos hi, hi, store_page_dev_self]
    · rw [if_neg hi, store_page_dev_of_ne _ _ _ hi]
  refine ⟨by simp, rfl, fun i hi => ?_, fun i => ?_, fun i => ?_⟩
  · have hne : i ≠ k := fun heq => by
      rw [heq, hk] at hi
      cases hi
    rw [hcase, if_neg hne]
  · rw [hcase]
    split_ifs <;> simp
  · rw [hcase]
    split_ifs <;> simp

theorem SameData.trans {sh sh' sh'' : StripeHead} (h : SameData sh sh') (h' : SameData sh' sh'') :
    SameData sh sh'' where
  geometry := h'.geometry.trans h.geometry
  batch := h'.batch.trans h.batch
  dev i hi := (h'.dev i (by rw [h.geometry]; exact hi)).trans (h.dev i hi)
  flags i := (h'.flags i).trans (h.flags i)
  written i := (h'.written i).trans (h.written i)

theorem SameData.setPQ {sh : StripeHead} (h : ValidPQ sh.toStripeHead) (p q : Page) :
    SameData sh (setPQ sh p q) := by
  have hpd := isParity_eq_true.mpr (.inl h.pd_cast)
  have hqd := isParity_eq_true.mpr (.inr h.qd_cast)
  refine (SameData.store_parity hpd p).trans (SameData.store_parity ?_ q)
  rw [store_geometry]
  exact hqd

/-! ## The drain in a write -/

/-- The data devices hold the new data, parity devices are as in `sh1`. -/
structure DrainedData (conf : RunConf) (sh sh1 sh2 : StripeHead) : Prop where
  geometry : sh2.toStripeHead = sh.toStripeHead
  state : sh2.reconstructState = sh1.reconstructState
  lone : sh2.batchHead = false
  data : ∀ i ∈ sh.dataDevs, sh2.dev i = afterDrain conf sh i
  parity : ∀ i < sh.disks, sh.isParity i = true → sh2.dev i = sh1.dev i
  same : SameData sh sh1

section Write

variable {conf : RunConf} {sh : StripeHead} (hw : WriteReady conf.level sh)
include hw

theorem WriteReady.parity_not_drained {i : Nat} (hi : i < sh.disks)
    (hp : sh.isParity i) : (sh.dev i).flags.wantdrain = false := by
  by_contra hd
  exact (hw.drain_iff i hi).mp (by simpa using hd) (hw.parity_idle i hi hp)

/-- After the drain the data devices hold the new data and are marked as written exactly if
bios were queued; parity devices are as before. -/
theorem WriteReady.biodrain {sh1 : StripeHead} (hs : SameData sh sh1) :
    ∃ sh2, opsRunBiodrain conf sh1 [] = some (sh2, []) ∧ DrainedData conf sh sh1 sh2 := by
  have hdisks : sh1.disks = sh.disks := by rw [hs.geometry]
  obtain ⟨sh2, hrun, hdr⟩ := biodrain_loop conf sh1.disks sh1 (hs.batch.trans hw.lone)
    fun i hi _ => by
      rw [hs.written]
      exact hw.not_written i (hdisks ▸ hi)
  refine ⟨sh2, hrun, ⟨hdr.geometry.trans hs.geometry, hdr.state,
    hdr.batch.trans (hs.batch.trans hw.lone), fun i hi => ?_, fun i hi hp => ?_, hs⟩⟩
  · obtain ⟨hlt, hdata⟩ := mem_dataDevs.mp hi
    rw [hdr.dev i, hs.dev i hdata, hdisks]
    simp [hlt, afterDrain]
  · rw [hdr.dev i, hs.flags, hw.parity_not_drained hi hp]
    simp

theorem WriteReady.afterDrain_written {i : Nat} (hi : i < sh.disks) :
    (!(afterDrain conf sh i).written.isEmpty) = (sh.dev i).flags.wantdrain := by
  unfold afterDrain
  cases hd : (sh.dev i).flags.wantdrain with
  | true =>
    have hne := (hw.drain_iff i hi).mp hd
    rw [if_pos rfl, drained_written]
    simpa using hne
  | false =>
    rw [if_neg (by simp), hw.not_written i hi]
    rfl

theorem WriteReady.afterDrain_inJournal {i : Nat} (hi : i < sh.disks) :
    (afterDrain conf sh i).flags.inJournal = false := by
  unfold afterDrain
  split_ifs
  · exact drainDev_inJournal conf _
  · exact hw.noJournal i hi

/-- Some data device is not being discarded after the drain either. -/
theorem WriteReady.afterDrain_discard :
    ∃ i ∈ sh.dataDevs, (afterDrain conf sh i).flags.discard = false := by
  obtain ⟨i, hi, hflag, hops⟩ := hw.some_data
  refine ⟨i, hi, ?_⟩
  unfold afterDrain
  split_ifs
  · rw [drained_discard conf hops, hflag]
  · exact hflag

/-- Of a queue in order, the new page has what its writes cover; the rest is old. -/
theorem WriteReady.newPage_overlaid {i : Nat} (hi : i < sh.disks)
    (hq : InOrder (sh.dev i).towrite) :
    Overlaid (sh.dev i).towrite (sh.dev i).sector (sh.dataPage i) (newPage conf sh i) := by
  unfold newPage afterDrain
  by_cases hd : (sh.dev i).flags.wantdrain
  · rw [if_pos hd]
    exact drainDev_overlaid conf ((sh.dev i).modifyFlags _) hq
  · have hempty : (sh.dev i).towrite = [] := by
      by_contra hne
      exact hd ((hw.drain_iff i hi).mpr hne)
    rw [if_neg hd, hempty]
    exact ⟨fun _ h => absurd h not_mem_nil, fun _ _ => rfl⟩

/-! ### Sums over devices -/

/-- The old contents of the devices to be written. -/
def oldPending (sh : StripeHead) (i : Nat) : Page :=
  if (sh.dev i).flags.wantdrain then sh.dataPage i else 0

/-- The new contents of the devices to be written. -/
def newPending (conf : RunConf) (sh : StripeHead) (i : Nat) : Page :=
  if (sh.dev i).flags.wantdrain then newPage conf sh i else 0

omit hw in
theorem sum_range_eq_wsum (sh : Geometry.StripeHead) (g : Nat → Page)
    (h0 : ∀ i < sh.disks, sh.isParity i → g i = 0) :
    ∑ i ∈ Finset.range sh.disks, g i = wsum sh.dataDevs (fun _ => (1 : GF256)) g := by
  rw [wsum_one]
  refine (Finset.sum_subset (Finset.filter_subset _ _) fun i hi hnot => ?_).symm
  refine h0 i (Finset.mem_range.mp hi) ?_
  by_contra hpar
  exact hnot (Finset.mem_filter.mpr ⟨hi, by simpa using hpar⟩)

omit hw in
/-- The exchange of old for new data in a sum. -/
theorem wsum_exchange_pages (g : Nat → GF256) :
    wsum sh.dataDevs g sh.dataPage + wsum sh.dataDevs g (oldPending sh) +
      wsum sh.dataDevs g (newPending conf sh) = wsum sh.dataDevs g (newPage conf sh) := by
  refine wsum_exchange GF256 g (fun i => (sh.dev i).flags.wantdrain) fun i _ hd => ?_
  simp [newPage, afterDrain, hd, dataPage]

/-! ### Level 4 and 5 -/

omit hw in
theorem filterMap_down_ne_nil {n i : Nat} {p : Nat → Bool} (hi : i < n) (hp : p i) :
    ((down n).filterMap fun i => if p i then some (page i) else none) ≠ [] := by
  intro hnil
  have hnone := filterMap_eq_nil_iff.mp hnil i (mem_down.mpr hi)
  simp [hp] at hnone

theorem WriteReady.prexor5 (tx : AsyncTx) : opsRunPrexor5 tx sh = some (sh.store (.page sh.pd)
    (sh.dataPage sh.pd + wsum sh.dataDevs (fun _ => (1 : GF256)) (oldPending sh))) := by
  have hsel : ((down sh.disks).filterMap fun i =>
      if (sh.dev i).flags.inJournal then some (origPage i)
      else if (sh.dev i).flags.wantdrain then some (.page i) else none) =
      (down sh.disks).filterMap fun i =>
        if (sh.dev i).flags.wantdrain then some (page i) else none := by
    refine filterMap_congr fun i hi => ?_
    rw [hw.noJournal i (mem_down.mp hi)]
    rfl
  obtain ⟨i, hi, hpend⟩ := hw.pending
  have hne := filterMap_down_ne_nil (p := fun i => (sh.dev i).flags.wantdrain) hi
    ((hw.drain_iff i hi).mpr hpend)
  unfold opsRunPrexor5 asyncXor
  rw [hw.lone, if_neg (by simp)]
  dsimp only
  rw [hsel, if_neg, tail_cons, tx.xorBlocks_eq, List.sum_cons,
    sum_load_down sh (fun i => (sh.dev i).flags.wantdrain), sum_range_eq_wsum]
  · rfl
  · intro j hj hp
    rw [hw.parity_not_drained hj hp]
    rfl
  · rw [length_cons]
    have := length_pos_of_ne_nil hne
    omega

variable {sh1 sh2 : StripeHead} (hd : DrainedData conf sh sh1 sh2)
include hd

omit hw in
theorem DrainedData.page {i : Nat} (hi : i ∈ sh.dataDevs) :
    (sh2.dev i).page = newPage conf sh i := by
  rw [hd.data i hi, newPage]

/-- The scan for a discarded stripe finds a device that is not discarded. -/
theorem DrainedData.not_allDiscard {skip : Nat → Bool}
    (hskip : ∀ i, skip i → sh.isParity i) : allDiscard sh2 skip = false := by
  obtain ⟨i, hi, hdisc⟩ := hw.afterDrain_discard
  obtain ⟨hlt, hdata⟩ := mem_dataDevs.mp hi
  have hdisks : sh2.disks = sh.disks := by rw [hd.geometry]
  rw [allDiscard, all_eq_false]
  refine ⟨i, mem_range.mpr (hdisks ▸ hlt), ?_⟩
  have hs : skip i = false := by
    by_contra hne
    have := hskip i (by simpa using hne)
    rw [hdata] at this
    cases this
  rw [hd.data i hi, hdisc, hs]
  simp

theorem DrainedData.inJournal {i : Nat} (hi : i < sh.disks) :
    (sh2.dev i).flags.inJournal = false := by
  cases hp : sh.isParity i with
  | false =>
    rw [hd.data i (mem_dataDevs.mpr ⟨hi, hp⟩)]
    exact hw.afterDrain_inJournal hi
  | true =>
    rw [hd.parity i hi hp, hd.same.flags]
    exact hw.noJournal i hi

/-- What the parity loops see as written is what was to be drained. -/
theorem DrainedData.written_eq {i : Nat} (hi : i < sh.disks) :
    (!(sh2.dev i).written.isEmpty) = (sh.dev i).flags.wantdrain := by
  cases hp : sh.isParity i with
  | false =>
    rw [hd.data i (mem_dataDevs.mpr ⟨hi, hp⟩)]
    exact hw.afterDrain_written hi
  | true =>
    rw [hd.parity i hi hp, hd.same.written, hw.not_written i hi, hw.parity_not_drained hi hp]
    rfl

theorem DrainedData.pd_page : sh2.dataPage sh.pd = sh1.dataPage sh.pd := by
  rw [dataPage, hd.parity _ hw.idx.pd_lt_disks
    (isParity_eq_true.mpr (.inl hw.idx.pd_cast))]
  rfl

/-- A level-5 reconstruction of a drained stripe is one pass over the stripe. -/
theorem DrainedData.reconstruct5_eq {tx : AsyncTx} {sh3 : StripeHead}
    (hone : reconstruct5One tx sh2 sh2 = some sh3) :
    opsRunReconstruct5 tx sh2 [] = some (sh3, []) := by
  have hskip : ∀ i : Nat, decide ((i : Int) = sh2.idx.pdIdx) → sh.isParity i := by
    intro i hi
    rw [hd.geometry] at hi
    exact isParity_eq_true.mpr (.inl (by simpa using hi))
  unfold opsRunReconstruct5
  rw [hd.not_allDiscard hw hskip, if_neg (by simp), hone, Option.bind_some, hd.lone]
  rfl

theorem DrainedData.reconstruct5_rmw (tx : AsyncTx)
    (hst : sh1.reconstructState = .prexorDrainRun) :
    opsRunReconstruct5 tx sh2 [] = some (sh2.store (.page sh.pd) (sh1.dataPage sh.pd +
      wsum sh.dataDevs (fun _ => (1 : GF256)) (newPending conf sh)), []) := by
  have hdisks : sh2.disks = sh.disks := by rw [hd.geometry]
  have hpd : sh2.pd = sh.pd := by rw [hd.geometry]
  have hsel : ((down sh2.disks).filterMap fun i =>
      if !(sh2.dev i).written.isEmpty || (sh2.dev i).flags.inJournal then some (PagePtr.page i)
      else none) = (down sh2.disks).filterMap fun i =>
        if (sh.dev i).flags.wantdrain then some (PagePtr.page i) else none := by
    refine List.filterMap_congr fun i hi => ?_
    rw [hdisks, mem_down] at hi
    rw [hd.written_eq hw hi, hd.inJournal hw hi, Bool.or_false]
  refine hd.reconstruct5_eq hw ?_
  unfold reconstruct5One
  rw [if_pos (hd.state.trans hst), hsel, xorOrCopy_dropDst,
    sum_load_down sh2 (fun i => (sh.dev i).flags.wantdrain), hpd, hdisks,
    sum_range_eq_wsum sh.toStripeHead]
  · rw [load_page, ← hd.pd_page hw]
    congr 2
    refine congrArg (sh2.dataPage sh.pd + ·) (wsum_congr fun i hi => ?_)
    rw [hd.page hi, newPending]
  · intro i hi hp
    rw [hw.parity_not_drained hi hp]
    rfl

theorem DrainedData.reconstruct5_rcw (tx : AsyncTx) (hl : conf.level ≠ .raid6)
    (hst : sh1.reconstructState ≠ .prexorDrainRun) :
    opsRunReconstruct5 tx sh2 [] = some (sh2.store (.page sh.pd)
      (wsum sh.dataDevs (fun _ => (1 : GF256)) (newPage conf sh)), []) := by
  have hdisks : sh2.disks = sh.disks := by rw [hd.geometry]
  have hpd : sh2.pd = sh.pd := by rw [hd.geometry]
  obtain ⟨i, hi, -⟩ := hw.some_data
  obtain ⟨hlt, hne⟩ := (hw.idx.mem_dataDevs_iff hl).mp hi
  have hsel : ∀ n, ((down n).filterMap fun i =>
      if i ≠ sh2.pd then some (PagePtr.page i) else none) =
      (down n).filterMap fun i => if decide (i ≠ sh.pd) then some (PagePtr.page i) else none := by
    intro n
    rw [hpd]
    refine List.filterMap_congr fun i _ => ?_
    by_cases h : i = sh.pd <;> simp [h]
  refine hd.reconstruct5_eq hw ?_
  unfold reconstruct5One
  rw [if_neg (fun h => hst (hd.state.symm.trans h)), hsel, xorOrCopy_zeroDst,
    sum_load_down sh2 (fun i => decide (i ≠ sh.pd)), hpd, hdisks,
    sum_range_eq_wsum sh.toStripeHead]
  · congr 2
    refine wsum_congr fun j hj => ?_
    have hjp := ((hw.idx.mem_dataDevs_iff hl).mp hj).2
    rw [hd.page hj, if_pos (by simpa using hjp)]
  · -- without `Q` the only parity device is the one left out
    intro j hj hp
    have hjp : j = sh.pd := by
      by_contra hjp
      have hdata := (hw.idx.mem_dataDevs_iff hl).mpr ⟨hj, hjp⟩
      rw [(mem_dataDevs.mp hdata).2] at hp
      cases hp
    simp [hjp]
  · exact filterMap_down_ne_nil (hdisks ▸ hlt) (by simpa using hne)

/-! ### Level 6 -/

theorem DrainedData.reconstruct6_eq (tx : AsyncTx) {sh3 : StripeHead}
    (hone : reconstruct6One tx true sh2 = some sh3) :
    opsRunReconstruct6 tx sh2 [] = some (sh3, []) := by
  have hskip : ∀ i : Nat, sh2.isParity i → sh.isParity i := by
    intro i hi
    rwa [hd.geometry] at hi
  unfold opsRunReconstruct6
  rw [hd.not_allDiscard hw hskip, if_neg (by simp), hd.lone]
  simp [hone]

theorem DrainedData.noJournal : NoJournal sh2 := fun i hi => by
  rw [hd.geometry] at hi
  exact hd.inJournal hw hi

section

variable (tx : AsyncTx) (hpq : ValidPQ sh.toStripeHead)
  (hmax : syndromeDisks sh.toStripeHead + 2 ≤ tx.maxDisks)
include tx hpq hmax

theorem DrainedData.reconstruct6_rmw
    (hst : sh1.reconstructState = .prexorDrainRun) : opsRunReconstruct6 tx sh2 [] = some (setPQ sh2
      (sh1.dataPage sh.pd + wsum sh.dataDevs (fun _ => (1 : GF256)) (newPending conf sh))
      (sh1.dataPage sh.qd + wsum sh.dataDevs (coefQ sh.toStripeHead) (newPending conf sh)),
      []) := by
  have hqd : sh2.dataPage sh.qd = sh1.dataPage sh.qd := by
    rw [dataPage, hd.parity _ hpq.qd_lt_disks
      (isParity_eq_true.mpr (.inr hpq.qd_cast))]
    rfl
  have hsel : ∀ g : Nat → GF256, wsum sh.dataDevs g
      (fun i => if srcSelected sh2 .written i then sh2.dataPage i else 0) =
      wsum sh.dataDevs g (newPending conf sh) := by
    intro g
    refine wsum_congr fun i hi => ?_
    obtain ⟨hlt, hdata⟩ := mem_dataDevs.mp hi
    have hsrc : srcSelected sh2 .written i = (sh.dev i).flags.wantdrain := by
      have hpar : sh2.isParity i = false := by rw [hd.geometry]; exact hdata
      rw [srcSelected, hpar, hd.inJournal hw hlt, Bool.or_false, Bool.false_or]
      exact hd.written_eq hw hlt
    rw [hsrc, newPending, dataPage, hd.page hi]
  refine hd.reconstruct6_eq hw tx ?_
  unfold reconstruct6One
  rw [if_pos (hd.state.trans hst), asyncGenSyndrome_sources (by rw [hd.geometry]; exact hpq)
    (hd.noJournal hw) tx .written true (by rw [hd.geometry]; exact hmax)]
  simp only [if_true, hd.geometry, hsel, hqd, hd.pd_page hw]

theorem DrainedData.reconstruct6_rcw
    (hst : sh1.reconstructState ≠ .prexorDrainRun) : opsRunReconstruct6 tx sh2 [] = some (setPQ sh2
      (wsum sh.dataDevs (fun _ => (1 : GF256)) (newPage conf sh))
      (wsum sh.dataDevs (coefQ sh.toStripeHead) (newPage conf sh)), []) := by
  have hsel : ∀ g : Nat → GF256, wsum sh.dataDevs g
      (fun i => if srcSelected sh2 .all i then sh2.dataPage i else 0) =
      wsum sh.dataDevs g (newPage conf sh) := by
    intro g
    refine wsum_congr fun i hi => ?_
    rw [srcSelected, Bool.or_true, if_pos rfl, dataPage, hd.page hi]
  refine hd.reconstruct6_eq hw tx ?_
  unfold reconstruct6One
  rw [if_neg (fun h => hst (hd.state.symm.trans h)),
    asyncGenSyndrome_sources (by rw [hd.geometry]; exact hpq)
      (hd.noJournal hw) tx .all false (by rw [hd.geometry]; exact hmax)]
  simp only [false_eq_true, if_false, zero_add, hd.geometry, hsel]

end

end Write

/-! ## Both ways of writing -/

/-- The stripe holds the new data and its parity. -/
structure NewData (conf : RunConf) (sh sh' : StripeHead) : Prop where
  geometry : sh'.toStripeHead = sh.toStripeHead
  data : ∀ i ∈ sh.dataDevs, sh'.dataPage i = newPage conf sh i
  p : sh'.dataPage sh.pd = wsum sh.dataDevs (fun _ => (1 : GF256)) (newPage conf sh)
  q : conf.level = .raid6 →
    sh'.dataPage sh.qd = wsum sh.dataDevs (coefQ sh.toStripeHead) (newPage conf sh)

theorem NewData.consistent {conf : RunConf} {sh sh' : StripeHead} (h : NewData conf sh sh') :
    Consistent conf.level sh' where
  p := by
    rw [h.geometry, h.p]
    exact (wsum_congr h.data).symm
  q hl := by
    rw [h.geometry, h.q hl]
    exact (wsum_congr h.data).symm

/-- The contents of every page are determined. -/
theorem NewData.page_eq {conf : RunConf} {sh a b : StripeHead}
    (hidx : ParityIdx conf.level sh.toStripeHead) (ha : NewData conf sh a)
    (hb : NewData conf sh b) {i : Nat} (hi : i < sh.disks) : a.dataPage i = b.dataPage i := by
  cases hp : sh.isParity i with
  | false =>
    have hmem := mem_dataDevs.mpr ⟨hi, hp⟩
    rw [ha.data i hmem, hb.data i hmem]
  | true =>
    rcases isParity_eq_true.mp hp with hpd | hqd
    · have hcast := hidx.pd_cast
      obtain rfl : i = sh.pd := by omega
      rw [ha.p, hb.p]
    · have hl : conf.level = .raid6 := by
        by_contra hl
        have := hidx.no_qd hl
        omega
      have hcast := (hidx.validPQ hl).qd_cast
      obtain rfl : i = sh.qd := by omega
      rw [ha.q hl, hb.q hl]

section Outcome

variable {conf : RunConf} {sh : StripeHead} (hw : WriteReady conf.level sh)
include hw

theorem WriteReady.newData_store_pd (hl : conf.level ≠ .raid6) {sh1 sh2 : StripeHead}
    (hd : DrainedData conf sh sh1 sh2) {p : Page}
    (hp : p = wsum sh.dataDevs (fun _ => (1 : GF256)) (newPage conf sh)) :
    NewData conf sh (sh2.store (.page sh.pd) p) where
  geometry := (store_geometry _ _ _).trans hd.geometry
  data i hi := by
    have hne : i ≠ sh.pd := fun h => hw.idx.pd_not_data (h ▸ hi)
    rw [dataPage, store_page_dev_of_ne _ _ _ hne, hd.page hi]
  p := by rw [dataPage, store_page_dev_self, setPage_page, hp]
  q h := absurd h hl

theorem WriteReady.newData_setPQ (hpq : ValidPQ sh.toStripeHead) {sh1 sh2 : StripeHead}
    (hd : DrainedData conf sh sh1 sh2) {p q : Page}
    (hp : p = wsum sh.dataDevs (fun _ => (1 : GF256)) (newPage conf sh))
    (hq : q = wsum sh.dataDevs (coefQ sh.toStripeHead) (newPage conf sh)) :
    NewData conf sh (setPQ sh2 p q) where
  geometry := (setPQ_geometry _ _ _).trans hd.geometry
  data i hi := by
    have hnp : i ≠ sh2.pd := fun h => hw.idx.pd_not_data (by rwa [h, hd.geometry] at hi)
    have hnq : i ≠ sh2.qd := fun h => hpq.qd_not_data (by rwa [h, hd.geometry] at hi)
    rw [dataPage, setPQ_dev_of_ne _ _ _ hnp hnq, hd.page hi]
  p := by
    have h := setPQ_page_pd sh2 p q (by rw [hd.geometry]; exact hpq.pd_ne)
    rw [hd.geometry] at h
    exact h.trans hp
  q _ := by
    have h := setPQ_page_qd sh2 p q
    rw [hd.geometry] at h
    exact h.trans hq

theorem WriteReady.prexor6 (tx : AsyncTx) (hpq : ValidPQ sh.toStripeHead)
    (hmax : syndromeDisks sh.toStripeHead + 2 ≤ tx.maxDisks) : opsRunPrexor6 tx sh = some (setPQ sh
      (sh.dataPage sh.pd + wsum sh.dataDevs (fun _ => (1 : GF256)) (oldPending sh))
      (sh.dataPage sh.qd + wsum sh.dataDevs (coefQ sh.toStripeHead) (oldPending sh))) := by
  have hsel : ∀ g : Nat → GF256, wsum sh.dataDevs g
      (fun i => if srcSelected sh .wantDrain i then sh.dataPage i else 0) =
      wsum sh.dataDevs g (oldPending sh) := by
    intro g
    refine wsum_congr fun i hi => ?_
    obtain ⟨hlt, hdata⟩ := mem_dataDevs.mp hi
    have hsrc : srcSelected sh .wantDrain i = (sh.dev i).flags.wantdrain := by
      rw [srcSelected, hdata, hw.noJournal i hlt, Bool.or_false, Bool.false_or]
    rw [hsrc, oldPending]
  unfold opsRunPrexor6
  rw [asyncGenSyndrome_sources hpq hw.noJournal tx .wantDrain true hmax]
  simp only [if_true, hsel]

/-- The read-modify-write of a consistent stripe. -/
theorem WriteReady.rmw (tx : AsyncTx) (hc : Consistent conf.level sh)
    (hmax : conf.level = .raid6 → syndromeDisks sh.toStripeHead + 2 ≤ tx.maxDisks)
    (hst : sh.reconstructState = .prexorDrainRun) :
    ∃ sh', raidRunWrite tx conf true sh [] = some (sh', []) ∧ NewData conf sh sh' := by
  unfold raidRunWrite
  by_cases hl : conf.level = .raid6
  · have hpq := hw.idx.validPQ hl
    simp only [hl, if_true, hw.prexor6 tx hpq (hmax hl), Option.bind_some]
    obtain ⟨sh2, hrun, hd⟩ := hw.biodrain (SameData.setPQ hpq
      (sh.dataPage sh.pd + wsum sh.dataDevs (fun _ => (1 : GF256)) (oldPending sh))
      (sh.dataPage sh.qd + wsum sh.dataDevs (coefQ sh.toStripeHead) (oldPending sh)))
    rw [hrun, Option.bind_some, hd.reconstruct6_rmw hw tx hpq (hmax hl)
      ((setPQ_reconstructState _ _ _).trans hst)]
    refine ⟨_, rfl, hw.newData_setPQ hpq hd ?_ ?_⟩
    · rw [setPQ_page_pd _ _ _ hpq.pd_ne, hc.p, wsum_exchange_pages]
    · rw [setPQ_page_qd, hc.q hl, wsum_exchange_pages]
  · simp only [hl, if_true, if_false, hw.prexor5 tx, Option.bind_some]
    have hpar := isParity_eq_true.mpr (.inl hw.idx.pd_cast)
    obtain ⟨sh2, hrun, hd⟩ := hw.biodrain (SameData.store_parity hpar
      (sh.dataPage sh.pd + wsum sh.dataDevs (fun _ => (1 : GF256)) (oldPending sh)))
    rw [hrun, Option.bind_some,
      hd.reconstruct5_rmw hw tx ((store_reconstructState _ _ _).trans hst)]
    refine ⟨_, rfl, hw.newData_store_pd hl hd ?_⟩
    rw [dataPage, store_page_dev_self, setPage_page, hc.p,
      wsum_exchange_pages]

/-- The reconstruct-write. -/
theorem WriteReady.rcw (tx : AsyncTx)
    (hmax : conf.level = .raid6 → syndromeDisks sh.toStripeHead + 2 ≤ tx.maxDisks)
    (hst : sh.reconstructState ≠ .prexorDrainRun) :
    ∃ sh', raidRunWrite tx conf false sh [] = some (sh', []) ∧ NewData conf sh sh' := by
  unfold raidRunWrite
  have hsame : SameData sh sh := ⟨rfl, rfl, fun _ _ => rfl, fun _ => rfl, fun _ => rfl⟩
  obtain ⟨sh2, hrun, hd⟩ := hw.biodrain hsame
  simp only [false_eq_true, if_false, Option.bind_some, hrun]
  by_cases hl : conf.level = .raid6
  · have hpq := hw.idx.validPQ hl
    rw [if_pos hl, hd.reconstruct6_rcw hw tx hpq (hmax hl) hst]
    exact ⟨_, rfl, hw.newData_setPQ hpq hd rfl rfl⟩
  · rw [if_neg hl, hd.reconstruct5_rcw hw tx hl hst]
    exact ⟨_, rfl, hw.newData_store_pd hl hd rfl⟩

end Outcome

theorem NewData.overlaid {conf : RunConf} {sh sh' : StripeHead} (h : NewData conf sh sh')
    (hw : WriteReady conf.level sh) {i : Nat} (hi : i ∈ sh.dataDevs)
    (hq : InOrder (sh.dev i).towrite) :
    Overlaid (sh.dev i).towrite (sh.dev i).sector (sh.dataPage i) (sh'.dataPage i) :=
  h.data i hi ▸ hw.newPage_overlaid (mem_dataDevs.mp hi).1 hq

/-- **Read-modify-write equals reconstruct-write.** A consistent stripe with writes pending on
some of its data devices, run in the `prexor_drain` and in the `drain` state: both runs end, all
pages agree, the data pages are the drained ones, which hold the bytes of the queued writes and
the old ones elsewhere, and the parity pages hold the parity of the new data. -/
theorem read_modify_write_eq_reconstruct_write (tx : AsyncTx) (conf : RunConf) (sh : StripeHead)
    (hw : WriteReady conf.level sh) (hc : Consistent conf.level sh)
    (hmax : conf.level = .raid6 → syndromeDisks sh.toStripeHead + 2 ≤ tx.maxDisks) :
    ∃ rmw rcw : StripeHead,
      raidRunWrite tx conf true { sh with reconstructState := .prexorDrainRun } [] =
        some (rmw, []) ∧
      raidRunWrite tx conf false { sh with reconstructState := .drainRun } [] =
        some (rcw, []) ∧
      (∀ i < sh.disks, rmw.dataPage i = rcw.dataPage i) ∧
      (∀ i ∈ sh.dataDevs, rmw.dataPage i = newPage conf sh i) ∧
      (∀ i ∈ sh.dataDevs, InOrder (sh.dev i).towrite →
        Overlaid (sh.dev i).towrite (sh.dev i).sector (sh.dataPage i) (rmw.dataPage i)) ∧
      Consistent conf.level rmw ∧ Consistent conf.level rcw := by
  have hready : ∀ state, WriteReady conf.level { sh with reconstructState := state } := fun _ =>
    ⟨hw.idx, hw.lone, hw.noJournal, hw.drain_iff, hw.parity_idle, hw.not_written, hw.pending,
      hw.some_data⟩
  obtain ⟨rmw, hrmw, hnew⟩ := (hready .prexorDrainRun).rmw tx ⟨hc.p, hc.q⟩ hmax rfl
  obtain ⟨rcw, hrcw, hnew'⟩ := (hready .drainRun).rcw tx hmax (by simp)
  have hnew : NewData conf sh rmw := ⟨hnew.geometry, hnew.data, hnew.p, hnew.q⟩
  have hnew' : NewData conf sh rcw := ⟨hnew'.geometry, hnew'.data, hnew'.p, hnew'.q⟩
  exact ⟨rmw, rcw, hrmw, hrcw, fun i hi => hnew.page_eq hw.idx hnew' hi, hnew.data,
    fun i hi => hnew.overlaid hw hi, hnew.consistent, hnew'.consistent⟩

/-- A write of ones to the first half of the block at sector 0. -/
def exampleWrite : Bio := ⟨.write, 0, false, false, [⟨fun _ => 1, 0, 2048, by decide⟩]⟩

/-- Four devices of a level-6 array, `P` on device 2 and `Q` on device 3. The pages are zero, and
the first half of device 0 is to be overwritten. -/
def exampleStripe : StripeHead where
  sector := 0
  disks := 4
  idx := ⟨2, 3, false⟩
  dev i :=
    { flags := { wantdrain := decide (i = 0) }, origPage := 0, redirect := none, toread := []
      towrite := if i = 0 then [exampleWrite] else []
      written := [], sector := 0 }
  reconstructState := .idle
  target := -1
  target2 := -1
  overwriteDisks := 0
  batchHead := false
  prereadActive := false
  computeRun := false
  expandReady := false
  handle := false

theorem exampleWrite_inOrder : InOrder [exampleWrite] :=
  ⟨by simp [exampleWrite], pairwise_singleton ..⟩

theorem exampleWrite_bytes {page : Page} (h : Overlaid [exampleWrite] 0 0 page) (k : Fin 4096) :
    page k = if k.val < 2048 then 1 else 0 := by
  split_ifs with hk
  · exact h.covered exampleWrite mem_cons_self k 1
      (by simp [Bio.byteAt, vecsAt, vecsByte, pageByte, exampleWrite, hk])
  · refine h.kept k fun bio hbio => ?_
    obtain rfl := mem_singleton.mp hbio
    simp [Bio.byteAt, vecsAt, vecsByte, exampleWrite, hk]

theorem exampleStripe_ready : WriteReady .raid6 exampleStripe where
  idx := ⟨by decide, by decide, fun _ => ⟨by decide, by decide, by decide, by decide, by decide⟩,
    fun h => absurd rfl h⟩
  lone := rfl
  noJournal _ _ := rfl
  drain_iff i _ := by by_cases hi : i = 0 <;> simp [exampleStripe, hi]
  parity_idle i _ hp := by
    have hne : i ≠ 0 := fun h => (by cases h ▸ hp)
    simp [exampleStripe, hne]
  not_written _ _ := rfl
  pending := ⟨0, by decide, by simp [exampleStripe]⟩
  some_data := ⟨1, by decide, rfl, by simp [exampleStripe]⟩

theorem exampleStripe_consistent : Consistent .raid6 exampleStripe := by
  have hzero : exampleStripe.dataPage = fun _ => 0 := rfl
  constructor
  · rw [hzero]
    simp [wsum]
  · intro _
    rw [hzero]
    simp [wsum]

theorem read_modify_write_exampleStripe : ∃ rmw rcw : StripeHead,
      raidRunWrite (.direct 255) ⟨.raid6, true, false⟩ true
        { exampleStripe with reconstructState := .prexorDrainRun } [] = some (rmw, []) ∧
      raidRunWrite (.direct 255) ⟨.raid6, true, false⟩ false
        { exampleStripe with reconstructState := .drainRun } [] = some (rcw, []) ∧
      (∀ i < exampleStripe.disks, rmw.dataPage i = rcw.dataPage i) ∧
      (∀ k : Fin 4096, rmw.dataPage 0 k = if k.val < 2048 then 1 else 0) ∧
      Consistent .raid6 rmw ∧ Consistent .raid6 rcw := by
  obtain ⟨rmw, rcw, hrmw, hrcw, hsame, -, hbytes, hc⟩ :=
    read_modify_write_eq_reconstruct_write (.direct 255) ⟨.raid6, true, false⟩ exampleStripe
      exampleStripe_ready exampleStripe_consistent fun _ => by decide
  exact ⟨rmw, rcw, hrmw, hrcw, hsame, exampleWrite_bytes
    (hbytes 0 (by decide) exampleWrite_inOrder),
    hc⟩

end MdRaid.Stripe
