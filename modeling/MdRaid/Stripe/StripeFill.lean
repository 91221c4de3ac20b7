import MdRaid.Stripe.CheckOps

/-!
# Filling a stripe that is syncing

One pass of `handle_stripe_fill` over a stripe that is syncing does one of two
things. If the blocks of failed devices are all that is missing, it starts the
computation of these; otherwise it starts reads for all other blocks that are
missing.
-/

namespace MdRaid.Stripe

open MdRaid.Geometry Loops DevFlags Finset List R5dev StripeHead Bool

/-! ## Counting -/

section Count

variable {sh : StripeHead}

theorem mem_devs {f : DevFlags → Bool} {i : Nat} :
    i ∈ sh.devs f ↔ i < sh.disks ∧ f (sh.dev i).flags := by
  rw [StripeHead.devs, Finset.mem_filter, Finset.mem_range]

theorem mem_failedDevs {i : Nat} :
    i ∈ sh.failedDevs ↔ i < sh.disks ∧ (sh.dev i).flags.insync = false := by
  rw [failedDevs, mem_filter, mem_down, not_eq_true']

theorem nodup_failedDevs : sh.failedDevs.Nodup := (nodup_down _).filter _

/-- The failed devices as they are counted. -/
theorem failedDevs_cases {failed : Finset Nat}
    (hfailed : ∀ i, i ∈ failed ↔ i < sh.disks ∧ (sh.dev i).flags.insync = false)
    (hcard : failed.card ≤ 2) :
    (failed = ∅ ∧ sh.failedDevs = []) ∨ (∃ a, failed = {a} ∧ sh.failedDevs = [a]) ∨
      ∃ a b, a ≠ b ∧ failed = {a, b} ∧ sh.failedDevs = [a, b] := by
  have heq : failed = sh.failedDevs.toFinset := by
    ext i
    rw [mem_toFinset, mem_failedDevs, hfailed]
  have hlen : sh.failedDevs.length ≤ 2 := by
    rw [← toFinset_card_of_nodup nodup_failedDevs, ← heq]
    exact hcard
  have hnd : sh.failedDevs.Nodup := nodup_failedDevs
  rw [heq]
  match hl : sh.failedDevs, hlen, hnd with
  | [], _, _ => exact .inl ⟨rfl, rfl⟩
  | [a], _, _ => exact .inr (.inl ⟨a, rfl, rfl⟩)
  | [a, b], _, hnd =>
    refine .inr (.inr ⟨a, b, ?_, ?_, rfl⟩)
    · rintro rfl
      simp at hnd
    · simp

end Count

/-! ## Reads -/

/-- A block that is neither here nor on its way, on a device that can be read. -/
def Unread (sh : StripeHead) (i : Nat) : Prop :=
  (sh.dev i).flags.locked = false ∧ (sh.dev i).flags.uptodate = false ∧
    (sh.dev i).flags.insync = true

instance (sh : StripeHead) (i : Nat) : Decidable (Unread sh i) := by
  unfold Unread
  infer_instance

def R5dev.startRead (dev : R5dev) : R5dev :=
  dev.modifyFlags fun f => { f with locked := true, wantread := true }

/-- Reads started for the blocks of a list. -/
def readIn (l : List Nat) (sh : StripeHead) : StripeHead :=
  { sh with dev := fun j => if j ∈ l ∧ Unread sh j then (sh.dev j).startRead else sh.dev j }

theorem readIn_of_none {l : List Nat} {sh : StripeHead} (h : ∀ j ∈ l, ¬ Unread sh j) :
    readIn l sh = sh := by
  have hdev : (fun j => if j ∈ l ∧ Unread sh j then (sh.dev j).startRead else sh.dev j) =
      sh.dev := funext fun j => if_neg fun hj => h j hj.1 hj.2
  rw [readIn, hdev]

section

variable {conf : FetchConf} {sh : StripeHead} {s : StripeHeadState}

theorem needThisBlock_syncing (hs : s.syncing) (i : Nat) : needThisBlock conf sh s i =
      (!(sh.dev i).flags.locked && !(sh.dev i).flags.uptodate) := by
  unfold needThisBlock
  dsimp only
  rw [hs]
  by_cases h : ((sh.dev i).flags.locked || (sh.dev i).flags.uptodate)
  · rw [if_pos h, ← Bool.not_or, h]
    rfl
  · have hfree : (!(sh.dev i).flags.locked && !(sh.dev i).flags.uptodate) := by
      rw [← Bool.not_or, Bool.eq_false_iff.mpr h]
      rfl
    rw [if_neg h, hfree]
    refine ite_eq_left_iff.mpr fun _ => if_pos ?_
    rw [Bool.true_or, Bool.true_or]

theorem fetchBlock_skip {i disks : Nat}
    (h : needThisBlock conf sh s i = false) : fetchBlock conf sh s i disks = some
    ⟨sh, s, false⟩ := by
  unfold fetchBlock
  rw [h]
  rfl

end

/-- The two ways in which `fetch_block` starts a computation. -/
def Computes (sh : StripeHead) (s : StripeHeadState) (i disks : Nat) : Prop :=
  (s.uptodate + 1 = disks ∧ ((sh.idx.qdIdx ≥ 0 ∧ sh.idx.pdIdx = i) ∨
    (s.failed ≠ 0 ∧ ((i : Int) = s.failedNum0 ∨ (i : Int) = s.failedNum1)))) ∨
  (s.uptodate + 2 = disks ∧ s.failed ≥ 2)

theorem fetchBlock_read {conf : FetchConf} {sh : StripeHead} {s : StripeHeadState} {i disks : Nat}
    (hneed : needThisBlock conf sh s i) (hlone : sh.batchHead = false)
    (hidle : (sh.dev i).flags.wantcompute = false ∧ (sh.dev i).flags.wantread = false)
    (hnot : ¬ Computes sh s i disks) :
    fetchBlock conf sh s i disks = some (if (sh.dev i).flags.insync then
      ⟨sh.modifyDev i startRead, { s with locked := s.locked + 1 }, false⟩
      else ⟨sh, s, false⟩) := by
  unfold fetchBlock
  dsimp only
  rw [if_pos hneed, hidle.1, hidle.2, hlone, if_neg (by decide), if_neg fun h => hnot (.inl h),
    if_neg fun h => hnot (.inr h)]
  split_ifs <;> rfl

theorem readIn_cons_of_not {i : Nat} {is : List Nat} {sh : StripeHead} (h : ¬ Unread sh i) :
    readIn (i :: is) sh = readIn is sh := by
  have hdev : (fun j => if j ∈ i :: is ∧ Unread sh j then (sh.dev j).startRead else sh.dev j) =
      fun j => if j ∈ is ∧ Unread sh j then (sh.dev j).startRead else sh.dev j := by
    funext j
    refine if_congr ⟨fun hj => ⟨?_, hj.2⟩, fun hj => ⟨mem_cons_of_mem i hj.1, hj.2⟩⟩ rfl rfl
    exact (mem_cons.mp hj.1).resolve_left fun heq => h (heq ▸ hj.2)
  rw [readIn, hdev, readIn]

theorem unread_startRead {i j : Nat} {sh : StripeHead} (hne : j ≠ i) :
    Unread (sh.modifyDev i startRead) j ↔ Unread sh j := by
  rw [Unread, Unread, modifyDev_dev_of_ne _ _ _ hne]

theorem readIn_cons {i : Nat} {is : List Nat} {sh : StripeHead} (hi : i ∉ is) (h : Unread sh i) :
    readIn (i :: is) sh = readIn is (sh.modifyDev i startRead) := by
  have hdev : (fun j => if j ∈ i :: is ∧ Unread sh j then (sh.dev j).startRead else sh.dev j) =
      fun j => if j ∈ is ∧ Unread (sh.modifyDev i startRead) j then
        ((sh.modifyDev i startRead).dev j).startRead
      else (sh.modifyDev i startRead).dev j := by
    funext j
    by_cases hj : j = i
    · subst hj
      rw [if_pos ⟨mem_cons_self, h⟩, if_neg fun hmem => hi hmem.1,
        StripeHead.modifyDev_dev_self]
    · rw [StripeHead.modifyDev_dev_of_ne _ _ _ hj]
      refine if_congr (and_congr ?_ (unread_startRead hj).symm) rfl rfl
      rw [List.mem_cons]
      exact or_iff_right hj
  rw [readIn, hdev]
  rfl

/-- **A pass that starts reads.** -/
theorem fillLoop_reads {conf : FetchConf} {disks : Nat} :
    ∀ {l : List Nat} {sh : StripeHead} {s : StripeHeadState}, l.Nodup → s.syncing →
      sh.batchHead = false →
      (∀ i ∈ l, (sh.dev i).flags.locked = false → (sh.dev i).flags.uptodate = false →
        (sh.dev i).flags.wantcompute = false ∧ (sh.dev i).flags.wantread = false ∧
          ¬ Computes sh s i disks) →
      ∃ k, fillLoop conf disks l sh s = some (readIn l sh, { s with locked := s.locked + k }) ∧
        (k = 0 → ∀ i ∈ l, ¬ Unread sh i)
  | [], sh, s, _, _, _, _ => ⟨0, by rw [readIn_of_none fun _ h => absurd h not_mem_nil]; rfl,
      fun _ _ h => absurd h not_mem_nil⟩
  | i :: is, sh, s, hnd, hs, hlone, hidle => by
    obtain ⟨hi, hnd'⟩ := nodup_cons.mp hnd
    have hrest : ∀ j ∈ is, (sh.dev j).flags.locked = false → (sh.dev j).flags.uptodate = false →
        (sh.dev j).flags.wantcompute = false ∧ (sh.dev j).flags.wantread = false ∧
          ¬ Computes sh s j disks := fun j hj => hidle j (mem_cons_of_mem i hj)
    by_cases hun : Unread sh i
    · have hneed : needThisBlock conf sh s i := by
        rw [needThisBlock_syncing hs, hun.1, hun.2.1]
        rfl
      obtain ⟨hc, hr, hnot⟩ := hidle i mem_cons_self hun.1 hun.2.1
      have hrest' : ∀ j ∈ is,
          ((sh.modifyDev i startRead).dev j).flags.locked = false →
          ((sh.modifyDev i startRead).dev j).flags.uptodate = false →
          ((sh.modifyDev i startRead).dev j).flags.wantcompute = false ∧
          ((sh.modifyDev i startRead).dev j).flags.wantread = false ∧
          ¬ Computes (sh.modifyDev i startRead) { s with locked := s.locked + 1 } j
            disks := by
        intro j hj
        rw [modifyDev_dev_of_ne _ _ _ (ne_of_mem_of_not_mem hj hi)]
        exact hrest j hj
      obtain ⟨k, hloop, -⟩ := @fillLoop_reads _ _ _ (sh.modifyDev i startRead)
        { s with locked := s.locked + 1 } hnd' hs hlone hrest'
      refine ⟨k + 1, ?_, fun hk => absurd hk (Nat.succ_ne_zero k)⟩
      rw [fillLoop, fetchBlock_read hneed hlone ⟨hc, hr⟩ hnot, if_pos hun.2.2, Option.bind_some,
        if_neg (by simp), hloop, readIn_cons hi hun, add_assoc, add_comm 1 k]
    · obtain ⟨k, hloop, hnone⟩ := @fillLoop_reads _ _ _ sh s hnd' hs hlone hrest
      refine ⟨k, ?_, fun hk j hj => ?_⟩
      · have hskip : fetchBlock conf sh s i disks = some ⟨sh, s, false⟩ := by
          cases hneed : needThisBlock conf sh s i with
          | false => exact fetchBlock_skip hneed
          | true =>
            have hfree := hneed
            rw [needThisBlock_syncing hs, and_eq_true, not_eq_true',
              not_eq_true'] at hfree
            obtain ⟨hc, hr, hnot⟩ := hidle i mem_cons_self hfree.1 hfree.2
            rw [fetchBlock_read hneed hlone ⟨hc, hr⟩ hnot,
              if_neg fun hin => hun ⟨hfree.1, hfree.2, hin⟩]
        rw [fillLoop, hskip, Option.bind_some, if_neg (by simp), hloop,
          readIn_cons_of_not hun]
      · rcases mem_cons.mp hj with rfl | hj
        · exact hun
        · exact hnone hk j hj

/-! ## Computations -/

/-- **A pass that starts a computation** does so at the first block that is missing. -/
theorem fillLoop_computes {conf : FetchConf} {disks : Nat} {sh : StripeHead} {s : StripeHeadState}
    (hs : s.syncing) {R : Fetch → Prop} (hfetch : ∀ i < disks, (sh.dev i).flags.uptodate = false →
        ∃ f, fetchBlock conf sh s i disks = some f ∧ f.stop ∧ R f) :
    ∀ {l : List Nat}, (∀ i ∈ l, i < disks) → (∃ i ∈ l, (sh.dev i).flags.uptodate = false) →
      ∃ f, R f ∧ fillLoop conf disks l sh s = some (f.sh, f.s)
  | [], _, ⟨_, h, _⟩ => absurd h not_mem_nil
  | i :: is, hlt, ⟨j, hj, hmiss⟩ => by
    by_cases hi : (sh.dev i).flags.uptodate = false
    · obtain ⟨f, hf, hstop, hR⟩ := hfetch i (hlt i mem_cons_self) hi
      refine ⟨f, hR, ?_⟩
      rw [fillLoop, hf, Option.bind_some, if_pos hstop]
    · have hskip : needThisBlock conf sh s i = false := by
        rw [needThisBlock_syncing hs, Bool.not_eq_false _ |>.mp hi, Bool.not_true, Bool.and_false]
      have hj' : j ∈ is := (mem_cons.mp hj).resolve_left fun h => hi (h ▸ hmiss)
      obtain ⟨f, hR, hloop⟩ := fillLoop_computes hs hfetch
        (fun k hk => hlt k (mem_cons_of_mem i hk)) ⟨j, hj', hmiss⟩
      refine ⟨f, hR, ?_⟩
      rw [fillLoop, fetchBlock_skip hskip, Option.bind_some, if_neg (by simp), hloop]

/-- The devices a computation is to bring back are the targets, one or two. -/
structure Targets (sh : StripeHead) (targets : Finset Nat) : Prop where
  lt : ∀ i ∈ targets, i < sh.disks
  want : ∀ i < sh.disks, (sh.dev i).flags.wantcompute = decide (i ∈ targets)
  cases : (∃ t, targets = {t} ∧ sh.target = t ∧ sh.target2 = -1) ∨
    ∃ t t2, t ≠ t2 ∧ targets = {t, t2} ∧ sh.target = t ∧ sh.target2 = t2

theorem Targets.card_le {sh : StripeHead} {targets : Finset Nat} (h : Targets sh targets) :
    (sh.devs (·.wantcompute)).card ≤ 2 := by
  have hsub : sh.devs (·.wantcompute) ⊆ targets := fun i hi => by
    obtain ⟨hlt, hw⟩ := mem_devs.mp hi
    rw [h.want i hlt] at hw
    exact of_decide_eq_true hw
  refine (card_le_card hsub).trans ?_
  rcases h.cases with ⟨t, rfl, -⟩ | ⟨t, t2, -, rfl, -⟩
  · rw [card_singleton]
    omega
  · exact card_le_two

/-- What the request for a computation leaves: nothing but `R5_Wantcompute` and the targets has
changed. -/
structure Requested (sh sh' : StripeHead) (targets : Finset Nat) : Prop extends
    Targets sh' targets where
  geometry : sh'.toStripeHead = sh.toStripeHead
  dev : ∀ j, sh'.dev j = if j ∈ targets then
    (sh.dev j).modifyFlags fun f => { f with wantcompute := true } else sh.dev j
  computeRun : sh'.computeRun = true
  batchHead : sh'.batchHead = sh.batchHead
  reconstructState : sh'.reconstructState = sh.reconstructState

theorem wantCompute_pair_dev (sh : StripeHead) (a b j : Nat) :
    ((sh.wantCompute a).wantCompute b).dev j = if j ∈ ({a, b} : Finset Nat) then
      (sh.dev j).modifyFlags fun f => { f with wantcompute := true } else sh.dev j := by
  have hmem : j ∈ ({a, b} : Finset Nat) ↔ j = a ∨ j = b := by
    rw [Finset.mem_insert, Finset.mem_singleton]
  rw [wantCompute_dev, wantCompute_dev]
  by_cases hb : j = b
  · rw [if_pos hb, if_pos (hmem.mpr (.inr hb))]
    split_ifs <;> rfl
  · rw [if_neg hb]
    exact (if_congr (hmem.trans (or_iff_left hb)) rfl rfl).symm

theorem requested_one {sh : StripeHead} {t : Nat} (ht : t < sh.disks)
    (hidle : ∀ i < sh.disks, (sh.dev i).flags.wantcompute = false) :
    Requested sh { sh.wantCompute t with computeRun := true, target := t, target2 := -1 } {t} where
  lt i hi := Finset.mem_singleton.mp hi ▸ ht
  want i hi := by
    change ((sh.wantCompute t).dev i).flags.wantcompute = _
    rw [wantCompute_dev]
    split_ifs with h
    · simp [h]
    · simp [h, hidle i hi]
  cases := .inl ⟨t, rfl, rfl, rfl⟩
  geometry := rfl
  dev j := by
    exact (wantCompute_dev sh t j).trans (if_congr Finset.mem_singleton.symm rfl rfl)
  computeRun := rfl
  batchHead := rfl
  reconstructState := rfl

theorem requested_two {sh : StripeHead} {t t2 : Nat} (ht : t < sh.disks) (ht2 : t2 < sh.disks)
    (hne : t ≠ t2) (hidle : ∀ i < sh.disks, (sh.dev i).flags.wantcompute = false) :
    Requested sh { (sh.wantCompute t).wantCompute t2 with
      computeRun := true, target := t, target2 := t2 } {t, t2} where
  lt i hi := by
    rcases mem_insert.mp hi with rfl | hi
    · exact ht
    · exact Finset.mem_singleton.mp hi ▸ ht2
  want i hi := by
    change (((sh.wantCompute t).wantCompute t2).dev i).flags.wantcompute = _
    rw [wantCompute_pair_dev]
    split_ifs with h
    · simp [h]
    · simp [h, hidle i hi]
  cases := .inr ⟨t, t2, hne, rfl, rfl, rfl⟩
  geometry := rfl
  dev j := wantCompute_pair_dev sh t t2 j
  computeRun := rfl
  batchHead := rfl
  reconstructState := rfl

/-- The flags of a block whose computation has completed. -/
def DevFlags.computed (f : DevFlags) : DevFlags := { f with uptodate := true, wantcompute := false }

theorem modifyFlags_dev (sh : StripeHead) (i j : Nat) (f : DevFlags → DevFlags) :
    (sh.modifyFlags i f).dev j = if j = i then (sh.dev j).modifyFlags f else sh.dev j := by
  by_cases h : j = i
  · rw [if_pos h, h]
    exact modifyDev_dev_self _ _ _
  · rw [if_neg h]
    exact modifyDev_dev_of_ne _ _ _ h

theorem markTargetUptodate_eq {sh : StripeHead} {t : Nat} (h : (sh.dev t).flags.wantcompute) :
    markTargetUptodate sh t = some (sh.modifyFlags t computed) := by
  rw [markTargetUptodate, if_neg (by omega), Int.toNat_natCast, if_pos h]
  rfl

/-- A completed computation makes its targets up to date. -/
theorem opsCompleteCompute_eq {sh : StripeHead} {targets : Finset Nat} (h : Targets sh targets) :
    ∃ sh', opsCompleteCompute sh = some sh' ∧ sh'.toStripeHead = sh.toStripeHead ∧
      sh'.batchHead = sh.batchHead ∧ sh'.reconstructState = sh.reconstructState ∧
      sh'.computeRun = false ∧ ∀ j, sh'.dev j = if j ∈ targets then
        (sh.dev j).modifyFlags computed else sh.dev j := by
  have hwant : ∀ i ∈ targets, (sh.dev i).flags.wantcompute := fun i hi => by
    rw [h.want i (h.lt i hi)]
    exact decide_eq_true hi
  unfold opsCompleteCompute
  rcases h.cases with ⟨t, rfl, ht, ht2⟩ | ⟨t, t2, hne, rfl, ht, ht2⟩
  · have hmark2 : markTargetUptodate (sh.modifyFlags t computed)
        (sh.modifyFlags t computed).target2 =
        some (sh.modifyFlags t DevFlags.computed) := by
      change markTargetUptodate _ sh.target2 = _
      rw [markTargetUptodate, ht2, if_pos (by omega)]
    rw [ht, markTargetUptodate_eq (hwant t (Finset.mem_singleton_self t)), Option.bind_some, hmark2]
    refine ⟨_, rfl, rfl, rfl, rfl, rfl, fun j => ?_⟩
    exact (modifyFlags_dev sh t j _).trans (if_congr Finset.mem_singleton.symm rfl rfl)
  · have hdev2 : (sh.modifyFlags t DevFlags.computed).dev t2 = sh.dev t2 := by
      rw [modifyFlags_dev, if_neg hne.symm]
    have hmark2 : markTargetUptodate (sh.modifyFlags t DevFlags.computed)
        (sh.modifyFlags t DevFlags.computed).target2 =
        some ((sh.modifyFlags t DevFlags.computed).modifyFlags t2 DevFlags.computed) := by
      change markTargetUptodate _ sh.target2 = _
      rw [ht2]
      refine markTargetUptodate_eq ?_
      rw [hdev2]
      exact hwant t2 (Finset.mem_insert_of_mem (Finset.mem_singleton_self t2))
    rw [ht, markTargetUptodate_eq (hwant t (mem_insert_self _ _)), Option.bind_some, hmark2]
    refine ⟨_, rfl, rfl, rfl, rfl, rfl, fun j => ?_⟩
    refine (modifyFlags_dev _ t2 j _).trans ?_
    by_cases hj2 : j = t2
    · rw [if_pos hj2, if_pos (by simp [hj2]), hj2, hdev2]
    · rw [if_neg hj2, modifyFlags_dev]
      refine if_congr ?_ rfl rfl
      rw [Finset.mem_insert, Finset.mem_singleton]
      exact (or_iff_left hj2).symm

/-- When the blocks of failed devices are all that is missing, each of them makes `fetch_block`
ask for a computation of them all. -/
theorem fetchBlock_failed {conf : FetchConf} {sh : StripeHead} {failed : Finset Nat}
    (hlone : sh.batchHead = false)
    (hfailed : ∀ i, i ∈ failed ↔ i < sh.disks ∧ (sh.dev i).flags.insync = false)
    (hcard : failed.card ≤ 2)
    (hmiss : ∀ i < sh.disks, (sh.dev i).flags.uptodate = decide (i ∉ failed))
    (hidle : ∀ i < sh.disks, (sh.dev i).flags.wantcompute = false)
    (hfree : ∀ i ∈ failed, (sh.dev i).flags.locked = false ∧ (sh.dev i).flags.wantread = false)
    {i : Nat} (hi : i < sh.disks) (hup : (sh.dev i).flags.uptodate = false) :
    ∃ f, fetchBlock conf sh (countStripe sh) i sh.disks = some f ∧ f.stop ∧
      Requested sh f.sh failed ∧ f.s.opComputeBlk := by
  have hif : i ∈ failed := by
    by_contra hnot
    rw [hmiss i hi, decide_eq_true hnot] at hup
    cases hup
  have hneed : needThisBlock conf sh (countStripe sh) i := by
    rw [needThisBlock_syncing rfl, (hfree i hif).1, hup]
    rfl
  have hbug : ¬ ((sh.dev i).flags.wantcompute || (sh.dev i).flags.wantread ||
      sh.batchHead) := by
    rw [hidle i hi, (hfree i hif).2, hlone]
    decide
  have hsub : failed ⊆ range sh.disks := fun j hj =>
    Finset.mem_range.mpr ((hfailed j).mp hj).1
  have hcount : (uptodateDevs sh).card + failed.card = sh.disks := by
    have heq : uptodateDevs sh = Finset.range sh.disks \ failed := by
      ext j
      rw [uptodateDevs, Finset.mem_filter, Finset.mem_sdiff, Finset.mem_range]
      refine and_congr_right fun hj => ?_
      rw [hmiss j hj, decide_eq_true_iff]
    rw [heq, card_sdiff_add_card_eq_card hsub, card_range]
  unfold fetchBlock
  dsimp only
  rw [if_pos hneed, if_neg hbug]
  rcases failedDevs_cases hfailed hcard with ⟨rfl, -⟩ | ⟨a, rfl, hl⟩ | ⟨a, b, hab, rfl, hl⟩
  · exact absurd hif (notMem_empty i)
  · obtain rfl := Finset.mem_singleton.mp hif
    rw [card_singleton] at hcount
    have hnum : (countStripe sh).failed ≠ 0 ∧ ((i : Int) = (countStripe sh).failedNum0 ∨
        (i : Int) = (countStripe sh).failedNum1) := by
      simp [countStripe, hl]
    rw [if_pos ⟨hcount, .inr hnum⟩]
    exact ⟨_, rfl, rfl, requested_one hi hidle, rfl⟩
  · rw [card_pair hab] at hcount
    have htwo : (countStripe sh).uptodate + 2 = sh.disks ∧ (countStripe sh).failed ≥ 2 :=
      ⟨hcount, by simp [countStripe, hl]⟩
    have hone : ¬ (countStripe sh).uptodate + 1 = sh.disks := by
      have := htwo.1
      omega
    rw [if_neg fun h => hone h.1, if_pos htwo]
    -- the other block that is missing is the other failed one
    have hother : ∃ other, otherNotUptodate sh i sh.disks = some other ∧ other < sh.disks ∧
        i ≠ other ∧ ({a, b} : Finset Nat) = {i, other} := by
      cases ho : otherNotUptodate sh i sh.disks with
      | none =>
        exfalso
        have hex : ∃ j ∈ ({a, b} : Finset Nat), j ≠ i := by
          by_cases hai : a = i
          · exact ⟨b, by simp, fun hbi => hab (hai.trans hbi.symm)⟩
          · exact ⟨a, by simp, hai⟩
        obtain ⟨j, hj, hji⟩ := hex
        have hjlt := ((hfailed j).mp hj).1
        refine find?_eq_none.mp ho j (mem_down.mpr hjlt) ?_
        rw [hmiss j hjlt]
        simp [hji, hj]
      | some other =>
        obtain ⟨holt, hone, honot⟩ := otherNotUptodate_spec ho
        refine ⟨other, rfl, holt, hone.symm, ?_⟩
        have hof : other ∈ ({a, b} : Finset Nat) := by
          by_contra hnot
          rw [hmiss other holt, decide_eq_true hnot] at honot
          cases honot
        refine (eq_of_subset_of_card_le (insert_subset hif
          (singleton_subset_iff.mpr hof)) ?_).symm
        rw [card_pair hab, card_pair hone.symm]
    obtain ⟨other, ho, holt, hne, heq⟩ := hother
    rw [ho, heq]
    exact ⟨_, rfl, rfl, requested_two hi holt hne hidle, rfl⟩

end MdRaid.Stripe
