import MdRaid.Journal.LogShape

/-!
# The order of units in write-through mode

A unit without stripes may overtake units with stripes that wait for a cache flush. In
write-through mode every new unit carries stripes, so from the unit on that was the current
one when the mode was entered, units finish in the order they were created in.
-/

namespace MdRaid.Journal

open Function List R5lLog

variable {N t : Nat} {log log' : R5lLog}

/-- The units that have left `running_ios` and are not done with, in the order of the lists. -/
def R5lLog.left (log : R5lLog) : List Nat := log.finishedIos ++ (log.flushingIos ++ log.ioEndIos)

/-- A unit that has not completed is on `running_ios`; the two lists in between are for
devices with a volatile cache. -/
structure Queued (log : R5lLog) : Prop where
  live : ∀ u < log.seq, u ∉ log.completed → u ∈ log.runningIos
  cacheless : log.needCacheFlush = false → log.flushingIos ++ log.ioEndIos = []

/-- From unit `t` on, units leave in order. -/
structure InOrder (t : Nat) (log : R5lLog) : Prop where
  bound : t ≤ log.seq
  sorted : (log.left.filter fun u => decide (t ≤ u)).Pairwise (· < ·)
  queued : ∀ n u, log.logIo n = some u → t ≤ u → u ∈ log.left ∨ u ∈ log.runningIos
  stripes : ∀ u ∈ log.runningIos, t < u → (log.unit u).stripeList ≠ []
  current : ∀ u, log.currentIo = some u → t ≤ u

theorem queued_start (writeBack needCacheFlush : Bool) :
    Queued { start writeBack with needCacheFlush := needCacheFlush } :=
  ⟨fun u hu => absurd hu (Nat.not_lt_zero u), fun _ => rfl⟩

theorem inOrder_start (writeBack needCacheFlush : Bool) :
    InOrder 0 { start writeBack with needCacheFlush := needCacheFlush } :=
  ⟨le_rfl, List.Pairwise.nil, fun _ _ h => (by cases h), fun _ h => absurd h not_mem_nil,
    fun _ h => (by cases h)⟩

theorem Shape.left_lt (h : Shape N log) {u v : Nat} (hu : u ∈ log.left) (hv : v ∈ log.runningIos) :
    u < v := by
  obtain ⟨m, -, hrun, hlt⟩ := h.front
  rw [hrun, mem_range'_1] at hv
  exact lt_of_lt_of_le (hlt u hu) hv.1

variable {u : Nat} {front : List Nat}

theorem Shape.running_lt (h : Shape N log) (hu : u ∈ log.runningIos) : u < log.seq := by
  obtain ⟨m, hm, hrun, -⟩ := h.front
  rw [hrun, mem_range'_1] at hu
  omega

theorem Shape.current_not_completed (h : Shape N log) (hcur : log.currentIo = some u) :
    u ∉ log.completed := fun hmem =>
  (by cases ((h.unit u).toUnitOk.ended_eq_false hcur).symm.trans ((h.unit u).ended.mpr hmem))

/-- Where the mode becomes write-through: the order counts from the current unit on. -/
theorem inOrder_of_current (h : Shape N log) (hq : Queued log) :
    ∃ t, InOrder t log ∧ ∀ u, t ≤ u → u ∈ log.left ∨ u ∈ log.runningIos → u + 1 = log.seq := by
  cases hcur : log.currentIo with
  | none =>
    have hnone : ∀ u, log.seq ≤ u → u ∉ log.left ∧ u ∉ log.runningIos := fun u hu =>
      ⟨fun hmem => absurd (h.lt_seq_of_completed (h.done u hmem)) (not_lt.mpr hu),
        fun hmem => absurd (h.running_lt hmem) (not_lt.mpr hu)⟩
    refine ⟨log.seq, ⟨le_rfl, ?_, fun n u hlog hu => ?_, fun u hu hlt => ?_, fun u hu => ?_⟩,
      fun u hu hmem => ?_⟩
    · rw [filter_eq_nil_iff.mpr fun u hu hle => (hnone u (of_decide_eq_true hle)).1 hu]
      exact List.Pairwise.nil
    · exact absurd (h.lt_seq_of_logIo hlog) (not_lt.mpr hu)
    · exact absurd hu (hnone u hlt.le).2
    · cases hcur.symm.trans hu
    · exact (hmem.elim (hnone u hu).1 (hnone u hu).2).elim
  | some t =>
    have hnewest : t + 1 = log.seq := (h.unit t).newest hcur
    have hrun : t ∈ log.runningIos :=
      hq.live t (h.lt_seq_of_current hcur) (h.current_not_completed hcur)
    have hleft : ∀ u, t ≤ u → u ∉ log.left := fun u htu hu =>
      absurd (h.left_lt hu hrun) (not_lt.mpr htu)
    refine ⟨t, ⟨by omega, ?_, fun n u hlog hu => ?_, fun u hu hlt => ?_, fun u hu => ?_⟩,
      fun u hu hmem => ?_⟩
    · rw [filter_eq_nil_iff.mpr fun u hu hle => hleft u (of_decide_eq_true hle) hu]
      exact List.Pairwise.nil
    · have hlt := h.lt_seq_of_logIo hlog
      obtain rfl : u = t := by omega
      exact .inr hrun
    · have := h.running_lt hu
      omega
    · exact (Option.some.inj (hcur.symm.trans hu)).le
    · have := h.running_lt (hmem.resolve_left (hleft u hu))
      omega

/-! ## New units -/

theorem Queued.moves (h : Queued log) (hm : Moves log log') : Queued log' where
  live := fun u hu hcomp => by
    rw [hm.completed] at hcomp
    rw [hm.running, mem_append, mem_range'_1]
    rcases lt_or_ge u log.seq with hlt | hge
    · exact .inl (h.live u hlt hcomp)
    · exact .inr (by omega)
  cacheless := fun hc => by
    rw [hm.flushing, hm.ioEnd]
    exact h.cacheless (hm.needCacheFlush ▸ hc)

theorem Moves.left (hm : Moves log log') : log'.left = log.left := by
  rw [R5lLog.left, R5lLog.left, hm.finished, hm.flushing, hm.ioEnd]

theorem Moves.running_subset (hm : Moves log log') (hu : u ∈ log.runningIos) :
    u ∈ log'.runningIos := by
  rw [hm.running]
  exact mem_append_left _ hu

theorem InOrder.grows (h : InOrder t log) (hg : Grows log log') (hseq : log'.seq = log.seq) :
    InOrder t log' where
  bound := hseq ▸ h.bound
  sorted := hg.left ▸ h.sorted
  queued := fun n u hlog hu => by
    rw [hg.logIo] at hlog
    rw [hg.left]
    exact (h.queued n u hlog hu).imp_right hg.running_subset
  stripes := fun u hu hlt => by
    rw [hg.stripeList]
    refine h.stripes u ?_ hlt
    rwa [hg.running, hseq, Nat.sub_self, range'_zero, append_nil] at hu
  current := fun u hu => (hg.current u hu).elim (h.current u) fun hge => le_trans h.bound hge

theorem InOrder.le_of_logs (h : InOrder t log) {n u : Nat} (hl : Logs log log' n u) : t ≤ u :=
  hl.old.elim (h.current u) fun hge => le_trans h.bound hge

/-- A stripe is logged in the newest unit. -/
theorem InOrder.logs (h : InOrder t log) (hshape : Shape N log) (hq : Queued log) {n u : Nat}
    (hl : Logs log log' n u) : InOrder t log' where
  bound := le_trans h.bound hl.seq_le
  sorted := hl.left ▸ h.sorted
  queued := fun m v hlog hv => by
    rw [hl.logIo] at hlog
    rw [hl.left]
    by_cases hmn : m = n
    · subst hmn
      rw [update_self] at hlog
      cases hlog
      have hnot : u ∉ log.completed := by
        rcases hl.old with hcur | hge
        · exact hshape.current_not_completed hcur
        · exact hshape.not_completed hge
      refine .inr ((hq.moves hl.toMoves).live u (by have := hl.newest; omega) ?_)
      rw [hl.completed]
      exact hnot
    · rw [update_of_ne hmn] at hlog
      exact (h.queued m v hlog hv).imp_right hl.running_subset
  stripes := fun v hv hlt => by
    rw [hl.stripeList]
    by_cases hvu : v = u
    · rw [if_pos hvu]
      simp
    · rw [if_neg hvu]
      refine h.stripes v ?_ hlt
      rw [hl.running, mem_append, mem_range'_1] at hv
      have := hl.newest
      have := hl.seq_le_succ
      exact hv.resolve_right (by omega)
  current := fun v hv => (hl.current v hv).elim (h.current v) fun hge => le_trans h.bound hge

/-! ## Completion of finished units -/

/-- A stripe or a flush of a unit is done; finished units at the front of the list go. -/
structure Finishes (log log' : R5lLog) : Prop where
  gone : ∃ gone, log.finishedIos = gone ++ log'.finishedIos ∧
    ∀ u ∈ gone, (log'.unit u).state = .stripeEnd
  logIo : ∀ n u, log'.logIo n = some u → log.logIo n = some u
  needCacheFlush : log'.needCacheFlush = log.needCacheFlush
  seq : log'.seq = log.seq
  completed : log'.completed = log.completed
  running : log'.runningIos = log.runningIos
  flushing : log'.flushingIos = log.flushingIos
  ioEnd : log'.ioEndIos = log.ioEndIos
  current : log'.currentIo = log.currentIo
  stripeList : ∀ v, (log'.unit v).stripeList = (log.unit v).stripeList

theorem finishes_decPending (log : R5lLog) (u k : Nat) : Finishes log (decPending log u k) := by
  simp only [decPending]
  split_ifs
  · refine ⟨⟨_, (takeWhile_append_dropWhile).symm, fun v hv => ?_⟩, fun _ _ h => h, rfl, rfl, rfl,
      rfl, rfl, rfl, rfl, fun v => ?_⟩
    · have hend := mem_takeWhile_imp hv
      exact of_decide_eq_true hend
    · exact (update_stripeList (by rfl) v).trans (update_stripeList (by rfl) v)
  · exact ⟨⟨[], rfl, fun _ h => absurd h not_mem_nil⟩, fun _ _ h => h, rfl, rfl, rfl, rfl, rfl, rfl,
      rfl, fun v => update_stripeList (by rfl) v⟩

theorem finishes_r5lLogEndioTail (log : R5lLog) (u : Nat) :
    Finishes log (r5lLogEndioTail log u) := by
  have h := finishes_decPending
    (log.modifyUnit u fun io => { io with endioTail := false, flushBarriers := 0 }) u
    ((log.unit u).flushBarriers + if (log.unit u).hasFlushPayload then 1 else 0)
  exact { h with stripeList := fun v => (h.stripeList v).trans (update_stripeList (by rfl) v) }

theorem Finishes.refl (log : R5lLog) : Finishes log log :=
  ⟨⟨[], rfl, fun _ h => absurd h not_mem_nil⟩, fun _ _ h => h, rfl, rfl, rfl, rfl, rfl, rfl, rfl,
    fun _ => rfl⟩

theorem finishes_r5lStripeWriteFinished (log : R5lLog) (n : Nat) :
    Finishes log (r5lStripeWriteFinished log n) := by
  unfold r5lStripeWriteFinished
  split
  · exact Finishes.refl log
  · next u _ =>
      have h := finishes_decPending { log with logIo := update log.logIo n none } u 1
      refine { h with logIo := fun m v hv => ?_ }
      have hv' : update log.logIo n none m = some v := h.logIo m v hv
      by_cases hmn : m = n
      · rw [hmn, update_self] at hv'
        cases hv'
      · rwa [update_of_ne hmn] at hv'

theorem Queued.finishes (h : Queued log) (hf : Finishes log log') : Queued log' where
  live := by
    rw [hf.seq, hf.completed, hf.running]
    exact h.live
  cacheless := by
    rw [hf.needCacheFlush, hf.flushing, hf.ioEnd]
    exact h.cacheless

theorem Finishes.left (hf : Finishes log log') {gone : List Nat}
    (hgone : log.finishedIos = gone ++ log'.finishedIos) : log.left = gone ++ log'.left := by
  rw [R5lLog.left, R5lLog.left, hf.flushing, hf.ioEnd, hgone, List.append_assoc]

theorem InOrder.finishes (h : InOrder t log) (hshape : Shape N log') (hf : Finishes log log') :
    InOrder t log' := by
  obtain ⟨gone, hfin, hgone⟩ := hf.gone
  have hleft := hf.left hfin
  refine ⟨hf.seq ▸ h.bound, ?_, fun n u hlog hu => ?_, fun u hu hlt => ?_, fun u hu => ?_⟩
  · have hs := h.sorted
    rw [hleft, filter_append] at hs
    exact (pairwise_append.mp hs).2.1
  · rw [hf.running]
    rcases h.queued n u (hf.logIo n u hlog) hu with hmem | hmem
    · rw [hleft, mem_append] at hmem
      refine .inl (hmem.resolve_left fun hg => ?_)
      -- a unit that is done with has no stripe pending
      have hzero := (hshape.unit u).stripeEnd (hgone u hg)
      rw [(hshape.unit u).pending] at hzero
      have hnone : pendingIn N log'.logIo u = 0 := Nat.eq_zero_of_add_eq_zero_right hzero
      exact not_logged_of_pendingIn hnone ((hshape.unit u).bound n hlog) hlog
    · exact .inr hmem
  · rw [hf.stripeList]
    exact h.stripes u (hf.running ▸ hu) hlt
  · exact h.current u (hf.current ▸ hu)

/-- A unit that is done with came before those that are left. -/
theorem InOrder.gone_lt (h : InOrder t log) (hshape : Shape N log) (hf : Finishes log log')
    {gone : List Nat} (hgone : log.finishedIos = gone ++ log'.finishedIos) {u v : Nat}
    (hv : v ∈ gone)
    (hu : t ≤ u) (hmem : u ∈ log'.left ∨ u ∈ log'.runningIos) : v < u := by
  have hleft := hf.left hgone
  rcases hmem with hmem | hmem
  · rcases lt_or_ge v t with hvt | hvt
    · exact lt_of_lt_of_le hvt hu
    · have hs := h.sorted
      rw [hleft, filter_append, pairwise_append] at hs
      refine hs.2.2 v ?_ u ?_
      · exact mem_filter.mpr ⟨hv, decide_eq_true hvt⟩
      · exact mem_filter.mpr ⟨hmem, decide_eq_true hu⟩
  · refine hshape.left_lt ?_ (hf.running ▸ hmem)
    rw [hleft]
    exact mem_append_left _ hv

/-! ## The log device -/

theorem foldl_r5lIoRunStripes_eq : ∀ (us : List Nat) (log : R5lLog), ∃ unit releases,
    us.foldl r5lIoRunStripes log = { log with unit := unit, releases := releases }
  | [], log => ⟨log.unit, log.releases, rfl⟩
  | u :: us, log => by
    obtain ⟨unit, releases, heq⟩ := foldl_r5lIoRunStripes_eq us (r5lIoRunStripes log u)
    exact ⟨unit, releases, heq⟩

/-- The bio of unit `u` has ended, and the finished `front` leaves `running_ios`. -/
structure Ends (log log' : R5lLog) (u : Nat) (front : List Nat) : Prop where
  running : log.runningIos = front ++ log'.runningIos
  ended : ∀ v ∈ front, v ∈ log'.completed
  completed : log'.completed = u :: log.completed
  needCacheFlush : log'.needCacheFlush = log.needCacheFlush
  seq : log'.seq = log.seq
  logIo : log'.logIo = log.logIo
  current : log'.currentIo = log.currentIo
  flushing : log'.flushingIos = log.flushingIos
  lists : (log.needCacheFlush = true ∧ (log.unit u).stripeList ≠ [] ∧
      log'.finishedIos = log.finishedIos ∧ log'.ioEndIos = log.ioEndIos ++ front) ∨
    ((log.needCacheFlush = false ∨ (log.unit u).stripeList = []) ∧
      log'.finishedIos = log.finishedIos ++ front ∧ log'.ioEndIos = log.ioEndIos)
  stripeList : ∀ v ∈ log'.runningIos, (log'.unit v).stripeList = (log.unit v).stripeList

theorem ends_r5lLogEndio (h : Shape N log) (hstart : (log.unit u).state = .ioStart) :
    Ends log (r5lLogEndio log u) u (frontAfter log u) := by
  obtain ⟨-, -, hdone, hnodup⟩ := h.bioEnd_drop hstart
  have hsplit : log.runningIos = frontAfter log u ++ (bioEnd log u).dropEndedFront.runningIos := by
    simp only [dropEndedFront, bioEnd_ended]
    exact takeWhile_append_dropWhile.symm
  have hrun : log.runningIos.Nodup := by
    obtain ⟨m, -, hrange, -⟩ := h.front
    exact hrange ▸ nodup_range'
  have hbio : ∀ v, ((bioEnd log u).unit v).stripeList = (log.unit v).stripeList := fun v =>
    update_stripeList (by rfl) v
  simp only [r5lLogEndio]
  by_cases hmove : (log.needCacheFlush && !(log.unit u).stripeList.isEmpty)
  · rw [if_pos hmove, r5lMoveToEndIos, endedFront_bioEnd]
    have hneed := Bool.and_eq_true_iff.mp hmove
    refine ⟨hsplit, hdone, rfl, rfl, rfl, rfl, rfl, rfl, .inl ⟨hneed.1, ?_, rfl, rfl⟩,
      fun v _ => hbio v⟩
    simpa using hneed.2
  · rw [if_neg hmove, r5lLogRunStripes, endedFront_bioEnd]
    have hprog := (progress_foldl { (bioEnd log u).dropEndedFront with
      finishedIos := (bioEnd log u).finishedIos ++ frontAfter log u } hnodup).1
    obtain ⟨unit, releases, heq⟩ := foldl_r5lIoRunStripes_eq (frontAfter log u)
      { (bioEnd log u).dropEndedFront with
        finishedIos := (bioEnd log u).finishedIos ++ frontAfter log u }
    have hstripes := hprog.stripeList
    rw [heq] at hstripes ⊢
    refine ⟨hsplit, hdone, rfl, rfl, rfl, rfl, rfl, rfl, .inr ⟨?_, rfl, rfl⟩, fun v hv => ?_⟩
    · cases hneed : log.needCacheFlush with
      | false => exact .inl rfl
      | true =>
        right
        by_contra hne
        exact hmove (by simp [hneed, hne])
    · refine (hstripes v).trans ?_
      have hnot : v ∉ frontAfter log u := fun hmem => by
        rw [hsplit] at hrun
        exact (nodup_append.mp hrun).2.2 v hmem v hv rfl
      rw [if_neg hnot]
      exact hbio v

theorem Queued.ends (h : Queued log) (he : Ends log log' u front) : Queued log' where
  live := fun v hv hcomp => by
    rw [he.seq] at hv
    have hold : v ∉ log.completed := fun hmem =>
      hcomp (he.completed ▸ mem_cons_of_mem u hmem)
    have hmem := h.live v hv hold
    rw [he.running, mem_append] at hmem
    exact hmem.resolve_left fun hf => hcomp (he.ended v hf)
  cacheless := fun hc => by
    rw [he.needCacheFlush] at hc
    rcases he.lists with ⟨hneed, -⟩ | ⟨-, -, hend⟩
    · cases hc.symm.trans hneed
    · rw [he.flushing, hend]
      exact h.cacheless hc

theorem Ends.members (he : Ends log log' u front) (v : Nat) :
    v ∈ log'.left ∨ v ∈ log'.runningIos ↔ v ∈ log.left ∨ v ∈ log.runningIos := by
  rw [left, left, he.running, he.flushing]
  rcases he.lists with ⟨-, -, hfin, hend⟩ | ⟨-, hfin, hend⟩
  · rw [hfin, hend]
    simp only [mem_append]
    tauto
  · rw [hfin, hend]
    simp only [mem_append]
    tauto

/-- A unit without stripes that ends is the oldest that counts, so nothing is overtaken. -/
theorem InOrder.ends (h : InOrder t log) (hshape : Shape N log) (hq : Queued log)
    (hstart : (log.unit u).state = .ioStart) (he : Ends log log' u front) : InOrder t log' := by
  have hfront : front.Pairwise (· < ·) := by
    obtain ⟨m, -, hrange, -⟩ := hshape.front
    have hsorted : log.runningIos.Pairwise (· < ·) := hrange ▸ pairwise_lt_range'
    rw [he.running] at hsorted
    exact (pairwise_append.mp hsorted).1
  have hmem : ∀ {v}, v ∈ front → v ∈ log.runningIos := fun hv => by
    rw [he.running]
    exact mem_append_left _ hv
  have happend : (filter (fun v => decide (t ≤ v)) (log.left ++ front)).Pairwise (· < ·) := by
    rw [filter_append]
    refine pairwise_append.mpr ⟨h.sorted, hfront.filter _, fun a ha b hb => ?_⟩
    exact hshape.left_lt (mem_filter.mp ha).1 (hmem (mem_filter.mp hb).1)
  refine ⟨he.seq ▸ h.bound, ?_, fun n v hlog hv => ?_, fun v hv hlt => ?_, fun v hv => ?_⟩
  · rcases he.lists with ⟨-, -, hfin, hend⟩ | ⟨hwhy, hfin, hend⟩
    · rw [left, hfin, he.flushing, hend]
      simpa only [left, append_assoc] using happend
    · rw [left, hfin, he.flushing, hend]
      rcases hwhy with hneed | hstripes
      · rw [left, hq.cacheless hneed, append_nil] at happend
        rwa [hq.cacheless hneed, append_nil]
      · have hnot : u ∉ log.completed := fun hcomp => by
          have hended := (hshape.unit u).ended.mpr hcomp
          rw [IoUnit.ended, hstart] at hended
          cases hended
        have hlt : u < log.seq := (hshape.unit u).lt_seq fun hnew => by
          rw [hnew] at hstart
          cases hstart
        have hrun := hq.live u hlt hnot
        have hut : u ≤ t := Nat.le_of_not_lt fun hlt => h.stripes u hrun hlt hstripes
        have hnone : ∀ v, v ∈ log.left → ¬ t ≤ v := fun v hv htv =>
          absurd (hshape.left_lt hv hrun) (not_lt.mpr (le_trans hut htv))
        have hkept : filter (fun v => decide (t ≤ v))
            (log.finishedIos ++ front ++ (log.flushingIos ++ log.ioEndIos)) =
            front.filter fun v => decide (t ≤ v) := by
          rw [filter_append, filter_append]
          rw [filter_eq_nil_iff.mpr fun v hv htv =>
              hnone v (mem_append_left _ hv) (of_decide_eq_true htv),
            filter_eq_nil_iff.mpr fun v hv htv =>
              hnone v (mem_append_right _ hv) (of_decide_eq_true htv),
            nil_append, append_nil]
        rw [hkept]
        exact hfront.filter _
  · rw [he.members]
    exact h.queued n v (he.logIo ▸ hlog) hv
  · rw [he.stripeList v hv]
    refine h.stripes v ?_ hlt
    rw [he.running]
    exact mem_append_right _ hv
  · exact h.current v (he.current ▸ hv)

/-! ## Flushes -/

theorem r5lFlushStripeToRaid_eq (log : R5lLog) : ∃ flushing ioEnd flushBio,
    r5lFlushStripeToRaid log =
      { log with flushingIos := flushing, ioEndIos := ioEnd, flushBio := flushBio } ∧
    flushing ++ ioEnd = log.flushingIos ++ log.ioEndIos := by
  unfold r5lFlushStripeToRaid
  by_cases hskip : (!log.needCacheFlush || !log.flushingIos.isEmpty)
  · rw [if_pos hskip]
    exact ⟨_, _, _, rfl, rfl⟩
  · rw [if_neg hskip]
    refine ⟨_, _, _, rfl, ?_⟩
    have hempty : log.flushingIos = [] := by
      by_contra hne
      simp [hne] at hskip
    rw [hempty, append_nil, nil_append]

theorem r5lLogFlushEndio_eq (log : R5lLog) (snap : List Nat) : ∃ unit releases,
    r5lLogFlushEndio log snap = { log with
        flushed := snap :: log.flushed, flushingIos := []
        finishedIos := log.finishedIos ++ log.flushingIos, flushBio := .idle
        unit := unit, releases := releases } := by
  obtain ⟨unit, releases, heq⟩ := foldl_r5lIoRunStripes_eq log.flushingIos
    { log with
      flushed := snap :: log.flushed, flushingIos := []
      finishedIos := log.finishedIos ++ log.flushingIos, flushBio := .idle }
  exact ⟨unit, releases, heq⟩

/-- What an event of the log device and its threads does to the lists of units. -/
inductive Device (log log' : R5lLog) : Prop where
  | ends {u : Nat} {front : List Nat} (hstart : (log.unit u).state = .ioStart)
      (he : Ends log log' u front)
  | finishes (hf : Finishes log log')
  | moves (hneed : log'.needCacheFlush = log.needCacheFlush) (hseq : log'.seq = log.seq)
      (hlogIo : log'.logIo = log.logIo) (hcomp : log'.completed = log.completed)
      (hrun : log'.runningIos = log.runningIos) (hleft : log'.left = log.left)
      (hfin : ∃ more, log'.finishedIos = log.finishedIos ++ more)
      (hlists : ∃ more, log.flushingIos ++ log.ioEndIos = more ++
        (log'.flushingIos ++ log'.ioEndIos))
      (hcur : ∀ u, log'.currentIo = some u → log.currentIo = some u)
      (hstripes : ∀ u ∈ log.runningIos, (log'.unit u).stripeList = (log.unit u).stripeList)

theorem device_modifyUnit (log : R5lLog) (u : Nat) (f : IoUnit → IoUnit)
    (hf : (f (log.unit u)).stripeList = (log.unit u).stripeList) :
    Device log (log.modifyUnit u f) :=
  .moves rfl rfl rfl rfl rfl rfl ⟨[], (append_nil _).symm⟩ ⟨[], rfl⟩ (fun _ hv => hv)
    fun v _ => update_stripeList hf v

theorem device_r5lSubmitCurrentIo (log : R5lLog) : Device log (r5lSubmitCurrentIo log) := by
  unfold r5lSubmitCurrentIo
  split
  · exact .finishes (Finishes.refl log)
  · refine .moves rfl rfl rfl rfl rfl rfl ⟨[], (append_nil _).symm⟩ ⟨[], rfl⟩
      (fun _ hv => (by cases hv)) fun v _ => update_stripeList ?_ v
    split_ifs <;> rfl

theorem device_r5lFlushStripeToRaid (log : R5lLog) : Device log (r5lFlushStripeToRaid log) := by
  obtain ⟨flushing, ioEnd, flushBio, heq, hlists⟩ := r5lFlushStripeToRaid_eq log
  rw [heq]
  refine .moves rfl rfl rfl rfl rfl ?_ ⟨[], (append_nil _).symm⟩ ⟨[], hlists.symm⟩
    (fun _ hv => hv) fun _ _ => rfl
  exact congrArg (log.finishedIos ++ ·) hlists

theorem device_r5lLogFlushEndio (h : Shape N log) (snap : List Nat) :
    Device log (r5lLogFlushEndio log snap) := by
  have hprog := progress_r5lLogFlushEndio h snap
  have hstripes : ∀ u ∈ log.runningIos,
      ((r5lLogFlushEndio log snap).unit u).stripeList = (log.unit u).stripeList := fun u hu => by
    rw [hprog.stripeList, if_neg fun hmem => ?_]
    refine absurd (h.left_lt ?_ hu) (lt_irrefl u)
    exact mem_append_right _ (mem_append_left _ hmem)
  obtain ⟨unit, releases, heq⟩ := r5lLogFlushEndio_eq log snap
  rw [heq] at hstripes ⊢
  refine .moves rfl rfl rfl rfl rfl ?_ ⟨log.flushingIos, rfl⟩ ⟨log.flushingIos, rfl⟩
    (fun _ hv => hv)
    hstripes
  show (log.finishedIos ++ log.flushingIos) ++ ([] ++ log.ioEndIos) = log.left
  rw [nil_append, append_assoc]
  rfl

theorem Queued.device (h : Queued log) (hd : Device log log') : Queued log' := by
  cases hd with
  | ends _ he => exact h.ends he
  | finishes hf => exact h.finishes hf
  | moves hneed hseq _ hcomp hrun _ _ hlists _ _ =>
    refine ⟨?_, fun hc => ?_⟩
    · rw [hseq, hcomp, hrun]
      exact h.live
    · obtain ⟨more, hmore⟩ := hlists
      have hnil := hmore.symm.trans (h.cacheless (hneed ▸ hc))
      exact (append_eq_nil_iff.mp hnil).2

theorem InOrder.device (h : InOrder t log) (hshape : Shape N log) (hshape' : Shape N log')
    (hq : Queued log) (hd : Device log log') : InOrder t log' := by
  cases hd with
  | ends hstart he => exact h.ends hshape hq hstart he
  | finishes hf => exact h.finishes hshape' hf
  | moves _ hseq hlogIo _ hrun hleft _ _ hcur hstripes =>
    refine ⟨hseq ▸ h.bound, hleft ▸ h.sorted, ?_, fun u hu hlt => ?_, fun u hu =>
      h.current u (hcur u hu)⟩
    · rw [hlogIo, hleft, hrun]
      exact h.queued
    · rw [hrun] at hu
      rw [hstripes u hu]
      exact h.stripes u hu hlt

end MdRaid.Journal
