import MdRaid.Journal.Invariant

/-!
# The lists of io units

What holds of the units and their lists whatever the log device is: the running units
are the newest, those on the other lists have completed, a unit counts the stripes and
flush requests that are still pending on it, and a stripe stands on the list of the unit
it was logged in until it is released.
-/

namespace MdRaid.Journal

open Function List Bool IoUnit R5lLog

/-- The stripes below `N` whose last log write is in unit `u`. -/
def pendingIn (N : Nat) (logIo : Nat → Option Nat) (u : Nat) : Nat :=
  (range N).countP fun n => decide (logIo n = some u)

/-- What `r5l_log_endio` still has to take off `pending_stripe`. -/
def IoUnit.extra (io : IoUnit) : Nat :=
  if io.ended && !io.endioTail then 0 else io.flushBarriers + io.hasFlushPayload.toNat

theorem extra_of_done {io : IoUnit} (hended : io.ended) (htail : io.endioTail = false) :
    io.extra = 0 := by
  rw [extra, hended, htail]
  rfl

structure UnitShape (N : Nat) (log : View) (u : Nat) (io : IoUnit) : Prop
    extends UnitOk log u io where
  newest : log.currentIo = some u → u + 1 = log.seq
  nodup : io.stripeList.Nodup
  stripes : ∀ n ∈ io.stripeList, log.logIo n = some u
  bound : ∀ n, log.logIo n = some u → n < N
  pending : io.pendingStripe = pendingIn N log.logIo u + io.extra
  stripeEnd : io.state = .stripeEnd → io.pendingStripe = 0
  barriers : 0 < io.flushBarriers → io.hasNullFlush = true

structure Shape (N : Nat) (log : R5lLog) : Prop where
  unit : ∀ u, UnitShape N log.view u (log.unit u)
  front : ∃ m ≤ log.seq, log.runningIos = range' m (log.seq - m) ∧
    ∀ u ∈ log.finishedIos ++ (log.flushingIos ++ log.ioEndIos), u < m
  done : ∀ u ∈ log.finishedIos ++ (log.flushingIos ++ log.ioEndIos), u ∈ log.completed
  nodup : (log.flushingIos ++ log.ioEndIos).Nodup

variable {N : Nat} {log : R5lLog}

/-! ## Counting -/

section

variable {logIo : Nat → Option Nat} {n u : Nat} (hn : n < N)
include hn

theorem pendingIn_set (hfree : logIo n ≠ some u)
    (v : Option Nat) : pendingIn N (update logIo n v) u =
      pendingIn N logIo u + if v = some u then 1 else 0 := by
  unfold pendingIn
  have hsplit : List.range N = List.range n ++ n :: List.range' (n + 1) (N - (n + 1)) := by
    rw [← List.range'_succ, List.range_eq_range', List.range_eq_range']
    have happend := List.range'_append_1 (s := 0) (m := n) (n := N - (n + 1) + 1)
    rw [Nat.zero_add] at happend
    rw [happend]
    congr 1
    omega
  have hrest : ∀ l : List Nat, n ∉ l →
      l.countP (fun m => decide (update logIo n v m = some u)) =
        l.countP fun m => decide (logIo m = some u) := by
    refine fun l hl => List.countP_congr fun m hm => ?_
    have hne : m ≠ n := fun heq => hl (heq ▸ hm)
    rw [update_of_ne hne]
  rw [hsplit, List.countP_append, List.countP_append, List.countP_cons, List.countP_cons,
    hrest _ (by simp), hrest _ (by rw [List.mem_range'_1]; omega), update_self]
  simp only [hfree, decide_false, decide_eq_true_eq, false_eq_true, if_false]
  omega

theorem pendingIn_clear
    (hlog : logIo n = some u) : pendingIn N logIo u = pendingIn N (update logIo n none) u + 1 := by
  have hfree : update logIo n none n ≠ some u := by simp
  have hset := pendingIn_set hn hfree (some u)
  rwa [update_idem, ← hlog, update_eq_self, hlog, if_pos rfl] at hset

theorem pendingIn_clear_of_ne
    (hlog : logIo n ≠ some u) : pendingIn N (update logIo n none) u = pendingIn N logIo u := by
  rw [pendingIn_set hn hlog none, if_neg (by simp), Nat.add_zero]

end

theorem not_logged_of_pendingIn {logIo : Nat → Option Nat} {u n : Nat}
    (hzero : pendingIn N logIo u = 0) (hn : n < N) : logIo n ≠ some u := by
  rw [pendingIn, countP_eq_zero] at hzero
  simpa using hzero n (mem_range.mpr hn)

/-! ## Units -/

section

variable (h : Shape N log)

include h

theorem Shape.lt_seq_of_completed {u : Nat} (hu : u ∈ log.completed) : u < log.seq :=
  (h.unit u).toUnitOk.lt_seq_of_completed hu

theorem Shape.not_completed {u : Nat} (hu : log.seq ≤ u) : u ∉ log.completed :=
  fun hmem => absurd (h.lt_seq_of_completed hmem) (not_lt.mpr hu)

theorem Shape.lt_seq_of_logIo {n u : Nat} (hlog : log.logIo n = some u) : u < log.seq :=
  (h.unit u).toUnitOk.lt_seq_of_logIo hlog

theorem pendingIn_fresh {u : Nat} (hu : log.seq ≤ u) : pendingIn N log.logIo u = 0 := by
  rw [pendingIn, countP_eq_zero]
  intro n _
  simpa using fun hlog => absurd (h.lt_seq_of_logIo hlog) (not_lt.mpr hu)

/-- A change that only concerns one unit. -/
theorem Shape.modifyUnit {u : Nat} {f : IoUnit → IoUnit}
    (hf : UnitShape N log.view u (f (log.unit u))) : Shape N (log.modifyUnit u f) :=
  { h with
    unit := by
      intro v
      by_cases hv : v = u
      · subst hv
        rw [modifyUnit_self]
        exact hf
      · rw [modifyUnit_of_ne _ _ hv]
        exact h.unit v }

omit h in
theorem UnitOk.ended_eq_false {v : View} {u : Nat} {io : IoUnit} (h : UnitOk v u io)
    (hcur : v.currentIo = some u) : io.ended = false := by
  unfold IoUnit.ended
  rw [(h.current hcur).1]

omit h in
/-- A change of a unit's progress that leaves its stripes and what is pending alone. -/
theorem UnitShape.congr {v : View} {u : Nat} {io io' : IoUnit} (h : UnitShape N v u io)
    (hok : UnitOk v u io') (hstripes : io'.stripeList = io.stripeList)
    (hpend : io'.pendingStripe = io.pendingStripe) (hextra : io'.extra = io.extra)
    (hstate : io'.state = .stripeEnd → io.state = .stripeEnd)
    (hbar : io'.flushBarriers = io.flushBarriers) (hnull : io'.hasNullFlush = io.hasNullFlush) :
    UnitShape N v u io' where
  toUnitOk := hok
  newest := h.newest
  nodup := hstripes ▸ h.nodup
  stripes := hstripes ▸ h.stripes
  bound := h.bound
  pending := by rw [hpend, hextra, h.pending]
  stripeEnd := fun hst => hpend ▸ h.stripeEnd (hstate hst)
  barriers := by rw [hbar, hnull]; exact h.barriers

theorem Shape.lt_seq_of_current {u : Nat} (hcur : log.currentIo = some u) : u < log.seq :=
  Nat.lt_of_lt_of_eq (Nat.lt_succ_self u) ((h.unit u).newest hcur)

omit h in
theorem newIoUnit_shape {v : View} {u : Nat} (hcomp : u ∉ v.completed)
    (hlog : ∀ n, v.logIo n ≠ some u) (hcur : v.currentIo = some u → u + 1 = v.seq)
    (hpend : pendingIn N v.logIo u = 0) : UnitShape N v u newIoUnit where
  toUnitOk := newIoUnit_ok v hcomp hlog
  newest := hcur
  nodup := nodup_nil
  stripes := fun _ h => absurd h not_mem_nil
  bound := fun n h => absurd h (hlog n)
  pending := by rw [hpend]; rfl
  stripeEnd := by rintro ⟨⟩
  barriers := fun h => absurd h (lt_irrefl 0)

omit h in
theorem shape_start (N : Nat) (writeBack needCacheFlush : Bool) :
    Shape N { start writeBack with needCacheFlush := needCacheFlush } where
  unit := fun u => newIoUnit_shape not_mem_nil (fun _ h => (by cases h))
    (by rintro ⟨⟩) (by simp [pendingIn, start, view])
  front := ⟨0, le_rfl, rfl, fun _ h => absurd h not_mem_nil⟩
  done := fun _ h => absurd h not_mem_nil
  nodup := nodup_nil

/-! ## Filling and submitting units -/

theorem Shape.r5lNewMeta : Shape N (r5lNewMeta log) where
  unit := by
    intro v
    by_cases hv : v = log.seq
    · subst hv
      have hfresh : (Journal.r5lNewMeta log).unit log.seq = newIoUnit := update_self ..
      rw [hfresh]
      refine newIoUnit_shape (h.not_completed le_rfl) (fun n hlog => ?_) (fun _ => rfl)
        (pendingIn_fresh h le_rfl)
      exact absurd (h.lt_seq_of_logIo hlog) (Nat.lt_irrefl _)
    · have hsame : (Journal.r5lNewMeta log).unit v = log.unit v := update_of_ne hv ..
      have hok := h.unit v
      rw [hsame]
      exact { hok with
        fresh := fun hge => hok.fresh (Nat.le_of_succ_le hge)
        current := fun hcur => absurd (Option.some.inj hcur).symm hv
        newest := fun hcur => absurd (Option.some.inj hcur).symm hv }
  front := by
    obtain ⟨m, hm, hrun, hlt⟩ := h.front
    refine ⟨m, Nat.le_succ_of_le hm, ?_, hlt⟩
    show log.runningIos ++ [log.seq] = List.range' m (log.seq + 1 - m)
    rw [hrun, Nat.succ_sub hm, List.range'_1_concat, Nat.add_sub_cancel' hm]
  done := h.done
  nodup := h.nodup

theorem Shape.clearCurrent : Shape N { log with currentIo := none } :=
  { h with
    unit := fun u => { h.unit u with current := by rintro ⟨⟩, newest := by rintro ⟨⟩ } }

theorem Shape.r5lSubmitCurrentIo : Shape N (r5lSubmitCurrentIo log) := by
  unfold Journal.r5lSubmitCurrentIo
  cases hcur : log.currentIo with
  | none => exact h
  | some u =>
    obtain ⟨hstate, hdef, hsub⟩ := (h.unit u).current hcur
    have hlt := h.lt_seq_of_current hcur
    have hok := h.clearCurrent.unit u
    refine h.clearCurrent.modifyUnit ?_
    dsimp only
    split_ifs
    · refine hok.congr { hok with
        fresh := ?_
        current := by rintro ⟨⟩
        deferred := fun _ => ⟨hstate, hsub⟩ } rfl rfl rfl id rfl rfl
      exact fun hge => absurd hlt (not_lt.mpr hge)
    · refine hok.congr ⟨hok.ended, ?_, by rintro ⟨⟩, fun hd => ?_, fun _ => hstate,
        hok.issued, hok.tail, hok.logged⟩ rfl rfl rfl id rfl rfl
      · exact fun hge => absurd hlt (not_lt.mpr hge)
      · cases hdef.symm.trans hd

theorem Shape.r5lMakeRoom (size : Nat) : Shape N (r5lMakeRoom log size) := by
  unfold Journal.r5lMakeRoom
  split
  · split_ifs
    · exact h.r5lSubmitCurrentIo
    · exact h
  · exact h

theorem Shape.r5lGetMeta (size : Nat) (alloc : Bool) : Shape N (r5lGetMeta log size alloc) := by
  simp only [Journal.r5lGetMeta]
  split_ifs
  · exact (h.r5lMakeRoom size).r5lNewMeta
  · exact h.r5lMakeRoom size

/-- The current unit of a log that has one is running. -/
theorem Shape.extra_of_current {u : Nat} (hcur : log.currentIo = some u) :
    (log.unit u).extra = (log.unit u).flushBarriers + (log.unit u).hasFlushPayload.toNat := by
  rw [IoUnit.extra, (h.unit u).ended_eq_false hcur, Bool.false_and, if_neg (by simp)]

theorem Shape.setLogIo {n u : Nat} (hn : n < N) (hfree : log.logIo n = none)
    (hcur : log.currentIo = some u) {f : IoUnit → IoUnit}
    (hf : ∀ io, (f io).state = io.state ∧ (f io).stripeList = io.stripeList ++ [n] ∧
      (f io).pendingStripe = io.pendingStripe + 1 ∧ (f io).extra = io.extra ∧
      (f io).flushBarriers = io.flushBarriers ∧ (f io).hasNullFlush = io.hasNullFlush ∧
      (f io).ioDeferred = io.ioDeferred ∧ (f io).submitting = io.submitting ∧
      (f io).issued = io.issued ∧ (f io).endioTail = io.endioTail) :
    Shape N ({ log with logIo := update log.logIo n (some u) }.modifyUnit u f) where
  unit := by
    intro v
    have hv := h.unit v
    have hne : log.logIo n ≠ some v := by simp [hfree]
    have hlt := h.lt_seq_of_current hcur
    have hother : ∀ {m}, m ∈ (log.unit v).stripeList →
        update log.logIo n (some u) m = some v := fun {m} hm =>
      have hmn : m ≠ n := fun heq => hne (heq ▸ hv.stripes m hm)
      (update_of_ne hmn ..).trans (hv.stripes m hm)
    by_cases huv : v = u
    · subst huv
      obtain ⟨hstate, hstripes, hpend, hextra, hbar, hnull, hdef, hsub, hissued, htail⟩ :=
        hf (log.unit v)
      have hunit := setLogIo_unitOk (fun u => (h.unit u).toUnitOk) (u := v) (f := f)
        (hv.toUnitOk.congr hlt hstate hdef hsub hissued (fun ht => hv.tail (htail ▸ ht)) fun m hm =>
          (hv.logged m hm).imp_left fun hm => hstripes ▸ List.mem_append_left _ hm)
        (hstripes ▸ List.mem_append_right _ (List.mem_singleton_self n)) v
      rw [modifyUnit_self] at hunit ⊢
      refine ⟨hunit, hv.newest, ?_, ?_, ?_, ?_, ?_, ?_⟩
      · rw [hstripes]
        refine List.nodup_append.mpr ⟨hv.nodup, List.nodup_singleton n, ?_⟩
        rintro a ha b hb rfl
        rw [List.mem_singleton.mp hb] at ha
        exact hne (hv.stripes n ha)
      · intro m hm
        rw [hstripes] at hm
        rcases List.mem_append.mp hm with hm | hm
        · exact hother hm
        · rw [List.mem_singleton.mp hm]
          exact update_self ..
      · intro m hm
        by_cases hmn : m = n
        · exact hmn ▸ hn
        · exact hv.bound m ((update_of_ne hmn ..).symm.trans hm)
      · have hcount := pendingIn_set hn hne (some v)
        rw [if_pos rfl] at hcount
        rw [hpend, hextra, hv.pending]
        show _ = pendingIn N (update log.logIo n (some v)) v + _
        rw [hcount]
        exact Nat.add_right_comm ..
      · intro hst
        cases (hv.current hcur).1.symm.trans (hstate.symm.trans hst)
      · rw [hbar, hnull]
        exact hv.barriers
    · rw [modifyUnit_of_ne _ _ huv]
      have hback : ∀ {m}, update log.logIo n (some u) m = some v → log.logIo m = some v := by
        intro m hm
        by_cases hmn : m = n
        · subst hmn
          rw [update_self] at hm
          exact absurd (Option.some.inj hm).symm huv
        · exact (update_of_ne hmn ..).symm.trans hm
      refine { hv with
        logged := fun m hm => hv.logged m (hback hm)
        stripes := fun m hm => hother hm
        bound := fun m hm => hv.bound m (hback hm)
        pending := ?_ }
      have hcount := pendingIn_set hn hne (some u)
      rw [if_neg (by simpa using Ne.symm huv)] at hcount
      exact hv.pending.trans (congrArg (· + _) hcount.symm)
  front := h.front
  done := h.done
  nodup := h.nodup

theorem Shape.r5lLogStripe {n : Nat} (hn : n < N) (hfree : log.logIo n = none)
    (dataPages parityPages : Nat) (preflush fua alloc : Bool) :
    Shape N (r5lLogStripe log n dataPages parityPages preflush fua alloc) := by
  simp only [Journal.r5lLogStripe]
  generalize (payloadDataParitySize + checksumSize) * dataPages + payloadDataParitySize +
    checksumSize * parityPages = size
  have hmeta := h.r5lGetMeta size alloc
  split
  · exact hmeta
  · next u hcur =>
      refine hmeta.setLogIo hn (by rw [r5lGetMeta_logIo, hfree]) hcur fun io => ?_
      exact ⟨rfl, rfl, rfl, rfl, rfl, rfl, rfl, rfl, rfl, rfl⟩

/-- A flush payload and an empty flush request count as one pending stripe each. -/
theorem Shape.modifyCurrent {u : Nat} {f : IoUnit → IoUnit}
    (hcur : log.currentIo = some u) (hok : UnitOk log.view u (f (log.unit u)))
    (hstripes : (f (log.unit u)).stripeList = (log.unit u).stripeList)
    (hbar : 0 < (f (log.unit u)).flushBarriers → (f (log.unit u)).hasNullFlush)
    (hpend : (f (log.unit u)).pendingStripe + ((log.unit u).flushBarriers +
        (log.unit u).hasFlushPayload.toNat) =
      (log.unit u).pendingStripe + ((f (log.unit u)).flushBarriers +
        (f (log.unit u)).hasFlushPayload.toNat)) : Shape N (log.modifyUnit u f) := by
  have hu := h.unit u
  refine h.modifyUnit ⟨hok, hu.newest, hstripes ▸ hu.nodup, hstripes ▸ hu.stripes, hu.bound, ?_,
    fun hst => (by cases (hok.current hcur).1.symm.trans hst), hbar⟩
  have hold := hu.pending
  rw [h.extra_of_current hcur] at hold
  rw [IoUnit.extra, hok.ended_eq_false hcur, Bool.false_and, if_neg (by simp)]
  omega

omit h in
theorem UnitOk.of_current {v : View} {u : Nat} {io io' : IoUnit} (h : UnitOk v u io)
    (hu : u < v.seq) (hstate : io'.state = io.state) (hdef : io'.ioDeferred = io.ioDeferred)
    (hsub : io'.submitting = io.submitting) (hissued : io'.issued = io.issued)
    (htail : io'.endioTail = io.endioTail) (hstripes : io'.stripeList = io.stripeList) :
    UnitOk v u io' :=
  h.congr hu hstate hdef hsub hissued (htail ▸ h.tail) (hstripes ▸ h.logged)

theorem Shape.r5lAppendFlushPayload (alloc : Bool) : Shape N (r5lAppendFlushPayload log alloc) := by
  simp only [Journal.r5lAppendFlushPayload]
  have hmeta := h.r5lGetMeta payloadFlushSize alloc
  split
  · exact hmeta
  · next u hcur =>
      have hlt := hmeta.lt_seq_of_current hcur
      refine hmeta.modifyCurrent hcur
        ((hmeta.unit u).of_current hlt rfl rfl rfl rfl rfl rfl) rfl (hmeta.unit u).barriers ?_
      dsimp only
      cases ((Journal.r5lGetMeta log payloadFlushSize alloc).unit u).hasFlushPayload
      · rw [if_neg (by simp), Bool.toNat_true, Bool.toNat_false]
        omega
      · rw [if_pos rfl]

theorem Shape.r5lHandleFlushRequest (alloc : Bool) : Shape N (r5lHandleFlushRequest log alloc) := by
  simp only [Journal.r5lHandleFlushRequest]
  have hmeta := h.r5lGetMeta 0 alloc
  split
  · exact hmeta
  · next u hcur =>
      have hlt := hmeta.lt_seq_of_current hcur
      refine Shape.r5lSubmitCurrentIo (hmeta.modifyCurrent hcur
        ((hmeta.unit u).of_current hlt rfl rfl rfl rfl rfl rfl) rfl (fun _ => rfl) ?_)
      dsimp only
      omega

theorem Shape.r5lDoSubmitIo {u : Nat} (hsub : (log.unit u).submitting) :
    Shape N (r5lDoSubmitIo log u) := by
  have hu := h.unit u
  have hstate := hu.submitting hsub
  have hlt : u < log.seq := hu.lt_seq fun hnew => by
    rw [hnew] at hsub
    cases hsub
  have hended : (log.unit u).ended = false := by rw [ended, hstate]
  refine h.modifyUnit (hu.congr ⟨?_, fun hge => absurd hlt (not_lt.mpr hge), fun hc => ?_,
    fun hd => ?_, by simp, fun v hv => hv, hu.tail, hu.logged⟩ rfl rfl ?_
    (by simp) rfl rfl)
  · rw [← hu.ended, hended]
    rfl
  · cases (hu.current hc).2.2.symm.trans hsub
  · cases (hu.deferred hd).2.symm.trans hsub
  · rw [extra, extra, hended]
    rfl

theorem Shape.r5lSubmitIoAsync : Shape N (r5lSubmitIoAsync log) := by
  unfold Journal.r5lSubmitIoAsync
  split
  · exact h
  · next u _ =>
      split_ifs with hdef
      · have hu := h.unit u
        obtain ⟨hstate, hsub⟩ := hu.deferred hdef
        have hlt : u < log.seq := hu.lt_seq fun hnew => by
          rw [hnew] at hdef
          cases hdef
        refine h.modifyUnit (hu.congr ⟨hu.ended, fun hge => absurd hlt (not_lt.mpr hge),
          fun hc => ?_, by simp, fun _ => hstate, hu.issued, hu.tail, hu.logged⟩
          rfl rfl rfl id rfl rfl)
        cases (hu.current hc).2.1.symm.trans hdef
      · exact h

/-! ## Completion of a unit -/

theorem Shape.setReleases (releases : List Release) : Shape N { log with releases := releases } :=
  ⟨h.unit, h.front, h.done, h.nodup⟩

theorem Shape.r5lIoRunStripes {u : Nat} (hu : u ∈ log.completed) :
    Shape N (r5lIoRunStripes log u) := by
  have hok := h.unit u
  refine (h.setReleases _).modifyUnit { hok with
    toUnitOk := ?_
    nodup := nodup_nil
    stripes := fun _ hm => absurd hm not_mem_nil }
  exact hok.toUnitOk.congr (h.lt_seq_of_completed hu) rfl rfl rfl rfl hok.tail fun _ _ => .inr hu

omit h in
theorem Shape.foldl_r5lIoRunStripes : ∀ {l : List Nat} {log : R5lLog}, Shape N log →
    (∀ u ∈ l, u ∈ log.completed) → Shape N (l.foldl Journal.r5lIoRunStripes log)
  | [], _, h, _ => h
  | u :: l, log, h, hl => by
    rw [List.foldl_cons]
    exact Shape.foldl_r5lIoRunStripes (h.r5lIoRunStripes (hl u List.mem_cons_self))
      fun v hv => hl v (List.mem_cons_of_mem u hv)

section

variable {u : Nat} (hstart : (log.unit u).state = .ioStart)
include hstart

theorem Shape.bioEnd_unit
    (v : Nat) : UnitShape N (bioEnd log u).view v ((bioEnd log u).unit v) := by
  have hok := h.unit v
  have hunit := bioEnd_unitOk (fun u => (h.unit u).toUnitOk) hstart v
  by_cases hv : v = u
  · subst hv
    have hended : (log.unit v).ended = false := by rw [ended, hstart]
    rw [bioEnd, modifyUnit_self] at hunit ⊢
    refine { hok with toUnitOk := hunit, pending := ?_, stripeEnd := by simp }
    rw [show pendingIn N (View.logIo _) v = pendingIn N log.logIo v from rfl, hok.pending]
    congr 1
    -- without a flush request or a flush payload there is nothing left to take off
    rw [IoUnit.extra, hended, Bool.false_and, if_neg (by simp), IoUnit.extra]
    have hbar := hok.barriers
    simp only [IoUnit.ended, Bool.true_and]
    cases hpay : (log.unit v).hasFlushPayload
    · cases hnull : (log.unit v).hasNullFlush
      · have hzero : (log.unit v).flushBarriers = 0 := by
          by_contra hne
          cases hnull.symm.trans (hbar (Nat.pos_of_ne_zero hne))
        simp [hzero]
      · simp
    · simp
  · rw [bioEnd, modifyUnit_of_ne _ _ hv] at hunit ⊢
    exact { hok with toUnitOk := hunit }

/-- The finished front leaves `running_ios`, for one of two lists. -/
theorem Shape.bioEnd_drop :
    Shape N { (bioEnd log u).dropEndedFront with ioEndIos := log.ioEndIos ++ frontAfter log u } ∧
      Shape N { (bioEnd log u).dropEndedFront with
        finishedIos := log.finishedIos ++ frontAfter log u } ∧
      (∀ w ∈ frontAfter log u, w ∈ (bioEnd log u).completed) ∧ (frontAfter log u).Nodup := by
  obtain ⟨m, hm, hrun, hlt⟩ := h.front
  obtain ⟨j, hj, htake, hdrop⟩ := takeWhile_range'
    (fun w => decide (w = u) || (log.unit w).ended) (log.seq - m) m
  have hfront : frontAfter log u = range' m j := by rw [frontAfter, hrun, htake]
  have hfrontDone : ∀ w ∈ frontAfter log u, w ∈ (bioEnd log u).completed := by
    intro w hw
    have hended := mem_takeWhile_imp hw
    rw [← bioEnd_ended] at hended
    exact (h.bioEnd_unit hstart w).ended.mp hended
  have hrest : (bioEnd log u).dropEndedFront.runningIos = range' (m + j) (log.seq - (m + j)) := by
    simp only [dropEndedFront, bioEnd_ended]
    rw [show (bioEnd log u).runningIos = log.runningIos from rfl, hrun, hdrop, Nat.sub_sub]
  have hdone : ∀ w ∈ log.finishedIos ++ (log.flushingIos ++ log.ioEndIos),
      w ∈ (bioEnd log u).completed := fun w hw => mem_cons_of_mem u (h.done w hw)
  have hnew : ∀ {w}, w ∈ frontAfter log u → m ≤ w ∧ w < m + j := fun {w} hw => by
    rwa [hfront, mem_range'_1] at hw
  have hnodup : (frontAfter log u).Nodup := hfront ▸ nodup_range'
  -- either list afterwards consists of old entries and of the front
  have hsplit : ∀ {w} {p : Prop}, (w ∈ log.finishedIos ++ (log.flushingIos ++ log.ioEndIos) → p) →
      (w ∈ frontAfter log u → p) →
      (w ∈ log.finishedIos ++ (log.flushingIos ++ (log.ioEndIos ++ frontAfter log u)) → p) ∧
        (w ∈ (log.finishedIos ++ frontAfter log u) ++ (log.flushingIos ++ log.ioEndIos) → p) := by
    intro w p hold hfresh
    simp only [mem_append] at hold ⊢
    constructor
    · rintro (hw | hw | hw | hw)
      exacts [hold (.inl hw), hold (.inr (.inl hw)), hold (.inr (.inr hw)), hfresh hw]
    · rintro ((hw | hw) | hw)
      exacts [hold (.inl hw), hfresh hw, hold (.inr hw)]
  have hbelow : ∀ w, (w ∈ log.finishedIos ++ (log.flushingIos ++
    (log.ioEndIos ++ frontAfter log u)) →
      w < m + j) ∧ (w ∈ (log.finishedIos ++ frontAfter log u) ++ (log.flushingIos ++ log.ioEndIos) →
      w < m + j) := fun w =>
    hsplit (fun hw => Nat.lt_add_right j (hlt w hw)) fun hw => (hnew hw).2
  have hcompleted := fun w => hsplit (hdone w) (hfrontDone w)
  have hmj : m + j ≤ log.seq := by omega
  refine ⟨⟨h.bioEnd_unit hstart, ⟨m + j, hmj, hrest, fun w => (hbelow w).1⟩,
    fun w => (hcompleted w).1, ?_⟩, ⟨h.bioEnd_unit hstart, ⟨m + j, hmj, hrest,
    fun w => (hbelow w).2⟩, fun w => (hcompleted w).2, h.nodup⟩, hfrontDone, hnodup⟩
  rw [← append_assoc]
  refine nodup_append.mpr ⟨h.nodup, hnodup, ?_⟩
  rintro a ha b hb rfl
  exact absurd (hlt a (mem_append_right _ ha)) (not_lt.mpr (hnew hb).1)

theorem Shape.r5lLogEndio : Shape N (r5lLogEndio log u) := by
  obtain ⟨hend, hfin, hdone, -⟩ := h.bioEnd_drop hstart
  simp only [Journal.r5lLogEndio]
  split_ifs
  · rw [r5lMoveToEndIos, endedFront_bioEnd]
    exact hend
  · rw [r5lLogRunStripes, endedFront_bioEnd]
    exact hfin.foldl_r5lIoRunStripes hdone

end

/-! ## Writes to the array and flushes -/

omit h in
theorem modifyUnit_modifyUnit (log : R5lLog) (u : Nat) (f g : IoUnit → IoUnit) :
    (log.modifyUnit u f).modifyUnit u g = log.modifyUnit u fun io => g (f io) := by
  simp only [modifyUnit, update_idem, update_self]

theorem Shape.r5lCompleteFinishedIos : Shape N (r5lCompleteFinishedIos log) := by
  obtain ⟨m, hm, hrun, hbelow⟩ := h.front
  have hmem : ∀ {w}, w ∈ (Journal.r5lCompleteFinishedIos log).finishedIos ++
      (log.flushingIos ++ log.ioEndIos) →
      w ∈ log.finishedIos ++ (log.flushingIos ++ log.ioEndIos) := fun {w} hw =>
    List.mem_append.mpr ((List.mem_append.mp hw).imp_left fun hw =>
      (List.dropWhile_sublist _).subset hw)
  exact ⟨h.unit, ⟨m, hm, hrun, fun w hw => hbelow w (hmem hw)⟩, fun w hw => h.done w (hmem hw),
    h.nodup⟩

omit h in
/-- The unit's count is brought up to date; at zero the finished front is freed. -/
theorem Shape.decPending {u k : Nat}
    (h : Shape N
      (log.modifyUnit u fun io => { io with pendingStripe := (log.unit u).pendingStripe - k }))
    (hu : u ∈ log.completed) : Shape N (decPending log u k) := by
  simp only [Journal.decPending]
  split_ifs with hzero
  · have hok := h.unit u
    have hended := hok.ended.mpr hu
    refine (h.modifyUnit (u := u) (f := fun io => { io with state := .stripeEnd })
      { hok with
        toUnitOk := hok.toUnitOk.ends hu
        pending := ?_
        stripeEnd := fun _ => ?_ }).r5lCompleteFinishedIos
    · rw [show extra { (log.modifyUnit u _).unit u with state := .stripeEnd } =
        ((log.modifyUnit u fun io =>
          { io with pendingStripe := (log.unit u).pendingStripe - k }).unit u).extra by
        unfold extra
        rw [hended]
        rfl]
      exact hok.pending
    · rw [modifyUnit_self]
      exact hzero
  · exact h

theorem Shape.r5lLogEndioTail {u : Nat} (htail : (log.unit u).endioTail) :
    Shape N (r5lLogEndioTail log u) := by
  have hok := h.unit u
  have hu : u ∈ log.completed := hok.tail htail
  have hlt := h.lt_seq_of_completed hu
  have hended := hok.ended.mpr hu
  refine Shape.decPending ?_ hu
  rw [modifyUnit_modifyUnit, modifyUnit_self]
  refine h.modifyUnit { hok with
    toUnitOk := hok.toUnitOk.congr hlt rfl rfl rfl rfl (by simp) hok.logged
    pending := ?_
    stripeEnd := fun hst => ?_
    barriers := fun hb => absurd hb (lt_irrefl 0) }
  · have hold := hok.pending
    have hextra : (log.unit u).extra =
        (log.unit u).flushBarriers + if (log.unit u).hasFlushPayload then 1 else 0 := by
      rw [IoUnit.extra, htail, Bool.not_true, Bool.and_false, if_neg (by simp)]
      cases (log.unit u).hasFlushPayload <;> rfl
    rw [hextra] at hold
    have hleft : (log.unit u).pendingStripe -
        ((log.unit u).flushBarriers + if (log.unit u).hasFlushPayload then 1 else 0) =
        pendingIn N log.logIo u + 0 := by rw [hold, Nat.add_sub_cancel]; rfl
    refine hleft.trans (congrArg (pendingIn N log.logIo u + ·) (Eq.symm (extra_of_done ?_ rfl)))
    exact hended
  · have hzero := hok.stripeEnd hst
    show (log.unit u).pendingStripe - _ = 0
    rw [hzero, Nat.zero_sub]

theorem Shape.r5lStripeWriteFinished {n : Nat}
    (hreleased : ∀ u, log.logIo n = some u → n ∉ (log.unit u).stripeList) :
    Shape N (r5lStripeWriteFinished log n) := by
  unfold Journal.r5lStripeWriteFinished
  split
  · exact h
  · next u hlog =>
      have hu : u ∈ log.completed := ((h.unit u).logged n hlog).resolve_left (hreleased u hlog)
      have hn : n < N := (h.unit u).bound n hlog
      have hback : ∀ {m v}, update log.logIo n none m = some v → log.logIo m = some v := by
        intro m v hm
        by_cases hmn : m = n
        · subst hmn
          rw [update_self] at hm
          cases hm
        · rwa [update_of_ne hmn] at hm
      have hother : ∀ {m v}, m ∈ (log.unit v).stripeList →
          update log.logIo n none m = some v := by
        intro m v hm
        have hmv := (h.unit v).stripes m hm
        have hmn : m ≠ n := by
          rintro rfl
          have huv : u = v := Option.some.inj (hlog.symm.trans hmv)
          exact hreleased u hlog (huv ▸ hm)
        exact (update_of_ne hmn ..).trans hmv
      refine Shape.decPending ⟨fun v => ?_, h.front, h.done, h.nodup⟩ hu
      have hv := h.unit v
      by_cases huv : v = u
      · subst huv
        have hcount := pendingIn_clear hn hlog
        rw [modifyUnit_self]
        refine { hv with
          fresh := fun hge => absurd (h.lt_seq_of_completed hu) (not_lt.mpr hge)
          logged := fun m hm => hv.logged m (hback hm)
          stripes := fun m hm => hother hm
          bound := fun m hm => hv.bound m (hback hm)
          pending := ?_
          stripeEnd := fun hst => ?_ }
        · show (log.unit v).pendingStripe - 1 =
            pendingIn N (update log.logIo n none) v + (log.unit v).extra
          have hold := hv.pending
          rw [view_logIo, hcount] at hold
          omega
        · show (log.unit v).pendingStripe - 1 = 0
          rw [hv.stripeEnd hst]
      · rw [modifyUnit_of_ne _ _ huv]
        refine { hv with
          logged := fun m hm => hv.logged m (hback hm)
          stripes := fun m hm => hother hm
          bound := fun m hm => hv.bound m (hback hm)
          pending := ?_ }
        have hne : log.logIo n ≠ some v := fun hc => huv (Option.some.inj (hc.symm.trans hlog))
        exact hv.pending.trans (congrArg (· + _) (pendingIn_clear_of_ne hn hne).symm)

theorem Shape.r5lFlushStripeToRaid : Shape N (r5lFlushStripeToRaid log) := by
  unfold Journal.r5lFlushStripeToRaid
  by_cases hskip : (!log.needCacheFlush || !log.flushingIos.isEmpty)
  · rw [if_pos hskip]
    exact h
  · rw [if_neg hskip]
    have hempty : log.flushingIos = [] := by
      by_contra hne
      simp [hne] at hskip
    have hfront := h.front
    have hdone := h.done
    have hnodup := h.nodup
    rw [hempty, List.nil_append] at hfront hdone hnodup
    refine ⟨h.unit, ?_, ?_, ?_⟩
    · simpa only [List.append_nil] using hfront
    · simpa only [List.append_nil] using hdone
    · simpa only [List.append_nil] using hnodup

theorem Shape.r5lLogFlushEndio (snap : List Nat) : Shape N (r5lLogFlushEndio log snap) := by
  unfold Journal.r5lLogFlushEndio
  have hmem : ∀ {w}, w ∈ (log.finishedIos ++ log.flushingIos) ++ ([] ++ log.ioEndIos) →
      w ∈ log.finishedIos ++ (log.flushingIos ++ log.ioEndIos) := fun {w} hw => by
    rwa [List.nil_append, List.append_assoc] at hw
  obtain ⟨m, hm, hrun, hlt⟩ := h.front
  refine Shape.foldl_r5lIoRunStripes ⟨h.unit, ⟨m, hm, hrun, fun w hw => hlt w (hmem hw)⟩,
    fun w hw => h.done w (hmem hw), (List.nodup_append.mp h.nodup).2.1⟩ fun w hw => ?_
  exact h.done w (List.mem_append_right _ (List.mem_append_left _ hw))

end

/-! ## Releases -/

/-- What the log device and the threads behind it change: the stripes of the units `us` are
released, and no unit is created. -/
structure Progress (log log' : R5lLog) (us : List Nat) : Prop where
  logIo : log'.logIo = log.logIo
  writeBack : log'.writeBack = log.writeBack
  seq : log'.seq = log.seq
  current : log'.currentIo = log.currentIo ∨ log'.currentIo = none
  completed : ∀ u ∈ log.completed, u ∈ log'.completed
  nodup : us.Nodup
  released : (log'.releases.drop log.releases.length).map Release.stripe =
    us.flatMap fun u => (log.unit u).stripeList
  stripeList : ∀ v, (log'.unit v).stripeList = if v ∈ us then [] else (log.unit v).stripeList

theorem Progress.refl (log : R5lLog) : Progress log log [] where
  logIo := rfl
  writeBack := rfl
  seq := rfl
  current := .inl rfl
  completed := fun _ hu => hu
  nodup := nodup_nil
  released := by rw [drop_length]; rfl
  stripeList := fun _ => rfl

/-- Nothing is released. -/
theorem Progress.of_releases {log log' : R5lLog} (hlogIo : log'.logIo = log.logIo)
    (hwb : log'.writeBack = log.writeBack) (hseq : log'.seq = log.seq)
    (hcur : log'.currentIo = log.currentIo ∨ log'.currentIo = none)
    (hcomp : ∀ u ∈ log.completed, u ∈ log'.completed) (hrel : log'.releases = log.releases)
    (hstripes : ∀ v, (log'.unit v).stripeList = (log.unit v).stripeList) :
    Progress log log' [] where
  logIo := hlogIo
  writeBack := hwb
  seq := hseq
  current := hcur
  completed := hcomp
  nodup := nodup_nil
  released := by rw [hrel, drop_length]; rfl
  stripeList := fun v => by rw [hstripes, if_neg not_mem_nil]

theorem update_stripeList {unit : Nat → IoUnit} {u : Nat} {io : IoUnit}
    (hio : io.stripeList = (unit u).stripeList) (v : Nat) :
    (update unit u io v).stripeList = (unit v).stripeList := by
  by_cases hv : v = u
  · subst hv
    rw [update_self, hio]
  · rw [update_of_ne hv]

theorem progress_modifyUnit (log : R5lLog) (u : Nat) (f : IoUnit → IoUnit)
    (hf : (f (log.unit u)).stripeList = (log.unit u).stripeList) :
    Progress log (log.modifyUnit u f) [] :=
  Progress.of_releases rfl rfl rfl (.inl rfl) (fun _ h => h) rfl (update_stripeList hf)

theorem foldl_releases : ∀ (us : List Nat) (log : R5lLog), ∃ more,
    (us.foldl r5lIoRunStripes log).releases = log.releases ++ more
  | [], log => ⟨[], (append_nil _).symm⟩
  | u :: us, log => by
    obtain ⟨more, hmore⟩ := foldl_releases us (r5lIoRunStripes log u)
    exact ⟨_, hmore.trans (append_assoc ..)⟩

/-- A loop over units releases their stripes in turn. -/
theorem progress_foldl : ∀ {us : List Nat} (log : R5lLog), us.Nodup →
    Progress log (us.foldl r5lIoRunStripes log) us ∧
      (us.foldl r5lIoRunStripes log).finishedIos = log.finishedIos
  | [], log, _ => ⟨Progress.refl log, rfl⟩
  | u :: us, log, hnodup => by
    obtain ⟨hu, hnodup⟩ := nodup_cons.mp hnodup
    obtain ⟨hrest, hfin⟩ := progress_foldl (r5lIoRunStripes log u) hnodup
    rw [foldl_cons]
    refine ⟨{ hrest with
      nodup := nodup_cons.mpr ⟨hu, hnodup⟩
      released := ?_
      stripeList := fun v => ?_ }, hfin⟩
    · -- the releases grow by the stripes of `u`, then by those of the rest
      obtain ⟨more, hmore⟩ : ∃ more, (us.foldl r5lIoRunStripes (r5lIoRunStripes log u)).releases =
          (r5lIoRunStripes log u).releases ++ more := foldl_releases us _
      have hadd := hrest.released
      rw [hmore, drop_left] at hadd
      rw [hmore, show (r5lIoRunStripes log u).releases = log.releases ++
        (log.unit u).stripeList.map fun sh => Release.mk sh u log.completed log.flushed from rfl,
        append_assoc, drop_left, map_append, hadd, flatMap_cons, map_map]
      congr 1
      · exact map_id' _
      · refine flatMap_congr fun v hv => ?_
        have hvu : v ≠ u := fun heq => hu (heq ▸ hv)
        rw [r5lIoRunStripes_stripeList, if_neg hvu]
    · rw [hrest.stripeList, r5lIoRunStripes_stripeList]
      by_cases hvu : v = u
      · simp [hvu]
      · simp [hvu]

theorem Progress.trans_nil {log mid log' : R5lLog} {us : List Nat} (h : Progress log mid [])
    (hrel : mid.releases = log.releases) (h' : Progress mid log' us) : Progress log log' us where
  logIo := h'.logIo.trans h.logIo
  writeBack := h'.writeBack.trans h.writeBack
  seq := h'.seq.trans h.seq
  current := h'.current.elim (fun hc => hc ▸ h.current) .inr
  completed := fun u hu => h'.completed u (h.completed u hu)
  nodup := h'.nodup
  released := by
    rw [← hrel, h'.released]
    refine flatMap_congr fun u _ => ?_
    rw [h.stripeList, if_neg not_mem_nil]
  stripeList := fun v => by rw [h'.stripeList, h.stripeList, if_neg not_mem_nil]

theorem progress_bioEnd (log : R5lLog) (u : Nat) (running ioEnd finished : List Nat) :
    Progress log { bioEnd log u with
      runningIos := running, ioEndIos := ioEnd, finishedIos := finished } [] :=
  Progress.of_releases rfl rfl rfl (.inl rfl) (fun _ h => mem_cons_of_mem u h) rfl
    fun v => update_stripeList (by rfl) v

theorem progress_r5lLogEndio (h : Shape N log) {u : Nat} (hstart : (log.unit u).state = .ioStart) :
    ∃ us, Progress log (r5lLogEndio log u) us ∧
      (r5lLogEndio log u).finishedIos = log.finishedIos ++ us := by
  have hnodup := (h.bioEnd_drop hstart).2.2.2
  simp only [r5lLogEndio]
  split_ifs
  · exact ⟨[], progress_bioEnd log u _ _ _, (append_nil _).symm⟩
  · rw [r5lLogRunStripes, endedFront_bioEnd]
    obtain ⟨hprog, hfin⟩ := progress_foldl { (bioEnd log u).dropEndedFront with
      finishedIos := (bioEnd log u).finishedIos ++ frontAfter log u } hnodup
    exact ⟨_, (progress_bioEnd log u _ _ _).trans_nil rfl hprog, hfin⟩

theorem progress_decPending (log : R5lLog) (u k : Nat) : Progress log (decPending log u k) [] := by
  simp only [decPending]
  split_ifs
  · refine Progress.of_releases rfl rfl rfl (.inl rfl) (fun _ h => h) rfl fun v => ?_
    exact (update_stripeList (by rfl) v).trans (update_stripeList (by rfl) v)
  · exact progress_modifyUnit log u _ rfl

theorem progress_r5lLogEndioTail (log : R5lLog) (u : Nat) :
    Progress log (r5lLogEndioTail log u) [] :=
  (progress_modifyUnit log u _ rfl).trans_nil rfl (progress_decPending _ u _)

theorem progress_r5lSubmitCurrentIo (log : R5lLog) : Progress log (r5lSubmitCurrentIo log) [] := by
  unfold r5lSubmitCurrentIo
  split
  · exact Progress.refl log
  · next u _ =>
      refine Progress.of_releases rfl rfl rfl (.inr rfl) (fun _ h => h) rfl fun v => ?_
      refine update_stripeList ?_ v
      split_ifs <;> rfl

theorem progress_r5lSubmitIoAsync (log : R5lLog) : Progress log (r5lSubmitIoAsync log) [] := by
  unfold r5lSubmitIoAsync
  split
  · exact Progress.refl log
  · split_ifs
    · exact progress_modifyUnit log _ _ rfl
    · exact Progress.refl log

theorem progress_r5lFlushStripeToRaid (log : R5lLog) :
    Progress log (r5lFlushStripeToRaid log) [] := by
  unfold r5lFlushStripeToRaid
  split
  · exact Progress.refl log
  · exact Progress.of_releases rfl rfl rfl (.inl rfl) (fun _ h => h) rfl fun _ => rfl

theorem progress_r5lLogFlushEndio (h : Shape N log) (snap : List Nat) :
    Progress log (r5lLogFlushEndio log snap) log.flushingIos := by
  unfold r5lLogFlushEndio
  have hnodup := (nodup_append.mp h.nodup).1
  have hmoved : Progress log { log with
      flushed := snap :: log.flushed, flushingIos := []
      finishedIos := log.finishedIos ++ log.flushingIos, flushBio := .idle } [] :=
    Progress.of_releases rfl rfl rfl (.inl rfl) (fun _ h => h) rfl fun _ => rfl
  exact hmoved.trans_nil rfl (progress_foldl _ hnodup).1

/-! ## New units -/

/-- The log has moved on by at most one unit. -/
structure Moves (log log' : R5lLog) : Prop where
  writeBack : log'.writeBack = log.writeBack
  needCacheFlush : log'.needCacheFlush = log.needCacheFlush
  seq_le : log.seq ≤ log'.seq
  seq_le_succ : log'.seq ≤ log.seq + 1
  completed : log'.completed = log.completed
  finished : log'.finishedIos = log.finishedIos
  flushing : log'.flushingIos = log.flushingIos
  ioEnd : log'.ioEndIos = log.ioEndIos
  running : log'.runningIos = log.runningIos ++ range' log.seq (log'.seq - log.seq)
  current : ∀ u, log'.currentIo = some u → log.currentIo = some u ∨ log.seq ≤ u

/-- The log has moved on, and no stripe has been logged. -/
structure Grows (log log' : R5lLog) : Prop extends Moves log log' where
  logIo : log'.logIo = log.logIo
  stripeList : ∀ v, (log'.unit v).stripeList = (log.unit v).stripeList

theorem Grows.refl (log : R5lLog) : Grows log log :=
  ⟨⟨rfl, rfl, le_rfl, Nat.le_succ _, rfl, rfl, rfl, rfl, by simp, fun _ hu => .inl hu⟩, rfl,
    fun _ => rfl⟩

theorem Moves.modifyUnit {log' : R5lLog} (h : Moves log log') (u : Nat) (f : IoUnit → IoUnit) :
    Moves log (log'.modifyUnit u f) :=
  ⟨h.writeBack, h.needCacheFlush, h.seq_le, h.seq_le_succ, h.completed, h.finished,
    h.flushing, h.ioEnd,
    h.running, h.current⟩

theorem Grows.modifyUnit {log' : R5lLog} (h : Grows log log') {u : Nat} {f : IoUnit → IoUnit}
    (hf : (f (log'.unit u)).stripeList = (log'.unit u).stripeList) :
    Grows log (log'.modifyUnit u f) where
  toMoves := h.toMoves.modifyUnit u f
  logIo := h.logIo
  stripeList := fun v => (update_stripeList hf v).trans (h.stripeList v)

theorem Grows.r5lSubmitCurrentIo {log' : R5lLog} (h : Grows log log') :
    Grows log (r5lSubmitCurrentIo log') := by
  unfold Journal.r5lSubmitCurrentIo
  split
  · exact h
  · have hnone : Grows log { log' with currentIo := none } :=
      ⟨{ h with current := fun _ hu => (by cases hu) }, h.logIo, h.stripeList⟩
    refine hnone.modifyUnit ?_
    split_ifs <;> rfl

theorem grows_r5lMakeRoom (log : R5lLog) (size : Nat) :
    Grows log (r5lMakeRoom log size) ∧ (r5lMakeRoom log size).seq = log.seq := by
  unfold r5lMakeRoom
  split
  · split_ifs
    · refine ⟨(Grows.refl log).r5lSubmitCurrentIo, ?_⟩
      unfold r5lSubmitCurrentIo
      split <;> rfl
    · exact ⟨Grows.refl log, rfl⟩
  · exact ⟨Grows.refl log, rfl⟩

theorem grows_r5lGetMeta (h : Shape N log) (size : Nat) (alloc : Bool) :
    Grows log (r5lGetMeta log size alloc) := by
  obtain ⟨hroom, hseq⟩ := grows_r5lMakeRoom log size
  have hrun : (r5lMakeRoom log size).runningIos = log.runningIos := by
    rw [hroom.running, hseq, Nat.sub_self, range'_zero, append_nil]
  simp only [r5lGetMeta]
  split_ifs
  · refine ⟨{ hroom with
      seq_le := ?_
      seq_le_succ := ?_
      running := ?_
      current := fun u hu => .inr ?_ }, hroom.logIo, fun v => ?_⟩
    · exact hseq ▸ Nat.le_succ _
    · exact hseq ▸ le_rfl
    · show (r5lMakeRoom log size).runningIos ++ [(r5lMakeRoom log size).seq] =
        log.runningIos ++ range' log.seq ((r5lMakeRoom log size).seq + 1 - log.seq)
      rw [hrun, hseq, Nat.add_sub_cancel_left]
      rfl
    · exact hseq ▸ (Option.some.inj hu).le
    · rw [← hroom.stripeList v]
      have hfresh := ((h.r5lMakeRoom size).unit (r5lMakeRoom log size).seq).fresh le_rfl
      exact update_stripeList (congrArg stripeList hfresh.symm) v
  · exact hroom

theorem grows_r5lAppendFlushPayload (h : Shape N log) (alloc : Bool) :
    Grows log (r5lAppendFlushPayload log alloc) := by
  simp only [r5lAppendFlushPayload]
  split
  · exact grows_r5lGetMeta h _ alloc
  · exact (grows_r5lGetMeta h _ alloc).modifyUnit rfl

theorem grows_r5lHandleFlushRequest (h : Shape N log) (alloc : Bool) :
    Grows log (r5lHandleFlushRequest log alloc) := by
  simp only [r5lHandleFlushRequest]
  split
  · exact grows_r5lGetMeta h _ alloc
  · exact Grows.r5lSubmitCurrentIo ((grows_r5lGetMeta h _ alloc).modifyUnit rfl)

/-- Stripe `n` has been logged in unit `u`. -/
structure Logs (log log' : R5lLog) (n u : Nat) : Prop extends Moves log log' where
  logIo : log'.logIo = update log.logIo n (some u)
  newest : u + 1 = log'.seq
  old : log.currentIo = some u ∨ log.seq ≤ u
  stripeList : ∀ v, (log'.unit v).stripeList =
    if v = u then (log.unit u).stripeList ++ [n] else (log.unit v).stripeList

theorem r5lGetMeta_seq {size : Nat} {alloc : Bool}
    (hnone : (r5lGetMeta log size alloc).currentIo = none) :
    (r5lGetMeta log size alloc).seq = log.seq := by
  simp only [r5lGetMeta] at hnone ⊢
  split_ifs at hnone ⊢
  · cases hnone
  · exact (grows_r5lMakeRoom log size).2

/-- A stripe is logged, or there is no memory for its unit. -/
theorem r5lLogStripe_cases (h : Shape N log) {n : Nat} (hfree : log.logIo n = none)
    (dataPages parityPages : Nat) (preflush fua alloc : Bool) :
    (∃ u, Logs log (r5lLogStripe log n dataPages parityPages preflush fua alloc) n u) ∨
      Grows log (r5lLogStripe log n dataPages parityPages preflush fua alloc) ∧
        (r5lLogStripe log n dataPages parityPages preflush fua alloc).seq = log.seq ∧
        (r5lLogStripe log n dataPages parityPages preflush fua alloc).logIo n = none := by
  simp only [r5lLogStripe]
  generalize (payloadDataParitySize + checksumSize) * dataPages + payloadDataParitySize +
    checksumSize * parityPages = size
  have hmeta := h.r5lGetMeta size alloc
  have hg := grows_r5lGetMeta h size alloc
  split
  · next hnone => exact .inr ⟨hg, r5lGetMeta_seq hnone, by rw [hg.logIo, hfree]⟩
  · next u hcur =>
      have hset : update (r5lGetMeta log size alloc).logIo n (some u) =
          update log.logIo n (some u) := by rw [hg.logIo]
      have hmoves : Moves log { r5lGetMeta log size alloc with
          logIo := update (r5lGetMeta log size alloc).logIo n (some u) } :=
        ⟨hg.writeBack, hg.needCacheFlush, hg.seq_le, hg.seq_le_succ, hg.completed, hg.finished,
          hg.flushing, hg.ioEnd, hg.running, hg.current⟩
      refine .inl ⟨u, hmoves.modifyUnit u _, hset, (hmeta.unit u).newest hcur, hg.current u hcur,
        fun v => ?_⟩
      by_cases hv : v = u
      · subst hv
        rw [modifyUnit_self, if_pos rfl, ← hg.stripeList]
      · rw [modifyUnit_of_ne _ _ hv, if_neg hv, ← hg.stripeList]

end MdRaid.Journal
