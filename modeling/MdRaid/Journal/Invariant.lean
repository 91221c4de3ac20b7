import MdRaid.Journal.Basic

/-!
# The order of the journal's lists

The running units are the last ones created, and everything created before them has
completed. So a unit that waits for a flush has, with all its predecessors, completed
before the flush is issued; and the first running unit has never completed.
-/

namespace MdRaid.Journal

open Function IoUnit List R5lLog Bool Option Nat

/-- The units that leave `running_ios` when the bio of `u` completes. -/
def frontAfter (log : R5lLog) (u : Nat) : List Nat :=
  log.runningIos.takeWhile fun w => decide (w = u) || (log.unit w).ended

/-- The part of a log that the state of a single unit depends on. -/
structure View where
  seq : Nat
  currentIo : Option Nat
  logIo : Nat → Option Nat
  completed : List Nat

def R5lLog.view (log : R5lLog) : View := ⟨log.seq, log.currentIo, log.logIo, log.completed⟩

@[simp] theorem R5lLog.view_seq (log : R5lLog) : log.view.seq = log.seq := rfl
@[simp] theorem R5lLog.view_logIo (log : R5lLog) : log.view.logIo = log.logIo := rfl

theorem modifyUnit_self (log : R5lLog) (u : Nat) (f : IoUnit → IoUnit) :
    (log.modifyUnit u f).unit u = f (log.unit u) :=
  update_self ..

theorem modifyUnit_of_ne (log : R5lLog) {u v : Nat} (f : IoUnit → IoUnit) (h : v ≠ u) :
    (log.modifyUnit u f).unit v = log.unit v :=
  update_of_ne h ..

/-- What holds of unit `u`. -/
structure UnitOk (log : View) (u : Nat) (io : IoUnit) : Prop where
  ended : io.ended = true ↔ u ∈ log.completed
  fresh : log.seq ≤ u → io = newIoUnit
  current : log.currentIo = some u →
    io.state = .running ∧ io.ioDeferred = false ∧ io.submitting = false
  deferred : io.ioDeferred = true → io.state = .running ∧ io.submitting = false
  submitting : io.submitting = true → io.state = .running
  issued : ∀ v ∈ io.issued, v ∈ log.completed
  tail : io.endioTail = true → u ∈ log.completed
  logged : ∀ sh, log.logIo sh = some u → sh ∈ io.stripeList ∨ u ∈ log.completed

/-- The flush in progress covers every unit that waits for it. -/
def FlushOk (log : R5lLog) : Prop :=
  match log.flushBio with
  | .idle => log.flushingIos = []
  | .chosen => log.flushingIos ≠ []
  | .inFlight snap => log.flushingIos ≠ [] ∧ (∀ v ∈ snap, v ∈ log.completed) ∧
      ∀ u ∈ log.flushingIos, ∀ v ≤ u, v ∈ snap

structure Inv (log : R5lLog) : Prop where
  needFlush : log.needCacheFlush = true
  unitOk : ∀ u, UnitOk log.view u (log.unit u)
  /-- The running units are the last ones created; all before them have completed. -/
  front : ∃ m n, log.seq = m + n ∧ log.runningIos = range' m n ∧ ∀ v < m, v ∈ log.completed
  head : ∀ u, log.runningIos.head? = some u → u ∉ log.completed
  currentLt : ∀ u, log.currentIo = some u → u < log.seq
  below : ∀ u, u ∈ log.ioEndIos ∨ u ∈ log.flushingIos → ∀ v ≤ u, v ∈ log.completed
  flush : FlushOk log
  flushed : ∀ snap ∈ log.flushed, ∀ v ∈ snap, v ∈ log.completed

variable {log : R5lLog} {u : Nat}

theorem newIoUnit_ok (log : View) (hu : u ∉ log.completed)
    (hlog : ∀ sh, log.logIo sh ≠ some u) : UnitOk log u newIoUnit where
  ended := by simp [newIoUnit, ended, hu]
  fresh := fun _ => rfl
  current := fun _ => ⟨rfl, rfl, rfl⟩
  deferred := by rintro ⟨⟩
  submitting := by rintro ⟨⟩
  issued := fun _ h => absurd h not_mem_nil
  tail := by rintro ⟨⟩
  logged := fun sh h => absurd h (hlog sh)

theorem inv_start (writeBack : Bool) : Inv (start writeBack) where
  needFlush := rfl
  unitOk := fun u => newIoUnit_ok _ not_mem_nil fun _ => some_ne_none u |>.symm
  front := ⟨0, 0, rfl, rfl, fun _ h => absurd h (not_lt_zero _)⟩
  head := fun _ h => (by cases h)
  currentLt := fun _ h => (by cases h)
  below := fun _ h => absurd h (by simp [start])
  flush := rfl
  flushed := fun _ h => absurd h not_mem_nil

section

variable {v : View} {io : IoUnit} (h : UnitOk v u io)
include h

theorem UnitOk.lt_seq (hne : io ≠ newIoUnit) : u < v.seq :=
  Nat.lt_of_not_le fun hge => hne (h.fresh hge)

theorem UnitOk.lt_seq_of_completed (hu : u ∈ v.completed) : u < v.seq := by
  refine h.lt_seq fun hnew => ?_
  have hended := h.ended.mpr hu
  rw [hnew] at hended
  cases hended

theorem UnitOk.lt_seq_of_logIo {sh : Nat} (hlog : v.logIo sh = some u) : u < v.seq := by
  rcases h.logged sh hlog with hmem | hmem
  · refine h.lt_seq fun hnew => ?_
    rw [hnew] at hmem
    exact absurd hmem not_mem_nil
  · exact h.lt_seq_of_completed hmem

/-- Nothing is pending any more of a unit that has completed. -/
theorem UnitOk.ends (hu : u ∈ v.completed) :
    UnitOk v u { io with state := .stripeEnd } := by
  have hlt := h.lt_seq_of_completed hu
  have hended := h.ended.mpr hu
  have hnot : io.state ≠ .running := by
    intro hst
    rw [IoUnit.ended, hst] at hended
    cases hended
  exact { h with
    ended := iff_of_true rfl hu
    fresh := fun hge => absurd hlt (not_lt.mpr hge)
    current := fun hcur => absurd (h.current hcur).1 hnot
    deferred := fun hdef => absurd (h.deferred hdef).1 hnot
    submitting := fun hsub => absurd (h.submitting hsub) hnot }

end

/-! ## Steps that fill and submit units -/

theorem Inv.modifyUnit {f : IoUnit → IoUnit} (h : Inv log)
    (hf : UnitOk log.view u (f (log.unit u))) : Inv (log.modifyUnit u f) :=
  { h with
    unitOk := by
      intro v
      by_cases hv : v = u
      · subst hv
        rw [modifyUnit_self]
        exact hf
      · rw [modifyUnit_of_ne _ _ hv]
        exact h.unitOk v }

theorem Inv.r5lNewMeta (h : Inv log) : Inv (r5lNewMeta log) where
  needFlush := h.needFlush
  unitOk := by
    intro v
    by_cases hv : v = log.seq
    · subst hv
      have hnot : log.seq ∉ log.completed := fun hmem =>
        absurd ((h.unitOk _).lt_seq_of_completed hmem) (by simp)
      simpa [Journal.r5lNewMeta] using
        newIoUnit_ok (Journal.r5lNewMeta log).view (u := log.seq) hnot
          fun sh hlog => absurd ((h.unitOk _).lt_seq_of_logIo hlog) (lt_irrefl _)
    · have hok := h.unitOk v
      simp only [Journal.r5lNewMeta, update_of_ne hv]
      exact { hok with
        fresh := fun hge => hok.fresh (le_of_succ_le hge)
        current := fun hcur => absurd (Option.some.inj hcur).symm hv }
  front := by
    obtain ⟨m, n, hseq, hrun, hbelow⟩ := h.front
    refine ⟨m, n + 1, by simp [Journal.r5lNewMeta, hseq, add_assoc], ?_, hbelow⟩
    simp [Journal.r5lNewMeta, hrun, hseq, List.range'_concat]
  head := by
    intro u hu
    simp only [Journal.r5lNewMeta, List.head?_append] at hu
    cases hhead : log.runningIos.head? with
    | none =>
      rw [hhead] at hu
      obtain rfl : log.seq = u := by simpa using hu
      exact fun hmem =>
      absurd ((h.unitOk _).lt_seq_of_completed hmem) (by simp)
    | some w =>
      rw [hhead] at hu
      obtain rfl : w = u := by simpa using hu
      exact h.head w hhead
  currentLt := fun u hcur => some.inj hcur ▸ lt_succ_self _
  below := h.below
  flush := h.flush
  flushed := h.flushed

/-- A change of the fields that hold no part of the protocol. -/
theorem UnitOk.congr {log : View} {io io' : IoUnit} (h : UnitOk log u io)
    (hu : u < log.seq) (hstate : io'.state = io.state) (hdef : io'.ioDeferred = io.ioDeferred)
    (hsub : io'.submitting = io.submitting) (hissued : io'.issued = io.issued)
    (htail : io'.endioTail → u ∈ log.completed)
    (hlogged : ∀ sh, log.logIo sh = some u → sh ∈ io'.stripeList ∨ u ∈ log.completed) :
    UnitOk log u io' where
  ended := by
    have hended : io'.ended = io.ended := by simp only [IoUnit.ended, hstate]
    rw [hended, h.ended]
  fresh := fun hge => absurd hu (not_lt.mpr hge)
  current := by rw [hstate, hdef, hsub]; exact h.current
  deferred := by rw [hstate, hdef, hsub]; exact h.deferred
  submitting := by rw [hstate, hsub]; exact h.submitting
  issued := by rw [hissued]; exact h.issued
  tail := htail
  logged := hlogged

theorem Inv.clearCurrent (h : Inv log) : Inv { log with currentIo := none } :=
  { h with
    unitOk := fun u =>
      let hok := h.unitOk u
      { hok with current := by rintro ⟨⟩ }
    currentLt := fun _ hcur => (by cases hcur) }

theorem Inv.r5lSubmitCurrentIo (h : Inv log) : Inv (r5lSubmitCurrentIo log) := by
  unfold Journal.r5lSubmitCurrentIo
  cases hcur : log.currentIo with
  | none => exact h
  | some u =>
    obtain ⟨hstate, hdef, hsub⟩ := (h.unitOk u).current hcur
    have hlt := h.currentLt u hcur
    have hok := h.clearCurrent.unitOk u
    refine h.clearCurrent.modifyUnit ?_
    split_ifs
    · exact { hok with
        fresh := fun hge => absurd hlt (not_lt.mpr hge)
        current := by rintro ⟨⟩
        deferred := fun _ => ⟨hstate, hsub⟩ }
    · exact ⟨hok.ended, fun hge => absurd hlt (not_lt.mpr hge), by rintro ⟨⟩,
        fun htrue => absurd (hdef.symm.trans htrue) (by decide), fun _ => hstate, hok.issued,
        hok.tail, hok.logged⟩

theorem Inv.r5lMakeRoom (h : Inv log) (size : Nat) : Inv (r5lMakeRoom log size) := by
  unfold Journal.r5lMakeRoom
  split
  · split_ifs
    · exact h.r5lSubmitCurrentIo
    · exact h
  · exact h

theorem Inv.r5lGetMeta (h : Inv log) (size : Nat) (alloc : Bool) :
    Inv (r5lGetMeta log size alloc) := by
  simp only [Journal.r5lGetMeta]
  split_ifs
  · exact (h.r5lMakeRoom size).r5lNewMeta
  · exact h.r5lMakeRoom size

theorem r5lMakeRoom_logIo (log : R5lLog) (size : Nat) :
    (r5lMakeRoom log size).logIo = log.logIo := by
  unfold r5lMakeRoom
  split
  · split_ifs
    · unfold r5lSubmitCurrentIo
      split <;> rfl
    · rfl
  · rfl

theorem r5lGetMeta_logIo (log : R5lLog) (size : Nat) (alloc : Bool) :
    (r5lGetMeta log size alloc).logIo = log.logIo := by
  simp only [r5lGetMeta]
  split_ifs
  · exact r5lMakeRoom_logIo log size
  · exact r5lMakeRoom_logIo log size

/-- Logging a stripe that is in no unit. -/
theorem setLogIo_unitOk (h : ∀ u, UnitOk log.view u (log.unit u)) {sh u : Nat}
    {f : IoUnit → IoUnit} (hf : UnitOk log.view u (f (log.unit u)))
    (hmem : sh ∈ (f (log.unit u)).stripeList) (v : Nat) :
    UnitOk ({ log with logIo := update log.logIo sh (some u) }.modifyUnit u f).view v
      (({ log with logIo := update log.logIo sh (some u) }.modifyUnit u f).unit v) := by
  by_cases hv : v = u
  · subst hv
    rw [modifyUnit_self]
    refine { hf with logged := ?_ }
    intro sh' hsh'
    by_cases hsh : sh' = sh
    · exact .inl (hsh ▸ hmem)
    · exact hf.logged sh' ((update_of_ne hsh ..).symm.trans hsh')
  · have hok := h v
    rw [modifyUnit_of_ne _ _ hv]
    refine { hok with logged := ?_ }
    intro sh' hsh'
    by_cases hsh : sh' = sh
    · subst hsh
      have hsame := (update_self ..).symm.trans hsh'
      exact absurd (some.inj hsame).symm hv
    · exact hok.logged sh' ((update_of_ne hsh ..).symm.trans hsh')

section

variable (h : Inv log)
include h

theorem Inv.setLogIo {sh u : Nat} {f : IoUnit → IoUnit}
    (hf : UnitOk log.view u (f (log.unit u))) (hmem : sh ∈ (f (log.unit u)).stripeList) :
    Inv ({ log with logIo := update log.logIo sh (some u) }.modifyUnit u f) :=
  { h with unitOk := setLogIo_unitOk h.unitOk hf hmem }

theorem Inv.r5lLogStripe (sh dataPages parityPages : Nat) (preflush fua alloc : Bool) :
    Inv (r5lLogStripe log sh dataPages parityPages preflush fua alloc) := by
  simp only [Journal.r5lLogStripe]
  generalize hsize : (payloadDataParitySize + checksumSize) * dataPages + payloadDataParitySize +
    checksumSize * parityPages = size
  have hmeta := h.r5lGetMeta size alloc
  split
  · exact hmeta
  · next u hcur =>
      have hok := hmeta.unitOk u
      have hlt := hmeta.currentLt u hcur
      refine hmeta.setLogIo ?_ (by simp)
      refine hok.congr hlt rfl rfl rfl rfl hok.tail fun sh' hsh' => ?_
      exact (hok.logged sh' hsh').imp_left fun hmem => mem_append_left _ hmem

theorem Inv.r5lAppendFlushPayload (alloc : Bool) : Inv (r5lAppendFlushPayload log alloc) := by
  simp only [Journal.r5lAppendFlushPayload]
  have hmeta := h.r5lGetMeta payloadFlushSize alloc
  split
  · exact hmeta
  · next u hcur =>
      have hok := hmeta.unitOk u
      exact hmeta.modifyUnit
        (hok.congr (hmeta.currentLt u hcur) rfl rfl rfl rfl hok.tail hok.logged)

theorem Inv.r5lHandleFlushRequest (alloc : Bool) : Inv (r5lHandleFlushRequest log alloc) := by
  simp only [Journal.r5lHandleFlushRequest]
  have hmeta := h.r5lGetMeta 0 alloc
  split
  · exact hmeta
  · next u hcur =>
      have hok := hmeta.unitOk u
      refine Inv.r5lSubmitCurrentIo (hmeta.modifyUnit ?_)
      exact hok.congr (hmeta.currentLt u hcur) rfl rfl rfl rfl hok.tail hok.logged

theorem Inv.r5lDoSubmitIo (hsub : (log.unit u).submitting) : Inv (r5lDoSubmitIo log u) := by
  have hok := h.unitOk u
  have hlt : u < log.seq := (h.unitOk u).lt_seq fun hnew => by
    rw [hnew] at hsub
    cases hsub
  have hnot : u ∉ log.view.completed := by
    rw [← hok.ended, ended, hok.submitting hsub]
    exact false_ne_true
  refine h.modifyUnit ⟨?_, ?_, ?_, ?_, ?_, ?_, hok.tail, hok.logged⟩
  · simpa [ended] using hnot
  · exact fun hge => absurd hlt (not_lt.mpr hge)
  · exact fun hcur => (by cases hsub.symm.trans (hok.current hcur).2.2)
  · exact fun hdef => (by cases hsub.symm.trans (hok.deferred hdef).2)
  · simp
  · exact fun v hv => hv

theorem Inv.r5lSubmitIoAsync : Inv (r5lSubmitIoAsync log) := by
  unfold Journal.r5lSubmitIoAsync
  split
  · exact h
  · next u _ =>
      split_ifs with hdef
      · have hok := h.unitOk u
        have hlt : u < log.seq := (h.unitOk u).lt_seq fun hnew => by
          rw [hnew] at hdef
          cases hdef
        refine h.modifyUnit ⟨hok.ended, ?_, ?_, ?_, ?_, hok.issued, hok.tail, hok.logged⟩
        · exact fun hge => absurd hlt (not_lt.mpr hge)
        · exact fun hcur => (by cases hdef.symm.trans (hok.current hcur).2.1)
        · simp
        · exact fun _ => (hok.deferred hdef).1
      · exact h

end

/-! ## Releasing stripes -/

theorem Inv.setReleases (h : Inv log) (releases : List Release) :
    Inv { log with releases := releases } :=
  ⟨h.needFlush, h.unitOk, h.front, h.head, h.currentLt, h.below, h.flush, h.flushed⟩

theorem Inv.r5lIoRunStripes (h : Inv log) (hu : u ∈ log.completed) :
    Inv (r5lIoRunStripes log u) := by
  refine (h.setReleases _).modifyUnit ?_
  exact (h.unitOk u).congr ((h.unitOk u).lt_seq_of_completed hu) rfl rfl rfl rfl (h.unitOk u).tail
    fun _ _ => .inr hu

theorem Inv.foldl_r5lIoRunStripes : ∀ {l : List Nat} {log : R5lLog}, Inv log →
    (∀ u ∈ l, u ∈ log.completed) → Inv (l.foldl Journal.r5lIoRunStripes log)
  | [], _, h, _ => h
  | u :: l, log, h, hl => by
    rw [foldl_cons]
    exact Inv.foldl_r5lIoRunStripes (h.r5lIoRunStripes (hl u mem_cons_self))
      fun v hv => hl v (mem_cons_of_mem u hv)

theorem r5lIoRunStripes_stripeList (log : R5lLog) (u v : Nat) :
    ((r5lIoRunStripes log u).unit v).stripeList =
      if v = u then [] else (log.unit v).stripeList := by
  by_cases hv : v = u
  · subst hv
    simp [r5lIoRunStripes, modifyUnit]
  · simp [r5lIoRunStripes, modifyUnit, hv]

theorem takeWhile_range' (p : Nat → Bool) : ∀ n m, ∃ j ≤ n, (range' m n).takeWhile p = range' m j ∧
      (range' m n).dropWhile p = range' (m + j) (n - j)
  | 0, m => ⟨0, le_rfl, rfl, rfl⟩
  | n + 1, m => by
    rw [range'_succ]
    cases hp : p m with
    | false => exact ⟨0, zero_le _, by simp [hp], by simp [hp, range'_succ]⟩
    | true =>
      obtain ⟨j, hj, htake, hdrop⟩ := takeWhile_range' p n (m + 1)
      refine ⟨j + 1, succ_le_succ hj, ?_, ?_⟩
      · rw [takeWhile_cons_of_pos hp, htake, range'_succ]
      · rw [List.dropWhile_cons_of_pos hp, hdrop, Nat.add_sub_add_right, Nat.add_right_comm,
          add_assoc]

theorem bioEnd_ended (log : R5lLog) (u w : Nat) :
    ((bioEnd log u).unit w).ended = (decide (w = u) || (log.unit w).ended) := by
  by_cases hw : w = u
  · subst hw
    simp [bioEnd, modifyUnit, ended]
  · simp [bioEnd, modifyUnit, hw]

theorem endedFront_bioEnd (log : R5lLog) (u : Nat) :
    (bioEnd log u).endedFront = frontAfter log u := by
  unfold endedFront frontAfter
  simp only [bioEnd_ended]
  rfl

theorem bioEnd_unitOk (h : ∀ u, UnitOk log.view u (log.unit u))
    (hstart : (log.unit u).state = .ioStart) (v : Nat) :
    UnitOk (bioEnd log u).view v ((bioEnd log u).unit v) := by
  have hok := h v
  have hmono : ∀ w, w ∈ log.completed → w ∈ u :: log.completed := fun w hw =>
    mem_cons_of_mem u hw
  by_cases hv : v = u
  · subst hv
    have hlt : v < log.seq := hok.lt_seq fun hnew => by
      rw [hnew] at hstart
      cases hstart
    have hrunning : (log.unit v).state ≠ .running := by
      rw [hstart]
      decide
    rw [bioEnd, modifyUnit_self]
    refine ⟨?_, ?_, ?_, ?_, ?_, ?_, ?_, ?_⟩
    · exact iff_of_true rfl mem_cons_self
    · exact fun hge => absurd hlt (not_lt.mpr hge)
    · exact fun hcur => absurd (hok.current hcur).1 hrunning
    · exact fun hdef => absurd (hok.deferred hdef).1 hrunning
    · exact fun hsub => absurd (hok.submitting hsub) hrunning
    · exact fun w hw => hmono w (hok.issued w hw)
    · exact fun _ => mem_cons_self
    · exact fun _ _ => .inr mem_cons_self
  · rw [bioEnd, modifyUnit_of_ne _ _ hv]
    refine ⟨?_, hok.fresh, hok.current, hok.deferred, hok.submitting,
      fun w hw => hmono w (hok.issued w hw), fun htail => hmono v (hok.tail htail),
      fun sh hsh => (hok.logged sh hsh).imp_right (hmono v)⟩
    rw [hok.ended]
    exact ⟨hmono v, fun hmem => (mem_cons.mp hmem).resolve_left hv⟩

/-- The finished front leaves `running_ios`, for whichever list. -/
theorem Inv.bioEnd_drop (h : Inv log)
    (hstart : (log.unit u).state = .ioStart) (ioEndIos finishedIos : List Nat)
    (hsub : ∀ w ∈ ioEndIos, w ∈ log.ioEndIos ∨ w ∈ frontAfter log u) :
    Inv { (bioEnd log u).dropEndedFront with ioEndIos := ioEndIos, finishedIos := finishedIos } ∧
      ∀ w ∈ frontAfter log u, ∀ v ≤ w, v ∈ (bioEnd log u).completed := by
  have hunits := bioEnd_unitOk h.unitOk hstart
  have hmono : ∀ w, w ∈ log.completed → w ∈ (bioEnd log u).completed := fun w hw =>
    mem_cons_of_mem u hw
  obtain ⟨m, n, hseq, hrun, hbelow⟩ := h.front
  obtain ⟨j, hj, htake, hdrop⟩ := takeWhile_range' (fun w => ((bioEnd log u).unit w).ended) n m
  have hfront : frontAfter log u = range' m j := by
    rw [← endedFront_bioEnd, endedFront, ← htake]
    exact congrArg _ hrun
  have hdone : ∀ v < m + j, v ∈ (bioEnd log u).completed := by
    intro v hv
    rcases lt_or_ge v m with hlow | hhigh
    · exact hmono v (hbelow v hlow)
    · have hmem : v ∈ (range' m n).takeWhile fun w => ((bioEnd log u).unit w).ended := by
        rw [htake, mem_range'_1]
        exact ⟨hhigh, hv⟩
      have hended : ((bioEnd log u).unit v).ended :=
        mem_takeWhile_imp (p := fun w => ((bioEnd log u).unit w).ended) hmem
      exact (hunits v).ended.mp hended
  have hfrontDone : ∀ w ∈ frontAfter log u, ∀ v ≤ w, v ∈ (bioEnd log u).completed := by
    intro w hw v hv
    rw [hfront, mem_range'_1] at hw
    exact hdone v (by omega)
  refine ⟨⟨h.needFlush, hunits, ?_, ?_, h.currentLt, ?_, ?_, ?_⟩, hfrontDone⟩
  · refine ⟨m + j, n - j, ?_, ?_, hdone⟩
    · show log.seq = m + j + (n - j)
      omega
    · show log.runningIos.dropWhile _ = _
      rw [hrun, hdrop]
  · intro w hw hmem
    have hended := (hunits w).ended.mpr hmem
    have hnot := head?_dropWhile_not (fun w => ((bioEnd log u).unit w).ended) log.runningIos
    rw [show (log.runningIos.dropWhile fun w => ((bioEnd log u).unit w).ended).head? = some w
      from hw] at hnot
    simp [hended] at hnot
  · rintro w (hw | hw) v hv
    · rcases hsub w hw with hold | hnew
      · exact hmono v (h.below w (.inl hold) v hv)
      · exact hfrontDone w hnew v hv
    · exact hmono v (h.below w (.inr hw) v hv)
  · have hflush := h.flush
    unfold FlushOk at hflush ⊢
    show match log.flushBio with | .idle => _ | .chosen => _ | .inFlight snap => _
    cases hbio : log.flushBio with
    | idle => rw [hbio] at hflush; exact hflush
    | chosen => rw [hbio] at hflush; exact hflush
    | inFlight snap =>
      rw [hbio] at hflush
      exact ⟨hflush.1, fun v hv => hmono v (hflush.2.1 v hv), hflush.2.2⟩
  · intro snap hsnap v hv
    have hcases : snap = (log.unit u).issued ∨ snap ∈ log.flushed := by
      simp only [dropEndedFront, bioEnd] at hsnap
      split_ifs at hsnap
      · exact mem_cons.mp hsnap
      · exact .inr hsnap
    rcases hcases with rfl | hold
    · exact hmono v ((h.unitOk u).issued v hv)
    · exact hmono v (h.flushed snap hold v hv)

theorem Inv.r5lLogEndio (h : Inv log)
    (hstart : (log.unit u).state = .ioStart) : Inv (r5lLogEndio log u) := by
  simp only [Journal.r5lLogEndio, h.needFlush, Bool.true_and]
  split_ifs
  · -- the front waits for a flush
    refine (h.bioEnd_drop hstart _ log.finishedIos fun w hw => ?_).1
    rw [endedFront_bioEnd] at hw
    exact mem_append.mp hw
  · -- the front is released at once
    obtain ⟨hinv, hdone⟩ := h.bioEnd_drop hstart log.ioEndIos
      (log.finishedIos ++ (bioEnd log u).endedFront) fun w hw => .inl hw
    unfold r5lLogRunStripes
    refine Inv.foldl_r5lIoRunStripes hinv fun w hw => ?_
    rw [endedFront_bioEnd] at hw
    exact hdone w hw w le_rfl

/-! ## Writes to the array and flushes -/

section

variable (h : Inv log)
include h

theorem Inv.decPending (hu : u ∈ log.completed) (n : Nat) : Inv (decPending log u n) := by
  have hok := h.unitOk u
  have hpend : Inv (log.modifyUnit u fun io =>
      { io with pendingStripe := (log.unit u).pendingStripe - n }) :=
    h.modifyUnit (hok.congr (hok.lt_seq_of_completed hu) rfl rfl rfl rfl hok.tail hok.logged)
  simp only [Journal.decPending]
  split_ifs
  · have hend := hpend.modifyUnit (u := u) (f := fun io => { io with state := .stripeEnd })
      ((hpend.unitOk u).ends hu)
    exact { hend with }
  · exact hpend

theorem Inv.r5lLogEndioTail (htail : (log.unit u).endioTail) : Inv (r5lLogEndioTail log u) := by
  have hu := (h.unitOk u).tail htail
  refine Inv.decPending (h.modifyUnit ?_) hu _
  exact (h.unitOk u).congr ((h.unitOk u).lt_seq_of_completed hu) rfl rfl rfl rfl (fun _ => hu)
    (h.unitOk u).logged

theorem Inv.r5lStripeWriteFinished {sh : Nat}
    (hreleased : ∀ u, log.logIo sh = some u → sh ∉ (log.unit u).stripeList) :
    Inv (r5lStripeWriteFinished log sh) := by
  unfold Journal.r5lStripeWriteFinished
  split
  · exact h
  · next u hlog =>
      have hu : u ∈ log.completed := ((h.unitOk u).logged sh hlog).resolve_left (hreleased u hlog)
      have hcleared : Inv { log with logIo := update log.logIo sh none } :=
        { h with unitOk := fun v => ?_ }
      · exact hcleared.decPending hu 1
      have hv := h.unitOk v
      refine { hv with logged := ?_ }
      intro sh' hsh'
      by_cases hne : sh' = sh
      · subst hne
        cases (update_self ..).symm.trans hsh'
      · exact hv.logged sh' ((update_of_ne hne ..).symm.trans hsh')

theorem Inv.r5lFlushStripeToRaid : Inv (r5lFlushStripeToRaid log) := by
  unfold Journal.r5lFlushStripeToRaid
  by_cases hskip : log.flushingIos = []
  · rw [if_neg (by simp [h.needFlush, hskip])]
    refine { h with below := ?_, flush := ?_ }
    · rintro w (hw | hw)
      · exact absurd hw not_mem_nil
      · exact h.below w (.inl hw)
    · -- an empty `flushing_ios` means that no flush is in progress
      have hidle : log.flushBio = .idle := by
        have hflush := h.flush
        unfold FlushOk at hflush
        cases hbio : log.flushBio with
        | idle => rfl
        | chosen => rw [hbio] at hflush; exact absurd hskip hflush
        | inFlight snap => rw [hbio] at hflush; exact absurd hskip hflush.1
      unfold FlushOk
      by_cases hempty : log.ioEndIos = []
      · simp [hempty, hidle]
      · simp [hempty]
  · rw [if_pos (by simp [hskip])]
    exact h

theorem Inv.submitFlush (hchosen : log.flushBio = .chosen) :
    Inv { log with flushBio := .inFlight log.completed } :=
  { h with
    flush := by
      have hflush := h.flush
      rw [FlushOk, hchosen] at hflush
      exact ⟨hflush, fun _ hv => hv, fun u hu v hv => h.below u (.inr hu) v hv⟩ }

theorem Inv.r5lLogFlushEndio {snap : List Nat}
    (hbio : log.flushBio = .inFlight snap) : Inv (r5lLogFlushEndio log snap) := by
  have hflush := h.flush
  rw [FlushOk, hbio] at hflush
  unfold Journal.r5lLogFlushEndio
  refine Inv.foldl_r5lIoRunStripes { h with
    below := ?_
    flush := rfl
    flushed := ?_ } fun w hw => h.below w (.inr hw) w le_rfl
  · rintro w (hw | hw)
    · exact h.below w (.inl hw)
    · exact absurd hw not_mem_nil
  · intro snap' hsnap'
    rcases mem_cons.mp hsnap' with rfl | hold
    · exact hflush.2.1
    · exact h.flushed snap' hold

end

/-- **Every step preserves the invariant.** -/
theorem step_inv {log log' : R5lLog} {e : Event} (h : Inv log) (hstep : step log e = some log') :
    Inv log' := by
  cases e with
  | logStripe sh dataPages parityPages preflush fua alloc =>
    simp only [step] at hstep
    split_ifs at hstep
    exact some.inj hstep ▸ h.r5lLogStripe _ dataPages parityPages preflush fua alloc
  | appendFlushPayload alloc => exact some.inj hstep ▸ h.r5lAppendFlushPayload alloc
  | handleFlushRequest alloc =>
    simp only [step] at hstep
    split_ifs at hstep
    exact some.inj hstep ▸ h.r5lHandleFlushRequest alloc
  | writeStripeRun => exact some.inj hstep ▸ h.r5lSubmitCurrentIo
  | doSubmitIo u =>
    simp only [step] at hstep
    split_ifs at hstep with hsub
    exact some.inj hstep ▸ h.r5lDoSubmitIo hsub
  | submitIoAsync => exact some.inj hstep ▸ h.r5lSubmitIoAsync
  | logEndio u =>
    simp only [step] at hstep
    split_ifs at hstep with hstart
    exact some.inj hstep ▸ h.r5lLogEndio hstart
  | logEndioTail u =>
    simp only [step] at hstep
    split_ifs at hstep with htail
    exact some.inj hstep ▸ h.r5lLogEndioTail htail
  | flushStripeToRaid => exact some.inj hstep ▸ h.r5lFlushStripeToRaid
  | submitFlush =>
    simp only [step] at hstep
    split_ifs at hstep with hchosen
    exact some.inj hstep ▸ h.submitFlush hchosen
  | logFlushEndio =>
    simp only [step] at hstep
    split at hstep
    · next snap hbio => exact some.inj hstep ▸ h.r5lLogFlushEndio hbio
    · cases hstep
  | stripeWriteFinished sh =>
    simp only [step] at hstep
    split_ifs at hstep with hbusy
    refine some.inj hstep ▸ h.r5lStripeWriteFinished fun u hlog hmem => hbusy ?_
    simp [hlog, hmem]

end MdRaid.Journal
