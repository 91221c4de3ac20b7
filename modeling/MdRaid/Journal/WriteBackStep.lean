import MdRaid.Journal.WriteBackInv

/-!
# Runs of the write-back cache

The rest of the events: requests are returned, a stripe written out leaves the list, the
log device and its threads move the units on, and the mode is switched. With them the
invariant holds along every run that leaves write-back mode only with
`stripe_in_journal_list` empty.
-/

namespace MdRaid.Journal.WriteBack

open RingLog Function Journal List Runs StripeHead Option

variable {d : Nat} {c : R5conf d} {n : Nat}

/-! ## Requests are returned -/

theorem returnRequests_logStart (st : StripeHead d) (clean : Bool) :
    (returnRequests st clean).logStart = st.logStart := by
  simp only [returnRequests, reconstructDone]
  split_ifs <;> rfl

theorem returnRequests_behind (st : StripeHead d) (clean : Bool) (i : Fin d) :
    ((returnRequests st clean).dev i).behind = (st.dev i).behind := by
  have hdone : ((reconstructDone st).dev i).behind = (st.dev i).behind := by
    unfold reconstructDone
    split_ifs
    · dsimp only [mapDev]
      split_ifs <;> rfl
    · rfl
  have hclean : ∀ st' : StripeHead d, ((handleStripeCleanEvent st').dev i).behind =
      (st'.dev i).behind := fun st' => by
    dsimp only [handleStripeCleanEvent, mapDev]
    split_ifs <;> rfl
  rw [← hdone]
  simp only [returnRequests]
  split_ifs
  · exact hclean _
  · rfl
  · exact hclean _
  · rfl

theorem returnRequests_inJournal (st : StripeHead d) (clean : Bool) :
    (returnRequests st clean).parity.inJournal = st.parity.inJournal := by
  simp only [returnRequests, reconstructDone]
  split_ifs <;> rfl

theorem keepsLog_returnRequests (st : StripeHead d) (clean : Bool) (place : Place) :
    KeepsLog st { returnRequests st clean with place := place } := by
  have hflags : (returnRequests st clean).Counted = st.Counted ∧
      (returnRequests st clean).caching = st.caching ∧
      (returnRequests st clean).logTrapped = st.logTrapped := by
    simp only [returnRequests, reconstructDone]
    split_ifs <;> exact ⟨rfl, rfl, rfl⟩
  refine ⟨returnRequests_logStart st clean, fun i u hu => returnRequests_behind st clean i ▸ hu,
    fun hc => hflags.1 ▸ hc, fun hc ht => .inr ⟨hflags.2.1 ▸ hc, hflags.2.2 ▸ ht⟩⟩

theorem progress_r5lStripeWriteFinished (log : R5lLog) (n : Nat) :
    Progress { log with logIo := update log.logIo n none }
      (r5lStripeWriteFinished log n) [] := by
  unfold r5lStripeWriteFinished
  split
  · next hnone =>
      rw [← hnone, update_eq_self]
      exact Progress.refl log
  · exact progress_decPending _ _ _

theorem Inv.handleReturn (h : Inv c) (hn : n < c.nrStripes) {s : HeadState}
    (hplace : (c.sh n).place = .handling (.returning s)) (clean : Bool) :
    Inv (handleReturn c n s clean) := by
  have hwait := h.not_waiting (n := n) fun hp => (by cases hplace.symm.trans hp)
  have hprog := progress_r5lStripeWriteFinished c.log n
  have hwb : (r5lStripeWriteFinished c.log n).writeBack = c.log.writeBack := hprog.writeBack
  have hlogIo : (r5lStripeWriteFinished c.log n).logIo =
      update c.log.logIo n none := hprog.logIo
  have hlists : ∀ u, ((r5lStripeWriteFinished c.log n).unit u).stripeList =
      (c.log.unit u).stripeList := fun u => by
    rw [hprog.stripeList, if_neg not_mem_nil]
  refine ⟨h.shape.r5lStripeWriteFinished fun u _ => hwait u, fun m hm => ?_, fun m hm =>
    ?_, h.listed,
    h.nodup, fun hth => h.through (hwb ▸ hth), fun u m hm => ?_, h.noBug⟩
  · show StripeOk (r5lStripeWriteFinished c.log n).writeBack _
      ((r5lStripeWriteFinished c.log n).logIo m) (update c.sh n _ m)
    rw [hwb, hlogIo]
    by_cases hmn : m = n
    · subst hmn
      rw [update_self, update_self]
      exact (h.stripe m hm).returned_requests hplace (fun hth => h.not_listed hth) clean
    · rw [update_of_ne hmn, update_of_ne hmn]
      exact h.stripe m hm
  · show (update c.sh n _ m).logStart.isSome ↔ _
    by_cases hmn : m = n
    · subst hmn
      rw [update_self]
      show (returnRequests _ _).logStart.isSome ↔ _
      rw [returnRequests_logStart]
      exact h.started m hm
    · rw [update_of_ne hmn]
      exact h.started m hm
  · show (update c.sh n _ m).place = .logging
    have hmem : m ∈ (c.log.unit u).stripeList := hlists u ▸ hm
    have hmn : m ≠ n := fun heq => hwait u (heq ▸ hmem)
    rw [update_of_ne hmn]
    exact h.waiting u m hmem

/-! ## A stripe has been written out -/

variable {c' : R5conf d}

theorem reserveLogEntry_congr (hsize : c'.deviceSize = c.deviceSize)
    (hstart : c'.logStart = c.logStart) : ∀ blocks, reserveLogEntry c' blocks =
    reserveLogEntry c blocks
  | 0 => hstart
  | blocks + 1 => by
    rw [reserveLogEntry, reserveLogEntry, hsize, reserveLogEntry_congr hsize hstart blocks]

section

variable (f : StripeHead d → StripeHead d)
include f

theorem r5cUpdateLogState_modify :
    (r5cUpdateLogState c).modify n f = r5cUpdateLogState (c.modify n f) := by
  unfold r5cUpdateLogState
  by_cases hwb : c.log.writeBack
  · rw [if_pos (by exact hwb), if_pos (by exact hwb)]
    rfl
  · rw [if_neg (by exact hwb), if_neg (by exact hwb)]

theorem takeBlocks_modify (log : R5lLog) (pages : Nat) :
    (takeBlocks c log pages).modify n f = takeBlocks (c.modify n f) log pages := by
  have hreserve : reserveLogEntry (c.modify n f) (log.seq - c.log.seq + pages) =
      reserveLogEntry c (log.seq - c.log.seq + pages) := reserveLogEntry_congr (by rfl) (by rfl) _
  rw [takeBlocks, r5cUpdateLogState_modify, takeBlocks]
  refine congrArg r5cUpdateLogState ?_
  rw [show (c.modify n f).log = c.log from rfl, hreserve]
  rfl

theorem r5lAppendFlushPayload_modify (alloc : Bool) :
    (r5lAppendFlushPayload c alloc).modify n f = r5lAppendFlushPayload (c.modify n f) alloc := by
  unfold r5lAppendFlushPayload
  split_ifs with hq hq' hq'
  · rfl
  · exact absurd hq hq'
  · exact absurd hq' hq
  · exact takeBlocks_modify f _ 0

end

/-- A stripe that a sync waits for is handled again. -/
theorem modify_sync (g : StripeHead d → StripeHead d) :
    (if (c.sh n).syncRequested then c.modify n fun st => { st with handle := true } else
    c).modify n g =
      c.modify n fun st => g { st with handle := st.handle || st.syncRequested } := by
  split_ifs with hsync
  · rw [modify_modify]
    refine modify_congr ?_
    rw [hsync, Bool.or_true]
  · refine modify_congr ?_
    have hor : ((c.sh n).handle || (c.sh n).syncRequested) = (c.sh n).handle := by simp [hsync]
    rw [hor]

/-- The stripe as its clean-up leaves it once data and parity are on the member disks. -/
def StripeHead.unlogged (st : StripeHead d) : StripeHead d :=
  { st.mapDev fun dev => { dev with
    inJournal := false } with
    logStart := none, partialStripe := false, fullStripe := false }

/-- Stripe `n` is off the list. -/
def R5conf.writtenOut (c : R5conf d) (n : Nat) (st : StripeHead d) (tight critical : Bool) :
    R5conf d :=
  { c with
    sh := update c.sh n st
    stripeInJournalList := c.stripeInJournalList.erase n
    logTight := tight, logCritical := critical }

/-- What the clean-up of a stripe does: the stripe goes on, or it leaves the list and a flush
payload says so in the log. -/
inductive CleanStep (c : R5conf d) (n : Nat) (alloc : Bool) : R5conf d → Prop where
  | kept {c' : R5conf d} (hs : StripeStep c c' n) : CleanStep c n alloc c'
  | writtenOut {st : StripeHead d} (tight critical : Bool) (hwb : c.log.writeBack = true)
      (hp : (c.sh n).parity.inJournal = true)
      (hstart : st.logStart = none) (htrapped : st.logTrapped = false)
      (hok : StripeOk c.log.writeBack False (c.log.logIo n) st) :
      CleanStep c n alloc (r5lAppendFlushPayload (c.writtenOut n st tight critical) alloc)

theorem handleStripeFill_eq (h : Inv c) (hn : n < c.nrStripes) (degradedRead : Bool) :
    ∃ caching handle : Bool, (caching → (c.sh n).caching) ∧ handleStripeFill c n degradedRead =
        c.modify n fun st => { st with caching := caching, handle := handle } := by
  unfold handleStripeFill
  by_cases hfill : (degradedRead && decide ((c.sh n).injournal ≠ 0) &&
      decide ((c.sh n).reconstruct = .idle))
  · rw [if_pos hfill]
    by_cases hc : (c.sh n).caching
    · refine ⟨false, true, by simp, ?_⟩
      rw [if_pos hc, r5cMakeStripeWriteOut_eq (h.writeBack_of_caching hn hc), modify_modify]
    · refine ⟨(c.sh n).caching, true, id, ?_⟩
      rw [if_neg hc]
      rfl
  · refine ⟨(c.sh n).caching, (c.sh n).handle, id, ?_⟩
    rw [if_neg hfill]
    exact (modify_eq_self rfl).symm

theorem cleanStep_handleFinish (h : Inv c) (hn : n < c.nrStripes) {s : HeadState}
    (hplace : (c.sh n).place = .handling (.finishing s)) (degradedRead alloc : Bool) :
    CleanStep c n alloc (handleFinish c n s degradedRead alloc) := by
  have hok := h.stripe n hn
  obtain ⟨caching, handle, hc, heq⟩ := handleStripeFill_eq h hn degradedRead
  have hlogging : (c.sh n).place ≠ .logging := by simp [hplace]
  have hkept : (n ∈ c.stripeInJournalList → (c.sh n).parity.inJournal = false) →
      StripeStep c (c.modify n fun st => st.cleaned s caching handle) n := fun hoff =>
    .modify h ⟨rfl, fun _ _ hu => hu, id, fun hcaching ht => .inr ⟨hc hcaching, ht⟩⟩
      (fun hin hp => absurd (hp.inJournal hlogging) (Bool.eq_false_iff.mp (hoff hin)))
      (hok.cleaned hplace hc handle) fun hp => absurd hp hlogging
  unfold handleFinish
  rw [heq]
  unfold r5cFinishStripeWriteOut
  by_cases hp : (c.sh n).parity.inJournal
  · have hsh : (c.modify n fun st => { st with caching := caching, handle := handle }).sh n =
        { c.sh n with caching := caching, handle := handle } := modify_self _
    simp only [hsh, hp, Bool.not_true, Bool.false_eq_true, if_false, modify_modify]
    by_cases hwb : c.log.writeBack
    · have hback : ∀ f : StripeHead d → StripeHead d, r5cIsWriteback (c.modify n f) :=
        fun _ => hwb
      simp only [hback, Bool.not_true, Bool.false_eq_true, if_false]
      rw [modify_sync, r5lAppendFlushPayload_modify]
      obtain ⟨tight, critical, hstate⟩ := r5cUpdateLogState_eq
        { c.modify n fun st => unlogged { st with
            caching := caching, handle := handle
            parity := { st.parity with inJournal := false } } with
          stripeInJournalList := c.stripeInJournalList.erase n }
      have hout := hok.written_out hplace hp hc (handle || (c.sh n).syncRequested)
      have hfinal : CleanStep c n alloc (r5lAppendFlushPayload
        (c.writtenOut n _ tight critical) alloc) :=
        .writtenOut tight critical hwb hp rfl (by exact (hok.stored_quiet hplace hp).trapped) hout
      convert hfinal using 2
      refine (congrArg (fun x : R5conf d => x.modify n _) hstate).trans ?_
      simp only [R5conf.modify, R5conf.writtenOut, update_self, update_idem]
      rfl
    · have hthrough : ∀ f : StripeHead d → StripeHead d, r5cIsWriteback (c.modify n f) = false :=
        fun _ => Bool.eq_false_iff.mpr hwb
      simp only [hthrough, Bool.not_false, if_true, modify_modify]
      exact .kept (hkept fun hin => absurd hin (h.not_listed (Bool.eq_false_iff.mpr hwb)))
  · have hoff := Bool.eq_false_iff.mpr hp
    have hsh : (c.modify n fun st => { st with caching := caching, handle := handle }).sh n =
        { c.sh n with caching := caching, handle := handle } := modify_self _
    simp only [hsh, hoff, Bool.not_false, if_true, modify_modify]
    refine .kept ?_
    rw [modify_congr (g := fun st => st.cleaned s caching handle)]
    · exact hkept fun _ => hoff
    · simp only [cleaned, ← hoff]

theorem Inv.writtenOut (h : Inv c) {st : StripeHead d} (hwait : ∀ u, n ∉ (c.log.unit u).stripeList)
    (hstart : st.logStart = none) (hok : StripeOk c.log.writeBack False (c.log.logIo n) st)
    (tight critical : Bool) : Inv (c.writtenOut n st tight critical) := by
  have hself : ¬ n ∈ c.stripeInJournalList.erase n := fun hmem =>
    (h.nodup.mem_erase_iff.mp hmem).1 rfl
  have hother : ∀ {m}, m ≠ n → (m ∈ c.stripeInJournalList.erase n ↔ m ∈ c.stripeInJournalList) :=
    fun hm => mem_erase_of_ne hm
  refine ⟨h.shape, fun m hm => ?_, fun m hm => ?_, fun m hm => h.listed m (mem_of_mem_erase hm),
    h.nodup.erase n, fun hwb => ?_, fun u m hm => ?_, h.noBug⟩
  · show StripeOk c.log.writeBack (m ∈ c.stripeInJournalList.erase n) (c.log.logIo m)
      (update c.sh n st m)
    by_cases hmn : m = n
    · subst hmn
      rw [update_self, eq_false hself]
      exact hok
    · rw [update_of_ne hmn, hother hmn]
      exact h.stripe m hm
  · show (update c.sh n st m).logStart.isSome ↔ m ∈ c.stripeInJournalList.erase n
    by_cases hmn : m = n
    · subst hmn
      rw [update_self, hstart]
      exact ⟨by simp, fun hs => absurd hs hself⟩
    · rw [update_of_ne hmn, hother hmn]
      exact h.started m hm
  · show c.stripeInJournalList.erase n = []
    rw [h.through hwb]
    rfl
  · have hmn : m ≠ n := fun heq => hwait u (heq ▸ hm)
    show (update c.sh n st m).place = .logging
    rw [update_of_ne hmn]
    exact h.waiting u m hm

theorem Inv.r5lAppendFlushPayload (h : Inv c) (alloc : Bool) :
    Inv (r5lAppendFlushPayload c alloc) := by
  unfold WriteBack.r5lAppendFlushPayload
  split_ifs
  · exact h
  · exact h.takeBlocks (grows_r5lAppendFlushPayload h.shape alloc)
      (h.shape.r5lAppendFlushPayload alloc) 0

theorem Inv.cleanStep (h : Inv c) (hwait : ∀ u, n ∉ (c.log.unit u).stripeList) {alloc : Bool}
    (hs : CleanStep c n alloc c') : Inv c' := by
  cases hs with
  | kept hs => exact h.stripeStep hs
  | writtenOut tight critical _ _ hstart _ hok =>
    exact (h.writtenOut hwait hstart hok tight critical).r5lAppendFlushPayload alloc

/-! ## The log moves on -/

theorem logEvent_progress {N : Nat} {log log' : R5lLog} (h : Shape N log) {e : LogEvent}
    (hs : Journal.step log e.toEvent = some log') : Shape N log' ∧ ∃ us, Progress log log' us := by
  cases e with
  | writeStripeRun =>
    cases hs
    exact ⟨h.r5lSubmitCurrentIo, [], progress_r5lSubmitCurrentIo log⟩
  | doSubmitIo u =>
    obtain ⟨hsub, rfl⟩ := Runs.of_guard hs
    exact ⟨h.r5lDoSubmitIo hsub, [], progress_modifyUnit log u _ rfl⟩
  | submitIoAsync =>
    cases hs
    exact ⟨h.r5lSubmitIoAsync, [], progress_r5lSubmitIoAsync log⟩
  | logEndio u =>
    obtain ⟨hstart, rfl⟩ := Runs.of_guard hs
    obtain ⟨us, hus, -⟩ := progress_r5lLogEndio h hstart
    exact ⟨h.r5lLogEndio hstart, us, hus⟩
  | logEndioTail u =>
    obtain ⟨htail, rfl⟩ := Runs.of_guard hs
    exact ⟨h.r5lLogEndioTail htail, [], progress_r5lLogEndioTail log u⟩
  | flushStripeToRaid =>
    cases hs
    exact ⟨h.r5lFlushStripeToRaid, [], progress_r5lFlushStripeToRaid log⟩
  | submitFlush =>
    obtain ⟨-, rfl⟩ := Runs.of_guard hs
    exact ⟨⟨h.unit, h.front, h.done, h.nodup⟩, [],
      Progress.of_releases rfl rfl rfl (.inl rfl) (fun _ hu => hu) rfl fun _ => rfl⟩
  | logFlushEndio =>
    simp only [LogEvent.toEvent, Journal.step] at hs
    split at hs
    · cases hs
      exact ⟨h.r5lLogFlushEndio _, _, progress_r5lLogFlushEndio h _⟩
    · cases hs

theorem r5cFinishCacheStripe_parity (hoff : (c.sh n).caching = false) :
    r5cFinishCacheStripe c n = c.modify n fun st =>
      { if c.log.writeBack then r5cHandleParityCached st else st with
        parity := { st.parity with inJournal := true } } := by
  unfold r5cFinishCacheStripe r5cIsWriteback
  by_cases hwb : c.log.writeBack
  · simp only [hwb, hoff, Bool.not_true, Bool.false_eq_true, if_false, if_true]
  · simp only [hwb, hoff, Bool.not_false, if_true, Bool.or_false, Bool.false_eq_true, if_false]
    rfl

/-- What `r5l_io_run_stripes` does with a stripe whose unit let it go. -/
theorem stripeStep_runStripe (h : Inv c) (hn : n < c.nrStripes) (hplace : (c.sh n).place = .logging)
    (hlog : c.log.logIo n ≠ none) (hwait : ∀ u, n ∉ (c.log.unit u).stripeList) :
    StripeStep c (runStripe c n) n := by
  have hok := h.stripe n hn
  unfold runStripe
  rcases hok.says hplace with ⟨hw, hin⟩ | ⟨hf, htrapped⟩
  · have hcaching : (c.sh n).caching := by
      rcases hw.place with ⟨-, hp | hp | hp⟩ | ⟨-, hc, -⟩
      · cases hplace.symm.trans hp
      · cases hplace.symm.trans hp
      · cases hplace.symm.trans hp
      · exact hc
    have hback : r5cIsWriteback c := hw.mode
    simp only [r5cFinishCacheStripe, hback, Bool.not_true, Bool.false_eq_true, if_false, hcaching,
      if_true, modify_modify]
    refine .release h hn ⟨rfl, dataCached_behind (c.sh n), id, fun _ ht => (by cases ht)⟩
      (fun hp => hp.resolve_right fun hl => (by cases hcaching.symm.trans hl.2)) id hwait
        fun st' hrel => ?_
    obtain ⟨caching, -, rfl⟩ := hrel.of_handle rfl
    exact hw.dataCached hin caching
  · have hkept : ∀ cached : Bool, (if cached then r5cHandleParityCached (c.sh n) else
      c.sh n).caching =
        (c.sh n).caching ∧ (if cached then r5cHandleParityCached (c.sh n) else c.sh n).logStart =
        (c.sh n).logStart ∧ ((c.sh n).Counted →
        (if cached then r5cHandleParityCached (c.sh n) else c.sh n).Counted) := fun cached => by
      cases cached <;> exact ⟨rfl, rfl, id⟩
    rw [r5cFinishCacheStripe_parity hf.caching, modify_modify]
    refine .release h hn ⟨(hkept _).2.1, parityCached_behind _ (c.sh n), (hkept _).2.2,
        fun hc _ => (by cases hf.caching.symm.trans ((hkept _).1 ▸ hc))⟩ (fun _ => rfl)
      (fun hc => (hkept _).1 ▸ hc)
      hwait fun st' hrel => ?_
    obtain ⟨caching, hc, rfl⟩ := hrel.of_handle rfl
    have hfalse : caching = false := Bool.eq_false_iff.mpr fun ht =>
      (by cases hf.caching.symm.trans ((hkept _).1.symm.trans (hc ht)))
    rw [hfalse]
    exact hok.parityCached hf htrapped hlog c.log.writeBack

/-- The stripes of `ns` have been let go and still have to be run. -/
structure ToRun (c : R5conf d) (ns : List Nat) : Prop where
  nodup : ns.Nodup
  stripe : ∀ n ∈ ns, n < c.nrStripes ∧ (c.sh n).place = .logging ∧ c.log.logIo n ≠ none ∧
    ∀ u, n ∉ (c.log.unit u).stripeList

theorem ToRun.runStripe {ns : List Nat} (h : Inv c) (hr : ToRun c (n :: ns)) :
    StripeStep c (runStripe c n) n ∧ ToRun (runStripe c n) ns := by
  obtain ⟨hn, hplace, hlog, hwait⟩ := hr.stripe n mem_cons_self
  have hs := stripeStep_runStripe h hn hplace hlog hwait
  obtain ⟨hnot, hnodup⟩ := nodup_cons.mp hr.nodup
  refine ⟨hs, hnodup, fun m hm => ?_⟩
  have hmn : m ≠ n := fun heq => hnot (heq ▸ hm)
  rw [hs.eq, withStripe_of_ne hmn]
  exact hr.stripe m (mem_cons_of_mem n hm)

/-- Whatever a change of one stripe preserves, running the released stripes preserves. -/
theorem foldl_runStripe {P : R5conf d → Prop}
    (hP : ∀ {c c' : R5conf d} {n}, P c → StripeStep c c' n → P c') :
    ∀ {ns : List Nat} {c : R5conf d}, Inv c → ToRun c ns → P c →
      Inv (ns.foldl runStripe c) ∧ P (ns.foldl runStripe c)
  | [], _, h, _, hp => ⟨h, hp⟩
  | n :: ns, c, h, hr, hp => by
    obtain ⟨hs, hr'⟩ := hr.runStripe h
    rw [foldl_cons]
    exact foldl_runStripe hP (h.stripeStep hs) hr' (hP hp hs)

/-- The units have moved on; their stripes have not been run yet. -/
theorem Inv.progress (h : Inv c) {log : R5lLog} {us : List Nat} (hshape : Shape c.nrStripes log)
    (hp : Progress c.log log us) (next : Pos) : Inv { c with log := log, nextCheckpoint := next } ∧
      ToRun { c with log := log, nextCheckpoint := next }
        ((log.releases.drop c.log.releases.length).map Release.stripe) := by
  refine ⟨⟨hshape, fun m hm => ?_, h.started, h.listed, h.nodup, fun hwb => ?_, fun u m hm => ?_,
    h.noBug⟩, ?_, fun m hm => ?_⟩
  · show StripeOk log.writeBack _ (log.logIo m) (c.sh m)
    rw [hp.writeBack, hp.logIo]
    exact h.stripe m hm
  · exact h.through (hp.writeBack ▸ hwb)
  · have hmem : m ∈ (log.unit u).stripeList := hm
    rw [hp.stripeList] at hmem
    split_ifs at hmem
    · exact absurd hmem not_mem_nil
    · exact h.waiting u m hmem
  · rw [hp.released, nodup_flatMap]
    refine ⟨fun u _ => (h.shape.unit u).nodup, hp.nodup.imp fun {u v} huv => ?_⟩
    intro m hmu hmv
    have hu := (h.shape.unit u).stripes m hmu
    have hv := (h.shape.unit v).stripes m hmv
    exact huv (some.inj (hu.symm.trans hv))
  · rw [hp.released, mem_flatMap] at hm
    obtain ⟨u, hu, hmem⟩ := hm
    have hlog : c.log.logIo m = some u := (h.shape.unit u).stripes m hmem
    refine ⟨(h.shape.unit u).bound m hlog, h.waiting u m hmem, ?_, fun v hv => ?_⟩
    · show log.logIo m ≠ none
      rw [hp.logIo, hlog]
      simp
    · have hv' : m ∈ (log.unit v).stripeList := hv
      rw [hp.stripeList] at hv'
      split_ifs at hv' with hvu
      · exact absurd hv' not_mem_nil
      · have heq : u = v :=
          some.inj (hlog.symm.trans ((h.shape.unit v).stripes m hv'))
        exact hvu (heq ▸ hu)

/-- What the steps of single stripes keep, an event of the log keeps. -/
theorem Inv.runLog_rule {P : R5conf d → Prop}
    (hP : ∀ {c c' : R5conf d} {n}, P c → StripeStep c c' n → P c') (h : Inv c) {e : LogEvent}
    {log : R5lLog} (hs : Journal.step c.log e.toEvent = some log)
    (hnext : ∀ us, Shape c.nrStripes log → Progress c.log log us →
      P { c with log := log, nextCheckpoint := nextCheckpointAfter c log }) :
    Inv (runLog c log) ∧ P (runLog c log) := by
  obtain ⟨hshape, us, hp⟩ := logEvent_progress h.shape hs
  obtain ⟨hinv, hrun⟩ := h.progress hshape hp (nextCheckpointAfter c log)
  exact foldl_runStripe hP hinv hrun (hnext us hshape hp)

theorem Inv.runLog (h : Inv c) {e : LogEvent} {log : R5lLog}
    (hs : Journal.step c.log e.toEvent = some log) : Inv (runLog c log) :=
  (h.runLog_rule (P := fun _ => True) (fun _ _ => trivial) hs fun _ _ _ => trivial).1

/-! ## The mode -/

/-- Write-back mode is left only with no stripe on `stripe_in_journal_list`. -/
def Emptied (c : R5conf d) : Event d → Prop
  | .journalModeStore writeBack _ => writeBack = false → c.stripeInJournalList = []
  | .disableWritebackAsync => c.stripeInJournalList = []
  | _ => True

instance (c : R5conf d) (e : Event d) : Decidable (Emptied c e) := by
  unfold Emptied
  split <;> infer_instance

theorem Inv.setMode (h : Inv c) (hsus : Suspended c) {writeBack : Bool}
    (hempty : writeBack = false → c.stripeInJournalList = []) : Inv (setMode c writeBack) :=
  { h with
    shape := { h.shape with
      unit := fun u => { h.shape.unit u with } }
    stripe := fun n hn => by
      refine (h.stripe n hn).setMode (fun i => (hsus.2 n hn i).2) fun hwb => ?_
      rw [hempty hwb]
      exact not_mem_nil
    through := hempty }

/-! ## Steps and runs -/

theorem at?_eq_some {p : Place → Bool} {next : Option (R5conf d)} :
    at? c n p next = some c' ↔ n < c.nrStripes ∧ p (c.sh n).place ∧ next = some c' := by
  rw [at?, Option.ite_none_right_eq_some, and_assoc]

theorem of_at? {p : Place → Bool} {next : R5conf d} (h : at? c n p (some next) = some c') :
    n < c.nrStripes ∧ p (c.sh n).place ∧ next = c' :=
  (at?_eq_some.mp h).imp_right (And.imp_right some.inj)

/-- The checkpoint `r5l_do_reclaim` is writing to the superblock. -/
def Reclaim.checkpoint : Reclaim → Option Pos
  | .idle | .waiting _ _ => none
  | .writing cp => some cp

/-- What a step can do. Every invariant of runs is derived from this. -/
inductive Change (c : R5conf d) : Event d → R5conf d → Prop where
  | stripe {e : Event d} {n : Nat} {c' : R5conf d} (hs : StripeStep c c' n) : Change c e c'
  | returned {n : Nat} (clean : Bool) {s : HeadState} (hn : n < c.nrStripes)
      (hplace : (c.sh n).place = .handling (.returning s)) :
      Change c (.handleReturn n clean) (handleReturn c n s clean)
  | cleaned {n : Nat} (degradedRead : Bool) {alloc : Bool} {c' : R5conf d} (hn : n < c.nrStripes)
      (hwait : ∀ u, n ∉ (c.log.unit u).stripeList) (hs : CleanStep c n alloc c') :
      Change c (.handleFinish n degradedRead alloc) c'
  | io {n : Nat} (preflush fua alloc : Bool) {c' : R5conf d} (hs : IoStep c n c') :
      Change c (.handleIo n preflush fua alloc) c'
  | log {e : LogEvent} {log : R5lLog} (hs : Journal.step c.log e.toEvent = some log) :
      Change c (.log e) (runLog c log)
  | flush (alloc : Bool) (hwb : c.log.writeBack = true) :
      Change c (.flushRequest alloc) (takeBlocks c (Journal.r5lHandleFlushRequest c.log alloc) 0)
  | settings {e : Event d} (target : Nat) {reclaim : Reclaim} (suspended quiesce : Bool)
      (hr : reclaim.checkpoint = c.reclaim.checkpoint) :
      Change c e { c with
        reclaimTarget := target, reclaim := reclaim, suspended := suspended, quiesce := quiesce }
  | pick (hr : c.reclaim.checkpoint = none) (hspace : r5lReclaimableSpace c ≠ 0) :
      Change c .reclaimPick
        { r5lWriteSuper c (r5cCalculateNewCp c) with reclaim := .writing (r5cCalculateNewCp c) }
  | done {cp : Pos} (hr : c.reclaim.checkpoint = some cp) (tight critical : Bool) :
      Change c .reclaimDone { c with
        lastCheckpoint := cp, logTight := tight, logCritical := critical, reclaim := .idle }
  | superStart (hs : c.superWriting = none) :
      Change c .superStart { c with superWriting := some c.journalTail }
  | superDone {tail : Pos} (hs : c.superWriting = some tail) :
      Change c .superDone { c with superWriting := none, durableTail := tail }
  | mode {e : Event d} {writeBack : Bool} (hsus : Suspended c)
      (hempty : Emptied c e → writeBack = false → c.stripeInJournalList = []) :
      Change c e (setMode c writeBack)

theorem step_change (h : Inv c) {e : Event d} (hs : step c e = some c') : Change c e c' := by
  have hsame : Change c e c := .settings c.reclaimTarget c.suspended c.quiesce rfl
  unfold WriteBack.step at hs
  cases e with
  | addBio n i covers =>
    obtain ⟨hn, -, rfl⟩ := of_at? hs
    exact .stripe (stripeStep_addStripeBio h hn i covers)
  | requestSync n =>
    obtain ⟨hn, -, rfl⟩ := of_at? hs
    exact .stripe (stripeStep_requestSync h hn)
  | handleStart n blocked =>
    obtain ⟨hn, hp, rfl⟩ := of_at? hs
    exact .stripe (stripeStep_handleStart h hn (eq_of_beq hp) blocked)
  | handleReturn n clean =>
    obtain ⟨hn, -, heq⟩ := at?_eq_some.mp hs
    split at heq
    · next s hplace =>
      cases heq
      exact .returned clean hn hplace
    · cases heq
  | handleFinish n degradedRead alloc =>
    obtain ⟨hn, -, heq⟩ := at?_eq_some.mp hs
    split at heq
    · next s hplace =>
      cases heq
      exact .cleaned degradedRead hn (h.not_waiting fun hp => (by cases hplace.symm.trans hp))
        (cleanStep_handleFinish h hn hplace degradedRead alloc)
    · cases heq
  | handleWrite n failed counted ready drain =>
    obtain ⟨hn, -, heq⟩ := at?_eq_some.mp hs
    split at heq
    · next s hplace =>
      cases heq
      exact .stripe (stripeStep_handleWrite h hn hplace failed counted ready drain)
    · cases heq
  | handleIo n preflush fua alloc =>
    obtain ⟨hn, hp, heq⟩ := at?_eq_some.mp hs
    exact .io preflush fua alloc (ioStep_opsRunIo h hn (eq_of_beq hp) heq)
  | opsComplete n =>
    obtain ⟨hn, hp, rfl⟩ := of_at? hs
    exact .stripe (stripeStep_opsComplete h hn (eq_of_beq hp))
  | endWrites n =>
    obtain ⟨hn, hp, rfl⟩ := of_at? hs
    exact .stripe (stripeStep_endWrites h hn (eq_of_beq hp))
  | runWaiting n =>
    obtain ⟨hn, hp, rfl⟩ := of_at? hs
    exact .stripe (stripeStep_runWaiting h hn (eq_of_beq hp))
  | log e =>
    obtain ⟨log, hlog, rfl⟩ := Option.map_eq_some_iff.mp hs
    exact .log hlog
  | flushRequest alloc =>
    cases hs
    unfold r5lHandleFlushRequest
    split_ifs with hwb
    · exact .flush alloc hwb
    · exact hsame
  | flushStripe n =>
    obtain ⟨hn, hp, rfl⟩ := of_at? hs
    rw [Bool.or_eq_true, beq_iff_eq, beq_iff_eq] at hp
    exact .stripe (stripeStep_r5cFlushStripe h hn hp)
  | wakeReclaim space =>
    cases hs
    unfold r5lWakeReclaim
    split_ifs
    · exact hsame
    · exact .settings space c.suspended c.quiesce rfl
  | reclaimEnter =>
    obtain ⟨hidle, rfl⟩ := of_guard hs
    exact .settings 0 c.suspended c.quiesce (by rw [hidle]; rfl)
  | reclaimPick =>
    dsimp only at hs
    split at hs
    · next target writeSuper hwaiting =>
      obtain ⟨-, rfl⟩ := of_guard hs
      have hnone : c.reclaim.checkpoint = none := by rw [hwaiting]; rfl
      unfold r5lDoReclaimPick
      split_ifs with hskip
      · exact .settings c.reclaimTarget c.suspended c.quiesce hnone.symm
      · exact .pick hnone fun hzero => hskip (.inl hzero)
    · cases hs
  | reclaimDone =>
    dsimp only at hs
    split at hs
    · next cp hwriting =>
      cases hs
      unfold r5lDoReclaimDone
      obtain ⟨tight, critical, heq⟩ := r5cUpdateLogState_eq { c with lastCheckpoint := cp }
      rw [heq]
      exact .done (by rw [hwriting]; rfl) tight critical
    · cases hs
  | superStart =>
    obtain ⟨hnone, rfl⟩ := of_guard hs
    exact .superStart hnone
  | superDone =>
    obtain ⟨tail, htail, rfl⟩ := Option.map_eq_some_iff.mp hs
    exact .superDone htail
  | setQuiesce quiesce =>
    cases hs
    exact .settings c.reclaimTarget c.suspended quiesce rfl
  | suspend =>
    cases hs
    exact .settings c.reclaimTarget true c.quiesce rfl
  | resume =>
    cases hs
    exact .settings c.reclaimTarget false c.quiesce rfl
  | journalModeStore writeBack degraded =>
    obtain ⟨hsus, rfl⟩ := of_guard hs
    unfold r5cJournalModeSet
    split_ifs
    · exact hsame
    · exact .mode hsus id
  | disableWritebackAsync =>
    obtain ⟨hsus, rfl⟩ := of_guard hs
    exact .mode hsus fun hempty _ => hempty

/-- **One step keeps the invariant**, if it does not leave write-back mode with stripes on the
list. -/
theorem Inv.change (h : Inv c) {e : Event d} (hcond : Emptied c e)
    (hc : Change c e c') : Inv c' := by
  cases hc with
  | stripe hs => exact h.stripeStep hs
  | returned clean hn hplace => exact h.handleReturn hn hplace clean
  | cleaned _ _ hwait hs => exact h.cleanStep hwait hs
  | io _ _ _ hs => exact h.ioStep hs
  | log hs => exact h.runLog hs
  | flush alloc _ =>
    exact h.takeBlocks (grows_r5lHandleFlushRequest h.shape alloc)
      (h.shape.r5lHandleFlushRequest alloc) 0
  | mode hsus hempty => exact h.setMode hsus (hempty hcond)
  | settings | pick | done | superStart | superDone =>
    exact ⟨h.shape, h.stripe, h.started, h.listed, h.nodup, h.through, h.waiting, h.noBug⟩

end MdRaid.Journal.WriteBack
