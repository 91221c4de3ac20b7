import MdRaid.Journal.Positions
import MdRaid.Journal.ThroughOrder

/-!
# Leaving write-back mode

`mddev_suspend` waits for requests, and the requests of a cached stripe have ended once
its data is in the journal. So the mode can change under stripes that are cached.
`raid5_remove_disk` looks at three counters before it lets the journal go: no stripe is
active and none is counted as cached. When the mode is changed only in such a state, nothing
is left behind: `stripe_in_journal_list` is empty, in write-through mode no stripe is in its
caching phase or on a list of cached stripes, none of the two assertions fires, and the
checkpoint does not pass data that only the journal has.
-/

namespace MdRaid.Journal.WriteBack

open RingLog Function List R5conf Runs

variable {d : Nat} {c : R5conf d} {n t : Nat}

/-! ## What the checkpoint may pass -/

/-- In write-through mode: from unit `t` on the order is kept, no data from before `t` is behind,
and `next_checkpoint` has passed no unit that is still on a list. -/
structure InStep (t : Nat) (c : R5conf d) : Prop where
  order : InOrder t c.log
  behind : ∀ n < c.nrStripes, ∀ i, ∀ u ∈ ((c.sh n).dev i).behind, t ≤ u
  passed : ∀ u, t ≤ u → u ∈ c.log.left ∨ u ∈ c.log.runningIos →
    c.nextCheckpoint.abs ≤ (c.start u).abs

structure Through (c : R5conf d) : Prop where
  queued : Queued c.log
  inStep : c.log.writeBack = false → ∃ t, InStep t c

theorem through_loaded (p : Setup) : Through (loaded d p) where
  queued := queued_start p.writeBack p.needCacheFlush
  inStep := fun _ => ⟨0, inOrder_start p.writeBack p.needCacheFlush,
    fun _ _ _ _ _ => Nat.zero_le _, fun _ _ _ => le_rfl⟩

variable {log : R5lLog} {c' : R5conf d}

theorem InStep.stripeStep (h : InStep t c) (hs : StripeStep c c' n) : InStep t c' := by
  have hkeeps := hs.keeps.behind
  rw [hs.eq]
  refine ⟨h.order, fun m hm i u hu => ?_, h.passed⟩
  by_cases hmn : m = n
  · subst hmn
    rw [withStripe_self] at hu
    exact h.behind m hm i u (hkeeps i u hu)
  · rw [withStripe_of_ne hmn] at hu
    exact h.behind m hm i u hu

theorem Through.stripeStep (h : Through c) (hs : StripeStep c c' n) : Through c' := by
  have hlog : c'.log = c.log := by
    rw [hs.eq]
    rfl
  refine ⟨hlog ▸ h.queued, fun hwb => ?_⟩
  obtain ⟨t, hstep⟩ := h.inStep (hlog ▸ hwb)
  exact ⟨t, hstep.stripeStep hs⟩

/-- What `next_checkpoint` becomes when units at the front of `finished_ios` are done with. -/
theorem nextCheckpointAfter_finishes {gone : List Nat}
    (hgone : c.log.finishedIos = gone ++ log.finishedIos) :
    nextCheckpointAfter c log = c.nextCheckpoint ∨ ∃ u ∈ gone, nextCheckpointAfter c log =
      c.start u := by
  have htake : c.log.finishedIos.take (c.log.finishedIos.length -
    log.finishedIos.length) = gone := by
    rw [hgone, length_append, Nat.add_sub_cancel, take_left']
    rfl
  unfold nextCheckpointAfter
  rw [htake]
  split
  · exact .inl rfl
  · next u hlast => exact .inr ⟨u, mem_of_getLast? hlast, rfl⟩

/-- Nothing is done with while units are added to `finished_ios`. -/
theorem nextCheckpointAfter_more {more : List Nat}
    (hmore : log.finishedIos = c.log.finishedIos ++ more) :
    nextCheckpointAfter c log = c.nextCheckpoint := by
  have hzero : c.log.finishedIos.length - log.finishedIos.length = 0 := by
    rw [hmore, length_append]
    omega
  rw [nextCheckpointAfter, hzero]
  rfl

/-- Units at the front of `finished_ios` go, and `next_checkpoint` follows. -/
theorem InStep.finishes (h : InStep t c) (hpos : Positions c) {N : Nat} (hshape : Shape N c.log)
    (hshape' : Shape N log) (hf : Finishes c.log log) :
    InStep t { c with log := log, nextCheckpoint := nextCheckpointAfter c log } := by
  obtain ⟨gone, hgone, hend⟩ := hf.gone
  refine ⟨h.order.finishes hshape' hf, h.behind, fun u hu hmem => ?_⟩
  rcases nextCheckpointAfter_finishes hgone with heq | ⟨v, hv, heq⟩
  · refine (congrArg Pos.abs heq).le.trans (h.passed u hu ?_)
    refine hmem.imp (fun hl => ?_) fun hr => hf.running ▸ hr
    rw [hf.left hgone]
    exact mem_append_right _ hl
  · refine (congrArg Pos.abs heq).le.trans (hpos.mono v u
      (h.order.gone_lt hshape hf hgone hv hu hmem).le ?_)
    rw [← hf.seq]
    rcases hmem with hmem | hmem
    · exact hshape'.lt_seq_of_completed (hshape'.done u hmem)
    · exact hshape'.running_lt hmem

theorem InStep.device (h : InStep t c) (hpos : Positions c) (hq : Queued c.log) {N : Nat}
    (hshape : Shape N c.log) (hshape' : Shape N log) (hd : Device c.log log) :
    InStep t { c with log := log, nextCheckpoint := nextCheckpointAfter c log } := by
  have horder := h.order.device hshape hshape' hq hd
  cases hd with
  | finishes hf => exact h.finishes hpos hshape hshape' hf
  | ends _ he =>
    refine ⟨horder, h.behind, fun u hu hmem => ?_⟩
    have hnext : nextCheckpointAfter c log = c.nextCheckpoint := by
      rcases he.lists with ⟨-, -, hfin, -⟩ | ⟨-, hfin, -⟩
      · exact nextCheckpointAfter_more (hfin.trans (append_nil _).symm)
      · exact nextCheckpointAfter_more hfin
    exact (congrArg Pos.abs hnext).le.trans (h.passed u hu ((he.members u).mp hmem))
  | moves _ _ _ _ hrun hleft hfin _ _ _ =>
    obtain ⟨more, hmore⟩ := hfin
    refine ⟨horder, h.behind, fun u hu hmem => ?_⟩
    refine (congrArg Pos.abs (nextCheckpointAfter_more hmore)).le.trans (h.passed u hu ?_)
    rw [← hleft, ← hrun]
    exact hmem

/-! ## Steps -/

theorem logEvent_device {N : Nat} {log log' : R5lLog} (h : Shape N log) {e : LogEvent}
    (hs : Journal.step log e.toEvent = some log') : Device log log' := by
  cases e with
  | writeStripeRun =>
    cases hs
    exact device_r5lSubmitCurrentIo log
  | doSubmitIo u =>
    obtain ⟨-, rfl⟩ := of_guard hs
    exact device_modifyUnit log u _ rfl
  | submitIoAsync =>
    cases hs
    unfold r5lSubmitIoAsync
    split
    · exact .finishes (Finishes.refl log)
    · split_ifs
      · exact device_modifyUnit log _ _ rfl
      · exact .finishes (Finishes.refl log)
  | logEndio u =>
    obtain ⟨hstart, rfl⟩ := of_guard hs
    exact .ends hstart (ends_r5lLogEndio h hstart)
  | logEndioTail u =>
    obtain ⟨-, rfl⟩ := of_guard hs
    exact .finishes (finishes_r5lLogEndioTail log u)
  | flushStripeToRaid =>
    cases hs
    exact device_r5lFlushStripeToRaid log
  | submitFlush =>
    obtain ⟨-, rfl⟩ := of_guard hs
    exact .moves rfl rfl rfl rfl rfl rfl ⟨[], (append_nil _).symm⟩ ⟨[], rfl⟩ (fun _ hv => hv)
      fun _ _ => rfl
  | logFlushEndio =>
    simp only [LogEvent.toEvent, Journal.step] at hs
    split at hs
    · cases hs
      exact device_r5lLogFlushEndio h _
    · cases hs

section

variable (h : Through c) (hinv : Inv c) (hpos : Positions c)

include h hinv hpos

theorem Through.runLog {e : LogEvent}
    (hs : Journal.step c.log e.toEvent = some log) : Through (runLog c log) := by
  have hd := logEvent_device hinv.shape hs
  refine (hinv.runLog_rule Through.stripeStep hs fun _ hshape hp =>
    ⟨h.queued.device hd, fun hwb => ?_⟩).2
  obtain ⟨t, hstep⟩ := h.inStep (hp.writeBack ▸ hwb)
  exact ⟨t, hstep.device hpos h.queued hinv.shape hshape hd⟩

theorem Through.handleReturn (hn : n < c.nrStripes) {s : HeadState}
    (hplace : (c.sh n).place = .handling (.returning s))
    (clean : Bool) : Through (handleReturn c n s clean) := by
  have hf := finishes_r5lStripeWriteFinished c.log n
  have hshape' := (hinv.handleReturn hn hplace clean).shape
  refine ⟨h.queued.finishes hf, fun hwb => ?_⟩
  obtain ⟨t, hstep⟩ := h.inStep ((progress_r5lStripeWriteFinished c.log n).writeBack ▸ hwb)
  have hmid : InStep t (c.modify n fun st =>
      { returnRequests st clean with place := .handling (.finishing s) }) := by
    refine ⟨hstep.order, fun m hm i u hu => ?_, hstep.passed⟩
    by_cases hmn : m = n
    · subst hmn
      rw [modify_self] at hu
      exact hstep.behind m hm i u (returnRequests_behind (c.sh m) clean i ▸ hu)
    · refine hstep.behind m hm i u ?_
      have hother : (c.modify n fun st => { returnRequests st clean with
        place := .handling (.finishing s) }).sh m = c.sh m := update_of_ne hmn ..
      rwa [hother] at hu
  have hpos' : Positions (c.modify n fun st =>
      { returnRequests st clean with place := .handling (.finishing s) }) :=
    hpos.of_same (fun _ hp => hp) (update_logStart
      (returnRequests_logStart (c.sh n) clean)) rfl rfl rfl
  exact ⟨t, hmid.finishes hpos' hinv.shape hshape' hf⟩

omit h hinv hpos in
/-- The log takes blocks in write-back mode, where no order is claimed. -/
theorem Through.takeBlocks (h : Through c) (hm : Moves c.log log)
    (hwb : c.log.writeBack) (pages : Nat) : Through (takeBlocks c log pages) := by
  rw [takeBlocks_eq]
  exact ⟨h.queued.moves hm, fun hc => (by cases hwb.symm.trans (hm.writeBack.symm.trans hc))⟩

omit h hinv hpos in
theorem InStep.logged (h : InStep t c) (hinv : Inv c) (hpos : Positions c) (hq : Queued c.log)
    {u pages : Nat} (hl : Logs c.log log n u) (tight critical : Bool)
    (logStart : Option Pos) (list : List Nat) : InStep t { c.grown log pages tight critical with
      sh := update c.sh n ((c.sh n).loggedIn u logStart)
      stripeInJournalList := list } := by
  refine ⟨h.order.logs hinv.shape hq hl, fun m hm i v hv => ?_, fun v hv hmem => ?_⟩
  · have hv' : v ∈ ((update c.sh n ((c.sh n).loggedIn u logStart) m).dev i).behind := hv
    by_cases hmn : m = n
    · subst hmn
      rw [update_self] at hv'
      rcases Dev.loggedIn_behind hv' with hold | ⟨-, rfl⟩
      · exact h.behind m hm i v hold
      · exact h.order.le_of_logs hl
    · rw [update_of_ne hmn] at hv'
      exact h.behind m hm i v hv'
  · show c.nextCheckpoint.abs ≤ ((if c.log.seq < log.seq then
      update c.start c.log.seq c.logStart else c.start) v).abs
    by_cases hnew : v = c.log.seq ∧ c.log.seq < log.seq
    · rw [if_pos hnew.2, hnew.1, update_self]
      exact (hpos.lt_head (Holds.next c)).le
    · have hsame : (if c.log.seq < log.seq then update c.start c.log.seq c.logStart
          else c.start) v = c.start v := by
        split_ifs with hlt
        · exact update_of_ne (fun heq => hnew ⟨heq, hlt⟩) ..
        · rfl
      rw [hsame]
      refine h.passed v hv ?_
      have hmem' : v ∈ log.left ∨ v ∈ log.runningIos := hmem
      rw [hl.left, hl.running, mem_append, mem_range'_1] at hmem'
      refine hmem'.imp_right fun hr => hr.resolve_right fun hfresh => hnew ?_
      have := hl.seq_le_succ
      omega

theorem Through.logStep {parityPages : Nat} (hs : LogStep c n parityPages c') : Through c' := by
  cases hs with
  | @logged log u hlogs _ tight critical _ logStart list _ _ =>
    refine ⟨h.queued.moves hlogs.toMoves, fun hwb => ?_⟩
    obtain ⟨t, hstep⟩ := h.inStep (hlogs.writeBack ▸ hwb)
    exact ⟨t, hstep.logged hinv hpos h.queued hlogs tight critical logStart list⟩
  | @noMemory log hg hseq _ =>
    rw [takeBlocks_eq]
    refine ⟨h.queued.moves hg.toMoves, fun hwb => ?_⟩
    obtain ⟨t, hstep⟩ := h.inStep (hg.writeBack ▸ hwb)
    refine ⟨t, hstep.order.grows hg hseq, fun m hm i u hu => ?_, fun u hu hmem => ?_⟩
    · refine hstep.behind m hm i u ?_
      by_cases hmn : m = n
      · subst hmn
        rw [r5lAddNoSpaceStripe, modify_self] at hu
        exact hu
      · rwa [r5lAddNoSpaceStripe, modify_of_ne hmn] at hu
    · show _ ≤ ((if c.log.seq < log.seq then _ else c.start) u).abs
      rw [if_neg (by omega)]
      refine hstep.passed u hu ?_
      have hmem' : u ∈ log.left ∨ u ∈ log.runningIos := hmem
      rwa [hg.left, hg.running, hseq, Nat.sub_self, range'_zero, append_nil] at hmem'

theorem Through.ioStep (hs : IoStep c n c') : Through c' :=
  hs.rule Through.stripeStep h fun hmid _ ht =>
    ht.logStep (hinv.stripeStep hmid) (hpos.stripeStep hmid)

/-- The mode changes. With the list empty no data is behind, so the order can start anew. -/
theorem Through.setMode {writeBack : Bool}
    (hempty : writeBack = false → c.stripeInJournalList = []) : Through (setMode c writeBack) := by
  refine ⟨⟨h.queued.live, h.queued.cacheless⟩, fun hwb => ?_⟩
  have hkeep : ∀ {t}, InOrder t c.log → InOrder t { c.log with writeBack := writeBack } := fun ho =>
    ⟨ho.bound, ho.sorted, ho.queued, ho.stripes, ho.current⟩
  cases hold : c.log.writeBack with
  | false =>
    obtain ⟨t, hstep⟩ := h.inStep hold
    exact ⟨t, hkeep hstep.order, hstep.behind, hstep.passed⟩
  | true =>
    obtain ⟨t, horder, hnewest⟩ := inOrder_of_current hinv.shape h.queued
    refine ⟨t, hkeep horder, fun n hn i u hu => ?_, fun u hu hmem => ?_⟩
    · have hin := (hinv.stripe n hn).back hold i (ne_nil_of_mem hu)
      rw [hempty hwb] at hin
      exact absurd hin not_mem_nil
    · exact hpos.le_newest (hnewest u hu hmem) (Holds.next c)

theorem Through.change {e : Event d} (hcond : Emptied c e) (hc : Change c e c') : Through c' := by
  cases hc with
  | stripe hs => exact h.stripeStep hs
  | returned clean hn hplace => exact h.handleReturn hinv hpos hn hplace clean
  | @cleaned n _ _ _ _ _ hs =>
    cases hs with
    | kept hs => exact h.stripeStep hs
    | @writtenOut st tight critical hwb _ _ _ _ =>
      have hmid : Through (c.writtenOut n st tight critical) :=
        ⟨h.queued, fun hc => (by cases hwb.symm.trans hc)⟩
      unfold r5lAppendFlushPayload
      split_ifs
      · exact hmid
      · exact hmid.takeBlocks (grows_r5lAppendFlushPayload hinv.shape _).toMoves hwb 0
  | io _ _ _ hs => exact h.ioStep hinv hpos hs
  | log hs => exact h.runLog hinv hpos hs
  | flush alloc hwb =>
    exact h.takeBlocks (grows_r5lHandleFlushRequest hinv.shape alloc).toMoves hwb 0
  | mode hsus hempty => exact h.setMode hinv hpos (hempty hcond)
  | settings | pick | done | superStart | superDone =>
    refine ⟨h.queued, fun hwb => ?_⟩
    obtain ⟨t, hstep⟩ := h.inStep hwb
    exact ⟨t, hstep.order, hstep.behind, hstep.passed⟩

end

/-! ## The counters -/

/-- Stripes are active unless they are on one of the lists of stripes at rest. -/
def Place.active : Place → Bool
  | .inactiveList | .fullStripeList | .partialStripeList => false
  | _ => true

def activeStripes (c : R5conf d) : Nat :=
  (range c.nrStripes).countP fun n => (c.sh n).place.active

def r5cCachedFullStripes (c : R5conf d) : Nat :=
  (range c.nrStripes).countP fun n => (c.sh n).fullStripe

def r5cCachedPartialStripes (c : R5conf d) : Nat :=
  (range c.nrStripes).countP fun n => (c.sh n).partialStripe

/-- What `raid5_remove_disk` asks for before the journal is removed. -/
def journalIdle (c : R5conf d) : Bool :=
  activeStripes c == 0 && r5cCachedFullStripes c == 0 && r5cCachedPartialStripes c == 0

/-- The mode is set to write-through. -/
def Event.toWriteThrough : Event d → Bool
  | .journalModeStore writeBack _ => !writeBack
  | .disableWritebackAsync => true
  | _ => false

/-- Write-back mode is left only with the counters at zero. -/
def LeavesIdle (c : R5conf d) (e : Event d) : Prop :=
  e.toWriteThrough = true → journalIdle c = true

instance (c : R5conf d) (e : Event d) : Decidable (LeavesIdle c e) :=
  inferInstanceAs (Decidable (_ → _))

/-- Every stripe on the list is counted as cached or has its parity in the log, and data drained
for the log is counted before it is there. -/
structure Tracked (c : R5conf d) : Prop where
  listed : ∀ n ∈ c.stripeInJournalList, (c.sh n).Paid ∨ (c.sh n).Counted
  drained : ∀ n, (c.sh n).caching = true → (c.sh n).logTrapped = true → (c.sh n).Counted

theorem Tracked.of_same (h : Tracked c) (hsh : c'.sh = c.sh)
    (hlist : c'.stripeInJournalList = c.stripeInJournalList) : Tracked c' := by
  refine ⟨fun n hn => ?_, fun n => ?_⟩
  · rw [hsh]
    exact h.listed n (hlist ▸ hn)
  · rw [hsh]
    exact h.drained n

/-- One stripe changes: it stays counted, or paid for, if it is on the list. -/
theorem Tracked.update (h : Tracked c) {st : StripeHead d} (hsh : c'.sh = update c.sh n st)
    (hlist : ∀ m, m ≠ n → m ∈ c'.stripeInJournalList → m ∈ c.stripeInJournalList)
    (hself : n ∈ c'.stripeInJournalList → st.Paid ∨ st.Counted)
    (hdrained : st.caching = true → st.logTrapped = true → st.Counted) : Tracked c' := by
  refine ⟨fun m hm => ?_, fun m => ?_⟩
  · rw [hsh]
    by_cases hmn : m = n
    · subst hmn
      rw [update_self]
      exact hself hm
    · rw [update_of_ne hmn]
      exact h.listed m (hlist m hmn hm)
  · rw [hsh]
    by_cases hmn : m = n
    · subst hmn
      rw [update_self]
      exact hdrained
    · rw [update_of_ne hmn]
      exact h.drained m

theorem Tracked.keeps (h : Tracked c) {st : StripeHead d} (hsh : c'.sh = Function.update c.sh n st)
    (hlist : c'.stripeInJournalList = c.stripeInJournalList) (hk : KeepsLog (c.sh n) st)
    (hpaid : n ∈ c.stripeInJournalList → (c.sh n).Paid → st.Paid) : Tracked c' := by
  refine h.update hsh (fun m _ hm => hlist ▸ hm) (fun hn => ?_) fun hc ht => ?_
  · exact (h.listed n (hlist ▸ hn)).imp (hpaid (hlist ▸ hn)) hk.counted
  · exact (hk.drained hc ht).elim id fun hold => hk.counted (h.drained n hold.1 hold.2)

theorem Tracked.stripeStep (h : Tracked c) (hs : StripeStep c c' n) : Tracked c' := by
  refine h.keeps (congrArg R5conf.sh hs.eq) ?_ hs.keeps hs.paid
  rw [hs.eq]
  rfl

theorem Tracked.takeBlocks (h : Tracked c) (log : R5lLog) (pages : Nat) :
    Tracked (takeBlocks c log pages) := by
  rw [takeBlocks_eq]
  exact h.of_same rfl rfl

theorem Tracked.logStep (h : Tracked c) (hl : Loggable c n) {parityPages : Nat}
    (hs : LogStep c n parityPages c') : Tracked c' := by
  cases hs with
  | logged _ _ _ _ _ hlist =>
    refine h.update rfl (fun m hm hmem => ?_) (fun _ => ?_) (h.drained n)
    · rcases hlist.cases with ⟨-, rfl, -⟩ | ⟨-, -, -, rfl⟩
      · exact hmem
      · exact (mem_append.mp hmem).resolve_right fun hn => hm (mem_singleton.mp hn)
    · cases hl.toLog with
      | data hw hc => exact .inr (h.drained n hc hw.trapped)
      | parity hf _ => exact .inl (.inr ⟨rfl, hf.caching⟩)
  | @noMemory log _ _ _ =>
    rw [takeBlocks_eq]
    exact h.keeps rfl rfl (.moved _ _ _ _) fun _ hp => .inl (hp.inJournal hl.place)

/-- **Every step keeps track of the stripes on the list**, in either mode. -/
theorem Tracked.change (h : Tracked c) (hinv : Inv c) {e : Event d} (hc : Change c e c') :
    Tracked c' := by
  cases hc with
  | stripe hs => exact h.stripeStep hs
  | returned clean hn hplace =>
    refine h.keeps rfl rfl (keepsLog_returnRequests _ clean _) fun _ hp => .inl ?_
    exact (returnRequests_inJournal _ clean).trans
      (hp.inJournal fun hl => (by cases hplace.symm.trans hl))
  | @cleaned n _ _ _ _ _ hs =>
    cases hs with
    | kept hs => exact h.stripeStep hs
    | @writtenOut st tight critical _ _ _ htrapped _ =>
      have hout : Tracked (c.writtenOut n st tight critical) := by
        refine h.update rfl (fun m _ hm => mem_of_mem_erase hm) (fun hn => ?_) fun _ ht => ?_
        · exact absurd rfl (hinv.nodup.mem_erase_iff.mp hn).1
        · cases htrapped.symm.trans ht
      unfold r5lAppendFlushPayload
      split_ifs
      · exact hout
      · exact hout.takeBlocks _ 0
  | io _ _ _ hs => exact hs.rule Tracked.stripeStep h fun _ hl ht => ht.logStep hl
  | log hs =>
    exact (hinv.runLog_rule Tracked.stripeStep hs fun _ _ _ => h.of_same rfl rfl).2
  | flush alloc _ => exact h.takeBlocks _ 0
  | mode | settings | pick | done | superStart | superDone => exact h.of_same rfl rfl

/-- A stripe at rest has no parity in the log. -/
theorem StripeOk.not_paid {wb : Bool} {inList : Prop} {logIo : Option Nat} {st : StripeHead d}
    (h : StripeOk wb inList logIo st) (hrest : st.place.active = false) : ¬ st.Paid := by
  have hne : ∀ {p : Place}, st.place = p → p.active = true → False := by
    rintro p rfl hactive
    cases hrest.symm.trans hactive
  rintro (hp | ⟨hl, -⟩)
  · cases h.phase with
    | quiet hq =>
      rcases (hq.stored hp).place with ⟨-, hl | ⟨s, hl⟩ | ⟨hl, -⟩⟩ | ⟨s, hl⟩ <;> exact hne hl rfl
    | cacheWrite hw => cases (congrArg Parity.inJournal hw.parity).symm.trans hp
    | computing hw => cases (congrArg Parity.inJournal hw.parity).symm.trans hp
    | flagged hf => cases (congrArg Parity.inJournal hf.parity).symm.trans hp
    | logged hl => rcases hl.place with hl | hl <;> exact hne hl rfl
    | storing hs => exact hne hs.place rfl
  · exact hne hl rfl

theorem countP_range_eq_zero {N : Nat} {p : Nat → Bool} (h : (range N).countP p = 0) (hn : n < N) :
    p n = false :=
  Bool.eq_false_iff.mpr (countP_eq_zero.mp h n (mem_range.mpr hn))

/-- With the counters at zero no stripe is on the list. -/
theorem Tracked.empty (h : Tracked c) (hinv : Inv c) (hidle : journalIdle c = true) :
    c.stripeInJournalList = [] := by
  rw [journalIdle, Bool.and_eq_true, Bool.and_eq_true, beq_iff_eq, beq_iff_eq, beq_iff_eq] at hidle
  obtain ⟨⟨hactive, hfull⟩, hpartial⟩ := hidle
  refine eq_nil_iff_forall_not_mem.mpr fun n hn => ?_
  have hlt := hinv.listed n hn
  rcases h.listed n hn with hpaid | hcounted
  · exact (hinv.stripe n hlt).not_paid (countP_range_eq_zero hactive hlt) hpaid
  · rcases hcounted with hc | hc
    · cases (countP_range_eq_zero hfull hlt).symm.trans hc
    · cases (countP_range_eq_zero hpartial hlt).symm.trans hc

theorem LeavesIdle.emptied {e : Event d} (hcond : LeavesIdle c e) (h : Tracked c) (hinv : Inv c) :
    Emptied c e := by
  unfold Emptied
  split
  · exact fun hwb => h.empty hinv (hcond (by rw [hwb]; rfl))
  · exact h.empty hinv (hcond rfl)
  · trivial

/-! ## Runs -/

/-- What holds along every run that leaves write-back mode only with the list empty. -/
theorem emptied_run {p : Setup} {es : List (Event d)} {c : R5conf d}
    (halong : Runs.Along step Emptied (loaded d p) es)
    (hrun : run step (loaded d p) es = some c) : Inv c ∧ Positions c ∧ Through c := by
  refine run_preserves (I := fun c => Inv c ∧ Positions c ∧ Through c) ?_
    ⟨inv_loaded p, positions_loaded p, through_loaded p⟩ halong hrun
  rintro c e c' ⟨hinv, hpos, hthrough⟩ hcond hs
  have hc := step_change hinv hs
  exact ⟨hinv.change hcond hc, hpos.change hinv hc, hthrough.change hinv hpos hcond hc⟩

end MdRaid.Journal.WriteBack
