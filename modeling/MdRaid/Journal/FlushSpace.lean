import MdRaid.Journal.Space

/-!
# Space to flush the journal

Writing a stripe out takes log itself: a meta block and the parity, and a meta block for the
flush payload that says the stripe is done. `r5c_log_required_to_flush_cache` estimates how much
that is for all stripes in the journal. When the log gets critical, only stripes that are not in
the journal are held back; one that is may log new data again and again, until nothing is left
for the stripe at the last checkpoint.

Here the space is counted stripe by stripe. If new data is logged only while there is room for it
and for writing out every stripe in the journal, writing out never lacks space.
-/

namespace MdRaid.Journal.WriteBack

open RingLog Function List R5conf

variable {d : Nat} {c c' : R5conf d} {n : Nat}

/-! ## What is left to pay -/

/-- The blocks that writing out the stripe still takes, without new data. -/
def StripeHead.flushBlocks (st : StripeHead d) (maxDegraded : Nat) : Nat :=
  if st.Paid then 1 else maxDegraded + 2

def flushBlocks (c : R5conf d) (list : List Nat) : Nat :=
  (list.map fun n => (c.sh n).flushBlocks c.maxDegraded).sum

/-- The space in the log for writing out every stripe in the journal. -/
def flushSpace (c : R5conf d) : Nat := flushBlocks c c.stripeInJournalList * blockSectors

theorem flushBlocks_pos (st : StripeHead d) (maxDegraded : Nat) :
    1 ≤ st.flushBlocks maxDegraded := by
  unfold StripeHead.flushBlocks
  split_ifs <;> omega

theorem flushBlocks_mono {st st' : StripeHead d} (h : st.Paid → st'.Paid) (maxDegraded : Nat) :
    st'.flushBlocks maxDegraded ≤ st.flushBlocks maxDegraded := by
  unfold StripeHead.flushBlocks
  by_cases hst : st.Paid
  · rw [if_pos hst, if_pos (h hst)]
  · rw [if_neg hst]
    split_ifs <;> omega

theorem flushSpace_le (hlist : c'.stripeInJournalList = c.stripeInJournalList)
    (hmax : c'.maxDegraded = c.maxDegraded)
    (hpaid : ∀ m ∈ c.stripeInJournalList, (c.sh m).Paid → (c'.sh m).Paid) :
    flushSpace c' ≤ flushSpace c := by
  unfold flushSpace flushBlocks
  rw [hlist, hmax]
  exact Nat.mul_le_mul_right _ (sum_le_sum fun m hm => flushBlocks_mono (hpaid m hm) _)

theorem flushBlocks_erase (hn : n ∈ c.stripeInJournalList) :
    (c.sh n).flushBlocks c.maxDegraded + flushBlocks c (c.stripeInJournalList.erase n) =
      flushBlocks c c.stripeInJournalList :=
  sum_map_erase (fun n => (c.sh n).flushBlocks c.maxDegraded) hn

theorem flushBlocks_erase_le (c : R5conf d) (n : Nat) :
    flushBlocks c (c.stripeInJournalList.erase n) ≤ flushBlocks c c.stripeInJournalList := by
  by_cases hn : n ∈ c.stripeInJournalList
  · exact (Nat.le_add_left _ _).trans (flushBlocks_erase hn).le
  · rw [erase_of_not_mem hn]

/-- Stripes other than `n` are what they were. -/
theorem flushBlocks_congr {list : List Nat} (hn : n ∉ list) (hmax : c'.maxDegraded = c.maxDegraded)
    (hsh : ∀ m, m ≠ n → c'.sh m = c.sh m) : flushBlocks c' list = flushBlocks c list := by
  unfold flushBlocks
  rw [hmax]
  refine congrArg sum (map_congr_left fun m hm => ?_)
  rw [hsh m fun heq => hn (heq ▸ hm)]

/-- Stripe `n` has become `st`, and is on the list. -/
theorem flushBlocks_enlisted (hinv : Inv c) {st : StripeHead d}
    (hmax : c'.maxDegraded = c.maxDegraded)
    (hsh : c'.sh = update c.sh n st)
    (hlist : n ∈ c.stripeInJournalList ∧ c'.stripeInJournalList = c.stripeInJournalList ∨
      n ∉ c.stripeInJournalList ∧ c'.stripeInJournalList = c.stripeInJournalList ++ [n]) :
    flushBlocks c' c'.stripeInJournalList =
      st.flushBlocks c.maxDegraded + flushBlocks c (c.stripeInJournalList.erase n) := by
  have hself : (c'.sh n).flushBlocks c'.maxDegraded = st.flushBlocks c.maxDegraded := by
    rw [hsh, hmax, update_self]
  have hother : ∀ m, m ≠ n → c'.sh m = c.sh m := fun m hm => by rw [hsh, update_of_ne hm]
  rcases hlist with ⟨hn, hlist⟩ | ⟨hn, hlist⟩
  · have hmem : n ∈ c'.stripeInJournalList := hlist ▸ hn
    have hnot : n ∉ c.stripeInJournalList.erase n := fun hm =>
      (hinv.nodup.mem_erase_iff.mp hm).1 rfl
    rw [← flushBlocks_erase hmem, hself, hlist, flushBlocks_congr hnot hmax hother]
  · rw [hlist, erase_of_not_mem hn, ← flushBlocks_congr hn hmax hother, ← hself, add_comm]
    simp only [flushBlocks, map_append, sum_append, map_singleton, sum_singleton]

/-- A stripe just logged: its parity is in the log with it, or is still to come. -/
theorem flushBlocks_loggedIn (st : StripeHead d) (u : Nat) (logStart : Option Pos)
    (maxDegraded : Nat) :
    (st.loggedIn u logStart).flushBlocks maxDegraded ≤ if st.caching then maxDegraded +
    2 else 1 := by
  unfold StripeHead.flushBlocks
  by_cases hc : st.caching
  · rw [if_pos hc]
    split_ifs <;> omega
  · have hpaid : (st.loggedIn u logStart).Paid := .inr ⟨rfl, Bool.eq_false_iff.mpr hc⟩
    rw [if_pos hpaid, if_neg hc]

theorem Loggable.not_paid (hl : Loggable c n) : ¬ (c.sh n).Paid := by
  intro hpaid
  have hin := hpaid.inJournal hl.place
  cases hl.toLog with
  | data hw _ => cases (congrArg Parity.inJournal hw.parity).symm.trans hin
  | parity hf _ => cases (congrArg Parity.inJournal hf.parity).symm.trans hin

/-! ## Steps that log nothing -/

/-- The log has room for writing out every stripe in the journal. -/
def Funded (c : R5conf d) : Prop :=
  c.logStart.abs + flushSpace c < c.lastCheckpoint.abs + c.deviceSize

theorem Funded.of_le (h : Funded c) (hhead : c'.logStart = c.logStart)
    (hlast : c'.lastCheckpoint = c.lastCheckpoint) (hsize : c'.deviceSize = c.deviceSize)
    (hflush : flushSpace c' ≤ flushSpace c) : Funded c' := by
  unfold Funded at h ⊢
  rw [hhead, hlast, hsize]
  omega

theorem StripeStep.paid_of_mem (hs : StripeStep c c' n) {m : Nat} (hm : m ∈ c.stripeInJournalList)
    (hpaid : (c.sh m).Paid) : (c'.sh m).Paid := by
  by_cases hmn : m = n
  · subst hmn
    exact hs.paid hm hpaid
  · rw [hs.eq, withStripe_of_ne hmn]
    exact hpaid

theorem StripeStep.flushSpace_le (hs : StripeStep c c' n) : flushSpace c' ≤ flushSpace c := by
  refine WriteBack.flushSpace_le ?_ ?_ fun m hm => hs.paid_of_mem hm
  · rw [hs.eq]
    rfl
  · rw [hs.eq]
    rfl

theorem Funded.stripeStep (h : Funded c) (hs : StripeStep c c' n) : Funded c' := by
  refine h.of_le ?_ ?_ ?_ hs.flushSpace_le
  · rw [hs.eq]
    rfl
  · rw [hs.eq]
    rfl
  · rw [hs.eq]
    rfl

theorem Funded.handleReturn (h : Funded c) {s : HeadState}
    (hplace : (c.sh n).place = .handling (.returning s)) (clean : Bool) :
    Funded (handleReturn c n s clean) := by
  refine h.of_le rfl rfl rfl (flushSpace_le rfl rfl fun m _ hpaid => ?_)
  show (update c.sh n _ m).Paid
  by_cases hmn : m = n
  · subst hmn
    rw [update_self]
    refine .inl ((returnRequests_inJournal _ _).trans (hpaid.inJournal fun hp => ?_))
    cases hplace.symm.trans hp
  · rw [update_of_ne hmn]
    exact hpaid

theorem Funded.runLog (h : Funded c) (hinv : Inv c) {e : LogEvent} {log : R5lLog}
    (hs : Journal.step c.log e.toEvent = some log) : Funded (runLog c log) :=
  (hinv.runLog_rule Funded.stripeStep hs fun _ _ _ => h).2

/-! ## The log takes blocks -/

theorem Funded.of_head {blocks flush : Nat}
    (hhead : c'.logStart.abs ≤ c.logStart.abs + blocks * blockSectors)
    (hlast : c'.lastCheckpoint = c.lastCheckpoint) (hsize : c'.deviceSize = c.deviceSize)
    (hflush : flushBlocks c' c'.stripeInJournalList ≤ flush)
    (hfit : c.logStart.abs + (blocks + flush) * blockSectors < c.lastCheckpoint.abs +
    c.deviceSize) :
    Funded c' := by
  have hspace : flushSpace c' ≤ flush * blockSectors := Nat.mul_le_mul_right _ hflush
  rw [add_mul] at hfit
  rw [Funded, hlast, hsize]
  omega

/-- A meta block is taken that no stripe has paid for. -/
theorem Funded.takeMeta {log : R5lLog} (hsucc : log.seq ≤ c.log.seq + 1)
    (hroom : c.logStart.abs + (blockSectors + flushSpace c) < c.lastCheckpoint.abs + c.deviceSize) :
    Funded (takeBlocks c log 0) := by
  rw [takeBlocks_eq]
  have hhead : (reserveLogEntry c (log.seq - c.log.seq + 0)).abs ≤
      c.logStart.abs + 1 * blockSectors := by
    refine (reserveLogEntry_abs c _).trans_le (Nat.add_le_add_left ?_ _)
    exact Nat.mul_le_mul_right _ (by omega)
  refine .of_head hhead rfl rfl le_rfl ?_
  rwa [add_mul, one_mul]

/-- The stripe pays for the flush payload with what was kept back for it; a stripe that is not in
the journal needs room for it. -/
theorem Funded.writtenOut (h : Funded c) (hinv : Inv c) (st : StripeHead d) (tight critical : Bool)
    (hroom : n ∉ c.stripeInJournalList →
      c.logStart.abs + (blockSectors + flushSpace c) < c.lastCheckpoint.abs + c.deviceSize) :
    c.logStart.abs + (blockSectors + flushSpace (c.writtenOut n st tight critical)) <
      c.lastCheckpoint.abs + c.deviceSize := by
  have hflush : flushSpace (c.writtenOut n st tight critical) =
      flushBlocks c (c.stripeInJournalList.erase n) * blockSectors :=
    congrArg (· * blockSectors) (flushBlocks_congr
      (fun hmem => (hinv.nodup.mem_erase_iff.mp hmem).1 rfl) rfl fun _ hm => update_of_ne hm ..)
  rw [hflush]
  by_cases hn : n ∈ c.stripeInJournalList
  · have hpay : (1 + flushBlocks c (c.stripeInJournalList.erase n)) * blockSectors ≤
      flushSpace c := by
      refine Nat.mul_le_mul_right _ ?_
      rw [← flushBlocks_erase hn]
      exact Nat.add_le_add_right (flushBlocks_pos _ _) _
    have hfund : c.logStart.abs + flushSpace c < c.lastCheckpoint.abs + c.deviceSize := h
    rw [add_mul, one_mul] at hpay
    omega
  · rw [erase_of_not_mem hn]
    exact hroom hn

variable {preflush fua alloc : Bool} {parityPages : Nat} {e : Event d}

/-- Stripe `n` is logged, and pays for that and for what it takes from then on. -/
theorem Funded.logStep (h : Funded c) (hinv : Inv c) (hl : Loggable c n)
    (hs : LogStep c n parityPages c')
    (hroom : c.logStart.abs + (1 + ((c.sh n).dataPages + parityPages)) * blockSectors <
      c.lastCheckpoint.abs + c.deviceSize) (hback : c.log.writeBack → c.logStart.abs +
      (1 + ((c.sh n).dataPages + parityPages) + ((if (c.sh n).caching then
        c.maxDegraded + 2 else 1) +
        flushBlocks c (c.stripeInJournalList.erase n))) * blockSectors <
      c.lastCheckpoint.abs + c.deviceSize) : Funded c' := by
  cases hs with
  | @logged log u hlogs _ tight critical start logStart list hstart hlist =>
    have hhead : (c.grown log ((c.sh n).dataPages + parityPages) tight critical).logStart.abs ≤
        c.logStart.abs + (1 + ((c.sh n).dataPages + parityPages)) * blockSectors := by
      have hsucc := hlogs.seq_le_succ
      refine (reserveLogEntry_abs c _).trans_le (Nat.add_le_add_left ?_ _)
      exact Nat.mul_le_mul_right _ (by omega)
    by_cases hwb : c.log.writeBack
    · have hmem : n ∈ c.stripeInJournalList ∧ list = c.stripeInJournalList ∨
          n ∉ c.stripeInJournalList ∧ list = c.stripeInJournalList ++ [n] :=
        hlist.cases.imp (fun hkeep => ⟨hkeep.2.2 hwb, hkeep.2.1⟩) fun hnew => ⟨hnew.2.1, hnew.2.2.2⟩
      refine .of_head hhead rfl rfl ?_ (hback hwb)
      refine le_of_eq_of_le (flushBlocks_enlisted hinv rfl rfl hmem) (Nat.add_le_add_right ?_ _)
      exact flushBlocks_loggedIn (c.sh n) u logStart c.maxDegraded
    · -- in write-through mode no stripe is on the list
      have hempty : list = [] := by
        rcases hlist.cases with ⟨-, hkeep, -⟩ | ⟨hwb', -⟩
        · exact hkeep.trans (hinv.through (Bool.eq_false_iff.mpr hwb))
        · exact absurd hwb' hwb
      subst hempty
      exact .of_head hhead rfl rfl le_rfl hroom
  | @noMemory log _ hseq _ =>
    rw [takeBlocks_eq]
    refine h.of_le ?_ rfl rfl (flushSpace_le rfl rfl fun m _ hpaid => ?_)
    · show reserveLogEntry c (log.seq - c.log.seq + 0) = c.logStart
      rw [hseq, Nat.sub_self]
      rfl
    · show (update c.sh n _ m).Paid
      by_cases hmn : m = n
      · subst hmn
        exact absurd hpaid hl.not_paid
      · rw [update_of_ne hmn]
        exact hpaid

/-! ## The condition -/

/-- The I/O of stripe `n` logs it, unless space is lacking: it is not held back. -/
def R5conf.ToBeLogged (c : R5conf d) (n : Nat) : Prop :=
  (c.sh n).HasToLog ∧ c.log.logIo n = none ∧
    ((c.sh n).caching = false → (c.sh n).syncing = false) ∧
    ¬ (c.logCritical = true ∧ (c.sh n).logStart = none)

instance (c : R5conf d) (n : Nat) : Decidable (c.ToBeLogged n) := by
  unfold R5conf.ToBeLogged
  infer_instance

/-- New data, or a stripe new to the journal, is logged only while there is room for it, for
writing it out and for writing out all stripes in the journal; so is a meta block that belongs to
no stripe in the journal. With no stripe on the list reclaim finds `next_checkpoint` not behind
`last_checkpoint`, and write-back mode is left only with no stripe on it. -/
def Reserving (c : R5conf d) : Event d → Prop
  | .handleIo n _ _ _ => c.log.writeBack = true → c.ToBeLogged n →
    ((c.sh n).logStart = none ∨ 0 < (c.sh n).dataPages) →
    r5lHasFreeSpace c (((c.sh n).dataPages + c.maxDegraded + 3) * blockSectors +
      flushSpace c) = true
  | .flushRequest _ => c.log.writeBack = true →
    r5lHasFreeSpace c (blockSectors + flushSpace c) = true
  | .handleFinish n _ _ => c.log.writeBack = true → (c.sh n).parity.inJournal = true →
    (c.sh n).logStart = none → r5lHasFreeSpace c (blockSectors + flushSpace c) = true
  | .reclaimPick => c.stripeInJournalList = [] → c.lastCheckpoint.abs ≤ c.nextCheckpoint.abs
  | e => Emptied c e

instance (c : R5conf d) (e : Event d) : Decidable (Reserving c e) := by
  induction e using Event.casesOn <;> (delta Reserving; dsimp only; infer_instance)

theorem Reserving.emptied (h : Reserving c e) : Emptied c e := by
  cases e with
  | journalModeStore | disableWritebackAsync => exact h
  | _ => trivial

theorem Inv.mem_of_logStart (h : Inv c) (hn : n < c.nrStripes) (hstart : (c.sh n).logStart ≠ none) :
    n ∈ c.stripeInJournalList :=
  (h.started n hn).mp (Option.isSome_iff_ne_none.mpr hstart)

/-- The log has a block for the flush payload of a stripe in the journal. -/
theorem Funded.free_of_mem (h : Funded c) (hpos : Positions c) (hlap : Lap c.logView)
    (hn : n ∈ c.stripeInJournalList) : r5lHasFreeSpace c blockSectors := by
  have hpay : 1 * blockSectors ≤ flushSpace c := by
    refine Nat.mul_le_mul_right _ ?_
    rw [← flushBlocks_erase hn]
    exact (flushBlocks_pos _ _).trans (Nat.le_add_right _ _)
  have hfund : c.logStart.abs + flushSpace c < c.lastCheckpoint.abs + c.deviceSize := h
  refine (hlap.free_iff hpos).mpr ?_
  omega

theorem Reserving.fits (hinv : Inv c) (hpos : Positions c) (hlap : Lap c.logView) (hfund : Funded c)
    (h : Reserving c e) (hs : step c e = some c') : Fits c e := by
  have hblock : r5lHasFreeSpace c (blockSectors + flushSpace c) →
      r5lHasFreeSpace c blockSectors := by
    rw [hlap.free_iff hpos, hlap.free_iff hpos]
    omega
  cases e with
  | flushRequest => exact fun hwb => hblock (h hwb)
  | handleFinish n =>
    intro hwb hp
    simp only [WriteBack.step, at?_eq_some] at hs
    by_cases hstart : (c.sh n).logStart = none
    · exact hblock (h hwb hp hstart)
    · exact hfund.free_of_mem hpos hlap (hinv.mem_of_logStart hs.1 hstart)
  | reclaimPick => exact h
  | _ => trivial

/-! ## Logging a stripe -/

section

variable (hlog : Logging c n parityPages)
include hlog

theorem Logging.free : c.log.logIo n = none :=
  hlog.loggable.free

theorem Logging.flushBlocks_eq : (c.sh n).flushBlocks c.maxDegraded = c.maxDegraded + 2 := by
  refine if_neg fun hpaid => hlog.loggable.not_paid ?_
  rw [trapped, modify_self]
  exact hpaid

/-- The stripe's blocks, with the write-out still to come for a caching write. -/
theorem Logging.blocks_le :
    1 + ((c.sh n).dataPages + parityPages) + (if (c.sh n).caching then c.maxDegraded + 2 else 1) ≤
      (c.sh n).dataPages + c.maxDegraded + 3 := by
  rw [hlog.parityPages]
  split_ifs <;> omega

end

/-- What the condition leaves for a stripe to be logged: its blocks, what it takes from then on,
and what the others take. -/
theorem Logging.room (hlog : Logging c n parityPages)
    (hinv : Inv c) (hpos : Positions c) (hlap : Lap c.logView) (hfund : Funded c)
    (hwb : c.log.writeBack) (hopen : ¬ (c.logCritical ∧ (c.sh n).logStart = none))
    (hn : n < c.nrStripes) (hcond : Reserving c (.handleIo n preflush fua alloc)) :
    c.logStart.abs + (1 + ((c.sh n).dataPages + parityPages) +
      ((if (c.sh n).caching then c.maxDegraded + 2 else 1) +
        flushBlocks c (c.stripeInJournalList.erase n))) * blockSectors <
      c.lastCheckpoint.abs + c.deviceSize := by
  have hblocks := hlog.blocks_le
  by_cases hnew : (c.sh n).logStart = none ∨ 0 < (c.sh n).dataPages
  · have hfree := hcond hwb ⟨hlog.has, hlog.free, hlog.syncing, hopen⟩ hnew
    have hrest := flushBlocks_erase_le c n
    rw [hlap.free_iff hpos, flushSpace, ← add_mul] at hfree
    refine lt_of_le_of_lt (Nat.add_le_add_left (Nat.mul_le_mul_right _ ?_) _) hfree
    omega
  · -- nothing new: the stripe pays with what was kept back for it
    rw [not_or] at hnew
    have hoff : (c.sh n).caching = false :=
      Bool.eq_false_iff.mpr fun hc => hnew.2 (hlog.drained hc)
    have hpay := flushBlocks_erase (hinv.mem_of_logStart hn hnew.1)
    have hfund' : c.logStart.abs + flushSpace c < c.lastCheckpoint.abs + c.deviceSize := hfund
    rw [flushSpace, ← hpay, hlog.flushBlocks_eq] at hfund'
    refine lt_of_le_of_lt (Nat.add_le_add_left (Nat.mul_le_mul_right _ ?_) _) hfund'
    rw [hlog.parityPages, hoff]
    simp only [Bool.false_eq_true, if_false]
    omega

theorem Funded.handleIo (h : Funded c) (hinv : Inv c) (hpos : Positions c) (hlap : Lap c.logView)
    (hn : n < c.nrStripes) (hplace : (c.sh n).place = .handling .io)
    (hcond : Reserving c (.handleIo n preflush fua alloc))
    (hs : opsRunIo c n preflush fua alloc = some c') : Funded c' := by
  rcases opsRunIo_cases hinv hn hplace preflush fua alloc with ⟨c₁, heq, hstep⟩
    | ⟨parityPages, hlog, heq⟩
  · exact h.stripeStep (Option.some.inj (heq.symm.trans hs) ▸ hstep)
  · have hinv' := hinv.stripeStep hlog.step
    have hfund' := h.stripeStep hlog.step
    have hself : (c.trapped n).sh n = { c.sh n with logTrapped := true } := modify_self _
    have hwait := heq.symm.trans hs
    by_cases hheld : c.log.writeBack ∧ c.logCritical ∧ (c.sh n).logStart = none
    · obtain ⟨hwb, hcritical, hstart⟩ := hheld
      have hstart' : ((c.trapped n).sh n).logStart = none := by rw [hself]; exact hstart
      rw [logOrWait_critical (by exact hwb) (by exact hcritical) hstart'] at hwait
      cases hwait
      exact hfund'.stripeStep (stripeStep_wakeReclaim hinv' hlog.loggable 0)
    · cases logOrWait_cases hinv' hlog.loggable hwait with
      | wait hs => exact hfund'.stripeStep hs
      | log hfree hs =>
        refine hfund'.logStep hinv' hlog.loggable hs ?_ fun hwb => ?_
        · rw [hself]
          have hlap' : Lap (c.trapped n).logView := hlog.step.logView ▸ hlap
          exact (hlap'.free_iff (hpos.stripeStep hlog.step)).mp hfree
        · have hrest : flushBlocks (c.trapped n) (c.stripeInJournalList.erase n) =
              flushBlocks c (c.stripeInJournalList.erase n) :=
            flushBlocks_congr (fun hm => (hinv.nodup.mem_erase_iff.mp hm).1 rfl) rfl
              fun _ hm => update_of_ne hm ..
          rw [hself]
          refine Eq.trans_lt ?_ (hlog.room hinv hpos hlap h hwb
            (fun hc => hheld ⟨hwb, hc⟩) hn hcond)
          exact hrest ▸ rfl

/-! ## Runs -/

section

variable (h : Funded c) (hinv : Inv c) (hpos : Positions c) (hlap : Lap c.logView)
  (hcond : Reserving c e)
include h hinv hpos hlap hcond

theorem Funded.change (hio : ∀ n preflush fua alloc, e ≠ .handleIo n preflush fua alloc)
    (hc : Change c e c') : Funded c' := by
  cases hc with
  | stripe hs => exact h.stripeStep hs
  | returned clean _ hplace => exact h.handleReturn hplace clean
  | @cleaned n _ alloc _ hn hwait hs =>
    cases hs with
    | kept hs => exact h.stripeStep hs
    | @writtenOut st tight critical hwb hp hstart _ hok =>
      have hroom := h.writtenOut (n := n) hinv st tight critical fun hnot => by
        refine (hlap.free_iff hpos).mp (hcond hwb hp ?_)
        by_contra hsome
        exact hnot (hinv.mem_of_logStart hn hsome)
      unfold r5lAppendFlushPayload
      split_ifs
      · show c.logStart.abs + flushSpace (c.writtenOut n st tight critical) <
          c.lastCheckpoint.abs + c.deviceSize
        omega
      · have hout := hinv.writtenOut hwait hstart hok tight critical
        exact .takeMeta (grows_r5lAppendFlushPayload hout.shape alloc).seq_le_succ hroom
  | io => exact absurd rfl (hio _ _ _ _)
  | log hs => exact h.runLog hinv hs
  | flush alloc hwb =>
    exact .takeMeta (grows_r5lHandleFlushRequest hinv.shape alloc).seq_le_succ
      ((hlap.free_iff hpos).mp (hcond hwb))
  | @done cp hr tight critical =>
    exact lt_of_lt_of_le h (Nat.add_le_add_right (hlap.writing cp hr).2 _)
  | settings | pick | superStart | superDone | mode => exact h

/-- **One step keeps the room for the flush**, under the condition. -/
theorem Funded.step (hs : step c e = some c') : Funded c' := by
  by_cases hio : ∃ n preflush fua alloc, e = .handleIo n preflush fua alloc
  · obtain ⟨n, preflush, fua, alloc, rfl⟩ := hio
    simp only [WriteBack.step, at?_eq_some] at hs
    obtain ⟨hn, hplace, heq⟩ := hs
    exact h.handleIo hinv hpos hlap hn (eq_of_beq hplace) hcond heq
  · refine h.change hinv hpos hlap hcond (fun n preflush fua alloc heq => hio ?_)
      (step_change hinv hs)
    exact ⟨n, preflush, fua, alloc, heq⟩

end

end MdRaid.Journal.WriteBack
