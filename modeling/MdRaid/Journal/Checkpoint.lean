import MdRaid.Journal.LeaveWriteBack
import MdRaid.Journal.Space

/-!
# Checkpoints

The tail that reclaim stores is where recovery starts to read. A stripe joins
`stripe_in_journal_list` when it is logged, before its unit has been written, so the
start of the first stripe on the list may be a place where the device still holds a block
of the lap before. When reclaim goes by the list only while no unit is being written, every
tail is the start of a completed unit of the current lap, and no data that only the log
holds is before it.
-/

namespace MdRaid.Journal.WriteBack

open RingLog R5conf Function List Runs

variable {d : Nat} {c : R5conf d} {n : Nat}

/-- The start of a unit whose write has completed, or the tail the log was loaded with (which
is the start of the units not yet created). -/
def R5conf.Written (c : R5conf d) (p : Pos) : Prop :=
  ∃ u, p = c.start u ∧ (c.log.seq ≤ u ∨ u ∈ c.log.completed)

/-- The checkpoints and tails have been written, and a stripe's data is in the log from the
stripe's start on. -/
structure Checked (c : R5conf d) : Prop where
  written : ∀ p ∈ c.kept, c.Written p
  behind : ∀ n p, (c.sh n).logStart = some p → ∀ i, ∀ u ∈ ((c.sh n).dev i).behind,
    p.abs ≤ (c.start u).abs

/-- One stripe changes and keeps what it has in the log. -/
theorem Checked.update (h : Checked c) {st : StripeHead d} (hst : KeepsLog (c.sh n) st) (m : Nat)
    (p : Pos) (hp : (update c.sh n st m).logStart = some p) (i : Fin d) :
    ∀ u ∈ ((update c.sh n st m).dev i).behind, p.abs ≤ (c.start u).abs := by
  intro u hu
  by_cases hmn : m = n
  · subst hmn
    rw [update_self] at hp hu
    exact h.behind m p (hst.logStart.symm.trans hp) i u (hst.behind i u hu)
  · rw [update_of_ne hmn] at hp hu
    exact h.behind m p hp i u hu

variable {log : R5lLog} {c' : R5conf d}

theorem Checked.stripeStep (h : Checked c) (hs : StripeStep c c' n) : Checked c' := by
  have hkeeps := hs.keeps
  rw [hs.eq]
  exact ⟨h.written, h.update hkeeps⟩

/-- Only what the log keeps changes, to positions that have been written. -/
theorem Checked.of_kept (h : Checked c) (hkept : ∀ p ∈ c'.kept, c.Written p)
    (hlog : c'.log = c.log) (hstart : c'.start = c.start) (hsh : c'.sh = c.sh) : Checked c' where
  written := fun p hp => by
    unfold R5conf.Written
    rw [hlog, hstart]
    exact hkept p hp
  behind := by
    rw [hsh, hstart]
    exact h.behind

/-- Units complete, and `next_checkpoint` goes to the start of one that is done with. -/
theorem Checked.next (h : Checked c) {N : Nat} (hshape : Shape N c.log)
    (hseq : log.seq = c.log.seq) (hcomp : ∀ u ∈ c.log.completed, u ∈ log.completed) :
    Checked { c with log := log, nextCheckpoint := nextCheckpointAfter c log } := by
  have hkeep : ∀ {p}, c.Written p →
      ({ c with
        log := log
        nextCheckpoint := nextCheckpointAfter c log } : R5conf d).Written p :=
    fun ⟨u, hp, hu⟩ => ⟨u, hp, hu.imp (fun hge => hseq.le.trans hge) (hcomp u)⟩
  refine ⟨fun p hp => hkeep ?_, h.behind⟩
  have hp' : p = nextCheckpointAfter c log ∨ p ∈ c.kept := by
    simp only [kept, mem_cons, mem_append] at hp ⊢
    tauto
  rcases hp' with rfl | hp'
  · rcases nextCheckpointAfter_cases c log with heq | ⟨u, hu, heq⟩
    · exact heq ▸ h.written _ (by simp [kept])
    · exact ⟨u, heq, .inr (hshape.done u (mem_append_left _ hu))⟩
  · exact h.written p hp'

/-! ## The log takes blocks -/

theorem grown_start_of_ne {pages u : Nat} {tight critical : Bool}
    (hu : u ≠ c.log.seq) : (c.grown log pages tight critical).start u = c.start u := by
  show (if c.log.seq < log.seq then update c.start c.log.seq c.logStart else c.start) u = _
  split_ifs
  · exact update_of_ne hu ..
  · rfl

/-- A start is only replaced by the head. -/
theorem Positions.le_grown (h : Positions c) (log : R5lLog) (pages : Nat) (tight critical : Bool)
    (u : Nat) : (c.start u).abs ≤ ((c.grown log pages tight critical).start u).abs := by
  by_cases hu : u = c.log.seq
  · subst hu
    show _ ≤ ((if c.log.seq < log.seq then update c.start c.log.seq c.logStart
      else c.start) c.log.seq).abs
    split_ifs
    · rw [update_self]
      exact (h.head c.log.seq).le
    · exact le_rfl
  · rw [grown_start_of_ne hu]

theorem Written.grown (hpos : Positions c) {N : Nat} (hshape : Shape N c.log)
    (hm : Moves c.log log) {pages : Nat} {tight critical : Bool} {p : Pos} (h : c.Written p) :
    (c.grown log pages tight critical).Written p := by
  obtain ⟨u, rfl, hu⟩ := h
  rcases hu with hu | hu
  · -- the start of any later unit is the same
    refine ⟨max u (c.log.seq + 1), ?_, .inl ?_⟩
    · rw [grown_start_of_ne (by omega)]
      exact hpos.fresh _ _ hu (by omega)
    · exact hm.seq_le_succ.trans (le_max_right _ _)
  · refine ⟨u, ?_, .inr (hm.completed ▸ hu)⟩
    rw [grown_start_of_ne (hshape.lt_seq_of_completed hu).ne]

section

variable (h : Checked c) (hpos : Positions c) {N : Nat} (hshape : Shape N c.log)
  (hm : Moves c.log log) (pages : Nat)
include h hpos hshape hm pages

theorem Checked.grown (tight critical : Bool) : Checked (c.grown log pages tight critical) where
  written := fun p hp => Written.grown hpos hshape hm (h.written p hp)
  behind := fun m p hp i u hu =>
    (h.behind m p hp i u hu).trans (hpos.le_grown log pages tight critical u)

theorem Checked.takeBlocks : Checked (takeBlocks c log pages) := by
  rw [takeBlocks_eq]
  exact h.grown hpos hshape hm pages _ _

end

theorem Checked.logStep (h : Checked c) (hinv : Inv c) (hpos : Positions c) (hn : n < c.nrStripes)
    {parityPages : Nat} (hs : LogStep c n parityPages c') : Checked c' := by
  have hpos' := hpos.logStep hs
  cases hs with
  | @logged log u hlogs _ tight critical start logStart list hstart hlist =>
    have hgrown := h.grown hpos hinv.shape hlogs.toMoves ((c.sh n).dataPages + parityPages) tight
      critical
    refine ⟨hgrown.written, fun m p hp i v hv => ?_⟩
    have hp' : (Function.update c.sh n ((c.sh n).loggedIn u logStart) m).logStart = some p := hp
    have hv' : v ∈ ((Function.update c.sh n ((c.sh n).loggedIn u logStart) m).dev i).behind := hv
    by_cases hmn : m = n
    · subst hmn
      rw [update_self] at hp' hv'
      rcases Dev.loggedIn_behind hv' with hold | ⟨-, rfl⟩
      · rcases hlist.cases with ⟨hkeep, -, -⟩ | ⟨hwb, hnot, -, -⟩
        · exact hgrown.behind m p (hkeep.symm.trans hp') i v hold
        · -- not on the list, the stripe has no data behind
          exact absurd ((hinv.stripe m hn).back hwb i (ne_nil_of_mem hold)) hnot
      · exact hpos'.le_newest hlogs.newest (Holds.stripe hp)
    · rw [update_of_ne hmn] at hp' hv'
      exact hgrown.behind m p hp' i v hv'
  | @noMemory log hg _ _ =>
    have htaken := h.takeBlocks hpos hinv.shape hg.toMoves 0
    exact ⟨htaken.written, htaken.update (.moved _ _ _ _)⟩

/-! ## Steps -/

/-- The conditions of `Spacious`, and reclaim goes by the list of stripes only while `running_ios`
is empty. -/
def NoneRunning (c : R5conf d) : Event d → Prop
  | .reclaimPick => Spacious c .reclaimPick ∧ (c.stripeInJournalList = [] ∨ c.log.runningIos = [])
  | e => Spacious c e

instance (c : R5conf d) (e : Event d) : Decidable (NoneRunning c e) := by
  induction e using Event.casesOn <;> (delta NoneRunning; dsimp only; infer_instance)

/-- With nothing running every position the log keeps has been written. -/
theorem Positions.written (h : Positions c) (hq : Queued c.log) (hrun : c.log.runningIos = [])
    {p : Pos} (hp : c.Holds p) : c.Written p := by
  obtain ⟨u, hu⟩ := h.known p hp
  refine ⟨u, hu, or_iff_not_imp_left.mpr fun hlt => ?_⟩
  by_contra hnot
  exact not_mem_nil (hrun ▸ hq.live u (not_le.mp hlt) hnot)

theorem Checked.newCp (h : Checked c) (hpos : Positions c) (hq : Queued c.log)
    (hcond : NoneRunning c .reclaimPick) : c.Written (r5cCalculateNewCp c) := by
  have hnext : c.Written c.nextCheckpoint := h.written _ (by simp [kept])
  unfold r5cCalculateNewCp
  split_ifs
  · exact hnext
  · split
    · exact hnext
    · next m hhead =>
        have hrun := hcond.2.resolve_left fun hnil => by
          rw [hnil] at hhead
          cases hhead
        cases hstart : (c.sh m).logStart with
        | none => exact hnext
        | some p => exact hpos.written hq hrun (Holds.stripe hstart)

theorem Checked.writtenOut (h : Checked c) {st : StripeHead d} (hstart : st.logStart = none)
    (tight critical : Bool) : Checked (c.writtenOut n st tight critical) := by
  refine ⟨h.written, fun m p hp i u hu => ?_⟩
  have hp' : (Function.update c.sh n st m).logStart = some p := hp
  have hu' : u ∈ ((Function.update c.sh n st m).dev i).behind := hu
  by_cases hmn : m = n
  · rw [hmn, update_self, hstart] at hp'
    cases hp'
  · rw [update_of_ne hmn] at hp' hu'
    exact h.behind m p hp' i u hu'

theorem Checked.handleReturn (h : Checked c) (hinv : Inv c) (s : HeadState) (clean : Bool) :
    Checked (handleReturn c n s clean) := by
  have hmod : Checked (c.modify n fun st =>
      { returnRequests st clean with place := .handling (.finishing s) }) :=
    ⟨h.written, h.update (keepsLog_returnRequests (c.sh n) clean _)⟩
  have hp := progress_r5lStripeWriteFinished c.log n
  exact hmod.next hinv.shape hp.seq hp.completed

theorem Checked.change (h : Checked c) (hinv : Inv c) (hpos : Positions c) (hq : Queued c.log)
    {e : Event d} (hcond : NoneRunning c e) (hc : Change c e c') : Checked c' := by
  cases hc with
  | stripe hs => exact h.stripeStep hs
  | returned clean _ _ => exact h.handleReturn hinv _ clean
  | @cleaned n _ alloc _ _ hwait hs =>
    cases hs with
    | kept hs => exact h.stripeStep hs
    | @writtenOut st tight critical _ _ hstart _ hok =>
      have hout := h.writtenOut (n := n) hstart tight critical
      unfold r5lAppendFlushPayload
      split_ifs
      · exact hout
      · have hshape := (hinv.writtenOut hwait hstart hok tight critical).shape
        exact hout.takeBlocks (hpos.writtenOut hstart tight critical) hshape
          (grows_r5lAppendFlushPayload hshape alloc).toMoves 0
  | io _ _ _ hs =>
    exact hs.rule Checked.stripeStep h fun hmid hl hc =>
      hc.logStep (hinv.stripeStep hmid) (hpos.stripeStep hmid) hl.lt
  | log hs =>
    exact (hinv.runLog_rule Checked.stripeStep hs fun _ _ hp =>
      h.next hinv.shape hp.seq hp.completed).2
  | flush alloc _ =>
    exact h.takeBlocks hpos hinv.shape (grows_r5lHandleFlushRequest hinv.shape alloc).toMoves 0
  | settings target suspended quiesce hr =>
    refine h.of_kept (fun p hp => h.written p ?_) rfl rfl rfl
    simpa only [kept, hr] using hp
  | pick _ _ =>
    refine h.of_kept (fun p hp => ?_) rfl rfl rfl
    exact (kept_pick hp).elim (fun heq => heq ▸ h.newCp hpos hq hcond) (h.written p)
  | done hr _ _ => exact h.of_kept (fun p hp => h.written p (kept_done hr hp)) rfl rfl rfl
  | superStart _ => exact h.of_kept (fun p hp => h.written p (kept_superStart hp)) rfl rfl rfl
  | superDone htail =>
    exact h.of_kept (fun p hp => h.written p (kept_superDone htail hp)) rfl rfl rfl
  | mode _ _ => exact ⟨h.written, h.behind⟩

section

variable (h : Space c.logView) (hinv : Inv c) (hpos : Positions c) (hchecked : Checked c)
  (hq : Queued c.log)
include h hinv hpos hchecked hq

end

end MdRaid.Journal.WriteBack
