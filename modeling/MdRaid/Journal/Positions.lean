import MdRaid.Journal.WriteBackStep

/-!
# Positions in the log

Every position the log keeps, the checkpoints, the tails and where the stripes start, is
the start of a unit, or the tail the log was loaded with. Units start one behind the
other, all behind the head.
-/

namespace MdRaid.Journal.WriteBack

open RingLog Function List R5conf Option Nat

variable {d : Nat} {c : R5conf d} {n : Nat}

/-- The checkpoints and tails. -/
def R5conf.kept (c : R5conf d) : List Pos :=
  c.lastCheckpoint :: c.nextCheckpoint :: c.journalTail :: c.durableTail ::
    (c.superWriting.toList ++ c.reclaim.checkpoint.toList)

/-- The log keeps position `p`, as a checkpoint or as the start of a stripe. -/
def R5conf.Holds (c : R5conf d) (p : Pos) : Prop :=
  p ∈ c.kept ∨ ∃ n, (c.sh n).logStart = some p

theorem Holds.last (c : R5conf d) : c.Holds c.lastCheckpoint := .inl (by simp [kept])

theorem Holds.next (c : R5conf d) : c.Holds c.nextCheckpoint := .inl (by simp [kept])

theorem Holds.tail (c : R5conf d) : c.Holds c.journalTail := .inl (by simp [kept])

variable {c' : R5conf d} {log : R5lLog} {p : Pos}

theorem Holds.stripe (h : (c.sh n).logStart = some p) : c.Holds p := .inr ⟨n, h⟩

/-- A unit not yet created has the tail the log was loaded with for its start. -/
structure Positions (c : R5conf d) : Prop where
  known : ∀ p, c.Holds p → ∃ u, p = c.start u
  fresh : ∀ u v, c.log.seq ≤ u → c.log.seq ≤ v → c.start u = c.start v
  origin : ∀ u v, c.log.seq ≤ u → (c.start u).abs ≤ (c.start v).abs
  mono : ∀ u v, u ≤ v → v < c.log.seq → (c.start u).abs ≤ (c.start v).abs
  head : ∀ u, (c.start u).abs < c.logStart.abs

theorem reserveLogEntry_abs (c : R5conf d) : ∀ blocks,
    (reserveLogEntry c blocks).abs = c.logStart.abs + blocks * blockSectors
  | 0 => by rw [reserveLogEntry, zero_mul, add_zero]
  | blocks + 1 => by
    rw [reserveLogEntry, Pos.advance, reserveLogEntry_abs c blocks, succ_mul, add_assoc]

theorem positions_loaded (p : Setup) : Positions (loaded d p) where
  known := fun q hq => ⟨0, by
    rcases hq with hq | ⟨_, hq⟩
    · simpa [kept, loaded, Reclaim.checkpoint] using hq
    · cases hq⟩
  fresh := fun _ _ _ _ => rfl
  origin := fun _ _ _ => le_rfl
  mono := fun _ _ _ _ => le_rfl
  head := fun _ => Nat.lt_add_of_pos_right (by decide)

section

variable (h : Positions c)

include h

/-- All positions are those of before, the starts of units, or new ones at units' starts. -/
theorem Positions.of_holds (hp : ∀ p, c'.Holds p → c.Holds p ∨ ∃ u, p = c.start u)
    (hseq : c'.log.seq = c.log.seq)
    (hstart : c'.start = c.start) (hhead : c'.logStart = c.logStart) : Positions c' where
  known := fun p hp' => by
    rw [hstart]
    exact (hp p hp').elim (h.known p) id
  fresh := by
    rw [hseq, hstart]
    exact h.fresh
  origin := by
    rw [hseq, hstart]
    exact h.origin
  mono := by
    rw [hseq, hstart]
    exact h.mono
  head := by
    rw [hhead, hstart]
    exact h.head

/-- The newest unit starts at or behind every position. -/
theorem Positions.le_newest {u : Nat} (hu : u + 1 = c.log.seq)
    (hp : c.Holds p) : p.abs ≤ (c.start u).abs := by
  obtain ⟨v, rfl⟩ := h.known p hp
  rcases lt_or_ge v c.log.seq with hv | hv
  · exact h.mono v u (by omega) (by omega)
  · exact h.origin v u hv

theorem Positions.lt_head (hp : c.Holds p) : p.abs < c.logStart.abs := by
  obtain ⟨u, rfl⟩ := h.known p hp
  exact h.head u

/-! ## The log takes blocks -/

/-- A unit's start does not change once the unit is there; a position of an uncreated unit
is one of a later one. -/
theorem Positions.grown_known {pages : Nat} {tight critical : Bool}
    (v : Nat) : ∃ u, c.start v = (c.grown log pages tight critical).start u := by
  by_cases hnew : c.log.seq < log.seq
  · have hstart : (c.grown log pages tight critical).start =
        update c.start c.log.seq c.logStart := if_pos hnew
    rw [hstart]
    by_cases hv : v = c.log.seq
    · refine ⟨c.log.seq + 1, ?_⟩
      rw [update_of_ne (succ_ne_self _), hv]
      exact h.fresh _ _ le_rfl (le_succ _)
    · exact ⟨v, (update_of_ne hv ..).symm⟩
  · have hstart : (c.grown log pages tight critical).start = c.start := if_neg hnew
    exact ⟨v, by rw [hstart]⟩

section

variable (hle : c.log.seq ≤ log.seq) (hsucc : log.seq ≤ c.log.seq + 1) (pages : Nat)
include hle hsucc pages

theorem Positions.grown (tight critical : Bool) : Positions (c.grown log pages tight critical) := by
  have hhead : (c.grown log pages tight critical).logStart.abs =
      c.logStart.abs + (log.seq - c.log.seq + pages) * blockSectors := reserveLogEntry_abs c _
  have hknown : ∀ p, (c.grown log pages tight critical).Holds p →
      ∃ u, p = (c.grown log pages tight critical).start u := by
    intro p hp
    obtain ⟨v, rfl⟩ := h.known p hp
    exact h.grown_known v
  rcases hle.eq_or_lt with heq | hlt
  · have hstart : (c.grown log pages tight critical).start = c.start := if_neg (by omega)
    have hseq : (c.grown log pages tight critical).log.seq = c.log.seq := heq.symm
    refine ⟨hknown, ?_, ?_, ?_, fun u => ?_⟩
    · rw [hstart, hseq]
      exact h.fresh
    · rw [hstart, hseq]
      exact h.origin
    · rw [hstart, hseq]
      exact h.mono
    · rw [hstart, hhead]
      exact Nat.lt_add_right _ (h.head u)
  · have hseq : (c.grown log pages tight critical).log.seq = c.log.seq + 1 :=
      le_antisymm hsucc hlt
    have hstart : (c.grown log pages tight critical).start =
        update c.start c.log.seq c.logStart := if_pos hlt
    have hold : ∀ {u}, u ≠ c.log.seq →
        (c.grown log pages tight critical).start u = c.start u := fun hu => by
      rw [hstart, update_of_ne hu]
    have hself : (c.grown log pages tight critical).start c.log.seq = c.logStart := by
      rw [hstart, update_self]
    refine ⟨hknown, fun u v hu hv => ?_, fun u v hu => ?_, fun u v huv hv => ?_, fun u => ?_⟩
    · rw [hseq] at hu hv
      rw [hold (by omega), hold (by omega)]
      exact h.fresh u v (by omega) (by omega)
    · rw [hseq] at hu
      rw [hold (by omega)]
      by_cases hv : v = c.log.seq
      · rw [hv, hself]
        exact (h.head u).le
      · rw [hold hv]
        exact h.origin u v (by omega)
    · rw [hseq] at hv
      by_cases hvs : v = c.log.seq
      · rw [hvs, hself]
        by_cases hus : u = c.log.seq
        · rw [hus, hself]
        · rw [hold hus]
          exact (h.head u).le
      · rw [hold hvs, hold (by omega)]
        exact h.mono u v huv (by omega)
    · have hpos : 0 < (log.seq - c.log.seq + pages) * blockSectors :=
        mul_pos (by omega) (by decide)
      rw [hhead]
      by_cases hus : u = c.log.seq
      · rw [hus, hself]
        exact Nat.lt_add_of_pos_right hpos
      · rw [hold hus]
        exact Nat.lt_add_right _ (h.head u)

theorem Positions.takeBlocks : Positions (takeBlocks c log pages) := by
  rw [takeBlocks_eq]
  exact h.grown hle hsucc pages _ _

end

/-! ## Steps -/

omit h in
theorem update_logStart {sh : Nat → StripeHead d} {st : StripeHead d}
    (hst : st.logStart = (sh n).logStart) (m : Nat) :
    (update sh n st m).logStart = (sh m).logStart := by
  by_cases hmn : m = n
  · subst hmn
    rw [update_self, hst]
  · rw [update_of_ne hmn]

/-- No position has changed. -/
theorem Positions.of_same (hkept : ∀ p ∈ c'.kept, p ∈ c.kept)
    (hsh : ∀ m, (c'.sh m).logStart = (c.sh m).logStart) (hseq : c'.log.seq = c.log.seq)
    (hstart : c'.start = c.start) (hhead : c'.logStart = c.logStart) : Positions c' :=
  h.of_holds (fun p hp => .inl (hp.imp (hkept p) fun ⟨m, hm⟩ => ⟨m, (hsh m).symm.trans hm⟩))
    hseq hstart hhead

theorem Positions.stripeStep (hs : StripeStep c c' n) : Positions c' := by
  rw [hs.eq]
  exact h.of_same (fun _ hp => hp) (update_logStart hs.keeps.logStart) rfl rfl rfl

omit h in
/-- `next_checkpoint` stays, or is the start of a unit that was on `finished_ios`. -/
theorem nextCheckpointAfter_cases (c : R5conf d) (log : R5lLog) :
    nextCheckpointAfter c log = c.nextCheckpoint ∨
      ∃ u ∈ c.log.finishedIos, nextCheckpointAfter c log = c.start u := by
  unfold nextCheckpointAfter
  split
  · exact .inl rfl
  · next u hlast =>
      exact .inr ⟨u, mem_of_mem_take (mem_of_getLast? hlast), rfl⟩

theorem Positions.next (hseq : log.seq = c.log.seq) :
    Positions { c with log := log, nextCheckpoint := nextCheckpointAfter c log } := by
  refine h.of_holds (fun p hp => ?_) hseq rfl rfl
  rcases hp with hp | hp
  · simp only [kept, mem_cons] at hp
    rcases hp with hp | hp | hp | hp
    · exact .inl (hp ▸ Holds.last c)
    · rcases nextCheckpointAfter_cases c log with heq | ⟨u, -, heq⟩
      · exact .inl (hp ▸ heq ▸ Holds.next c)
      · exact .inr ⟨u, hp.trans heq⟩
    · exact .inl (hp ▸ Holds.tail c)
    · exact .inl (.inl (by simpa [kept] using Or.inr (Or.inr (Or.inr hp))))
  · exact .inl (.inr hp)

theorem Positions.handleReturn (n : Nat) (s : HeadState) (clean : Bool) :
    Positions (handleReturn c n s clean) := by
  have hmod : Positions (c.modify n fun st =>
      { returnRequests st clean with place := .handling (.finishing s) }) :=
    h.of_same (fun _ hp => hp) (update_logStart (returnRequests_logStart
      (c.sh n) clean)) rfl rfl rfl
  exact hmod.next (progress_r5lStripeWriteFinished c.log n).seq

theorem Positions.writtenOut {st : StripeHead d} (hstart : st.logStart = none)
    (tight critical : Bool) : Positions (c.writtenOut n st tight critical) := by
  refine h.of_holds (fun p hp => .inl (hp.imp_right fun ⟨m, hm⟩ => ⟨m, ?_⟩)) rfl rfl rfl
  have hm' : (update c.sh n st m).logStart = some p := hm
  by_cases hmn : m = n
  · rw [hmn, update_self, hstart] at hm'
    cases hm'
  · rwa [update_of_ne hmn] at hm'

theorem Positions.r5lAppendFlushPayload (hinv : Inv c) (alloc : Bool) :
    Positions (r5lAppendFlushPayload c alloc) := by
  unfold WriteBack.r5lAppendFlushPayload
  split_ifs
  · exact h
  · have hg := grows_r5lAppendFlushPayload hinv.shape alloc
    exact h.takeBlocks hg.seq_le hg.seq_le_succ 0

theorem Positions.logStep {parityPages : Nat} (hs : LogStep c n parityPages c') : Positions c' := by
  cases hs with
  | @logged log u hlogs _ tight critical start logStart list hstart hlist =>
    have hgrown := h.grown hlogs.seq_le hlogs.seq_le_succ ((c.sh n).dataPages + parityPages) tight
      critical
    refine hgrown.of_holds (fun p hp => ?_) rfl rfl rfl
    rcases hp with hp | ⟨m, hm⟩
    · exact .inl (.inl hp)
    · have hm' : (update c.sh n ((c.sh n).loggedIn u logStart) m).logStart = some p := hm
      by_cases hmn : m = n
      · subst hmn
        rw [update_self] at hm'
        rcases hlist.cases with ⟨hkeep, -⟩ | ⟨-, -, hnew, -⟩
        · exact .inl (Holds.stripe (hkeep.symm.trans hm'))
        · exact .inr ⟨u, by rw [← hstart]; exact (some.inj (hnew.symm.trans hm')).symm⟩
      · rw [update_of_ne hmn] at hm'
        exact .inl (Holds.stripe hm')
  | @noMemory log hg _ _ =>
    exact (h.takeBlocks hg.seq_le hg.seq_le_succ 0).of_same (fun _ hp => hp)
      (update_logStart (by rfl)) rfl rfl rfl

theorem Positions.ioStep (hs : IoStep c n c') : Positions c' :=
  hs.rule Positions.stripeStep h fun _ _ hpos => hpos.logStep

theorem Positions.runLog (hinv : Inv c) {e : LogEvent}
    (hs : Journal.step c.log e.toEvent = some log) : Positions (runLog c log) :=
  (hinv.runLog_rule Positions.stripeStep hs fun _ _ hp => h.next hp.seq).2

end

theorem Holds.newCp (c : R5conf d) : c.Holds (r5cCalculateNewCp c) := by
  unfold r5cCalculateNewCp
  split_ifs
  · exact Holds.next c
  · split
    · exact Holds.next c
    · next m _ =>
        cases hstart : (c.sh m).logStart with
        | none => exact Holds.next c
        | some p => exact Holds.stripe hstart

theorem kept_pick {cp p : Pos}
    (hp : p ∈ ({ r5lWriteSuper c cp with reclaim := .writing cp } : R5conf d).kept) :
    p = cp ∨ p ∈ c.kept := by
  simp only [kept, r5lWriteSuper, Reclaim.checkpoint, mem_cons, mem_append,
    mem_toList, some.injEq] at hp ⊢
  tauto

theorem kept_done {cp p : Pos} (hr : c.reclaim.checkpoint = some cp) {tight critical : Bool}
    (hp : p ∈ ({ c with
      lastCheckpoint := cp, logTight := tight, logCritical := critical,
      reclaim := .idle } : R5conf d).kept) : p ∈ c.kept := by
  simp only [kept, Reclaim.checkpoint, mem_cons, mem_append, mem_toList,
    reduceCtorEq, or_false] at hp
  simp only [kept, hr, mem_cons, mem_append, mem_toList, some.injEq]
  tauto

theorem kept_superStart
    (hp : p ∈ ({ c with superWriting := some c.journalTail } : R5conf d).kept) : p ∈ c.kept := by
  simp only [kept, mem_cons, mem_append, mem_toList,
    some.injEq] at hp ⊢
  tauto

theorem kept_superDone {tail p : Pos} (htail : c.superWriting = some tail)
    (hp : p ∈ ({ c with superWriting := none, durableTail := tail } : R5conf d).kept) :
    p ∈ c.kept := by
  simp only [kept, htail, mem_cons, mem_append, mem_toList,
    some.injEq] at hp ⊢
  tauto

/-- **Every step keeps the positions.** -/
theorem Positions.change (h : Positions c) (hinv : Inv c) {e : Event d}
    (hc : Change c e c') : Positions c' := by
  cases hc with
  | stripe hs => exact h.stripeStep hs
  | returned clean _ _ => exact h.handleReturn _ _ clean
  | cleaned _ _ hwait hs =>
    cases hs with
    | kept hs => exact h.stripeStep hs
    | writtenOut tight critical _ _ hstart _ hok =>
      exact (h.writtenOut hstart tight critical).r5lAppendFlushPayload
        (hinv.writtenOut hwait hstart hok tight critical) _
  | io _ _ _ hs => exact h.ioStep hs
  | log hs => exact h.runLog hinv hs
  | flush alloc _ =>
    have hg := grows_r5lHandleFlushRequest hinv.shape alloc
    exact h.takeBlocks hg.seq_le hg.seq_le_succ 0
  | settings target suspended quiesce hr =>
    refine h.of_same (fun p hp => ?_) (fun _ => rfl) rfl rfl rfl
    simpa only [kept, hr] using hp
  | pick hr _ =>
    refine h.of_holds (fun p hp => .inl ?_) rfl rfl rfl
    rcases hp with hp | hp
    · exact (kept_pick hp).elim (fun heq => heq ▸ Holds.newCp c) .inl
    · exact .inr hp
  | done hr tight critical =>
    exact h.of_same (fun _ hp => kept_done hr hp) (fun _ => rfl) rfl rfl rfl
  | superStart _ => exact h.of_same (fun _ hp => kept_superStart hp) (fun _ => rfl) rfl rfl rfl
  | superDone htail =>
    exact h.of_same (fun _ hp => kept_superDone htail hp) (fun _ => rfl) rfl rfl rfl
  | mode => exact h.of_same (fun _ hp => hp) (fun _ => rfl) rfl rfl rfl

end MdRaid.Journal.WriteBack
