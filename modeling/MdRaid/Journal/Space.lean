import MdRaid.Journal.Positions

/-!
# Space in the log

The log is a ring: what is from the tail on must not be written over. Stripes reserve
their space before they are logged; the meta blocks of flush requests and of flush
payloads are taken without a look at the free space, and reclaim counts space as free
before the superblock with the new tail is on the disks. Under conditions that rule this
out the head stays less than a lap ahead of both tails.
-/

namespace MdRaid.Journal.WriteBack

open RingLog Function List R5conf Nat Option

variable {d : Nat} {c : R5conf d} {n : Nat}

/-! ## What the space depends on -/

structure LogView where
  deviceSize : Nat
  start : Nat → Pos
  logStart : Pos
  lastCheckpoint : Pos
  journalTail : Pos
  superWriting : Option Pos
  durableTail : Pos
  checkpoint : Option Pos
  list : List Nat
  stripeStart : Nat → Option Pos

def R5conf.logView (c : R5conf d) : LogView where
  deviceSize := c.deviceSize
  start := c.start
  logStart := c.logStart
  lastCheckpoint := c.lastCheckpoint
  journalTail := c.journalTail
  superWriting := c.superWriting
  durableTail := c.durableTail
  checkpoint := c.reclaim.checkpoint
  list := c.stripeInJournalList
  stripeStart := fun n => (c.sh n).logStart

/-- The head is less than a lap ahead of the last checkpoint, and the stripes on the list start
in its order, none before the tail. -/
structure Lap (v : LogView) : Prop where
  size : blockSectors < v.deviceSize
  onStart : ∀ u, (v.start u).On v.deviceSize
  onHead : v.logStart.On v.deviceSize
  lap : v.logStart.abs < v.lastCheckpoint.abs + v.deviceSize
  idle : v.checkpoint = none → v.journalTail = v.lastCheckpoint
  writing : ∀ p, v.checkpoint = some p → v.journalTail = p ∧ v.lastCheckpoint.abs ≤ p.abs
  listed : ∀ n ∈ v.list, ∀ p, v.stripeStart n = some p → v.journalTail.abs ≤ p.abs
  sorted : v.list.Pairwise fun m n => ∀ p q, v.stripeStart m = some p → v.stripeStart n = some q →
    p.abs ≤ q.abs

/-- The head is less than a lap ahead of the tail on the disks as well, and the tails follow each
other. -/
structure Space (v : LogView) : Prop extends Lap v where
  durableLap : v.logStart.abs < v.durableTail.abs + v.deviceSize
  durable : v.durableTail.abs ≤ v.journalTail.abs
  super : ∀ p, v.superWriting = some p →
    v.durableTail.abs ≤ p.abs ∧ p.abs ≤ v.journalTail.abs

variable {c' : R5conf d} {e : Event d} {log : R5lLog}

theorem StripeStep.logView (hs : StripeStep c c' n) : c'.logView = c.logView := by
  have hstart : (fun m => (c'.sh m).logStart) = fun m => (c.sh m).logStart := by
    rw [hs.eq]
    exact funext (update_logStart hs.keeps.logStart)
  rw [R5conf.logView, hstart, hs.eq]
  rfl

/-- The log has room for more than a block, and its tail is on the device. -/
structure Setup.Valid (p : Setup) : Prop where
  size : blockSectors < p.deviceSize
  tail : p.tail < p.deviceSize

theorem lap_loaded {p : Setup} (hp : p.Valid) : Lap (loaded d p).logView where
  size := hp.size
  onStart := fun _ => (mod_eq_of_lt hp.tail).symm
  onHead := by
    have htail : (⟨p.tail, p.tail⟩ : Pos).On p.deviceSize := (mod_eq_of_lt hp.tail).symm
    exact htail.advance (zero_lt_of_lt hp.tail) hp.size.le
  lap := Nat.add_lt_add_left hp.size p.tail
  idle := fun _ => rfl
  writing := fun _ hs => (by cases hs)
  listed := fun _ hn => absurd hn not_mem_nil
  sorted := List.Pairwise.nil

theorem space_loaded {p : Setup} (hp : p.Valid) : Space (loaded d p).logView where
  toLap := lap_loaded hp
  durableLap := Nat.add_lt_add_left hp.size p.tail
  durable := le_rfl
  super := fun _ hs => (by cases hs)

/-! ## The log takes blocks -/

theorem reserveLogEntry_eq_steps (c : R5conf d) : ∀ blocks,
    reserveLogEntry c blocks = c.logStart.steps c.deviceSize blockSectors blocks
  | 0 => rfl
  | blocks + 1 => by rw [reserveLogEntry, reserveLogEntry_eq_steps c blocks, Pos.steps]

section

variable (h : Lap c.logView)
include h

/-- What `r5l_has_free_space` says about the head. -/
theorem Lap.free_iff (hpos : Positions c) {space : Nat} :
    r5lHasFreeSpace c space ↔ c.logStart.abs + space < c.lastCheckpoint.abs + c.deviceSize := by
  obtain ⟨u, hu⟩ := hpos.known _ (Holds.last c)
  have hon : c.lastCheckpoint.On c.deviceSize := hu ▸ h.onStart u
  have hlt := hpos.lt_head (Holds.last c)
  have hlap : c.logStart.abs < c.lastCheckpoint.abs + c.deviceSize := h.lap
  have hhead : c.logStart.On c.deviceSize := h.onHead
  rw [r5lHasFreeSpace, decide_eq_true_eq, r5lRingDistance, distance_on hon hhead hlt.le hlap]
  omega

/-- Blocks that fit are taken. -/
theorem Lap.grown {pages : Nat}
    (hfit : c.logStart.abs + (log.seq - c.log.seq + pages) * blockSectors <
      c.lastCheckpoint.abs + c.deviceSize) (tight critical : Bool) :
    Lap (c.grown log pages tight critical).logView := by
  have hhead : (c.grown log pages tight critical).logView.logStart.abs =
      c.logStart.abs + (log.seq - c.log.seq + pages) * blockSectors := reserveLogEntry_abs c _
  have hsize : 0 < c.deviceSize := zero_lt_of_lt h.size
  refine ⟨h.size, fun u => ?_, ?_, hhead ▸ hfit, h.idle, h.writing, h.listed, h.sorted⟩
  · show Pos.On c.deviceSize ((if c.log.seq < log.seq then
      update c.start c.log.seq c.logStart else c.start) u)
    split_ifs
    · by_cases hu : u = c.log.seq
      · rw [hu, update_self]
        exact h.onHead
      · rw [update_of_ne hu]
        exact h.onStart u
    · exact h.onStart u
  · show Pos.On c.deviceSize (reserveLogEntry c _)
    rw [reserveLogEntry_eq_steps]
    exact Pos.On.steps h.onHead hsize h.size.le _

/-- A single meta block is taken. -/
theorem Lap.takeMeta (hpos : Positions c)
    (hsucc : log.seq ≤ c.log.seq + 1) (hfree : r5lHasFreeSpace c blockSectors) :
    Lap (takeBlocks c log 0).logView := by
  rw [takeBlocks_eq]
  refine h.grown ?_ _ _
  have hfit := (h.free_iff hpos).mp hfree
  have hle : (log.seq - c.log.seq + 0) * blockSectors ≤ 1 * blockSectors :=
    mul_le_mul_right _ (by omega)
  omega

theorem Lap.logStep (hpos : Positions c) {parityPages reserve : Nat}
    (hs : LogStep c n parityPages c') (hfree : r5lHasFreeSpace c reserve)
    (hreserve : (1 + ((c.sh n).dataPages + parityPages)) * blockSectors ≤ reserve) :
    Lap c'.logView := by
  have hfit := (h.free_iff hpos).mp hfree
  have hpos' := hpos.logStep hs
  cases hs with
  | @logged log u hlogs _ tight critical start logStart list hstart hlist =>
    have hgrown : Lap (c.grown log ((c.sh n).dataPages + parityPages) tight critical).logView := by
      refine h.grown ?_ tight critical
      have hle : (log.seq - c.log.seq + ((c.sh n).dataPages + parityPages)) * blockSectors ≤
          (1 + ((c.sh n).dataPages + parityPages)) * blockSectors :=
        mul_le_mul_right _ (by have := hlogs.seq_le_succ; omega)
      omega
    have hother : ∀ {m}, m ≠ n → (update c.sh n ((c.sh n).loggedIn u logStart) m).logStart =
        (c.sh m).logStart := fun hm => by rw [update_of_ne hm]
    have hself : (update c.sh n ((c.sh n).loggedIn u logStart) n).logStart = logStart := by
      rw [update_self]
      rfl
    refine { hgrown with listed := ?_, sorted := ?_ }
    · intro m hm p hp
      have hp' : (update c.sh n ((c.sh n).loggedIn u logStart) m).logStart = some p := hp
      rcases hlist.cases with ⟨hkeep, rfl, -⟩ | ⟨-, hnot, hnew, rfl⟩
      · refine h.listed m hm p (Eq.trans ?_ hp')
        by_cases hmn : m = n
        · rw [hmn, hself, hkeep]
          rfl
        · exact (hother hmn).symm
      · rcases mem_append.mp hm with hm | hm
        · have hmn : m ≠ n := fun heq => hnot (heq ▸ hm)
          exact h.listed m hm p ((hother hmn).symm.trans hp')
        · -- the newest unit starts behind every position the log keeps
          rw [mem_singleton.mp hm, hself, hnew] at hp'
          rw [← some.inj hp', hstart]
          exact hpos'.le_newest hlogs.newest (Holds.tail _)
    · rcases hlist.cases with ⟨hkeep, rfl, -⟩ | ⟨-, hnot, hnew, rfl⟩
      · have hsame : (fun m => (update c.sh n ((c.sh n).loggedIn u logStart) m).logStart) =
            fun m => (c.sh m).logStart := by
          funext m
          by_cases hmn : m = n
          · rw [hmn, hself, hkeep]
          · exact hother hmn
        show List.Pairwise (fun m m' => ∀ p q,
          (fun m => (update c.sh n ((c.sh n).loggedIn u logStart) m).logStart) m = some p →
          (fun m => (update c.sh n ((c.sh n).loggedIn u logStart) m).logStart) m' = some q →
          p.abs ≤ q.abs) c.stripeInJournalList
        rw [hsame]
        exact h.sorted
      · refine pairwise_append.mpr ⟨?_, pairwise_singleton _ _, fun m hm m' hm' p q hp hq => ?_⟩
        · refine h.sorted.imp_of_mem fun {a b} ha hb hab p q hp hq => hab p q ?_ ?_
          · exact (hother fun heq => hnot (heq ▸ ha)).symm.trans hp
          · exact (hother fun heq => hnot (heq ▸ hb)).symm.trans hq
        · have hq' : (update c.sh n ((c.sh n).loggedIn u logStart) m').logStart = some q := hq
          rw [mem_singleton.mp hm', hself, hnew] at hq'
          rw [← some.inj hq', hstart]
          exact hpos'.le_newest hlogs.newest (Holds.stripe hp)
  | @noMemory log hg hseq _ =>
    have hview : (r5lAddNoSpaceStripe (takeBlocks c log 0) n).logView =
        (takeBlocks c log 0).logView := by
      have hstarts : (fun m => ((r5lAddNoSpaceStripe (takeBlocks c log 0) n).sh m).logStart) =
          fun m => ((takeBlocks c log 0).sh m).logStart := funext (update_logStart (by rfl))
      rw [logView, hstarts]
      rfl
    rw [hview, takeBlocks_eq]
    refine h.grown ?_ _ _
    have hlap : c.logStart.abs < c.lastCheckpoint.abs + c.deviceSize := h.lap
    simpa [hseq] using hlap

end

/-! ## Steps -/

/-- Meta blocks for flush requests and flush payloads are taken only with a block free; with no
stripe on the list reclaim finds `next_checkpoint` not behind `last_checkpoint`. -/
def Fits (c : R5conf d) : Event d → Prop
  | .flushRequest _ => c.log.writeBack = true → r5lHasFreeSpace c blockSectors = true
  | .handleFinish n _ _ => c.log.writeBack = true → (c.sh n).parity.inJournal = true →
    r5lHasFreeSpace c blockSectors = true
  | .reclaimPick => c.stripeInJournalList = [] → c.lastCheckpoint.abs ≤ c.nextCheckpoint.abs
  | _ => True

/-- The conditions: blocks are appended only while the last checkpoint is the tail on the disks,
meta blocks for flush requests and flush payloads only with a block free; with no stripe on the
list reclaim finds `next_checkpoint` not behind `last_checkpoint`. -/
def Spacious (c : R5conf d) : Event d → Prop
  | .handleIo n _ _ _ => (c.sh n).HasToLog → c.lastCheckpoint.abs ≤ c.durableTail.abs
  | .flushRequest _ => c.log.writeBack = true →
    c.lastCheckpoint.abs ≤ c.durableTail.abs ∧ r5lHasFreeSpace c blockSectors = true
  | .handleFinish n _ _ => c.log.writeBack = true → (c.sh n).parity.inJournal = true →
    c.lastCheckpoint.abs ≤ c.durableTail.abs ∧ r5lHasFreeSpace c blockSectors = true
  | .reclaimPick => c.stripeInJournalList = [] → c.lastCheckpoint.abs ≤ c.nextCheckpoint.abs
  | e => Emptied c e

instance (c : R5conf d) (e : Event d) : Decidable (Spacious c e) := by
  induction e using Event.casesOn <;> (delta Spacious; dsimp only; infer_instance)

theorem Spacious.emptied (h : Spacious c e) : Emptied c e := by
  cases e with
  | journalModeStore | disableWritebackAsync => exact h
  | _ => trivial

theorem Spacious.fits (h : Spacious c e) : Fits c e := by
  cases e with
  | flushRequest => exact fun hwb => (h hwb).2
  | handleFinish => exact fun hwb hp => (h hwb hp).2
  | reclaimPick => exact h
  | _ => trivial

/-- The new checkpoint is not behind the last one, and no stripe on the list is before it. -/
theorem Lap.newCp (h : Lap c.logView) (hinv : Inv c) (hr : c.reclaim.checkpoint = none)
    (hcond : Fits c .reclaimPick) : c.lastCheckpoint.abs ≤ (r5cCalculateNewCp c).abs ∧
      ∀ n ∈ c.stripeInJournalList, ∀ p, (c.sh n).logStart = some p →
        (r5cCalculateNewCp c).abs ≤ p.abs := by
  have htail : c.journalTail = c.lastCheckpoint := h.idle hr
  cases hlist : c.stripeInJournalList with
  | nil =>
    have hcp : r5cCalculateNewCp c = c.nextCheckpoint := by
      simp only [r5cCalculateNewCp, hlist, head?_nil, ite_self]
    rw [hcp]
    exact ⟨hcond hlist, fun _ hn => absurd hn not_mem_nil⟩
  | cons m ms =>
    have hmem : m ∈ c.stripeInJournalList := hlist ▸ mem_cons_self
    have hwb : c.log.writeBack :=
      Bool.not_eq_false _ ▸ fun hwb => hinv.not_listed hwb hmem
    obtain ⟨q, hq⟩ := isSome_iff_exists.mp ((hinv.started m (hinv.listed m hmem)).mpr hmem)
    have hcp : r5cCalculateNewCp c = q := by
      simp only [r5cCalculateNewCp, r5cIsWriteback, hwb, hlist, head?_cons, hq, getD_some,
        Bool.not_true, Bool.false_eq_true, if_false]
    have hsorted : (m :: ms).Pairwise fun a b => ∀ p q, (c.sh a).logStart = some p →
        (c.sh b).logStart = some q → p.abs ≤ q.abs := hlist ▸ h.sorted
    rw [hcp]
    refine ⟨htail ▸ h.listed m hmem q hq, fun n hn p hp => ?_⟩
    rcases mem_cons.mp hn with rfl | hn
    · exact (congrArg Pos.abs (some.inj (hq.symm.trans hp))).le
    · exact (pairwise_cons.mp hsorted).1 n hn q p hq hp

theorem Lap.writtenOut (h : Lap c.logView) (hinv : Inv c) (st : StripeHead d)
    (tight critical : Bool) : Lap (c.writtenOut n st tight critical).logView := by
  have hself : n ∉ c.stripeInJournalList.erase n := fun hmem =>
    (hinv.nodup.mem_erase_iff.mp hmem).1 rfl
  have hother : ∀ {m}, m ∈ c.stripeInJournalList.erase n →
      (update c.sh n st m).logStart = (c.sh m).logStart := fun {m} hm => by
    have hmn : m ≠ n := fun heq => hself (heq ▸ hm)
    rw [update_of_ne hmn]
  refine { h with listed := fun m hm p hp => ?_, sorted := ?_ }
  · exact h.listed m (mem_of_mem_erase hm) p ((hother hm).symm.trans hp)
  · refine (h.sorted.sublist erase_sublist).imp_of_mem fun {a b} ha hb hab p q hp hq => ?_
    exact hab p q ((hother ha).symm.trans hp) ((hother hb).symm.trans hq)

theorem logView_handleReturn (c : R5conf d) (n : Nat) (s : HeadState) (clean : Bool) :
    (handleReturn c n s clean).logView = c.logView := by
  have hstarts : (fun m => ((handleReturn c n s clean).sh m).logStart) =
      fun m => (c.sh m).logStart :=
    funext (update_logStart (returnRequests_logStart (c.sh n) clean))
  rw [logView, hstarts]
  rfl

theorem logView_runLog (hinv : Inv c) {e : LogEvent}
    (hs : Journal.step c.log e.toEvent = some log) : (runLog c log).logView = c.logView :=
  (hinv.runLog_rule (P := fun c' => c'.logView = c.logView)
    (fun heq hs => hs.logView.trans heq) hs fun _ _ _ => rfl).2

theorem logView_settings {reclaim : Reclaim} (hr : reclaim.checkpoint = c.reclaim.checkpoint)
    (target : Nat) (suspended quiesce : Bool) : ({ c with
      reclaimTarget := target, reclaim := reclaim, suspended := suspended,
      quiesce := quiesce } : R5conf d).logView = c.logView := by
  rw [logView, hr]
  rfl

/-- **One step keeps the head within a lap of the last checkpoint**, under the conditions. -/
theorem Lap.change (h : Lap c.logView) (hinv : Inv c) (hpos : Positions c)
    (hcond : Fits c e) (hc : Change c e c') : Lap c'.logView := by
  cases hc with
  | stripe hs => exact hs.logView ▸ h
  | @returned n clean s hn hplace =>
    exact logView_handleReturn c n s clean ▸ h
  | @cleaned n _ alloc _ _ hwait hs =>
    cases hs with
    | kept hs => exact hs.logView ▸ h
    | @writtenOut st tight critical hwb hp hstart _ hok =>
      unfold r5lAppendFlushPayload
      split_ifs
      · exact h.writtenOut hinv st tight critical
      · have hout := hinv.writtenOut hwait hstart hok tight critical
        exact (h.writtenOut hinv st tight critical).takeMeta (hpos.writtenOut hstart tight critical)
          (grows_r5lAppendFlushPayload hout.shape alloc).seq_le_succ (hcond hwb hp)
  | io _ _ _ hs =>
    cases hs with
    | past hs => exact hs.logView ▸ h
    | @log mid writeDisks parityPages hhas hmid _ hpages hs =>
      have hmid' : Lap mid.logView := hmid.logView ▸ h
      cases hs with
      | wait hs => exact hs.logView ▸ hmid'
      | log hfree hs =>
        exact hmid'.logStep (hpos.stripeStep hmid) hs hfree
          (mul_le_mul_right _ (by omega))
  | log hs => exact logView_runLog hinv hs ▸ h
  | flush alloc hwb =>
    exact h.takeMeta hpos (grows_r5lHandleFlushRequest hinv.shape alloc).seq_le_succ (hcond hwb)
  | settings target suspended quiesce hr => exact logView_settings hr target suspended quiesce ▸ h
  | pick hr _ =>
    obtain ⟨hlast, hlist⟩ := h.newCp hinv hr hcond
    exact ⟨h.size, h.onStart, h.onHead, h.lap, by rintro ⟨⟩,
      fun p hp => ⟨some.inj hp, some.inj hp ▸ hlast⟩, hlist, h.sorted⟩
  | @done cp hr tight critical =>
    obtain ⟨htail, hlast⟩ := h.writing cp hr
    exact { h with
      lap := lt_of_lt_of_le h.lap (Nat.add_le_add_right hlast _)
      idle := fun _ => htail
      writing := fun _ hs => (by cases hs) }
  | superStart | superDone | mode =>
    exact ⟨h.size, h.onStart, h.onHead, h.lap, h.idle, h.writing, h.listed, h.sorted⟩

section

variable (h : Space c.logView)
include h

/-- The head moves while the last checkpoint is on the disks. -/
theorem Space.ahead (hlap : Lap c'.logView) (hlast : c'.lastCheckpoint = c.lastCheckpoint)
    (htail : c'.journalTail = c.journalTail) (hsuper : c'.superWriting = c.superWriting)
    (hdur : c'.durableTail = c.durableTail) (hdurable : c.lastCheckpoint.abs ≤ c.durableTail.abs) :
    Space c'.logView := by
  have hahead : c'.logStart.abs < c'.lastCheckpoint.abs + c'.deviceSize := hlap.lap
  refine ⟨hlap, ?_, ?_, fun p hp => ?_⟩
  · show c'.logStart.abs < c'.durableTail.abs + c'.deviceSize
    rw [hlast] at hahead
    rw [hdur]
    exact lt_of_lt_of_le hahead (Nat.add_le_add_right hdurable _)
  · show c'.durableTail.abs ≤ c'.journalTail.abs
    rw [hdur, htail]
    exact h.durable
  · show c'.durableTail.abs ≤ p.abs ∧ p.abs ≤ c'.journalTail.abs
    rw [hdur, htail]
    exact h.super p (hsuper.symm.trans hp)

theorem Space.takeMeta (hlap : Lap (takeBlocks c log 0).logView)
    (hdurable : c.lastCheckpoint.abs ≤ c.durableTail.abs) : Space (takeBlocks c log 0).logView := by
  rw [takeBlocks_eq] at hlap ⊢
  exact h.ahead hlap rfl rfl rfl rfl hdurable

theorem Space.logStep {parityPages : Nat} (hs : LogStep c n parityPages c') (hlap : Lap c'.logView)
    (hdurable : c.lastCheckpoint.abs ≤ c.durableTail.abs) : Space c'.logView := by
  cases hs with
  | logged => exact h.ahead hlap rfl rfl rfl rfl hdurable
  | @noMemory log =>
    rw [takeBlocks_eq] at hlap ⊢
    exact h.ahead hlap rfl rfl rfl rfl hdurable

/-- **One step keeps the space**, under the conditions. -/
theorem Space.change (hinv : Inv c) (hpos : Positions c)
    (hcond : Spacious c e) (hc : Change c e c') : Space c'.logView := by
  have hlap := h.toLap.change hinv hpos hcond.fits hc
  cases hc with
  | stripe hs => exact hs.logView ▸ h
  | returned clean _ _ => exact logView_handleReturn c _ _ clean ▸ h
  | @cleaned n _ _ _ _ _ hs =>
    cases hs with
    | kept hs => exact hs.logView ▸ h
    | @writtenOut st tight critical hwb hp _ _ _ =>
      have hout : Space (c.writtenOut n st tight critical).logView :=
        ⟨h.toLap.writtenOut hinv st tight critical, h.durableLap, h.durable, h.super⟩
      unfold r5lAppendFlushPayload at hlap ⊢
      split_ifs at hlap ⊢
      · exact hout
      · exact hout.takeMeta hlap (hcond hwb hp).1
  | io _ _ _ hs =>
    cases hs with
    | past hs => exact hs.logView ▸ h
    | log hhas hmid _ _ hs =>
      have hmid' : Space _ := hmid.logView ▸ h
      cases hs with
      | wait hs => exact hs.logView ▸ hmid'
      | log _ hs =>
        refine hmid'.logStep hs hlap ?_
        rw [hmid.eq]
        exact hcond hhas
  | log hs => exact logView_runLog hinv hs ▸ h
  | flush alloc hwb => exact h.takeMeta hlap (hcond hwb).1
  | settings target suspended quiesce hr => exact logView_settings hr target suspended quiesce ▸ h
  | pick hr _ =>
    have htail : c.journalTail = c.lastCheckpoint := h.idle hr
    have hle : c.journalTail.abs ≤ (r5cCalculateNewCp c).abs :=
      htail ▸ (h.toLap.newCp hinv hr hcond.fits).1
    exact ⟨hlap, h.durableLap, h.durable.trans hle,
      fun p hp => ⟨(h.super p hp).1, (h.super p hp).2.trans hle⟩⟩
  | done | mode => exact ⟨hlap, h.durableLap, h.durable, h.super⟩
  | superStart _ =>
    refine ⟨hlap, h.durableLap, h.durable, fun p hp => ?_⟩
    have htail : c.journalTail = p := some.inj hp
    exact htail ▸ ⟨h.durable, le_rfl⟩
  | @superDone tail hs =>
    obtain ⟨hge, hle⟩ := h.super tail hs
    exact ⟨hlap, lt_of_lt_of_le h.durableLap (Nat.add_le_add_right hge _), hle,
      fun _ hs => (by cases hs)⟩

end

theorem spacious_run {p : Setup} (hp : p.Valid) {es : List (Event d)}
    (halong : Runs.Along step Spacious (loaded d p) es)
    (hrun : Runs.run step (loaded d p) es = some c) : Inv c ∧ Positions c ∧ Space c.logView := by
  refine Runs.run_preserves (I := fun c => Inv c ∧ Positions c ∧ Space c.logView) ?_
    ⟨inv_loaded p, positions_loaded p, space_loaded hp⟩ halong hrun
  rintro c e c' ⟨hinv, hpos, hspace⟩ hcond hs
  have hc := step_change hinv hs
  exact ⟨hinv.change hcond.emptied hc, hpos.change hinv hc, hspace.change hinv hpos hcond hc⟩

/-! ## The blocks a step hands to the device -/

/-- The head moves over `blocks` blocks, with the tail on the disks where it was, or stays. -/
inductive Takes (c c' : R5conf d) : Prop where
  | blocks (blocks : Nat) (hsize : c'.deviceSize = c.deviceSize)
      (hhead : c'.logStart = reserveLogEntry c blocks) (hdurable : c'.durableTail = c.durableTail)
  | stays (hhead : c'.logStart = c.logStart)

theorem takes_takeBlocks (c : R5conf d) (log : R5lLog) (pages : Nat) :
    Takes c (takeBlocks c log pages) := by
  rw [takeBlocks_eq]
  exact .blocks (log.seq - c.log.seq + pages) rfl rfl rfl

theorem StripeStep.takes (hs : StripeStep c c' n) : Takes c c' :=
  .stays ((congrArg logStart hs.eq).trans rfl)

/-- The blocks are those of any state with the head and the tail in the same places. -/
theorem Takes.of_same {mid c' : R5conf d} (ht : Takes mid c')
    (hsize : mid.deviceSize = c.deviceSize)
    (hhead : mid.logStart = c.logStart) (hdurable : mid.durableTail = c.durableTail) :
    Takes c c' := by
  cases ht with
  | blocks blocks hsize' hhead' hdurable' =>
    exact .blocks blocks (hsize'.trans hsize) (hhead'.trans
      (reserveLogEntry_congr hsize hhead blocks))
      (hdurable'.trans hdurable)
  | stays hhead' => exact .stays (hhead'.trans hhead)

theorem LogStep.takes {parityPages : Nat} (hs : LogStep c n parityPages c') : Takes c c' := by
  cases hs with
  | @logged log =>
    exact .blocks (log.seq - c.log.seq + ((c.sh n).dataPages + parityPages)) rfl rfl rfl
  | @noMemory log =>
    rw [takeBlocks_eq]
    exact .blocks (log.seq - c.log.seq + 0) rfl rfl rfl

theorem Change.takes (hinv : Inv c) (hc : Change c e c') : Takes c c' := by
  cases hc with
  | stripe hs => exact hs.takes
  | cleaned _ _ _ hs =>
    cases hs with
    | kept hs => exact hs.takes
    | @writtenOut st tight critical _ _ _ _ _ =>
      unfold r5lAppendFlushPayload
      split_ifs
      · exact .stays rfl
      · exact (takes_takeBlocks (c.writtenOut _ st tight critical) _ 0).of_same rfl rfl rfl
  | io _ _ _ hs =>
    cases hs with
    | past hs => exact hs.takes
    | log _ hmid _ _ hs =>
      have hafter : ∀ {c'}, Takes _ c' → Takes c c' := fun ht =>
        ht.of_same ((congrArg deviceSize hmid.eq).trans rfl)
          ((congrArg logStart hmid.eq).trans rfl)
          ((congrArg durableTail hmid.eq).trans rfl)
      cases hs with
      | wait hs => exact hafter hs.takes
      | log _ hs => exact hafter hs.takes
  | log hs =>
    exact .stays (hinv.runLog_rule (P := fun c' => c'.logStart = c.logStart)
      (fun heq hs => (congrArg logStart hs.eq).trans heq) hs fun _ _ _ => rfl).2
  | flush alloc _ => exact takes_takeBlocks c _ 0
  | returned | settings | pick | done | superStart | superDone | mode => exact .stays rfl

/-- The block at `b` would be written over log between the tail on the disks and itself. -/
def R5conf.Overwrites (c : R5conf d) (b : Pos) : Prop :=
  ∃ a, c.durableTail.abs ≤ a ∧ a < b.abs ∧
    b.sector ≤ a % c.deviceSize ∧ a % c.deviceSize < b.sector + blockSectors

/-- The blocks a step hands to the log device, from the head before it to the head after it. -/
def Hands (c c' : R5conf d) (b : Pos) : Prop :=
  ∃ k, b = reserveLogEntry c k ∧ b.abs < c'.logStart.abs

theorem Takes.not_overwrites (ht : Takes c c') (h : Space c.logView)
    (h' : Space c'.logView) {b : Pos} (hb : Hands c c' b) : ¬ c.Overwrites b := by
  rintro ⟨a, hdurable, hlt, hge, hin⟩
  obtain ⟨k, rfl, hk⟩ := hb
  have hon : (reserveLogEntry c k).On c.deviceSize := by
    rw [reserveLogEntry_eq_steps]
    exact Pos.On.steps h.onHead (zero_lt_of_lt h.size) h.size.le k
  have habs := reserveLogEntry_abs c k
  cases ht with
  | stays hhead =>
    rw [hhead] at hk
    omega
  | blocks blocks hsize hhead hdur =>
    have hlap : c'.logStart.abs < c'.durableTail.abs + c'.deviceSize := h'.durableLap
    rw [hhead, reserveLogEntry_abs, hsize, hdur] at hlap
    rw [hhead, reserveLogEntry_abs, reserveLogEntry_abs] at hk
    -- blocks follow each other whole, so all of this one is before the new head
    have hwhole : (reserveLogEntry c k).abs + blockSectors ≤
        c.logStart.abs + blocks * blockSectors := by
      have hkb : k < blocks := Nat.lt_of_mul_lt_mul_right (Nat.lt_of_add_lt_add_left hk)
      have hmul := mul_le_mul_right blockSectors (succ_le_of_lt hkb)
      rw [succ_mul] at hmul
      omega
    obtain ⟨i, hi⟩ := Nat.exists_eq_add_of_le hge
    have hafter : a < (reserveLogEntry c k).abs + i := by omega
    have hnear : (reserveLogEntry c k).abs + i < a + c.deviceSize := by omega
    refine mod_ne_mod hafter hnear ?_
    rw [← mod_mod a, hi, hon, mod_add_mod]

/-- **The log does not overwrite itself, when the checkpoints are on the disks.** In every run
whose steps meet the conditions the head is behind the last checkpoint by less than a lap, and no
block goes to a place between the tail on the disks and the head. -/
theorem live_log_kept (p : Setup) (hp : p.Valid) (es : List (Event d)) (c : R5conf d)
    (halong : Runs.Along step Spacious (loaded d p) es)
    (hrun : Runs.run step (loaded d p) es = some c) : (c.lastCheckpoint.abs < c.logStart.abs ∧
      c.logStart.abs < c.lastCheckpoint.abs + c.deviceSize ∧
      c.logStart.sector ≠ c.lastCheckpoint.sector) ∧
    ∀ e c', Spacious c e → step c e = some c' → ∀ b, Hands c c' b → ¬ c.Overwrites b := by
  obtain ⟨hinv, hpos, hspace⟩ := spacious_run hp halong hrun
  have hlt := hpos.lt_head (Holds.last c)
  have hlap : c.logStart.abs < c.lastCheckpoint.abs + c.deviceSize := hspace.lap
  refine ⟨⟨hlt, hlap, fun heq => ?_⟩, fun e c' hcond hs b hb => ?_⟩
  · obtain ⟨u, hu⟩ := hpos.known _ (Holds.last c)
    have hlast : c.lastCheckpoint.On c.deviceSize := hu ▸ hspace.onStart u
    have hhead : c.logStart.On c.deviceSize := hspace.onHead
    exact mod_ne_mod hlt hlap (hlast.symm.trans (heq.symm.trans hhead))
  · have hc := step_change hinv hs
    exact (hc.takes hinv).not_overwrites hspace (hspace.change hinv hpos hcond hc) hb

theorem live_log_kept_flush : ∃ c c' : R5conf 2,
      step (loaded 2 ⟨64, 1, 0, 1, false, true, 48⟩) (.flushRequest true) = some c ∧
      step c (.flushRequest true) = some c' ∧ c'.logStart = ⟨8, 72⟩ ∧
      Hands c c' ⟨0, 64⟩ ∧ ¬ c.Overwrites ⟨0, 64⟩ := by
  refine ⟨_, _, rfl, rfl, rfl, ⟨0, rfl, by decide⟩, ?_⟩
  exact (live_log_kept ⟨64, 1, 0, 1, false, true, 48⟩ ⟨by decide, by decide⟩ [.flushRequest true] _
    (by decide) rfl).2 (.flushRequest true) _ (by decide) rfl _ ⟨0, rfl, by decide⟩

/-- With a ring of four blocks three flush requests bring the head to the last checkpoint, and
the fourth one's meta block goes over the tail. -/
theorem flushRequests_overwrite :
    ∃ c c' : R5conf 2, Runs.run step (loaded 2 ⟨32, 1, 0, 1, false, true, 0⟩)
        [.flushRequest true, .flushRequest true, .flushRequest true] = some c ∧
      c.logStart.sector = c.lastCheckpoint.sector ∧
      step c (.flushRequest true) = some c' ∧ Hands c c' c.logStart ∧ c.Overwrites c.logStart := by
  exact ⟨_, _, rfl, rfl, rfl, ⟨0, rfl, by decide⟩, 0, by decide, by decide, by decide, by decide⟩

end MdRaid.Journal.WriteBack
