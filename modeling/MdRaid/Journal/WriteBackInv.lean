import MdRaid.Journal.Phases

/-!
# The stripes and the log together

Every stripe is in a phase that fits its unit and its place on `stripe_in_journal_list`,
the stripes of a unit wait for it, and the list holds just the stripes with a position in
the log. The invariant holds along every run that leaves write-back mode only with
`stripe_in_journal_list` empty.

Most events change one stripe and nothing else; `StripeStep` says so once, and that the
stripe stays in a phase.
-/

namespace MdRaid.Journal.WriteBack

open RingLog Function List Parity R5conf StripeHead Option

variable {d : Nat}

structure Inv (c : R5conf d) : Prop where
  shape : Shape c.nrStripes c.log
  stripe : ∀ n < c.nrStripes,
    StripeOk c.log.writeBack (n ∈ c.stripeInJournalList) (c.log.logIo n) (c.sh n)
  started : ∀ n < c.nrStripes, (c.sh n).logStart.isSome = true ↔ n ∈ c.stripeInJournalList
  listed : ∀ n ∈ c.stripeInJournalList, n < c.nrStripes
  nodup : c.stripeInJournalList.Nodup
  through : c.log.writeBack = false → c.stripeInJournalList = []
  waiting : ∀ u, ∀ n ∈ (c.log.unit u).stripeList, (c.sh n).place = .logging
  noBug : c.bug = false

variable {c : R5conf d} {n : Nat}

theorem inv_loaded (p : Setup) : Inv (loaded d p) where
  shape := shape_start p.nrStripes p.writeBack p.needCacheFlush
  stripe := fun _ _ => idleStripe_ok
  started := fun _ _ => ⟨by rintro ⟨⟩, fun h => absurd h not_mem_nil⟩
  listed := fun _ h => absurd h not_mem_nil
  nodup := nodup_nil
  through := fun _ => rfl
  waiting := fun _ _ h => absurd h not_mem_nil
  noBug := rfl

theorem Inv.not_listed (h : Inv c) (hwb : c.log.writeBack = false) : n ∉ c.stripeInJournalList := by
  rw [h.through hwb]
  exact not_mem_nil

theorem Inv.writeBack_of_caching (h : Inv c) (hn : n < c.nrStripes) (hc : (c.sh n).caching) :
    c.log.writeBack := by
  rcases (h.stripe n hn).of_caching hc with hwb | hin
  · exact hwb
  · exact Bool.not_eq_false _ ▸ fun hwb => h.not_listed hwb hin

theorem Inv.not_waiting (h : Inv c) (hplace : (c.sh n).place ≠ .logging) (u : Nat) :
    n ∉ (c.log.unit u).stripeList :=
  fun hmem => hplace (h.waiting u n hmem)

/-! ## One stripe -/

def R5conf.withStripe (c : R5conf d) (n : Nat) (st : StripeHead d) (bug : Bool) (target : Nat) :
    R5conf d :=
  { c with sh := update c.sh n st, bug := bug, reclaimTarget := target }

/-- The stripe is in `r5c_cached_full_stripes` or `r5c_cached_partial_stripes`. -/
def StripeHead.Counted (st : StripeHead d) : Prop :=
  st.fullStripe = true ∨ st.partialStripe = true

/-- A change of a stripe that logs nothing and takes it out of no count of cached stripes. Data
drained for the log is counted. -/
structure KeepsLog (st st' : StripeHead d) : Prop where
  logStart : st'.logStart = st.logStart
  behind : ∀ i, ∀ u ∈ (st'.dev i).behind, u ∈ (st.dev i).behind
  counted : st.Counted → st'.Counted
  drained : st'.caching = true → st'.logTrapped = true →
    st'.Counted ∨ st.caching = true ∧ st.logTrapped = true

/-- The stripe moves on. -/
theorem KeepsLog.moved (st : StripeHead d) (handle : Bool) (reconstruct : ReconstructState)
    (place : Place) :
    KeepsLog st { st with handle := handle, reconstruct := reconstruct, place := place } :=
  ⟨rfl, fun _ _ hu => hu, id, fun hc ht => .inr ⟨hc, ht⟩⟩

theorem KeepsLog.refl (st : StripeHead d) : KeepsLog st st := .moved st _ _ _

/-- The parity is in the log: writing the stripe out takes no more of it than a flush payload. -/
def StripeHead.Paid (st : StripeHead d) : Prop :=
  st.parity.inJournal = true ∨ st.place = .logging ∧ st.caching = false

instance (st : StripeHead d) : Decidable st.Paid := by
  unfold StripeHead.Paid
  infer_instance

variable {f : StripeHead d → StripeHead d} {st : StripeHead d}

theorem StripeHead.Paid.inJournal (h : st.Paid) (hplace : st.place ≠ .logging) :
    st.parity.inJournal :=
  h.resolve_right fun hl => hplace hl.1

/-- Only stripe `n` changes, nothing is logged, and the stripe is in a phase again. -/
structure StripeStep (c c' : R5conf d) (n : Nat) : Prop where
  eq : c' = c.withStripe n (c'.sh n) c'.bug c'.reclaimTarget
  keeps : KeepsLog (c.sh n) (c'.sh n)
  paid : n ∈ c.stripeInJournalList → (c.sh n).Paid → (c'.sh n).Paid
  ok : StripeOk c.log.writeBack (n ∈ c.stripeInJournalList) (c.log.logIo n) (c'.sh n)
  waiting : ∀ u, n ∈ (c.log.unit u).stripeList → (c'.sh n).place = .logging
  noBug : c'.bug = false

theorem withStripe_self {bug : Bool} {target : Nat} : (c.withStripe n st bug target).sh n = st :=
  update_self ..

theorem withStripe_of_ne {bug : Bool} {target m : Nat} (hm : m ≠ n) :
    (c.withStripe n st bug target).sh m = c.sh m :=
  update_of_ne hm ..

theorem StripeStep.of_withStripe {bug : Bool} (target : Nat) (hlog : KeepsLog (c.sh n) st)
    (hpaid : n ∈ c.stripeInJournalList → (c.sh n).Paid → st.Paid)
    (hok : StripeOk c.log.writeBack (n ∈ c.stripeInJournalList) (c.log.logIo n) st)
    (hwait : ∀ u, n ∈ (c.log.unit u).stripeList → st.place = .logging) (hbug : bug = false) :
    StripeStep c (c.withStripe n st bug target) n := by
  refine ⟨?_, ?_, ?_, ?_, ?_, hbug⟩
  · rw [withStripe_self]
    rfl
  · rwa [withStripe_self]
  · rwa [withStripe_self]
  · rwa [withStripe_self]
  · rwa [withStripe_self]

theorem modify_self (f : StripeHead d → StripeHead d) : (c.modify n f).sh n = f (c.sh n) :=
  update_self ..

theorem modify_of_ne {m : Nat} (h : m ≠ n) (f : StripeHead d → StripeHead d) :
    (c.modify n f).sh m = c.sh m :=
  update_of_ne h ..

theorem modify_modify (f g : StripeHead d → StripeHead d) :
    (c.modify n f).modify n g = c.modify n fun st => g (f st) := by
  simp only [R5conf.modify, update_self, update_idem]

theorem modify_congr {f g : StripeHead d → StripeHead d} (h : f (c.sh n) = g (c.sh n)) :
    c.modify n f = c.modify n g := by
  simp only [R5conf.modify, h]

theorem modify_eq_self (h : f (c.sh n) = c.sh n) : c.modify n f = c := by
  simp only [R5conf.modify, h, update_eq_self]

theorem Inv.stripeStep (h : Inv c) {c' : R5conf d} (hs : StripeStep c c' n) : Inv c' := by
  obtain ⟨heq, hlog, -, hok, hwait, hbug⟩ := hs
  generalize hst : c'.sh n = st at heq hlog hok hwait
  generalize c'.bug = bug at heq hbug
  generalize c'.reclaimTarget = target at heq
  clear hst
  subst heq
  have hsplit : ∀ {P : Nat → StripeHead d → Prop} {m : Nat}, (m = n → P m st) → P m (c.sh m) →
      P m ((c.withStripe n st bug target).sh m) := by
    intro P m hself hother
    by_cases hm : m = n
    · subst hm
      rw [withStripe_self]
      exact hself rfl
    · rwa [withStripe_of_ne hm]
  refine ⟨h.shape, fun m hm => ?_, fun m hm => ?_, h.listed, h.nodup, h.through, fun u m hm => ?_,
    hbug⟩
  · refine hsplit (P := fun m s => StripeOk c.log.writeBack (m ∈ c.stripeInJournalList)
      (c.log.logIo m) s) (fun heq => ?_) (h.stripe m hm)
    subst heq
    exact hok
  · refine hsplit (P := fun m s => s.logStart.isSome ↔ m ∈ c.stripeInJournalList)
      (fun heq => ?_) (h.started m hm)
    subst heq
    rw [hlog.logStart]
    exact h.started m hm
  · refine hsplit (P := fun _ s => s.place = .logging) (fun heq => ?_) (h.waiting u m hm)
    subst heq
    exact hwait u hm

/-! ## The last reference -/

theorem r5cMakeStripeWriteOut_eq (hwb : c.log.writeBack) :
    r5cMakeStripeWriteOut c n = c.modify n fun st => { st with caching := false } := by
  simp only [r5cMakeStripeWriteOut, r5cIsWriteback, hwb, Bool.not_true, Bool.or_false]
  rfl

theorem doReleaseStripe_eq (hwb : (c.sh n).caching → c.log.writeBack) :
    ∃ st', Released c.log.writeBack (c.sh n) st' ∧
      doReleaseStripe c n = c.withStripe n st' c.bug c.reclaimTarget := by
  unfold doReleaseStripe
  by_cases hcond : ((c.sh n).syncRequested ||
      (c.quiesce && r5cIsWriteback c && !(c.sh n).handle &&
        decide ((if r5cIsWriteback c then (c.sh n).injournal else 0) ≠ 0)))
  · -- the stripe is sent on to be written out
    simp only [hcond, if_true]
    by_cases hcaching : (c.sh n).caching
    · refine ⟨(c.sh n).requeued false, .requeued false (by simp), ?_⟩
      simp only [hcaching, if_true, r5cMakeStripeWriteOut_eq (hwb hcaching), modify_modify]
      rfl
    · refine ⟨(c.sh n).requeued (c.sh n).caching, .requeued _ id, ?_⟩
      simp only [if_neg hcaching, if_true, modify_modify]
      rfl
  · simp only [hcond, Bool.false_eq_true, if_false]
    by_cases hhandle : (c.sh n).handle
    · refine ⟨(c.sh n).requeued (c.sh n).caching, .requeued _ id, ?_⟩
      rw [modify_congr (g := fun st => st.requeued st.caching)]
      · rfl
      · simp only [hhandle, if_true, requeued]
    · have hoff := Bool.eq_false_iff.mpr hhandle
      by_cases hrest : (!r5cIsWriteback c ||
          decide ((if r5cIsWriteback c then (c.sh n).injournal else 0) = 0))
      · refine ⟨{ c.sh n with place := .inactiveList }, .inactive hoff, ?_⟩
        rw [modify_congr (g := fun st => { st with place := .inactiveList })]
        · rfl
        · simp only [hoff, Bool.false_eq_true, if_false, hrest, if_true]
      · rw [Bool.or_eq_true, not_or, decide_eq_true_eq, Bool.not_eq_true',
          Bool.not_eq_false] at hrest
        obtain ⟨hback, hin⟩ := hrest
        rw [if_pos hback] at hin
        by_cases hall : (c.sh n).injournal = d
        · have hd : d ≠ 0 := hall ▸ hin
          refine ⟨_, .full hoff hback hin, ?_⟩
          rw [modify_congr (g := fun st => { st with
            fullStripe := true, partialStripe := false, place := .fullStripeList })]
          · rfl
          · simp [hoff, hback, hall, hd]
        · refine ⟨_, .notFull hoff hback hin, ?_⟩
          rw [modify_congr (g := fun st => { st with place := .partialStripeList })]
          · rfl
          · simp [hoff, hback, hin, hall]

/-- A reference is dropped after a change of the stripe. -/
theorem StripeStep.release (h : Inv c) (hn : n < c.nrStripes)
    (hlog : KeepsLog (c.sh n) (f (c.sh n))) (hpaid : (c.sh n).Paid → (f (c.sh n)).parity.inJournal)
    (hcaching : (f (c.sh n)).caching → (c.sh n).caching)
    (hwait : ∀ u, n ∉ (c.log.unit u).stripeList)
    (hok : ∀ st', Released c.log.writeBack (f (c.sh n)) st' →
      StripeOk c.log.writeBack (n ∈ c.stripeInJournalList) (c.log.logIo n) st') :
    StripeStep c (doReleaseStripe (c.modify n f) n) n := by
  obtain ⟨st', hrel, heq⟩ := doReleaseStripe_eq (c := c.modify n f) (n := n) (by
    rw [modify_self]
    exact fun hc => h.writeBack_of_caching hn (hcaching hc))
  rw [modify_self] at hrel
  have hsame : (c.modify n f).withStripe n st' c.bug c.reclaimTarget =
      c.withStripe n st' c.bug c.reclaimTarget := by
    simp only [R5conf.withStripe, R5conf.modify, update_idem]
  rw [heq]
  show StripeStep c ((c.modify n f).withStripe n st' c.bug c.reclaimTarget) n
  rw [hsame]
  refine .of_withStripe _ ?_ (fun _ hp => .inl ?_) (hok st' hrel) (fun u hu => absurd hu (hwait u))
    h.noBug
  · obtain ⟨hstart, hbehind, hcounted, hdrained⟩ := hlog
    cases hrel with
    | requeued caching hc => exact ⟨hstart, hbehind, hcounted, fun h ht => hdrained (hc h) ht⟩
    | inactive => exact ⟨hstart, hbehind, hcounted, hdrained⟩
    | full => exact ⟨hstart, hbehind, fun _ => .inl rfl, fun _ _ => .inl (.inl rfl)⟩
    | notFull => exact ⟨hstart, hbehind, hcounted, hdrained⟩
  · cases hrel <;> exact hpaid hp

/-! ## Stripe events -/

theorem StripeStep.modify (h : Inv c) (hlog : KeepsLog (c.sh n) (f (c.sh n)))
    (hpaid : n ∈ c.stripeInJournalList → (c.sh n).Paid → (f (c.sh n)).Paid)
    (hok : StripeOk c.log.writeBack (n ∈ c.stripeInJournalList) (c.log.logIo n) (f (c.sh n)))
    (hwait : (c.sh n).place = .logging → (f (c.sh n)).place = .logging) :
    StripeStep c (c.modify n f) n :=
  .of_withStripe c.reclaimTarget hlog hpaid hok (fun u hu => hwait (h.waiting u n hu)) h.noBug

theorem touch_eq (c : R5conf d) (n : Nat) :
    touch c n = c ∨ (c.sh n).place.Waiting ∧ (c.sh n).place ≠ .noSpace ∧
      touch c n = doReleaseStripe c n := by
  unfold touch
  cases hp : (c.sh n).place with
  | inactiveList => exact .inr ⟨trivial, by simp, rfl⟩
  | handleList => exact .inr ⟨trivial, by simp, rfl⟩
  | fullStripeList => exact .inr ⟨trivial, by simp, rfl⟩
  | partialStripeList => exact .inr ⟨trivial, by simp, rfl⟩
  | handling _ => exact .inl rfl
  | opsRunning => exact .inl rfl
  | logging => exact .inl rfl
  | noSpace => exact .inl rfl
  | memberWrites => exact .inl rfl

section

variable (h : Inv c) (hn : n < c.nrStripes)

include h hn

/-- Requests come in for the stripe. -/
theorem stripeStep_touch (towrite : Fin d → Nat) (overwrite : Fin d → Bool) (sync : Bool)
    (hf : f (c.sh n) = (c.sh n).withRequests towrite overwrite sync)
    (hmore : ∀ i, 0 < ((c.sh n).dev i).towrite → 0 < towrite i) :
    StripeStep c (touch (c.modify n f) n) n := by
  have hok := (h.stripe n hn).withRequests hmore overwrite sync
  rw [← hf] at hok
  have hplace : (f (c.sh n)).place = (c.sh n).place := by rw [hf]; rfl
  have hkeeps : KeepsLog (c.sh n) (f (c.sh n)) := by
    rw [hf]
    exact ⟨rfl, fun _ _ hu => hu, id, fun hc ht => .inr ⟨hc, ht⟩⟩
  rcases touch_eq (c.modify n f) n with htouch | ⟨hwaiting, -, htouch⟩
  · rw [htouch]
    refine .modify h hkeeps (fun _ hp => ?_) hok fun hp => hplace.trans hp
    rw [hf]
    exact hp
  · rw [modify_self] at hwaiting
    rw [htouch]
    have hlogging : (c.sh n).place ≠ .logging := fun hp => by
      rw [hplace, hp] at hwaiting
      exact hwaiting
    refine .release h hn hkeeps (fun hp => ?_) (by rw [hf]; exact id) (h.not_waiting hlogging)
      fun st' hrel => ?_
    · rw [hf]
      exact hp.inJournal hlogging
    · obtain ⟨caching, hc, rfl⟩ := hrel.of_handle (by rw [hf]; rfl)
      exact hok.requeue (hok.requeueable hwaiting) hc

theorem stripeStep_addStripeBio (i : Fin d) (covers : Bool) :
    StripeStep c (addStripeBio c n i covers) n := by
  refine stripeStep_touch h hn
    (update (fun j => ((c.sh n).dev j).towrite) i (((c.sh n).dev i).towrite + 1))
    (update (fun j => ((c.sh n).dev j).overwrite) i
      (((c.sh n).dev i).overwrite || covers)) (c.sh n).syncRequested ?_ fun j hj => ?_
  · simp only [withRequests]
    congr 1
    funext j
    by_cases hj : j = i
    · subst hj
      simp only [update_self]
    · simp only [update_of_ne hj]
  · by_cases hji : j = i
    · subst hji
      rw [update_self]
      exact Nat.succ_pos _
    · rwa [update_of_ne hji]

theorem stripeStep_requestSync : StripeStep c (requestSync c n) n :=
  stripeStep_touch h hn (fun i => ((c.sh n).dev i).towrite)
    (fun i => ((c.sh n).dev i).overwrite) true
    rfl fun _ hi => hi

theorem stripeStep_handleStart (hplace : (c.sh n).place = .handleList) (blocked : Bool) :
    StripeStep c (handleStart c n blocked) n :=
  have hlogging : (c.sh n).place ≠ .logging := by simp [hplace]
  .modify h ⟨rfl, fun _ _ hu => hu, id, fun hc ht => .inr ⟨hc, ht⟩⟩
    (fun _ hp => .inl (hp.inJournal hlogging)) ((h.stripe n hn).takenUp hplace blocked) fun hp =>
    absurd hp hlogging

theorem stripeStep_opsComplete (hplace : (c.sh n).place = .opsRunning) :
    StripeStep c (opsComplete c n) n := by
  have hlogging : (c.sh n).place ≠ .logging := by simp [hplace]
  refine .release h hn (f := fun st => { st with reconstruct := .drainResult, handle := true })
    (.moved _ _ _ _) (fun hp => hp.inJournal hlogging) id (h.not_waiting hlogging)
    fun st' hrel => ?_
  obtain ⟨caching, hc, rfl⟩ := hrel.of_handle rfl
  exact (h.stripe n hn).computed hplace hc

theorem stripeStep_endWrites (hplace : (c.sh n).place = .memberWrites) :
    StripeStep c (endWrites c n) n := by
  have hlogging : (c.sh n).place ≠ .logging := by simp [hplace]
  refine .release h hn (f := writesEnded)
    ⟨rfl, writesEnded_behind (c.sh n), id, fun hc ht => .inr ⟨hc, ht⟩⟩
    (fun hp => hp.inJournal hlogging) id (h.not_waiting hlogging) fun st' hrel => ?_
  obtain ⟨caching, hc, rfl⟩ := hrel.of_handle rfl
  exact (h.stripe n hn).writesEnded hplace hc

theorem stripeStep_runWaiting (hplace : (c.sh n).place = .noSpace) :
    StripeStep c (doReleaseStripe (c.modify n fun st => { st with handle := true }) n) n := by
  have hlogging : (c.sh n).place ≠ .logging := by simp [hplace]
  refine .release h hn (.moved _ _ _ _) (fun hp => hp.inJournal hlogging) id
    (h.not_waiting hlogging) fun st' hrel => ?_
  obtain ⟨caching, hc, rfl⟩ := hrel.of_handle rfl
  have hok := h.stripe n hn
  exact hok.requeue (hok.requeueable (by rw [hplace]; trivial)) hc

theorem stripeStep_r5cFlushStripe (hplace : (c.sh n).place = .fullStripeList ∨ (c.sh n).place =
    .partialStripeList) :
    StripeStep c (r5cFlushStripe c n) n := by
  have hok := h.stripe n hn
  have hwb : c.log.writeBack :=
    Bool.not_eq_false _ ▸ fun hwb => h.not_listed hwb (hok.cached hplace)
  have hwaiting : (c.sh n).place.Waiting := by rcases hplace with hp | hp <;> rw [hp] <;> trivial
  have hlogging : (c.sh n).place ≠ .logging := fun hp => by
    rw [hp] at hwaiting
    exact hwaiting
  rw [r5cFlushStripe, r5cMakeStripeWriteOut_eq (by exact hwb), modify_modify]
  refine .release h hn ⟨rfl, fun _ _ hu => hu, id, fun hc => (by cases hc)⟩
    (fun hp => hp.inJournal hlogging) (by simp) (h.not_waiting hlogging) fun st' hrel => ?_
  obtain ⟨caching, hc, rfl⟩ := hrel.of_handle rfl
  exact hok.requeue (hok.requeueable hwaiting) fun ht => (by cases hc ht)

end

/-! ## New writes -/

/-- `handle_stripe` has decided on the writes of the stripe. -/
structure Decided (c c' : R5conf d) (n : Nat) : Prop where
  stripe : ∃ f, c' = c.modify n f ∧ KeepsLog (c.sh n) (f (c.sh n)) ∧
    StripeOk c.log.writeBack (n ∈ c.stripeInJournalList) (c.log.logIo n)
      ((f (c.sh n)).toIo (f (c.sh n)).handle)

section Decided

variable {s : HeadState}

theorem decided_none (h : Inv c) (hn : n < c.nrStripes)
    (hplace : (c.sh n).place = .handling (.writing s)) : Decided c c n :=
  ⟨id, (modify_eq_self rfl).symm, .refl _, (h.stripe n hn).pass hplace _⟩

theorem decided_dirtying {f : StripeHead d → StripeHead d} (hfree : c.log.logIo n = none)
    (hlog : KeepsLog (c.sh n) (f (c.sh n)))
    (hplace : (f (c.sh n)).place = .handling (.writing s)) (hc : (f (c.sh n)).caching = false)
    (hok : StripeOk c.log.writeBack (n ∈ c.stripeInJournalList) (c.log.logIo n) (f (c.sh n)))
    (ready : Bool) (drain : Fin d → Bool) :
    Decided c (handleStripeDirtying (c.modify n f) n ready drain) n := by
  refine ⟨_, modify_modify _ _, ?_, ?_⟩
  · dsimp only
    split_ifs
    · have hbehind := fun i u hu => hlog.behind i u
        ((scheduleReconstruction_same (f (c.sh n)) drain i).2 ▸ hu)
      unfold scheduleReconstruction at hbehind ⊢
      split_ifs at hbehind ⊢ <;> exact ⟨hlog.logStart, hbehind, hlog.counted, hlog.drained⟩
    · exact ⟨hlog.logStart, hlog.behind, hlog.counted, hlog.drained⟩
  · rw [hfree] at hok ⊢
    exact hok.dirtied hplace hc ready drain true

section

variable (h : Inv c) (hn : n < c.nrStripes)
include h hn

theorem decided_dirtying_self (hfree : c.log.logIo n = none)
    (hplace : (c.sh n).place = .handling (.writing s)) (hc : (c.sh n).caching = false)
    (ready : Bool) (drain : Fin d → Bool) : Decided c (handleStripeDirtying c n ready drain) n := by
  have hdec := decided_dirtying (f := id) hfree (.refl _) hplace hc (h.stripe n hn) ready drain
  rwa [modify_eq_self (by rfl)] at hdec

omit h hn in
theorem drainedForLog_counted (st : StripeHead d) : st.drainedForLog.Counted := by
  cases hfull : st.fullStripe with
  | true => exact .inl hfull
  | false =>
    refine .inr ?_
    show (st.partialStripe || !st.fullStripe) = true
    rw [hfull, Bool.not_false, Bool.or_true]

/-- The write is cached, or has to go to the array from outside the caching phase. -/
theorem r5cTryCachingWrite_cases (hwb : c.log.writeBack)
    (hfree : c.log.logIo n = none) (hplace : (c.sh n).place = .handling (.writing s))
    (hask : s.toWrite) (failed counted : Bool) :
    (r5cTryCachingWrite c n s failed counted = (c, true) ∧ (c.sh n).caching = false) ∨
    (r5cTryCachingWrite c n s failed counted =
      (c.modify n fun st => { st with caching := false }, true)) ∨
    (r5cTryCachingWrite c n s failed counted = (c.modify n drainedForLog, false) ∧
      StripeOk c.log.writeBack (n ∈ c.stripeInJournalList) (c.log.logIo n)
        ((c.sh n).drainedForLog.toIo (c.sh n).handle)) := by
  have hok := h.stripe n hn
  unfold r5cTryCachingWrite
  by_cases hleft : (!(c.sh n).caching && (decide (0 < (c.sh n).injournal) || s.written))
  · refine .inl ⟨if_pos hleft, ?_⟩
    simpa using (Bool.and_eq_true_iff.mp hleft).1
  · refine .inr ?_
    simp only [if_neg hleft]
    split_ifs with hfail
    · refine .inl ?_
      rw [r5cMakeStripeWriteOut_eq (by exact hwb), modify_modify]
    · refine .inr ⟨?_, ?_⟩
      · rw [modify_modify]
        rfl
      · rcases hok.of_writing hplace with ⟨hq, hp⟩ | ⟨hf, -, hw⟩
        · rw [hwb, hfree] at hok ⊢
          rw [hfree] at hq
          exact hok.drainedForLog hq hp (hq.asked s (.inr (.inr hplace)) hask) _
        · -- a stripe with its parity flagged is out of its caching phase
          refine absurd ?_ hleft
          rw [hf.caching, Bool.not_false, Bool.true_and, Bool.or_eq_true, decide_eq_true_eq]
          exact hw.symm

theorem decided_newWrites
    (hplace : (c.sh n).place = .handling (.writing s)) (failed counted ready : Bool)
    (drain : Fin d → Bool) : Decided c (newWrites c n s failed counted ready drain) n := by
  unfold newWrites
  by_cases hbusy : (c.sh n).reconstruct ≠ .idle ∨ c.log.logIo n ≠ none
  · rw [if_pos hbusy]
    exact decided_none h hn hplace
  · rw [if_neg hbusy]
    have hfree : c.log.logIo n = none := by
      by_contra hne
      exact hbusy (.inr hne)
    by_cases hwb : c.log.writeBack
    · have hback : r5cIsWriteback c := hwb
      simp only [hback, Bool.not_true, Bool.false_eq_true, if_false]
      by_cases hask : s.toWrite
      · simp only [hask, if_true]
        rcases r5cTryCachingWrite_cases h hn hwb hfree hplace hask failed counted with
          ⟨heq, hc⟩ | heq | ⟨heq, hok⟩
        · simp only [heq, Bool.true_or, if_true]
          exact decided_dirtying_self h hn hfree hplace hc ready drain
        · simp only [heq, Bool.true_or, if_true]
          exact decided_dirtying hfree ⟨rfl, fun _ _ hu => hu, id, fun hc =>
            (by cases hc)⟩ hplace rfl
            ((h.stripe n hn).leave_caching hplace) ready drain
        · have hcaching : ((c.modify n drainedForLog).sh n).caching := by
            rw [modify_self]
            rfl
          simp only [heq, hcaching, Bool.not_true, Bool.false_and, Bool.or_false,
            Bool.false_eq_true,
            if_false]
          have hcount := drainedForLog_counted (c.sh n)
          exact ⟨_, rfl, ⟨rfl, drainedForLog_behind (c.sh n), fun _ => hcount,
            fun _ _ => .inl hcount⟩, hok⟩
      · simp only [hask, Bool.false_eq_true, if_false, Bool.false_or]
        split_ifs with hout
        · refine decided_dirtying_self h hn hfree hplace ?_ ready drain
          simpa using (Bool.and_eq_true_iff.mp hout).1
        · exact decided_none h hn hplace
    · have hthrough : r5cIsWriteback c = false := Bool.eq_false_iff.mpr hwb
      simp only [hthrough, Bool.not_false, if_true]
      split_ifs
      · refine decided_dirtying_self h hn hfree hplace
          (Bool.eq_false_iff.mpr fun hc => ?_) ready drain
        exact hwb (h.writeBack_of_caching hn hc)
      · exact decided_none h hn hplace

end

end Decided

theorem stripeStep_handleWrite (h : Inv c) (hn : n < c.nrStripes) {s : HeadState}
    (hplace : (c.sh n).place = .handling (.writing s)) (failed counted ready : Bool)
    (drain : Fin d → Bool) : StripeStep c (handleWrite c n s failed counted ready drain) n := by
  obtain ⟨f, heq, hlog, hok⟩ := (decided_newWrites h hn hplace failed counted ready drain).stripe
  have hlogging : (c.sh n).place ≠ .logging := by simp [hplace]
  rw [handleWrite, heq, modify_modify]
  refine .modify h ⟨hlog.logStart, hlog.behind, hlog.counted, hlog.drained⟩ (fun _ hp => ?_) hok
    fun hp => absurd hp hlogging
  -- no stripe gets this far with its parity in the log
  refine absurd (hp.inJournal hlogging) (Bool.eq_false_iff.mp ?_)
  rcases (h.stripe n hn).of_writing hplace with ⟨-, hoff⟩ | ⟨hf, -⟩
  · exact hoff
  · exact congrArg inJournal hf.parity

/-! ## Writes to the member disks -/

theorem issueWrites_eq (hwant : (c.sh n).parity.wantwrite ∨ ∃ i, ((c.sh n).dev i).wantwrite) :
    issueWrites (c.modify n fun st => { st with logTrapped := false }) n =
      c.modify n issued := by
  rw [issueWrites, if_pos (by rwa [modify_self]), modify_modify]
  rfl

/-- The stripe's I/O goes past the log. -/
theorem stripeStep_issueWrites (h : Inv c) (hn : n < c.nrStripes)
    (hplace : (c.sh n).place = .handling .io)
    (hcaching : (c.sh n).caching → (c.sh n).logTrapped = false) :
    StripeStep c (issueWrites (c.modify n fun st => { st with logTrapped := false }) n) n := by
  have hok := h.stripe n hn
  have hlogging : (c.sh n).place ≠ .logging := by simp [hplace]
  have hstore : Storing (c.log.logIo n) (c.sh n).issued →
      ((c.sh n).parity.wantwrite ∨ ∃ i, ((c.sh n).dev i).wantwrite) →
      StripeStep c (issueWrites (c.modify n fun st => { st with logTrapped := false }) n) n := by
    intro hs hwant
    rw [issueWrites_eq hwant]
    exact .modify h ⟨rfl, fun i u hu => (Dev.issued_same ((c.sh n).dev i)).2 ▸ hu, id,
        fun _ ht => (by cases ht)⟩
      (fun _ hp => .inl (hp.inJournal hlogging)) (hok.of_storing hs) fun hp => absurd hp hlogging
  -- nothing is flagged for writing, and the stripe was not waiting for the log
  have hrest : (c.sh n).logTrapped = false →
      ¬ ((c.sh n).parity.wantwrite ∨ ∃ i, ((c.sh n).dev i).wantwrite) →
      (c.sh n).reconstruct ≠ .drainRun →
      StripeStep c (issueWrites (c.modify n fun st => { st with logTrapped := false }) n) n := by
    intro htrapped hwant hrun
    have hself : c = c.modify n id := (modify_eq_self rfl).symm
    rw [modify_eq_self (by rw [← htrapped]), issueWrites, if_neg hwant, if_neg hrun]
    nth_rewrite 2 [hself]
    refine .release h hn (.refl _) (fun hp => hp.inJournal hlogging) id
      (h.not_waiting hlogging) fun st' hrel => ?_
    refine hok.released_io hrel hplace hrun (Bool.eq_false_iff.mpr fun hw => ?_) htrapped
    exact hwant (.inl hw)
  cases hok.phase with
  | quiet hq =>
    refine hrest hq.trapped ?_ fun hrun => (by cases hrun.symm.trans hq.reconstruct)
    rintro (hw | ⟨i, hw⟩)
    · cases hq.parityWantwrite.symm.trans hw
    · cases (hq.dev i).wantwrite.symm.trans hw
  | computing hw =>
    have hnone : ¬ ((c.sh n).parity.wantwrite ∨ ∃ i, ((c.sh n).dev i).wantwrite) := by
      rintro (hp | ⟨i, hi⟩)
      · cases (congrArg wantwrite hw.parity).symm.trans hp
      · cases (hw.dev i).wantwrite.symm.trans hi
    by_cases hrun : (c.sh n).reconstruct = .drainRun
    · rw [modify_eq_self (by rw [← hw.trapped]), issueWrites, if_neg hnone, if_pos hrun]
      refine .modify h (.moved _ _ _ _) (fun _ hp => .inl (hp.inJournal hlogging))
        ⟨hok.journaled, fun hp => ?_, hok.back, hok.through, .computing
          ⟨hw.dev, hw.some, hw.trapped, hw.parity, hw.caching, hw.logIo, .inl ⟨hrun, .inr rfl⟩⟩⟩
        fun hp => absurd hp hlogging
      rcases hp with hp | hp <;> cases hp
    · exact hrest hw.trapped hnone hrun
  | cacheWrite hw =>
    refine hstore (hw.issue (Bool.eq_false_iff.mpr fun hc => ?_)) (.inr hw.drained)
    cases hw.trapped.symm.trans (hcaching hc)
  | flagged hf => exact hstore hf.issue (.inl (congrArg wantwrite hf.parity))
  | logged hl => exact hstore hl.issue (.inl (congrArg wantwrite hl.parity))
  | storing hs => cases hplace.symm.trans hs.place

/-! ## Logging -/

theorem r5cUpdateLogState_eq (c : R5conf d) : ∃ tight critical,
    r5cUpdateLogState c = { c with logTight := tight, logCritical := critical } := by
  unfold r5cUpdateLogState
  split_ifs
  · exact ⟨_, _, rfl⟩
  · exact ⟨c.logTight, c.logCritical, rfl⟩

/-- The state after the log has taken blocks, up to the two flags that follow the free space. -/
def R5conf.grown (c : R5conf d) (log : R5lLog) (pages : Nat) (tight critical : Bool) : R5conf d :=
  { c with
    log := log
    start := if c.log.seq < log.seq then update c.start c.log.seq c.logStart else c.start
    logStart := reserveLogEntry c (log.seq - c.log.seq + pages)
    logTight := tight, logCritical := critical }

@[simp] theorem grown_log (c : R5conf d) (log : R5lLog) (pages : Nat) (tight critical : Bool) :
    (c.grown log pages tight critical).log = log := rfl

@[simp] theorem grown_sh (c : R5conf d) (log : R5lLog) (pages : Nat) (tight critical : Bool) :
    (c.grown log pages tight critical).sh = c.sh := rfl

theorem takeBlocks_eq (c : R5conf d) (log : R5lLog) (pages : Nat) : takeBlocks c log pages =
    c.grown log pages (takeBlocks c log pages).logTight (takeBlocks c log pages).logCritical := by
  obtain ⟨tight, critical, heq⟩ : ∃ tight critical,
      takeBlocks c log pages = c.grown log pages tight critical := r5cUpdateLogState_eq _
  rw [heq]
  rfl

theorem Inv.takeBlocks (h : Inv c) {log : R5lLog} (hg : Grows c.log log)
    (hshape : Shape c.nrStripes log) (pages : Nat) : Inv (takeBlocks c log pages) := by
  rw [takeBlocks_eq]
  refine ⟨hshape, fun m hm => ?_, h.started, h.listed, h.nodup, fun hwb => ?_, fun u m hm => ?_,
    h.noBug⟩
  · show StripeOk log.writeBack _ (log.logIo m) (c.sh m)
    rw [hg.writeBack, hg.logIo]
    exact h.stripe m hm
  · exact h.through (hg.writeBack ▸ hwb)
  · exact h.waiting u m (hg.stripeList u ▸ hm)

/-- Stripe `n` is logged: it stays on the list where it was, or joins it at the start of its
unit. -/
structure Enlisted (c : R5conf d) (start : Pos) (n : Nat) (logStart : Option Pos)
    (list : List Nat) :
    Prop where
  cases : (logStart = (c.sh n).logStart ∧ list = c.stripeInJournalList ∧
      (c.log.writeBack = true → n ∈ c.stripeInJournalList)) ∨
    (c.log.writeBack = true ∧ n ∉ c.stripeInJournalList ∧ logStart = some start ∧
      list = c.stripeInJournalList ++ [n])

variable {preflush fua alloc : Bool} {c' : R5conf d}

theorem r5lLogStripe_logged (h : Inv c) (hn : n < c.nrStripes) {u parityPages : Nat}
    (hlogs : Logs c.log (Journal.r5lLogStripe c.log n (c.sh n).dataPages parityPages preflush fua
      alloc) n u) : ∃ tight critical logStart list,
      r5lLogStripe c n parityPages preflush fua alloc =
        { c.grown (Journal.r5lLogStripe c.log n (c.sh n).dataPages parityPages preflush fua alloc)
            ((c.sh n).dataPages + parityPages) tight critical with
          sh := update c.sh n ((c.sh n).loggedIn u logStart)
          stripeInJournalList := list } ∧
      Enlisted c ((r5lLogStripe c n parityPages preflush fua alloc).start u) n logStart list := by
  have hsome : (Journal.r5lLogStripe c.log n (c.sh n).dataPages parityPages preflush fua
      alloc).logIo n = some u := by rw [hlogs.logIo, update_self]
  have hwb' := hlogs.writeBack
  simp only [r5lLogStripe, hsome]
  generalize Journal.r5lLogStripe c.log n (c.sh n).dataPages parityPages preflush fua
    alloc = log at *
  rw [takeBlocks_eq]
  generalize (takeBlocks ..).logTight = tight, (takeBlocks ..).logCritical = critical
  refine ⟨tight, critical, ?_⟩
  by_cases hwb : c.log.writeBack
  · have hback : log.writeBack := hwb'.trans hwb
    simp only [r5cIsWriteback, R5conf.modify, grown_log, grown_sh, hback, Bool.not_true,
      Bool.false_eq_true, if_false, update_self, mapDev]
    cases hstart : (c.sh n).logStart with
    | some p =>
      refine ⟨some p, c.stripeInJournalList, rfl, ⟨.inl ⟨hstart.symm, rfl, fun _ => ?_⟩⟩⟩
      exact (h.started n hn).mp (by rw [hstart]; rfl)
    | none =>
      have hnot : n ∉ c.stripeInJournalList := fun hmem => by
        have hs := (h.started n hn).mpr hmem
        rw [hstart] at hs
        cases hs
      refine ⟨_, _, ?_, ⟨.inr ⟨hwb, hnot, rfl, rfl⟩⟩⟩
      simp only [update_idem]
      rfl
  · have hthrough : log.writeBack = false := hwb'.trans (Bool.eq_false_iff.mpr hwb)
    simp only [r5cIsWriteback, R5conf.modify, grown_log, grown_sh, hthrough,
      Bool.not_false, if_true]
    exact ⟨(c.sh n).logStart, c.stripeInJournalList, rfl,
      ⟨.inl ⟨rfl, rfl, fun hc => absurd hc hwb⟩⟩⟩

/-- Stripe `n` is to be logged. -/
structure Loggable (c : R5conf d) (n : Nat) : Prop where
  lt : n < c.nrStripes
  free : c.log.logIo n = none
  toLog : ToLog c.log.writeBack (n ∈ c.stripeInJournalList) (c.sh n)
  place : (c.sh n).place ≠ .logging

section

variable (h : Inv c) (hl : Loggable c n)
include h hl

theorem Inv.ok_free : StripeOk c.log.writeBack (n ∈ c.stripeInJournalList) none (c.sh n) :=
  hl.free ▸ h.stripe n hl.lt

theorem stripeStep_wait (target : Nat) :
    StripeStep c (c.withStripe n { c.sh n with place := .noSpace } c.bug target) n := by
  refine .of_withStripe target (.moved _ _ _ _) (fun _ hp => .inl (hp.inJournal hl.place)) ?_
    (fun u hu => absurd hu (h.not_waiting hl.place u)) h.noBug
  rw [hl.free]
  exact (h.ok_free hl).wait hl.toLog

theorem Inv.logged {log : R5lLog} {u pages : Nat}
    (hlogs : Logs c.log log n u) (hshape : Shape c.nrStripes log) {start : Pos}
    {logStart : Option Pos} {list : List Nat} (hlist : Enlisted c start n logStart list)
    (tight critical : Bool) : Inv { c.grown log pages tight critical with
      sh := update c.sh n ((c.sh n).loggedIn u logStart)
      stripeInJournalList := list } := by
  have hother : ∀ m, m ≠ n → (m ∈ list ↔ m ∈ c.stripeInJournalList) := by
    intro m hm
    rcases hlist.cases with ⟨-, rfl, -⟩ | ⟨-, -, -, rfl⟩
    · exact Iff.rfl
    · simp [hm]
  have hself : (logStart.isSome ↔ n ∈ list) ∧
      (n ∈ c.stripeInJournalList → n ∈ list) ∧ (c.log.writeBack → n ∈ list) := by
    rcases hlist.cases with ⟨rfl, rfl, hmem⟩ | ⟨-, -, rfl, rfl⟩
    · exact ⟨h.started n hl.lt, id, hmem⟩
    · simp
  refine ⟨hshape, fun m hm => ?_, fun m hm => ?_, fun m hm => ?_, ?_, fun hwb => ?_,
    fun v m hm => ?_,
    h.noBug⟩
  · show StripeOk log.writeBack (m ∈ list) (log.logIo m) (update c.sh n _ m)
    rw [hlogs.writeBack, hlogs.logIo]
    by_cases hmn : m = n
    · subst hmn
      rw [update_self, update_self]
      exact (h.ok_free hl).loggedIn hl.toLog u logStart hself.2.1 hself.2.2
    · rw [update_of_ne hmn, update_of_ne hmn, hother m hmn]
      exact h.stripe m hm
  · show (update c.sh n _ m).logStart.isSome ↔ m ∈ list
    by_cases hmn : m = n
    · subst hmn
      rw [update_self]
      exact hself.1
    · rw [update_of_ne hmn, hother m hmn]
      exact h.started m hm
  · by_cases hmn : m = n
    · exact hmn ▸ hl.lt
    · exact h.listed m ((hother m hmn).mp hm)
  · rcases hlist.cases with ⟨-, rfl, -⟩ | ⟨-, hnot, -, rfl⟩
    · exact h.nodup
    · exact nodup_append.mpr ⟨h.nodup, nodup_singleton n, fun a ha b hb => by
        rintro rfl
        exact hnot (mem_singleton.mp hb ▸ ha)⟩
  · have hthrough : c.log.writeBack = false := hlogs.writeBack ▸ hwb
    rcases hlist.cases with ⟨-, rfl, -⟩ | ⟨hback, -⟩
    · exact h.through hthrough
    · cases hthrough.symm.trans hback
  · show (update c.sh n _ m).place = .logging
    by_cases hmn : m = n
    · subst hmn
      rw [update_self]
      rfl
    · rw [update_of_ne hmn]
      have hmem : m ∈ (log.unit v).stripeList := hm
      rw [hlogs.stripeList] at hmem
      split_ifs at hmem with hv
      · subst hv
        rcases mem_append.mp hmem with hmem | hmem
        · exact h.waiting v m hmem
        · exact absurd (mem_singleton.mp hmem) hmn
      · exact h.waiting v m hmem

end

/-- What logging a stripe can do: log it, or leave it waiting for memory. -/
inductive LogStep (c : R5conf d) (n parityPages : Nat) : R5conf d → Prop where
  | logged {log : R5lLog} {u : Nat} (hlogs : Logs c.log log n u) (hshape : Shape c.nrStripes log)
      (tight critical : Bool) {start : Pos} {logStart : Option Pos} {list : List Nat}
      (hstart : start = (c.grown log ((c.sh n).dataPages + parityPages) tight critical).start u)
      (hlist : Enlisted c start n logStart list) :
      LogStep c n parityPages
        { c.grown log ((c.sh n).dataPages + parityPages) tight critical with
          sh := update c.sh n ((c.sh n).loggedIn u logStart)
          stripeInJournalList := list }
  | noMemory {log : R5lLog} (hg : Grows c.log log) (hseq : log.seq = c.log.seq)
      (hshape : Shape c.nrStripes log) :
      LogStep c n parityPages (r5lAddNoSpaceStripe (takeBlocks c log 0) n)

theorem logStep_r5lLogStripe (h : Inv c) (hl : Loggable c n) (parityPages : Nat)
    (preflush fua alloc : Bool) :
    LogStep c n parityPages (r5lLogStripe c n parityPages preflush fua alloc) := by
  have hshape := h.shape.r5lLogStripe hl.lt hl.free (c.sh n).dataPages parityPages
    preflush fua alloc
  rcases r5lLogStripe_cases h.shape hl.free (c.sh n).dataPages parityPages preflush fua alloc with
    ⟨u, hlogs⟩ | ⟨hg, hseq, hnone⟩
  · obtain ⟨tight, critical, logStart, list, heq, hlist⟩ := r5lLogStripe_logged h hl.lt hlogs
    rw [heq] at hlist ⊢
    exact .logged hlogs hshape tight critical rfl hlist
  · simp only [r5lLogStripe, hnone]
    exact .noMemory hg hseq hshape

theorem Inv.logStep (h : Inv c) (hl : Loggable c n) {parityPages : Nat}
    (hs : LogStep c n parityPages c') : Inv c' := by
  cases hs with
  | logged hlogs hshape tight critical _ hlist =>
    exact h.logged hl hlogs hshape hlist tight critical
  | @noMemory log hg _ hshape =>
    have hinv := h.takeBlocks hg hshape 0
    refine hinv.stripeStep (stripeStep_wait hinv ?_ _)
    rw [takeBlocks_eq]
    refine ⟨hl.lt, hg.logIo ▸ hl.free, ?_, hl.place⟩
    rw [grown_log, grown_sh, hg.writeBack]
    exact hl.toLog

/-- What a stripe to be logged goes through. -/
inductive LogOrWait (c : R5conf d) (n reserve parityPages : Nat) (c' : R5conf d) : Prop where
  | wait (hs : StripeStep c c' n)
  | log (hspace : r5lHasFreeSpace c reserve = true) (hs : LogStep c n parityPages c')

theorem stripeStep_wakeReclaim (h : Inv c) (hl : Loggable c n) (space : Nat) :
    StripeStep c (r5lWakeReclaim (r5lAddNoSpaceStripe c n) space) n := by
  unfold r5lWakeReclaim
  split_ifs
  · exact stripeStep_wait h hl _
  · exact stripeStep_wait h hl _

/-- A stripe new to the journal is held back while the log is critical. -/
theorem logOrWait_critical (hwb : c.log.writeBack) (hcritical : c.logCritical)
    (hstart : (c.sh n).logStart = none) (writeDisks parityPages : Nat) (preflush fua alloc : Bool) :
    logOrWait c n writeDisks parityPages preflush fua alloc =
      some (r5lWakeReclaim (r5lAddNoSpaceStripe c n) 0) := by
  have hback : r5cIsWriteback c := hwb
  simp only [logOrWait, hback, hcritical, hstart, Option.isNone_none, Bool.and_self, if_true]

theorem logOrWait_cases (h : Inv c) (hl : Loggable c n) {writeDisks parityPages : Nat}
    (hs : logOrWait c n writeDisks parityPages preflush fua alloc = some c') :
    LogOrWait c n ((1 + writeDisks) * blockSectors) parityPages c' := by
  simp only [logOrWait] at hs
  split_ifs at hs with hcritical hspace
  · exact .wait (some.inj hs ▸ stripeStep_wakeReclaim h hl 0)
  · exact .wait (some.inj hs ▸ stripeStep_wait h hl _)
  · exact .wait (some.inj hs ▸ stripeStep_wakeReclaim h hl _)
  · refine .log (by simpa using hspace) ?_
    exact some.inj hs ▸ logStep_r5lLogStripe h hl parityPages preflush fua alloc

/-- The stripe has data drained for the log, or its parity flagged to be written. -/
def StripeHead.HasToLog (st : StripeHead d) : Prop :=
  if st.caching then st.logTrapped = true else st.parity.wantwrite = true

instance (st : StripeHead d) : Decidable st.HasToLog := by
  unfold StripeHead.HasToLog
  infer_instance

/-- What the I/O of a stripe does: nothing for the log, or it logs the stripe after marking it
as trapped, once a meta block and `writeDisks` pages have been seen to fit. -/
inductive IoStep (c : R5conf d) (n : Nat) (c' : R5conf d) : Prop where
  | past (hs : StripeStep c c' n)
  | log {mid : R5conf d} {writeDisks parityPages : Nat} (hhas : (c.sh n).HasToLog)
      (hmid : StripeStep c mid n) (hl : Loggable mid n)
      (hpages : (mid.sh n).dataPages + parityPages ≤ writeDisks)
      (hs : LogOrWait mid n ((1 + writeDisks) * blockSectors) parityPages c')

section

variable {wb : Bool} {inList : Prop} {logIo : Option Nat} {st : StripeHead d}
  (hw : CacheWrite wb inList logIo st)
include hw

/-- All data flagged by a caching write is new. -/
theorem CacheWrite.dataPages :
    (finRange d).countP (fun i => (st.dev i).wantwrite) = st.dataPages := by
  refine countP_congr fun i _ => ⟨fun hi => ?_, fun hi => (Bool.and_eq_true_iff.mp hi).1⟩
  rw [hi, ((hw.dev i).drained hi).2]
  rfl

theorem CacheWrite.dataPages_pos : 0 < st.dataPages := by
  obtain ⟨i, hi⟩ := hw.drained
  rw [← hw.dataPages]
  exact countP_pos_iff.mpr ⟨i, mem_finRange i, hi⟩

end

theorem StripeStep.refl (h : Inv c) (hn : n < c.nrStripes) : StripeStep c c n := by
  have hs := StripeStep.modify h (f := id) (.refl _) (fun _ hp => hp) (h.stripe n hn) id
  rwa [modify_eq_self (by rfl)] at hs

/-- Stripe `n` is marked as trapped in the log. -/
def R5conf.trapped (c : R5conf d) (n : Nat) : R5conf d :=
  c.modify n fun st => { st with logTrapped := true }

/-- Stripe `n` goes to the log once it is marked as trapped. -/
structure Logging (c : R5conf d) (n parityPages : Nat) : Prop where
  has : (c.sh n).HasToLog
  syncing : (c.sh n).caching = false → (c.sh n).syncing = false
  step : StripeStep c (c.trapped n) n
  loggable : Loggable (c.trapped n) n
  parityPages : parityPages = if (c.sh n).caching then 0 else c.maxDegraded
  drained : (c.sh n).caching = true → 0 < (c.sh n).dataPages

section

variable (h : Inv c) (hn : n < c.nrStripes) (hplace : (c.sh n).place = .handling .io)
include h hn hplace

theorem r5lWriteStripe_cases (hc : (c.sh n).caching = false) (preflush fua alloc : Bool) :
    (∃ c', r5lWriteStripe c n preflush fua alloc = some c' ∧ StripeStep c c' n) ∨
    Logging c n c.maxDegraded ∧ r5lWriteStripe c n preflush fua alloc =
      logOrWait (c.trapped n) n ((c.sh n).dataPages + c.maxDegraded) c.maxDegraded preflush fua
        alloc := by
  have hok := h.stripe n hn
  simp only [r5lWriteStripe]
  by_cases hskip : c.log.logIo n ≠ none ∨ (c.sh n).parity.wantwrite = false ∨ (c.sh n).syncing
  · refine .inl ⟨_, if_pos hskip, stripeStep_issueWrites h hn hplace fun hcaching => ?_⟩
    cases hc.symm.trans hcaching
  · rw [if_neg hskip]
    rw [not_or, not_or, not_not, Bool.not_eq_false, Bool.not_eq_true] at hskip
    obtain ⟨hfree, hwant, hsyncing⟩ := hskip
    have hf : Flagged (c.log.logIo n) (c.sh n) := by
      cases hok.phase with
      | flagged hf => exact hf
      | quiet hq => cases hq.parityWantwrite.symm.trans hwant
      | cacheWrite hw => cases (congrArg wantwrite hw.parity).symm.trans hwant
      | computing hw => cases (congrArg wantwrite hw.parity).symm.trans hwant
      | logged hl => exact absurd hfree hl.logIo
      | storing hs => cases hs.parityWantwrite.symm.trans hwant
    have hf' : Flagged (c.log.logIo n) { c.sh n with logTrapped := true } :=
      { hf with place := .inl ⟨hfree, .inr (.inl hplace)⟩ }
    have hmid : StripeStep c (c.trapped n) n :=
      .modify h ⟨rfl, fun _ _ hu => hu, id, fun hcaching => (by cases hc.symm.trans hcaching)⟩
        (fun _ hp => hp)
        { hok with phase := .flagged hf' } id
    have hl : Loggable (c.trapped n) n := by
      refine ⟨hn, hfree, ?_, ?_⟩
      · rw [trapped, modify_self]
        exact .parity (hfree ▸ hf') rfl
      · rw [trapped, modify_self]
        exact fun hp => (by cases hplace.symm.trans hp)
    have hp : (c.sh n).parity.inJournal = false := congrArg inJournal hf.parity
    refine .inr ⟨⟨?_, fun _ => hsyncing, hmid, hl, ?_, fun hcaching => ?_⟩, ?_⟩
    · rw [StripeHead.HasToLog, hc]
      exact hwant
    · rw [hc]
      rfl
    · cases hc.symm.trans hcaching
    · rw [hp]
      rfl

/-- The I/O of a stripe goes past the log, or the stripe is to be logged. -/
theorem opsRunIo_cases (preflush fua alloc : Bool) :
    (∃ c', opsRunIo c n preflush fua alloc = some c' ∧ StripeStep c c' n) ∨
    ∃ parityPages, Logging c n parityPages ∧ opsRunIo c n preflush fua alloc =
      logOrWait (c.trapped n) n ((c.sh n).dataPages + parityPages) parityPages preflush
        fua alloc := by
  have hok := h.stripe n hn
  unfold opsRunIo
  by_cases hc : (c.sh n).caching
  · simp only [hc, Bool.not_true, Bool.false_eq_true, if_false]
    by_cases htrapped : (c.sh n).logTrapped
    · have hw : CacheWrite c.log.writeBack (n ∈ c.stripeInJournalList) (c.log.logIo n)
        (c.sh n) := by
        cases hok.phase with
        | cacheWrite hw => exact hw
        | quiet hq => cases hq.trapped.symm.trans htrapped
        | computing hw => cases hw.caching.symm.trans hc
        | flagged hf => cases hf.caching.symm.trans hc
        | logged hl => cases hl.caching.symm.trans hc
        | storing hs => cases hs.caching.symm.trans hc
      have hfree : c.log.logIo n = none := by
        rcases hw.place with ⟨hfree, -⟩ | ⟨hp, -⟩
        · exact hfree
        · cases hplace.symm.trans hp
      have hl : Loggable c n :=
        ⟨hn, hfree, .data (hfree ▸ hw) hc, fun hp => (by cases hplace.symm.trans hp)⟩
      have hsame : c.trapped n = c := modify_eq_self (by rw [← htrapped])
      refine .inr ⟨0, ⟨?_, fun hoff => ?_, ?_, ?_, ?_, fun _ => hw.dataPages_pos⟩, ?_⟩
      · rw [StripeHead.HasToLog, hc]
        exact htrapped
      · cases hoff.symm.trans hc
      · rw [hsame]
        exact .refl h hn
      · rw [hsame]
        exact hl
      · rw [hc]
        rfl
      · rw [if_pos htrapped, r5cCacheData, hw.dataPages, hsame]
        rfl
    · have hoff := Bool.eq_false_iff.mpr htrapped
      have hstep := stripeStep_issueWrites h hn hplace fun _ => hoff
      rw [modify_eq_self (by rw [← hoff])] at hstep
      exact .inl ⟨_, if_neg htrapped, hstep⟩
  · have hoff := Bool.eq_false_iff.mpr hc
    simp only [hoff, Bool.not_false, if_true]
    exact (r5lWriteStripe_cases h hn hplace hoff preflush fua alloc).imp_right
      fun hlog => ⟨_, hlog⟩

theorem ioStep_opsRunIo (hs : opsRunIo c n preflush fua alloc = some c') : IoStep c n c' := by
  rcases opsRunIo_cases h hn hplace preflush fua alloc with ⟨c₁, heq, hstep⟩
    | ⟨parityPages, hlog, heq⟩
  · exact .past (some.inj (heq.symm.trans hs) ▸ hstep)
  · refine .log hlog.has hlog.step hlog.loggable ?_
      (logOrWait_cases (h.stripeStep hlog.step) hlog.loggable (heq.symm.trans hs))
    rw [trapped, modify_self]
    exact le_rfl

end

/-- What steps of a stripe keep, its I/O keeps, if logging keeps it. -/
theorem IoStep.rule {P : R5conf d → Prop} (hs : IoStep c n c')
    (hP : ∀ {c c' : R5conf d} {n}, P c → StripeStep c c' n → P c') (h : P c)
    (hlog : ∀ {mid : R5conf d} {k}, StripeStep c mid n → Loggable mid n → P mid →
      LogStep mid n k c' → P c') : P c' := by
  cases hs with
  | past hs => exact hP h hs
  | log _ hmid hl _ hs =>
    cases hs with
    | wait hs => exact hP (hP h hmid) hs
    | log _ hs => exact hlog hmid hl (hP h hmid) hs

theorem Inv.ioStep (h : Inv c) (hs : IoStep c n c') : Inv c' :=
  hs.rule (fun h => h.stripeStep) h fun _ hl hinv => hinv.logStep hl

end MdRaid.Journal.WriteBack
