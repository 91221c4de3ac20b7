import MdRaid.Journal.WriteBack
import MdRaid.Journal.LogShape

/-!
# The phases of a stripe

A stripe head is in one of six phases: at rest, with data drained for the log, with its
parity being computed, flagged to be written, logged with its parity, or being written to
the member disks. Each phase says which flags its devices carry and where the stripe can
be, and each part of `handle_stripe` leads from a phase to a phase.

A phase is stated for one stripe: `wb` is the journal mode, `inList` says that the stripe
is on `stripe_in_journal_list`, and `logIo` is its `log_io`.
-/

namespace MdRaid.Journal.WriteBack

open RingLog List StripeHead Bool Dev

variable {d : Nat}

/-! ## Devices -/

structure QuietDev (dev : Dev) : Prop where
  wantwrite : dev.wantwrite = false
  locked : dev.locked = false
  writing : dev.writing = false
  behind : dev.behind ≠ [] → dev.inJournal = true

structure CacheDev (dev : Dev) : Prop where
  writing : dev.writing = false
  drained : dev.wantwrite = true → 0 < dev.written ∧ dev.inJournal = false
  locked : dev.locked = true → dev.wantwrite = true
  behind : dev.behind ≠ [] → dev.inJournal = true ∨ dev.wantwrite = true

structure ComputeDev (dev : Dev) : Prop where
  wantwrite : dev.wantwrite = false
  writing : dev.writing = false
  locked : dev.locked = true → 0 < dev.written ∨ dev.inJournal = true
  returned : dev.inJournal = true → dev.written = 0
  behind : dev.behind ≠ [] → dev.locked = true

structure FlaggedDev (dev : Dev) : Prop where
  writing : dev.writing = false
  wantwrite : dev.wantwrite = true → 0 < dev.written ∨ dev.inJournal = true
  locked : dev.locked = true → dev.wantwrite = true
  behind : dev.behind ≠ [] → dev.wantwrite = true

/-- `all`: the parity is written with the data, so that nothing stays behind. -/
structure StoringDev (all : Bool) (dev : Dev) : Prop where
  wantwrite : dev.wantwrite = false
  locked : dev.locked = true → dev.writing = true
  writing : dev.writing = true → 0 < dev.written ∨ dev.inJournal = true
  behind : dev.behind ≠ [] → dev.writing = true ∨ all = false ∧ dev.inJournal = true

/-! ## Stripes -/

/-- On a list or being handled. -/
def Place.Resting : Place → Prop
  | .inactiveList | .handleList | .fullStripeList | .partialStripeList | .handling _ => True
  | .opsRunning | .logging | .noSpace | .memberWrites => False

/-- `handle_stripe` is past the point where it returns requests. -/
def Place.Returned : Place → Prop
  | .handling (.finishing _) | .handling (.writing _) => True
  | _ => False

/-- `handle_stripe` goes by what it counted in `s`. -/
def Place.Analysed (p : Place) (s : HeadState) : Prop :=
  p = .handling (.returning s) ∨ p = .handling (.finishing s) ∨ p = .handling (.writing s)

/-- The stripe has been written out and is to be cleaned up. -/
structure Stored (logIo : Option Nat) (st : StripeHead d) : Prop where
  behind : ∀ i, (st.dev i).behind = []
  caching : st.caching = false
  place : (logIo ≠ none ∧ (st.place = .handleList ∨ (∃ s, st.place = .handling (.returning s)) ∨
    st.place = .handling .io ∧ st.handle = true)) ∨ ∃ s, st.place = .handling (.finishing s)

structure Quiet (inList : Prop) (logIo : Option Nat) (st : StripeHead d) : Prop where
  dev : ∀ i, QuietDev (st.dev i)
  reconstruct : st.reconstruct = .idle
  trapped : st.logTrapped = false
  parityWantwrite : st.parity.wantwrite = false
  parityLocked : st.parity.locked = false
  caching : st.caching = true → inList
  place : st.place.Resting
  returned : st.place.Returned → ∀ i, (st.dev i).inJournal = true → (st.dev i).written = 0
  asked : ∀ s, st.place.Analysed s → s.toWrite = true → ∃ i, 0 < (st.dev i).towrite
  stored : st.parity.inJournal = true → Stored logIo st

structure CacheWrite (wb : Bool) (inList : Prop) (logIo : Option Nat)
    (st : StripeHead d) : Prop where
  mode : wb = true
  dev : ∀ i, CacheDev (st.dev i)
  drained : ∃ i, (st.dev i).wantwrite = true
  reconstruct : st.reconstruct = .idle
  trapped : st.logTrapped = true
  parity : st.parity = ⟨false, false, false⟩
  place : (logIo = none ∧ (st.place = .handleList ∨ st.place = .handling .io ∨
    st.place = .noSpace)) ∨
    (st.place = .logging ∧ st.caching = true ∧ inList)

structure Computing (logIo : Option Nat) (st : StripeHead d) : Prop where
  dev : ∀ i, ComputeDev (st.dev i)
  some : ∃ i, (st.dev i).locked = true
  trapped : st.logTrapped = false
  parity : st.parity = ⟨false, true, false⟩
  caching : st.caching = false
  logIo : logIo = none
  place : (st.reconstruct = .drainRun ∧ (st.place = .handling .io ∨ st.place = .opsRunning)) ∨
    (st.reconstruct = .drainResult ∧ (st.place = .handleList ∨
      (∃ s, st.place = .handling (.returning s) ∧ ∀ i, 0 < (st.dev i).written → s.written = true) ∨
      st.place = .handling .io ∧ st.handle = true))

structure Flagged (logIo : Option Nat) (st : StripeHead d) : Prop where
  dev : ∀ i, FlaggedDev (st.dev i)
  flagged : ∃ i, (st.dev i).wantwrite = true
  reconstruct : st.reconstruct = .idle
  parity : st.parity = ⟨true, true, false⟩
  caching : st.caching = false
  place : (logIo = none ∧ ((∃ s, (st.place = .handling (.finishing s) ∨
      st.place = .handling (.writing s)) ∧ (s.written = true ∨ 0 < st.injournal)) ∨
      st.place = .handling .io ∨
      st.logTrapped = true ∧ (st.place = .noSpace ∨ st.place = .handleList))) ∨
    (st.logTrapped = true ∧ st.place = .logging)

structure Logged (logIo : Option Nat) (st : StripeHead d) : Prop where
  dev : ∀ i, FlaggedDev (st.dev i)
  reconstruct : st.reconstruct = .idle
  trapped : st.logTrapped = true
  parity : st.parity = ⟨true, true, true⟩
  caching : st.caching = false
  logIo : logIo ≠ none
  place : st.place = .handleList ∨ st.place = .handling .io

structure Storing (logIo : Option Nat) (st : StripeHead d) : Prop where
  dev : ∀ i, StoringDev st.parity.inJournal (st.dev i)
  reconstruct : st.reconstruct = .idle
  trapped : st.logTrapped = false
  parityWantwrite : st.parity.wantwrite = false
  caching : st.caching = false
  logIo : st.parity.inJournal = true → logIo ≠ none
  place : st.place = .memberWrites

inductive Phase (wb : Bool) (inList : Prop) (logIo : Option Nat) (st : StripeHead d) : Prop where
  | quiet (h : Quiet inList logIo st)
  | cacheWrite (h : CacheWrite wb inList logIo st)
  | computing (h : Computing logIo st)
  | flagged (h : Flagged logIo st)
  | logged (h : Logged logIo st)
  | storing (h : Storing logIo st)

structure StripeOk (wb : Bool) (inList : Prop) (logIo : Option Nat) (st : StripeHead d) : Prop where
  journaled : ∀ i, (st.dev i).inJournal = true → inList
  cached : st.place = .fullStripeList ∨ st.place = .partialStripeList → inList
  /-- In write-back mode a stripe whose data is behind is on the list; in write-through mode
  its unit counts it as pending. -/
  back : wb = true → ∀ i, (st.dev i).behind ≠ [] → inList
  through : wb = false → ∀ i, ∀ u ∈ (st.dev i).behind, logIo = some u
  phase : Phase wb inList logIo st

variable {wb : Bool} {inList : Prop} {logIo : Option Nat} {st : StripeHead d}

theorem idleStripe_ok : StripeOk wb inList logIo (idleStripe d) where
  journaled := fun _ h => (by cases h)
  cached := fun h => h.elim (by rintro ⟨⟩) (by rintro ⟨⟩)
  back := fun _ _ h => absurd rfl h
  through := fun _ _ _ h => absurd h not_mem_nil
  phase := .quiet
    { dev := fun _ => ⟨rfl, rfl, rfl, fun h => absurd rfl h⟩
      reconstruct := rfl
      trapped := rfl
      parityWantwrite := rfl
      parityLocked := rfl
      caching := by rintro ⟨⟩
      place := trivial
      returned := fun h => h.elim
      asked := fun s h => by rcases h with h | h | h <;> cases h
      stored := fun h => (by cases h) }

/-! ## Requests -/

/-- Requests queued for the devices, and the wish for a sync. -/
def StripeHead.withRequests (st : StripeHead d) (towrite : Fin d → Nat) (overwrite : Fin d → Bool)
    (sync : Bool) : StripeHead d :=
  { st with
    handle := true
    syncRequested := sync
    dev := fun i => { st.dev i with towrite := towrite i, overwrite := overwrite i } }

/-- Queueing requests changes no phase. -/
theorem Phase.withRequests (h : Phase wb inList logIo st) {towrite : Fin d → Nat}
    (hmore : ∀ i, 0 < (st.dev i).towrite → 0 < towrite i) (overwrite : Fin d → Bool) (sync : Bool) :
    Phase wb inList logIo (st.withRequests towrite overwrite sync) := by
  cases h with
  | quiet h =>
    refine .quiet { h with
      dev := fun i => { h.dev i with }
      asked := fun s hs ht => (h.asked s hs ht).imp hmore
      stored := fun hp => ?_ }
    have hst := h.stored hp
    refine ⟨hst.behind, hst.caching, hst.place.imp_left fun ⟨hlog, hpl⟩ => ⟨hlog, ?_⟩⟩
    exact hpl.imp_right (Or.imp_right fun hio => ⟨hio.1, rfl⟩)
  | cacheWrite h =>
    exact .cacheWrite { h with dev := fun i => { h.dev i with } }
  | computing h =>
    refine .computing { h with
      dev := fun i => { h.dev i with }
      place := h.place.imp_right fun ⟨hres, hpl⟩ => ?_ }
    exact ⟨hres, hpl.imp_right (Or.imp_right fun hio => ⟨hio.1, rfl⟩)⟩
  | flagged h =>
    exact .flagged { h with dev := fun i => { h.dev i with } }
  | logged h =>
    exact .logged { h with dev := fun i => { h.dev i with } }
  | storing h =>
    exact .storing { h with dev := fun i => { h.dev i with } }

theorem StripeOk.withRequests (h : StripeOk wb inList logIo st) {towrite : Fin d → Nat}
    (hmore : ∀ i, 0 < (st.dev i).towrite → 0 < towrite i) (overwrite : Fin d → Bool) (sync : Bool) :
    StripeOk wb inList logIo (st.withRequests towrite overwrite sync) :=
  { h with phase := h.phase.withRequests hmore overwrite sync }

/-! ## Queueing the stripe -/

/-- The stripe on the list of stripes to handle. -/
def StripeHead.requeued (st : StripeHead d) (caching : Bool) : StripeHead d :=
  { st with caching := caching, handle := true, place := .handleList }

/-- The stripe may go back on the list of stripes to handle. -/
structure Requeueable (st : StripeHead d) : Prop where
  finishing : ∀ s, st.place ≠ .handling (.finishing s)
  logging : st.place ≠ .logging
  memberWrites : st.place ≠ .memberWrites
  computed : st.reconstruct ≠ .drainRun
  flagged : st.parity = ⟨true, true, false⟩ → st.logTrapped = true

variable {s : HeadState} {caching : Bool} {dev : Dev}

theorem Quiet.requeue (h : Quiet inList logIo st) (hplace : ∀ s, st.place ≠ .handling
    (.finishing s))
    (hc : caching → st.caching) : Quiet inList logIo (st.requeued caching) :=
  { h with
    caching := fun hcaching => h.caching (hc hcaching)
    place := trivial
    returned := fun hr => hr.elim
    asked := fun s hs => by rcases hs with hs | hs | hs <;> cases hs
    stored := fun hp => by
      obtain ⟨hbehind, hcaching, hpl⟩ := h.stored hp
      refine ⟨hbehind, eq_false_iff.mpr fun ht => ?_, ?_⟩
      · cases hcaching.symm.trans (hc ht)
      · rcases hpl with ⟨hlog, -⟩ | ⟨s, hs⟩
        · exact .inl ⟨hlog, .inl rfl⟩
        · exact absurd hs (hplace s) }

theorem Phase.requeue (h : Phase wb inList logIo st) (hq : Requeueable st)
    (hc : caching → st.caching) : Phase wb inList logIo (st.requeued caching) := by
  have hoff : st.caching = false → caching = false := fun hf =>
    eq_false_iff.mpr fun ht => (by cases hf.symm.trans (hc ht))
  cases h with
  | quiet h => exact .quiet (h.requeue hq.finishing hc)
  | cacheWrite h =>
    refine .cacheWrite { h with place := ?_ }
    rcases h.place with ⟨hlog, -⟩ | ⟨hlog, -⟩
    · exact .inl ⟨hlog, .inl rfl⟩
    · exact absurd hlog hq.logging
  | computing h =>
    refine .computing ⟨h.dev, h.some, h.trapped, h.parity, hoff h.caching, h.logIo, ?_⟩
    rcases h.place with ⟨hrun, -⟩ | ⟨hres, -⟩
    · exact absurd hrun hq.computed
    · exact .inr ⟨hres, .inl rfl⟩
  | flagged h =>
    have htrapped := hq.flagged h.parity
    refine .flagged { h with caching := hoff h.caching, place := ?_ }
    rcases h.place with ⟨hlog, -⟩ | ⟨-, hlog⟩
    · exact .inl ⟨hlog, .inr (.inr ⟨htrapped, .inr rfl⟩)⟩
    · exact absurd hlog hq.logging
  | logged h =>
    exact .logged ⟨h.dev, h.reconstruct, h.trapped, h.parity, hoff h.caching, h.logIo, .inl rfl⟩
  | storing h => exact absurd h.place hq.memberWrites

theorem StripeOk.requeue (h : StripeOk wb inList logIo st) (hq : Requeueable st)
    (hc : caching → st.caching) : StripeOk wb inList logIo (st.requeued caching) :=
  { h with
    cached := by rintro (hp | hp) <;> cases hp
    phase := h.phase.requeue hq hc }

/-! ## What the place says -/

/-- What a place outside the lists says of the phase. -/
def Place.Says (wb : Bool) (inList : Prop) (logIo : Option Nat) (st : StripeHead d) : Place → Prop
  | .logging => (CacheWrite wb inList logIo st ∧ inList) ∨ (Flagged logIo st ∧ st.logTrapped)
  | .memberWrites => Storing logIo st
  | .opsRunning => Computing logIo st
  | .handling (.returning _) => Quiet inList logIo st ∨ Computing logIo st
  | .handling (.finishing s) | .handling (.writing s) => Quiet inList logIo st ∨
      (Flagged logIo st ∧ logIo = none ∧ (s.written ∨ 0 < st.injournal))
  | _ => True

theorem Phase.says (h : Phase wb inList logIo st) : Place.Says wb inList logIo st st.place := by
  cases h with
  | quiet hq =>
    have hrest := hq.place
    cases hp : st.place with
    | opsRunning | logging | memberWrites =>
      rw [hp] at hrest
      exact hrest.elim
    | handling point =>
      cases point with
      | io => trivial
      | returning | finishing | writing => exact .inl hq
    | _ => trivial
  | cacheWrite hw =>
    rcases hw.place with ⟨-, hp | hp | hp⟩ | ⟨hp, -, hin⟩ <;> rw [hp]
    · trivial
    · trivial
    · trivial
    · exact .inl ⟨hw, hin⟩
  | computing hw =>
    rcases hw.place with ⟨-, hp | hp⟩ | ⟨-, hp | ⟨s, hp, -⟩ | ⟨hp, -⟩⟩ <;> rw [hp]
    · trivial
    · exact hw
    · trivial
    · exact .inr hw
    · trivial
  | flagged hf =>
    rcases hf.place with ⟨hlog, ⟨s, hp | hp, hw⟩ | hp | ⟨-, hp | hp⟩⟩ | ⟨htrapped, hp⟩ <;> rw [hp]
    · exact .inr ⟨hf, hlog, hw⟩
    · exact .inr ⟨hf, hlog, hw⟩
    · trivial
    · trivial
    · trivial
    · exact .inr ⟨hf, htrapped⟩
  | logged hl => rcases hl.place with hp | hp <;> rw [hp] <;> trivial
  | storing hs =>
    rw [hs.place]
    exact hs

theorem StripeOk.says (h : StripeOk wb inList logIo st) {p : Place} (hplace : st.place = p) :
    p.Says wb inList logIo st :=
  hplace ▸ h.phase.says

/-- Where a stripe waits to be handled. -/
def Place.Waiting : Place → Prop
  | .inactiveList | .handleList | .fullStripeList | .partialStripeList | .noSpace => True
  | .handling _ | .opsRunning | .logging | .memberWrites => False

theorem StripeOk.requeueable (h : StripeOk wb inList logIo st) (hplace : st.place.Waiting) :
    Requeueable st := by
  have hne : ∀ {p : Place}, st.place = p → p.Waiting := fun hp => hp ▸ hplace
  refine ⟨fun s hp => (hne hp).elim, fun hp => (hne hp).elim, fun hp => (hne hp).elim,
    fun hrun => ?_, fun hpar => ?_⟩
  · cases h.phase with
    | computing hw =>
      rcases hw.place with ⟨-, hp | hp⟩ | ⟨hres, -⟩
      · exact (hne hp).elim
      · exact (hne hp).elim
      · cases hrun.symm.trans hres
    | quiet hq => cases hrun.symm.trans hq.reconstruct
    | cacheWrite hw => cases hrun.symm.trans hw.reconstruct
    | flagged hf => cases hrun.symm.trans hf.reconstruct
    | logged hl => cases hrun.symm.trans hl.reconstruct
    | storing hs => cases hrun.symm.trans hs.reconstruct
  · have hwant : st.parity.wantwrite := congrArg Parity.wantwrite hpar
    cases h.phase with
    | flagged hf =>
      rcases hf.place with ⟨-, ⟨s, hp | hp, -⟩ | hp | ⟨htrapped, -⟩⟩ | ⟨htrapped, -⟩
      · exact (hne hp).elim
      · exact (hne hp).elim
      · exact (hne hp).elim
      · exact htrapped
      · exact htrapped
    | logged hl => exact hl.trapped
    | cacheWrite hw => exact hw.trapped
    | quiet hq => cases hq.parityWantwrite.symm.trans hwant
    | computing hw => cases (congrArg Parity.wantwrite hw.parity).symm.trans hwant
    | storing hs => cases hs.parityWantwrite.symm.trans hwant

/-- In write-through mode a stripe in its caching phase is on the list. -/
theorem StripeOk.of_caching (h : StripeOk wb inList logIo st) (hc : st.caching) : wb ∨ inList := by
  cases h.phase with
  | quiet hq => exact .inr (hq.caching hc)
  | cacheWrite hw => exact .inl hw.mode
  | computing hw => cases hw.caching.symm.trans hc
  | flagged hf => cases hf.caching.symm.trans hc
  | logged hl => cases hl.caching.symm.trans hc
  | storing hs => cases hs.caching.symm.trans hc

/-! ## The parts of `handle_stripe` -/

/-- The stripe is taken up: its requests are counted, unless it waits for the log. -/
def StripeHead.takenUp (st : StripeHead d) (blocked : Bool) : StripeHead d :=
  let sync := st.syncRequested && !st.partialStripe && !st.fullStripe
  { st with
    syncRequested := st.syncRequested && !sync
    syncing := st.syncing || sync
    handle := blocked && !st.logTrapped
    place := .handling (if st.logTrapped || blocked then .io else .returning st.analyse) }

theorem Phase.takenUp (h : Phase wb inList logIo st) (hplace : st.place = .handleList)
    (blocked : Bool) : Phase wb inList logIo (st.takenUp blocked) := by
  cases h with
  | quiet h =>
    cases blocked with
    | false =>
      have hpl : (st.takenUp false).place = .handling (.returning st.analyse) := by
        simp [StripeHead.takenUp, h.trapped]
      refine .quiet { h with
        place := ?_
        returned := fun hr => ?_
        asked := fun s hs ht => ?_
        stored := fun hp => ?_ }
      · rw [hpl]
        trivial
      · rw [hpl] at hr
        exact hr.elim
      · rw [hpl] at hs
        rcases hs with hs | hs | hs <;> cases hs
        exact of_decide_eq_true ht
      · obtain ⟨hbehind, hcaching, hold⟩ := h.stored hp
        refine ⟨hbehind, hcaching, ?_⟩
        rcases hold with ⟨hlog, -⟩ | ⟨s, hs⟩
        · exact .inl ⟨hlog, .inr (.inl ⟨_, hpl⟩)⟩
        · cases hplace.symm.trans hs
    | true =>
      have hpl : (st.takenUp true).place = .handling .io := by simp [StripeHead.takenUp]
      have hhandle : (st.takenUp true).handle := by simp [StripeHead.takenUp, h.trapped]
      refine .quiet { h with
        place := ?_
        returned := fun hr => ?_
        asked := fun s hs => ?_
        stored := fun hp => ?_ }
      · rw [hpl]
        trivial
      · rw [hpl] at hr
        exact hr.elim
      · rw [hpl] at hs
        rcases hs with hs | hs | hs <;> cases hs
      · obtain ⟨hbehind, hcaching, hold⟩ := h.stored hp
        refine ⟨hbehind, hcaching, ?_⟩
        rcases hold with ⟨hlog, -⟩ | ⟨s, hs⟩
        · exact .inl ⟨hlog, .inr (.inr ⟨hpl, hhandle⟩)⟩
        · cases hplace.symm.trans hs
  | cacheWrite h =>
    refine .cacheWrite { h with place := ?_ }
    rcases h.place with ⟨hlog, -⟩ | ⟨hlog, -⟩
    · exact .inl ⟨hlog, .inr (.inl (by simp [StripeHead.takenUp, h.trapped]))⟩
    · cases hplace.symm.trans hlog
  | computing h =>
    refine .computing ⟨h.dev, h.some, h.trapped, h.parity, h.caching, h.logIo, ?_⟩
    rcases h.place with ⟨-, hpl | hpl⟩ | ⟨hres, -⟩
    · cases hplace.symm.trans hpl
    · cases hplace.symm.trans hpl
    · refine .inr ⟨hres, .inr ?_⟩
      cases blocked with
      | false =>
        refine .inl ⟨st.analyse, by simp [StripeHead.takenUp, h.trapped], fun i hi => ?_⟩
        exact decide_eq_true ⟨i, hi⟩
      | true => exact .inr (by simp [StripeHead.takenUp, h.trapped])
  | flagged h =>
    refine .flagged { h with place := ?_ }
    rcases h.place with ⟨hlog, ⟨s, hs | hs, -⟩ | hio | ⟨htrapped, -⟩⟩ | ⟨-, hlog⟩
    · cases hplace.symm.trans hs
    · cases hplace.symm.trans hs
    · cases hplace.symm.trans hio
    · exact .inl ⟨hlog, .inr (.inl (by simp [StripeHead.takenUp, htrapped]))⟩
    · cases hplace.symm.trans hlog
  | logged h =>
    refine .logged { h with place := .inr ?_ }
    simp [StripeHead.takenUp, h.trapped]
  | storing h => cases hplace.symm.trans h.place

theorem StripeOk.takenUp (h : StripeOk wb inList logIo st) (hplace : st.place = .handleList)
    (blocked : Bool) : StripeOk wb inList logIo (st.takenUp blocked) :=
  { h with
    cached := by rintro (hp | hp) <;> cases hp
    phase := h.phase.takenUp hplace blocked }

/-- With no result of a computation to take over, only requests are returned. -/
theorem returnRequests_of_idle (hidle : st.reconstruct = .idle) (clean : Bool) :
    ∃ w : Fin d → Nat, returnRequests st clean =
        { st with dev := fun i => { st.dev i with written := w i } } ∧
      ∀ i, (st.dev i).inJournal → w i = 0 := by
  have hdone : reconstructDone st = st := by
    rw [reconstructDone, if_neg]
    rw [hidle]
    simp
  by_cases hjust : ∃ i, (st.dev i).inJournal ∧ 0 < (st.dev i).written
  · refine ⟨fun _ => 0, ?_, fun _ _ => rfl⟩
    simp only [returnRequests, hdone, hjust, decide_true, if_true]
    split_ifs
    · simp only [r5cHandleCachedDataEndio, handleStripeCleanEvent, mapDev]
      congr 1
      funext i
      split_ifs <;> rfl
    · rfl
  · have hzero : ∀ i, (st.dev i).inJournal → (st.dev i).written = 0 := fun i hi =>
      Nat.eq_zero_of_not_pos fun hpos => hjust ⟨i, hi, hpos⟩
    simp only [returnRequests, hdone, hjust, decide_false, false_eq_true, if_false]
    split_ifs
    · refine ⟨fun i => if (st.dev i).locked then (st.dev i).written else 0, ?_, fun i hi => ?_⟩
      · simp only [handleStripeCleanEvent, mapDev]
        congr 1
        funext i
        split_ifs <;> rfl
      · simp only
        split_ifs
        · exact hzero i hi
        · rfl
    · exact ⟨fun i => (st.dev i).written, rfl, hzero⟩

theorem Quiet.returned_requests (h : Quiet inList logIo st)
    (hplace : st.place = .handling (.returning s)) (clean : Bool) :
    Quiet inList none { returnRequests st clean with place := .handling (.finishing s) } := by
  obtain ⟨w, heq, hw⟩ := returnRequests_of_idle h.reconstruct clean
  rw [heq]
  refine ⟨fun i => { h.dev i with }, h.reconstruct, h.trapped,
    h.parityWantwrite, h.parityLocked, h.caching, trivial, fun _ => hw, fun s' hs ht => ?_,
    fun hp => ?_⟩
  · rcases hs with hs | hs | hs <;> cases hs
    exact h.asked s (.inl hplace) ht
  · exact ⟨(h.stored hp).behind, (h.stored hp).caching, .inr ⟨s, rfl⟩⟩

theorem Computing.of_returning (h : Computing logIo st)
    (hplace : st.place = .handling (.returning s)) :
    st.reconstruct = .drainResult ∧ ∀ i, 0 < (st.dev i).written → s.written := by
  rcases h.place with ⟨-, hpl | hpl⟩ | ⟨hres, hpl | ⟨s', hpl, hw⟩ | ⟨hpl, -⟩⟩
  · cases hplace.symm.trans hpl
  · cases hplace.symm.trans hpl
  · cases hplace.symm.trans hpl
  · obtain rfl : s = s' := by cases hplace.symm.trans hpl; rfl
    exact ⟨hres, hw⟩
  · cases hplace.symm.trans hpl

/-- The result of the computation is flagged for writing; the parity is locked, so no request
is returned. -/
theorem Computing.returnRequests (h : Computing logIo st) (hres : st.reconstruct = .drainResult)
    (clean : Bool) : returnRequests st clean = { st with
        dev := fun i => if (st.dev i).locked then { st.dev i with wantwrite := true } else st.dev i
        reconstruct := .idle
        parity := ⟨true, true, false⟩ } := by
  have hjust : ¬ ∃ i, (st.dev i).inJournal ∧ 0 < (st.dev i).written := by
    rintro ⟨i, hi, hpos⟩
    exact absurd ((h.dev i).returned hi) (ne_of_gt hpos)
  simp only [WriteBack.returnRequests, reconstructDone, hres, if_true, hjust, decide_false,
    Bool.false_eq_true, if_false, h.parity, Bool.not_true, Bool.and_false, Bool.or_true,
    mapDev]
  congr 1
  funext i
  by_cases hl : (st.dev i).locked
  · rcases (h.dev i).locked hl with hw | hj
    · simp [hl, hw]
    · simp [hl, hj]
  · simp [hl]

theorem Computing.flag (h : Computing logIo st)
    (hplace : st.place = .handling (.returning s)) (clean : Bool) :
    Flagged logIo { WriteBack.returnRequests st clean with place := .handling (.finishing s) } := by
  obtain ⟨hres, hwritten⟩ := h.of_returning hplace
  rw [h.returnRequests hres clean]
  refine ⟨fun i => ?_, ?_, rfl, rfl, h.caching, .inl ⟨h.logIo, .inl ⟨s, .inl rfl, ?_⟩⟩⟩
  · have hdev := h.dev i
    by_cases hl : (st.dev i).locked
    · simp only [hl, if_true]
      exact ⟨hdev.writing, fun _ => hdev.locked hl, fun _ => rfl, fun _ => rfl⟩
    · simp only [hl]
      exact ⟨hdev.writing, fun hw => (by cases hdev.wantwrite.symm.trans hw),
        fun hc => absurd hc hl, fun hb => absurd (hdev.behind hb) hl⟩
  · obtain ⟨i, hi⟩ := h.some
    exact ⟨i, by simp [hi]⟩
  · obtain ⟨i, hi⟩ := h.some
    rcases (h.dev i).locked hi with hw | hj
    · exact .inl (hwritten i hw)
    · refine .inr (Nat.add_pos_left (countP_pos_iff.mpr ⟨i, mem_finRange i, ?_⟩) _)
      simp [hi, hj]

/-- The requests are returned and the stripe leaves its unit. -/
theorem StripeOk.returned_requests (h : StripeOk wb inList logIo st)
    (hplace : st.place = .handling (.returning s)) (hthrough : wb = false → ¬ inList)
    (clean : Bool) :
    StripeOk wb inList none { returnRequests st clean with place := .handling (.finishing s) } := by
  have hnocache : ∀ {p : Place}, p = .handling (.finishing s) →
      p = .fullStripeList ∨ p = .partialStripeList → inList := by
    rintro p rfl (hp | hp) <;> cases hp
  rcases h.says hplace with hq | hc
  · obtain ⟨w, heq, -⟩ := returnRequests_of_idle hq.reconstruct clean
    refine ⟨?_, hnocache rfl, ?_, ?_, .quiet (hq.returned_requests hplace clean)⟩
    · rw [heq]
      exact h.journaled
    · rw [heq]
      exact h.back
    · rw [heq]
      intro hwb i u hu
      have hj := (hq.dev i).behind (ne_nil_of_mem hu)
      exact absurd (h.journaled i hj) (hthrough hwb)
  · have hf := hc.flag hplace clean
    have hlog := hc.logIo
    subst hlog
    have hsame : ∀ i, ((returnRequests st clean).dev i).inJournal = (st.dev i).inJournal ∧
        ((returnRequests st clean).dev i).behind = (st.dev i).behind := by
      intro i
      rw [hc.returnRequests (hc.of_returning hplace).1 clean]
      dsimp only
      split_ifs
      · exact ⟨rfl, rfl⟩
      · exact ⟨rfl, rfl⟩
    refine ⟨fun i hi => h.journaled i ((hsame i).1 ▸ hi), hnocache rfl,
      fun hwb i hi => h.back hwb i ((hsame i).2 ▸ hi),
      fun hwb i u hu => h.through hwb i u ((hsame i).2 ▸ hu), .flagged hf⟩

/-! ## Cleaning up -/

/-- The stripe past `r5c_finish_stripe_write_out`, with what that leaves of its parity. -/
def StripeHead.cleaned (st : StripeHead d) (s : HeadState) (caching handle : Bool) : StripeHead d :=
  { st with
    caching := caching, handle := handle
    parity := { st.parity with inJournal := false }
    place := .handling (.writing s) }

theorem Quiet.cleaned (h : Quiet inList logIo st) (hplace : st.place = .handling (.finishing s))
    (hc : caching → st.caching) (handle : Bool) :
    Quiet inList logIo (st.cleaned s caching handle) :=
  { h with
    caching := fun hcaching => h.caching (hc hcaching)
    place := trivial
    returned := fun _ => h.returned (by rw [hplace]; trivial)
    asked := fun s' hs ht => by
      rcases hs with hs | hs | hs <;> cases hs
      exact h.asked s (.inr (.inl hplace)) ht
    stored := by rintro ⟨⟩ }

section

variable (h : StripeOk wb inList logIo st) (hplace : st.place = .handling (.finishing s))

include h hplace

/-- Nothing was written out: the stripe goes on as it is. -/
theorem StripeOk.cleaned (hc : caching → st.caching) (handle : Bool) :
    StripeOk wb inList logIo (st.cleaned s caching handle) where
  journaled := h.journaled
  cached := by rintro (hp | hp) <;> cases hp
  back := h.back
  through := h.through
  phase := by
    rcases h.says hplace with hq | ⟨hf, hlog, hw⟩
    · exact .quiet (hq.cleaned hplace hc handle)
    · have hoff : caching = false :=
        eq_false_iff.mpr fun ht => (by cases hf.caching.symm.trans (hc ht))
      have hsame : st.parity = { st.parity with inJournal := false } := by rw [hf.parity]
      refine .flagged ⟨hf.dev, hf.flagged, hf.reconstruct, hsame.symm.trans hf.parity, hoff, ?_⟩
      refine .inl ⟨hlog, .inl ⟨s, .inr rfl, hw.imp_right fun hpos => ?_⟩⟩
      rwa [injournal, hf.parity] at hpos

/-- Data and parity have reached the member disks: the stripe leaves the list. -/
theorem StripeOk.stored_quiet (hp : st.parity.inJournal) : Quiet inList logIo st := by
  rcases h.says hplace with hq | ⟨hf, -⟩
  · exact hq
  · cases (congrArg Parity.inJournal hf.parity).symm.trans hp

theorem StripeOk.written_out (hp : st.parity.inJournal)
    (hc : caching → st.caching) (handle : Bool) : StripeOk wb False logIo
      (StripeHead.cleaned { st.mapDev fun dev => { dev with
        inJournal := false } with
        logStart := none, partialStripe := false, fullStripe := false } s caching handle) := by
  have hq := h.stored_quiet hplace hp
  have hst := hq.stored hp
  refine ⟨fun i hi => (by cases hi), fun hc => ?_, fun _ i hb => absurd (hst.behind i) hb,
    fun hwb i u hu => h.through hwb i u hu, .quiet ?_⟩
  · rcases hc with hc | hc <;> cases hc
  · refine ⟨fun i => { hq.dev i with behind := fun hb => absurd (hst.behind i) hb },
      hq.reconstruct, hq.trapped, hq.parityWantwrite, hq.parityLocked, fun ht => ?_, trivial,
      fun _ i hi => (by cases hi), fun s' hs ht => ?_, by rintro ⟨⟩⟩
    · cases hst.caching.symm.trans (hc ht)
    · rcases hs with hs | hs | hs <;> cases hs
      exact hq.asked s (.inr (.inl hplace)) ht

end

/-! ## New writes -/

/-- The stripe waits for its I/O. -/
def StripeHead.toIo (st : StripeHead d) (handle : Bool) : StripeHead d :=
  { st with handle := handle, place := .handling .io }

theorem StripeOk.of_writing (h : StripeOk wb inList logIo st)
    (hplace : st.place = .handling (.writing s)) :
    (Quiet inList logIo st ∧ st.parity.inJournal = false) ∨
      (Flagged logIo st ∧ logIo = none ∧ (s.written ∨ 0 < st.injournal)) := by
  rcases h.says hplace with hq | hf
  · refine .inl ⟨hq, eq_false_iff.mpr fun hp => ?_⟩
    rcases (hq.stored hp).place with ⟨-, hpl | ⟨s', hpl⟩ | ⟨hpl, -⟩⟩ | ⟨s', hpl⟩ <;>
      cases hplace.symm.trans hpl
  · exact .inr hf

theorem Quiet.toIo (h : Quiet inList logIo st) (hp : st.parity.inJournal = false)
    (hc : caching → st.caching) (handle : Bool) :
    Quiet inList logIo (toIo { st with caching := caching } handle) :=
  { h with
    caching := fun ht => h.caching (hc ht)
    place := trivial
    returned := fun hr => hr.elim
    asked := fun s hs => by rcases hs with hs | hs | hs <;> cases hs
    stored := fun hj => (by cases hp.symm.trans hj) }

theorem Flagged.toIo (h : Flagged logIo st) (hlog : logIo = none) (handle : Bool) :
    Flagged logIo (st.toIo handle) :=
  { h with place := .inl ⟨hlog, .inr (.inl rfl)⟩ }

/-- The stripe goes to its I/O without anything new. -/
theorem StripeOk.pass (h : StripeOk wb inList logIo st)
    (hplace : st.place = .handling (.writing s)) (handle : Bool) :
    StripeOk wb inList logIo (st.toIo handle) := by
  refine ⟨h.journaled, fun hc => ?_, h.back, h.through, ?_⟩
  · rcases hc with hc | hc <;> cases hc
  · rcases h.of_writing hplace with ⟨hq, hp⟩ | ⟨hf, hlog, -⟩
    · exact .quiet (hq.toIo hp (fun hc : st.caching = true => hc) handle)
    · exact .flagged (hf.toIo hlog handle)

/-- A computation starts, or there is nothing to write. -/
theorem Quiet.schedule (h : Quiet inList none st) (hp : st.parity.inJournal = false)
    (hreturned : st.place.Returned) (hc : st.caching = false) (drain : Fin d → Bool)
    (handle : Bool) :
    Quiet inList none ((scheduleReconstruction st drain).toIo handle) ∨
      Computing none ((scheduleReconstruction st drain).toIo handle) := by
  unfold scheduleReconstruction
  split_ifs with hany
  · refine .inr ⟨fun i => ?_, ?_, h.trapped, ?_, hc, rfl, .inl ⟨rfl, .inl rfl⟩⟩
    · have hdev := h.dev i
      dsimp only [StripeHead.toIo]
      split_ifs with hdrain hj
      · refine ⟨hdev.wantwrite, hdev.writing, fun _ => .inl ?_, by rintro ⟨⟩, fun _ => rfl⟩
        exact Nat.add_pos_right _ hdrain.1
      · exact ⟨hdev.wantwrite, hdev.writing, fun _ => .inr hj, fun _ => h.returned hreturned i hj,
          fun _ => rfl⟩
      · exact ⟨hdev.wantwrite, hdev.writing, fun hl => (by cases hdev.locked.symm.trans hl),
          fun hj' => absurd hj' hj, fun hb => absurd (hdev.behind hb) hj⟩
    · obtain ⟨i, hi⟩ := hany
      refine ⟨i, ?_⟩
      dsimp only [StripeHead.toIo]
      rcases hi with hi | hi
      · rw [if_pos hi]
      · split_ifs <;> rfl
    · simp [StripeHead.toIo, h.parityWantwrite, hp]
  · exact .inl (h.toIo hp (fun hc : st.caching = true => hc) handle)

/-- What a scheduled computation leaves alone. -/
theorem scheduleReconstruction_same (st : StripeHead d) (drain : Fin d → Bool) (i : Fin d) :
    (((scheduleReconstruction st drain).dev i).inJournal → (st.dev i).inJournal) ∧
      ((scheduleReconstruction st drain).dev i).behind = (st.dev i).behind := by
  unfold scheduleReconstruction
  split_ifs
  · dsimp only
    split_ifs with _ hj
    · exact ⟨by rintro ⟨⟩, rfl⟩
    · exact ⟨fun _ => hj, rfl⟩
    · exact ⟨id, rfl⟩
  · exact ⟨id, rfl⟩

theorem StripeOk.dirtied (h : StripeOk wb inList none st)
    (hplace : st.place = .handling (.writing s)) (hc : st.caching = false) (ready : Bool)
    (drain : Fin d → Bool) (handle : Bool) : StripeOk wb inList none
      ((if ready && !st.anyLocked then scheduleReconstruction st drain else st).toIo handle) := by
  have hnocache : ∀ {p : Place}, p = .handling .io →
      p = .fullStripeList ∨ p = .partialStripeList → inList := by
    rintro p rfl (hp | hp) <;> cases hp
  split_ifs with hready
  · have hsame := scheduleReconstruction_same st drain
    refine ⟨fun i hi => h.journaled i ((hsame i).1 hi), hnocache rfl,
      fun hwb i hb => h.back hwb i ((hsame i).2 ▸ hb),
      fun hwb i u hu => h.through hwb i u ((hsame i).2 ▸ hu), ?_⟩
    rcases h.of_writing hplace with ⟨hq, hp⟩ | ⟨hf, -⟩
    · rcases hq.schedule hp (by rw [hplace]; trivial) hc drain handle with hs | hs
      · exact .quiet hs
      · exact .computing hs
    · simp [anyLocked, hf.parity] at hready
  · exact h.pass hplace handle

theorem StripeOk.leave_caching (h : StripeOk wb inList logIo st)
    (hplace : st.place = .handling (.writing s)) :
    StripeOk wb inList logIo { st with caching := false } := by
  refine { h with phase := ?_ }
  rcases h.of_writing hplace with ⟨hq, hp⟩ | ⟨hf, -⟩
  · exact .quiet { hq with caching := by simp, stored := fun hj => (by cases hp.symm.trans hj) }
  · exact .flagged { hf with caching := rfl }

/-- The stripe drained for the log. -/
def StripeHead.drainedForLog (st : StripeHead d) : StripeHead d :=
  { st.mapDev fun dev =>
      if 0 < dev.towrite then { dev.drain with wantwrite := true, locked := true } else dev with
    caching := true
    partialStripe := st.partialStripe || !st.fullStripe
    logTrapped := st.logTrapped || decide (∃ i, 0 < (st.dev i).towrite) }

theorem drainedForLog_behind (st : StripeHead d) (i : Fin d) :
    ∀ u ∈ (st.drainedForLog.dev i).behind, u ∈ (st.dev i).behind := by
  intro u hu
  dsimp only [drainedForLog, mapDev] at hu
  split_ifs at hu <;> exact hu

theorem StripeOk.drainedForLog (h : StripeOk true inList none st)
    (hq : Quiet inList none st) (hp : st.parity.inJournal = false)
    (hask : ∃ i, 0 < (st.dev i).towrite) (handle : Bool) :
    StripeOk true inList none (st.drainedForLog.toIo handle) := by
  have hdev : ∀ i, (((st.drainedForLog.toIo handle).dev i).inJournal →
      (st.dev i).inJournal) ∧
      ((st.drainedForLog.toIo handle).dev i).behind = (st.dev i).behind ∧
      CacheDev ((st.drainedForLog.toIo handle).dev i) := by
    intro i
    have hi := hq.dev i
    dsimp only [StripeHead.toIo, StripeHead.drainedForLog, StripeHead.mapDev]
    split_ifs with hpos
    · refine ⟨by rintro ⟨⟩, rfl, hi.writing, fun _ => ⟨?_, rfl⟩, fun _ => rfl, fun _ => .inr rfl⟩
      exact Nat.add_pos_right _ hpos
    · exact ⟨id, rfl, hi.writing, fun hw => (by cases hi.wantwrite.symm.trans hw),
        fun hl => (by cases hi.locked.symm.trans hl), fun hb => .inl (hi.behind hb)⟩
  refine ⟨fun i hj => h.journaled i ((hdev i).1 hj), fun hc => ?_,
    fun hwb i hb => h.back hwb i ((hdev i).2.1 ▸ hb), by simp, .cacheWrite ?_⟩
  · rcases hc with hc | hc <;> cases hc
  · refine ⟨rfl, fun i => (hdev i).2.2, ?_, hq.reconstruct, ?_, ?_, .inl ⟨rfl, .inr (.inl rfl)⟩⟩
    · obtain ⟨i, hi⟩ := hask
      exact ⟨i, by simp [StripeHead.toIo, StripeHead.drainedForLog, StripeHead.mapDev, hi]⟩
    · simp [StripeHead.toIo, StripeHead.drainedForLog, hask]
    · have hw := hq.parityWantwrite
      have hl := hq.parityLocked
      show st.parity = _
      rw [show st.parity = ⟨st.parity.wantwrite, st.parity.locked, st.parity.inJournal⟩
        from rfl, hw, hl,
        hp]

/-! ## The log -/

/-- A stripe with something to log. -/
inductive ToLog (wb : Bool) (inList : Prop) (st : StripeHead d) : Prop where
  | data (h : CacheWrite wb inList none st) (hcaching : st.caching = true)
  | parity (h : Flagged none st) (htrapped : st.logTrapped = true)

/-- No space, or no memory: the stripe waits. -/
theorem StripeOk.wait (h : StripeOk wb inList none st) (hlog : ToLog wb inList st) :
    StripeOk wb inList none { st with place := .noSpace } :=
  { h with
    cached := by rintro (hp | hp) <;> cases hp
    phase := by
      cases hlog with
      | data hw _ =>
        exact .cacheWrite { hw with place := .inl ⟨rfl, .inr (.inr rfl)⟩ }
      | parity hf htrapped =>
        exact .flagged { hf with place := .inl ⟨rfl, .inr (.inr ⟨htrapped, .inl rfl⟩)⟩ } }

/-- The pages of unit `u` that hold data of the device. -/
def Dev.loggedIn (u : Nat) (dev : Dev) : Dev :=
  if dev.wantwrite && !dev.inJournal then { dev with behind := dev.behind ++ [u] } else dev

def StripeHead.loggedIn (st : StripeHead d) (u : Nat) (logStart : Option Pos) : StripeHead d :=
  { st.mapDev (Dev.loggedIn u) with logStart := logStart, place := .logging }

theorem Dev.loggedIn_same (u : Nat) (dev : Dev) :
    (dev.loggedIn u).wantwrite = dev.wantwrite ∧ (dev.loggedIn u).locked = dev.locked ∧
      (dev.loggedIn u).writing = dev.writing ∧ (dev.loggedIn u).inJournal = dev.inJournal ∧
      (dev.loggedIn u).written = dev.written := by
  unfold loggedIn
  split_ifs <;> exact ⟨rfl, rfl, rfl, rfl, rfl⟩

theorem Dev.loggedIn_behind {u v : Nat} (hv : v ∈ (dev.loggedIn u).behind) :
    v ∈ dev.behind ∨ dev.wantwrite ∧ v = u := by
  unfold loggedIn at hv
  split_ifs at hv with hw
  · rcases mem_append.mp hv with hv | hv
    · exact .inl hv
    · exact .inr ⟨(and_eq_true_iff.mp hw).1, mem_singleton.mp hv⟩
  · exact .inl hv

theorem Dev.loggedIn_behind_ne_nil {u : Nat} (hb : (dev.loggedIn u).behind ≠ []) :
    dev.behind ≠ [] ∨ dev.wantwrite := by
  obtain ⟨v, hv⟩ := exists_mem_of_ne_nil _ hb
  exact (loggedIn_behind hv).imp ne_nil_of_mem And.left

theorem CacheDev.loggedIn (h : CacheDev dev) (u : Nat) : CacheDev (dev.loggedIn u) := by
  obtain ⟨hwant, hlocked, hwriting, hin, hwritten⟩ := loggedIn_same u dev
  refine ⟨hwriting.trans h.writing, ?_, ?_, fun hb => ?_⟩
  · rw [hwant, hwritten, hin]
    exact h.drained
  · rw [hwant, hlocked]
    exact h.locked
  · rw [hwant, hin]
    exact (loggedIn_behind_ne_nil hb).elim h.behind .inr

theorem FlaggedDev.loggedIn (h : FlaggedDev dev) (u : Nat) : FlaggedDev (dev.loggedIn u) := by
  obtain ⟨hwant, hlocked, hwriting, hin, hwritten⟩ := loggedIn_same u dev
  refine ⟨hwriting.trans h.writing, ?_, ?_, fun hb => ?_⟩
  · rw [hwant, hwritten, hin]
    exact h.wantwrite
  · rw [hwant, hlocked]
    exact h.locked
  · rw [hwant]
    exact (loggedIn_behind_ne_nil hb).elim h.behind id

/-- The stripe is in unit `u`; in write-back mode it is on the list from now on. -/
theorem StripeOk.loggedIn (h : StripeOk wb inList none st) (hlog : ToLog wb inList st) (u : Nat)
    (logStart : Option Pos) {inList' : Prop} (hkeep : inList → inList') (hback : wb → inList') :
    StripeOk wb inList' (some u) (st.loggedIn u logStart) where
  journaled := fun i hi => hkeep (h.journaled i ((Dev.loggedIn_same u (st.dev i)).2.2.2.1 ▸ hi))
  cached := by rintro (hp | hp) <;> cases hp
  back := fun hwb _ _ => hback hwb
  through := fun hwb i v hv => by
    rcases Dev.loggedIn_behind hv with hv | ⟨-, rfl⟩
    · cases h.through hwb i v hv
    · rfl
  phase := by
    cases hlog with
    | data hw hcaching =>
      refine .cacheWrite ⟨hw.mode, fun i => (hw.dev i).loggedIn u, ?_, hw.reconstruct, hw.trapped,
        hw.parity, .inr ⟨rfl, hcaching, hback hw.mode⟩⟩
      exact hw.drained.imp fun i hi => (Dev.loggedIn_same u (st.dev i)).1.trans hi
    | parity hf htrapped =>
      refine .flagged ⟨fun i => (hf.dev i).loggedIn u, ?_, hf.reconstruct, hf.parity, hf.caching,
        .inr ⟨htrapped, rfl⟩⟩
      exact hf.flagged.imp fun i hi => (Dev.loggedIn_same u (st.dev i)).1.trans hi

/-! ## Writes to the member disks -/

def Dev.issued (dev : Dev) : Dev :=
  if dev.wantwrite then { dev with wantwrite := false, writing := true } else dev

def StripeHead.issued (st : StripeHead d) : StripeHead d :=
  { st.mapDev Dev.issued with
    logTrapped := false
    parity := { st.parity with wantwrite := false }
    place := .memberWrites }

theorem Dev.issued_same (dev : Dev) :
    dev.issued.inJournal = dev.inJournal ∧ dev.issued.behind = dev.behind := by
  unfold issued
  split_ifs <;> exact ⟨rfl, rfl⟩

theorem storingDev_issued {all : Bool} (hwriting : dev.writing = false)
    (hwant : dev.wantwrite → 0 < dev.written ∨ dev.inJournal) (hlocked : dev.locked → dev.wantwrite)
    (hbehind : dev.behind ≠ [] → dev.wantwrite ∨ all = false ∧ dev.inJournal) :
    StoringDev all dev.issued := by
  unfold Dev.issued
  split_ifs with hw
  · exact ⟨rfl, fun _ => rfl, fun _ => hwant hw, fun _ => .inl rfl⟩
  · refine ⟨eq_false_iff.mpr hw, fun hl => absurd (hlocked hl) hw,
      fun hc => (by cases hwriting.symm.trans hc), fun hb => ?_⟩
    exact .inr ((hbehind hb).resolve_left hw)

theorem FlaggedDev.issued (h : FlaggedDev dev) (all : Bool) : StoringDev all dev.issued :=
  storingDev_issued h.writing h.wantwrite h.locked fun hb => .inl (h.behind hb)

theorem CacheDev.issued (h : CacheDev dev) : StoringDev false dev.issued :=
  storingDev_issued h.writing (fun hw => .inl (h.drained hw).1) h.locked fun hb =>
    (h.behind hb).symm.imp_right fun hj => ⟨rfl, hj⟩

theorem StripeOk.of_storing (h : StripeOk wb inList logIo st) (hs : Storing logIo st.issued) :
    StripeOk wb inList logIo st.issued where
  journaled := fun i hi => h.journaled i ((Dev.issued_same (st.dev i)).1 ▸ hi)
  cached := by rintro (hp | hp) <;> cases hp
  back := fun hwb i hb => h.back hwb i ((Dev.issued_same (st.dev i)).2 ▸ hb)
  through := fun hwb i u hu => h.through hwb i u ((Dev.issued_same (st.dev i)).2 ▸ hu)
  phase := .storing hs

theorem Flagged.issue (h : Flagged logIo st) : Storing logIo st.issued where
  dev := fun i => (h.dev i).issued _
  reconstruct := h.reconstruct
  trapped := rfl
  parityWantwrite := rfl
  caching := h.caching
  logIo := fun hp => (by cases (congrArg Parity.inJournal h.parity).symm.trans hp)
  place := rfl

theorem Logged.issue (h : Logged logIo st) : Storing logIo st.issued where
  dev := fun i => (h.dev i).issued _
  reconstruct := h.reconstruct
  trapped := rfl
  parityWantwrite := rfl
  caching := h.caching
  logIo := fun _ => h.logIo
  place := rfl

/-- A sync took the stripe out of its caching phase while it waited for the log: its data is
written, its parity is not. -/
theorem CacheWrite.issue (h : CacheWrite wb inList logIo st) (hcaching : st.caching = false) :
    Storing logIo st.issued where
  dev := fun i => by
    have hp : st.issued.parity.inJournal = false := congrArg Parity.inJournal h.parity
    rw [hp]
    exact (h.dev i).issued
  reconstruct := h.reconstruct
  trapped := rfl
  parityWantwrite := rfl
  caching := hcaching
  logIo := fun hp => (by cases (congrArg Parity.inJournal h.parity).symm.trans hp)
  place := rfl

/-! ## The stripe comes back -/

theorem dataCached_behind (st : StripeHead d) (i : Fin d) :
    ∀ u ∈ ((r5cHandleDataCached st).dev i).behind, u ∈ (st.dev i).behind := by
  intro u hu
  dsimp only [r5cHandleDataCached, mapDev] at hu
  split_ifs at hu <;> exact hu

theorem parityCached_behind (cached : Bool) (st : StripeHead d) (i : Fin d) :
    ∀ u ∈ ((if cached then r5cHandleParityCached st else st).dev i).behind, u ∈
      (st.dev i).behind := by
  intro u hu
  cases cached
  · exact hu
  · simp only [if_true, r5cHandleParityCached, mapDev] at hu
    split_ifs at hu <;> exact hu

/-- The log holds the drained data. -/
theorem CacheWrite.dataCached (hw : CacheWrite wb inList logIo st) (hin : inList) (caching : Bool) :
    StripeOk wb inList logIo ((r5cHandleDataCached st).requeued caching) := by
  have hdev : ∀ i, QuietDev ((r5cHandleDataCached st).dev i) := by
    intro i
    have hi := hw.dev i
    dsimp only [r5cHandleDataCached, mapDev]
    split_ifs with hwant
    · exact ⟨rfl, rfl, hi.writing, fun _ => rfl⟩
    · exact ⟨eq_false_iff.mpr hwant, eq_false_iff.mpr fun hl => hwant (hi.locked hl),
        hi.writing, fun hb => (hi.behind hb).resolve_right hwant⟩
  refine ⟨fun _ _ => hin, fun _ => hin, fun _ _ _ => hin,
    fun hwb => (by cases hwb.symm.trans hw.mode), .quiet ?_⟩
  refine ⟨hdev, hw.reconstruct, rfl, congrArg Parity.wantwrite hw.parity,
    congrArg Parity.locked hw.parity, fun _ => hin, trivial, fun hr => hr.elim, fun s hs => ?_,
    fun hp => ?_⟩
  · rcases hs with hs | hs | hs <;> cases hs
  · cases (congrArg Parity.inJournal hw.parity).symm.trans hp

/-- The log holds the parity; `cached`: in write-back mode the data that was cached goes to
the member disks with it. -/
theorem StripeOk.parityCached (h : StripeOk wb inList logIo st) (hf : Flagged logIo st)
    (htrapped : st.logTrapped) (hlog : logIo ≠ none) (cached : Bool) : StripeOk wb inList logIo
      (requeued { if cached then r5cHandleParityCached st else st with
        parity := { st.parity with inJournal := true } } false) := by
  have hdev : ∀ i, FlaggedDev ((if cached then r5cHandleParityCached st else st).dev i) ∧
      ((if cached then r5cHandleParityCached st else st).dev i).inJournal = (st.dev i).inJournal ∧
      ((if cached then r5cHandleParityCached st else st).dev i).behind = (st.dev i).behind := by
    intro i
    have hi := hf.dev i
    cases cached
    · exact ⟨hi, rfl, rfl⟩
    · simp only [if_true, r5cHandleParityCached, mapDev]
      split_ifs with hj
      · exact ⟨⟨hi.writing, fun _ => .inr hj, fun _ => rfl, fun _ => rfl⟩, rfl, rfl⟩
      · exact ⟨hi, rfl, rfl⟩
  have hsame : ∀ {st' : StripeHead d}, st' = (if cached then r5cHandleParityCached st else st) →
      st'.reconstruct = .idle ∧ st'.logTrapped := by
    rintro st' rfl
    cases cached <;> exact ⟨hf.reconstruct, htrapped⟩
  refine ⟨fun i hi => h.journaled i ((hdev i).2.1 ▸ hi), fun hp => ?_,
    fun hwb i hb => h.back hwb i ((hdev i).2.2 ▸ hb),
    fun hwb i u hu => h.through hwb i u ((hdev i).2.2 ▸ hu), .logged ?_⟩
  · rcases hp with hp | hp <;> cases hp
  · refine ⟨fun i => (hdev i).1, (hsame rfl).1, (hsame rfl).2, ?_, rfl, hlog, .inl rfl⟩
    simp only [requeued, hf.parity]

/-- The stripe has its result. -/
theorem StripeOk.computed (h : StripeOk wb inList logIo st) (hplace : st.place = .opsRunning)
    (hc : caching → st.caching) :
    StripeOk wb inList logIo (requeued { st with reconstruct := .drainResult } caching) :=
  { h with
    cached := by rintro (hp | hp) <;> cases hp
    phase := by
      have hw : Computing logIo st := h.says hplace
      refine .computing ⟨hw.dev, hw.some, hw.trapped, hw.parity, ?_, hw.logIo, .inr ⟨rfl, .inl rfl⟩⟩
      exact eq_false_iff.mpr fun ht => (by cases hw.caching.symm.trans (hc ht)) }

/-- The writes to the member disks have ended. -/
def StripeHead.writesEnded (st : StripeHead d) : StripeHead d :=
  { st.mapDev fun dev =>
      if dev.writing then { dev with writing := false, locked := false, behind := [] } else dev with
    parity := { st.parity with locked := false }
    handle := true }

theorem writesEnded_behind (st : StripeHead d) (i : Fin d) :
    ∀ u ∈ (st.writesEnded.dev i).behind, u ∈ (st.dev i).behind := by
  intro u hu
  dsimp only [writesEnded, mapDev] at hu
  split_ifs at hu
  · exact absurd hu not_mem_nil
  · exact hu

theorem StripeOk.writesEnded (h : StripeOk wb inList logIo st) (hplace : st.place = .memberWrites)
    (hc : caching → st.caching) : StripeOk wb inList logIo (st.writesEnded.requeued caching) := by
  have hs : Storing logIo st := h.says hplace
  have hoff : caching = false :=
    eq_false_iff.mpr fun ht => (by cases hs.caching.symm.trans (hc ht))
  have hdev : ∀ i, QuietDev (st.writesEnded.dev i) ∧
      (st.writesEnded.dev i).inJournal = (st.dev i).inJournal ∧
      (∀ u ∈ (st.writesEnded.dev i).behind, u ∈ (st.dev i).behind) ∧
      ((st.writesEnded.dev i).behind ≠ [] → st.parity.inJournal = false) := by
    intro i
    have hi := hs.dev i
    dsimp only [StripeHead.writesEnded, StripeHead.mapDev]
    split_ifs with hw
    · exact ⟨⟨hi.wantwrite, rfl, rfl, fun hb => absurd rfl hb⟩, rfl,
        fun u hu => absurd hu not_mem_nil, fun hb => absurd rfl hb⟩
    · refine ⟨⟨hi.wantwrite, eq_false_iff.mpr fun hl => hw (hi.locked hl),
        eq_false_iff.mpr hw, fun hb => ((hi.behind hb).resolve_left hw).2⟩, rfl, fun _ hu => hu,
        fun hb => ((hi.behind hb).resolve_left hw).1⟩
  refine ⟨fun i hi => h.journaled i ((hdev i).2.1 ▸ hi), fun hp => ?_, fun hwb i hb => ?_,
    fun hwb i u hu => h.through hwb i u ((hdev i).2.2.1 u hu), .quiet ?_⟩
  · rcases hp with hp | hp <;> cases hp
  · obtain ⟨u, hu⟩ := exists_mem_of_ne_nil _ hb
    exact h.back hwb i (ne_nil_of_mem ((hdev i).2.2.1 u hu))
  · refine ⟨fun i => (hdev i).1, hs.reconstruct, hs.trapped, hs.parityWantwrite, rfl, fun ht => ?_,
      trivial, fun hr => hr.elim, fun s hs => ?_, fun hp => ⟨fun i => ?_, hoff, ?_⟩⟩
    · cases hoff.symm.trans ht
    · rcases hs with hs | hs | hs <;> cases hs
    · by_contra hb
      cases ((hdev i).2.2.2 hb).symm.trans hp
    · exact .inl ⟨hs.logIo hp, .inl rfl⟩

/-! ## The last reference -/

/-- Where `do_release_stripe` leaves the stripe. -/
inductive Released (wb : Bool) (st : StripeHead d) : StripeHead d → Prop where
  | requeued (caching : Bool) (hc : caching = true → st.caching = true) :
      Released wb st (st.requeued caching)
  | inactive (hh : st.handle = false) : Released wb st { st with place := .inactiveList }
  | full (hh : st.handle = false) (hwb : wb = true) (hin : st.injournal ≠ 0) :
      Released wb st { st with
        fullStripe := true, partialStripe := false, place := .fullStripeList }
  | notFull (hh : st.handle = false) (hwb : wb = true) (hin : st.injournal ≠ 0) :
      Released wb st { st with place := .partialStripeList }

theorem Released.of_handle {st' : StripeHead d} (h : Released wb st st') (hh : st.handle) :
    ∃ caching : Bool, (caching → st.caching) ∧ st' = st.requeued caching := by
  cases h with
  | requeued caching hc => exact ⟨caching, hc, rfl⟩
  | inactive hf => cases hf.symm.trans hh
  | full hf => cases hf.symm.trans hh
  | notFull hf => cases hf.symm.trans hh

theorem exists_inJournal (hp : st.parity.inJournal = false) (hin : st.injournal ≠ 0) :
    ∃ i, (st.dev i).inJournal := by
  rw [injournal, hp, toNat_false, add_zero] at hin
  obtain ⟨i, -, hi⟩ := List.countP_pos_iff.mp (Nat.pos_of_ne_zero hin)
  exact ⟨i, hi⟩

/-- Nothing is left to do for the stripe. -/
theorem StripeOk.settled (h : StripeOk wb inList logIo st) (hq : Quiet inList logIo st)
    (hp : st.parity.inJournal = false) {fullStripe partialStripe : Bool} {place : Place}
    (hplace : place = .inactiveList ∨ (place = .fullStripeList ∨ place =
    .partialStripeList) ∧ inList) :
    StripeOk wb inList logIo
      { st with fullStripe := fullStripe, partialStripe := partialStripe, place := place } :=
  { h with
    cached := fun hc => by
      rcases hplace with rfl | ⟨-, hin⟩
      · rcases hc with hc | hc <;> cases hc
      · exact hin
    phase := by
      have hnone : (∀ s, ¬ place.Analysed s) ∧ ¬ place.Returned ∧ place.Resting := by
        rcases hplace with rfl | ⟨rfl | rfl, -⟩ <;>
          refine ⟨?_, fun hr => hr, trivial⟩ <;> rintro s (hs | hs | hs) <;> cases hs
      exact .quiet { hq with
        place := hnone.2.2
        returned := fun hr => absurd hr hnone.2.1
        asked := fun s hs => absurd hs (hnone.1 s)
        stored := fun hj => (by cases hp.symm.trans hj) } }

/-- A stripe that was handled goes where its state says. -/
theorem StripeOk.released_io (h : StripeOk wb inList logIo st) {st' : StripeHead d}
    (hr : Released wb st st') (hplace : st.place = .handling .io)
    (hrun : st.reconstruct ≠ .drainRun)
    (hwant : st.parity.wantwrite = false) (htrapped : st.logTrapped = false) :
    StripeOk wb inList logIo st' := by
  have hsettled : st.handle = false → Quiet inList logIo st ∧ st.parity.inJournal = false := by
    intro hh
    cases h.phase with
    | quiet hq =>
      refine ⟨hq, eq_false_iff.mpr fun hp => ?_⟩
      rcases (hq.stored hp).place with ⟨-, hpl | ⟨s, hpl⟩ | ⟨-, hpl⟩⟩ | ⟨s, hpl⟩
      · cases hplace.symm.trans hpl
      · cases hplace.symm.trans hpl
      · cases hh.symm.trans hpl
      · cases hplace.symm.trans hpl
    | computing hw =>
      rcases hw.place with ⟨hres, -⟩ | ⟨-, hp | ⟨s', hp, -⟩ | ⟨-, hp⟩⟩
      · exact absurd hres hrun
      · cases hplace.symm.trans hp
      · cases hplace.symm.trans hp
      · cases hh.symm.trans hp
    | cacheWrite hw => cases htrapped.symm.trans hw.trapped
    | flagged hf => cases hwant.symm.trans (congrArg Parity.wantwrite hf.parity)
    | logged hl => cases htrapped.symm.trans hl.trapped
    | storing hs => cases hplace.symm.trans hs.place
  have hlisted : st.handle = false → st.injournal ≠ 0 → inList := fun hh hin => by
    obtain ⟨i, hi⟩ := exists_inJournal (hsettled hh).2 hin
    exact h.journaled i hi
  cases hr with
  | requeued caching hc =>
    refine h.requeue ⟨fun s hs => ?_, fun hs => ?_, fun hs => ?_, hrun, fun hp => ?_⟩ hc
    · cases hplace.symm.trans hs
    · cases hplace.symm.trans hs
    · cases hplace.symm.trans hs
    · cases hwant.symm.trans (congrArg Parity.wantwrite hp)
  | inactive hh => exact h.settled (hsettled hh).1 (hsettled hh).2 (.inl rfl)
  | full hh _ hin =>
    exact h.settled (hsettled hh).1 (hsettled hh).2 (.inr ⟨.inl rfl, hlisted hh hin⟩)
  | notFull hh _ hin =>
    exact h.settled (hsettled hh).1 (hsettled hh).2 (.inr ⟨.inr rfl, hlisted hh hin⟩)

/-! ## The mode -/

/-- A stripe with no request in it. -/
def StripeHead.Returned (st : StripeHead d) : Prop := ∀ i, (st.dev i).written = 0

theorem Phase.behind_inJournal (h : Phase wb inList logIo st) (hret : st.Returned) {i : Fin d}
    (hb : (st.dev i).behind ≠ []) : (st.dev i).inJournal := by
  have hnot : ¬ 0 < (st.dev i).written := by rw [hret i]; exact lt_irrefl 0
  cases h with
  | quiet h => exact (h.dev i).behind hb
  | cacheWrite h =>
    exact ((h.dev i).behind hb).resolve_right fun hw => hnot ((h.dev i).drained hw).1
  | computing h => exact ((h.dev i).locked ((h.dev i).behind hb)).resolve_left hnot
  | flagged h => exact ((h.dev i).wantwrite ((h.dev i).behind hb)).resolve_left hnot
  | logged h => exact ((h.dev i).wantwrite ((h.dev i).behind hb)).resolve_left hnot
  | storing h =>
    rcases (h.dev i).behind hb with hw | ⟨-, hj⟩
    · exact ((h.dev i).writing hw).resolve_left hnot
    · exact hj

theorem Phase.setMode (h : Phase wb inList logIo st) (hret : st.Returned) (wb' : Bool) :
    Phase wb' inList logIo st := by
  cases h with
  | quiet h => exact .quiet h
  | cacheWrite h =>
    obtain ⟨i, hi⟩ := h.drained
    exact absurd (hret i) (ne_of_gt ((h.dev i).drained hi).1)
  | computing h => exact .computing h
  | flagged h => exact .flagged h
  | logged h => exact .logged h
  | storing h => exact .storing h

/-- The mode can change under a stripe without requests, to write-through if the stripe has
no data in the journal. -/
theorem StripeOk.setMode (h : StripeOk wb inList logIo st) (hret : st.Returned) {wb' : Bool}
    (hthrough : wb' = false → ¬ inList) : StripeOk wb' inList logIo st where
  journaled := h.journaled
  cached := h.cached
  back := fun _ i hb => h.journaled i (h.phase.behind_inJournal hret hb)
  through := fun hwb i u hu => by
    have hj := h.phase.behind_inJournal hret (ne_nil_of_mem hu)
    exact absurd (h.journaled i hj) (hthrough hwb)
  phase := h.phase.setMode hret wb'

end MdRaid.Journal.WriteBack
