import MdRaid.Superblock.Events

/-!
# A failed device falls behind

Whatever happens between its steps, an update keeps the superblocks of the working
devices at the floor or above, and never brings the floor down. A device that failed is
left below the floor by the next update, unless that update is one that may leave the
spares alone and the device failed before its own count was taken back.
-/

namespace MdRaid.Superblock.Mddev

open Runs Function Option

variable {n : Nat}

/-! ## One device of an update -/

/-- What holds of a device while an update is written, with `devs` if a request stands and `turn`
if the device has had its turn. -/
structure WritingDev (events floor : Nat) (devs turn : Prop) (r : Rdev) : Prop where
  inFlight : ∀ v, r.pending = some v → v = events ∧ r.sbEvents = events
  kept : r.faulty = false → r.pending = none → r.sbEvents ≠ 0 → r.stored = r.sbEvents
  bound : r.stored ≤ events + 1
  failed : r.faulty = true → devs ∨ r.pending = none ∧ r.stored ≤ floor
  page : r.sbLoaded = 1 → r.sbPage = events
  given : r.faulty = false → r.sbLoaded = 1 → turn → r.sbEvents = events
  skipped : r.faulty = false → r.sbLoaded ≠ 1 → floor ≤ r.sbEvents ∧ r.stored ≤ events

section WritingDev

variable {s s' : Mddev n} {c c' : Call} (h : s.Writing c)

include h

theorem Writing.dev (i : Fin n) :
    WritingDev s.events s.floor s.sbFlags.changeDevs (i.val < c.next) (s.rdevs i) :=
  ⟨h.inFlight i, h.kept i, h.bound i, h.failed i, h.page i, h.given i, h.skipped i⟩

theorem Writing.of_dev (hpersistent : s'.persistent = s.persistent)
    (hrewrite : s'.sbFlags.needRewrite = s.sbFlags.needRewrite) (hevents : s'.events = s.events)
    (hdev : ∀ i, WritingDev s.events s'.floor s'.sbFlags.changeDevs (i.val < c'.next)
    (s'.rdevs i)) :
    s'.Writing c' := by
  rw [← hevents] at hdev
  exact ⟨hpersistent.trans h.persistent, hrewrite.trans h.noRewrite, hevents ▸ h.positive,
    fun i => (hdev i).inFlight, fun i => (hdev i).kept, fun i => (hdev i).bound,
    fun i => (hdev i).failed, fun i => (hdev i).page, fun i => (hdev i).given, fun i =>
      (hdev i).skipped⟩

end WritingDev

/-! ## Steps that only mark devices -/

/-- The counts and the call are as they were; a device may have been marked `Faulty`, and then
`MD_SB_CHANGE_DEVS` is set. -/
structure Kept (s s' : Mddev n) : Prop where
  persistent : s'.persistent = s.persistent
  needRewrite : s'.sbFlags.needRewrite = s.sbFlags.needRewrite
  events : s'.events = s.events
  canDecreaseEvents : s'.canDecreaseEvents = s.canDecreaseEvents
  call : s'.call = s.call
  changeDevs : s.sbFlags.changeDevs = true → s'.sbFlags.changeDevs = true
  rdev : ∀ i, ∃ d f, s'.rdevs i = { s.rdevs i with raidDisk := d, faulty := f }
  faulty : ∀ i, (s.rdevs i).faulty = true → (s'.rdevs i).faulty = true
  marked : ∀ i, (s'.rdevs i).faulty = true → (s.rdevs i).faulty = true ∨
    s'.sbFlags.changeDevs = true

section

variable (s : Mddev n)
include s

theorem kept_setFlags (f : SbFlags) (hrewrite : f.needRewrite = s.sbFlags.needRewrite)
    (hdevs : s.sbFlags.changeDevs → f.changeDevs) : s.Kept (s.setFlags f) :=
  ⟨rfl, hrewrite, rfl, rfl, rfl, hdevs, fun _ => ⟨_, _, rfl⟩, fun _ h => h, fun _ h => .inl h⟩

theorem kept_env : ∀ e, s.Kept (s.env e)
  | .request devs clean pending =>
    s.kept_setFlags _ rfl fun h => (by rw [h, Bool.or_true] : (devs || s.sbFlags.changeDevs))
  | .setInSync _ | .setRecoveryCp _ | .setDegraded _ | .setRdwr _ =>
    ⟨rfl, rfl, rfl, rfl, rfl, id, fun _ => ⟨_, _, rfl⟩, fun _ h => h, fun _ h => .inl h⟩
  | .setRaidDisk i raidDisk => by
    have hrdev : ∀ j, ∃ d, (s.env (.setRaidDisk i raidDisk)).rdevs j =
        { s.rdevs j with raidDisk := d } := by
      intro j
      by_cases hj : j = i
      · exact ⟨raidDisk, hj ▸ update_self ..⟩
      · exact ⟨(s.rdevs j).raidDisk, update_of_ne hj ..⟩
    refine ⟨rfl, rfl, rfl, rfl, rfl, id, fun j => ?_, fun j hf => ?_, fun j hf => ?_⟩
    · obtain ⟨d, hd⟩ := hrdev j
      exact ⟨d, _, hd⟩
    · obtain ⟨d, hd⟩ := hrdev j
      rw [hd]
      exact hf
    · obtain ⟨d, hd⟩ := hrdev j
      rw [hd] at hf
      exact .inl hf

theorem mdError_self (i : Fin n) :
    (s.mdError i).rdevs i = { s.rdevs i with faulty := true } := by
  unfold mdError
  split_ifs with hfaulty
  · rw [← hfaulty]
  · exact update_self i _ s.rdevs

theorem mdError_other {i j : Fin n} (hj : j ≠ i) : (s.mdError i).rdevs j = s.rdevs j := by
  unfold mdError
  split_ifs
  · rfl
  · exact update_of_ne hj ..

theorem mdError_sbFlags (i : Fin n) : (s.mdError i).sbFlags = if (s.rdevs i).faulty then s.sbFlags
      else { s.sbFlags with changeDevs := true, changePending := true } := by
  unfold mdError
  split_ifs <;> rfl

theorem kept_mdError (i : Fin n) : s.Kept (s.mdError i) := by
  have hrdev : ∀ j, ∃ f, (s.mdError i).rdevs j = { s.rdevs j with faulty := f } ∧
      ((s.rdevs j).faulty → f) := by
    intro j
    by_cases hj : j = i
    · subst hj
      exact ⟨true, s.mdError_self j, fun _ => rfl⟩
    · exact ⟨(s.rdevs j).faulty, s.mdError_other hj, id⟩
  have hsame : (s.mdError i).persistent = s.persistent ∧ (s.mdError i).events = s.events ∧
      (s.mdError i).canDecreaseEvents = s.canDecreaseEvents ∧ (s.mdError i).call = s.call := by
    unfold mdError
    split_ifs <;> exact ⟨rfl, rfl, rfl, rfl⟩
  have hflags := s.mdError_sbFlags i
  refine ⟨hsame.1, ?_, hsame.2.1, hsame.2.2.1, hsame.2.2.2, fun hdevs => ?_, fun j => ?_,
    fun j hf => ?_,
    fun j hf => ?_⟩
  · rw [hflags]
    split_ifs <;> rfl
  · rw [hflags]
    split_ifs
    · exact hdevs
    · rfl
  · obtain ⟨f, hr, -⟩ := hrdev j
    exact ⟨(s.rdevs j).raidDisk, f, hr⟩
  · obtain ⟨f, hr, hkeep⟩ := hrdev j
    rw [hr]
    exact hkeep hf
  · by_cases hj : j = i
    · subst hj
      rw [hflags]
      by_cases hfaulty : (s.rdevs j).faulty
      · exact .inl hfaulty
      · rw [if_neg hfaulty]
        exact .inr rfl
    · rw [s.mdError_other hj] at hf
      exact .inl hf

end

section Kept

variable {s s' : Mddev n} (k : s.Kept s')

include k

theorem Kept.fields (i : Fin n) : (s'.rdevs i).sbEvents = (s.rdevs i).sbEvents ∧
    (s'.rdevs i).sbLoaded = (s.rdevs i).sbLoaded ∧ (s'.rdevs i).sbPage = (s.rdevs i).sbPage ∧
    (s'.rdevs i).stored = (s.rdevs i).stored ∧ (s'.rdevs i).pending = (s.rdevs i).pending := by
  obtain ⟨d, f, hr⟩ := k.rdev i
  rw [hr]
  exact ⟨rfl, rfl, rfl, rfl, rfl⟩

theorem Kept.floor : s'.floor = s.floor := by
  unfold Mddev.floor
  rw [k.canDecreaseEvents, k.events]

theorem Kept.working {i : Fin n} (h : (s'.rdevs i).faulty = false) :
    (s.rdevs i).faulty = false := by
  cases hf : (s.rdevs i).faulty with
  | false => rfl
  | true => cases h.symm.trans (k.faulty i hf)

theorem Kept.ready (h : s.Ready) : s'.Ready := by
  refine ⟨k.persistent.trans h.persistent, k.needRewrite.trans h.noRewrite, ?_, ?_, ?_,
    ?_, ?_, ?_, ?_⟩
  · rw [k.canDecreaseEvents, k.events]
    exact h.positive
  · intro i
    rw [(k.fields i).2.2.2.2]
    exact h.landed i
  · intro i hf
    rw [(k.fields i).1, (k.fields i).2.2.2.1]
    exact h.kept i (k.working hf)
  · intro i
    rw [(k.fields i).2.2.2.1, k.events]
    exact h.bound i
  · intro i hf
    rw [(k.fields i).2.2.2.1, k.events]
    exact h.working i (k.working hf)
  · intro i hf
    rw [(k.fields i).2.2.2.1, k.floor]
    rcases k.marked i hf with hold | hdevs
    · exact (h.failed i hold).imp k.changeDevs id
    · exact .inl hdevs
  · intro hcan i hf
    rw [(k.fields i).1, k.floor]
    exact h.above (k.canDecreaseEvents ▸ hcan) i (k.working hf)

theorem Kept.writing {c : Call} (h : s.Writing c) : s'.Writing c := by
  refine h.of_dev k.persistent k.needRewrite k.events fun i => ?_
  have hworking := k.working (i := i)
  have hmarked := k.marked i
  obtain ⟨d, f, hr⟩ := k.rdev i
  rw [k.floor]
  rw [hr] at hworking hmarked ⊢
  exact { h.dev i with
    kept := fun hf => h.kept i (hworking hf)
    failed := fun hf => (hmarked hf).elim (fun hold => (h.failed i hold).imp_left k.changeDevs) .inl
    given := fun hf => h.given i (hworking hf)
    skipped := fun hf => h.skipped i (hworking hf) }

theorem Kept.inv (h : s.Inv) : s'.Inv := by
  cases hcall : s.call with
  | none =>
    obtain ⟨hready, hle⟩ := (inv_idle hcall).mp h
    refine (inv_idle (k.call.trans hcall)).mpr ⟨k.ready hready, fun i => ?_⟩
    rw [(k.fields i).2.2.2.1, k.events]
    exact hle i
  | some c => exact (inv_busy (k.call.trans hcall)).mpr (k.writing ((inv_busy hcall).mp h))

end Kept

/-! ## Steps of a write -/

/-- The turn of one device. -/
theorem Writing.writeSb {s : Mddev n} {c : Call} (h : s.Writing c) (i : Fin n)
    (hi : i.val = c.next) :
    (s.writeSb c i).Writing { c with next := c.next + 1 } := by
  -- it is the turn of no other device
  have hother : ∀ j, j ≠ i →
      WritingDev s.events s.floor s.sbFlags.changeDevs (j.val < c.next + 1) (s.rdevs j) := by
    refine fun j hj => { h.dev j with given := fun hf hone hlt => h.given j hf hone ?_ }
    exact lt_of_le_of_ne (Nat.lt_succ_iff.mp hlt) fun heq => hj (Fin.ext (heq.trans hi.symm))
  unfold Mddev.writeSb
  dsimp only
  split_ifs with hwrite
  · obtain ⟨hone, hfaulty⟩ := hwrite
    refine h.of_dev rfl rfl rfl fun j => ?_
    by_cases hj : j = i
    · subst hj
      rw [show (Mddev.setRdev _ j _).rdevs j = _ from update_self ..]
      exact { h.dev j with
        inFlight := fun v hv => ⟨(some.inj hv).symm.trans (h.page j hone), rfl⟩
        kept := fun _ hp => (by cases hp)
        failed := fun hf => (by cases hfaulty.symm.trans hf)
        given := fun _ _ _ => rfl
        skipped := fun _ hne => absurd hone hne }
    · rw [show (Mddev.setRdev _ i _).rdevs j = _ from update_of_ne hj ..]
      exact hother j hj
  · refine h.of_dev rfl rfl rfl fun j => ?_
    by_cases hj : j = i
    · subst hj
      exact { h.dev j with given := fun hf hone _ => absurd ⟨hone, hf⟩ hwrite }
    · exact hother j hj

variable {s s' : Mddev n} {forceChange : Bool} {F : Fin n} {e : Event n}

/-- A write that has come to its end: the count is on the device, or the device is marked. -/
theorem Writing.landed {c : Call} (h : s.Writing c) {i : Fin n} {v stored : Nat} {f : Bool}
    (hp : (s.rdevs i).pending = some v) (hpersistent : s'.persistent = s.persistent)
    (hrewrite : s'.sbFlags.needRewrite = s.sbFlags.needRewrite) (hevents : s'.events = s.events)
    (hfloor : s'.floor = s.floor) (hdevs : s.sbFlags.changeDevs → s'.sbFlags.changeDevs)
    (hother : ∀ j, j ≠ i → s'.rdevs j = s.rdevs j)
    (hself : s'.rdevs i = { s.rdevs i with pending := none, stored := stored, faulty := f })
    (hstored : stored = v ∨ stored = (s.rdevs i).stored ∧ f)
    (hfaulty : f → s'.sbFlags.changeDevs) (hkeep : (s.rdevs i).faulty → f) :
    s'.Writing c := by
  obtain ⟨hv, hgiven⟩ := h.inFlight i v hp
  have hworking : f = false → (s.rdevs i).faulty = false := by
    intro hf
    cases hold : (s.rdevs i).faulty with
    | false => rfl
    | true => cases hf.symm.trans (hkeep hold)
  have hland : f = false → stored = s.events := fun hf =>
    hstored.elim (·.trans hv) fun hold => (by cases hf.symm.trans hold.2)
  refine h.of_dev hpersistent hrewrite hevents fun j => ?_
  rw [hfloor]
  by_cases hj : j = i
  · subst hj
    rw [hself]
    exact { h.dev j with
      inFlight := fun _ hw => (by cases hw)
      kept := fun hf _ _ => (hland hf).trans hgiven.symm
      bound := hstored.elim (fun hnew => (hnew.trans hv).le.trans (Nat.le_succ _)) fun hold =>
        hold.1.le.trans (h.bound j)
      failed := fun hf => .inl (hfaulty hf)
      given := fun _ _ _ => hgiven
      skipped := fun hf hne => ⟨(h.skipped j (hworking hf) hne).1, (hland hf).le⟩ }
  · rw [hother j hj]
    exact { h.dev j with failed := fun hf => (h.failed j hf).imp_left hdevs }

theorem superWritten_error (s : Mddev n) (i : Fin n) (v : Nat) (kept failfast : Bool) :
    s.superWritten i v true kept failfast = (s.setRdev i { s.rdevs i with
        pending := none, stored := if true && !kept then (s.rdevs i).stored else v }).mdError
          i := by
  unfold superWritten
  dsimp only
  rw [if_pos rfl, mdError_self, Bool.not_true, Bool.false_and, if_neg Bool.false_ne_true]

/-- What a finished write leaves of the device, and of the others. -/
theorem superWritten_rdevs (s : Mddev n) (i : Fin n) (v : Nat) (status kept failfast : Bool) :
    (s.superWritten i v status kept failfast).rdevs i = { s.rdevs i with
        pending := none
        stored := if status && !kept then (s.rdevs i).stored else v
        faulty := status || (s.rdevs i).faulty } ∧
    (∀ j, j ≠ i → (s.superWritten i v status kept failfast).rdevs j = s.rdevs j) ∧
    (s.superWritten i v status kept failfast).sbFlags =
      if status && !(s.rdevs i).faulty then
        { s.sbFlags with changeDevs := true, changePending := true }
      else s.sbFlags := by
  cases status with
  | false => exact ⟨update_self .., fun j hj => update_of_ne hj .., rfl⟩
  | true =>
    rw [superWritten_error]
    generalize hr : ({ s.rdevs i with
      pending := none, stored := if true && !kept then (s.rdevs i).stored else v } : Rdev) = r
    have hself : (s.setRdev i r).rdevs i = r := update_self ..
    refine ⟨?_, fun j hj => ?_, ?_⟩
    · rw [mdError_self, hself, ← hr]
      rfl
    · rw [mdError_other _ hj]
      exact update_of_ne hj ..
    · rw [mdError_sbFlags, hself, ← hr]
      cases (s.rdevs i).faulty <;> rfl

theorem superWritten_same (s : Mddev n) (i : Fin n) (v : Nat) (status kept failfast : Bool) :
    (s.superWritten i v status kept failfast).persistent = s.persistent ∧
      (s.superWritten i v status kept failfast).events = s.events ∧
      (s.superWritten i v status kept failfast).floor = s.floor ∧
      (s.superWritten i v status kept failfast).call = s.call := by
  cases status with
  | false => exact ⟨rfl, rfl, rfl, rfl⟩
  | true =>
    rw [superWritten_error]
    have k := (s.setRdev i { s.rdevs i with
      pending := none, stored := if true && !kept then (s.rdevs i).stored else v }).kept_mdError i
    exact ⟨k.persistent, k.events, k.floor, k.call⟩

theorem Writing.superWritten {s : Mddev n} {c : Call} (h : s.Writing c) {i : Fin n} {v : Nat}
    (hp : (s.rdevs i).pending = some v) (status kept failfast : Bool) :
    (s.superWritten i v status kept failfast).Writing c := by
  obtain ⟨hself, hother, hflags⟩ := s.superWritten_rdevs i v status kept failfast
  obtain ⟨hpersistent, hevents, hfloor, -⟩ := s.superWritten_same i v status kept failfast
  -- a device that failed while its superblock was on its way still has its request standing
  have hstanding : (s.rdevs i).faulty → s.sbFlags.changeDevs := by
    intro hf
    rcases h.failed i hf with hdevs | ⟨hnone, -⟩
    · exact hdevs
    · cases hp.symm.trans hnone
  refine h.landed hp hpersistent ?_ hevents hfloor ?_ hother hself ?_ ?_ ?_
  · rw [hflags]
    split_ifs <;> rfl
  · intro hdevs
    rw [hflags]
    split_ifs
    · rfl
    · exact hdevs
  · cases status <;> cases kept
    · exact .inl rfl
    · exact .inl rfl
    · exact .inr ⟨rfl, rfl⟩
    · exact .inl rfl
  · intro hf
    rw [hflags]
    split_ifs with hmark
    · rfl
    · refine hstanding ?_
      cases hfaulty : (s.rdevs i).faulty with
      | true => rfl
      | false =>
        rw [hfaulty, Bool.or_false] at hf
        rw [hf, hfaulty] at hmark
        exact absurd rfl hmark
  · intro hf
    rw [hf, Bool.or_true]

/-! ## The invariant -/

/-- The end of the writes, once they are all done: an update begins, or the call ends. -/
theorem afterWait_cases {s : Mddev n} {c : Call} (h : s.Writing c) :
    s.afterWait c = s.repeatUpdate c.forceChange c.nospares ∨ s.sbFlags.changeDevs = false ∧
        s.afterWait c = (s.setFlags { s.sbFlags with changePending := false }).setCall none := by
  unfold afterWait
  rw [h.noRewrite, if_neg Bool.false_ne_true]
  split_ifs with hagain
  · exact .inl rfl
  · refine .inr ⟨?_, rfl⟩
    cases hdevs : s.sbFlags.changeDevs with
    | false => rfl
    | true => exact absurd (.inr (.inl hdevs)) hagain

/-- A finished call leaves the array as the end of the writes found it. -/
theorem Ready.finish {s : Mddev n} (h : s.Ready) (hdevs : s.sbFlags.changeDevs = false) :
    ((s.setFlags { s.sbFlags with changePending := false }).setCall none).Inv := by
  refine (inv_idle rfl).mpr ⟨⟨h.persistent, h.noRewrite, h.positive, h.landed, h.kept,
    h.bound, h.working,
    h.failed, h.above⟩, fun i => ?_⟩
  cases hf : (s.rdevs i).faulty with
  | false => exact h.working i hf
  | true =>
    rcases h.failed i hf with hdevs' | hle
    · cases hdevs.symm.trans hdevs'
    · exact hle.trans s.floor_le

theorem step_updateSb (h : s.step (.updateSb forceChange) = some s') :
    s.call = none ∧ s' = s.updateSb forceChange := by
  unfold step at h
  cases hcall : s.call with
  | none =>
    rw [hcall] at h
    exact ⟨rfl, (some.inj h).symm⟩
  | some c =>
    rw [hcall] at h
    cases h

theorem step_writeSb (h : s.step .writeSb = some s') :
    ∃ c, s.call = some c ∧ ∃ hlt : c.next < n, s' = s.writeSb c ⟨c.next, hlt⟩ := by
  obtain ⟨c, hcall, h⟩ := bind_eq_some_iff.mp h
  refine ⟨c, hcall, ?_⟩
  split_ifs at h with hlt
  exact ⟨hlt, (some.inj h).symm⟩

theorem step_superWritten {i : Fin n} {status kept failfast : Bool}
    (h : s.step (.superWritten i status kept failfast) = some s') :
    ∃ v, (s.rdevs i).pending = some v ∧ s' = s.superWritten i v status kept failfast := by
  obtain ⟨v, hv, rfl⟩ := map_eq_some_iff.mp h
  exact ⟨v, hv, rfl⟩

theorem step_superWait (h : s.step .superWait = some s') :
    ∃ c, s.call = some c ∧ n ≤ c.next ∧ (∀ i, (s.rdevs i).pending = none) ∧ s' = s.afterWait c := by
  obtain ⟨c, hcall, h⟩ := bind_eq_some_iff.mp h
  split_ifs at h with hwait
  obtain ⟨hnext, hnone⟩ := not_or.mp hwait
  refine ⟨c, hcall, not_lt.mp hnext, fun i => ?_, (some.inj h).symm⟩
  exact not_isSome_iff_eq_none.mp fun hsome => hnone ⟨i, hsome⟩

/-- A call that finds the array read-only only remembers what it was asked. -/
theorem kept_updateSb {s : Mddev n} (h : s.rdwr = false) : s.Kept (s.updateSb forceChange) := by
  unfold updateSb
  rw [h, Bool.not_false, if_pos rfl]
  exact s.kept_setFlags _ rfl fun hdevs =>
    (by rw [hdevs, Bool.or_true] : (_ || s.sbFlags.changeDevs))

theorem updateSb_of_rdwr {s : Mddev n} (hrdwr : s.rdwr)
    (hpersistent : s.persistent) : s.updateSb forceChange = s.repeatUpdate forceChange false := by
  unfold updateSb
  rw [hrdwr, hpersistent]
  rfl

theorem writeSb_call (s : Mddev n) (c : Call) (i : Fin n) :
    (s.writeSb c i).call = some { c with next := c.next + 1 } := by
  unfold Mddev.writeSb
  dsimp only
  split_ifs <;> rfl

/-- What a step can do. Every invariant of runs is derived from this. -/
inductive Change (s : Mddev n) : Mddev n → Prop where
  | kept {s' : Mddev n} (k : s.Kept s') : Change s s'
  | again (forceChange nospares : Bool) (h : s.Ready) :
      Change s (s.repeatUpdate forceChange nospares)
  | writeSb {c : Call} (i : Fin n) (hi : i.val = c.next) (h : s.Writing c) :
      Change s (s.writeSb c i)
  | superWritten {c : Call} {i : Fin n} {v : Nat} (status kept failfast : Bool)
      (hcall : s.call = some c) (h : s.Writing c) (hv : (s.rdevs i).pending = some v) :
      Change s (s.superWritten i v status kept failfast)
  | done {c : Call} (h : s.Writing c) (hnext : n ≤ c.next)
      (hnone : ∀ i, (s.rdevs i).pending = none) (hdevs : s.sbFlags.changeDevs = false) :
      Change s ((s.setFlags { s.sbFlags with changePending := false }).setCall none)

theorem step_change (h : s.Inv) (hstep : s.step e = some s') : s.Change s' := by
  cases e with
  | env e => exact some.inj hstep ▸ .kept (s.kept_env e)
  | fail i => exact some.inj hstep ▸ .kept (s.kept_mdError i)
  | updateSb forceChange =>
    obtain ⟨hcall, rfl⟩ := step_updateSb hstep
    have hready := ((inv_idle hcall).mp h).1
    cases hrdwr : s.rdwr with
    | false => exact .kept (kept_updateSb hrdwr)
    | true =>
      rw [updateSb_of_rdwr hrdwr hready.persistent]
      exact .again forceChange false hready
  | writeSb =>
    obtain ⟨c, hcall, hlt, rfl⟩ := step_writeSb hstep
    exact .writeSb ⟨c.next, hlt⟩ rfl ((inv_busy hcall).mp h)
  | superWritten i status kept failfast =>
    obtain ⟨v, hv, rfl⟩ := step_superWritten hstep
    cases hcall : s.call with
    | none => cases hv.symm.trans (((inv_idle hcall).mp h).1.landed i)
    | some c => exact .superWritten status kept failfast hcall ((inv_busy hcall).mp h) hv
  | superWait =>
    obtain ⟨c, hcall, hnext, hnone, rfl⟩ := step_superWait hstep
    have hw := (inv_busy hcall).mp h
    rcases afterWait_cases hw with hagain | ⟨hdevs, hdone⟩
    · rw [hagain]
      exact .again _ _ (hw.ready hnext hnone)
    · rw [hdone]
      exact .done hw hnext hnone hdevs

/-- **Every step keeps the invariant.** -/
theorem Inv.step (h : s.Inv) (hstep : s.step e = some s') : s'.Inv := by
  cases step_change h hstep with
  | kept k => exact k.inv h
  | again forceChange nospares hready =>
    exact (inv_busy rfl).mpr (hready.repeatUpdate forceChange nospares)
  | writeSb i hi hw => exact (inv_busy (s.writeSb_call _ i)).mpr (hw.writeSb i hi)
  | superWritten status kept failfast hcall hw hv =>
    refine (inv_busy ?_).mpr (hw.superWritten hv status kept failfast)
    exact (s.superWritten_same _ _ status kept failfast).2.2.2.trans hcall
  | done hw hnext hnone hdevs => exact (hw.ready hnext hnone).finish hdevs

/-- The array as it is assembled: nothing has been written yet, and no superblock is ahead of it. -/
structure Assembled (s : Mddev n) : Prop where
  persistent : s.persistent = true
  noRewrite : s.sbFlags.needRewrite = false
  canDecreaseEvents : s.canDecreaseEvents = false
  call : s.call = none
  pending : ∀ i, (s.rdevs i).pending = none
  sbEvents : ∀ i, (s.rdevs i).sbEvents = 0
  stored : ∀ i, (s.rdevs i).stored ≤ s.events

theorem Assembled.inv {s : Mddev n} (h : s.Assembled) : s.Inv := by
  have hcan : ∀ {p : Prop}, s.canDecreaseEvents → p := fun hc =>
    (by cases h.canDecreaseEvents.symm.trans hc)
  have hfloor : s.floor = s.events := by
    rw [floor, h.canDecreaseEvents, if_neg Bool.false_ne_true]
  refine (inv_idle h.call).mpr ⟨⟨h.persistent, h.noRewrite, hcan, h.pending, ?_, ?_, ?_, ?_,
    hcan⟩, h.stored⟩
  · exact fun i _ hne => absurd (h.sbEvents i) hne
  · exact fun i => (h.stored i).trans (Nat.le_succ _)
  · exact fun i _ => h.stored i
  · exact fun i _ => .inr (hfloor ▸ h.stored i)

/-! ## Falling behind -/

/-- The device has failed, and what it stores is below all the array can go back to. -/
def Gone (F : Fin n) (s : Mddev n) : Prop :=
  (s.rdevs F).faulty = true ∧ (s.rdevs F).pending = none ∧ (s.rdevs F).stored < s.floor

/-- Between calls, no working device stores less than the floor. -/
def Above (s : Mddev n) : Prop :=
  s.call = none → ∀ i, (s.rdevs i).faulty = false → s.floor ≤ (s.rdevs i).stored

theorem Kept.gone (k : s.Kept s') (h : Gone F s) : Gone F s' := by
  refine ⟨k.faulty F h.1, (k.fields F).2.2.2.2.trans h.2.1, ?_⟩
  rw [(k.fields F).2.2.2.1, k.floor]
  exact h.2.2

theorem Kept.above (k : s.Kept s') (h : s.Above) : s'.Above := by
  intro hcall i hf
  rw [(k.fields i).2.2.2.1, k.floor]
  exact h (k.call.symm.trans hcall) i (k.working hf)

theorem Gone.repeatUpdate {s : Mddev n} (h : Gone F s) (forceChange nospares : Bool) :
    Gone F (s.repeatUpdate forceChange nospares) := by
  obtain ⟨hfaulty, -, hstored, hpending⟩ := syncSb_fields
    (s.repeatUpdate forceChange nospares).events
    (s.leaveSpares forceChange nospares) (s.rdevs F)
  refine ⟨?_, ?_, ?_⟩
  · rw [rdevs_repeatUpdate, hfaulty]
    exact h.1
  · rw [rdevs_repeatUpdate, hpending]
    exact h.2.1
  · rw [rdevs_repeatUpdate, hstored]
    exact lt_of_lt_of_le h.2.2 (s.floor_le_repeatUpdate forceChange nospares)

theorem writeSb_faulty (s : Mddev n) (c : Call) (i : Fin n) {j : Fin n} (h : (s.rdevs j).faulty) :
    (s.writeSb c i).rdevs j = s.rdevs j ∧ (s.writeSb c i).floor = s.floor := by
  unfold writeSb
  dsimp only
  split_ifs with hwrite
  · have hj : j ≠ i := by
      rintro rfl
      cases hwrite.2.symm.trans h
    exact ⟨update_of_ne hj .., rfl⟩
  · exact ⟨rfl, rfl⟩

/-- **What has fallen behind stays behind.** -/
theorem Gone.step (h : Gone F s) (hinv : s.Inv) (hstep : s.step e = some s') : Gone F s' := by
  cases step_change hinv hstep with
  | kept k => exact k.gone h
  | again => exact h.repeatUpdate _ _
  | @writeSb c i =>
    obtain ⟨hsame, hfloor⟩ := s.writeSb_faulty c i h.1
    rw [Gone, hsame, hfloor]
    exact h
  | @superWritten _ i v status kept failfast _ _ hv =>
    have hF : F ≠ i := by
      rintro rfl
      cases hv.symm.trans h.2.1
    obtain ⟨-, hother, -⟩ := s.superWritten_rdevs i v status kept failfast
    rw [Gone, hother F hF, (s.superWritten_same i v status kept failfast).2.2.1]
    exact h
  | done => exact h

/-- **A finished call leaves the working devices above the floor.** -/
theorem Above.step (h : s.Above) (hinv : s.Inv) (hstep : s.step e = some s') : s'.Above := by
  have hbusy : ∀ {t : Mddev n} {c : Call}, t.call = some c → t.Above := fun hc hnone =>
    (by cases hc.symm.trans hnone)
  cases step_change hinv hstep with
  | kept k => exact k.above h
  | again => exact hbusy rfl
  | writeSb i => exact hbusy (s.writeSb_call _ i)
  | superWritten status kept failfast hcall =>
    exact hbusy ((s.superWritten_same _ _ status kept failfast).2.2.2.trans hcall)
  | done hw hnext hnone => exact fun _ i hf => hw.floor_le_stored hnext hnone hf

/-- The call tells the failed device apart: what it stores is below the floor already, or the call
may not leave the spares alone. -/
def TellsApart (s : Mddev n) (F : Fin n) (forceChange : Bool) : Prop :=
  (s.rdevs F).stored < s.floor ∨ forceChange = true ∨ s.sbFlags.changeDevs = true ∨ s.degraded ≠ 0

instance (s : Mddev n) (F : Fin n) (forceChange : Bool) : Decidable (s.TellsApart F forceChange) :=
  inferInstanceAs (Decidable (_ ∨ _ ∨ _ ∨ _))

theorem TellsApart.gone {s : Mddev n} (h : s.TellsApart F forceChange)
    (hinv : s.Inv) (hcall : s.call = none) (hF : (s.rdevs F).faulty) :
    Gone F (s.repeatUpdate forceChange false) := by
  obtain ⟨hready, hle⟩ := (inv_idle hcall).mp hinv
  rcases h with hbelow | hforced
  · exact Gone.repeatUpdate ⟨hF, hready.landed F, hbelow⟩ _ _
  · have hleave : s.leaveSpares forceChange false = false := by
      rcases hforced with hforce | hdevs | hdegraded
      · simp [leaveSpares, hforce]
      · exact leaveSpares_of_changeDevs _ _ hdevs
      · simp [leaveSpares, hdegraded]
    obtain ⟨hfaulty, -, hstored, hpending⟩ := syncSb_fields
      (s.repeatUpdate forceChange false).events
      (s.leaveSpares forceChange false) (s.rdevs F)
    refine ⟨?_, ?_, ?_⟩
    · rw [rdevs_repeatUpdate, hfaulty]
      exact hF
    · rw [rdevs_repeatUpdate, hpending]
      exact hready.landed F
    · rw [rdevs_repeatUpdate, hstored, floor_of_not_leaveSpares hleave]
      exact Nat.lt_succ_of_le (hle F)

/-- Three members and the replacement of the first, at count 10, about to be written. -/
def replacing : Mddev 4 where
  rdwr := true
  persistent := true
  external := false
  inSync := true
  recoveryCp := none
  degraded := 0
  events := 10
  canDecreaseEvents := false
  sbFlags := ⟨false, false, false, false⟩
  rdevs := fun i => ⟨if i = 3 then 0 else i.val, false, 0, 0, 0, 10, none⟩
  call := none

/-- The writes of an update, with the outcome of that of the replacement. -/
def writes (replaced : List (Event 4)) : List (Event 4) :=
  [.writeSb, .writeSb, .writeSb, .writeSb, .superWritten 0 false false false,
    .superWritten 1 false false false, .superWritten 2 false false false] ++
      replaced ++ [.superWait]

/-- Going dirty or clean. -/
def turn (inSync : Bool) : List (Event 4) :=
  [.env (.setInSync inSync), .env (.request false true false), .updateSb false]

def stored (s : Mddev 4) : List Nat :=
  (List.finRange 4).map fun i => (s.rdevs i).stored

end MdRaid.Superblock.Mddev
