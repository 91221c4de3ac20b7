import MdRaid.Lib.Runs

/-!
# The event count of the superblocks

Every superblock carries a count of the updates. `md_update_sb` raises it, or takes the
last rise back when the array only went clean again, and writes the superblocks that
need it; a device that fails meanwhile is left out, and the update is made once more.
Devices fail, and the state of the array changes, between any two of these steps.
-/

namespace MdRaid.Superblock

structure Rdev where
  raidDisk : Int
  faulty : Bool
  /-- The count last written, 0 from `md_import_device` on. -/
  sbEvents : Nat
  sbLoaded : Nat
  /-- The count in `sb_page`. -/
  sbPage : Nat
  /-- The count in the superblock on the device. -/
  stored : Nat
  /-- The count in the superblock write that is in flight. -/
  pending : Option Nat
deriving DecidableEq, Repr

structure SbFlags where
  changeDevs : Bool
  changeClean : Bool
  changePending : Bool
  needRewrite : Bool
deriving DecidableEq, Repr

/-- The locals of `md_update_sb`, with the number of devices its write loop is past. -/
structure Call where
  forceChange : Bool
  nospares : Bool
  syncReq : Bool
  next : Nat
deriving DecidableEq, Repr

/-- An array of `n` devices, spares included. -/
structure Mddev (n : Nat) where
  rdwr : Bool
  persistent : Bool
  external : Bool
  inSync : Bool
  /-- `none` for `MaxSector`. -/
  recoveryCp : Option Nat
  degraded : Nat
  events : Nat
  canDecreaseEvents : Bool
  sbFlags : SbFlags
  rdevs : Fin n → Rdev
  call : Option Call

namespace Mddev

variable {n : Nat}

section

variable (s : Mddev n)

def setRdev (i : Fin n) (r : Rdev) : Mddev n :=
  { s with rdevs := Function.update s.rdevs i r }

def setFlags (f : SbFlags) : Mddev n :=
  { s with sbFlags := f }

def setCall (c : Option Call) : Mddev n :=
  { s with call := c }

/-! ## Errors -/

/-- `md_error` with `raid5_error`, which marks any device. The new `degraded` comes separately. -/
def mdError (i : Fin n) : Mddev n :=
  if (s.rdevs i).faulty then s
  else
    (s.setRdev i { s.rdevs i with faulty := true }).setFlags
      { s.sbFlags with changeDevs := true, changePending := true }

/-- `super_written`: on an error the device may hold the old superblock or the new one. -/
def superWritten (i : Fin n) (v : Nat) (status kept failfast : Bool) : Mddev n :=
  let done := s.setRdev i
    { s.rdevs i with pending := none, stored := if status && !kept then (s.rdevs i).stored else v }
  if status then
    let s' := done.mdError i
    if !(s'.rdevs i).faulty && failfast then s'.setFlags { s'.sbFlags with needRewrite := true }
    else s'
  else done

/-! ## `md_update_sb` -/

/-- One turn of `sync_sbs`. -/
def syncSb (events : Nat) (nospares : Bool) (r : Rdev) : Rdev :=
  if r.sbEvents = events ∨ nospares ∧ r.raidDisk < 0 ∧ r.sbEvents + 1 = events then
    { r with sbLoaded := 2 }
  else { r with sbPage := events, sbLoaded := 1 }

/-- Whether the update may leave the spares alone. -/
def leaveSpares (forceChange nospares : Bool) : Bool :=
  (nospares || s.sbFlags.changeClean) && !(forceChange || s.sbFlags.changeDevs) && s.degraded == 0

/-- Whether the update takes the count back to that of the previous clean state. -/
def rollsBack (nospares : Bool) : Bool :=
  nospares && (s.inSync && s.recoveryCp.isNone) && s.canDecreaseEvents && s.events != 1

/-- From `repeat` to the end of `sync_sbs`. -/
def repeatUpdate (forceChange nospares : Bool) : Mddev n :=
  let nospares' := s.leaveSpares forceChange nospares
  let back := s.rollsBack nospares'
  let events := if back then s.events - 1 else s.events + 1
  { s with
    sbFlags := { s.sbFlags with changeDevs := false, changeClean := false }
    events := events
    canDecreaseEvents := !back && nospares'
    rdevs := fun i => syncSb events nospares' (s.rdevs i)
    call := some ⟨forceChange || s.sbFlags.changeDevs, nospares', s.inSync, 0⟩ }

/-- The start of `md_update_sb`. -/
def updateSb (forceChange : Bool) : Mddev n :=
  if !s.rdwr then s.setFlags { s.sbFlags with changeDevs := forceChange || s.sbFlags.changeDevs }
  else if !s.persistent then
    s.setFlags { s.sbFlags with
      changeDevs := false, changeClean := false, changePending :=
        s.external && s.sbFlags.changePending }
  else s.repeatUpdate forceChange false

/-- One turn of the write loop. -/
def writeSb (c : Call) (i : Fin n) : Mddev n :=
  let r := s.rdevs i
  let s' := s.setCall (some { c with next := c.next + 1 })
  if r.sbLoaded = 1 ∧ r.faulty = false then
    s'.setRdev i { r with pending := some r.sbPage, sbEvents := s.events }
  else s'

/-- From `md_super_wait` on: write again, update again, or be done. -/
def afterWait (c : Call) : Mddev n :=
  if s.sbFlags.needRewrite then
    (s.setFlags { s.sbFlags with needRewrite := false }).setCall (some { c with next := 0 })
  else if s.inSync ≠ c.syncReq ∨ s.sbFlags.changeDevs ∨ s.sbFlags.changeClean then
    s.repeatUpdate c.forceChange c.nospares
  else (s.setFlags { s.sbFlags with changePending := false }).setCall none

/-! ## The machine -/

/-- What the rest of the driver does to the array. -/
inductive Env (n : Nat) where
  | request (devs clean pending : Bool)
  | setInSync (inSync : Bool)
  | setRecoveryCp (cp : Option Nat)
  | setDegraded (degraded : Nat)
  | setRdwr (rdwr : Bool)
  | setRaidDisk (i : Fin n) (raidDisk : Int)
deriving DecidableEq, Repr

def env : Env n → Mddev n
  | .request devs clean pending =>
    s.setFlags { s.sbFlags with
      changeDevs := devs || s.sbFlags.changeDevs
      changeClean := clean || s.sbFlags.changeClean
      changePending := pending || s.sbFlags.changePending }
  | .setInSync inSync => { s with inSync := inSync }
  | .setRecoveryCp cp => { s with recoveryCp := cp }
  | .setDegraded degraded => { s with degraded := degraded }
  | .setRdwr rdwr => { s with rdwr := rdwr }
  | .setRaidDisk i raidDisk => s.setRdev i { s.rdevs i with raidDisk := raidDisk }

inductive Event (n : Nat) where
  | env (e : Env n)
  | fail (i : Fin n)
  | updateSb (forceChange : Bool)
  | writeSb
  | superWritten (i : Fin n) (status kept failfast : Bool)
  | superWait
deriving DecidableEq, Repr

def step : Event n → Option (Mddev n)
  | .env e => some (s.env e)
  | .fail i => some (s.mdError i)
  | .updateSb forceChange => if s.call.isSome then none else some (s.updateSb forceChange)
  | .writeSb => s.call.bind fun c =>
    if h : c.next < n then some (s.writeSb c ⟨c.next, h⟩) else none
  | .superWritten i status kept failfast =>
    (s.rdevs i).pending.map fun v => s.superWritten i v status kept failfast
  | .superWait => s.call.bind fun c =>
    if c.next < n ∨ ∃ i, (s.rdevs i).pending.isSome then none else some (s.afterWait c)

/-- The count the array can still go back to. -/
def floor : Nat :=
  if s.canDecreaseEvents then s.events - 1 else s.events

end

theorem floor_le (s : Mddev n) : s.floor ≤ s.events := by
  unfold floor
  split_ifs
  · exact Nat.sub_le _ _
  · exact le_refl _

/-! ## What an update does to the count -/

section Update

variable {s : Mddev n} {forceChange nospares : Bool}

theorem events_repeatUpdate (s : Mddev n) (forceChange nospares : Bool) :
    (s.repeatUpdate forceChange nospares).events =
      if s.rollsBack (s.leaveSpares forceChange nospares) then s.events - 1 else s.events + 1 :=
  rfl

theorem rdevs_repeatUpdate (s : Mddev n) (forceChange nospares : Bool) (i : Fin n) :
    (s.repeatUpdate forceChange nospares).rdevs i =
      syncSb (s.repeatUpdate forceChange nospares).events (s.leaveSpares forceChange nospares)
        (s.rdevs i) :=
  rfl

theorem rollsBack_false (s : Mddev n) : s.rollsBack false = false :=
  rfl

theorem rollsBack_iff : s.rollsBack nospares ↔ nospares ∧ (s.inSync ∧ s.recoveryCp.isNone) ∧
      s.canDecreaseEvents ∧ s.events ≠ 1 := by
  simp [rollsBack, and_assoc]

/-- A rise: the floor is the old count when the spares were left alone, else the new one. -/
theorem floor_repeatUpdate (hback : s.rollsBack (s.leaveSpares forceChange nospares) = false) :
    (s.repeatUpdate forceChange nospares).events = s.events + 1 ∧
      (s.repeatUpdate forceChange nospares).floor =
        if s.leaveSpares forceChange nospares then s.events else s.events + 1 := by
  have hevents : (s.repeatUpdate forceChange nospares).events = s.events + 1 := by
    rw [events_repeatUpdate, hback, if_neg (by simp)]
  have hcan : (s.repeatUpdate forceChange nospares).canDecreaseEvents = s.leaveSpares forceChange
    nospares := by
    show (!s.rollsBack _ && _) = _
    rw [hback, Bool.not_false, Bool.true_and]
  refine ⟨hevents, ?_⟩
  rw [floor, hcan, hevents, Nat.add_sub_cancel]

/-- A roll-back: the floor stays where it was, and the count is down on it. -/
theorem floor_rollBack (hback : s.rollsBack (s.leaveSpares forceChange nospares)) :
    (s.repeatUpdate forceChange nospares).events = s.events - 1 ∧
      (s.repeatUpdate forceChange nospares).floor = s.events - 1 ∧ s.floor = s.events - 1 := by
  have hevents : (s.repeatUpdate forceChange nospares).events = s.events - 1 := by
    rw [events_repeatUpdate, if_pos hback]
  have hcan : (s.repeatUpdate forceChange nospares).canDecreaseEvents = false := by
    show (!s.rollsBack _ && _) = _
    rw [hback]
    rfl
  refine ⟨hevents, ?_, ?_⟩
  · rw [floor, hcan, hevents, if_neg (by simp)]
  · rw [floor, if_pos (rollsBack_iff.mp hback).2.2.1]

/-- **The floor never falls.** -/
theorem floor_le_repeatUpdate (s : Mddev n) (forceChange nospares : Bool) :
    s.floor ≤ (s.repeatUpdate forceChange nospares).floor := by
  cases hback : s.rollsBack (s.leaveSpares forceChange nospares) with
  | true =>
    rw [(floor_rollBack hback).2.1, (floor_rollBack hback).2.2]
  | false =>
    have := s.floor_le
    rw [(floor_repeatUpdate hback).2]
    split_ifs <;> omega

/-- The update that may not leave the spares alone moves the floor past the count. -/
theorem floor_of_not_leaveSpares (h : s.leaveSpares forceChange nospares = false) :
    (s.repeatUpdate forceChange nospares).floor = s.events + 1 := by
  have hback : s.rollsBack (s.leaveSpares forceChange nospares) = false := by
    rw [h]
    exact s.rollsBack_false
  rw [(floor_repeatUpdate hback).2, h, if_neg (by simp)]

theorem leaveSpares_of_changeDevs (forceChange nospares : Bool) (h : s.sbFlags.changeDevs) :
    s.leaveSpares forceChange nospares = false := by
  simp [leaveSpares, h]

theorem syncSb_fields (events : Nat) (nospares : Bool) (r : Rdev) :
    (syncSb events nospares r).faulty = r.faulty ∧
    (syncSb events nospares r).sbEvents = r.sbEvents ∧
      (syncSb events nospares r).stored = r.stored ∧ (syncSb events nospares r).pending =
        r.pending := by
  unfold syncSb
  split_ifs <;> exact ⟨rfl, rfl, rfl, rfl⟩

/-- A superblock is written, with the new count, or is left alone for its count. -/
theorem syncSb_loaded (events : Nat) (nospares : Bool) (r : Rdev) :
    (syncSb events nospares r).sbLoaded = 1 ∧ (syncSb events nospares r).sbPage = events ∨
      (syncSb events nospares r).sbLoaded = 2 ∧
        (r.sbEvents = events ∨ nospares ∧ r.sbEvents + 1 = events) := by
  unfold syncSb
  split_ifs with h
  · exact .inr ⟨rfl, h.imp id fun hspare => ⟨hspare.1, hspare.2.2⟩⟩
  · exact .inl ⟨rfl, rfl⟩

end Update

/-! ## Between updates, and while one is written -/

/-- The array when an update can begin: no superblock is on its way. -/
structure Ready (s : Mddev n) : Prop where
  persistent : s.persistent = true
  noRewrite : s.sbFlags.needRewrite = false
  positive : s.canDecreaseEvents = true → 0 < s.events
  landed : ∀ i, (s.rdevs i).pending = none
  kept : ∀ i, (s.rdevs i).faulty = false → (s.rdevs i).sbEvents ≠ 0 →
    (s.rdevs i).stored = (s.rdevs i).sbEvents
  bound : ∀ i, (s.rdevs i).stored ≤ s.events + 1
  working : ∀ i, (s.rdevs i).faulty = false → (s.rdevs i).stored ≤ s.events
  failed : ∀ i, (s.rdevs i).faulty = true → s.sbFlags.changeDevs = true ∨
    (s.rdevs i).stored ≤ s.floor
  above : s.canDecreaseEvents = true → ∀ i, (s.rdevs i).faulty = false → s.floor ≤
    (s.rdevs i).sbEvents

/-- The array while an update is written. A device whose turn has come has been given the count;
one that is passed over is not below the floor. -/
structure Writing (s : Mddev n) (c : Call) : Prop where
  persistent : s.persistent = true
  noRewrite : s.sbFlags.needRewrite = false
  positive : 0 < s.events
  inFlight : ∀ i v, (s.rdevs i).pending = some v → v = s.events ∧ (s.rdevs i).sbEvents = s.events
  kept : ∀ i, (s.rdevs i).faulty = false → (s.rdevs i).pending = none → (s.rdevs i).sbEvents ≠ 0 →
    (s.rdevs i).stored = (s.rdevs i).sbEvents
  bound : ∀ i, (s.rdevs i).stored ≤ s.events + 1
  failed : ∀ i, (s.rdevs i).faulty = true →
    s.sbFlags.changeDevs = true ∨ (s.rdevs i).pending = none ∧ (s.rdevs i).stored ≤ s.floor
  page : ∀ i, (s.rdevs i).sbLoaded = 1 → (s.rdevs i).sbPage = s.events
  given : ∀ i, (s.rdevs i).faulty = false → (s.rdevs i).sbLoaded = 1 → i.val < c.next →
    (s.rdevs i).sbEvents = s.events
  skipped : ∀ i, (s.rdevs i).faulty = false → (s.rdevs i).sbLoaded ≠ 1 →
    s.floor ≤ (s.rdevs i).sbEvents ∧ (s.rdevs i).stored ≤ s.events

/-- The invariant of the machine. -/
def Inv (s : Mddev n) : Prop :=
  match s.call with
  | none => s.Ready ∧ ∀ i, (s.rdevs i).stored ≤ s.events
  | some c => s.Writing c

theorem inv_idle {s : Mddev n} (h : s.call = none) :
    s.Inv ↔ s.Ready ∧ ∀ i, (s.rdevs i).stored ≤ s.events := by
  rw [Inv, h]

theorem inv_busy {s : Mddev n} {c : Call} (h : s.call = some c) : s.Inv ↔ s.Writing c := by
  rw [Inv, h]

/-- An update that begins in a ready array. -/
theorem Ready.repeatUpdate {s : Mddev n} (h : s.Ready) (forceChange nospares : Bool) :
    (s.repeatUpdate forceChange nospares).Writing
      ⟨forceChange || s.sbFlags.changeDevs, s.leaveSpares forceChange nospares, s.inSync, 0⟩ := by
  have hfields := fun i => syncSb_fields (s.repeatUpdate forceChange nospares).events
    (s.leaveSpares forceChange nospares) (s.rdevs i)
  have hloaded := fun i => syncSb_loaded (s.repeatUpdate forceChange nospares).events
    (s.leaveSpares forceChange nospares) (s.rdevs i)
  simp only [← rdevs_repeatUpdate] at hfields hloaded
  have hmono := s.floor_le_repeatUpdate forceChange nospares
  generalize hs' : s.repeatUpdate forceChange nospares = s' at *
  have hpersistent : s'.persistent := by rw [← hs']; exact h.persistent
  have hrewrite : s'.sbFlags.needRewrite = false := by rw [← hs']; exact h.noRewrite
  -- the count against the old one, in the two cases
  have hcount : s'.events = s.events + 1 ∧
      (s'.floor = if s.leaveSpares forceChange nospares then s.events else s.events + 1) ∨
      s'.events + 1 = s.events ∧ s'.floor = s'.events ∧ s.floor = s'.events ∧ 0 < s'.events ∧
        s.canDecreaseEvents ∧ s.sbFlags.changeDevs = false := by
    cases hback : s.rollsBack (s.leaveSpares forceChange nospares) with
    | false => exact .inl (hs' ▸ floor_repeatUpdate hback)
    | true =>
      obtain ⟨hleave, -, hcan, hone⟩ := rollsBack_iff.mp hback
      obtain ⟨hevents, hfloor, hold⟩ := hs' ▸ floor_rollBack hback
      have hpos := h.positive hcan
      refine .inr ⟨by omega, by omega, by omega, by omega, hcan, ?_⟩
      cases hdevs : s.sbFlags.changeDevs with
      | false => rfl
      | true =>
        rw [leaveSpares_of_changeDevs forceChange nospares hdevs] at hleave
        cases hleave
  refine ⟨hpersistent, hrewrite, ?_, ?_, ?_, ?_, ?_, ?_, ?_, ?_⟩
  · omega
  · intro i v hv
    rw [(hfields i).2.2.2, h.landed i] at hv
    cases hv
  · intro i hfaulty _ hne
    obtain ⟨hf, he, hst, -⟩ := hfields i
    rw [he] at hne
    rw [hst, he]
    exact h.kept i (hf ▸ hfaulty) hne
  · intro i
    rw [(hfields i).2.2.1]
    rcases hcount with ⟨hevents, -⟩ | ⟨hevents, -, hfloor, -, -, hdevs⟩
    · have := h.bound i
      omega
    · cases hf : (s.rdevs i).faulty with
      | false =>
        have := h.working i hf
        omega
      | true =>
        rcases h.failed i hf with hdevs' | hle
        · rw [hdevs] at hdevs'
          cases hdevs'
        · omega
  · intro i hfaulty
    obtain ⟨hf, -, hst, hp⟩ := hfields i
    refine .inr ⟨hp.trans (h.landed i), ?_⟩
    rw [hst]
    rcases h.failed i (hf ▸ hfaulty) with hdevs | hle
    · have hpast := floor_of_not_leaveSpares (leaveSpares_of_changeDevs forceChange nospares hdevs)
      rw [hs'] at hpast
      rw [hpast]
      exact h.bound i
    · exact hle.trans hmono
  · intro i hone
    rcases hloaded i with ⟨-, hpage⟩ | ⟨htwo, -⟩
    · exact hpage
    · rw [htwo] at hone
      cases hone
  · intro i _ _ hlt
    exact absurd hlt (Nat.not_lt_zero _)
  · intro i hfaulty hne
    obtain ⟨hf, he, hst, -⟩ := hfields i
    have hstored := h.working i (hf ▸ hfaulty)
    have habove := fun hcan => h.above hcan i (hf ▸ hfaulty)
    have hkept := h.kept i (hf ▸ hfaulty)
    have hle := s'.floor_le
    rw [he, hst]
    rcases hloaded i with ⟨hone, -⟩ | ⟨-, hsame | ⟨hleave, hspare⟩⟩
    · exact absurd hone hne
    · refine ⟨by omega, ?_⟩
      rcases hcount with ⟨hevents, -⟩ | ⟨hevents, -, -, hpos, -⟩
      · omega
      · rw [hkept (by omega)]
        omega
    · rcases hcount with ⟨hevents, hfloor⟩ | ⟨hevents, -, hfloor, -, hcan, -⟩
      · rw [hleave, if_pos rfl] at hfloor
        omega
      · -- a spare that far behind would have been written before the roll-back
        have := habove hcan
        omega

section

variable {s : Mddev n} {c : Call} (h : s.Writing c) (hnext : n ≤ c.next)
  (hlanded : ∀ i, (s.rdevs i).pending = none)
include h hnext hlanded

/-- The end of the writes. -/
theorem Writing.ready : s.Ready := by
  have hle := s.floor_le
  have hgiven : ∀ i, (s.rdevs i).faulty = false → (s.rdevs i).sbLoaded = 1 →
      (s.rdevs i).sbEvents = s.events := fun i hf hone =>
    h.given i hf hone (lt_of_lt_of_le i.isLt hnext)
  refine ⟨h.persistent, h.noRewrite, fun _ => h.positive, hlanded,
    fun i hf hne => h.kept i hf (hlanded i) hne, h.bound, ?_, ?_, ?_⟩
  · intro i hf
    by_cases hone : (s.rdevs i).sbLoaded = 1
    · have hev := hgiven i hf hone
      have hpos := h.positive
      exact ((h.kept i hf (hlanded i) (by omega)).trans hev).le
    · exact (h.skipped i hf hone).2
  · intro i hf
    exact (h.failed i hf).imp id And.right
  · intro _ i hf
    by_cases hone : (s.rdevs i).sbLoaded = 1
    · rw [hgiven i hf hone]
      exact hle
    · exact (h.skipped i hf hone).1

/-- What is stored at the end of the writes is not below the floor. -/
theorem Writing.floor_le_stored {i : Fin n} (hf : (s.rdevs i).faulty = false) :
    s.floor ≤ (s.rdevs i).stored := by
  have hfloor : s.floor ≤ (s.rdevs i).sbEvents := by
    by_cases hone : (s.rdevs i).sbLoaded = 1
    · rw [h.given i hf hone (lt_of_lt_of_le i.isLt hnext)]
      exact s.floor_le
    · exact (h.skipped i hf hone).1
  by_cases hzero : (s.rdevs i).sbEvents = 0
  · omega
  · rw [h.kept i hf (hlanded i) hzero]
    exact hfloor

end

end Mddev

end MdRaid.Superblock
