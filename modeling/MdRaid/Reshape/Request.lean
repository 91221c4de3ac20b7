import MdRaid.Geometry.Bijection
import MdRaid.Lib.Runs
import MdRaid.Reshape.Restart

/-!
# Reshaping an array: the thread that drives it

`reshape_request` moves the array from the old to the new geometry a few stripes at a
time: it may first have to wait until what is done so far is recorded in the superblock,
then it marks the new stripes and the old ones their blocks come from. It is split where
it sleeps. Interrupted, it is started again with `sector_nr` zero and skips what is done.

The superblock is written by another thread. That thread clears `MD_SB_CHANGE_DEVS`
before it writes, and the wait in `reshape_request` is for the flag; a last field records
the position in the superblock on the disks.
-/

namespace MdRaid.Reshape

open MdRaid.Geometry

/-- The array, with both geometries. -/
structure Mddev where
  conf : Conf
  devSectors : Nat
  reshapeBackwards : Bool
  /-- As `raid5_run` has computed it. -/
  minOffsetDiff : Int
  /-- The offsets of the device in each slot. -/
  dataOffset : Nat → Nat
  newDataOffset : Nat → Nat

namespace Mddev

variable (m : Mddev)

def dataDisks : Nat := m.conf.dataDisks true

def newDataDisks : Nat := m.conf.dataDisks false

def reshapeSectors : Nat := max m.conf.chunkSectors m.conf.prevChunkSectors

/-- `sectors & ~(chunk - 1)`, for chunks that are powers of two. -/
def roundDown (sectors chunk : Nat) : Nat := sectors / chunk * chunk

/-- `raid5_size(mddev, 0, 0)` -/
def raid5Size : Nat :=
  roundDown (roundDown m.devSectors m.conf.chunkSectors) m.conf.prevChunkSectors *
    (min m.conf.raidDisks m.conf.previousRaidDisks - m.conf.level.maxDegraded)

def aheadOfReshape (sector reshapeSector : Nat) : Bool :=
  if m.reshapeBackwards then decide (sector < reshapeSector) else decide (sector ≥ reshapeSector)

/-! ## Where reads and writes are -/

/-- The most advanced sector to be written, the least advanced one to be read, and the least
advanced one that is recorded as reshaped. -/
structure Positions where
  writepos : Nat
  readpos : Nat
  safepos : Nat
deriving DecidableEq, Repr

def positions (reshapeProgress reshapeSafe : Nat) : Positions :=
  let writepos := reshapeProgress / m.newDataDisks
  let readpos := reshapeProgress / m.dataDisks
  let safepos := reshapeSafe / m.dataDisks
  if m.reshapeBackwards then
    ⟨writepos - m.reshapeSectors, readpos + m.reshapeSectors, safepos + m.reshapeSectors⟩
  else
    ⟨writepos + m.reshapeSectors, readpos - min m.reshapeSectors readpos,
      safepos - min m.reshapeSectors safepos⟩

def withOffset (pos : Positions) : Positions :=
  if m.minOffsetDiff < 0 then
    { pos with
      safepos := pos.safepos + (-m.minOffsetDiff).toNat
      readpos := pos.readpos + (-m.minOffsetDiff).toNat }
  else { pos with writepos := pos.writepos + m.minOffsetDiff.toNat }

/-- The metadata has to be updated before anything is written. -/
def mustUpdate (pos : Positions) : Bool :=
  if m.reshapeBackwards then decide (pos.safepos > pos.writepos) && decide
    (pos.readpos < pos.writepos)
  else decide (pos.safepos < pos.writepos) && decide (pos.readpos > pos.writepos)

/-! ## State -/

/-- How far `reshape_request` is; `next` is where it will write once the metadata is updated,
or `none` for the update at its end. -/
inductive Stage where
  | idle
  | waitStripes (next : Option Nat)
  | waitSuper (next : Option Nat)
  | schedule (stripeAddr : Nat)
deriving DecidableEq, Repr

structure State where
  reshapeProgress : Nat
  reshapeSafe : Nat
  /-- `mddev->reshape_position` -/
  reshapePosition : Nat
  /-- `MD_SB_CHANGE_DEVS` -/
  sbChange : Bool
  /-- The position in a superblock on its way to the disks. -/
  sbWriting : Option Nat
  /-- The position in the superblock on the disks. -/
  sbPosition : Nat
  sectorNr : Nat
  stage : Stage
  /-- The new stripes that are not written yet. -/
  reshapeStripes : List Nat
deriving DecidableEq, Repr

/-- The state `raid5_start_reshape` leaves. No reshape is recorded yet, which is as much as
nothing reshaped. -/
def startReshape : State :=
  let progress := if m.reshapeBackwards then m.raid5Size else 0
  ⟨progress, progress, progress, true, none, progress, 0, .idle, []⟩

/-- The checks of `raid5_run` on the position of a reshape to be continued; `ro` if the array is
started read-only. -/
def canContinue (position : Nat) (ro : Bool) : Bool :=
  let hereNew := position / (m.reshapeSectors * m.newDataDisks)
  let hereOld := position / (m.reshapeSectors * m.dataDisks)
  if position % (m.reshapeSectors * m.newDataDisks) ≠ 0 then false
  else if m.conf.raidDisks = m.conf.previousRaidDisks then
    (decide (m.minOffsetDiff.natAbs ≥ m.conf.prevChunkSectors) &&
      decide (m.minOffsetDiff.natAbs ≥ m.conf.chunkSectors)) || ro
  else
    !Restart.tooClose m.reshapeBackwards (hereNew * m.reshapeSectors) (hereOld * m.reshapeSectors)
      m.minOffsetDiff

def continueReshape (position : Nat) (ro : Bool) : Option State :=
  if m.canContinue position ro then
    some ⟨position, position, position, false, none, position, 0, .idle, []⟩
  else none

/-! ## The steps of the thread -/

/-- Where a reshape that is started in the middle goes on. -/
def skipTo (s : State) : Nat :=
  if s.sectorNr ≠ 0 then 0
  else if m.reshapeBackwards then
    if s.reshapeProgress < m.raid5Size then (m.raid5Size - s.reshapeProgress) /
      m.newDataDisks else 0
  else s.reshapeProgress / m.newDataDisks

/-- The first sector to be written, or `none` after a warning. -/
def stripeAddr? (s : State) : Option Nat :=
  let pos := m.positions s.reshapeProgress s.reshapeSafe
  if m.reshapeBackwards then
    if s.reshapeProgress / m.newDataDisks < m.reshapeSectors then none
    else if s.reshapeProgress = 0 then none
    else if roundDown m.devSectors m.reshapeSectors ≠
        m.reshapeSectors + pos.writepos + s.sectorNr then none
    else some pos.writepos
  else if pos.writepos ≠ s.sectorNr + m.reshapeSectors then none
  else some s.sectorNr

/-- `timeout`: the last update was ten seconds ago; `due`: `resync_max` asks for an update at
the end. -/
def enter (s : State) (timeout due : Bool) : Option State :=
  if m.skipTo s ≠ 0 then
    some { s with
      sectorNr := m.skipTo s
      stage := if due then .waitStripes none else .idle }
  else
    (m.stripeAddr? s).map fun addr =>
      let pos := m.withOffset (m.positions s.reshapeProgress s.reshapeSafe)
      { s with
        stage := if m.mustUpdate pos || timeout then .waitStripes (some addr) else .schedule addr }

/-- The stripes at the new places `reshape_request` gets, one for each page. -/
def newStripes (stripeAddr : Nat) : List Nat :=
  (List.range (m.reshapeSectors / stripeSectors)).map fun i => stripeAddr + i * stripeSectors

def schedule (s : State) (stripeAddr : Nat) (due : Bool) : State :=
  { s with
    reshapeStripes := s.reshapeStripes ++ m.newStripes stripeAddr
    reshapeProgress :=
      if m.reshapeBackwards then s.reshapeProgress - m.reshapeSectors * m.newDataDisks
      else s.reshapeProgress + m.reshapeSectors * m.newDataDisks
    sectorNr := s.sectorNr + m.reshapeSectors
    stage := if due then .waitStripes none else .idle }

inductive Event where
  | enter (timeout due : Bool)
  | stripesDone
  | superSeen
  | schedule (due : Bool)
  | restart
  | superStart
  | superDone
  | stripeDone (sector : Nat)
deriving DecidableEq, Repr

def step (s : State) : Event → Option State
  | .enter timeout due =>
    if s.stage = .idle ∧ s.sectorNr < m.devSectors then m.enter s timeout due else none
  | .stripesDone =>
    match s.stage with
    | .waitStripes next =>
      if s.reshapeStripes = [] then
        some { s with
          reshapePosition := s.reshapeProgress, sbChange := true, stage := .waitSuper next }
      else none
    | _ => none
  | .superSeen =>
    match s.stage with
    | .waitSuper next =>
      if s.sbChange then none
      else
        some { s with
          reshapeSafe := s.reshapePosition
          stage := match next with
            | none => .idle
            | some addr => .schedule addr }
    | _ => none
  | .schedule due =>
    match s.stage with
    | .schedule addr => some (m.schedule s addr due)
    | _ => none
  | .restart =>
    match s.stage with
    | .schedule _ => none
    | _ => some { s with sectorNr := 0, stage := .idle }
  | .superStart =>
    -- `md_update_sb` clears the flag and fills the superblocks before it writes them
    if s.sbWriting = none then
      some { s with sbChange := false, sbWriting := some s.reshapePosition }
    else none
  | .superDone =>
    s.sbWriting.map fun position => { s with sbWriting := none, sbPosition := position }
  | .stripeDone sector =>
    if sector ∈ s.reshapeStripes then
      some { s with reshapeStripes := s.reshapeStripes.erase sector }
    else none

/-- Where the thread is between calls, or in the update at the end of one. -/
def Stage.Rests (stage : Stage) : Prop := stage = .idle ∨ stage = .waitStripes none

/-- What a step can do. -/
inductive Change (s : State) : Event → State → Prop
  | skip (timeout due : Bool) (hidle : s.stage = .idle) (hskip : m.skipTo s ≠ 0) {stage : Stage}
      (hrests : stage.Rests) :
      Change s (.enter timeout due) { s with sectorNr := m.skipTo s, stage := stage }
  | wait (timeout due : Bool) (hidle : s.stage = .idle)
    (hlt : s.sectorNr < m.devSectors) {addr : Nat}
      (haddr : m.stripeAddr? s = some addr) :
      Change s (.enter timeout due) { s with stage := .waitStripes (some addr) }
  | ready (timeout due : Bool) (hidle : s.stage = .idle)
    (hlt : s.sectorNr < m.devSectors) {addr : Nat}
      (haddr : m.stripeAddr? s = some addr)
      (hsafe : m.mustUpdate (m.withOffset (m.positions s.reshapeProgress s.reshapeSafe)) = false) :
      Change s (.enter timeout due) { s with stage := .schedule addr }
  | record {next : Option Nat} (hstage : s.stage = .waitStripes next)
    (hdone : s.reshapeStripes = []) :
      Change s .stripesDone
        { s with reshapePosition := s.reshapeProgress, sbChange := true, stage := .waitSuper next }
  | recorded {next : Option Nat} (hstage : s.stage = .waitSuper next) (hflag : s.sbChange = false) :
      Change s .superSeen
        { s with reshapeSafe := s.reshapePosition, stage := next.elim .idle .schedule }
  | schedule {addr : Nat} (hstage : s.stage = .schedule addr) (due : Bool) :
      Change s (.schedule due) (m.schedule s addr due)
  | restart : Change s .restart { s with sectorNr := 0, stage := .idle }
  | superStart (hs : s.sbWriting = none) :
      Change s .superStart { s with sbChange := false, sbWriting := some s.reshapePosition }
  | superDone {position : Nat} (hs : s.sbWriting = some position) :
      Change s .superDone { s with sbWriting := none, sbPosition := position }
  | stripeDone {sector : Nat} (hs : sector ∈ s.reshapeStripes) :
      Change s (.stripeDone sector) { s with reshapeStripes := s.reshapeStripes.erase sector }

theorem step_change {m : Mddev} {s s' : State} {e : Event} (hs : m.step s e = some s') :
    m.Change s e s' := by
  cases e with
  | enter timeout due =>
    obtain ⟨⟨hidle, hlt⟩, hs⟩ := Option.ite_none_right_eq_some.mp hs
    unfold Mddev.enter at hs
    by_cases hskip : m.skipTo s ≠ 0
    · rw [if_pos hskip] at hs
      cases hs
      refine .skip timeout due hidle hskip ?_
      cases due
      · exact .inl rfl
      · exact .inr rfl
    · rw [if_neg hskip] at hs
      obtain ⟨addr, haddr, rfl⟩ := Option.map_eq_some_iff.mp hs
      dsimp only
      split_ifs with hupdate
      · exact .wait timeout due hidle hlt haddr
      · simp only [Bool.or_eq_true, not_or, Bool.not_eq_true] at hupdate
        exact .ready timeout due hidle hlt haddr hupdate.1
  | stripesDone =>
    simp only [Mddev.step] at hs
    split at hs
    · next next hstage =>
        obtain ⟨hdone, rfl⟩ := Runs.of_guard hs
        exact .record hstage hdone
    · cases hs
  | superSeen =>
    simp only [Mddev.step] at hs
    split at hs
    · next next hstage =>
        obtain ⟨hflag, rfl⟩ := Runs.guard_eq_some.mp hs
        have hnext : (match next with
          | none => Stage.idle
          | some addr => .schedule addr) = next.elim .idle .schedule := by cases next <;> rfl
        rw [hnext]
        exact .recorded hstage (Bool.eq_false_iff.mpr hflag)
    · cases hs
  | schedule due =>
    simp only [Mddev.step] at hs
    split at hs
    · next addr hstage =>
        cases hs
        exact .schedule hstage due
    · cases hs
  | restart =>
    simp only [Mddev.step] at hs
    split at hs
    · cases hs
    · cases hs
      exact .restart
  | superStart =>
    obtain ⟨hnone, rfl⟩ := Runs.of_guard hs
    exact .superStart hnone
  | superDone =>
    obtain ⟨position, hwriting, rfl⟩ := Option.map_eq_some_iff.mp hs
    exact .superDone hwriting
  | stripeDone sector =>
    obtain ⟨hmem, rfl⟩ := Runs.of_guard hs
    exact .stripeDone hmem

/-- A reshape just started, or one to be continued. -/
inductive Starts : State → Prop
  | start : Starts m.startReshape
  | resumed {position : Nat} {ro : Bool} {s : State} (h : m.continueReshape position ro = some s) :
      Starts s

/-! ## The old stripes -/

/-- The first and the last sector of the old stripes the blocks of the step come from. -/
def sourceRange (stripeAddr : Nat) : Option (Nat × Nat) :=
  (raid5ComputeSector m.conf (sectorT (stripeAddr * m.newDataDisks)) true).bind fun first =>
    (raid5ComputeSector m.conf
      (sectorT ((stripeAddr + m.reshapeSectors) * m.newDataDisks - 1)) true).map fun last =>
        (first.newSector, if last.newSector ≥ m.devSectors then m.devSectors - 1 else
          last.newSector)

/-- The old stripes that are marked `STRIPE_EXPAND_SOURCE`. -/
def sources (stripeAddr : Nat) : List Nat :=
  match m.sourceRange stripeAddr with
  | none => []
  | some (first, last) =>
    (List.range ((last + stripeSectors - first) / stripeSectors)).map fun i =>
      first + i * stripeSectors

end Mddev

end MdRaid.Reshape
