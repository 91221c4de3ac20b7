import Mathlib

/-!
# Restarting an interrupted reshape

When an array with a recorded reshape is started, `raid5_run` compares the stripe that would
be written next with the first old stripe that may still be read, and refuses the array if
they are too close. The stripes are unsigned 64-bit sector numbers, and the difference of the
data offsets, which is signed, is added to them modulo `2 ^ 64`.
-/

namespace MdRaid.Reshape.Restart

/-- The comparison of the stripe to be written next with the first that may be read. -/
def tooClose (backwards : Bool) (hereNew hereOld : Nat) (minOffsetDiff : Int) : Bool :=
  let hereNew := BitVec.ofNat 64 hereNew
  let hereOld := BitVec.ofNat 64 hereOld
  if backwards then hereNew + BitVec.ofInt 64 minOffsetDiff ≤ hereOld
  else hereOld + BitVec.ofInt 64 (-minOffsetDiff) ≤ hereNew

/-- A member of the array, as `raid5_run` looks at it. -/
structure Member where
  journal : Bool
  raidDisk : Int
  dataOffset : BitVec 64
  newDataOffset : BitVec 64
  deriving DecidableEq

/-- `diff`, a `long long`. -/
def Member.diff (rdev : Member) : Int := (rdev.newDataOffset - rdev.dataOffset).toInt

structure Mddev where
  rdevs : List Member
  level6 : Bool
  levelChanges : Bool
  hasJournal : Bool
  hasBitmap : Bool
  raidDisks : Nat
  deltaDisks : Int
  chunkSectors : Nat
  newChunkSectors : Nat
  reshapePosition : BitVec 64
  reshapeBackwards : Bool
  readOnly : Bool

namespace Mddev

variable (m : Mddev)

/-- The devices of the array. -/
def members : List Member := m.rdevs.filter fun rdev => !rdev.journal && decide (0 ≤ rdev.raidDisk)

/-- `min_offset_diff`: the least difference backwards, and the greatest forwards. -/
def minOffsetDiff : Int :=
  match m.members with
  | [] => 0
  | rdev :: rest => rest.foldl (fun d rdev =>
    if m.reshapeBackwards then min d rdev.diff else max d rdev.diff) rdev.diff

def journalDev : Bool := m.rdevs.any (·.journal)

def maxDegraded : Nat := if m.level6 then 2 else 1

/-- The chunk size a reshape proceeds in. -/
def chunk : Nat := max m.chunkSectors m.newChunkSectors

def newDataDisks : Nat := m.raidDisks - m.maxDegraded

def oldDataDisks : Nat := (m.raidDisks - m.deltaDisks).toNat - m.maxDegraded

/-- The divisor of `sector_div` for a number of data disks. -/
def row (disks : Nat) : Nat := m.chunk * disks % 2 ^ 32

/-- The start of the stripe at the reshape position, on the devices. For the new data disks
it is written next, for the old ones it is the first that may have to be read. -/
def here (disks : Nat) : Nat := m.reshapePosition.toNat / m.row disks * m.chunk

def tooEarly : Bool :=
  tooClose m.reshapeBackwards (m.here m.newDataDisks) (m.here m.oldDataDisks) m.minOffsetDiff

/-- `raid5_run` returns `-EINVAL` for another reason. -/
def otherwiseRefused : Bool :=
  ((m.hasJournal || m.journalDev) && m.hasBitmap) || m.journalDev || m.levelChanges ||
    decide (m.reshapePosition.toNat % m.row m.newDataDisks ≠ 0)

/-- `raid5_run` returns `-EINVAL` for an array with a recorded reshape. -/
def refused : Bool :=
  m.otherwiseRefused ||
    if m.deltaDisks = 0 then
      !(decide (m.chunkSectors ≤ m.minOffsetDiff.natAbs) &&
        decide (m.newChunkSectors ≤ m.minOffsetDiff.natAbs)) && !m.readOnly
    else m.tooEarly

/-! ## What it has to refuse -/

/-- Where the stripe at the reshape position starts. -/
def stripe (disks : Nat) : Int := m.reshapePosition.toNat / (m.chunk * disks) * m.chunk

/-- With a difference `d` of the offsets the next stripe to be written is not strictly behind
(backwards) or before (forwards) the first stripe to be read. -/
def Close (d : Int) : Prop :=
  if m.reshapeBackwards then m.stripe m.newDataDisks + d ≤ m.stripe m.oldDataDisks
  else m.stripe m.oldDataDisks - d ≤ m.stripe m.newDataDisks

/-- The stripes are too close on some device. -/
def Unsafe : Prop := ∃ rdev ∈ m.members, m.Close rdev.diff

/-- The sum is negative, and as an unsigned number it is beyond the other stripe. -/
def Wraps : Prop :=
  if m.reshapeBackwards then
    m.stripe m.newDataDisks + m.minOffsetDiff < 0 ∧
      m.stripe m.oldDataDisks < m.stripe m.newDataDisks + m.minOffsetDiff + 2 ^ 64
  else
    m.stripe m.oldDataDisks - m.minOffsetDiff < 0 ∧
      m.stripe m.newDataDisks < m.stripe m.oldDataDisks - m.minOffsetDiff + 2 ^ 64

instance : Decidable m.Unsafe :=
  inferInstanceAs (Decidable (∃ rdev ∈ m.members, ite _ _ _))

end Mddev

variable {m : Mddev}

/-- A property of the difference the loop keeps, if the loop keeps the worse one. -/
theorem foldl_diff_iff {P : Int → Prop} {f : Int → Int → Int}
    (hf : ∀ a b, P (f a b) ↔ P a ∨ P b) : ∀ (l : List Member) (d : Int),
      P (l.foldl (fun d rdev => f d rdev.diff) d) ↔ P d ∨ ∃ rdev ∈ l, P rdev.diff
  | [], d => by simp
  | rdev :: l, d => by
    rw [List.foldl_cons, foldl_diff_iff hf l, hf, or_assoc]
    simp

/-- `min_offset_diff` belongs to the device that is closest to trouble. -/
theorem unsafe_iff_close (hm : m.members ≠ []) : m.Unsafe ↔ m.Close m.minOffsetDiff := by
  obtain ⟨first, rest, hlist⟩ := List.exists_cons_of_ne_nil hm
  unfold Mddev.Unsafe Mddev.minOffsetDiff
  rw [hlist]
  have hpick : ∀ a b, m.Close (if m.reshapeBackwards then min a b else max a b) ↔
      m.Close a ∨ m.Close b := by
    intro a b
    unfold Mddev.Close
    split <;> omega
  have hfold := foldl_diff_iff hpick rest first.diff
  exact Iff.trans (by simp) hfold.symm

theorem minOffsetDiff_bounds : -2 ^ 63 ≤ m.minOffsetDiff ∧ m.minOffsetDiff < 2 ^ 63 := by
  have hdiff : ∀ rdev : Member, -2 ^ 63 ≤ rdev.diff ∧ rdev.diff < 2 ^ 63 := fun rdev =>
    ⟨BitVec.le_toInt _, BitVec.toInt_lt⟩
  have hfold : ∀ (l : List Member) (d : Int), -2 ^ 63 ≤ d ∧ d < 2 ^ 63 →
      let r := l.foldl (fun d rdev =>
        if m.reshapeBackwards then min d rdev.diff else max d rdev.diff) d
      (-2 ^ 63 ≤ r ∧ r < 2 ^ 63) := by
    intro l
    induction l with
    | nil => exact fun d hd => hd
    | cons rdev l ih =>
      intro d hd
      refine ih _ ?_
      have := hdiff rdev
      dsimp only
      split <;> omega
  unfold Mddev.minOffsetDiff
  split
  · decide
  · exact hfold _ _ (hdiff _)

/-- Without wrapping of the row, the code computes the stripes. -/
theorem here_eq {disks : Nat} (h : m.chunk * disks < 2 ^ 32) :
    (m.here disks : Int) = m.stripe disks ∧ m.here disks < 2 ^ 64 := by
  rw [Mddev.here, Mddev.row, Nat.mod_eq_of_lt h]
  refine ⟨by simp [Mddev.stripe], lt_of_le_of_lt ?_ m.reshapePosition.isLt⟩
  rw [← Nat.div_div_eq_div_mul, Nat.div_right_comm]
  exact (Nat.div_mul_le_self _ _).trans (Nat.div_le_self _ _)

/-- The comparison is the right one up to wrapping. -/
theorem close_and_not_tooEarly_iff (hnew : m.chunk * m.newDataDisks < 2 ^ 32)
    (hold : m.chunk * m.oldDataDisks < 2 ^ 32) :
    (m.Close m.minOffsetDiff ∧ m.tooEarly = false) ↔ m.Wraps := by
  obtain ⟨hn, hnlt⟩ := here_eq hnew
  obtain ⟨ho, holt⟩ := here_eq hold
  obtain ⟨hlow, hhigh⟩ := @minOffsetDiff_bounds m
  unfold Mddev.Close Mddev.Wraps Mddev.tooEarly tooClose
  rw [← hn, ← ho]
  cases m.reshapeBackwards
  · simp only [Bool.false_eq_true, if_false, decide_eq_false_iff_not, BitVec.le_def,
      BitVec.toNat_add, BitVec.toNat_ofNat, BitVec.toNat_ofInt]
    omega
  · simp only [if_true, decide_eq_false_iff_not, BitVec.le_def, BitVec.toNat_add,
      BitVec.toNat_ofNat, BitVec.toNat_ofInt]
    omega

/-- **Unsafe positions are refused exactly when the sum does not wrap**, for arrays that are
not refused for another reason. -/
theorem unsafe_refused_iff (m : Mddev) (hdelta : m.deltaDisks ≠ 0)
    (hnew : m.chunk * m.newDataDisks < 2 ^ 32) (hold : m.chunk * m.oldDataDisks < 2 ^ 32) :
    (m.Unsafe → m.refused = true) ↔ (m.otherwiseRefused = true ∨ ¬ m.Wraps) := by
  have hrefused : m.refused = (m.otherwiseRefused || m.tooEarly) := by
    rw [Mddev.refused, if_neg hdelta]
  rw [hrefused, ← close_and_not_tooEarly_iff hnew hold, Bool.or_eq_true]
  by_cases hm : m.members = []
  · have hsafe : ¬ m.Unsafe := by simp [Mddev.Unsafe, hm]
    have hfar : ¬ (m.Close m.minOffsetDiff ∧ m.tooEarly = false) := by
      rw [close_and_not_tooEarly_iff hnew hold]
      have hzero : m.minOffsetDiff = 0 := by rw [Mddev.minOffsetDiff, hm]
      have hn := (here_eq hnew).1
      have ho := (here_eq hold).1
      unfold Mddev.Wraps
      split <;> omega
    exact ⟨fun _ => .inr hfar, fun _ h => absurd h hsafe⟩
  · rw [unsafe_iff_close hm]
    cases m.tooEarly <;> simp [imp_iff_not_or, or_comm]

/-- A reshape from four to five disks that is to write next the stripe it reads next. -/
def grown : Mddev where
  rdevs := [0, 1, 2, 3, 4].map fun i => ⟨false, i, 8, 8⟩
  level6 := false
  levelChanges := false
  hasJournal := false
  hasBitmap := false
  raidDisks := 5
  deltaDisks := 1
  chunkSectors := 8
  newChunkSectors := 8
  reshapePosition := 32
  reshapeBackwards := false
  readOnly := false

/-- At the start of the same reshape the position is refused. -/
theorem unsafe_refused_start : { grown with reshapePosition := 0 }.Unsafe ∧
      { grown with reshapePosition := 0 }.refused :=
  ⟨by decide, (unsafe_refused_iff { grown with reshapePosition := 0 } (by decide) (by decide)
    (by decide)).mpr (.inr (by unfold Mddev.Wraps; decide)) (by decide)⟩

/-- With a new data offset eight sectors higher, a forward reshape that starts at position
zero overwrites what it has to read, and it is accepted. -/
theorem unsafe_accepted : let m := { grown with
      rdevs := [0, 1, 2, 3, 4].map fun i => ⟨false, i, 8, 16⟩
      reshapePosition := 0 }
    m.Unsafe ∧ m.deltaDisks ≠ 0 ∧ m.refused = false := by
  decide

end MdRaid.Reshape.Restart
