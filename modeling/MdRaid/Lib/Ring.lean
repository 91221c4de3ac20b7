import Mathlib

/-!
# Positions on a ring

A log that wraps around reuses each place of its device once per lap. A position is
kept twice: the place, which is all the program knows, and the distance from the
start of the first lap, which says which lap is meant.
-/

namespace MdRaid.RingLog

open Nat

/-- The place `inc` behind `start`, wrapping once. -/
def add (size start inc : Nat) : Nat :=
  if start + inc ≥ size then start + inc - size else start + inc

/-- How far `stop` is ahead of `start`. -/
def distance (size start stop : Nat) : Nat :=
  if stop ≥ start then stop - start else stop + size - start

structure Pos where
  sector : Nat
  abs : Nat
deriving DecidableEq, Repr

def Pos.advance (size inc : Nat) (p : Pos) : Pos := ⟨add size p.sector inc, p.abs + inc⟩

/-- The position `n` steps of `inc` behind `p`. -/
def Pos.steps (size inc : Nat) (p : Pos) : Nat → Pos
  | 0 => p
  | n + 1 => (Pos.steps size inc p n).advance size inc

/-- The place is that of the absolute position. -/
def Pos.On (size : Nat) (p : Pos) : Prop := p.sector = p.abs % size

theorem add_mod {size a inc : Nat} (hsize : 0 < size) (hinc : inc ≤ size) :
    add size (a % size) inc = (a + inc) % size := by
  have hlt := mod_lt a hsize
  rw [← mod_add_mod]
  unfold add
  generalize a % size = r at hlt ⊢
  split_ifs with hwrap
  · rcases hinc.lt_or_eq with hinc | rfl
    · rw [mod_eq_sub_mod hwrap, mod_eq_of_lt (by omega)]
    · rw [Nat.add_sub_cancel, Nat.add_mod_right, Nat.mod_eq_of_lt hlt]
  · rw [mod_eq_of_lt (by omega)]

theorem Pos.On.advance {size inc : Nat} {p : Pos} (h : p.On size) (hsize : 0 < size)
    (hinc : inc ≤ size) : (p.advance size inc).On size := by
  unfold Pos.On at h
  simp only [Pos.On, Pos.advance, h, add_mod hsize hinc]

theorem Pos.On.steps {size inc : Nat} {p : Pos} (h : p.On size) (hsize : 0 < size)
    (hinc : inc ≤ size) : ∀ n, (p.steps size inc n).On size
  | 0 => h
  | n + 1 => (h.steps hsize hinc n).advance hsize hinc

/-- Within one lap the distance of the places is the distance of the positions. -/
theorem distance_mod {size a b : Nat} (hle : a ≤ b) (hlap : b < a + size) :
    distance size (a % size) (b % size) = b - a := by
  have hsize : 0 < size := by omega
  have ha := mod_lt a hsize
  have hb : b % size = (a % size + (b - a)) % size := by
    rw [Nat.mod_add_mod, Nat.add_sub_cancel' hle]
  unfold distance
  by_cases hwrap : a % size + (b - a) < size
  · rw [hb, Nat.mod_eq_of_lt hwrap, if_pos (by omega), Nat.add_sub_cancel_left]
  · rw [hb, mod_eq_sub_mod (by omega), mod_eq_of_lt (by omega), if_neg (by omega)]
    omega

theorem distance_on {size : Nat} {p q : Pos} (hp : p.On size) (hq : q.On size)
    (hle : p.abs ≤ q.abs) (hlap : q.abs < p.abs + size) :
    distance size p.sector q.sector = q.abs - p.abs := by
  rw [hp, hq, distance_mod hle hlap]

/-- Two positions less than a lap apart have different places. -/
theorem mod_ne_mod {size a b : Nat} (hlt : a < b) (hlap : b < a + size) : a % size ≠ b % size := by
  intro heq
  have hdist := distance_mod hlt.le hlap
  rw [heq, distance, if_pos le_rfl] at hdist
  omega

end MdRaid.RingLog
