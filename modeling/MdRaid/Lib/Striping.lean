import Mathlib

/-!
# Rows of chunks

Chunks of `c` units are dealt out to `n` columns in turn, starting with any column: a
unit goes to a column and to a place in it. On whole rows this is one to one, whatever
column comes first.
-/

namespace MdRaid.Striping

open Nat

/-- The column and the place in it of unit `o`, where chunk 0 goes to column `first % n`. -/
def stripe (first n c o : Nat) : Nat × Nat :=
  ((first + o / c) % n, o / (n * c) * c + o % c)

variable {first n c rows : Nat}

theorem stripe_mapsTo (hn : 0 < n) (hc : 0 < c) :
    Set.MapsTo (stripe first n c) (Set.Iio (rows * n * c)) (Set.Iio n ×ˢ Set.Iio (rows * c)) := by
  intro o ho
  have ho' : o < rows * (n * c) := by
    rw [← mul_assoc]
    exact ho
  have hrow : o / (n * c) < rows := (div_lt_iff_lt_mul (mul_pos hn hc)).mpr ho'
  refine ⟨mod_lt _ hn, ?_⟩
  calc o / (n * c) * c + o % c < o / (n * c) * c + c := Nat.add_lt_add_left (Nat.mod_lt o hc) _
    _ = (o / (n * c) + 1) * c := (succ_mul _ _).symm
    _ ≤ rows * c := mul_le_mul_right c hrow

theorem stripe_injective (hc : 0 < c) : Function.Injective (stripe first n c) := by
  intro o o' h
  obtain ⟨hcol, hplace⟩ := Prod.mk.inj h
  have hrow : o / (n * c) = o' / (n * c) := by
    have hdiv := congrArg (· / c) hplace
    simpa only [mul_comm _ c, mul_add_div hc, div_eq_of_lt (mod_lt _ hc), add_zero]
      using hdiv
  have hoff : o % c = o' % c := by
    have hmod := congrArg (· % c) hplace
    simpa only [mul_comm _ c, mul_add_mod, mod_mod] using hmod
  have hchunk : o / c = o' / c := by
    -- the same row, and the same column of it
    have hq : o / c / n = o' / c / n := by
      rw [Nat.div_div_eq_div_mul, Nat.div_div_eq_div_mul, mul_comm c, hrow]
    have hr : o / c % n = o' / c % n := Nat.ModEq.add_left_cancel' first hcol
    rw [← div_add_mod (o / c) n, ← div_add_mod (o' / c) n, hq, hr]
  rw [← div_add_mod o c, ← div_add_mod o' c, hchunk, hoff]

theorem stripe_surjOn (hn : 0 < n) (hc : 0 < c) :
    Set.SurjOn (stripe first n c) (Set.Iio (rows * n * c)) (Set.Iio n ×ˢ Set.Iio (rows * c)) := by
  rintro ⟨col, place⟩ ⟨hcol, hplace⟩
  have hcol' : col < n := hcol
  have hplace' : place < rows * c := hplace
  obtain ⟨k, hk, hmod⟩ : ∃ k < n, (first + k) % n = col := by
    refine ⟨(col + (n - first % n)) % n, mod_lt _ hn, ?_⟩
    rw [add_mod_mod, ← mod_add_mod, show first % n + (col + (n - first % n)) = col + n by
      have := mod_lt first hn
      omega, add_mod_right, mod_eq_of_lt hcol']
  have hoff := mod_lt place hc
  have hchunk : ((place / c * n + k) * c + place % c) / c = place / c * n + k := by
    rw [mul_comm _ c, mul_add_div hc, div_eq_of_lt hoff, add_zero]
  have hrow : ((place / c * n + k) * c + place % c) / (n * c) = place / c := by
    rw [mul_comm n c, ← Nat.div_div_eq_div_mul, hchunk, mul_comm _ n, Nat.mul_add_div hn,
      div_eq_of_lt hk, add_zero]
  refine ⟨(place / c * n + k) * c + place % c, ?_, ?_⟩
  · have hlt : place / c < rows := (div_lt_iff_lt_mul hc).mpr hplace'
    calc (place / c * n + k) * c + place % c < (place / c * n + k) * c + c := by omega
      _ = (place / c * n + k + 1) * c := (succ_mul _ _).symm
      _ ≤ ((place / c + 1) * n) * c := mul_le_mul_right c (by rw [succ_mul]; omega)
      _ ≤ rows * n * c := mul_le_mul_right c (mul_le_mul_right n hlt)
  · refine Prod.ext ?_ ?_
    · show (first + ((place / c * n + k) * c + place % c) / c) % n = col
      rw [hchunk, add_left_comm, mul_comm, mul_add_mod, hmod]
    · show ((place / c * n + k) * c + place % c) / (n * c) * c +
        ((place / c * n + k) * c + place % c) % c = place
      rw [hrow, mul_comm (place / c * n + k), mul_add_mod, mod_mod, div_add_mod']

variable (first rows) in
/-- **Striping whole rows is one to one.** -/
theorem stripe_bijOn (hn : 0 < n) (hc : 0 < c) :
    Set.BijOn (stripe first n c) (Set.Iio (rows * n * c)) (Set.Iio n ×ˢ Set.Iio (rows * c)) :=
  ⟨stripe_mapsTo hn hc, (stripe_injective hc).injOn, stripe_surjOn hn hc⟩

/-- One to one on two pieces with disjoint images is one to one on both. -/
theorem bijOn_union {α β : Type*} {f : α → β} {s₁ s₂ : Set α} {t₁ t₂ : Set β}
    (h₁ : Set.BijOn f s₁ t₁) (h₂ : Set.BijOn f s₂ t₂) (hdisj : Disjoint t₁ t₂) :
    Set.BijOn f (s₁ ∪ s₂) (t₁ ∪ t₂) := by
  refine h₁.union h₂ ?_
  rintro x (hx | hx) y (hy | hy) heq
  · exact h₁.injOn hx hy heq
  · exact absurd (h₂.mapsTo hy) (Set.disjoint_left.mp hdisj (heq ▸ h₁.mapsTo hx))
  · exact absurd (heq ▸ h₂.mapsTo hx) (Set.disjoint_left.mp hdisj (h₁.mapsTo hy))
  · exact h₂.injOn hx hy heq

end MdRaid.Striping
