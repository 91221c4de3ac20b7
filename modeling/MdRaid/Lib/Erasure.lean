import Mathlib

/-!
# Systematic erasure codes

A code stores `k` symbols and combinations of them. With coefficients `1 / (x i - x j)` every stored
symbol is, up to a factor, a value of one polynomial of degree below `k`.
-/

namespace MdRaid.Erasure

open Finset Lagrange Polynomial

variable {F : Type*} [Field F] {m k : Nat} {coef : Nat → Nat → F}

/-- The rows of the identity, and below them the coefficients. -/
def entry (k : Nat) (coef : Nat → Nat → F) (r c : Nat) : F :=
  if r < k then if r = c then 1 else 0 else coef r c

theorem sum_entry {r : Nat} (hr : r < k) (v : Fin k → F) :
    ∑ c : Fin k, entry k coef r c * v c = v ⟨r, hr⟩ := by
  rw [sum_eq_single_of_mem ⟨r, hr⟩ (mem_univ _) fun c _ hc => by
      rw [entry, if_pos hr, if_neg fun h => hc (Fin.ext h.symm), zero_mul],
    entry, if_pos hr, if_pos rfl, one_mul]

theorem eq_zero_of_cauchy {x : Nat → F} (hx : Set.InjOn x (Set.Iio m)) (hkm : k ≤ m)
    {rows : Fin k → Nat} (hinj : rows.Injective) (hrows : ∀ r, rows r < m) {v : Fin k → F}
    (hv : ∀ r, ∑ c : Fin k, entry k (fun i j => (x i - x j)⁻¹) (rows r) c * v c = 0) : v = 0 := by
  let y : Fin k → F := fun c => x c
  have hlt : ∀ c : Fin k, c.val < m := fun c => c.isLt.trans_le hkm
  have hy : Set.InjOn y (univ : Finset (Fin k)) := fun c _ c' _ h => Fin.ext (hx (hlt c) (hlt c') h)
  have hw : ∀ c, nodalWeight univ y c ≠ 0 := fun c => nodalWeight_ne_zero hy (mem_univ c)
  let p := interpolate univ y fun c => (nodalWeight univ y c)⁻¹ * v c
  have hnode : ∀ c, p.eval (y c) = (nodalWeight univ y c)⁻¹ * v c := fun c =>
    eval_interpolate_at_node _ hy (mem_univ c)
  have hp : p = 0 := by
    refine eq_zero_of_degree_lt_of_eval_index_eq_zero (v := fun r => x (rows r)) univ
      (fun r _ r' _ h => hinj (hx (hrows r) (hrows r') h)) (degree_interpolate_lt _ hy)
        fun r _ => ?_
    have hr := hv r
    rcases lt_or_ge (rows r) k with hdata | hge
    · rw [sum_entry hdata] at hr
      exact (hnode ⟨rows r, hdata⟩).trans (by rw [hr, mul_zero])
    · rw [eval_interpolate_not_at_node _ fun c _ h => ?_, sum_congr rfl fun c _ => ?_, hr, mul_zero]
      · rw [entry, if_neg (not_lt.mpr hge), mul_comm (nodalWeight univ y c), mul_assoc,
          mul_inv_cancel_left₀ (hw c)]
      · exact (c.isLt.trans_le hge).ne' (hx (hrows r) (hlt c) h)
  funext c
  have hc := hnode c
  rw [hp, eval_zero] at hc
  exact (mul_eq_zero.mp hc.symm).resolve_left (inv_ne_zero (hw c))

end MdRaid.Erasure
