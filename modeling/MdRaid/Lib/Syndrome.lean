import Mathlib

/-!
# Two weighted sums and what they determine

A family of blocks `d i`, indexed by a finite set and taken from a vector space,
is summarised by its plain sum and by its sum weighted with coefficients `g i`.
One lost block is determined by either sum, two lost blocks by both sums as soon
as their coefficients differ. In characteristic two, replacing some of the blocks
adds their old and their new contents to the sum.
-/

namespace MdRaid.Syndrome

open Function Finset

variable {ι F M : Type*} [Field F] [AddCommGroup M] [Module F M]

/-- The sum of the blocks of `s`, each weighted with its coefficient. -/
def wsum (s : Finset ι) (g : ι → F) (d : ι → M) : M := ∑ i ∈ s, g i • d i

theorem wsum_one (s : Finset ι) (d : ι → M) : wsum s (fun _ => (1 : F)) d = ∑ i ∈ s, d i := by
  simp [wsum]

theorem wsum_congr {s : Finset ι} {g : ι → F} {d e : ι → M} (h : ∀ i ∈ s, d i = e i) :
    wsum s g d = wsum s g e :=
  sum_congr rfl fun i hi => by rw [h i hi]

/-! ## Characteristic two -/

section CharTwo

variable (F) [CharP F 2]

include F in
theorem add_self (x : M) : x + x = 0 := by
  have htwo : (2 : F) = 0 := CharTwo.two_eq_zero
  rw [← two_smul F x, htwo, zero_smul]

/-- Adding the old and the new contents of the replaced blocks to a sum replaces them. -/
theorem wsum_exchange {s : Finset ι} (g : ι → F) {d e : ι → M} (w : ι → Bool)
    (hoff : ∀ i ∈ s, w i = false → d i = e i) :
    wsum s g d + wsum s g (fun i => if w i then d i else 0) +
      wsum s g (fun i => if w i then e i else 0) = wsum s g e := by
  unfold wsum
  rw [← sum_add_distrib, ← sum_add_distrib]
  refine sum_congr rfl fun i hi => ?_
  cases hw : w i with
  | true =>
    simp only [hw, if_true]
    rw [add_self F, zero_add]
  | false => simp [hw, hoff i hi hw]

/-- The same for the blocks of a part of `s`. -/
theorem wsum_exchange_subset [DecidableEq ι] {s t : Finset ι} (hts : t ⊆ s) (g : ι → F)
    {d e : ι → M}
    (hoff : ∀ i ∈ s, i ∉ t → d i = e i) : wsum s g d + wsum t g d + wsum t g e = wsum s g e := by
  have hrest : wsum (s \ t) g d = wsum (s \ t) g e := by
    refine wsum_congr fun i hi => ?_
    rw [mem_sdiff] at hi
    exact hoff i hi.1 hi.2
  unfold wsum at hrest ⊢
  rw [← sum_sdiff hts, hrest, add_assoc (∑ i ∈ s \ t, _), add_self F, add_zero]
  exact sum_sdiff hts

end CharTwo

/-! ## Lost blocks -/

section Erasure

variable {s : Finset ι} {g : ι → F} {d e : ι → M}

theorem wsum_sub (s : Finset ι) (g : ι → F) (d e : ι → M) :
    wsum s g (d - e) = wsum s g d - wsum s g e := by
  simp [wsum, smul_sub, sum_sub_distrib]

/-- A difference that vanishes off `a` leaves one term of the sum. -/
theorem wsum_single {a : ι} (ha : a ∈ s) (hoff : ∀ i ∈ s, i ≠ a → d i = 0) :
    wsum s g d = g a • d a := by
  refine sum_eq_single_of_mem a ha fun i hi hia => ?_
  rw [hoff i hi hia, smul_zero]

theorem wsum_pair {a b : ι} (hab : a ≠ b) (ha : a ∈ s) (hb : b ∈ s)
    (hoff : ∀ i ∈ s, i ≠ a → i ≠ b → d i = 0) : wsum s g d = g a • d a + g b • d b := by
  refine sum_eq_add_of_mem a b ha hb hab fun i hi hne => ?_
  rw [hoff i hi hne.1 hne.2, smul_zero]

/-- One lost block is determined by any sum in which its coefficient is not zero. -/
theorem eq_of_wsum_eq {a : ι} (ha : a ∈ s) (hg : g a ≠ 0)
    (hoff : ∀ i ∈ s, i ≠ a → d i = e i) (hq : wsum s g d = wsum s g e) : d a = e a := by
  have hdiff : wsum s g (d - e) = g a • (d - e) a :=
    wsum_single ha fun i hi hia => sub_eq_zero.mpr (hoff i hi hia)
  rw [wsum_sub, hq, sub_self] at hdiff
  rcases smul_eq_zero.mp hdiff.symm with h | h
  · exact absurd h hg
  · exact sub_eq_zero.mp h

/-- Two lost blocks with different coefficients are determined by both sums. -/
theorem eq_of_sums_eq {a b : ι} (hab : a ≠ b) (ha : a ∈ s) (hb : b ∈ s)
    (hg : g a ≠ g b) (hoff : ∀ i ∈ s, i ≠ a → i ≠ b → d i = e i)
    (hp : ∑ i ∈ s, d i = ∑ i ∈ s, e i) (hq : wsum s g d = wsum s g e) : d a = e a ∧ d b = e b := by
  have hzero : ∀ i ∈ s, i ≠ a → i ≠ b → (d - e) i = 0 := fun i hi hia hib =>
    sub_eq_zero.mpr (hoff i hi hia hib)
  have hpd := wsum_pair (g := fun _ => (1 : F)) hab ha hb hzero
  have hqd := wsum_pair (g := g) hab ha hb hzero
  rw [wsum_sub, wsum_one, wsum_one, hp, sub_self, one_smul, one_smul] at hpd
  rw [wsum_sub, hq, sub_self] at hqd
  -- the plain equation gives one difference as the opposite of the other
  have hb' : (d - e) b = -(d - e) a := (neg_eq_of_add_eq_zero_right hpd.symm).symm
  rw [hb', smul_neg, ← sub_eq_add_neg, ← sub_smul] at hqd
  have haz : (d - e) a = 0 := (smul_eq_zero.mp hqd.symm).resolve_left (sub_ne_zero.mpr hg)
  rw [haz, neg_zero] at hb'
  exact ⟨sub_eq_zero.mp haz, sub_eq_zero.mp hb'⟩

end Erasure

/-! ## Solving for lost blocks -/

section Solve

variable [DecidableEq ι] (s : Finset ι) (g : ι → F) (d : ι → M)

theorem wsum_update {a : ι} (ha : a ∈ s) (x : M) :
    wsum s g (update d a x) = wsum (s.erase a) g d + g a • x := by
  unfold wsum
  rw [← sum_erase_add s _ ha, update_self]
  congr 1
  exact sum_congr rfl fun i hi => by rw [update_of_ne (ne_of_mem_erase hi)]

theorem wsum_update_pair {a b : ι} (hab : a ≠ b) (ha : a ∈ s) (hb : b ∈ s) (x y : M) :
    wsum s g (update (update d a x) b y) = wsum ((s.erase b).erase a) g d + g a • x + g b • y := by
  rw [wsum_update s g _ hb, wsum_update (s.erase b) g d (mem_erase.mpr ⟨hab, ha⟩)]

/-- The block at `a` that makes the weighted sum `q`. -/
def solveOne (a : ι) (q : M) : M := (g a)⁻¹ • (q - wsum (s.erase a) g d)

theorem wsum_solveOne {a : ι} (ha : a ∈ s) (hg : g a ≠ 0) (q : M) :
    wsum s g (update d a (solveOne s g d a q)) = q := by
  rw [wsum_update s g d ha, solveOne, smul_inv_smul₀ hg]
  abel

/-- The blocks at `a` and `b` that make the plain sum `p` and the weighted sum `q`. -/
def solveTwo (a b : ι) (p q : M) : M × M :=
  let p' := p - wsum ((s.erase b).erase a) (fun _ => (1 : F)) d
  let q' := q - wsum ((s.erase b).erase a) g d
  let x := (g a - g b)⁻¹ • (q' - g b • p')
  (x, p' - x)

variable {s g d} {a b : ι} {p q : M}

theorem solveTwo_snd : (solveTwo s g d a b p q).2 =
    p - wsum ((s.erase b).erase a) (fun _ => (1 : F)) d - (solveTwo s g d a b p q).1 := rfl

theorem solveTwo_plain (hab : a ≠ b) (ha : a ∈ s) (hb : b ∈ s) :
    ∑ i ∈ s, (update (update d a (solveTwo s g d a b p q).1) b
      (solveTwo s g d a b p q).2) i = p := by
  rw [← wsum_one (F := F), wsum_update_pair s _ d hab ha hb, one_smul, one_smul, solveTwo_snd]
  abel

/-- With different coefficients, or whenever there is a solution at all. -/
theorem solveTwo_weighted (hab : a ≠ b) (ha : a ∈ s) (hb : b ∈ s)
    (hsol : g a ≠ g b ∨ ∃ x y, ∑ i ∈ s, (update (update d a x) b y) i = p ∧
      wsum s g (update (update d a x) b y) = q) :
    wsum s g (update (update d a (solveTwo s g d a b p q).1) b (solveTwo s g d a b p q).2) = q := by
  have hlin : (g a - g b) • (solveTwo s g d a b p q).1 =
      q - wsum ((s.erase b).erase a) g d -
        g b • (p - wsum ((s.erase b).erase a) (fun _ => (1 : F)) d) := by
    by_cases hg : g a = g b
    · -- equal coefficients: the two equations say the same
      obtain ⟨x, y, hp, hq⟩ := hsol.resolve_left fun h => h hg
      rw [← wsum_one (F := F), wsum_update_pair s _ d hab ha hb, one_smul, one_smul] at hp
      rw [wsum_update_pair s _ d hab ha hb, hg] at hq
      rw [hg, sub_self, zero_smul, ← hp, ← hq]
      simp only [smul_sub, smul_add]
      abel
    · exact smul_inv_smul₀ (sub_ne_zero.mpr hg) _
  rw [wsum_update_pair s _ d hab ha hb, solveTwo_snd, smul_sub (g b)]
  rw [sub_smul] at hlin
  rw [add_assoc, ← add_sub_assoc, add_sub_right_comm, hlin]
  abel

end Solve

end MdRaid.Syndrome
