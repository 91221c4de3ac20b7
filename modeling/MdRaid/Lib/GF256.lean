import Mathlib

/-!
# The field with 256 elements, modulo `x^8 + x^4 + x^3 + x^2 + 1`

Bytes with exclusive or as addition, and carry-less multiplication reduced by
`0x11d`. Multiplication is Horner's rule over the bits of the second factor, so
it is linear in both factors by induction on the number of bits. Every law of
the field then follows from its value on the eight single-bit bytes, and only
those finitely many cases are decided.
-/

namespace MdRaid

/-- A byte read as a polynomial over the field with two elements. -/
structure GF256 where
  byte : BitVec 8
deriving DecidableEq, Repr

namespace GF256

open BitVec Finset

@[ext] theorem ext' {a b : GF256} (h : a.byte = b.byte) : a = b := by
  cases a
  cases b
  exact congrArg mk h

/-! ## Multiplication by `x` -/

/-- Multiplication by `x`: shift, then reduce by `0x11d` when the top bit left. -/
def xtime (a : BitVec 8) : BitVec 8 :=
  (a <<< 1) ^^^ (if a.msb then 0x1d#8 else 0#8)

theorem ite_xor (p q : Bool) (a : BitVec 8) :
    (if (p ^^ q) = true then a else 0#8) =
      (if p = true then a else 0#8) ^^^ (if q = true then a else 0#8) := by
  cases p <;> cases q <;> simp

theorem xtime_zero : xtime 0#8 = 0#8 := by decide

theorem xtime_xor (a b : BitVec 8) : xtime (a ^^^ b) = xtime a ^^^ xtime b := by
  unfold xtime
  rw [shiftLeft_xor_distrib, msb_xor, ite_xor]
  ac_rfl

/-! ## Multiplication -/

/-- Horner's rule over the `n` lowest bits of `b`, highest first. -/
def horner (a b : BitVec 8) : Nat → BitVec 8 → BitVec 8
  | 0, acc => acc
  | n + 1, acc => horner a b n (xtime acc ^^^ (if b.getLsbD n then a else 0#8))

theorem horner_xor_left (a a' b : BitVec 8) : ∀ (n : Nat) (acc acc' : BitVec 8),
    horner (a ^^^ a') b n (acc ^^^ acc') = horner a b n acc ^^^ horner a' b n acc'
  | 0, _, _ => rfl
  | n + 1, acc, acc' => by
    have hstep : xtime (acc ^^^ acc') ^^^ (if b.getLsbD n then a ^^^ a' else 0#8) =
        (xtime acc ^^^ (if b.getLsbD n then a else 0#8)) ^^^
          (xtime acc' ^^^ (if b.getLsbD n then a' else 0#8)) := by
      rw [xtime_xor]
      cases b.getLsbD n
      · simp only [Bool.false_eq_true, if_false, xor_zero]
      · simp only [if_true]
        ac_rfl
    rw [horner, hstep, horner_xor_left a a' b n]
    rfl

theorem horner_xor_right (a b b' : BitVec 8) : ∀ (n : Nat) (acc acc' : BitVec 8),
    horner a (b ^^^ b') n (acc ^^^ acc') = horner a b n acc ^^^ horner a b' n acc'
  | 0, _, _ => rfl
  | n + 1, acc, acc' => by
    have hstep : xtime (acc ^^^ acc') ^^^ (if (b ^^^ b').getLsbD n then a else 0#8) =
        (xtime acc ^^^ (if b.getLsbD n then a else 0#8)) ^^^
          (xtime acc' ^^^ (if b'.getLsbD n then a else 0#8)) := by
      rw [xtime_xor, getLsbD_xor, ite_xor]
      ac_rfl
    rw [horner, hstep, horner_xor_right a b b' n]
    rfl

theorem horner_xtime (a b : BitVec 8) : ∀ (n : Nat) (acc : BitVec 8),
    horner (xtime a) b n (xtime acc) = xtime (horner a b n acc)
  | 0, _ => rfl
  | n + 1, acc => by
    have hstep : xtime (xtime acc) ^^^ (if b.getLsbD n then xtime a else 0#8) =
        xtime (xtime acc ^^^ (if b.getLsbD n then a else 0#8)) := by
      rw [xtime_xor]
      cases b.getLsbD n
      · simp only [Bool.false_eq_true, if_false, xtime_zero]
      · simp only [if_true]
    rw [horner, hstep, horner_xtime a b n]
    rfl

/-- The product of two bytes. -/
def mulByte (a b : BitVec 8) : BitVec 8 := horner a b 8 0#8

theorem mulByte_xor_left (a a' b : BitVec 8) :
    mulByte (a ^^^ a') b = mulByte a b ^^^ mulByte a' b := by
  have h := horner_xor_left a a' b 8 0#8 0#8
  rwa [BitVec.xor_self] at h

theorem mulByte_xor_right (a b b' : BitVec 8) :
    mulByte a (b ^^^ b') = mulByte a b ^^^ mulByte a b' := by
  have h := horner_xor_right a b b' 8 0#8 0#8
  rwa [BitVec.xor_self] at h

/-- A property of bytes closed under exclusive or holds everywhere once it holds
of zero and of the eight single bits. -/
theorem bit_induction {P : BitVec 8 → Prop} (hzero : P 0#8) (hxor : ∀ a b, P a → P b → P (a ^^^ b))
    (hbit : ∀ i : Fin 8, P (1#8 <<< i.val)) (a : BitVec 8) : P a := by
  have hsel : ∀ (c : Bool) (i : Fin 8), P (if c then 1#8 <<< i.val else 0#8) := by
    intro c i
    cases c
    · exact hzero
    · exact hbit i
  have hsplit : ∀ b : BitVec 8, b =
      (if b.getLsbD 0 then 1#8 <<< (0 : Fin 8).val else 0#8) ^^^
      (if b.getLsbD 1 then 1#8 <<< (1 : Fin 8).val else 0#8) ^^^
      (if b.getLsbD 2 then 1#8 <<< (2 : Fin 8).val else 0#8) ^^^
      (if b.getLsbD 3 then 1#8 <<< (3 : Fin 8).val else 0#8) ^^^
      (if b.getLsbD 4 then 1#8 <<< (4 : Fin 8).val else 0#8) ^^^
      (if b.getLsbD 5 then 1#8 <<< (5 : Fin 8).val else 0#8) ^^^
      (if b.getLsbD 6 then 1#8 <<< (6 : Fin 8).val else 0#8) ^^^
      (if b.getLsbD 7 then 1#8 <<< (7 : Fin 8).val else 0#8) := by
    decide +kernel
  rw [hsplit a]
  exact hxor _ _ (hxor _ _ (hxor _ _ (hxor _ _ (hxor _ _ (hxor _ _ (hxor _ _
    (hsel _ _) (hsel _ _)) (hsel _ _)) (hsel _ _)) (hsel _ _)) (hsel _ _)) (hsel _ _))
    (hsel _ _)

theorem mulByte_zero_left (b : BitVec 8) : mulByte 0#8 b = 0#8 := by
  have h := mulByte_xor_left 0#8 0#8 b
  rwa [BitVec.xor_self, BitVec.xor_self] at h

theorem mulByte_zero_right (a : BitVec 8) : mulByte a 0#8 = 0#8 := by
  have h := mulByte_xor_right a 0#8 0#8
  rwa [BitVec.xor_self, BitVec.xor_self] at h

theorem mulByte_comm (a b : BitVec 8) : mulByte a b = mulByte b a := by
  revert a
  refine bit_induction (P := fun b => ∀ a, mulByte a b = mulByte b a) ?_ ?_ ?_ b
  · intro a
    rw [mulByte_zero_left, mulByte_zero_right]
  · intro b b' hb hb' a
    rw [mulByte_xor_left, mulByte_xor_right, hb, hb']
  · intro i a
    refine bit_induction (P := fun a => mulByte a _ = mulByte _ a) ?_ ?_ ?_ a
    · rw [mulByte_zero_left, mulByte_zero_right]
    · intro a a' ha ha'
      rw [mulByte_xor_left, mulByte_xor_right, ha, ha']
    · revert i
      decide +kernel

theorem xtime_mulByte (a b : BitVec 8) : xtime (mulByte a b) = mulByte a (xtime b) := by
  have h := horner_xtime b a 8 0#8
  rw [xtime_zero] at h
  rw [mulByte_comm a, mulByte_comm a]
  exact h.symm

theorem xtime_iterate_mulByte (a : BitVec 8) : ∀ (n : Nat) (b : BitVec 8),
    xtime^[n] (mulByte a b) = mulByte a (xtime^[n] b)
  | 0, _ => rfl
  | n + 1, b => by
    rw [Function.iterate_succ_apply, xtime_mulByte, xtime_iterate_mulByte a n]
    rfl

/-- Multiplication by a single bit. -/
theorem mulByte_bit (a : BitVec 8) (i : Fin 8) : mulByte a (1#8 <<< i.val) = xtime^[i.val] a := by
  fin_cases i <;> simp [mulByte, horner, xtime_zero]

theorem mulByte_assoc (a b c : BitVec 8) : mulByte (mulByte a b) c = mulByte a (mulByte b c) := by
  refine bit_induction (P := fun c => mulByte (mulByte a b) c = mulByte a (mulByte b c)) ?_ ?_ ?_ c
  · rw [mulByte_zero_right, mulByte_zero_right, mulByte_zero_right]
  · intro c c' hc hc'
    rw [mulByte_xor_right, mulByte_xor_right, mulByte_xor_right, hc, hc']
  · intro i
    rw [mulByte_bit, mulByte_bit, xtime_iterate_mulByte]

theorem mulByte_one (a : BitVec 8) : mulByte a 1#8 = a := mulByte_bit a 0

/-! ## The ring -/

instance : Zero GF256 := ⟨⟨0#8⟩⟩
instance : One GF256 := ⟨⟨1#8⟩⟩
instance : Add GF256 := ⟨fun a b => ⟨a.byte ^^^ b.byte⟩⟩
instance : Neg GF256 := ⟨fun a => a⟩
instance : Sub GF256 := ⟨fun a b => ⟨a.byte ^^^ b.byte⟩⟩
instance : Mul GF256 := ⟨fun a b => ⟨mulByte a.byte b.byte⟩⟩

instance : CommRing GF256 where
  add_assoc a b c := ext' (BitVec.xor_assoc _ _ _)
  zero_add a := ext' zero_xor
  add_zero a := ext' xor_zero
  add_comm a b := ext' (BitVec.xor_comm _ _)
  neg_add_cancel a := ext' xor_self
  sub_eq_add_neg a b := rfl
  left_distrib a b c := ext' (mulByte_xor_right _ _ _)
  right_distrib a b c := ext' (mulByte_xor_left _ _ _)
  zero_mul a := ext' (mulByte_zero_left _)
  mul_zero a := ext' (mulByte_zero_right _)
  mul_assoc a b c := ext' (mulByte_assoc _ _ _)
  mul_comm a b := ext' (mulByte_comm _ _)
  one_mul a := ext' ((mulByte_comm _ _).trans (mulByte_one _))
  mul_one a := ext' (mulByte_one _)
  nsmul := nsmulRec
  zsmul := zsmulRec

instance : Nontrivial GF256 := ⟨0, 1, fun h => nomatch congrArg byte h⟩

/-! ## The generator -/

/-- The polynomial `x`, a generator of the non-zero bytes. -/
def alpha : GF256 := ⟨2#8⟩

theorem mulByte_two (a : BitVec 8) : mulByte a 2#8 = xtime a := mulByte_bit a 1

theorem alpha_pow_byte : ∀ n : Nat, (alpha ^ n).byte = xtime^[n] 1#8
  | 0 => rfl
  | n + 1 => by
    rw [pow_succ, Function.iterate_succ_apply', ← alpha_pow_byte n]
    exact mulByte_two _

theorem alpha_pow_255 : alpha ^ 255 = 1 := ext' (by rw [alpha_pow_byte]; decide +kernel)

theorem isUnit_alpha : IsUnit alpha :=
  IsUnit.of_mul_eq_one (alpha ^ 254) (by rw [← pow_succ', alpha_pow_255])

theorem orderOf_alpha : orderOf alpha = 255 := by
  refine orderOf_eq_of_pow_and_pow_div_prime (by norm_num) alpha_pow_255 ?_
  intro p hp hpd
  have hmem : p = 3 ∨ p = 5 ∨ p = 17 := by
    rw [show 255 = 3 * (5 * 17) from rfl, hp.dvd_mul, hp.dvd_mul] at hpd
    rwa [Nat.prime_dvd_prime_iff_eq hp (by norm_num), Nat.prime_dvd_prime_iff_eq hp (by norm_num),
      Nat.prime_dvd_prime_iff_eq hp (by norm_num)] at hpd
  intro h
  have hb := congrArg byte h
  rw [alpha_pow_byte] at hb
  rcases hmem with rfl | rfl | rfl <;> revert hb <;> decide +kernel

theorem le_of_alpha_pow_eq {i j : Nat} (hj : j < 255) (h : alpha ^ i = alpha ^ j) : j ≤ i := by
  by_contra hlt
  have hsplit : alpha ^ j = alpha ^ i * alpha ^ (j - i) := by
    rw [← pow_add, Nat.add_sub_cancel' (by omega)]
  have hone : alpha ^ (j - i) = 1 :=
    (isUnit_alpha.pow i).mul_left_cancel (by rw [← hsplit, mul_one, h])
  have hdvd := orderOf_dvd_of_pow_eq_one hone
  rw [orderOf_alpha] at hdvd
  have := Nat.le_of_dvd (by omega) hdvd
  omega

/-- Powers of the generator below 255 are pairwise distinct. -/
theorem alpha_pow_inj {i j : Nat} (hi : i < 255) (hj : j < 255)
    (h : alpha ^ i = alpha ^ j) : i = j :=
  le_antisymm (le_of_alpha_pow_eq hi h.symm) (le_of_alpha_pow_eq hj h)

/-- Bytes and the numbers below 256. -/
def equivFin : GF256 ≃ Fin 256 where
  toFun a := a.byte.toFin
  invFun i := ⟨ofFin i⟩
  left_inv _ := rfl
  right_inv _ := rfl

instance : Fintype GF256 := Fintype.ofEquiv (Fin 256) equivFin.symm

theorem card_eq : Fintype.card GF256 = 256 := by
  rw [Fintype.card_congr equivFin, Fintype.card_fin]

/-- Every non-zero byte has a logarithm: the 255 distinct powers are all there is. -/
theorem exists_log {a : GF256} (h : a ≠ 0) : ∃ i < 255, a = alpha ^ i := by
  have hcard : ((range 255).image (alpha ^ ·)).card = 255 := by
    rw [card_image_of_injOn, card_range]
    intro i hi j hj hij
    exact alpha_pow_inj (mem_range.mp hi) (mem_range.mp hj) hij
  have hsub : (range 255).image (alpha ^ ·) ⊆ univ.erase (0 : GF256) := by
    intro b hb
    obtain ⟨i, -, rfl⟩ := mem_image.mp hb
    exact mem_erase.mpr ⟨(isUnit_alpha.pow i).ne_zero, mem_univ _⟩
  have hall := eq_of_subset_of_card_le hsub (by
    rw [card_erase_of_mem (mem_univ _), card_univ, card_eq, hcard])
  have ha : a ∈ univ.erase (0 : GF256) := mem_erase.mpr ⟨h, mem_univ _⟩
  rw [← hall] at ha
  obtain ⟨i, hi, hia⟩ := mem_image.mp ha
  exact ⟨i, mem_range.mp hi, hia.symm⟩

/-! ## The field -/

/-- Square and multiply up to the exponent 254. -/
def inv254 (a : GF256) : GF256 :=
  let a2 := a * a
  let a3 := a2 * a
  let a6 := a3 * a3
  let a7 := a6 * a
  let a14 := a7 * a7
  let a15 := a14 * a
  let a30 := a15 * a15
  let a31 := a30 * a
  let a62 := a31 * a31
  let a63 := a62 * a
  let a126 := a63 * a63
  let a127 := a126 * a
  a127 * a127

theorem inv254_eq_pow (a : GF256) : inv254 a = a ^ 254 := by
  unfold inv254
  ring

theorem mul_inv254 {a : GF256} (h : a ≠ 0) : a * inv254 a = 1 := by
  obtain ⟨i, -, rfl⟩ := exists_log h
  rw [inv254_eq_pow, ← pow_succ', ← pow_mul, mul_comm i, pow_mul, alpha_pow_255, one_pow]

instance : Field GF256 where
  inv := inv254
  inv_zero := by decide
  mul_inv_cancel _ h := mul_inv254 h
  nnqsmul := _
  nnqsmul_def := fun _ _ => rfl
  qsmul := _
  qsmul_def := fun _ _ => rfl

instance : CharP GF256 2 := CharTwo.of_one_ne_zero_of_two_eq_zero one_ne_zero (by decide)

theorem alpha_ne_zero : alpha ≠ 0 := isUnit_alpha.ne_zero

end GF256

end MdRaid
