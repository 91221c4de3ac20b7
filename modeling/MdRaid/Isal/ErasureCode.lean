import MdRaid.Isal.Decode
import MdRaid.Isal.EncodeBase
import MdRaid.Lib.Erasure

/-!
# The erasure code of the portable library

The data is stored with blocks encoded by the lower rows of a generator matrix. Lost data is
decoded from `k` other blocks: rows of the inverse of their rows are coefficients for the encoder.
-/

namespace MdRaid.Isal

open GF256 Finset Erasure Nat

/-- Row by row: the identity in the first `k` rows, and `1 / (i + j)` up to row `m`. -/
def gfGenCauchy1Matrix (k : Nat) : Nat → Nat → GF256 :=
  entry k fun i j => gfInv ⟨BitVec.ofNat 8 (i ^^^ j)⟩

/-- The encoder with the coefficients of a matrix. -/
def encode (len k dests : Nat) (mat : Nat → Nat → GF256) (gTbls : Nat → GF256) :
    (Nat → Nat → GF256) → (Nat → Nat → GF256) → Nat → Nat → GF256 :=
  ecEncodeDataBase len k dests (ecInitTablesBase k dests (fun n => mat (n / k) (n % k)) gTbls)

/-- The stored blocks: the data, and behind them the encoded ones. -/
def stored (gen : Nat → Nat → GF256) (m k len : Nat) (gTbls : Nat → GF256)
    (data dest : Nat → Nat → GF256) : Nat → Nat → GF256 := fun n =>
  if n < k then data n else encode len k (m - k) (fun i => gen (k + i)) gTbls data dest (n - k)

/-- The blocks at `rows` are enough: their rows are inverted, and any lost data blocks are decoded
from them with the rows of the inverse. -/
def Recovers (gen : Nat → Nat → GF256) (m k : Nat) [NeZero k] (rows : Fin k → Nat) : Prop :=
  ∃ inv, gfInvertMatrix (fun r c : Fin k => gen (rows r) c) = some inv ∧
    ∀ (len dests : Nat) (gTbls : Nat → GF256) (data dest out : Nat → Nat → GF256)
      (err : Nat → Fin k), ∀ l < dests, ∀ i < len,
      encode len k dests (fun l j => inv (err l) (Fin.ofNat k j)) gTbls
        (fun j => stored gen m k len gTbls data dest (rows (Fin.ofNat k j))) out l i =
          data (err l) i

variable {m k : Nat} {coef : Nat → Nat → GF256} {rows : Fin k → Nat}

theorem encode_eq (hk : 0 < k) {len dests l i : Nat} (mat : Nat → Nat → GF256)
    (gTbls : Nat → GF256) (src dest : Nat → Nat → GF256) (hl : l < dests) (hi : i < len) :
    encode len k dests mat gTbls src dest l i = ∑ c : Fin k, mat l c * src c i := by
  rw [encode, ecEncodeDataBase, if_pos hl, gfVectDotProdBase_eq _ _ _ hk hi,
    Fin.sum_univ_eq_sum_range fun j => mat l j * src j i]
  refine (sum_congr rfl fun j hj => ?_ : ∑ j ∈ range k,
    ecInitTablesBase k dests _ gTbls (j * 32 + 1 + l * k * 32) * src j i = _)
  have hj := mem_range.mp hj
  rw [ecInitTablesBase_coef _ gTbls hl hj, mul_comm l, mul_add_div hk, div_eq_of_lt hj, add_zero,
    mul_add_mod, mod_eq_of_lt hj]

/-- Every stored block is the product of its row with the data. -/
theorem stored_eq (hk : 0 < k) {len r i : Nat} (gTbls : Nat → GF256) (data dest : Nat → Nat → GF256)
    (hr : r < m) (hi : i < len) : stored (entry k coef) m k len gTbls data dest r i =
      ∑ c : Fin k, entry k coef r c * data c i := by
  rw [stored]
  split_ifs with hrk
  · exact (sum_entry hrk fun c => data c i).symm
  · rw [encode_eq hk _ gTbls data dest (by omega) hi, Nat.add_sub_cancel' (not_lt.mp hrk)]

theorem recovers_of_injective [NeZero k] (hrows : ∀ r, rows r < m) (hinj : ∀ v : Fin k → GF256,
      (∀ r, ∑ c : Fin k, entry k coef (rows r) c * v c = 0) → v = 0) :
    Recovers (entry k coef) m k rows := by
  have hk : 0 < k := Nat.pos_of_ne_zero (NeZero.ne k)
  obtain ⟨inv, hinv, hmul⟩ := GaussJordan.invert_of_injective fun v hv => hinj v (congrFun hv)
  refine ⟨inv, (gfInvertMatrix_eq _).trans hinv, ?_⟩
  intro len dests gTbls data dest out err l hl i hi
  have hdecode := (Matrix.mulVec_mulVec (fun j : Fin k => data j i) inv _).trans
    ((congrArg (Matrix.mulVec · _) hmul).trans (Matrix.one_mulVec _))
  rw [encode_eq hk _ _ _ _ hl hi]
  refine (sum_congr rfl fun c _ => ?_).trans (congrFun hdecode (err l))
  rw [Fin.ofNat_eq_cast, Fin.cast_val_eq_self, stored_eq hk gTbls data dest (hrows c) hi]
  rfl

/-- **Any `k` stored blocks are enough** with the matrix of `gf_gen_cauchy1_matrix`. -/
theorem cauchy_recovers [NeZero k] (hkm : k ≤ m) (hm : m ≤ 256) (hinj : rows.Injective)
    (hrows : ∀ r, rows r < m) : Recovers (gfGenCauchy1Matrix k) m k rows := by
  let x : Nat → GF256 := fun n => ⟨BitVec.ofNat 8 n⟩
  have hx : Set.InjOn x (Set.Iio m) := by
    intro i (hi : i < m) j (hj : j < m) h
    have hnat := congrArg (·.byte.toNat) h
    simpa [x, mod_eq_of_lt, hi.trans_le hm, hj.trans_le hm] using hnat
  have hgen : gfGenCauchy1Matrix k = entry k fun i j => (x i - x j)⁻¹ := by
    unfold gfGenCauchy1Matrix
    simp only [gfInv_eq, BitVec.ofNat_xor]
    rfl
  rw [hgen]
  exact recovers_of_injective hrows fun v hv => eq_zero_of_cauchy hx hkm hinj hrows hv

theorem cauchy_recovers_parity : Recovers (gfGenCauchy1Matrix 2) 4 2 fun r => 2 + r :=
  cauchy_recovers (by decide) (by decide) (fun r r' h => Fin.ext
    (Nat.add_left_cancel h)) (by decide)

end MdRaid.Isal
