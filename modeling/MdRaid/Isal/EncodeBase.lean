import MdRaid.Isal.Tables
import MdRaid.Raid6.IntSyndrome

/-!
# The portable encoder

Short regions are multiplied byte by byte through the logarithms. For long ones a table of 256
products is built for each coefficient, the first source sets the output, and the others are
added to it. A source and an output never share memory.
-/

namespace MdRaid.Isal

open GF256 Raid6 List

/-! ## Coefficient tables -/

/-- The 32 products of a coefficient with the two nibbles, as four words. -/
def gfVectMulInitBase (c : BitVec 8) : List (BitVec 64) :=
  let c2 := xtime c
  let c4 := xtime c2
  let c8 := xtime c4
  let v4 := c.zeroExtend 64 * 0x0100010001000100#64 ^^^ c2.zeroExtend 64 * 0x0101000001010000#64 ^^^
    c4.zeroExtend 64 * 0x0101010100000000#64
  let c17 := xtime c8
  let c18 := xtime c17
  let c20 := xtime c18
  let v40 := c17.zeroExtend 64 * 0x0100010001000100#64 ^^^
    c18.zeroExtend 64 * 0x0101000001010000#64 ^^^ c20.zeroExtend 64 * 0x0101010100000000#64
  [v4, c8.zeroExtend 64 * 0x0101010101010101#64 ^^^ v4, v40,
    (xtime c20).zeroExtend 64 * 0x0101010101010101#64 ^^^ v40]

/-- One table of 32 bytes for each coefficient, and `gTbls` as it was behind them. -/
def ecInitTablesBase (k rows : Nat) (a gTbls : Nat → GF256) : Nat → GF256 := fun n =>
  if n < 32 * (rows * k) then
    ⟨byteOf ((gfVectMulInitBase (a (n / 32)).byte).getD (n % 32 / 8) 0#64) (n % 8)⟩
  else gTbls n

def buildMulTbl (c : GF256) : GF256 → GF256 := fun b => gfMul c b

def gfRegionTblMinLen : Nat := 256

/-! ## Encoding -/

/-- A loop over the bytes of a region, each pass writing its own byte of `dest`. -/
def region (len : Nat) (f : Nat → GF256 → GF256) (dest : Nat → GF256) : Nat → GF256 :=
  fun i => if i < len then f i (dest i) else dest i

def gfVectDotProdBase (len vlen : Nat) (v : Nat → GF256) (src : Nat → Nat → GF256)
    (dest : Nat → GF256) : Nat → GF256 :=
  if len < gfRegionTblMinLen then
    region len (fun i _ =>
      (List.range vlen).foldl (fun s j => s + gfMul (src j i) (v (j * 32 + 1))) 0) dest
  else
    (List.range' 1 (vlen - 1)).foldl
      (fun dest j => region len (fun i d => d + buildMulTbl (v (j * 32 + 1)) (src j i)) dest)
      (region len (fun i _ => buildMulTbl (v 1) (src 0 i)) dest)

def gfVectMadBase (len vecI : Nat) (v src dest : Nat → GF256) : Nat → GF256 :=
  let c := v (vecI * 32 + 1)
  if len < gfRegionTblMinLen then region len (fun i d => d + gfMul (src i) c) dest
  else region len (fun i d => d + buildMulTbl c (src i)) dest

/-- Every row is a dot product with its own part of the tables. -/
def ecEncodeDataBase (len srcs dests : Nat) (v : Nat → GF256) (src dest : Nat → Nat → GF256) :
    Nat → Nat → GF256 := fun l =>
  if l < dests then gfVectDotProdBase len srcs (fun n => v (n + l * srcs * 32)) src (dest l)
  else dest l

def ecEncodeDataUpdateBase (len k rows vecI : Nat) (v data : Nat → GF256)
    (dest : Nat → Nat → GF256) : Nat → Nat → GF256 := fun l =>
  if l < rows then gfVectMadBase len vecI (fun n => v (n + l * k * 32)) data (dest l) else dest l

/-! ## What it computes -/

/-- The coefficient is the second byte of its table. -/
theorem byteOf_gfVectMulInitBase :
    ∀ c : BitVec 8, byteOf ((gfVectMulInitBase c).getD 0 0#64) 1 = c := by decide +kernel

theorem ecInitTablesBase_coef {k rows l j : Nat} (a gTbls : Nat → GF256) (hl : l < rows)
    (hj : j < k) : ecInitTablesBase k rows a gTbls (j * 32 + 1 + l * k * 32) = a (l * k + j) := by
  have hlt : l * k + j < rows * k := calc
    l * k + j < l * k + k := Nat.add_lt_add_left hj _
    _ = (l + 1) * k := (Nat.succ_mul l k).symm
    _ ≤ rows * k := Nat.mul_le_mul_right k hl
  have hdiv : (j * 32 + 1 + l * k * 32) / 32 = l * k + j := by omega
  have hmod : (j * 32 + 1 + l * k * 32) % 32 / 8 = 0 := by omega
  have hbyte : (j * 32 + 1 + l * k * 32) % 8 = 1 := by omega
  rw [ecInitTablesBase, if_pos (by omega), hdiv, hmod, hbyte]
  exact GF256.ext' (byteOf_gfVectMulInitBase _)

theorem foldl_region {len i : Nat} (g : Nat → Nat → GF256) (hi : i < len) :
    ∀ (js : List Nat) (dest : Nat → GF256),
      js.foldl (fun dest j => region len (fun i d => d + g j i) dest) dest i =
        dest i + (js.map fun j => g j i).sum
  | [], _ => (add_zero _).symm
  | j :: js, dest => by
    rw [foldl_cons, foldl_region g hi js, region, if_pos hi, map_cons, sum_cons,
      add_assoc]

theorem gfVectDotProdBase_eq {len vlen i : Nat} (v : Nat → GF256) (src : Nat → Nat → GF256)
    (dest : Nat → GF256) (hvlen : 0 < vlen) (hi : i < len) :
    gfVectDotProdBase len vlen v src dest i =
      ((range vlen).map fun j => v (j * 32 + 1) * src j i).sum := by
  unfold gfVectDotProdBase
  split_ifs
  · rw [region, if_pos hi]
    simp only [gfMul_eq, mul_comm (src _ i)]
    rw [sum_eq_foldl, foldl_map]
  · simp only [buildMulTbl, gfMul_eq]
    rw [foldl_region (fun j i => v (j * 32 + 1) * src j i) hi, region, if_pos hi]
    obtain ⟨n, rfl⟩ : ∃ n, vlen = n + 1 := ⟨vlen - 1, by omega⟩
    rw [range_eq_range', range'_succ, map_cons, sum_cons, Nat.zero_mul]
    rfl

theorem gfVectMadBase_eq (len vecI : Nat) (v src dest : Nat → GF256) :
    gfVectMadBase len vecI v src dest = region len
      (fun i d => d + v (vecI * 32 + 1) * src i) dest := by
  simp only [gfVectMadBase, buildMulTbl, gfMul_eq, mul_comm (src _), ite_self]

theorem foldl_ecEncodeDataUpdateBase {len k rows l : Nat} (v : Nat → GF256)
    (src : Nat → Nat → GF256) (hl : l < rows) : ∀ (js : List Nat) (dest : Nat → Nat → GF256),
      js.foldl (fun dest j => ecEncodeDataUpdateBase len k rows j v (src j) dest) dest l =
        js.foldl (fun dest j => region len
          (fun i d => d + v (j * 32 + 1 + l * k * 32) * src j i) dest) (dest l)
  | [], _ => rfl
  | j :: js, dest => by
    rw [foldl_cons, foldl_ecEncodeDataUpdateBase v src hl js, ecEncodeDataUpdateBase, if_pos hl,
      gfVectMadBase_eq, foldl_cons]

/-- **The portable encoder is matrix multiplication.** On both of its paths, and source by source
in any order on zeroed outputs. -/
theorem encode_base_eq_product {k rows : Nat} (hk : 0 < k) (a gTbls : Nat → GF256) (len : Nat)
    (src dest : Nat → Nat → GF256) {l i : Nat} (hl : l < rows) (hi : i < len) {order : List Nat}
    (horder : order.Perm (List.range k)) :
    ecEncodeDataBase len k rows (ecInitTablesBase k rows a gTbls) src dest l i =
        ∑ j ∈ Finset.range k, a (l * k + j) * src j i ∧
      gfVectDotProdBase len k (ecInitTablesBase k 1 a gTbls) src (dest l) i =
        ∑ j ∈ Finset.range k, a j * src j i ∧
      order.foldl (fun dest j => ecEncodeDataUpdateBase len k rows j
          (ecInitTablesBase k rows a gTbls) (src j) dest) (fun _ _ => 0) l i =
        ∑ j ∈ Finset.range k, a (l * k + j) * src j i := by
  have hcoef : ∀ {rows l}, l < rows → ((List.range k).map fun j =>
      ecInitTablesBase k rows a gTbls (j * 32 + 1 + l * k * 32) * src j i).sum =
        ∑ j ∈ Finset.range k, a (l * k + j) * src j i := by
    intro rows l hl
    refine (Finset.sum_congr rfl fun j hj => ?_ : ∑ j ∈ Finset.range k,
      ecInitTablesBase k rows a gTbls (j * 32 + 1 + l * k * 32) * src j i = _)
    rw [ecInitTablesBase_coef a gTbls hl (Finset.mem_range.mp hj)]
  refine ⟨?_, ?_, ?_⟩
  · rw [ecEncodeDataBase, if_pos hl, gfVectDotProdBase_eq _ _ _ hk hi, hcoef hl]
  · rw [gfVectDotProdBase_eq _ _ _ hk hi]
    simpa using hcoef Nat.one_pos
  · rw [foldl_ecEncodeDataUpdateBase _ _ hl, foldl_region (fun j i => _ * src j i) hi,
      (horder.map _).sum_eq, hcoef hl, zero_add]

theorem encode_base_eq_product_long :
    ecEncodeDataBase 300 2 1 (ecInitTablesBase 2 1 (fun _ => alpha) fun _ => 0) (fun _ _ => 1)
      (fun _ _ => 1) 0 299 = ∑ _j ∈ Finset.range 2, alpha * 1 :=
  (encode_base_eq_product (by decide) (fun _ => alpha) (fun _ => 0) 300 (fun _ _ => 1)
    (fun _ _ => 1) Nat.one_pos (by decide) (List.Perm.refl _)).1

/-- Without sources the two paths differ: the long one still reads the first source. -/
theorem encode_base_no_source :
    gfVectDotProdBase 255 0 (fun _ => 1) (fun _ _ => 1) (fun _ => 0) 0 = 0 ∧
      gfVectDotProdBase 256 0 (fun _ => 1) (fun _ _ => 1) (fun _ => 0) 0 = 1 := by
  decide

end MdRaid.Isal
