import MdRaid.Lib.Columns
import MdRaid.Lib.GF256
import MdRaid.Lib.Loops

/-!
# The portable RAID-6 syndrome generator

The in-tree generator works on eight bytes at a time, held in one machine word:
multiplication by `x` in every byte of a word is a shift, a mask of the bytes
whose top bit left, and an exclusive or. It walks the data blocks from the highest
down, so that `Q` is evaluated by Horner's rule.
-/

namespace MdRaid.Raid6

open Columns GF256 Loops Finset

/-! ## Words of eight bytes -/

def nbytes (x : BitVec 64) : BitVec 64 := x * 0x0101010101010101#64

def shlbyte (v : BitVec 64) : BitVec 64 := (v <<< 1) &&& nbytes 0xfe#64

def mask (v : BitVec 64) : BitVec 64 :=
  let vv := v &&& nbytes 0x80#64
  (vv <<< 1) - (vv >>> 7)

def byteOf (w : BitVec 64) (j : Nat) : BitVec 8 := w.extractLsb' (8 * j) 8

def wordOf (f : Nat → BitVec 8) : BitVec 64 :=
  f 7 ++ f 6 ++ f 5 ++ f 4 ++ f 3 ++ f 2 ++ f 1 ++ f 0

variable {j : Nat}

theorem byteOf_wordOf (f : Nat → BitVec 8) (hj : j < 8) : byteOf (wordOf f) j = f j := by
  refine BitVec.eq_of_getLsbD_eq fun i hi => ?_
  unfold byteOf wordOf
  rw [BitVec.getLsbD_extractLsb']
  simp only [BitVec.getLsbD_append, hi, decide_true, Bool.true_and]
  interval_cases j <;> grind

theorem byteOf_xor (v w : BitVec 64) (j : Nat) : byteOf (v ^^^ w) j = byteOf v j ^^^ byteOf w j :=
  BitVec.extractLsb'_xor

theorem byteOf_and (v w : BitVec 64) (j : Nat) : byteOf (v &&& w) j = byteOf v j &&& byteOf w j :=
  BitVec.extractLsb'_and

theorem word_ext {v w : BitVec 64} (h : ∀ j < 8, byteOf v j = byteOf w j) : v = w := by
  refine BitVec.eq_of_getLsbD_eq fun i hi => ?_
  have hbit := congrArg (fun b => b.getLsbD (i % 8)) (h (i / 8) (by omega))
  have hmod : i % 8 < 8 := Nat.mod_lt _ (by omega)
  simpa [byteOf, hmod, Nat.div_add_mod] using hbit

theorem byteOf_nbytes : ∀ (c : BitVec 8) (j : Fin 8), byteOf (nbytes (c.zeroExtend 64)) j = c := by
  decide +kernel

/-! ### The mask of the top bits -/

/-- The byte `c` in the selected positions of a word. -/
def select (c m : BitVec 8) : BitVec 64 := wordOf fun j => if m.getLsbD j then c else 0#8

theorem select_mask : ∀ m : BitVec 8,
    (select 0x80#8 m <<< 1) - (select 0x80#8 m >>> 7) = select 0xff#8 m := by
  decide +kernel

/-- The top bits of the eight bytes. -/
def topBits (w : BitVec 64) : BitVec 8 :=
  let top := fun j => BitVec.ofBool (byteOf w j).msb
  top 7 ++ top 6 ++ top 5 ++ top 4 ++ top 3 ++ top 2 ++ top 1 ++ top 0

theorem getLsbD_topBits (w : BitVec 64) (hj : j < 8) :
    (topBits w).getLsbD j = (byteOf w j).msb := by
  unfold topBits
  simp only [BitVec.getLsbD_append]
  interval_cases j <;> simp

theorem and_top_bit : ∀ b : BitVec 8, b &&& 0x80#8 = if b.msb then 0x80#8 else 0#8 := by
  decide +kernel

theorem and_nbytes_top (w : BitVec 64) : w &&& nbytes 0x80#64 = select 0x80#8 (topBits w) := by
  refine word_ext fun j hj => ?_
  rw [byteOf_and, select, byteOf_wordOf _ hj, getLsbD_topBits w hj, ← and_top_bit]
  exact congrArg _ (byteOf_nbytes 0x80#8 ⟨j, hj⟩)

section

variable (w : BitVec 64) (hj : j < 8)
include w hj

theorem byteOf_mask : byteOf (mask w) j = if (byteOf w j).msb then 0xff#8 else 0#8 := by
  simp only [mask, and_nbytes_top, select_mask]
  rw [select, byteOf_wordOf _ hj, getLsbD_topBits w hj]

theorem byteOf_shlbyte : byteOf (shlbyte w) j = byteOf w j <<< 1 := by
  have hmask : byteOf (nbytes 0xfe#64) j = 0xfe#8 := byteOf_nbytes 0xfe#8 ⟨j, hj⟩
  rw [shlbyte, byteOf_and, hmask]
  refine BitVec.eq_of_getLsbD_eq fun i hi => ?_
  simp only [byteOf, BitVec.getLsbD_and, BitVec.getLsbD_extractLsb', BitVec.getLsbD_shiftLeft]
  -- bit 0 is masked out; the others come from the same byte
  rcases Nat.eq_zero_or_pos i with rfl | hpos
  · simp
  · have hone : (0xfe#8).getLsbD i := by
      interval_cases i <;> rfl
    have hsub : 8 * j + i - 1 = 8 * j + (i - 1) := by omega
    rw [hone, hsub]
    simp [hi, hpos.ne', show 8 * j + i < 64 by omega, show i - 1 < 8 by omega]

/-- **Multiplication by `x` in every byte of a word.** -/
theorem byteOf_double :
    byteOf (shlbyte w ^^^ (mask w &&& nbytes 0x1d#64)) j = xtime (byteOf w j) := by
  have hpoly : byteOf (nbytes 0x1d#64) j = 0x1d#8 := byteOf_nbytes 0x1d#8 ⟨j, hj⟩
  rw [byteOf_xor, byteOf_and, byteOf_shlbyte w hj, byteOf_mask w hj, hpoly, xtime]
  split_ifs <;> rfl

end

/-! ## Blocks and pointers -/

/-- What a pointer of the table refers to: the page of one of the disks, or the page
of zeros that recovery substitutes for a lost one. -/
inductive BufId where
  | block (i : Nat)
  | zeroPage
deriving DecidableEq, Repr

abbrev Mem := BufId → Nat → GF256

abbrev Ptrs := Nat → BufId

def loadWord (mem : Mem) (b : BufId) (d : Nat) : BitVec 64 := wordOf fun j => (mem b (d + j)).byte

def storeWord (mem : Mem) (b : BufId) (d : Nat) (w : BitVec 64) : Mem :=
  store 8 b d (fun j => ⟨byteOf w j⟩) mem

/-- One data word `wd` added to the pair `wp`, `wq`. -/
def syndromeWord (wpq : BitVec 64 × BitVec 64) (wd : BitVec 64) : BitVec 64 × BitVec 64 :=
  let w2 := mask wpq.2 &&& nbytes 0x1d#64
  let w1 := shlbyte wpq.2 ^^^ w2
  (wpq.1 ^^^ wd, w1 ^^^ wd)

def intSyndromeStep (disks : Nat) (ptrs : Ptrs) (d : Nat) (mem : Mem) : Mem :=
  let z0 := disks - 3
  let w0 := loadWord mem (ptrs z0) d
  let wpq := (down z0).foldl (fun wpq z => syndromeWord wpq (loadWord mem (ptrs z) d)) (w0, w0)
  storeWord (storeWord mem (ptrs (z0 + 1)) d wpq.1) (ptrs (z0 + 2)) d wpq.2

def raid6IntGenSyndrome (disks bytes : Nat) (ptrs : Ptrs) (mem : Mem) : Mem :=
  stride 8 (intSyndromeStep disks ptrs) ((bytes + 7) / 8) mem

/-! ## What it computes -/

/-- `P` and `Q` of one column of `k` data bytes, `P` at position `k` and `Q` behind it. -/
def syndromeColumn (k : Nat) (ptrs : Ptrs) : (BufId → GF256) → BufId → GF256 :=
  setTwo (ptrs k) (ptrs (k + 1)) (fun col => ∑ z ∈ range k, col (ptrs z))
    fun col => ∑ z ∈ range k, alpha ^ z * col (ptrs z)

theorem byteOf_loadWord (mem : Mem) (b : BufId) (d : Nat) (hj : j < 8) :
    (⟨byteOf (loadWord mem b d) j⟩ : GF256) = mem b (d + j) :=
  GF256.ext' (byteOf_wordOf _ hj)

theorem byteOf_syndromeWord (wpq : BitVec 64 × BitVec 64) (wd : BitVec 64) (hj : j < 8) :
    (⟨byteOf (syndromeWord wpq wd).1 j⟩ : GF256) = ⟨byteOf wpq.1 j⟩ + ⟨byteOf wd j⟩ ∧
      (⟨byteOf (syndromeWord wpq wd).2 j⟩ : GF256) = alpha * ⟨byteOf wpq.2 j⟩ + ⟨byteOf wd j⟩ := by
  refine ⟨GF256.ext' (byteOf_xor _ _ _), GF256.ext' ?_⟩
  show byteOf (_ ^^^ wd) j = mulByte 2#8 (byteOf wpq.2 j) ^^^ byteOf wd j
  rw [byteOf_xor, byteOf_double _ hj, mulByte_comm, mulByte_two]

theorem byteOf_foldl_syndromeWord (w : Nat → BitVec 64) (hj : j < 8) :
    ∀ (l : List Nat) (wpq : BitVec 64 × BitVec 64),
      (⟨byteOf (l.foldl (fun wpq z => syndromeWord wpq (w z)) wpq).1 j⟩ : GF256) =
        l.foldl (fun p z => p + ⟨byteOf (w z) j⟩) ⟨byteOf wpq.1 j⟩ ∧
      (⟨byteOf (l.foldl (fun wpq z => syndromeWord wpq (w z)) wpq).2 j⟩ : GF256) =
        l.foldl (fun q z => alpha * q + ⟨byteOf (w z) j⟩) ⟨byteOf wpq.2 j⟩
  | [], _ => ⟨rfl, rfl⟩
  | z :: l, wpq => by
    obtain ⟨hp, hq⟩ := byteOf_syndromeWord wpq (w z) hj
    rw [List.foldl_cons, List.foldl_cons, List.foldl_cons, ← hp, ← hq]
    exact byteOf_foldl_syndromeWord w hj l (syndromeWord wpq (w z))

theorem intSyndromeStep_eq (k : Nat) (ptrs : Ptrs) (d : Nat) (mem : Mem) :
    intSyndromeStep (k + 1 + 2) ptrs d mem = mapRange (syndromeColumn (k + 1) ptrs) d 8 mem := by
  have hbytes := fun t (ht : t < 8) => byteOf_foldl_syndromeWord
    (fun z => loadWord mem (ptrs z) d) ht (down k)
    (loadWord mem (ptrs k) d, loadWord mem (ptrs k) d)
  unfold intSyndromeStep storeWord syndromeColumn
  refine store_store_eq_mapRange (fun t ht => ?_) fun t ht => ?_
  · refine (hbytes t ht).1.trans ?_
    simp only [byteOf_loadWord _ _ _ ht, foldl_add_down, sum_range_succ]
    exact add_comm _ _
  · refine (hbytes t ht).2.trans ?_
    simp only [byteOf_loadWord _ _ _ ht, foldl_horner_down, sum_range_succ]
    exact add_comm _ _

/-- **The portable generator computes the two syndromes of every column.** -/
theorem raid6IntGenSyndrome_eq (k : Nat) {bytes : Nat} (h8 : 8 ∣ bytes) (ptrs : Ptrs) (mem : Mem) :
    raid6IntGenSyndrome (k + 1 + 2) bytes ptrs mem =
      mapRange (syndromeColumn (k + 1) ptrs) 0 bytes mem := by
  obtain ⟨n, rfl⟩ := h8
  have hcount : (8 * n + 7) / 8 = n := by omega
  rw [raid6IntGenSyndrome, hcount, stride_eq_mapRange (intSyndromeStep_eq k ptrs)]

/-! ## The incremental update -/

/-- Multiplication by `x` in every byte of a word. -/
def doubleWord (wq : BitVec 64) : BitVec 64 :=
  let w2 := mask wq &&& nbytes 0x1d#64
  shlbyte wq ^^^ w2

/-- Only the slots `start` to `stop` are read. `P` and `Q` have their own passes over the
slots above, which are left out, and below, which only double. -/
def intXorSyndromeStep (disks start stop : Nat) (ptrs : Ptrs) (d : Nat) (mem : Mem) : Mem :=
  let p := ptrs (disks - 2)
  let q := ptrs (disks - 1)
  let w0 := loadWord mem (ptrs stop) d
  let wpq := (down (stop - start)).foldl
    (fun wpq z => syndromeWord wpq (loadWord mem (ptrs (start + z)) d)) (w0, w0)
  let wq := (down start).foldl (fun wq _ => doubleWord wq) wpq.2
  let mem := storeWord mem p d (loadWord mem p d ^^^ wpq.1)
  storeWord mem q d (loadWord mem q d ^^^ wq)

def raid6IntXorSyndrome (disks start stop bytes : Nat) (ptrs : Ptrs) (mem : Mem) : Mem :=
  stride 8 (intXorSyndromeStep disks start stop ptrs) ((bytes + 7) / 8) mem

/-- The slots `start` to `stop` added to `P` and `Q` of one column. -/
def xorColumn (k start stop : Nat) (ptrs : Ptrs) : (BufId → GF256) → BufId → GF256 :=
  setTwo (ptrs k) (ptrs (k + 1)) (fun col => col (ptrs k) + ∑ z ∈ Finset.Ico start (stop + 1),
    col (ptrs z))
    fun col => col (ptrs (k + 1)) + ∑ z ∈ Finset.Ico start (stop + 1), alpha ^ z * col (ptrs z)

theorem byteOf_doubleWord (w : BitVec 64) (hj : j < 8) :
    (⟨byteOf (doubleWord w) j⟩ : GF256) = alpha * ⟨byteOf w j⟩ := by
  refine GF256.ext' ?_
  show byteOf (doubleWord w) j = mulByte 2#8 (byteOf w j)
  rw [doubleWord, byteOf_double _ hj, mulByte_comm, mulByte_two]

theorem byteOf_foldl_doubleWord (hj : j < 8) : ∀ (l : List Nat) (w : BitVec 64),
    (⟨byteOf (l.foldl (fun wq _ => doubleWord wq) w) j⟩ : GF256) =
      alpha ^ l.length * ⟨byteOf w j⟩ := by
  intro l
  induction l with
  | nil =>
    intro w
    exact (one_mul _).symm
  | cons _ l ih =>
    intro w
    rw [List.foldl_cons, ih, byteOf_doubleWord w hj, List.length_cons, pow_succ, mul_assoc]

theorem sum_slots {start stop : Nat} (h : start ≤ stop) (f : Nat → GF256) :
    ∑ z ∈ Finset.Ico start (stop + 1), f z =
      f stop + ∑ z ∈ range (stop - start), f (start + z) := by
  rw [sum_Ico_eq_sum_range, Nat.succ_sub h, sum_range_succ, Nat.add_sub_cancel' h,
    add_comm]

theorem intXorSyndromeStep_eq (k : Nat) {start stop : Nat} (hss : start ≤ stop) {ptrs : Ptrs}
    (hpq : ptrs k ≠ ptrs (k + 1)) (d : Nat) (mem : Mem) :
    intXorSyndromeStep (k + 2) start stop ptrs d mem =
      mapRange (xorColumn k start stop ptrs) d 8 mem := by
  have hbytes := fun t (ht : t < 8) => byteOf_foldl_syndromeWord
    (fun z => loadWord mem (ptrs (start + z)) d) ht (down (stop - start))
    (loadWord mem (ptrs stop) d, loadWord mem (ptrs stop) d)
  have hq : ∀ v, loadWord (storeWord mem (ptrs k) d v) (ptrs (k + 1)) d =
      loadWord mem (ptrs (k + 1)) d := by
    intro v
    simp only [loadWord, storeWord, store, Function.update_of_ne hpq.symm]
  unfold intXorSyndromeStep
  simp only [Nat.add_sub_cancel, show k + 2 - 1 = k + 1 from rfl, hq]
  unfold storeWord xorColumn
  refine store_store_eq_mapRange (fun t ht => ?_) fun t ht => ?_
  · have hp := (hbytes t ht).1
    simp only [byteOf_loadWord _ _ _ ht, foldl_add_down] at hp
    dsimp only
    rw [sum_slots hss, ← hp, ← byteOf_loadWord mem (ptrs k) d ht]
    exact GF256.ext' (byteOf_xor _ _ _)
  · have hq := (hbytes t ht).2
    simp only [byteOf_loadWord _ _ _ ht, foldl_horner_down] at hq
    have hdown := byteOf_foldl_doubleWord ht (down start) ((down (stop - start)).foldl
      (fun wpq z => syndromeWord wpq (loadWord mem (ptrs (start + z)) d))
      (loadWord mem (ptrs stop) d, loadWord mem (ptrs stop) d)).2
    have hsum : ∑ z ∈ Finset.Ico start (stop + 1), alpha ^ z * mem (ptrs z) (d + t) =
        alpha ^ start * (alpha ^ (stop - start) * mem (ptrs stop) (d + t) +
          ∑ z ∈ Finset.range (stop - start), alpha ^ z * mem (ptrs (start + z)) (d + t)) := by
      rw [sum_slots hss, mul_add, ← mul_assoc, ← pow_add, Nat.add_sub_cancel' hss, Finset.mul_sum]
      simp only [pow_add, mul_assoc]
    dsimp only
    rw [hsum, ← hq, ← byteOf_loadWord mem (ptrs (k + 1)) d ht]
    rw [show (down start).length = start by simp [down]] at hdown
    rw [← hdown]
    exact GF256.ext' (byteOf_xor _ _ _)

/-- **The portable update adds its slots to both syndromes of every column.** -/
theorem raid6IntXorSyndrome_eq (k : Nat) {start stop bytes : Nat} (hss : start ≤ stop)
    (h8 : 8 ∣ bytes) {ptrs : Ptrs} (hpq : ptrs k ≠ ptrs (k + 1)) (mem : Mem) :
    raid6IntXorSyndrome (k + 2) start stop bytes ptrs mem =
      mapRange (xorColumn k start stop ptrs) 0 bytes mem := by
  obtain ⟨n, rfl⟩ := h8
  have hcount : (8 * n + 7) / 8 = n := by omega
  rw [raid6IntXorSyndrome, hcount, stride_eq_mapRange (intXorSyndromeStep_eq k hss hpq)]

end MdRaid.Raid6
