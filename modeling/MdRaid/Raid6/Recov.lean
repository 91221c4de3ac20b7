import MdRaid.Raid6.IntSyndrome

/-!
# The portable RAID-6 recovery

Recovery recomputes the syndromes with a page of zeros in the place of each lost
data page, using the lost pages themselves as temporary space for the results, and
solves for the lost bytes with the tables of `mktables.c`. The generator is whichever
one is installed at the time of the call.
-/

namespace MdRaid.Raid6

open Columns GF256 Function

/-! ## The tables -/

/-- The loop of `gfmul`, with at most one pass per bit of `b`. -/
def gfmulLoop : Nat → BitVec 8 → BitVec 8 → BitVec 8 → BitVec 8
  | 0, v, _, _ => v
  | n + 1, v, a, b =>
    if b = 0#8 then v
    else gfmulLoop n (if b.getLsbD 0 then v ^^^ a else v)
      ((a <<< 1) ^^^ (if a.msb then 0x1d#8 else 0#8)) (b >>> 1)

def gfmul (a b : BitVec 8) : BitVec 8 := gfmulLoop 8 0#8 a b

/-- The loop of `gfpow`, for exponents below `2 ^ 8`. -/
def gfpowLoop : Nat → BitVec 8 → BitVec 8 → Nat → BitVec 8
  | 0, v, _, _ => v
  | n + 1, v, a, b =>
    if b = 0 then v
    else gfpowLoop n (if b % 2 = 1 then gfmul v a else v) (gfmul a a) (b / 2)

def gfpow (a : BitVec 8) (b : Nat) : BitVec 8 := gfpowLoop 8 1#8 a (b % 255)

/-- Entry 255 is set to zero: it is no power of the generator. -/
def gfexp : Nat → BitVec 8
  | 0 => 1#8
  | i + 1 =>
    let v := gfmul (gfexp i) 2#8
    if v = 1#8 then 0#8 else v

def gfinv (a : BitVec 8) : BitVec 8 := gfpow a 254

def gfexi (i : Nat) : BitVec 8 := gfinv (gfexp i ^^^ 1#8)

/-! ## Recovery -/

abbrev GenSyndrome := Nat → Nat → Ptrs → Mem → Mem

/-- Multiplication by the row `c` of the table `raid6_gfmul`. -/
def gfmulRow (c : BitVec 8) (x : GF256) : GF256 := ⟨gfmul c x.byte⟩

/-- The page table during the recomputation: zeros for the lost pages `faila` and
`failb`, their own pages as room for `P` and `Q`. -/
def tmpPtrs2data (disks faila failb : Nat) (ptrs : Ptrs) : Ptrs :=
  update (update (update (update ptrs
    faila .zeroPage) (disks - 2) (ptrs faila)) failb .zeroPage) (disks - 1) (ptrs failb)

def raid62dataRecovIntx1 (genSyndrome : GenSyndrome) (disks bytes faila failb : Nat)
    (ptrs : Ptrs) (mem : Mem) : Mem :=
  let p := ptrs (disks - 2)
  let q := ptrs (disks - 1)
  let dp := ptrs faila
  let dq := ptrs failb
  let mem := genSyndrome disks bytes (tmpPtrs2data disks faila failb ptrs) mem
  let pbmul := gfmulRow (gfexi (failb - faila))
  let qmul := gfmulRow (gfinv (gfexp faila ^^^ gfexp failb))
  let px := fun col : BufId → GF256 => col p + col dp
  let qx := fun col : BufId → GF256 => qmul (col q + col dq)
  let db := fun col => pbmul (px col) + qx col
  mapRange (setTwo dq dp db fun col => db col + px col) 0 bytes mem

/-- The page table during the recomputation for a lost data page and a lost `P`. -/
def tmpPtrsDatap (disks faila : Nat) (ptrs : Ptrs) : Ptrs :=
  update (update ptrs faila .zeroPage) (disks - 1) (ptrs faila)

def raid6DatapRecovIntx1 (genSyndrome : GenSyndrome) (disks bytes faila : Nat)
    (ptrs : Ptrs) (mem : Mem) : Mem :=
  let p := ptrs (disks - 2)
  let q := ptrs (disks - 1)
  let dq := ptrs faila
  let mem := genSyndrome disks bytes (tmpPtrsDatap disks faila ptrs) mem
  let qmul := gfmulRow (gfinv (gfexp faila))
  let d := fun col : BufId → GF256 => qmul (col q + col dq)
  mapRange (setTwo dq p d fun col => col p + d col) 0 bytes mem

end MdRaid.Raid6
