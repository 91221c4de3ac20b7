import MdRaid.Isal.DotProduct
import MdRaid.Lib.GaussJordan
import MdRaid.Raid6.Recov

/-!
# The RAID-6 calls of the vector library

The module replaces the in-tree syndrome generator and both recovery routines. The
generator multiplies with the coefficients `1` and `alpha^d`; recovery inverts the
matrix that maps the data to the surviving blocks and folds the lost rows through
the inverse, with the tables of the last failure pattern kept per CPU. Outcomes of
`kmalloc` are inputs. A routine that cannot do its work falls back to the saved
in-tree one, which in turn calls the generator installed at that time.
-/

namespace MdRaid.Isal

open Columns GF256 Raid6

/-! ## Syndrome generation -/

/-- The places that allocate memory. -/
inductive AllocSite where
  | genTbls
  | recovEnc
  | recovInv
  | recovTbls
deriving DecidableEq, Repr

/-- Which allocations of a call succeed. -/
abbrev Alloc := AllocSite → Bool

def alphaPow : Nat → GF256
  | 0 => 1
  | e + 1 => gfMul (alphaPow e) ⟨0x02#8⟩

/-- Row `P` is all ones, row `Q` the powers of the generator. -/
def genCoefs (k d : Nat) : GF256 := if d < k then ⟨0x01#8⟩ else alphaPow (d - k)

/-- The kernel for the instruction set found at installation. -/
def dotProd (useAvx512 : Bool) (bytes k : Nat) (tbls : Tbls) (src : Nat → BufId) (d1 d2 : BufId)
    (mem : Mem) : Mem :=
  if useAvx512 then gf2vectDotProdAvx512Gfni bytes k tbls src d1 d2 mem
  else gf2vectDotProdAvx2Gfni bytes k tbls src d1 d2 mem

/-- More than 32 data disks, or no memory for the tables: nothing is written. -/
def isalGenSyndrome (useAvx512 : Bool) (alloc : Alloc) (disks bytes : Nat) (ptrs : Ptrs)
    (mem : Mem) : Mem :=
  let k := disks - 2
  if disks ≤ 2 ∨ 32 < k then mem
  else if alloc .genTbls then
    dotProd useAvx512 bytes k (ecInitTablesGfni k 2 (genCoefs k)) ptrs (ptrs k) (ptrs (k + 1)) mem
  else mem

/-! ## Matrix inversion -/

section Invert

variable {n : Nat}

def gfPivotRow (inMat : Matrix (Fin n) (Fin n) GF256) (i : Fin n) : Option (Fin n) :=
  if inMat i i = 0 then
    (List.finRange n).find? fun j => decide (i < j) && decide (inMat j i ≠ 0)
  else some i

def gfSwapRows (i j : Fin n) (m : Matrix (Fin n) (Fin n) GF256) : Matrix (Fin n) (Fin n) GF256 :=
  fun r c => if r = i then m j c else if r = j then m i c else m r c

def gfScaleRow (i : Fin n) (temp : GF256) (m : Matrix (Fin n) (Fin n) GF256) :
    Matrix (Fin n) (Fin n) GF256 :=
  fun r c => if r = i then gfMul (m r c) temp else m r c

/-- Every row but `i`, with its own factor, as left by the previous operations. -/
def gfClearRows (i : Fin n) (temp : Fin n → GF256) (m : Matrix (Fin n) (Fin n) GF256) :
    Matrix (Fin n) (Fin n) GF256 :=
  fun r c => if r = i then m r c else m r c + gfMul (temp r) (m i c)

def gfInvertColumn (w : GaussJordan.Work GF256 n) (i : Fin n) : Option (GaussJordan.Work GF256 n) :=
  match gfPivotRow w.inMat i with
  | none => none
  | some j =>
    let inMat := if w.inMat i i = 0 then gfSwapRows i j w.inMat else w.inMat
    let outMat := if w.inMat i i = 0 then gfSwapRows i j w.outMat else w.outMat
    let pivot := gfInv (inMat i i)
    let inMat := gfScaleRow i pivot inMat
    let outMat := gfScaleRow i pivot outMat
    some ⟨gfClearRows i (fun r => inMat r i) inMat, gfClearRows i (fun r => inMat r i) outMat⟩

/-- `none` for the negative result: no pivot in some column. -/
def gfInvertMatrix (inMat : Matrix (Fin n) (Fin n) GF256) : Option (Matrix (Fin n) (Fin n) GF256) :=
  ((List.finRange n).foldlM gfInvertColumn ⟨inMat, 1⟩).map GaussJordan.Work.outMat

end Invert

/-! ## Recovery -/

inductive RecovMode where
  | twoData
  | dataP
deriving DecidableEq, Repr

/-- Whether data disk `j` is one of the lost ones. -/
def isLost (mode : RecovMode) (faila : Nat) (failb : Int) (j : Nat) : Bool :=
  decide (j = faila) || (decide (mode = .twoData) && decide ((j : Int) = failb))

/-- The surviving blocks: data in ascending order, then `P` if it is alive, then `Q`. -/
def isalBuildSrcs (mode : RecovMode) (k faila : Nat) (failb : Int) (ptrs : Ptrs) : List BufId :=
  ((List.range k).filter fun j => !isLost mode faila failb j).map ptrs ++
    (if mode = .twoData then [ptrs k] else []) ++ [ptrs (k + 1)]

/-- The rows of the surviving blocks over the original data, in the same order. -/
def isalEncRows (mode : RecovMode) (k faila : Nat) (failb : Int) : List (Nat → GF256) :=
  ((List.range k).filter fun j => !isLost mode faila failb j).map
      (fun j c => if c = j then ⟨0x01#8⟩ else 0) ++
    (if mode = .twoData then [fun _ => ⟨0x01#8⟩] else []) ++ [alphaPow]

def isalEnc (mode : RecovMode) (k faila : Nat) (failb : Int) : Matrix (Fin k) (Fin k) GF256 :=
  fun r c => (isalEncRows mode k faila failb).getD r (fun _ => 0) c

/-- The lost rows over the original data. -/
def isalOut0 (faila : Nat) (j : Nat) : GF256 := if j = faila then ⟨0x01#8⟩ else 0

def isalOut1 (mode : RecovMode) (failb : Int) (j : Nat) : GF256 :=
  match mode with
  | .twoData => if (j : Int) = failb then ⟨0x01#8⟩ else 0
  | .dataP => ⟨0x01#8⟩

/-- `[out0; out1] * inv`, row by row. -/
def isalDec {k : Nat} (out0 out1 : Nat → GF256) (inv : Matrix (Fin k) (Fin k) GF256) (i : Nat) :
    GF256 :=
  if h : i < k then ∑ j : Fin k, gfMul (out0 j) (inv j ⟨i, h⟩)
  else if h : i - k < k then ∑ j : Fin k, gfMul (out1 j) (inv j ⟨i - k, h⟩)
  else 0

def isalBuildTbls (mode : RecovMode) (k faila : Nat) (failb : Int) : Option Tbls :=
  (gfInvertMatrix (isalEnc mode k faila failb)).map fun inv =>
    ecInitTablesGfni k 2 (isalDec (isalOut0 faila) (isalOut1 mode failb) inv)

/-- The decode tables of the last failure pattern seen on this CPU. -/
structure IsalCpuCache where
  valid : Bool
  mode : RecovMode
  k : Nat
  faila : Nat
  failb : Int
  tbls : Tbls

def IsalCpuCache.hit (cc : IsalCpuCache) (mode : RecovMode) (k faila : Nat) (failb : Int) : Bool :=
  cc.valid && decide (cc.mode = mode) && decide (cc.k = k) && decide (cc.faila = faila) &&
    decide (cc.failb = failb)

/-- The result, if there is one, and the cache. -/
def isalRecovCached (useAvx512 : Bool) (mode : RecovMode) (k faila : Nat) (failb : Int)
    (bytes : Nat) (ptrs : Ptrs) (d0 d1 : BufId) (cc : IsalCpuCache) (mem : Mem) :
    Option Mem × IsalCpuCache :=
  if 32 < k then (none, cc)
  else
    let srcs := isalBuildSrcs mode k faila failb ptrs
    let run := fun (tbls : Tbls) =>
      dotProd useAvx512 bytes k tbls (fun i => srcs.getD i .zeroPage) d0 d1 mem
    if cc.hit mode k faila failb then (some (run cc.tbls), cc)
    else
      match isalBuildTbls mode k faila failb with
      | none => (none, { cc with valid := false })
      | some tbls => (some (run tbls), ⟨true, mode, k, faila, failb, tbls⟩)

/-- The path without the cache, for up to 64 data disks; `none` when an allocation or
the inversion fails. -/
def isalRecovPlain (useAvx512 : Bool) (alloc : Alloc) (mode : RecovMode) (k faila : Nat)
    (failb : Int) (bytes : Nat) (ptrs : Ptrs) (d0 d1 : BufId) (mem : Mem) : Option Mem :=
  if 64 < k then none
  else if alloc .recovEnc then
    let srcs := isalBuildSrcs mode k faila failb ptrs
    if alloc .recovInv && alloc .recovTbls then
      (gfInvertMatrix (isalEnc mode k faila failb)).map fun inv =>
        dotProd useAvx512 bytes k
          (ecInitTablesGfni k 2 (isalDec (isalOut0 faila) (isalOut1 mode failb) inv))
          (fun i => srcs.getD i .zeroPage) d0 d1 mem
    else none
  else none

/-! ## Installation -/

/-- The calls md makes: in-tree, or overridden by this module. -/
structure Raid6Calls where
  overridden : Bool
  useAvx512 : Bool

def raid6CallGenSyndrome (calls : Raid6Calls) (alloc : Alloc) : GenSyndrome :=
  if calls.overridden then isalGenSyndrome calls.useAvx512 alloc else raid6IntGenSyndrome

/-- Cached tables first, then the plain path, then the saved in-tree routine. -/
def isalRecov (useAvx512 : Bool) (alloc : Alloc) (mode : RecovMode) (k faila : Nat) (failb : Int)
    (bytes : Nat) (ptrs : Ptrs) (d0 d1 : BufId) (fallback : Mem → Mem) (cc : IsalCpuCache)
    (mem : Mem) : Mem × IsalCpuCache :=
  match isalRecovCached useAvx512 mode k faila failb bytes ptrs d0 d1 cc mem with
  | (some mem', cc') => (mem', cc')
  | (none, cc') =>
    match isalRecovPlain useAvx512 alloc mode k faila failb bytes ptrs d0 d1 mem with
    | some mem' => (mem', cc')
    | none => (fallback mem, cc')

def isal2dataRecov (calls : Raid6Calls) (alloc : Alloc) (disks bytes faila failb : Nat)
    (ptrs : Ptrs) (cc : IsalCpuCache) (mem : Mem) : Mem × IsalCpuCache :=
  let k := disks - 2
  let fallback :=
    raid62dataRecovIntx1 (raid6CallGenSyndrome calls alloc) disks bytes faila failb ptrs
  if k < 2 then (fallback mem, cc)
  else isalRecov calls.useAvx512 alloc .twoData k faila failb bytes ptrs (ptrs faila) (ptrs failb)
    fallback cc mem

/-- The position `-1` keys the pattern in the cache. -/
def isalDatapRecov (calls : Raid6Calls) (alloc : Alloc) (disks bytes faila : Nat)
    (ptrs : Ptrs) (cc : IsalCpuCache) (mem : Mem) : Mem × IsalCpuCache :=
  let k := disks - 2
  let fallback := raid6DatapRecovIntx1 (raid6CallGenSyndrome calls alloc) disks bytes faila ptrs
  if k < 1 then (fallback mem, cc)
  else isalRecov calls.useAvx512 alloc .dataP k faila (-1) bytes ptrs (ptrs faila) (ptrs k)
    fallback cc mem

/-- The features of the processor the module asks for. -/
structure BootCpu where
  gfni : Bool
  avx : Bool
  avx2 : Bool
  avx512f : Bool
  avx512bw : Bool

def isalHaveGfni (cpu : BootCpu) : Bool := cpu.gfni && cpu.avx && cpu.avx2

def isalHaveAvx512Gfni (cpu : BootCpu) : Bool := cpu.gfni && cpu.avx512f && cpu.avx512bw

/-- `validated` is the outcome of the two self-tests, on at most eight data disks.
`none` when the in-tree calls are kept. -/
def isalInstallRaid6Call (cpu : BootCpu) (validated : Bool) : Option Raid6Calls :=
  if !isalHaveGfni cpu then none
  else if !validated then none
  else some ⟨true, isalHaveAvx512Gfni cpu⟩

end MdRaid.Isal
