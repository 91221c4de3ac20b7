import MdRaid.Stripe.Basic
import MdRaid.Lib.Syndrome

/-!
# The offload routines stripe operations call

`async_memcpy` copies a page. The other routines are known only through their equations:
`xor_blocks` adds its sources, `gen_syndrome` gives the RAID-6 syndrome, with `NULL` blocks
read as zero, and the two recovery routines solve for the lost blocks. A `BUG_ON` that fires
is the result `none`.
-/

namespace MdRaid.Stripe

open MdRaid.Geometry Loops Syndrome GF256 Function Finset

/-- `ASYNC_TX_XOR_ZERO_DST` and `ASYNC_TX_XOR_DROP_DST`. -/
inductive XorDst : Type where
  | zeroDst
  | dropDst
deriving DecidableEq, Repr

/-- `async_memcpy` of a whole page. -/
def asyncMemcpy (sh : StripeHead) (dest src : PagePtr) : StripeHead :=
  sh.store dest (sh.load src)

/-- Blocks of a syndrome computation by slot; `none` is a `NULL` pointer. -/
abbrev Blocks : Type := Nat → Option PagePtr

/-- The contents of a slot. -/
def slotPage (sh : StripeHead) (blocks : Blocks) (s : Nat) : Page := (blocks s).elim 0 sh.load

/-- What is known of async_tx. -/
structure AsyncTx where
  maxDisks : Nat
  xorBlocks : List Page → Page
  genSyndrome : (k : Nat) → (d : Nat → Page) → Page × Page
  twoDataRecov : (k faila failb : Nat) → (d : Nat → Page) → (p q : Page) → Page × Page
  datapRecov : (k faila : Nat) → (d : Nat → Page) → (q : Page) → Page × Page
  xorBlocks_eq : ∀ srcs, xorBlocks srcs = srcs.sum
  genSyndrome_eq : ∀ k d, genSyndrome k d =
    (wsum (range k) (fun _ => (1 : GF256)) d, wsum (range k) (alpha ^ ·) d)
  /-- Whenever the two equations have a solution for the two lost slots, one is returned. -/
  twoDataRecov_solves : ∀ (k a b : Nat) (d : Nat → Page) (p q : Page), a < b → b < k →
    (∃ x y, ∑ s ∈ range k, (update (update d a x) b y) s = p ∧
      wsum (range k) (alpha ^ ·) (update (update d a x) b y) = q) →
    ∑ s ∈ range k, (update
        (update d a (twoDataRecov k a b d p q).1) b (twoDataRecov k a b d p q).2) s = p ∧
      wsum (range k) (alpha ^ ·) (update
        (update d a (twoDataRecov k a b d p q).1) b (twoDataRecov k a b d p q).2) = q
  /-- The lost data block solves the second equation, and the first gives `P`. -/
  datapRecov_solves : ∀ (k a : Nat) (d : Nat → Page) (q : Page), a < k →
    wsum (range k) (alpha ^ ·) (update d a (datapRecov k a d q).1) = q ∧
      ∑ s ∈ range k, (update d a (datapRecov k a d q).1) s =
        (datapRecov k a d q).2

/-- The routines that solve the equations directly. -/
def AsyncTx.direct (maxDisks : Nat) : AsyncTx where
  maxDisks := maxDisks
  xorBlocks := List.sum
  genSyndrome k d := (wsum (range k) (fun _ => 1) d, wsum (range k) (alpha ^ ·) d)
  xorBlocks_eq _ := rfl
  genSyndrome_eq _ _ := rfl
  twoDataRecov k a b d p q := solveTwo (range k) (alpha ^ ·) d a b p q
  datapRecov k a d q :=
    let x := solveOne (range k) (alpha ^ ·) d a q
    (x, ∑ s ∈ range k, (update d a x) s)
  twoDataRecov_solves k a b d p q hab hb hsol := by
    have ha : a ∈ range k := mem_range.mpr (by omega)
    have hb' : b ∈ range k := mem_range.mpr hb
    exact ⟨solveTwo_plain (by omega) ha hb', solveTwo_weighted (by omega) ha hb' (.inr hsol)⟩
  datapRecov_solves k a d q ha :=
    ⟨wsum_solveOne _ _ d (mem_range.mpr ha) (pow_ne_zero a alpha_ne_zero) q, rfl⟩

/-- `async_xor_offs`. With `dropDst` the destination is the first source and is
left out of the list that is added to it. -/
def asyncXor (tx : AsyncTx) (sh : StripeHead) (flag : XorDst) (dest : PagePtr)
    (srcs : List PagePtr) : Option StripeHead :=
  if srcs.length ≤ 1 then none
  else match flag with
    | .zeroDst => some (sh.store dest (tx.xorBlocks (srcs.map sh.load)))
    | .dropDst => some (sh.store dest (tx.xorBlocks (sh.load dest :: srcs.tail.map sh.load)))

/-- What is written to `P` or `Q`: the value is added to the old contents under
`ASYNC_TX_PQ_XOR_DST`. -/
def syndromeInto (sh : StripeHead) (xorDst : Bool) (dest : PagePtr) (value : Page) : Page :=
  (if xorDst then sh.load dest else 0) + value

/-- `async_gen_syndrome`; `disks` counts the data slots and the two parity slots. -/
def asyncGenSyndrome (tx : AsyncTx) (sh : StripeHead) (blocks : Blocks) (disks : Nat)
    (xorDst : Bool) : Option StripeHead :=
  let k := disks - 2
  let pq := tx.genSyndrome k (slotPage sh blocks)
  if disks > tx.maxDisks then none
  else match blocks k, blocks (k + 1) with
    | none, none => none
    | some p, none => some (sh.store p (syndromeInto sh xorDst p pq.1))
    | none, some q => some (sh.store q (syndromeInto sh xorDst q pq.2))
    | some p, some q =>
      some ((sh.store p (syndromeInto sh xorDst p pq.1)).store q (syndromeInto sh xorDst q pq.2))

/-- `async_raid6_2data_recov`. -/
def asyncRaid6TwoDataRecov (tx : AsyncTx) (sh : StripeHead) (disks faila failb : Nat)
    (blocks : Blocks) : Option StripeHead :=
  let k := disks - 2
  match blocks faila, blocks failb with
  | some a, some b =>
    let r := tx.twoDataRecov k faila failb (slotPage sh blocks)
      (slotPage sh blocks k) (slotPage sh blocks (k + 1))
    some ((sh.store a r.1).store b r.2)
  | _, _ => none

/-- `async_raid6_datap_recov`. -/
def asyncRaid6DatapRecov (tx : AsyncTx) (sh : StripeHead) (disks faila : Nat)
    (blocks : Blocks) : Option StripeHead :=
  let k := disks - 2
  match blocks faila, blocks k with
  | some a, some p =>
    let r := tx.datapRecov k faila (slotPage sh blocks) (slotPage sh blocks (k + 1))
    some ((sh.store a r.1).store p r.2)
  | _, _ => none

end MdRaid.Stripe
