import MdRaid.Geometry.Slots
import MdRaid.Lib.GF256

/-!
# Stripe heads, their devices and the bios queued on them

The data a stripe operation reads and writes. A stripe is one page of 4096 bytes
on every device (`PAGE_SIZE` is 4096, so `dev->offset` is always 0). Every device
owns `orig_page`; the pointer `page` either points to it or was redirected to
another page, and only the contents of that page are kept. An array of devices is
a function from indices, of which those below `disks` are meaningful.
-/

namespace MdRaid.Stripe

/-- The contents of a page. -/
abbrev Page : Type := Fin 4096 → GF256

/-! ## Bios -/

inductive BioOp : Type where
  | read
  | write
  | discard
deriving DecidableEq, Repr

/-- One single-page segment of a bio, as `bio_for_each_segment` yields it. -/
structure BioVec where
  bvPage : Page
  bvOffset : Nat
  bvLen : Nat
  inPage : bvOffset + bvLen ≤ 4096

structure Bio where
  op : BioOp
  biSector : Nat
  fua : Bool
  sync : Bool
  vecs : List BioVec

def Bio.sectors (bio : Bio) : Nat := (bio.vecs.map (·.bvLen)).sum / 512

def Bio.endSector (bio : Bio) : Nat := bio.biSector + bio.sectors

/-! ## Devices -/

/-- The bits of `enum r5dev_flags` that stripe operations look at. -/
structure DevFlags where
  uptodate : Bool := false
  locked : Bool := false
  overwrite : Bool := false
  insync : Bool := false
  wantread : Bool := false
  wantwrite : Bool := false
  overlap : Bool := false
  expanded : Bool := false
  wantcompute : Bool := false
  wantfill : Bool := false
  wantdrain : Bool := false
  wantFUA : Bool := false
  syncIo : Bool := false
  writeError : Bool := false
  needReplace : Bool := false
  discard : Bool := false
  skipCopy : Bool := false
  inJournal : Bool := false
deriving DecidableEq, Repr

/-- `struct r5dev`. `redirect` holds the contents of `page` while it differs from
`orig_page`. -/
structure R5dev where
  flags : DevFlags
  origPage : Page
  redirect : Option Page
  toread : List Bio
  towrite : List Bio
  written : List Bio
  sector : Nat

def R5dev.modifyFlags (dev : R5dev) (f : DevFlags → DevFlags) : R5dev :=
  { dev with flags := f dev.flags }

/-- The contents of the page `dev->page` points to. -/
def R5dev.page (dev : R5dev) : Page := dev.redirect.getD dev.origPage

/-- A write through the pointer `dev->page`. -/
def R5dev.setPage (dev : R5dev) (p : Page) : R5dev :=
  match dev.redirect with
  | none => { dev with origPage := p }
  | some _ => { dev with redirect := some p }

section

variable (dev : R5dev)
include dev

@[simp] theorem R5dev.setPage_page (p : Page) : (dev.setPage p).page = p := by
  cases h : dev.redirect <;> simp [setPage, page, h]

@[simp] theorem R5dev.setPage_flags (p : Page) : (dev.setPage p).flags = dev.flags := by
  cases h : dev.redirect <;> simp [setPage, h]

@[simp] theorem R5dev.setPage_written (p : Page) : (dev.setPage p).written = dev.written := by
  cases h : dev.redirect <;> simp [setPage, h]

@[simp] theorem R5dev.modifyFlags_flags (f : DevFlags → DevFlags) :
    (dev.modifyFlags f).flags = f dev.flags := rfl

@[simp] theorem R5dev.modifyFlags_page (f : DevFlags → DevFlags) :
    (dev.modifyFlags f).page = dev.page := rfl

end

/-! ## Stripe heads -/

/-- `enum reconstruct_states`. -/
inductive ReconstructState : Type where
  | idle
  | prexorDrainRun
  | drainRun
  | run
  | prexorDrainResult
  | drainResult
  | result
deriving DecidableEq, Repr

/-- `struct stripe_head`, with the part that address mapping fills in. -/
structure StripeHead extends Geometry.StripeHead where
  dev : Nat → R5dev
  reconstructState : ReconstructState
  target : Int
  target2 : Int
  overwriteDisks : Nat
  batchHead : Bool
  prereadActive : Bool
  computeRun : Bool
  expandReady : Bool
  handle : Bool

namespace StripeHead

/-- Update of one device. -/
def modifyDev (sh : StripeHead) (i : Nat) (f : R5dev → R5dev) : StripeHead :=
  { sh with dev := Function.update sh.dev i (f (sh.dev i)) }

/-- Update of the flags of one device. -/
def modifyFlags (sh : StripeHead) (i : Nat) (f : DevFlags → DevFlags) : StripeHead :=
  sh.modifyDev i fun dev => dev.modifyFlags f

end StripeHead

/-! ## Page pointers -/

/-- What a `struct page *` taken from a stripe head points to. -/
inductive PagePtr : Type where
  | page (i : Nat)
  | origPage (i : Nat)
deriving DecidableEq, Repr

def StripeHead.load (sh : StripeHead) : PagePtr → Page
  | .page i => (sh.dev i).page
  | .origPage i => (sh.dev i).origPage

def StripeHead.store (sh : StripeHead) (ptr : PagePtr) (p : Page) : StripeHead :=
  match ptr with
  | .page i => sh.modifyDev i fun dev => dev.setPage p
  | .origPage i => sh.modifyDev i fun dev => { dev with origPage := p }

namespace StripeHead

variable (sh : StripeHead) (i : Nat) (f : R5dev → R5dev)

@[simp] theorem modifyDev_dev_self : (sh.modifyDev i f).dev i = f (sh.dev i) := by
  simp [modifyDev]

theorem modifyDev_dev_of_ne {j : Nat} (h : j ≠ i) : (sh.modifyDev i f).dev j = sh.dev j := by
  simp [modifyDev, h]

end StripeHead

end MdRaid.Stripe
