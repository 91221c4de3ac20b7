import MdRaid.Geometry.ComputeSector
import MdRaid.Lib.Runs
import MdRaid.Lib.Spans

/-!
# Chains of bios

Each device of a stripe heads chains of bios: the reads and writes that wait (`toread`,
`towrite`) and those in progress (`read`, `written`). A bio has one link, `bi_next`, but may
be on a chain of every page it reaches into. On all of them except the page it ends in it is
the last bio, and `r5_next_bio` does not follow its link there.

The callers of `add_stripe_bio` and `add_all_stripe_bios` give a bio to a page at most once:
`raid5_make_request` clears the bit of a page it attached (`sectors_to_do`),
`retry_aligned_read` counts them. `add_all_stripe_bios` looks for overlaps on all its pages
first and attaches the bio to each of them then. With a bitmap, the first write of a page
makes `__add_stripe_bio` drop the stripe's lock between, so other calls may come in before
the next page.

A call that finds its stripe in a batch, or a write that PPL cannot take, is refused as an
overlap is, and changes nothing. A bio that is freed and submitted again is a new one here.
Discards are attached elsewhere.
-/

namespace MdRaid.Requests.Chains

open Runs

/-! ## Definitions -/

structure Bio where
  id : Nat
  biSector : Nat
  endSector : Nat
  nonempty : biSector < endSector
  /-- `bio_data_dir(bi) == WRITE` -/
  write : Bool
deriving DecidableEq

/-- A device of a stripe. -/
structure R5dev where
  id : Nat
  /-- The logical sector of the page. -/
  sector : Nat
  aligned : stripeSectors ∣ sector
deriving DecidableEq

def R5dev.endSector (dev : R5dev) : Nat := dev.sector + stripeSectors

inductive Chain where
  | toread
  | read
  | towrite
  | written
deriving DecidableEq, Repr

/-- The pointers: `bi_next`, and the heads of the chains. -/
structure Heap where
  biNext : Bio → Option Bio
  head : Chain → R5dev → Option Bio

/-- A place a pointer is kept in, a `struct bio **`. -/
inductive Slot where
  | head (c : Chain) (dev : R5dev)
  | next (bi : Bio)
deriving DecidableEq

def Heap.get (h : Heap) : Slot → Option Bio
  | .head c dev => h.head c dev
  | .next bi => h.biNext bi

def Heap.set (h : Heap) (bip : Slot) (bi : Option Bio) : Heap where
  biNext b := if bip = .next b then bi else h.biNext b
  head c dev := if bip = .head c dev then bi else h.head c dev

def r5NextBio (h : Heap) (bio : Bio) (sector : Nat) : Option Bio :=
  if bio.endSector < sector + stripeSectors then h.biNext bio else none

/-- The bound of the loops over a chain; a page has no room for more bios. -/
def maxWalk : Nat := stripeSectors + 1

/-- The loop over a chain, as all who drain or end a chain have it. -/
def walk (h : Heap) (dev : R5dev) : Nat → Option Bio → Option (List Bio)
  | _, none => some []
  | 0, some _ => none
  | n + 1, some bi =>
    if bi.biSector < dev.endSector then
      (walk h dev n (r5NextBio h bi dev.sector)).map (bi :: ·)
    else some []

/-- The loop of `stripe_bio_overlaps`; it follows `bi_next` itself. -/
def stripeBioOverlaps (h : Heap) (bi : Bio) : Nat → Slot → Option Bool
  | 0, _ => none
  | n + 1, bip =>
    match h.get bip with
    | none => some false
    | some b =>
      if b.biSector < bi.biSector then
        if bi.biSector < b.endSector then some true else stripeBioOverlaps h bi n (.next b)
      else some (decide (b.biSector < bi.endSector))

/-- The loop of `__add_stripe_bio`. -/
def findSlot (h : Heap) (bi : Bio) : Nat → Slot → Option Slot
  | 0, _ => none
  | n + 1, bip =>
    match h.get bip with
    | none => some bip
    | some b => if b.biSector < bi.biSector then findSlot h bi n (.next b) else some bip

/-- `__add_stripe_bio` after its loop; nothing when the `BUG_ON` fires. -/
def linkBio (h : Heap) (bi : Bio) (bip : Slot) : Option Heap :=
  match h.get bip with
  | none => some (h.set bip (some bi))
  | some b =>
    if h.biNext bi ≠ none ∧ h.biNext bi ≠ some b then none
    else some ((h.set (.next bi) (some b)).set bip (some bi))

def Bio.chain (bi : Bio) : Chain := if bi.write then .towrite else .toread

/-- The heap, and what has been attached to it. -/
structure Core where
  heap : Heap
  /-- The bios attached to a page and not ended there. -/
  attached : Chain → R5dev → Finset Bio
  /-- The sectors of the pages a bio was attached to. -/
  done : Bio → Finset Nat
  submitted : Finset Bio

/-- `__add_stripe_bio`. -/
def addStripeBio (k : Core) (bi : Bio) (dev : R5dev) : Option Core :=
  (findSlot k.heap bi maxWalk (.head bi.chain dev)).bind fun bip =>
    (linkBio k.heap bi bip).map fun h =>
      { k with
        heap := h
        attached := fun c d =>
          if c = bi.chain ∧ d = dev then insert bi (k.attached c d) else k.attached c d
        done := Function.update k.done bi (insert dev.sector (k.done bi)) }

structure State where
  core : Core
  /-- The pages that a call which dropped the lock has still to do. -/
  rest : Bio → List R5dev
  /-- A `BUG_ON` fired, or a loop over a chain did not end. -/
  bug : Bool

/-- The first loop of `add_all_stripe_bios`. -/
def anyOverlaps (h : Heap) (bi : Bio) : List R5dev → Option Bool
  | [] => some false
  | dev :: devs =>
    (stripeBioOverlaps h bi maxWalk (.head bi.chain dev)).bind fun o =>
      if o then some true else anyOverlaps h bi devs

/-- Its second loop, up to where the lock is dropped: `firstwrite` with a bitmap. -/
def attachAll (bitmap : Bool) (s : State) (bi : Bio) : List R5dev → State
  | [] => { s with rest := Function.update s.rest bi [] }
  | dev :: devs =>
    match addStripeBio s.core bi dev with
    | none => { s with bug := true }
    | some k =>
      if bitmap = true ∧ bi.write = true ∧ s.core.heap.head .towrite dev = none then
        { s with core := k, rest := Function.update s.rest bi devs }
      else attachAll bitmap { s with core := k } bi devs

/-- How the callers use `add_stripe_bio` and `add_all_stripe_bios`: with pages the bio reaches
into and was not attached to before. -/
def Called (s : State) (bi : Bio) (devs : List R5dev) : Prop :=
  bi ∈ s.core.submitted ∧ s.rest bi = [] ∧ (devs.map R5dev.sector).Nodup ∧
    ∀ dev ∈ devs, bi.biSector < dev.endSector ∧ dev.sector < bi.endSector ∧
      dev.sector ∉ s.core.done bi

instance (s : State) (bi : Bio) (devs : List R5dev) : Decidable (Called s bi devs) :=
  inferInstanceAs (Decidable (_ ∧ _ ∧ _ ∧ _))

inductive Event where
  /-- `bi->bi_next = NULL` in `raid5_make_request`, or when a read is taken off the retry list. -/
  | submit (bi : Bio)
  /-- `add_all_stripe_bios`, or `add_stripe_bio` with one page. -/
  | add (bi : Bio) (devs : List R5dev)
  /-- `__add_stripe_bio` has the lock again. -/
  | resume (bi : Bio)
  | biofill (dev : R5dev)
  | biodrain (dev : R5dev)
  /-- The bios of a chain are ended, completed or failed. -/
  | finish (c : Chain) (dev : R5dev)
deriving DecidableEq

/-- `dev->read = dev->toread; dev->toread = NULL`, and the same for writes. -/
def Core.move (k : Core) (source target : Chain) (dev : R5dev) : Core :=
  { k with
    heap := (k.heap.set (.head target dev) (k.heap.head source dev)).set (.head source dev) none
    attached := fun c d =>
      if d = dev then
        if c = source then ∅
        else if c = target then k.attached source dev ∪ k.attached target dev
        else k.attached c d
      else k.attached c d }

def step (bitmap : Bool) (s : State) (e : Event) : Option State :=
  if s.bug then none
  else match e with
    | .submit bi =>
      if bi ∈ s.core.submitted then none
      else some { s with
        core := { s.core with
        heap := s.core.heap.set (.next bi) none
        submitted := insert bi s.core.submitted } }
    | .add bi devs =>
      if ¬ Called s bi devs then none
      else match anyOverlaps s.core.heap bi devs with
        | none => some { s with bug := true }
        | some true => some s
        | some false => some (attachAll bitmap s bi devs)
    | .resume bi => if s.rest bi = [] then none else some (attachAll bitmap s bi (s.rest bi))
    | .biofill dev =>
      if s.core.heap.head .read dev ≠ none then none
      else some { s with core := s.core.move .toread .read dev }
    | .biodrain dev =>
      if s.core.heap.head .written dev ≠ none then none
      else some { s with core := s.core.move .towrite .written dev }
    | .finish c dev =>
      match walk s.core.heap dev maxWalk (s.core.heap.head c dev) with
      | none => some { s with bug := true }
      | some l => some { s with
          core := { s.core with
          heap := s.core.heap.set (.head c dev) none
          attached := fun c' d =>
            if c' = c ∧ d = dev then s.core.attached c d \ l.toFinset
            else s.core.attached c' d } }

/-- No chain, and links with any content. -/
def start (garbage : Bio → Option Bio) : State :=
  ⟨⟨⟨garbage, fun _ _ => none⟩, fun _ _ => ∅, fun _ => ∅, ∅⟩, fun _ => [], false⟩

/-- A walk over any chain of any page visits the bios attached there and not ended, in the
order of their sectors and without overlap. -/
def WellFormed (s : State) : Prop :=
  s.bug = false ∧ ∀ c dev, ∃ l,
    walk s.core.heap dev maxWalk (s.core.heap.head c dev) = some l ∧
    (∀ b, b ∈ l ↔ b ∈ s.core.attached c dev) ∧
    Spans.Ordered Bio.biSector Bio.endSector l

/-- A write overlaps none that another call has still to attach to one of its pages. -/
def Undisturbed (s : State) : Event → Prop
  | .add bi devs => bi.write = true → ∀ b ∈ s.core.submitted, b ≠ bi →
      ∀ dev ∈ devs, dev ∈ s.rest b →
        bi.endSector ≤ b.biSector ∨ b.endSector ≤ bi.biSector
  | _ => True

instance (s : State) (e : Event) : Decidable (Undisturbed s e) := by
  cases e <;> unfold Undisturbed <;> infer_instance

/-! ## Pointers -/

@[simp]
theorem Heap.get_set_self (h : Heap) (bip : Slot) (bi : Option Bio) :
    (h.set bip bi).get bip = bi := by
  cases bip <;> simp [get, set]

theorem Heap.get_set_ne (h : Heap) {bip sl : Slot} (hne : bip ≠ sl) (bi : Option Bio) :
    (h.set bip bi).get sl = h.get sl := by
  cases sl <;> simp [get, set, hne]

/-- Two pages a bio ends inside are at the same sector. -/
theorem R5dev.sector_eq {d d' : R5dev} {e : Nat} (h : d.sector < e ∧ e < d.endSector)
    (h' : d'.sector < e ∧ e < d'.endSector) : d.sector = d'.sector := by
  obtain ⟨a, ha⟩ := d.aligned
  obtain ⟨b, hb⟩ := d'.aligned
  unfold endSector stripeSectors at *
  omega

/-- The pointers of a page from `o` on go through the bios `l`. -/
def Linked (h : Heap) (dev : R5dev) : Option Bio → List Bio → Prop
  | o, [] => o = none
  | o, b :: l => o = some b ∧ Linked h dev (r5NextBio h b dev.sector) l

section Linked

variable {h h' : Heap} {dev : R5dev} {bi : Bio}

/-- Only the links of bios that end inside the page are followed. -/
theorem Linked.congr : ∀ {l : List Bio} {o : Option Bio},
    (∀ b ∈ l, b.endSector < dev.endSector → h'.biNext b = h.biNext b) →
    Linked h dev o l → Linked h' dev o l := by
  intro l
  induction l with
  | nil => exact fun _ hl => hl
  | cons b l ih =>
    rintro o heq ⟨rfl, hl⟩
    obtain ⟨hb, hrest⟩ := List.forall_mem_cons.mp heq
    refine ⟨rfl, ?_⟩
    have hnext : r5NextBio h' b dev.sector = r5NextBio h b dev.sector :=
      ite_congr rfl hb fun _ => rfl
    rw [hnext]
    exact ih hrest hl

theorem walk_eq : ∀ {l : List Bio} {o : Option Bio} {n : Nat}, Linked h dev o l →
    (∀ b ∈ l, b.biSector < dev.endSector) → l.length ≤ n → walk h dev n o = some l := by
  intro l
  induction l with
  | nil =>
    rintro o n rfl - -
    cases n <;> rfl
  | cons b l ih =>
    rintro o n ⟨rfl, hl⟩ hin hn
    obtain ⟨hb, hrest⟩ := List.forall_mem_cons.mp hin
    cases n with
    | zero => exact absurd hn (Nat.not_succ_le_zero _)
    | succ n =>
      rw [walk, if_pos hb, ih hl hrest (Nat.le_of_succ_le_succ hn), Option.map_some]

/-- A bio that stops before another of the page begins is followed by its link. -/
theorem r5NextBio_eq {b : Bio} (hle : b.endSector ≤ bi.biSector)
    (hin : bi.biSector < dev.endSector) : r5NextBio h b dev.sector = h.get (.next b) :=
  if_pos (lt_of_le_of_lt hle hin)

theorem stripeBioOverlaps_eq (hin : bi.biSector < dev.endSector) : ∀ {l : List Bio} {bip : Slot}
    {n : Nat}, Linked h dev (h.get bip) l → l.length < n →
      stripeBioOverlaps h bi n bip = some (Spans.overlaps Bio.biSector Bio.endSector bi l) := by
  intro l
  induction l with
  | nil =>
    intro bip n hl hn
    cases n with
    | zero => exact absurd hn (Nat.not_lt_zero _)
    | succ n =>
      rw [stripeBioOverlaps, show h.get bip = none from hl]
      rfl
  | cons b l ih =>
    intro bip n hl hn
    cases n with
    | zero => exact absurd hn (Nat.not_lt_zero _)
    | succ n =>
      rw [stripeBioOverlaps, hl.1, Spans.overlaps]
      dsimp only
      by_cases hlt : b.biSector < bi.biSector
      · rw [if_pos hlt, if_pos hlt]
        by_cases hover : bi.biSector < b.endSector
        · rw [if_pos hover, if_pos hover]
        · rw [if_neg hover, if_neg hover]
          have hlink := hl.2
          rw [r5NextBio_eq (Nat.le_of_not_lt hover) hin] at hlink
          exact ih hlink (Nat.lt_of_succ_lt_succ hn)
      · rw [if_neg hlt, if_neg hlt]

/-- **Insertion.** The new bio is linked in at its place; no other pointer changes than that
before it and, where another bio follows it, its own. -/
theorem linked_insert (hin : bi.biSector < dev.endSector)
    (hfresh : bi.endSector < dev.endSector → h.biNext bi = none) :
    ∀ {l : List Bio} {bip : Slot} {n : Nat}, Linked h dev (h.get bip) l →
      (∀ b ∈ l, b.biSector < dev.endSector) →
      (∀ b ∈ l, b.endSector ≤ bi.biSector ∨ bi.endSector ≤ b.biSector) →
      (bi :: l).Nodup → (∀ b ∈ bi :: l, bip ≠ .next b) → l.length < n →
      ∃ bip' h', findSlot h bi n bip = some bip' ∧ linkBio h bi bip' = some h' ∧
        Linked h' dev (h'.get bip) (Spans.insert Bio.biSector bi l) ∧
        ∀ sl, sl ≠ bip → (∀ b ∈ bi :: l, b.endSector < dev.endSector → sl ≠ .next b) →
          h'.get sl = h.get sl := by
  intro l
  induction l with
  | nil =>
    intro bip n hl _ _ _ hbip hn
    have hne : bip ≠ .next bi := hbip bi List.mem_cons_self
    cases n with
    | zero => exact absurd hn (Nat.not_lt_zero _)
    | succ n =>
      refine ⟨bip, h.set bip (some bi), ?_, ?_, ⟨h.get_set_self _ _, ?_⟩, ?_⟩
      · rw [findSlot, show h.get bip = none from hl]
      · rw [linkBio, show h.get bip = none from hl]
      · have hkeep : (h.set bip (some bi)).biNext bi = h.biNext bi := h.get_set_ne hne _
        rw [r5NextBio, hkeep]
        exact ite_eq_right_iff.mpr hfresh
      · exact fun sl hsl _ => h.get_set_ne (Ne.symm hsl) _
  | cons b l ih =>
    intro bip n hl hstart hapart hnodup hbip hn
    obtain ⟨hget, hlink⟩ := hl
    obtain ⟨hb, hstart⟩ := List.forall_mem_cons.mp hstart
    obtain ⟨hab, hapart⟩ := List.forall_mem_cons.mp hapart
    obtain ⟨hbi, hbl⟩ := List.nodup_cons.mp hnodup
    have hne : b ≠ bi := fun heq => hbi (heq ▸ List.mem_cons_self)
    have hbip_b := hbip b (List.mem_cons_of_mem _ List.mem_cons_self)
    have hbip_bi := hbip bi List.mem_cons_self
    have hpos := bi.nonempty
    have hbpos := b.nonempty
    cases n with
    | zero => exact absurd hn (Nat.not_lt_zero _)
    | succ n =>
      rw [findSlot, hget, Spans.insert]
      dsimp only
      by_cases hlt : b.biSector < bi.biSector
      · -- the bio goes behind `b`
        have hstop : b.endSector ≤ bi.biSector := by omega
        rw [r5NextBio_eq hstop hin] at hlink
        have hnodup' : (bi :: l).Nodup :=
          List.nodup_cons.mpr ⟨fun hm => hbi (List.mem_cons_of_mem _ hm),
            (List.nodup_cons.mp hbl).2⟩
        have hslot : ∀ c ∈ bi :: l, Slot.next b ≠ .next c := by
          intro c hc heq
          obtain rfl := Slot.next.inj heq
          rcases List.mem_cons.mp hc with rfl | hc
          · exact hne rfl
          · exact (List.nodup_cons.mp hbl).1 hc
        obtain ⟨bip', h', hfind, hlinkBio, hl', hframe⟩ :=
          ih hlink hstart hapart hnodup' hslot (Nat.lt_of_succ_lt_succ hn)
        rw [if_pos hlt, if_pos hlt]
        have hsub : ∀ c ∈ bi :: l, c ∈ bi :: b :: l := by
          intro c hc
          rw [List.mem_cons, List.mem_cons]
          exact (List.mem_cons.mp hc).imp id .inr
        refine ⟨bip', h', hfind, hlinkBio, ⟨?_, ?_⟩, fun sl hsl hother => ?_⟩
        · rw [hframe bip hbip_b fun c hc _ => hbip c (hsub c hc), hget]
        · rwa [r5NextBio_eq hstop hin]
        · refine hframe sl ?_ fun c hc => hother c (hsub c hc)
          exact hother b (List.mem_cons_of_mem _ List.mem_cons_self) (lt_of_le_of_lt hstop hin)
      · -- the bio goes before `b`, so it ends inside the page
        have hinner : bi.endSector < dev.endSector := by omega
        have hnone := hfresh hinner
        rw [if_neg hlt, if_neg hlt]
        refine ⟨bip, (h.set (.next bi) (some b)).set bip (some bi), rfl, ?_, ⟨?_, ?_⟩, ?_⟩
        · rw [linkBio, hget, hnone]
          rfl
        · exact Heap.get_set_self _ _ _
        · have hnext : ((h.set (.next bi) (some b)).set bip (some bi)).biNext bi = some b :=
            ((h.set (.next bi) (some b)).get_set_ne hbip_bi _).trans (h.get_set_self _ _)
          rw [r5NextBio, if_pos (show bi.endSector < dev.sector + stripeSectors from hinner), hnext]
          refine Linked.congr (fun c hc _ => ?_) (show Linked h dev (some b)
            (b :: l) from ⟨rfl, hlink⟩)
          have hcbi : Slot.next bi ≠ .next c := fun heq => hbi (Slot.next.inj heq ▸ hc)
          exact ((h.set (.next bi) (some b)).get_set_ne
            (hbip c (List.mem_cons_of_mem _ hc)) _).trans
            (h.get_set_ne hcbi _)
        · intro sl hsl hother
          rw [Heap.get_set_ne _ (Ne.symm hsl),
            Heap.get_set_ne _ (Ne.symm (hother bi List.mem_cons_self hinner))]

end Linked

end MdRaid.Requests.Chains
