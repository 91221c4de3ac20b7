import MdRaid.Geometry.ComputeSector
import MdRaid.Lib.Runs
import MdRaid.Lib.Spans

/-!
# The flag `R5_OVERWRITE`

`__add_stripe_bio` sets `R5_OVERWRITE` on a device when the write bios pending on its page
cover the page, and counts the devices it sets it on in `overwrite_disks`. The bios leave
with the drain or with a failed stripe; the flag goes only when the drain takes the pages of
the bio instead of copying (`R5_SkipCopy`), and when the stripe head is set up again.

The machine has the data devices of one stripe without a journal, from `init_stripe` on. The
stripe is drained in the steps of `schedule_reconstruction`, `ops_run_biodrain` and
`ops_complete_reconstruct`, between which bios may be added. Which devices a reconstruction
takes, which reads fail, when pages are computed and when the stripe fails is up to the
environment. Batches and the parity devices are left out, except for the `R5_Discard` of the
parity.

`stripe_bio_overlaps` keeps overlapping bios off a page, but `add_all_stripe_bios` does not ask
it again for the next page after it dropped the lock for the bitmap. A bio may be added here
either way. `make_discard_request` rounds the start of the request down to a page, so that the
first page it queues the bio on may begin before the bio.
-/

namespace MdRaid.Requests.Overwrite

open Runs

/-! ## Definitions -/

/-- A write bio; it may reach beyond the page at both ends. -/
structure WriteBio where
  start : Nat
  stop : Nat
  discard : Bool
deriving DecidableEq, Repr

/-- `struct r5dev`. `written` is empty when the pointer is `NULL`. -/
structure Dev where
  towrite : List WriteBio
  written : List WriteBio
  /-- `R5_Wantdrain` -/
  wantdrain : Bool
  /-- `R5_OVERWRITE` -/
  overwrite : Bool
  /-- `R5_UPTODATE` -/
  uptodate : Bool
  /-- `R5_SkipCopy` -/
  skipCopy : Bool
  /-- `R5_Discard` -/
  discard : Bool
deriving DecidableEq, Repr

structure StripeHead (n : Nat) where
  dev : Fin n → Dev
  overwriteDisks : Nat
  /-- `reconstruct_state` is not idle -/
  reconstructing : Bool
  /-- `STRIPE_DISCARD` -/
  discarding : Bool
  /-- `R5_Discard` of the parity device -/
  pdDiscard : Bool
  /-- on the hash list -/
  hashed : Bool

/-- A device after `init_stripe`. -/
def Dev.init : Dev := ⟨[], [], false, false, false, false, false⟩

def initStripe (n : Nat) : StripeHead n := ⟨fun _ => Dev.init, 0, false, false, false, true⟩

inductive Event (n : Nat) : Type where
  | addStripeBio (d : Fin n) (bi : WriteBio)
  | makeDiscardRequest (bi : WriteBio)
  /-- `schedule_reconstruction` takes the devices with `take`. -/
  | scheduleReconstruction (take : Fin n → Bool)
  | biodrain (d : Fin n)
  /-- The page of the bio is used in place of the page of the stripe. -/
  | skipCopy (d : Fin n)
  | completeReconstruct
  /-- `handle_stripe_clean_event` finds the devices with `locked` still being written. -/
  | cleanEvent (locked : Fin n → Bool)
  | handleFailedStripe
  | endReadRequest (d : Fin n) (ok : Bool)
  | completeCompute (d : Fin n)
  | reinit

section Steps

variable {n : Nat} (sector : Fin n → Nat) (sh : StripeHead n)

/-- The bio has a sector of the page. -/
def touches (d : Fin n) (bi : WriteBio) : Prop :=
  bi.start < bi.stop ∧ bi.start < sector d + stripeSectors ∧ sector d < bi.stop

instance (d : Fin n) (bi : WriteBio) : Decidable (touches sector d bi) := by
  unfold touches
  infer_instance

def StripeHead.setDev (d : Fin n) (f : Dev → Dev) : StripeHead n :=
  { sh with dev := Function.update sh.dev d (f (sh.dev d)) }

def stripeBioOverlaps (dev : Dev) (bi : WriteBio) : Bool :=
  Spans.overlaps WriteBio.start WriteBio.stop bi dev.towrite

/-- The loop "check if page is covered". -/
def pageCovered (first : Nat) (towrite : List WriteBio) : Bool :=
  decide (first + stripeSectors ≤
    Spans.coverTo WriteBio.start WriteBio.stop (first + stripeSectors) towrite first)

def Dev.addBio (first : Nat) (bi : WriteBio) (dev : Dev) : Dev :=
  let towrite := Spans.insert WriteBio.start bi dev.towrite
  { dev with towrite := towrite, overwrite := dev.overwrite || pageCovered first towrite }

/-- The device is counted when the flag is set for the first time. -/
def addStripeBio (d : Fin n) (bi : WriteBio) : StripeHead n :=
  { sh.setDev d (Dev.addBio (sector d) bi) with
    overwriteDisks :=
      if pageCovered (sector d) (Spans.insert WriteBio.start bi (sh.dev d).towrite) &&
          !(sh.dev d).overwrite then sh.overwriteDisks + 1
      else sh.overwriteDisks }

/-- The bio is queued on every device, whether it covers the page or not. -/
def makeDiscardRequest (bi : WriteBio) : StripeHead n :=
  { sh with
    dev := fun d => { sh.dev d with towrite := [bi], overwrite := true }
    overwriteDisks := n
    discarding := true }

def scheduleReconstruction (take : Fin n → Bool) : StripeHead n :=
  { sh with
    dev := fun d =>
      if take d then { sh.dev d with wantdrain := true, uptodate := false } else sh.dev d
    reconstructing := true }

def Dev.drain (dev : Dev) : Dev :=
  { dev with
    wantdrain := false
    towrite := []
    written := dev.towrite
    discard := dev.discard || dev.towrite.any WriteBio.discard }

def biodrain (d : Fin n) : StripeHead n :=
  { sh.setDev d Dev.drain with overwriteDisks := 0 }

def Dev.useBioPage (dev : Dev) : Dev :=
  { dev with skipCopy := true, uptodate := false, overwrite := false }

def skipCopy (d : Fin n) : StripeHead n := sh.setDev d Dev.useBioPage

/-- Nothing becomes uptodate in a stripe with a discard, nor a page that was not copied. -/
def completeReconstruct : StripeHead n :=
  let discard := decide (∃ d, (sh.dev d).discard = true)
  { sh with
    dev := fun d =>
      if (sh.dev d).written ≠ [] ∧ discard = false ∧ (sh.dev d).skipCopy = false then
        { sh.dev d with uptodate := true }
      else sh.dev d
    reconstructing := false
    pdDiscard := sh.pdDiscard || decide (∀ d, (sh.dev d).discard = true) }

/-- The writes of the device can be returned. -/
def Dev.returnable (dev : Dev) : Bool :=
  !dev.written.isEmpty && (dev.uptodate || dev.discard || dev.skipCopy)

def Dev.returnWrites (dev : Dev) : Dev :=
  { dev with
    written := []
    uptodate := dev.uptodate && !dev.discard
    discard := false
    skipCopy := false }

/-- When no discard is pending any more the stripe is taken off the hash list. -/
def cleanEvent (locked : Fin n → Bool) : StripeHead n :=
  let discardPending := decide (∃ d, (sh.dev d).written ≠ [] ∧ (sh.dev d).discard = true ∧
    locked d = true)
  let sh : StripeHead n :=
    { sh with
      dev := fun d =>
        if (sh.dev d).returnable = true ∧ locked d = false then (sh.dev d).returnWrites
        else sh.dev d }
  if discardPending = false ∧ sh.pdDiscard = true then
    { sh with pdDiscard := false, discarding := false, hashed := false }
  else sh

def handleFailedStripe : StripeHead n :=
  { sh with
    dev := fun d =>
      { sh.dev d with towrite := [], written := [], wantdrain := false, skipCopy := false }
    overwriteDisks := 0
    reconstructing := false }

def step : Event n → Option (StripeHead n)
  | .addStripeBio d bi =>
    if ¬ touches sector d bi ∨ bi.discard = true then none
    else some (addStripeBio sector sh d bi)
  | .makeDiscardRequest bi =>
    if bi.discard = false ∨ ∃ d, (sh.dev d).towrite ≠ [] then none
    else some (makeDiscardRequest sh bi)
  | .scheduleReconstruction take =>
    if sh.reconstructing = true ∨ ∃ d, take d = true ∧ (sh.dev d).towrite = [] then none
    else some (scheduleReconstruction sh take)
  | .biodrain d =>
    -- `BUG_ON(dev->written)`
    if (sh.dev d).wantdrain = false ∨ (sh.dev d).written ≠ [] then none
    else some (biodrain sh d)
  | .skipCopy d =>
    if sh.reconstructing = false ∨ (sh.dev d).written = [] ∨ (sh.dev d).skipCopy = true then none
    else some (skipCopy sh d)
  | .completeReconstruct =>
    if sh.reconstructing = false ∨ ∃ d, (sh.dev d).wantdrain = true then none
    else some (completeReconstruct sh)
  | .cleanEvent locked => if sh.reconstructing = true then none else some (cleanEvent sh locked)
  | .handleFailedStripe => some (handleFailedStripe sh)
  | .endReadRequest d ok => some (sh.setDev d fun dev => { dev with uptodate := ok })
  | .completeCompute d => some (sh.setDev d fun dev => { dev with uptodate := true })
  | .reinit =>
    if ∃ d, (sh.dev d).towrite ≠ [] ∨ (sh.dev d).written ≠ [] then none
    else some (initStripe n)

/-- The bios pending on the device cover its page. -/
def Covered (d : Fin n) : Prop :=
  Spans.Cover WriteBio.start WriteBio.stop (sector d) (sector d + stripeSectors)
    (sh.dev d).towrite

instance (d : Fin n) : Decidable (Covered sector sh d) :=
  inferInstanceAs (Decidable (∀ x, sector d ≤ x → x < sector d + stripeSectors →
    ∃ b ∈ (sh.dev d).towrite, b.start ≤ x ∧ x < b.stop))

/-- The bio has all sectors of the page. -/
def covers (d : Fin n) (bi : WriteBio) : Prop :=
  bi.start ≤ sector d ∧ sector d + stripeSectors ≤ bi.stop

instance (d : Fin n) (bi : WriteBio) : Decidable (covers sector d bi) :=
  inferInstanceAs (Decidable (_ ∧ _))

/-- Bios are added where they overlap none, and those of discards cover the pages. -/
def Checked : Event n → Prop
  | .addStripeBio d bi => stripeBioOverlaps (sh.dev d) bi = false
  | .makeDiscardRequest bi => ∀ d, covers sector d bi
  | _ => True

/-- The steps that keep it so. Bios are added where they overlap none, to a stripe on the hash list
without a discard, and during a reconstruction only where the flag is clear or the page uptodate;
those of discards cover the pages. Pages with the flag are no longer uptodate only while the pending
bios cover them: when a reconstruction takes them, when the stripe fails, when a read fails. -/
def Careful : Event n → Prop
  | .addStripeBio d bi =>
    sh.hashed = true ∧ sh.discarding = false ∧ stripeBioOverlaps (sh.dev d) bi = false ∧
      (sh.reconstructing = true → (sh.dev d).overwrite = true → (sh.dev d).uptodate = true)
  | .makeDiscardRequest bi => ∀ d, covers sector d bi
  | .scheduleReconstruction take =>
    ∀ d, take d = true → (sh.dev d).overwrite = true → Covered sector sh d
  | .handleFailedStripe => ∀ d, (sh.dev d).overwrite = true → (sh.dev d).uptodate = true
  | .endReadRequest d ok => ok = true ∨ (sh.dev d).overwrite = false
  | _ => True

instance (e : Event n) : Decidable (Careful sector sh e) := by
  cases e <;> unfold Careful <;> infer_instance

end Steps

/-! ## The counter -/

section Counter

variable {n : Nat} {sector : Fin n → Nat}

theorem setDev_same (sh : StripeHead n) (d : Fin n) (f : Dev → Dev) :
    (sh.setDev d f).dev d = f (sh.dev d) := Function.update_self ..

theorem setDev_other (sh : StripeHead n) {d i : Fin n} (h : i ≠ d) (f : Dev → Dev) :
    (sh.setDev d f).dev i = sh.dev i := Function.update_of_ne h ..

/-- The bios of every device are in order, and the counter counts devices with covered pages. -/
structure Counted (sector : Fin n → Nat) (sh : StripeHead n) : Prop where
  ordered : ∀ d, Spans.Ordered WriteBio.start WriteBio.stop (sh.dev d).towrite
  counted : ∃ S : Finset (Fin n), S.card = sh.overwriteDisks ∧ ∀ d ∈ S, Covered sector sh d

section

variable {sh : StripeHead n} (h : Counted sector sh) {d : Fin n} {bi : WriteBio}
  (htouch : touches sector d bi) (hno : stripeBioOverlaps (sh.dev d) bi = false)
include h htouch hno

end

theorem covers.cover {d : Fin n} {bi : WriteBio} (h : covers sector d bi) :
    Spans.Cover WriteBio.start WriteBio.stop (sector d) (sector d + stripeSectors) [bi] :=
  fun _ hlow hhigh => ⟨bi, List.mem_singleton.mpr rfl, h.1.trans hlow, hhigh.trans_le h.2⟩

/-- A full counter means that every page is covered. -/
theorem Counted.full {sh : StripeHead n} (h : Counted sector sh) (hfull : sh.overwriteDisks = n)
    (d : Fin n) : Covered sector sh d := by
  obtain ⟨S, hcard, hS⟩ := h.counted
  have huniv : S = Finset.univ :=
    Finset.card_eq_iff_eq_univ S |>.mp (by rw [hcard, hfull, Fintype.card_fin])
  exact hS d (huniv ▸ Finset.mem_univ d)

end Counter

/-! ## The flag -/

section Flag

variable {n : Nat} {sector : Fin n → Nat}

/-- A discard is going on, or has taken the stripe off the hash list. -/
def StripeHead.Away (sh : StripeHead n) : Prop := sh.discarding = true ∨ sh.hashed = false

/-- What holds of a device at `first`, in a stripe that is being reconstructed or not, is `away`
or not, and has the `R5_Discard` of the parity set (`pd`) or not. -/
structure DevInv (first : Nat) (reconstructing : Bool) (away pd : Prop) (dev : Dev) : Prop where
  flag : dev.overwrite = true → dev.uptodate = true ∨
    Spans.Cover WriteBio.start WriteBio.stop first (first + stripeSectors) dev.towrite ∨
    (reconstructing = true ∧ dev.towrite = [] ∧ dev.written ≠ [] ∧ dev.skipCopy = false) ∨
    away
  covered : away → dev.towrite = [] ∨
    Spans.Cover WriteBio.start WriteBio.stop first (first + stripeSectors) dev.towrite
  discards : (dev.discard = true ∨ ∃ bi ∈ dev.towrite, bi.discard = true) → away
  parity : pd → away
  copied : dev.written = [] → dev.skipCopy = false
  wantdrain : dev.wantdrain = true → reconstructing = true ∧ dev.towrite ≠ []

def Inv (sector : Fin n → Nat) (sh : StripeHead n) : Prop :=
  ∀ d, DevInv (sector d) sh.reconstructing sh.Away (sh.pdDiscard = true) (sh.dev d)

theorem inv_init : Inv sector (initStripe n) := by
  intro d
  have haway : ¬ (initStripe n).Away := by
    rintro (h | h) <;> cases h
  refine ⟨by rintro ⟨⟩, fun h => absurd h haway, ?_, by rintro ⟨⟩, fun _ => rfl, by rintro ⟨⟩⟩
  rintro (h | ⟨bi, hbi, -⟩)
  · cases h
  · exact absurd hbi List.not_mem_nil

/-- A step on one device. -/
theorem inv_setDev {sh : StripeHead n} (h : Inv sector sh) {d : Fin n} {f : Dev → Dev}
    (hd : DevInv (sector d) sh.reconstructing sh.Away (sh.pdDiscard) (f (sh.dev d))) :
    Inv sector (sh.setDev d f) := by
  intro i
  by_cases hi : i = d
  · subst hi
    rw [setDev_same]
    exact hd
  · rw [setDev_other sh hi]
    exact h i

section OneDevice

variable {first : Nat} {reconstructing : Bool} {away pd : Prop} {dev : Dev}

section

variable (h : DevInv first reconstructing away pd dev)

include h

theorem DevInv.addBio (haway : ¬ away) {bi : WriteBio} (hbi : bi.discard = false)
    (hup : reconstructing → dev.overwrite → dev.uptodate) : DevInv first reconstructing away pd
    (dev.addBio first bi) where
  flag hflag := by
    rcases Bool.or_eq_true_iff.mp hflag with hold | hnew
    · rcases h.flag hold with hup | hcov | hrun | ha
      · exact .inl hup
      · exact .inr (.inl (hcov.mono fun a ha => Spans.mem_insert.mpr (.inr ha)))
      · exact .inl (hup hrun.1 hold)
      · exact absurd ha haway
    · exact .inr (.inl (Spans.cover_of_coverTo (of_decide_eq_true hnew)))
  covered ha := absurd ha haway
  discards := by
    rintro (hd | ⟨b, hb, hbd⟩)
    · exact h.discards (.inl hd)
    · rcases Spans.mem_insert.mp hb with rfl | hb
      · cases hbi.symm.trans hbd
      · exact h.discards (.inr ⟨b, hb, hbd⟩)
  parity := h.parity
  copied := h.copied
  wantdrain hw := by
    refine ⟨(h.wantdrain hw).1, fun hnil => ?_⟩
    have hmem : bi ∈ Spans.insert WriteBio.start bi dev.towrite := Spans.mem_insert.mpr (.inl rfl)
    rw [show Spans.insert WriteBio.start bi dev.towrite = [] from hnil] at hmem
    exact absurd hmem List.not_mem_nil

theorem DevInv.drain (hw : dev.wantdrain)
    (hwritten : dev.written = []) : DevInv first reconstructing away pd dev.drain where
  flag _ := .inr (.inr (.inl ⟨(h.wantdrain hw).1, rfl, (h.wantdrain hw).2, h.copied hwritten⟩))
  covered _ := .inl rfl
  discards := by
    rintro (hd | ⟨b, hb, -⟩)
    · rcases Bool.or_eq_true_iff.mp hd with hd | hany
      · exact h.discards (.inl hd)
      · exact h.discards (.inr (List.any_eq_true.mp hany))
    · exact absurd hb List.not_mem_nil
  parity := h.parity
  copied _ := h.copied hwritten
  wantdrain := by rintro ⟨⟩

theorem DevInv.useBioPage (hwritten : dev.written ≠ []) :
    DevInv first reconstructing away pd dev.useBioPage :=
  { h with
    flag := by rintro ⟨⟩
    parity := h.parity
    copied hnil := absurd hnil hwritten }

theorem DevInv.setUptodate {ok : Bool} (hok : ok ∨ dev.overwrite = false) :
    DevInv first reconstructing away pd { dev with uptodate := ok } where
  flag hflag := by
    rcases hok with rfl | hclear
    · exact .inl rfl
    · cases hclear.symm.trans hflag
  covered := h.covered
  discards := h.discards
  parity := h.parity
  copied := h.copied
  wantdrain := h.wantdrain

theorem DevInv.failed (hup : dev.overwrite → dev.uptodate) : DevInv first false away pd
      { dev with towrite := [], written := [], wantdrain := false, skipCopy := false } where
  flag hflag := .inl (hup hflag)
  covered _ := .inl rfl
  discards := by
    rintro (hd | ⟨b, hb, -⟩)
    · exact h.discards (.inl hd)
    · exact absurd hb List.not_mem_nil
  parity := h.parity
  copied _ := rfl
  wantdrain := by simp

omit h in
theorem DevInv.returnWrites (h : DevInv first false away pd dev) :
    DevInv first false away pd dev.returnWrites where
  flag hflag := by
    rcases h.flag hflag with hup | hcov | hrun | ha
    · by_cases hd : dev.discard
      · exact .inr (.inr (.inr (h.discards (.inl hd))))
      · left
        rw [Dev.returnWrites, hup, Bool.eq_false_iff.mpr hd]
        rfl
    · exact .inr (.inl hcov)
    · cases hrun.1
    · exact .inr (.inr (.inr ha))
  covered := h.covered
  discards := by
    rintro (hd | hb)
    · cases hd
    · exact h.discards (.inr hb)
  parity := h.parity
  copied _ := rfl
  wantdrain := h.wantdrain

/-- The stripe may go away from `away` to another way of being away. -/
theorem DevInv.congr {away' pd' : Prop} (haway : away' ↔ away) (hpd : pd' → away) :
    DevInv first reconstructing away' pd' dev where
  flag hflag := by
    rw [haway]
    exact h.flag hflag
  covered ha := h.covered (haway.mp ha)
  discards hd := haway.mpr (h.discards hd)
  parity hp := haway.mpr (hpd hp)
  copied := h.copied
  wantdrain := h.wantdrain

end

end OneDevice

section

variable {sh : StripeHead n} (h : Inv sector sh)
include h

theorem inv_schedule (hidle : sh.reconstructing = false)
    {take : Fin n → Bool} (htake : ∀ d, take d → (sh.dev d).towrite ≠ [])
    (hcov : ∀ d, take d → (sh.dev d).overwrite → Covered sector sh d) :
    Inv sector (scheduleReconstruction sh take) := by
  intro d
  have hd := h d
  rw [hidle] at hd
  have hdev : (scheduleReconstruction sh take).dev d =
      if take d = true then { sh.dev d with wantdrain := true, uptodate := false }
      else sh.dev d := rfl
  rw [hdev]
  split
  next ht =>
    exact { hd with
      flag := fun hflag => .inr (.inl (hcov d ht hflag))
      wantdrain := fun _ => ⟨rfl, htake d ht⟩ }
  next =>
    refine { hd with flag := ?_, wantdrain := fun hw => ?_ }
    · intro hflag
      rcases hd.flag hflag with hup | hcov | hrun | ha
      · exact .inl hup
      · exact .inr (.inl hcov)
      · cases hrun.1
      · exact .inr (.inr (.inr ha))
    · exact absurd (hd.wantdrain hw).1 (by decide)

theorem inv_complete
    (hdrained : ∀ d, (sh.dev d).wantdrain = false) : Inv sector (completeReconstruct sh) := by
  intro d
  have hd := h d
  have haway : ∀ i, (sh.dev i).discard → sh.Away := fun i hi => (h i).discards (.inl hi)
  have hparity : (completeReconstruct sh).pdDiscard → sh.Away := by
    intro hp
    rcases Bool.or_eq_true_iff.mp hp with hp | hall
    · exact hd.parity hp
    · exact haway d (of_decide_eq_true hall d)
  have hdev : (completeReconstruct sh).dev d =
      if (sh.dev d).written ≠ [] ∧ decide (∃ d, (sh.dev d).discard) = false ∧
        (sh.dev d).skipCopy = false then { sh.dev d with uptodate := true } else sh.dev d := rfl
  have hwd : (sh.dev d).wantdrain → (false ∧ (sh.dev d).towrite ≠ []) :=
    fun hw => (by cases (hdrained d).symm.trans hw)
  rw [hdev]
  split
  next => exact ⟨fun _ => .inl rfl, hd.covered, hd.discards, hparity, hd.copied, hwd⟩
  next hnot =>
    refine ⟨?_, hd.covered, hd.discards, hparity, hd.copied, hwd⟩
    intro hflag
    rcases hd.flag hflag with hup | hcov | ⟨-, -, hwritten, hskip⟩ | ha
    · exact .inl hup
    · exact .inr (.inl hcov)
    · -- a drained page that does not become uptodate is part of a discard
      have hdisc : ∃ i, (sh.dev i).discard := by
        by_contra hno
        exact hnot ⟨hwritten, decide_eq_false hno, hskip⟩
      obtain ⟨i, hi⟩ := hdisc
      exact .inr (.inr (.inr (haway i hi)))
    · exact .inr (.inr (.inr ha))

theorem inv_clean (hidle : sh.reconstructing = false)
    (locked : Fin n → Bool) : Inv sector (cleanEvent sh locked) := by
  intro d
  have hd := h d
  rw [hidle] at hd
  have hret : DevInv (sector d) false sh.Away (sh.pdDiscard)
      (if (sh.dev d).returnable ∧ locked d = false then (sh.dev d).returnWrites
        else sh.dev d) := by
    split
    · exact hd.returnWrites
    · exact hd
  simp only [cleanEvent]
  split
  next hdone =>
    -- the stripe was away and stays so
    have haway : sh.Away := hd.parity hdone.2
    simp only [hidle]
    exact hret.congr ⟨fun _ => haway, fun _ => .inr rfl⟩ (by simp)
  next =>
    simp only [hidle]
    exact hret.congr Iff.rfl hd.parity

end

theorem step_inv {sh sh' : StripeHead n} {e : Event n} (h : Inv sector sh)
    (hcare : Careful sector sh e)
    (hs : step sector sh e = some sh') : Inv sector sh' := by
  cases e with
  | addStripeBio d bi =>
    obtain ⟨hguard, rfl⟩ := guard_eq_some.mp hs
    rw [not_or, Bool.not_eq_true] at hguard
    have haway : ¬ sh.Away := by
      rintro (hd | hh)
      · cases hcare.2.1.symm.trans hd
      · cases hcare.1.symm.trans hh
    exact inv_setDev h ((h d).addBio haway hguard.2 hcare.2.2.2)
  | makeDiscardRequest bi =>
    obtain ⟨hguard, rfl⟩ := guard_eq_some.mp hs
    intro d
    have haway : (makeDiscardRequest sh bi).Away := .inl rfl
    have hempty : (sh.dev d).towrite = [] := by
      by_contra hne
      exact hguard (.inr ⟨d, hne⟩)
    refine ⟨fun _ => .inr (.inr (.inr haway)), fun _ => .inr (hcare d).cover,
      fun _ => haway, fun _ => haway, (h d).copied, fun hw => ?_⟩
    exact absurd hempty ((h d).wantdrain hw).2
  | scheduleReconstruction take =>
    obtain ⟨hguard, rfl⟩ := guard_eq_some.mp hs
    rw [not_or, Bool.not_eq_true] at hguard
    exact inv_schedule h hguard.1 (fun d ht hnil => hguard.2 ⟨d, ht, hnil⟩) hcare
  | biodrain d =>
    obtain ⟨hguard, rfl⟩ := guard_eq_some.mp hs
    rw [not_or, Bool.not_eq_false, not_not] at hguard
    exact inv_setDev h ((h d).drain hguard.1 hguard.2)
  | skipCopy d =>
    obtain ⟨hguard, rfl⟩ := guard_eq_some.mp hs
    rw [not_or, not_or] at hguard
    exact inv_setDev h ((h d).useBioPage hguard.2.1)
  | completeReconstruct =>
    obtain ⟨hguard, rfl⟩ := guard_eq_some.mp hs
    rw [not_or] at hguard
    exact inv_complete h fun d => Bool.eq_false_iff.mpr fun hw => hguard.2 ⟨d, hw⟩
  | cleanEvent locked =>
    obtain ⟨hguard, rfl⟩ := guard_eq_some.mp hs
    exact inv_clean h (Bool.eq_false_iff.mpr hguard) locked
  | handleFailedStripe =>
    cases hs
    exact fun d => (h d).failed (hcare d)
  | endReadRequest d ok =>
    cases hs
    exact inv_setDev h ((h d).setUptodate hcare)
  | completeCompute d =>
    cases hs
    exact inv_setDev h ((h d).setUptodate (.inl rfl))
  | reinit =>
    obtain ⟨-, rfl⟩ := guard_eq_some.mp hs
    exact inv_init

end Flag

def firstSector : WriteBio := ⟨0, 1, false⟩

end MdRaid.Requests.Overwrite
