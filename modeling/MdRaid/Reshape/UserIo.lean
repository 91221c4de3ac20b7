import MdRaid.Reshape.Safety
import MdRaid.Reshape.Expansion

/-!
# User requests during a reshape

`make_stripe_request` looks up on which side of the reshape its sector is, gets the stripe,
checks for a stripe of the old geometry that all of it is still ahead, and attaches the
bio. Here every step of it can be interleaved with those of other requests, of the thread
that reshapes and of the threads that handle stripes.

A stripe is taken from the list for handling only when nobody holds a reference to it,
but a reference can be taken while it is being handled. `conf->generation` changes only
when a reshape starts or ends, which is left out, and with it the check of the sequence
counter.
-/

namespace MdRaid.Reshape

open MdRaid.Geometry Function Runs Option

/-! ## Stripes and requests -/

namespace Mddev

variable (m : Mddev)

/-- `sh->dev[i].sector` for the data devices of the stripe, as `init_stripe` sets them. -/
def stripeBlocks (sector : Nat) (previous : Bool) : List Nat :=
  match initStripe m.conf sector previous with
  | none => []
  | some sh => ((List.range sh.disks).filter fun i => !sh.isParity i).map fun i =>
    raid5ComputeBlocknr m.conf sh i previous

def rangeAheadOfReshape (min max reshapeSector : Nat) : Bool :=
  if m.reshapeBackwards then decide (max < reshapeSector) else decide (min ≥ reshapeSector)

/-- True on a mismatch, as in the source: some of the old stripe is not ahead of the reshape. -/
def stripeAheadOfReshape (s : State) (sector : Nat) : Bool :=
  let blocks := m.stripeBlocks sector true
  !m.rangeAheadOfReshape (blocks.foldl min maxSector) (blocks.foldl max 0) s.reshapeProgress

inductive ReshapeLoc where
  | ahead
  | inside
  | behind
deriving DecidableEq, Repr

def getReshapeLoc (s : State) (logicalSector : Nat) : ReshapeLoc :=
  if m.aheadOfReshape logicalSector s.reshapeProgress then .ahead
  else if m.aheadOfReshape logicalSector s.reshapeSafe then .inside
  else .behind

end Mddev

/-- How far a call of `make_stripe_request` is. -/
inductive RequestStage where
  | located
  | got
  | passed
  | ready
  | attached
  | over
deriving DecidableEq, Repr

structure Request where
  firstSector : Nat
  lastSector : Nat
  logicalSector : Nat
  previous : Bool
  newSector : Nat
  stage : RequestStage
deriving DecidableEq, Repr

namespace Request

/-- It holds a reference to its stripe. -/
def holds (q : Request) : Bool := decide (q.stage ≠ .located ∧ q.stage ≠ .over)

/-- It holds its stripe and is past the check that the stripe is ahead. -/
def isPast (q : Request) : Bool := q.holds && decide (q.stage ≠ .got)

/-- The blocks to whose pages `add_all_stripe_bios` attaches the bio. -/
def blocks (m : Mddev) (q : Request) : List Nat :=
  (m.stripeBlocks q.newSector q.previous).filter fun b =>
    decide (q.firstSector ≤ b) && decide (b < q.lastSector)

end Request

/-! ## State -/

/-- What is being done with a stripe of the old geometry: it is taken from the list, then
`handle_stripe` looks at `STRIPE_EXPAND_SOURCE`, and may copy its blocks. -/
inductive Handling where
  | idle
  | taken
  | plain
  | expanding
  | copying
deriving DecidableEq, Repr

/-- The blocks of the stripe are about to be copied, or being copied. -/
def Handling.Expands (h : Handling) : Prop := h = .expanding ∨ h = .copying

structure Traffic where
  reshape : Mddev.State
  /-- New stripes with `STRIPE_EXPANDING`. -/
  expanding : List Nat
  /-- New stripes `reshape_request` has a reference to. -/
  held : List Nat
  /-- Old stripes `reshape_request` still has to mark. -/
  toMark : List Nat
  /-- Old stripes with `STRIPE_EXPAND_SOURCE`. -/
  expandSource : List Nat
  /-- Old stripes with `STRIPE_HANDLE`. -/
  handle : List Nat
  handling : Nat → Handling
  /-- Blocks copied to a new stripe. -/
  copied : List Nat
  /-- New stripes that are written. -/
  written : List Nat
  requests : List Request

namespace Traffic

variable (m : Mddev)

/-- Nobody holds a reference to the old stripe. -/
def unreferenced (s : Traffic) (o : Nat) : Bool :=
  decide (s.handling o = .idle) &&
    s.requests.all fun q => !(q.holds && q.previous && decide (q.newSector = o))

def moveTo (s : Traffic) (i : Nat) (q : Request) (stage : RequestStage) : Traffic :=
  { s with requests := s.requests.set i { q with stage := stage } }

/-- The bio is for sectors from `firstSector` to before `lastSector`. -/
def locate (s : Traffic) (firstSector lastSector logicalSector : Nat) : Option Traffic :=
  let request (previous : Bool) : Option Traffic :=
    (raid5ComputeSector m.conf logicalSector previous).map fun t =>
      { s with
        requests := s.requests ++
          [⟨firstSector, lastSector, logicalSector, previous, t.newSector, .located⟩] }
  match m.getReshapeLoc s.reshape logicalSector with
  | .ahead => request true
  | .inside => some s
  | .behind => request false

/-- The copy of device `i` of the old stripe at `o`. -/
def copy (s : Traffic) (o i : Nat) : Option Traffic :=
  (initStripe m.conf o true).bind fun sh =>
    if i < sh.disks ∧ sh.isParity i = false then
      let bn := raid5ComputeBlocknr m.conf sh i true
      (raid5ComputeSector m.conf bn false).map fun t =>
        -- `R5_Expanded` is set for what has been copied or is beyond the old array
        if t.newSector ∈ s.expanding ∧ bn ∉ s.copied ∧ bn < m.raid5Size then
          { s with copied := bn :: s.copied }
        else s
    else none

inductive Event where
  | reshape (e : Mddev.Event)
  | setExpanding (sector : Nat)
  | mark
  | releaseNew (sector : Nat)
  | locate (firstSector lastSector logicalSector : Nat)
  | getStripe (i : Nat)
  | checkAhead (i : Nat)
  | checkExpanding (i : Nat)
  | attach (i : Nat)
  | release (i : Nat)
  | endIo (o : Nat)
  | take (o : Nat)
  | analyse (o : Nat)
  | expansion (o : Nat)
  | copy (o i : Nat)
  | finish (o : Nat)
  | writeOut (sector : Nat)
deriving DecidableEq, Repr

/-- The steps of the reshape. The thread itself first marks the sources and then releases the new
stripes. -/
def reshapeStep (s : Traffic) : Mddev.Event → Option Traffic
  | .schedule due =>
    match s.reshape.stage with
    | .schedule addr =>
      if s.toMark = [] ∧ ∀ n ∈ m.newStripes addr, n ∈ s.expanding then
        (m.step s.reshape (.schedule due)).map fun r =>
          { s with reshape := r, toMark := m.sources addr }
      else none
    | _ => none
  | .stripeDone sector =>
    if sector ∈ s.expanding then none
    else (m.step s.reshape (.stripeDone sector)).map fun r =>
      { s with reshape := r, written := sector :: s.written }
  | .superStart => (m.step s.reshape .superStart).map fun r => { s with reshape := r }
  | .superDone => (m.step s.reshape .superDone).map fun r => { s with reshape := r }
  | e =>
    if s.toMark = [] ∧ s.held = [] then (m.step s.reshape e).map fun r => { s with reshape := r }
    else none

/-- The array ends at `arraySectors`. -/
def step (arraySectors : Nat) (s : Traffic) : Event → Option Traffic
  | .reshape e => s.reshapeStep m e
  | .setExpanding sector =>
    match s.reshape.stage with
    | .schedule addr =>
      if sector ∈ m.newStripes addr ∧ sector ∉ s.expanding then
        some { s with expanding := sector :: s.expanding, held := sector :: s.held }
      else none
    | _ => none
  | .mark =>
    match s.toMark with
    | [] => none
    | o :: rest =>
      some { s with toMark := rest, expandSource := o :: s.expandSource, handle := o :: s.handle }
  | .releaseNew sector =>
    match s.reshape.stage with
    | .schedule _ => none
    | _ => if s.toMark = [] then some { s with held := s.held.filter (· ≠ sector) } else none
  | .locate firstSector lastSector logicalSector =>
    if stripeSectors ∣ logicalSector ∧ firstSector ≤ logicalSector ∧ logicalSector < lastSector ∧
        lastSector ≤ arraySectors then
      s.locate m firstSector lastSector logicalSector
    else none
  | .getStripe i =>
    s.requests[i]?.bind fun q =>
      if q.stage = .located then some (s.moveTo i q .got) else none
  | .checkAhead i =>
    s.requests[i]?.bind fun q =>
      if q.stage = .got then
        if q.previous = true ∧ m.stripeAheadOfReshape s.reshape q.newSector = true then
          some (s.moveTo i q .over)
        else some (s.moveTo i q .passed)
      else none
  | .checkExpanding i =>
    s.requests[i]?.bind fun q =>
      if q.stage = .passed then
        if q.previous = false ∧ q.newSector ∈ s.expanding then some (s.moveTo i q .over)
        else some (s.moveTo i q .ready)
      else none
  | .attach i =>
    s.requests[i]?.bind fun q =>
      if q.stage = .ready then
        some { s.moveTo i q .attached with
          handle := if q.previous then q.newSector :: s.handle else s.handle }
      else none
  | .release i =>
    s.requests[i]?.bind fun q =>
      if q.stage = .attached then some (s.moveTo i q .over) else none
  | .endIo o => some { s with handle := o :: s.handle }
  | .take o =>
    if o ∈ s.handle ∧ s.unreferenced o = true then
      some { s with
        handle := s.handle.filter (· ≠ o), handling := update s.handling o .taken }
    else none
  | .analyse o =>
    if s.handling o = .taken then
      some { s with
        handling := update s.handling o
          (if o ∈ s.expandSource then .expanding else .plain) }
    else none
  | .expansion o =>
    if s.handling o = .expanding then
      some { s with
        expandSource := s.expandSource.filter (· ≠ o)
        handling := update s.handling o .copying }
    else none
  | .copy o i => if s.handling o = .copying then s.copy m o i else none
  | .finish o =>
    if s.handling o = .idle ∨ s.handling o = .taken then none
    else some { s with handling := update s.handling o .idle }
  | .writeOut sector =>
    -- a new stripe is written when it is full and the old stripe in its place has been read
    if sector ∈ s.expanding ∧ sector ∉ s.held ∧ sector ∉ s.expandSource ∧
        ∀ b ∈ m.stripeBlocks sector false, b ∈ s.copied ∨ m.raid5Size ≤ b then
      some { s with expanding := s.expanding.filter (· ≠ sector) }
    else none

/-! ## What a step can do -/

/-- Where a request can go from where it is. -/
inductive Moves (s : Traffic) (q : Request) : RequestStage → Prop
  | got (hstage : q.stage = .located) : Moves s q .got
  | passed (hstage : q.stage = .got)
      (hahead : q.previous = true → m.stripeAheadOfReshape s.reshape q.newSector = false) :
      Moves s q .passed
  | ready (hstage : q.stage = .passed) : Moves s q .ready
  | attached (hstage : q.stage = .ready) : Moves s q .attached
  | over : Moves s q .over

inductive Change (arraySectors : Nat) (s : Traffic) : Event → Traffic → Prop
  | reshape {e : Mddev.Event} {r : Mddev.State} (hs : m.Change s.reshape e r)
      (hprog : r.reshapeProgress = s.reshape.reshapeProgress)
      (hstripes : r.reshapeStripes = s.reshape.reshapeStripes) :
      Change arraySectors s (.reshape e) { s with reshape := r }
  | schedule {addr : Nat} (hstage : s.reshape.stage = .schedule addr) (due : Bool)
      (hmark : s.toMark = []) :
      Change arraySectors s (.reshape (.schedule due))
        { s with reshape := m.schedule s.reshape addr due, toMark := m.sources addr }
  | stripeDone {sector : Nat} (hmem : sector ∈ s.reshape.reshapeStripes) :
      Change arraySectors s (.reshape (.stripeDone sector))
        { s with
          reshape := { s.reshape with reshapeStripes := s.reshape.reshapeStripes.erase sector }
          written := sector :: s.written }
  | newStripes {e : Event} (expanding held : List Nat) :
      Change arraySectors s e { s with expanding := expanding, held := held }
  | mark {o : Nat} {rest : List Nat} (hmark : s.toMark = o :: rest) :
      Change arraySectors s .mark
        { s with toMark := rest, expandSource := o :: s.expandSource, handle := o :: s.handle }
  | locate {q : Request} (hstage : q.stage = .located) (hdvd : stripeSectors ∣ q.logicalSector)
      (hlt : q.logicalSector < q.lastSector) (hlast : q.lastSector ≤ arraySectors) {t : Target}
      (ht : raid5ComputeSector m.conf q.logicalSector q.previous = some t)
        (hsector : q.newSector = t.newSector)
      (hloc : q.previous = false → m.aheadOfReshape q.logicalSector s.reshape.reshapeSafe = false)
      {e : Event} :
      Change arraySectors s e { s with requests := s.requests ++ [q] }
  | move {i : Nat} {q : Request} (hq : s.requests[i]? = some q) {stage : RequestStage}
      (hmove : Moves m s q stage) (handle : List Nat) {e : Event}
      (hget : stage = .got → e = .getStripe i) :
      Change arraySectors s e { s.moveTo i q stage with handle := handle }
  | handle {e : Event} (handle : List Nat) {expandSource : List Nat} {handling : Nat → Handling}
      (hsub : ∀ o ∈ expandSource, o ∈ s.expandSource)
      (htaken : ∀ o, handling o = .taken → s.handling o = .taken ∨ s.unreferenced o = true)
      (hexp : ∀ o, (handling o).Expands →
        (s.handling o).Expands ∨ (s.handling o = .taken ∧ o ∈ s.expandSource)) :
      Change arraySectors s e
        { s with handle := handle, expandSource := expandSource, handling := handling }
  | copy {o i b : Nat} (hstage : s.handling o = .copying) (hb : b ∈ m.stripeBlocks o true) :
      Change arraySectors s (.copy o i) { s with copied := b :: s.copied }
  | same {e : Event} : Change arraySectors s e s

variable {m} {arraySectors : Nat} {s s' : Traffic}

theorem reshapeStep_change {e : Mddev.Event} (hs : s.reshapeStep m e = some s') :
    Change m arraySectors s (.reshape e) s' := by
  have hother : ∀ {e : Mddev.Event} {r : Mddev.State}, m.step s.reshape e = some r →
      (∀ due, e ≠ .schedule due) → (∀ sector, e ≠ .stripeDone sector) →
      Change m arraySectors s (.reshape e) { s with reshape := r } := by
    intro e r hr hsched hdone
    have hc := Mddev.step_change hr
    refine .reshape hc ?_ ?_ <;> cases hc <;>
      first | rfl | exact absurd rfl (hsched _) | exact absurd rfl (hdone _)
  unfold reshapeStep at hs
  split at hs
  · split at hs
    · next addr hstage =>
        obtain ⟨⟨hmark, -⟩, hs⟩ := ite_none_right_eq_some.mp hs
        obtain ⟨r, hr, rfl⟩ := map_eq_some_iff.mp hs
        simp only [Mddev.step, hstage, some.injEq] at hr
        subst hr
        exact .schedule hstage _ hmark
    · cases hs
  · obtain ⟨-, hs⟩ := ite_none_left_eq_some.mp hs
    obtain ⟨r, hr, rfl⟩ := map_eq_some_iff.mp hs
    obtain ⟨hmem, rfl⟩ := of_guard hr
    exact .stripeDone hmem
  · obtain ⟨r, hr, rfl⟩ := map_eq_some_iff.mp hs
    exact hother hr (by simp) (by simp)
  · obtain ⟨r, hr, rfl⟩ := map_eq_some_iff.mp hs
    exact hother hr (by simp) (by simp)
  · next hsched hdone _ _ =>
      obtain ⟨-, hs⟩ := ite_none_right_eq_some.mp hs
      obtain ⟨r, hr, rfl⟩ := map_eq_some_iff.mp hs
      exact hother hr hsched hdone

theorem locate_change {first last r : Nat} (hdvd : stripeSectors ∣ r) (hlt : r < last)
    (hlast : last ≤ arraySectors) (hs : s.locate m first last r = some s') {e : Event} :
    Change m arraySectors s e s' := by
  unfold locate Mddev.getReshapeLoc at hs
  split_ifs at hs with hahead hinside
  · obtain ⟨t, ht, rfl⟩ := map_eq_some_iff.mp hs
    refine .locate rfl hdvd hlt hlast ht rfl fun hnew => ?_
    cases hnew
  · exact some.inj hs ▸ .same
  · obtain ⟨t, ht, rfl⟩ := map_eq_some_iff.mp hs
    exact .locate rfl hdvd hlt hlast ht rfl fun _ => Bool.eq_false_iff.mpr hinside

theorem mem_stripeBlocks {b sector : Nat} {previous : Bool} :
    b ∈ m.stripeBlocks sector previous ↔ ∃ sh, initStripe m.conf sector previous = some sh ∧
      ∃ i ∈ sh.dataDevs, raid5ComputeBlocknr m.conf sh i previous = b := by
  unfold Mddev.stripeBlocks
  cases hinit : initStripe m.conf sector previous with
  | none => simp
  | some sh => simp [StripeHead.mem_dataDevs]

theorem copy_change {o i : Nat} (hstage : s.handling o = .copying) (hs : s.copy m o i = some s') :
    Change m arraySectors s (.copy o i) s' := by
  obtain ⟨sh, hinit, hs⟩ := bind_eq_some_iff.mp hs
  obtain ⟨hi, hs⟩ := ite_none_right_eq_some.mp hs
  obtain ⟨t, -, rfl⟩ := map_eq_some_iff.mp hs
  split_ifs
  · exact .copy hstage (mem_stripeBlocks.mpr ⟨sh, hinit, i, StripeHead.mem_dataDevs.mpr hi, rfl⟩)
  · exact .same

/-- Only the stripe at `o` is handled otherwise than before. -/
theorem handling_change {o : Nat} {stage : Handling} {handle expandSource : List Nat}
    (hsub : ∀ o ∈ expandSource, o ∈ s.expandSource)
    (htaken : stage = .taken → s.unreferenced o = true)
    (hexp : stage.Expands →
      (s.handling o).Expands ∨ (s.handling o = .taken ∧ o ∈ s.expandSource)) {e : Event} :
    Change m arraySectors s e { s with
        handle := handle, expandSource := expandSource,
        handling := update s.handling o stage } := by
  refine .handle handle hsub (fun o' h => ?_) fun o' h => ?_
  all_goals
    by_cases heq : o' = o
    · subst heq
      rw [update_self] at h
      first | exact .inr (htaken h) | exact hexp h
    · rw [update_of_ne heq] at h
      exact .inl h

theorem step_change {e : Event} (hs : s.step m arraySectors e = some s') :
    Change m arraySectors s e s' := by
  cases e with
  | reshape e => exact reshapeStep_change hs
  | setExpanding sector =>
    simp only [step] at hs
    split at hs
    · obtain ⟨-, rfl⟩ := of_guard hs
      exact .newStripes _ _
    · cases hs
  | mark =>
    simp only [step] at hs
    split at hs
    · cases hs
    · next o rest hmark =>
        cases hs
        exact .mark hmark
  | releaseNew sector =>
    simp only [step] at hs
    split at hs
    · cases hs
    · obtain ⟨-, rfl⟩ := of_guard hs
      exact .newStripes _ _
  | locate first last r =>
    obtain ⟨⟨hdvd, -, hlt, hlast⟩, hs⟩ := ite_none_right_eq_some.mp hs
    exact locate_change hdvd hlt hlast hs
  | getStripe i =>
    obtain ⟨q, hq, hs⟩ := bind_eq_some_iff.mp hs
    obtain ⟨hstage, rfl⟩ := of_guard hs
    exact .move hq (.got hstage) _ fun _ => rfl
  | checkAhead i =>
    obtain ⟨q, hq, hs⟩ := bind_eq_some_iff.mp hs
    obtain ⟨hstage, hs⟩ := ite_none_right_eq_some.mp hs
    split_ifs at hs with hahead
    · exact some.inj hs ▸ .move hq .over _ (by simp)
    · refine some.inj hs ▸ .move hq (.passed hstage fun hprev => ?_) _ (by simp)
      exact Bool.eq_false_iff.mpr fun h => hahead ⟨hprev, h⟩
  | checkExpanding i =>
    obtain ⟨q, hq, hs⟩ := bind_eq_some_iff.mp hs
    obtain ⟨hstage, hs⟩ := ite_none_right_eq_some.mp hs
    split_ifs at hs with hexp
    · exact some.inj hs ▸ .move hq .over _ (by simp)
    · exact some.inj hs ▸ .move hq (.ready hstage) _ (by simp)
  | attach i =>
    obtain ⟨q, hq, hs⟩ := bind_eq_some_iff.mp hs
    obtain ⟨hstage, rfl⟩ := of_guard hs
    exact .move hq (.attached hstage) _ (by simp)
  | release i =>
    obtain ⟨q, hq, hs⟩ := bind_eq_some_iff.mp hs
    obtain ⟨-, rfl⟩ := of_guard hs
    exact .move hq .over _ (by simp)
  | endIo o =>
    cases hs
    exact .handle _ (fun _ => id) (fun _ => .inl) fun _ => .inl
  | take o =>
    obtain ⟨⟨-, hfree⟩, rfl⟩ := of_guard hs
    refine handling_change (fun _ => id) (fun _ => hfree) fun h => ?_
    exact h.elim (by simp) (by simp)
  | analyse o =>
    obtain ⟨hstage, rfl⟩ := of_guard hs
    refine handling_change (fun _ => id) (fun h => ?_) fun h => ?_
    · split_ifs at h
    by_cases ho : o ∈ s.expandSource
    · exact .inr ⟨hstage, ho⟩
    · rw [if_neg ho] at h
      exact h.elim (by simp) (by simp)
  | expansion o =>
    obtain ⟨hstage, rfl⟩ := of_guard hs
    exact handling_change (fun _ => List.mem_of_mem_filter) (by simp) fun _ => .inl (.inl hstage)
  | copy o i =>
    obtain ⟨hstage, hs⟩ := ite_none_right_eq_some.mp hs
    exact copy_change hstage hs
  | finish o =>
    obtain ⟨-, rfl⟩ := guard_eq_some.mp hs
    refine handling_change (fun _ => id) (by simp) fun h => ?_
    exact h.elim (by simp) (by simp)
  | writeOut sector =>
    obtain ⟨-, rfl⟩ := of_guard hs
    exact .newStripes _ _

end Traffic

end MdRaid.Reshape
