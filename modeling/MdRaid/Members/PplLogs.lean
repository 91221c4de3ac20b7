import MdRaid.Ppl.Log

/-!
# Members of an array and their partial parity logs

A slot of the array holds a member and, while that is being replaced, a replacement. With
a partial parity log there is one log for each slot, kept on the member. `raid5_add_disk`
and `raid5_remove_disk` attach and detach it by the number of the slot, after they have
changed the slot.

An array with such a log is not reshaped, and has no journal device. What the rest of the
driver does to the flags of a device between the calls is left free.
-/

namespace MdRaid.Members

open Function List Prod Option
open Ppl (Errno pplValidateRdev)

/-! ## Devices and slots -/

structure Rdev where
  raidDisk : Int
  savedRaidDisk : Int
  faulty : Bool
  inSync : Bool
  wantReplacement : Bool
  replacement : Bool
  recoveryOffset : Nat
  ppl : Ppl.Rdev

/-- `struct disk_info`; devices are known by a number. -/
structure DiskInfo where
  rdev : Option Nat
  replacement : Option Nat
deriving DecidableEq, Repr

structure R5Slots where
  rdevs : Nat → Rdev
  disks : Nat → DiskInfo
  /-- `log->rdev` of the log of each slot -/
  childLogs : Nat → Option Nat
  raidDisks : Nat
  maxDegraded : Nat
  degraded : Nat
  broken : Bool
  /-- `mddev->recovery_disabled == conf->recovery_disabled` -/
  recoveryDisabled : Bool
  fullsync : Bool

section

variable (s : R5Slots)

namespace R5Slots

def setRdev (r : Nat) (rdev : Rdev) : R5Slots :=
  { s with rdevs := update s.rdevs r rdev }

def setDisk (i : Nat) (p : DiskInfo) : R5Slots :=
  { s with disks := update s.disks i p }

def setLog (i : Nat) (log : Option Nat) : R5Slots :=
  { s with childLogs := update s.childLogs i log }

/-- The device that counts for a slot: the replacement of a faulty member. -/
def working (i : Nat) : Option Nat :=
  match (s.disks i).rdev with
  | none => none
  | some r => if (s.rdevs r).faulty then (s.disks i).replacement else some r

def raid5CalcDegraded : Nat :=
  (range s.raidDisks).countP fun i =>
    match s.working i with
    | none => true
    | some r => (s.rdevs r).faulty || !(s.rdevs r).inSync

def hasFailed : Bool := s.broken || decide (s.degraded > s.maxDegraded)

end R5Slots

/-! ## The log of a slot -/

/-- What a call returns, with what it leaves. -/
abbrev Result := Option Errno × R5Slots

/-- `header` is what `ppl_write_empty_header` returns. -/
def pplModifyLog (r : Nat) (add : Bool) (header : Option Errno) : Result :=
  let rdev := s.rdevs r
  if rdev.raidDisk < 0 then (none, s)
  else if rdev.raidDisk ≥ s.raidDisks then (some .enodev, s)
  else if add then
    match h : pplValidateRdev rdev.ppl with
    | .error err => (some err, s)
    | .ok _ =>
      (header,
        (s.setRdev r { rdev with ppl := rdev.ppl.resized h }).setLog rdev.raidDisk.toNat (some r))
  else (none, s.setLog rdev.raidDisk.toNat none)

/-! ## Calls -/

/-- The first slot to be tried, and the one after the last. -/
def addRange (rdev : Rdev) : Nat × Nat :=
  let first := if rdev.raidDisk ≥ 0 then rdev.raidDisk.toNat else 0
  let stop := if rdev.raidDisk ≥ 0 then rdev.raidDisk.toNat + 1 else s.raidDisks
  if rdev.savedRaidDisk ≥ first ∧ rdev.savedRaidDisk < stop ∧
      (s.disks rdev.savedRaidDisk.toNat).rdev = none then
    (rdev.savedRaidDisk.toNat, stop)
  else (first, stop)

def addSlots (rdev : Rdev) : List Nat :=
  (range (addRange s rdev).2).filter fun i => decide ((addRange s rdev).1 ≤ i)

/-- The slot a device gets the log of. -/
def emptySlot (rdev : Rdev) : Option Nat :=
  (addSlots s rdev).find? fun i => (s.disks i).rdev.isNone

/-- The slot is for a replacement. -/
def wantsReplacement (i : Nat) : Bool :=
  match (s.disks i).rdev with
  | none => false
  | some tmp => (s.rdevs tmp).wantReplacement && (s.disks i).replacement.isNone

/-- The device takes the empty slot `disk`. -/
def takeSlot (r disk : Nat) : R5Slots :=
  let rdev := s.rdevs r
  { s with
    rdevs := update s.rdevs r { rdev with inSync := false, raidDisk := disk }
    fullsync := s.fullsync || decide (rdev.savedRaidDisk ≠ disk)
    disks := update s.disks disk { s.disks disk with rdev := some r } }

/-- The device becomes the replacement in slot `disk`. -/
def takeReplacement (r disk : Nat) : R5Slots :=
  { s with
    rdevs := update s.rdevs r
      { s.rdevs r with inSync := false, replacement := true, raidDisk := disk }
    fullsync := true
    disks := update s.disks disk { s.disks disk with replacement := some r } }

/-- The checks before a slot is looked for. -/
def addRefused (rdev : Rdev) : Option Errno :=
  if s.recoveryDisabled then some .ebusy
  else if rdev.savedRaidDisk < 0 ∧ s.hasFailed = true then some .einval
  else none

def raid5AddDisk (r : Nat) (header : Option Errno) : Result :=
  match addRefused s (s.rdevs r) with
  | some err => (some err, s)
  | none =>
    match emptySlot s (s.rdevs r) with
    | some disk => pplModifyLog (takeSlot s r disk) r true header
    | none =>
      match (addSlots s (s.rdevs r)).find? (wantsReplacement s) with
      | some disk => (none, takeReplacement s r disk)
      | none => (some .eexist, s)

/-- The replacement in slot `number` becomes the member. -/
def promote (tmp number : Nat) : R5Slots :=
  { s with
    rdevs := update s.rdevs tmp { s.rdevs tmp with replacement := false }
    disks := update s.disks number ⟨some tmp, none⟩ }

def clearWantReplacement (r : Nat) : R5Slots :=
  s.setRdev r { s.rdevs r with wantReplacement := false }

/-- What follows when the slot of the device has been cleared. -/
def finishRemove (r number : Nat) (header : Option Errno) : Result :=
  match pplModifyLog s r false header with
  | (some err, s) => (some err, s)
  | (none, s) =>
    match (s.disks number).replacement with
    | none => (none, clearWantReplacement s r)
    | some tmp =>
      let (err, s) := pplModifyLog (promote s tmp number) tmp true header
      (err, clearWantReplacement s r)

/-- The device is in use (`pending`: requests to it are under way), or can still be recovered. -/
def removeBusy (r : Nat) (pending : Bool) : Bool :=
  let rdev := s.rdevs r
  let p := s.disks rdev.raidDisk.toNat
  rdev.inSync || pending ||
    decide (rdev.faulty = false ∧ s.recoveryDisabled = false ∧ s.hasFailed = false ∧
      (p.replacement = none ∨ p.replacement = some r) ∧ rdev.raidDisk.toNat < s.raidDisks)

def raid5RemoveDisk (r : Nat) (pending : Bool) (header : Option Errno) : Result :=
  let number := (s.rdevs r).raidDisk.toNat
  let p := s.disks number
  if p.rdev ≠ some r ∧ p.replacement ≠ some r then (none, s)
  else if removeBusy s r pending then (some .ebusy, s)
  else
    let cleared : DiskInfo := if p.rdev = some r then ⟨none, p.replacement⟩ else ⟨p.rdev, none⟩
    finishRemove (s.setDisk number cleared) r number header

/-- One slot of `raid5_spare_active`. -/
def spareActiveSlot (i : Nat) : R5Slots :=
  let ready (r : Nat) : Bool := decide ((s.rdevs r).recoveryOffset = maxSector) &&
    !(s.rdevs r).faulty && !(s.rdevs r).inSync
  let activate (s : R5Slots) (r : Nat) : R5Slots := s.setRdev r { s.rdevs r with inSync := true }
  let retire (s : R5Slots) (r : Nat) : R5Slots :=
    s.setRdev r { s.rdevs r with inSync := false, faulty := true }
  let member := match (s.disks i).rdev with
    | none => s
    | some r => if ready r then activate s r else s
  match (s.disks i).replacement with
  | none => member
  | some t =>
    if ready t then
      match (s.disks i).rdev with
      | none => activate s t
      | some r => retire (activate s t) r
    else member

def raid5SpareActive : R5Slots :=
  let s := (range s.raidDisks).foldl spareActiveSlot s
  { s with degraded := s.raid5CalcDegraded }

/-! ## Histories -/

/-- The calls, and what others do to the flags of a device and the state of the array. -/
inductive Event where
  | addDisk (r : Nat) (raidDisk : Int) (header : Option Errno)
  | removeDisk (r : Nat) (pending : Bool) (header : Option Errno)
  | spareActive
  | others (r : Nat) (faulty inSync wantReplacement : Bool) (recoveryOffset : Nat) (degraded : Nat)
      (broken recoveryDisabled : Bool)
deriving DecidableEq, Repr

/-- The device is in some slot. -/
def R5Slots.hasMember (r : Nat) : Bool :=
  (range s.raidDisks).any fun i =>
    decide ((s.disks i).rdev = some r ∨ (s.disks i).replacement = some r)

/-- A device is added if it is in no slot, for a slot or for any; after it is removed its number is
kept as the saved one. -/
def step : Event → Option Result
  | .addDisk r raidDisk header =>
    if s.hasMember r = false ∧ raidDisk < s.raidDisks then
      some (raid5AddDisk (s.setRdev r { s.rdevs r with raidDisk := raidDisk }) r header)
    else none
  | .removeDisk r pending header =>
    if 0 ≤ (s.rdevs r).raidDisk then
      match raid5RemoveDisk s r pending header with
      | (none, s') =>
        some (none, s'.setRdev r { s'.rdevs r with
          savedRaidDisk := (s'.rdevs r).raidDisk, raidDisk := -1 })
      | (some err, s') => some (some err, s')
    else none
  | .spareActive => some (none, raid5SpareActive s)
  | .others r faulty inSync wantReplacement recoveryOffset degraded broken recoveryDisabled =>
    some (none,
      { s.setRdev r { s.rdevs r with faulty, inSync, wantReplacement, recoveryOffset } with
        degraded, broken, recoveryDisabled })

def next (e : Event) : Option R5Slots := (step s e).map snd

end

/-! ## The log follows the slot -/

variable {s s' : R5Slots} {r : Nat}

/-- The devices of a slot know its number, and are two; there are no slots beyond the disks. -/
structure Placed (s : R5Slots) : Prop where
  slot : ∀ i r, (s.disks i).rdev = some r ∨ (s.disks i).replacement = some r →
    (s.rdevs r).raidDisk = i
  ne : ∀ i r, (s.disks i).rdev = some r → (s.disks i).replacement ≠ some r
  beyond : ∀ i, s.raidDisks ≤ i → s.disks i = ⟨none, none⟩

def Bound (s : R5Slots) : Prop := ∀ i < s.raidDisks, s.childLogs i = (s.disks i).rdev

structure Inv (s : R5Slots) : Prop where
  placed : Placed s
  bound : Bound s

/-- The device is in no slot. -/
def Free (s : R5Slots) (r : Nat) : Prop :=
  ∀ i, (s.disks i).rdev ≠ some r ∧ (s.disks i).replacement ≠ some r

theorem Placed.free (h : Placed s) (hr : s.hasMember r = false) : Free s r := by
  intro i
  rcases Nat.lt_or_ge i s.raidDisks with hi | hi
  · have hall := any_eq_false.mp hr i (mem_range.mpr hi)
    rw [decide_eq_true_eq, not_or] at hall
    exact hall
  · rw [h.beyond i hi]
    exact ⟨by simp, by simp⟩

/-- Slots and logs as they were, and the devices in the slots with their numbers. -/
structure Same (s s' : R5Slots) : Prop where
  disks : s'.disks = s.disks
  childLogs : s'.childLogs = s.childLogs
  raidDisks : s'.raidDisks = s.raidDisks
  number : ∀ r, ¬ Free s r → (s'.rdevs r).raidDisk = (s.rdevs r).raidDisk

theorem Same.refl (s : R5Slots) : Same s s := ⟨rfl, rfl, rfl, fun _ _ => rfl⟩

theorem Same.trans {t : R5Slots} (h : Same s s') (h' : Same s' t) : Same s t where
  disks := h'.disks.trans h.disks
  childLogs := h'.childLogs.trans h.childLogs
  raidDisks := h'.raidDisks.trans h.raidDisks
  number r hr := by
    have hr' : ¬ Free s' r := by
      unfold Free
      rw [h.disks]
      exact hr
    exact (h'.number r hr').trans (h.number r hr)

variable {header : Option Errno} {err : Option Errno} {i : Nat}

theorem not_free_of_slot (h : (s.disks i).rdev = some r ∨ (s.disks i).replacement = some r) :
    ¬ Free s r := fun hf => h.elim (hf i).1 (hf i).2

theorem Same.inv (h : Same s s') (hi : Inv s) : Inv s' := by
  refine ⟨⟨fun i r hr => ?_, ?_, ?_⟩, ?_⟩
  · rw [h.disks] at hr
    exact (h.number r (not_free_of_slot hr)).trans (hi.placed.slot i r hr)
  · rw [h.disks]
    exact hi.placed.ne
  · rw [h.disks, h.raidDisks]
    exact hi.placed.beyond
  · intro i hlt
    rw [h.raidDisks] at hlt
    rw [h.childLogs, h.disks]
    exact hi.bound i hlt

/-- Flags of a device do not matter, and for one in no slot the number does not. -/
theorem same_setRdev {rdev : Rdev} (h : rdev.raidDisk = (s.rdevs r).raidDisk ∨ Free s r) :
    Same s (s.setRdev r rdev) := by
  refine ⟨rfl, rfl, rfl, fun r' hr' => ?_⟩
  by_cases heq : r' = r
  · subst heq
    exact (congrArg Rdev.raidDisk (update_self ..)).trans (h.resolve_right hr')
  · exact congrArg Rdev.raidDisk (update_of_ne heq ..)

theorem same_setFlags {rdev : Rdev} (h : rdev.raidDisk = (s.rdevs r).raidDisk) :
    Same s (s.setRdev r rdev) := same_setRdev (.inl h)

/-! ## `raid5_spare_active` -/

theorem same_spareActiveSlot (s : R5Slots) (i : Nat) : Same s (spareActiveSlot s i) := by
  have hset : ∀ (s : R5Slots) r, Same s (s.setRdev r { s.rdevs r with inSync := true }) :=
    fun s r => same_setFlags rfl
  unfold spareActiveSlot
  dsimp only
  have hmember : Same s (match (s.disks i).rdev with
      | none => s
      | some r =>
        if (decide ((s.rdevs r).recoveryOffset = maxSector) && !(s.rdevs r).faulty &&
          !(s.rdevs r).inSync) = true then s.setRdev r
            { s.rdevs r with inSync := true } else s) := by
    cases (s.disks i).rdev with
    | none => exact .refl s
    | some r =>
      dsimp only
      split_ifs
      · exact hset s r
      · exact .refl s
  cases (s.disks i).replacement with
  | none => exact hmember
  | some t =>
    dsimp only
    split_ifs
    · cases (s.disks i).rdev with
      | none => exact hset s t
      | some r => exact (hset s t).trans (same_setFlags rfl)
    · exact hmember

theorem same_raid5SpareActive (s : R5Slots) : Same s (raid5SpareActive s) := by
  have hfold : Same s ((range s.raidDisks).foldl spareActiveSlot s) :=
    foldlRecOn (motive := Same s) _ _ (.refl s) fun t ht i _ => ht.trans (same_spareActiveSlot t i)
  exact ⟨hfold.disks, hfold.childLogs, hfold.raidDisks, hfold.number⟩

/-! ## Attaching and detaching -/

/-- The log can be attached to the device. -/
def Attachable (rdev : Rdev) (header : Option Errno) : Prop :=
  header = none ∧ (pplValidateRdev rdev.ppl).toBool = true

instance (rdev : Rdev) (header : Option Errno) : Decidable (Attachable rdev header) :=
  inferInstanceAs (Decidable (_ ∧ _))

section

variable (hi : i < s.raidDisks) (hnumber : (s.rdevs r).raidDisk = i)
include hi hnumber

theorem pplModifyLog_add (h : Attachable (s.rdevs r) header) :
    ∃ s', pplModifyLog s r true header = (none, s') ∧ s'.disks = s.disks ∧
      s'.childLogs = update s.childLogs i (some r) ∧ s'.raidDisks = s.raidDisks ∧
      ∀ r, (s'.rdevs r).raidDisk = (s.rdevs r).raidDisk := by
  obtain ⟨rfl, hvalid⟩ := h
  unfold pplModifyLog
  dsimp only
  rw [hnumber, if_neg (by omega), if_neg (by omega), if_pos rfl]
  split
  next err hv =>
    rw [hv] at hvalid
    cases hvalid
  next =>
    refine ⟨_, rfl, rfl, rfl, rfl, fun r' => ?_⟩
    by_cases heq : r' = r
    · subst heq
      exact (congrArg Rdev.raidDisk (update_self ..)).trans hnumber.symm
    · exact congrArg Rdev.raidDisk (update_of_ne heq ..)

theorem pplModifyLog_remove : pplModifyLog s r false header = (none, s.setLog i none) := by
  unfold pplModifyLog
  dsimp only
  rw [hnumber, if_neg (by omega), if_neg (by omega), if_neg (by simp), Int.toNat_natCast]

end

/-- A slot gets new devices, with the log of the member. -/
theorem Inv.setSlot (h : Inv s) (hi : i < s.raidDisks) {p : DiskInfo}
    (hdisks : s'.disks = update s.disks i p)
    (hlogs : s'.childLogs = update s.childLogs i p.rdev) (hcount : s'.raidDisks = s.raidDisks)
    (hslot : ∀ r, p.rdev = some r ∨ p.replacement = some r → (s'.rdevs r).raidDisk = i)
    (hne : ∀ r, p.rdev = some r → p.replacement ≠ some r)
    (hothers : ∀ j ≠ i, ∀ r, (s.disks j).rdev = some r ∨ (s.disks j).replacement = some r →
      (s'.rdevs r).raidDisk = (s.rdevs r).raidDisk) : Inv s' := by
  have hself : s'.disks i = p := by rw [hdisks, update_self]
  have hrest : ∀ j ≠ i, s'.disks j = s.disks j := fun j hj => by rw [hdisks, update_of_ne hj]
  refine ⟨⟨fun j r hr => ?_, fun j r hr => ?_, fun j hj => ?_⟩, fun j hj => ?_⟩
  · by_cases heq : j = i
    · subst heq
      rw [hself] at hr
      exact hslot r hr
    · rw [hrest j heq] at hr
      exact (hothers j heq r hr).trans (h.placed.slot j r hr)
  · by_cases heq : j = i
    · subst heq
      rw [hself] at hr ⊢
      exact hne r hr
    · rw [hrest j heq] at hr ⊢
      exact h.placed.ne j r hr
  · rw [hcount] at hj
    rw [hrest j (by omega)]
    exact h.placed.beyond j hj
  · rw [hcount] at hj
    by_cases heq : j = i
    · subst heq
      rw [hlogs, hself, update_self]
    · rw [hlogs, hrest j heq, update_of_ne heq]
      exact h.bound j hj

/-! ## `raid5_add_disk` -/

theorem addRange_le (s : R5Slots) {rdev : Rdev} (h : rdev.raidDisk < s.raidDisks) :
    (addRange s rdev).2 ≤ s.raidDisks := by
  unfold addRange
  dsimp only
  split_ifs <;> dsimp only <;> omega

/-- **Adding a device.** If the log can be attached, a device that is in no slot gets a slot with
the
log, or becomes a replacement, or nothing changes. -/
theorem raid5AddDisk_inv (h : Inv s) (hfree : Free s r)
    (hnumber : (s.rdevs r).raidDisk < s.raidDisks)
    (hattach : addRefused s (s.rdevs r) = none → (emptySlot s (s.rdevs r)).isSome →
      Attachable (s.rdevs r) header)
    (hadd : raid5AddDisk s r header = (err, s')) : Inv s' ∧ (err ≠ none → s' = s) := by
  have hne : ∀ j r', (s.disks j).rdev = some r' ∨ (s.disks j).replacement = some r' → r' ≠ r := by
    rintro j r' hr' rfl
    exact not_free_of_slot hr' hfree
  have hlt : ∀ i ∈ addSlots s (s.rdevs r), i < s.raidDisks := fun i hi =>
    (mem_range.mp (mem_of_mem_filter hi)).trans_le (addRange_le s hnumber)
  unfold raid5AddDisk at hadd
  split at hadd
  · obtain ⟨rfl, rfl⟩ := mk.inj hadd
    exact ⟨h, fun _ => rfl⟩
  · next hrefused =>
    split at hadd
    · next disk hfind =>
        have hdisk := hlt disk (mem_of_find?_eq_some hfind)
        have hself : (takeSlot s r disk).rdevs r =
            { s.rdevs r with inSync := false, raidDisk := disk } := update_self ..
        obtain ⟨t, hlog, hd, hl, hc, hn⟩ := pplModifyLog_add (s := takeSlot s r disk) (r := r)
          (i := disk) hdisk (by rw [hself])
          (by rw [hself]; exact hattach hrefused (by rw [hfind]; rfl))
        obtain ⟨rfl, rfl⟩ := mk.inj (hlog.symm.trans hadd)
        refine ⟨h.setSlot hdisk hd hl hc (fun r' hr' => ?_) (fun r' hr' => ?_) fun j _ r' hr' => ?_,
          fun hnone => absurd rfl hnone⟩
        · rw [hn]
          rcases hr' with hr' | hr'
          · obtain rfl := some.inj hr'
            rw [hself]
          · show (update s.rdevs r _ r').raidDisk = disk
            rw [update_of_ne (hne disk r' (.inr hr'))]
            exact h.placed.slot disk r' (.inr hr')
        · obtain rfl := some.inj hr'
          exact (hfree disk).2
        · rw [hn]
          exact congrArg Rdev.raidDisk (update_of_ne (hne j r' hr') ..)
    · split at hadd
      · next disk hfind =>
          obtain ⟨rfl, rfl⟩ := mk.inj hadd
          have hdisk := hlt disk (mem_of_find?_eq_some hfind)
          refine ⟨h.setSlot hdisk rfl ?_ rfl (fun r' hr' => ?_) (fun r' hr' => ?_)
            fun j _ r' hr' => ?_,
            fun hnone => absurd rfl hnone⟩
          · rw [← h.bound disk hdisk, update_eq_self]
            rfl
          · show (update s.rdevs r _ r').raidDisk = disk
            rcases hr' with hr' | hr'
            · rw [update_of_ne (hne disk r' (.inl hr'))]
              exact h.placed.slot disk r' (.inl hr')
            · obtain rfl := some.inj hr'
              rw [update_self]
          · rintro hrep
            exact hne disk r' (.inl hr') (some.inj hrep).symm
          · exact congrArg Rdev.raidDisk (update_of_ne (hne j r' hr') ..)
      · obtain ⟨rfl, rfl⟩ := mk.inj hadd
        exact ⟨h, fun _ => rfl⟩

/-! ## `raid5_remove_disk` -/

/-- Only this slot has the device. -/
theorem Placed.only (h : Placed s) (hr : (s.disks i).rdev = some r) {j : Nat} (hj : j ≠ i) :
    (s.disks j).rdev ≠ some r ∧ (s.disks j).replacement ≠ some r := by
  have hnumber := h.slot i r (.inl hr)
  refine ⟨fun hjr => hj ?_, fun hjr => hj ?_⟩
  · exact_mod_cast (h.slot j r (.inl hjr)).symm.trans hnumber
  · exact_mod_cast (h.slot j r (.inr hjr)).symm.trans hnumber

theorem free_of_slot (h : Placed s) (hr : (s.disks i).rdev = some r) {p : DiskInfo}
    (hdisks : s'.disks = update s.disks i p) (hrdev : p.rdev ≠ some r)
    (hrep : p.replacement ≠ some r) : Free s' r := by
  intro j
  rw [hdisks]
  by_cases hj : j = i
  · rw [hj, update_self]
    exact ⟨hrdev, hrep⟩
  · rw [update_of_ne hj]
    exact h.only hr hj

theorem same_clearWantReplacement (s : R5Slots) (r : Nat) : Same s (clearWantReplacement s r) :=
  same_setFlags rfl

/-- **Removing a member.** The slot gets the replacement, with the log, or is left empty. -/
theorem finishRemove_inv (h : Inv s) (hi : i < s.raidDisks) (hr : (s.disks i).rdev = some r)
    (hattach : ∀ tmp ∈ (s.disks i).replacement, Attachable (s.rdevs tmp) header)
    (hrem : finishRemove (s.setDisk i ⟨none, (s.disks i).replacement⟩) r i header = (err, s')) :
    err = none ∧ Inv s' ∧ Free s' r := by
  have hnumber : (s.rdevs r).raidDisk = i := h.placed.slot i r (.inl hr)
  have hslot : ((s.setDisk i ⟨none, (s.disks i).replacement⟩).setLog i none).disks i =
      ⟨none, (s.disks i).replacement⟩ := update_self ..
  unfold finishRemove at hrem
  rw [pplModifyLog_remove (s := s.setDisk i ⟨none, (s.disks i).replacement⟩) hi hnumber] at hrem
  simp only [hslot] at hrem
  cases hrep : (s.disks i).replacement with
  | none =>
    rw [hrep] at hrem
    obtain ⟨rfl, rfl⟩ := mk.inj hrem
    have hinv : Inv ((s.setDisk i ⟨none, none⟩).setLog i none) :=
      h.setSlot hi rfl rfl rfl (by rintro r' (h | h) <;> cases h) (by simp) fun _ _ _ _ => rfl
    exact ⟨rfl, (same_clearWantReplacement _ _).inv hinv, free_of_slot h.placed hr rfl
      (by simp) (by simp)⟩
  | some tmp =>
    have hne : tmp ≠ r := by
      rintro rfl
      exact h.placed.ne i tmp hr hrep
    have htmp : (s.rdevs tmp).raidDisk = i := h.placed.slot i tmp (.inr hrep)
    rw [hrep] at hrem
    dsimp only at hrem
    generalize ht : promote ((s.setDisk i ⟨none, some tmp⟩).setLog i none) tmp i = t at hrem
    have hself : t.rdevs tmp = { s.rdevs tmp with replacement := false } := by
      rw [← ht]
      exact update_self ..
    have hraid : ∀ r', (t.rdevs r').raidDisk = (s.rdevs r').raidDisk := by
      intro r'
      by_cases heq : r' = tmp
      · rw [heq, hself]
      · rw [← ht]
        exact congrArg Rdev.raidDisk (update_of_ne heq ..)
    obtain ⟨u, hlog, hd, hl, hc, hn⟩ := pplModifyLog_add (s := t) (r := tmp) (i := i)
      (by rw [← ht]; exact hi) (by rw [hraid, htmp]) (by rw [hself]; exact hattach tmp hrep)
    rw [hlog] at hrem
    obtain ⟨rfl, rfl⟩ := mk.inj hrem
    have hdisks : u.disks = update s.disks i ⟨some tmp, none⟩ := by
      rw [hd, ← ht]
      exact update_idem ..
    have hinv : Inv u := by
      refine h.setSlot hi hdisks ?_ (by rw [hc, ← ht]; rfl) (fun r' hr' => ?_) (fun r' _ => by simp)
        fun j _ r' _ => (hn r').trans (hraid r')
      · rw [hl, ← ht]
        exact update_idem ..
      · obtain rfl := some.inj (hr'.resolve_right (by simp))
        rw [hn, hraid, htmp]
    refine ⟨rfl, (same_clearWantReplacement _ _).inv hinv, free_of_slot h.placed hr hdisks
      (fun h => hne ?_) (by simp)⟩
    exact some.inj h

theorem raid5RemoveDisk_inv (h : Inv s) {pending : Bool}
    (hmember : (s.disks (s.rdevs r).raidDisk.toNat).replacement ≠ some r)
    (hattach : removeBusy s r pending = false →
      ∀ tmp ∈ (s.disks (s.rdevs r).raidDisk.toNat).replacement, Attachable (s.rdevs tmp) header)
    (hrem : raid5RemoveDisk s r pending header = (err, s')) :
    Inv s' ∧ (err = none → Free s' r) ∧ (err ≠ none → s' = s) := by
  unfold raid5RemoveDisk at hrem
  dsimp only at hrem
  split_ifs at hrem with hnot hbusy hr
  · obtain ⟨rfl, rfl⟩ := mk.inj hrem
    refine ⟨h, fun _ j => ?_, fun hnone => absurd rfl hnone⟩
    -- if it were in a slot, its number would say so
    have hslot : ∀ hj : (s.disks j).rdev = some r ∨ (s.disks j).replacement = some r, False := by
      intro hj
      have hjn : (s.rdevs r).raidDisk.toNat = j := by
        rw [h.placed.slot j r hj, Int.toNat_natCast]
      rw [hjn] at hnot
      exact hj.elim hnot.1 hnot.2
    exact ⟨fun hj => hslot (.inl hj), fun hj => hslot (.inr hj)⟩
  · obtain ⟨rfl, rfl⟩ := mk.inj hrem
    exact ⟨h, by simp, fun _ => rfl⟩
  · have hlt : (s.rdevs r).raidDisk.toNat < s.raidDisks := by
      by_contra hge
      rw [h.placed.beyond _ (Nat.not_lt.mp hge)] at hr
      cases hr
    obtain ⟨rfl, hinv, hfree⟩ := finishRemove_inv h hlt hr
      (hattach (Bool.not_eq_true _ ▸ hbusy)) hrem
    exact ⟨hinv, fun _ => hfree, fun hnone => absurd rfl hnone⟩
  · exact absurd (not_and_or.mp hnot) (by simp [hr, hmember])

/-! ## Histories -/

/-- The log can be attached where the call attaches it, and no replacement is removed. -/
def Attaches (s : R5Slots) : Event → Prop
  | .addDisk r raidDisk header =>
    addRefused s { s.rdevs r with raidDisk } = none →
      (emptySlot s { s.rdevs r with raidDisk }).isSome → Attachable (s.rdevs r) header
  | .removeDisk r pending header =>
    (s.disks (s.rdevs r).raidDisk.toNat).replacement ≠ some r ∧ (removeBusy s r pending = false →
      ∀ tmp ∈ (s.disks (s.rdevs r).raidDisk.toNat).replacement, Attachable (s.rdevs tmp) header)
  | _ => True

instance (s : R5Slots) (e : Event) : Decidable (Attaches s e) := by
  unfold Attaches
  split <;> infer_instance

theorem step_inv (h : Inv s) {e : Event} (hcond : Attaches s e) (hs : step s e = some (err, s')) :
    Inv s' ∧ (err ≠ none → s'.disks = s.disks ∧ s'.childLogs = s.childLogs) := by
  cases e with
  | addDisk r raidDisk header =>
    obtain ⟨⟨hfree, hlt⟩, hs⟩ := ite_none_right_eq_some.mp hs
    have hsame : Same s (s.setRdev r { s.rdevs r with raidDisk := raidDisk }) :=
      same_setRdev (.inr (h.placed.free hfree))
    have hself : (s.setRdev r { s.rdevs r with raidDisk := raidDisk }).rdevs r =
        { s.rdevs r with raidDisk := raidDisk } := update_self ..
    obtain ⟨hinv, herr⟩ := raid5AddDisk_inv (hsame.inv h) (h.placed.free hfree)
      (by rw [hself]; exact hlt)
      (by rw [hself]; exact hcond) (some.inj hs)
    refine ⟨hinv, fun hne => ?_⟩
    rw [herr hne]
    exact ⟨rfl, rfl⟩
  | removeDisk r pending header =>
    obtain ⟨-, hs⟩ := ite_none_right_eq_some.mp hs
    cases hrem : raid5RemoveDisk s r pending header with
    | mk res t =>
      obtain ⟨hinv, hfree, herr⟩ := raid5RemoveDisk_inv h hcond.1 hcond.2 hrem
      rw [hrem] at hs
      cases res with
      | none =>
        obtain ⟨rfl, rfl⟩ := mk.inj (some.inj hs)
        exact ⟨(same_setRdev (.inr (hfree rfl))).inv hinv, fun hne => absurd rfl hne⟩
      | some e =>
        obtain ⟨rfl, rfl⟩ := mk.inj (some.inj hs)
        rw [herr (by simp)]
        exact ⟨h, fun _ => ⟨rfl, rfl⟩⟩
  | spareActive =>
    obtain ⟨rfl, rfl⟩ := mk.inj (some.inj hs)
    exact ⟨(same_raid5SpareActive s).inv h, fun hne => absurd rfl hne⟩
  | others r faulty inSync wantReplacement recoveryOffset degraded broken recoveryDisabled =>
    obtain ⟨rfl, rfl⟩ := mk.inj (some.inj hs)
    have hsame : Same s
        (s.setRdev r { s.rdevs r with faulty, inSync, wantReplacement, recoveryOffset }) :=
      same_setFlags rfl
    have hinv := hsame.inv h
    exact ⟨⟨⟨hinv.placed.slot, hinv.placed.ne, hinv.placed.beyond⟩, hinv.bound⟩, fun hne =>
      absurd rfl hne⟩

/-- **Each log is on the member of its slot.** In every history of an array whose logs start on
the members, in which logs are attached without an error and no replacement is removed, each slot
has the log of its member, and a call that fails leaves slots and logs as they were. -/
theorem child_logs_follow_members (s s' : R5Slots) (hstart : Inv s) (es : List Event)
    (halong : Runs.Along next Attaches s es) (hrun : Runs.run next s es = some s') :
    (∀ i < s'.raidDisks, s'.childLogs i = (s'.disks i).rdev) ∧
    ∀ e, Attaches s' e → ∀ err t, step s' e = some (some err, t) →
      t.disks = s'.disks ∧ t.childLogs = s'.childLogs := by
  have hinv : Inv s' := by
    refine Runs.run_preserves (fun s e s' h hcond hs => ?_) hstart halong hrun
    obtain ⟨⟨err, t⟩, ht, rfl⟩ := map_eq_some_iff.mp hs
    exact (step_inv h hcond ht).1
  exact ⟨hinv.bound, fun e hcond err t ht => (step_inv hinv hcond ht).2 (by simp)⟩

/-- Three members; the first wants to be replaced, and device 3 is spare. -/
def threeMembers : R5Slots where
  rdevs r :=
    { raidDisk := if r < 3 then r else -1, savedRaidDisk := -1, faulty := false, inSync := r < 3
      wantReplacement := r = 0, replacement := false, recoveryOffset := 0
      ppl := Ppl.plainRdev }
  disks i := if i < 3 then ⟨some i, none⟩ else ⟨none, none⟩
  childLogs i := if i < 3 then some i else none
  raidDisks := 3
  maxDegraded := 1
  degraded := 0
  broken := false
  recoveryDisabled := false
  fullsync := false

theorem threeMembers_inv : Inv threeMembers := by
  refine ⟨⟨fun i r h => ?_, fun i r h => ?_, fun i hi => if_neg (Nat.not_lt.mpr hi)⟩,
    fun i hi => ?_⟩
  · unfold threeMembers at h ⊢
    by_cases hi : i < 3
    · simp only [hi, if_true, some.injEq, reduceCtorEq, or_false] at h
      simp [← h, hi]
    · simp [hi] at h
  · unfold threeMembers
    by_cases hi : i < 3 <;> simp [hi]
  · have hi' : i < 3 := hi
    simp [threeMembers, hi']

theorem child_logs_follow_members_replace : ∃ s, Runs.run next threeMembers [.addDisk 3 (-1) none,
        .others 0 true false false 0 1 false false, .removeDisk 0 false none] = some s ∧
      s.disks 0 = ⟨some 3, none⟩ ∧ s.childLogs 0 = some 3 := by
  refine ⟨_, rfl, rfl, ?_⟩
  exact (child_logs_follow_members threeMembers _ threeMembers_inv
    [.addDisk 3 (-1) none, .others 0 true false false 0 1 false false, .removeDisk 0 false none]
    (by decide) rfl).1 0 (by decide)

/-- A replacement that fails and is removed takes the log of the member with it. And a spare whose
log header cannot be written is in the slot although the call returns an error. -/
theorem replacement_takes_log : (∃ s, Runs.run next threeMembers [.addDisk 3 (-1) none,
        .others 3 true false false 0 0 false false, .removeDisk 3 false none] = some s ∧
      s.disks 0 = ⟨some 0, none⟩ ∧ s.childLogs 0 = none) ∧
    ∃ s, Runs.run next threeMembers [.others 1 true false false 0 1 false false,
        .removeDisk 1 false none] = some s ∧ s.disks 1 = ⟨none, none⟩ ∧
      ∃ t, step s (.addDisk 3 (-1) (some .eio)) = some (some .eio, t) ∧
        t.disks 1 = ⟨some 3, none⟩ ∧ t.childLogs 1 = some 3 :=
  ⟨⟨_, rfl, rfl, rfl⟩, _, rfl, rfl, _, rfl, rfl, rfl⟩

end MdRaid.Members
