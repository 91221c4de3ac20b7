import MdRaid.Lib.Runs

/-!
# Deferred bios

`defer_issue_bios` queues the bios of a stripe on an entry of the pending list, and
`dispatch_defer_bios` takes entries off it in sector order, starting where it stopped the last
time. Both work under `pending_bios_lock`; what was taken off is submitted after the unlock, so
other calls can run in between.
-/

namespace MdRaid.Requests.Deferred

open Runs List

variable {B : Type*}

/-! ## The pending list -/

/-- An entry, with its address. -/
structure R5pendingData (B : Type*) where
  entry : Nat
  sector : Nat
  bios : List B

structure R5conf (B : Type*) where
  freeList : List Nat
  pendingList : List (R5pendingData B)
  pendingDataCnt : Int
  nextPendingData : Option Nat

def pendingIoMax : Nat := 512

def pendingIoOneFlush : Nat := 128

/-- `list_move_tail` of the list head: the list then begins at entry `e`. -/
def moveHead (e : Option Nat) (l : List (R5pendingData B)) : List (R5pendingData B) :=
  match e with
  | none => l
  | some e => l.dropWhile (·.entry ≠ e) ++ l.takeWhile (·.entry ≠ e)

/-- The local variables of `dispatch_defer_bios`. `none` is the list head. -/
structure Walk (B : Type*) where
  first : Option Nat
  next : Option Nat
  list : List B
  freeList : List Nat
  cnt : Int

/-- One entry taken off, with the entries behind it. -/
def Walk.take (w : Walk B) (data : R5pendingData B) (rest : List (R5pendingData B)) : Walk B :=
  let next := rest.head?.map R5pendingData.entry
  { first := if w.first = some data.entry then next else w.first
    next
    list := w.list ++ data.bios
    freeList := data.entry :: w.freeList
    cnt := w.cnt + 1 }

def dispatchLoop (target : Int) (w : Walk B) :
    List (R5pendingData B) → Walk B × List (R5pendingData B)
  | [] => (w, [])
  | data :: rest =>
    let w := w.take data rest
    if w.cnt ≥ target then (w, rest) else dispatchLoop target w rest

/-- `none` for a failed `BUG_ON`. `list_sort` is stable, as insertion is. -/
def dispatchDeferBios (conf : R5conf B) (target : Int) : Option (R5conf B × List B) :=
  if conf.pendingDataCnt = 0 then some (conf, [])
  else
    let sorted := conf.pendingList.insertionSort (·.sector ≤ ·.sector)
    let first := sorted.head?.map R5pendingData.entry
    let (w, rest) := dispatchLoop target ⟨first, none, [], conf.freeList, 0⟩
      (moveHead conf.nextPendingData sorted)
    if conf.pendingDataCnt - w.cnt < 0 ∨ w.cnt < target then none
    else some (⟨w.freeList, moveHead w.first rest, conf.pendingDataCnt - w.cnt, w.next⟩, w.list)

/-- Without the first check of the count, which is made outside the lock and again inside. -/
def flushDeferredBios (conf : R5conf B) : Option (R5conf B × List B) :=
  (dispatchDeferBios conf conf.pendingDataCnt).bind fun r =>
    if r.1.pendingDataCnt ≠ 0 then none else some r

/-- The bios of a stripe on the entry `ent`, with `free` left on the free list. -/
def R5conf.queue (conf : R5conf B) (ent : Nat) (free : List Nat) (sector : Nat) (bios : List B) :
    R5conf B :=
  ⟨free, conf.pendingList ++ [⟨ent, sector, bios⟩], conf.pendingDataCnt + 1, conf.nextPendingData⟩

/-- `none` also when the free list has no first entry. -/
def deferIssueBios (conf : R5conf B) (sector : Nat) (bios : List B) : Option (R5conf B × List B) :=
  match conf.freeList with
  | [] => none
  | ent :: free =>
    let conf := conf.queue ent free sector bios
    if conf.pendingDataCnt ≥ (pendingIoMax : Int) then dispatchDeferBios conf pendingIoOneFlush
    else some (conf, [])

/-! ## Calls -/

/-- The lists that calls past their unlock have still to submit, and the bios handed over and
submitted so far. -/
structure Calls (B : Type*) where
  conf : R5conf B
  tmps : List (List B)
  handed : List B
  submitted : List B

inductive Event (B : Type*) where
  | deferIssue (sector : Nat) (bios : List B)
  | flush
  /-- Call `i` past its unlock runs `dispatch_bio_list`. -/
  | dispatch (i : Nat)

def Calls.took (s : Calls B) (bios : List B) (r : R5conf B × List B) : Calls B :=
  { s with conf := r.1, tmps := r.2 :: s.tmps, handed := s.handed ++ bios }

def step (s : Calls B) : Event B → Option (Calls B)
  | .deferIssue sector bios => (deferIssueBios s.conf sector bios).map (s.took bios)
  | .flush => (flushDeferredBios s.conf).map (s.took [])
  | .dispatch i =>
    some { s with tmps := s.tmps.eraseIdx i, submitted := s.submitted ++ s.tmps.getD i [] }

def setupConf (B : Type*) : Calls B :=
  ⟨⟨(List.range pendingIoMax).reverse, [], 0, none⟩, [], [], []⟩

/-! ## One dispatch -/

def R5conf.bios (conf : R5conf B) : List B := conf.pendingList.flatMap R5pendingData.bios

structure Inv (conf : R5conf B) : Prop where
  cnt : conf.pendingDataCnt = conf.pendingList.length
  room : conf.freeList.length + conf.pendingList.length = pendingIoMax
  next : ∀ e ∈ conf.nextPendingData, e ∈ conf.pendingList.map R5pendingData.entry

theorem moveHead_perm (e : Option Nat) (l : List (R5pendingData B)) : moveHead e l ~ l := by
  cases e with
  | none => exact .refl l
  | some e =>
    refine perm_append_comm.trans ?_
    rw [takeWhile_append_dropWhile]

/-- The loop takes the first entries, as many as it is told to. -/
theorem dispatchLoop_eq (target : Int) : ∀ (n : Nat) (w : Walk B) (l : List (R5pendingData B)),
    w.cnt + n + 1 = target → n < l.length → ∃ w', dispatchLoop target w l = (w', l.drop (n + 1)) ∧
      w'.cnt = target ∧ w'.list = w.list ++ (l.take (n + 1)).flatMap R5pendingData.bios ∧
      w'.freeList.length = w.freeList.length + (n + 1) ∧
      w'.next = (l.drop (n + 1)).head?.map R5pendingData.entry
  | n, w, [], _, hn => absurd hn (Nat.not_lt_zero n)
  | 0, w, data :: rest, hcnt, _ => by
    have htake : (w.take data rest).cnt = target := by
      show w.cnt + 1 = target
      omega
    rw [dispatchLoop, if_pos htake.ge]
    exact ⟨_, rfl, htake, by simp [Walk.take], rfl, rfl⟩
  | n + 1, w, data :: rest, hcnt, hn => by
    have htake : (w.take data rest).cnt + n + 1 = target := by
      show w.cnt + 1 + n + 1 = target
      omega
    rw [dispatchLoop, if_neg (by omega)]
    obtain ⟨w', hw', hcnt', hlist, hfree, hnext⟩ := dispatchLoop_eq target n _ rest htake
      (Nat.lt_of_succ_lt_succ hn)
    refine ⟨w', hw', hcnt', ?_, ?_, hnext⟩
    · rw [hlist, take_succ_cons, flatMap_cons, Walk.take, append_assoc]
    · rw [hfree, Walk.take, length_cons]
      omega

theorem dispatchDeferBios_eq {conf : R5conf B} (h : Inv conf) {n : Nat}
    (hn : n < conf.pendingList.length) :
    ∃ conf' tmp, dispatchDeferBios conf (n + 1 : Nat) = some (conf', tmp) ∧ Inv conf' ∧
      conf'.pendingList.length + (n + 1) = conf.pendingList.length ∧ tmp ++ conf'.bios ~
        conf.bios := by
  set l := moveHead conf.nextPendingData (conf.pendingList.insertionSort
    (·.sector ≤ ·.sector)) with hl
  have hperm : l ~ conf.pendingList := (moveHead_perm _ _).trans (perm_insertionSort _ _)
  have hlen := hperm.length_eq
  obtain ⟨w, hw, hcnt, hlist, hfree, hnext⟩ := dispatchLoop_eq (n + 1 : Nat) n
    ⟨(conf.pendingList.insertionSort (·.sector ≤ ·.sector)).head?.map R5pendingData.entry, none, [],
      conf.freeList, 0⟩ l (by simp) (by omega)
  have hrest := moveHead_perm w.first (l.drop (n + 1))
  have hdrop : (moveHead w.first (l.drop (n + 1))).length = conf.pendingList.length - (n + 1) := by
    rw [hrest.length_eq, length_drop, hlen]
  have hroom := h.room
  refine ⟨⟨w.freeList, moveHead w.first (l.drop (n + 1)), conf.pendingDataCnt - w.cnt,
    w.next⟩, w.list,
    ?_, ⟨?_, ?_, fun e he => ?_⟩, ?_, ?_⟩
  · rw [dispatchDeferBios, if_neg (by rw [h.cnt]; omega)]
    simp only [← hl, hw]
    rw [if_neg (by rw [h.cnt, hcnt]; omega)]
  · simp only [hdrop, h.cnt, hcnt]
    omega
  · simp only [hdrop, hfree]
    omega
  · rw [hnext] at he
    exact (hrest.map _).mem_iff.mpr (mem_of_mem_head? (by rwa [head?_map]))
  · simp only [hdrop]
    omega
  · rw [hlist, nil_append]
    refine (Perm.append_left _ (hrest.flatMap_right _)).trans ?_
    rw [← flatMap_append, take_append_drop]
    exact hperm.flatMap_right _

theorem Inv.queue {conf : R5conf B} (h : Inv conf) {ent : Nat} {free : List Nat}
    (hfree : conf.freeList = ent :: free) (sector : Nat) (bios : List B) :
    Inv (conf.queue ent free sector bios) := by
  have hcnt := h.cnt
  have hroom := h.room
  rw [hfree] at hroom
  refine ⟨?_, ?_, fun e he => ?_⟩
  · simp [R5conf.queue, hcnt]
  · simp only [R5conf.queue, length_append, length_cons, length_nil] at hroom ⊢
    omega
  · simpa [R5conf.queue] using .inl (mem_map.mp (h.next e he))

theorem deferIssueBios_eq {conf : R5conf B} (h : Inv conf)
    (hlt : conf.pendingList.length < pendingIoMax) (sector : Nat) (bios : List B) :
    ∃ conf' tmp, deferIssueBios conf sector bios = some (conf', tmp) ∧ Inv conf' ∧
      conf'.pendingList.length < pendingIoMax ∧ tmp ++ conf'.bios ~ conf.bios ++ bios := by
  unfold deferIssueBios
  cases hfree : conf.freeList with
  | nil =>
    have hroom := h.room
    rw [hfree, length_nil] at hroom
    omega
  | cons ent free =>
    have hinv := h.queue hfree sector bios
    have hcnt := hinv.cnt
    have hlen : (conf.queue ent free sector bios).pendingList.length =
      conf.pendingList.length + 1 := by
      simp [R5conf.queue]
    have hbios : (conf.queue ent free sector bios).bios = conf.bios ++ bios := by
      simp [R5conf.queue, R5conf.bios]
    rw [← hbios]
    dsimp only
    split_ifs with hmax
    · rw [hcnt, pendingIoMax] at hmax
      obtain ⟨conf', tmp, hd, hinv', hlen', hperm⟩ := dispatchDeferBios_eq hinv
        (n := 127) (by omega)
      exact ⟨conf', tmp, hd, hinv', by omega, hperm⟩
    · exact ⟨_, [], rfl, hinv, by omega, .refl _⟩

theorem flushDeferredBios_eq {conf : R5conf B} (h : Inv conf) :
    ∃ conf' tmp, flushDeferredBios conf = some (conf', tmp) ∧ Inv conf' ∧ conf'.pendingList = [] ∧
      tmp ++ conf'.bios ~ conf.bios ++ [] := by
  unfold flushDeferredBios
  rw [h.cnt, append_nil]
  cases hl : conf.pendingList.length with
  | zero =>
    refine ⟨conf, [], ?_, h, length_eq_zero_iff.mp hl, .refl _⟩
    simp [dispatchDeferBios, h.cnt, hl]
  | succ n =>
    obtain ⟨conf', tmp, hd, hinv, hlen, hperm⟩ := dispatchDeferBios_eq h (n := n) (by omega)
    have hnil : conf'.pendingList = [] := length_eq_zero_iff.mp (by omega)
    refine ⟨conf', tmp, ?_, hinv, hnil, hperm⟩
    rw [hd, Option.bind_some, if_neg]
    simp [hinv.cnt, hnil]

/-! ## Any interleaving -/

structure Calls.Ok (s : Calls B) : Prop where
  inv : Inv s.conf
  below : s.conf.pendingList.length < pendingIoMax
  custody : s.submitted ++ s.tmps.flatten ++ s.conf.bios ~ s.handed

theorem Calls.Ok.took {s : Calls B} (h : s.Ok) {bios tmp : List B} {conf : R5conf B}
    (hinv : Inv conf) (hlt : conf.pendingList.length < pendingIoMax)
    (hperm : tmp ++ conf.bios ~ s.conf.bios ++ bios) : (s.took bios (conf, tmp)).Ok := by
  classical
  refine ⟨hinv, hlt, perm_iff_count.mpr fun x => ?_⟩
  have hx := perm_iff_count.mp hperm x
  have hs := perm_iff_count.mp h.custody x
  simp only [Calls.took, flatten_cons, count_append] at hx hs ⊢
  omega

theorem Calls.Ok.dispatch {s : Calls B} (h : s.Ok) (i : Nat) :
    Calls.Ok
      { s with tmps := s.tmps.eraseIdx i, submitted := s.submitted ++ s.tmps.getD i [] } := by
  refine ⟨h.inv, h.below, .trans (.append_right _ ?_) h.custody⟩
  rw [append_assoc]
  refine .append_left _ ?_
  by_cases hi : i < s.tmps.length
  · have hmid : s.tmps.take i ++ s.tmps[i] :: s.tmps.drop (i + 1) ~ _ := perm_middle
    rw [getElem_cons_drop, take_append_drop] at hmid
    rw [getD_eq_getElem _ _ hi, eraseIdx_eq_take_drop_succ]
    exact hmid.symm.flatten
  · rw [getD_eq_default _ _ (not_lt.mp hi), eraseIdx_of_length_le (not_lt.mp hi)]
    exact .refl _

/-- No bio of `handed`, which was handed over first, is pending. -/
def Calls.Past (handed : List B) (s : Calls B) : Prop :=
  ∃ later, s.handed = handed ++ later ∧ s.conf.bios <+~ later

theorem Calls.Past.took {handed : List B} {s : Calls B} (h : s.Past handed) {bios tmp : List B}
    {conf : R5conf B} (hperm : tmp ++ conf.bios ~ s.conf.bios ++ bios) :
    (s.took bios (conf, tmp)).Past handed := by
  obtain ⟨later, hhanded, hsub⟩ := h
  refine ⟨later ++ bios, ?_, ?_⟩
  · show s.handed ++ bios = handed ++ (later ++ bios)
    rw [hhanded, append_assoc]
  · refine (sublist_append_right tmp conf.bios).subperm.trans ?_
    exact hperm.subperm.trans ((subperm_append_right bios).mpr hsub)

/-- When no call holds bios, they have all been submitted. -/
theorem Calls.Past.submitted {handed : List B} {s : Calls B} (h : s.Past handed) (hok : s.Ok)
    (hnone : s.tmps.flatten = []) : handed <+~ s.submitted := by
  classical
  obtain ⟨later, hhanded, hsub⟩ := h
  refine subperm_ext_iff.mpr fun x _ => ?_
  have hx := perm_iff_count.mp hok.custody x
  have hle := hsub.count_le x
  rw [hhanded, hnone, append_nil] at hx
  simp only [count_append] at hx
  omega

theorem step_ok {s : Calls B} (h : s.Ok) (e : Event B) : ∃ s', step s e = some s' ∧ s'.Ok ∧
    ∀ handed, s.Past handed → s'.Past handed := by
  cases e with
  | deferIssue sector bios =>
    obtain ⟨conf, tmp, hc, hinv, hlt, hperm⟩ := deferIssueBios_eq h.inv h.below sector bios
    exact ⟨_, by rw [step, hc]; rfl, h.took hinv hlt hperm, fun _ hp => hp.took hperm⟩
  | flush =>
    obtain ⟨conf, tmp, hc, hinv, hnil, hperm⟩ := flushDeferredBios_eq h.inv
    exact ⟨_, by rw [step, hc]; rfl, h.took hinv (by simp [hnil, pendingIoMax]) hperm,
      fun _ hp => hp.took hperm⟩
  | dispatch i => exact ⟨_, rfl, h.dispatch i, fun _ hp => hp⟩

theorem run_ok : ∀ (events : List (Event B)) {s : Calls B}, s.Ok →
    ∃ s', run step s events = some s' ∧ s'.Ok ∧ ∀ handed, s.Past handed → s'.Past handed
  | [], s, h => ⟨s, rfl, h, fun _ hp => hp⟩
  | e :: events, s, h => by
    obtain ⟨s₁, hs₁, h₁, hp₁⟩ := step_ok h e
    obtain ⟨s', hs', h', hp'⟩ := run_ok events h₁
    exact ⟨s', run_cons.mpr ⟨s₁, hs₁, hs'⟩, h', fun handed hp => hp' handed (hp₁ handed hp)⟩

theorem setupConf_ok : (setupConf B).Ok := by
  refine ⟨⟨rfl, ?_, by rintro _ ⟨⟩⟩, by simp [setupConf, pendingIoMax], .refl _⟩
  simp [setupConf]

/-- **Every deferred bio is in one place.** Whatever calls interleave, no `BUG_ON` strikes, an
entry is free, and a bio is pending, with one call past its unlock, or submitted. A flush empties
the pending list, and if nothing comes between its unlock and its return everything is submitted
exactly when no other call still holds bios. Whatever other calls do after its unlock, nothing
handed over before the flush is pending again, and it is all submitted once no call holds bios. -/
theorem deferred_bios_once (events : List (Event B)) : ∃ s, run step (setupConf B) events = some s ∧
      s.conf.pendingDataCnt = s.conf.pendingList.length ∧
      s.conf.pendingDataCnt < pendingIoMax ∧ s.conf.freeList ≠ [] ∧
      (∀ e ∈ s.conf.nextPendingData, e ∈ s.conf.pendingList.map R5pendingData.entry) ∧
      s.submitted ++ s.tmps.flatten ++ s.conf.bios ~ s.handed ∧
      (∃ t, run step s [.flush, .dispatch 0] = some t ∧ t.conf.pendingList = [] ∧
        (t.submitted ~ s.handed ↔ s.tmps.flatten = [])) ∧
      ∀ others, ∃ t, run step s (.flush :: others) = some t ∧ t.Past s.handed ∧
        (t.tmps.flatten = [] → s.handed <+~ t.submitted) := by
  obtain ⟨s, hs, h, -⟩ := run_ok events setupConf_ok
  have hcnt := h.inv.cnt
  have hroom := h.inv.room
  have hlt := h.below
  obtain ⟨conf, tmp, hc, hinv, hnil, hperm⟩ := flushDeferredBios_eq h.inv
  have hflush : step s .flush = some (s.took [] (conf, tmp)) := by
    rw [step, hc]
    rfl
  have hok := h.took hinv (by simp [hnil, pendingIoMax]) hperm
  have hall := (hok.dispatch 0).custody
  simp only [Calls.took, R5conf.bios, hnil, flatMap_nil, append_nil] at hall
  refine ⟨s, hs, hcnt, by omega, fun hfree => ?_, h.inv.next, h.custody,
    ⟨_, run_cons.mpr ⟨_, hflush, rfl⟩, hnil, fun hsub => ?_, fun hnone => ?_⟩, fun others => ?_⟩
  · rw [hfree, length_nil] at hroom
    omega
  · have hlen := hall.length_eq.trans hsub.length_eq.symm
    rw [length_append] at hlen
    exact length_eq_zero_iff.mp (Nat.add_eq_left.mp hlen)
  · rwa [show (tmp :: s.tmps).eraseIdx 0 = s.tmps from rfl, hnone, append_nil] at hall
  · have hpast : (s.took [] (conf, tmp)).Past s.handed := by
      refine ⟨[], rfl, ?_⟩
      show conf.pendingList.flatMap R5pendingData.bios <+~ []
      rw [hnil]
      exact .refl _
    obtain ⟨t, ht, hokt, hp⟩ := run_ok others hok
    exact ⟨t, run_cons.mpr ⟨_, hflush, ht⟩, hp _ hpast, (hp _ hpast).submitted hokt⟩

/-- A second flush returns while the first has still to submit what it took. -/
theorem flush_before_submit :
    (run step (setupConf Nat) [.deferIssue 0 [7], .dispatch 0, .flush, .flush, .dispatch 0]).map
      (fun s => (s.handed, s.conf.bios, s.tmps, s.submitted)) = some ([7], [], [[7]], []) := by
  decide +kernel

end MdRaid.Requests.Deferred
