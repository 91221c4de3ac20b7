import MdRaid.Geometry.ComputeSector
import MdRaid.Lib.Loops

/-!
# Syndrome slots of the devices of a stripe

The walk over the devices that starts at `raid6_d0` and gives each device the
slot under which the syndrome routines know it. Data devices are numbered in the
order of the walk; in the DDF layouts the numbering runs over the parity devices
as well and leaves holes there. The two parity devices get the two slots after
`syndrome_disks`.
-/

namespace MdRaid.Geometry

/-! ## Parity positions -/

namespace StripeHead

/-- `sh->pd_idx` as an index of `sh->dev`. -/
def pd (sh : StripeHead) : Nat := sh.idx.pdIdx.toNat

/-- `sh->qd_idx` as an index of `sh->dev`. -/
def qd (sh : StripeHead) : Nat := sh.idx.qdIdx.toNat

/-- `i == sh->pd_idx || i == sh->qd_idx`. -/
def isParity (sh : StripeHead) (i : Nat) : Bool :=
  decide ((i : Int) = sh.idx.pdIdx) || decide ((i : Int) = sh.idx.qdIdx)

theorem isParity_eq_false {sh : StripeHead} {i : Nat} :
    sh.isParity i = false ↔ (i : Int) ≠ sh.idx.pdIdx ∧ (i : Int) ≠ sh.idx.qdIdx := by
  simp [isParity]

theorem isParity_eq_true {sh : StripeHead} {i : Nat} :
    sh.isParity i ↔ (i : Int) = sh.idx.pdIdx ∨ (i : Int) = sh.idx.qdIdx := by
  simp [isParity]

/-- The devices that hold data. -/
def dataDevs (sh : StripeHead) : Finset Nat :=
  (Finset.range sh.disks).filter fun i => sh.isParity i = false

theorem mem_dataDevs {sh : StripeHead} {i : Nat} :
    i ∈ sh.dataDevs ↔ i < sh.disks ∧ sh.isParity i = false := by
  simp [dataDevs]

end StripeHead

/-! ## The walk -/

def raid6D0 (sh : StripeHead) : Nat :=
  if sh.idx.ddfLayout then 0
  else if sh.idx.qdIdx = (sh.disks : Int) - 1 then 0
  else (sh.idx.qdIdx + 1).toNat

def raid6NextDisk (disk raidDisks : Nat) : Nat :=
  if disk + 1 < raidDisks then disk + 1 else 0

/-- The slot of device `idx`, and the count afterwards. -/
def raid6IdxToSlot (idx : Nat) (sh : StripeHead) (count syndromeDisks : Nat) : Nat × Nat :=
  let count1 := if sh.idx.ddfLayout then count + 1 else count
  if (idx : Int) = sh.idx.pdIdx then (syndromeDisks, count1)
  else if (idx : Int) = sh.idx.qdIdx then (syndromeDisks + 1, count1)
  else (count, if sh.idx.ddfLayout then count1 else count1 + 1)

def syndromeDisks (sh : StripeHead) : Nat :=
  if sh.idx.ddfLayout then sh.disks else sh.disks - 2

/-- The body of `do { slot = raid6_idx_to_slot(i, ..); ...; i = raid6_next_disk(i, disks); }
while (i != d0_idx)`: the devices in the order visited, with their slots. -/
def slotLoop (sh : StripeHead) : Nat → Nat → Nat → List (Nat × Nat)
  | 0, _, _ => []
  | fuel + 1, i, count =>
    let r := raid6IdxToSlot i sh count (syndromeDisks sh)
    let next := raid6NextDisk i sh.disks
    (i, r.1) :: (if next = raid6D0 sh then [] else slotLoop sh fuel next r.2)

/-- The whole walk. -/
def slotWalk (sh : StripeHead) : List (Nat × Nat) := slotLoop sh sh.disks (raid6D0 sh) 0

/-! ## The order of the walk -/

/-- The numbering along a given order of devices. -/
def assignSlots (sh : StripeHead) : List Nat → Nat → List (Nat × Nat)
  | [], _ => []
  | i :: l, count =>
    let r := raid6IdxToSlot i sh count (syndromeDisks sh)
    (i, r.1) :: assignSlots sh l r.2

/-- The walk after it has wrapped around to device 0. -/
theorem slotLoop_wrapped (sh : StripeHead) (hd : raid6D0 sh < sh.disks) :
    ∀ (fuel i count : Nat), i < raid6D0 sh → raid6D0 sh - i ≤ fuel → slotLoop sh fuel i count =
        assignSlots sh (List.range' i (raid6D0 sh - i)) count
  | 0, i, count, hi, hf => by omega
  | fuel + 1, i, count, hi, hf => by
    have hnext : raid6NextDisk i sh.disks = i + 1 := by
      simp [raid6NextDisk, show i + 1 < sh.disks by omega]
    obtain ⟨n, hn⟩ : ∃ n, raid6D0 sh - i = n + 1 := ⟨raid6D0 sh - i - 1, by omega⟩
    rw [hn, List.range'_succ, slotLoop, assignSlots, hnext]
    congr 1
    by_cases hlast : i + 1 = raid6D0 sh
    · have hzero : n = 0 := by omega
      simp [hlast, hzero, assignSlots]
    · rw [if_neg hlast, slotLoop_wrapped sh hd fuel (i + 1) _ (by omega) (by omega),
        show raid6D0 sh - (i + 1) = n by omega]

/-- The walk from a device at or after the start. -/
theorem slotLoop_unwrapped (sh : StripeHead) (hd : raid6D0 sh < sh.disks) :
    ∀ (fuel i count : Nat), raid6D0 sh ≤ i → i < sh.disks → sh.disks - i + raid6D0 sh ≤ fuel →
      slotLoop sh fuel i count =
        assignSlots sh (List.range' i (sh.disks - i) ++ List.range (raid6D0 sh)) count
  | 0, i, count, hi, hlt, hf => by omega
  | fuel + 1, i, count, hi, hlt, hf => by
    obtain ⟨n, hn⟩ : ∃ n, sh.disks - i = n + 1 := ⟨sh.disks - i - 1, by omega⟩
    rw [hn, List.range'_succ, List.cons_append, slotLoop, assignSlots]
    congr 1
    by_cases hlast : i + 1 < sh.disks
    · have hnext : raid6NextDisk i sh.disks = i + 1 := by simp [raid6NextDisk, hlast]
      rw [hnext, if_neg (by omega),
        slotLoop_unwrapped sh hd fuel (i + 1) _ (by omega) hlast (by omega),
        show sh.disks - (i + 1) = n by omega]
    · have hnext : raid6NextDisk i sh.disks = 0 := by simp [raid6NextDisk, hlast]
      have hzero : n = 0 := by omega
      rw [hnext, hzero, List.range'_zero, List.nil_append]
      by_cases hd0 : raid6D0 sh = 0
      · simp [hd0, assignSlots]
      · rw [if_neg (Ne.symm hd0), slotLoop_wrapped sh hd fuel 0 _ (by omega) (by omega),
          Nat.sub_zero, List.range_eq_range']

/-- The order in which the walk visits the devices. -/
def walkOrder (sh : StripeHead) : List Nat :=
  List.range' (raid6D0 sh) (sh.disks - raid6D0 sh) ++ List.range (raid6D0 sh)

/-- Any amount of fuel from `disks` on gives the same walk: the loop ends by its own
condition. -/
theorem slotLoop_eq_assignSlots (sh : StripeHead) (hd : raid6D0 sh < sh.disks) {fuel : Nat}
    (hf : sh.disks ≤ fuel) : slotLoop sh fuel (raid6D0 sh) 0 = assignSlots sh (walkOrder sh) 0 :=
  slotLoop_unwrapped sh hd fuel (raid6D0 sh) 0 (le_refl _) hd (by omega)

theorem walkOrder_perm (sh : StripeHead) (hd : raid6D0 sh < sh.disks) :
    (walkOrder sh).Perm (List.range sh.disks) := by
  have hsplit : List.range sh.disks = List.range (raid6D0 sh) ++
      List.range' (raid6D0 sh) (sh.disks - raid6D0 sh) := by
    have h := @List.range'_append_1 0 (raid6D0 sh) (sh.disks - raid6D0 sh)
    rw [Nat.zero_add, Nat.add_sub_cancel' (Nat.le_of_lt hd)] at h
    rw [List.range_eq_range', List.range_eq_range', h]
  rw [hsplit]
  exact List.perm_append_comm

/-! ## Which slots are given -/

/-- The parity positions of a level-6 stripe. -/
structure ValidPQ (sh : StripeHead) : Prop where
  pd_nonneg : 0 ≤ sh.idx.pdIdx
  pd_lt : sh.idx.pdIdx < sh.disks
  qd_nonneg : 0 ≤ sh.idx.qdIdx
  qd_lt : sh.idx.qdIdx < sh.disks
  pd_ne_qd : sh.idx.pdIdx ≠ sh.idx.qdIdx

namespace ValidPQ

open StripeHead

variable {sh : StripeHead} (h : ValidPQ sh)
include h

theorem pd_cast : (sh.pd : Int) = sh.idx.pdIdx := Int.toNat_of_nonneg h.pd_nonneg

theorem qd_cast : (sh.qd : Int) = sh.idx.qdIdx := Int.toNat_of_nonneg h.qd_nonneg

theorem pd_lt_disks : sh.pd < sh.disks := by
  have := h.pd_cast
  have := h.pd_lt
  omega

theorem qd_lt_disks : sh.qd < sh.disks := by
  have := h.qd_cast
  have := h.qd_lt
  omega

theorem pd_ne : sh.pd ≠ sh.qd := by
  have := h.pd_cast
  have := h.qd_cast
  have := h.pd_ne_qd
  omega

theorem qd_not_data : sh.qd ∉ sh.dataDevs := fun hmem =>
  (isParity_eq_false.mp (mem_dataDevs.mp hmem).2).2 h.qd_cast

end ValidPQ

theorem ValidPQ.raid6D0_lt {sh : StripeHead} (h : ValidPQ sh) : raid6D0 sh < sh.disks := by
  have := h.qd_nonneg
  have := h.qd_lt
  unfold raid6D0
  split_ifs <;> omega

/-- How far the count moves over a list of devices. -/
def advance (sh : StripeHead) (l : List Nat) : Nat :=
  if sh.idx.ddfLayout then l.length else l.countP fun i => !sh.isParity i

section IdxToSlot

variable {sh : StripeHead} {i : Nat} (count sd : Nat)

theorem raid6IdxToSlot_pd (hp : (i : Int) = sh.idx.pdIdx) :
    raid6IdxToSlot i sh count sd = (sd, if sh.idx.ddfLayout then count + 1 else count) :=
  if_pos hp

theorem raid6IdxToSlot_qd (hp : (i : Int) ≠ sh.idx.pdIdx) (hq : (i : Int) = sh.idx.qdIdx) :
    raid6IdxToSlot i sh count sd = (sd + 1, if sh.idx.ddfLayout then count + 1 else count) :=
  (if_neg hp).trans (if_pos hq)

theorem raid6IdxToSlot_data (h : sh.isParity i = false) :
    raid6IdxToSlot i sh count sd = (count, count + 1) := by
  obtain ⟨hp, hq⟩ := StripeHead.isParity_eq_false.mp h
  unfold raid6IdxToSlot
  rw [if_neg hp, if_neg hq]
  cases sh.idx.ddfLayout <;> rfl

/-- Parity devices move the count in the DDF layouts only. -/
theorem raid6IdxToSlot_parity_count (h : sh.isParity i) :
    (raid6IdxToSlot i sh count sd).2 = if sh.idx.ddfLayout then count + 1 else count := by
  by_cases hp : (i : Int) = sh.idx.pdIdx
  · rw [raid6IdxToSlot_pd count sd hp]
  · have hq := (StripeHead.isParity_eq_true.mp h).resolve_left hp
    rw [raid6IdxToSlot_qd count sd hp hq]

end IdxToSlot

theorem advance_cons (sh : StripeHead) (i : Nat) (l : List Nat) (count : Nat) :
    (raid6IdxToSlot i sh count (syndromeDisks sh)).2 + advance sh l =
      count + advance sh (i :: l) := by
  unfold advance
  cases h : sh.isParity i with
  | true =>
    rw [raid6IdxToSlot_parity_count count _ h, List.countP_cons, List.length_cons, h]
    by_cases hddf : sh.idx.ddfLayout
    · simp [hddf]
      omega
    · simp [hddf]
  | false =>
    rw [raid6IdxToSlot_data count _ h, List.countP_cons, List.length_cons, h]
    by_cases hddf : sh.idx.ddfLayout = true <;> simp [hddf] <;> omega

@[simp] theorem assignSlots_fst (sh : StripeHead) : ∀ (l : List Nat) (count : Nat),
    (assignSlots sh l count).map Prod.fst = l
  | [], _ => rfl
  | i :: l, count => by
    rw [assignSlots, List.map_cons, assignSlots_fst sh l]

/-- The slot of a parity device, and the range of the others. -/
theorem mem_assignSlots (sh : StripeHead) {e : Nat × Nat} : ∀ {l : List Nat} {count : Nat},
    e ∈ assignSlots sh l count → ((e.1 : Int) = sh.idx.pdIdx ∧ e.2 = syndromeDisks sh) ∨
      ((e.1 : Int) ≠ sh.idx.pdIdx ∧ (e.1 : Int) = sh.idx.qdIdx ∧ e.2 = syndromeDisks sh + 1) ∨
      (sh.isParity e.1 = false ∧ count ≤ e.2 ∧ e.2 < count + advance sh l)
  | i :: l, count, he => by
    have hadv := advance_cons sh i l count
    rcases List.mem_cons.mp he with rfl | hmem
    · by_cases hp : (i : Int) = sh.idx.pdIdx
      · exact .inl ⟨hp, by rw [raid6IdxToSlot_pd _ _ hp]⟩
      · by_cases hq : (i : Int) = sh.idx.qdIdx
        · exact .inr (.inl ⟨hp, hq, by rw [raid6IdxToSlot_qd _ _ hp hq]⟩)
        · have hdata := StripeHead.isParity_eq_false.mpr ⟨hp, hq⟩
          rw [raid6IdxToSlot_data _ _ hdata] at hadv ⊢
          exact .inr (.inr ⟨hdata, le_refl _, by omega⟩)
    · have hle : count ≤ (raid6IdxToSlot i sh count (syndromeDisks sh)).2 := by
        cases h : sh.isParity i with
        | true =>
          rw [raid6IdxToSlot_parity_count _ _ h]
          split_ifs <;> omega
        | false =>
          rw [raid6IdxToSlot_data _ _ h]
          omega
      rcases mem_assignSlots sh hmem with h | h | ⟨hdata, hlo, hhi⟩
      · exact .inl h
      · exact .inr (.inl h)
      · exact .inr (.inr ⟨hdata, by omega, by omega⟩)

/-- Data devices get increasing slots. -/
theorem pairwise_assignSlots (sh : StripeHead) : ∀ (l : List Nat) (count : Nat),
    (assignSlots sh l count).Pairwise fun a b =>
      sh.isParity a.1 = false → sh.isParity b.1 = false → a.2 < b.2
  | [], _ => List.Pairwise.nil
  | i :: l, count => by
    refine List.Pairwise.cons ?_ (pairwise_assignSlots sh l _)
    intro b hb hi hbd
    obtain ⟨hbp, hbq⟩ := StripeHead.isParity_eq_false.mp hbd
    rcases mem_assignSlots sh hb with h | h | ⟨-, hlo, -⟩
    · exact absurd h.1 hbp
    · exact absurd h.2.1 hbq
    · rw [raid6IdxToSlot_data _ _ hi] at hlo ⊢
      exact hlo

section

variable (sh : StripeHead) (h : ValidPQ sh)

include sh h

/-- All but two devices hold data. -/
theorem card_dataDevs : sh.dataDevs.card = sh.disks - 2 := by
  have herase : sh.dataDevs = ((Finset.range sh.disks).erase sh.pd).erase sh.qd := by
    ext i
    have := h.pd_cast
    have := h.qd_cast
    simp only [StripeHead.mem_dataDevs, Finset.mem_erase, Finset.mem_range,
      StripeHead.isParity_eq_false]
    omega
  have hpd : sh.pd ∈ Finset.range sh.disks := Finset.mem_range.mpr h.pd_lt_disks
  have hqd : sh.qd ∈ (Finset.range sh.disks).erase sh.pd :=
    Finset.mem_erase.mpr ⟨h.pd_ne.symm, Finset.mem_range.mpr h.qd_lt_disks⟩
  rw [herase, Finset.card_erase_of_mem hqd, Finset.card_erase_of_mem hpd, Finset.card_range]
  omega

/-- Over all devices the count moves exactly to `syndrome_disks`. -/
theorem advance_walkOrder : advance sh (walkOrder sh) = syndromeDisks sh := by
  have hperm := walkOrder_perm sh h.raid6D0_lt
  unfold advance syndromeDisks
  by_cases hddf : sh.idx.ddfLayout
  · rw [if_pos hddf, if_pos hddf, hperm.length_eq, List.length_range]
  · rw [if_neg hddf, if_neg hddf, hperm.countP_eq]
    rw [← card_dataDevs sh h, List.countP_eq_length_filter]
    show _ = ((List.range sh.disks).filter fun i => decide (sh.isParity i = false)).length
    congr 2
    funext i
    cases sh.isParity i <;> rfl

/-! ## The slot of a device -/

theorem slotWalk_eq : slotWalk sh = assignSlots sh (walkOrder sh) 0 :=
  slotLoop_eq_assignSlots sh h.raid6D0_lt (le_refl _)

theorem slotWalk_fst_perm : ((slotWalk sh).map Prod.fst).Perm (List.range sh.disks) := by
  rw [slotWalk_eq sh h, assignSlots_fst]
  exact walkOrder_perm sh h.raid6D0_lt

theorem mem_slotWalk {e : Nat × Nat} (he : e ∈ slotWalk sh) :
      ((e.1 : Int) = sh.idx.pdIdx ∧ e.2 = syndromeDisks sh) ∨
      ((e.1 : Int) ≠ sh.idx.pdIdx ∧ (e.1 : Int) = sh.idx.qdIdx ∧ e.2 = syndromeDisks sh + 1) ∨
      (sh.isParity e.1 = false ∧ e.2 < syndromeDisks sh) := by
  rw [slotWalk_eq sh h] at he
  rcases mem_assignSlots sh he with hp | hq | ⟨hd, -, hlt⟩
  · exact .inl hp
  · exact .inr (.inl hq)
  · rw [advance_walkOrder sh h] at hlt
    exact .inr (.inr ⟨hd, by omega⟩)

/-- **Slots are given at most once.** -/
theorem slotWalk_snd_nodup : ((slotWalk sh).map Prod.snd).Nodup := by
  have hfst : ((slotWalk sh).map Prod.fst).Nodup :=
    (slotWalk_fst_perm sh h).nodup_iff.mpr List.nodup_range
  rw [List.Nodup, List.pairwise_map] at hfst ⊢
  have hinc : (slotWalk sh).Pairwise fun a b =>
      sh.isParity a.1 = false → sh.isParity b.1 = false → a.2 < b.2 := by
    rw [slotWalk_eq sh h]
    exact pairwise_assignSlots sh _ _
  refine (hfst.and hinc).imp_of_mem ?_
  rintro a b ha hb ⟨hne, hlt⟩ heq
  rcases mem_slotWalk sh h ha with hap | haq | had <;>
    rcases mem_slotWalk sh h hb with hbp | hbq | hbd
  all_goals first
    | omega
    | exact absurd (hlt had.1 hbd.1) (by omega)

end

/-- The slot the walk gives to device `i`. -/
def slotOf (sh : StripeHead) (i : Nat) : Nat :=
  (((slotWalk sh).find? fun e => e.1 == i).map Prod.snd).getD 0

section

variable (sh : StripeHead) (h : ValidPQ sh)
include sh h

theorem slotOf_mem {i : Nat} (hi : i < sh.disks) : (i, slotOf sh i) ∈ slotWalk sh := by
  have hmem : i ∈ (slotWalk sh).map Prod.fst :=
    (slotWalk_fst_perm sh h).mem_iff.mpr (List.mem_range.mpr hi)
  obtain ⟨e, he, rfl⟩ := List.mem_map.mp hmem
  unfold slotOf
  cases hf : (slotWalk sh).find? fun e' => e'.1 == e.1 with
  | none => exact absurd (List.find?_eq_none.mp hf e he) (by simp)
  | some e' =>
    have hkey : e'.1 = e.1 := by simpa using List.find?_some hf
    rw [← hkey]
    exact List.mem_of_find?_eq_some hf

theorem slotOf_pd : slotOf sh sh.pd = syndromeDisks sh := by
  rcases mem_slotWalk sh h (slotOf_mem sh h h.pd_lt_disks) with hp | hq | hd
  · exact hp.2
  · exact absurd h.pd_cast hq.1
  · exact absurd h.pd_cast (StripeHead.isParity_eq_false.mp hd.1).1

theorem slotOf_qd : slotOf sh sh.qd = syndromeDisks sh + 1 := by
  rcases mem_slotWalk sh h (slotOf_mem sh h h.qd_lt_disks) with hp | hq | hd
  · exact absurd (hp.1.symm.trans h.qd_cast) h.pd_ne_qd
  · exact hq.2.2
  · exact absurd h.qd_cast (StripeHead.isParity_eq_false.mp hd.1).2

theorem slotOf_data_lt {i : Nat} (hi : i ∈ sh.dataDevs) : slotOf sh i < syndromeDisks sh := by
  obtain ⟨hlt, hdata⟩ := Finset.mem_filter.mp hi
  obtain ⟨hp, hq⟩ := StripeHead.isParity_eq_false.mp hdata
  rcases mem_slotWalk sh h (slotOf_mem sh h (Finset.mem_range.mp hlt)) with hpd | hqd | hd
  · exact absurd hpd.1 hp
  · exact absurd hqd.2.1 hq
  · exact hd.2

/-- **Distinct devices have distinct slots.** -/
theorem slotOf_injOn {i j : Nat} (hi : i < sh.disks)
    (hj : j < sh.disks) (hij : slotOf sh i = slotOf sh j) : i = j := by
  have hinj := List.inj_on_of_nodup_map (slotWalk_snd_nodup sh h)
  exact congrArg Prod.fst (hinj (slotOf_mem sh h hi) (slotOf_mem sh h hj) hij)

end

end MdRaid.Geometry
