import MdRaid.Requests.Chains

/-!
# Chains of bios: what every call keeps

The link of a bio is written and followed only on the chain of the page the bio ends in: a
bio that follows it begins after its end and inside the page. A bio is on one chain of a
page, so writing a link on one chain leaves every other chain alone. What may go wrong is a
call of `add_all_stripe_bios` that dropped the lock: it does not look for overlaps again.
-/

namespace MdRaid.Requests.Chains

open Runs Function

/-! ## The invariant -/

/-- The bios on a chain. -/
structure ChainAt (h : Heap) (c : Chain) (dev : R5dev) (att : Finset Bio)
    (l : List Bio) : Prop where
  linked : Linked h dev (h.head c dev) l
  ordered : Spans.Ordered Bio.biSector Bio.endSector l
  inside : ∀ b ∈ l, b.biSector < dev.endSector ∧ dev.sector < b.endSector
  mem : ∀ b, b ∈ l ↔ b ∈ att

/-- The bio may be attached to the page. -/
structure Open (k : Core) (b : Bio) (dev : R5dev) : Prop where
  inside : b.biSector < dev.endSector ∧ dev.sector < b.endSector
  undone : dev.sector ∉ k.done b
  clear : ∀ a ∈ k.attached b.chain dev, a.endSector ≤ b.biSector ∨ b.endSector ≤ a.biSector

/-- The state, with the pages that each bio has still to be attached to. -/
structure Inv (k : Core) (rest : Bio → List R5dev) : Prop where
  chain : ∀ c dev, ∃ l, ChainAt k.heap c dev (k.attached c dev) l
  done : ∀ c dev b, b ∈ k.attached c dev → dev.sector ∈ k.done b
  /-- A bio is on one chain of a page. -/
  own : ∀ b c dev c' dev', b ∈ k.attached c dev → b ∈ k.attached c' dev' →
    dev.sector = dev'.sector → c = c' ∧ dev = dev'
  /-- The link of a bio that was not attached to the page it ends in. -/
  fresh : ∀ b ∈ k.submitted, ∀ dev : R5dev, dev.sector < b.endSector → b.endSector < dev.endSector →
    dev.sector ∉ k.done b → k.heap.biNext b = none
  unsubmitted : ∀ b ∉ k.submitted, k.done b = ∅ ∧ rest b = []
  nodup : ∀ b, ((rest b).map R5dev.sector).Nodup
  todo : ∀ b, ∀ dev ∈ rest b, Open k b dev
  apart : ∀ b b', b ≠ b' → b.chain = b'.chain → ∀ dev ∈ rest b, dev ∈ rest b' →
    b.endSector ≤ b'.biSector ∨ b'.endSector ≤ b.biSector

section Inv

variable {k k' : Core} {r rest : Bio → List R5dev} {bi : Bio} {dev : R5dev} {devs : List R5dev}

section

variable {h : Heap} {c : Chain} {att : Finset Bio} {l : List Bio} (hc : ChainAt h c dev att l)
include hc

theorem ChainAt.length_le : l.length < maxWalk := by
  have hlen := hc.ordered.length_le (Nat.lt_add_of_pos_right (by decide)) hc.inside
  rw [Nat.add_sub_cancel_left] at hlen
  exact Nat.lt_succ_of_le hlen

theorem ChainAt.walk_eq : walk h dev maxWalk (h.head c dev) = some l :=
  Chains.walk_eq hc.linked (fun b hb => (hc.inside b hb).1) hc.length_le.le

end

theorem Inv.wellFormed {s : State} (hI : Inv s.core s.rest) (hbug : s.bug = false) :
    WellFormed s := by
  refine ⟨hbug, fun c dev => ?_⟩
  obtain ⟨l, hl⟩ := hI.chain c dev
  exact ⟨l, hl.walk_eq, hl.mem, hl.ordered⟩

/-- A chain whose pointers and bios did not change. -/
theorem ChainAt.congr {h h' : Heap} {c : Chain} {att att' : Finset Bio} {l : List Bio}
    (hc : ChainAt h c dev att l) (hhead : h'.head c dev = h.head c dev) (hatt : att' = att)
    (hnext : ∀ b ∈ l, b.endSector < dev.endSector → h'.biNext b = h.biNext b) :
    ChainAt h' c dev att' l := by
  refine ⟨?_, hc.ordered, hc.inside, fun b => by rw [hatt, hc.mem]⟩
  rw [hhead]
  exact hc.linked.congr hnext

section

variable (hI : Inv k rest) (ho : Open k bi dev)
include hI ho

theorem Open.fresh (hsub : bi ∈ k.submitted) :
    bi.endSector < dev.endSector → k.heap.biNext bi = none :=
  fun hinner => hI.fresh bi hsub dev ho.inside.2 hinner ho.undone

theorem Open.not_mem (c : Chain) : bi ∉ k.attached c dev :=
  fun hmem => ho.undone (hI.done c dev bi hmem)

/-- One page of a call: the bio gets on the chain, and every other chain stays as it is. -/
theorem exists_addStripeBio (hsub : bi ∈ k.submitted) :
    ∃ h', addStripeBio k bi dev = some { k with
          heap := h'
          attached := fun c d =>
            if c = bi.chain ∧ d = dev then insert bi (k.attached c d) else k.attached c d
          done := update k.done bi (insert dev.sector (k.done bi)) } ∧
      (∃ l, ChainAt h' bi.chain dev (insert bi (k.attached bi.chain dev)) l) ∧
      (∀ c d, ¬ (c = bi.chain ∧ d = dev) → h'.head c d = k.heap.head c d) ∧
      ∀ b, h'.biNext b = k.heap.biNext b ∨
        dev.sector < b.endSector ∧ b.endSector < dev.endSector ∧
          (b = bi ∨ b ∈ k.attached bi.chain dev) := by
  obtain ⟨l, hl⟩ := hI.chain bi.chain dev
  have hbi : bi ∉ l := fun hmem => ho.not_mem hI _ ((hl.mem bi).mp hmem)
  have hclear : ∀ b ∈ l, b.endSector ≤ bi.biSector ∨ bi.endSector ≤ b.biSector :=
    fun b hb => ho.clear b ((hl.mem b).mp hb)
  have hnodup : l.Nodup := hl.ordered.apart.imp_of_mem fun ha hb hab heq => by
    subst heq
    exact absurd (hl.ordered.nonempty _ ha) (not_lt.mpr hab)
  obtain ⟨bip, h', hfind, hlink, hl', hframe⟩ := linked_insert ho.inside.1 (ho.fresh hI hsub)
    (show Linked k.heap dev (k.heap.get (.head bi.chain dev)) l from hl.linked)
    (fun b hb => (hl.inside b hb).1) hclear
    (List.nodup_cons.mpr ⟨hbi, hnodup⟩) (fun _ _ => by simp) hl.length_le
  refine ⟨h', ?_, ⟨_, hl', ?_, ?_, ?_⟩, ?_, ?_⟩
  · rw [addStripeBio, hfind, Option.bind_some, hlink, Option.map_some]
  · exact hl.ordered.insert bi.nonempty
      (Spans.overlaps_eq_false_of_apart bi.nonempty hl.ordered hclear)
  · intro b hb
    rcases Spans.mem_insert.mp hb with rfl | hb
    · exact ho.inside
    · exact hl.inside b hb
  · intro b
    rw [Spans.mem_insert, Finset.mem_insert, hl.mem]
  · intro c d hne
    refine hframe (.head c d) (fun heq => hne ?_) fun _ _ _ => by simp
    exact Slot.head.inj heq
  · intro b
    by_cases hb : (b = bi ∨ b ∈ l) ∧ b.endSector < dev.endSector
    · refine .inr ⟨?_, hb.2, hb.1.imp id (hl.mem b).mp⟩
      rcases hb.1 with rfl | hmem
      · exact ho.inside.2
      · exact (hl.inside b hmem).2
    · refine .inl (hframe (.next b) (by simp) fun c hc hinner heq => hb ?_)
      obtain rfl := Slot.next.inj heq
      exact ⟨List.mem_cons.mp hc, hinner⟩

end

/-- **One page.** -/
theorem inv_addStripeBio (hI : Inv k (update r bi (dev :: devs))) (hsub : bi ∈ k.submitted) :
    ∃ k', addStripeBio k bi dev = some k' ∧ Inv k' (update r bi devs) ∧
      k'.submitted = k.submitted := by
  have hrest : ∀ b d, d ∈ update r bi devs b →
      d ∈ update r bi (dev :: devs) b := by
    intro b d hd
    by_cases hb : b = bi
    · subst hb
      rw [update_self] at hd ⊢
      exact List.mem_cons_of_mem _ hd
    · rwa [update_of_ne hb] at hd ⊢
  have hnodup := hI.nodup bi
  rw [update_self, List.map_cons, List.nodup_cons] at hnodup
  have ho : Open k bi dev := hI.todo bi dev (by rw [update_self]; exact List.mem_cons_self)
  obtain ⟨h', hadd, hnew, hhead, hnext⟩ := exists_addStripeBio hI ho hsub
  refine ⟨_, hadd, ?_, rfl⟩
  constructor
  case chain =>
    intro c d
    dsimp only
    by_cases hcd : c = bi.chain ∧ d = dev
    · obtain ⟨rfl, rfl⟩ := hcd
      rw [if_pos ⟨rfl, rfl⟩]
      exact hnew
    · rw [if_neg hcd]
      obtain ⟨l, hl⟩ := hI.chain c d
      -- a link that changed belongs to a bio that ends inside `dev` and is on its chain now
      refine ⟨l, hl.congr (hhead c d hcd) rfl fun b hb hinner => (hnext b).resolve_right ?_⟩
      rintro ⟨hlow, hhigh, hwho⟩
      have hb' := (hl.mem b).mp hb
      have hsector := R5dev.sector_eq ⟨(hl.inside b hb).2, hinner⟩ ⟨hlow, hhigh⟩
      rcases hwho with rfl | hmem
      · exact ho.undone (hsector ▸ hI.done c d b hb')
      · exact hcd (hI.own b c d _ _ hb' hmem hsector)
  case done =>
    intro c d b hb
    dsimp only at hb ⊢
    by_cases hbi : b = bi
    · subst hbi
      rw [update_self, Finset.mem_insert]
      split at hb
      next hcd => exact .inl (hcd.2 ▸ rfl)
      next => exact .inr (hI.done c d b hb)
    · rw [update_of_ne hbi]
      split at hb
      next => exact hI.done c d b (Finset.mem_of_mem_insert_of_ne hb hbi)
      next => exact hI.done c d b hb
  case own =>
    intro b c d c' d' hb hb' hsector
    dsimp only at hb hb'
    by_cases hbi : b = bi
    · subst hbi
      -- the bio was on no chain of a page at this sector
      have hnone : ∀ c d, d.sector = dev.sector → b ∉ k.attached c d :=
        fun c d hd hmem => ho.undone (hd ▸ hI.done c d b hmem)
      split at hb <;> split at hb'
      next h₁ h₂ => exact ⟨h₁.1.trans h₂.1.symm, h₁.2.trans h₂.2.symm⟩
      next h₁ h₂ => exact absurd hb' (hnone c' d' (hsector.symm.trans (h₁.2 ▸ rfl)))
      next h₁ h₂ => exact absurd hb (hnone c d (hsector.trans (h₂.2 ▸ rfl)))
      next => exact hI.own b c d c' d' hb hb' hsector
    · have hold : ∀ c d, (b ∈ if c = bi.chain ∧ d = dev then insert bi (k.attached c d)
          else k.attached c d) → b ∈ k.attached c d := by
        intro c d hmem
        split at hmem
        · exact Finset.mem_of_mem_insert_of_ne hmem hbi
        · exact hmem
      exact hI.own b c d c' d' (hold c d hb) (hold c' d' hb') hsector
  case fresh =>
    intro b hb d hlow hhigh hundone
    dsimp only at hundone ⊢
    have hundone' : d.sector ∉ k.done b := by
      by_cases hbi : b = bi
      · subst hbi
        rw [update_self, Finset.mem_insert, not_or] at hundone
        exact hundone.2
      · rwa [update_of_ne hbi] at hundone
    rw [← hI.fresh b hb d hlow hhigh hundone']
    refine (hnext b).resolve_right ?_
    rintro ⟨hlow', hhigh', hwho⟩
    have hsector := R5dev.sector_eq ⟨hlow, hhigh⟩ ⟨hlow', hhigh'⟩
    rcases hwho with rfl | hmem
    · rw [update_self, hsector] at hundone
      exact hundone (Finset.mem_insert_self _ _)
    · exact hundone' (hsector ▸ hI.done _ _ b hmem)
  case unsubmitted =>
    intro b hb
    have hbi : b ≠ bi := fun heq => hb (heq ▸ hsub)
    have hold := hI.unsubmitted b hb
    rw [update_of_ne hbi] at hold ⊢
    dsimp only
    rwa [update_of_ne hbi]
  case nodup =>
    intro b
    have hold := hI.nodup b
    by_cases hbi : b = bi
    · subst hbi
      rw [update_self]
      exact hnodup.2
    · rwa [update_of_ne hbi] at hold ⊢
  case todo =>
    intro b d hd
    obtain ⟨hin, hundone, hclear⟩ := hI.todo b d (hrest b d hd)
    refine ⟨hin, ?_, ?_⟩
    · dsimp only
      by_cases hbi : b = bi
      · subst hbi
        rw [update_self] at hd ⊢
        rw [Finset.mem_insert, not_or]
        exact ⟨fun heq => hnodup.1 (heq ▸ List.mem_map_of_mem hd), hundone⟩
      · rwa [update_of_ne hbi]
    · intro a ha
      dsimp only at ha
      split at ha
      next hcd =>
        rcases Finset.mem_insert.mp ha with rfl | ha
        · -- another call waits to add to this page
          have hba : b ≠ a := by
            rintro rfl
            rw [update_self] at hd
            exact hnodup.1 (hcd.2 ▸ List.mem_map_of_mem hd)
          refine hI.apart a b hba.symm hcd.1.symm d ?_ (hrest b d hd)
          rw [update_self, hcd.2]
          exact List.mem_cons_self
        · exact hclear a ha
      next => exact hclear a ha
  case apart =>
    intro b b' hne hchain d hd hd'
    exact hI.apart b b' hne hchain d (hrest b d hd) (hrest b' d hd')

/-- The second loop of a call, as far as it goes with the lock. -/
theorem inv_attachAll {bitmap : Bool} : ∀ {devs : List R5dev} {s : State},
    Inv s.core (update s.rest bi devs) → bi ∈ s.core.submitted → s.bug = false →
    Inv (attachAll bitmap s bi devs).core (attachAll bitmap s bi devs).rest ∧
      (attachAll bitmap s bi devs).bug = false := by
  intro devs
  induction devs with
  | nil => exact fun hI _ hbug => ⟨hI, hbug⟩
  | cons dev devs ih =>
    intro s hI hsub hbug
    obtain ⟨k, hadd, hI', hsub'⟩ := inv_addStripeBio hI hsub
    rw [attachAll, hadd]
    dsimp only
    split
    · exact ⟨hI', hbug⟩
    · exact @ih { s with core := k } hI' (hsub' ▸ hsub) hbug

theorem anyOverlaps_eq_some (hI : Inv k rest) : ∀ {devs : List R5dev},
    (∀ dev ∈ devs, bi.biSector < dev.endSector) → ∃ o, anyOverlaps k.heap bi devs = some o ∧
      (o = false → ∀ dev ∈ devs, ∀ a ∈ k.attached bi.chain dev,
        a.endSector ≤ bi.biSector ∨ bi.endSector ≤ a.biSector) := by
  intro devs
  induction devs with
  | nil => exact fun _ => ⟨false, rfl, fun _ _ h => absurd h List.not_mem_nil⟩
  | cons dev devs ih =>
    intro hin
    obtain ⟨hdev, hin⟩ := List.forall_mem_cons.mp hin
    obtain ⟨l, hl⟩ := hI.chain bi.chain dev
    obtain ⟨o, ho, hclear⟩ := ih hin
    rw [anyOverlaps, stripeBioOverlaps_eq hdev
      (show Linked k.heap dev (k.heap.get (.head bi.chain dev)) l from hl.linked) hl.length_le,
      Option.bind_some]
    cases hover : Spans.overlaps Bio.biSector Bio.endSector bi l with
    | true => exact ⟨true, rfl, by simp⟩
    | false =>
      refine ⟨o, ho, fun hno => List.forall_mem_cons.mpr ⟨fun a ha => ?_, hclear hno⟩⟩
      rcases Spans.apart_of_not_overlaps hl.ordered hover a ((hl.mem a).mpr ha) with h | h
      · exact .inl h.2
      · exact .inr h.2

end Inv

/-! ## The other steps -/

section Steps

variable {k k' : Core} {rest : Bio → List R5dev} {bi : Bio} {dev : R5dev}

/-- Chains that are moved or ended: the links stay, and no chain that can still be added to
gets another bio. -/
theorem Inv.transfer (hI : Inv k rest) (hnext : k'.heap.biNext = k.heap.biNext)
    (hdone : k'.done = k.done) (hsub : k'.submitted = k.submitted)
    (hchain : ∀ c dev, ∃ l, ChainAt k'.heap c dev (k'.attached c dev) l)
    (hold : ∀ c dev, ∀ b ∈ k'.attached c dev, ∃ c₀, b ∈ k.attached c₀ dev)
    (hone : ∀ c c' dev b, b ∈ k'.attached c dev → b ∈ k'.attached c' dev → c = c')
    (hopen : ∀ b : Bio, ∀ dev, k'.attached b.chain dev ⊆ k.attached b.chain dev) : Inv k' rest := by
  constructor
  case chain => exact hchain
  case done =>
    intro c d b hb
    obtain ⟨c₀, hb₀⟩ := hold c d b hb
    rw [hdone]
    exact hI.done c₀ d b hb₀
  case own =>
    intro b c d c' d' hb hb' hsector
    obtain ⟨c₀, hb₀⟩ := hold c d b hb
    obtain ⟨c₁, hb₁⟩ := hold c' d' b hb'
    obtain rfl := (hI.own b c₀ d c₁ d' hb₀ hb₁ hsector).2
    exact ⟨hone c c' d b hb hb', rfl⟩
  case fresh =>
    rw [hnext, hdone, hsub]
    exact hI.fresh
  case unsubmitted =>
    rw [hdone, hsub]
    exact hI.unsubmitted
  case nodup => exact hI.nodup
  case todo =>
    intro b d hd
    obtain ⟨hin, hundone, hclear⟩ := hI.todo b d hd
    exact ⟨hin, hdone ▸ hundone, fun a ha => hclear a (hopen b d ha)⟩
  case apart => exact hI.apart

theorem chainAt_nil {h : Heap} {c : Chain} (hhead : h.head c dev = none) : ChainAt h c dev ∅ [] :=
  ⟨hhead, Spans.Ordered.nil, fun _ hb => absurd hb List.not_mem_nil, fun b => by simp⟩

theorem Inv.attached_of_head_none (hI : Inv k rest) {c : Chain}
    (hhead : k.heap.head c dev = none) : k.attached c dev = ∅ := by
  obtain ⟨l, hl⟩ := hI.chain c dev
  have hnil : l = [] := by
    cases l with
    | nil => rfl
    | cons b l => exact absurd (hhead.symm.trans hl.linked.1) (by simp)
  subst hnil
  exact Finset.eq_empty_of_forall_notMem fun b hb => absurd ((hl.mem b).mpr hb) List.not_mem_nil

theorem Bio.chain_eq (b : Bio) : b.chain = .towrite ∨ b.chain = .toread := by
  unfold chain
  split
  · exact .inl rfl
  · exact .inr rfl

theorem inv_move (hI : Inv k rest) {source target : Chain} (hne : source ≠ target)
    (hempty : k.heap.head target dev = none) (htarget : ∀ b : Bio, b.chain ≠ target) :
    Inv (k.move source target dev) rest := by
  have hnext : (k.move source target dev).heap.biNext = k.heap.biNext := by
    funext b
    simp [Core.move, Heap.set]
  -- the chain a bio was on before
  have hback : ∀ c d b, b ∈ (k.move source target dev).attached c d →
      d = dev ∧ c = target ∧ b ∈ k.attached source d ∨
        ¬ (d = dev ∧ c = source) ∧ ¬ (d = dev ∧ c = target) ∧ b ∈ k.attached c d := by
    intro c d b hb
    simp only [Core.move] at hb
    split at hb
    next hd =>
      split at hb
      next => exact absurd hb (Finset.notMem_empty b)
      next hc =>
        split at hb
        next hc' =>
          rw [hI.attached_of_head_none hempty, Finset.union_empty] at hb
          exact .inl ⟨hd, hc', hd ▸ hb⟩
        next hc' => exact .inr ⟨fun h => hc h.2, fun h => hc' h.2, hb⟩
    next hd => exact .inr ⟨fun h => hd h.1, fun h => hd h.1, hb⟩
  refine hI.transfer hnext rfl rfl ?_ ?_ ?_ ?_
  · intro c d
    by_cases hd : d = dev
    · subst hd
      by_cases hc : c = source
      · subst hc
        have hatt : (k.move c target d).attached c d = ∅ := by simp [Core.move]
        rw [hatt]
        exact ⟨[], chainAt_nil (by simp [Core.move, Heap.set])⟩
      by_cases hc' : c = target
      · subst hc'
        have hatt : (k.move source c d).attached c d = k.attached source d := by
          simp [Core.move, hc, hI.attached_of_head_none hempty]
        have hhead : (k.move source c d).heap.head c d = k.heap.head source d := by
          simp [Core.move, Heap.set, hne]
        obtain ⟨l, hl⟩ := hI.chain source d
        refine ⟨l, ?_, hl.ordered, hl.inside, fun b => by rw [hatt, hl.mem]⟩
        rw [hhead]
        exact hl.linked.congr fun b _ _ => congrFun hnext b
      · obtain ⟨l, hl⟩ := hI.chain c d
        refine ⟨l, hl.congr ?_ ?_ fun b _ _ => congrFun hnext b⟩
        · simp [Core.move, Heap.set, Ne.symm hc, Ne.symm hc']
        · simp [Core.move, hc, hc']
    · obtain ⟨l, hl⟩ := hI.chain c d
      refine ⟨l, hl.congr ?_ ?_ fun b _ _ => congrFun hnext b⟩
      · simp [Core.move, Heap.set, Ne.symm hd]
      · simp [Core.move, hd]
  · intro c d b hb
    rcases hback c d b hb with ⟨-, -, hmem⟩ | ⟨-, -, hmem⟩
    · exact ⟨source, hmem⟩
    · exact ⟨c, hmem⟩
  · intro c c' d b hb hb'
    rcases hback c d b hb with ⟨hd, rfl, hmem⟩ | ⟨hs, ht, hmem⟩ <;>
      rcases hback c' d b hb' with ⟨hd', rfl, hmem'⟩ | ⟨hs', ht', hmem'⟩
    · rfl
    · exact absurd ⟨hd, (hI.own b source d c' d hmem hmem' rfl).1.symm⟩ hs'
    · exact absurd ⟨hd', (hI.own b c d source d hmem hmem' rfl).1⟩ hs
    · exact (hI.own b c d c' d hmem hmem' rfl).1
  · intro b d a ha
    rcases hback b.chain d a ha with ⟨-, hc, -⟩ | ⟨-, -, hmem⟩
    · exact absurd hc (htarget b)
    · exact hmem

theorem inv_finish (hI : Inv k rest) {c : Chain} {l : List Bio}
    (hl : ChainAt k.heap c dev (k.attached c dev) l) : Inv { k with
      heap := k.heap.set (.head c dev) none
      attached := fun c' d =>
        if c' = c ∧ d = dev then k.attached c d \ l.toFinset else k.attached c' d } rest := by
  have hsub : ∀ c' d, (if c' = c ∧ d = dev then k.attached c d \ l.toFinset
      else k.attached c' d) ⊆ k.attached c' d := by
    intro c' d
    split
    next h =>
      rw [h.1]
      exact Finset.sdiff_subset
    next => exact Finset.Subset.refl _
  refine hI.transfer (funext fun b => by simp [Heap.set]) rfl rfl ?_ ?_ ?_ fun b d => hsub _ d
  · intro c' d
    dsimp only
    by_cases hcd : c' = c ∧ d = dev
    · obtain ⟨rfl, rfl⟩ := hcd
      have hempty : k.attached c' d \ l.toFinset = ∅ :=
        Finset.sdiff_eq_empty_iff_subset.mpr fun b hb => List.mem_toFinset.mpr ((hl.mem b).mpr hb)
      rw [if_pos ⟨rfl, rfl⟩, hempty]
      exact ⟨[], chainAt_nil (k.heap.get_set_self (.head c' d) none)⟩
    · obtain ⟨l', hl'⟩ := hI.chain c' d
      refine ⟨l', hl'.congr ?_ (if_neg hcd) fun b _ _ => by simp [Heap.set]⟩
      refine @Heap.get_set_ne k.heap _ (.head c' d) (fun heq => hcd ?_) none
      obtain ⟨hc, hd⟩ := Slot.head.inj heq
      exact ⟨hc.symm, hd.symm⟩
  · exact fun c' d b hb => ⟨c', hsub c' d hb⟩
  · exact fun c₁ c₂ d b hb hb' => (hI.own b c₁ d c₂ d (hsub c₁ d hb) (hsub c₂ d hb') rfl).1

theorem inv_submit (hI : Inv k rest) (hbi : bi ∉ k.submitted) :
    Inv { k with heap := k.heap.set (.next bi) none, submitted := insert bi k.submitted } rest := by
  have hkeep : ∀ b, b ≠ bi → (k.heap.set (.next bi) none).biNext b = k.heap.biNext b :=
    fun b hb => @Heap.get_set_ne k.heap _ (.next b) (fun heq => hb (Slot.next.inj heq).symm) none
  constructor
  case chain =>
    intro c d
    obtain ⟨l, hl⟩ := hI.chain c d
    refine ⟨l, hl.congr (by simp [Heap.set]) rfl fun b hb _ => hkeep b ?_⟩
    -- a bio on a chain was submitted
    rintro rfl
    have hdone := hI.done c d b ((hl.mem b).mp hb)
    rw [(hI.unsubmitted b hbi).1] at hdone
    exact Finset.notMem_empty _ hdone
  case done => exact hI.done
  case own => exact hI.own
  case fresh =>
    intro b hb d hlow hhigh hundone
    by_cases heq : b = bi
    · subst heq
      exact k.heap.get_set_self (.next b) none
    · exact (hkeep b heq).trans
        (hI.fresh b (Finset.mem_of_mem_insert_of_ne hb heq) d hlow hhigh hundone)
  case unsubmitted =>
    exact fun b hb => hI.unsubmitted b fun hmem => hb (Finset.mem_insert_of_mem hmem)
  case nodup => exact hI.nodup
  case todo => exact fun b d hd => ⟨(hI.todo b d hd).inside, (hI.todo b d hd).undone,
    (hI.todo b d hd).clear⟩
  case apart => exact hI.apart

end Steps

/-! ## Runs -/

/-- What holds between the calls; only writes drop the lock. -/
structure StateInv (s : State) : Prop where
  core : Inv s.core s.rest
  bug : s.bug = false
  writes : ∀ b, s.rest b ≠ [] → b.write = true

section Runs

variable {bitmap : Bool} {s s' : State}

theorem attachAll_writes {bi : Bio} : ∀ {devs : List R5dev} {s : State},
    (∀ b, s.rest b ≠ [] → b.write) → ∀ b, (attachAll bitmap s bi devs).rest b ≠ [] → b.write := by
  intro devs
  induction devs with
  | nil =>
    intro s hw b hb
    by_cases heq : b = bi
    · subst heq
      exact absurd (update_self ..) hb
    · rw [show (attachAll bitmap s bi []).rest b = s.rest b from update_of_ne heq _ _] at hb
      exact hw b hb
  | cons dev devs ih =>
    intro s hw b hb
    rw [attachAll] at hb
    split at hb
    · exact hw b hb
    next k _ =>
      split at hb
      next hdrop =>
        by_cases heq : b = bi
        · exact heq ▸ hdrop.2.1
        · dsimp only at hb
          rw [update_of_ne heq] at hb
          exact hw b hb
      next => exact @ih { s with core := k } hw b hb

/-- A call that found no overlap may attach its pages. -/
theorem inv_add (hI : StateInv s) {bi : Bio} {devs : List R5dev} (hcall : Called s bi devs)
    (hclear : ∀ dev ∈ devs, ∀ a ∈ s.core.attached bi.chain dev,
      a.endSector ≤ bi.biSector ∨ bi.endSector ≤ a.biSector)
    (hfree : Undisturbed s (.add bi devs)) : Inv s.core (update s.rest bi devs) := by
  obtain ⟨hsub, -, hnodup, hpages⟩ := hcall
  -- the suspended calls are writes, and their bios were submitted
  have hother : ∀ b, b ≠ bi → b.chain = bi.chain → ∀ dev ∈ devs, dev ∈ s.rest b →
      b.endSector ≤ bi.biSector ∨ bi.endSector ≤ b.biSector := by
    intro b hb hchain dev hdev hrest
    have hne : s.rest b ≠ [] := List.ne_nil_of_mem hrest
    have hwrite : bi.write := by
      have hbw := hI.writes b hne
      unfold Bio.chain at hchain
      rw [if_pos hbw] at hchain
      by_contra hno
      rw [if_neg hno] at hchain
      exact absurd hchain (by decide)
    have hbsub : b ∈ s.core.submitted := by
      by_contra hno
      exact hne (hI.core.unsubmitted b hno).2
    exact (hfree hwrite b hbsub hb dev hdev hrest).symm
  constructor
  case chain => exact hI.core.chain
  case done => exact hI.core.done
  case own => exact hI.core.own
  case fresh => exact hI.core.fresh
  case unsubmitted =>
    intro b hb
    have hne : b ≠ bi := fun heq => hb (heq ▸ hsub)
    rw [update_of_ne hne]
    exact hI.core.unsubmitted b hb
  case nodup =>
    intro b
    by_cases hb : b = bi
    · subst hb
      rwa [update_self]
    · rw [update_of_ne hb]
      exact hI.core.nodup b
  case todo =>
    intro b dev hdev
    by_cases hb : b = bi
    · subst hb
      rw [update_self] at hdev
      obtain ⟨hlow, hhigh, hundone⟩ := hpages dev hdev
      exact ⟨⟨hlow, hhigh⟩, hundone, hclear dev hdev⟩
    · rw [update_of_ne hb] at hdev
      exact hI.core.todo b dev hdev
  case apart =>
    intro b b' hne hchain dev hdev hdev'
    by_cases hb : b = bi
    · subst hb
      rw [update_self] at hdev
      rw [update_of_ne hne.symm] at hdev'
      exact (hother b' hne.symm hchain.symm dev hdev hdev').symm
    · rw [update_of_ne hb] at hdev
      by_cases hb' : b' = bi
      · subst hb'
        rw [update_self] at hdev'
        exact hother b hb hchain dev hdev' hdev
      · rw [update_of_ne hb'] at hdev'
        exact hI.core.apart b b' hne hchain dev hdev hdev'

theorem inv_step (hI : StateInv s) {e : Event} (hfree : Undisturbed s e)
    (hs : step bitmap s e = some s') : StateInv s' := by
  obtain ⟨-, hs⟩ := Option.ite_none_left_eq_some.mp hs
  cases e with
  | submit bi =>
    obtain ⟨hbi, rfl⟩ := guard_eq_some.mp hs
    exact ⟨inv_submit hI.core hbi, hI.bug, hI.writes⟩
  | add bi devs =>
    obtain ⟨hcall, hs⟩ := Option.ite_none_left_eq_some.mp hs
    rw [not_not] at hcall
    obtain ⟨o, ho, hclear⟩ := anyOverlaps_eq_some hI.core fun dev hdev => (hcall.2.2.2 dev hdev).1
    rw [ho] at hs
    cases o with
    | true => exact Option.some.inj hs ▸ hI
    | false =>
      cases hs
      obtain ⟨hcore, hbug⟩ := @inv_attachAll bi bitmap devs s
        (inv_add hI hcall (hclear rfl) hfree) hcall.1 hI.bug
      exact ⟨hcore, hbug, attachAll_writes hI.writes⟩
  | resume bi =>
    obtain ⟨hne, rfl⟩ := guard_eq_some.mp hs
    have hsub : bi ∈ s.core.submitted := by
      by_contra hno
      exact hne (hI.core.unsubmitted bi hno).2
    have hrest : Inv s.core (update s.rest bi (s.rest bi)) := by
      rw [update_eq_self]
      exact hI.core
    obtain ⟨hcore, hbug⟩ := @inv_attachAll bi bitmap _ s hrest hsub hI.bug
    exact ⟨hcore, hbug, attachAll_writes hI.writes⟩
  | biofill dev =>
    obtain ⟨hread, rfl⟩ := guard_eq_some.mp hs
    refine ⟨inv_move hI.core (by decide) (not_not.mp hread) fun b => ?_, hI.bug, hI.writes⟩
    rcases b.chain_eq with h | h <;> rw [h] <;> decide
  | biodrain dev =>
    obtain ⟨hwritten, rfl⟩ := guard_eq_some.mp hs
    refine ⟨inv_move hI.core (by decide) (not_not.mp hwritten) fun b => ?_, hI.bug, hI.writes⟩
    rcases b.chain_eq with h | h <;> rw [h] <;> decide
  | finish c dev =>
    obtain ⟨l, hl⟩ := hI.core.chain c dev
    dsimp only at hs
    rw [hl.walk_eq] at hs
    cases hs
    exact ⟨inv_finish hI.core hl, hI.bug, hI.writes⟩

theorem inv_start (garbage : Bio → Option Bio) : StateInv (start garbage) where
  core :=
    { chain := fun _ _ => ⟨[], chainAt_nil rfl⟩
      done := fun _ _ _ hb => absurd hb (Finset.notMem_empty _)
      own := fun _ _ _ _ _ hb => absurd hb (Finset.notMem_empty _)
      fresh := fun _ hb => absurd hb (Finset.notMem_empty _)
      unsubmitted := fun _ _ => ⟨rfl, rfl⟩
      nodup := fun _ => List.nodup_nil
      todo := fun _ _ hd => absurd hd List.not_mem_nil
      apart := fun _ _ _ _ _ hd => absurd hd List.not_mem_nil }
  bug := rfl
  writes := fun _ h => absurd rfl h

end Runs

/-- **Chains stay well formed.** In a run in which no write is added to a page that a
suspended call has still to add an overlapping one to, every chain holds the bios attached
to its page in order, and no `BUG_ON` fires. -/
theorem chains_wellFormed (bitmap : Bool) (garbage : Bio → Option Bio) (es : List Event) (s : State)
    (halong : Along (step bitmap) Undisturbed (start garbage) es)
    (hrun : run (step bitmap) (start garbage) es = some s) : WellFormed s := by
  have hI : StateInv s := run_preserves (I := StateInv)
    (fun _ _ _ hI hfree hs => inv_step hI hfree hs) (inv_start garbage) halong hrun
  exact hI.core.wellFormed hI.bug

section Examples

/-- Devices 0, 1 and 2 of a stripe, in an array with chunks of one page. -/
def pageDev (i : Nat) : R5dev := ⟨i, i * stripeSectors, Nat.dvd_mul_left _ _⟩

def longWrite : Bio := ⟨0, 0, 24, by decide, true⟩

def secondPage : Bio := ⟨1, 8, 16, by decide, true⟩

def thirdPage : Bio := ⟨2, 16, 24, by decide, true⟩

/-- The first two pages up to the middle of the second, and the rest of it. -/
def firstPart : Bio := ⟨3, 0, 12, by decide, true⟩

def secondPart : Bio := ⟨4, 12, 16, by decide, true⟩

/-- A write is added to a page between the pages of a call that dropped the lock. -/
def apartRun : List Event :=
  [.submit firstPart, .submit secondPart, .add firstPart [pageDev 0, pageDev 1],
    .add secondPart [pageDev 1], .resume firstPart]

theorem chains_wellFormed_apart : Along (step true) Undisturbed (start fun _ => none) apartRun ∧
    ∃ s, run (step true) (start fun _ => none) apartRun = some s ∧
      walk s.core.heap (pageDev 1) maxWalk (s.core.heap.head .towrite (pageDev 1)) =
        some [firstPart, secondPart] ∧ WellFormed s := by
  have halong : Along (step true) Undisturbed (start fun _ => none) apartRun := by decide +kernel
  refine ⟨halong, exists_of_any (fun s =>
    walk s.core.heap (pageDev 1) maxWalk (s.core.heap.head .towrite (pageDev 1)) =
      some [firstPart, secondPart]) (by decide +kernel) fun s hs hwalk => ?_⟩
  exact ⟨hwalk, chains_wellFormed true (fun _ => none) apartRun s halong hs⟩

/-- Both writes overlap the long one, which is not looked for again. -/
def overlapRun (devs : List R5dev) : List Event :=
  [.submit longWrite, .submit secondPage, .submit thirdPage, .add longWrite devs,
    .add secondPage [pageDev 1], .add thirdPage [pageDev 2], .resume longWrite]

/-- With a bitmap, a write that overlaps a call between two of its pages is lost: no walk over
the chain comes to it, so it never ends. If there are two of them, the `BUG_ON` fires. -/
theorem overlapping_write_lost :
    (∃ s, run (step true) (start fun _ => none) (overlapRun [pageDev 0, pageDev 1]) = some s ∧
      secondPage ∈ s.core.attached .towrite (pageDev 1) ∧
      walk s.core.heap (pageDev 1) maxWalk (s.core.heap.head .towrite (pageDev 1)) =
        some [longWrite] ∧ ¬ WellFormed s) ∧ ∃ s, run (step true) (start fun _ => none)
      (overlapRun [pageDev 0, pageDev 1, pageDev 2]) = some s ∧ s.bug = true := by
  constructor
  · refine exists_of_any (fun s => secondPage ∈ s.core.attached .towrite (pageDev 1) ∧
      walk s.core.heap (pageDev 1) maxWalk (s.core.heap.head .towrite (pageDev 1)) =
        some [longWrite]) (by decide +kernel) ?_
    rintro s - ⟨hmem, hwalk⟩
    refine ⟨hmem, hwalk, fun hwell => ?_⟩
    obtain ⟨l, hl, hiff, -⟩ := hwell.2 .towrite (pageDev 1)
    obtain rfl := Option.some.inj (hwalk.symm.trans hl)
    exact absurd ((hiff secondPage).mpr hmem) (by decide)
  · exact exists_of_any (fun s => s.bug = true) (by decide +kernel) fun _ _ hbug => hbug

end Examples

end MdRaid.Requests.Chains
