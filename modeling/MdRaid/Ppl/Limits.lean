import MdRaid.Ppl.Log

/-!
# The limits of a partial parity log

An io unit has room in the header page for its entries and in the log for its partial parity,
and its bios stay in the area of the log. Both hold because the space of a unit is a whole
number of pages, so that the tests for equality in `ppl_log_stripe` come in time, and because
a unit of full space fits into the area.
-/

namespace MdRaid.Ppl

open Runs IoUnit List Option Nat

/-! ## Units keep to their limits -/

namespace IoUnit

/-- A unit of a log with `space` bytes for the partial parity of a unit. -/
structure Ok (space : Nat) (io : IoUnit) : Prop where
  entries : io.entries.length ≤ pplHdrMaxEntries
  pages : io.ppSize = pageSize * io.pages
  total : io.ppSize = (io.entries.map (·.ppSize)).sum
  whole : ∀ e ∈ io.entries, pageSize ∣ e.ppSize
  space : io.ppSize ≤ space

theorem ok_new {space seq : Nat} : (pplNewIounit seq).Ok space where
  entries := zero_le _
  pages := rfl
  total := rfl
  whole := fun _ he => (by cases he)
  space := zero_le _

section

variable (chunkSectors : Nat) (io : IoUnit) (sh : Stripe)
include chunkSectors io sh

/-- The stripe is counted in the newest entry, which may be a new one. -/
theorem add_entries : (∃ last rest, io.entries = last :: rest ∧
      (io.add chunkSectors sh).entries = last.grow sh :: rest) ∨
    (io.add chunkSectors sh).entries = (Entry.fresh sh).grow sh :: io.entries := by
  simp only [add]
  split
  · rename_i last rest shLast stripes hentries hstripes
    split
    · exact .inl ⟨last, rest, hentries, rfl⟩
    · exact .inr (by rw [hentries])
  · exact .inr rfl

theorem length_entries_add : (io.add chunkSectors sh).entries.length ≤ io.entries.length + 1 := by
  obtain ⟨last, rest, hio, hadd⟩ | hadd := add_entries chunkSectors io sh
  · rw [hadd, hio]
    exact le_succ _
  · rw [hadd]
    exact le_refl _

theorem pages_add :
    pageSize * (io.add chunkSectors sh).pages = pageSize * io.pages + sh.ppSize := by
  simp only [pages, add, Stripe.ppSize, countP_cons]
  cases sh.fullWrite <;> rfl

end

/-- **A unit that is not full has room for one more stripe.** The space is a number of pages,
so that the test for equality comes in time. -/
theorem Ok.add {space chunkSectors : Nat} {io : IoUnit} {sh : Stripe} (h : io.Ok space)
    (hspace : space % pageSize = 0) (hbits : space < 2 ^ 32) (hroom : io.ppSize ≠ space)
    (hentries : io.entries.length ≠ pplHdrMaxEntries) : (io.add chunkSectors sh).Ok space := by
  have hpage : sh.ppSize ≤ pageSize := by
    unfold Stripe.ppSize
    split
    · exact zero_le _
    · exact le_refl _
  have hfits : io.ppSize + pageSize ≤ space := by
    have hle := h.space
    have hpages := h.pages
    simp only [pageSize] at *
    omega
  have hsize : (io.add chunkSectors sh).ppSize = io.ppSize + sh.ppSize :=
    mod_eq_of_lt (by omega)
  -- the sizes of the entries are part of that of the unit, and do not overflow either
  have hgrow (e : Entry) (he : e.ppSize ≤ io.ppSize) : (e.grow sh).ppSize = e.ppSize + sh.ppSize :=
    mod_eq_of_lt (by omega)
  have htotal := h.total
  constructor
  · exact (length_entries_add ..).trans (lt_of_le_of_ne h.entries hentries)
  · rw [hsize, pages_add, h.pages]
  · obtain ⟨last, rest, hio, hadd⟩ | hadd := add_entries chunkSectors io sh
    · rw [hio, map_cons, sum_cons] at htotal
      rw [hsize, hadd, map_cons, sum_cons, hgrow last (by omega)]
      omega
    · rw [hsize, hadd, map_cons, sum_cons, hgrow _ (zero_le _), ← htotal]
      exact (add_comm ..).trans (congrArg (· + _) (zero_add _).symm)
  · have hsh : pageSize ∣ sh.ppSize := by
      unfold Stripe.ppSize
      split
      · exact dvd_zero _
      · exact dvd_refl _
    intro e he
    obtain ⟨last, rest, hio, hadd⟩ | hadd := add_entries chunkSectors io sh
    · rw [hadd] at he
      rw [hio, map_cons, sum_cons] at htotal
      rcases mem_cons.mp he with rfl | hrest
      · rw [hgrow last (by omega)]
        exact dvd_add (h.whole last (by simp [hio])) hsh
      · exact h.whole e (by simp [hio, hrest])
    · rw [hadd] at he
      rcases mem_cons.mp he with rfl | hold
      · rw [hgrow _ (zero_le _)]
        exact dvd_add (dvd_zero _) hsh
      · exact h.whole e hold
  · rw [hsize]
    omega

/-! ### The bios of a unit are one behind the other -/

theorem addPage_stop (fits : Bool) (bio : Bio) (done : List Bio) :
    (addPage fits bio done).1.sector + (addPage fits bio done).1.sectors =
      bio.sector + bio.sectors + stripeSectors := by
  cases fits
  · rfl
  · exact (add_assoc ..).symm

theorem fill_stop (fits : Nat → Bool) (sector n : Nat) :
    (fill fits sector n).1.sector + (fill fits sector n).1.sectors =
      sector + pplHeaderSectors + stripeSectors * n := by
  induction n with
  | zero => rfl
  | succ n ih => rw [fill, addPage_stop, ih, mul_succ, add_assoc]

theorem fill_inside (fits : Nat → Bool) (sector n : Nat) :
    ∀ bio ∈ (fill fits sector n).1 :: (fill fits sector n).2, sector ≤ bio.sector ∧
      bio.sector + bio.sectors ≤ sector + pplHeaderSectors + stripeSectors * n := by
  induction n with
  | zero =>
    intro bio hbio
    rw [mem_singleton.mp hbio]
    exact ⟨le_refl _, le_refl _⟩
  | succ n ih =>
    have hstop := fill_stop fits sector (n + 1)
    have hlast := ih _ mem_cons_self
    intro bio hbio
    rcases mem_cons.mp hbio with rfl | hdone
    · refine ⟨?_, hstop.le⟩
      rw [fill, addPage]
      split
      · exact hlast.1
      · exact hlast.1.trans (le_add_right _ _)
    · have hold : bio ∈ (fill fits sector n).1 :: (fill fits sector n).2 := by
        rw [fill, addPage] at hdone
        split at hdone
        · exact mem_cons_of_mem _ hdone
        · exact hdone
      obtain ⟨hstart, hend⟩ := ih bio hold
      refine ⟨hstart, hend.trans ?_⟩
      rw [mul_succ]
      omega

/-- The sectors a unit takes on the disk. -/
def length (io : IoUnit) : Nat := (pplHeaderSize + io.ppSize) / 512

theorem sectors_eq_length {io : IoUnit} (h : io.ppSize ≤ pplSpaceSize) :
    io.sectors = io.length := by
  rw [sectors, mod_eq_of_lt, length]
  simp only [pplHeaderSize, pplSpaceSize] at *
  omega

theorem Ok.length_eq {space : Nat} {io : IoUnit} (h : io.Ok space) :
    io.length = pplHeaderSectors + stripeSectors * io.pages := by
  rw [length, h.pages]
  simp only [pplHeaderSize, pplHeaderSectors, stripeSectors, pageSize]
  omega

end IoUnit

/-! ## The log keeps to its area -/

namespace Log

/-- The sizes of a log: a unit of full space fits into the area. -/
structure Sized (log : Log) : Prop where
  pages : log.entrySpace % pageSize = 0
  bits : log.entrySpace < 2 ^ 32
  fits : log.entrySpace + pplHeaderSize ≤ log.pplSize * 512
  small : log.pplSize ≤ 2 ^ 31
  multi : log.useMultippl = true → log.entrySpace = pplSpaceSize

/-- The next unit is to go into the area. -/
structure Placed (log : Log) : Prop where
  low : log.pplSector ≤ log.nextIoSector
  high : log.nextIoSector ≤ log.pplSector + log.pplSize
  rewound : log.useMultippl = false → log.nextIoSector = log.pplSector

/-- The order of the units: only the first may be submitted, and each is as `U` says. -/
structure Queued (U : IoUnit → Prop) (log : Log) : Prop where
  units : ∀ io ∈ log.ioList, U io
  waiting : ∀ io ∈ log.queue.tail, io.submitted = false
  accepting : ∀ io ∈ log.currentIo, io.submitted = false

structure Good (area : Extent) (log : Log) : Prop where
  sized : log.Sized
  page : pageSize ≤ log.entrySpace
  extent : area = ⟨log.pplSector, log.pplSector + log.pplSize⟩
  placed : log.Placed
  queued : Queued (IoUnit.Ok log.entrySpace) log
  inside : ∀ bio ∈ log.bios, area.start ≤ bio.sector ∧ bio.sector + bio.sectors ≤ area.stop

variable {area : Extent} {log log' : Log} {U : IoUnit → Prop}

variable {io : IoUnit} {sh : Stripe} {size : Nat}

theorem mem_ioList : io ∈ log.ioList ↔ io ∈ log.queue ∨ log.currentIo = some io := by
  rw [ioList, mem_append, mem_toList]

/-- Only the first unit of the list can be under way. -/
theorem Queued.single (h : Queued U log) : (log.ioList.filter (·.submitted)).length ≤ 1 := by
  have hcurrent : log.currentIo.toList.filter (·.submitted) = [] := by
    rw [filter_eq_nil_iff]
    intro io hio
    simp [h.accepting io (mem_toList.mp hio)]
  rw [ioList, filter_append, hcurrent, append_nil]
  have hwaiting := h.waiting
  cases hqueue : log.queue with
  | nil => exact zero_le _
  | cons io rest =>
    rw [hqueue, tail_cons] at hwaiting
    have hrest : rest.filter (·.submitted) = [] := by
      rw [filter_eq_nil_iff]
      intro io' hio'
      simp [hwaiting io' hio']
    rw [filter_cons, hrest]
    split
    · exact le_refl _
    · exact zero_le _

theorem Good.inLimits (h : Good area log) : log.InLimits area where
  entries := fun io hio => (h.queued.units io hio).entries
  space := fun io hio => (h.queued.units io hio).space
  single := h.queued.single
  inside := h.inside

/-! ### A stripe is logged -/

/-- A stripe goes to the current unit, or to a new one. -/
theorem pplLogStripe_cases {alloc : Bool} (h : log.pplLogStripe sh alloc = some log') :
    (∃ io, log.currentIo = some io ∧ ¬ log.Full io ∧
      log' = { log with currentIo := some (io.add log.chunkSectors sh) }) ∨
    (alloc ∧ log' =
      { log with
        queue := log.queue ++ log.currentIo.toList
        currentIo := some ((pplNewIounit (log.seq + 1)).add log.chunkSectors sh)
        seq := log.seq + 1 }) := by
  unfold pplLogStripe at h
  split at h
  · rename_i io hio
    rw [filter_eq_some_iff] at hio
    exact .inl ⟨io, hio.1, by simpa using hio.2, (some.inj h).symm⟩
  · split at h
    · exact .inr ⟨‹_›, (some.inj h).symm⟩
    · cases h

theorem step_first (hcurrent : log.currentIo = none) (hdisks : sh.dataDisks ≠ 0) :
    log.step (.logStripe sh true) = some { log with
        queue := log.queue ++ log.currentIo.toList
        currentIo := some ((pplNewIounit (log.seq + 1)).add log.chunkSectors sh)
        seq := log.seq + 1 } := by
  simp only [step, if_neg hdisks, pplLogStripe, hcurrent, filter_none, if_true,
    getD_some]

theorem Queued.logStripe {alloc : Bool} (hq : Queued U log)
    (h : log.pplLogStripe sh alloc = some log')
    (hadd : ∀ io, U io → ¬ log.Full io → U (io.add log.chunkSectors sh))
    (hnew : ∀ seq, U ((pplNewIounit seq).add log.chunkSectors sh)) : Queued U log' := by
  obtain ⟨io, hio, hfull, rfl⟩ | ⟨-, rfl⟩ := pplLogStripe_cases h
  · constructor
    · intro io' hio'
      rcases mem_ioList.mp hio' with hqueue | hcurrent
      · exact hq.units io' (mem_ioList.mpr (.inl hqueue))
      · cases hcurrent
        exact hadd io (hq.units io (mem_ioList.mpr (.inr hio))) hfull
    · exact hq.waiting
    · intro io' hio'
      obtain rfl := some.inj hio'
      exact hq.accepting io hio
  · constructor
    · intro io' hio'
      rcases mem_ioList.mp hio' with hold | hcurrent
      · exact hq.units io' hold
      · cases hcurrent
        exact hnew _
    · intro io' hio'
      have hwaiting := hq.waiting
      cases hqueue : log.queue with
      | nil =>
        rw [hqueue, nil_append] at hio'
        cases hcurrent : log.currentIo <;> simp [hcurrent] at hio'
      | cons first rest =>
        rw [hqueue, cons_append, tail_cons, mem_append] at hio'
        rw [hqueue] at hwaiting
        rcases hio' with hrest | hcurrent
        · exact hwaiting io' hrest
        · exact hq.accepting io' (mem_toList.mp hcurrent)
    · intro io' hio'
      obtain rfl := some.inj hio'
      rfl

theorem Good.logStripe {alloc : Bool} (hgood : Good area log)
    (h : log.pplLogStripe sh alloc = some log') : Good area log' := by
  have hsized := hgood.sized
  have hpage := hgood.page
  have hadd (io : IoUnit) (hio : io.Ok log.entrySpace) (hfull : ¬ log.Full io) :
      (io.add log.chunkSectors sh).Ok log.entrySpace := by
    obtain ⟨hspace, hentries⟩ := not_or.mp hfull
    exact hio.add hsized.pages hsized.bits hspace hentries
  have hqueued := hgood.queued.logStripe h hadd fun seq => by
    apply hadd _ ok_new
    rintro (hspace | hentries)
    · rw [← hspace] at hpage
      exact absurd hpage (show ¬ pageSize ≤ 0 by decide)
    · exact absurd hentries (show 0 ≠ pplHdrMaxEntries by decide)
  obtain ⟨io, -, -, rfl⟩ | ⟨-, rfl⟩ := pplLogStripe_cases h
  all_goals
    exact { hgood with
      sized := { hsized with }, placed := { hgood.placed with }, queued := hqueued }

/-! ### A unit is submitted -/

section

variable (h : log.Placed) (hsized : log.Sized) (hspace : io.ppSize ≤ log.entrySpace)
include h hsized hspace

/-- The place of a unit has room for it. -/
theorem Placed.place_fits : log.pplSector ≤ log.place io ∧
      log.place io + io.length ≤ log.pplSector + log.pplSize := by
  have hfits := hsized.fits
  have hsmall := hsized.small
  obtain ⟨hlow, hhigh, hrewound⟩ := h
  have hroom : io.length ≤ log.pplSize := by
    simp only [IoUnit.length, pplHeaderSize] at *
    omega
  unfold place
  split
  · exact ⟨le_refl _, by omega⟩
  · rename_i hstay
    refine ⟨hlow, ?_⟩
    cases hmulti : log.useMultippl with
    | false =>
      rw [hrewound hmulti]
      omega
    | true =>
      rw [hmulti, sectors_eq_length (hsized.multi hmulti ▸ hspace)] at hstay
      simp only [true_and, not_lt] at hstay
      omega

theorem Placed.submitIounit (gone : Bool) (fits : Nat → Bool) :
    (log.pplSubmitIounit io gone fits).Placed := by
  obtain ⟨hlow, hhigh⟩ := h.place_fits hsized hspace
  unfold pplSubmitIounit
  split
  · exact h
  cases hmulti : log.useMultippl with
  | false =>
    constructor
    · exact hlow
    · exact (le_add_right _ _).trans hhigh
    · intro _
      simp only [place, hmulti, Bool.false_eq_true, false_and, if_false]
      exact h.rewound hmulti
  | true =>
    have hlength := sectors_eq_length (hsized.multi hmulti ▸ hspace)
    constructor
    · exact hlow.trans (le_add_right _ _)
    · exact hlength ▸ hhigh
    · intro hfalse
      cases hfalse

end

/-- The first unit is marked and submitted, if there is one that is not yet. -/
theorem pplSubmitCurrentIo_cases (log : Log) (gone : Bool) (fits : Nat → Bool) :
    (log.pplSubmitCurrentIo gone fits = log ∧ ∀ io ∈ log.ioList.head?, io.submitted) ∨
    ∃ io rest current, log.ioList = io :: rest ++ current.toList ∧ io.submitted = false ∧
      (∀ io' ∈ rest, io' ∈ log.queue.tail) ∧ (∀ io' ∈ current, log.currentIo = some io') ∧
      log.pplSubmitCurrentIo gone fits =
        ({ log with queue := { io with submitted := true } :: rest, currentIo := current } :
          Log).pplSubmitIounit io gone fits := by
  unfold pplSubmitCurrentIo ioList
  split
  · rename_i io rest hqueue
    rw [hqueue]
    split
    · refine .inl ⟨rfl, ?_⟩
      rintro io' hio'
      obtain rfl := some.inj hio'
      assumption
    · rename_i hsub
      refine .inr ⟨io, rest, log.currentIo, rfl, eq_false_of_ne_true hsub, ?_, fun _ h => h, rfl⟩
      exact fun io' hio' => hio'
  · rename_i io hqueue hcurrent
    rw [hqueue, hcurrent]
    split
    · refine .inl ⟨rfl, ?_⟩
      rintro io' hio'
      obtain rfl := some.inj hio'
      assumption
    · rename_i hsub
      refine .inr ⟨io, [], none, rfl, eq_false_of_ne_true hsub, ?_, ?_, rfl⟩
      · exact fun io' hio' => (by cases hio')
      · exact fun io' hio' => (by cases hio')
  · rename_i hqueue hcurrent
    rw [hqueue, hcurrent]
    exact .inl ⟨rfl, fun io hio => (by cases hio)⟩

/-- The list after its first unit has been marked. -/
theorem Queued.mark (h : Queued U log) {rest : List IoUnit}
    {current : Option IoUnit} (hlist : log.ioList = io :: rest ++ current.toList)
    (hrest : ∀ io' ∈ rest, io' ∈ log.queue.tail)
    (hcurrent : ∀ io' ∈ current, log.currentIo = some io')
    (hmark : U io → U { io with submitted := true }) :
    Queued U { log with queue := { io with submitted := true } :: rest, currentIo := current } := by
  have hunits := h.units
  rw [hlist] at hunits
  constructor
  · intro io' hio'
    rcases mem_ioList.mp hio' with hmem | hmem
    · rcases mem_cons.mp hmem with rfl | hmem
      · exact hmark (hunits io mem_cons_self)
      · exact hunits io' (mem_append_left _ (mem_cons_of_mem _ hmem))
    · exact hunits io' (mem_append_right _ (mem_toList.mpr hmem))
  · exact fun io' hio' => h.waiting io' (hrest io' hio')
  · exact fun io' hio' => h.accepting io' (hcurrent io' hio')

theorem Good.submitIounit (hgood : Good area log) (hio : io.Ok log.entrySpace)
    (gone : Bool) (fits : Nat → Bool) : Good area (log.pplSubmitIounit io gone fits) := by
  obtain ⟨hlow, hhigh⟩ := hgood.placed.place_fits hgood.sized hio.space
  have hplaced := hgood.placed.submitIounit hgood.sized hio.space gone fits
  unfold pplSubmitIounit at hplaced ⊢
  split
  · exact hgood
  rw [if_neg ‹_›] at hplaced
  refine { hgood with
    sized := { hgood.sized with }, placed := hplaced, queued := { hgood.queued with },
    inside := ?_ }
  intro bio hbio
  rcases mem_append.mp hbio with hnew | hold
  · obtain ⟨hstart, hstop⟩ := fill_inside fits (log.place io) io.pages bio hnew
    rw [hio.length_eq, ← add_assoc] at hhigh
    rw [hgood.extent]
    exact ⟨hlow.trans hstart, hstop.trans hhigh⟩
  · exact hgood.inside bio hold

theorem Good.submitCurrentIo (hgood : Good area log) (gone : Bool) (fits : Nat → Bool) :
    Good area (log.pplSubmitCurrentIo gone fits) := by
  obtain ⟨hsame, -⟩ | ⟨io, rest, current, hlist, -, hrest, hcurrent, hsubmit⟩ :=
    pplSubmitCurrentIo_cases log gone fits
  · rw [hsame]
    exact hgood
  · have hio : io.Ok log.entrySpace := hgood.queued.units io (by simp [hlist])
    have hmarked : Good area
        { log with queue := { io with submitted := true } :: rest, currentIo := current } :=
      { hgood with
        sized := { hgood.sized with }, placed := { hgood.placed with }
        queued := hgood.queued.mark hlist hrest hcurrent fun h => { h with } }
    rw [hsubmit]
    exact hmarked.submitIounit hio gone fits

/-! ### A unit is finished -/

theorem pplIoUnitFinished_cases {i : Nat} (h : log.pplIoUnitFinished i = some log') :
    ∃ io, log.queue[i]? = some io ∧ io.submitted ∧
      log' = { log with queue := log.queue.eraseIdx i } := by
  unfold pplIoUnitFinished at h
  split at h
  · rename_i io hio
    split at h
    · exact ⟨io, hio, ‹_›, (some.inj h).symm⟩
    · cases h
  · cases h

theorem Queued.finished {i : Nat} (h : Queued U log)
    (hfinished : log.pplIoUnitFinished i = some log') : Queued U log' := by
  obtain ⟨io, hio, hsub, rfl⟩ := pplIoUnitFinished_cases hfinished
  constructor
  · intro io' hio'
    apply h.units
    rcases mem_ioList.mp hio' with hmem | hcurrent
    · exact mem_ioList.mpr (.inl ((eraseIdx_sublist ..).mem hmem))
    · exact mem_ioList.mpr (.inr hcurrent)
  · intro io' hio'
    apply h.waiting
    exact ((eraseIdx_sublist log.queue i).tail).mem hio'
  · exact h.accepting

theorem Good.finished {i : Nat} (hgood : Good area log)
    (h : log.pplIoUnitFinished i = some log') : Good area log' := by
  have hqueued := hgood.queued.finished h
  obtain ⟨io, hio, hsub, rfl⟩ := pplIoUnitFinished_cases h
  exact { hgood with
    sized := { hgood.sized with }, placed := { hgood.placed with }, queued := hqueued }

theorem Good.step {e : Event} (hgood : Good area log) (h : log.step e = some log') :
    Good area log' := by
  cases e with
  | logStripe sh alloc =>
    simp only [Log.step, guard_eq_some] at h
    obtain ⟨-, rfl⟩ := h
    cases hlog : log.pplLogStripe sh alloc with
    | none => exact hgood
    | some log' => exact hgood.logStripe hlog
  | submit gone fits =>
    cases h
    exact hgood.submitCurrentIo gone fits
  | finished i => exact hgood.finished h
  | otherSeq =>
    cases h
    exact { hgood with
      sized := { hgood.sized with }, placed := { hgood.placed with }
      queued := { hgood.queued with } }

theorem pplEntrySpace_eq_zero (h : size % 2 ^ 23 = 8) : pplEntrySpace size = 0 := by
  unfold pplEntrySpace pplBytes pplSpaceSize pplHeaderSize
  split <;> omega

/-- A unit has room for a page unless the bytes of the area, counted in 32 bits, are those of
a header. -/
theorem pageSize_le_pplEntrySpace {rdev : Rdev} (h : Accepted rdev size)
    (hsize : size % 2 ^ 23 ≠ 8) : pageSize ≤ pplEntrySpace size := by
  have hwhole := h.whole
  unfold pplEntrySpace pplBytes pplSpaceSize pplHeaderSize pageSize
  split <;> omega

theorem sized_init {rdev : Rdev} (h : Accepted rdev size) (chunkSectors seq : Nat) :
    (pplInitChildLog rdev size chunkSectors seq).Sized := by
  have hwhole := h.whole
  have hroom := h.room
  have hspace : pplEntrySpace size % pageSize = 0 ∧ pplEntrySpace size < 2 ^ 32 ∧
      pplEntrySpace size + pplHeaderSize ≤ size * 512 := by
    unfold pplEntrySpace pplBytes pplSpaceSize pplHeaderSize pageSize
    split <;> omega
  obtain ⟨hpages, hbits, hfits⟩ := hspace
  refine ⟨hpages, hbits, hfits, h.small, ?_⟩
  intro hmulti
  exact if_pos (of_decide_eq_true hmulti)

theorem placed_init (rdev : Rdev) (size chunkSectors seq : Nat) :
    (pplInitChildLog rdev size chunkSectors seq).Placed :=
  ⟨le_refl _, le_add_right _ _, fun _ => rfl⟩

theorem queued_init (rdev : Rdev) (size chunkSectors seq : Nat) :
    Queued U (pplInitChildLog rdev size chunkSectors seq) := by
  constructor
  all_goals exact fun io hio => (by cases hio)

theorem good_init {rdev : Rdev} (h : Accepted rdev size) (chunkSectors seq : Nat)
    (hsize : size % 2 ^ 23 ≠ 8) :
    Good (rdev.area size) (pplInitChildLog rdev size chunkSectors seq) := by
  refine ⟨sized_init h chunkSectors seq, pageSize_le_pplEntrySpace h hsize, rfl,
    placed_init .., queued_init .., ?_⟩
  exact fun bio hbio => (by cases hbio)

end Log

/-- **The log keeps to its limits and its area, but for two sizes.** When the bytes of the
area, counted in 32 bits, are just those of a header, no partial parity has room in a unit
and the first page goes beyond the space; an area of 2³¹ sectors is not checked against the
data behind it. With every other size, each unit keeps to its limits and each bio to the
area, which is apart from the data and the superblock. -/
theorem log_keeps_limits {rdev : Rdev} {size : Nat} (chunkSectors seq : Nat)
    (h : pplValidateRdev rdev = .ok size) :
    ((∀ es log, run Log.step (pplInitChildLog rdev size chunkSectors seq) es = some log →
        log.InLimits (rdev.area size)) ∧ (rdev.area size).Apart rdev.data ∧
      (rdev.external = false → (rdev.area size).Apart rdev.superblock)) ↔
    size % 2 ^ 23 ≠ 8 ∧ ¬ rdev.ReachesData size := by
  have hacc := accepted_of_validate h
  constructor
  · rintro ⟨hlimits, hdata, -⟩
    refine ⟨fun hsize => ?_, hacc.apart_data.mp hdata⟩
    -- the first stripe that is not written whole
    let sh : Stripe := ⟨0, 0, [0], false⟩
    have hbad := (hlimits [.logStripe sh true] _
      (run_cons.mpr ⟨_, Log.step_first rfl Nat.one_ne_zero, rfl⟩)).space _
      (Log.mem_ioList.mpr (.inr rfl))
    simp only [pplInitChildLog, Log.pplEntrySpace_eq_zero hsize] at hbad
    exact absurd hbad (by simp [add, pplNewIounit, Stripe.ppSize, sh, pageSize])
  · rintro ⟨hsize, hreach⟩
    refine ⟨fun es log hrun => ?_, hacc.apart_data.mpr hreach, hacc.apart_superblock⟩
    exact (run_invariant (fun _ _ _ => Log.Good.step)
      (Log.good_init hacc chunkSectors seq hsize) hrun).inLimits

theorem log_keeps_limits_plain : pplValidateRdev plainRdev = .ok 264 ∧
      ∀ es log, run Log.step (pplInitChildLog plainRdev 264 128 0) es = some log →
        log.InLimits (plainRdev.area 264) :=
  ⟨by decide, ((log_keeps_limits 128 0 (show pplValidateRdev plainRdev = .ok 264 by decide)).mpr
    ⟨by decide, by decide⟩).1⟩

/-- A member of an array with external metadata, whose log starts at `pplSector`. -/
def hugeRdev (pplSector pplSize : Nat) (hsize : pplSize < 2 ^ 32)
    (hsector : pplSector < 2 ^ 63) : Rdev where
  external := true
  dataOffset := 2 ^ 32
  sectors := 4096
  sbStart := 0
  sbSize := 0
  pplSector := pplSector
  pplSize := pplSize
  pplOffset := 0
  size_lt := hsize
  data_lt := by decide
  sector_lt := hsector
  native := fun h => nomatch h

/-- With 2²³ + 8 sectors the space of a unit is zero, and a page of partial parity is logged
in it; an area of 2³¹ sectors that ends in the data is accepted. -/
theorem log_limits_overrun :
    (pplValidateRdev (hugeRdev 0 (2 ^ 23 + 8) (by decide) (by decide)) = .ok (2 ^ 23 + 8) ∧
      (run Log.step
          (pplInitChildLog (hugeRdev 0 (2 ^ 23 + 8) (by decide) (by decide)) (2 ^ 23 + 8) 128 0)
          [.logStripe ⟨0, 2, [0], false⟩ true]).map
        (fun log => (log.entrySpace, log.ioList.map (·.ppSize))) = some (0, [4096])) ∧
    (pplValidateRdev (hugeRdev (2 ^ 32 - 8) (2 ^ 31) (by decide) (by decide)) = .ok (2 ^ 31) ∧
      (hugeRdev (2 ^ 32 - 8) (2 ^ 31) (by decide) (by decide)).ReachesData (2 ^ 31)) := by
  decide

end MdRaid.Ppl
