import MdRaid.Resync.Cover

/-!
# The limit `sync_max`

`md_do_sync` compares its cursor with `resync_max` before every call of
`raid5_sync_request`, and waits while the cursor is there. The call itself does not look at
the limit: it was written when a call did one stripe. A call that starts below the limit
marks a whole window of stripes.

The machine is the walk with the limit around it. User space sets the limit through
`max_sync_store`, which refuses a lower one while a sync is running.
-/

namespace MdRaid.Resync.Walk

open Runs List Nat Option

/-! ## Definitions -/

/-- What is written to `sync_max`. -/
inductive MaxSync : Type where
  | max
  | value (sectors : Nat)

inductive MaxSyncError : Type where
  | einval
  | ebusy
deriving DecidableEq, Repr

/-- The new `resync_max`. A sync runs on a writable array only, so `md_is_rdwr` is not asked. -/
def maxSyncStore (chunkSectors resyncMin resyncMax : Nat) (running : Bool) :
    MaxSync → Except MaxSyncError Nat
  | .max => .ok maxSector
  | .value sectors =>
    if sectors < resyncMin then .error .einval
    else if sectors < resyncMax ∧ running = true then .error .ebusy
    else if chunkSectors ≠ 0 ∧ sectors % chunkSectors ≠ 0 then .error .einval
    else .ok sectors

/-- A walk with its limits. `marked` keeps the stripes marked so far, each with the limit at
that time. -/
structure Limited (n : Nat) where
  walk : Mddev n
  resyncMin : Nat
  resyncMax : Nat
  marked : List (Nat × Nat)

inductive LimitedEvent (n : Nat) : Type where
  | walk (e : Event n)
  | maxSyncStore (buf : MaxSync)

section Steps

variable {n : Nat} (conf : Conf) (chunkSectors : Nat)

/-- The end of `md_do_sync`: a completed walk forgets the limits. -/
def Limited.forget (s : Limited n) : Limited n :=
  if s.walk.intr = false then
    { s with
      resyncMin := if conf.requested then 0 else s.resyncMin
      resyncMax := maxSector }
  else { s with resyncMin := if conf.requested then s.walk.currResyncCompleted else s.resyncMin }

def limitedStep (s : Limited n) : LimitedEvent n → Option (Limited n)
  | .walk (.syncRequest env intr) =>
    -- the walk waits at the limit
    if s.resyncMax ≤ s.walk.j then none
    else (step conf s.walk (.syncRequest env intr)).map fun walk =>
      { s with
        walk := walk
        marked := s.marked ++
          (raid5SyncRequest conf env s.walk.j).marked.map fun w => (w, s.resyncMax) }
  | .walk .finish => (step conf s.walk .finish).map fun walk =>
    Limited.forget conf { s with walk := walk }
  | .walk e => (step conf s.walk e).map fun walk => { s with walk := walk }
  | .maxSyncStore buf =>
    match maxSyncStore chunkSectors s.resyncMin s.resyncMax (!s.walk.finished) buf with
    | .ok resyncMax => some { s with resyncMax := resyncMax }
    | .error _ => some s

end Steps

/-- The window of a call at `j` cannot go on behind its stripe `k`: the stripe cache has no more
room or the window is full, the array ends, or the bitmap reports the next stripe as clean. -/
def Stops (conf : Conf) (env : Env) (j k : Nat) : Prop :=
  k = min env.room (syncWindow - 1) ∨ conf.maxSectors ≤ j + (k + 1) * stripeSectors ∨
    (env.bitmap.all fun b => b.window (j + (k + 1) * stripeSectors)) = false

/-- What a call finds keeps it below the limit: it skips, or its window stops at a stripe below
the limit. -/
def StaysBelow (conf : Conf) (env : Env) (j limit : Nat) : Prop :=
  env.TooManyFailed conf ∨ (env.skip conf).isSome = true ∨
    ∃ k, j + k * stripeSectors < limit ∧ Stops conf env j k

/-! ## One window -/

section Window

variable {conf : Conf} {env : Env} {j limit : Nat}

theorem windowLength_le_iff (maxSectors : Nat) (env : Env) : ∀ (room w k : Nat),
    windowLength maxSectors env room w ≤ k ↔ ∃ i ≤ k, i = room ∨
      maxSectors ≤ w + i * stripeSectors ∨
      (env.bitmap.all fun b => b.window (w + i * stripeSectors)) = false := by
  intro room
  induction room with
  | zero =>
    intro w k
    exact ⟨fun _ => ⟨0, zero_le _, .inl rfl⟩, fun _ => zero_le _⟩
  | succ room ih =>
    intro w k
    rw [windowLength]
    split_ifs with h
    · constructor
      · intro hle
        obtain ⟨k, rfl⟩ := Nat.exists_eq_add_of_lt hle
        obtain ⟨i, hi, hstop⟩ := (ih (w + stripeSectors) _).mp (le_refl _)
        refine ⟨i + 1, by omega, ?_⟩
        rw [succ_mul, add_comm (i * _), ← add_assoc]
        exact hstop.imp_left (congrArg (· + 1))
      · rintro ⟨i, hi, hstop⟩
        rcases i with _ | i
        · -- the first stripe of the window does not stop it
          rw [zero_mul, add_zero] at hstop
          rcases hstop with hroom | hend | hclean
          · exact absurd hroom.symm (succ_ne_zero _)
          · exact absurd h.1 (not_lt.mpr hend)
          · exact absurd h.2 (Bool.eq_false_iff.mp hclean)
        · rw [succ_mul, add_comm (i * _), ← add_assoc] at hstop
          have hle := (ih (w + stripeSectors) i).mpr
            ⟨i, le_refl _, hstop.imp_left succ.inj⟩
          omega
    · refine ⟨fun _ => ⟨0, zero_le _, .inr ?_⟩, fun _ => zero_le _⟩
      rw [zero_mul, add_zero]
      rw [not_and_or, not_lt, Bool.not_eq_true] at h
      exact h

/-- **A call stays below the limit exactly when something stops its window there.** -/
theorem marked_below_iff (hj : j < limit) :
    (∀ w ∈ (raid5SyncRequest conf env j).marked, w < limit) ↔ StaysBelow conf env j limit := by
  unfold raid5SyncRequest StaysBelow
  split
  next hfailed => exact ⟨fun _ => .inl hfailed, fun _ _ hw => absurd hw not_mem_nil⟩
  next hfailed =>
    split
    next blocks hskip =>
      rw [hskip]
      exact ⟨fun _ => .inr (.inl rfl), fun _ _ hw => absurd hw not_mem_nil⟩
    next hskip =>
      rw [hskip, or_iff_right hfailed, or_iff_right (by decide)]
      dsimp only
      obtain ⟨d, rfl⟩ := Nat.exists_eq_add_of_lt hj
      -- stripe `k` is below the limit for `k` up to `d / 8`
      have hbelow : ∀ k, j + k * stripeSectors < j + d + 1 ↔ k ≤ d / stripeSectors := by
        intro k
        rw [le_div_iff_mul_le (by decide)]
        omega
      have hmarks : (∀ w ∈ (range (windowLength conf.maxSectors env
            (min env.room (syncWindow - 1)) (j + stripeSectors) + 1)).map
              fun i => j + i * stripeSectors, w < j + d + 1) ↔
          windowLength conf.maxSectors env (min env.room (syncWindow - 1)) (j + stripeSectors) ≤
            d / stripeSectors := by
        constructor
        · intro hall
          exact (hbelow _).mp (hall _ (mem_map_of_mem (mem_range.mpr (lt_succ_self _))))
        · intro hle w hw
          obtain ⟨i, hi, rfl⟩ := mem_map.mp hw
          exact (hbelow i).mpr ((le_of_lt_succ (mem_range.mp hi)).trans hle)
      rw [hmarks, windowLength_le_iff]
      apply exists_congr
      intro k
      rw [hbelow, Stops, succ_mul, add_comm (k * stripeSectors), ← add_assoc]

end Window

/-! ## Runs -/

section Runs

variable {n : Nat} {conf : Conf} {chunkSectors : Nat}

/-- Every call of the run finds something that keeps it below the limit. -/
def CallStays (conf : Conf) (s : Limited n) : LimitedEvent n → Prop
  | .walk (.syncRequest env _) => StaysBelow conf env s.walk.j s.resyncMax
  | _ => True

theorem Limited.forget_marked (s : Limited n) : (s.forget conf).marked = s.marked := by
  unfold Limited.forget
  split <;> rfl

section

variable {s s' : Limited n} {e : LimitedEvent n}

/-- What a step adds to the marks. -/
theorem limitedStep_marked
    (hs : limitedStep conf chunkSectors s e = some s') : s'.marked = s.marked ∨
      ∃ env intr, e = .walk (.syncRequest env intr) ∧ s.walk.j < s.resyncMax ∧
        s'.marked = s.marked ++
          (raid5SyncRequest conf env s.walk.j).marked.map fun w => (w, s.resyncMax) := by
  cases e with
  | maxSyncStore buf =>
    left
    rw [limitedStep] at hs
    split at hs <;> obtain rfl := some.inj hs <;> rfl
  | walk e =>
    cases e with
    | syncRequest env intr =>
      right
      obtain ⟨hlt, hstep⟩ := ite_none_left_eq_some.mp hs
      obtain ⟨walk, -, rfl⟩ := map_eq_some_iff.mp hstep
      exact ⟨env, intr, rfl, Nat.lt_of_not_le hlt, rfl⟩
    | finish =>
      left
      obtain ⟨walk, -, rfl⟩ := map_eq_some_iff.mp hs
      exact Limited.forget_marked _
    | updateSb =>
      left
      obtain rfl := some.inj hs
      rfl
    | checkpoint | setIntr | mdError | doneSync | failedSync =>
      left
      obtain ⟨walk, -, rfl⟩ := map_eq_some_iff.mp hs
      rfl

theorem limitedStep_below (hbelow : ∀ p ∈ s.marked, p.1 < p.2) (hstays : CallStays conf s e)
    (hs : limitedStep conf chunkSectors s e = some s') : ∀ p ∈ s'.marked, p.1 < p.2 := by
  rcases limitedStep_marked hs with hsame | ⟨env, intr, rfl, hlt, hmarked⟩
  · rw [hsame]
    exact hbelow
  · rw [hmarked]
    intro p hp
    rcases mem_append.mp hp with hold | hnew
    · exact hbelow p hold
    · obtain ⟨w, hw, rfl⟩ := mem_map.mp hnew
      exact (marked_below_iff hlt).mpr hstays w hw

end

end Runs

/-- **The limit holds for the calls whose window something stops.** A call below the limit marks
only stripes below it exactly when it skips or its window stops there; and in a run all of whose
calls do, no stripe is ever marked at or beyond the limit of that time. -/
theorem sync_max_respected {n : Nat} (conf : Conf) (chunkSectors : Nat) :
    (∀ env j limit, j < limit → ((∀ w ∈ (raid5SyncRequest conf env j).marked, w < limit) ↔
      StaysBelow conf env j limit)) ∧
    ∀ (walk : Mddev n) (resyncMin resyncMax : Nat) (es : List (LimitedEvent n)) (s : Limited n),
      Along (limitedStep conf chunkSectors) (CallStays conf) ⟨walk, resyncMin, resyncMax, []⟩ es →
      run (limitedStep conf chunkSectors) ⟨walk, resyncMin, resyncMax, []⟩ es = some s →
      ∀ p ∈ s.marked, p.1 < p.2 := by
  constructor
  · intro env j limit hj
    exact marked_below_iff hj
  · intro walk resyncMin resyncMax es s halong hrun
    refine run_preserves (I := fun s : Limited n => ∀ p ∈ s.marked, p.1 < p.2) ?_ ?_ halong hrun
    · intro s e s' hbelow hstays hs
      exact limitedStep_below hbelow hstays hs
    · intro p hp
      exact absurd hp not_mem_nil

/-- No bitmap, and room for `room` more stripes. -/
def roomFor (room : Nat) : Env := ⟨0, false, none, room⟩

/-- Before the walk of the two stripes, with the limit between them. -/
def limitedAtEight : Limited 0 := ⟨.start 0 0 Fin.elim0, 0, 8, []⟩

theorem sync_max_respected_fullCache : ∃ s : Limited 0,
    run (limitedStep twoStripes 8) limitedAtEight [.walk
      (.syncRequest (roomFor 0) false)] = some s ∧
    s.marked = [(0, 8)] ∧ ∀ p ∈ s.marked, p.1 < p.2 := by
  refine ⟨_, rfl, rfl, ?_⟩
  refine (sync_max_respected twoStripes 8).2 (.start 0 0 Fin.elim0) 0 8
    [.walk (.syncRequest (roomFor 0) false)] _ ⟨?_, fun _ _ => trivial⟩ rfl
  exact .inr (.inr ⟨0, by decide, .inl rfl⟩)

/-- With room in the stripe cache the first call marks the stripe at the limit, a limit that
`max_sync_store` accepted. -/
theorem sync_max_overstepped : maxSyncStore 8 0 maxSector false (.value 8) = .ok 8 ∧
    ∃ s : Limited 0, run (limitedStep twoStripes 8) limitedAtEight
      [.walk (.syncRequest (roomFor 5) false)] = some s ∧ (8, 8) ∈ s.marked :=
  ⟨rfl, _, rfl, by decide⟩

end MdRaid.Resync.Walk
