import Mathlib

/-!
# Runs of a machine

A machine is a partial step function: an event either is possible in a state, and
then determines the next one, or is not. What every step preserves, every run
preserves; when only the steps a condition allows preserve it, so do the runs all
of whose steps are taken under the condition.
-/

namespace MdRaid.Runs

open Option

variable {σ ε : Type*} (step : σ → ε → Option σ)

/-- The state after a sequence of events, if each is possible in its turn. -/
def run : σ → List ε → Option σ
  | s, [] => some s
  | s, e :: es => (step s e).bind fun s' => run s' es

/-- A step behind a guard. -/
theorem guard_eq_some {p : Prop} [Decidable p] {s s' : σ} :
    (if p then none else some s) = some s' ↔ ¬ p ∧ s = s' := by
  rw [ite_none_left_eq_some, some.injEq]

theorem of_guard {p : Prop} [Decidable p] {s s' : σ} (h : (if p then some s else none) = some s') :
    p ∧ s = s' :=
  (ite_none_right_eq_some.mp h).imp_right some.inj

/-- A run on fixed events ends in a state that is found by evaluation to satisfy `p`. -/
theorem exists_of_any {o : Option σ} (p : σ → Prop) [DecidablePred p] {Q : σ → Prop}
    (h : o.any (fun s => decide (p s)) = true) (hQ : ∀ s, o = some s → p s → Q s) :
    ∃ s, o = some s ∧ Q s := by
  obtain ⟨s, hs, hp⟩ := (any_eq_true _ _).mp h
  exact ⟨s, hs, hQ s hs (of_decide_eq_true hp)⟩

/-- Each event is taken in a state in which `C` allows it. -/
def Along (C : σ → ε → Prop) : σ → List ε → Prop
  | _, [] => True
  | s, e :: es => C s e ∧ ∀ s', step s e = some s' → Along C s' es

instance decidableAlong {C : σ → ε → Prop} [∀ s e, Decidable (C s e)] :
    ∀ s es, Decidable (Along step C s es)
  | _, [] => isTrue trivial
  | s, e :: es =>
    match hs : step s e with
    | none => decidable_of_iff (C s e)
        ⟨fun h => ⟨h, fun _ hs' => (nomatch hs.symm.trans hs')⟩, And.left⟩
    | some t =>
      have : Decidable (Along step C t es) := decidableAlong t es
      decidable_of_iff (C s e ∧ Along step C t es)
        ⟨fun h => ⟨h.1, fun _ hs' => some.inj (hs.symm.trans hs') ▸ h.2⟩,
          fun h => ⟨h.1, h.2 t hs⟩⟩

variable {step} {s s' : σ}

theorem run_cons {e : ε} {es : List ε} :
    run step s (e :: es) = some s' ↔ ∃ t, step s e = some t ∧ run step t es = some s' := by
  rw [run, bind_eq_some_iff]

theorem run_append : ∀ {es es' : List ε} {s : σ},
    run step s (es ++ es') = (run step s es).bind fun t => run step t es'
  | [], _, _ => rfl
  | e :: es, es', s => by
    rw [List.cons_append, run, run, bind_assoc]
    congr 1
    funext t
    exact run_append

theorem run_concat {es : List ε} {e : ε} :
    run step s (es ++ [e]) = some s' ↔ ∃ t, run step s es = some t ∧ step t e = some s' := by
  rw [run_append, bind_eq_some_iff]
  simp [run]

variable {C : σ → ε → Prop} {I : σ → Prop}

/-- A property that every allowed step preserves holds after every allowed run. -/
theorem run_preserves (hstep : ∀ s e s', I s → C s e → step s e = some s' → I s') :
    ∀ {es : List ε} {s : σ}, I s → Along step C s es → run step s es = some s' → I s'
  | [], _, hi, _, hrun => some.inj hrun ▸ hi
  | _ :: _, _, hi, halong, hrun => by
    obtain ⟨t, ht, hrest⟩ := run_cons.mp hrun
    exact run_preserves hstep (hstep _ _ _ hi halong.1 ht) (halong.2 t ht) hrest

/-- A property that every step preserves holds after every run. -/
theorem run_invariant (hstep : ∀ s e s', I s → step s e = some s' → I s') :
    ∀ {es : List ε} {s : σ}, I s → run step s es = some s' → I s'
  | [], _, hi, hrun => some.inj hrun ▸ hi
  | _ :: _, _, hi, hrun => by
    obtain ⟨t, ht, hrest⟩ := run_cons.mp hrun
    exact run_invariant hstep (hstep _ _ _ hi ht) hrest

theorem along_concat : ∀ {es : List ε} {e : ε} {s : σ}, Along step C s (es ++ [e]) ↔
      Along step C s es ∧ ∀ t, run step s es = some t → C t e
  | [], e, s => by simp [Along, run]
  | e' :: es, e, s => by
    rw [List.cons_append, Along, Along]
    constructor
    · rintro ⟨hc, hrest⟩
      refine ⟨⟨hc, fun t ht => (along_concat.mp (hrest t ht)).1⟩, fun t hrun => ?_⟩
      obtain ⟨u, hu, hrun⟩ := run_cons.mp hrun
      exact (along_concat.mp (hrest u hu)).2 t hrun
    · rintro ⟨⟨hc, hrest⟩, hlast⟩
      refine ⟨hc, fun t ht => along_concat.mpr ⟨hrest t ht, fun u hu => ?_⟩⟩
      exact hlast u (run_cons.mpr ⟨t, ht, hu⟩)

theorem along_concat_of_run {es : List ε} {e : ε} (hrun : run step s es = some s') :
    Along step C s (es ++ [e]) ↔ Along step C s es ∧ C s' e := by
  rw [along_concat]
  refine and_congr_right fun _ => ⟨fun hc => hc s' hrun, fun hc t ht => ?_⟩
  rw [hrun] at ht
  exact some.inj ht ▸ hc

/-! ## What is bound to happen -/

variable (step) in
/-- Some event changes the state, and whichever does, a state with `P` is reached in the end. -/
inductive Inevitable (P : σ → Prop) : σ → Prop where
  | here {s : σ} (h : P s) : Inevitable P s
  | next {s : σ} (hsome : ∃ e s', step s e = some s' ∧ s' ≠ s)
      (hall : ∀ e s', step s e = some s' → s' ≠ s → Inevitable P s') : Inevitable P s

/-- A rank that every change of the state makes smaller. -/
theorem inevitable_of_rank {P I : σ → Prop} (rank : σ → Nat)
    (hsome : ∀ s, I s → P s ∨ ∃ e s', step s e = some s' ∧ s' ≠ s)
    (hall : ∀ s e s', I s → step s e = some s' → I s' ∧ (s' = s ∨ rank s' < rank s)) :
    ∀ (n : Nat) (s : σ), rank s < n → I s → Inevitable step P s
  | 0, _, hn, _ => absurd hn (Nat.not_lt_zero _)
  | n + 1, s, hn, hI => by
    rcases hsome s hI with hP | hsome'
    · exact .here hP
    · refine .next hsome' fun e s' hs hne => ?_
      obtain ⟨hI', hrank⟩ := hall s e s' hI hs
      exact inevitable_of_rank rank hsome hall n s'
        (Nat.lt_of_lt_of_le (hrank.resolve_left hne) (Nat.le_of_lt_succ hn)) hI'

end MdRaid.Runs
