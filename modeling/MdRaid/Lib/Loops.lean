import Mathlib

/-!
# Counting loops and loops that write one entry per step

`down n` is the index sequence of `for (i = n; i--; )`. A loop that collects
values along it contributes a finite sum, whatever the order; a loop that writes
one entry of a table per step leaves in each entry what the last step for that
entry wrote.
-/

namespace MdRaid.Loops

open Function List Finset

/-- `n - 1, ..., 1, 0`. -/
def down (n : Nat) : List Nat := (List.range n).reverse

@[simp] theorem down_zero : down 0 = [] := rfl

theorem down_succ (n : Nat) : down (n + 1) = n :: down n := by
  simp [down, range_succ]

@[simp] theorem mem_down {n i : Nat} : i ∈ down n ↔ i < n := by
  simp [down]

theorem nodup_down (n : Nat) : (down n).Nodup := by
  simpa [down] using nodup_range

/-- The sum of the values collected by a descending loop. -/
theorem sum_filterMap_down {α M : Type*} [AddCommMonoid M] (sel : Nat → Option α) (f : α → M) :
    ∀ n : Nat, (((down n).filterMap sel).map f).sum = ∑ i ∈ range n, (sel i).elim 0 f
  | 0 => rfl
  | n + 1 => by
    rw [down_succ, Finset.sum_range_succ, ← sum_filterMap_down sel f n]
    cases h : sel n with
    | none => simp [h]
    | some a => simp [h, add_comm]

/-- Horner's rule along a descending loop. -/
theorem foldl_horner_down {R : Type*} [CommSemiring R] (a : R) (d : Nat → R) :
    ∀ (n : Nat) (q : R), (down n).foldl (fun q z => a * q + d z) q =
      a ^ n * q + ∑ z ∈ range n, a ^ z * d z
  | 0, q => by simp
  | n + 1, q => by
    rw [down_succ, List.foldl_cons, foldl_horner_down a d n, Finset.sum_range_succ, mul_add,
      ← mul_assoc, ← pow_succ, add_right_comm, add_assoc]

/-- A descending loop that accumulates a sum. -/
theorem foldl_add_down {M : Type*} [AddCommMonoid M] (d : Nat → M) :
    ∀ (n : Nat) (p : M), (down n).foldl (fun p z => p + d z) p = p + ∑ z ∈ range n, d z
  | 0, p => by simp
  | n + 1, p => by
    rw [down_succ, List.foldl_cons, foldl_add_down d n, Finset.sum_range_succ, add_assoc,
      add_comm (d n)]

/-! ## Invariants -/

/-- What one element of the list establishes and the others keep holds at the end. -/
theorem foldl_of_mem {σ β : Type*} {f : σ → β → σ} {I P : σ → Prop} {x : β} :
    ∀ {l : List β} {s : σ}, x ∈ l → I s → (∀ s, ∀ y ∈ l, I s → I (f s y)) →
      (∀ s, I s → P (f s x)) → (∀ s, ∀ y ∈ l, I s → P s → P (f s y)) → P (l.foldl f s)
  | y :: l, s, hx, hi, hI, hset, hkeep => by
    have hI' : ∀ s, ∀ z ∈ l, I s → I (f s z) := fun s z hz => hI s z (mem_cons_of_mem y hz)
    have hkeep' : ∀ s, ∀ z ∈ l, I s → P s → P (f s z) :=
      fun s z hz => hkeep s z (mem_cons_of_mem y hz)
    have hi' := hI s y mem_cons_self hi
    rw [foldl_cons]
    rcases mem_cons.mp hx with rfl | hx
    · have hboth := foldlRecOn (motive := fun s => I s ∧ P s) l f ⟨hi', hset s hi⟩
        fun t ht z hz => ⟨hI' t z hz ht.1, hkeep' t z hz ht.1 ht.2⟩
      exact hboth.2
    · exact foldl_of_mem hx hi' hI' hset hkeep'

/-! ## Tables -/

section Table

variable {ε κ β : Type*} [DecidableEq κ]

/-- One pass over `l`, writing `val e` at `key e` for the selected entries. -/
def writeAll (sel : ε → Bool) (key : ε → κ) (val : ε → β) (l : List ε) (t : κ → β) : κ → β :=
  l.foldl (fun t e => if sel e then update t (key e) (val e) else t) t

variable {sel : ε → Bool} {key : ε → κ} {val : ε → β}

theorem writeAll_of_not_mem {k : κ} : ∀ {l : List ε} {t : κ → β},
    (∀ e ∈ l, sel e → key e ≠ k) → writeAll sel key val l t k = t k
  | [], _, _ => rfl
  | e :: l, t, h => by
    have htail := writeAll_of_not_mem (l := l)
      (t := if sel e then update t (key e) (val e) else t)
      fun e' he' => h e' (mem_cons_of_mem e he')
    refine htail.trans ?_
    by_cases hs : sel e
    · have hne := h e mem_cons_self hs
      simp [hs, update_of_ne hne.symm]
    · simp [hs]

theorem writeAll_of_mem {e : ε} : ∀ {l : List ε} {t : κ → β},
    (l.map key).Nodup → e ∈ l → sel e → writeAll sel key val l t (key e) = val e
  | e' :: l, t, hnd, he, hs => by
    rw [List.map_cons, List.nodup_cons] at hnd
    rcases mem_cons.mp he with rfl | hmem
    · have hrest : writeAll sel key val l (update t (key e) (val e)) (key e) =
          (update t (key e) (val e)) (key e) :=
        writeAll_of_not_mem fun e'' he'' _ heq => hnd.1 (heq ▸ mem_map_of_mem he'')
      rw [update_self] at hrest
      simpa [writeAll, hs] using hrest
    · exact writeAll_of_mem (l := l)
        (t := if sel e' then update t (key e') (val e') else t) hnd.2 hmem hs

end Table

end MdRaid.Loops
