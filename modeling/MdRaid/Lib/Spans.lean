import Mathlib

/-!
# Spans on a line

A list of spans `[start, stop)` in increasing order and without overlap, as a queue of
requests keeps them: a new span goes before the first one that does not start before it,
if it overlaps none. Going through the list from the left shows how far it covers the line
without a gap.
-/

namespace MdRaid.Spans

open List

variable {β : Type*} (start stop : β → Nat)

/-- The span overlaps one of an ordered list. -/
def overlaps (b : β) : List β → Bool
  | [] => false
  | a :: l =>
    if start a < start b then
      if start b < stop a then true else overlaps b l
    else decide (start a < stop b)

/-- Before the first span that does not start before it. -/
def insert (b : β) : List β → List β
  | [] => [b]
  | a :: l => if start a < start b then a :: insert b l else b :: a :: l

/-- How far the spans cover the line from `s` on, up to the first one that reaches `limit`. -/
def coverTo (limit : Nat) : List β → Nat → Nat
  | [], s => s
  | b :: l, s =>
    if s < limit ∧ start b ≤ s then coverTo limit l (if s ≤ stop b then stop b else s) else s

/-- Nonempty spans behind each other. -/
structure Ordered (l : List β) : Prop where
  nonempty : ∀ a ∈ l, start a < stop a
  apart : l.Pairwise fun a b => stop a ≤ start b

/-- Every point of `[low, high)` lies in a span. -/
def Cover (low high : Nat) (l : List β) : Prop :=
  ∀ x, low ≤ x → x < high → ∃ b ∈ l, start b ≤ x ∧ x < stop b

variable {start stop}

theorem Ordered.nil : Ordered start stop ([] : List β) :=
  ⟨fun _ h => absurd h not_mem_nil, List.Pairwise.nil⟩

theorem Ordered.of_cons {a : β} {l : List β} (h : Ordered start stop (a :: l)) :
    Ordered start stop l :=
  ⟨fun b hb => h.nonempty b (mem_cons_of_mem _ hb), (pairwise_cons.mp h.apart).2⟩

theorem ordered_cons {a : β} {l : List β} : Ordered start stop (a :: l) ↔
    start a < stop a ∧ (∀ b ∈ l, stop a ≤ start b) ∧ Ordered start stop l := by
  constructor
  · intro h
    exact ⟨h.nonempty a mem_cons_self, (pairwise_cons.mp h.apart).1, h.of_cons⟩
  · rintro ⟨ha, hl, h⟩
    exact ⟨forall_mem_cons.mpr ⟨ha, h.nonempty⟩, pairwise_cons.mpr ⟨hl, h.apart⟩⟩

theorem mem_insert {b x : β} : ∀ {l : List β}, x ∈ insert start b l ↔ x = b ∨ x ∈ l := by
  intro l
  induction l with
  | nil => rw [insert, mem_singleton, or_iff_left not_mem_nil]
  | cons a l ih =>
    rw [insert]
    split
    · rw [mem_cons, ih, mem_cons, or_left_comm]
    · rw [mem_cons]

/-- A span that overlaps none stays clear of all. -/
theorem apart_of_not_overlaps {b : β} : ∀ {l : List β}, Ordered start stop l →
    overlaps start stop b l = false → ∀ a ∈ l,
      start a < start b ∧ stop a ≤ start b ∨ start b ≤ start a ∧ stop b ≤ start a := by
  intro l
  induction l with
  | nil => exact fun _ _ a ha => absurd ha not_mem_nil
  | cons c l ih =>
    intro hl hno a ha
    obtain ⟨hc, hrest, hord⟩ := ordered_cons.mp hl
    rw [overlaps] at hno
    split at hno
    next hlt =>
      split at hno
      · cases hno
      next hle =>
        rcases mem_cons.mp ha with rfl | ha
        · exact .inl ⟨hlt, Nat.le_of_not_lt hle⟩
        · exact ih hord hno a ha
    next hge =>
      have hstop : stop b ≤ start c := Nat.le_of_not_lt (of_decide_eq_false hno)
      have hstart : start b ≤ start c := Nat.le_of_not_lt hge
      rcases mem_cons.mp ha with rfl | ha
      · exact .inr ⟨hstart, hstop⟩
      · have hca := hrest a ha
        exact .inr ⟨by omega, by omega⟩

theorem Ordered.insert {b : β} (hb : start b < stop b) : ∀ {l : List β}, Ordered start stop l →
    overlaps start stop b l = false → Ordered start stop (insert start b l) := by
  intro l
  induction l with
  | nil => exact fun _ _ => ordered_cons.mpr ⟨hb, fun _ h => absurd h not_mem_nil, Ordered.nil⟩
  | cons a l ih =>
    intro hl hno
    obtain ⟨ha, hrest, hord⟩ := ordered_cons.mp hl
    have hclear := apart_of_not_overlaps hl hno
    rw [Spans.insert]
    split
    next hlt =>
      have hstop : stop a ≤ start b := by
        rcases hclear a List.mem_cons_self with h | h <;> omega
      have hno' : overlaps start stop b l = false := by
        rw [overlaps, if_pos hlt, if_neg (Nat.not_lt.mpr hstop)] at hno
        exact hno
      refine ordered_cons.mpr ⟨ha, fun c hc => ?_, ih hord hno'⟩
      rcases mem_insert.mp hc with rfl | hc
      · exact hstop
      · exact hrest c hc
    next hge =>
      refine ordered_cons.mpr ⟨hb, fun c hc => ?_, hl⟩
      rcases hclear c hc with h | h
      · rcases mem_cons.mp hc with rfl | hc
        · omega
        · have hac := hrest c hc
          omega
      · exact h.2

/-- A point two spans share shows in the test. -/
theorem overlaps_of_common {b a : β} {l : List β} (hl : Ordered start stop l) (ha : a ∈ l) {x : Nat}
    (hax : start a ≤ x ∧ x < stop a) (hbx : start b ≤ x ∧ x < stop b) :
    overlaps start stop b l := by
  by_contra hno
  rcases apart_of_not_overlaps hl (Bool.eq_false_iff.mpr hno) a ha with h | h <;> omega

/-- The test finds nothing else. -/
theorem overlaps_eq_false_of_apart {b : β} (hb : start b < stop b) :
    ∀ {l : List β}, Ordered start stop l →
    (∀ a ∈ l, stop a ≤ start b ∨ stop b ≤ start a) → overlaps start stop b l = false := by
  intro l
  induction l with
  | nil => exact fun _ _ => rfl
  | cons a l ih =>
    intro hl hapart
    obtain ⟨ha, -, hord⟩ := ordered_cons.mp hl
    have hfirst := hapart a mem_cons_self
    rw [overlaps]
    split
    next hlt =>
      rw [if_neg (by omega)]
      exact ih hord fun c hc => hapart c (mem_cons_of_mem _ hc)
    next hge => exact decide_eq_false (by omega)

/-- A stretch of the line holds no more spans than points. -/
theorem Ordered.length_le {high : Nat} : ∀ {l : List β} {low : Nat}, low < high →
    Ordered start stop l → (∀ a ∈ l, start a < high ∧ low < stop a) → l.length ≤ high - low := by
  intro l
  induction l with
  | nil => exact fun _ _ _ => Nat.zero_le _
  | cons a l ih =>
    intro low hlt hl hin
    obtain ⟨-, hrest, hord⟩ := ordered_cons.mp hl
    obtain ⟨ha, hin⟩ := forall_mem_cons.mp hin
    rw [length_cons]
    cases l with
    | nil =>
      rw [length_nil]
      omega
    | cons c l =>
      -- the rest lies behind the first span
      have hc := hrest c List.mem_cons_self
      have hhigh := (hin c List.mem_cons_self).1
      have htail := ih (Nat.lt_of_le_of_lt hc hhigh) hord fun d hd =>
        ⟨(hin d hd).1, Nat.lt_of_le_of_lt (hrest d hd) (hord.nonempty d hd)⟩
      omega

theorem coverTo_sound {limit : Nat} : ∀ {l : List β} {s x : Nat}, s ≤ x →
    x < coverTo start stop limit l s → ∃ b ∈ l, start b ≤ x ∧ x < stop b := by
  intro l
  induction l with
  | nil =>
    intro s x hs hx
    exact absurd hx (Nat.not_lt.mpr hs)
  | cons b l ih =>
    intro s x hs hx
    rw [coverTo] at hx
    split at hx
    next hb =>
      by_cases hxb : x < stop b
      · exact ⟨b, List.mem_cons_self, Nat.le_trans hb.2 hs, hxb⟩
      · obtain ⟨c, hc, hcx⟩ := ih (by split <;> omega) hx
        exact ⟨c, List.mem_cons_of_mem _ hc, hcx⟩
    next => exact absurd hx (Nat.not_lt.mpr hs)

theorem Cover.mono {low high : Nat} {l l' : List β} (h : Cover start stop low high l)
    (hl : ∀ a ∈ l, a ∈ l') : Cover start stop low high l' := by
  intro x hlow hhigh
  obtain ⟨b, hb, hbx⟩ := h x hlow hhigh
  exact ⟨b, hl b hb, hbx⟩

/-- A list whose walk reaches the limit covers it. -/
theorem cover_of_coverTo {low high : Nat} {l : List β} (h : high ≤ coverTo start stop high l low) :
    Cover start stop low high l :=
  fun _ hlow hhigh => coverTo_sound hlow (Nat.lt_of_lt_of_le hhigh h)

/-- Nothing can be added inside a covered stretch. -/
theorem Cover.overlaps {low high : Nat} {l : List β} (h : Cover start stop low high l)
    (hl : Ordered start stop l) {b : β} {x : Nat} (hlow : low ≤ x) (hhigh : x < high)
    (hbx : start b ≤ x ∧ x < stop b) : overlaps start stop b l := by
  obtain ⟨a, ha, hax⟩ := h x hlow hhigh
  exact overlaps_of_common hl ha hax hbx

end MdRaid.Spans
