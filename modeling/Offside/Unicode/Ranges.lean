/-!
# Sets of code points

A property of Unicode 17 is stored as the ascending list of the closed ranges of code
points that have it. `Ranges.contains` stops at the first range that does not end before
the code point, so the characters of ASCII are decided within the first few ranges.
-/

namespace Offside.Unicode

/-- Closed ranges of code points, in ascending order and apart from each other. -/
abbrev Ranges := List (Nat × Nat)

namespace Ranges

/-- Whether the code point `n` lies in one of the ranges. -/
def contains : Ranges → Nat → Bool
  | [], _ => false
  | (low, high) :: rest, n => if n ≤ high then decide (low ≤ n) else contains rest n

/-- Whether the ranges ascend from `floor` on without touching each other. -/
def ascendsFrom : Nat → Ranges → Bool
  | _, [] => true
  | floor, (low, high) :: rest =>
    decide (floor ≤ low) && decide (low ≤ high) && ascendsFrom (high + 2) rest

theorem not_contains_of_lt {n floor : Nat} :
    ∀ {ranges : Ranges}, ranges.ascendsFrom floor = true → n < floor → ranges.contains n = false
  | [], _, _ => rfl
  | (low, high) :: rest, h, hn => by
    simp only [ascendsFrom, Bool.and_eq_true, decide_eq_true_eq] at h
    rw [contains, if_pos (by omega)]
    exact decide_eq_false (by omega)

/-- Of ascending ranges, `contains` finds every member. -/
theorem contains_iff_mem {n floor : Nat} :
    ∀ {ranges : Ranges}, ranges.ascendsFrom floor = true →
      (ranges.contains n = true ↔ ∃ range ∈ ranges, range.1 ≤ n ∧ n ≤ range.2)
  | [], _ => by simp [contains]
  | (low, high) :: rest, h => by
    simp only [ascendsFrom, Bool.and_eq_true, decide_eq_true_eq] at h
    by_cases hn : n ≤ high
    · rw [contains, if_pos hn, decide_eq_true_eq]
      constructor
      · intro hl
        exact ⟨(low, high), by simp, hl, hn⟩
      · rintro ⟨range, hr, h1, h2⟩
        rcases List.mem_cons.mp hr with rfl | hr
        · exact h1
        · have := (contains_iff_mem (n := n) h.2).mpr ⟨range, hr, h1, h2⟩
          rw [not_contains_of_lt h.2 (by omega)] at this
          contradiction
    · rw [contains, if_neg hn, contains_iff_mem (n := n) h.2]
      constructor
      · rintro ⟨range, hr, h12⟩
        exact ⟨range, List.mem_cons_of_mem _ hr, h12⟩
      · rintro ⟨range, hr, h1, h2⟩
        rcases List.mem_cons.mp hr with rfl | hr
        · exact absurd h2 hn
        · exact ⟨range, hr, h1, h2⟩

end Ranges

end Offside.Unicode
