import Mathlib.Data.Finset.Card
import Mathlib.Data.Fintype.Card

/-!
# Quorums over a finite set of seats

Two sets of seats meet in at least as many seats as their sizes exceed the
number of seats, and no more can be promised.  When they meet in more seats
than can be faulty, they have an honest seat in common.
-/

namespace Quorum

variable {Seat : Type} [Fintype Seat] [DecidableEq Seat]

theorem card_add_card_le (first second : Finset Seat) :
    first.card + second.card ≤
      (first ∩ second).card + Fintype.card Seat := by
  rw [← Finset.card_union_add_card_inter, Nat.add_comm]
  exact Nat.add_le_add_left (Finset.card_le_univ _) _

/-- Two sets of one size that meet in as few seats as possible. -/
theorem exists_card_inter {size : Nat} (fits : size ≤ Fintype.card Seat) :
    ∃ first second : Finset Seat, first.card = size ∧ second.card = size ∧
      (first ∩ second).card = 2 * size - Fintype.card Seat := by
  obtain ⟨first, _, firstCard⟩ :=
    Finset.exists_subset_card_eq (Finset.card_univ (α := Seat) ▸ fits)
  have outside : firstᶜ.card = Fintype.card Seat - size := by
    rw [Finset.card_compl, firstCard]
  by_cases room : size ≤ Fintype.card Seat - size
  · obtain ⟨second, within, secondCard⟩ :=
      Finset.exists_subset_card_eq (outside ▸ room)
    refine ⟨first, second, firstCard, secondCard, ?_⟩
    have apart : Disjoint first second :=
      disjoint_compl_right.mono_right within
    rw [Finset.disjoint_iff_inter_eq_empty.mp apart, Finset.card_empty]
    omega
  · -- The second set takes every seat outside and the rest from the first.
    have needed : 2 * size - Fintype.card Seat ≤ first.card := by omega
    obtain ⟨shared, within, sharedCard⟩ :=
      Finset.exists_subset_card_eq needed
    have apart : Disjoint firstᶜ shared :=
      disjoint_compl_left.mono_right within
    refine ⟨first, firstᶜ ∪ shared, firstCard, ?_, ?_⟩
    · rw [Finset.card_union_of_disjoint apart, outside, sharedCard]
      omega
    · rw [Finset.inter_union_distrib_left, Finset.inter_compl,
        Finset.empty_union, Finset.inter_eq_right.mpr within, sharedCard]

/-- All pairs of sets of one size share `overlap` seats exactly when counting
forces them to. -/
theorem meet_iff {size overlap : Nat} (fits : size ≤ Fintype.card Seat) :
    (∀ first second : Finset Seat, first.card = size → second.card = size →
        overlap ≤ (first ∩ second).card) ↔
      overlap = 0 ∨ overlap + Fintype.card Seat ≤ 2 * size := by
  constructor
  · intro meet
    obtain ⟨first, second, firstCard, secondCard, shared⟩ :=
      exists_card_inter fits
    have least := meet first second firstCard secondCard
    omega
  · intro forced first second firstCard secondCard
    have counted := card_add_card_le first second
    omega

omit [Fintype Seat] in
/-- Two sets that share more seats than are faulty share an honest one. -/
theorem exists_honest {first second faulty : Finset Seat}
    (few : faulty.card < (first ∩ second).card) :
    ∃ seat ∈ first, seat ∈ second ∧ seat ∉ faulty := by
  obtain ⟨seat, shared, honest⟩ := Finset.exists_mem_notMem_of_card_lt_card few
  exact ⟨seat, (Finset.mem_inter.mp shared).1, (Finset.mem_inter.mp shared).2,
    honest⟩

end Quorum
