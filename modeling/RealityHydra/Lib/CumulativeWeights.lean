import Mathlib.Algebra.Order.BigOperators.Group.List
import Mathlib.Algebra.Order.Group.Defs
import Mathlib.Algebra.Order.Group.Unbundled.Basic
import Mathlib.Order.Interval.Set.Basic

/-!
# Picking by cumulative weight

The walk takes the weights off a point until it turns negative.  Every weight
owns the half-open share between the sums on its two sides, and the walk stops
at the owner of the point.
-/

set_option autoImplicit false

namespace RealityHydra.Lib.CumulativeWeights

variable {α : Type} [AddCommGroup α] [LinearOrder α]

/-- The position whose weight makes the point negative. -/
def walk : α → List α → Option Nat
  | _, [] => none
  | point, weight :: rest =>
      if point - weight < 0 then some 0 else (walk (point - weight) rest).map (· + 1)

def share (weights : List α) (index : Nat) : Set α :=
  Set.Ico (weights.take index).sum (weights.take (index + 1)).sum

theorem share_eq_Ico {weights : List α} {index : Nat} {weight : α}
    (found : weights[index]? = some weight) :
    share weights index =
      Set.Ico (weights.take index).sum ((weights.take index).sum + weight) := by
  rw [share, List.take_add_one, found, List.sum_append]
  simp

variable [IsOrderedAddMonoid α]

theorem mem_share_zero {weight point : α} {rest : List α} (nonneg : 0 ≤ point) :
    point ∈ share (weight :: rest) 0 ↔ point - weight < 0 := by
  simp [share, nonneg, sub_neg]

theorem mem_share_succ {weight point : α} {rest : List α} {index : Nat} :
    point ∈ share (weight :: rest) (index + 1) ↔ point - weight ∈ share rest index := by
  simp only [share, List.take_succ_cons, List.sum_cons, Set.mem_Ico]
  rw [le_sub_iff_add_le', sub_lt_iff_lt_add']

theorem take_sum_nonneg {weights : List α} (positive : ∀ weight ∈ weights, 0 < weight)
    (count : Nat) : 0 ≤ (weights.take count).sum := by
  apply List.sum_nonneg
  intro weight isIn
  exact (positive weight (List.mem_of_mem_take isIn)).le

/-- The running difference is the point less the weights already passed. -/
theorem walk_eq_some_iff {weights : List α} (positive : ∀ weight ∈ weights, 0 < weight)
    {point : α} (nonneg : 0 ≤ point) (index : Nat) :
    walk point weights = some index ↔
      index < weights.length ∧ point ∈ share weights index := by
  induction weights generalizing point index with
  | nil => simp [walk]
  | cons weight rest ih =>
      have positiveRest : ∀ other ∈ rest, 0 < other := by
        intro other isIn
        exact positive other (List.mem_cons_of_mem _ isIn)
      rw [walk]
      by_cases crossed : point - weight < 0
      · rw [if_pos crossed]
        cases index with
        | zero => simp [mem_share_zero nonneg, crossed]
        | succ index =>
            have outside : point ∉ share (weight :: rest) (index + 1) := by
              intro inside
              have reached := (mem_share_succ.mp inside).1
              exact absurd ((take_sum_nonneg positiveRest index).trans reached) crossed.not_ge
            simp [outside]
      · rw [if_neg crossed]
        cases index with
        | zero => simp [mem_share_zero nonneg, crossed]
        | succ index =>
            rw [mem_share_succ, List.length_cons, Nat.add_lt_add_iff_right,
              ← ih positiveRest (not_lt.mp crossed) index]
            simp

/-- Below the sum of the weights the walk stops. -/
theorem walk_stops {weights : List α} {point : α} (nonneg : 0 ≤ point)
    (below : point < weights.sum) : ∃ index, walk point weights = some index := by
  induction weights generalizing point with
  | nil =>
      rw [List.sum_nil] at below
      exact absurd below nonneg.not_gt
  | cons weight rest ih =>
      rw [walk]
      by_cases crossed : point - weight < 0
      · exact ⟨0, if_pos crossed⟩
      · have belowRest : point - weight < rest.sum := by
          rw [List.sum_cons] at below
          exact sub_lt_iff_lt_add'.mpr below
        obtain ⟨index, stopped⟩ := ih (not_lt.mp crossed) belowRest
        exact ⟨index + 1, by rw [if_neg crossed, stopped]; rfl⟩

theorem share_subset {weights : List α} (positive : ∀ weight ∈ weights, 0 < weight)
    (index : Nat) : share weights index ⊆ Set.Ico 0 weights.sum := by
  intro point inside
  refine ⟨(take_sum_nonneg positive index).trans inside.1, inside.2.trans_le ?_⟩
  have whole := congrArg List.sum (List.take_append_drop (index + 1) weights)
  rw [List.sum_append] at whole
  have remaining : 0 ≤ (weights.drop (index + 1)).sum := by
    apply List.sum_nonneg
    intro weight isIn
    exact (positive weight (List.mem_of_mem_drop isIn)).le
  rw [← whole]
  exact le_add_of_nonneg_right remaining

/-- The shares partition the points below the sum. -/
theorem existsUnique_share {weights : List α} (positive : ∀ weight ∈ weights, 0 < weight)
    {point : α} (inside : point ∈ Set.Ico 0 weights.sum) :
    ∃! index, index < weights.length ∧ point ∈ share weights index := by
  obtain ⟨index, stopped⟩ := walk_stops inside.1 inside.2
  refine ⟨index, (walk_eq_some_iff positive inside.1 index).mp stopped, ?_⟩
  intro other owns
  have stoppedThere := (walk_eq_some_iff positive inside.1 other).mpr owns
  exact Option.some.inj (stoppedThere.symm.trans stopped)

end RealityHydra.Lib.CumulativeWeights
