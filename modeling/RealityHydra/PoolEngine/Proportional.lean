import RealityHydra.Lib.CumulativeWeights
import RealityHydra.PoolEngine.Select

/-!
# Draws in proportion to the weights

Over the rationals the subtraction loop splits `[0, total)` into one half-open
share per entry, as long as the entry's weight.
-/

set_option autoImplicit false

namespace RealityHydra.PoolEngine

open RealityHydra.Lib.ByteCodec RealityHydra.Lib.CumulativeWeights

/-- The weight as a rational; no weighted entry has one of the other two kinds. -/
def PoolEntry.value (e : PoolEntry) : ℚ :=
  match e.weight with
  | .finite w => w
  | _ => 0

def ActivePool.values (pool : ActivePool) : List ℚ := pool.entries.map PoolEntry.value

/-- The place of the entry the loop of `weighted_pick` returns. -/
def pickedPlace : F64 → List PoolEntry → Option Nat
  | _, [] => none
  | r, e :: rest =>
      let r := r.sub e.weight
      if r.isNegative then some 0 else (pickedPlace r rest).map (· + 1)

theorem walkWeights_eq_pickedPlace (r : F64) (entries : List PoolEntry) :
    walkWeights r entries =
      (pickedPlace r entries).bind fun index => entries[index]?.map PoolEntry.sni := by
  induction entries generalizing r with
  | nil => rfl
  | cons e rest ih =>
      simp only [walkWeights, pickedPlace]
      by_cases crossed : (r.sub e.weight).isNegative = true
      · simp [crossed]
      · rw [if_neg crossed, if_neg crossed, ih]
        cases pickedPlace (r.sub e.weight) rest <;> simp

theorem PoolEntry.Weighted.weight_eq {e : PoolEntry} (weighted : e.Weighted) :
    e.weight = .finite e.value := by
  obtain ⟨w, weight, positive⟩ := weighted
  rw [value, weight]

theorem PoolEntry.Weighted.value_pos {e : PoolEntry} (weighted : e.Weighted) :
    0 < e.value := by
  obtain ⟨w, weight, positive⟩ := weighted
  rwa [value, weight]

/-- On weighted entries the loop subtracts rationals. -/
theorem pickedPlace_eq_walk {entries : List PoolEntry}
    (weighted : ∀ e ∈ entries, e.Weighted) (r : ℚ) :
    pickedPlace (.finite r) entries = walk r (entries.map PoolEntry.value) := by
  induction entries generalizing r with
  | nil => rfl
  | cons e rest ih =>
      have subtracted : F64.sub (.finite r) e.weight = .finite (r - e.value) := by
        rw [(weighted e List.mem_cons_self).weight_eq, sub_eq_add_neg]
        rfl
      have later := ih (fun other isIn => weighted other (List.mem_cons_of_mem _ isIn))
        (r - e.value)
      simp only [pickedPlace, subtracted, later, F64.isNegative, List.map_cons, walk,
        decide_eq_true_eq]

theorem foldl_add_weights {entries : List PoolEntry} (weighted : ∀ e ∈ entries, e.Weighted)
    (start : ℚ) :
    entries.foldl (fun (total : F64) e => total.add e.weight) (.finite start) =
      .finite (start + (entries.map PoolEntry.value).sum) := by
  induction entries generalizing start with
  | nil => simp
  | cons e rest ih =>
      have later := ih (fun other isIn => weighted other (List.mem_cons_of_mem _ isIn))
        (start + e.value)
      rw [List.foldl_cons, (weighted e List.mem_cons_self).weight_eq]
      change List.foldl _ (F64.finite (start + e.value)) rest = _
      rw [later, List.map_cons, List.sum_cons, add_assoc]

section WeightedPool

variable {pool : ActivePool} (weighted : ∀ e ∈ pool.entries, e.Weighted)

include weighted

theorem totalWeight_eq : totalWeight pool.entries = .finite pool.values.sum := by
  rw [totalWeight, foldl_add_weights weighted, zero_add, ActivePool.values]

theorem values_pos : ∀ value ∈ pool.values, 0 < value := by
  intro value isIn
  obtain ⟨e, found, same⟩ := List.mem_map.mp isIn
  exact same ▸ (weighted e found).value_pos

theorem total_pos (nonempty : pool.entries ≠ []) : 0 < pool.values.sum := by
  apply List.sum_pos _ (values_pos weighted)
  exact fun empty => nonempty (List.map_eq_nil_iff.mp empty)

/-- An entry is returned exactly at the points of its share. -/
theorem pickedPlace_eq_some_iff {r : ℚ} (nonneg : 0 ≤ r) (index : Nat) :
    pickedPlace (.finite r) pool.entries = some index ↔
      index < pool.entries.length ∧ r ∈ share pool.values index := by
  rw [pickedPlace_eq_walk weighted]
  have walked := walk_eq_some_iff (values_pos weighted) nonneg index
  rwa [ActivePool.values, List.length_map] at walked

theorem walkWeights_of_mem_share {r : ℚ} {index : Nat} {e : PoolEntry}
    (found : pool.entries[index]? = some e) (inside : r ∈ share pool.values index) :
    walkWeights (.finite r) pool.entries = some e.sni := by
  have nonneg := (share_subset (values_pos weighted) index inside).1
  have place := (pickedPlace_eq_some_iff weighted nonneg index).mpr
    ⟨(List.getElem?_eq_some_iff.mp found).1, inside⟩
  rw [walkWeights_eq_pickedPlace, place]
  simp [found]

/-- Below the total the loop returns, from the one share the point is in. -/
theorem entry_of_point {r : ℚ} (inside : r ∈ Set.Ico 0 pool.values.sum) :
    ∃ index e, pool.entries[index]? = some e ∧ r ∈ share pool.values index ∧
      walkWeights (.finite r) pool.entries = some e.sni := by
  obtain ⟨index, ⟨within, owns⟩, _⟩ := existsUnique_share (values_pos weighted) inside
  rw [ActivePool.values, List.length_map] at within
  have found := List.getElem?_eq_getElem within
  exact ⟨index, _, found, owns, walkWeights_of_mem_share weighted found owns⟩

end WeightedPool

/-- In exact arithmetic every entry owns the points of a half-open interval as
long as its weight, no other points, and nothing falls through. -/
theorem weighted_pick_exactly_proportional (pool : ActivePool)
    (nonempty : pool.entries ≠ []) (weighted : ∀ e ∈ pool.entries, e.Weighted) :
    (totalWeight pool.entries = .finite pool.values.sum ∧ 0 < pool.values.sum) ∧
    (∀ r ∈ Set.Ico 0 pool.values.sum, ∃! index, index < pool.entries.length ∧
      (pool.values.take index).sum ≤ r ∧ r < (pool.values.take (index + 1)).sum) ∧
    (∀ index e, pool.entries[index]? = some e →
      0 < e.value ∧
      (∀ r, (r ∈ Set.Ico 0 pool.values.sum ∧
          pickedPlace (.finite r) pool.entries = some index) ↔
        r ∈ Set.Ico (pool.values.take index).sum
          ((pool.values.take index).sum + e.value)) ∧
      ∃ r ∈ Set.Ico 0 pool.values.sum,
        pickedPlace (.finite r) pool.entries = some index) ∧
    (∀ r, walkWeights r pool.entries = (pickedPlace r pool.entries).bind
      fun index => pool.entries[index]?.map PoolEntry.sni) ∧
    (∀ r ∈ Set.Ico 0 pool.values.sum, walkWeights (.finite r) pool.entries ≠ none) ∧
    (∀ random ∈ Set.Ico (0 : ℚ) 1, ∃ index e, pool.entries[index]? = some e ∧
      random * pool.values.sum ∈ Set.Ico (pool.values.take index).sum
        ((pool.values.take index).sum + e.value) ∧
      weightedPick pool nonempty (.finite random) = e.sni ∧
      ∀ (selector : Selector) (dest : String) (nowMs : UInt64),
        selector.cached pool dest nowMs = none →
        (selector.select pool dest nowMs (.finite random)).1 = some e.sni) := by
  have positive := values_pos weighted
  have owns : ∀ (index : Nat) (e : PoolEntry), pool.entries[index]? = some e →
      share pool.values index = Set.Ico (pool.values.take index).sum
        ((pool.values.take index).sum + e.value) := by
    intro index e found
    apply share_eq_Ico
    rw [ActivePool.values, List.getElem?_map, found]
    rfl
  refine ⟨⟨totalWeight_eq weighted, total_pos weighted nonempty⟩, ?_, ?_,
    fun r => walkWeights_eq_pickedPlace r pool.entries, ?_, ?_⟩
  · intro r inside
    have unique := existsUnique_share positive inside
    rwa [ActivePool.values, List.length_map] at unique
  · intro index e found
    have weight := (weighted e (List.mem_of_getElem? found)).value_pos
    have selects : ∀ r, (r ∈ Set.Ico 0 pool.values.sum ∧
        pickedPlace (.finite r) pool.entries = some index) ↔
          r ∈ Set.Ico (pool.values.take index).sum
            ((pool.values.take index).sum + e.value) := by
      intro r
      rw [← owns index e found]
      constructor
      · intro ⟨inside, place⟩
        exact ((pickedPlace_eq_some_iff weighted inside.1 index).mp place).2
      · intro inside
        have below := share_subset positive index inside
        exact ⟨below, (pickedPlace_eq_some_iff weighted below.1 index).mpr
          ⟨(List.getElem?_eq_some_iff.mp found).1, inside⟩⟩
    refine ⟨weight, selects, (pool.values.take index).sum, ?_⟩
    exact (selects _).mpr ⟨le_refl _, lt_add_of_pos_right _ weight⟩
  · intro r inside
    obtain ⟨index, e, _, _, walked⟩ := entry_of_point weighted inside
    rw [walked]
    exact Option.some_ne_none _
  · intro random unit
    have total := total_pos weighted nonempty
    have inside : random * pool.values.sum ∈ Set.Ico 0 pool.values.sum :=
      ⟨mul_nonneg unit.1 total.le, mul_lt_of_lt_one_left total unit.2⟩
    obtain ⟨index, e, found, isOwner, walked⟩ := entry_of_point weighted inside
    have picked : weightedPick pool nonempty (.finite random) = e.sni := by
      rw [weightedPick, totalWeight_eq weighted]
      change (walkWeights (.finite (random * pool.values.sum)) pool.entries).getD _ = _
      rw [walked, Option.getD_some]
    refine ⟨index, e, found, owns index e found ▸ isOwner, picked, ?_⟩
    intro selector dest nowMs uncached
    rw [Selector.select, dif_neg nonempty, uncached]
    exact congrArg some picked

def oneAndThree : ActivePool where
  entries := [⟨"a.example", .finite 1⟩, ⟨"b.example", .finite 3⟩]
  sorted := List.pairwise_pair.mpr (by decide)

/-- The second of weights 1 and 3 owns `[1, 4)`. -/
theorem three_of_four_points :
    {r | r ∈ Set.Ico 0 oneAndThree.values.sum ∧
      pickedPlace (.finite r) oneAndThree.entries = some 1} = Set.Ico 1 4 := by
  have weighted : ∀ e ∈ oneAndThree.entries, e.Weighted := by
    simp [oneAndThree, PoolEntry.Weighted]
  obtain ⟨_, _, owned, _⟩ := weighted_pick_exactly_proportional oneAndThree
    (List.cons_ne_nil _ _) weighted
  ext r
  have interval := (owned 1 ⟨"b.example", .finite 3⟩ rfl).2.1 r
  rw [Set.mem_ofPred_eq, interval]
  norm_num [ActivePool.values, oneAndThree, PoolEntry.value]

end RealityHydra.PoolEngine
