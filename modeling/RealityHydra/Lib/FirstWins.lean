import Std.Data.TreeMap.Lemmas
import Mathlib.Data.List.Perm.Subperm

/-!
# First-wins union in an ordered map

Values are inserted under a key computed from them; a key that is taken keeps
its first value.  The values then come out in key order.
-/

set_option autoImplicit false

namespace RealityHydra.Lib.FirstWins

open Std

variable {κ α : Type} [Ord κ] (key : α → κ)

/-- `entry(key).or_insert(value)` for each value in turn. -/
def insertAll (map : TreeMap κ α) (values : List α) : TreeMap κ α :=
  values.foldl (fun held value => held.insertIfNew (key value) value) map

/-- `into_values`. -/
def intoValues (map : TreeMap κ α) : List α := map.toList.map Prod.snd

theorem foldl_insertAll (map : TreeMap κ α) (groups : List (List α)) :
    groups.foldl (insertAll key) map = insertAll key map groups.flatten := by
  induction groups generalizing map with
  | nil => rfl
  | cons group rest ih =>
      simp only [List.foldl_cons, List.flatten_cons, ih]
      simp only [insertAll, List.foldl_append]

variable [DecidableEq κ] [TransOrd κ] [LawfulEqOrd κ]

/-- A key holds what it held, else the first value inserted under it. -/
theorem getElem?_insertAll (map : TreeMap κ α) (values : List α) (k : κ) :
    (insertAll key map values)[k]? =
      map[k]?.or (values.find? fun value => key value = k) := by
  induction values generalizing map with
  | nil => simp [insertAll]
  | cons value rest ih =>
      have unfolded : insertAll key map (value :: rest) =
        insertAll key (map.insertIfNew (key value) value) rest := rfl
      rw [unfolded, ih, TreeMap.getElem?_insertIfNew, List.find?_cons]
      by_cases same : key value = k
      · subst same
        by_cases held : key value ∈ map
        · simp [held]
        · simp [held]
      · simp [same]

omit [DecidableEq κ] in
theorem mem_intoValues (map : TreeMap κ α) (value : α) :
    value ∈ intoValues map ↔ ∃ k : κ, map[k]? = some value := by
  simp only [intoValues, List.mem_map, Prod.exists, exists_eq_right,
    TreeMap.mem_toList_iff_getElem?_eq_some]

/-- Inserted values whose keys differ are all kept. -/
theorem mem_intoValues_insertAll (values : List α) (value : α)
    (distinct : ∀ a ∈ values, ∀ b ∈ values, key a = key b → a = b) :
    value ∈ intoValues (insertAll key ∅ values) ↔ value ∈ values := by
  rw [mem_intoValues]
  simp only [getElem?_insertAll, TreeMap.getElem?_emptyc, Option.none_or]
  refine ⟨?_, ?_⟩
  · intro held
    obtain ⟨k, found⟩ := held
    exact List.mem_of_find?_eq_some found
  · intro inserted
    refine ⟨key value, ?_⟩
    cases found : values.find? fun other => key other = key value with
    | none =>
        have absent := List.find?_eq_none.mp found value inserted
        simp at absent
    | some first =>
        have sameKey : key first = key value := by
          simpa using List.find?_some found
        rw [distinct first (List.mem_of_find?_eq_some found) value inserted sameKey]

theorem intoValues_sorted (values : List α) :
    (intoValues (insertAll key ∅ values)).Pairwise fun a b =>
      compare (key a) (key b) = .lt := by
  have keyed : ∀ held ∈ (insertAll key ∅ values).toList, key held.2 = held.1 := by
    intro held inMap
    have found := TreeMap.mem_toList_iff_getElem?_eq_some.mp inMap
    rw [getElem?_insertAll, TreeMap.getElem?_emptyc, Option.none_or] at found
    simpa using List.find?_some found
  have ordered : (insertAll key ∅ values).toList.Pairwise fun a b =>
    compare a.1 b.1 = .lt := TreeMap.ordered_keys_toList
  refine List.pairwise_map.mpr (ordered.imp_of_mem ?_)
  intro a b inLeft inRight before
  rw [keyed a inLeft, keyed b inRight]
  exact before

end RealityHydra.Lib.FirstWins
