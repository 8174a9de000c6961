import Mathlib.Data.List.Sort
import Mathlib.Data.List.Perm.Subperm

/-!
# Sorting by a comparator, and keeping the front

`sortBy` is a stable sort by a three-way comparator; `topBy` keeps the first
elements of the sorted list.  A comparator that tells the elements of a list
apart makes both independent of the order the list came in.
-/

set_option autoImplicit false

namespace RealityHydra.Lib.ComparatorSort

open Std

variable {α : Type} (cmp : α → α → Ordering)

def sortBy (xs : List α) : List α := xs.insertionSort fun a b => (cmp a b).isLE

def topBy (k : Nat) (xs : List α) : List α := (sortBy cmp xs).take k

/-- Only equal elements of `xs` compare equal. -/
def Separates (xs : List α) : Prop :=
  ∀ a ∈ xs, ∀ b ∈ xs, cmp a b = .eq → a = b

theorem sortBy_perm (xs : List α) : (sortBy cmp xs).Perm xs :=
  List.perm_insertionSort _ xs

@[simp] theorem mem_sortBy (xs : List α) (a : α) : a ∈ sortBy cmp xs ↔ a ∈ xs :=
  (sortBy_perm cmp xs).mem_iff

@[simp] theorem length_sortBy (xs : List α) :
    (sortBy cmp xs).length = xs.length :=
  (sortBy_perm cmp xs).length_eq

section Ordered

variable [TransCmp cmp]

theorem sortBy_sorted (xs : List α) :
    (sortBy cmp xs).Pairwise fun a b => (cmp a b).isLE := by
  have total : Std.Total fun a b => (cmp a b).isLE = true :=
    ⟨fun a b => by
      have swapped : cmp b a = (cmp a b).swap := OrientedCmp.eq_swap
      rw [swapped]
      cases cmp a b <;> simp⟩
  have transitive : IsTrans α fun a b => (cmp a b).isLE = true :=
    ⟨fun _ _ _ => TransCmp.isLE_trans⟩
  exact List.pairwise_insertionSort _ xs

theorem sorted_unique {xs ys : List α} (same : xs.Perm ys)
    (separates : Separates cmp xs)
    (sortedLeft : xs.Pairwise fun a b => (cmp a b).isLE)
    (sortedRight : ys.Pairwise fun a b => (cmp a b).isLE) : xs = ys := by
  refine same.eq_of_pairwise ?_ sortedLeft sortedRight
  intro a b inLeft inRight forward backward
  apply separates a inLeft b (same.mem_iff.mpr inRight)
  exact OrientedCmp.isLE_antisymm forward backward

theorem sortBy_eq_of_perm {xs ys : List α} (same : xs.Perm ys)
    (separates : Separates cmp xs) : sortBy cmp xs = sortBy cmp ys := by
  have shuffled : (sortBy cmp xs).Perm (sortBy cmp ys) :=
    (sortBy_perm cmp xs).trans (same.trans (sortBy_perm cmp ys).symm)
  refine sorted_unique cmp shuffled ?_ (sortBy_sorted cmp xs) (sortBy_sorted cmp ys)
  intro a inLeft b inRight
  exact separates a ((mem_sortBy ..).mp inLeft) b ((mem_sortBy ..).mp inRight)

end Ordered

/-! ## The front of the sorted list -/

@[simp] theorem length_topBy (k : Nat) (xs : List α) :
    (topBy cmp k xs).length = min k xs.length := by
  simp [topBy]

theorem topBy_subperm (k : Nat) (xs : List α) : (topBy cmp k xs).Subperm xs :=
  (List.take_sublist k _).subperm.trans (sortBy_perm cmp xs).subperm

theorem topBy_subset (k : Nat) (xs : List α) : topBy cmp k xs ⊆ xs :=
  (topBy_subperm cmp k xs).subset

theorem topBy_mono {short long : Nat} (smaller : short ≤ long) (xs : List α) :
    topBy cmp short xs <+: topBy cmp long xs :=
  List.take_prefix_take_left smaller

/-- What was kept sorts before what was not. -/
theorem topBy_precedes [TransCmp cmp] (k : Nat) (xs : List α) {kept left : α}
    (isKept : kept ∈ topBy cmp k xs) (isIn : left ∈ xs)
    (notKept : left ∉ topBy cmp k xs) : (cmp kept left).isLE := by
  have sorted := sortBy_sorted cmp xs
  rw [← List.take_append_drop k (sortBy cmp xs)] at sorted
  have behind : left ∈ (sortBy cmp xs).drop k := by
    have anywhere : left ∈ sortBy cmp xs := (mem_sortBy ..).mpr isIn
    rw [← List.take_append_drop k (sortBy cmp xs)] at anywhere
    rcases List.mem_append.mp anywhere with front | back
    · exact absurd front notKept
    · exact back
  exact (List.pairwise_append.mp sorted).2.2 kept isKept left behind

/-! ## Rank -/

/-- How many elements of `xs` sort strictly before `x`. -/
def rankIn (xs : List α) (x : α) : Nat := xs.countP fun y => cmp y x = .lt

theorem sortBy_strict [TransCmp cmp] {xs : List α} (nodup : xs.Nodup)
    (separates : Separates cmp xs) :
    (sortBy cmp xs).Pairwise fun a b => cmp a b = .lt := by
  have distinct : (sortBy cmp xs).Nodup := (sortBy_perm cmp xs).nodup_iff.mpr nodup
  apply ((sortBy_sorted cmp xs).and distinct).imp_of_mem
  intro a b inLeft inRight apart
  obtain ⟨before, different⟩ := apart
  rcases Ordering.isLE_iff_eq_lt_or_eq_eq.mp before with less | equal
  · exact less
  · exact absurd (separates a ((mem_sortBy ..).mp inLeft) b ((mem_sortBy ..).mp inRight) equal)
      different

/-- On a strictly sorted list, rank is position. -/
theorem rankIn_middle [TransCmp cmp] {front back : List α} {x : α}
    (strict : (front ++ x :: back).Pairwise fun a b => cmp a b = .lt) :
    rankIn cmp (front ++ x :: back) x = front.length := by
  obtain ⟨_, tail, across⟩ := List.pairwise_append.mp strict
  have before : front.countP (fun y => cmp y x = .lt) = front.length := by
    apply List.countP_eq_length.mpr
    intro y isIn
    exact decide_eq_true (across y isIn x List.mem_cons_self)
  have after : (x :: back).countP (fun y => cmp y x = .lt) = 0 := by
    apply List.countP_eq_zero.mpr
    intro y isIn
    rcases List.mem_cons.mp isIn with rfl | later
    · simp [ReflCmp.compare_self]
    · have greater : cmp y x = .gt :=
        OrientedCmp.gt_of_lt ((List.pairwise_cons.mp tail).1 y later)
      simp [greater]
  rw [rankIn, List.countP_append, before, after, Nat.add_zero]

/-- An element is kept exactly if fewer than `k` sort before it. -/
theorem mem_topBy_iff_rankIn [TransCmp cmp] {xs : List α} (nodup : xs.Nodup)
    (separates : Separates cmp xs) (k : Nat) {x : α} (isIn : x ∈ xs) :
    x ∈ topBy cmp k xs ↔ rankIn cmp xs x < k := by
  have strict := sortBy_strict cmp nodup separates
  have counted : rankIn cmp xs x = rankIn cmp (sortBy cmp xs) x :=
    ((sortBy_perm cmp xs).countP_eq _).symm
  obtain ⟨front, back, split⟩ := List.append_of_mem ((mem_sortBy cmp xs x).mpr isIn)
  rw [topBy, counted, split]
  rw [split] at strict
  rw [rankIn_middle cmp strict]
  constructor
  · intro kept
    by_contra beyond
    rw [List.take_append_of_le_length (Nat.not_lt.mp beyond)] at kept
    have itself := (List.pairwise_append.mp strict).2.2 x (List.mem_of_mem_take kept) x
      List.mem_cons_self
    have reflexive : cmp x x = .eq := ReflCmp.compare_self
    rw [reflexive] at itself
    contradiction
  · intro inside
    rw [List.take_append, List.mem_append]
    obtain ⟨room, more⟩ : ∃ room, k - front.length = room + 1 :=
      ⟨k - front.length - 1, by omega⟩
    rw [more, List.take_succ_cons]
    exact Or.inr List.mem_cons_self

theorem rankIn_append (xs ys : List α) (x : α) :
    rankIn cmp (xs ++ ys) x = rankIn cmp xs x + rankIn cmp ys x :=
  List.countP_append

/-- Elements added to a list let none of the old ones into its front. -/
theorem topBy_append [TransCmp cmp] {xs ys : List α} (nodup : (xs ++ ys).Nodup)
    (separates : Separates cmp (xs ++ ys)) (k : Nat) {x : α} (isIn : x ∈ xs)
    (kept : x ∈ topBy cmp k (xs ++ ys)) : x ∈ topBy cmp k xs := by
  have separatesFront : Separates cmp xs := by
    intro a inLeft b inRight same
    exact separates a (List.mem_append_left ys inLeft) b (List.mem_append_left ys inRight) same
  have ranked := (mem_topBy_iff_rankIn cmp nodup separates k
    (List.mem_append_left ys isIn)).mp kept
  rw [rankIn_append] at ranked
  apply (mem_topBy_iff_rankIn cmp (List.nodup_append.mp nodup).1 separatesFront k isIn).mpr
  omega

/-- Counting goes up where each satisfied place stays satisfied. -/
theorem countP_le_of_forall₂ {β : Type} {p : α → Bool} {q : β → Bool} {xs : List α}
    {ys : List β} (carried : List.Forall₂ (fun x y => p x = true → q y = true) xs ys) :
    xs.countP p ≤ ys.countP q := by
  induction carried with
  | nil => exact Nat.le_refl _
  | cons holds _ ih =>
      rename_i x y xs ys _
      rw [List.countP_cons, List.countP_cons]
      cases satisfied : p x with
      | false =>
          simp only [Bool.false_eq_true, if_false]
          omega
      | true =>
          rw [holds satisfied]
          simp only [if_true]
          omega

end RealityHydra.Lib.ComparatorSort
