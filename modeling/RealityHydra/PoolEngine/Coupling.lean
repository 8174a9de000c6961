import Mathlib.Analysis.SpecialFunctions.Log.Basic
import RealityHydra.Lib.Traversal
import RealityHydra.PoolEngine.Select

/-!
# Raising one weight

Two master lists with the same SNIs draw the same numbers, so their keys differ
only at the entry whose weight does.  Fewer entries rank before it and no fewer
before any other, which decides who is kept.
-/

set_option autoImplicit false

namespace RealityHydra.PoolEngine

open RealityHydra.Lib.ComparatorSort RealityHydra.Lib.Traversal
open RealityHydra.Primitives

/-- The second list is the first with the weight of `raised` larger. -/
structure Raises (raised : String) (before after : MasterList) : Prop where
  sameSnis : ∀ sni, sni ∈ before.entries.map PoolEntry.sni ↔
    sni ∈ after.entries.map PoolEntry.sni
  others : ∀ e, e.sni ≠ raised → (e ∈ before.entries ↔ e ∈ after.entries)
  larger : ∃ w w' : ℚ, ⟨raised, .finite w⟩ ∈ before.entries ∧
    ⟨raised, .finite w'⟩ ∈ after.entries ∧ w < w'

section Coupling

variable {Draw K : Type} (keying : Keying Draw K)

/-- `ln(u) / w` does not fall as the positive weight `w` grows. -/
def KeyMonotone [LE K] : Prop :=
  ∀ (draw : Draw) (w w' : ℚ), 0 < w → w ≤ w' →
    keying.aresKey draw (.finite w) ≤ keying.aresKey draw (.finite w')

theorem keyedEntries_nodup (master : MasterList) (seed : Seed) :
    (keyedEntries keying master seed).Nodup := by
  have entries := keyedEntries_entries keying master seed
  have distinct : master.entries.Nodup := List.Nodup.of_map _ master.sorted.nodup
  rw [← entries] at distinct
  exact List.Nodup.of_map _ distinct

theorem keyedEntries_separates [LinearOrder K] (master : MasterList) (seed : Seed) :
    Separates byKeyThenSni (keyedEntries keying master seed) := by
  intro a inLeft b inRight same
  apply keyed_unique keying master seed inLeft inRight
  rw [byKeyThenSni, Ordering.then_eq_eq] at same
  exact compare_eq_iff_eq.mp same.2

/-- An entry is in the subset exactly if fewer than `k` keys sort before its. -/
theorem sni_mem_subset_iff [LinearOrder K] (master : MasterList) (seed : Seed) (k : Nat)
    {keyed : K × PoolEntry} (isIn : keyed ∈ keyedEntries keying master seed) :
    keyed.2.sni ∈ (subsetFromSeed keying master seed k).snis ↔
      rankIn byKeyThenSni (keyedEntries keying master seed) keyed <
        min k master.entries.length := by
  rw [← mem_topBy_iff_rankIn byKeyThenSni (keyedEntries_nodup keying master seed)
    (keyedEntries_separates keying master seed) _ isIn]
  rw [ActivePool.snis, List.mem_map]
  constructor
  · intro named
    obtain ⟨e, kept, sameSni⟩ := named
    obtain ⟨key, found⟩ := (mem_subsetFromSeed keying master seed k e).mp kept
    have same := keyed_unique keying master seed (topBy_subset _ _ _ found) isIn sameSni
    rwa [same] at found
  · intro kept
    exact ⟨keyed.2, (mem_subsetFromSeed keying master seed k _).mpr ⟨keyed.1, kept⟩, rfl⟩

/-! ## The two key lists -/

theorem Raises.snis_eq {raised : String} {before after : MasterList}
    (raises : Raises raised before after) :
    before.entries.map PoolEntry.sni = after.entries.map PoolEntry.sni := by
  have same : (before.entries.map PoolEntry.sni).Perm (after.entries.map PoolEntry.sni) :=
    (List.perm_ext_iff_of_nodup before.sorted.nodup after.sorted.nodup).mpr raises.sameSnis
  have sortedBefore : (before.entries.map PoolEntry.sni).Pairwise (· < ·) :=
    List.pairwise_map.mpr before.sorted
  have sortedAfter : (after.entries.map PoolEntry.sni).Pairwise (· < ·) :=
    List.pairwise_map.mpr after.sorted
  apply same.eq_of_pairwise _ sortedBefore sortedAfter
  intro a b _ _ less greater
  exact absurd (less.trans greater) (lt_irrefl a)

/-- Place by place the keyed entries are the same, but for the raised one. -/
inductive Coupled (low high : K × PoolEntry) : K × PoolEntry → K × PoolEntry → Prop where
  | same (keyed : K × PoolEntry) (other : keyed.2.sni ≠ low.2.sni) : Coupled low high keyed keyed
  | raised : Coupled low high low high

theorem MasterList.entry_unique (master : MasterList) {a b : PoolEntry}
    (inLeft : a ∈ master.entries) (inRight : b ∈ master.entries) (same : a.sni = b.sni) :
    a = b :=
  List.inj_on_of_nodup_map master.sorted.nodup inLeft inRight same

theorem forall₂_mapIdx {α β γ δ : Type} {R : γ → δ → Prop} {f : Nat → α → γ}
    {g : Nat → β → δ} {xs : List α} {ys : List β} (sameLength : xs.length = ys.length)
    (related : ∀ place x y, xs[place]? = some x → ys[place]? = some y →
      R (f place x) (g place y)) : List.Forall₂ R (xs.mapIdx f) (ys.mapIdx g) := by
  apply List.forall₂_iff_get.mpr ⟨by simpa using sameLength, ?_⟩
  intro place left right
  rw [List.length_mapIdx] at left right
  rw [List.get_eq_getElem, List.get_eq_getElem, List.getElem_mapIdx, List.getElem_mapIdx]
  exact related place _ _ (List.getElem?_eq_getElem left) (List.getElem?_eq_getElem right)

/-- Every place draws the same number, and the key of the raised one does not
fall. -/
theorem Raises.coupled [LinearOrder K] (monotone : KeyMonotone keying) {raised : String}
    {before after : MasterList} (raises : Raises raised before after) (seed : Seed) :
    ∃ low ∈ keyedEntries keying before seed, ∃ high ∈ keyedEntries keying after seed,
      low.2.sni = raised ∧ high.2.sni = raised ∧ low.1 ≤ high.1 ∧
        List.Forall₂ (Coupled low high) (keyedEntries keying before seed)
          (keyedEntries keying after seed) := by
  obtain ⟨w, w', inBefore, inAfter, less⟩ := raises.larger
  have names : ∀ (place : Nat) (e e' : PoolEntry), before.entries[place]? = some e →
      after.entries[place]? = some e' → e.sni = e'.sni := by
    intro place e e' atBefore atAfter
    have same := congrArg (fun snis : List String => snis[place]?) raises.snis_eq
    simpa [atBefore, atAfter] using same
  have sameLength : before.entries.length = after.entries.length := by
    have lengths := congrArg List.length raises.snis_eq
    simpa only [List.length_map] using lengths
  obtain ⟨index, found⟩ := List.getElem?_of_mem inBefore
  obtain ⟨other, foundAfter⟩ : ∃ other, after.entries[index]? = some other := by
    have inside := (List.getElem?_eq_some_iff.mp found).1
    exact ⟨_, List.getElem?_eq_getElem (sameLength ▸ inside)⟩
  have isOther : other = ⟨raised, .finite w'⟩ :=
    after.entry_unique (List.mem_of_getElem? foundAfter) inAfter
      (names index _ _ found foundAfter).symm
  rw [isOther] at foundAfter
  have positive : 0 < w := by
    obtain ⟨value, weight, positive⟩ := before.acceptable.weighted _ inBefore
    cases weight
    exact positive
  refine ⟨(keying.aresKey (keying.random seed index) (.finite w), ⟨raised, .finite w⟩), ?_,
    (keying.aresKey (keying.random seed index) (.finite w'), ⟨raised, .finite w'⟩), ?_,
    rfl, rfl, monotone _ w w' positive less.le, ?_⟩
  · apply List.mem_of_getElem? (i := index)
    simp [keyedEntries, found]
  · apply List.mem_of_getElem? (i := index)
    simp [keyedEntries, foundAfter]
  · apply forall₂_mapIdx sameLength
    intro place e e' atBefore atAfter
    have sameSni := names place e e' atBefore atAfter
    by_cases isRaised : e.sni = raised
    · have low : e = ⟨raised, .finite w⟩ :=
        before.entry_unique (List.mem_of_getElem? atBefore) inBefore isRaised
      have high : e' = ⟨raised, .finite w'⟩ :=
        after.entry_unique (List.mem_of_getElem? atAfter) inAfter (sameSni ▸ isRaised)
      have here : place = index := by
        have inside := (List.getElem?_eq_some_iff.mp atBefore).1
        apply (List.getElem?_inj inside (List.Nodup.of_map _ before.sorted.nodup)).mp
        rw [atBefore, found, low]
      rw [here, low, high]
      exact .raised
    · have same : e = e' := by
        apply after.entry_unique _ (List.mem_of_getElem? atAfter) sameSni
        exact (raises.others e isRaised).mp (List.mem_of_getElem? atBefore)
      rw [← same]
      exact .same _ isRaised

/-! ## The ranks -/

section Ranks

variable [LinearOrder K]

theorem byKeyThenSni_lt_iff (a b : K × PoolEntry) :
    byKeyThenSni a b = .lt ↔ b.1 < a.1 ∨ (b.1 = a.1 ∧ a.2.sni < b.2.sni) := by
  rw [byKeyThenSni, Ordering.then_eq_lt, compare_lt_iff_lt, compare_eq_iff_eq,
    compare_lt_iff_lt]

variable {low high : K × PoolEntry}

/-- What sorts before the raised entry afterwards did so before. -/
theorem Coupled.before_raised (sameSni : low.2.sni = high.2.sni) (grows : low.1 ≤ high.1)
    {a b : K × PoolEntry} (coupled : Coupled low high a b)
    (first : byKeyThenSni b high = .lt) : byKeyThenSni a low = .lt := by
  cases coupled with
  | raised =>
      have itself : byKeyThenSni high high = .eq := Std.ReflCmp.compare_self
      rw [itself] at first
      contradiction
  | same keyed other =>
      apply (byKeyThenSni_lt_iff ..).mpr
      rcases (byKeyThenSni_lt_iff ..).mp first with larger | ⟨tie, earlier⟩
      · exact Or.inl (grows.trans_lt larger)
      · rw [← sameSni] at earlier
        rcases grows.lt_or_eq with less | equal
        · exact Or.inl (tie ▸ less)
        · exact Or.inr ⟨equal.trans tie, earlier⟩

/-- What sorted before another entry still does. -/
theorem Coupled.before_other (sameSni : low.2.sni = high.2.sni) (grows : low.1 ≤ high.1)
    {a b x : K × PoolEntry} (coupled : Coupled low high a b)
    (first : byKeyThenSni a x = .lt) : byKeyThenSni b x = .lt := by
  cases coupled with
  | same keyed other => exact first
  | raised =>
      apply (byKeyThenSni_lt_iff ..).mpr
      rcases (byKeyThenSni_lt_iff ..).mp first with larger | ⟨tie, earlier⟩
      · exact Or.inl (larger.trans_le grows)
      · rw [sameSni] at earlier
        rcases grows.lt_or_eq with less | equal
        · exact Or.inl (tie ▸ less)
        · exact Or.inr ⟨tie.trans equal, earlier⟩

variable {xs ys : List (K × PoolEntry)}

theorem rank_raised_falls (sameSni : low.2.sni = high.2.sni) (grows : low.1 ≤ high.1)
    (coupled : List.Forall₂ (Coupled low high) xs ys) :
    rankIn byKeyThenSni ys high ≤ rankIn byKeyThenSni xs low := by
  apply countP_le_of_forall₂
  apply coupled.flip.imp
  intro b a paired first
  simp only [decide_eq_true_eq] at first ⊢
  exact paired.before_raised sameSni grows first

theorem rank_other_grows (sameSni : low.2.sni = high.2.sni) (grows : low.1 ≤ high.1)
    (coupled : List.Forall₂ (Coupled low high) xs ys) (x : K × PoolEntry) :
    rankIn byKeyThenSni xs x ≤ rankIn byKeyThenSni ys x := by
  apply countP_le_of_forall₂
  apply coupled.imp
  intro a b paired first
  simp only [decide_eq_true_eq] at first ⊢
  exact paired.before_other sameSni grows first

end Ranks

/-- Raising one weight keeps its entry in the subset and lets no other in. -/
theorem raised_weight_never_hurts [LinearOrder K] (monotone : KeyMonotone keying)
    (raised : String) (before after : MasterList) (raises : Raises raised before after)
    (seed : Seed) (k : Nat) :
    (raised ∈ (subsetFromSeed keying before seed k).snis →
      raised ∈ (subsetFromSeed keying after seed k).snis) ∧
    ∀ e, e.sni ≠ raised → e ∈ (subsetFromSeed keying after seed k).entries →
      e ∈ (subsetFromSeed keying before seed k).entries := by
  obtain ⟨low, inLow, high, inHigh, lowSni, highSni, grows, coupled⟩ :=
    raises.coupled keying monotone seed
  have sameSni : low.2.sni = high.2.sni := lowSni.trans highSni.symm
  have sameLength : before.entries.length = after.entries.length := by
    have lengths := coupled.length_eq
    simpa [keyedEntries] using lengths
  refine ⟨?_, ?_⟩
  · intro kept
    rw [← lowSni, sni_mem_subset_iff keying before seed k inLow] at kept
    rw [← highSni, sni_mem_subset_iff keying after seed k inHigh]
    have falls := rank_raised_falls sameSni grows coupled
    omega
  · intro e other kept
    obtain ⟨key, keptAfter⟩ := (mem_subsetFromSeed keying after seed k e).mp kept
    have isAfter := topBy_subset _ _ _ keptAfter
    have isBefore : (key, e) ∈ keyedEntries keying before seed := by
      obtain ⟨keyed, found, paired⟩ := exists_of_forall₂ coupled.flip _ isAfter
      cases paired with
      | same _ _ => exact found
      | raised => exact absurd highSni other
    have later := (mem_topBy_iff_rankIn byKeyThenSni (keyedEntries_nodup keying after seed)
      (keyedEntries_separates keying after seed) _ isAfter).mp keptAfter
    have grows := rank_other_grows sameSni grows coupled (key, e)
    apply (mem_subsetFromSeed keying before seed k e).mpr
    refine ⟨key, ?_⟩
    apply (mem_topBy_iff_rankIn byKeyThenSni (keyedEntries_nodup keying before seed)
      (keyedEntries_separates keying before seed) _ isBefore).mpr
    omega

end Coupling

/-! ## The natural logarithm -/

/-- `uniform01(..).ln() / e.weight` over the reals; no list holds the other two
kinds of weight. -/
noncomputable def lnKey (u : Set.Ioc (0 : ℝ) 1) : F64 → ℝ
  | .finite weight => Real.log u / weight
  | .infinite _ => 0
  | .nan => 0

theorem lnKey_monotone (hmac : HmacSha256) (random : Seed → Nat → Set.Ioc (0 : ℝ) 1) :
    KeyMonotone ⟨hmac, random, lnKey⟩ := by
  intro draw w w' positive grows
  have notPositive : Real.log draw ≤ 0 := Real.log_nonpos draw.2.1.le draw.2.2
  have positive' : (0 : ℝ) < w := Rat.cast_pos.mpr positive
  have grows' : (w : ℝ) ≤ w' := Rat.cast_le.mpr grows
  change Real.log draw / w ≤ Real.log draw / w'
  rw [div_le_div_iff₀ positive' (positive'.trans_le grows')]
  exact mul_le_mul_of_nonpos_left grows' notPositive

theorem half_mem : (1 / 2 : ℝ) ∈ Set.Ioc (0 : ℝ) 1 := by
  constructor <;> norm_num

/-- Every draw is one half. -/
noncomputable def halfKeying : Keying (Set.Ioc (0 : ℝ) 1) ℝ where
  hmac _ _ := Vector.replicate 32 0
  random _ _ := ⟨1 / 2, half_mem⟩
  aresKey := lnKey

def threeNames : MasterList where
  entries := [⟨"a.example", .finite 1⟩, ⟨"b.example", .finite 1⟩, ⟨"c.example", .finite 1⟩]
  acceptable := ⟨by simp, by simp, by simp [PoolEntry.Weighted], by simp⟩
  sorted := List.pairwise_cons.mpr ⟨by decide, List.pairwise_pair.mpr (by decide)⟩

def secondRaised : MasterList where
  entries := [⟨"a.example", .finite 1⟩, ⟨"b.example", .finite 3⟩, ⟨"c.example", .finite 1⟩]
  acceptable := ⟨by simp, by simp, by simp [PoolEntry.Weighted], by simp⟩
  sorted := List.pairwise_cons.mpr ⟨by decide, List.pairwise_pair.mpr (by decide)⟩

theorem threeNames_raises : Raises "b.example" threeNames secondRaised where
  sameSnis sni := by simp [threeNames, secondRaised]
  others e other := by
    have notSecond : ∀ w, e ≠ ⟨"b.example", w⟩ := by
      intro w same
      exact other (congrArg PoolEntry.sni same)
    simp [threeNames, secondRaised, notSecond]
  larger := ⟨1, 3, by simp [threeNames], by simp [secondRaised], by norm_num⟩

/-- Of three names with equal keys the first two are drawn; raised, the second is drawn
before the first, and both still are. -/
theorem raised_second_of_three :
    ("b.example" ∈ (subsetFromSeed halfKeying threeNames (Vector.replicate 32 0) 2).snis ∧
      "b.example" ∈ (subsetFromSeed halfKeying secondRaised (Vector.replicate 32 0) 2).snis) ∧
    (⟨"a.example", .finite 1⟩ ∈
        (subsetFromSeed halfKeying secondRaised (Vector.replicate 32 0) 2).entries ∧
      ⟨"a.example", .finite 1⟩ ∈
        (subsetFromSeed halfKeying threeNames (Vector.replicate 32 0) 2).entries) := by
  obtain ⟨kept, others⟩ := raised_weight_never_hurts halfKeying (lnKey_monotone _ _) "b.example"
    threeNames secondRaised threeNames_raises (Vector.replicate 32 0) 2
  have aboveSecond : ("a.example" : String) < "b.example" := by decide
  have aboveThird : ("a.example" : String) < "c.example" := by decide
  have nextThird : ("b.example" : String) < "c.example" := by decide
  have drawn : "b.example" ∈
      (subsetFromSeed halfKeying threeNames (Vector.replicate 32 0) 2).snis := by
    have isIn : (lnKey ⟨1 / 2, half_mem⟩ (.finite 1), (⟨"b.example", .finite 1⟩ : PoolEntry)) ∈
        keyedEntries halfKeying threeNames (Vector.replicate 32 0) := by
      simp [keyedEntries, threeNames, halfKeying]
    apply (sni_mem_subset_iff halfKeying threeNames _ 2 isIn).mpr
    -- Only the first name sorts before the second.
    simp only [rankIn, keyedEntries, threeNames, halfKeying, List.mapIdx_cons, List.mapIdx_nil,
      List.countP_cons, List.countP_nil, byKeyThenSni_lt_iff, lt_self_iff_false, false_or,
      true_and, aboveSecond, nextThird.not_gt]
    decide
  have first : ⟨"a.example", .finite 1⟩ ∈
      (subsetFromSeed halfKeying secondRaised (Vector.replicate 32 0) 2).entries := by
    have isIn : (lnKey ⟨1 / 2, half_mem⟩ (.finite 1), (⟨"a.example", .finite 1⟩ : PoolEntry)) ∈
        keyedEntries halfKeying secondRaised (Vector.replicate 32 0) := by
      simp [keyedEntries, secondRaised, halfKeying]
    refine (mem_subsetFromSeed halfKeying secondRaised _ 2 _).mpr
      ⟨lnKey ⟨1 / 2, half_mem⟩ (.finite 1), ?_⟩
    apply (mem_topBy_iff_rankIn byKeyThenSni (keyedEntries_nodup ..)
      (keyedEntries_separates _ _ _) 2 isIn).mpr
    -- Only the raised name can sort before the first.
    simp only [rankIn, keyedEntries, secondRaised, halfKeying, List.mapIdx_cons, List.mapIdx_nil,
      List.countP_cons, List.countP_nil, byKeyThenSni_lt_iff, lt_self_iff_false, false_or,
      true_and, aboveThird.not_gt, decide_false, Bool.false_eq_true, if_false]
    split <;> decide
  exact ⟨⟨drawn, kept drawn⟩, first, others _ (by decide) first⟩

end RealityHydra.PoolEngine
