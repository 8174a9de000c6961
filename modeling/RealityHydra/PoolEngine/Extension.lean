import RealityHydra.PoolEngine.Coupling
import RealityHydra.PoolEngine.Window

/-!
# Adding names to the master list

The draws go to the entries in SNI order.  Names added behind all the others
leave the draws of the old ones alone, so a newcomer only takes the place of
one old entry, and two sides with the old and the new list stay close.
-/

set_option autoImplicit false

namespace RealityHydra.PoolEngine

open RealityHydra.Lib.ByteCodec
open RealityHydra.Lib.ComparatorSort
open RealityHydra.Primitives

/-! ## Differences of pools -/

def ActivePool.lacking (first second : ActivePool) : List PoolEntry :=
  first.entries.filter fun e => e ∉ second.entries

theorem ActivePool.mem_lacking (first second : ActivePool) (e : PoolEntry) :
    e ∈ first.lacking second ↔ e ∈ first.entries ∧ e ∉ second.entries := by
  simp [lacking]

theorem ActivePool.lacking_length {first second : ActivePool}
    (distinctFirst : first.entries.Nodup) (distinctSecond : second.entries.Nodup) :
    (first.lacking second).length + second.entries.length =
      (second.lacking first).length + first.entries.length := by
  have splitFirst := first.entries.length_eq_length_filter_add fun e => e ∉ second.entries
  have splitSecond := second.entries.length_eq_length_filter_add fun e => e ∉ first.entries
  have shared : (first.entries.filter fun e => !decide (e ∉ second.entries)).Perm
      (second.entries.filter fun e => !decide (e ∉ first.entries)) := by
    apply (List.perm_ext_iff_of_nodup (distinctFirst.filter _) (distinctSecond.filter _)).mpr
    intro e
    simp [and_comm]
  have sameLength := shared.length_eq
  unfold lacking
  omega

/-! ## The longer list -/

section Extension

/-- The second list is the first with entries behind it. -/
structure Extends (old new : MasterList) (added : List PoolEntry) : Prop where
  entries : new.entries = old.entries ++ sortBy bySni added

theorem extends_of_new {olds added : List PoolEntry} {old new : MasterList}
    (behind : ∀ e ∈ olds, ∀ late ∈ added, e.sni < late.sni)
    (builtOld : MasterList.new olds = .ok old)
    (builtNew : MasterList.new (olds ++ added) = .ok new) : Extends old new added := by
  obtain ⟨_, sortedOld⟩ := (MasterList.new_ok_iff ..).mp builtOld
  obtain ⟨acceptable, sortedNew⟩ := (MasterList.new_ok_iff ..).mp builtNew
  have together : (olds ++ added).Perm (sortBy bySni olds ++ sortBy bySni added) :=
    ((sortBy_perm bySni olds).append (sortBy_perm bySni added)).symm
  have sorted : (sortBy bySni olds ++ sortBy bySni added).Pairwise
      fun a b => (bySni a b).isLE := by
    refine List.pairwise_append.mpr
      ⟨sortBy_sorted bySni olds, sortBy_sorted bySni added, ?_⟩
    intro e isOld late isAdded
    rw [(bySni_lt_iff ..).mpr
      (behind e ((mem_sortBy ..).mp isOld) late ((mem_sortBy ..).mp isAdded))]
    rfl
  constructor
  rw [sortedNew, sortedOld]
  apply sorted_unique bySni ((sortBy_perm bySni _).trans together) _
    (sortBy_sorted bySni _) sorted
  apply separates_of_distinct
  exact ((sortBy_perm bySni _).map _).nodup_iff.mpr acceptable.distinct

variable {Draw K : Type} (keying : Keying Draw K)

theorem Extends.keyed_append {old new : MasterList} {added : List PoolEntry}
    (longer : Extends old new added) (seed : Seed) :
    ∃ late, keyedEntries keying new seed = keyedEntries keying old seed ++ late := by
  unfold keyedEntries
  rw [longer.entries, List.mapIdx_append]
  exact ⟨_, rfl⟩

variable [LinearOrder K]

theorem subsetFromSeed_whole (master : MasterList) (seed : Seed) {k : Nat}
    (short : master.entries.length ≤ k) :
    master.entries ⊆ (subsetFromSeed keying master seed k).entries := by
  have drawn := subsetFromSeed_length keying master seed k
  have within := List.subperm_of_subset
    (List.Nodup.of_map _ (subsetFromSeed_sorted keying master seed k).nodup)
    (subsetFromSeed_members keying master seed k)
  have same := within.perm_of_length_le (by omega)
  exact same.symm.subset

variable {old new : MasterList} {added : List PoolEntry} (longer : Extends old new added)

include longer

/-- Of the old entries, only what was drawn before is drawn now. -/
theorem Extends.drawn_before (seed : Seed) (k : Nat) {e : PoolEntry}
    (drawn : e ∈ (subsetFromSeed keying new seed k).entries) :
    e ∈ (subsetFromSeed keying old seed k).entries ∨ e ∈ added := by
  by_cases isAdded : e ∈ added
  · exact Or.inr isAdded
  · left
    have isOld : e ∈ old.entries := by
      have member := subsetFromSeed_members keying new seed k drawn
      rw [longer.entries, List.mem_append, mem_sortBy] at member
      exact member.resolve_right isAdded
    by_cases short : old.entries.length ≤ k
    · exact subsetFromSeed_whole keying old seed short isOld
    · have bound : min k old.entries.length = k := by omega
      have newBound : min k new.entries.length = k := by
        have lengths := congrArg List.length longer.entries
        rw [List.length_append] at lengths
        omega
      obtain ⟨late, split⟩ := longer.keyed_append keying seed
      obtain ⟨key, kept⟩ := (mem_subsetFromSeed ..).mp drawn
      rw [newBound] at kept
      obtain ⟨place, here⟩ := List.get_of_mem isOld
      have keyedOld := mem_keyedEntries keying old seed place
      rw [here] at keyedOld
      have keyedNew : (keyAt keying old seed place, e) ∈ keyedEntries keying new seed := by
        rw [split]
        exact List.mem_append_left late keyedOld
      have sameKey := keyed_unique keying new seed (topBy_subset _ _ _ kept) keyedNew rfl
      rw [sameKey, split] at kept
      apply (mem_subsetFromSeed ..).mpr
      rw [bound]
      refine ⟨_, topBy_append byKeyThenSni ?_ ?_ k keyedOld kept⟩
      · exact split ▸ keyedEntries_nodup keying new seed
      · exact split ▸ keyedEntries_separates keying new seed

theorem Extends.lacking_subset (seed : Seed) (k : Nat) :
    (subsetFromSeed keying new seed k).lacking (subsetFromSeed keying old seed k) ⊆ added := by
  intro e arrived
  obtain ⟨drawn, notBefore⟩ := (ActivePool.mem_lacking ..).mp arrived
  exact (longer.drawn_before keying seed k drawn).resolve_left notBefore

/-- Each entry that drops out makes room for one that was added. -/
theorem Extends.displaced (seed : Seed) (k : Nat) :
    ((subsetFromSeed keying old seed k).lacking (subsetFromSeed keying new seed k)).length +
        (min k new.entries.length - min k old.entries.length) =
      ((subsetFromSeed keying new seed k).lacking
        (subsetFromSeed keying old seed k)).length := by
  have balance := ActivePool.lacking_length
    (List.Nodup.of_map _ (subsetFromSeed_sorted keying old seed k).nodup)
    (List.Nodup.of_map _ (subsetFromSeed_sorted keying new seed k).nodup)
  rw [subsetFromSeed_length, subsetFromSeed_length] at balance
  have lengths := congrArg List.length longer.entries
  rw [List.length_append] at lengths
  omega

theorem Extends.displaced_le (seed : Seed) (k : Nat) :
    ((subsetFromSeed keying old seed k).lacking
      (subsetFromSeed keying new seed k)).length ≤ added.length := by
  have displaced := longer.displaced keying seed k
  have distinct : ((subsetFromSeed keying new seed k).lacking
      (subsetFromSeed keying old seed k)).Nodup :=
    (List.Nodup.of_map _ (subsetFromSeed_sorted keying new seed k).nodup).filter _
  have within := List.subperm_of_subset distinct (longer.lacking_subset keying seed k)
  have bound := within.length_le
  omega

end Extension

/-! ## Rolling a longer list out -/

variable {Draw K : Type} [LinearOrder K] (keying : Keying Draw K)

/-- Names added behind the old ones: the window of either list holds the pools
of the other but for at most as many entries as were added. -/
theorem longer_list_rolls_out_gradually (olds added : List PoolEntry)
    (behind : ∀ e ∈ olds, ∀ late ∈ added, e.sni < late.sni) (old new : MasterList)
    (builtOld : MasterList.new olds = .ok old)
    (builtNew : MasterList.new (olds ++ added) = .ok new)
    (masterSecret : Bytes) (serverSalt : Vector UInt8 saltLen) (k : Nat) :
    (∀ epoch,
      let before := keyedEpochSubset keying masterSecret serverSalt old epoch k
      let after := keyedEpochSubset keying masterSecret serverSalt new epoch k
      after.lacking before ⊆ added ∧
        (before.lacking after).length ≤ (after.lacking before).length ∧
        (k ≤ olds.length → (before.lacking after).length = (after.lacking before).length)) ∧
    ∀ epoch, ∀ near ∈ epochWindow epoch,
      ((keyedEpochSubset keying masterSecret serverSalt old near k).lacking
        (acceptedPoolWindow keying masterSecret serverSalt new epoch k)).length ≤
          added.length ∧
      (keyedEpochSubset keying masterSecret serverSalt new near k).lacking
        (acceptedPoolWindow keying masterSecret serverSalt old epoch k) ⊆ added := by
  have longer := extends_of_new behind builtOld builtNew
  have sizeOld : old.entries.length = olds.length := by
    rw [((MasterList.new_ok_iff ..).mp builtOld).2, length_sortBy]
  have sizeNew : new.entries.length = olds.length + added.length := by
    rw [((MasterList.new_ok_iff ..).mp builtNew).2, length_sortBy, List.length_append]
  refine ⟨?_, ?_⟩
  · intro epoch before after
    have displaced : (before.lacking after).length +
        (min k new.entries.length - min k old.entries.length) =
          (after.lacking before).length := longer.displaced keying _ k
    refine ⟨longer.lacking_subset keying _ k, by omega, ?_⟩
    intro enough
    omega
  · intro epoch near isNear
    refine ⟨?_, ?_⟩
    · refine le_trans ?_ (longer.displaced_le keying
        (deriveSeed keying.hmac masterSecret serverSalt near) k)
      apply List.Sublist.length_le
      apply List.monotone_filter_right
      intro e outside
      rw [decide_eq_true_eq] at outside ⊢
      intro drawn
      exact outside (keyedEpochSubset_subset_window keying masterSecret serverSalt new epoch k
        isNear drawn)
    · intro e arrived
      obtain ⟨drawn, outside⟩ := (ActivePool.mem_lacking ..).mp arrived
      apply (longer.drawn_before keying _ k drawn).resolve_left
      intro before
      exact outside (keyedEpochSubset_subset_window keying masterSecret serverSalt old epoch k
        isNear before)

theorem second_name_rolls_out :
    ∃ old new, MasterList.new [⟨"a.example", .finite 1⟩] = .ok old ∧
      MasterList.new ([⟨"a.example", .finite 1⟩] ++ [⟨"b.example", .finite 2⟩]) = .ok new ∧
      ∀ epoch, ∀ near ∈ epochWindow epoch,
        ((keyedEpochSubset halfKeying [] (Vector.replicate saltLen 0) old near 1).lacking
          (acceptedPoolWindow halfKeying [] (Vector.replicate saltLen 0) new epoch 1)).length ≤
            1 := by
  have acceptableOld : Acceptable [⟨"a.example", .finite 1⟩] :=
    ⟨by simp, by simp, by simp [PoolEntry.Weighted], by simp⟩
  have acceptableNew : Acceptable ([⟨"a.example", .finite 1⟩] ++ [⟨"b.example", .finite 2⟩]) :=
    ⟨by simp, by simp, by simp [PoolEntry.Weighted], by simp⟩
  have behind : ∀ e ∈ [(⟨"a.example", .finite 1⟩ : PoolEntry)],
      ∀ late ∈ [(⟨"b.example", .finite 2⟩ : PoolEntry)], e.sni < late.sni := by
    intro e isOld late isAdded
    rw [List.mem_singleton.mp isOld, List.mem_singleton.mp isAdded]
    decide
  obtain ⟨old, builtOld⟩ := MasterList.exists_of_acceptable acceptableOld
  obtain ⟨new, builtNew⟩ := MasterList.exists_of_acceptable acceptableNew
  refine ⟨old, new, builtOld, builtNew, ?_⟩
  intro epoch near isNear
  have rollsOut := longer_list_rolls_out_gradually halfKeying _ _ behind old new builtOld
    builtNew [] (Vector.replicate saltLen 0) 1
  exact (rollsOut.2 epoch near isNear).1

end RealityHydra.PoolEngine
