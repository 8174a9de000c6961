import RealityHydra.Lib.FirstWins
import RealityHydra.PoolEngine.Sampler

/-!
# The accepted window

A server accepts the pools of the epoch before, the epoch and the epoch after.
The union is keyed by SNI and the first entry wins; all three pools come from
one master list, so nothing is lost to a collision.
-/

set_option autoImplicit false

namespace RealityHydra.PoolEngine

open RealityHydra.Lib.ByteCodec
open RealityHydra.Lib.FirstWins
open RealityHydra.Primitives

variable {Draw K : Type} [LinearOrder K] (keying : Keying Draw K)
variable (masterSecret : Bytes) (serverSalt : Vector UInt8 saltLen)

def acceptedPoolWindow (master : MasterList) (epoch : Epoch) (k : Nat) : ActivePool :=
  let union := (epochWindow epoch).foldl (fun union e =>
    insertAll PoolEntry.sni union
      (keyedEpochSubset keying masterSecret serverSalt master e k).entries) ∅
  ActivePool.fromUnsorted (intoValues union)

variable (master : MasterList) (epoch : Epoch) (k : Nat)

def windowEntries : List PoolEntry :=
  ((epochWindow epoch).map fun e =>
    (keyedEpochSubset keying masterSecret serverSalt master e k).entries).flatten

theorem acceptedPoolWindow_eq :
    acceptedPoolWindow keying masterSecret serverSalt master epoch k =
      ActivePool.fromUnsorted (intoValues (insertAll PoolEntry.sni ∅
        (windowEntries keying masterSecret serverSalt master epoch k))) := by
  unfold acceptedPoolWindow windowEntries
  rw [← foldl_insertAll, List.foldl_map]

theorem mem_windowEntries (e : PoolEntry) :
    e ∈ windowEntries keying masterSecret serverSalt master epoch k ↔
      ∃ near ∈ epochWindow epoch,
        e ∈ (keyedEpochSubset keying masterSecret serverSalt master near k).entries := by
  unfold windowEntries
  rw [← List.flatMap_def, List.mem_flatMap]

theorem windowEntries_subset :
    windowEntries keying masterSecret serverSalt master epoch k ⊆ master.entries := by
  intro e isIn
  obtain ⟨near, _, drawn⟩ := (mem_windowEntries ..).mp isIn
  exact subsetFromSeed_members keying master _ k drawn

theorem mem_acceptedPoolWindow (e : PoolEntry) :
    e ∈ (acceptedPoolWindow keying masterSecret serverSalt master epoch k).entries ↔
      ∃ near ∈ epochWindow epoch,
        e ∈ (keyedEpochSubset keying masterSecret serverSalt master near k).entries := by
  have within := windowEntries_subset keying masterSecret serverSalt master epoch k
  rw [acceptedPoolWindow_eq, ActivePool.mem_fromUnsorted, mem_intoValues_insertAll,
    mem_windowEntries]
  intro a inLeft b inRight sameSni
  exact List.inj_on_of_nodup_map master.sorted.nodup (within inLeft) (within inRight)
    sameSni

theorem acceptedPoolWindow_subset :
    (acceptedPoolWindow keying masterSecret serverSalt master epoch k).entries ⊆
      master.entries := by
  intro e isIn
  apply windowEntries_subset keying masterSecret serverSalt master epoch k
  exact (mem_windowEntries ..).mpr ((mem_acceptedPoolWindow ..).mp isIn)

theorem acceptedPoolWindow_sorted :
    SniSorted (acceptedPoolWindow keying masterSecret serverSalt master epoch k).entries := by
  rw [acceptedPoolWindow_eq]
  refine ActivePool.fromUnsorted_sniSorted (List.pairwise_map.mpr ?_)
  apply (intoValues_sorted PoolEntry.sni _).imp
  intro a b before
  exact (compare_lt_iff_lt.mp before).ne

theorem keyedEpochSubset_subset_window {near : Epoch} (isNear : near ∈ epochWindow epoch) :
    (keyedEpochSubset keying masterSecret serverSalt master near k).entries ⊆
      (acceptedPoolWindow keying masterSecret serverSalt master epoch k).entries := by
  intro e drawn
  exact (mem_acceptedPoolWindow ..).mpr ⟨near, isNear, drawn⟩

/-! ## Size -/

theorem SniSorted.length_le {entries others : List PoolEntry}
    (sorted : SniSorted entries) (within : entries ⊆ others) :
    entries.length ≤ others.length :=
  (List.subperm_of_subset (List.Nodup.of_map _ sorted.nodup) within).length_le

theorem windowEntries_length :
    (windowEntries keying masterSecret serverSalt master epoch k).length =
      3 * min k master.entries.length := by
  simp only [windowEntries, epochWindow, keyedEpochSubset, List.map_cons, List.map_nil,
    List.flatten_cons, List.flatten_nil, List.append_nil, List.length_append,
    subsetFromSeed_length]
  omega

theorem acceptedPoolWindow_length :
    min k master.entries.length ≤
        (acceptedPoolWindow keying masterSecret serverSalt master epoch k).entries.length ∧
      (acceptedPoolWindow keying masterSecret serverSalt master epoch k).entries.length ≤
        min (3 * k) master.entries.length := by
  have sorted := acceptedPoolWindow_sorted keying masterSecret serverSalt master epoch k
  have lower := SniSorted.length_le (subsetFromSeed_sorted keying master _ k)
    (keyedEpochSubset_subset_window keying masterSecret serverSalt master epoch k
      (self_mem_epochWindow epoch))
  have ofMaster := sorted.length_le
    (acceptedPoolWindow_subset keying masterSecret serverSalt master epoch k)
  have ofPools : (acceptedPoolWindow keying masterSecret serverSalt master epoch
      k).entries.length ≤
        (windowEntries keying masterSecret serverSalt master epoch k).length := by
    apply sorted.length_le
    intro e isIn
    exact (mem_windowEntries ..).mpr ((mem_acceptedPoolWindow ..).mp isIn)
  rw [subsetFromSeed_length] at lower
  rw [windowEntries_length] at ofPools
  omega

/-- The accepted window is the union of the three pools, and it holds the pool
of any clock at most one epoch length away. -/
theorem accepted_window_absorbs_one_epoch_of_skew :
    (∀ epoch : Epoch,
      (∀ e, e ∈ (acceptedPoolWindow keying masterSecret serverSalt master epoch k).entries ↔
        e ∈ (keyedEpochSubset keying masterSecret serverSalt master
            (saturatingSub epoch 1) k).entries ∨
          e ∈ (keyedEpochSubset keying masterSecret serverSalt master epoch k).entries ∨
          e ∈ (keyedEpochSubset keying masterSecret serverSalt master
            (saturatingAdd epoch 1) k).entries) ∧
      (acceptedPoolWindow keying masterSecret serverSalt master epoch k).entries ⊆
        master.entries ∧
      (acceptedPoolWindow keying masterSecret serverSalt master epoch k).entries.Pairwise
        (fun a b => a.sni < b.sni) ∧
      min k master.entries.length ≤
        (acceptedPoolWindow keying masterSecret serverSalt master epoch k).entries.length ∧
      (acceptedPoolWindow keying masterSecret serverSalt master epoch k).entries.length ≤
        min (3 * k) master.entries.length) ∧
    ∀ (epochLen : Duration) (tc ts : UInt64),
      |(tc.toNat : Int) - ts.toNat| ≤ max 1 epochLen.secs.toNat →
        (keyedEpochSubset keying masterSecret serverSalt master
            (epochAt tc epochLen) k).entries ⊆
          (acceptedPoolWindow keying masterSecret serverSalt master
            (epochAt ts epochLen) k).entries := by
  refine ⟨?_, ?_⟩
  · intro epoch
    refine ⟨?_, acceptedPoolWindow_subset keying masterSecret serverSalt master epoch k,
      acceptedPoolWindow_sorted keying masterSecret serverSalt master epoch k,
      acceptedPoolWindow_length keying masterSecret serverSalt master epoch k⟩
    intro e
    rw [mem_acceptedPoolWindow]
    simp [epochWindow]
  · intro epochLen tc ts within
    apply keyedEpochSubset_subset_window keying masterSecret serverSalt master _ k
    exact epochAt_mem_epochWindow epochLen tc ts (by exact_mod_cast within)

theorem acceptedPoolWindow_mono {small large : Nat} (smaller : small ≤ large) :
    (acceptedPoolWindow keying masterSecret serverSalt master epoch small).entries ⊆
      (acceptedPoolWindow keying masterSecret serverSalt master epoch large).entries := by
  intro e isIn
  obtain ⟨near, isNear, drawn⟩ := (mem_acceptedPoolWindow ..).mp isIn
  exact (mem_acceptedPoolWindow ..).mpr
    ⟨near, isNear, subsetFromSeed_mono keying master _ smaller drawn⟩

end RealityHydra.PoolEngine
