import RealityHydra.HydraClient.Pipeline
import RealityHydra.PoolEngine.Extension

/-!
# Names behind the clock

The sidecar's list is as old as its last run and clocks differ.  What a client draws
from and what the exit node's front accepts then differ by as many draws as the two
windows have epochs that are not in both.
-/

set_option autoImplicit false

namespace RealityHydra.System

open RealityHydra.HydraCli
open RealityHydra.HydraClient
open RealityHydra.PoolEngine
open RealityHydra.Primitives

/-! ## Windows so many epochs apart -/

section Windows

variable {one other : Epoch} {hops : Nat}

def farEpochs (one other : Epoch) : List Epoch :=
  (epochWindow one).filter fun epoch => epoch ∉ epochWindow other

theorem epochAt_apart (epochLen : Duration) (tc ts : UInt64)
    (within : |(tc.toNat : Int) - ts.toNat| ≤ hops * epochSecs epochLen) :
    (epochAt tc epochLen).toNat ≤ (epochAt ts epochLen).toNat + hops ∧
      (epochAt ts epochLen).toNat ≤ (epochAt tc epochLen).toNat + hops := by
  obtain ⟨behind, ahead⟩ := abs_le.mp within
  have positive : 0 < epochSecs epochLen := Nat.lt_of_lt_of_le one_pos (Nat.le_max_left ..)
  have later : ∀ early late : Nat, late ≤ early + hops * epochSecs epochLen →
      late / epochSecs epochLen ≤ early / epochSecs epochLen + hops := by
    intro early late bound
    calc late / epochSecs epochLen
        ≤ (early + hops * epochSecs epochLen) / epochSecs epochLen := Nat.div_le_div_right bound
      _ = early / epochSecs epochLen + hops := Nat.add_mul_div_right early hops positive
  rw [epochAt_toNat, epochAt_toNat]
  have product : (hops * epochSecs epochLen : Int) = ((hops * epochSecs epochLen : Nat) : Int) := by
    push_cast
    rfl
  rw [product] at behind ahead
  exact ⟨later _ _ (by omega), later _ _ (by omega)⟩

/-- Each epoch between them takes one more out of what is shared. -/
theorem farEpochs_length (above : one.toNat ≤ other.toNat + hops)
    (below : other.toNat ≤ one.toNat + hops) : (farEpochs one other).length ≤ min hops 3 := by
  have unit : (1 : UInt64).toNat = 1 := rfl
  have bounded := one.toNat_lt
  have bounded' := other.toNat_lt
  have all : (farEpochs one other).length ≤ 3 := List.length_filter_le _ _
  by_cases many : 3 ≤ hops
  · omega
  · have listed : epochWindow one = [saturatingSub one 1, one, saturatingAdd one 1] := rfl
    rw [farEpochs, listed]
    simp only [List.filter_cons, List.filter_nil, mem_epochWindow_iff, saturatingSub_toNat,
      saturatingAdd_toNat, unit, decide_not, Bool.not_eq_eq_eq_not, Bool.not_true,
      decide_eq_false_iff_not]
    split_ifs <;> simp only [List.length_cons, List.length_nil] <;> omega

theorem exists_shared_epoch (above : one.toNat ≤ other.toNat + 2)
    (below : other.toNat ≤ one.toNat + 2) :
    ∃ epoch, epoch ∈ epochWindow one ∧ epoch ∈ epochWindow other := by
  have unit : (1 : UInt64).toNat = 1 := rfl
  have bounded := one.toNat_lt
  have bounded' := other.toNat_lt
  simp only [mem_epochWindow_iff]
  rcases Nat.lt_trichotomy one.toNat other.toNat with earlier | same | later
  · refine ⟨saturatingAdd one 1, ?_⟩
    rw [saturatingAdd_toNat, unit]
    omega
  · refine ⟨one, ?_⟩
    omega
  · refine ⟨saturatingSub one 1, ?_⟩
    rw [saturatingSub_toNat, unit]
    omega

end Windows

/-! ## Pools so many epochs apart -/

section Pools

variable {Draw K : Type} [LinearOrder K] {keying : Keying Draw K} {cfg : HydraConfig}
  {one other : Epoch} {hops : Nat}

theorem poolFor_distinct (keying : Keying Draw K) (cfg : HydraConfig) (epoch : Epoch) :
    (poolFor keying cfg epoch).entries.Nodup :=
  List.Nodup.of_map _ (acceptedPoolWindow_sorted ..).nodup

theorem lacking_length (above : one.toNat ≤ other.toNat + hops)
    (below : other.toNat ≤ one.toNat + hops) :
    ((poolFor keying cfg one).lacking (poolFor keying cfg other)).length ≤
      min hops 3 * min cfg.activeK cfg.masterList.entries.length := by
  have within : (poolFor keying cfg one).lacking (poolFor keying cfg other) ⊆
      (farEpochs one other).flatMap fun epoch => (cfg.subsetAt keying epoch).entries := by
    intro e isIn
    obtain ⟨isOne, notOther⟩ := (ActivePool.mem_lacking ..).mp isIn
    obtain ⟨far, isFar, drawn⟩ := (mem_poolFor one e).mp isOne
    apply List.mem_flatMap.mpr
    refine ⟨far, ?_, drawn⟩
    rw [farEpochs, List.mem_filter, decide_eq_true_eq]
    refine ⟨isFar, ?_⟩
    intro isNear
    exact notOther ((mem_poolFor other e).mpr ⟨far, isNear, drawn⟩)
  have distinct := (poolFor_distinct keying cfg one).filter
    fun e => decide (e ∉ (poolFor keying cfg other).entries)
  have drawnEach : ∀ epoch, (cfg.subsetAt keying epoch).entries.length =
      min cfg.activeK cfg.masterList.entries.length := fun epoch => subsetFromSeed_length ..
  calc ((poolFor keying cfg one).lacking (poolFor keying cfg other)).length
      ≤ ((farEpochs one other).flatMap fun epoch => (cfg.subsetAt keying epoch).entries).length :=
        (List.subperm_of_subset distinct within).length_le
    _ = (farEpochs one other).length * min cfg.activeK cfg.masterList.entries.length := by
        rw [List.length_flatMap]
        simp [drawnEach]
    _ ≤ min hops 3 * min cfg.activeK cfg.masterList.entries.length :=
        Nat.mul_le_mul_right _ (farEpochs_length above below)

def sharedEntries (first second : ActivePool) : List PoolEntry :=
  first.entries.filter fun e => e ∈ second.entries

theorem sharedEntries_length (above : one.toNat ≤ other.toNat + 2)
    (below : other.toNat ≤ one.toNat + 2) :
    min cfg.activeK cfg.masterList.entries.length ≤
      (sharedEntries (poolFor keying cfg one) (poolFor keying cfg other)).length := by
  obtain ⟨epoch, nearOne, nearOther⟩ := exists_shared_epoch above below
  have within : (cfg.subsetAt keying epoch).entries ⊆
      sharedEntries (poolFor keying cfg one) (poolFor keying cfg other) := by
    intro e drawn
    rw [sharedEntries, List.mem_filter, decide_eq_true_eq]
    exact ⟨(mem_poolFor one e).mpr ⟨epoch, nearOne, drawn⟩,
      (mem_poolFor other e).mpr ⟨epoch, nearOther, drawn⟩⟩
  have sorted : SniSorted (cfg.subsetAt keying epoch).entries := subsetFromSeed_sorted ..
  have drawnEach : (cfg.subsetAt keying epoch).entries.length =
      min cfg.activeK cfg.masterList.entries.length := subsetFromSeed_length ..
  rw [← drawnEach]
  exact sorted.length_le within

end Pools

/-- A client's pool and a list of accepted names made at a time so many epoch lengths
away lack at most one draw of the other for each of them, three at the most.  Up to one
the names of the client's own epoch are all accepted, up to two as many as one draw has
are. -/
theorem stale_names_differ_boundedly {Draw K : Type} [LinearOrder K] (keying : Keying Draw K)
    (cfg : HydraConfig) (tc ts : UInt64) (hops : Nat)
    (within : |(tc.toNat : Int) - ts.toNat| ≤ hops * epochSecs cfg.epochLen)
    (pipeline : Pipeline) (installed : pipeline.InstalledAt keying cfg tc) :
    let accepted := serverNames keying cfg (epochAt ts cfg.epochLen) true
    let draw := min cfg.activeK cfg.masterList.entries.length
    (pipeline.pool.lacking accepted).length ≤ min hops 3 * draw ∧
      (accepted.lacking pipeline.pool).length ≤ min hops 3 * draw ∧
      (hops ≤ 1 → (serverNames keying cfg (epochAt tc cfg.epochLen) false).entries ⊆
        accepted.entries) ∧
      (hops ≤ 2 → draw ≤ (sharedEntries pipeline.pool accepted).length) := by
  intro accepted draw
  obtain ⟨above, below⟩ := epochAt_apart cfg.epochLen tc ts within
  have isAccepted : accepted = poolFor keying cfg (epochAt ts cfg.epochLen) := rfl
  rw [installed.pool, isAccepted]
  refine ⟨lacking_length above below, lacking_length below above, ?_, ?_⟩
  · intro near
    apply keyedEpochSubset_subset_window
    rw [mem_epochWindow_iff]
    omega
  · intro near
    exact sharedEntries_length (by omega) (by omega)

/-- One epoch on, one of the two names of the example's window is not accepted yet. -/
theorem next_epoch_lacks_one_name :
    ((poolFor keyedApartAtThree twoNamesConfig 2).lacking
        (serverNames keyedApartAtThree twoNamesConfig 1 true)).length ≤ 1 ∧
      1 ≤ (sharedEntries (poolFor keyedApartAtThree twoNamesConfig 2)
        (serverNames keyedApartAtThree twoNamesConfig 1 true)).length := by
  have apart : |((2 : UInt64).toNat : Int) - (1 : UInt64).toNat| ≤
      (1 : Nat) * epochSecs twoNamesConfig.epochLen := by decide
  obtain ⟨lacks, -, -, shares⟩ := stale_names_differ_boundedly keyedApartAtThree twoNamesConfig 2 1
    1 apart (Pipeline.withResolver keyedApartAtThree twoNamesConfig 2) (.created)
  exact ⟨lacks, shares (by omega)⟩

end RealityHydra.System
