import RealityHydra.PoolEngine.Load
import RealityHydra.PoolEngine.Window

/-!
# The correctness checklist

Eight checks of the pool engine on one configuration.  Six of them the sampler passes
whatever it draws; the other two compare two draws.
-/

set_option autoImplicit false

namespace RealityHydra.Hardening

open RealityHydra.Lib.ByteCodec
open RealityHydra.PoolEngine

structure CheckResult where
  name : String
  passed : Bool
  detail : Option String
  deriving DecidableEq, Repr

structure ChecklistReport where
  results : List CheckResult

def ChecklistReport.allPassed (report : ChecklistReport) : Bool :=
  report.results.all fun r => r.passed

def ChecklistReport.failCount (report : ChecklistReport) : Nat :=
  (report.results.filter fun r => !r.passed).length

def ChecklistReport.failures (report : ChecklistReport) : List CheckResult :=
  report.results.filter fun r => !r.passed

def ChecklistReport.verdicts (report : ChecklistReport) : List (String × Bool) :=
  report.results.map fun r => (r.name, r.passed)

theorem ChecklistReport.allPassed_eq (report : ChecklistReport) :
    report.allPassed = report.verdicts.all Prod.snd := by
  simp only [allPassed, verdicts, List.all_map]
  rfl

theorem ChecklistReport.failures_eq (report : ChecklistReport) :
    report.failures.map CheckResult.name =
      (report.verdicts.filter fun verdict => !verdict.2).map Prod.fst := by
  simp only [failures, verdicts, List.filter_map, List.map_map]
  rfl

section Checks

variable {Draw K : Type} [LinearOrder K] (keying : Keying Draw K)
variable (masterSecret : Bytes) (serverSalt : Vector UInt8 saltLen) (master : MasterList)

/-- `==` of two pools compares their entries. -/
def samePool (a b : ActivePool) : Bool := a.entries == b.entries

def checkPoolDeterminism (epoch : Epoch) (k : Nat) : Bool :=
  let a := keyedEpochSubset keying masterSecret serverSalt master epoch k
  let b := keyedEpochSubset keying masterSecret serverSalt master epoch k
  samePool a b

def checkEpochWindow (epoch : Epoch) (k : Nat) : Bool :=
  let single := keyedEpochSubset keying masterSecret serverSalt master epoch k
  let windowed := acceptedPoolWindow keying masterSecret serverSalt master epoch k
  single.snis.all (fun sni => windowed.contains sni) &&
    single.entries.length ≤ windowed.entries.length

def checkEpochWindowSaturation (k : Nat) : Bool :=
  let windowed := acceptedPoolWindow keying masterSecret serverSalt master 0 k
  !windowed.entries.isEmpty

def checkKClamping (epoch : Epoch) : Bool :=
  let oversizedK := master.entries.length + 100
  let pool := keyedEpochSubset keying masterSecret serverSalt master epoch oversizedK
  pool.entries.length == master.entries.length

def checkSaltIsolation (epoch : Epoch) (k : Nat) : Bool :=
  let saltA := Vector.replicate saltLen 0xAA
  let saltB := Vector.replicate saltLen 0xBB
  let poolA := keyedEpochSubset keying masterSecret saltA master epoch k
  let poolB := keyedEpochSubset keying masterSecret saltB master epoch k
  !samePool poolA poolB

def checkEpochEvolution (k : Nat) : Bool :=
  let poolA := keyedEpochSubset keying masterSecret serverSalt master 100 k
  let poolB := keyedEpochSubset keying masterSecret serverSalt master 200 k
  !samePool poolA poolB

def checkPoolIsSubset (epoch : Epoch) (k : Nat) : Bool :=
  let pool := keyedEpochSubset keying masterSecret serverSalt master epoch k
  pool.snis.all fun sni => master.entries.any fun e => e.sni == sni

def checkPoolSize (epoch : Epoch) (k : Nat) : Bool :=
  let pool := keyedEpochSubset keying masterSecret serverSalt master epoch k
  pool.entries.length == min k master.entries.length

def runChecklist (cfg : HydraConfig) : ChecklistReport :=
  let secret := cfg.masterSecret.toList
  let salt := cfg.serverSalt
  let master := cfg.masterList
  let k := cfg.activeK
  { results :=
      [ { name := "pool_determinism"
          passed := checkPoolDeterminism keying secret salt master 42 k
          detail := some "same (secret, salt, epoch) ⇒ identical subset" },
        { name := "epoch_window_superset"
          passed := checkEpochWindow keying secret salt master 42 k
          detail := some "±1 window is a superset of single-epoch pool" },
        { name := "epoch_window_saturation"
          passed := checkEpochWindowSaturation keying secret salt master k
          detail := some "epoch=0 does not underflow" },
        { name := "k_clamping"
          passed := checkKClamping keying secret salt master 42
          detail := some "k > N is clamped to N" },
        { name := "salt_isolation"
          passed := checkSaltIsolation keying secret master 42 k
          detail := some "different salts ⇒ different pools" },
        { name := "epoch_evolution"
          passed := checkEpochEvolution keying secret salt master k
          detail := some "pool changes across epochs" },
        { name := "pool_is_subset"
          passed := checkPoolIsSubset keying secret salt master 42 k
          detail := some "every pool SNI is in the master list" },
        { name := "pool_size"
          passed := checkPoolSize keying secret salt master 42 k
          detail := some "pool size = min(k, N)" } ] }

/-! ## The checks that always pass -/

section Always

variable (epoch : Epoch) (k : Nat)

theorem samePool_iff (a b : ActivePool) : samePool a b = true ↔ a.entries = b.entries := by
  simp [samePool]

theorem checkPoolDeterminism_passes :
    checkPoolDeterminism keying masterSecret serverSalt master epoch k = true :=
  (samePool_iff _ _).mpr rfl

theorem checkEpochWindow_passes :
    checkEpochWindow keying masterSecret serverSalt master epoch k = true := by
  have near : epoch ∈ epochWindow epoch := by simp [epochWindow]
  have within := keyedEpochSubset_subset_window keying masterSecret serverSalt master epoch k near
  have sorted := subsetFromSeed_sorted keying master
    (deriveSeed keying.hmac masterSecret serverSalt epoch) k
  have shorter := SniSorted.length_le sorted within
  refine Bool.and_eq_true_iff.mpr ⟨?_, decide_eq_true shorter⟩
  refine List.all_eq_true.mpr ?_
  intro sni drawn
  obtain ⟨e, isDrawn, same⟩ := List.mem_map.mp drawn
  exact (ActivePool.contains_iff ..).mpr ⟨e, within isDrawn, same⟩

/-- The window of epoch 0 is that of an epoch of a pool that is never empty. -/
theorem checkEpochWindowSaturation_passes (positive : 0 < k) :
    checkEpochWindowSaturation keying masterSecret serverSalt master k = true := by
  have bounds := acceptedPoolWindow_length keying masterSecret serverSalt master 0 k
  have listed := List.length_pos_of_ne_nil master.acceptable.nonempty
  have some : 0 < (acceptedPoolWindow keying masterSecret serverSalt master 0 k).entries.length := by
    omega
  simp only [checkEpochWindowSaturation, Bool.not_eq_true']
  exact List.isEmpty_eq_false_iff.mpr (List.length_pos_iff.mp some)

theorem checkKClamping_passes :
    checkKClamping keying masterSecret serverSalt master epoch = true := by
  simp [checkKClamping, keyedEpochSubset, subsetFromSeed_length]

theorem checkPoolIsSubset_passes :
    checkPoolIsSubset keying masterSecret serverSalt master epoch k = true := by
  refine List.all_eq_true.mpr ?_
  intro sni drawn
  obtain ⟨e, isDrawn, same⟩ := List.mem_map.mp drawn
  refine List.any_eq_true.mpr ⟨e, subsetFromSeed_members keying master _ k isDrawn, ?_⟩
  rw [same]
  exact beq_self_eq_true sni

theorem checkPoolSize_passes :
    checkPoolSize keying masterSecret serverSalt master epoch k = true := by
  simp [checkPoolSize, keyedEpochSubset, subsetFromSeed_length]

end Always

/-! ## The checks that compare two draws -/

/-- A draw of everything is the master list. -/
theorem subsetFromSeed_all (seed : Seed) {k : Nat} (all : master.entries.length ≤ k) :
    (subsetFromSeed keying master seed k).entries = master.entries := by
  have length : (subsetFromSeed keying master seed k).entries.length = master.entries.length := by
    rw [subsetFromSeed_length]
    omega
  have sorted := subsetFromSeed_sorted keying master seed k
  have within := subsetFromSeed_members keying master seed k
  have subperm := List.subperm_of_subset (List.Nodup.of_map _ sorted.nodup) within
  have perm := subperm.perm_of_length_le (by omega)
  exact perm.eq_of_pairwise (fun a b _ _ ab ba => absurd (lt_trans ab ba) (lt_irrefl _)) sorted
    master.sorted

variable (cfg : HydraConfig)

/-- Two fixed salts draw the same pool for epoch 42. -/
def SaltsDrawAlike : Prop :=
  let draw := fun salt : Vector UInt8 saltLen =>
    keyedEpochSubset keying cfg.masterSecret.toList salt cfg.masterList 42 cfg.activeK
  (draw (Vector.replicate saltLen 0xAA)).entries = (draw (Vector.replicate saltLen 0xBB)).entries

/-- Epochs 100 and 200 draw the same pool. -/
def EpochsDrawAlike : Prop :=
  (cfg.subsetAt keying 100).entries = (cfg.subsetAt keying 200).entries

theorem checkSaltIsolation_iff :
    checkSaltIsolation keying cfg.masterSecret.toList cfg.masterList 42 cfg.activeK = true ↔
      ¬ SaltsDrawAlike keying cfg := by
  simp only [checkSaltIsolation, SaltsDrawAlike, Bool.not_eq_true', ← samePool_iff,
    Bool.not_eq_true]

theorem checkEpochEvolution_iff :
    checkEpochEvolution keying cfg.masterSecret.toList cfg.serverSalt cfg.masterList cfg.activeK =
        true ↔
      ¬ EpochsDrawAlike keying cfg := by
  simp only [checkEpochEvolution, EpochsDrawAlike, HydraConfig.subsetAt, Bool.not_eq_true',
    ← samePool_iff, Bool.not_eq_true]

/-- Whatever is drawn, everything is. -/
theorem draws_alike_of_all (all : cfg.masterList.entries.length ≤ cfg.activeK) :
    SaltsDrawAlike keying cfg ∧ EpochsDrawAlike keying cfg := by
  constructor
  · simp only [SaltsDrawAlike, keyedEpochSubset, subsetFromSeed_all keying _ _ all]
  · simp only [EpochsDrawAlike, HydraConfig.subsetAt, keyedEpochSubset,
      subsetFromSeed_all keying _ _ all]

/-- The results by name: six that passed, and the two draws. -/
theorem runChecklist_passed :
    (runChecklist keying cfg).verdicts =
      [("pool_determinism", true), ("epoch_window_superset", true),
        ("epoch_window_saturation", true), ("k_clamping", true),
        ("salt_isolation",
          checkSaltIsolation keying cfg.masterSecret.toList cfg.masterList 42 cfg.activeK),
        ("epoch_evolution",
          checkEpochEvolution keying cfg.masterSecret.toList cfg.serverSalt cfg.masterList
            cfg.activeK),
        ("pool_is_subset", true), ("pool_size", true)] := by
  simp only [ChecklistReport.verdicts, runChecklist, List.map_cons, List.map_nil,
    checkPoolDeterminism_passes, checkEpochWindow_passes, checkEpochWindowSaturation_passes _ _ _ _ _ cfg.activeK_pos,
    checkKClamping_passes, checkPoolIsSubset_passes, checkPoolSize_passes]

/-- The verdict on every configuration the loader accepts: nothing fails but the two
checks that compare draws, each exactly when the two pools it draws are the same, and
both of them, whatever is drawn, as soon as `active_k` reaches the length of the list. -/
theorem checklist_fails_exactly_on_equal_draws :
    (∀ r ∈ (runChecklist keying cfg).results, r.passed = false ↔
      r.name = "salt_isolation" ∧ SaltsDrawAlike keying cfg ∨
        r.name = "epoch_evolution" ∧ EpochsDrawAlike keying cfg) ∧
    ((runChecklist keying cfg).allPassed = true ↔
      ¬ SaltsDrawAlike keying cfg ∧ ¬ EpochsDrawAlike keying cfg) ∧
    (cfg.masterList.entries.length ≤ cfg.activeK →
      (runChecklist keying cfg).failures.map CheckResult.name =
          ["salt_isolation", "epoch_evolution"] ∧
        (runChecklist keying cfg).failCount = 2) := by
  have passed : (runChecklist keying cfg).verdicts = _ := runChecklist_passed keying cfg
  have salts := checkSaltIsolation_iff keying cfg
  have epochs := checkEpochEvolution_iff keying cfg
  refine ⟨?_, ?_, ?_⟩
  · intro r member
    have listed : (r.name, r.passed) ∈ (runChecklist keying cfg).verdicts :=
      List.mem_map.mpr ⟨r, member, rfl⟩
    rw [passed] at listed
    simp only [List.mem_cons, Prod.mk.injEq, List.not_mem_nil, or_false] at listed
    rcases listed with ⟨name, verdict⟩ | ⟨name, verdict⟩ | ⟨name, verdict⟩ | ⟨name, verdict⟩ |
      ⟨name, verdict⟩ | ⟨name, verdict⟩ | ⟨name, verdict⟩ | ⟨name, verdict⟩
    case inr.inr.inr.inr.inl =>
      rw [name, verdict, ← Bool.not_eq_true, salts, not_not]
      simp
    case inr.inr.inr.inr.inr.inl =>
      rw [name, verdict, ← Bool.not_eq_true, epochs, not_not]
      simp
    all_goals
      rw [name, verdict]
      simp
  · rw [ChecklistReport.allPassed_eq, passed, ← salts, ← epochs]
    simp
  · intro all
    obtain ⟨saltsAlike, epochsAlike⟩ := draws_alike_of_all keying cfg all
    have saltsFail := Bool.eq_false_iff.mpr fun isolated => salts.mp isolated saltsAlike
    have epochsFail := Bool.eq_false_iff.mpr fun evolved => epochs.mp evolved epochsAlike
    have names : (runChecklist keying cfg).failures.map CheckResult.name =
        ["salt_isolation", "epoch_evolution"] := by
      rw [ChecklistReport.failures_eq, passed, saltsFail, epochsFail]
      rfl
    refine ⟨names, ?_⟩
    have counted := congrArg List.length names
    rwa [List.length_map] at counted

end Checks

end RealityHydra.Hardening
