import Mathlib.Logic.Function.Basic
import RealityHydra.HydraClient.Pipeline
import RealityHydra.Lib.Transition

/-!
# Concurrent epoch refreshes

Connection tasks share one pipeline.  A refresh reads the clock, compares the
stored epoch, writes the pool under its lock and publishes the epoch; other
tasks may run between any two of these.
-/

set_option autoImplicit false

namespace RealityHydra.HydraClient

open RealityHydra.Lib.Transition
open RealityHydra.PoolEngine

inductive Call where
  | idle
  | timed (epoch : Epoch)
  | changed (epoch : Epoch)
  | installed (epoch : Epoch)
  deriving DecidableEq, Repr

structure Shared (Task : Type) where
  clock : UInt64
  pipeline : Pipeline
  calls : Task → Call

inductive RefreshAction (Task : Type) where
  | tick (now : UInt64)
  | readClock (task : Task)
  | readStored (task : Task)
  | writePool (task : Task)
  | publish (task : Task)
  deriving DecidableEq, Repr

section Refreshing

variable {Draw K : Type} [LinearOrder K] (keying : Keying Draw K) (cfg : HydraConfig)
variable {Task : Type} [DecidableEq Task]

def Shared.setCall (shared : Shared Task) (task : Task) (call : Call) : Shared Task :=
  { shared with calls := Function.update shared.calls task call }

def Shared.start (now : UInt64) : Shared Task where
  clock := now
  pipeline := Pipeline.withResolver keying cfg now
  calls _ := .idle

def refreshStep (shared : Shared Task) : RefreshAction Task → Option (Shared Task)
  | .tick now => if shared.clock ≤ now then some { shared with clock := now } else none
  | .readClock task =>
      match shared.calls task with
      | .idle => some (shared.setCall task (.timed (epochAt shared.clock cfg.epochLen)))
      | _ => none
  | .readStored task =>
      match shared.calls task with
      | .timed epoch =>
          if shared.pipeline.currentEpoch ≠ epoch then
            some (shared.setCall task (.changed epoch))
          else some (shared.setCall task .idle)
      | _ => none
  | .writePool task =>
      match shared.calls task with
      | .changed epoch =>
          some { shared.setCall task (.installed epoch) with
                 pipeline := { shared.pipeline with pool := poolFor keying cfg epoch } }
      | _ => none
  | .publish task =>
      match shared.calls task with
      | .installed epoch =>
          some { shared.setCall task .idle with
                 pipeline := { shared.pipeline with currentEpoch := epoch } }
      | _ => none

def Shared.Quiescent (shared : Shared Task) : Prop := ∀ task, shared.calls task = .idle

/-- Some call that has written the present pool has still to publish. -/
def Shared.PoolPending (shared : Shared Task) (except : Task → Prop) : Prop :=
  ∃ task epoch, ¬ except task ∧ shared.calls task = .installed epoch ∧
    shared.pipeline.pool = poolFor keying cfg epoch

/-- A publishing call still finds the pool of its own epoch, or leaves it to
another call that wrote the present pool. -/
def PublishesOwnPool (shared : Shared Task) : RefreshAction Task → Prop
  | .publish task =>
      ∀ epoch, shared.calls task = .installed epoch →
        shared.pipeline.pool = poolFor keying cfg epoch ∨
          shared.PoolPending keying cfg (· = task)
  | _ => True

/-- The pool is that of the stored epoch, or a call is about to store its epoch. -/
def Shared.Settling (shared : Shared Task) : Prop :=
  shared.pipeline.InStep keying cfg ∨ shared.PoolPending keying cfg fun _ => False

inductive RefreshEffect (before : Shared Task) :
    RefreshAction Task → Shared Task → Prop where
  | tick (now : UInt64) (later : before.clock ≤ now) :
      RefreshEffect before (.tick now) { before with clock := now }
  | readClock (task : Task) (idle : before.calls task = .idle) :
      RefreshEffect before (.readClock task)
        (before.setCall task (.timed (epochAt before.clock cfg.epochLen)))
  | readStored (task : Task) (epoch : Epoch) (call : Call)
      (timed : before.calls task = .timed epoch) :
      RefreshEffect before (.readStored task) (before.setCall task call)
  | writePool (task : Task) (epoch : Epoch) (changed : before.calls task = .changed epoch) :
      RefreshEffect before (.writePool task)
        { before.setCall task (.installed epoch) with
          pipeline := { before.pipeline with pool := poolFor keying cfg epoch } }
  | publish (task : Task) (epoch : Epoch)
      (installed : before.calls task = .installed epoch) :
      RefreshEffect before (.publish task)
        { before.setCall task .idle with
          pipeline := { before.pipeline with currentEpoch := epoch } }

end Refreshing

section Interleavings

variable {Draw K : Type} [LinearOrder K] {keying : Keying Draw K} {cfg : HydraConfig}
variable {Task : Type} [DecidableEq Task] {before after : Shared Task}

theorem refreshStep_effect {action : RefreshAction Task}
    (taken : refreshStep keying cfg before action = some after) :
    RefreshEffect keying cfg before action after := by
  cases action with
  | tick now =>
      simp only [refreshStep] at taken
      split at taken
      · rename_i later
        cases Option.some.inj taken
        exact RefreshEffect.tick now later
      · contradiction
  | readClock task =>
      simp only [refreshStep] at taken
      split at taken
      · rename_i idle
        cases Option.some.inj taken
        exact RefreshEffect.readClock task idle
      · contradiction
  | readStored task =>
      simp only [refreshStep] at taken
      split at taken
      · rename_i epoch timed
        split at taken
        · cases Option.some.inj taken
          exact RefreshEffect.readStored task epoch _ timed
        · cases Option.some.inj taken
          exact RefreshEffect.readStored task epoch _ timed
      · contradiction
  | writePool task =>
      simp only [refreshStep] at taken
      split at taken
      · rename_i epoch changed
        cases Option.some.inj taken
        exact RefreshEffect.writePool task epoch changed
      · contradiction
  | publish task =>
      simp only [refreshStep] at taken
      split at taken
      · rename_i epoch installed
        cases Option.some.inj taken
        exact RefreshEffect.publish task epoch installed
      · contradiction

theorem Shared.Settling.setCall (settling : before.Settling keying cfg) {task : Task}
    (unwritten : ∀ epoch, before.calls task ≠ .installed epoch) (call : Call) :
    (before.setCall task call).Settling keying cfg := by
  rcases settling with inStep | pending
  · exact Or.inl inStep
  · obtain ⟨other, epoch, _, installed, pool⟩ := pending
    have different : other ≠ task := fun same => unwritten epoch (same ▸ installed)
    refine Or.inr ⟨other, epoch, id, ?_, pool⟩
    simpa [Shared.setCall, different] using installed

theorem Shared.Settling.step {action : RefreshAction Task}
    (settling : before.Settling keying cfg)
    (publishes : PublishesOwnPool keying cfg before action)
    (taken : refreshStep keying cfg before action = some after) :
    after.Settling keying cfg := by
  cases refreshStep_effect taken with
  | tick now later => exact settling
  | readClock task idle =>
      apply settling.setCall
      intro epoch installed
      rw [idle] at installed
      contradiction
  | readStored task epoch call timed =>
      apply settling.setCall
      intro other installed
      rw [timed] at installed
      contradiction
  | writePool task epoch changed =>
      refine Or.inr ⟨task, epoch, id, ?_, rfl⟩
      simp [Shared.setCall]
  | publish task epoch installed =>
      rcases publishes epoch installed with own | pending
      · exact Or.inl own
      · -- the call that wrote the pool is untouched and settles it later
        obtain ⟨other, written, different, otherInstalled, pool⟩ := pending
        refine Or.inr ⟨other, written, id, ?_, pool⟩
        simpa [Shared.setCall, different] using otherInstalled

omit [DecidableEq Task] in
theorem Shared.Settling.inStep {shared : Shared Task}
    (settling : shared.Settling keying cfg) (quiescent : shared.Quiescent) :
    shared.pipeline.InStep keying cfg := by
  rcases settling with inStep | pending
  · exact inStep
  · obtain ⟨task, epoch, _, installed, _⟩ := pending
    rw [quiescent task] at installed
    contradiction

/-- A publish that ends all calls leaves pool and epoch in step only if it still
finds its own pool. -/
theorem publish_inStep_iff {task : Task}
    (taken : refreshStep keying cfg before (.publish task) = some after)
    (quiescent : after.Quiescent) :
    after.pipeline.InStep keying cfg ↔
      PublishesOwnPool keying cfg before (.publish task) := by
  cases refreshStep_effect taken with
  | publish _ epoch installed =>
      refine ⟨?_, ?_⟩
      · intro inStep other sameInstalled
        cases Call.installed.inj (installed.symm.trans sameInstalled)
        exact Or.inl inStep
      · intro publishes
        rcases publishes epoch installed with own | pending
        · exact own
        · obtain ⟨other, written, different, otherInstalled, _⟩ := pending
          have ended := quiescent other
          simp only [Shared.setCall, Function.update_of_ne different] at ended
          rw [ended] at otherInstalled
          contradiction

/-- Run without interruption, the steps of one call are `maybe_refresh_epoch`. -/
theorem refresh_alone (shared : Shared Task) (task : Task)
    (idle : shared.calls task = .idle) :
    ∃ actions, runAll (refreshStep keying cfg) shared actions =
      some { shared with
             pipeline := shared.pipeline.maybeRefreshEpoch keying cfg shared.clock } := by
  have restored : Function.update shared.calls task .idle = shared.calls := by
    rw [← idle, Function.update_eq_self]
  by_cases current : shared.pipeline.currentEpoch = epochAt shared.clock cfg.epochLen
  · refine ⟨[.readClock task, .readStored task], ?_⟩
    simp [runAll, refreshStep, Shared.setCall, idle, current, restored,
      Pipeline.maybeRefreshEpoch]
  · refine ⟨[.readClock task, .readStored task, .writePool task, .publish task], ?_⟩
    simp [runAll, refreshStep, Shared.setCall, idle, current, restored,
      Pipeline.maybeRefreshEpoch]

end Interleavings

/-- In every run in which a publishing call still finds its own pool, or leaves
it to the call that wrote the present one, the pool and the epoch are in step
whenever no call is in progress; a last publish that does not is what breaks it. -/
theorem refreshes_in_step_when_publishing_own_pool {Draw K : Type} [LinearOrder K]
    (keying : Keying Draw K) (cfg : HydraConfig) {Task : Type} [DecidableEq Task]
    (now : UInt64) :
    (∀ shared : Shared Task,
      Reach (refreshStep keying cfg) (PublishesOwnPool keying cfg)
        (Shared.start keying cfg now) shared →
      shared.Quiescent → shared.pipeline.InStep keying cfg) ∧
    ∀ (before after : Shared Task) (task : Task),
      refreshStep keying cfg before (.publish task) = some after →
      after.Quiescent →
        (after.pipeline.InStep keying cfg ↔
          PublishesOwnPool keying cfg before (.publish task)) := by
  refine ⟨?_, fun before after task taken quiescent =>
    publish_inStep_iff taken quiescent⟩
  intro shared reached quiescent
  have settling : shared.Settling keying cfg := by
    apply reached.invariant (Shared.Settling keying cfg) (Or.inl rfl)
    intro before action after settled publishes taken
    exact settled.step publishes taken
  exact settling.inStep quiescent

/-- Two calls overlap and write in the order in which they read the clock. -/
def overlappingRefreshes : List (RefreshAction Nat) :=
  [.tick 1, .readClock 0, .readStored 0, .tick 2, .readClock 1, .readStored 1,
    .writePool 0, .writePool 1]

/-- The first publish leaves the pool to the second call, which publishes its own. -/
theorem overlapping_refreshes_in_step :
    ∃ shared : Shared Nat,
      runAll (refreshStep keyedApartAtThree twoNamesConfig)
        (Shared.start keyedApartAtThree twoNamesConfig 0)
        (overlappingRefreshes ++ [.publish 0, .publish 1]) = some shared ∧
      shared.pipeline.currentEpoch = 2 ∧
      shared.pipeline.InStep keyedApartAtThree twoNamesConfig := by
  obtain ⟨written, wrote, first, second, pool⟩ : ∃ written : Shared Nat,
      runAll (refreshStep keyedApartAtThree twoNamesConfig)
          (Shared.start keyedApartAtThree twoNamesConfig 0) overlappingRefreshes =
          some written ∧
        written.calls 0 = .installed 1 ∧ written.calls 1 = .installed 2 ∧
        written.pipeline.pool = poolFor keyedApartAtThree twoNamesConfig 2 := by
    refine ⟨_, rfl, rfl, rfl, ?_⟩
    exact congrArg (poolFor keyedApartAtThree twoNamesConfig)
      (show epochAt 2 twoNamesConfig.epochLen = 2 by decide)
  obtain ⟨left, leaves, still, kept⟩ : ∃ left : Shared Nat,
      refreshStep keyedApartAtThree twoNamesConfig written (.publish 0) = some left ∧
        left.calls 1 = .installed 2 ∧ left.pipeline.pool = written.pipeline.pool := by
    simp [refreshStep, first, Shared.setCall, second]
  obtain ⟨shared, ran, quiescent, stored⟩ : ∃ shared : Shared Nat,
      runAll (refreshStep keyedApartAtThree twoNamesConfig)
          (Shared.start keyedApartAtThree twoNamesConfig 0)
          (overlappingRefreshes ++ [.publish 0, .publish 1]) = some shared ∧
        shared.Quiescent ∧ shared.pipeline.currentEpoch = 2 := by
    refine ⟨_, rfl, ?_, rfl⟩
    rintro (_ | _ | other) <;> rfl
  have ended : refreshStep keyedApartAtThree twoNamesConfig left (.publish 1) = some shared := by
    simpa [runAll_append, runAll, wrote, leaves] using ran
  have unpublished : Along (refreshStep keyedApartAtThree twoNamesConfig)
      (PublishesOwnPool keyedApartAtThree twoNamesConfig)
      (Shared.start keyedApartAtThree twoNamesConfig 0) overlappingRefreshes := by
    apply along_of_forall
    simp [overlappingRefreshes, PublishesOwnPool]
  have leavesIt : PublishesOwnPool keyedApartAtThree twoNamesConfig written (.publish 0) :=
    fun _ _ => Or.inr ⟨1, 2, by decide, second, pool⟩
  have owns : PublishesOwnPool keyedApartAtThree twoNamesConfig left (.publish 1) := by
    intro epoch installed
    cases Call.installed.inj (still.symm.trans installed)
    exact Or.inl (kept.trans pool)
  have reached := ((reach_of_along wrote unpublished).tail ⟨_, leavesIt, leaves⟩).tail
    ⟨_, owns, ended⟩
  exact ⟨shared, ran, stored,
    (refreshes_in_step_when_publishing_own_pool keyedApartAtThree twoNamesConfig 0).1
      shared reached quiescent⟩

/-- Two calls straddle an epoch boundary: the later one writes first and
publishes last. -/
def racingRefreshes : List (RefreshAction Nat) :=
  [.tick 1, .readClock 0, .readStored 0, .tick 2, .readClock 1, .readStored 1,
    .writePool 1, .writePool 0, .publish 0, .publish 1]

theorem racing_refreshes_leave_stale_pool :
    ¬ ∀ shared : Shared Nat,
      Reach (refreshStep keyedApartAtThree twoNamesConfig) Anything
        (Shared.start keyedApartAtThree twoNamesConfig 0) shared →
      shared.Quiescent → shared.pipeline.InStep keyedApartAtThree twoNamesConfig := by
  intro inStep
  obtain ⟨shared, ran⟩ : ∃ shared,
      runAll (refreshStep keyedApartAtThree twoNamesConfig)
        (Shared.start keyedApartAtThree twoNamesConfig 0) racingRefreshes = some shared :=
    ⟨_, rfl⟩
  have quiescent : shared.Quiescent := by
    intro task
    rw [← Option.some.inj ran]
    rcases task with _ | _ | other <;> rfl
  have pool := inStep shared (reach_of_runAll ran) quiescent
  have stale : shared.pipeline.pool.snis = ["a.example"] ∧
      shared.pipeline.currentEpoch = 2 := by
    rw [← Option.some.inj ran]
    decide
  rw [Pipeline.InStep, stale.2] at pool
  have fresh : (poolFor keyedApartAtThree twoNamesConfig 2).snis =
    ["a.example", "b.example"] := by decide
  rw [← pool, stale.1] at fresh
  exact absurd fresh (by decide)

end RealityHydra.HydraClient
