import RealityHydra.HydraCli.Render
import RealityHydra.PoolEngine.Select

/-!
# The client pipeline's epoch pool

The pipeline installs the three-epoch window as the pool it draws from, and the
server accepts the three-epoch window around its own clock.  Two clocks in
neighbouring epochs therefore differ in one epoch each.
-/

set_option autoImplicit false

namespace RealityHydra.HydraClient

open RealityHydra.HydraCli
open RealityHydra.PoolEngine
open RealityHydra.Primitives

/-- The part of the pipeline that connections share and change. -/
structure Pipeline where
  pool : ActivePool
  currentEpoch : Epoch
  selector : Selector

section Operations

variable {Draw K : Type} [LinearOrder K] (keying : Keying Draw K) (cfg : HydraConfig)

/-- The pool both `with_resolver` and `maybe_refresh_epoch` install. -/
def poolFor (epoch : Epoch) : ActivePool :=
  acceptedPoolWindow keying cfg.masterSecret.toList cfg.serverSalt cfg.masterList epoch
    cfg.activeK

/-- `now` is the wall clock in seconds. -/
def Pipeline.withResolver (now : UInt64) : Pipeline :=
  let epoch := epochAt now cfg.epochLen
  { pool := poolFor keying cfg epoch, currentEpoch := epoch,
    selector := Selector.new 30000 }

def Pipeline.maybeRefreshEpoch (pipeline : Pipeline) (now : UInt64) : Pipeline :=
  let epoch := epochAt now cfg.epochLen
  if pipeline.currentEpoch ≠ epoch then
    { pipeline with pool := poolFor keying cfg epoch, currentEpoch := epoch }
  else pipeline

def Pipeline.selectSni (pipeline : Pipeline) (dest : String) (nowMs : UInt64)
    (random : F64) : Option String × Pipeline :=
  let (sni, selector) := pipeline.selector.select pipeline.pool dest nowMs random
  (sni, { pipeline with selector })

def Pipeline.InStep (pipeline : Pipeline) : Prop :=
  pipeline.pool = poolFor keying cfg pipeline.currentEpoch

/-- Every state one connection after another can bring a pipeline into. -/
inductive Pipeline.Reachable : Pipeline → Prop where
  | created (now : UInt64) : Reachable (Pipeline.withResolver keying cfg now)
  | refreshed {pipeline : Pipeline} (now : UInt64) (before : Reachable pipeline) :
      Reachable (pipeline.maybeRefreshEpoch keying cfg now)
  | selected {pipeline : Pipeline} (dest : String) (nowMs : UInt64) (random : F64)
      (before : Reachable pipeline) :
      Reachable (pipeline.selectSni dest nowMs random).2

/-- The states in which the pool is the one installed or kept at time `now`. -/
inductive Pipeline.InstalledAt (now : UInt64) : Pipeline → Prop where
  | created : InstalledAt now (Pipeline.withResolver keying cfg now)
  | refreshed {pipeline : Pipeline} (before : pipeline.Reachable keying cfg) :
      InstalledAt now (pipeline.maybeRefreshEpoch keying cfg now)

/-- Everything a client at `tc` has in its pool or presents from it is accepted
by a server at `ts`. -/
def ClientAccepted (tc ts : UInt64) : Prop :=
  ∀ pipeline : Pipeline, pipeline.InstalledAt keying cfg tc →
    let accepted := serverNames keying cfg (epochAt ts cfg.epochLen) true
    (∀ e ∈ pipeline.pool.entries, accepted.contains e.sni = true) ∧
      ∀ dest nowMs random sni,
        (pipeline.selectSni dest nowMs random).1 = some sni →
          accepted.contains sni = true

/-- The clocks are in one epoch, or the draws of the client's epoch that is two
away from the server's are all drawn again nearer to it. -/
def FarDrawsRepeat (client server : Epoch) : Prop :=
  client = server ∨
    (client < server ∧
      ∀ e ∈ (cfg.subsetAt keying (saturatingSub client 1)).entries,
        e ∈ (cfg.subsetAt keying client).entries ∨
          e ∈ (cfg.subsetAt keying server).entries ∨
          e ∈ (cfg.subsetAt keying (saturatingAdd server 1)).entries) ∨
    (server < client ∧
      ∀ e ∈ (cfg.subsetAt keying (saturatingAdd client 1)).entries,
        e ∈ (cfg.subsetAt keying (saturatingSub server 1)).entries ∨
          e ∈ (cfg.subsetAt keying server).entries ∨
          e ∈ (cfg.subsetAt keying client).entries)

end Operations

section Skew

variable {Draw K : Type} [LinearOrder K] {keying : Keying Draw K} {cfg : HydraConfig}

theorem Pipeline.maybeRefreshEpoch_currentEpoch (pipeline : Pipeline) (now : UInt64) :
    (pipeline.maybeRefreshEpoch keying cfg now).currentEpoch = epochAt now cfg.epochLen := by
  unfold Pipeline.maybeRefreshEpoch
  dsimp only
  split
  · rfl
  · rename_i current
    exact not_not.mp current

theorem Pipeline.InStep.maybeRefreshEpoch {pipeline : Pipeline}
    (inStep : pipeline.InStep keying cfg) (now : UInt64) :
    (pipeline.maybeRefreshEpoch keying cfg now).InStep keying cfg := by
  unfold Pipeline.maybeRefreshEpoch
  dsimp only
  split
  · rfl
  · exact inStep

theorem Pipeline.Reachable.inStep {pipeline : Pipeline}
    (reachable : pipeline.Reachable keying cfg) : pipeline.InStep keying cfg := by
  induction reachable with
  | created now => rfl
  | refreshed now before ih => exact ih.maybeRefreshEpoch now
  | selected dest nowMs random before ih => exact ih

theorem Pipeline.InstalledAt.pool {now : UInt64} {pipeline : Pipeline}
    (installed : pipeline.InstalledAt keying cfg now) :
    pipeline.pool = poolFor keying cfg (epochAt now cfg.epochLen) := by
  cases installed with
  | created => rfl
  | refreshed before =>
      have inStep := before.inStep.maybeRefreshEpoch now
      rw [Pipeline.InStep, Pipeline.maybeRefreshEpoch_currentEpoch] at inStep
      exact inStep

theorem mem_poolFor (epoch : Epoch) (e : PoolEntry) :
    e ∈ (poolFor keying cfg epoch).entries ↔
      ∃ near ∈ epochWindow epoch, e ∈ (cfg.subsetAt keying near).entries :=
  mem_acceptedPoolWindow ..

/-- An entry of the list is accepted by name only if it is itself in the pool. -/
theorem poolFor_contains_iff (epoch : Epoch) {e : PoolEntry}
    (listed : e ∈ cfg.masterList.entries) :
    (poolFor keying cfg epoch).contains e.sni = true ↔
      ∃ near ∈ epochWindow epoch, e ∈ (cfg.subsetAt keying near).entries := by
  rw [← mem_poolFor, ActivePool.contains_iff]
  refine ⟨?_, fun isIn => ⟨e, isIn, rfl⟩⟩
  intro named
  obtain ⟨other, isIn, sameSni⟩ := named
  have otherListed := acceptedPoolWindow_subset _ _ _ _ _ _ isIn
  have same : other = e :=
    List.inj_on_of_nodup_map cfg.masterList.sorted.nodup otherListed listed sameSni
  exact same ▸ isIn

theorem clientAccepted_iff (tc ts : UInt64) :
    ClientAccepted keying cfg tc ts ↔
      ∀ far ∈ epochWindow (epochAt tc cfg.epochLen),
        ∀ e ∈ (cfg.subsetAt keying far).entries,
          ∃ near ∈ epochWindow (epochAt ts cfg.epochLen),
            e ∈ (cfg.subsetAt keying near).entries := by
  refine ⟨?_, ?_⟩
  · intro accepted far isFar e drawn
    have listed := subsetFromSeed_members keying cfg.masterList _ _ drawn
    have inPool := (mem_poolFor _ e).mpr ⟨far, isFar, drawn⟩
    exact (poolFor_contains_iff _ listed).mp
      ((accepted _ Pipeline.InstalledAt.created).1 e inPool)
  · intro covered pipeline installed accepted
    have pool := installed.pool
    have members : ∀ e ∈ pipeline.pool.entries, accepted.contains e.sni = true := by
      intro e inPool
      rw [pool] at inPool
      obtain ⟨far, isFar, drawn⟩ := (mem_poolFor _ e).mp inPool
      have listed := subsetFromSeed_members keying cfg.masterList _ _ drawn
      exact (poolFor_contains_iff _ listed).mpr (covered far isFar e drawn)
    refine ⟨members, ?_⟩
    intro dest nowMs random sni picked
    have held := Selector.select_mem _ _ _ _ _ _ picked
    obtain ⟨e, inPool, same⟩ := (ActivePool.contains_iff ..).mp held
    exact same ▸ members e inPool

theorem covered_iff_of_behind {client server : Epoch}
    (successor : server.toNat = client.toNat + 1) :
    (∀ far ∈ epochWindow client, ∀ e ∈ (cfg.subsetAt keying far).entries,
        ∃ near ∈ epochWindow server, e ∈ (cfg.subsetAt keying near).entries) ↔
      ∀ e ∈ (cfg.subsetAt keying (saturatingSub client 1)).entries,
        e ∈ (cfg.subsetAt keying client).entries ∨
          e ∈ (cfg.subsetAt keying server).entries ∨
          e ∈ (cfg.subsetAt keying (saturatingAdd server 1)).entries := by
  have one : (1 : UInt64).toNat = 1 := rfl
  have bounded := server.toNat_lt
  have previous : saturatingSub server 1 = client := by
    rw [← UInt64.toNat_inj, saturatingSub_toNat, one]
    omega
  have next : saturatingAdd client 1 = server := by
    rw [← UInt64.toNat_inj, saturatingAdd_toNat, one]
    omega
  simp only [epochWindow, previous, next, List.mem_cons, List.not_mem_nil, or_false,
    forall_eq_or_imp, forall_eq, exists_eq_or_imp, exists_eq_left]
  refine ⟨fun covered => covered.1, fun repeated => ⟨repeated, ?_, ?_⟩⟩
  · exact fun e drawn => Or.inl drawn
  · exact fun e drawn => Or.inr (Or.inl drawn)

theorem covered_iff_of_ahead {client server : Epoch}
    (successor : client.toNat = server.toNat + 1) :
    (∀ far ∈ epochWindow client, ∀ e ∈ (cfg.subsetAt keying far).entries,
        ∃ near ∈ epochWindow server, e ∈ (cfg.subsetAt keying near).entries) ↔
      ∀ e ∈ (cfg.subsetAt keying (saturatingAdd client 1)).entries,
        e ∈ (cfg.subsetAt keying (saturatingSub server 1)).entries ∨
          e ∈ (cfg.subsetAt keying server).entries ∨
          e ∈ (cfg.subsetAt keying client).entries := by
  have one : (1 : UInt64).toNat = 1 := rfl
  have bounded := client.toNat_lt
  have previous : saturatingSub client 1 = server := by
    rw [← UInt64.toNat_inj, saturatingSub_toNat, one]
    omega
  have next : saturatingAdd server 1 = client := by
    rw [← UInt64.toNat_inj, saturatingAdd_toNat, one]
    omega
  simp only [epochWindow, previous, next, List.mem_cons, List.not_mem_nil, or_false,
    forall_eq_or_imp, forall_eq, exists_eq_or_imp, exists_eq_left]
  refine ⟨fun covered => covered.2.2, fun repeated => ⟨?_, ?_, repeated⟩⟩
  · exact fun e drawn => Or.inr (Or.inl drawn)
  · exact fun e drawn => Or.inr (Or.inr drawn)

/-- Between neighbouring epochs only the far end of the client's window counts. -/
theorem covered_iff_farDrawsRepeat (client server : Epoch)
    (adjacent : client ∈ epochWindow server) :
    (∀ far ∈ epochWindow client, ∀ e ∈ (cfg.subsetAt keying far).entries,
        ∃ near ∈ epochWindow server, e ∈ (cfg.subsetAt keying near).entries) ↔
      FarDrawsRepeat keying cfg client server := by
  obtain ⟨notAhead, notBehind⟩ := (mem_epochWindow_iff ..).mp adjacent
  unfold FarDrawsRepeat
  rcases lt_trichotomy client.toNat server.toNat with behind | same | ahead
  · have less := UInt64.lt_iff_toNat_lt.mpr behind
    rw [covered_iff_of_behind (by omega)]
    simp [less, UInt64.ne_of_lt less, UInt64.lt_asymm less]
  · rw [UInt64.toNat_inj.mp same]
    simp only [true_or, iff_true]
    exact fun far isFar e drawn => ⟨far, isFar, drawn⟩
  · have less := UInt64.lt_iff_toNat_lt.mpr ahead
    rw [covered_iff_of_ahead (by omega)]
    simp [less, (UInt64.ne_of_lt less).symm, UInt64.lt_asymm less]

end Skew

/-- With clocks at most one epoch length apart, the server accepts everything
the client can present exactly when the clocks share an epoch or the far draws
repeat. -/
theorem client_pool_accepted_iff {Draw K : Type} [LinearOrder K]
    (keying : Keying Draw K) (cfg : HydraConfig) (tc ts : UInt64)
    (within : |(tc.toNat : Int) - ts.toNat| ≤ max 1 cfg.epochLen.secs.toNat) :
    ClientAccepted keying cfg tc ts ↔
      FarDrawsRepeat keying cfg (epochAt tc cfg.epochLen) (epochAt ts cfg.epochLen) := by
  have adjacent := epochAt_mem_epochWindow cfg.epochLen tc ts (by exact_mod_cast within)
  rw [clientAccepted_iff, covered_iff_farDrawsRepeat _ _ adjacent]

/-- One name is drawn, from two, and epochs last a second. -/
def twoNamesConfig : HydraConfig where
  masterSecret := Vector.replicate secretLen 0
  serverSalt := zeroSalt
  epochLen := ⟨1, 0⟩
  activeK := 1
  masterList := twoNames
  dest := none
  coherenceCidrs := []
  reality := none
  serverAddr := none
  certPin := none
  activeK_pos := by decide

/-- The client is an epoch ahead and draws both names; the name of epoch 5, which
only its window holds, is drawn in epoch 4 as well. -/
theorem client_one_epoch_ahead_is_accepted :
    ClientAccepted keyedApartAtThree twoNamesConfig 4 3 ∧
      (poolFor keyedApartAtThree twoNamesConfig 4).snis = ["a.example", "b.example"] := by
  refine ⟨(client_pool_accepted_iff keyedApartAtThree twoNamesConfig 4 3 (by decide)).mpr ?_,
    by decide⟩
  have repeated : ∀ e ∈ (twoNamesConfig.subsetAt keyedApartAtThree 5).entries,
      e ∈ (twoNamesConfig.subsetAt keyedApartAtThree 4).entries := by decide
  exact Or.inr (Or.inr ⟨by decide, fun e drawn => Or.inr (Or.inr (repeated e drawn))⟩)

/-- A client in epoch 2 also draws from epoch 3; a server in epoch 1 accepts no
name that only epoch 3 draws. -/
theorem client_one_epoch_ahead_is_refused :
    |((2 : UInt64).toNat : Int) - (1 : UInt64).toNat| ≤
        max 1 twoNamesConfig.epochLen.secs.toNat ∧
      ¬ ClientAccepted keyedApartAtThree twoNamesConfig 2 1 := by
  refine ⟨by decide, ?_⟩
  rw [clientAccepted_iff]
  intro covered
  obtain ⟨near, isNear, drawn⟩ := covered 3 (by decide) ⟨"b.example", .finite 1⟩ (by decide)
  have window : epochWindow (epochAt 1 twoNamesConfig.epochLen) = [0, 1, 2] := by decide
  rw [window] at isNear
  simp only [List.mem_cons, List.not_mem_nil, or_false] at isNear
  have undrawn : ⟨"b.example", .finite 1⟩ ∉
      (twoNamesConfig.subsetAt keyedApartAtThree near).entries := by
    rcases isNear with rfl | rfl | rfl
    · decide
    · decide
    · decide
  exact undrawn drawn

end RealityHydra.HydraClient
