import RealityHydra.HydraClient.Connection
import RealityHydra.PoolEngine.Load

/-!
# The pool stays live

From the checks of the loader to every choice of every connection: the pool a
pipeline draws from is never empty, so its fixed fallback name is never used.
-/

set_option autoImplicit false

namespace RealityHydra.HydraClient

open RealityHydra.Lib.Base64
open RealityHydra.Lib.ByteCodec
open RealityHydra.Lib.Transition
open RealityHydra.PoolEngine

section Names

variable {Draw K : Type} {setup : PipelineSetup Draw K}

/-- The names a connection presents are of the master list. -/
structure Connection.Listed (setup : PipelineSetup Draw K) (connection : Connection) : Prop where
  warming : ∀ addr nowMs sni, connection.phase = .warming addr nowMs sni → setup.Lists sni
  dialed : ∀ dialed, connection.dialed = some dialed → setup.Lists dialed.sni

/-- A phase that asks for no name. -/
theorem Connection.Listed.of_phase {connection : Connection} {phase : Phase}
    (isPhase : connection.phase = phase) (asksNone : ∀ addr nowMs sni, phase ≠ .warming addr nowMs sni)
    (dialed : ∀ dialed, connection.dialed = some dialed → setup.Lists dialed.sni) :
    connection.Listed setup where
  warming addr nowMs sni warming := (asksNone addr nowMs sni (isPhase.symm.trans warming)).elim
  dialed := dialed

theorem Connection.Listed.step {connection later : Connection}
    (listed : connection.Listed setup) (moved : ConnectionStep setup connection later) :
    later.Listed setup := by
  cases moved with
  | shakeHands waiting =>
      unfold Connection.shakeHands
      split
      · exact Connection.Listed.of_phase rfl nofun listed.dialed
      · exact Connection.Listed.of_phase rfl nofun listed.dialed
  | refresh addr accepted => exact Connection.Listed.of_phase rfl nofun listed.dialed
  | readMillis addr nowMs refreshing => exact Connection.Listed.of_phase rfl nofun listed.dialed
  | choose addr nowMs sni choosing isListed =>
      refine ⟨?_, listed.dialed⟩
      intro _ _ _ same
      cases same
      exact isListed
  | unset addr nowMs sni warming => exact Connection.Listed.of_phase rfl nofun listed.dialed
  | dial addr dialed tunnel now warming isTarget isResult =>
      have named := listed.warming addr dialed.nowMs dialed.sni warming
      have recorded : ∀ other, some dialed = some other → setup.Lists other.sni := by
        intro other same
        cases same
        exact named
      unfold Connection.dial
      split
      · exact Connection.Listed.of_phase rfl nofun recorded
      · exact Connection.Listed.of_phase rfl nofun recorded
  | relay download addr relaying => exact ⟨listed.warming, listed.dialed⟩
  | finish addr relaying => exact Connection.Listed.of_phase rfl nofun listed.dialed

end Names

theorem Shared.Installed.bounds {Draw K Task : Type} [LinearOrder K]
    {setup : PipelineSetup Draw K} {shared : Shared Task} (installed : shared.Installed setup) :
    min setup.cfg.activeK setup.cfg.masterList.entries.length ≤
        shared.pipeline.pool.entries.length ∧
      shared.pipeline.pool.entries.length ≤
        min (3 * setup.cfg.activeK) setup.cfg.masterList.entries.length ∧
      shared.pipeline.pool.entries ⊆ setup.cfg.masterList.entries := by
  obtain ⟨epoch, pool⟩ := installed
  rw [pool, poolFor]
  have bounds := acceptedPoolWindow_length setup.keying setup.cfg.masterSecret.toList
    setup.cfg.serverSalt setup.cfg.masterList epoch setup.cfg.activeK
  exact ⟨bounds.1, bounds.2, acceptedPoolWindow_subset ..⟩

/-- What the loader accepts is within its bounds, and over every history of
refreshes and selections the pool holds names of its master list, as many as
`active_k` asks for; so every connection presents one of them. -/
theorem accepted_config_keeps_pool_live {Draw K : Type} [LinearOrder K] (base64 : Engine)
    (raw : RawConfig) (setup : PipelineSetup Draw K)
    (accepted : raw.intoConfig base64 = .ok setup.cfg) :
    (∃ secret salt : Bytes,
      decodeB64 base64 "master_secret" raw.masterSecret = .ok secret ∧ secret.length = 32 ∧
      decodeB64 base64 "server_salt" raw.serverSalt = .ok salt ∧ salt.length = 16 ∧
      setup.cfg.masterSecret.toList = secret ∧ setup.cfg.serverSalt.toList = salt) ∧
    1 ≤ setup.cfg.activeK ∧ setup.cfg.activeK = raw.activeK ∧
    (∀ settings, setup.cfg.reality = some settings →
      ∀ shortId ∈ settings.shortIds, shortId.length ≤ 32) ∧
    setup.cfg.masterList.entries ≠ [] ∧ setup.cfg.masterList.entries.Perm raw.pool ∧
    setup.cfg.masterList.entries.Pairwise (fun a b => a.sni < b.sni) ∧
    ∀ (Task : Type) [DecidableEq Task] (now : UInt64) (streams : Task → Bytes) (hub : Hub Task),
      Reach (hubStep setup) Anything (Hub.start setup now streams) hub →
      let pool := hub.refreshing.pipeline.pool
      min setup.cfg.activeK setup.cfg.masterList.entries.length ≤ pool.entries.length ∧
      pool.entries.length ≤ min (3 * setup.cfg.activeK) setup.cfg.masterList.entries.length ∧
      pool.entries ⊆ setup.cfg.masterList.entries ∧
      (∀ dest nowMs random, ∃ sni,
        (hub.selectSni dest nowMs random).1 = some sni ∧ setup.Lists sni) ∧
      ∀ task, (hub.connections task).Listed setup := by
  have loads := RawConfig.intoConfig_ok_iff.mp accepted
  refine ⟨⟨_, _, loads.secret, Vector.length_toList, loads.salt, Vector.length_toList, rfl, rfl⟩,
    setup.cfg.activeK_pos, loads.activeK, fun settings present => loads.shortIds present,
    setup.cfg.masterList.acceptable.nonempty, ?_, setup.cfg.masterList.sorted, ?_⟩
  · rw [loads.entries.2]
    exact RealityHydra.Lib.ComparatorSort.sortBy_perm bySni raw.pool
  · intro Task _ now streams hub reached pool
    have installed := reachable_installed reached
    obtain ⟨atLeast, atMost, within⟩ := installed.bounds
    refine ⟨atLeast, atMost, within, installed.picks, ?_⟩
    intro task
    apply reachable_connection (Connection.Listed setup) reached
    · have waiting : ((Hub.start setup now streams).connections task).phase = .waiting := rfl
      apply Connection.Listed.of_phase waiting nofun
      intro dialed undialed
      cases undialed
    · exact fun connection later listed moved => listed.step moved

/-- Two names out of order, and all-zero keys. -/
def twoNamesDocument : RawConfig where
  masterSecret := "base64:AAAAAAAAAAAAAAAAAAAAAAAAAAAAAAAAAAAAAAAAAAA="
  serverSalt := " AAAAAAAAAAAAAAAAAAAAAA=="
  poolFormat := "hydra-pool-v1"
  epochLen := "1s"
  activeK := 1
  dest := none
  coherenceCidrs := []
  pool := [⟨"b.example", .finite 1⟩, ⟨"a.example", .finite 1⟩]
  reality := none
  serverAddr := none
  certPin := none

theorem twoNamesDocument_loads : twoNamesDocument.Loads standard twoNamesConfig where
  format := rfl
  secret := by decide +kernel
  salt := by decide +kernel
  activeK := rfl
  epochLen := by decide +kernel
  masterList := by
    refine (MasterList.new_ok_iff ..).mpr ⟨?_, by decide +kernel⟩
    exact ⟨by decide, by decide, by simp [twoNamesDocument, PoolEntry.Weighted], by decide⟩
  reality := Option.Rel.none
  certPin := Option.Rel.none
  dest := rfl
  coherenceCidrs := rfl
  serverAddr := rfl

theorem two_names_keep_pool_live :
    twoNamesDocument.intoConfig standard = .ok twoNamesConfig ∧
    ∀ hub : Hub Nat,
      Reach (hubStep twoNamesSetup) Anything (Hub.start twoNamesSetup 0 fun _ => []) hub →
      min twoNamesSetup.cfg.activeK twoNamesSetup.cfg.masterList.entries.length ≤
          hub.refreshing.pipeline.pool.entries.length ∧
      ∀ dest nowMs random, ∃ sni,
        (hub.selectSni dest nowMs random).1 = some sni ∧ twoNamesSetup.Lists sni := by
  have accepted : twoNamesDocument.intoConfig standard = .ok twoNamesSetup.cfg :=
    RawConfig.intoConfig_ok_iff.mpr twoNamesDocument_loads
  refine ⟨accepted, ?_⟩
  intro hub reached
  have live := accepted_config_keeps_pool_live standard twoNamesDocument twoNamesSetup accepted
  obtain ⟨atLeast, _, _, picks, _⟩ := live.2.2.2.2.2.2.2 Nat 0 (fun _ => []) hub reached
  exact ⟨atLeast, picks⟩

end RealityHydra.HydraClient
