import RealityHydra.DnsWarmer.Completed
import RealityHydra.HydraClient.Refresh
import RealityHydra.HydraClient.Tunnel

/-!
# Connections through one pipeline

Every connection is a task of its own: the SOCKS5 handshake, a refresh of the
epoch, the choice of a name, its warm, and the tunnel.  They share the pool, the
selector and the resolver cache, and between any two steps of one the others may
run and the clock may be set.
-/

set_option autoImplicit false

namespace RealityHydra.HydraClient

open RealityHydra.DnsWarmer
open RealityHydra.Lib.ByteCodec
open RealityHydra.Lib.ByteSocket
open RealityHydra.Lib.Transition
open RealityHydra.PoolEngine
open RealityHydra.TunnelProto

/-- What a pipeline is built from; `schemes` and `versions` are the TLS
library's. -/
structure PipelineSetup (Draw K : Type) where
  keying : Keying Draw K
  cfg : HydraConfig
  warmerConfig : WarmerConfig
  env : ClientEnv
  schemes : List SignatureScheme
  versions : Except String Unit

def PipelineSetup.buildTunnel {Draw K : Type} (setup : PipelineSetup Draw K) :
    Option TunnelClient :=
  (setup.cfg.serverAddr.or setup.cfg.dest).bind fun addr =>
    (TunnelClient.new setup.schemes setup.versions addr setup.cfg.certPin
      setup.cfg.masterSecret.toList).toOption

/-- The dialer is built from three fields of the configuration. -/
theorem buildTunnel_fields {Draw K : Type} {setup : PipelineSetup Draw K} {tunnel : TunnelClient}
    (built : setup.buildTunnel = some tunnel) :
    setup.cfg.serverAddr.or setup.cfg.dest = some tunnel.serverAddr ∧
      tunnel.verifier.pin = setup.cfg.certPin ∧
      tunnel.masterSecret = setup.cfg.masterSecret.toList := by
  obtain ⟨addr, isAddr, made⟩ := Option.bind_eq_some_iff.mp built
  unfold TunnelClient.new at made
  cases versions : setup.versions with
  | error text =>
      rw [versions] at made
      contradiction
  | ok _ =>
      rw [versions] at made
      cases made
      exact ⟨isAddr, rfl, rfl⟩

theorem buildTunnel_of_addr {Draw K : Type} {setup : PipelineSetup Draw K} {addr : String}
    (isAddr : setup.cfg.serverAddr.or setup.cfg.dest = some addr)
    (versions : setup.versions = .ok ()) : ∃ tunnel, setup.buildTunnel = some tunnel := by
  simp only [PipelineSetup.buildTunnel, isAddr, TunnelClient.new, versions, Option.bind_some]
  exact ⟨_, rfl⟩

/-- A pipeline over two names, with no exit node. -/
def twoNamesSetup : PipelineSetup Nat Nat where
  keying := keyedApartAtThree
  cfg := twoNamesConfig
  warmerConfig := WarmerConfig.standard
  env := firstByteEnv
  schemes := []
  versions := .ok ()

/-- One call of `tunnel.open`: what it was given, the peer it met and its result. -/
structure Dial where
  sni : String
  nowMs : UInt64
  target : Target
  peer : Peer
  result : Except ClientError Unit

inductive Phase where
  | waiting
  | accepted (addr : Socks5Addr)
  | refreshing (addr : Socks5Addr)
  | choosing (addr : Socks5Addr) (nowMs : UInt64)
  | warming (addr : Socks5Addr) (nowMs : UInt64) (sni : String)
  | relaying (addr : Socks5Addr)
  | finished (result : Except ClientError Unit)
  deriving DecidableEq

/-- `socket` is the application's: what it has still to be read, and what it was
sent. -/
structure Connection where
  socket : Sock
  phase : Phase
  dialed : Option Dial

structure Hub (Task : Type) where
  refreshing : Shared Task
  warming : Warming Task
  connections : Task → Connection

inductive HubAction (Task : Type) where
  | setClock (now : UInt64)
  | refresh (action : RefreshAction Task)
  | pick (dest : String) (nowMs : UInt64) (random : F64)
  | handshake (task : Task)
  | beginRefresh (task : Task)
  | readMillis (task : Task) (nowMs : UInt64)
  | choose (task : Task) (random : F64)
  | warm (action : WarmAction Task)
  | dial (task : Task) (peer : Peer) (now : UInt64)
  | relay (task : Task) (download : Bytes)
  | finish (task : Task)

/-- The steps of a warm after its call. -/
def warmProceeds {Task : Type} : WarmAction Task → Bool
  | .look _ | .answer _ _ | .record _ => true
  | .call _ _ _ | .evict _ => false

def fallbackSni : String := "www.microsoft.com"

def Connection.shakeHands (connection : Connection) : Connection :=
  match handshake connection.socket with
  | .ok addr socket => { connection with socket, phase := .accepted addr }
  | .error e socket => { connection with socket, phase := .finished (.error (.socks5 e)) }

def Connection.enter (connection : Connection) (phase : Phase) : Connection :=
  { connection with phase }

def Connection.receive (connection : Connection) (download : Bytes) : Connection :=
  { connection with
    socket := { connection.socket with written := connection.socket.written ++ download } }

/-- The result of `open` and the call's record. -/
def Connection.dial (connection : Connection) (addr : Socks5Addr) (dialed : Dial) : Connection :=
  match dialed.result with
  | .ok _ => { connection with phase := .relaying addr, dialed := some dialed }
  | .error e => { connection with phase := .finished (.error e), dialed := some dialed }

section Machine

variable {Draw K : Type} [LinearOrder K] (setup : PipelineSetup Draw K)
variable {Task : Type} [DecidableEq Task]

def Hub.start (now : UInt64) (streams : Task → Bytes) : Hub Task where
  refreshing := Shared.start setup.keying setup.cfg now
  warming := Warming.start
  connections task := ⟨⟨streams task, []⟩, .waiting, none⟩

def Hub.setConnection (hub : Hub Task) (task : Task) (connection : Connection) : Hub Task :=
  { hub with connections := Function.update hub.connections task connection }

def Hub.selectSni (hub : Hub Task) (dest : String) (nowMs : UInt64) (random : F64) :
    Option String × Hub Task :=
  let (picked, pipeline) := hub.refreshing.pipeline.selectSni dest nowMs random
  (picked, { hub with refreshing := { hub.refreshing with pipeline } })

def hubStep (hub : Hub Task) : HubAction Task → Option (Hub Task)
  | .setClock now => some { hub with refreshing := { hub.refreshing with clock := now } }
  | .refresh action =>
      (refreshStep setup.keying setup.cfg hub.refreshing action).map fun refreshing =>
        { hub with refreshing }
  | .pick dest nowMs random => some (hub.selectSni dest nowMs random).2
  | .handshake task =>
      match (hub.connections task).phase with
      | .waiting => some (hub.setConnection task (hub.connections task).shakeHands)
      | _ => none
  | .beginRefresh task =>
      match (hub.connections task).phase with
      | .accepted addr =>
          (refreshStep setup.keying setup.cfg hub.refreshing (.readClock task)).map
            fun refreshing =>
              { hub with refreshing }.setConnection task
                ((hub.connections task).enter (.refreshing addr))
      | _ => none
  | .readMillis task nowMs =>
      match (hub.connections task).phase, hub.refreshing.calls task with
      | .refreshing addr, .idle =>
          some (hub.setConnection task ((hub.connections task).enter (.choosing addr nowMs)))
      | _, _ => none
  | .choose task random =>
      match (hub.connections task).phase with
      | .choosing addr nowMs =>
          let (picked, hub) := hub.selectSni (socksToTarget addr).display nowMs random
          let sni := picked.getD fallbackSni
          (warmStep setup.warmerConfig hub.warming (.call task sni nowMs)).map fun warming =>
            { hub with warming }.setConnection task
              ((hub.connections task).enter (.warming addr nowMs sni))
      | _ => none
  | .warm action =>
      if warmProceeds action then
        (warmStep setup.warmerConfig hub.warming action).map fun warming =>
          { hub with warming }
      else none
  | .dial task peer now =>
      match (hub.connections task).phase, hub.warming.calls task with
      | .warming addr nowMs sni, .returned _ _ _ _ =>
          -- a failed warm is noted and the connection goes on
          match setup.buildTunnel with
          | none =>
              some (hub.setConnection task
                ((hub.connections task).enter (.finished (.error .noServerAddr))))
          | some tunnel =>
              let target := socksToTarget addr
              let result := (tunnel.open setup.env peer sni target now).result
              some (hub.setConnection task
                ((hub.connections task).dial addr ⟨sni, nowMs, target, peer, result⟩))
      | _, _ => none
  | .relay task download =>
      match (hub.connections task).phase with
      | .relaying _ => some (hub.setConnection task ((hub.connections task).receive download))
      | _ => none
  | .finish task =>
      match (hub.connections task).phase with
      | .relaying _ =>
          some (hub.setConnection task ((hub.connections task).enter (.finished (.ok ()))))
      | _ => none

inductive HubEffect (before : Hub Task) : HubAction Task → Hub Task → Prop where
  | setClock (now : UInt64) :
      HubEffect before (.setClock now)
        { before with refreshing := { before.refreshing with clock := now } }
  | refresh (action : RefreshAction Task) (refreshing : Shared Task)
      (stepped : refreshStep setup.keying setup.cfg before.refreshing action = some refreshing) :
      HubEffect before (.refresh action) { before with refreshing }
  | pick (dest : String) (nowMs : UInt64) (random : F64) :
      HubEffect before (.pick dest nowMs random) (before.selectSni dest nowMs random).2
  | handshake (task : Task) (waiting : (before.connections task).phase = .waiting) :
      HubEffect before (.handshake task)
        (before.setConnection task (before.connections task).shakeHands)
  | beginRefresh (task : Task) (addr : Socks5Addr) (refreshing : Shared Task)
      (accepted : (before.connections task).phase = .accepted addr)
      (stepped : refreshStep setup.keying setup.cfg before.refreshing (.readClock task) =
        some refreshing) :
      HubEffect before (.beginRefresh task)
        ({ before with refreshing }.setConnection task
          ((before.connections task).enter (.refreshing addr)))
  | readMillis (task : Task) (addr : Socks5Addr) (nowMs : UInt64)
      (refreshing : (before.connections task).phase = .refreshing addr) :
      HubEffect before (.readMillis task nowMs)
        (before.setConnection task ((before.connections task).enter (.choosing addr nowMs)))
  | choose (task : Task) (addr : Socks5Addr) (nowMs : UInt64) (random : F64) (sni : String)
      (warming : Warming Task) (choosing : (before.connections task).phase = .choosing addr nowMs)
      (picked : sni = (before.selectSni (socksToTarget addr).display nowMs random).1.getD
        fallbackSni)
      (stepped : warmStep setup.warmerConfig before.warming (.call task sni nowMs) =
        some warming) :
      HubEffect before (.choose task random)
        ({ (before.selectSni (socksToTarget addr).display nowMs random).2 with
            warming }.setConnection task
          ((before.connections task).enter (.warming addr nowMs sni)))
  | warm (action : WarmAction Task) (warming : Warming Task) (proceeds : warmProceeds action)
      (stepped : warmStep setup.warmerConfig before.warming action = some warming) :
      HubEffect before (.warm action) { before with warming }
  | unset (task : Task) (peer : Peer) (now : UInt64) (addr : Socks5Addr) (nowMs : UInt64)
      (sni : String) (warming : (before.connections task).phase = .warming addr nowMs sni)
      (unbuilt : setup.buildTunnel = none) :
      HubEffect before (.dial task peer now)
        (before.setConnection task
          ((before.connections task).enter (.finished (.error .noServerAddr))))
  | dial (task : Task) (peer : Peer) (now : UInt64) (addr : Socks5Addr) (dialed : Dial)
      (tunnel : TunnelClient)
      (warming : (before.connections task).phase = .warming addr dialed.nowMs dialed.sni)
      (returned : ∃ host time since result,
        before.warming.calls task = .returned host time since result)
      (built : setup.buildTunnel = some tunnel)
      (isTarget : dialed.target = socksToTarget addr) (isPeer : dialed.peer = peer)
      (isResult : dialed.result =
        (tunnel.open setup.env peer dialed.sni dialed.target now).result) :
      HubEffect before (.dial task peer now)
        (before.setConnection task ((before.connections task).dial addr dialed))
  | relay (task : Task) (download : Bytes) (addr : Socks5Addr)
      (relaying : (before.connections task).phase = .relaying addr) :
      HubEffect before (.relay task download)
        (before.setConnection task ((before.connections task).receive download))
  | finish (task : Task) (addr : Socks5Addr)
      (relaying : (before.connections task).phase = .relaying addr) :
      HubEffect before (.finish task)
        (before.setConnection task ((before.connections task).enter (.finished (.ok ()))))

variable {setup} {before after : Hub Task}

theorem hubStep_effect {action : HubAction Task}
    (taken : hubStep setup before action = some after) : HubEffect setup before action after := by
  cases action with
  | setClock now =>
      cases Option.some.inj taken
      exact HubEffect.setClock now
  | refresh action =>
      obtain ⟨refreshing, stepped, same⟩ := Option.map_eq_some_iff.mp taken
      cases same
      exact HubEffect.refresh action refreshing stepped
  | pick dest nowMs random =>
      cases Option.some.inj taken
      exact HubEffect.pick dest nowMs random
  | handshake task =>
      simp only [hubStep] at taken
      split at taken
      · rename_i waiting
        cases Option.some.inj taken
        exact HubEffect.handshake task waiting
      · contradiction
  | beginRefresh task =>
      simp only [hubStep] at taken
      split at taken
      · rename_i addr accepted
        obtain ⟨refreshing, stepped, same⟩ := Option.map_eq_some_iff.mp taken
        cases same
        exact HubEffect.beginRefresh task addr refreshing accepted stepped
      · contradiction
  | readMillis task nowMs =>
      simp only [hubStep] at taken
      split at taken
      · rename_i addr refreshing idle
        cases Option.some.inj taken
        exact HubEffect.readMillis task addr nowMs refreshing
      · contradiction
  | choose task random =>
      simp only [hubStep] at taken
      split at taken
      · rename_i addr nowMs choosing
        obtain ⟨warming, stepped, same⟩ := Option.map_eq_some_iff.mp taken
        cases same
        exact HubEffect.choose task addr nowMs random _ warming choosing rfl stepped
      · contradiction
  | warm action =>
      simp only [hubStep] at taken
      split at taken
      · rename_i proceeds
        obtain ⟨warming, stepped, same⟩ := Option.map_eq_some_iff.mp taken
        cases same
        exact HubEffect.warm action warming proceeds stepped
      · contradiction
  | dial task peer now =>
      simp only [hubStep] at taken
      split at taken
      · rename_i addr nowMs sni host time since result warming returned
        split at taken
        · rename_i unbuilt
          cases Option.some.inj taken
          exact HubEffect.unset task peer now addr nowMs sni warming unbuilt
        · rename_i tunnel built
          cases Option.some.inj taken
          exact HubEffect.dial task peer now addr _ tunnel warming
            ⟨host, time, since, result, returned⟩ built rfl rfl rfl
      · contradiction
  | relay task download =>
      simp only [hubStep] at taken
      split at taken
      · rename_i addr relaying
        cases Option.some.inj taken
        exact HubEffect.relay task download addr relaying
      · contradiction
  | finish task =>
      simp only [hubStep] at taken
      split at taken
      · rename_i addr relaying
        cases Option.some.inj taken
        exact HubEffect.finish task addr relaying
      · contradiction

/-! ## The shared components -/

@[simp] theorem Hub.setConnection_refreshing (hub : Hub Task) (task : Task)
    (connection : Connection) : (hub.setConnection task connection).refreshing = hub.refreshing :=
  rfl

@[simp] theorem Hub.setConnection_warming (hub : Hub Task) (task : Task)
    (connection : Connection) : (hub.setConnection task connection).warming = hub.warming := rfl

omit [DecidableEq Task] in
theorem Hub.selectSni_fst (hub : Hub Task) (dest : String) (nowMs : UInt64) (random : F64) :
    (hub.selectSni dest nowMs random).1 =
      (hub.refreshing.pipeline.selectSni dest nowMs random).1 := rfl

@[simp] theorem Hub.setConnection_self (hub : Hub Task) (task : Task)
    (connection : Connection) : (hub.setConnection task connection).connections task = connection :=
  Function.update_self ..

theorem Hub.setConnection_of_ne (hub : Hub Task) {task other : Task} (connection : Connection)
    (different : other ≠ task) :
    (hub.setConnection task connection).connections other = hub.connections other :=
  Function.update_of_ne different ..

omit [DecidableEq Task] in
theorem retains_of_proceeds {action : WarmAction Task} (proceeds : warmProceeds action = true)
    (warming : Warming Task) : action.Retains warming := by
  cases action with
  | evict nowMs => contradiction
  | call task host nowMs => trivial
  | look task => trivial
  | answer task result => trivial
  | record task => trivial

theorem HubEffect.warming {action : HubAction Task} (effect : HubEffect setup before action after) :
    after.warming = before.warming ∨
      Steps (warmStep setup.warmerConfig) WarmAction.Retains before.warming after.warming := by
  cases effect with
  | choose task addr nowMs random sni warming choosing picked stepped =>
      exact Or.inr ⟨.call task sni nowMs, trivial, stepped⟩
  | warm action warming proceeds stepped =>
      exact Or.inr ⟨action, retains_of_proceeds proceeds _, stepped⟩
  | setClock now => exact Or.inl rfl
  | refresh action refreshing stepped => exact Or.inl rfl
  | pick dest nowMs random => exact Or.inl rfl
  | handshake task waiting => exact Or.inl rfl
  | beginRefresh task addr refreshing accepted stepped => exact Or.inl rfl
  | readMillis task addr nowMs refreshing => exact Or.inl rfl
  | unset task peer now addr nowMs sni warming unbuilt => exact Or.inl rfl
  | dial task peer now addr dialed tunnel warming returned built isTarget isPeer isResult =>
      exact Or.inl rfl
  | relay task download addr relaying => exact Or.inl rfl
  | finish task addr relaying => exact Or.inl rfl

/-- The resolver cache sees an interleaving of warms and no eviction. -/
theorem reachable_warming {now : UInt64} {streams : Task → Bytes} {hub : Hub Task}
    (reached : Reach (hubStep setup) Anything (Hub.start setup now streams) hub) :
    Reach (warmStep setup.warmerConfig) WarmAction.Retains Warming.start hub.warming :=
  reached.project Hub.warming fun _ _ _ _ taken => (hubStep_effect taken).warming

/-- The pool is the window of some epoch. -/
def Shared.Installed (setup : PipelineSetup Draw K) (shared : Shared Task) : Prop :=
  ∃ epoch, shared.pipeline.pool = poolFor setup.keying setup.cfg epoch

theorem Shared.Installed.refresh {shared later : Shared Task} {action : RefreshAction Task}
    (installed : shared.Installed setup)
    (stepped : refreshStep setup.keying setup.cfg shared action = some later) :
    later.Installed setup := by
  cases refreshStep_effect stepped with
  | tick now later => exact installed
  | readClock task idle => exact installed
  | readStored task epoch call timed => exact installed
  | writePool task epoch changed => exact ⟨epoch, rfl⟩
  | publish task epoch published => exact installed

theorem HubEffect.installed {action : HubAction Task}
    (effect : HubEffect setup before action after) (installed : before.refreshing.Installed setup) :
    after.refreshing.Installed setup := by
  cases effect with
  | refresh action refreshing stepped => exact installed.refresh stepped
  | beginRefresh task addr refreshing accepted stepped => exact installed.refresh stepped
  | setClock now => exact installed
  | pick dest nowMs random => exact installed
  | handshake task waiting => exact installed
  | readMillis task addr nowMs refreshing => exact installed
  | choose task addr nowMs random sni warming choosing picked stepped => exact installed
  | warm action warming proceeds stepped => exact installed
  | unset task peer now addr nowMs sni warming unbuilt => exact installed
  | dial task peer now addr dialed tunnel warming returned built isTarget isPeer isResult =>
      exact installed
  | relay task download addr relaying => exact installed
  | finish task addr relaying => exact installed

theorem reachable_installed {now : UInt64} {streams : Task → Bytes} {hub : Hub Task}
    (reached : Reach (hubStep setup) Anything (Hub.start setup now streams) hub) :
    hub.refreshing.Installed setup := by
  apply reached.invariant fun hub => hub.refreshing.Installed setup
  · exact ⟨_, rfl⟩
  · intro before action after installed _ taken
    exact (hubStep_effect taken).installed installed

/-! ## The pool is never empty -/

def PipelineSetup.Lists (setup : PipelineSetup Draw K) (sni : String) : Prop :=
  ∃ e ∈ setup.cfg.masterList.entries, e.sni = sni

theorem poolFor_ne_nil (epoch : Epoch) :
    (poolFor setup.keying setup.cfg epoch).entries ≠ [] := by
  intro empty
  have bounds := acceptedPoolWindow_length setup.keying setup.cfg.masterSecret.toList
    setup.cfg.serverSalt setup.cfg.masterList epoch setup.cfg.activeK
  have none : (acceptedPoolWindow setup.keying setup.cfg.masterSecret.toList
      setup.cfg.serverSalt setup.cfg.masterList epoch setup.cfg.activeK).entries.length = 0 :=
    congrArg List.length empty
  have drawn := setup.cfg.activeK_pos
  have listed := List.length_pos_of_ne_nil setup.cfg.masterList.acceptable.nonempty
  omega

omit [DecidableEq Task] in
/-- A choice from an installed pool is a name of the master list. -/
theorem Shared.Installed.picks {shared : Shared Task} (installed : shared.Installed setup)
    (dest : String) (nowMs : UInt64) (random : F64) :
    ∃ sni, (shared.pipeline.selectSni dest nowMs random).1 = some sni ∧ setup.Lists sni := by
  obtain ⟨epoch, pool⟩ := installed
  have nonempty : shared.pipeline.pool.entries ≠ [] := by
    rw [pool]
    exact poolFor_ne_nil epoch
  obtain ⟨sni, picked⟩ := shared.pipeline.selector.select_of_ne_nil nonempty dest nowMs random
  refine ⟨sni, picked, ?_⟩
  have held := Selector.select_mem _ _ _ _ _ _ picked
  obtain ⟨e, inPool, same⟩ := (ActivePool.contains_iff ..).mp held
  rw [pool] at inPool
  exact ⟨e, acceptedPoolWindow_subset _ _ _ _ _ _ inPool, same⟩

/-! ## The phases of one connection -/

/-- What a connection's own steps make of it. -/
inductive ConnectionStep (setup : PipelineSetup Draw K) (connection : Connection) :
    Connection → Prop where
  | shakeHands (waiting : connection.phase = .waiting) :
      ConnectionStep setup connection connection.shakeHands
  | refresh (addr : Socks5Addr) (accepted : connection.phase = .accepted addr) :
      ConnectionStep setup connection (connection.enter (.refreshing addr))
  | readMillis (addr : Socks5Addr) (nowMs : UInt64)
      (refreshing : connection.phase = .refreshing addr) :
      ConnectionStep setup connection (connection.enter (.choosing addr nowMs))
  | choose (addr : Socks5Addr) (nowMs : UInt64) (sni : String)
      (choosing : connection.phase = .choosing addr nowMs) (listed : setup.Lists sni) :
      ConnectionStep setup connection (connection.enter (.warming addr nowMs sni))
  | unset (addr : Socks5Addr) (nowMs : UInt64) (sni : String)
      (warming : connection.phase = .warming addr nowMs sni) :
      ConnectionStep setup connection (connection.enter (.finished (.error .noServerAddr)))
  | dial (addr : Socks5Addr) (dialed : Dial) (tunnel : TunnelClient) (now : UInt64)
      (warming : connection.phase = .warming addr dialed.nowMs dialed.sni)
      (isTarget : dialed.target = socksToTarget addr)
      (isResult : dialed.result =
        (tunnel.open setup.env dialed.peer dialed.sni dialed.target now).result) :
      ConnectionStep setup connection (connection.dial addr dialed)
  | relay (download : Bytes) (addr : Socks5Addr)
      (relaying : connection.phase = .relaying addr) :
      ConnectionStep setup connection (connection.receive download)
  | finish (addr : Socks5Addr) (relaying : connection.phase = .relaying addr) :
      ConnectionStep setup connection (connection.enter (.finished (.ok ())))

/-- Moving one connection leaves the others where they are. -/
theorem setConnection_moves {R : Connection → Connection → Prop} {hub : Hub Task} {task : Task}
    {connection : Connection} (moved : R (hub.connections task) connection) (other : Task) :
    (hub.setConnection task connection).connections other = hub.connections other ∨
      R (hub.connections other) ((hub.setConnection task connection).connections other) := by
  by_cases same : other = task
  · subst same
    rw [Hub.setConnection_self]
    exact Or.inr moved
  · exact Or.inl (hub.setConnection_of_ne connection same)

theorem HubEffect.connection {action : HubAction Task}
    (effect : HubEffect setup before action after) (installed : before.refreshing.Installed setup)
    (task : Task) :
    after.connections task = before.connections task ∨
      ConnectionStep setup (before.connections task) (after.connections task) := by
  cases effect with
  | setClock now => exact Or.inl rfl
  | refresh action refreshing stepped => exact Or.inl rfl
  | pick dest nowMs random => exact Or.inl rfl
  | warm action warming proceeds stepped => exact Or.inl rfl
  | handshake own waiting =>
      exact setConnection_moves (ConnectionStep.shakeHands waiting) task
  | beginRefresh own addr refreshing accepted stepped =>
      exact setConnection_moves (ConnectionStep.refresh addr accepted) task
  | readMillis own addr nowMs refreshing =>
      exact setConnection_moves (ConnectionStep.readMillis addr nowMs refreshing) task
  | choose own addr nowMs random sni warming choosing picked stepped =>
      obtain ⟨chosen, some, listed⟩ :=
        installed.picks (socksToTarget addr).display nowMs random
      have isChosen : sni = chosen := by
        rw [picked, Hub.selectSni_fst, some, Option.getD_some]
      exact setConnection_moves
        (ConnectionStep.choose addr nowMs sni choosing (isChosen ▸ listed)) task
  | unset own peer now addr nowMs sni warming unbuilt =>
      exact setConnection_moves (ConnectionStep.unset addr nowMs sni warming) task
  | dial own peer now addr dialed tunnel warming returned built isTarget isPeer isResult =>
      rw [← isPeer] at isResult
      exact setConnection_moves
        (ConnectionStep.dial addr dialed tunnel now warming isTarget isResult) task
  | relay own download addr relaying =>
      exact setConnection_moves (ConnectionStep.relay download addr relaying) task
  | finish own addr relaying =>
      exact setConnection_moves (ConnectionStep.finish addr relaying) task

/-- What the first handshake sees and every step of a connection keeps holds of
every connection reached. -/
theorem reachable_connection (P : Connection → Prop) {now : UInt64} {streams : Task → Bytes}
    {hub : Hub Task} {task : Task}
    (reached : Reach (hubStep setup) Anything (Hub.start setup now streams) hub)
    (initial : P ⟨⟨streams task, []⟩, .waiting, none⟩)
    (preserved : ∀ connection later, P connection → ConnectionStep setup connection later →
      P later) : P (hub.connections task) := by
  have both : hub.refreshing.Installed setup ∧ P (hub.connections task) := by
    apply reached.invariant fun hub => hub.refreshing.Installed setup ∧ P (hub.connections task)
    · exact ⟨⟨_, rfl⟩, initial⟩
    · intro before action after holds _ taken
      have effect := hubStep_effect taken
      refine ⟨effect.installed holds.1, ?_⟩
      rcases effect.connection holds.1 task with same | moved
      · rw [same]
        exact holds.2
      · exact preserved _ _ holds.2 moved
  exact both.2

end Machine

end RealityHydra.HydraClient
