import RealityHydra.HydraClient.Camouflage
import RealityHydra.HydraClient.Replies
import RealityHydra.HydraClient.Socks5Grammar
import RealityHydra.HydraServer.Authenticity

/-!
# Clients, network and exit node

Any number of clients, each with its own configuration and its own applications, one
exit node, and between them a network that delivers what it likes.  Every header of
the run stands for one request of one application.
-/

set_option autoImplicit false

namespace RealityHydra.System

open RealityHydra.DnsWarmer
open RealityHydra.HydraCli
open RealityHydra.HydraClient
open RealityHydra.HydraServer
open RealityHydra.Lib.ByteCodec
open RealityHydra.Lib.ByteSocket
open RealityHydra.Lib.Transition
open RealityHydra.PoolEngine
open RealityHydra.TunnelProto

structure Deployment (Client Task Server : Type) where
  hubs : Client → Hub Task
  network : Network Server

inductive DeploymentAction (Client Task Server : Type) where
  | client (client : Client) (action : HubAction Task)
  /-- Somebody derives the seed of a pool. -/
  | derives (serverSalt : Vector UInt8 saltLen) (epoch : Epoch)
  | exitNode (action : NodeAction Server)

section Machine

variable {Draw K : Type} [LinearOrder K]
variable {Client Task Server : Type} [DecidableEq Client] [DecidableEq Task] [DecidableEq Server]
variable (setups : Client → PipelineSetup Draw K) (env : NodeEnv Server)

/-- What a step of a client has authenticated: the header of the tunnel it opens. -/
def madeHeader (setup : PipelineSetup Draw K) (hub : Hub Task) : HubAction Task → List KeyUse
  | .dial task peer now =>
      match (hub.connections task).phase, setup.buildTunnel with
      | .warming addr _ sni, some tunnel =>
          if (tunnel.open setup.env peer sni (socksToTarget addr) now).sent = [] then []
          else [.header now (socksToTarget addr)]
      | _, _ => []
  | _ => []

def Deployment.start (clocks : Client → UInt64) (streams : Client → Task → Bytes) :
    Deployment Client Task Server where
  hubs client := Hub.start (setups client) (clocks client) (streams client)
  network := Network.start

def deploymentStep (deployment : Deployment Client Task Server) :
    DeploymentAction Client Task Server → Option (Deployment Client Task Server)
  | .client client action =>
      let hub := deployment.hubs client
      (hubStep (setups client) hub action).map fun moved =>
        { hubs := Function.update deployment.hubs client moved
          network :=
            { deployment.network with
              uses := deployment.network.uses ++ madeHeader (setups client) hub action } }
  | .derives serverSalt epoch =>
      let uses := deployment.network.uses ++ [.seed serverSalt epoch]
      some { deployment with network := { deployment.network with uses } }
  | .exitNode action =>
      (networkStep env deployment.network (.node action)).map fun network =>
        { deployment with network }

/-- The network makes no tag of its own. -/
def Unforging (deployment : Deployment Client Task Server) :
    DeploymentAction Client Task Server → Prop
  | .exitNode action => ForgesNothing env deployment.network (.node action)
  | _ => True

end Machine

/-- A tunnel that a client has opened: for which of its applications, and when. -/
structure Tunnelled (Client Task : Type) where
  client : Client
  task : Task
  stamp : UInt64
  dial : Dial

namespace Tunnelled

variable {Client Task : Type}

def application (tunnelled : Tunnelled Client Task) : Client × Task :=
  (tunnelled.client, tunnelled.task)

def use (tunnelled : Tunnelled Client Task) : KeyUse :=
  .header tunnelled.stamp tunnelled.dial.target

end Tunnelled

def isHeader : KeyUse → Bool
  | .header _ _ => true
  | .seed _ _ => false

/-! ## What one step of a client authenticates -/

section Client

variable {Draw K : Type} [LinearOrder K] {setup : PipelineSetup Draw K}
variable {Task : Type} [DecidableEq Task] {hub after : Hub Task}

theorem dial_dialed (connection : Connection) (addr : Socks5Addr) (dialed : Dial) :
    (connection.dial addr dialed).dialed = some dialed := by
  unfold Connection.dial
  split <;> rfl

/-- A client authenticates nothing but the header of a tunnel that it then opens for an
application whose request it has accepted. -/
theorem madeHeader_spec {action : HubAction Task} (taken : hubStep setup hub action = some after) :
    madeHeader setup hub action = [] ∨
      ∃ task now addr dialed tunnel,
        madeHeader setup hub action = [.header now dialed.target] ∧
        (hub.connections task).phase.undialed = some addr ∧
        dialed.target = socksToTarget addr ∧
        (after.connections task).dialed = some dialed ∧
        setup.buildTunnel = some tunnel ∧
        (tunnel.open setup.env dialed.peer dialed.sni dialed.target now).sent ≠ [] := by
  cases hubStep_effect taken with
  | unset task peer now addr nowMs sni warming unbuilt =>
      refine Or.inl ?_
      simp only [madeHeader, warming, unbuilt]
  | dial task peer now addr dialed tunnel warming returned built isTarget isPeer isResult =>
      subst isPeer
      by_cases sent : (tunnel.open setup.env dialed.peer dialed.sni (socksToTarget addr) now).sent =
          []
      · refine Or.inl ?_
        simp only [madeHeader, warming, built, sent, if_true]
      · refine Or.inr ⟨task, now, addr, dialed, tunnel, ?_, ?_, isTarget, ?_, built, ?_⟩
        · simp only [madeHeader, warming, built, sent, if_false, isTarget]
        · rw [warming]
          rfl
        · rw [Hub.setConnection_self, dial_dialed]
        · rw [isTarget]
          exact sent
  | _ => exact Or.inl rfl

omit [LinearOrder K] in
/-- The record of a call stays with its connection. -/
theorem dialed_stays {connection later : Connection} {stream : Bytes} {dialed : Dial}
    (follows : connection.Follows stream) (moved : ConnectionStep setup connection later)
    (held : connection.dialed = some dialed) : later.dialed = some dialed := by
  cases moved with
  | shakeHands waiting =>
      rw [(follows.of_waiting waiting).2] at held
      contradiction
  | dial addr other tunnel now warming =>
      have undialed := (follows.of_undialed (by rw [warming]; rfl)).2
      rw [undialed] at held
      contradiction
  | _ => exact held

end Client

/-! ## The ledger of a run -/

section Runs

variable {Draw K : Type} [LinearOrder K]
variable {Client Task Server : Type} [DecidableEq Client] [DecidableEq Task] [DecidableEq Server]
variable {setups : Client → PipelineSetup Draw K} {env : NodeEnv Server}
variable {clocks : Client → UInt64} {streams : Client → Task → Bytes}
variable {before after : Deployment Client Task Server}

/-- The client opened it for a request that the application had made, to a peer that
passed the handshake. -/
structure Tunnelled.Requested (setups : Client → PipelineSetup Draw K)
    (streams : Client → Task → Bytes) (hubs : Client → Hub Task)
    (tunnelled : Tunnelled Client Task) : Prop where
  dialed : ((hubs tunnelled.client).connections tunnelled.task).dialed = some tunnelled.dial
  asked : ∃ addr rest, Asks (streams tunnelled.client tunnelled.task) addr rest ∧
    tunnelled.dial.target = socksToTarget addr
  sent : ∃ tunnel, (setups tunnelled.client).buildTunnel = some tunnel ∧
    (tunnel.open (setups tunnelled.client).env tunnelled.dial.peer tunnelled.dial.sni
      tunnelled.dial.target tunnelled.stamp).sent ≠ []

/-- The headers of the run so far are those of the tunnels in the ledger, one for an
application. -/
structure Ledger (setups : Client → PipelineSetup Draw K) (streams : Client → Task → Bytes)
    (deployment : Deployment Client Task Server) (made : List (Tunnelled Client Task)) :
    Prop where
  distinct : (made.map Tunnelled.application).Nodup
  headers : deployment.network.uses.filter isHeader = made.map Tunnelled.use
  requested : ∀ tunnelled ∈ made, tunnelled.Requested setups streams deployment.hubs

structure Deployment.Sound (setups : Client → PipelineSetup Draw K)
    (clocks : Client → UInt64) (streams : Client → Task → Bytes)
    (deployment : Deployment Client Task Server) : Prop where
  hubs : ∀ client, Reach (hubStep (setups client)) Anything
    (Hub.start (setups client) (clocks client) (streams client)) (deployment.hubs client)
  ledger : ∃ made, Ledger setups streams deployment made

/-- A header goes only to a peer that has shown the pinned certificate. -/
def Tunnelled.Pinned (setups : Client → PipelineSetup Draw K)
    (tunnelled : Tunnelled Client Task) : Prop :=
  ∀ pin, (setups tunnelled.client).cfg.certPin = some pin →
    ∃ flight, tunnelled.dial.peer.flight = .ok flight ∧
      (setups tunnelled.client).env.sha256 flight.endEntity = pin

omit [LinearOrder K] [DecidableEq Client] [DecidableEq Task] in
theorem Tunnelled.Requested.pinned {tunnelled : Tunnelled Client Task} {hubs : Client → Hub Task}
    (requested : tunnelled.Requested setups streams hubs) : tunnelled.Pinned setups := by
  intro pin pinned
  obtain ⟨tunnel, built, sent⟩ := requested.sent
  rw [← (buildTunnel_fields built).2.1] at pinned
  rcases tunnel.open_cases (setups tunnelled.client).env tunnelled.dial.peer tunnelled.dial.sni
    tunnelled.dial.target tunnelled.stamp with ⟨failure, nothing⟩ | ⟨serverName, connected⟩
  · rw [nothing] at sent
    contradiction
  · obtain ⟨flight, presented, finished⟩ := tlsConnect_ok connected
    exact ⟨flight, presented, (handshakeCallbacks_ok_iff _ _ pin pinned _ _ _).mp finished⟩

theorem Tunnelled.Requested.client_step {tunnelled : Tunnelled Client Task} {client : Client}
    {hubs : Client → Hub Task} {hub : Hub Task} {action : HubAction Task}
    (requested : tunnelled.Requested setups streams hubs)
    (running : Reach (hubStep (setups client)) Anything
      (Hub.start (setups client) (clocks client) (streams client)) (hubs client))
    (taken : hubStep (setups client) (hubs client) action = some hub) :
    tunnelled.Requested setups streams (Function.update hubs client hub) := by
  refine ⟨?_, requested.asked, requested.sent⟩
  by_cases own : tunnelled.client = client
  · subst own
    rw [Function.update_self]
    have installed := reachable_installed running
    have follows := reachable_follows running tunnelled.task
    rcases (hubStep_effect taken).connection installed tunnelled.task with same | moved
    · rw [same]
      exact requested.dialed
    · exact dialed_stays follows moved requested.dialed
  · rw [Function.update_of_ne own]
    exact requested.dialed

theorem asks_of_undialed {connection : Connection} {stream : Bytes} {addr : Socks5Addr}
    (follows : connection.Follows stream) (undialed : connection.phase.undialed = some addr) :
    connection.dialed = none ∧ ∃ rest, Asks stream addr rest := by
  obtain ⟨returned, none⟩ := follows.of_undialed undialed
  exact ⟨none, connection.socket.unread, ((handshake_ok_iff_asks ..).mp returned).1⟩

theorem Deployment.Sound.client {client : Client} {action : HubAction Task}
    (sound : before.Sound setups clocks streams)
    (taken : deploymentStep setups env before (.client client action) = some after) :
    after.Sound setups clocks streams := by
  obtain ⟨hub, stepped, same⟩ := Option.map_eq_some_iff.mp taken
  subst same
  have running := sound.hubs client
  obtain ⟨made, ledger⟩ := sound.ledger
  have kept : ∀ tunnelled ∈ made,
      tunnelled.Requested setups streams (Function.update before.hubs client hub) := by
    intro tunnelled member
    exact (ledger.requested tunnelled member).client_step running stepped
  refine ⟨?_, ?_⟩
  · intro other
    by_cases own : other = client
    · subst own
      dsimp only
      rw [Function.update_self]
      exact running.tail ⟨action, trivial, stepped⟩
    · dsimp only
      rw [Function.update_of_ne own]
      exact sound.hubs other
  · rcases madeHeader_spec stepped with nothing | ⟨task, now, addr, dialed, tunnel, header,
        undialed, isTarget, recorded, built, sent⟩
    · refine ⟨made, ledger.distinct, ?_, kept⟩
      rw [nothing, List.append_nil]
      exact ledger.headers
    · obtain ⟨fresh, rest, asks⟩ := asks_of_undialed (reachable_follows running task) undialed
      let opened : Tunnelled Client Task := ⟨client, task, now, dialed⟩
      refine ⟨made ++ [opened], ?_, ?_, ?_⟩
      · -- the application had no record of a call before this one
        rw [List.map_append, List.map_singleton]
        refine List.nodup_append.mpr ⟨ledger.distinct, List.nodup_singleton _, ?_⟩
        intro application member other isOpened
        rw [List.mem_singleton.mp isOpened]
        obtain ⟨tunnelled, earlier, isApplication⟩ := List.mem_map.mp member
        intro again
        have held := (ledger.requested tunnelled earlier).dialed
        have sameClient : tunnelled.client = client :=
          congrArg Prod.fst (isApplication.trans again)
        have sameTask : tunnelled.task = task := congrArg Prod.snd (isApplication.trans again)
        rw [sameClient, sameTask, fresh] at held
        contradiction
      · rw [header, List.filter_append, List.map_append, ledger.headers]
        rfl
      · intro tunnelled member
        rcases List.mem_append.mp member with earlier | last
        · exact kept tunnelled earlier
        · rw [List.mem_singleton.mp last]
          refine ⟨?_, ⟨addr, rest, asks, isTarget⟩, ⟨tunnel, built, sent⟩⟩
          dsimp only [opened]
          rw [Function.update_self]
          exact recorded

theorem Deployment.Sound.step {action : DeploymentAction Client Task Server}
    (sound : before.Sound setups clocks streams)
    (taken : deploymentStep setups env before action = some after) :
    after.Sound setups clocks streams := by
  cases action with
  | client client action => exact sound.client taken
  | derives serverSalt epoch =>
      cases taken
      obtain ⟨made, ledger⟩ := sound.ledger
      refine ⟨sound.hubs, made, ledger.distinct, ?_, ledger.requested⟩
      rw [List.filter_append, ledger.headers]
      exact List.append_nil _
  | exitNode action =>
      obtain ⟨network, stepped, same⟩ := Option.map_eq_some_iff.mp taken
      subst same
      obtain ⟨node, _, isNetwork⟩ := Option.map_eq_some_iff.mp stepped
      subst isNetwork
      obtain ⟨made, ledger⟩ := sound.ledger
      exact ⟨sound.hubs, made, ledger.distinct, ledger.headers, ledger.requested⟩

theorem deployment_sound
    (reached : Reach (deploymentStep setups env) (Unforging env)
      (Deployment.start setups clocks streams) after) : after.Sound setups clocks streams := by
  refine reached.invariant (Deployment.Sound setups clocks streams) ?_ ?_
  · exact ⟨fun _ => .refl, [], List.nodup_nil, rfl, fun _ isIn => absurd isIn List.not_mem_nil⟩
  · intro before action later sound _ taken
    exact sound.step taken

/-- What the exit node sees of a deployment is a run of its own. -/
theorem deployment_network
    (reached : Reach (deploymentStep setups env) (Unforging env)
      (Deployment.start setups clocks streams) after) :
    Reach (networkStep env) (ForgesNothing env) Network.start after.network := by
  refine reached.project Deployment.network ?_
  intro before action later honest taken
  cases action with
  | client client action =>
      obtain ⟨hub, stepped, same⟩ := Option.map_eq_some_iff.mp taken
      subst same
      rcases madeHeader_spec stepped with nothing | ⟨_, now, _, dialed, _, header, _⟩
      · refine Or.inl ?_
        dsimp only
        rw [nothing, List.append_nil]
      · refine Or.inr ⟨.use (.header now dialed.target), trivial, ?_⟩
        dsimp only
        rw [header]
        rfl
  | derives serverSalt epoch =>
      cases taken
      exact Or.inr ⟨.use (.seed serverSalt epoch), trivial, rfl⟩
  | exitNode action =>
      obtain ⟨network, stepped, same⟩ := Option.map_eq_some_iff.mp taken
      subst same
      exact Or.inr ⟨_, honest, stepped⟩

/-- The exit node serves applications and nobody else.  In every run of the
deployment there is a ledger of the tunnels the clients have opened, at most one for
each application and each for the request that application made, under the pinned
certificate if there is one; every header of the run is that of an entry.  Whatever the
network delivers, a connection the exit node dials for carries the header of an entry:
it dials the display of that application's address, within the skew of that tunnel's
clock. -/
theorem exit_node_serves_applications (setups : Client → PipelineSetup Draw K)
    (env : NodeEnv Server) (clocks : Client → UInt64) (streams : Client → Task → Bytes)
    (deployment : Deployment Client Task Server)
    (reached : Reach (deploymentStep setups env) (Unforging env)
      (Deployment.start setups clocks streams) deployment) :
    ∃ made : List (Tunnelled Client Task), Ledger setups streams deployment made ∧
      (∀ tunnelled ∈ made, tunnelled.Pinned setups) ∧
      ∀ task served, deployment.network.node.inbounds task = .served served →
        served.serving.dialled ≠ [] →
          ∃ tunnelled ∈ made,
            served.Asked (env.of task) tunnelled.stamp tunnelled.dial.target := by
  obtain ⟨made, ledger⟩ := (deployment_sound reached).ledger
  refine ⟨made, ledger, fun tunnelled member => (ledger.requested tunnelled member).pinned, ?_⟩
  intro task served isServed dialled
  have sound := network_sound (deployment_network reached) task
  obtain ⟨timestamp, target, used, asked⟩ := sound.asked isServed dialled
  have header : KeyUse.header timestamp target ∈ made.map Tunnelled.use := by
    rw [← ledger.headers]
    exact List.mem_filter.mpr ⟨used, rfl⟩
  obtain ⟨tunnelled, member, isUse⟩ := List.mem_map.mp header
  cases isUse
  exact ⟨tunnelled, member, asked⟩

/-- What the network delivers to the exit node, it delivers in the deployment. -/
theorem reach_delivered {network network' : Network Server} {hubs : Client → Hub Task}
    (delivered : Reach (networkStep env) (DeliversOnly env) network network') :
    Reach (deploymentStep setups env) (Unforging env) ⟨hubs, network⟩ ⟨hubs, network'⟩ := by
  refine Relation.ReflTransGen.lift (Deployment.mk hubs) ?_ network network' delivered
  intro before after moved
  obtain ⟨action, delivers, taken⟩ := moved
  cases action with
  | node action =>
      refine ⟨.exitNode action, delivers, ?_⟩
      simp only [deploymentStep, taken, Option.map_some]
  | use use => exact delivers.elim

end Runs

/-- One client and one application, under tags that tell messages apart by their
length. -/
def lengthSetup : PipelineSetup Nat Nat :=
  { dialingSetup with env := { firstByteEnv with hmac := lengthEnv.hmac } }

/-- Its tunnel, up to the header it writes at second 7. -/
def lengthActions : List (DeploymentAction Unit Nat Unit) :=
  let failure : Except ResolveError Resolved := .error (.backend "a.example" "no such host")
  let dial : HubAction Nat := .dial 0 (sevenPeer []) 7
  (firstConnection failure ++ [dial]).map (.client ())

def webRequest : Bytes := [5, 1, 0, 5, 1, 0, 1, 127, 127, 127, 127, 0, 80]

theorem length_tunnelled : ∃ deployment : Deployment Unit Nat Unit,
    runAll (deploymentStep (fun _ => lengthSetup) lengthEnv)
        (Deployment.start (fun _ => lengthSetup) (fun _ => 0) fun _ _ => webRequest)
        lengthActions = some deployment ∧
      deployment.network = ⟨Node.start, [.header 7 webTarget]⟩ :=
  ⟨_, rfl, rfl⟩

theorem web_application_is_served :
    ∃ (deployment : Deployment Unit Nat Unit) (served : Served),
      Reach (deploymentStep (fun _ => lengthSetup) lengthEnv) (Unforging lengthEnv)
        (Deployment.start (fun _ => lengthSetup) (fun _ => 0) fun _ _ => webRequest) deployment ∧
      deployment.network.node.inbounds () = .served served ∧
      served.serving.dialled = [webTarget.display] ∧
      ∃ made : List (Tunnelled Unit Nat),
        Ledger (fun _ => lengthSetup) (fun _ _ => webRequest) deployment made ∧
        ∃ tunnelled ∈ made,
          served.Asked (lengthEnv.of ()) tunnelled.stamp tunnelled.dial.target := by
  obtain ⟨⟨hubs, network⟩, ran, isNetwork⟩ := length_tunnelled
  cases isNetwork
  have fits : webTarget.DomainFits := by decide
  obtain ⟨served, replays, replayed⟩ := inbound_replay (lengthEnv.of ()) 7 9 fits
  have honest : ∀ action ∈ lengthActions, ∀ deployment, Unforging lengthEnv deployment action := by
    intro action member deployment
    obtain ⟨own, _, same⟩ := List.mem_map.mp member
    subst same
    trivial
  have tunnelled := reach_of_along ran (along_of_forall _ honest)
  have delivered := reach_ofTask (show Node.start.stopped = none from rfl) () replays
    (replayActions_unforged 9)
  have reached := tunnelled.trans (reach_delivered delivered)
  have isServed := setInbound_self Node.start () (.served served)
  have dialled : served.serving.dialled = [webTarget.display] := by
    cases replayed with
    | dials _ dialled => exact dialled
    | refuses stale => exact absurd (by decide) stale
  obtain ⟨made, ledger, _, asked⟩ := exit_node_serves_applications _ _ _ _ _ reached
  exact ⟨_, served, reached, isServed, dialled, made, ledger,
    asked () served isServed (by simp [dialled])⟩

end RealityHydra.System
