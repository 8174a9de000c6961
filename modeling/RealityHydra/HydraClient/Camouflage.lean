import RealityHydra.HydraClient.Connection

/-!
# The name a tunnel is opened under

A connection warms the name it has chosen before it opens the tunnel under it,
and goes on when the warm has failed.
-/

set_option autoImplicit false

namespace RealityHydra.HydraClient

open RealityHydra.DnsWarmer
open RealityHydra.Lib.ByteCodec
open RealityHydra.Lib.Transition
open RealityHydra.PoolEngine

def Connection.Asks (connection : Connection) (sni : String) (nowMs : UInt64) : Prop :=
  ∃ addr, connection.phase = .warming addr nowMs sni

/-- The call is for that host and time, unless it has panicked. -/
def IsFor (host : String) (nowMs : UInt64) : WarmCall → Prop
  | .idle => False
  | .called asked time | .resolving asked time _ | .resolved asked time _ _
  | .returned asked time _ _ => asked = host ∧ time = nowMs
  | .panicked => True

section Calls

variable {Task : Type} [DecidableEq Task] {config : WarmerConfig} {before after : Warming Task}

theorem isFor_setCall {own : Task} {stage call : WarmCall} (isStage : before.calls own = stage)
    {host : String} {nowMs : UInt64} (keeps : IsFor host nowMs stage → IsFor host nowMs call)
    {task : Task} (isFor : IsFor host nowMs (before.calls task)) :
    IsFor host nowMs ((before.setCall own call).calls task) := by
  by_cases same : task = own
  · subst same
    rw [setCall_calls]
    rw [isStage] at isFor
    exact keeps isFor
  · rw [setCall_calls_of_ne call same]
    exact isFor

theorem isFor_step {action : WarmAction Task} (proceeds : warmProceeds action = true)
    (taken : warmStep config before action = some after) {task : Task} {host : String}
    {nowMs : UInt64} (isFor : IsFor host nowMs (before.calls task)) :
    IsFor host nowMs (after.calls task) := by
  cases warmStep_effect taken with
  | call own asked time ready => contradiction
  | hit own asked time held called fresh =>
      apply isFor_setCall called _ isFor
      exact id
  | miss own asked time called stale =>
      apply isFor_setCall called _ isFor
      exact id
  | fail own asked time since e resolving =>
      apply isFor_setCall resolving _ isFor
      exact id
  | resolve own asked time since answer resolving =>
      apply isFor_setCall resolving _ isFor
      exact id
  | panic own asked time since answer resolved empty =>
      apply isFor_setCall resolved _ isFor
      exact fun _ => trivial
  | record own asked time since answer expiresAtMs resolved expires =>
      have stage : (before.insert ⟨own, asked, time, answer⟩ expiresAtMs).calls own =
        .resolved asked time since answer := resolved
      apply isFor_setCall stage _ isFor
      exact id
  | evict time => contradiction

end Calls

section Linked

variable {Draw K : Type} [LinearOrder K] {setup : PipelineSetup Draw K}
variable {Task : Type} [DecidableEq Task] {before after : Hub Task}

/-- A connection's warm is for the name and the time the connection asks for. -/
def Hub.Linked (hub : Hub Task) : Prop :=
  ∀ task sni nowMs, (hub.connections task).Asks sni nowMs →
    IsFor sni nowMs (hub.warming.calls task)

theorem Hub.Linked.setConnection (linked : before.Linked) {own : Task} {connection : Connection}
    (asks : ∀ sni nowMs, connection.Asks sni nowMs →
      IsFor sni nowMs (before.warming.calls own)) :
    (before.setConnection own connection).Linked := by
  intro task sni nowMs asked
  by_cases same : task = own
  · subst same
    rw [Hub.setConnection_self] at asked
    exact asks sni nowMs asked
  · rw [before.setConnection_of_ne connection same] at asked
    exact linked task sni nowMs asked

theorem not_asks {connection : Connection} {phase : Phase} (isPhase : connection.phase = phase)
    (asksNone : ∀ addr nowMs sni, phase ≠ .warming addr nowMs sni) (sni : String)
    (nowMs : UInt64) : ¬ connection.Asks sni nowMs := by
  intro asks
  obtain ⟨addr, warming⟩ := asks
  exact asksNone addr nowMs sni (isPhase.symm.trans warming)

theorem Hub.Linked.leave (linked : before.Linked) {own : Task} {connection : Connection}
    {phase : Phase} (isPhase : connection.phase = phase)
    (asksNone : ∀ addr nowMs sni, phase ≠ .warming addr nowMs sni) :
    (before.setConnection own connection).Linked :=
  linked.setConnection fun sni nowMs asks => (not_asks isPhase asksNone sni nowMs asks).elim

theorem Hub.Linked.step {action : HubAction Task} (linked : before.Linked)
    (taken : hubStep setup before action = some after) : after.Linked := by
  cases hubStep_effect taken with
  | setClock now => exact linked
  | refresh action refreshing stepped => exact linked
  | pick dest nowMs random => exact linked
  | handshake task waiting =>
      unfold Connection.shakeHands
      split
      · exact linked.leave rfl nofun
      · exact linked.leave rfl nofun
  | beginRefresh task addr refreshing accepted stepped =>
      have kept : { before with refreshing }.Linked := linked
      exact kept.leave rfl nofun
  | readMillis task addr nowMs refreshing => exact linked.leave rfl nofun
  | choose task addr nowMs random sni warming choosing picked stepped =>
      cases warmStep_effect stepped with
      | call _ _ _ ready =>
          intro other asked time asks
          by_cases same : other = task
          · subst same
            rw [Hub.setConnection_self] at asks
            obtain ⟨_, isPhase⟩ := asks
            cases isPhase
            rw [Hub.setConnection_warming, setCall_calls]
            exact ⟨rfl, rfl⟩
          · rw [Hub.setConnection_of_ne _ _ same] at asks
            have kept : (before.warming.setCall task (.called sni nowMs)).calls other =
              before.warming.calls other := setCall_calls_of_ne _ same
            rw [Hub.setConnection_warming, kept]
            exact linked other asked time asks
  | warm action warming proceeds stepped =>
      intro task sni nowMs asks
      exact isFor_step proceeds stepped (linked task sni nowMs asks)
  | unset task peer now addr nowMs sni warming unbuilt => exact linked.leave rfl nofun
  | dial task peer now addr dialed tunnel warming returned built isTarget isPeer isResult =>
      unfold Connection.dial
      split
      · exact linked.leave rfl nofun
      · exact linked.leave rfl nofun
  | relay task download addr relaying => exact linked.leave relaying nofun
  | finish task addr relaying => exact linked.leave rfl nofun

theorem reachable_linked {now : UInt64} {streams : Task → Bytes} {hub : Hub Task}
    (reached : Reach (hubStep setup) Anything (Hub.start setup now streams) hub) :
    hub.Linked := by
  apply reached.invariant Hub.Linked
  · intro task sni nowMs asks
    have waiting : ((Hub.start setup now streams).connections task).phase = .waiting := rfl
    exact (not_asks waiting nofun sni nowMs asks).elim
  · intro before action after linked _ taken
    exact linked.step taken

variable (setup)

/-- In this state the connection calls `tunnel.open` under `sni`, chosen at
`nowMs`. -/
def Hub.Opens (hub : Hub Task) (task : Task) (sni : String) (nowMs : UInt64) : Prop :=
  (hub.connections task).Asks sni nowMs ∧ setup.buildTunnel ≠ none ∧
    ∃ peer now after, hubStep setup hub (.dial task peer now) = some after

variable {setup}

theorem Hub.Opens.returned {hub : Hub Task} (linked : hub.Linked) {task : Task} {sni : String}
    {nowMs : UInt64} (opens : hub.Opens setup task sni nowMs) :
    ∃ since result, hub.warming.calls task = .returned sni nowMs since result := by
  obtain ⟨asks, built, peer, now, after, taken⟩ := opens
  have isFor := linked task sni nowMs asks
  cases hubStep_effect taken with
  | unset _ _ _ addr time other warming unbuilt => exact absurd unbuilt built
  | dial _ _ _ addr dialed tunnel warming returned built isTarget isPeer isResult =>
      obtain ⟨host, time, since, result, stage⟩ := returned
      rw [stage] at isFor
      obtain ⟨rfl, rfl⟩ := isFor
      exact ⟨since, result, stage⟩

end Linked

/-- Whenever a connection opens the tunnel under a name, its own warm of that
name has completed.  Either the resolver failed this very lookup, or it gave a
resolution of the name, which is still warm unless what was recorded last for it
had lapsed. -/
theorem tunnel_opens_after_own_warm {Draw K : Type} [LinearOrder K]
    (setup : PipelineSetup Draw K) {Task : Type} [DecidableEq Task] (now : UInt64)
    (streams : Task → Bytes) (hub : Hub Task)
    (reached : Reach (hubStep setup) Anything (Hub.start setup now streams) hub) (task : Task)
    (sni : String) (nowMs : UInt64) (opens : hub.Opens setup task sni nowMs) :
    (∃ since e, hub.warming.calls task = .returned sni nowMs since (.error e) ∧
      ⟨task, sni, nowMs, .error e⟩ ∈ hub.warming.answered) ∨
    ∃ since served, hub.warming.calls task = .returned sni nowMs since (.ok served) ∧
      (∃ lookup ∈ hub.warming.answered, lookup.host = sni ∧ lookup.result = .ok served) ∧
      (hub.warming.cache.isWarm sni nowMs = true ∨
        setup.warmerConfig.Lapses nowMs served.ttl nowMs ∨
        ∃ made ∈ hub.warming.recorded.drop since, made.host = sni ∧
          setup.warmerConfig.Lapses made.nowMs made.resolved.ttl nowMs) ∧
      (setup.warmerConfig.Sound → 1 ≤ setup.warmerConfig.minTtl.asMillis →
        nowMs.toNat < 2 ^ 64 - 1 → ¬ setup.warmerConfig.Lapses nowMs served.ttl nowMs) := by
  obtain ⟨since, result, stage⟩ := opens.returned (reachable_linked reached)
  have warmed := reachable_warming reached
  have kept := reachable_kept warmed task
  have genuine := (reachable_genuine (warmed.anything)).calls task
  rw [stage] at kept genuine
  cases result with
  | error e => exact Or.inl ⟨since, e, stage, genuine⟩
  | ok served =>
      refine Or.inr ⟨since, served, stage, genuine, kept.2, ?_⟩
      intro sound positive early
      exact sound.not_lapses positive early served.ttl

/-! ## A resolver that never answers -/

def dialingSetup : PipelineSetup Nat Nat :=
  { twoNamesSetup with cfg := { twoNamesConfig with serverAddr := some "exit.example:443" } }

def loopbackRequest : Bytes := [5, 1, 0, 5, 1, 0, 1, 127, 0, 0, 1, 0, 80]

def firstConnection (answer : Except ResolveError Resolved) : List (HubAction Nat) :=
  [.handshake 0, .beginRefresh 0, .refresh (.readStored 0), .readMillis 0 5,
    .choose 0 (.finite 0), .warm (.look 0), .warm (.answer 0 answer)]

theorem firstConnection_opens {actions : List (HubAction Nat)} {hub : Hub Nat}
    (ran : runAll (hubStep dialingSetup) (Hub.start dialingSetup 0 fun _ => loopbackRequest)
      actions = some hub)
    (phase : (hub.connections 0).phase = .warming (.ipv4 #v[127, 0, 0, 1] 80) 5 "a.example")
    {since : Nat} {result : Except ResolveError Resolved}
    (stage : hub.warming.calls 0 = .returned "a.example" 5 since result) :
    Reach (hubStep dialingSetup) Anything
        (Hub.start dialingSetup 0 fun _ => loopbackRequest) hub ∧
      hub.Opens dialingSetup 0 "a.example" 5 := by
  refine ⟨reach_of_runAll ran, ⟨_, phase⟩, nofun, sevenPeer [], 0, ?_⟩
  simp only [hubStep, phase, stage]
  exact ⟨_, rfl⟩

theorem resolved_name_opens_warm :
    ∃ hub : Hub Nat, hub.Opens dialingSetup 0 "a.example" 5 ∧
      hub.warming.cache.isWarm "a.example" 5 = true ∧
      ∃ since result, hub.warming.calls 0 = .returned "a.example" 5 since result := by
  obtain ⟨hub, ran⟩ : ∃ hub, runAll (hubStep dialingSetup)
      (Hub.start dialingSetup 0 fun _ => loopbackRequest)
      (firstConnection (.ok ⟨[], ⟨60, 0⟩⟩) ++ [.warm (.record 0)]) = some hub := ⟨_, rfl⟩
  have phase : (hub.connections 0).phase =
      .warming (.ipv4 #v[127, 0, 0, 1] 80) 5 "a.example" := by
    rw [← Option.some.inj ran]
    decide +kernel
  have stage : hub.warming.calls 0 = .returned "a.example" 5 1 (.ok ⟨[], ⟨60, 0⟩⟩) := by
    rw [← Option.some.inj ran]
    decide +kernel
  have warm : hub.warming.cache.isWarm "a.example" 5 = true := by
    rw [← Option.some.inj ran]
    decide +kernel
  obtain ⟨reached, opens⟩ := firstConnection_opens ran phase stage
  refine ⟨hub, opens, warm, ?_⟩
  rcases tunnel_opens_after_own_warm dialingSetup 0 (fun _ => loopbackRequest) hub reached 0
    "a.example" 5 opens with ⟨since, e, returned, _⟩ | ⟨since, served, returned, _⟩
  · exact ⟨since, .error e, returned⟩
  · exact ⟨since, .ok served, returned⟩

/-- The offline resolver knows no name: the tunnel is opened under one that
nothing resolved. -/
theorem unresolved_name_opens_tunnel :
    ¬ ∀ hub : Hub Nat,
      Reach (hubStep dialingSetup) Anything
        (Hub.start dialingSetup 0 fun _ => loopbackRequest) hub →
      ∀ task sni nowMs, hub.Opens dialingSetup task sni nowMs →
        (∃ lookup ∈ hub.warming.answered, lookup.host = sni ∧
          ∃ served, lookup.result = .ok served) ∧
        hub.warming.cache.isWarm sni nowMs = true := by
  intro resolved
  obtain ⟨hub, ran⟩ : ∃ hub, runAll (hubStep dialingSetup)
      (Hub.start dialingSetup 0 fun _ => loopbackRequest)
      (firstConnection (MockResolver.resolve ∅ "a.example")) = some hub := ⟨_, rfl⟩
  have phase : (hub.connections 0).phase =
      .warming (.ipv4 #v[127, 0, 0, 1] 80) 5 "a.example" := by
    rw [← Option.some.inj ran]
    decide +kernel
  have stage : hub.warming.calls 0 = .returned "a.example" 5 0
      (.error (.backend "a.example" "host not in MockResolver table")) := by
    rw [← Option.some.inj ran]
    decide +kernel
  have cold : hub.warming.cache.isWarm "a.example" 5 = false := by
    rw [← Option.some.inj ran]
    decide +kernel
  obtain ⟨reached, opens⟩ := firstConnection_opens ran phase stage
  have warm := (resolved hub reached 0 "a.example" 5 opens).2
  rw [cold] at warm
  contradiction

end RealityHydra.HydraClient
