import RealityHydra.HydraClient.Camouflage

/-!
# What a running client keeps

The DNS cache and the sticky choices of a client that has served any number of
connections, and the DNS cache of the client as it is shipped, whose resolver is an
empty table.
-/

set_option autoImplicit false

namespace RealityHydra.HydraClient

open RealityHydra.DnsWarmer
open RealityHydra.Lib.ByteCodec
open RealityHydra.Lib.ExpiryMap
open RealityHydra.Lib.Transition
open RealityHydra.PoolEngine
open Std (TreeMap)

section Warms

variable {Draw K : Type} [LinearOrder K] {setup : PipelineSetup Draw K}
variable {Task : Type} [DecidableEq Task] {before after : Hub Task}

/-- The only calls of `warm` are those of connections, for the name just chosen. -/
theorem HubEffect.warms {action : HubAction Task} (effect : HubEffect setup before action after)
    (installed : before.refreshing.Installed setup) :
    after.warming = before.warming ∨
      (∃ task sni nowMs, setup.Lists sni ∧
        warmStep setup.warmerConfig before.warming (.call task sni nowMs) =
          some after.warming) ∨
      ∃ own, action = .warm own ∧ warmProceeds own ∧
        warmStep setup.warmerConfig before.warming own = some after.warming := by
  cases effect with
  | choose task addr nowMs random sni warming choosing picked stepped =>
      obtain ⟨chosen, some, listed⟩ := installed.picks (socksToTarget addr).display nowMs random
      have isChosen : sni = chosen := by
        rw [picked, Hub.selectSni_fst, some, Option.getD_some]
      exact Or.inr (Or.inl ⟨task, sni, nowMs, isChosen ▸ listed, stepped⟩)
  | warm own warming proceeds stepped => exact Or.inr (Or.inr ⟨own, rfl, proceeds, stepped⟩)
  | _ => exact Or.inl rfl

/-! ## Names in the DNS cache -/

/-- The host a call is for. -/
def calledHost : WarmCall → Option String
  | .idle | .panicked => none
  | .called host _ | .resolving host _ _ | .resolved host _ _ _ | .returned host _ _ _ =>
      some host

/-- Nothing but names of the master list is looked up or kept. -/
structure NamesOnly (setup : PipelineSetup Draw K) (warming : Warming Task) : Prop where
  calls : ∀ task host, calledHost (warming.calls task) = some host → setup.Lists host
  cached : ∀ (host : String) (entry : CacheEntry), warming.cache[host]? = some entry →
    setup.Lists host

omit [LinearOrder K] in
theorem NamesOnly.setCall {warming : Warming Task} (names : NamesOnly setup warming)
    {task : Task} {call : WarmCall}
    (listed : ∀ host, calledHost call = some host → setup.Lists host) :
    NamesOnly setup (warming.setCall task call) := by
  refine ⟨?_, names.cached⟩
  intro other host isHost
  by_cases own : other = task
  · subst own
    rw [setCall_calls] at isHost
    exact listed host isHost
  · rw [setCall_calls_of_ne call own] at isHost
    exact names.calls other host isHost

omit [LinearOrder K] in
theorem NamesOnly.step {config : WarmerConfig} {warming later : Warming Task}
    {action : WarmAction Task} (names : NamesOnly setup warming)
    (listed : ∀ task host nowMs, action = .call task host nowMs → setup.Lists host)
    (retains : action.Retains warming) (taken : warmStep config warming action = some later) :
    NamesOnly setup later := by
  have keeps : ∀ {task : Task} {call next : WarmCall}, warming.calls task = call →
      calledHost next = calledHost call → ∀ host, calledHost next = some host → setup.Lists host := by
    intro task call next stage same host isHost
    refine names.calls task host ?_
    rw [stage, ← same, isHost]
  cases warmStep_effect taken with
  | call task host nowMs ready =>
      refine names.setCall ?_
      intro other isHost
      cases isHost
      exact listed task host nowMs rfl
  | hit task host nowMs held called fresh => exact names.setCall (keeps called rfl)
  | miss task host nowMs called stale => exact names.setCall (keeps called rfl)
  | fail task host nowMs since e resolving =>
      have own : ∀ other, calledHost (.returned host nowMs since (.error e)) = some other →
          setup.Lists other := keeps resolving rfl
      exact ⟨(names.setCall own).calls, names.cached⟩
  | resolve task host nowMs since answer resolving =>
      have own : ∀ other, calledHost (.resolved host nowMs since answer) = some other →
          setup.Lists other := keeps resolving rfl
      exact ⟨(names.setCall own).calls, names.cached⟩
  | panic task host nowMs since answer resolved empty => exact names.setCall nofun
  | record task host nowMs since answer expiresAtMs resolved expires =>
      have own : ∀ other, calledHost (.returned host nowMs (warming.recorded.length + 1)
          (.ok answer)) = some other → setup.Lists other := keeps resolved rfl
      have inserted : NamesOnly setup
          (warming.insert ⟨task, host, nowMs, answer⟩ expiresAtMs) := by
        refine ⟨names.calls, ?_⟩
        intro other entry found
        by_cases same : host = other
        · subst same
          exact own host rfl
        · refine names.cached other entry ?_
          rw [← found]
          exact (getElem?_insert_of_ne _ _ same).symm
      exact inserted.setCall own
  | evict nowMs => exact retains.elim

theorem reachable_names {now : UInt64} {streams : Task → Bytes} {hub : Hub Task}
    (reached : Reach (hubStep setup) Anything (Hub.start setup now streams) hub) :
    NamesOnly setup hub.warming := by
  have both : hub.refreshing.Installed setup ∧ NamesOnly setup hub.warming := by
    refine reached.invariant
      (fun hub => hub.refreshing.Installed setup ∧ NamesOnly setup hub.warming) ?_ ?_
    · refine ⟨⟨_, rfl⟩, ?_, ?_⟩
      · intro task host isHost
        contradiction
      intro host entry found
      rw [show Hub.warming (Hub.start setup now streams) = Warming.start from rfl,
        Warming.start, TreeMap.getElem?_emptyc] at found
      contradiction
    · intro before action after held _ taken
      have effect := hubStep_effect taken
      refine ⟨effect.installed held.1, ?_⟩
      rcases effect.warms held.1 with same | ⟨task, sni, nowMs, listed, stepped⟩ |
        ⟨own, _, proceeds, stepped⟩
      · rw [same]
        exact held.2
      · have retains : WarmAction.Retains before.warming (.call task sni nowMs) := trivial
        refine held.2.step ?_ retains stepped
        intro other host time same
        cases same
        exact listed
      · refine held.2.step ?_ (retains_of_proceeds proceeds _) stepped
        intro task host nowMs isCall
        rw [isCall] at proceeds
        contradiction
  exact both.2

omit [LinearOrder K] [DecidableEq Task] in
theorem cache_size_le {warming : Warming Task} (names : NamesOnly setup warming) :
    warming.cache.size ≤ setup.cfg.masterList.entries.length := by
  have distinct : warming.cache.keys.Nodup := by
    refine TreeMap.distinct_keys.imp ?_
    intro left right different same
    subst same
    exact different Std.ReflCmp.compare_self
  have listed : warming.cache.keys ⊆ setup.cfg.masterList.entries.map (·.sni) := by
    intro host member
    obtain ⟨entry, found⟩ : ∃ entry, warming.cache[host]? = some entry :=
      TreeMap.mem_iff_isSome_getElem?.mp (TreeMap.mem_keys.mp member) |> Option.isSome_iff_exists.mp
    obtain ⟨e, isEntry, same⟩ := names.cached host entry found
    exact List.mem_map.mpr ⟨e, isEntry, same⟩
  have shorter := (distinct.subperm listed).length_le
  rwa [TreeMap.length_keys, List.length_map] at shorter

end Warms

/-! ## Destinations among the sticky choices -/

theorem select_keeps (selector : Selector) (pool : ActivePool) (dest : String) (nowMs : UInt64)
    (random : F64) {other : String} (held : other ∈ selector.cache) :
    other ∈ (selector.select pool dest nowMs random).2.cache := by
  unfold Selector.select
  split
  · exact held
  · split
    · exact held
    · exact TreeMap.mem_insert.mpr (Or.inr held)

/-- A choice from a pool with a name in it is remembered for its destination. -/
theorem select_remembers (selector : Selector) {pool : ActivePool} (nonempty : pool.entries ≠ [])
    (dest : String) (nowMs : UInt64) (random : F64) :
    dest ∈ (selector.select pool dest nowMs random).2.cache := by
  unfold Selector.select
  rw [dif_neg nonempty]
  split
  · rename_i sni hit
    unfold Selector.cached at hit
    split at hit
    · rename_i held found
      exact TreeMap.mem_iff_isSome_getElem?.mpr (Option.isSome_iff_exists.mpr ⟨held, found⟩)
    · contradiction
  · exact TreeMap.mem_insert_self

def Phase.warms : Phase → Bool
  | .warming _ _ _ => true
  | _ => false

/-- The destination of a connection for which a name has been chosen. -/
inductive Connection.Chose (connection : Connection) : String → Prop where
  | warming (addr : Socks5Addr) (nowMs : UInt64) (sni : String)
      (phase : connection.phase = .warming addr nowMs sni) :
      Connection.Chose connection (socksToTarget addr).display
  | dialed (dialed : Dial) (isDialed : connection.dialed = some dialed) :
      Connection.Chose connection dialed.target.display

section Sticky

variable {Draw K : Type} [LinearOrder K] {setup : PipelineSetup Draw K}
variable {Task : Type} [DecidableEq Task] {before after : Hub Task}

def Hub.sticky (hub : Hub Task) : TreeMap String Sticky :=
  hub.refreshing.pipeline.selector.cache

def Hub.Remembers (hub : Hub Task) : Prop :=
  ∀ task dest, (hub.connections task).Chose dest → dest ∈ hub.sticky

theorem refreshStep_sticky {shared later : Shared Task} {action : RefreshAction Task}
    (stepped : refreshStep setup.keying setup.cfg shared action = some later) :
    later.pipeline.selector = shared.pipeline.selector := by
  cases refreshStep_effect stepped <;> rfl

/-- The running client drops no choice. -/
theorem HubEffect.keeps_sticky {action : HubAction Task}
    (effect : HubEffect setup before action after) {dest : String} (held : dest ∈ before.sticky) :
    dest ∈ after.sticky := by
  cases effect with
  | refresh action refreshing stepped =>
      unfold Hub.sticky
      rw [refreshStep_sticky stepped]
      exact held
  | beginRefresh task addr refreshing accepted stepped =>
      unfold Hub.sticky
      rw [Hub.setConnection_refreshing, refreshStep_sticky stepped]
      exact held
  | pick dest nowMs random => exact select_keeps _ _ _ _ _ held
  | choose task addr nowMs random sni warming choosing picked stepped =>
      exact select_keeps _ _ _ _ _ held
  | _ => exact held

theorem Connection.Chose.of_enter {connection : Connection} {phase : Phase} {dest : String}
    (elsewhere : phase.warms = false) (chose : (connection.enter phase).Chose dest) :
    connection.Chose dest := by
  cases chose with
  | warming addr nowMs sni isPhase =>
      cases (show phase = .warming addr nowMs sni from isPhase)
      contradiction
  | dialed dialed isDialed => exact .dialed dialed isDialed

theorem Connection.Chose.of_dial {connection : Connection} {addr : Socks5Addr} {made : Dial}
    {dest : String} (isTarget : made.target = socksToTarget addr)
    (chose : (connection.dial addr made).Chose dest) : dest = (socksToTarget addr).display := by
  unfold Connection.dial at chose
  split at chose
  · cases chose with
    | warming addr nowMs sni isPhase => contradiction
    | dialed dialed isDialed =>
        cases isDialed
        rw [isTarget]
  · cases chose with
    | warming addr nowMs sni isPhase => contradiction
    | dialed dialed isDialed =>
        cases isDialed
        rw [isTarget]

theorem Connection.Chose.of_shakeHands {connection : Connection} {dest : String}
    (chose : connection.shakeHands.Chose dest) : connection.Chose dest := by
  unfold Connection.shakeHands at chose
  split at chose
  · cases chose with
    | warming addr nowMs sni isPhase => contradiction
    | dialed dialed isDialed => exact .dialed dialed isDialed
  · cases chose with
    | warming addr nowMs sni isPhase => contradiction
    | dialed dialed isDialed => exact .dialed dialed isDialed

/-- What a connection has chosen now it had chosen before, or the step has chosen it. -/
theorem HubEffect.chose {action : HubAction Task} (effect : HubEffect setup before action after)
    (installed : before.refreshing.Installed setup) {task : Task} {dest : String}
    (chose : (after.connections task).Chose dest) :
    (before.connections task).Chose dest ∨ dest ∈ after.sticky := by
  have moved : ∀ {hub : Hub Task} {own : Task} {connection : Connection},
      hub.connections = before.connections →
      ((hub.setConnection own connection).connections task).Chose dest →
      (connection.Chose dest → (before.connections own).Chose dest ∨ dest ∈ after.sticky) →
      (before.connections task).Chose dest ∨ dest ∈ after.sticky := by
    intro hub own connection same chosen mine
    by_cases isOwn : task = own
    · subst isOwn
      rw [Hub.setConnection_self] at chosen
      exact mine chosen
    · rw [Hub.setConnection_of_ne hub connection isOwn, same] at chosen
      exact Or.inl chosen
  cases effect with
  | handshake own waiting =>
      exact moved rfl chose fun mine => Or.inl mine.of_shakeHands
  | beginRefresh own addr refreshing accepted stepped =>
      exact moved rfl chose fun mine => Or.inl (mine.of_enter rfl)
  | readMillis own addr nowMs refreshing =>
      exact moved rfl chose fun mine => Or.inl (mine.of_enter rfl)
  | choose own addr nowMs random sni warming choosing picked stepped =>
      refine moved rfl chose ?_
      intro mine
      cases mine with
      | warming addr nowMs sni isPhase =>
          cases isPhase
          obtain ⟨epoch, isPool⟩ := installed
          have nonempty : before.refreshing.pipeline.pool.entries ≠ [] := by
            rw [isPool]
            exact poolFor_ne_nil epoch
          exact Or.inr (select_remembers _ nonempty _ _ _)
      | dialed dialed isDialed => exact Or.inl (.dialed dialed isDialed)
  | unset own peer now addr nowMs sni warming unbuilt =>
      exact moved rfl chose fun mine => Or.inl (mine.of_enter rfl)
  | dial own peer now addr dialed tunnel warming returned built isTarget isPeer isResult =>
      refine moved rfl chose ?_
      intro mine
      rw [mine.of_dial isTarget]
      exact Or.inl (.warming addr dialed.nowMs dialed.sni warming)
  | relay own download addr relaying =>
      refine moved rfl chose ?_
      intro mine
      cases mine with
      | warming addr nowMs sni isPhase => exact Or.inl (.warming addr nowMs sni isPhase)
      | dialed dialed isDialed => exact Or.inl (.dialed dialed isDialed)
  | finish own addr relaying =>
      exact moved rfl chose fun mine => Or.inl (mine.of_enter rfl)
  | _ => exact Or.inl chose

theorem reachable_remembers {now : UInt64} {streams : Task → Bytes} {hub : Hub Task}
    (reached : Reach (hubStep setup) Anything (Hub.start setup now streams) hub) :
    hub.Remembers := by
  have both : hub.refreshing.Installed setup ∧ hub.Remembers := by
    refine reached.invariant (fun hub => hub.refreshing.Installed setup ∧ hub.Remembers) ?_ ?_
    · refine ⟨⟨_, rfl⟩, ?_⟩
      intro task dest chose
      cases chose with
      | warming addr nowMs sni isPhase => contradiction
      | dialed dialed isDialed => contradiction
    · intro before action after held _ taken
      have effect := hubStep_effect taken
      refine ⟨effect.installed held.1, ?_⟩
      intro task dest chose
      rcases effect.chose held.1 chose with already | remembered
      · exact effect.keeps_sticky (held.2 task dest already)
      · exact remembered
  exact both.2

theorem reach_keeps_sticky {later : Hub Task} (onward : Reach (hubStep setup) Anything before later)
    {dest : String} (held : dest ∈ before.sticky) : dest ∈ later.sticky := by
  refine onward.invariant (fun hub => dest ∈ hub.sticky) held ?_
  intro hub action next kept _ taken
  exact (hubStep_effect taken).keeps_sticky kept

omit [DecidableEq Task] in
theorem length_le_sticky {hub : Hub Task} {dests : List String} (distinct : dests.Nodup)
    (held : ∀ dest ∈ dests, dest ∈ hub.sticky) : dests.length ≤ hub.sticky.size := by
  have listed : dests ⊆ hub.sticky.keys := by
    intro dest member
    exact TreeMap.mem_keys.mpr (held dest member)
  have shorter := (distinct.subperm listed).length_le
  rwa [TreeMap.length_keys] at shorter

/-- Of its two caches a running client bounds one.  In every run the DNS cache holds
names of the master list only, so never more of them than it has entries; the sticky
choices hold every destination that was ever dialed, at every later time, so at least
as many as there were different ones. -/
theorem dns_cache_bounded_sticky_choices_not (setup : PipelineSetup Draw K) (now : UInt64)
    (streams : Task → Bytes) (hub : Hub Task)
    (reached : Reach (hubStep setup) Anything (Hub.start setup now streams) hub) :
    (∀ (host : String) (entry : CacheEntry), hub.warming.cache[host]? = some entry →
      setup.Lists host) ∧
    hub.warming.cache.size ≤ setup.cfg.masterList.entries.length ∧
    ∀ later, Reach (hubStep setup) Anything hub later → ∀ dests : List String, dests.Nodup →
      (∀ dest ∈ dests, ∃ task dialed, (hub.connections task).dialed = some dialed ∧
        dialed.target.display = dest) →
      (∀ dest ∈ dests, dest ∈ later.sticky) ∧ dests.length ≤ later.sticky.size := by
  have names := reachable_names reached
  refine ⟨names.cached, cache_size_le names, ?_⟩
  intro later onward dests distinct chosen
  have held : ∀ dest ∈ dests, dest ∈ later.sticky := by
    intro dest member
    obtain ⟨task, dialed, isDialed, isDest⟩ := chosen dest member
    subst isDest
    exact reach_keeps_sticky onward (reachable_remembers reached task _ (.dialed dialed isDialed))
  exact ⟨held, length_le_sticky distinct held⟩

end Sticky

/-- The first connection, resolved and dialed. -/
theorem first_connection_dialed : ∃ hub : Hub Nat,
    runAll (hubStep dialingSetup) (Hub.start dialingSetup 0 fun _ => loopbackRequest)
        (firstConnection (.ok ⟨[], ⟨60, 0⟩⟩) ++ [.warm (.record 0), .dial 0 (sevenPeer []) 7]) =
      some hub ∧
      ∃ dialed, (hub.connections 0).dialed = some dialed ∧
        dialed.target.display = "127.0.0.1:80" := by
  refine ⟨_, rfl, _, rfl, ?_⟩
  decide +kernel

theorem first_destination_kept : ∃ hub : Hub Nat,
    Reach (hubStep dialingSetup) Anything (Hub.start dialingSetup 0 fun _ => loopbackRequest)
        hub ∧
      hub.warming.cache.size ≤ dialingSetup.cfg.masterList.entries.length ∧
      "127.0.0.1:80" ∈ hub.sticky ∧ 1 ≤ hub.sticky.size := by
  obtain ⟨hub, ran, dialed⟩ := first_connection_dialed
  have reached := reach_of_runAll ran
  obtain ⟨_, bounded, kept⟩ := dns_cache_bounded_sticky_choices_not dialingSetup 0
    (fun _ => loopbackRequest) hub reached
  obtain ⟨held, counted⟩ := kept hub .refl ["127.0.0.1:80"] (List.nodup_singleton _) (by
    intro dest member
    rw [List.mem_singleton.mp member]
    exact ⟨0, dialed⟩)
  exact ⟨hub, reached, bounded, held _ (List.mem_singleton_self _), counted⟩

/-! ## The client as it is shipped -/

section Shipped

variable {Draw K : Type} [LinearOrder K] {setup : PipelineSetup Draw K}
variable {Task : Type} [DecidableEq Task] {before after : Hub Task}

/-- The resolver of `Pipeline::mock` answers out of its empty table. -/
def AnsweredByMock (hub : Hub Task) : HubAction Task → Prop
  | .warm (.answer task result) =>
      ∀ host nowMs since, hub.warming.calls task = .resolving host nowMs since →
        result = MockResolver.resolve ∅ host
  | _ => True

def notInTable (host : String) : ResolveError :=
  .backend host "host not in MockResolver table"

/-- The stages a call can be in when no lookup succeeds. -/
def Unresolved : WarmCall → Prop
  | .resolved _ _ _ _ | .panicked => False
  | .returned host _ _ result => result = .error (notInTable host)
  | _ => True

structure Offline (warming : Warming Task) : Prop where
  cache : warming.cache = ∅
  calls : ∀ task, Unresolved (warming.calls task)
  answered : ∀ lookup ∈ warming.answered, lookup.result = .error (notInTable lookup.host)
  recorded : warming.recorded = []

omit [DecidableEq Task] in
theorem resolve_empty (host : String) :
    MockResolver.resolve ∅ host = .error (notInTable host) := by
  unfold MockResolver.resolve
  rw [TreeMap.getElem?_emptyc]
  rfl

theorem Offline.setCall {warming : Warming Task} (offline : Offline warming) {task : Task}
    {call : WarmCall} (unresolved : Unresolved call) : Offline (warming.setCall task call) := by
  refine ⟨offline.cache, ?_, offline.answered, offline.recorded⟩
  intro other
  by_cases own : other = task
  · subst own
    rw [setCall_calls]
    exact unresolved
  · rw [setCall_calls_of_ne call own]
    exact offline.calls other

theorem Offline.step {config : WarmerConfig} {warming later : Warming Task}
    {action : WarmAction Task} (offline : Offline warming)
    (mocked : ∀ task result host nowMs since, action = .answer task result →
      warming.calls task = .resolving host nowMs since → result = MockResolver.resolve ∅ host)
    (retains : action.Retains warming) (taken : warmStep config warming action = some later) :
    Offline later := by
  cases warmStep_effect taken with
  | call task host nowMs ready => exact offline.setCall trivial
  | hit task host nowMs held called fresh =>
      rw [offline.cache, Cache.fastPath, TreeMap.getElem?_emptyc] at fresh
      contradiction
  | miss task host nowMs called stale => exact offline.setCall trivial
  | fail task host nowMs since e resolving =>
      have failed := mocked task _ host nowMs since rfl resolving
      rw [resolve_empty] at failed
      cases failed
      have moved : Offline (warming.setCall task
          (.returned host nowMs since (.error (notInTable host)))) := offline.setCall rfl
      refine ⟨moved.cache, moved.calls, ?_, moved.recorded⟩
      intro lookup member
      rcases List.mem_append.mp member with earlier | last
      · exact offline.answered lookup earlier
      · rw [List.mem_singleton.mp last]
  | resolve task host nowMs since answer resolving =>
      have failed := mocked task _ host nowMs since rfl resolving
      rw [resolve_empty] at failed
      contradiction
  | panic task host nowMs since answer resolved empty =>
      have unresolved := offline.calls task
      rw [resolved] at unresolved
      exact unresolved.elim
  | record task host nowMs since answer expiresAtMs resolved expires =>
      have unresolved := offline.calls task
      rw [resolved] at unresolved
      exact unresolved.elim
  | evict nowMs => exact retains.elim

omit [DecidableEq Task] in
theorem start_offline : Offline (Warming.start : Warming Task) :=
  ⟨rfl, fun _ => trivial, nofun, rfl⟩

theorem reachable_offline {now : UInt64} {streams : Task → Bytes} {hub : Hub Task}
    (reached : Reach (hubStep setup) AnsweredByMock (Hub.start setup now streams) hub) :
    Offline hub.warming := by
  have both : hub.refreshing.Installed setup ∧ Offline hub.warming := by
    refine reached.invariant (fun hub => hub.refreshing.Installed setup ∧ Offline hub.warming)
      ⟨⟨_, rfl⟩, start_offline⟩ ?_
    intro before action after held mocked taken
    have effect := hubStep_effect taken
    refine ⟨effect.installed held.1, ?_⟩
    rcases effect.warms held.1 with same | ⟨task, sni, nowMs, _, stepped⟩ |
      ⟨own, isWarm, proceeds, stepped⟩
    · rw [same]
      exact held.2
    · have retains : WarmAction.Retains before.warming (.call task sni nowMs) := trivial
      refine held.2.step ?_ retains stepped
      intro other result host time since isAnswer
      contradiction
    · subst isWarm
      refine held.2.step ?_ (retains_of_proceeds proceeds _) stepped
      intro task result host nowMs since isAnswer stage
      subst isAnswer
      exact mocked host nowMs since stage
  exact both.2

/-- The shipped client resolves nothing.  `hydra serve` and `hydra-client` run the
pipeline of `Pipeline::mock`: in every run of it no lookup succeeds, nothing is ever
recorded and no name is ever warm, and whenever a connection opens the tunnel, its own
warm of the name it presents has just failed. -/
theorem shipped_client_never_warms (setup : PipelineSetup Draw K) (now : UInt64)
    (streams : Task → Bytes) (hub : Hub Task)
    (reached : Reach (hubStep setup) AnsweredByMock (Hub.start setup now streams) hub) :
    (∀ lookup ∈ hub.warming.answered, lookup.result = .error (notInTable lookup.host)) ∧
    hub.warming.recorded = [] ∧
    (∀ host nowMs, hub.warming.cache.isWarm host nowMs = false) ∧
    ∀ task sni nowMs, hub.Opens setup task sni nowMs →
      ∃ since, hub.warming.calls task = .returned sni nowMs since (.error (notInTable sni)) := by
  have offline := reachable_offline reached
  refine ⟨offline.answered, offline.recorded, ?_, ?_⟩
  · intro host nowMs
    rw [offline.cache, Cache.isWarm, TreeMap.getElem?_emptyc]
    rfl
  · intro task sni nowMs opens
    obtain ⟨since, result, stage⟩ := opens.returned (reachable_linked reached.anything)
    have unresolved := offline.calls task
    rw [stage] at unresolved
    cases (show result = _ from unresolved)
    exact ⟨since, stage⟩

end Shipped

/-- The first connection up to its lookup. -/
def askingActions : List (HubAction Nat) :=
  [.handshake 0, .beginRefresh 0, .refresh (.readStored 0), .readMillis 0 5,
    .choose 0 (.finite 0), .warm (.look 0)]

theorem first_connection_asks : ∃ hub : Hub Nat,
    runAll (hubStep dialingSetup) (Hub.start dialingSetup 0 fun _ => loopbackRequest)
        askingActions = some hub ∧
      hub.warming.answered = [] ∧ hub.warming.calls 0 = .resolving "a.example" 5 0 := by
  refine ⟨_, rfl, rfl, ?_⟩
  decide +kernel

theorem shipped_first_connection_unwarmed : ∃ hub : Hub Nat,
    Reach (hubStep dialingSetup) AnsweredByMock
        (Hub.start dialingSetup 0 fun _ => loopbackRequest) hub ∧
      hub.warming.answered.length = 1 ∧ hub.warming.recorded = [] := by
  obtain ⟨asking, ran, unanswered, stage⟩ := first_connection_asks
  have unanswering : ∀ action ∈ askingActions, ∀ hub, AnsweredByMock hub action := by
    simp [askingActions, AnsweredByMock]
  obtain ⟨hub, taken, one⟩ : ∃ hub,
      hubStep dialingSetup asking (.warm (.answer 0 (.error (notInTable "a.example")))) =
        some hub ∧ hub.warming.answered.length = 1 := by
    simp [hubStep, warmProceeds, warmStep, stage, unanswered]
  have mocked : AnsweredByMock asking
      (.warm (.answer 0 (.error (notInTable "a.example")))) := by
    intro host nowMs since resolving
    rw [stage] at resolving
    cases resolving
    exact (resolve_empty _).symm
  have reached := (reach_of_along ran (along_of_forall _ unanswering)).tail ⟨_, mocked, taken⟩
  have never := shipped_client_never_warms dialingSetup 0 _ hub reached
  exact ⟨hub, reached, one, never.2.1⟩

end RealityHydra.HydraClient
