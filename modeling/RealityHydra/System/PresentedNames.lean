import RealityHydra.HydraClient.Camouflage
import RealityHydra.System.StaleNames

/-!
# The names a client shows

Every connection of a client shows one name.  Whatever the refreshes race about and
whatever the selector remembers, that name comes from a pool that was made for an
epoch the clock has shown, so that the epochs of a run bound how many names there are.
-/

set_option autoImplicit false

namespace RealityHydra.System

open RealityHydra.DnsWarmer
open RealityHydra.HydraCli
open RealityHydra.HydraClient
open RealityHydra.Lib.ByteCodec
open RealityHydra.Lib.Transition
open RealityHydra.PoolEngine
open RealityHydra.Primitives

def presented (connection : Connection) : List String :=
  let asked := match connection.phase with
    | .warming _ _ sni => [sni]
    | _ => []
  asked ++ (connection.dialed.map Dial.sni).toList

/-- The names that `open` makes of those it is handed, and the ClientHello shows. -/
def shownNames (env : ClientEnv) (connection : Connection) : List String :=
  (presented connection).filterMap fun sni => (chooseServerName env sni).toOption

def ReadsOnly (shown : Epoch → Prop) : Call → Prop
  | .idle => True
  | .timed epoch | .changed epoch | .installed epoch => shown epoch

section Machine

variable {Draw K : Type} [LinearOrder K] (setup : PipelineSetup Draw K) (shown : Epoch → Prop)
variable {Task : Type} [DecidableEq Task]

def ClockKeeps (_ : Hub Task) : HubAction Task → Prop
  | .setClock now => shown (epochAt now setup.cfg.epochLen)
  | .refresh (.tick now) => shown (epochAt now setup.cfg.epochLen)
  | _ => True

/-- `ServerName::try_from` takes every name of the list as it is. -/
def NamesLegal : Prop :=
  ∀ entry ∈ setup.cfg.masterList.entries, setup.env.tryServerName entry.sni = .ok entry.sni

def FromPool (sni : String) : Prop :=
  ∃ epoch, shown epoch ∧ (poolFor setup.keying setup.cfg epoch).contains sni = true

structure Timely (shared : Shared Task) : Prop where
  clock : shown (epochAt shared.clock setup.cfg.epochLen)
  calls : ∀ task, ReadsOnly shown (shared.calls task)
  pool : ∃ epoch, shown epoch ∧ shared.pipeline.pool = poolFor setup.keying setup.cfg epoch

end Machine

section Refreshing

variable {Draw K : Type} [LinearOrder K] {setup : PipelineSetup Draw K} {shown : Epoch → Prop}
variable {Task : Type} [DecidableEq Task] {before after : Shared Task}

theorem Timely.setCall (timely : Timely setup shown before) (task : Task) (call : Call)
    (reads : ReadsOnly shown call) :
    Timely setup shown (before.setCall task call) := by
  refine ⟨timely.clock, ?_, timely.pool⟩
  intro other
  rw [Shared.setCall]
  by_cases own : other = task
  · subst own
    dsimp only
    rw [Function.update_self]
    exact reads
  · dsimp only
    rw [Function.update_of_ne own]
    exact timely.calls other

theorem Timely.refresh {action : RefreshAction Task} (timely : Timely setup shown before)
    (ticks : ∀ now, action = .tick now → shown (epochAt now setup.cfg.epochLen))
    (taken : refreshStep setup.keying setup.cfg before action = some after) :
    Timely setup shown after := by
  cases action with
  | tick now =>
      cases refreshStep_effect taken
      exact ⟨ticks now rfl, timely.calls, timely.pool⟩
  | readClock task =>
      cases refreshStep_effect taken
      exact timely.setCall task _ timely.clock
  | readStored task =>
      have read := timely.calls task
      rw [refreshStep] at taken
      split at taken
      · rename_i epoch timed
        rw [timed] at read
        split at taken
        · cases taken
          exact timely.setCall task (.changed epoch) read
        · cases taken
          exact timely.setCall task .idle trivial
      · contradiction
  | writePool task =>
      cases refreshStep_effect taken with
      | writePool _ epoch changed =>
          have read := timely.calls task
          rw [changed] at read
          have called := timely.setCall task (.installed epoch) read
          exact ⟨called.clock, called.calls, epoch, read, rfl⟩
  | publish task =>
      cases refreshStep_effect taken with
      | publish _ epoch installed =>
          have called := timely.setCall task .idle trivial
          exact ⟨called.clock, called.calls, called.pool⟩

omit [DecidableEq Task] in
theorem Timely.picks (timely : Timely setup shown before) (dest : String) (nowMs : UInt64)
    (random : F64) :
    FromPool setup shown
      ((before.pipeline.selectSni dest nowMs random).1.getD fallbackSni) := by
  obtain ⟨epoch, isShown, pool⟩ := timely.pool
  have nonempty : before.pipeline.pool.entries ≠ [] := by
    rw [pool]
    exact poolFor_ne_nil epoch
  obtain ⟨sni, picked⟩ := before.pipeline.selector.select_of_ne_nil nonempty dest nowMs random
  have held := Selector.select_mem _ _ _ _ _ _ picked
  have isPicked : (before.pipeline.selectSni dest nowMs random).1 = some sni := picked
  rw [isPicked, Option.getD_some]
  exact ⟨epoch, isShown, pool ▸ held⟩

end Refreshing

section Runs

variable {Draw K : Type} [LinearOrder K] {setup : PipelineSetup Draw K} {shown : Epoch → Prop}
variable {Task : Type} [DecidableEq Task] {before after : Hub Task}

theorem timely_of_effect {action : HubAction Task} (effect : HubEffect setup before action after)
    (keeps : ClockKeeps setup shown before action)
    (timely : Timely setup shown before.refreshing) : Timely setup shown after.refreshing := by
  cases effect with
  | setClock now => exact ⟨keeps, timely.calls, timely.pool⟩
  | refresh action refreshing stepped =>
      refine timely.refresh ?_ stepped
      intro now isTick
      subst isTick
      exact keeps
  | beginRefresh task addr refreshing accepted stepped =>
      refine timely.refresh ?_ stepped
      intro now isTick
      contradiction
  | pick dest nowMs random => exact ⟨timely.clock, timely.calls, timely.pool⟩
  | choose task addr nowMs random sni warming choosing picked stepped =>
      exact ⟨timely.clock, timely.calls, timely.pool⟩
  | _ => exact timely

/-- A step shows a name at most that the selector has just picked. -/
theorem fromPool_of_effect {action : HubAction Task}
    (effect : HubEffect setup before action after)
    (timely : Timely setup shown before.refreshing) (task : Task)
    (earlier : ∀ sni ∈ presented (before.connections task), FromPool setup shown sni) :
    ∀ sni ∈ presented (after.connections task), FromPool setup shown sni := by
  let Keeps (connection later : Connection) : Prop :=
    ∀ sni ∈ presented later,
      sni ∈ presented connection ∨ FromPool setup shown sni
  have phaseOnly : ∀ (connection : Connection) (phase : Phase),
      (∀ addr nowMs sni, phase ≠ .warming addr nowMs sni) →
        Keeps connection (connection.enter phase) := by
    intro connection phase asksNone sni isIn
    refine Or.inl (List.mem_append_right _ ?_)
    rcases List.mem_append.mp isIn with asked | dialed
    · cases phase with
      | warming addr nowMs sni => exact absurd rfl (asksNone addr nowMs sni)
      | _ => exact absurd asked List.not_mem_nil
    · exact dialed
  have moves : after.connections task = before.connections task ∨
      Keeps (before.connections task) (after.connections task) := by
    cases effect with
    | setClock now => exact Or.inl rfl
    | refresh action refreshing stepped => exact Or.inl rfl
    | pick dest nowMs random => exact Or.inl rfl
    | warm action warming proceeds stepped => exact Or.inl rfl
    | handshake own waiting =>
        refine setConnection_moves ?_ task
        intro sni isIn
        refine Or.inl (List.mem_append_right _ ?_)
        revert isIn
        unfold Connection.shakeHands
        split <;> exact fun isIn => isIn
    | beginRefresh own addr refreshing accepted stepped =>
        refine setConnection_moves (phaseOnly _ _ ?_) task
        intro _ _ _ same
        contradiction
    | readMillis own addr nowMs refreshing =>
        refine setConnection_moves (phaseOnly _ _ ?_) task
        intro _ _ _ same
        contradiction
    | choose own addr nowMs random chosen warming choosing picked stepped =>
        refine setConnection_moves ?_ task
        intro sni isIn
        rcases List.mem_cons.mp isIn with isChosen | dialed
        · rw [isChosen, picked]
          exact Or.inr (timely.picks (socksToTarget addr).display nowMs random)
        · exact Or.inl (List.mem_append_right _ dialed)
    | unset own peer now addr nowMs sni warming unbuilt =>
        refine setConnection_moves (phaseOnly _ _ ?_) task
        intro _ _ _ same
        contradiction
    | dial own peer now addr dialed tunnel warming returned built isTarget isPeer isResult =>
        refine setConnection_moves ?_ task
        intro sni isIn
        refine Or.inl (List.mem_append_left _ ?_)
        rw [warming]
        revert isIn
        unfold Connection.dial
        split <;> exact fun isIn => isIn
    | relay own download addr relaying =>
        refine setConnection_moves ?_ task
        exact fun sni isIn => Or.inl isIn
    | finish own addr relaying =>
        refine setConnection_moves (phaseOnly _ _ ?_) task
        intro _ _ _ same
        contradiction
  intro sni isIn
  rcases moves with same | keeps
  · rw [same] at isIn
    exact earlier sni isIn
  · rcases keeps sni isIn with known | picked
    · exact earlier sni known
    · exact picked

theorem reachable_presented {now : UInt64} {streams : Task → Bytes} {hub : Hub Task}
    (starts : shown (epochAt now setup.cfg.epochLen))
    (reached : Reach (hubStep setup) (ClockKeeps setup shown) (Hub.start setup now streams) hub) :
    ∀ task, ∀ sni ∈ presented (hub.connections task), FromPool setup shown sni := by
  have both : Timely setup shown hub.refreshing ∧
      ∀ task, ∀ sni ∈ presented (hub.connections task), FromPool setup shown sni := by
    apply reached.invariant fun hub => Timely setup shown hub.refreshing ∧
      ∀ task, ∀ sni ∈ presented (hub.connections task), FromPool setup shown sni
    · refine ⟨⟨starts, fun _ => trivial, _, starts, rfl⟩, ?_⟩
      intro task sni isIn
      exact absurd isIn List.not_mem_nil
    · intro before action after held keeps taken
      have effect := hubStep_effect taken
      refine ⟨timely_of_effect effect keeps held.1, ?_⟩
      intro task
      exact fromPool_of_effect effect held.1 task (held.2 task)
  exact both.2

end Runs

/-! ## What the ClientHello shows -/

section Shown

variable {Draw K : Type} [LinearOrder K] {setup : PipelineSetup Draw K} {shown : Epoch → Prop}

theorem chooseServerName_fromPool (legal : NamesLegal setup) {sni : String}
    (fromPool : FromPool setup shown sni) : chooseServerName setup.env sni = .ok sni := by
  obtain ⟨epoch, -, named⟩ := fromPool
  obtain ⟨entry, isIn, rfl⟩ := (ActivePool.contains_iff ..).mp named
  have listed : entry ∈ setup.cfg.masterList.entries := acceptedPoolWindow_subset _ _ _ _ _ _ isIn
  rw [chooseServerName, legal entry listed]

/-- Without an illegal name in the list no connection shows another than it was handed. -/
theorem shownNames_eq_presented (legal : NamesLegal setup) {connection : Connection}
    (fromPool : ∀ sni ∈ presented connection, FromPool setup shown sni) :
    shownNames setup.env connection = presented connection := by
  have kept : ∀ sni ∈ presented connection,
      (chooseServerName setup.env sni).toOption = some sni := by
    intro sni isIn
    rw [chooseServerName_fromPool legal (fromPool sni isIn)]
    rfl
  rw [shownNames, List.filterMap_congr kept, List.filterMap_some]

end Shown

/-! ## How many names there are -/

section Counting

variable {Draw K : Type} [LinearOrder K] {setup : PipelineSetup Draw K} {shown : Epoch → Prop}
  {first last : Nat}

/-- The names drawn from the epoch before the first one to the epoch after the last. -/
def drawnNames (setup : PipelineSetup Draw K) (first last : Nat) : List String :=
  (List.range' (first - 1) (last - first + 3)).flatMap fun epoch =>
    (setup.cfg.subsetAt setup.keying (UInt64.ofNat epoch)).entries.map PoolEntry.sni

theorem drawnNames_length : (drawnNames setup first last).length =
    (last - first + 3) * min setup.cfg.activeK setup.cfg.masterList.entries.length := by
  have drawnEach : ∀ epoch, (setup.cfg.subsetAt setup.keying epoch).entries.length =
      min setup.cfg.activeK setup.cfg.masterList.entries.length :=
    fun epoch => subsetFromSeed_length ..
  rw [drawnNames, List.length_flatMap]
  simp [drawnEach]

theorem mem_drawnNames (bounded : ∀ epoch, shown epoch → first ≤ epoch.toNat ∧ epoch.toNat ≤ last)
    {sni : String} (fromPool : FromPool setup shown sni) : sni ∈ drawnNames setup first last := by
  obtain ⟨epoch, isShown, named⟩ := fromPool
  obtain ⟨entry, isIn, isNamed⟩ := (ActivePool.contains_iff ..).mp named
  obtain ⟨near, isNear, drawn⟩ := (mem_poolFor epoch entry).mp isIn
  obtain ⟨above, below⟩ := (mem_epochWindow_iff epoch near).mp isNear
  obtain ⟨fromFirst, toLast⟩ := bounded epoch isShown
  refine List.mem_flatMap.mpr ⟨near.toNat, ?_, ?_⟩
  · rw [List.mem_range'_1]
    omega
  · rw [UInt64.ofNat_toNat]
    exact List.mem_map.mpr ⟨entry, drawn, isNamed⟩

end Counting

/-- In every run of a client, with its connections, refreshes and clock in any order,
each name that a ClientHello shows is drawn in an epoch next to one that the clock has
shown, if the list has legal names only.  So a run that sees no epoch outside of a
stretch shows at most one draw for each epoch of it and two more, and a run within one
epoch only names that a front of that epoch accepts. -/
theorem presented_names_follow_clock {Draw K : Type} [LinearOrder K]
    (setup : PipelineSetup Draw K) (legal : NamesLegal setup) {Task : Type} [DecidableEq Task]
    (shown : Epoch → Prop) (now : UInt64) (starts : shown (epochAt now setup.cfg.epochLen))
    (streams : Task → Bytes) (hub : Hub Task)
    (reached : Reach (hubStep setup) (ClockKeeps setup shown) (Hub.start setup now streams) hub) :
    (∀ task, ∀ sni ∈ shownNames setup.env (hub.connections task),
      ∃ epoch, shown epoch ∧ ∃ near ∈ epochWindow epoch,
        (setup.cfg.subsetAt setup.keying near).contains sni = true) ∧
    (∀ first last, (∀ epoch, shown epoch → first ≤ epoch.toNat ∧ epoch.toNat ≤ last) →
      ∀ names : List String, names.Nodup →
        (∀ sni ∈ names, ∃ task, sni ∈ shownNames setup.env (hub.connections task)) →
          names.length ≤ (last - first + 3) *
            min setup.cfg.activeK setup.cfg.masterList.entries.length) ∧
    ∀ front, (∀ epoch, shown epoch → epoch = front) →
      ∀ task, ∀ sni ∈ shownNames setup.env (hub.connections task),
        (serverNames setup.keying setup.cfg front true).contains sni = true := by
  have named : ∀ task, ∀ sni ∈ shownNames setup.env (hub.connections task),
      FromPool setup shown sni := by
    intro task
    have handed := reachable_presented starts reached task
    rw [shownNames_eq_presented legal handed]
    exact handed
  refine ⟨?_, ?_, ?_⟩
  · intro task sni isIn
    obtain ⟨epoch, isShown, inPool⟩ := named task sni isIn
    obtain ⟨entry, held, isNamed⟩ := (ActivePool.contains_iff ..).mp inPool
    obtain ⟨near, isNear, drawn⟩ := (mem_poolFor epoch entry).mp held
    exact ⟨epoch, isShown, near, isNear, (ActivePool.contains_iff ..).mpr ⟨entry, drawn, isNamed⟩⟩
  · intro first last bounded names distinct all
    have within : names ⊆ drawnNames setup first last := by
      intro sni isIn
      obtain ⟨task, isShown⟩ := all sni isIn
      exact mem_drawnNames bounded (named task sni isShown)
    rw [← drawnNames_length]
    exact (List.subperm_of_subset distinct within).length_le
  · intro front only task sni isIn
    obtain ⟨epoch, isShown, inPool⟩ := named task sni isIn
    rw [only epoch isShown] at inPool
    exact inPool

theorem first_connection_shows_drawn_name : ∃ hub : Hub Nat,
    Reach (hubStep dialingSetup) (ClockKeeps dialingSetup (· = 0))
      (Hub.start dialingSetup 0 fun _ => loopbackRequest) hub ∧
    "a.example" ∈ shownNames dialingSetup.env (hub.connections 0) ∧
    (serverNames dialingSetup.keying dialingSetup.cfg 0 true).contains "a.example" = true := by
  let answer : Except ResolveError Resolved := .ok ⟨[], ⟨60, 0⟩⟩
  obtain ⟨hub, ran⟩ : ∃ hub, runAll (hubStep dialingSetup)
      (Hub.start dialingSetup 0 fun _ => loopbackRequest) (firstConnection answer) = some hub :=
    ⟨_, rfl⟩
  have shows : "a.example" ∈ shownNames dialingSetup.env (hub.connections 0) := by
    rw [← Option.some.inj ran]
    decide +kernel
  have keeps : ∀ action ∈ firstConnection answer, ∀ hub : Hub Nat,
      ClockKeeps dialingSetup (· = 0) hub action := by
    intro action isIn hub
    cases action with
    | setClock now => simp [firstConnection] at isIn
    | refresh action =>
        cases action with
        | tick now => simp [firstConnection] at isIn
        | _ => trivial
    | _ => trivial
  have reached := reach_of_along ran (along_of_forall _ keeps)
  have starts : epochAt 0 dialingSetup.cfg.epochLen = 0 := by decide +kernel
  have accepted := (presented_names_follow_clock dialingSetup (fun _ _ => rfl) (· = 0) 0 starts
    (fun _ => loopbackRequest) hub reached).2.2 0 (fun _ isShown => isShown) 0 _ shows
  exact ⟨hub, reached, shows, accepted⟩

end RealityHydra.System
