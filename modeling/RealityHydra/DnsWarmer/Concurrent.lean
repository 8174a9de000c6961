import Mathlib.Logic.Function.Basic
import RealityHydra.DnsWarmer.Warmer
import RealityHydra.Lib.Transition

/-!
# Concurrent warms

The lock is dropped while the resolver is asked, so other calls may run between
the read and the insert of one `warm`.  The machine keeps, next to the cache,
what the resolver answered and what was recorded, in order.
-/

set_option autoImplicit false

namespace RealityHydra.DnsWarmer

open RealityHydra.Lib.ExpiryMap
open RealityHydra.Lib.Transition
open RealityHydra.PoolEngine
open Relation

/-- `since` counts what had been recorded when the call last held the lock. -/
inductive WarmCall where
  | idle
  | called (host : String) (nowMs : UInt64)
  | resolving (host : String) (nowMs : UInt64) (since : Nat)
  | resolved (host : String) (nowMs : UInt64) (since : Nat) (answer : Resolved)
  | returned (host : String) (nowMs : UInt64) (since : Nat)
      (result : Except ResolveError Resolved)
  | panicked
  deriving DecidableEq

structure Answer (Task : Type) where
  task : Task
  host : String
  nowMs : UInt64
  result : Except ResolveError Resolved

structure Recording (Task : Type) where
  task : Task
  host : String
  nowMs : UInt64
  resolved : Resolved

structure Warming (Task : Type) where
  cache : Cache
  calls : Task → WarmCall
  answered : List (Answer Task)
  recorded : List (Recording Task)

inductive WarmAction (Task : Type) where
  | call (task : Task) (host : String) (nowMs : UInt64)
  | look (task : Task)
  | answer (task : Task) (result : Except ResolveError Resolved)
  | record (task : Task)
  | evict (nowMs : UInt64)

/-- The insert of `warm`, with its record. -/
def Warming.insert {Task : Type} (warming : Warming Task) (made : Recording Task)
    (expiresAtMs : UInt64) : Warming Task :=
  { warming with
    cache := warming.cache.record made.host made.resolved expiresAtMs
    recorded := warming.recorded ++ [made] }

section Warms

variable (config : WarmerConfig) {Task : Type} [DecidableEq Task]

def Warming.start : Warming Task := ⟨∅, fun _ => .idle, [], []⟩

def Warming.setCall (warming : Warming Task) (task : Task) (call : WarmCall) :
    Warming Task :=
  { warming with calls := Function.update warming.calls task call }

def warmStep (warming : Warming Task) : WarmAction Task → Option (Warming Task)
  | .call task host nowMs =>
      match warming.calls task with
      | .idle | .returned _ _ _ _ => some (warming.setCall task (.called host nowMs))
      | _ => none
  | .look task =>
      match warming.calls task with
      | .called host nowMs =>
          let since := warming.recorded.length
          match warming.cache.fastPath host nowMs with
          | some held => some (warming.setCall task (.returned host nowMs since (.ok held)))
          | none => some (warming.setCall task (.resolving host nowMs since))
      | _ => none
  | .answer task result =>
      match warming.calls task with
      | .resolving host nowMs since =>
          let answered := warming.answered ++ [⟨task, host, nowMs, result⟩]
          match result with
          | .error e =>
              some { warming.setCall task (.returned host nowMs since (.error e)) with answered }
          | .ok answer =>
              some { warming.setCall task (.resolved host nowMs since answer) with answered }
      | _ => none
  | .record task =>
      match warming.calls task with
      | .resolved host nowMs _ answer =>
          match config.expiresAt nowMs answer.ttl with
          | none => some (warming.setCall task .panicked)
          | some expiresAtMs =>
              some ((warming.insert ⟨task, host, nowMs, answer⟩ expiresAtMs).setCall task
                (.returned host nowMs (warming.recorded.length + 1) (.ok answer)))
      | _ => none
  | .evict nowMs => some { warming with cache := warming.cache.evictExpired nowMs }

inductive WarmEffect (before : Warming Task) : WarmAction Task → Warming Task → Prop where
  | call (task : Task) (host : String) (nowMs : UInt64)
      (ready : before.calls task = .idle ∨
        ∃ earlier nowMs since result, before.calls task = .returned earlier nowMs since result) :
      WarmEffect before (.call task host nowMs) (before.setCall task (.called host nowMs))
  | hit (task : Task) (host : String) (nowMs : UInt64) (held : Resolved)
      (called : before.calls task = .called host nowMs)
      (fresh : before.cache.fastPath host nowMs = some held) :
      WarmEffect before (.look task)
        (before.setCall task (.returned host nowMs before.recorded.length (.ok held)))
  | miss (task : Task) (host : String) (nowMs : UInt64)
      (called : before.calls task = .called host nowMs)
      (stale : before.cache.fastPath host nowMs = none) :
      WarmEffect before (.look task)
        (before.setCall task (.resolving host nowMs before.recorded.length))
  | fail (task : Task) (host : String) (nowMs : UInt64) (since : Nat) (e : ResolveError)
      (resolving : before.calls task = .resolving host nowMs since) :
      WarmEffect before (.answer task (.error e))
        { before.setCall task (.returned host nowMs since (.error e)) with
          answered := before.answered ++ [⟨task, host, nowMs, .error e⟩] }
  | resolve (task : Task) (host : String) (nowMs : UInt64) (since : Nat) (answer : Resolved)
      (resolving : before.calls task = .resolving host nowMs since) :
      WarmEffect before (.answer task (.ok answer))
        { before.setCall task (.resolved host nowMs since answer) with
          answered := before.answered ++ [⟨task, host, nowMs, .ok answer⟩] }
  | panic (task : Task) (host : String) (nowMs : UInt64) (since : Nat) (answer : Resolved)
      (resolved : before.calls task = .resolved host nowMs since answer)
      (empty : config.expiresAt nowMs answer.ttl = none) :
      WarmEffect before (.record task) (before.setCall task .panicked)
  | record (task : Task) (host : String) (nowMs : UInt64) (since : Nat) (answer : Resolved)
      (expiresAtMs : UInt64) (resolved : before.calls task = .resolved host nowMs since answer)
      (expires : config.expiresAt nowMs answer.ttl = some expiresAtMs) :
      WarmEffect before (.record task)
        ((before.insert ⟨task, host, nowMs, answer⟩ expiresAtMs).setCall task
          (.returned host nowMs (before.recorded.length + 1) (.ok answer)))
  | evict (nowMs : UInt64) :
      WarmEffect before (.evict nowMs)
        { before with cache := before.cache.evictExpired nowMs }

variable {config} {before after : Warming Task}

theorem warmStep_effect {action : WarmAction Task}
    (taken : warmStep config before action = some after) :
    WarmEffect config before action after := by
  cases action with
  | call task host nowMs =>
      simp only [warmStep] at taken
      split at taken
      · rename_i idle
        cases Option.some.inj taken
        exact WarmEffect.call task host nowMs (Or.inl idle)
      · rename_i earlier time since result returned
        cases Option.some.inj taken
        exact WarmEffect.call task host nowMs (Or.inr ⟨earlier, time, since, result, returned⟩)
      · contradiction
  | look task =>
      simp only [warmStep] at taken
      split at taken
      · rename_i host nowMs called
        split at taken
        · rename_i held fresh
          cases Option.some.inj taken
          exact WarmEffect.hit task host nowMs held called fresh
        · rename_i stale
          cases Option.some.inj taken
          exact WarmEffect.miss task host nowMs called stale
      · contradiction
  | answer task result =>
      simp only [warmStep] at taken
      split at taken
      · rename_i host nowMs since resolving
        split at taken
        · rename_i e
          cases Option.some.inj taken
          exact WarmEffect.fail task host nowMs since e resolving
        · rename_i answer
          cases Option.some.inj taken
          exact WarmEffect.resolve task host nowMs since answer resolving
      · contradiction
  | record task =>
      simp only [warmStep] at taken
      split at taken
      · rename_i host nowMs since answer resolved
        split at taken
        · rename_i empty
          cases Option.some.inj taken
          exact WarmEffect.panic task host nowMs since answer resolved empty
        · rename_i expiresAtMs expires
          cases Option.some.inj taken
          exact WarmEffect.record task host nowMs since answer expiresAtMs resolved expires
      · contradiction
  | evict nowMs =>
      simp only [warmStep] at taken
      cases Option.some.inj taken
      exact WarmEffect.evict nowMs

theorem WarmEffect.taken {action : WarmAction Task}
    (effect : WarmEffect config before action after) :
    warmStep config before action = some after := by
  cases effect with
  | call task host nowMs ready =>
      rcases ready with idle | ⟨earlier, time, since, result, returned⟩
      · simp only [warmStep, idle]
      · simp only [warmStep, returned]
  | hit task host nowMs held called fresh => simp only [warmStep, called, fresh]
  | miss task host nowMs called stale => simp only [warmStep, called, stale]
  | fail task host nowMs since e resolving => simp only [warmStep, resolving]
  | resolve task host nowMs since answer resolving => simp only [warmStep, resolving]
  | panic task host nowMs since answer resolved empty => simp only [warmStep, resolved, empty]
  | record task host nowMs since answer expiresAtMs resolved expires =>
      simp only [warmStep, resolved, expires]
  | evict nowMs => rfl

theorem setCall_calls (task : Task) (call : WarmCall) :
    (before.setCall task call).calls task = call := Function.update_self ..

theorem setCall_calls_of_ne {task other : Task} (call : WarmCall) (different : other ≠ task) :
    (before.setCall task call).calls other = before.calls other :=
  Function.update_of_ne different ..

theorem WarmEffect.reach {action : WarmAction Task}
    (effect : WarmEffect config before action after) :
    Reach (warmStep config) Anything before after :=
  ReflTransGen.single ⟨action, trivial, effect.taken⟩

theorem reach_called {task : Task} (host : String) (nowMs : UInt64)
    (idle : before.calls task = .idle) :
    ∃ called, Reach (warmStep config) Anything before called ∧
      called.cache = before.cache ∧ called.calls task = .called host nowMs :=
  ⟨_, (WarmEffect.call task host nowMs (Or.inl idle)).reach, rfl, setCall_calls ..⟩

theorem reach_resolving {task : Task} {host : String} {nowMs : UInt64}
    (idle : before.calls task = .idle) (stale : before.cache.fastPath host nowMs = none) :
    ∃ asking since, Reach (warmStep config) Anything before asking ∧
      asking.cache = before.cache ∧ asking.calls task = .resolving host nowMs since := by
  obtain ⟨called, reached, sameCache, stage⟩ := reach_called host nowMs idle
  rw [← sameCache] at stale
  exact ⟨_, _, reached.trans (WarmEffect.miss task host nowMs stage stale).reach, sameCache,
    setCall_calls ..⟩

/-- With no other call between its steps, the machine does what `warm` does. -/
theorem warm_alone {resolve : String → Except ResolveError Resolved} {task : Task}
    {host : String} {nowMs : UInt64} {result : Except ResolveError Resolved} {cache : Cache}
    (idle : before.calls task = .idle)
    (warmed : warm config resolve before.cache host nowMs = some (result, cache)) :
    ∃ after since, Reach (warmStep config) Anything before after ∧
      after.cache = cache ∧ after.calls task = .returned host nowMs since result := by
  unfold warm at warmed
  cases looked : before.cache.fastPath host nowMs with
  | some held =>
      rw [looked] at warmed
      cases warmed
      obtain ⟨called, reached, sameCache, stage⟩ := reach_called host nowMs idle
      rw [← sameCache] at looked
      exact ⟨_, _, reached.trans (WarmEffect.hit task host nowMs held stage looked).reach,
        sameCache, setCall_calls ..⟩
  | none =>
      rw [looked] at warmed
      obtain ⟨asking, since, reached, sameCache, stage⟩ := reach_resolving idle looked
      cases answered : resolve host with
      | error e =>
          rw [answered] at warmed
          cases warmed
          exact ⟨_, _, reached.trans (WarmEffect.fail task host nowMs since e stage).reach,
            sameCache, setCall_calls ..⟩
      | ok answer =>
          rw [answered, Option.map_eq_some_iff] at warmed
          obtain ⟨expiresAtMs, expires, same⟩ := warmed
          cases same
          obtain ⟨held, replied, keptCache, resolved⟩ : ∃ held,
              Reach (warmStep config) Anything before held ∧ held.cache = before.cache ∧
                held.calls task = .resolved host nowMs since answer :=
            ⟨_, reached.trans (WarmEffect.resolve task host nowMs since answer stage).reach,
              sameCache, setCall_calls ..⟩
          refine ⟨_, _, replied.trans (WarmEffect.record task host nowMs since answer expiresAtMs
            resolved expires).reach, ?_, setCall_calls ..⟩
          rw [← keptCache]
          rfl

end Warms

end RealityHydra.DnsWarmer
