import RealityHydra.DnsWarmer.Completed

/-!
# Housekeeping

`evict_expired` may run between any two steps of the calls.  A run with it is
compared with the same run without it.
-/

set_option autoImplicit false

namespace RealityHydra.DnsWarmer

open RealityHydra.Lib.ExpiryMap
open RealityHydra.Lib.Transition
open RealityHydra.PoolEngine

/-- The warmer, and when it has been swept. -/
structure SweptWarmer (Task : Type) where
  warming : Warming Task
  sweeps : List UInt64

section Sweeping

variable (config : WarmerConfig) {Task : Type} [DecidableEq Task]

def SweptWarmer.start : SweptWarmer Task := ⟨Warming.start, []⟩

def sweptBy : WarmAction Task → List UInt64
  | .evict nowMs => [nowMs]
  | _ => []

def sweptStep (swept : SweptWarmer Task) (action : WarmAction Task) :
    Option (SweptWarmer Task) :=
  (warmStep config swept.warming action).map fun warming =>
    ⟨warming, swept.sweeps ++ sweptBy action⟩

def SweptWarmer.Past (swept : SweptWarmer Task) (nowMs : UInt64) : Prop :=
  ∀ sweep ∈ swept.sweeps, sweep ≤ nowMs

/-- No call looks with a time from before a sweep. -/
def Timely (swept : SweptWarmer Task) : WarmAction Task → Prop
  | .look task =>
      ∀ host nowMs, swept.warming.calls task = .called host nowMs → swept.Past nowMs
  | _ => True

/-- All that can be seen of the two runs is the same. -/
structure SweptWarmer.Matches (swept : SweptWarmer Task) (plain : Warming Task) : Prop where
  calls : plain.calls = swept.warming.calls
  answered : plain.answered = swept.warming.answered
  recorded : plain.recorded = swept.warming.recorded
  cache : Swept (·.expiresAtMs) swept.sweeps swept.warming.cache plain.cache

variable {config} {before after : SweptWarmer Task} {plain : Warming Task}

theorem Swept.fastPath {sweeps : List UInt64} {thin full : Cache}
    (swept : Swept (·.expiresAtMs) sweeps thin full) (host : String) {nowMs : UInt64}
    (later : ∀ sweep ∈ sweeps, sweep ≤ nowMs) :
    full.fastPath host nowMs = thin.fastPath host nowMs := by
  rw [Cache.fastPath_eq_peek, Cache.fastPath_eq_peek, Cache.peek_eq, Cache.peek_eq,
    swept.freshAt host later]

theorem SweptWarmer.Matches.setCall (found : before.Matches plain) {sweeps : List UInt64}
    (same : sweeps = before.sweeps) (task : Task) (call : WarmCall) :
    SweptWarmer.Matches ⟨before.warming.setCall task call, sweeps⟩ (plain.setCall task call) := by
  subst same
  refine ⟨?_, found.answered, found.recorded, found.cache⟩
  show Function.update plain.calls task call = Function.update before.warming.calls task call
  rw [found.calls]

theorem WarmEffect.retained {before after : Warming Task} {action : WarmAction Task}
    (effect : WarmEffect config before action after) (retains : action.Retains before) :
    Reach (warmStep config) WarmAction.Retains before after :=
  .single ⟨action, retains, effect.taken⟩

/-- What the swept run does, the other does too; a sweep it leaves out. -/
theorem SweptWarmer.Matches.step {action : WarmAction Task} (found : before.Matches plain)
    (timely : Timely before action) (taken : sweptStep config before action = some after) :
    ∃ later, Reach (warmStep config) WarmAction.Retains plain later ∧ after.Matches later := by
  obtain ⟨warming, stepped, same⟩ := Option.map_eq_some_iff.mp taken
  subst same
  have quiet : before.sweeps ++ [] = before.sweeps := List.append_nil _
  have calls := found.calls
  have count : plain.recorded.length = before.warming.recorded.length := by rw [found.recorded]
  cases warmStep_effect stepped with
  | call task host nowMs ready =>
      rw [← calls] at ready
      exact ⟨_, (WarmEffect.call task host nowMs ready).retained trivial,
        found.setCall quiet _ _⟩
  | hit task host nowMs held called fresh =>
      have past := timely host nowMs called
      rw [← Swept.fastPath found.cache host past] at fresh
      rw [← calls] at called
      refine ⟨_, (WarmEffect.hit task host nowMs held called fresh).retained trivial, ?_⟩
      rw [count]
      exact found.setCall quiet _ _
  | miss task host nowMs called stale =>
      have past := timely host nowMs called
      rw [← Swept.fastPath found.cache host past] at stale
      rw [← calls] at called
      refine ⟨_, (WarmEffect.miss task host nowMs called stale).retained trivial, ?_⟩
      rw [count]
      exact found.setCall quiet _ _
  | fail task host nowMs since e resolving =>
      rw [← calls] at resolving
      refine ⟨_, (WarmEffect.fail task host nowMs since e resolving).retained trivial, ?_⟩
      have moved := found.setCall quiet task (.returned host nowMs since (.error e))
      refine ⟨moved.calls, ?_, moved.recorded, moved.cache⟩
      simp only [found.answered]
  | resolve task host nowMs since answer resolving =>
      rw [← calls] at resolving
      refine ⟨_, (WarmEffect.resolve task host nowMs since answer resolving).retained trivial, ?_⟩
      have moved := found.setCall quiet task (.resolved host nowMs since answer)
      refine ⟨moved.calls, ?_, moved.recorded, moved.cache⟩
      simp only [found.answered]
  | panic task host nowMs since answer resolved empty =>
      rw [← calls] at resolved
      exact ⟨_, (WarmEffect.panic task host nowMs since answer resolved empty).retained trivial,
        found.setCall quiet _ _⟩
  | record task host nowMs since answer expiresAtMs resolved expires =>
      rw [← calls] at resolved
      refine ⟨_, (WarmEffect.record task host nowMs since answer expiresAtMs
        resolved expires).retained trivial, ?_⟩
      let made : Recording Task := ⟨task, host, nowMs, answer⟩
      have inserted : SweptWarmer.Matches ⟨before.warming.insert made expiresAtMs, before.sweeps⟩
          (plain.insert made expiresAtMs) := by
        refine ⟨found.calls, found.answered, ?_, found.cache.insert _ _⟩
        show plain.recorded ++ [made] = before.warming.recorded ++ [made]
        rw [found.recorded]
      rw [count]
      exact inserted.setCall quiet _ _
  | evict nowMs =>
      exact ⟨plain, .refl, found.calls, found.answered, found.recorded,
        found.cache.evictExpired nowMs⟩

theorem reachable_matches
    (reached : Reach (sweptStep config) Timely SweptWarmer.start after) :
    ∃ plain, Reach (warmStep config) WarmAction.Retains Warming.start plain ∧
      after.Matches plain := by
  refine reached.invariant (fun swept => ∃ plain,
    Reach (warmStep config) WarmAction.Retains Warming.start plain ∧ swept.Matches plain) ?_ ?_
  · exact ⟨Warming.start, .refl, rfl, rfl, rfl, Swept.refl _⟩
  · intro before action later held timely taken
    obtain ⟨plain, ran, found⟩ := held
    obtain ⟨onward, moved, stays⟩ := found.step timely taken
    exact ⟨onward, ran.trans moved, stays⟩

/-- Nobody sees a sweep.  However `evict_expired` is run between the steps of any
number of calls, as long as no call looks with a time from before a sweep, the same
calls without any sweep have had the same answers and made the same recordings, every
read from the last sweep on agrees, and another sweep leaves exactly the entries of
that other cache that are still fresh. -/
theorem evict_expired_goes_unseen (config : WarmerConfig) (after : SweptWarmer Task)
    (reached : Reach (sweptStep config) Timely SweptWarmer.start after) :
    ∃ plain, Reach (warmStep config) WarmAction.Retains Warming.start plain ∧
      plain.calls = after.warming.calls ∧ plain.answered = after.warming.answered ∧
      plain.recorded = after.warming.recorded ∧
      ∀ nowMs, after.Past nowMs → ∀ host,
        after.warming.cache.peek host nowMs = plain.cache.peek host nowMs ∧
        after.warming.cache.isWarm host nowMs = plain.cache.isWarm host nowMs ∧
        ∀ entry, (after.warming.cache.evictExpired nowMs)[host]? = some entry ↔
          plain.cache[host]? = some entry ∧ nowMs < entry.expiresAtMs := by
  obtain ⟨plain, ran, found⟩ := reachable_matches reached
  refine ⟨plain, ran, found.calls, found.answered, found.recorded, ?_⟩
  intro nowMs past host
  have agree := found.cache.freshAt host past
  refine ⟨?_, ?_, ?_⟩
  · rw [Cache.peek_eq, Cache.peek_eq, agree]
  · rw [Cache.isWarm_eq, Cache.isWarm_eq, agree]
  · intro entry
    rw [Cache.evictExpired_eq, getElem?_evictExpired, agree, freshAt_eq_some_iff]

end Sweeping

/-- Two hosts are warmed, another call for the first begins, and the cache is swept
after the second has expired. -/
def sweptActions : List (WarmAction Nat) :=
  [.call 0 "a.example" 0, .look 0, .call 1 "b.example" 0, .look 1,
    .answer 0 (.ok ⟨[], ⟨60, 0⟩⟩), .record 0, .answer 1 (.ok ⟨[], ⟨30, 0⟩⟩), .record 1,
    .call 2 "a.example" 40001, .evict 40000]

/-- The sweep takes the second host and leaves the third call its hit. -/
theorem swept_then_looks : ∃ before after : SweptWarmer Nat,
    runAll (sweptStep WarmerConfig.standard) SweptWarmer.start sweptActions = some before ∧
      sweptStep WarmerConfig.standard before (.look 2) = some after ∧
      Timely before (.look 2) ∧ after.sweeps = [40000] ∧
      (∃ cache : Cache, after.warming.cache = cache.evictExpired 40000 ∧
        cache.contains "b.example" = true ∧
        after.warming.cache.contains "b.example" = false) ∧
      after.warming.calls 2 = .returned "a.example" 40001 2 (.ok ⟨[], ⟨60, 0⟩⟩) := by
  obtain ⟨before, cache, ran, isCache, held, present, dropped, called, recorded, sweeps⟩ :
      ∃ (before : SweptWarmer Nat) (cache : Cache),
        runAll (sweptStep WarmerConfig.standard) SweptWarmer.start sweptActions = some before ∧
          before.warming.cache = cache.evictExpired 40000 ∧
          cache.peek "a.example" 40001 = some ⟨[], ⟨60, 0⟩⟩ ∧
          cache.contains "b.example" = true ∧
          (cache.evictExpired 40000).contains "b.example" = false ∧
          before.warming.calls 2 = .called "a.example" 40001 ∧
          before.warming.recorded.length = 2 ∧ before.sweeps = [40000] := by
    refine ⟨_, _, rfl, rfl, ?_, ?_, ?_, rfl, rfl, rfl⟩
    · decide +kernel
    · decide +kernel
    · decide +kernel
  have early : (40000 : UInt64) ≤ 40001 := by decide
  have fresh : before.warming.cache.fastPath "a.example" 40001 = some ⟨[], ⟨60, 0⟩⟩ := by
    rw [Cache.fastPath_eq_peek, isCache, Cache.peek_evictExpired cache _ early, held]
  have looked : sweptStep WarmerConfig.standard before (.look 2) =
      some ⟨before.warming.setCall 2 (.returned "a.example" 40001
        before.warming.recorded.length (.ok ⟨[], ⟨60, 0⟩⟩)), before.sweeps ++ []⟩ := by
    rw [sweptStep, (WarmEffect.hit 2 _ _ _ called fresh).taken]
    rfl
  refine ⟨before, _, ran, looked, ?_, ?_, ⟨cache, isCache, present, ?_⟩, ?_⟩
  · intro host nowMs stage sweep member
    rw [called] at stage
    cases stage
    rw [sweeps] at member
    rw [List.mem_singleton.mp member]
    exact early
  · simp [sweeps]
  · show before.warming.cache.contains "b.example" = false
    rw [isCache, dropped]
  · rw [recorded]
    exact setCall_calls ..

theorem sweep_between_two_calls_unseen : ∃ after : SweptWarmer Nat,
    after.sweeps = [40000] ∧ (∃ cache : Cache, after.warming.cache = cache.evictExpired 40000 ∧
      cache.contains "b.example" = true ∧
      after.warming.cache.contains "b.example" = false) ∧
      after.warming.calls 2 = .returned "a.example" 40001 2 (.ok ⟨[], ⟨60, 0⟩⟩) ∧
      ∃ plain, Reach (warmStep WarmerConfig.standard) WarmAction.Retains Warming.start plain ∧
        plain.calls = after.warming.calls := by
  obtain ⟨before, after, ran, looked, timely, sweeps, drops, stage⟩ := swept_then_looks
  have calls : Along (sweptStep WarmerConfig.standard) Timely SweptWarmer.start sweptActions := by
    refine ⟨trivial, fun _ called => ?_⟩
    cases Option.some.inj called
    refine ⟨fun _ _ _ _ => nofun, fun _ looks => ?_⟩
    cases Option.some.inj looks
    refine ⟨trivial, fun _ called => ?_⟩
    cases Option.some.inj called
    refine ⟨fun _ _ _ _ => nofun, fun _ _ => ⟨trivial, fun _ _ => ⟨trivial, fun _ _ =>
      ⟨trivial, fun _ _ => ⟨trivial, fun _ _ => ⟨trivial, fun _ _ => ⟨trivial, fun _ _ =>
        trivial⟩⟩⟩⟩⟩⟩⟩
  have reached := (reach_of_along ran calls).tail ⟨.look 2, timely, looked⟩
  obtain ⟨plain, plainly, same, _⟩ := evict_expired_goes_unseen _ after reached
  exact ⟨after, sweeps, drops, stage, plain, plainly, same⟩

end RealityHydra.DnsWarmer
