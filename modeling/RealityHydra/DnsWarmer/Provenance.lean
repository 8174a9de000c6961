import RealityHydra.DnsWarmer.Concurrent

/-!
# Where cached resolutions come from

Whatever the calls do between each other's steps, an entry is what the resolver
answered some call for that very host, and expires when that call's time and the
record's clamped TTL say.
-/

set_option autoImplicit false

namespace RealityHydra.DnsWarmer

open RealityHydra.Lib.ExpiryMap
open RealityHydra.Lib.Transition
open RealityHydra.PoolEngine

variable {Task : Type}

/-- The resolver answered the call, or some call for its host, what it holds. -/
def WarmCall.Genuine (answered : List (Answer Task)) (task : Task) : WarmCall → Prop
  | .resolved host nowMs _ answer => ⟨task, host, nowMs, .ok answer⟩ ∈ answered
  | .returned host nowMs _ (.error e) => ⟨task, host, nowMs, .error e⟩ ∈ answered
  | .returned host _ _ (.ok served) =>
      ∃ lookup ∈ answered, lookup.host = host ∧ lookup.result = .ok served
  | _ => True

/-- What a recording left in the cache. -/
def Recording.Made (config : WarmerConfig) (made : Recording Task) (host : String)
    (entry : CacheEntry) : Prop :=
  made.host = host ∧ made.resolved = entry.resolved ∧
    config.expiresAt made.nowMs made.resolved.ttl = some entry.expiresAtMs

def Recording.answer (made : Recording Task) : Answer Task :=
  ⟨made.task, made.host, made.nowMs, .ok made.resolved⟩

structure Warming.Genuine (config : WarmerConfig) (warming : Warming Task) : Prop where
  entries : ∀ host entry, warming.cache[host]? = some entry →
    ∃ made ∈ warming.recorded, made.Made config host entry
  recordings : ∀ made ∈ warming.recorded, made.answer ∈ warming.answered
  calls : ∀ task, (warming.calls task).Genuine warming.answered task

section Invariant

variable {config : WarmerConfig}

theorem WarmCall.Genuine.append {answered : List (Answer Task)} {task : Task}
    {call : WarmCall} (genuine : call.Genuine answered task) (more : List (Answer Task)) :
    call.Genuine (answered ++ more) task := by
  have kept : answered ⊆ answered ++ more := List.subset_append_left answered more
  cases call with
  | resolved host nowMs since answer => exact kept genuine
  | returned host nowMs since result =>
      cases result with
      | error e => exact kept genuine
      | ok served =>
          obtain ⟨lookup, isIn, same⟩ := genuine
          exact ⟨lookup, kept isIn, same⟩
  | idle => trivial
  | called host nowMs => trivial
  | resolving host nowMs since => trivial
  | panicked => trivial

theorem Warming.start_genuine : (Warming.start : Warming Task).Genuine config where
  entries host entry found := by
    have empty : (∅ : Cache)[host]? = none := Std.TreeMap.getElem?_emptyc
    rw [Warming.start, empty] at found
    contradiction
  recordings made isIn := by cases isIn
  calls _ := trivial

variable {before after : Warming Task}

theorem Warming.Genuine.answer (genuine : before.Genuine config) (answer : Answer Task) :
    { before with answered := before.answered ++ [answer] }.Genuine config where
  entries := genuine.entries
  recordings made isIn := List.mem_append_left _ (genuine.recordings made isIn)
  calls task := (genuine.calls task).append [answer]

theorem Warming.Genuine.insert (genuine : before.Genuine config) (made : Recording Task)
    (answered : made.answer ∈ before.answered) {expiresAtMs : UInt64}
    (expires : config.expiresAt made.nowMs made.resolved.ttl = some expiresAtMs) :
    (before.insert made expiresAtMs).Genuine config where
  entries host entry found := by
    dsimp only [Warming.insert, Cache.record] at found
    by_cases same : made.host = host
    · subst same
      rw [getElem?_insert_self] at found
      cases found
      exact ⟨made, List.mem_append_right _ List.mem_cons_self, rfl, rfl, expires⟩
    · rw [getElem?_insert_of_ne _ _ same] at found
      obtain ⟨earlier, isIn, left⟩ := genuine.entries host entry found
      exact ⟨earlier, List.mem_append_left _ isIn, left⟩
  recordings other isIn := by
    rcases List.mem_append.mp isIn with earlier | last
    · exact genuine.recordings other earlier
    · rw [List.mem_singleton.mp last]
      exact answered
  calls := genuine.calls

theorem Warming.Genuine.evict (genuine : before.Genuine config) (nowMs : UInt64) :
    { before with cache := before.cache.evictExpired nowMs }.Genuine config where
  entries host entry found := by
    dsimp only at found
    rw [Cache.evictExpired_eq, getElem?_evictExpired, freshAt_eq_some_iff] at found
    exact genuine.entries host entry found.1
  recordings := genuine.recordings
  calls := genuine.calls

/-- What the fast path or `peek` serves, the resolver answered for that host. -/
theorem Warming.Genuine.peek (genuine : before.Genuine config) {host : String}
    {nowMs : UInt64} {served : Resolved} (fresh : before.cache.peek host nowMs = some served) :
    ∃ made ∈ before.recorded, made.answer ∈ before.answered ∧ made.resolved = served ∧
      ∃ entry, made.Made config host entry ∧ nowMs < entry.expiresAtMs := by
  obtain ⟨entry, found, same, unexpired⟩ := Cache.peek_eq_some_iff.mp fresh
  obtain ⟨made, isIn, left⟩ := genuine.entries host entry found
  exact ⟨made, isIn, genuine.recordings made isIn, left.2.1.trans same, entry, left, unexpired⟩

variable [DecidableEq Task]

/-- A step that only moves one call on keeps the invariant if the call's new
stage is genuine. -/
theorem Warming.Genuine.setCall (genuine : before.Genuine config) {task : Task}
    {call : WarmCall} (isGenuine : call.Genuine before.answered task) :
    (before.setCall task call).Genuine config where
  entries := genuine.entries
  recordings := genuine.recordings
  calls := by
    have others : ∀ other, other ≠ task →
        (before.calls other).Genuine before.answered other := fun other _ => genuine.calls other
    exact (Function.forall_update_iff before.calls fun other stage =>
      stage.Genuine before.answered other).mpr ⟨isGenuine, others⟩

theorem Warming.Genuine.step (genuine : before.Genuine config) {action : WarmAction Task}
    (taken : warmStep config before action = some after) : after.Genuine config := by
  cases warmStep_effect taken with
  | call task host nowMs ready => exact genuine.setCall trivial
  | hit task host nowMs held called fresh =>
      rw [Cache.fastPath_eq_peek] at fresh
      obtain ⟨made, _, answered, same, entry, left, _⟩ := genuine.peek fresh
      refine genuine.setCall ⟨made.answer, answered, left.1, ?_⟩
      rw [Recording.answer, same]
  | miss task host nowMs called stale => exact genuine.setCall trivial
  | fail task host nowMs since e resolving =>
      refine (genuine.answer ⟨task, host, nowMs, .error e⟩).setCall ?_
      exact List.mem_append_right _ List.mem_cons_self
  | resolve task host nowMs since answer resolving =>
      refine (genuine.answer ⟨task, host, nowMs, .ok answer⟩).setCall ?_
      exact List.mem_append_right _ List.mem_cons_self
  | panic task host nowMs since answer resolved empty => exact genuine.setCall trivial
  | record task host nowMs since answer expiresAtMs resolved expires =>
      have answered := genuine.calls task
      rw [resolved] at answered
      have inserted := genuine.insert ⟨task, host, nowMs, answer⟩ answered expires
      exact inserted.setCall ⟨_, answered, rfl, rfl⟩
  | evict nowMs => exact genuine.evict nowMs

theorem reachable_genuine (reached : Reach (warmStep config) Anything Warming.start after) :
    after.Genuine config := by
  apply reached.invariant (Warming.Genuine config) Warming.start_genuine
  intro before action after genuine _ taken
  exact genuine.step taken

/-- The first locked read answers at once exactly if the host is warm. -/
theorem look_of_called {task : Task} {host : String} {nowMs : UInt64}
    (called : before.calls task = .called host nowMs) :
    ∃ after, warmStep config before (.look task) = some after ∧
      after.cache = before.cache ∧ after.answered = before.answered ∧
      (before.cache.isWarm host nowMs = true ↔
        ∃ since served, after.calls task = .returned host nowMs since (.ok served)) := by
  rw [Cache.isWarm_eq_isSome_peek, ← Cache.fastPath_eq_peek]
  simp only [warmStep, called]
  cases before.cache.fastPath host nowMs with
  | some served => simp [Warming.setCall]
  | none => simp [Warming.setCall]

theorem answer_error {task : Task} {e : ResolveError}
    (taken : warmStep config before (.answer task (.error e)) = some after) :
    after.cache = before.cache ∧
      ∃ host nowMs since, after.calls task = .returned host nowMs since (.error e) := by
  cases warmStep_effect taken with
  | fail task host nowMs since e resolving =>
      refine ⟨rfl, host, nowMs, since, ?_⟩
      simp [Warming.setCall]

end Invariant

section Served

variable {config : WarmerConfig} (sound : config.Sound) {warming : Warming Task}

include sound

theorem Recording.Made.expiry {made : Recording Task} {host : String} {entry : CacheEntry}
    (left : made.Made config host entry) :
    ∃ ttl, config.clamp entry.resolved.ttl = some ttl ∧
      entry.expiresAtMs.toNat = min (2 ^ 64 - 1) (made.nowMs.toNat + ttl.asMillis) ∧
      ttl.asMillis ≤ config.maxTtl.asMillis := by
  obtain ⟨clamped, expiresAtMs, isClamped, expires, value, _, atMost⟩ :=
    sound.expiresAt made.nowMs made.resolved.ttl
  have same := Option.some.inj (left.2.2.symm.trans expires)
  rw [← left.2.1, same]
  exact ⟨clamped, isClamped, value, atMost⟩

theorem Warming.Genuine.served (genuine : warming.Genuine config) {host : String}
    {nowMs : UInt64} {served : Resolved}
    (fresh : warming.cache.peek host nowMs = some served) :
    ∃ lookup ∈ warming.answered, lookup.host = host ∧ lookup.result = .ok served ∧
      nowMs.toNat < lookup.nowMs.toNat + config.maxTtl.asMillis := by
  obtain ⟨made, _, answered, same, entry, left, unexpired⟩ := genuine.peek fresh
  obtain ⟨ttl, _, value, atMost⟩ := left.expiry sound
  have before := UInt64.lt_iff_toNat_lt.mp unexpired
  refine ⟨made.answer, answered, left.1, ?_, ?_⟩
  · rw [Recording.answer, same]
  · dsimp only [Recording.answer]
    omega

end Served

/-- Over every interleaving the cache serves what the resolver answered for that
host, for less than the longest TTL; a failed lookup leaves it alone, the three
reads agree, and eviction is not seen. -/
theorem cache_serves_genuine_unexpired {Task : Type} [DecidableEq Task]
    (config : WarmerConfig) (ordered : config.minTtl ≤ config.maxTtl)
    (bounded : config.maxTtl.asMillis < 2 ^ 64) (warming : Warming Task)
    (reached : Reach (warmStep config) Anything Warming.start warming) :
    (∀ host entry, warming.cache[host]? = some entry →
      ∃ made ∈ warming.recorded, ∃ ttl,
        ⟨made.task, host, made.nowMs, .ok entry.resolved⟩ ∈ warming.answered ∧
        made.host = host ∧ made.resolved = entry.resolved ∧
        config.clamp entry.resolved.ttl = some ttl ∧
        entry.expiresAtMs.toNat = min (2 ^ 64 - 1) (made.nowMs.toNat + ttl.asMillis)) ∧
    (∀ host nowMs served,
      warming.cache.fastPath host nowMs = some served ∨
        warming.cache.peek host nowMs = some served →
      ∃ lookup ∈ warming.answered, lookup.host = host ∧ lookup.result = .ok served ∧
        nowMs.toNat < lookup.nowMs.toNat + config.maxTtl.asMillis) ∧
    (∀ task e after, warmStep config warming (.answer task (.error e)) = some after →
      after.cache = warming.cache ∧
        ∃ host nowMs since, after.calls task = .returned host nowMs since (.error e)) ∧
    (∀ host nowMs,
      warming.cache.isWarm host nowMs = (warming.cache.peek host nowMs).isSome ∧
      ∀ task, warming.calls task = .called host nowMs →
        ∃ after, warmStep config warming (.look task) = some after ∧
          after.cache = warming.cache ∧ after.answered = warming.answered ∧
          (warming.cache.isWarm host nowMs = true ↔
            ∃ since served, after.calls task = .returned host nowMs since (.ok served))) ∧
    ∀ host (nowMs late : UInt64), nowMs ≤ late →
      let evicted := warming.cache.evictExpired nowMs
      evicted.peek host late = warming.cache.peek host late ∧
        evicted.isWarm host late = warming.cache.isWarm host late ∧
        evicted.fastPath host late = warming.cache.fastPath host late := by
  have sound : config.Sound := ⟨ordered, bounded⟩
  have genuine := reachable_genuine reached
  refine ⟨?_, ?_, fun task e after taken => answer_error taken, ?_, ?_⟩
  · intro host entry found
    obtain ⟨made, isIn, left⟩ := genuine.entries host entry found
    obtain ⟨ttl, isClamped, value, _⟩ := left.expiry sound
    refine ⟨made, isIn, ttl, ?_, left.1, left.2.1, isClamped, value⟩
    rw [← left.1, ← left.2.1]
    exact genuine.recordings made isIn
  · intro host nowMs served answered
    rw [Cache.fastPath_eq_peek, or_self_iff] at answered
    exact genuine.served sound answered
  · intro host nowMs
    exact ⟨Cache.isWarm_eq_isSome_peek .., fun task called => look_of_called called⟩
  · intro host nowMs late later evicted
    have same := Cache.peek_evictExpired warming.cache host later
    refine ⟨same, ?_, ?_⟩
    · rw [Cache.isWarm_eq_isSome_peek, Cache.isWarm_eq_isSome_peek, same]
    · rw [Cache.fastPath_eq_peek, Cache.fastPath_eq_peek, same]

/-- A cold name is resolved with a TTL of two hours, twice the ceiling. -/
def coldLookup : List (WarmAction Nat) :=
  [.call 0 "a.example" 5, .look 0, .answer 0 (.ok ⟨[], ⟨7200, 0⟩⟩), .record 0]

theorem cold_lookup_served_for_an_hour :
    ∃ warming : Warming Nat,
      runAll (warmStep WarmerConfig.standard) Warming.start coldLookup = some warming ∧
      warming.cache.isWarm "a.example" 3600004 = true ∧
      ∀ host nowMs served, warming.cache.peek host nowMs = some served →
        ∃ lookup ∈ warming.answered, lookup.host = host ∧ lookup.result = .ok served ∧
          nowMs.toNat < lookup.nowMs.toNat + 3600000 := by
  obtain ⟨warming, ran⟩ : ∃ warming,
      runAll (warmStep WarmerConfig.standard) Warming.start coldLookup = some warming :=
    ⟨_, rfl⟩
  have served := (cache_serves_genuine_unexpired WarmerConfig.standard (by decide) (by decide)
    warming (reach_of_runAll ran)).2.1
  refine ⟨warming, ran, ?_, fun host nowMs answer fresh => served _ _ _ (Or.inr fresh)⟩
  rw [← Option.some.inj ran]
  decide

end RealityHydra.DnsWarmer
