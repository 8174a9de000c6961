import RealityHydra.DnsWarmer.Provenance

/-!
# What a completed warm leaves behind

Without evictions, a host stays warm after its warm completed until a lookup
that has lapsed by then is recorded for it.
-/

set_option autoImplicit false

namespace RealityHydra.DnsWarmer

open RealityHydra.Lib.ExpiryMap
open RealityHydra.Lib.Transition
open RealityHydra.PoolEngine

variable {Task : Type}

/-- A lookup made at `madeMs` is stale by `nowMs`. -/
def WarmerConfig.Lapses (config : WarmerConfig) (madeMs : UInt64) (ttl : Duration)
    (nowMs : UInt64) : Prop :=
  ∃ expiresAtMs, config.expiresAt madeMs ttl = some expiresAtMs ∧ expiresAtMs ≤ nowMs

/-- The host is warm, or what was recorded for it last had lapsed. -/
def Warming.Kept (config : WarmerConfig) (warming : Warming Task) (host : String)
    (nowMs : UInt64) (since : Nat) (served : Resolved) : Prop :=
  warming.cache.isWarm host nowMs = true ∨ config.Lapses nowMs served.ttl nowMs ∨
    ∃ made ∈ warming.recorded.drop since, made.host = host ∧
      config.Lapses made.nowMs made.resolved.ttl nowMs

def WarmCall.Kept (config : WarmerConfig) (warming : Warming Task) : WarmCall → Prop
  | .returned host nowMs since (.ok served) =>
      since ≤ warming.recorded.length ∧ warming.Kept config host nowMs since served
  | _ => True

/-- The actions of a pipeline, which never evicts. -/
def WarmAction.Retains (_ : Warming Task) : WarmAction Task → Prop
  | .evict _ => False
  | _ => True

section Steps

variable {config : WarmerConfig} {before after : Warming Task}

theorem WarmerConfig.Sound.not_lapses (sound : config.Sound)
    (positive : 1 ≤ config.minTtl.asMillis) {nowMs : UInt64} (early : nowMs.toNat < 2 ^ 64 - 1)
    (ttl : Duration) : ¬ config.Lapses nowMs ttl nowMs := by
  intro lapses
  obtain ⟨expiresAtMs, expires, atMost⟩ := lapses
  obtain ⟨clamped, other, _, same, value, atLeast, _⟩ := sound.expiresAt nowMs ttl
  rw [expires] at same
  cases same
  have expired := UInt64.le_iff_toNat_le.mp atMost
  omega

theorem isWarm_iff {cache : Cache} {host : String} {nowMs : UInt64} :
    cache.isWarm host nowMs = true ↔
      ∃ entry, cache[host]? = some entry ∧ nowMs < entry.expiresAtMs := by
  rw [Cache.isWarm_eq, Option.isSome_iff_exists]
  simp only [freshAt_eq_some_iff]

theorem isWarm_record_self {cache : Cache} {host : String} {resolved : Resolved}
    {nowMs expiresAtMs : UInt64} (fresh : nowMs < expiresAtMs) :
    (cache.record host resolved expiresAtMs).isWarm host nowMs = true :=
  isWarm_iff.mpr ⟨_, getElem?_insert_self .., fresh⟩

theorem isWarm_record_of_ne {cache : Cache} {host other : String} {resolved : Resolved}
    {nowMs expiresAtMs : UInt64} (different : other ≠ host) :
    (cache.record other resolved expiresAtMs).isWarm host nowMs = cache.isWarm host nowMs := by
  rw [Cache.isWarm, Cache.record, getElem?_insert_of_ne _ _ different, Cache.isWarm]

/-- A recording that is itself still fresh leaves the host warm. -/
theorem Warming.Kept.insert {host : String} {nowMs expiresAtMs : UInt64} {since : Nat}
    {served : Resolved} {made : Recording Task}
    (kept : before.Kept config host nowMs since served)
    (seen : since ≤ before.recorded.length)
    (expires : config.expiresAt made.nowMs made.resolved.ttl = some expiresAtMs) :
    (before.insert made expiresAtMs).Kept config host nowMs since served := by
  have later : (before.insert made expiresAtMs).recorded.drop since =
      before.recorded.drop since ++ [made] := List.drop_append_of_le_length seen
  by_cases same : made.host = host
  · by_cases fresh : nowMs < expiresAtMs
    · exact Or.inl (same ▸ isWarm_record_self fresh)
    · refine Or.inr (Or.inr ⟨made, ?_, same, expiresAtMs, expires, ?_⟩)
      · rw [later]
        exact List.mem_append_right _ List.mem_cons_self
      · exact UInt64.not_lt.mp fresh
  · rcases kept with warm | lapses | ⟨other, isIn, sameHost, lapses⟩
    · exact Or.inl ((isWarm_record_of_ne same).trans warm)
    · exact Or.inr (Or.inl lapses)
    · refine Or.inr (Or.inr ⟨other, ?_, sameHost, lapses⟩)
      rw [later]
      exact List.mem_append_left _ isIn

theorem WarmCall.Kept.insert {call : WarmCall} {made : Recording Task} {expiresAtMs : UInt64}
    (kept : call.Kept config before)
    (expires : config.expiresAt made.nowMs made.resolved.ttl = some expiresAtMs) :
    call.Kept config (before.insert made expiresAtMs) := by
  cases call with
  | returned host nowMs since result =>
      cases result with
      | error e => trivial
      | ok served =>
          obtain ⟨seen, kept⟩ := kept
          refine ⟨?_, kept.insert seen expires⟩
          rw [Warming.insert, List.length_append]
          exact Nat.le_add_right_of_le seen
  | idle => trivial
  | called host nowMs => trivial
  | resolving host nowMs since => trivial
  | resolved host nowMs since answer => trivial
  | panicked => trivial

/-- A call's own recording keeps its host warm unless it lapses at once. -/
theorem kept_insert_self {host : String} {nowMs expiresAtMs : UInt64} {answer : Resolved}
    {task : Task} (expires : config.expiresAt nowMs answer.ttl = some expiresAtMs)
    (since : Nat) :
    (before.insert ⟨task, host, nowMs, answer⟩ expiresAtMs).Kept config host nowMs since
      answer := by
  by_cases fresh : nowMs < expiresAtMs
  · exact Or.inl (isWarm_record_self fresh)
  · exact Or.inr (Or.inl ⟨expiresAtMs, expires, UInt64.not_lt.mp fresh⟩)

variable [DecidableEq Task]

theorem setCall_kept {task : Task} {call : WarmCall}
    (calls : ∀ task, (before.calls task).Kept config before) (kept : call.Kept config before) :
    ∀ other, ((before.setCall task call).calls other).Kept config before :=
  (Function.forall_update_iff before.calls fun _ stage => stage.Kept config before).mpr
    ⟨kept, fun other _ => calls other⟩

theorem kept_step {action : WarmAction Task}
    (calls : ∀ task, (before.calls task).Kept config before) (retains : action.Retains before)
    (taken : warmStep config before action = some after) :
    ∀ task, (after.calls task).Kept config after := by
  cases warmStep_effect taken with
  | call task host nowMs ready => exact setCall_kept calls trivial
  | hit task host nowMs held called fresh =>
      apply setCall_kept calls
      refine ⟨Nat.le_refl _, Or.inl ?_⟩
      rw [Cache.isWarm_eq_isSome_peek, ← Cache.fastPath_eq_peek, fresh]
      rfl
  | miss task host nowMs called stale => exact setCall_kept calls trivial
  | fail task host nowMs since e resolving => exact setCall_kept calls trivial
  | resolve task host nowMs since answer resolving => exact setCall_kept calls trivial
  | panic task host nowMs since answer resolved empty => exact setCall_kept calls trivial
  | record task host nowMs since answer expiresAtMs resolved expires =>
      have inserted : ∀ other, ((before.insert ⟨task, host, nowMs, answer⟩ expiresAtMs).calls
          other).Kept config (before.insert ⟨task, host, nowMs, answer⟩ expiresAtMs) :=
        fun other => (calls other).insert expires
      apply setCall_kept inserted
      refine ⟨?_, kept_insert_self expires _⟩
      rw [Warming.insert, List.length_append, List.length_singleton]
  | evict nowMs => exact retains.elim

theorem reachable_kept
    (reached : Reach (warmStep config) WarmAction.Retains Warming.start after) :
    ∀ task, (after.calls task).Kept config after := by
  apply reached.invariant fun warming => ∀ task, (warming.calls task).Kept config warming
  · exact fun _ => trivial
  · intro before action after calls retains taken
    exact kept_step calls retains taken

end Steps

end RealityHydra.DnsWarmer
