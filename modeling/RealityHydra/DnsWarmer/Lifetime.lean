import RealityHydra.DnsWarmer.Warmer

/-!
# How long an answer is kept

No one checks the two bounds of a configuration, and the lifetime is cast to 64
bits before it is added: `warm` panics on an empty range and a lifetime of
2 ^ 64 milliseconds or more loses its upper bits.
-/

set_option autoImplicit false

namespace RealityHydra.DnsWarmer

open RealityHydra.PoolEngine
open RealityHydra.Primitives
open Std (TreeMap)

/-- The TTL clamped into the range of the configuration, in whole milliseconds
and without bound. -/
def WarmerConfig.heldMillis (config : WarmerConfig) (ttl : Duration) : Nat :=
  max config.minTtl.asMillis (min ttl.asMillis config.maxTtl.asMillis)

theorem saturatingAdd_cast_exact_iff (nowMs : UInt64) (millis : Nat) :
    (saturatingAdd nowMs (UInt64.ofNat millis)).toNat =
        min (2 ^ 64 - 1) (nowMs.toNat + millis) ↔
      millis < 2 ^ 64 ∨ 2 ^ 64 - 1 ≤ nowMs.toNat + millis % 2 ^ 64 := by
  have now := nowMs.toNat_lt
  rw [saturatingAdd_toNat, UInt64.toNat_ofNat']
  omega

section Call

variable (config : WarmerConfig) (resolve : String → Except ResolveError Resolved)
  (cache : Cache) (host : String) (nowMs : UInt64)

/-- The call returns the answer, having recorded it until the clamped TTL is over. -/
def RecordsExactly (resolved : Resolved) : Prop :=
  ∃ after expiresAtMs, warm config resolve cache host nowMs = some (.ok resolved, after) ∧
    after[host]? = some ⟨resolved, expiresAtMs⟩ ∧
    expiresAtMs.toNat = min (2 ^ 64 - 1) (nowMs.toNat + config.heldMillis resolved.ttl)

variable {config resolve cache host nowMs} {resolved : Resolved}

theorem fastPath_empty : Cache.fastPath ∅ host nowMs = none := by
  rw [Cache.fastPath, TreeMap.getElem?_emptyc]

theorem warm_cold (cold : cache.fastPath host nowMs = none)
    (answered : resolve host = .ok resolved) :
    warm config resolve cache host nowMs =
      (config.expiresAt nowMs resolved.ttl).map fun expiresAtMs =>
        (.ok resolved, cache.record host resolved expiresAtMs) := by
  rw [warm, cold, answered]

theorem expiresAt_eq_none_iff (ttl : Duration) :
    config.expiresAt nowMs ttl = none ↔ ¬ config.minTtl ≤ config.maxTtl := by
  rw [WarmerConfig.expiresAt, Option.map_eq_none_iff, WarmerConfig.clamp,
    Duration.clamp_eq_none_iff]

theorem expiresAt_of_ordered (ordered : config.minTtl ≤ config.maxTtl) (ttl : Duration) :
    config.expiresAt nowMs ttl =
      some (saturatingAdd nowMs (UInt64.ofNat (config.heldMillis ttl))) := by
  obtain ⟨clamped, isClamped⟩ := Duration.clamp_isSome ordered ttl
  have millis : clamped.asMillis = config.heldMillis ttl := Duration.asMillis_of_clamp isClamped
  rw [WarmerConfig.expiresAt, WarmerConfig.clamp, isClamped, Option.map_some, millis]

theorem warm_panics_iff :
    warm config resolve cache host nowMs = none ↔
      cache.fastPath host nowMs = none ∧ (∃ resolved, resolve host = .ok resolved) ∧
        ¬ config.minTtl ≤ config.maxTtl := by
  cases fast : cache.fastPath host nowMs with
  | some held => simp [warm, fast]
  | none =>
      cases answer : resolve host with
      | error e => simp [warm, fast, answer]
      | ok resolved =>
          rw [warm_cold fast answer, Option.map_eq_none_iff, expiresAt_eq_none_iff]
          simp

/-- Where the range is not empty, only a lifetime that 64 bits cannot hold is
recorded wrongly, unless what is left of it runs past the clock's end anyway. -/
theorem recordsExactly_iff (cold : cache.fastPath host nowMs = none)
    (answered : resolve host = .ok resolved) :
    RecordsExactly config resolve cache host nowMs resolved ↔
      config.minTtl ≤ config.maxTtl ∧
        (config.heldMillis resolved.ttl < 2 ^ 64 ∨
          2 ^ 64 - 1 ≤ nowMs.toNat + config.heldMillis resolved.ttl % 2 ^ 64) := by
  rw [RecordsExactly, warm_cold cold answered]
  by_cases ordered : config.minTtl ≤ config.maxTtl
  · rw [expiresAt_of_ordered ordered, Option.map_some, ← saturatingAdd_cast_exact_iff]
    constructor
    · intro recorded
      obtain ⟨after, expiresAtMs, returned, held, exact⟩ := recorded
      cases returned
      rw [Cache.record, TreeMap.getElem?_insert_self] at held
      cases held
      exact ⟨ordered, exact⟩
    · intro fits
      exact ⟨_, _, rfl, TreeMap.getElem?_insert_self, fits.2⟩
  · have panics : config.expiresAt nowMs resolved.ttl = none :=
      (expiresAt_eq_none_iff resolved.ttl).mpr ordered
    rw [panics]
    simp [ordered]

end Call

/-- The configurations under which no answer, at any time, is kept wrongly. -/
theorem recordsExactly_always_iff (config : WarmerConfig) :
    (∀ (resolve : String → Except ResolveError Resolved) (cache : Cache) (host : String)
      (nowMs : UInt64) (resolved : Resolved), cache.fastPath host nowMs = none →
        resolve host = .ok resolved →
          RecordsExactly config resolve cache host nowMs resolved) ↔
      config.minTtl ≤ config.maxTtl ∧
        (config.maxTtl.asMillis < 2 ^ 64 ∨
          config.minTtl.asMillis = config.maxTtl.asMillis ∧
            config.maxTtl.asMillis % 2 ^ 64 = 2 ^ 64 - 1) := by
  constructor
  · intro always
    have atZero : ∀ ttl, config.minTtl ≤ config.maxTtl ∧
        (config.heldMillis ttl < 2 ^ 64 ∨ 2 ^ 64 - 1 ≤ config.heldMillis ttl % 2 ^ 64) := by
      intro ttl
      have recorded := always (fun _ => .ok ⟨[], ttl⟩) ∅ "" 0 ⟨[], ttl⟩ fastPath_empty rfl
      simpa using (recordsExactly_iff fastPath_empty rfl).mp recorded
    have ordered := (atZero config.maxTtl).1
    have range := Duration.asMillis_mono ordered
    refine ⟨ordered, ?_⟩
    by_cases small : config.maxTtl.asMillis < 2 ^ 64
    · exact Or.inl small
    · -- the longest lifetime and the one a millisecond below it cannot both fit
      have longest := (atZero config.maxTtl).2
      obtain ⟨shorter, millis⟩ := Duration.exists_asMillis
        (Nat.le_trans (Nat.sub_le config.maxTtl.asMillis 1) config.maxTtl.asMillis_le)
      have below := (atZero shorter).2
      simp only [WarmerConfig.heldMillis, millis] at longest below
      right
      omega
  · intro safe resolve cache host nowMs resolved cold answered
    have range := Duration.asMillis_mono safe.1
    apply (recordsExactly_iff cold answered).mpr ⟨safe.1, ?_⟩
    unfold WarmerConfig.heldMillis
    omega

/-- `warm` panics exactly where it clamps into an empty range.  Everywhere else
it completes, and a fresh answer is kept for its clamped TTL exactly if the cast
to 64 bits loses nothing that counts. -/
theorem lifetime_exact_iff (config : WarmerConfig)
    (resolve : String → Except ResolveError Resolved) (cache : Cache) (host : String)
    (nowMs : UInt64) :
    (warm config resolve cache host nowMs = none ↔
      cache.fastPath host nowMs = none ∧ (∃ resolved, resolve host = .ok resolved) ∧
        ¬ config.minTtl ≤ config.maxTtl) ∧
    ∀ resolved, cache.fastPath host nowMs = none → resolve host = .ok resolved →
      (RecordsExactly config resolve cache host nowMs resolved ↔
        config.minTtl ≤ config.maxTtl ∧
          (config.heldMillis resolved.ttl < 2 ^ 64 ∨
            2 ^ 64 - 1 ≤ nowMs.toNat + config.heldMillis resolved.ttl % 2 ^ 64)) :=
  ⟨warm_panics_iff, fun _ => recordsExactly_iff⟩

/-- The standard range keeps a record of a minute for that minute. -/
theorem minute_kept_for_a_minute :
    RecordsExactly .standard (fun _ => .ok ⟨[], ⟨60, 0⟩⟩) ∅ "a.example" 0 ⟨[], ⟨60, 0⟩⟩ := by
  obtain ⟨_, exact⟩ := lifetime_exact_iff .standard (fun _ => .ok ⟨[], ⟨60, 0⟩⟩) ∅
    "a.example" 0
  exact (exact ⟨[], ⟨60, 0⟩⟩ fastPath_empty rfl).mpr (by decide)

def invertedRange : WarmerConfig := ⟨⟨20, 0⟩, ⟨10, 0⟩⟩

def widestRange : WarmerConfig := ⟨⟨0, 0⟩, ⟨18446744073709551615, 999999999⟩⟩

/-- 2 ^ 64 milliseconds. -/
def wrappingTtl : Duration := ⟨18446744073709551, 616000000⟩

/-- Under an empty range the first answer panics; under the widest one an answer
that holds for 2 ^ 64 milliseconds is stale when it is recorded. -/
theorem unchecked_range_breaks_lifetime :
    warm invertedRange (fun _ => .ok ⟨[], ⟨60, 0⟩⟩) ∅ "a.example" 0 = none ∧
      ¬ RecordsExactly invertedRange (fun _ => .ok ⟨[], ⟨60, 0⟩⟩) ∅ "a.example" 0
        ⟨[], ⟨60, 0⟩⟩ ∧
      warm widestRange (fun _ => .ok ⟨[], wrappingTtl⟩) ∅ "a.example" 0 =
        some (.ok ⟨[], wrappingTtl⟩, Cache.record ∅ "a.example" ⟨[], wrappingTtl⟩ 0) ∧
      ¬ RecordsExactly widestRange (fun _ => .ok ⟨[], wrappingTtl⟩) ∅ "a.example" 0
        ⟨[], wrappingTtl⟩ := by
  refine ⟨?_, ?_, ?_, ?_⟩
  · exact warm_panics_iff.mpr ⟨fastPath_empty, ⟨_, rfl⟩, by decide⟩
  · rw [recordsExactly_iff fastPath_empty rfl]
    decide
  · rw [warm_cold fastPath_empty rfl, expiresAt_of_ordered (by decide)]
    rfl
  · rw [recordsExactly_iff fastPath_empty rfl]
    decide

end RealityHydra.DnsWarmer
