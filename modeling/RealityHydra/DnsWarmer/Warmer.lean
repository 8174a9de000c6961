import RealityHydra.Lib.ExpiryMap
import RealityHydra.PoolEngine.Epoch

/-!
# The TTL-aware DNS cache

The cache keeps what the resolver answered for as long as the record's clamped
TTL allows.  The three read paths test freshness alike, and the resolver is
whatever answers the lookup.
-/

set_option autoImplicit false

namespace RealityHydra.DnsWarmer

open RealityHydra.Lib.ExpiryMap
open RealityHydra.PoolEngine
open RealityHydra.Primitives
open Std (TreeMap)

inductive IpAddr where
  | v4 (octets : Vector UInt8 4)
  | v6 (octets : Vector UInt8 16)
  deriving DecidableEq, Repr

structure Resolved where
  addrs : List IpAddr
  ttl : Duration
  deriving DecidableEq, Repr

inductive ResolveError where
  | noAddresses (host : String)
  | backend (host message : String)
  deriving DecidableEq, Repr

/-- The `Display` text; `debug` is the `{:?}` of a string. -/
def ResolveError.display (debug : String → String) : ResolveError → String
  | noAddresses host => "no addresses returned for " ++ debug host
  | backend host message => "resolver backend failed for " ++ debug host ++ ": " ++ message

/-- The offline resolver: a fixed table. -/
abbrev MockResolver := TreeMap String Resolved

def MockResolver.resolve (table : MockResolver) (host : String) :
    Except ResolveError Resolved :=
  match table[host]? with
  | some r => .ok r
  | none => .error (.backend host "host not in MockResolver table")

structure WarmerConfig where
  minTtl : Duration
  maxTtl : Duration
  deriving DecidableEq, Repr

def WarmerConfig.standard : WarmerConfig := ⟨⟨30, 0⟩, ⟨3600, 0⟩⟩

def WarmerConfig.clamp (config : WarmerConfig) (ttl : Duration) : Option Duration :=
  ttl.clamp config.minTtl config.maxTtl

structure CacheEntry where
  resolved : Resolved
  expiresAtMs : UInt64
  deriving DecidableEq, Repr

abbrev Cache := TreeMap String CacheEntry

namespace Cache

/-- The read under the first lock of `warm`. -/
def fastPath (cache : Cache) (host : String) (nowMs : UInt64) : Option Resolved :=
  match cache[host]? with
  | some entry => if nowMs < entry.expiresAtMs then some entry.resolved else none
  | none => none

def isWarm (cache : Cache) (host : String) (nowMs : UInt64) : Bool :=
  cache[host]?.any fun e => nowMs < e.expiresAtMs

def peek (cache : Cache) (host : String) (nowMs : UInt64) : Option Resolved :=
  (cache[host]?.filter fun e => nowMs < e.expiresAtMs).map fun e => e.resolved

def evictExpired (cache : Cache) (nowMs : UInt64) : Cache :=
  cache.filter fun _ e => nowMs < e.expiresAtMs

end Cache

/-- When what was looked up at `nowMs` with this TTL goes stale; `none` is the
panic of `clamp`. -/
def WarmerConfig.expiresAt (config : WarmerConfig) (nowMs : UInt64) (ttl : Duration) :
    Option UInt64 :=
  -- `as_millis() as u64` keeps the low 64 bits
  (config.clamp ttl).map fun ttl => saturatingAdd nowMs (UInt64.ofNat ttl.asMillis)

/-- The insert under the second lock of `warm`. -/
def Cache.record (cache : Cache) (host : String) (resolved : Resolved)
    (expiresAtMs : UInt64) : Cache :=
  cache.insert host ⟨resolved, expiresAtMs⟩

/-- `warm` with no other call between its steps. -/
def warm (config : WarmerConfig) (resolve : String → Except ResolveError Resolved)
    (cache : Cache) (host : String) (nowMs : UInt64) :
    Option (Except ResolveError Resolved × Cache) :=
  match cache.fastPath host nowMs with
  | some resolved => some (.ok resolved, cache)
  | none =>
      match resolve host with
      | .error e => some (.error e, cache)
      | .ok resolved =>
          (config.expiresAt nowMs resolved.ttl).map fun expiresAtMs =>
            (.ok resolved, cache.record host resolved expiresAtMs)

/-- The range is not empty and its bounds are whole 64-bit milliseconds. -/
structure WarmerConfig.Sound (config : WarmerConfig) : Prop where
  ordered : config.minTtl ≤ config.maxTtl
  bounded : config.maxTtl.asMillis < 2 ^ 64

section Reads

variable (cache : Cache) (host : String) (nowMs : UInt64)

theorem Cache.peek_eq :
    cache.peek host nowMs = (freshAt (·.expiresAtMs) cache host nowMs).map (·.resolved) := rfl

theorem Cache.evictExpired_eq :
    cache.evictExpired nowMs = Lib.ExpiryMap.evictExpired (·.expiresAtMs) cache nowMs := rfl

theorem Cache.isWarm_eq :
    cache.isWarm host nowMs = (freshAt (·.expiresAtMs) cache host nowMs).isSome := by
  unfold Cache.isWarm freshAt
  cases cache[host]? with
  | none => rfl
  | some entry =>
      by_cases fresh : nowMs < entry.expiresAtMs
      · simp [Option.filter, fresh]
      · simp [Option.filter, fresh]

theorem Cache.fastPath_eq_peek : cache.fastPath host nowMs = cache.peek host nowMs := by
  unfold Cache.fastPath Cache.peek
  cases cache[host]? with
  | none => rfl
  | some entry =>
      by_cases fresh : nowMs < entry.expiresAtMs
      · simp [Option.filter, fresh]
      · simp [Option.filter, fresh]

theorem Cache.isWarm_eq_isSome_peek :
    cache.isWarm host nowMs = (cache.peek host nowMs).isSome := by
  rw [Cache.isWarm_eq, Cache.peek_eq, Option.isSome_map]

variable {cache host nowMs}

theorem Cache.peek_eq_some_iff {resolved : Resolved} :
    cache.peek host nowMs = some resolved ↔
      ∃ entry, cache[host]? = some entry ∧ entry.resolved = resolved ∧
        nowMs < entry.expiresAtMs := by
  rw [Cache.peek_eq, Option.map_eq_some_iff]
  simp only [freshAt_eq_some_iff]
  refine ⟨?_, ?_⟩
  · intro held
    obtain ⟨entry, ⟨found, fresh⟩, same⟩ := held
    exact ⟨entry, found, same, fresh⟩
  · intro held
    obtain ⟨entry, found, same, fresh⟩ := held
    exact ⟨entry, ⟨found, fresh⟩, same⟩

end Reads

/-- Eviction at `nowMs` changes no read from then on. -/
theorem Cache.peek_evictExpired (cache : Cache) (host : String) {nowMs late : UInt64}
    (later : nowMs ≤ late) :
    (cache.evictExpired nowMs).peek host late = cache.peek host late := by
  rw [Cache.peek_eq, Cache.peek_eq, Cache.evictExpired_eq, freshAt_evictExpired cache host later]

section Expiry

variable {config : WarmerConfig} (sound : config.Sound)

include sound

/-- The expiry is the clamped TTL after the call's time, saturating. -/
theorem WarmerConfig.Sound.expiresAt (nowMs : UInt64) (ttl : Duration) :
    ∃ clamped expiresAtMs, config.clamp ttl = some clamped ∧
      config.expiresAt nowMs ttl = some expiresAtMs ∧
      expiresAtMs.toNat = min (2 ^ 64 - 1) (nowMs.toNat + clamped.asMillis) ∧
      config.minTtl.asMillis ≤ clamped.asMillis ∧
      clamped.asMillis ≤ config.maxTtl.asMillis := by
  obtain ⟨clamped, isClamped⟩ := Duration.clamp_isSome sound.ordered ttl
  obtain ⟨aboveMin, belowMax⟩ := Duration.clamp_between isClamped
  have least := Duration.asMillis_mono aboveMin
  have greatest := Duration.asMillis_mono belowMax
  refine ⟨clamped, saturatingAdd nowMs (UInt64.ofNat clamped.asMillis), isClamped, ?_, ?_,
    least, greatest⟩
  · rw [WarmerConfig.expiresAt, WarmerConfig.clamp, isClamped, Option.map_some]
  · have fits := Nat.lt_of_le_of_lt greatest sound.bounded
    rw [saturatingAdd_toNat, UInt64.toNat_ofNat_of_lt' fits, Nat.min_comm]

end Expiry

end RealityHydra.DnsWarmer
