import RealityHydra.DnsWarmer.Warmer
import RealityHydra.PoolEngine.Entry

/-!
# Verdicts, policies and pruning

The allowlist and the latency band are the policies a probe is held against; a
verdict is one truth value for each axis, and pruning keeps the entries whose
verdict is healthy.  Networks come from a library: a type with its parser and
its membership test.
-/

set_option autoImplicit false

namespace RealityHydra.HealthCheck

open RealityHydra.DnsWarmer
open RealityHydra.Lib.ComparatorSort
open RealityHydra.PoolEngine

inductive HealthError where
  | badCidr (cidr message : String)
  | emptyAllowlist
  | invertedLatencyBand (minMs maxMs : UInt64)
  | resolve (sni message : String)
  | probe (dest sni message : String)
  deriving DecidableEq, Repr

/-- `ipnet`: CIDR networks. -/
structure IpNets where
  Net : Type
  parse : String → Except String Net
  contains : Net → IpAddr → Bool

structure CoherenceAllowlist (ipnet : IpNets) where
  nets : List ipnet.Net
  nonempty : nets ≠ []

namespace CoherenceAllowlist

variable {ipnet : IpNets}

def parse (cidrs : List String) : Except HealthError (CoherenceAllowlist ipnet) := do
  let nets ← cidrs.mapM fun cidr =>
    match ipnet.parse cidr with
    | .ok net => .ok net
    | .error e => .error (.badCidr cidr e)
  if empty : nets = [] then .error .emptyAllowlist else .ok ⟨nets, empty⟩

def contains (allowlist : CoherenceAllowlist ipnet) (ip : IpAddr) : Bool :=
  allowlist.nets.any fun net => ipnet.contains net ip

def containsAll (allowlist : CoherenceAllowlist ipnet) (ips : List IpAddr) : Bool :=
  !ips.isEmpty && ips.all allowlist.contains

/-- Every address lies in some allowed network, and there is one. -/
theorem containsAll_iff (allowlist : CoherenceAllowlist ipnet) (ips : List IpAddr) :
    allowlist.containsAll ips = true ↔
      ips ≠ [] ∧ ∀ ip ∈ ips, ∃ net ∈ allowlist.nets, ipnet.contains net ip = true := by
  simp [containsAll, contains]

end CoherenceAllowlist

structure LatencyBand where
  min : Duration
  max : Duration
  deriving DecidableEq, Repr

def LatencyBand.new (min max : Duration) : Except HealthError LatencyBand :=
  if ¬ min ≤ max then
    .error (.invertedLatencyBand (UInt64.ofNat min.asMillis) (UInt64.ofNat max.asMillis))
  else .ok ⟨min, max⟩

def LatencyBand.contains (band : LatencyBand) (rtt : Duration) : Bool :=
  band.min ≤ rtt && rtt ≤ band.max

structure Health where
  sni : String
  coherent : Bool
  sanMatch : Bool
  alpnH2 : Bool
  tls13 : Bool
  latencyOk : Bool
  deriving DecidableEq, Repr

def Health.isHealthy (health : Health) : Bool :=
  health.coherent && health.sanMatch && health.alpnH2 && health.tls13 && health.latencyOk

def healthySnis (reports : List Health) : List String :=
  (reports.filter Health.isHealthy).map Health.sni

def prune (master : MasterList) (reports : List Health) : ActivePool :=
  let healthy := healthySnis reports
  let kept := master.entries.filter fun e => healthy.contains e.sni
  ActivePool.fromEntries kept

theorem SniSorted.filter {entries : List PoolEntry} (sorted : SniSorted entries)
    (keep : PoolEntry → Bool) : SniSorted (entries.filter keep) :=
  List.Pairwise.sublist List.filter_sublist sorted

/-- What is in order already stays as it is. -/
theorem fromEntries_entries {entries : List PoolEntry} (sorted : SniSorted entries) :
    (ActivePool.fromEntries entries).entries = entries := by
  have shuffled := sortBy_perm bySni entries
  have separates := separates_of_distinct (SniSorted.nodup sorted)
  refine sorted_unique bySni shuffled ?_ (sortBy_sorted bySni entries) (SniSorted.isLE sorted)
  intro a inLeft b inRight
  exact separates a (shuffled.mem_iff.mp inLeft) b (shuffled.mem_iff.mp inRight)

/-- Pruning keeps, in order and as they are, the entries found healthy. -/
theorem prune_entries (master : MasterList) (reports : List Health) :
    (prune master reports).entries =
      master.entries.filter fun e => (healthySnis reports).contains e.sni :=
  fromEntries_entries (SniSorted.filter master.sorted _)

end RealityHydra.HealthCheck
