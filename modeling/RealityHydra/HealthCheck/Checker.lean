import RealityHydra.HealthCheck.Report
import RealityHydra.HealthCheck.San
import RealityHydra.Lib.Traversal
import RealityHydra.PoolEngine.Select

/-!
# The health check

Every entry is resolved and then probed; the first step that cannot run ends the
check of the whole list.  What pruning then keeps is what passes every axis.
-/

set_option autoImplicit false

namespace RealityHydra.HealthCheck

open RealityHydra.DnsWarmer
open RealityHydra.Lib.ByteCodec
open RealityHydra.Lib.Traversal
open RealityHydra.PoolEngine

structure TlsObservation where
  isTls13 : Bool
  alpn : Option Bytes
  leafSanDnsNames : List String
  rtt : Duration
  deriving DecidableEq, Repr

/-- `b"h2"` -/
def h2 : Bytes := [104, 50]

def TlsObservation.alpnIsH2 (obs : TlsObservation) : Bool := obs.alpn == some h2

/-- `debug` is the `{:?}` of a string. -/
structure HealthChecker (ipnet : IpNets) where
  resolve : String → Except ResolveError Resolved
  inspect : (dest sni : String) → Except HealthError TlsObservation
  allowlist : CoherenceAllowlist ipnet
  latency : LatencyBand
  dest : String
  debug : String → String

section Checks

variable {ipnet : IpNets} (checker : HealthChecker ipnet)

def HealthChecker.check (entry : PoolEntry) : Except HealthError Health :=
  let sni := entry.sni
  match checker.resolve sni with
  | .error e => .error (.resolve sni (e.display checker.debug))
  | .ok resolved =>
      let coherent := checker.allowlist.containsAll resolved.addrs
      match checker.inspect checker.dest sni with
      | .error e => .error e
      | .ok obs =>
          .ok { sni, coherent
                sanMatch := sniMatchesAny sni obs.leafSanDnsNames
                alpnH2 := obs.alpnIsH2
                tls13 := obs.isTls13
                latencyOk := checker.latency.contains obs.rtt }

def HealthChecker.checkAll (master : MasterList) : Except HealthError (List Health) :=
  master.entries.mapM checker.check

/-- The name resolves and the probe of it completes, with these answers. -/
def HealthChecker.Answers (sni : String) (resolved : Resolved) (obs : TlsObservation) : Prop :=
  checker.resolve sni = .ok resolved ∧ checker.inspect checker.dest sni = .ok obs

/-- The two ways a check cannot run, in the order they are met. -/
def HealthChecker.Fails (sni : String) (failure : HealthError) : Prop :=
  (∃ e, checker.resolve sni = .error e ∧ failure = .resolve sni (e.display checker.debug)) ∨
    ∃ resolved, checker.resolve sni = .ok resolved ∧
      checker.inspect checker.dest sni = .error failure

/-- All five axes, in terms of what was resolved and observed. -/
structure HealthChecker.Passes (sni : String) (resolved : Resolved) (obs : TlsObservation) :
    Prop where
  resolves : resolved.addrs ≠ []
  coherent : ∀ ip ∈ resolved.addrs, ∃ net ∈ checker.allowlist.nets,
    ipnet.contains net ip = true
  named : ∃ san ∈ obs.leafSanDnsNames, Covers sni san
  alpn : obs.alpn = some h2
  tls13 : obs.isTls13 = true
  inBand : checker.latency.min ≤ obs.rtt ∧ obs.rtt ≤ checker.latency.max

/-- The entry's check completes with a healthy verdict. -/
def HealthChecker.healthy (entry : PoolEntry) : Bool :=
  match checker.check entry with
  | .ok health => health.isHealthy
  | .error _ => false

variable {checker}

theorem HealthChecker.check_error_iff {entry : PoolEntry} {failure : HealthError} :
    checker.check entry = .error failure ↔ checker.Fails entry.sni failure := by
  unfold HealthChecker.Fails
  cases resolution : checker.resolve entry.sni with
  | error e =>
      have shape : checker.check entry = .error (.resolve entry.sni (e.display checker.debug)) := by
        simp only [HealthChecker.check, resolution]
      simp [shape, eq_comm]
  | ok resolved =>
      cases inspection : checker.inspect checker.dest entry.sni with
      | error e =>
          have shape : checker.check entry = .error e := by
            simp only [HealthChecker.check, resolution, inspection]
          simp [shape]
      | ok obs =>
          have shape : ∃ health, checker.check entry = .ok health := by
            simp only [HealthChecker.check, resolution, inspection]
            exact ⟨_, rfl⟩
          obtain ⟨health, checked⟩ := shape
          simp [checked]

theorem HealthChecker.check_of_answers {entry : PoolEntry} {resolved : Resolved}
    {obs : TlsObservation} (answers : checker.Answers entry.sni resolved obs) :
    ∃ health, checker.check entry = .ok health := by
  simp only [HealthChecker.check, answers.1, answers.2]
  exact ⟨_, rfl⟩

/-- A verdict is healthy exactly if its entry passes every axis. -/
theorem HealthChecker.check_ok {entry : PoolEntry} {health : Health}
    (checked : checker.check entry = .ok health) :
    ∃ resolved obs, checker.Answers entry.sni resolved obs ∧ health.sni = entry.sni ∧
      (health.isHealthy = true ↔ checker.Passes entry.sni resolved obs) := by
  simp only [HealthChecker.check] at checked
  split at checked
  · contradiction
  · rename_i resolved resolution
    split at checked
    · contradiction
    · rename_i obs inspection
      cases checked
      refine ⟨resolved, obs, ⟨resolution, inspection⟩, rfl, ?_⟩
      simp only [Health.isHealthy, Bool.and_eq_true, CoherenceAllowlist.containsAll_iff,
        sniMatchesAny_iff, TlsObservation.alpnIsH2, beq_iff_eq, LatencyBand.contains,
        decide_eq_true_eq]
      refine ⟨?_, ?_⟩
      · rintro ⟨⟨⟨⟨⟨resolves, coherent⟩, named⟩, alpn⟩, tls13⟩, inBand⟩
        exact ⟨resolves, coherent, named, alpn, tls13, inBand⟩
      · intro passes
        exact ⟨⟨⟨⟨⟨passes.resolves, passes.coherent⟩, passes.named⟩, passes.alpn⟩,
          passes.tls13⟩, passes.inBand⟩

theorem HealthChecker.completes_iff {entry : PoolEntry} :
    (∃ health, checker.check entry = .ok health) ↔
      ∃ resolved obs, checker.Answers entry.sni resolved obs := by
  refine ⟨?_, ?_⟩
  · rintro ⟨health, checked⟩
    obtain ⟨resolved, obs, answers, _⟩ := HealthChecker.check_ok checked
    exact ⟨resolved, obs, answers⟩
  · rintro ⟨resolved, obs, answers⟩
    exact HealthChecker.check_of_answers answers

/-- The verdicts come in the order of the entries, one for each. -/
theorem healthySnis_eq {entries : List PoolEntry} {reports : List Health}
    (verdicts : List.Forall₂ (fun e health => checker.check e = .ok health) entries reports) :
    healthySnis reports = (entries.filter checker.healthy).map PoolEntry.sni := by
  induction verdicts with
  | nil => rfl
  | @cons e health entries reports checked _ ih =>
      obtain ⟨_, _, _, sameSni, _⟩ := HealthChecker.check_ok checked
      have verdict : checker.healthy e = health.isHealthy := by
        rw [HealthChecker.healthy, checked]
      unfold healthySnis at ih ⊢
      rw [List.filter_cons, List.filter_cons, verdict]
      split
      · rw [List.map_cons, List.map_cons, ih, sameSni]
      · exact ih

theorem prune_checked {master : MasterList} {reports : List Health}
    (checked : checker.checkAll master = .ok reports) :
    (prune master reports).entries = master.entries.filter checker.healthy := by
  have verdicts := mapM_ok_iff.mp checked
  rw [prune_entries, healthySnis_eq verdicts]
  apply List.filter_congr
  intro e isIn
  rw [Bool.eq_iff_iff, List.contains_iff_mem, List.mem_map]
  refine ⟨?_, ?_⟩
  · rintro ⟨other, isOther, same⟩
    obtain ⟨listed, healthy⟩ := List.mem_filter.mp isOther
    have sameEntry : other = e :=
      List.inj_on_of_nodup_map (SniSorted.nodup master.sorted) listed isIn same
    rw [← sameEntry]
    exact healthy
  · exact fun healthy => ⟨e, List.mem_filter.mpr ⟨isIn, healthy⟩, rfl⟩

theorem HealthChecker.healthy_iff {entry : PoolEntry} {health : Health}
    (checked : checker.check entry = .ok health) :
    checker.healthy entry = true ↔ ∃ resolved obs,
      checker.Answers entry.sni resolved obs ∧ checker.Passes entry.sni resolved obs := by
  obtain ⟨resolved, obs, answers, _, healthy_iff⟩ := HealthChecker.check_ok checked
  rw [HealthChecker.healthy, checked]
  refine ⟨fun healthy => ⟨resolved, obs, answers, healthy_iff.mp healthy⟩, ?_⟩
  rintro ⟨resolved', obs', answers', passes⟩
  have sameResolved := Except.ok.inj (answers.1.symm.trans answers'.1)
  have sameObs := Except.ok.inj (answers.2.symm.trans answers'.2)
  rw [← sameResolved, ← sameObs] at passes
  exact healthy_iff.mpr passes

end Checks

/-- The check of a list fails as its first failing entry does; otherwise pruning
keeps exactly the entries that pass every axis, as they are and in order. -/
theorem pruned_pool_is_what_passes {ipnet : IpNets} (checker : HealthChecker ipnet)
    (master : MasterList) :
    ((∃ reports, checker.checkAll master = .ok reports) ↔
      ∀ e ∈ master.entries, ∃ resolved obs, checker.Answers e.sni resolved obs) ∧
    (∀ failure, checker.checkAll master = .error failure ↔
      ∃ before failing after, master.entries = before ++ failing :: after ∧
        (∀ e ∈ before, ∃ resolved obs, checker.Answers e.sni resolved obs) ∧
        checker.Fails failing.sni failure) ∧
    ∀ reports, checker.checkAll master = .ok reports →
      (∀ e, e ∈ (prune master reports).entries ↔ e ∈ master.entries ∧
        ∃ resolved obs, checker.Answers e.sni resolved obs ∧
          checker.Passes e.sni resolved obs) ∧
      SniSorted (prune master reports).entries ∧
      (prune master reports).snis = healthySnis reports := by
  refine ⟨?_, ?_, ?_⟩
  · rw [HealthChecker.checkAll, mapM_ok_iff_forall]
    simp only [HealthChecker.completes_iff]
  · intro failure
    rw [HealthChecker.checkAll, mapM_error_iff]
    simp only [HealthChecker.completes_iff, HealthChecker.check_error_iff]
  · intro reports checked
    have kept := prune_checked checked
    have verdicts := mapM_ok_iff.mp checked
    refine ⟨?_, ?_, ?_⟩
    · intro e
      rw [kept, List.mem_filter]
      refine and_congr_right fun isIn => ?_
      obtain ⟨health, _, checkedEntry⟩ := exists_of_forall₂ verdicts e isIn
      exact HealthChecker.healthy_iff checkedEntry
    · rw [kept]
      exact SniSorted.filter master.sorted _
    · rw [ActivePool.snis, kept, healthySnis_eq verdicts]

/-- Every name resolves and is certified; `b.example` does not speak h2. -/
def checkerWithoutH2 : HealthChecker ⟨Unit, fun _ => .ok (), fun _ _ => true⟩ where
  resolve _ := .ok ⟨[.v4 #v[104, 16, 0, 5]], ⟨300, 0⟩⟩
  inspect _ sni := .ok ⟨true, if sni = "a.example" then some h2 else none, [sni], ⟨0, 0⟩⟩
  allowlist := ⟨[()], by decide⟩
  latency := ⟨⟨0, 0⟩, ⟨2, 0⟩⟩
  dest := "edge.example:443"
  debug := id

theorem name_without_h2_is_pruned :
    ∃ reports, checkerWithoutH2.checkAll twoNames = .ok reports ∧
      (prune twoNames reports).snis = healthySnis reports ∧
      ⟨"b.example", .finite 1⟩ ∉ (prune twoNames reports).entries := by
  obtain ⟨reports, checked⟩ := (pruned_pool_is_what_passes checkerWithoutH2 twoNames).1.mpr
    fun e _ => ⟨_, _, rfl, rfl⟩
  obtain ⟨kept_iff, _, sameSnis⟩ :=
    (pruned_pool_is_what_passes checkerWithoutH2 twoNames).2.2 reports checked
  refine ⟨reports, checked, sameSnis, ?_⟩
  rw [kept_iff]
  rintro ⟨_, resolved, obs, answers, passes⟩
  have observed := Except.ok.inj answers.2
  have alpn := passes.alpn
  rw [← observed] at alpn
  exact absurd alpn (by decide)

end RealityHydra.HealthCheck
