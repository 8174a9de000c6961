import RealityHydra.DnsWarmer.Lifetime
import RealityHydra.DnsWarmer.Provenance

/-!
# The resolver behind the `live-dns` feature

Of the records of one answer the shortest-lived decides how long the answer is kept.
What the cache then serves is no older than any of these records may get, unless the
floor of the configuration is longer than the record lives.
-/

set_option autoImplicit false

namespace RealityHydra.DnsWarmer

open RealityHydra.Lib.ExpiryMap
open RealityHydra.Lib.Transition
open RealityHydra.PoolEngine

/-- What the DNS library finds: the addresses, and the TTL in seconds of each answer. -/
structure LookupIp where
  addrs : List IpAddr
  ttls : List UInt32
  deriving DecidableEq, Repr

def LookupIp.ttlSecs (lookup : LookupIp) : UInt32 := lookup.ttls.min?.getD 0

/-- `lookupIp` is the library's lookup, with the text of its error. -/
def HickoryResolver.resolve (lookupIp : String → Except String LookupIp) (host : String) :
    Except ResolveError Resolved :=
  match lookupIp host with
  | .error message => .error (.backend host message)
  | .ok lookup =>
      if lookup.addrs = [] then .error (.noAddresses host)
      else .ok ⟨lookup.addrs, ⟨lookup.ttlSecs.toUInt64, 0⟩⟩

theorem ttlSecs_le {lookup : LookupIp} {ttl : UInt32} (isIn : ttl ∈ lookup.ttls) :
    lookup.ttlSecs ≤ ttl := by
  have nonempty : lookup.ttls ≠ [] := List.ne_nil_of_mem isIn
  rw [LookupIp.ttlSecs, List.min?_eq_some_min nonempty, Option.getD_some]
  exact List.min_le_of_mem isIn

/-! ## What one lookup gives -/

section Lookups

variable {lookupIp : String → Except String LookupIp} {host : String}

/-- The records behind an answer, of which at least one is an address. -/
structure Resolved.FoundAs (resolved : Resolved) (records : LookupIp) : Prop where
  addrs : resolved.addrs = records.addrs
  someAddr : records.addrs ≠ []
  shortest : ∀ ttl ∈ records.ttls, resolved.ttl.asMillis ≤ 1000 * ttl.toNat

theorem resolve_ok {resolved : Resolved}
    (found : HickoryResolver.resolve lookupIp host = .ok resolved) :
    ∃ records, lookupIp host = .ok records ∧ resolved.FoundAs records := by
  unfold HickoryResolver.resolve at found
  split at found
  · contradiction
  · rename_i records answered
    split at found
    · contradiction
    · rename_i someAddr
      cases found
      refine ⟨records, answered, rfl, someAddr, ?_⟩
      intro ttl isIn
      have least := UInt32.le_iff_toNat_le.mp (ttlSecs_le isIn)
      simp only [Duration.asMillis, UInt32.toNat_toUInt64]
      omega

theorem resolve_error {e : ResolveError}
    (failed : HickoryResolver.resolve lookupIp host = .error e) :
    (∃ records, lookupIp host = .ok records ∧ records.addrs = [] ∧ e = .noAddresses host) ∨
      ∃ message, lookupIp host = .error message ∧ e = .backend host message := by
  unfold HickoryResolver.resolve at failed
  split at failed
  · rename_i message answered
    cases failed
    exact Or.inr ⟨message, answered, rfl⟩
  · rename_i records answered
    split at failed
    · rename_i noAddr
      cases failed
      exact Or.inl ⟨records, answered, noAddr, rfl⟩
    · contradiction

end Lookups

/-! ## What the cache keeps of it -/

section Runs

variable {Task : Type} {config : WarmerConfig} {before after : Warming Task}

/-- A lookup of the host gave this, at `nowMs` itself or so recently that it is kept
until then. -/
def ServedFrom (config : WarmerConfig) (answered : List (Answer Task)) (host : String)
    (nowMs : UInt64) (served : Resolved) : Prop :=
  ∃ lookup ∈ answered, lookup.host = host ∧ lookup.result = .ok served ∧
    (lookup.nowMs = nowMs ∨
      nowMs.toNat < lookup.nowMs.toNat + config.heldMillis served.ttl)

theorem ServedFrom.append {answered : List (Answer Task)} {host : String} {nowMs : UInt64}
    {served : Resolved} (isServed : ServedFrom config answered host nowMs served)
    (more : List (Answer Task)) : ServedFrom config (answered ++ more) host nowMs served := by
  obtain ⟨lookup, isIn, rest⟩ := isServed
  exact ⟨lookup, List.mem_append_left more isIn, rest⟩

/-- Calls return what the cache or their own lookup gave. -/
def ReturnsServed (config : WarmerConfig) (warming : Warming Task) : Prop :=
  ∀ task host nowMs since served, warming.calls task = .returned host nowMs since (.ok served) →
    ServedFrom config warming.answered host nowMs served

theorem Warming.Genuine.servedFrom (genuine : before.Genuine config) (sound : config.Sound)
    {host : String} {nowMs : UInt64} {served : Resolved}
    (fresh : before.cache.peek host nowMs = some served) :
    ∃ lookup ∈ before.answered, lookup.host = host ∧ lookup.result = .ok served ∧
      nowMs.toNat < lookup.nowMs.toNat + config.heldMillis served.ttl := by
  obtain ⟨made, _, answered, same, entry, left, unexpired⟩ := genuine.peek fresh
  obtain ⟨ttl, isClamped, value, _⟩ := left.expiry sound
  have held : ttl.asMillis = config.heldMillis served.ttl := by
    rw [← same, left.2.1]
    exact Duration.asMillis_of_clamp isClamped
  have before := UInt64.lt_iff_toNat_lt.mp unexpired
  refine ⟨made.answer, answered, left.1, ?_, ?_⟩
  · rw [Recording.answer, same]
  · dsimp only [Recording.answer]
    omega

variable [DecidableEq Task]

theorem ReturnsServed.setCall (returns : ReturnsServed config before) (task : Task)
    (call : WarmCall)
    (own : ∀ host nowMs since served, call = .returned host nowMs since (.ok served) →
      ServedFrom config before.answered host nowMs served) :
    ReturnsServed config (before.setCall task call) := by
  intro other host nowMs since served returned
  by_cases same : other = task
  · subst same
    rw [setCall_calls] at returned
    exact own host nowMs since served returned
  · rw [setCall_calls_of_ne call same] at returned
    exact returns other host nowMs since served returned

theorem ReturnsServed.step (returns : ReturnsServed config before)
    (genuine : before.Genuine config) (sound : config.Sound) {action : WarmAction Task}
    (taken : warmStep config before action = some after) : ReturnsServed config after := by
  have noted : ∀ more : List (Answer Task),
      ReturnsServed config { before with answered := before.answered ++ more } := by
    intro more task host nowMs since served returned
    exact (returns task host nowMs since served returned).append more
  cases warmStep_effect taken with
  | call task host nowMs ready =>
      refine returns.setCall task _ ?_
      intro _ _ _ _ same
      contradiction
  | hit task host nowMs held called fresh =>
      refine returns.setCall task _ ?_
      intro _ _ _ _ same
      cases same
      rw [Cache.fastPath_eq_peek] at fresh
      obtain ⟨lookup, isIn, isHost, result, recent⟩ := genuine.servedFrom sound fresh
      exact ⟨lookup, isIn, isHost, result, Or.inr recent⟩
  | miss task host nowMs called stale =>
      refine returns.setCall task _ ?_
      intro _ _ _ _ same
      contradiction
  | fail task host nowMs since e resolving =>
      refine (noted [⟨task, host, nowMs, .error e⟩]).setCall task _ ?_
      intro _ _ _ _ same
      cases same
  | resolve task host nowMs since answer resolving =>
      refine (noted [⟨task, host, nowMs, .ok answer⟩]).setCall task _ ?_
      intro _ _ _ _ same
      contradiction
  | panic task host nowMs since answer resolved empty =>
      refine returns.setCall task _ ?_
      intro _ _ _ _ same
      contradiction
  | record task host nowMs since answer expiresAtMs resolved expires =>
      have answered := genuine.calls task
      rw [resolved] at answered
      have inserted : ReturnsServed config
          (before.insert ⟨task, host, nowMs, answer⟩ expiresAtMs) := returns
      refine inserted.setCall task _ ?_
      intro _ _ _ _ same
      cases same
      exact ⟨_, answered, rfl, rfl, Or.inl rfl⟩
  | evict nowMs => exact returns

/-- What the library may find for a host at a time: the records change, and two
lookups at once need not agree. -/
def Library : Type := String → UInt64 → Except String LookupIp → Prop

/-- Every lookup of a call is answered by the library. -/
def AnsweredByHickory (library : Library) (before : Warming Task) : WarmAction Task → Prop
  | .answer task result => ∀ host nowMs since,
      before.calls task = .resolving host nowMs since →
        ∃ lookupIp, library host nowMs (lookupIp host) ∧
          result = HickoryResolver.resolve lookupIp host
  | _ => True

variable {library : Library}

omit [DecidableEq Task] in
/-- What a lookup told its call, the library found. -/
def Answer.FromLibrary (library : Library) (answer : Answer Task) : Prop :=
  ∃ lookupIp, library answer.host answer.nowMs (lookupIp answer.host) ∧
    answer.result = HickoryResolver.resolve lookupIp answer.host

def LooksUp (library : Library) (warming : Warming Task) : Prop :=
  ∀ answer ∈ warming.answered, answer.FromLibrary library

theorem LooksUp.step (looksUp : LooksUp library before) {action : WarmAction Task}
    (answers : AnsweredByHickory library before action)
    (taken : warmStep config before action = some after) : LooksUp library after := by
  have noted : ∀ answer : Answer Task, answer.FromLibrary library →
      ∀ lookup ∈ before.answered ++ [answer], lookup.FromLibrary library := by
    intro answer isAnswered lookup isIn
    rcases List.mem_append.mp isIn with earlier | last
    · exact looksUp lookup earlier
    · rw [List.mem_singleton.mp last]
      exact isAnswered
  cases warmStep_effect taken with
  | fail task host nowMs since e resolving => exact noted _ (answers host nowMs since resolving)
  | resolve task host nowMs since answer resolving =>
      exact noted _ (answers host nowMs since resolving)
  | _ => exact looksUp

/-- Everything a run keeps: where the entries are from, what the calls returned,
and that the library was asked. -/
theorem reachable_servedFrom (sound : config.Sound)
    (reached : Reach (warmStep config) (AnsweredByHickory library) Warming.start after) :
    after.Genuine config ∧ ReturnsServed config after ∧ LooksUp library after := by
  apply reached.invariant fun state =>
    state.Genuine config ∧ ReturnsServed config state ∧ LooksUp library state
  · refine ⟨Warming.start_genuine, ?_, ?_⟩
    · intro task host nowMs since served returned
      contradiction
    · intro answer isIn
      contradiction
  · intro before action after held answers taken
    obtain ⟨genuine, returns, looksUp⟩ := held
    exact ⟨genuine.step taken, returns.step genuine sound taken, looksUp.step answers taken⟩

end Runs

/-- Addresses the library found for the host, either right now or so recently that
none of their records is over yet, except where the floor of the configuration
holds it longer. -/
def StillFound (library : Library) (config : WarmerConfig) (host : String) (nowMs : UInt64)
    (served : Resolved) : Prop :=
  ∃ foundMs records, library host foundMs (.ok records) ∧ served.addrs = records.addrs ∧
    records.addrs ≠ [] ∧
    (foundMs = nowMs ∨ ∀ ttl ∈ records.ttls,
      nowMs.toNat < foundMs.toNat + max config.minTtl.asMillis (1000 * ttl.toNat))

theorem ServedFrom.stillFound {Task : Type} {library : Library} {config : WarmerConfig}
    {warming : Warming Task} {host : String} {nowMs : UInt64} {served : Resolved}
    (isServed : ServedFrom config warming.answered host nowMs served)
    (looksUp : LooksUp library warming) : StillFound library config host nowMs served := by
  obtain ⟨lookup, isIn, rfl, result, recent⟩ := isServed
  obtain ⟨lookupIp, found, told⟩ := looksUp lookup isIn
  rw [result] at told
  obtain ⟨records, isRecords, same⟩ := resolve_ok told.symm
  rw [isRecords] at found
  refine ⟨lookup.nowMs, records, found, same.addrs, same.someAddr, ?_⟩
  apply recent.imp_right
  intro kept ttl isTtl
  have shortest := same.shortest ttl isTtl
  have held : config.heldMillis served.ttl ≤
      max config.minTtl.asMillis (1000 * ttl.toNat) := by
    unfold WarmerConfig.heldMillis
    omega
  omega

/-- Whatever calls race and whatever the records become meanwhile: what a call
returns and what the cache shows for a host was found for that host, has an address,
and outlives none of its records but by the floor.  A call that fails tells its own
host's failure. -/
theorem hickory_answers_outlive_no_record {Task : Type} [DecidableEq Task]
    (library : Library) (config : WarmerConfig) (ordered : config.minTtl ≤ config.maxTtl)
    (bounded : config.maxTtl.asMillis < 2 ^ 64) (warming : Warming Task)
    (reached : Reach (warmStep config) (AnsweredByHickory library) Warming.start warming) :
    (∀ task host nowMs since served,
      warming.calls task = .returned host nowMs since (.ok served) →
        StillFound library config host nowMs served) ∧
    (∀ host nowMs served, warming.cache.peek host nowMs = some served →
      StillFound library config host nowMs served) ∧
    ∀ task host nowMs since e,
      warming.calls task = .returned host nowMs since (.error e) →
        (e = .noAddresses host ∧ ∃ records, library host nowMs (.ok records) ∧
          records.addrs = []) ∨
        ∃ message, e = .backend host message ∧ library host nowMs (.error message) := by
  have sound : config.Sound := ⟨ordered, bounded⟩
  obtain ⟨genuine, returns, looksUp⟩ := reachable_servedFrom sound reached
  refine ⟨?_, ?_, ?_⟩
  · intro task host nowMs since served returned
    exact (returns task host nowMs since served returned).stillFound looksUp
  · intro host nowMs served fresh
    obtain ⟨lookup, isIn, isHost, result, recent⟩ := genuine.servedFrom sound fresh
    have isServed : ServedFrom config warming.answered host nowMs served :=
      ⟨lookup, isIn, isHost, result, Or.inr recent⟩
    exact isServed.stillFound looksUp
  · intro task host nowMs since e returned
    have isAnswered := genuine.calls task
    rw [returned] at isAnswered
    obtain ⟨lookupIp, found, told⟩ := looksUp _ isAnswered
    rcases resolve_error told.symm with ⟨records, isRecords, none, same⟩ | ⟨message, failed, same⟩
    · rw [isRecords] at found
      exact Or.inl ⟨same, records, found, none⟩
    · rw [failed] at found
      exact Or.inr ⟨message, same, found⟩

/-- An address good for five minutes behind an alias good for ten seconds. -/
def aliasedRecords : LookupIp := ⟨[.v4 (Vector.replicate 4 9)], [10, 300]⟩

def aliasedLookup : List (WarmAction Nat) :=
  [.call 0 "a.example" 5, .look 0,
    .answer 0 (HickoryResolver.resolve (fun _ => .ok aliasedRecords) "a.example"), .record 0]

/-- The alias is over after ten seconds, and the floor holds it for thirty. -/
theorem aliased_lookup_held_by_floor :
    ∃ warming : Warming Nat,
      runAll (warmStep WarmerConfig.standard) Warming.start aliasedLookup = some warming ∧
      warming.cache.isWarm "a.example" 30005 = false ∧
      StillFound (fun _ _ found => found = .ok aliasedRecords) WarmerConfig.standard
        "a.example" 30004 ⟨aliasedRecords.addrs, ⟨10, 0⟩⟩ := by
  obtain ⟨warming, ran⟩ : ∃ warming,
      runAll (warmStep WarmerConfig.standard) Warming.start aliasedLookup = some warming :=
    ⟨_, rfl⟩
  let library : Library := fun _ _ found => found = .ok aliasedRecords
  have along : Along (warmStep WarmerConfig.standard) (AnsweredByHickory library)
      Warming.start aliasedLookup := by
    refine ⟨trivial, fun _ _ => ⟨trivial, fun _ _ => ⟨?_, fun _ _ => ⟨trivial, ?_⟩⟩⟩⟩
    · intro host nowMs since resolving
      refine ⟨fun _ => .ok aliasedRecords, rfl, ?_⟩
      rfl
    · exact fun _ _ => trivial
  have kept := hickory_answers_outlive_no_record library WarmerConfig.standard (by decide)
    (by decide) warming (reach_of_along ran along)
  refine ⟨warming, ran, ?_, ?_⟩
  · rw [← Option.some.inj ran]
    decide
  · apply kept.2.1
    rw [← Option.some.inj ran]
    decide

end RealityHydra.DnsWarmer
