import RealityHydra.DnsWarmer.Provenance

/-!
# Racing warms

A lookup that took long may be recorded after one that started later.  The
expiry of a host falls back exactly then, if the later start also lapses later.
-/

set_option autoImplicit false

namespace RealityHydra.DnsWarmer

open RealityHydra.Lib.ExpiryMap
open RealityHydra.Lib.Transition
open RealityHydra.PoolEngine

variable {Task : Type}

/-- When a lookup made at `nowMs` lapses, in exact milliseconds. -/
def WarmerConfig.lapse (config : WarmerConfig) (nowMs : UInt64) (ttl : Duration) : Nat :=
  nowMs.toNat + ((config.clamp ttl).map Duration.asMillis).getD 0

def Recording.lapse (config : WarmerConfig) (made : Recording Task) : Nat :=
  config.lapse made.nowMs made.resolved.ttl

def Represents (config : WarmerConfig) (nowMs : UInt64) : Prop :=
  nowMs.toNat + config.maxTtl.asMillis < 2 ^ 64

instance (config : WarmerConfig) (nowMs : UInt64) : Decidable (Represents config nowMs) :=
  inferInstanceAs (Decidable (nowMs.toNat + config.maxTtl.asMillis < 2 ^ 64))

/-- No call comes too late for its expiry to be represented, and none evicts. -/
def WarmAction.Fits (config : WarmerConfig) : WarmAction Task → Prop
  | .call _ _ nowMs => Represents config nowMs
  | .evict _ => False
  | _ => True

instance (config : WarmerConfig) (action : WarmAction Task) : Decidable (action.Fits config) :=
  match action with
  | .call _ _ nowMs => inferInstanceAs (Decidable (Represents config nowMs))
  | .look _ | .answer _ _ | .record _ => .isTrue trivial
  | .evict _ => .isFalse id

/-- What was recorded for the host since this call read the cache lapses no
later than what the call records. -/
def RecordsInOrder (config : WarmerConfig) (warming : Warming Task) :
    WarmAction Task → Prop
  | .record task =>
      ∀ host nowMs since answer, warming.calls task = .resolved host nowMs since answer →
        ∀ made ∈ warming.recorded.drop since, made.host = host →
          made.lapse config ≤ config.lapse nowMs answer.ttl
  | _ => True

def WarmActionInOrder (config : WarmerConfig) (warming : Warming Task)
    (action : WarmAction Task) : Prop :=
  action.Fits config ∧ RecordsInOrder config warming action

def startTimes (actions : List (WarmAction Task)) : List UInt64 :=
  actions.filterMap fun
    | .call _ _ nowMs => some nowMs
    | _ => none

/-- What the call read was stale already, or was recorded since. -/
def Unseen (config : WarmerConfig) (warming : Warming Task) (host : String) (nowMs : UInt64)
    (since : Nat) : Prop :=
  since ≤ warming.recorded.length ∧
    ∀ entry, warming.cache[host]? = some entry →
      entry.expiresAtMs ≤ nowMs ∨
        ∃ made ∈ warming.recorded.drop since, made.host = host ∧
          made.lapse config = entry.expiresAtMs.toNat

def WarmCall.Racing (config : WarmerConfig) (warming : Warming Task) : WarmCall → Prop
  | .called _ nowMs => Represents config nowMs
  | .resolving host nowMs since | .resolved host nowMs since _ =>
      Represents config nowMs ∧ Unseen config warming host nowMs since
  | .returned host nowMs _ (.ok _) => warming.cache.isWarm host nowMs = true
  | _ => True

structure Warming.Racing (config : WarmerConfig) (warming : Warming Task) : Prop where
  calls : ∀ task, (warming.calls task).Racing config warming
  outlived : ∀ made ∈ warming.recorded, ∃ entry, warming.cache[made.host]? = some entry ∧
    made.lapse config ≤ entry.expiresAtMs.toNat

section Expiry

variable {config : WarmerConfig} (sound : config.Sound) {nowMs expiresAtMs : UInt64}
  {ttl : Duration}

include sound

theorem WarmerConfig.Sound.toNat_expiresAt (represents : Represents config nowMs)
    (expires : config.expiresAt nowMs ttl = some expiresAtMs) :
    expiresAtMs.toNat = config.lapse nowMs ttl := by
  obtain ⟨clamped, other, isClamped, same, value, _, atMost⟩ := sound.expiresAt nowMs ttl
  rw [expires] at same
  cases same
  unfold Represents at represents
  rw [value, WarmerConfig.lapse, isClamped, Option.map_some, Option.getD_some]
  omega

theorem WarmerConfig.Sound.lt_lapse (positive : 1 ≤ config.minTtl.asMillis) (nowMs : UInt64)
    (ttl : Duration) : nowMs.toNat < config.lapse nowMs ttl := by
  obtain ⟨clamped, _, isClamped, _, _, atLeast, _⟩ := sound.expiresAt nowMs ttl
  rw [WarmerConfig.lapse, isClamped, Option.map_some, Option.getD_some]
  omega

end Expiry

section Steps

variable {config : WarmerConfig} {before after : Warming Task}

theorem WarmCall.Racing.congr {call : WarmCall} (racing : call.Racing config before)
    (sameCache : after.cache = before.cache) (sameRecorded : after.recorded = before.recorded) :
    call.Racing config after := by
  unfold WarmCall.Racing Unseen at *
  rw [sameCache, sameRecorded]
  exact racing

/-- An entry just recorded is no longer unseen by those that read earlier. -/
theorem Unseen.insert {host : String} {nowMs expiresAtMs : UInt64} {since : Nat}
    {made : Recording Task} (unseen : Unseen config before host nowMs since)
    (value : expiresAtMs.toNat = made.lapse config) :
    Unseen config (before.insert made expiresAtMs) host nowMs since := by
  have split : (before.recorded ++ [made]).drop since =
      before.recorded.drop since ++ [made] := List.drop_append_of_le_length unseen.1
  refine ⟨?_, ?_⟩
  · rw [Warming.insert, List.length_append]
    exact Nat.le_add_right_of_le unseen.1
  · intro entry found
    dsimp only [Warming.insert, Cache.record] at found ⊢
    rw [split]
    by_cases same : made.host = host
    · subst same
      rw [getElem?_insert_self] at found
      cases found
      exact Or.inr ⟨made, List.mem_append_right _ List.mem_cons_self, rfl, value.symm⟩
    · rw [getElem?_insert_of_ne _ _ same] at found
      rcases unseen.2 entry found with stale | ⟨other, isIn, sameHost, sameExpiry⟩
      · exact Or.inl stale
      · exact Or.inr ⟨other, List.mem_append_left _ isIn, sameHost, sameExpiry⟩

theorem WarmCall.Racing.insert {call : WarmCall} {made : Recording Task} {expiresAtMs : UInt64}
    (racing : call.Racing config before) (value : expiresAtMs.toNat = made.lapse config)
    (outlasts : Outlasts (·.expiresAtMs) before.cache
      (before.cache.record made.host made.resolved expiresAtMs)) :
    call.Racing config (before.insert made expiresAtMs) := by
  cases call with
  | idle => trivial
  | panicked => trivial
  | called host nowMs => exact racing
  | resolving host nowMs since => exact ⟨racing.1, racing.2.insert value⟩
  | resolved host nowMs since answer => exact ⟨racing.1, racing.2.insert value⟩
  | returned host nowMs since result =>
      cases result with
      | error e => trivial
      | ok held =>
          dsimp only [WarmCall.Racing] at racing ⊢
          rw [Cache.isWarm_eq] at racing ⊢
          exact outlasts.isSome_freshAt racing

theorem Warming.Racing.insert (racing : before.Racing config) {made : Recording Task}
    {expiresAtMs : UInt64} (value : expiresAtMs.toNat = made.lapse config)
    (outlasts : Outlasts (·.expiresAtMs) before.cache
      (before.cache.record made.host made.resolved expiresAtMs)) :
    (before.insert made expiresAtMs).Racing config where
  calls other := (racing.calls other).insert value outlasts
  outlived other isIn := by
    rcases List.mem_append.mp isIn with earlier | last
    · obtain ⟨entry, found, atMost⟩ := racing.outlived other earlier
      obtain ⟨later, present, notEarlier⟩ := outlasts other.host entry found
      exact ⟨later, present, atMost.trans (UInt64.le_iff_toNat_le.mp notEarlier)⟩
    · rw [List.mem_singleton.mp last]
      exact ⟨_, getElem?_insert_self .., Nat.le_of_eq value.symm⟩

section Sound

variable (sound : config.Sound)

include sound

/-- An insert keeps every expiry exactly if nothing recorded since the read
lapses later. -/
theorem Warming.Racing.record_outlasts_iff (positive : 1 ≤ config.minTtl.asMillis)
    (racing : before.Racing config) {task : Task} {host : String} {nowMs expiresAtMs : UInt64}
    {since : Nat} {answer : Resolved}
    (resolved : before.calls task = .resolved host nowMs since answer)
    (expires : config.expiresAt nowMs answer.ttl = some expiresAtMs) :
    Outlasts (·.expiresAtMs) before.cache (before.cache.record host answer expiresAtMs) ↔
      ∀ made ∈ before.recorded.drop since, made.host = host →
        made.lapse config ≤ config.lapse nowMs answer.ttl := by
  have stage := racing.calls task
  rw [resolved] at stage
  obtain ⟨represents, _, unseen⟩ := stage
  have value := sound.toNat_expiresAt represents expires
  rw [Cache.record, outlasts_insert_iff]
  refine ⟨?_, ?_⟩
  · intro outlasts made isIn sameHost
    obtain ⟨entry, found, atMost⟩ := racing.outlived made (List.mem_of_mem_drop isIn)
    rw [sameHost] at found
    have notEarlier := UInt64.le_iff_toNat_le.mp (outlasts entry found)
    dsimp only at notEarlier
    omega
  · intro inOrder entry found
    rw [UInt64.le_iff_toNat_le]
    dsimp only
    rcases unseen entry found with stale | ⟨made, isIn, sameHost, sameExpiry⟩
    · have expired := UInt64.le_iff_toNat_le.mp stale
      have later := sound.lt_lapse positive nowMs answer.ttl
      omega
    · have atMost := inOrder made isIn sameHost
      omega

end Sound

theorem Warming.start_racing : (Warming.start : Warming Task).Racing config where
  calls _ := trivial
  outlived made isIn := by cases isIn

theorem Warming.Racing.answer (racing : before.Racing config) (answered : List (Answer Task)) :
    { before with answered }.Racing config where
  calls task := (racing.calls task).congr rfl rfl
  outlived := racing.outlived

/-- A missed read has seen all there is. -/
theorem unseen_of_miss {host : String} {nowMs : UInt64}
    (stale : before.cache.fastPath host nowMs = none) :
    Unseen config before host nowMs before.recorded.length := by
  refine ⟨Nat.le_refl _, fun entry found => Or.inl ?_⟩
  rw [Cache.fastPath_eq_peek, Cache.peek_eq, Option.map_eq_none_iff,
    freshAt_eq_none_iff] at stale
  have notFresh := stale entry found
  rw [UInt64.lt_iff_toNat_lt] at notFresh
  rw [UInt64.le_iff_toNat_le]
  omega

variable [DecidableEq Task]

theorem Warming.Racing.setCall (racing : before.Racing config) {task : Task} {call : WarmCall}
    (isRacing : call.Racing config before) : (before.setCall task call).Racing config where
  calls := by
    have others : ∀ other, other ≠ task →
        (before.calls other).Racing config (before.setCall task call) :=
      fun other _ => (racing.calls other).congr rfl rfl
    exact (Function.forall_update_iff before.calls fun _ stage =>
      stage.Racing config (before.setCall task call)).mpr ⟨isRacing.congr rfl rfl, others⟩
  outlived := racing.outlived

variable (sound : config.Sound) (positive : 1 ≤ config.minTtl.asMillis)

include sound positive

/-- One step keeps every expiry exactly if it records in order, and then keeps
the invariant. -/
theorem Warming.Racing.step (racing : before.Racing config) {action : WarmAction Task}
    (fits : action.Fits config) (taken : warmStep config before action = some after) :
    (Outlasts (·.expiresAtMs) before.cache after.cache ↔
      RecordsInOrder config before action) ∧
    (Outlasts (·.expiresAtMs) before.cache after.cache → after.Racing config) := by
  have unchanged : Outlasts (·.expiresAtMs) before.cache before.cache := Outlasts.refl _
  cases warmStep_effect taken with
  | call task host nowMs ready =>
      exact ⟨iff_of_true unchanged trivial, fun _ => racing.setCall fits⟩
  | hit task host nowMs held called fresh =>
      refine ⟨iff_of_true unchanged trivial, fun _ => racing.setCall ?_⟩
      dsimp only [WarmCall.Racing]
      rw [Cache.isWarm_eq_isSome_peek, ← Cache.fastPath_eq_peek, fresh, Option.isSome_some]
  | miss task host nowMs called stale =>
      have represents := racing.calls task
      rw [called] at represents
      exact ⟨iff_of_true unchanged trivial,
        fun _ => racing.setCall ⟨represents, unseen_of_miss stale⟩⟩
  | fail task host nowMs since e resolving =>
      have answered := racing.answer (before.answered ++ [⟨task, host, nowMs, .error e⟩])
      refine ⟨iff_of_true unchanged trivial, fun _ => answered.setCall ?_⟩
      trivial
  | resolve task host nowMs since answer resolving =>
      have stage := racing.calls task
      rw [resolving] at stage
      have answered := racing.answer (before.answered ++ [⟨task, host, nowMs, .ok answer⟩])
      exact ⟨iff_of_true unchanged trivial, fun _ => answered.setCall stage⟩
  | panic task host nowMs since answer resolved empty =>
      obtain ⟨_, expiresAtMs, _, expires, _⟩ := sound.expiresAt nowMs answer.ttl
      rw [empty] at expires
      contradiction
  | record task host nowMs since answer expiresAtMs resolved expires =>
      have stage := racing.calls task
      rw [resolved] at stage
      have value := sound.toNat_expiresAt stage.1 expires
      have outlasts_iff := racing.record_outlasts_iff sound positive resolved expires
      refine ⟨outlasts_iff.trans ⟨?_, ?_⟩, ?_⟩
      · intro inOrder otherHost time mark held sameCall
        rw [resolved] at sameCall
        cases sameCall
        exact inOrder
      · exact fun inOrder => inOrder host nowMs since answer resolved
      · intro outlasts
        refine (racing.insert value outlasts).setCall ?_
        dsimp only [WarmCall.Racing, Warming.insert, Cache.record]
        rw [Cache.isWarm_eq, freshAt, getElem?_insert_self]
        have later := sound.lt_lapse positive nowMs answer.ttl
        have fresh : nowMs < expiresAtMs := UInt64.lt_iff_toNat_lt.mpr (by omega)
        simp [Option.filter, fresh]
  | evict nowMs => exact fits.elim

theorem reachable_racing
    (reached : Reach (warmStep config) (WarmActionInOrder config) Warming.start after) :
    after.Racing config := by
  apply reached.invariant (Warming.Racing config) Warming.start_racing
  intro before action after racing permitted taken
  obtain ⟨outlasts_iff, kept⟩ := racing.step sound positive permitted.1 taken
  exact kept (outlasts_iff.mpr permitted.2)

theorem Warming.Racing.outlasts (racing : before.Racing config)
    (later : Reach (warmStep config) (WarmActionInOrder config) before after) :
    Outlasts (·.expiresAtMs) before.cache after.cache := by
  have both : after.Racing config ∧ Outlasts (·.expiresAtMs) before.cache after.cache := by
    apply later.invariant
      fun state => state.Racing config ∧ Outlasts (·.expiresAtMs) before.cache state.cache
    · exact ⟨racing, Outlasts.refl _⟩
    · intro middle action last held permitted taken
      obtain ⟨outlasts_iff, kept⟩ := held.1.step sound positive permitted.1 taken
      have outlasts := outlasts_iff.mpr permitted.2
      exact ⟨kept outlasts, held.2.trans outlasts⟩
  exact both.2

end Steps

/-- While every insert is in order, expiries never fall back and a completed
warm stays one; the first insert out of order makes an expiry fall back. -/
theorem warms_never_unwarm_iff_recorded_in_order {Task : Type} [DecidableEq Task]
    (config : WarmerConfig) (positive : 1 ≤ config.minTtl.asMillis)
    (ordered : config.minTtl ≤ config.maxTtl) (bounded : config.maxTtl.asMillis < 2 ^ 64)
    (early : Warming Task)
    (reached : Reach (warmStep config) (WarmActionInOrder config) Warming.start early) :
    (∀ late, Reach (warmStep config) (WarmActionInOrder config) early late →
      Outlasts (·.expiresAtMs) early.cache late.cache ∧
      ∀ task host nowMs since answer,
        early.calls task = .returned host nowMs since (.ok answer) →
        late.cache.isWarm host nowMs = true) ∧
    ∀ action after, action.Fits config → warmStep config early action = some after →
      (Outlasts (·.expiresAtMs) early.cache after.cache ↔
        RecordsInOrder config early action) := by
  have sound : config.Sound := ⟨ordered, bounded⟩
  have racing := reachable_racing sound positive reached
  refine ⟨?_, fun action after fits taken => (racing.step sound positive fits taken).1⟩
  intro late later
  have outlasts := racing.outlasts sound positive later
  refine ⟨outlasts, ?_⟩
  intro task host nowMs since answer returned
  have warm := racing.calls task
  rw [returned] at warm
  dsimp only [WarmCall.Racing] at warm
  rw [Cache.isWarm_eq] at warm ⊢
  exact outlasts.isSome_freshAt warm

/-- A lookup that starts at 40 s is answered at once and lives for a minute. -/
def quickLookup : List (WarmAction Nat) :=
  [.call 0 "a.example" 0, .look 0, .call 1 "a.example" 40000, .look 1,
    .answer 1 (.ok ⟨[], ⟨60, 0⟩⟩), .record 1]

/-- The lookup from time 0 is answered only now. -/
def slowLookup : List (WarmAction Nat) := [.answer 0 (.ok ⟨[], ⟨30, 0⟩⟩), .record 0]

theorem quick_lookup_stays_warm :
    ∃ early : Warming Nat,
      runAll (warmStep WarmerConfig.standard) Warming.start quickLookup = some early ∧
      early.cache.isWarm "a.example" 40000 = true := by
  obtain ⟨early, ran⟩ : ∃ early,
      runAll (warmStep WarmerConfig.standard) Warming.start quickLookup = some early :=
    ⟨_, rfl⟩
  have reached : Reach (warmStep WarmerConfig.standard)
      (WarmActionInOrder WarmerConfig.standard) Warming.start early := by
    apply reach_of_along ran
    refine ⟨⟨by decide, trivial⟩, fun _ taken => ?_⟩
    cases Option.some.inj taken
    refine ⟨⟨trivial, trivial⟩, fun _ taken => ?_⟩
    cases Option.some.inj taken
    refine ⟨⟨by decide, trivial⟩, fun _ taken => ?_⟩
    cases Option.some.inj taken
    refine ⟨⟨trivial, trivial⟩, fun _ taken => ?_⟩
    cases Option.some.inj taken
    refine ⟨⟨trivial, trivial⟩, fun _ taken => ?_⟩
    cases Option.some.inj taken
    refine ⟨⟨trivial, ?_⟩, fun _ _ => trivial⟩
    intro host nowMs since answer resolved made isIn
    cases List.mem_of_mem_drop isIn
  have returned : early.calls 1 = .returned "a.example" 40000 1 (.ok ⟨[], ⟨60, 0⟩⟩) := by
    rw [← Option.some.inj ran]
    rfl
  have stays := warms_never_unwarm_iff_recorded_in_order WarmerConfig.standard (by decide)
    (by decide) (by decide) early reached
  exact ⟨early, ran, (stays.1 early Relation.ReflTransGen.refl).2 _ _ _ _ _ returned⟩

theorem slow_lookup_unwarms :
    ¬ ∀ (config : WarmerConfig) (first second : List (WarmAction Nat))
        (early late : Warming Nat),
      1 ≤ config.minTtl.asMillis → config.minTtl ≤ config.maxTtl →
      config.maxTtl.asMillis < 2 ^ 64 →
      (startTimes (first ++ second)).Pairwise (· ≤ ·) →
      (∀ action ∈ first ++ second, action.Fits config) →
      runAll (warmStep config) Warming.start first = some early →
      runAll (warmStep config) early second = some late →
      Outlasts (·.expiresAtMs) early.cache late.cache ∧
        ∀ task host nowMs since answer,
          early.calls task = .returned host nowMs since (.ok answer) →
          late.cache.isWarm host nowMs = true := by
  intro neverUnwarms
  obtain ⟨early, ranFirst⟩ : ∃ early,
      runAll (warmStep WarmerConfig.standard) Warming.start quickLookup = some early :=
    ⟨_, rfl⟩
  obtain ⟨late, ranSecond⟩ : ∃ late,
      runAll (warmStep WarmerConfig.standard) early slowLookup = some late := by
    rw [← Option.some.inj ranFirst]
    exact ⟨_, rfl⟩
  have inOrder : (startTimes (quickLookup ++ slowLookup)).Pairwise (· ≤ ·) := by decide
  have fits : ∀ action ∈ quickLookup ++ slowLookup, action.Fits WarmerConfig.standard := by
    decide
  have returned : early.calls 1 = .returned "a.example" 40000 1 (.ok ⟨[], ⟨60, 0⟩⟩) := by
    rw [← Option.some.inj ranFirst]
    rfl
  have warm := (neverUnwarms WarmerConfig.standard quickLookup slowLookup early late (by decide)
    (by decide) (by decide) inOrder fits ranFirst ranSecond).2 _ _ _ _ _ returned
  have cold : late.cache.isWarm "a.example" 40000 = false := by
    rw [← Option.some.inj ranFirst] at ranSecond
    rw [← Option.some.inj ranSecond]
    decide
  rw [warm] at cold
  contradiction

end RealityHydra.DnsWarmer
