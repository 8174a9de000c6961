import RealityHydra.HydraServer.HeaderLoop
import RealityHydra.TunnelProto.RoundTrip

/-!
# The clock stays hidden from who holds no key

Freshness is checked only behind a tag that verified.  Two runs of `handle` on
a stream with no such header therefore go through the same events, whatever
their clocks read.
-/

set_option autoImplicit false

namespace RealityHydra.HydraServer

open RealityHydra.Lib.ByteCodec
open RealityHydra.Lib.StagedDecoder
open RealityHydra.Primitives
open RealityHydra.TunnelProto

/-- `stream` begins with a well-formed header whose tag verifies under `key`,
at whatever time it was made. -/
def BeginsAuthentic (hmac : HmacSha256) (key stream : Bytes) : Prop :=
  ∃ (timestamp : UInt64) (target : Target) (tag rest : Bytes),
    target.DomainFits ∧
      stream = signedBytes timestamp target ++ (tag ++ rest) ∧
      verifyMac hmac key (signedBytes timestamp target) tag = .ok ()

theorem BeginsAuthentic.append {hmac : HmacSha256} {key buf : Bytes}
    (begins : BeginsAuthentic hmac key buf) (more : Bytes) :
    BeginsAuthentic hmac key (buf ++ more) := by
  obtain ⟨timestamp, target, tag, rest, fits, same, verified⟩ := begins
  refine ⟨timestamp, target, tag, rest ++ more, fits, ?_, verified⟩
  rw [same]
  simp only [List.append_assoc]

theorem checkFresh_own_clock (request : ParsedRequest) :
    checkFresh request.timestamp 0 request = .ok request := by
  apply (checkFresh_ok_iff _ _ _ _).mpr ⟨rfl, ?_⟩
  simp

/-- Such a stream is one the parser accepts at some clock. -/
theorem beginsAuthentic_iff_accepted (hmac : HmacSha256) (key stream : Bytes) :
    BeginsAuthentic hmac key stream ↔
      ∃ now request, parseRequest hmac stream key now 0 = .ok request := by
  constructor
  · intro begins
    obtain ⟨timestamp, target, tag, rest, fits, same, verified⟩ := begins
    have width : tag.length = macLen := by
      rw [verifyMac_ok verified, Vector.length_toList]
    refine ⟨timestamp, ⟨target, timestamp,
      (signedBytes timestamp target).length + macLen⟩, ?_⟩
    rw [same, parseRequest_tagged hmac key tag rest timestamp timestamp 0 target
      fits width, verified]
    exact checkFresh_own_clock ⟨target, timestamp, _⟩
  · intro isAccepted
    obtain ⟨now, request, accepted⟩ := isAccepted
    obtain ⟨⟨rest, encoded⟩, _, fits, _⟩ := parseRequest_sound _ _ _ _ _ _ accepted
    refine ⟨request.timestamp, request.target,
      (mac hmac key (signedBytes request.timestamp request.target)).toList,
      rest, fits, ?_, if_pos rfl⟩
    rw [encoded, encodeRequest, List.append_assoc]

theorem beginsAuthentic_of_verified {hmac : HmacSha256} {key buf : Bytes}
    {header : Unverified} (ran : headerDecoder.run buf = .ok (.ok header))
    (verified : verifyMac hmac key header.signed header.tag = .ok ()) :
    BeginsAuthentic hmac key buf := by
  apply (beginsAuthentic_iff_accepted hmac key buf).mpr
  refine ⟨header.request.timestamp, header.request, ?_⟩
  rw [parseRequest_eq_run, ran]
  simp only [stagedResult, Except.bind, verifyHeader, verified, bind,
    checkFresh_own_clock]

/-- Without a verifying header the parser's answer is one error, at any clock. -/
theorem parseRequest_unauthentic (hmac : HmacSha256) (buf key : Bytes)
    (maxSkew : UInt64) (foreign : ¬ BeginsAuthentic hmac key buf) :
    ∃ error, ∀ now, parseRequest hmac buf key now maxSkew = .error error := by
  cases ran : headerDecoder.run buf with
  | error missing =>
      refine ⟨.truncated missing, ?_⟩
      intro now
      rw [parseRequest_eq_run, ran]
      rfl
  | ok answer =>
      cases answer with
      | error rejected =>
          refine ⟨rejected, ?_⟩
          intro now
          rw [parseRequest_eq_run, ran]
          rfl
      | ok header =>
          refine ⟨.badMac, ?_⟩
          intro now
          have unverified : verifyMac hmac key header.signed header.tag =
              .error .badMac := by
            apply if_neg
            intro same
            exact foreign (beginsAuthentic_of_verified ran (if_pos same))
          rw [parseRequest_eq_run, ran]
          simp only [stagedResult, Except.bind, verifyHeader, unverified, bind]

/-! ## Two runs -/

theorem passEvents_unauthentic (env : ServerEnv) (now other : UInt64)
    (buf : Bytes) (later : List Bytes) (onward : List Event)
    (foreign : ¬ BeginsAuthentic env.hmac env.key buf) :
    passEvents env now buf later onward = passEvents env other buf later onward := by
  obtain ⟨error, answer⟩ :=
    parseRequest_unauthentic env.hmac buf env.key env.maxSkew foreign
  unfold passEvents
  rw [answer now, answer other]

theorem loopEvents_unauthentic (env : ServerEnv) (clock other : Nat → UInt64)
    (closed : Bool) (reads : List Bytes) (index : Nat) (buf : Bytes)
    (foreign : ¬ BeginsAuthentic env.hmac env.key (buf ++ reads.flatten)) :
    loopEvents env clock closed index buf reads =
      loopEvents env other closed index buf reads := by
  have here : ¬ BeginsAuthentic env.hmac env.key buf :=
    fun begins => foreign (begins.append _)
  induction reads generalizing index buf with
  | nil => exact passEvents_unauthentic env _ _ buf _ _ here
  | cons chunk rest ih =>
      rw [List.flatten_cons, ← List.append_assoc] at foreign
      have next : ¬ BeginsAuthentic env.hmac env.key (buf ++ chunk) :=
        fun begins => foreign (begins.append _)
      rw [loopEvents, loopEvents, ih _ _ foreign next]
      exact passEvents_unauthentic env _ _ buf _ _ here

theorem passEvents_no_dial (env : ServerEnv) (now : UInt64) (buf : Bytes)
    (later : List Bytes) (onward : List Event)
    (foreign : ¬ BeginsAuthentic env.hmac env.key buf)
    (next : ∀ dest, .dials dest ∉ onward) :
    ∀ dest, .dials dest ∉ passEvents env now buf later onward := by
  obtain ⟨error, answer⟩ :=
    parseRequest_unauthentic env.hmac buf env.key env.maxSkew foreign
  intro dest
  unfold passEvents
  rw [answer now]
  cases error with
  | truncated needed =>
      dsimp only
      split
      · simp
      · simpa using next dest
  | _ => simp

theorem loopEvents_no_dial (env : ServerEnv) (clock : Nat → UInt64)
    (closed : Bool) (reads : List Bytes) (index : Nat) (buf : Bytes)
    (foreign : ¬ BeginsAuthentic env.hmac env.key (buf ++ reads.flatten)) :
    ∀ dest, .dials dest ∉ loopEvents env clock closed index buf reads := by
  induction reads generalizing index buf with
  | nil =>
      rw [List.flatten_nil, List.append_nil] at foreign
      apply passEvents_no_dial env _ buf _ _ foreign
      intro dest
      cases closed <;> simp
  | cons chunk rest ih =>
      have here : ¬ BeginsAuthentic env.hmac env.key buf :=
        fun begins => foreign (begins.append _)
      apply passEvents_no_dial env _ buf _ _ here
      apply ih
      simpa only [List.flatten_cons, List.append_assoc] using foreign

/-- A peer that sends no verifying header sees the same run whatever the server
clock reads: every event is the same, nothing is dialled, and every prefix of
the stream gets the same error. -/
theorem unauthenticated_peer_learns_no_clock (env : ServerEnv)
    (reads : List Bytes) (closed : Bool) (clock other : Nat → UInt64)
    (foreign : ¬ BeginsAuthentic env.hmac env.key reads.flatten) :
    handleEvents env clock reads closed = handleEvents env other reads closed ∧
      handle env clock reads closed = handle env other reads closed ∧
      (∀ dest, .dials dest ∉ handleEvents env clock reads closed) ∧
      (handle env clock reads closed).dialled = [] ∧
      ∀ seen, seen <+: reads.flatten → ∃ error, ∀ now,
        parseRequest env.hmac seen env.key now env.maxSkew = .error error := by
  have sameEvents : handleEvents env clock reads closed =
      handleEvents env other reads closed :=
    loopEvents_unauthentic env clock other closed reads 0 [] foreign
  refine ⟨sameEvents, ?_, loopEvents_no_dial env clock closed reads 0 [] foreign, ?_, ?_⟩
  · rw [handle_eq_replay, handle_eq_replay, sameEvents]
  · obtain ⟨error, answer⟩ :=
      parseRequest_unauthentic env.hmac reads.flatten env.key env.maxSkew foreign
    rw [handle_eq_outcome, answer]
    cases error <;> rfl
  · intro seen isPrefix
    obtain ⟨rest, whole⟩ := isPrefix
    apply parseRequest_unauthentic
    intro begins
    rw [← whole] at foreign
    exact foreign (begins.append rest)

/-- A header forged under another tag is foreign to this exit node, so its two
runs agree at the clocks 0 and 1000. -/
theorem forged_header_learns_no_clock :
    let env : ServerEnv :=
      { hmac := fun _ _ => Vector.replicate 32 1, key := [7], maxSkew := 30,
        dial := fun _ => .ok () }
    let forged := signedBytes 1000 ⟨.v4 #v[10, 0, 0, 1], 443⟩ ++
      List.replicate 32 0
    handleEvents env (fun _ => 0) [forged] true =
      handleEvents env (fun _ => 1000) [forged] true := by
  intro env forged
  refine (unauthenticated_peer_learns_no_clock env [forged] true (fun _ => 0)
    (fun _ => 1000) ?_).1
  intro begins
  obtain ⟨now, request, accepted⟩ :=
    (beginsAuthentic_iff_accepted _ _ _).mp begins
  have unverified : verifyMac env.hmac env.key
      (signedBytes 1000 ⟨.v4 #v[10, 0, 0, 1], 443⟩) (List.replicate 32 0) =
      .error .badMac := if_neg (by decide)
  have refused := parseRequest_tagged env.hmac env.key (List.replicate 32 0) []
    1000 now 0 ⟨.v4 #v[10, 0, 0, 1], 443⟩ nofun (List.length_replicate ..)
  rw [unverified, List.append_nil] at refused
  rw [List.flatten_singleton, refused] at accepted
  contradiction

end RealityHydra.HydraServer
