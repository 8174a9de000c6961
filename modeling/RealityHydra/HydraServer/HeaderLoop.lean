import RealityHydra.HydraServer.Handle

/-!
# What the header loop holds, and for how long

`handle` once more, as the events it goes through in order: every buffer it
parses, every buffer it holds when it reads again, and what it writes, dials,
forwards and drops.  Replaying the events gives the connection `handle` leaves.
The count a truncated header reports then bounds what the loop holds and how
often it reads.
-/

set_option autoImplicit false

namespace RealityHydra.HydraServer

open RealityHydra.Lib.ByteCodec
open RealityHydra.Lib.StagedDecoder
open RealityHydra.Primitives
open RealityHydra.TunnelProto

inductive Event where
  /-- `parse_request` is called on this buffer. -/
  | tries (held : Bytes)
  /-- `inbound.read` is called with this buffer held. -/
  | awaits (held : Bytes)
  | writes (sent : Bytes)
  | dials (dest : String)
  | forwards (payload : Bytes)
  | relays
  | drops (error : ServerError)
  deriving DecidableEq, Repr

def headerTooLong : ServerError := ⟨"header exceeded maximum length"⟩

def closedEarly : ServerError :=
  ⟨"connection closed before a full header arrived"⟩

/-- From the dial on; `later` are the reads the relay still takes. -/
def serveEvents (env : ServerEnv) (buf : Bytes) (parsed : ParsedRequest)
    (later : List Bytes) : List Event :=
  let dest := parsed.target.display
  let leftover := buf.drop parsed.consumed
  .dials dest ::
    match env.dial dest with
    | .ok _ =>
        .writes [Reply.ok] ::
          ((if leftover = [] then [] else [.forwards leftover]) ++
            .relays :: later.map .forwards)
    | .error text =>
        [.writes [Reply.dialFail],
          .drops ⟨"dial " ++ dest ++ " failed: " ++ text⟩]

/-- One pass of the loop; `onward` is what follows its read. -/
def passEvents (env : ServerEnv) (now : UInt64) (buf : Bytes)
    (later : List Bytes) (onward : List Event) : List Event :=
  .tries buf ::
    match parseRequest env.hmac buf env.key now env.maxSkew with
    | .ok parsed => serveEvents env buf parsed later
    | .error (.truncated _) =>
        if maxHeader ≤ buf.length then [.drops headerTooLong]
        else .awaits buf :: onward
    | .error rejected =>
        [.writes [Reply.authFail],
          .drops ⟨"rejected header: " ++ rejected.message⟩]

def loopEvents (env : ServerEnv) (clock : Nat → UInt64) (closed : Bool) :
    Nat → Bytes → List Bytes → List Event
  | index, buf, [] =>
      passEvents env (clock index) buf []
        (if closed then [.drops closedEarly] else [])
  | index, buf, chunk :: rest =>
      passEvents env (clock index) buf (chunk :: rest)
        (loopEvents env clock closed (index + 1) (buf ++ chunk) rest)

/-- The events of `handle` on the reads its client stream is cut into. -/
def handleEvents (env : ServerEnv) (clock : Nat → UInt64) (reads : List Bytes)
    (closed : Bool) : List Event :=
  loopEvents env clock closed 0 [] reads

/-! ## Replaying the events -/

def Conn.after (conn : Conn) : Event → Conn
  | .tries _ => conn
  | .awaits held => { conn with phase := .reading held }
  | .writes sent => { conn with written := conn.written ++ sent }
  | .dials dest => { conn with dialled := conn.dialled ++ [dest] }
  | .forwards payload => { conn with delivered := conn.delivered ++ payload }
  | .relays => { conn with phase := .relaying }
  | .drops error => { conn with phase := .failed error }

/-- A connection that has done nothing but read. -/
def Conn.holding (held : Bytes) : Conn :=
  { phase := .reading held, written := [], dialled := [], delivered := [] }

theorem replay_forwards (conn : Conn) (later : List Bytes) :
    (later.map Event.forwards).foldl Conn.after conn =
      { conn with delivered := conn.delivered ++ later.flatten } := by
  induction later generalizing conn with
  | nil => simp
  | cons chunk rest ih =>
      simp only [List.map_cons, List.foldl_cons, Conn.after]
      rw [ih]
      simp

theorem replay_serve (env : ServerEnv) (held buf : Bytes)
    (parsed : ParsedRequest) (later : List Bytes) :
    (serveEvents env buf parsed later).foldl Conn.after (.holding held) =
      forward (outcome env buf false (.ok parsed)) later.flatten := by
  unfold serveEvents outcome
  cases dialled : env.dial parsed.target.display with
  | error text => simp [dialled, Conn.after, Conn.holding, forward]
  | ok _ =>
      dsimp only
      by_cases nothing : buf.drop parsed.consumed = []
      · rw [if_pos nothing, nothing]
        simp [dialled, replay_forwards, Conn.after, Conn.holding, forward]
      · rw [if_neg nothing]
        simp [dialled, replay_forwards, Conn.after, Conn.holding, forward]

/-- A pass whose parse asks for more reads again. -/
theorem passEvents_truncated (env : ServerEnv) (now : UInt64) (buf : Bytes)
    (later : List Bytes) (onward : List Event) {missing : Nat}
    (asked : headerDecoder.run buf = .error missing) :
    passEvents env now buf later onward = .tries buf :: .awaits buf :: onward := by
  have truncated := (parseRequest_truncated_iff env.hmac buf env.key now
    env.maxSkew missing).mpr asked
  have notFull := truncated_not_full _ _ _ _ _ _ truncated
  simp only [passEvents, truncated, if_neg notFull]

/-- A pass whose parse decides leaves what the attempt and a relay of the later
reads leave, whatever it would have read next. -/
theorem replay_decided (env : ServerEnv) (now : UInt64) (held buf : Bytes)
    (later : List Bytes) (onward : List Event)
    {answer : Except ProtoError Unverified}
    (decided : headerDecoder.run buf = .ok answer) :
    (passEvents env now buf later onward).foldl Conn.after (.holding held) =
      forward (attempt env now buf) later.flatten := by
  have notTruncated := decided_notTruncated env now buf decided
  rw [attempt_eq_outcome]
  unfold passEvents
  cases result : parseRequest env.hmac buf env.key now env.maxSkew with
  | ok parsed => exact replay_serve env held buf parsed later
  | error rejected =>
      cases rejected with
      | truncated needed => exact absurd result (notTruncated needed)
      | _ => rfl

theorem onEof_forward_decided (conn : Conn) (more : Bytes)
    (decided : ∀ buf, conn.phase ≠ .reading buf) :
    onEof (forward conn more) = forward conn more := by
  obtain ⟨phase, written, dialled, delivered⟩ := conn
  cases phase with
  | reading buf => exact absurd rfl (decided buf)
  | relaying => rfl
  | failed error => rfl

theorem replay_pass_decided (env : ServerEnv) (clock : Nat → UInt64) (closed : Bool)
    (index : Nat) (held buf : Bytes) (later : List Bytes) (onward : List Event)
    {answer : Except ProtoError Unverified}
    (ran : headerDecoder.run buf = .ok answer) :
    (passEvents env (clock index) buf later onward).foldl Conn.after (.holding held) =
      let conn := runReads env clock (index + 1) later (attempt env (clock index) buf)
      if closed then onEof conn else conn := by
  obtain ⟨decided, _⟩ := attempt_append env (clock index) buf []
    (decided_notTruncated env (clock index) buf ran)
  rw [replay_decided env _ held buf _ _ ran]
  dsimp only
  rw [runReads_decided env clock _ _ _ decided, onEof_forward_decided _ _ decided, ite_self]

theorem replay_loop (env : ServerEnv) (clock : Nat → UInt64) (closed : Bool)
    (reads : List Bytes) (index : Nat) (held buf : Bytes) :
    (loopEvents env clock closed index buf reads).foldl Conn.after (.holding held) =
      let conn := runReads env clock (index + 1) reads (attempt env (clock index) buf)
      if closed then onEof conn else conn := by
  induction reads generalizing index held buf with
  | nil =>
      cases ran : headerDecoder.run buf with
      | error missing =>
          rw [loopEvents, passEvents_truncated _ _ _ _ _ ran,
            attempt_truncated env (clock index) buf ran]
          cases closed <;> rfl
      | ok answer => exact replay_pass_decided env clock closed index held buf [] _ ran
  | cons chunk rest ih =>
      cases ran : headerDecoder.run buf with
      | error missing =>
          rw [loopEvents, passEvents_truncated _ _ _ _ _ ran,
            attempt_truncated env (clock index) buf ran]
          exact ih (index + 1) buf (buf ++ chunk)
      | ok answer => exact replay_pass_decided env clock closed index held buf _ _ ran

/-- The events are those of `handle`. -/
theorem handle_eq_replay (env : ServerEnv) (clock : Nat → UInt64)
    (reads : List Bytes) (closed : Bool) :
    handle env clock reads closed =
      (handleEvents env clock reads closed).foldl Conn.after (.holding []) := by
  rw [handleEvents, replay_loop]
  rfl

/-! ## What the loop may hold -/

/-- The buffers held at the reads, in order. -/
def awaited (events : List Event) : List Bytes :=
  events.filterMap fun
    | .awaits held => some held
    | _ => none

/-- Each read returns at least one byte and at most what `tmp` holds. -/
def Segmented (reads : List Bytes) : Prop :=
  ∀ chunk ∈ reads, 1 ≤ chunk.length ∧ chunk.length ≤ maxHeader

def Event.Bounded : Event → Prop
  | .tries held => held.length < longestHeader + maxHeader
  | .awaits held => held.length < longestHeader
  | .drops error => error ≠ headerTooLong
  | _ => True

theorem Segmented.head {chunk : Bytes} {rest : List Bytes}
    (cut : Segmented (chunk :: rest)) :
    1 ≤ chunk.length ∧ chunk.length ≤ maxHeader :=
  cut chunk List.mem_cons_self

theorem Segmented.tail {chunk : Bytes} {rest : List Bytes}
    (cut : Segmented (chunk :: rest)) : Segmented rest :=
  fun later member => cut later (List.mem_cons_of_mem chunk member)

/-- No other failure of the handler reads like the one of a full buffer. -/
theorem other_drops_ne (text : String) :
    (⟨"dial " ++ text⟩ : ServerError) ≠ headerTooLong ∧
      (⟨"rejected header: " ++ text⟩ : ServerError) ≠ headerTooLong := by
  constructor
  · intro same
    have chars := congrArg (fun error => error.text.toList.head?) same
    simp [headerTooLong] at chars
  · intro same
    have chars := congrArg (fun error => error.text.toList.head?) same
    simp [headerTooLong] at chars

theorem undecided_lt {buf : Bytes} {missing : Nat}
    (asked : headerDecoder.run buf = .error missing) : buf.length < longestHeader := by
  have positive := headerDecoder.missing_pos buf asked
  have bound := headerDecoder_sound.asked_le buf asked
  omega

/-- From the dial on no buffer is parsed or held, and only a failed dial drops. -/
inductive Event.Serves : Event → Prop where
  | dials (dest : String) : Serves (.dials dest)
  | writes (sent : Bytes) : Serves (.writes sent)
  | forwards (payload : Bytes) : Serves (.forwards payload)
  | relays : Serves .relays
  | drops (text : String) : Serves (.drops ⟨"dial " ++ text⟩)

theorem serveEvents_serves (env : ServerEnv) (buf : Bytes)
    (parsed : ParsedRequest) (later : List Bytes) :
    ∀ event ∈ serveEvents env buf parsed later, event.Serves := by
  unfold serveEvents
  dsimp only
  rw [List.forall_mem_cons]
  refine ⟨.dials _, ?_⟩
  split
  · rw [List.forall_mem_cons, List.forall_mem_append, List.forall_mem_cons]
    refine ⟨.writes _, ?_, .relays, ?_⟩
    · split
      · nofun
      · rw [List.forall_mem_singleton]
        exact .forwards _
    · intro event member
      obtain ⟨chunk, _, rfl⟩ := List.mem_map.mp member
      exact .forwards chunk
  · rename_i text _
    rw [List.forall_mem_cons, List.forall_mem_singleton, String.append_assoc,
      String.append_assoc]
    exact ⟨.writes _, .drops _⟩

theorem Event.Serves.bounded {event : Event} (serves : event.Serves) : event.Bounded := by
  cases serves with
  | drops text => exact (other_drops_ne text).1
  | _ => trivial

/-- One pass: an undecided buffer is short of a header, and a decided one ends
the loop. -/
theorem passEvents_bounded (env : ServerEnv) (now : UInt64) (buf : Bytes)
    (later : List Bytes) (onward : List Event)
    (held : buf.length < longestHeader + maxHeader)
    (next : buf.length < longestHeader → ∀ event ∈ onward, event.Bounded) :
    ∀ event ∈ passEvents env now buf later onward, event.Bounded := by
  cases ran : headerDecoder.run buf with
  | error missing =>
      have short := undecided_lt ran
      rw [passEvents_truncated _ _ _ _ _ ran, List.forall_mem_cons,
        List.forall_mem_cons]
      exact ⟨held, short, next short⟩
  | ok answer =>
      have decided := decided_notTruncated env now buf ran
      rw [passEvents, List.forall_mem_cons]
      refine ⟨held, ?_⟩
      cases result : parseRequest env.hmac buf env.key now env.maxSkew with
      | ok parsed =>
          intro event member
          exact (serveEvents_serves env buf parsed later event member).bounded
      | error rejected =>
          cases rejected with
          | truncated needed => exact absurd result (decided needed)
          | _ =>
              rw [List.forall_mem_cons, List.forall_mem_singleton]
              exact ⟨trivial, (other_drops_ne _).2⟩

theorem loopEvents_bounded (env : ServerEnv) (clock : Nat → UInt64)
    (closed : Bool) (reads : List Bytes) (index : Nat) (buf : Bytes)
    (cut : Segmented reads) (held : buf.length < longestHeader + maxHeader) :
    ∀ event ∈ loopEvents env clock closed index buf reads, event.Bounded := by
  induction reads generalizing index buf with
  | nil =>
      apply passEvents_bounded _ _ _ _ _ held
      intro _
      split
      · rw [List.forall_mem_singleton]
        simp [Event.Bounded, closedEarly, headerTooLong]
      · nofun
  | cons chunk rest ih =>
      apply passEvents_bounded _ _ _ _ _ held
      intro short
      apply ih _ _ cut.tail
      have fits := cut.head.2
      rw [List.length_append]
      omega

theorem awaited_serve (env : ServerEnv) (buf : Bytes) (parsed : ParsedRequest)
    (later : List Bytes) : awaited (serveEvents env buf parsed later) = [] := by
  apply List.filterMap_eq_nil_iff.mpr
  intro event member
  cases serveEvents_serves env buf parsed later event member <;> rfl

theorem awaited_decided (env : ServerEnv) (now : UInt64) (buf : Bytes)
    (later : List Bytes) (onward : List Event)
    {answer : Except ProtoError Unverified}
    (ran : headerDecoder.run buf = .ok answer) :
    awaited (passEvents env now buf later onward) = [] := by
  have decided := decided_notTruncated env now buf ran
  unfold passEvents
  cases result : parseRequest env.hmac buf env.key now env.maxSkew with
  | ok parsed => exact awaited_serve env buf parsed later
  | error rejected =>
      cases rejected with
      | truncated needed => exact absurd result (decided needed)
      | _ => rfl

theorem awaited_truncated (env : ServerEnv) (now : UInt64) (buf : Bytes)
    (later : List Bytes) (onward : List Event) {missing : Nat}
    (asked : headerDecoder.run buf = .error missing) :
    awaited (passEvents env now buf later onward) = buf :: awaited onward := by
  rw [passEvents_truncated _ _ _ _ _ asked]
  rfl

/-- Every read that leaves the loop undecided adds a byte to fewer than a
header's, so the loop reads at most once for each byte still missing. -/
theorem awaited_le (env : ServerEnv) (clock : Nat → UInt64) (closed : Bool)
    (reads : List Bytes) (index : Nat) (buf : Bytes) (cut : Segmented reads) :
    (awaited (loopEvents env clock closed index buf reads)).length ≤
      longestHeader - buf.length := by
  induction reads generalizing index buf with
  | nil =>
      rw [loopEvents]
      cases ran : headerDecoder.run buf with
      | ok answer =>
          rw [awaited_decided _ _ _ _ _ ran]
          exact Nat.zero_le _
      | error missing =>
          have short := undecided_lt ran
          have last : awaited (if closed then [.drops closedEarly] else []) = [] := by
            cases closed <;> rfl
          rw [awaited_truncated _ _ _ _ _ ran, last, List.length_singleton]
          omega
  | cons chunk rest ih =>
      rw [loopEvents]
      cases ran : headerDecoder.run buf with
      | ok answer =>
          rw [awaited_decided _ _ _ _ _ ran]
          exact Nat.zero_le _
      | error missing =>
          have short := undecided_lt ran
          have later := ih (index + 1) (buf ++ chunk) cut.tail
          have grown := cut.head.1
          rw [List.length_append] at later
          rw [awaited_truncated _ _ _ _ _ ran, List.length_cons]
          omega

theorem handleEvents_bounded (env : ServerEnv) (clock : Nat → UInt64)
    (reads : List Bytes) (closed : Bool) (cut : Segmented reads) :
    ∀ event ∈ handleEvents env clock reads closed, event.Bounded :=
  loopEvents_bounded env clock closed reads 0 [] cut (by decide)

/-- The count a truncated header reports is exact, and because no count leads
past the longest header the loop reads only while it holds fewer bytes than
that, once for each at most; its own limit is never reached. -/
theorem truncated_bounds_buffering :
    (∀ (hmac : HmacSha256) (buf key : Bytes) (now maxSkew : UInt64) (needed : Nat),
      parseRequest hmac buf key now maxSkew = .error (.truncated needed) →
      1 ≤ needed ∧ buf.length + needed ≤ 298 ∧
        ∀ more : Bytes, more.length < needed →
          parseRequest hmac (buf ++ more) key now maxSkew =
            .error (.truncated (needed - more.length))) ∧
    (∀ (hmac : HmacSha256) (buf key : Bytes) (now maxSkew : UInt64) (needed : Nat),
      298 ≤ buf.length →
      parseRequest hmac buf key now maxSkew ≠ .error (.truncated needed)) ∧
    (∀ (env : ServerEnv) (clock : Nat → UInt64) (reads : List Bytes) (closed : Bool),
      (∀ chunk ∈ reads, 1 ≤ chunk.length ∧ chunk.length ≤ 512) →
      (∀ held, .awaits held ∈ handleEvents env clock reads closed →
        held.length ≤ 297) ∧
      (∀ held, .tries held ∈ handleEvents env clock reads closed →
        held.length ≤ 297 + 512) ∧
      (awaited (handleEvents env clock reads closed)).length ≤ 298 ∧
      .drops headerTooLong ∉ handleEvents env clock reads closed) := by
  refine ⟨parseRequest_truncated_exact, ?_, ?_⟩
  · intro hmac buf key now maxSkew needed long truncated
    have short := truncated_length_lt hmac buf key now maxSkew needed truncated
    simp only [longestHeader] at short
    omega
  · intro env clock reads closed cut
    have bounded := handleEvents_bounded env clock reads closed cut
    refine ⟨?_, ?_, ?_, ?_⟩
    · intro held member
      exact Nat.le_of_lt_succ (bounded _ member)
    · intro held member
      exact Nat.le_of_lt_succ (bounded _ member)
    · exact awaited_le env clock closed reads 0 [] cut
    · intro member
      exact bounded _ member rfl

end RealityHydra.HydraServer
