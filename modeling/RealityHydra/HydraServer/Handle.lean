import RealityHydra.TunnelProto.RoundTrip

/-!
# The exit node's connection handler

`handle` reads until a header parses, dials the named destination, answers with
one byte and relays.  It is cut here at its reads: `attempt` is everything
between two reads of the header loop, and `onRead` resumes it with the bytes a
read returned.  Writing to either socket is assumed to succeed.
-/

set_option autoImplicit false

namespace RealityHydra.HydraServer

open RealityHydra.Lib.ByteCodec
open RealityHydra.Lib.StagedDecoder
open RealityHydra.Primitives
open RealityHydra.TunnelProto

/-- The largest CONNECT header the server will buffer, and the size of one read. -/
def maxHeader : Nat := 512

structure ServerError where
  text : String
  deriving DecidableEq, Repr

inductive Phase where
  | reading (buf : Bytes)
  | relaying
  | failed (error : ServerError)
  deriving DecidableEq, Repr

structure Conn where
  phase : Phase
  written : Bytes
  dialled : List String
  delivered : Bytes
  deriving DecidableEq, Repr

/-- What a connection is handled with; `dial` is what connecting to an address
string leads to, with the text of its I/O error. -/
structure ServerEnv where
  hmac : HmacSha256
  key : Bytes
  maxSkew : UInt64
  dial : String → Except String Unit

def attempt (env : ServerEnv) (now : UInt64) (buf : Bytes) : Conn :=
  match parseRequest env.hmac buf env.key now env.maxSkew with
  | .ok parsed =>
      let dest := parsed.target.display
      match env.dial dest with
      | .ok _ =>
          -- the bytes read past the header are forwarded first
          { phase := .relaying, written := [Reply.ok], dialled := [dest],
            delivered := buf.drop parsed.consumed }
      | .error text =>
          { phase := .failed ⟨"dial " ++ dest ++ " failed: " ++ text⟩,
            written := [Reply.dialFail], dialled := [dest], delivered := [] }
  | .error (.truncated _) =>
      if maxHeader ≤ buf.length then
        { phase := .failed ⟨"header exceeded maximum length"⟩,
          written := [], dialled := [], delivered := [] }
      else { phase := .reading buf, written := [], dialled := [], delivered := [] }
  | .error rejected =>
      { phase := .failed ⟨"rejected header: " ++ rejected.message⟩,
        written := [Reply.authFail], dialled := [], delivered := [] }

/-- A non-empty read returns; `now` is the clock of the attempt it leads to. -/
def onRead (env : ServerEnv) (now : UInt64) (chunk : Bytes) (conn : Conn) : Conn :=
  match conn.phase with
  | .reading buf => attempt env now (buf ++ chunk)
  | .relaying => { conn with delivered := conn.delivered ++ chunk }
  | .failed _ => conn

/-- The client closes its side.  A relay in progress keeps its other direction. -/
def onEof (conn : Conn) : Conn :=
  match conn.phase with
  | .reading _ =>
      { conn with phase := .failed ⟨"connection closed before a full header arrived"⟩ }
  | .relaying => conn
  | .failed _ => conn

/-- The attempt after the `index`-th read uses the clock reading `index`. -/
def runReads (env : ServerEnv) (clock : Nat → UInt64) :
    Nat → List Bytes → Conn → Conn
  | _, [], conn => conn
  | index, chunk :: rest, conn =>
      runReads env clock (index + 1) rest (onRead env (clock index) chunk conn)

/-- `handle` on the reads its client stream is cut into, then end of file if
the client has closed. -/
def handle (env : ServerEnv) (clock : Nat → UInt64) (reads : List Bytes)
    (closed : Bool) : Conn :=
  let conn := runReads env clock 1 reads (attempt env (clock 0) [])
  if closed then onEof conn else conn

/-! ## One more read -/

theorem runReads_append (env : ServerEnv) (clock : Nat → UInt64) (reads more : List Bytes)
    (index : Nat) (conn : Conn) :
    runReads env clock index (reads ++ more) conn =
      runReads env clock (index + reads.length) more (runReads env clock index reads conn) := by
  induction reads generalizing index conn with
  | nil => rfl
  | cons chunk rest ih =>
      simp only [List.cons_append, runReads, List.length_cons]
      rw [ih, Nat.add_assoc, Nat.add_comm 1]

theorem runReads_congr (env : ServerEnv) {clock other : Nat → UInt64} (reads : List Bytes)
    (index : Nat) (conn : Conn)
    (same : ∀ reading < index + reads.length, clock reading = other reading) :
    runReads env clock index reads conn = runReads env other index reads conn := by
  induction reads generalizing index conn with
  | nil => rfl
  | cons chunk rest ih =>
      simp only [List.length_cons] at same
      simp only [runReads]
      rw [same index (by omega)]
      apply ih
      intro reading before
      exact same reading (by omega)

theorem handle_next_read (env : ServerEnv) (clock : Nat → UInt64) (reads : List Bytes)
    (chunk : Bytes) (now : UInt64) :
    ∃ later, handle env later (reads ++ [chunk]) false =
      onRead env now chunk (handle env clock reads false) := by
  refine ⟨Function.update clock (1 + reads.length) now, ?_⟩
  have earlier : ∀ reading < 1 + reads.length,
      Function.update clock (1 + reads.length) now reading = clock reading := by
    intro reading before
    exact Function.update_of_ne (by omega) _ _
  simp only [handle]
  rw [runReads_append, runReads_congr env reads 1 _ earlier, earlier 0 (by omega)]
  simp [runReads]

/-! ## The outcome a whole stream calls for -/

/-- What `handle` owes a client whose whole stream parses to `answer`. -/
def outcome (env : ServerEnv) (stream : Bytes) (closed : Bool) :
    Except ProtoError ParsedRequest → Conn
  | .ok parsed =>
      match env.dial parsed.target.display with
      | .ok _ =>
          { phase := .relaying, written := [Reply.ok],
            dialled := [parsed.target.display],
            delivered := stream.drop parsed.consumed }
      | .error text =>
          { phase := .failed ⟨"dial " ++ parsed.target.display ++ " failed: " ++ text⟩,
            written := [Reply.dialFail], dialled := [parsed.target.display],
            delivered := [] }
  | .error (.truncated _) =>
      { phase := if closed then
            .failed ⟨"connection closed before a full header arrived"⟩
          else .reading stream,
        written := [], dialled := [], delivered := [] }
  | .error rejected =>
      { phase := .failed ⟨"rejected header: " ++ rejected.message⟩,
        written := [Reply.authFail], dialled := [], delivered := [] }

theorem truncated_length_lt (hmac : HmacSha256) (buf key : Bytes)
    (now maxSkew : UInt64) (needed : Nat)
    (truncated : parseRequest hmac buf key now maxSkew =
      .error (.truncated needed)) :
    buf.length < longestHeader := by
  obtain ⟨positive, bound, _⟩ := parseRequest_truncated_exact _ _ _ _ _ _ truncated
  omega

/-- The loop's own limit lies beyond every header. -/
theorem truncated_not_full (hmac : HmacSha256) (buf key : Bytes)
    (now maxSkew : UInt64) (needed : Nat)
    (truncated : parseRequest hmac buf key now maxSkew =
      .error (.truncated needed)) :
    ¬ maxHeader ≤ buf.length := by
  have short := truncated_length_lt _ _ _ _ _ _ truncated
  simp only [longestHeader] at short
  simp only [maxHeader]
  omega

theorem encodeRequest_length_le (hmac : HmacSha256) (key : Bytes) (timestamp : UInt64)
    {target : Target} (fits : target.DomainFits) :
    (encodeRequest hmac key timestamp target).length ≤ maxHeader := by
  rw [encodeRequest_length]
  have address : target.host.addrBytes.length ≤ 255 := by
    cases held : target.host with
    | v4 octets => simp [Host.addrBytes]
    | v6 octets => simp [Host.addrBytes]
    | domain name =>
        have short := fits name held
        simp only [maxDomainLen] at short
        simp only [Host.addrBytes, List.length_cons]
        omega
  simp only [macLen, maxHeader]
  omega

theorem attempt_eq_outcome (env : ServerEnv) (now : UInt64) (stream : Bytes) :
    attempt env now stream =
      outcome env stream false
        (parseRequest env.hmac stream env.key now env.maxSkew) := by
  unfold attempt
  cases answer : parseRequest env.hmac stream env.key now env.maxSkew with
  | ok parsed => rfl
  | error rejected =>
      cases rejected with
      | truncated needed =>
          simp only [if_neg (truncated_not_full _ _ _ _ _ _ answer)]
          rfl
      | _ => rfl

theorem onEof_outcome (env : ServerEnv) (stream : Bytes)
    (answer : Except ProtoError ParsedRequest) :
    onEof (outcome env stream false answer) = outcome env stream true answer := by
  cases answer with
  | ok parsed =>
      simp only [outcome]
      cases env.dial parsed.target.display <;> rfl
  | error rejected => cases rejected <;> rfl

/-! ## Reads after the decision -/

def forward (conn : Conn) (more : Bytes) : Conn :=
  match conn.phase with
  | .relaying => { conn with delivered := conn.delivered ++ more }
  | _ => conn

theorem runReads_decided (env : ServerEnv) (clock : Nat → UInt64)
    (reads : List Bytes) (index : Nat) (conn : Conn)
    (decided : ∀ buf, conn.phase ≠ .reading buf) :
    runReads env clock index reads conn = forward conn reads.flatten := by
  induction reads generalizing index conn with
  | nil =>
      cases conn with
      | mk phase written dialled delivered => cases phase <;> simp [runReads, forward]
  | cons chunk rest ih =>
      obtain ⟨phase, written, dialled, delivered⟩ := conn
      cases phase with
      | reading buf => exact absurd rfl (decided buf)
      | relaying =>
          simp only [runReads, onRead]
          rw [ih _ _ (by intro buf same; contradiction)]
          simp [forward]
      | failed error =>
          simp only [runReads, onRead]
          rw [ih _ _ (by intro buf same; contradiction)]
          rfl

/-- A decided attempt followed by more bytes is the attempt on all of them. -/
theorem attempt_append (env : ServerEnv) (now : UInt64) (buf more : Bytes)
    (decided : NotTruncated
      (parseRequest env.hmac buf env.key now env.maxSkew)) :
    (∀ held, (attempt env now buf).phase ≠ .reading held) ∧
      forward (attempt env now buf) more = attempt env now (buf ++ more) := by
  have extended := parseRequest_append env.hmac buf more env.key now env.maxSkew
    decided
  rw [attempt_eq_outcome, attempt_eq_outcome, extended]
  cases result : parseRequest env.hmac buf env.key now env.maxSkew with
  | ok parsed =>
      obtain ⟨⟨rest, encoded⟩, consumed, _, _⟩ := parseRequest_sound env.hmac buf
        env.key now env.maxSkew parsed result
      have inside : parsed.consumed ≤ buf.length := by
        rw [encoded, consumed, List.length_append]
        omega
      simp only [outcome]
      cases env.dial parsed.target.display with
      | ok _ =>
          refine ⟨by intro held same; contradiction, ?_⟩
          simp [forward, List.drop_append_of_le_length inside]
      | error text => exact ⟨by intro held same; contradiction, rfl⟩
  | error rejected =>
      cases rejected with
      | truncated needed => exact absurd result (decided needed)
      | _ => exact ⟨by intro held same; contradiction, rfl⟩

theorem attempt_truncated (env : ServerEnv) (now : UInt64) (buf : Bytes)
    {missing : Nat} (asked : headerDecoder.run buf = .error missing) :
    attempt env now buf =
      { phase := .reading buf, written := [], dialled := [], delivered := [] } := by
  have truncated := (parseRequest_truncated_iff env.hmac buf env.key now
    env.maxSkew missing).mpr asked
  rw [attempt_eq_outcome, truncated]
  rfl

theorem decided_notTruncated (env : ServerEnv) (now : UInt64) (buf : Bytes)
    {answer : Except ProtoError Unverified}
    (ran : headerDecoder.run buf = .ok answer) :
    NotTruncated (parseRequest env.hmac buf env.key now env.maxSkew) := by
  intro needed truncated
  have asked := (parseRequest_truncated_iff ..).mp truncated
  rw [ran] at asked
  contradiction

/-! ## The header loop -/

/-- The loop invariant: what the loop has done when its reads run out is one
attempt on the whole stream, at the clock of the deciding attempt. -/
theorem runReads_attempt (env : ServerEnv) (clock : Nat → UInt64)
    (reads : List Bytes) (index : Nat) (buf : Bytes) :
    runReads env clock (index + 1) reads (attempt env (clock index) buf) =
      attempt env (clock (index + headerDecoder.decidingChunk buf reads))
        (buf ++ reads.flatten) := by
  induction reads generalizing index buf with
  | nil => simp [runReads, Staged.decidingChunk]
  | cons chunk rest ih =>
      cases ran : headerDecoder.run buf with
      | ok answer =>
          obtain ⟨decided, whole⟩ := attempt_append env (clock index) buf
            (chunk :: rest).flatten
            (decided_notTruncated env (clock index) buf ran)
          rw [runReads_decided env clock _ _ _ decided, whole]
          simp [Staged.decidingChunk, ran]
      | error missing =>
          rw [attempt_truncated env (clock index) buf ran]
          simp only [runReads, onRead]
          rw [ih (index + 1) (buf ++ chunk)]
          simp only [Staged.decidingChunk, ran, List.flatten_cons,
            List.append_assoc]
          congr 2
          omega

theorem handle_eq_outcome (env : ServerEnv) (clock : Nat → UInt64)
    (reads : List Bytes) (closed : Bool) :
    handle env clock reads closed =
      outcome env reads.flatten closed
        (parseRequest env.hmac reads.flatten env.key
          (clock (headerDecoder.decidingChunk [] reads)) env.maxSkew) := by
  unfold handle
  rw [runReads_attempt env clock reads 0 [], attempt_eq_outcome]
  simp only [Nat.zero_add, List.nil_append]
  cases closed with
  | false => rfl
  | true => exact onEof_outcome env _ _

/-- However the client stream is cut into reads, `handle` does what the parse
of the whole stream at the clock of the deciding attempt calls for: every
earlier attempt was truncated, and the deciding one is not unless the reads
ran out. -/
theorem handle_independent_of_segmentation (env : ServerEnv)
    (clock : Nat → UInt64) (reads : List Bytes) (closed : Bool) :
    ∃ deciding ≤ reads.length,
      (∀ earlier < deciding, ∃ needed,
        parseRequest env.hmac (reads.take earlier).flatten env.key
          (clock earlier) env.maxSkew = .error (.truncated needed)) ∧
      (deciding < reads.length → ∀ needed,
        parseRequest env.hmac (reads.take deciding).flatten env.key
          (clock deciding) env.maxSkew ≠ .error (.truncated needed)) ∧
      handle env clock reads closed =
        outcome env reads.flatten closed
          (parseRequest env.hmac reads.flatten env.key (clock deciding)
            env.maxSkew) := by
  refine ⟨headerDecoder.decidingChunk [] reads,
    headerDecoder.decidingChunk_le reads [], ?_, ?_,
    handle_eq_outcome env clock reads closed⟩
  · intro earlier before
    obtain ⟨missing, asked⟩ :=
      headerDecoder.undecided_before reads [] earlier before
    exact ⟨missing, (parseRequest_truncated_iff ..).mpr asked⟩
  · intro early needed truncated
    obtain ⟨answer, decided⟩ := headerDecoder.decided_at reads [] early
    have asked := (parseRequest_truncated_iff ..).mp truncated
    rw [List.nil_append, asked] at decided
    contradiction

end RealityHydra.HydraServer
