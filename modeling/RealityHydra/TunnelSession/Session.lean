import RealityHydra.HydraClient.Tunnel
import RealityHydra.HydraServer.Serving
import RealityHydra.Lib.Transition

/-!
# A tunnel session

`TunnelClient::open` and the exit node's `handle`, from the end of the TLS
handshake on, as two parties over a reliable ordered stream that cuts what is
written into reads of any size.  Each party runs from one of its awaits to the
next.
-/

set_option autoImplicit false

namespace RealityHydra.TunnelSession

open RealityHydra.HydraClient
open RealityHydra.HydraServer
open RealityHydra.Lib.ByteCodec
open RealityHydra.Lib.StagedDecoder
open RealityHydra.Lib.Transition
open RealityHydra.Primitives
open RealityHydra.TunnelProto

/-- The exit node's side, and what the client opens the tunnel with. -/
structure Setup where
  env : ServerEnv
  clientKey : Bytes
  stamp : UInt64
  target : Target

def Setup.header (setup : Setup) : Bytes :=
  encodeRequest setup.env.hmac setup.clientKey setup.stamp setup.target

inductive ClientPhase where
  | opening
  | returned (result : Except ClientError Unit)

structure Session where
  client : ClientPhase
  unsent : Bytes
  /-- Written by the client, not read by the server. -/
  toServer : Bytes
  server : Serving
  /-- Written by the server, not read by the client. -/
  toClient : Bytes
  uploaded : Bytes
  /-- Written by the destination, and what of it the client has read. -/
  downloaded : Bytes
  received : Bytes

inductive SessionAction where
  | clientWrites (count : Nat)
  /-- A read of `count` bytes, and the clock of the attempt it leads to. -/
  | serverReads (count : Nat) (now : UInt64)
  | serverResumes
  | clientReadsReply
  | clientSends (chunk : Bytes)
  | destinationSends (chunk : Bytes)
  | clientReceives (count : Nat)

def Session.start (setup : Setup) : Session where
  client := .opening
  unsent := setup.header
  toServer := []
  server := Serving.start setup.env setup.stamp
  toClient := []
  uploaded := []
  downloaded := []
  received := []

def Accepts (server : Serving) (count : Nat) : Prop :=
  match server.await with
  | .read _ => count ≤ maxHeader
  | .relay => True
  | _ => False

instance (server : Serving) (count : Nat) : Decidable (Accepts server count) := by
  unfold Accepts
  split <;> infer_instance

def sessionStep (setup : Setup) (session : Session) : SessionAction → Option Session
  | .clientWrites count =>
      if 0 < count ∧ count ≤ session.unsent.length then
        some { session with
               unsent := session.unsent.drop count
               toServer := session.toServer ++ session.unsent.take count }
      else none
  | .serverReads count now =>
      if 0 < count ∧ count ≤ session.toServer.length ∧ Accepts session.server count then
        some { session with
               toServer := session.toServer.drop count
               server := session.server.onRead setup.env now (session.toServer.take count) }
      else none
  | .serverResumes =>
      (session.server.resume setup.env).map fun server =>
        -- what the step has written is on its way to the client
        { session with
          server
          toClient := session.toClient ++ server.written.drop session.server.written.length }
  | .clientReadsReply =>
      match session.client, session.unsent, session.toClient, session.server.await with
      | .opening, [], replyByte :: rest, _ =>
          some { session with
                 client := .returned (replyVerdict setup.target replyByte)
                 toClient := rest }
      -- the stream is closed before a reply
      | .opening, [], [], .done _ =>
          some { session with client := .returned (.error (.io "early eof")) }
      | _, _, _, _ => none
  | .clientSends chunk =>
      match session.client with
      | .returned (.ok _) =>
          some { session with
                 toServer := session.toServer ++ chunk
                 uploaded := session.uploaded ++ chunk }
      | _ => none
  | .destinationSends chunk =>
      match session.server.await with
      | .relay =>
          some { session with
                 toClient := session.toClient ++ chunk
                 downloaded := session.downloaded ++ chunk }
      | _ => none
  | .clientReceives count =>
      match session.client with
      | .returned (.ok _) =>
          if count ≤ session.toClient.length then
            some { session with
                   toClient := session.toClient.drop count
                   received := session.received ++ session.toClient.take count }
          else none
      | _ => none

/-- What each action does, and when it is enabled. -/
inductive SessionMoves (setup : Setup) (session : Session) : SessionAction → Session → Prop where
  | clientWrites (count) (positive : 0 < count) (enough : count ≤ session.unsent.length) :
      SessionMoves setup session (.clientWrites count)
        { session with
          unsent := session.unsent.drop count
          toServer := session.toServer ++ session.unsent.take count }
  | serverReads (count now) (positive : 0 < count) (enough : count ≤ session.toServer.length)
      (accepts : Accepts session.server count) :
      SessionMoves setup session (.serverReads count now)
        { session with
          toServer := session.toServer.drop count
          server := session.server.onRead setup.env now (session.toServer.take count) }
  | serverResumes {server} (resumed : session.server.resume setup.env = some server) :
      SessionMoves setup session .serverResumes
        { session with
          server
          toClient := session.toClient ++ server.written.drop session.server.written.length }
  | clientReadsReply {replyByte rest} (opening : session.client = .opening)
      (sent : session.unsent = []) (arrived : session.toClient = replyByte :: rest) :
      SessionMoves setup session .clientReadsReply
        { session with
          client := .returned (replyVerdict setup.target replyByte)
          toClient := rest }
  | clientReadsEof {error} (opening : session.client = .opening)
      (sent : session.unsent = []) (nothing : session.toClient = [])
      (closed : session.server.await = .done error) :
      SessionMoves setup session .clientReadsReply
        { session with client := .returned (.error (.io "early eof")) }
  | clientSends (chunk) (opened : session.client = .returned (.ok ())) :
      SessionMoves setup session (.clientSends chunk)
        { session with
          toServer := session.toServer ++ chunk
          uploaded := session.uploaded ++ chunk }
  | destinationSends (chunk) (relays : session.server.await = .relay) :
      SessionMoves setup session (.destinationSends chunk)
        { session with
          toClient := session.toClient ++ chunk
          downloaded := session.downloaded ++ chunk }
  | clientReceives (count) (opened : session.client = .returned (.ok ()))
      (enough : count ≤ session.toClient.length) :
      SessionMoves setup session (.clientReceives count)
        { session with
          toClient := session.toClient.drop count
          received := session.received ++ session.toClient.take count }

theorem sessionStep_moves {setup : Setup} {session after : Session} {action : SessionAction}
    (taken : sessionStep setup session action = some after) :
    SessionMoves setup session action after := by
  cases action with
  | clientWrites count =>
      simp only [sessionStep] at taken
      split at taken
      · rename_i enabled
        cases taken
        exact .clientWrites count enabled.1 enabled.2
      · contradiction
  | serverReads count now =>
      simp only [sessionStep] at taken
      split at taken
      · rename_i enabled
        cases taken
        exact .serverReads count now enabled.1 enabled.2.1 enabled.2.2
      · contradiction
  | serverResumes =>
      simp only [sessionStep, Option.map_eq_some_iff] at taken
      obtain ⟨server, resumed, same⟩ := taken
      cases same
      exact .serverResumes resumed
  | clientReadsReply =>
      simp only [sessionStep] at taken
      split at taken
      · rename_i opening sent arrived
        cases taken
        exact .clientReadsReply opening sent arrived
      · rename_i opening sent nothing closed
        cases taken
        exact .clientReadsEof opening sent nothing closed
      · contradiction
  | clientSends chunk =>
      simp only [sessionStep] at taken
      split at taken
      · rename_i opened
        cases taken
        exact .clientSends chunk opened
      · contradiction
  | destinationSends chunk =>
      simp only [sessionStep] at taken
      split at taken
      · rename_i relays
        cases taken
        exact .destinationSends chunk relays
      · contradiction
  | clientReceives count =>
      simp only [sessionStep] at taken
      split at taken
      · rename_i opened
        split at taken
        · rename_i enough
          cases taken
          exact .clientReceives count opened enough
        · contradiction
      · contradiction

/-- The server's clock shows only what `allowed` says. -/
def ClockShows (allowed : UInt64 → Prop) (_ : Session) : SessionAction → Prop
  | .serverReads _ now => allowed now
  | _ => True

/-- The clocks differ by at most `max_skew`. -/
def Setup.Fresh (setup : Setup) (now : UInt64) : Prop :=
  |(now.toNat : Int) - setup.stamp.toNat| ≤ setup.env.maxSkew.toNat

/-- The two keys give the client's header the same tag. -/
def Setup.MacsAgree (setup : Setup) : Prop :=
  mac setup.env.hmac setup.env.key (signedBytes setup.stamp setup.target) =
    mac setup.env.hmac setup.clientKey (signedBytes setup.stamp setup.target)

/-! ## What the exit node does with the header -/

/-- No part of a header is decided before its last byte. -/
theorem tryHeader_part_of_header (setup : Setup) (fits : setup.target.DomainFits)
    (now : UInt64) {part missing : Bytes} (split : part ++ missing = setup.header)
    (more : missing ≠ []) : tryHeader setup.env now part = .read part := by
  cases ran : headerDecoder.run part with
  | error asked =>
      have reading := attempt_truncated setup.env now part ran
      have truncated := (parseRequest_truncated_iff setup.env.hmac part setup.env.key now
        setup.env.maxSkew asked).mpr ran
      have notFull := truncated_not_full _ _ _ _ _ _ truncated
      simp [tryHeader, truncated, notFull]
  | ok answer =>
      -- the stages know neither key nor clock, so ask with the client's own
      exfalso
      have decided := decided_notTruncated
        { setup.env with key := setup.clientKey, maxSkew := 0 } setup.stamp part ran
      have whole := parseRequest_append setup.env.hmac part missing setup.clientKey
        setup.stamp 0 decided
      have complete := parseRequest_complete setup.env.hmac setup.clientKey []
        setup.stamp setup.stamp 0 setup.target fits
      rw [List.append_nil, (checkFresh_ok_iff ..).mpr ⟨rfl, by simp⟩] at complete
      rw [split, Setup.header, complete] at whole
      obtain ⟨⟨rest, encoded⟩, consumed, _, _⟩ := parseRequest_sound setup.env.hmac
        part setup.clientKey setup.stamp 0 _ whole.symm
      have longer := congrArg List.length split
      have missingLength : 0 < missing.length := List.length_pos_iff.mpr more
      have partLength := congrArg List.length encoded
      simp only [Setup.header, List.length_append] at longer partLength
      omega

theorem parse_header_accepted (setup : Setup) (fits : setup.target.DomainFits)
    (now : UInt64) (agree : setup.MacsAgree) (fresh : setup.Fresh now) :
    parseRequest setup.env.hmac setup.header setup.env.key now setup.env.maxSkew =
      .ok { target := setup.target, timestamp := setup.stamp,
            consumed := setup.header.length } := by
  have sameHeader : setup.header =
      encodeRequest setup.env.hmac setup.env.key setup.stamp setup.target := by
    simp only [Setup.header, encodeRequest]
    rw [agree]
  have complete := parseRequest_complete setup.env.hmac setup.env.key [] setup.stamp now
    setup.env.maxSkew setup.target fits
  rw [List.append_nil, ← sameHeader] at complete
  rw [complete]
  exact (checkFresh_ok_iff ..).mpr ⟨rfl, fresh⟩

theorem parse_header_rejected (setup : Setup) (fits : setup.target.DomainFits)
    (now : UInt64) (refused : ¬ (setup.MacsAgree ∧ setup.Fresh now)) :
    ∃ rejected, parseRequest setup.env.hmac setup.header setup.env.key now
        setup.env.maxSkew = .error rejected ∧
      ∀ needed, rejected ≠ .truncated needed := by
  have tagged := parseRequest_tagged setup.env.hmac setup.env.key
    (mac setup.env.hmac setup.clientKey (signedBytes setup.stamp setup.target)).toList []
    setup.stamp now setup.env.maxSkew setup.target fits Vector.length_toList
  rw [List.append_nil] at tagged
  have header : setup.header = signedBytes setup.stamp setup.target ++
    (mac setup.env.hmac setup.clientKey
      (signedBytes setup.stamp setup.target)).toList := rfl
  rw [header, tagged]
  unfold verifyMac
  split
  · rename_i same
    have agree : setup.MacsAgree := Vector.toList_inj.mp same
    cases checked : checkFresh now setup.env.maxSkew
      { target := setup.target, timestamp := setup.stamp,
        consumed := (signedBytes setup.stamp setup.target).length + macLen } with
    | ok result => exact absurd ⟨agree, ((checkFresh_ok_iff ..).mp checked).2⟩ refused
    | error rejected =>
        refine ⟨rejected, rfl, ?_⟩
        intro needed truncated
        rw [truncated] at checked
        unfold checkFresh at checked
        split at checked <;> cases checked
  · refine ⟨.badMac, rfl, ?_⟩
    intro needed truncated
    contradiction

/-- The exit node is about to write its reply. -/
inductive Replying (setup : Setup) (now : UInt64) (server : Serving) : Prop where
  | accepting (agree : setup.MacsAgree) (fresh : setup.Fresh now)
      (dial : setup.env.dial setup.target.display = .ok ())
      (did : server = ⟨.reply Reply.ok (.forward []), [], [setup.target.display], []⟩)
  | undialled (agree : setup.MacsAgree) (fresh : setup.Fresh now) (text : String)
      (error : ServerError) (dial : setup.env.dial setup.target.display = .error text)
      (did : server = ⟨.reply Reply.dialFail (.fail error), [], [setup.target.display], []⟩)
  | rejecting (refused : ¬ (setup.MacsAgree ∧ setup.Fresh now)) (error : ServerError)
      (did : server = ⟨.reply Reply.authFail (.fail error), [], [], []⟩)

/-- The exit node has written its reply; `delivered` is what it has relayed since. -/
inductive Answered (setup : Setup) (now : UInt64) (delivered : Bytes)
    (server : Serving) : Prop where
  | accepted (agree : setup.MacsAgree) (fresh : setup.Fresh now)
      (dial : setup.env.dial setup.target.display = .ok ())
      (did : server = ⟨.relay, [Reply.ok], [setup.target.display], delivered⟩)
  | undialled (agree : setup.MacsAgree) (fresh : setup.Fresh now) (text : String)
      (error : ServerError) (dial : setup.env.dial setup.target.display = .error text)
      (did : server = ⟨.done error, [Reply.dialFail], [setup.target.display], delivered⟩)
  | rejected (refused : ¬ (setup.MacsAgree ∧ setup.Fresh now)) (error : ServerError)
      (did : server = ⟨.done error, [Reply.authFail], [], delivered⟩)

theorem tryHeader_header (setup : Setup) (fits : setup.target.DomainFits) (now : UInt64) :
    (setup.MacsAgree ∧ setup.Fresh now ∧
        tryHeader setup.env now setup.header = .connect setup.target.display []) ∨
      Replying setup now ⟨tryHeader setup.env now setup.header, [], [], []⟩ := by
  by_cases accepted : setup.MacsAgree ∧ setup.Fresh now
  · have parsed := parse_header_accepted setup fits now accepted.1 accepted.2
    refine Or.inl ⟨accepted.1, accepted.2, ?_⟩
    simp [tryHeader, parsed]
  · obtain ⟨rejected, parsed, decided⟩ := parse_header_rejected setup fits now accepted
    refine Or.inr (.rejecting accepted ⟨"rejected header: " ++ rejected.message⟩ ?_)
    unfold tryHeader
    rw [parsed]
    cases rejected with
    | truncated needed => exact absurd rfl (decided needed)
    | _ => rfl

theorem resume_connect (setup : Setup) {now : UInt64} (agree : setup.MacsAgree)
    (fresh : setup.Fresh now) :
    ∃ server, Serving.resume setup.env ⟨.connect setup.target.display [], [], [], []⟩ =
        some server ∧ Replying setup now server ∧ server.written = [] := by
  cases dial : setup.env.dial setup.target.display with
  | ok _ =>
      refine ⟨⟨.reply Reply.ok (.forward []), [], [setup.target.display], []⟩, ?_, ?_, rfl⟩
      · simp [Serving.resume, dial]
      · exact Replying.accepting agree fresh dial rfl
  | error text =>
      let error : ServerError := ⟨"dial " ++ setup.target.display ++ " failed: " ++ text⟩
      refine ⟨⟨.reply Reply.dialFail (.fail error), [], [setup.target.display], []⟩,
        ?_, ?_, rfl⟩
      · simp [Serving.resume, dial, error]
      · exact Replying.undialled agree fresh text error dial rfl

theorem Replying.resume {setup : Setup} {now : UInt64} {before : Serving}
    (replying : Replying setup now before) :
    ∃ server replyByte, before.resume setup.env = some server ∧
      Answered setup now [] server ∧ server.written = [replyByte] ∧
      before.written = [] := by
  cases replying with
  | accepting agree fresh dial did =>
      rw [did]
      exact ⟨_, _, rfl, Answered.accepted agree fresh dial rfl, rfl, rfl⟩
  | undialled agree fresh text error dial did =>
      rw [did]
      exact ⟨_, _, rfl, Answered.undialled agree fresh text error dial rfl, rfl, rfl⟩
  | rejecting refused error did =>
      rw [did]
      exact ⟨_, _, rfl, Answered.rejected refused error rfl, rfl, rfl⟩

/-- The one reply byte is `OK` exactly when the server relays. -/
theorem Answered.reply {setup : Setup} {now : UInt64} {delivered : Bytes}
    {server : Serving} (answered : Answered setup now delivered server) :
    ∃ replyByte, server.written = [replyByte] ∧
      (replyByte = Reply.ok ↔ server.await = .relay) := by
  cases answered with
  | accepted _ _ _ did => exact ⟨Reply.ok, by simp [did]⟩
  | undialled _ _ _ _ _ did => exact ⟨Reply.dialFail, by simp [did]; decide⟩
  | rejected _ _ did => exact ⟨Reply.authFail, by simp [did]; decide⟩

theorem Answered.resume_none {setup : Setup} {now : UInt64} {delivered : Bytes}
    {server : Serving} (answered : Answered setup now delivered server) :
    server.resume setup.env = none := by
  cases answered with
  | accepted _ _ _ did | undialled _ _ _ _ _ did | rejected _ _ did =>
      rw [did]
      rfl

end RealityHydra.TunnelSession
