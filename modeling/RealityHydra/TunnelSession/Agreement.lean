import RealityHydra.TunnelSession.Stage

/-!
# Client and exit node agree

What the stages of a session say about the dial, the reply and the relayed
bytes, and that the two parties of a session run `open` and `handle`.
-/

set_option autoImplicit false

namespace RealityHydra.TunnelSession

open RealityHydra.HydraClient
open RealityHydra.HydraServer
open RealityHydra.Lib.ByteCodec
open RealityHydra.Lib.Transition
open RealityHydra.TunnelProto

section Agreement

variable {setup : Setup} {allowed : UInt64 → Prop} {session : Session}

/-- The session of a client with the right key and a clock that is close enough. -/
structure Authorised (setup : Setup) (session : Session) : Prop where
  dials_display : session.server.dialled = [] ∨
    session.server.dialled = [setup.target.display]
  replies_after_dial : session.server.written = [] ∨
    (∃ replyByte, session.server.written = [replyByte]) ∧
      session.server.dialled = [setup.target.display]
  returned : ∀ result, session.client = .returned result →
    session.server.dialled = [setup.target.display] ∧
      (∃ replyByte, session.server.written = [replyByte]) ∧
      (result = .ok () ↔ setup.env.dial setup.target.display = .ok ())

structure Unauthorised (session : Session) : Prop where
  dials_nothing : session.server.dialled = []
  returned : ∀ result, session.client = .returned result →
    ∃ failure, result = .error failure

structure Relaying (setup : Setup) (session : Session) : Prop where
  connected : setup.env.dial setup.target.display = .ok ()
  server : session.server =
    ⟨.relay, [Reply.ok], [setup.target.display], session.server.delivered⟩
  up : session.uploaded = session.server.delivered ++ session.toServer
  down : session.downloaded = session.received ++ session.toClient

theorem Answered.authorised {now : UInt64} {delivered : Bytes} {server : Serving}
    (answered : Answered setup now delivered server) (agree : setup.MacsAgree)
    (fresh : setup.Fresh now) :
    server.dialled = [setup.target.display] ∧
      (server.await = .relay ↔ setup.env.dial setup.target.display = .ok ()) := by
  cases answered with
  | accepted _ _ dial did => simp [did, dial]
  | undialled _ _ text error dial did => simp [did, dial]
  | rejected refused error did => exact absurd ⟨agree, fresh⟩ refused

theorem Answered.unauthorised {now : UInt64} {delivered : Bytes} {server : Serving}
    (answered : Answered setup now delivered server)
    (refused : ¬ (setup.MacsAgree ∧ setup.Fresh now)) :
    server.dialled = [] ∧ server.await ≠ .relay := by
  cases answered with
  | accepted agree fresh _ did | undialled agree fresh _ _ _ did =>
      exact absurd ⟨agree, fresh⟩ refused
  | rejected _ error did => simp [did]

theorem Replying.authorised {now : UInt64} {server : Serving}
    (replying : Replying setup now server) (agree : setup.MacsAgree)
    (fresh : setup.Fresh now) :
    server.dialled = [setup.target.display] ∧ server.written = [] := by
  cases replying with
  | accepting _ _ _ did | undialled _ _ _ _ _ did => simp [did]
  | rejecting refused error did => exact absurd ⟨agree, fresh⟩ refused

theorem Replying.unauthorised {now : UInt64} {server : Serving}
    (replying : Replying setup now server)
    (refused : ¬ (setup.MacsAgree ∧ setup.Fresh now)) : server.dialled = [] := by
  cases replying with
  | accepting agree fresh _ did | undialled agree fresh _ _ _ did =>
      exact absurd ⟨agree, fresh⟩ refused
  | rejecting _ error did => simp [did]

theorem Stage.authorised (stage : Stage setup allowed session) (agree : setup.MacsAgree)
    (fresh : ∀ now, allowed now → setup.Fresh now) : Authorised setup session := by
  cases stage with
  | negotiating | connecting =>
      refine ⟨Or.inl rfl, Or.inl rfl, ?_⟩
      intro result returned
      contradiction
  | replying now shown server deciding =>
      obtain ⟨dialled, silent⟩ := deciding.authorised agree (fresh now shown)
      refine ⟨Or.inr dialled, Or.inl silent, ?_⟩
      intro result returned
      contradiction
  | answered now shown server replyByte done written =>
      obtain ⟨dialled, _⟩ := done.authorised agree (fresh now shown)
      refine ⟨Or.inr dialled, Or.inr ⟨⟨replyByte, written⟩, dialled⟩, ?_⟩
      intro result returned
      contradiction
  | opened _ _ _ _ dial =>
      refine ⟨Or.inr rfl, Or.inr ⟨⟨_, rfl⟩, rfl⟩, ?_⟩
      intro result returned
      cases returned
      exact ⟨rfl, ⟨_, rfl⟩, by simp [dial]⟩
  | refused now shown server replyByte done written failure verdict =>
      obtain ⟨dialled, relays⟩ := done.authorised agree (fresh now shown)
      refine ⟨Or.inr dialled, Or.inr ⟨⟨replyByte, written⟩, dialled⟩, ?_⟩
      intro result returned
      cases returned
      refine ⟨dialled, ⟨replyByte, written⟩, ?_⟩
      obtain ⟨answer, wrote, accepts⟩ := done.reply
      cases written.symm.trans wrote
      rw [← relays, ← accepts, ← @replyVerdict_ok_iff setup.target, verdict]

theorem Stage.unauthorised (stage : Stage setup allowed session)
    (refused : ∀ now, allowed now → ¬ (setup.MacsAgree ∧ setup.Fresh now)) :
    Unauthorised session := by
  cases stage with
  | negotiating =>
      refine ⟨rfl, ?_⟩
      intro result returned
      contradiction
  | connecting now shown agree fresh => exact absurd ⟨agree, fresh⟩ (refused now shown)
  | replying now shown server deciding =>
      refine ⟨deciding.unauthorised (refused now shown), ?_⟩
      intro result returned
      contradiction
  | answered now shown server replyByte done =>
      refine ⟨(done.unauthorised (refused now shown)).1, ?_⟩
      intro result returned
      contradiction
  | opened now shown agree fresh => exact absurd ⟨agree, fresh⟩ (refused now shown)
  | refused now shown server replyByte done written failure =>
      refine ⟨(done.unauthorised (refused now shown)).1, ?_⟩
      intro result returned
      cases returned
      exact ⟨failure, rfl⟩

theorem Stage.relaying (stage : Stage setup allowed session)
    (returned : session.client = .returned (.ok ())) : Relaying setup session := by
  cases stage with
  | opened _ _ _ _ dial _ _ _ _ _ _ up down => exact ⟨dial, rfl, up, down⟩
  | _ => cases returned

/-- Whatever the client has written can still reach the destination. -/
theorem Stage.uploads (stage : Stage setup allowed session)
    (returned : session.client = .returned (.ok ())) :
    ∃ later, Reach (sessionStep setup) (ClockShows allowed) session later ∧
      later.server.delivered = session.uploaded := by
  cases stage with
  | opened now shown _ _ _ toServer delivered toClient uploaded downloaded received up down =>
      by_cases drained : toServer = []
      · refine ⟨_, .refl, ?_⟩
        simp [up, drained]
      · have positive : 0 < toServer.length := List.length_pos_iff.mpr drained
        let server : Serving :=
          ⟨.relay, [Reply.ok], [setup.target.display], delivered ++ toServer⟩
        let later : Session :=
          ⟨.returned (.ok ()), [], [], server, toClient, uploaded, downloaded, received⟩
        refine ⟨later, .single ⟨.serverReads toServer.length now, shown, ?_⟩, up.symm⟩
        simp [sessionStep, Accepts, positive, Serving.onRead, later, server]
  | _ => cases returned

end Agreement

/-! ## The two parties' own programs -/

/-- What the client returns is what `open` returns on the reply byte the server
has written. -/
theorem returned_is_open (setup : Setup) (fits : setup.target.DomainFits)
    {allowed : UInt64 → Prop} {session : Session}
    (reached : Reach (sessionStep setup) (ClockShows allowed) (Session.start setup) session)
    {result : Except ClientError Unit} (returned : session.client = .returned result)
    (client : TunnelClient) (env : ClientEnv) (peer : Peer) (sni serverName : String)
    (sameHmac : env.hmac = setup.env.hmac) (sameKey : client.masterSecret = setup.clientKey)
    (tcp : peer.tcp = .ok ()) (named : chooseServerName env sni = .ok serverName)
    (connected : tlsConnect env.sha256 client.verifier peer serverName setup.stamp = .ok ())
    (headerWritten : peer.headerWritten = .ok ())
    (replied : ∀ replyByte, session.server.written = [replyByte] → peer.reply = .ok replyByte) :
    client.open env peer sni setup.target setup.stamp = ⟨setup.header, result⟩ := by
  have opened := client.open_of_reply env peer sni serverName setup.target setup.stamp
  cases reachable_stage setup fits reached with
  | opened =>
      cases returned
      rw [opened Reply.ok tcp named connected headerWritten (replied _ rfl), sameHmac, sameKey,
        (@replyVerdict_ok_iff setup.target Reply.ok).mpr rfl]
      rfl
  | refused now shown server replyByte done written failure verdict =>
      cases returned
      rw [opened replyByte tcp named connected headerWritten (replied _ written), sameHmac,
        sameKey, verdict]
      rfl
  | _ => contradiction

/-- The server has done what `handle` does on reads of what the client has written. -/
def RunsHandle (setup : Setup) (session : Session) : Prop :=
  ∃ clock reads,
    session.server.settle setup.env = handle setup.env clock reads false ∧
      reads.flatten ++ (session.toServer ++ session.unsent) =
        setup.header ++ session.uploaded

theorem Stage.undecided {setup : Setup} {allowed : UInt64 → Prop} {session : Session}
    (stage : Stage setup allowed session) (buf : Bytes)
    (reading : session.server.await = .read buf) :
    session.server.written = [] ∧ session.server.dialled = [] ∧
      session.server.delivered = [] := by
  cases stage with
  | negotiating => exact ⟨rfl, rfl, rfl⟩
  | connecting | opened => contradiction
  | replying now shown server deciding =>
      cases deciding with
      | accepting _ _ _ did | undialled _ _ _ _ _ did | rejecting _ _ did =>
          rw [did] at reading
          contradiction
  | answered now shown server replyByte done | refused now shown server replyByte done =>
      cases done with
      | accepted _ _ _ did | undialled _ _ _ _ _ did | rejected _ _ did =>
          rw [did] at reading
          contradiction

theorem accepts_reading {server : Serving} {count : Nat} (accepts : Accepts server count) :
    (∃ buf, server.await = .read buf) ∨ server.await = .relay := by
  unfold Accepts at accepts
  split at accepts
  · rename_i buf waiting
    exact Or.inl ⟨buf, waiting⟩
  · rename_i relaying
    exact Or.inr relaying
  · contradiction

theorem runsHandle_step (setup : Setup) {allowed : UInt64 → Prop} {before after : Session}
    (stage : Stage setup allowed before) (runs : RunsHandle setup before)
    (action : SessionAction) (taken : sessionStep setup before action = some after) :
    RunsHandle setup after := by
  obtain ⟨clock, reads, settled, stream⟩ := runs
  cases sessionStep_moves taken with
  | clientWrites count positive enough =>
      refine ⟨clock, reads, settled, ?_⟩
      rw [← stream, List.append_assoc, List.take_append_drop]
  | serverReads count now positive enough accepts =>
      obtain ⟨later, longer⟩ := handle_next_read setup.env clock reads
        (before.toServer.take count) now
      refine ⟨later, reads ++ [before.toServer.take count], ?_, ?_⟩
      · rw [longer, ← settled]
        exact Serving.settle_onRead _ _ _ _ stage.undecided (accepts_reading accepts)
      · rw [← stream]
        simp only [List.flatten_append, List.flatten_cons, List.flatten_nil,
          List.append_nil, List.append_assoc]
        rw [← List.append_assoc (before.toServer.take count), List.take_append_drop]
  | serverResumes resumed =>
      refine ⟨clock, reads, ?_, stream⟩
      rw [← settled]
      exact Serving.settle_resume setup.env resumed
  | clientReadsReply => exact ⟨clock, reads, settled, stream⟩
  | clientReadsEof => exact ⟨clock, reads, settled, stream⟩
  | clientSends chunk opened =>
      -- `open` has returned, so the whole header is sent
      cases stage with
      | opened =>
          refine ⟨clock, reads, settled, ?_⟩
          simp only [List.append_nil] at stream ⊢
          rw [← List.append_assoc, stream, List.append_assoc]
      | _ => contradiction
  | destinationSends => exact ⟨clock, reads, settled, stream⟩
  | clientReceives => exact ⟨clock, reads, settled, stream⟩

/-- In every session the server does what `handle` does on the client's stream. -/
theorem server_runs_handle (setup : Setup) (fits : setup.target.DomainFits)
    {allowed : UInt64 → Prop} {session : Session}
    (reached : Reach (sessionStep setup) (ClockShows allowed) (Session.start setup) session) :
    RunsHandle setup session := by
  have both : Stage setup allowed session ∧ RunsHandle setup session := by
    refine reached.invariant (fun state => Stage setup allowed state ∧ RunsHandle setup state)
      ⟨start_stage setup fits allowed, ?_⟩ ?_
    · refine ⟨fun _ => setup.stamp, [], ?_, ?_⟩
      · exact settle_tryHeader setup.env setup.stamp []
      · simp [Session.start]
    · intro before action after kept permitted taken
      exact ⟨kept.1.step fits action permitted taken,
        runsHandle_step setup kept.1 kept.2 action taken⟩
  exact both.2

/-- Client and exit node agree on every session, however the stream between them
is cut and whoever moves when.

With one key and clocks close enough at every attempt of the server, it dials the
displayed target once and replies with one byte, and `open` returns, with success
exactly if the dial succeeds.  With tags that differ, or clocks too far apart at
every attempt, nothing is dialled and `open` returns an error.  Whenever `open` has
succeeded the destination is connected, and what the client writes afterwards
arrives there from its first byte on. -/
theorem client_and_exit_node_agree (setup : Setup) (fits : setup.target.DomainFits) :
    (setup.clientKey = setup.env.key → ∀ session,
      Reach (sessionStep setup) (ClockShows setup.Fresh) (Session.start setup) session →
        Authorised setup session ∧ Completes setup setup.Fresh session) ∧
    (∀ allowed : UInt64 → Prop,
      (¬ setup.MacsAgree ∨ ∀ now, allowed now → ¬ setup.Fresh now) → ∀ session,
      Reach (sessionStep setup) (ClockShows allowed) (Session.start setup) session →
        Unauthorised session ∧
          ∀ now, allowed now → Completes setup allowed session) ∧
    (∀ (allowed : UInt64 → Prop) session,
      Reach (sessionStep setup) (ClockShows allowed) (Session.start setup) session →
      session.client = .returned (.ok ()) →
        Relaying setup session ∧
          ∃ later, Reach (sessionStep setup) (ClockShows allowed) session later ∧
            later.server.delivered = session.uploaded) := by
  refine ⟨?_, ?_, ?_⟩
  · intro sameKey session reached
    have stage := reachable_stage setup fits reached
    have agree : setup.MacsAgree := by
      rw [Setup.MacsAgree, sameKey]
    have now : setup.Fresh setup.stamp := by simp [Setup.Fresh]
    exact ⟨stage.authorised agree (fun _ shown => shown), stage.completes fits now⟩
  · intro allowed apart session reached
    have stage := reachable_stage setup fits reached
    have refused : ∀ now, allowed now → ¬ (setup.MacsAgree ∧ setup.Fresh now) := by
      intro now shown accepted
      rcases apart with different | stale
      · exact different accepted.1
      · exact stale now shown accepted.2
    exact ⟨stage.unauthorised refused, fun _ shown => stage.completes fits shown⟩
  · intro allowed session reached returned
    have stage := reachable_stage setup fits reached
    exact ⟨stage.relaying returned, stage.uploads returned⟩

def loopbackSetup : Setup where
  env :=
    { hmac := fun _ _ => Vector.replicate 32 0
      key := [1]
      maxSkew := 120
      dial := fun _ => .ok () }
  clientKey := [1]
  stamp := 1000
  target := loopbackTarget

theorem loopback_session_opens :
    Completes loopbackSetup loopbackSetup.Fresh (Session.start loopbackSetup) ∧
      ∀ session, Reach (sessionStep loopbackSetup) (ClockShows loopbackSetup.Fresh)
          (Session.start loopbackSetup) session →
        ∀ result, session.client = .returned result →
          session.server.dialled = ["127.0.0.1:80"] ∧ result = .ok () := by
  have agreed := client_and_exit_node_agree loopbackSetup (by decide)
  have opens := agreed.1 rfl
  refine ⟨(opens _ .refl).2, ?_⟩
  intro session reached result returned
  obtain ⟨dialled, _, succeeds⟩ := (opens session reached).1.returned result returned
  exact ⟨dialled.trans (by decide), succeeds.mpr rfl⟩

end RealityHydra.TunnelSession
