import RealityHydra.TunnelSession.Session

/-!
# How far a session has come

Every session reached is in one of six stages.  Each action keeps that, and
inside `open` a party can always move, each move bringing the end nearer.
-/

set_option autoImplicit false

namespace RealityHydra.TunnelSession

open RealityHydra.HydraClient
open RealityHydra.HydraServer
open RealityHydra.Lib.ByteCodec
open RealityHydra.Lib.Transition
open RealityHydra.TunnelProto

/-- The session invariant. -/
inductive Stage (setup : Setup) (allowed : UInt64 → Prop) : Session → Prop where
  | negotiating (buf unsent toServer : Bytes)
      (split : buf ++ (toServer ++ unsent) = setup.header)
      (more : toServer ++ unsent ≠ []) :
      Stage setup allowed ⟨.opening, unsent, toServer, ⟨.read buf, [], [], []⟩, [], [], [], []⟩
  | connecting (now : UInt64) (shown : allowed now) (agree : setup.MacsAgree)
      (fresh : setup.Fresh now) :
      Stage setup allowed
        ⟨.opening, [], [], ⟨.connect setup.target.display [], [], [], []⟩, [], [], [], []⟩
  | replying (now : UInt64) (shown : allowed now) (server : Serving)
      (deciding : Replying setup now server) :
      Stage setup allowed ⟨.opening, [], [], server, [], [], [], []⟩
  | answered (now : UInt64) (shown : allowed now) (server : Serving) (replyByte : UInt8)
      (done : Answered setup now [] server) (written : server.written = [replyByte])
      (downloaded : Bytes) :
      -- the reply byte stays in front of whatever the destination sends
      Stage setup allowed
        ⟨.opening, [], [], server, replyByte :: downloaded, [], downloaded, []⟩
  | opened (now : UInt64) (shown : allowed now) (agree : setup.MacsAgree)
      (fresh : setup.Fresh now) (dial : setup.env.dial setup.target.display = .ok ())
      (toServer delivered toClient uploaded downloaded received : Bytes)
      (up : uploaded = delivered ++ toServer) (down : downloaded = received ++ toClient) :
      Stage setup allowed
        ⟨.returned (.ok ()), [], toServer,
          ⟨.relay, [Reply.ok], [setup.target.display], delivered⟩, toClient, uploaded,
          downloaded, received⟩
  | refused (now : UInt64) (shown : allowed now) (server : Serving) (replyByte : UInt8)
      (done : Answered setup now [] server) (written : server.written = [replyByte])
      (failure : ClientError)
      (verdict : replyVerdict setup.target replyByte = .error failure)
      (toClient downloaded : Bytes) :
      Stage setup allowed
        ⟨.returned (.error failure), [], [], server, toClient, [], downloaded, []⟩

section Steps

variable {setup : Setup} {allowed : UInt64 → Prop} {before after : Session}

theorem start_stage (setup : Setup) (fits : setup.target.DomainFits)
    (allowed : UInt64 → Prop) : Stage setup allowed (Session.start setup) := by
  have nonempty : setup.header ≠ [] := encodeRequest_ne_nil _ _ _ _
  have undecided := tryHeader_part_of_header setup fits setup.stamp
    (List.nil_append setup.header) nonempty
  unfold Session.start Serving.start
  rw [undecided]
  exact Stage.negotiating [] _ _ (by simp) (by simpa using nonempty)

theorem Stage.clientWrites (stage : Stage setup allowed before) {count : Nat}
    (taken : sessionStep setup before (.clientWrites count) = some after) :
    Stage setup allowed after := by
  cases stage with
  | negotiating buf unsent toServer split more =>
      simp only [sessionStep] at taken
      split at taken
      · cases taken
        have joined : toServer ++ unsent.take count ++ unsent.drop count =
            toServer ++ unsent := by
          rw [List.append_assoc, List.take_append_drop]
        apply Stage.negotiating buf
        · rw [joined, split]
        · rwa [joined]
      · contradiction
  | _ =>
      simp only [sessionStep, List.length_nil] at taken
      split at taken
      · omega
      · contradiction

theorem Stage.serverReads (fits : setup.target.DomainFits)
    (stage : Stage setup allowed before) {count : Nat} {now : UInt64} (shown : allowed now)
    (taken : sessionStep setup before (.serverReads count now) = some after) :
    Stage setup allowed after := by
  cases stage with
  | negotiating buf unsent toServer whole more =>
      simp only [sessionStep] at taken
      split at taken
      · cases taken
        have joined : buf ++ toServer.take count ++ (toServer.drop count ++ unsent) =
            setup.header := by
          rw [← whole, List.append_assoc, ← List.append_assoc (toServer.take count),
            List.take_append_drop]
        by_cases left : toServer.drop count ++ unsent = []
        · obtain ⟨nothingInFlight, nothingUnsent⟩ := List.append_eq_nil_iff.mp left
          rw [left, List.append_nil] at joined
          simp only [nothingInFlight, nothingUnsent, Serving.onRead, joined]
          rcases tryHeader_header setup fits now with ⟨agree, fresh, connects⟩ | deciding
          · rw [connects]
            exact Stage.connecting now shown agree fresh
          · exact Stage.replying now shown _ deciding
        · have waits := tryHeader_part_of_header setup fits now joined left
          simp only [Serving.onRead, waits]
          exact Stage.negotiating _ _ _ joined left
      · contradiction
  | opened shownAt wasShown agree fresh dial toServer delivered toClient uploaded
      downloaded received up down =>
      simp only [sessionStep] at taken
      split at taken
      · cases taken
        refine Stage.opened shownAt wasShown agree fresh dial _ _ _ _ _ _ ?_ down
        rw [up, List.append_assoc, List.take_append_drop]
      · contradiction
  | _ =>
      simp only [sessionStep, List.length_nil] at taken
      split at taken
      · omega
      · contradiction

theorem Stage.serverResumes (stage : Stage setup allowed before)
    (taken : sessionStep setup before .serverResumes = some after) :
    Stage setup allowed after := by
  cases stage with
  | negotiating buf unsent toServer whole more => contradiction
  | connecting now shown agree fresh =>
      obtain ⟨server, resumed, deciding, silent⟩ := resume_connect setup agree fresh
      simp only [sessionStep, resumed, Option.map_some, silent] at taken
      cases taken
      exact Stage.replying now shown server deciding
  | replying now shown server deciding =>
      obtain ⟨next, replyByte, resumed, done, written, silent⟩ := deciding.resume
      simp only [sessionStep, resumed, Option.map_some, silent, written] at taken
      cases taken
      exact Stage.answered now shown next replyByte done written []
  | answered now shown server replyByte done written downloaded =>
      simp [sessionStep, done.resume_none] at taken
  | opened => contradiction
  | refused now shown server replyByte done =>
      simp [sessionStep, done.resume_none] at taken

theorem Stage.clientReadsReply (stage : Stage setup allowed before)
    (taken : sessionStep setup before .clientReadsReply = some after) :
    Stage setup allowed after := by
  cases stage with
  | negotiating buf unsent toServer whole more => cases unsent <;> contradiction
  | connecting now shown agree fresh => contradiction
  | replying now shown server deciding =>
      cases deciding with
      | accepting _ _ _ did | undialled _ _ _ _ _ did | rejecting _ _ did =>
          rw [did] at taken
          contradiction
  | answered now shown server replyByte done written downloaded =>
      cases taken
      cases verdict : replyVerdict setup.target replyByte with
      | ok _ =>
          have accepted := replyVerdict_ok_iff.mp verdict
          obtain ⟨answer, wrote, relays⟩ := done.reply
          cases written.symm.trans wrote
          have relaying := relays.mp accepted
          cases done with
          | accepted agree fresh dial did =>
              rw [did]
              exact Stage.opened now shown agree fresh dial [] [] downloaded [] downloaded []
                rfl rfl
          | undialled _ _ _ _ _ did | rejected _ _ did =>
              rw [did] at relaying
              contradiction
      | error failure =>
          exact Stage.refused now shown server replyByte done written failure verdict _ _
  | opened => contradiction
  | refused => contradiction

theorem Stage.clientSends (stage : Stage setup allowed before) {chunk : Bytes}
    (taken : sessionStep setup before (.clientSends chunk) = some after) :
    Stage setup allowed after := by
  cases stage with
  | opened now shown agree fresh dial toServer delivered toClient uploaded downloaded
      received up down =>
      cases taken
      refine Stage.opened now shown agree fresh dial _ _ _ _ _ _ ?_ down
      rw [up, List.append_assoc]
  | _ => contradiction

theorem Stage.destinationSends (stage : Stage setup allowed before) {chunk : Bytes}
    (taken : sessionStep setup before (.destinationSends chunk) = some after) :
    Stage setup allowed after := by
  cases stage with
  | replying now shown server deciding =>
      cases deciding with
      | accepting _ _ _ did | undialled _ _ _ _ _ did | rejecting _ _ did =>
          rw [did] at taken
          contradiction
  | answered now shown server replyByte done written downloaded =>
      simp only [sessionStep] at taken
      split at taken
      · cases taken
        exact Stage.answered now shown server replyByte done written (downloaded ++ chunk)
      · contradiction
  | opened now shown agree fresh dial toServer delivered toClient uploaded downloaded
      received up down =>
      cases taken
      refine Stage.opened now shown agree fresh dial _ _ _ _ _ _ up ?_
      rw [down, List.append_assoc]
  | refused now shown server replyByte done written failure verdict toClient downloaded =>
      simp only [sessionStep] at taken
      split at taken
      · cases taken
        exact Stage.refused now shown server replyByte done written failure verdict _ _
      · contradiction
  | _ => contradiction

theorem Stage.clientReceives (stage : Stage setup allowed before) {count : Nat}
    (taken : sessionStep setup before (.clientReceives count) = some after) :
    Stage setup allowed after := by
  cases stage with
  | opened now shown agree fresh dial toServer delivered toClient uploaded downloaded
      received up down =>
      simp only [sessionStep] at taken
      split at taken
      · cases taken
        refine Stage.opened now shown agree fresh dial _ _ _ _ _ _ up ?_
        rw [down, List.append_assoc, List.take_append_drop]
      · contradiction
  | _ => contradiction

theorem Stage.step (fits : setup.target.DomainFits) (stage : Stage setup allowed before)
    (action : SessionAction) (permitted : ClockShows allowed before action)
    (taken : sessionStep setup before action = some after) : Stage setup allowed after := by
  cases action with
  | clientWrites count => exact stage.clientWrites taken
  | serverReads count now => exact stage.serverReads fits permitted taken
  | serverResumes => exact stage.serverResumes taken
  | clientReadsReply => exact stage.clientReadsReply taken
  | clientSends chunk => exact stage.clientSends taken
  | destinationSends chunk => exact stage.destinationSends taken
  | clientReceives count => exact stage.clientReceives taken

end Steps

theorem reachable_stage (setup : Setup) (fits : setup.target.DomainFits)
    {allowed : UInt64 → Prop} {session : Session}
    (reached : Reach (sessionStep setup) (ClockShows allowed) (Session.start setup) session) :
    Stage setup allowed session := by
  apply reached.invariant (Stage setup allowed) (start_stage setup fits allowed)
  intro before action after stage permitted taken
  exact stage.step fits action permitted taken

/-! ## No session stalls -/

/-- How far an await is from the relay. -/
def Serving.rank (server : Serving) : Nat :=
  match server.await with
  | .read _ => 4
  | .connect _ _ => 3
  | .reply _ _ => 2
  | .forward _ => 1
  | .relay => 0
  | .done _ => 0

/-- A bound on the steps the two parties still take inside `open`. -/
def Session.remaining (session : Session) : Nat :=
  match session.client with
  | .opening =>
      2 * session.unsent.length + session.toServer.length + Serving.rank session.server + 1
  | .returned _ => 0

/-- The action is not the destination's. -/
def SessionAction.OfParties : SessionAction → Prop
  | .destinationSends _ => False
  | _ => True

theorem resume_rank_lt {env : ServerEnv} {before after : Serving}
    (resumed : before.resume env = some after) :
    Serving.rank after < Serving.rank before := by
  cases Serving.resumes resumed <;> simp [Serving.rank]

theorem onRead_rank_le (env : ServerEnv) (now : UInt64) (chunk : Bytes) (server : Serving) :
    Serving.rank (server.onRead env now chunk) ≤ Serving.rank server := by
  obtain ⟨await, written, dialled, delivered⟩ := server
  cases await with
  | read buf =>
      simp only [Serving.onRead, Serving.rank]
      split <;> omega
  | _ => exact le_refl _

section Progress

variable {setup : Setup} {allowed : UInt64 → Prop} {before after : Session}

/-- Every step of a party brings `open` nearer to its end. -/
theorem remaining_lt (action : SessionAction) (own : action.OfParties)
    (opening : before.client = .opening)
    (taken : sessionStep setup before action = some after) :
    after.remaining < before.remaining := by
  cases sessionStep_moves taken with
  | clientWrites count positive enough =>
      simp only [Session.remaining, opening, List.length_drop, List.length_append,
        List.length_take]
      omega
  | serverReads count now positive enough accepts =>
      have nearer := onRead_rank_le setup.env now (before.toServer.take count) before.server
      simp only [Session.remaining, opening, List.length_drop]
      omega
  | serverResumes resumed =>
      have nearer := resume_rank_lt resumed
      simp only [Session.remaining, opening]
      omega
  | clientReadsReply => simp [Session.remaining, opening]
  | clientReadsEof => simp [Session.remaining, opening]
  | clientSends chunk opened =>
      rw [opening] at opened
      contradiction
  | destinationSends => exact absurd own id
  | clientReceives count opened =>
      rw [opening] at opened
      contradiction

theorem resume_enabled (session : Session) {server : Serving}
    (resumed : session.server.resume setup.env = some server) :
    ∃ after, sessionStep setup session .serverResumes = some after := by
  simp [sessionStep, resumed]

/-- Inside `open` one of the parties can move. -/
theorem Stage.party_moves (stage : Stage setup allowed before)
    (opening : before.client = .opening) {now : UInt64} (shown : allowed now) :
    ∃ action after, action.OfParties ∧ ClockShows allowed before action ∧
      sessionStep setup before action = some after := by
  cases stage with
  | negotiating buf unsent toServer whole more =>
      by_cases written : unsent = []
      · have inFlight : 0 < toServer.length := by
          rw [written, List.append_nil] at more
          exact List.length_pos_iff.mpr more
        refine ⟨.serverReads 1 now, _, trivial, shown, if_pos ⟨Nat.one_pos, inFlight, ?_⟩⟩
        show 1 ≤ maxHeader
        decide
      · have left : 0 < unsent.length := List.length_pos_iff.mpr written
        exact ⟨.clientWrites 1, _, trivial, trivial, if_pos ⟨Nat.one_pos, left⟩⟩
  | connecting _ _ agree fresh =>
      obtain ⟨server, resumed, _⟩ := resume_connect setup agree fresh
      obtain ⟨after, taken⟩ := resume_enabled ⟨.opening, [], [], _, [], [], [], []⟩ resumed
      exact ⟨.serverResumes, after, trivial, trivial, taken⟩
  | replying _ _ server deciding =>
      obtain ⟨next, _, resumed, _⟩ := deciding.resume
      obtain ⟨after, taken⟩ := resume_enabled ⟨.opening, [], [], _, [], [], [], []⟩ resumed
      exact ⟨.serverResumes, after, trivial, trivial, taken⟩
  | answered => exact ⟨.clientReadsReply, _, trivial, trivial, rfl⟩
  | opened => contradiction
  | refused => contradiction

/-- What makes `open` return: a party can move, its moves bring the end nearer,
the destination's do not delay it, and some run reaches it. -/
structure Completes (setup : Setup) (allowed : UInt64 → Prop) (session : Session) : Prop where
  party_moves : session.client = .opening →
    ∃ action after, action.OfParties ∧ ClockShows allowed session action ∧
      sessionStep setup session action = some after
  remaining_lt : session.client = .opening → ∀ action after, action.OfParties →
    sessionStep setup session action = some after → after.remaining < session.remaining
  remaining_le : ∀ chunk after,
    sessionStep setup session (.destinationSends chunk) = some after →
      after.remaining = session.remaining
  returns : ∃ later result,
    Reach (sessionStep setup) (ClockShows allowed) session later ∧
      later.client = .returned result

theorem Stage.completes (fits : setup.target.DomainFits) {session : Session}
    (stage : Stage setup allowed session) {now : UInt64} (shown : allowed now) :
    Completes setup allowed session := by
  refine ⟨fun opening => stage.party_moves opening shown, ?_, ?_, ?_⟩
  · intro opening action after own taken
    exact TunnelSession.remaining_lt action own opening taken
  · intro chunk after taken
    simp only [sessionStep] at taken
    split at taken
    · cases taken
      rfl
    · contradiction
  · have moves : ∀ state, Stage setup allowed state → ¬ state.client ≠ .opening →
        ∃ next, Steps (sessionStep setup) (ClockShows allowed) state next ∧
          Stage setup allowed next ∧ next.remaining < state.remaining := by
      intro state held unfinished
      have opening := not_not.mp unfinished
      obtain ⟨action, next, own, permitted, taken⟩ := held.party_moves opening shown
      exact ⟨next, ⟨action, permitted, taken⟩, held.step fits action permitted taken,
        TunnelSession.remaining_lt action own opening taken⟩
    obtain ⟨later, reached, left⟩ := reach_of_progress (Stage setup allowed)
      (fun state => state.client ≠ .opening) Session.remaining moves session stage
    cases finished : later.client with
    | opening => exact absurd finished left
    | returned result => exact ⟨later, result, reached, finished⟩

end Progress

end RealityHydra.TunnelSession
