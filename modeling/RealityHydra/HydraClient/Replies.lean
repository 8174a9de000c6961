import RealityHydra.HydraClient.Connection

/-!
# What the application is told

The method selection and the CONNECT reply of a connection, against the greeting
and the request the application sent and what became of the tunnel.
-/

set_option autoImplicit false

namespace RealityHydra.HydraClient

open RealityHydra.Lib.ByteCodec
open RealityHydra.Lib.ByteSocket
open RealityHydra.Lib.Transition
open RealityHydra.TunnelProto

/-- A greeting of version 5 that offers `methods`. -/
def greeting (methods : Bytes) : Bytes := 0x05 :: UInt8.ofNat methods.length :: methods

def connectBytes (rsv : UInt8) (addr : Socks5Addr) : Bytes :=
  0x05 :: 0x01 :: rsv :: addr.requestBytes

def Greets (stream methods : Bytes) : Prop :=
  methods.length ≤ 255 ∧ greeting methods <+: stream

def Requests (stream : Bytes) (addr : Socks5Addr) : Prop :=
  addr.LengthFits ∧ ∃ (methods : Bytes) (rsv : UInt8),
    methods.length ≤ 255 ∧ greeting methods ++ connectBytes rsv addr <+: stream

/-- The method selection `05 00` was written. -/
def MethodSelected (written : Bytes) : Prop := [0x05, 0x00] <+: written

/-- A CONNECT reply with `REP = 0x00` was written after it. -/
def Succeeded (written : Bytes) : Prop := [0x05, 0x00, 0x05, 0x00] <+: written

/-- The tunnel for `addr` was opened and the exit node answered OK. -/
def Connection.OpenedFor (connection : Connection) (addr : Socks5Addr) : Prop :=
  ∃ dialed, connection.dialed = some dialed ∧ dialed.target = socksToTarget addr ∧
    dialed.result = .ok () ∧ dialed.peer.reply = .ok Reply.ok

structure Connection.Truthful (stream : Bytes) (connection : Connection) : Prop where
  method : MethodSelected connection.socket.written →
    ∃ methods, Greets stream methods ∧ 0x00 ∈ methods
  success : Succeeded connection.socket.written →
    ∃ addr, Requests stream addr ∧ connection.OpenedFor addr

/-- A complete greeting offers no authentication, and no complete request for an
address follows it. -/
structure Unanswered (stream : Bytes) : Prop where
  offers : ∀ methods, Greets stream methods → 0x00 ∈ methods
  requestless : ∀ addr, ¬ Requests stream addr

/-! ## The handshake and the grammar -/

theorem Greets.unique {stream left right : Bytes} (first : Greets stream left)
    (second : Greets stream right) : left = right := by
  obtain ⟨fewLeft, restLeft, whole⟩ := first
  obtain ⟨fewRight, restRight, other⟩ := second
  rw [← other] at whole
  simp only [greeting, List.cons_append, List.cons.injEq, true_and] at whole
  have lengths := congrArg UInt8.toNat whole.1
  rw [lengthByte_toNat fewLeft, lengthByte_toNat fewRight] at lengths
  exact (List.append_inj whole.2 lengths).1

theorem greet_returns_iff (stream : Bytes) :
    (∃ after, greet ⟨stream, []⟩ = .ok () after) ↔ ∃ methods, Greets stream methods := by
  simp only [greet_ok_iff]
  refine ⟨?_, ?_⟩
  · intro returned
    obtain ⟨after, methods, few, unread, _⟩ := returned
    exact ⟨methods, few, after.unread, unread.symm⟩
  · intro greets
    obtain ⟨methods, few, rest, whole⟩ := greets
    exact ⟨⟨rest, [0x05, 0x00]⟩, methods, few, whole.symm, rfl⟩

theorem handshake_returned {stream : Bytes} {addr : Socks5Addr} {after : Sock}
    (returned : handshake ⟨stream, []⟩ = .ok addr after) :
    (∃ methods, Greets stream methods) ∧ Requests stream addr ∧
      after.written = [0x05, 0x00] ++ replyBytes 0x00 := by
  obtain ⟨methods, rsv, few, fits, unread, written⟩ := (handshake_ok_iff ..).mp returned
  refine ⟨⟨methods, few, connectBytes rsv addr ++ after.unread, ?_⟩,
    ⟨fits, methods, rsv, few, after.unread, ?_⟩, written⟩
  · simpa [greeting, connectBytes] using unread.symm
  · simpa [greeting, connectBytes] using unread.symm

theorem handshake_of_requests {stream : Bytes} {addr : Socks5Addr}
    (requests : Requests stream addr) : ∃ after, handshake ⟨stream, []⟩ = .ok addr after := by
  obtain ⟨fits, methods, rsv, few, rest, whole⟩ := requests
  refine ⟨⟨rest, [0x05, 0x00] ++ replyBytes 0x00⟩, (handshake_ok_iff ..).mpr
    ⟨methods, rsv, few, fits, ?_, rfl⟩⟩
  rw [← whole]
  simp [greeting, connectBytes]

theorem Requests.unique {stream : Bytes} {left right : Socks5Addr}
    (first : Requests stream left) (second : Requests stream right) : left = right := by
  obtain ⟨after, returned⟩ := handshake_of_requests first
  obtain ⟨other, same⟩ := handshake_of_requests second
  rw [returned] at same
  cases same
  rfl

theorem handshake_stopped {stream : Bytes} {error : Socks5Error} {after : Sock}
    (stopped : handshake ⟨stream, []⟩ = .error error after) :
    (∀ addr, ¬ Requests stream addr) ∧
      ((∀ methods, ¬ Greets stream methods) ∧ after.written = [] ∨
        (∃ methods, Greets stream methods) ∧
          (after.written = [0x05, 0x00] ∨ ∃ status, status ≠ 0x00 ∧
            after.written = [0x05, 0x00] ++ replyBytes status)) := by
  refine ⟨?_, ?_⟩
  · intro addr requests
    obtain ⟨other, returned⟩ := handshake_of_requests requests
    rw [stopped] at returned
    contradiction
  · rcases handshake_written stopped with ⟨⟨early, ungreeted⟩, same⟩ | ⟨middle, greeted, answered⟩
    · refine Or.inl ⟨?_, same⟩
      intro methods greets
      obtain ⟨other, returned⟩ := (greet_returns_iff stream).mpr ⟨methods, greets⟩
      rw [ungreeted] at returned
      contradiction
    · exact Or.inr ⟨(greet_returns_iff stream).mp ⟨middle, greeted⟩, answered⟩

/-! ## What every connection has been told -/

/-- The address a connection has accepted and not yet dialed. -/
def Phase.undialed : Phase → Option Socks5Addr
  | .accepted addr | .refreshing addr | .choosing addr _ | .warming addr _ _ => some addr
  | .waiting | .relaying _ | .finished _ => none

inductive Connection.Follows (stream : Bytes) (connection : Connection) : Prop where
  | unread (phase : connection.phase = .waiting) (socket : connection.socket = ⟨stream, []⟩)
      (undialed : connection.dialed = none)
  | refused (e : Socks5Error) (phase : connection.phase = .finished (.error (.socks5 e)))
      (stopped : handshake ⟨stream, []⟩ = .error e connection.socket)
      (undialed : connection.dialed = none)
  | accepted (addr : Socks5Addr) (phase : connection.phase.undialed = some addr)
      (returned : handshake ⟨stream, []⟩ = .ok addr connection.socket)
      (undialed : connection.dialed = none)
  | failed (addr : Socks5Addr) (e : ClientError) (phase : connection.phase = .finished (.error e))
      (returned : handshake ⟨stream, []⟩ = .ok addr connection.socket)
  | opened (addr : Socks5Addr) (socket : Sock)
      (phase : connection.phase = .relaying addr ∨ connection.phase = .finished (.ok ()))
      (returned : handshake ⟨stream, []⟩ = .ok addr socket)
      (written : socket.written <+: connection.socket.written)
      (isOpen : connection.OpenedFor addr)

section Following

variable {stream : Bytes} {connection later : Connection}

theorem Connection.Follows.of_waiting (follows : connection.Follows stream)
    (waiting : connection.phase = .waiting) :
    connection.socket = ⟨stream, []⟩ ∧ connection.dialed = none := by
  cases follows with
  | unread phase socket undialed => exact ⟨socket, undialed⟩
  | refused e phase stopped undialed => simp [waiting] at phase
  | accepted addr phase returned undialed => simp [waiting, Phase.undialed] at phase
  | failed addr e phase returned => simp [waiting] at phase
  | opened addr socket phase returned written isOpen => simp [waiting] at phase

theorem Connection.Follows.of_undialed (follows : connection.Follows stream) {addr : Socks5Addr}
    (isPhase : connection.phase.undialed = some addr) :
    handshake ⟨stream, []⟩ = .ok addr connection.socket ∧ connection.dialed = none := by
  cases follows with
  | unread phase socket undialed => simp [phase, Phase.undialed] at isPhase
  | refused e phase stopped undialed => simp [phase, Phase.undialed] at isPhase
  | accepted other phase returned undialed =>
      rw [isPhase] at phase
      cases phase
      exact ⟨returned, undialed⟩
  | failed other e phase returned => simp [phase, Phase.undialed] at isPhase
  | opened other socket phase returned written isOpen =>
      rcases phase with phase | phase
      · simp [phase, Phase.undialed] at isPhase
      · simp [phase, Phase.undialed] at isPhase

theorem Connection.Follows.of_relaying (follows : connection.Follows stream) {addr : Socks5Addr}
    (relaying : connection.phase = .relaying addr) :
    ∃ socket, handshake ⟨stream, []⟩ = .ok addr socket ∧
      socket.written <+: connection.socket.written ∧ connection.OpenedFor addr := by
  cases follows with
  | unread phase socket undialed => simp [relaying] at phase
  | refused e phase stopped undialed => simp [relaying] at phase
  | accepted other phase returned undialed => simp [relaying, Phase.undialed] at phase
  | failed other e phase returned => simp [relaying] at phase
  | opened other socket phase returned written isOpen =>
      rcases phase with phase | phase
      · rw [relaying] at phase
        cases phase
        exact ⟨socket, returned, written, isOpen⟩
      · simp [relaying] at phase

variable {Draw K : Type} {setup : PipelineSetup Draw K}

theorem Connection.Follows.step (follows : connection.Follows stream)
    (moved : ConnectionStep setup connection later) : later.Follows stream := by
  cases moved with
  | shakeHands waiting =>
      obtain ⟨socket, undialed⟩ := follows.of_waiting waiting
      unfold Connection.shakeHands
      rw [socket]
      split
      · rename_i addr shaken returned
        exact .accepted addr rfl returned undialed
      · rename_i e shaken stopped
        exact .refused e rfl stopped undialed
  | refresh addr accepted =>
      obtain ⟨returned, undialed⟩ := follows.of_undialed (by rw [accepted]; rfl)
      exact .accepted addr rfl returned undialed
  | readMillis addr nowMs refreshing =>
      obtain ⟨returned, undialed⟩ := follows.of_undialed (by rw [refreshing]; rfl)
      exact .accepted addr rfl returned undialed
  | choose addr nowMs sni choosing listed =>
      obtain ⟨returned, undialed⟩ := follows.of_undialed (by rw [choosing]; rfl)
      exact .accepted addr rfl returned undialed
  | unset addr nowMs sni warming =>
      obtain ⟨returned, undialed⟩ := follows.of_undialed (by rw [warming]; rfl)
      exact .failed addr _ rfl returned
  | dial addr dialed tunnel now warming isTarget isResult =>
      obtain ⟨returned, undialed⟩ := follows.of_undialed (by rw [warming]; rfl)
      unfold Connection.dial
      split
      · rename_i isOk
        have answered := TunnelClient.open_ok (isResult.symm.trans isOk)
        exact .opened addr connection.socket (Or.inl rfl) returned (List.prefix_refl _)
          ⟨dialed, rfl, isTarget, isOk, answered⟩
      · exact .failed addr _ rfl returned
  | relay download addr relaying =>
      obtain ⟨socket, returned, written, isOpen⟩ := follows.of_relaying relaying
      exact .opened addr socket (Or.inl relaying) returned
        (written.trans (List.prefix_append ..)) isOpen
  | finish addr relaying =>
      obtain ⟨socket, returned, written, isOpen⟩ := follows.of_relaying relaying
      exact .opened addr socket (Or.inr rfl) returned written isOpen

end Following

/-! ## When it was the truth -/

theorem methodSelected_append (rest : Bytes) : MethodSelected ([0x05, 0x00] ++ rest) :=
  List.prefix_append ..

theorem not_succeeded_reply {status : UInt8} (failure : status ≠ 0x00) :
    ¬ Succeeded ([0x05, 0x00] ++ replyBytes status) := by
  intro succeeded
  obtain ⟨rest, whole⟩ := succeeded
  simp only [replyBytes, List.cons_append, List.nil_append, List.cons.injEq, true_and] at whole
  exact failure whole.1.symm

/-- Past the handshake the selection says that a greeting was read, and the
success reply that a request was. -/
theorem Connection.Follows.replies {stream : Bytes} {connection : Connection}
    (follows : connection.Follows stream) (begun : connection.phase ≠ .waiting) :
    (MethodSelected connection.socket.written ↔ ∃ methods, Greets stream methods) ∧
      (Succeeded connection.socket.written ↔ ∃ addr, Requests stream addr) := by
  have told : ∀ {addr : Socks5Addr} {socket : Sock}, handshake ⟨stream, []⟩ = .ok addr socket →
      socket.written <+: connection.socket.written →
      (MethodSelected connection.socket.written ↔ ∃ methods, Greets stream methods) ∧
        (Succeeded connection.socket.written ↔ ∃ addr, Requests stream addr) := by
    intro addr socket returned written
    obtain ⟨greets, requests, whole⟩ := handshake_returned returned
    rw [whole] at written
    have selected : MethodSelected connection.socket.written :=
      (methodSelected_append _).trans written
    have succeeded : Succeeded connection.socket.written :=
      List.IsPrefix.trans ⟨_, rfl⟩ written
    exact ⟨iff_of_true selected greets, iff_of_true succeeded ⟨addr, requests⟩⟩
  cases follows with
  | unread phase socket undialed => exact absurd phase begun
  | accepted addr phase returned undialed => exact told returned (List.prefix_refl _)
  | failed addr e phase returned => exact told returned (List.prefix_refl _)
  | opened addr socket phase returned written isOpen => exact told returned written
  | refused e phase stopped undialed =>
      obtain ⟨requestless, written⟩ := handshake_stopped stopped
      have none : ¬ ∃ addr, Requests stream addr := fun ⟨addr, requests⟩ =>
        requestless addr requests
      rcases written with ⟨ungreeted, empty⟩ | ⟨greets, selected | ⟨status, failure, replied⟩⟩
      · rw [empty]
        exact ⟨iff_of_false (by simp [MethodSelected]) fun ⟨methods, greets⟩ =>
          ungreeted methods greets, iff_of_false (by simp [Succeeded]) none⟩
      · rw [selected]
        exact ⟨iff_of_true (methodSelected_append []) greets,
          iff_of_false (by simp [Succeeded]) none⟩
      · rw [replied]
        exact ⟨iff_of_true (methodSelected_append _) greets,
          iff_of_false (not_succeeded_reply failure) none⟩

section Runs

variable {Draw K : Type} [LinearOrder K] {setup : PipelineSetup Draw K}
variable {Task : Type} [DecidableEq Task] {now : UInt64} {streams : Task → Bytes}

theorem reachable_follows {hub : Hub Task}
    (reached : Reach (hubStep setup) Anything (Hub.start setup now streams) hub) (task : Task) :
    (hub.connections task).Follows (streams task) := by
  apply reachable_connection (Connection.Follows (streams task)) reached
  · exact .unread rfl rfl rfl
  · exact fun connection later follows moved => follows.step moved

/-- Past the handshake, what a connection was told is true exactly if the
greeting offered the method and the requested tunnel is open by now. -/
theorem Connection.Follows.truthful_iff {stream : Bytes} {connection : Connection}
    (follows : connection.Follows stream) (begun : connection.phase ≠ .waiting) :
    connection.Truthful stream ↔
      (∀ methods, Greets stream methods → 0x00 ∈ methods) ∧
        ∀ addr, Requests stream addr → connection.OpenedFor addr := by
  obtain ⟨selected, succeeded⟩ := follows.replies begun
  refine ⟨?_, ?_⟩
  · intro truthful
    refine ⟨?_, ?_⟩
    · intro methods greets
      obtain ⟨offered, greeted, isIn⟩ := truthful.method (selected.mpr ⟨methods, greets⟩)
      rw [greets.unique greeted]
      exact isIn
    · intro addr requests
      obtain ⟨other, requested, isOpen⟩ := truthful.success (succeeded.mpr ⟨addr, requests⟩)
      rw [requests.unique requested]
      exact isOpen
  · intro honest
    refine ⟨?_, ?_⟩
    · intro isSelected
      obtain ⟨methods, greets⟩ := selected.mp isSelected
      exact ⟨methods, greets, honest.1 methods greets⟩
    · intro isSucceeded
      obtain ⟨addr, requests⟩ := succeeded.mp isSucceeded
      exact ⟨addr, requests, honest.2 addr requests⟩

theorem Connection.Follows.truthful_of_waiting {stream : Bytes} {connection : Connection}
    (follows : connection.Follows stream) (waiting : connection.phase = .waiting) :
    connection.Truthful stream := by
  have unwritten := follows.of_waiting waiting
  refine ⟨?_, ?_⟩
  · intro selected
    rw [unwritten.1] at selected
    exact absurd selected (by simp [MethodSelected])
  · intro succeeded
    rw [unwritten.1] at succeeded
    exact absurd succeeded (by simp [Succeeded])

theorem Connection.shakeHands_dialed (connection : Connection) :
    connection.shakeHands.dialed = connection.dialed := by
  unfold Connection.shakeHands
  split
  · rfl
  · rfl

theorem Connection.shakeHands_begun (connection : Connection) :
    connection.shakeHands.phase ≠ .waiting := by
  unfold Connection.shakeHands
  split
  · nofun
  · nofun

variable (setup now streams)

/-- The state in which the connection has just shaken hands. -/
theorem reach_shaken (task : Task) :
    ∃ hub, Reach (hubStep setup) Anything (Hub.start setup now streams) hub ∧
      (hub.connections task).phase ≠ .waiting ∧ (hub.connections task).dialed = none := by
  have ran : runAll (hubStep setup) (Hub.start setup now streams) [.handshake task] =
    some ((Hub.start setup now streams).setConnection task
      ((Hub.start setup now streams).connections task).shakeHands) := rfl
  refine ⟨_, reach_of_runAll ran, ?_, ?_⟩
  · rw [Hub.setConnection_self]
    exact Connection.shakeHands_begun _
  · rw [Hub.setConnection_self, Connection.shakeHands_dialed]
    rfl

end Runs

/-- The replies of a connection are truthful in every state exactly if its
greeting offers no authentication and no request follows, since the success
reply precedes the tunnel.  In a state past the handshake they are truthful
exactly if the greeting offered the method and the requested tunnel is open. -/
theorem replies_truthful_iff_unanswered {Draw K : Type} [LinearOrder K]
    (setup : PipelineSetup Draw K) {Task : Type} [DecidableEq Task] (now : UInt64)
    (streams : Task → Bytes) (task : Task) :
    ((∀ hub : Hub Task,
        Reach (hubStep setup) Anything (Hub.start setup now streams) hub →
        (hub.connections task).Truthful (streams task)) ↔ Unanswered (streams task)) ∧
    ∀ hub : Hub Task,
      Reach (hubStep setup) Anything (Hub.start setup now streams) hub →
      (hub.connections task).phase ≠ .waiting →
        ((hub.connections task).Truthful (streams task) ↔
          (∀ methods, Greets (streams task) methods → 0x00 ∈ methods) ∧
            ∀ addr, Requests (streams task) addr → (hub.connections task).OpenedFor addr) := by
  refine ⟨⟨?_, ?_⟩, fun hub reached begun => (reachable_follows reached task).truthful_iff begun⟩
  · intro truthful
    obtain ⟨hub, reached, begun, undialed⟩ := reach_shaken setup now streams task
    have honest := ((reachable_follows reached task).truthful_iff begun).mp (truthful hub reached)
    refine ⟨honest.1, ?_⟩
    intro addr requests
    obtain ⟨dialed, present, _⟩ := honest.2 addr requests
    rw [undialed] at present
    contradiction
  · intro unanswered hub reached
    have follows := reachable_follows reached task
    by_cases waiting : (hub.connections task).phase = .waiting
    · exact follows.truthful_of_waiting waiting
    · refine (follows.truthful_iff waiting).mpr ⟨unanswered.offers, ?_⟩
      intro addr requests
      exact (unanswered.requestless addr requests).elim

/-- An application that offers user name and password only, and asks for
127.0.0.1:80. -/
def passwordRequest : Bytes := [5, 1, 2, 5, 1, 0, 1, 127, 0, 0, 1, 0, 80]

/-- The pipeline has no exit node, so the connection ends with an error; its
application has been told that it is authenticated and connected. -/
theorem refused_connection_reported_open :
    ¬ ∀ hub : Hub Nat,
      Reach (hubStep twoNamesSetup) Anything
        (Hub.start twoNamesSetup 0 fun _ => passwordRequest) hub →
      (hub.connections 0).phase = .finished (.error .noServerAddr) →
        (hub.connections 0).Truthful passwordRequest := by
  intro truthful
  obtain ⟨hub, ran⟩ : ∃ hub, runAll (hubStep twoNamesSetup)
      (Hub.start twoNamesSetup 0 fun _ => passwordRequest)
      ([.handshake 0, .beginRefresh 0, .refresh (.readStored 0), .readMillis 0 5,
        .choose 0 (.finite 0), .warm (.look 0),
        .warm (.answer 0 (.error (.noAddresses "a.example"))),
        .dial 0 (sevenPeer []) 0] : List (HubAction Nat)) = some hub := ⟨_, rfl⟩
  have phase : (hub.connections 0).phase = .finished (.error .noServerAddr) := by
    rw [← Option.some.inj ran]
    decide +kernel
  have written : (hub.connections 0).socket.written =
      [5, 0, 5, 0, 0, 1, 0, 0, 0, 0, 0, 0] := by
    rw [← Option.some.inj ran]
    decide +kernel
  have selected : MethodSelected (hub.connections 0).socket.written := by
    rw [written]
    exact ⟨_, rfl⟩
  obtain ⟨methods, greets, offered⟩ := (truthful hub (reach_of_runAll ran) phase).method selected
  have password : Greets passwordRequest [2] := ⟨by decide, _, rfl⟩
  rw [greets.unique password] at offered
  exact absurd offered (by decide)

end RealityHydra.HydraClient
