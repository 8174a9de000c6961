import RealityHydra.HydraCli.MasterSecret
import RealityHydra.HydraServer.Node

/-!
# What a network can make the exit node dial

Whoever controls the network chooses every byte of every connection, having seen
every header that was ever made, but forges no tag.  The exit node then dials only
what a holder of the secret has asked for, and, as it keeps no record of the headers
it has served, each of them again for as long as it is fresh.
-/

set_option autoImplicit false

namespace RealityHydra.HydraServer

open RealityHydra.HydraCli
open RealityHydra.Lib.ByteCodec
open RealityHydra.Lib.StagedDecoder
open RealityHydra.Lib.Transition
open RealityHydra.Primitives
open RealityHydra.TunnelProto

/-- `uses` is everything the secret has authenticated, the seeds of the pools
included. -/
structure Network (Task : Type) where
  node : Node Task
  uses : List KeyUse

inductive NetworkAction (Task : Type) where
  | use (use : KeyUse)
  | node (action : NodeAction Task)

/-- Every message the stream begins with, under its valid tag, was authenticated. -/
def Unforged (hmac : HmacSha256) (key : Bytes) (uses : List KeyUse) (stream : Bytes) : Prop :=
  ∀ message rest, stream = message ++ ((hmac key message).toList ++ rest) →
    ∃ use ∈ uses, use.message = message

def Inbound.stream : Inbound → Bytes
  | .served held => held.stream
  | _ => []

def ReadsUnforged (hmac : HmacSha256) (key : Bytes) (uses : List KeyUse) (inbound : Inbound) :
    InboundAction → Prop
  | .reads chunk _ => Unforged hmac key uses (inbound.stream ++ chunk)
  | _ => True

section Machine

variable {Task : Type} [DecidableEq Task] (env : NodeEnv Task)

def Network.start : Network Task := ⟨Node.start, []⟩

def networkStep (network : Network Task) : NetworkAction Task → Option (Network Task)
  | .use use => some { network with uses := network.uses ++ [use] }
  | .node action => (nodeStep env network.node action).map fun node => { network with node }

def ForgesNothing (network : Network Task) : NetworkAction Task → Prop
  | .node (.task task action) =>
      ReadsUnforged env.hmac env.key network.uses (network.node.inbounds task) action
  | _ => True

end Machine

section Unforged

variable {hmac : HmacSha256} {key : Bytes} {uses : List KeyUse}

theorem unforged_nil : Unforged hmac key uses [] := by
  intro message rest same
  have length := congrArg List.length same
  simp only [List.length_append, Vector.length_toList, List.length_nil] at length
  omega

theorem Unforged.use {stream : Bytes} (unforged : Unforged hmac key uses stream)
    (use : KeyUse) : Unforged hmac key (uses ++ [use]) stream := by
  intro message rest same
  obtain ⟨made, member, isMessage⟩ := unforged message rest same
  exact ⟨made, List.mem_append_left _ member, isMessage⟩

/-- A seed is no header, and a header's message says what it asks for. -/
theorem Unforged.header_made {timestamp : UInt64} {target : Target} {rest : Bytes}
    (unforged : Unforged hmac key uses (encodeRequest hmac key timestamp target ++ rest)) :
    .header timestamp target ∈ uses := by
  obtain ⟨use, member, isMessage⟩ := unforged (signedBytes timestamp target) rest (by
    rw [encodeRequest, List.append_assoc]
    rfl)
  cases use with
  | seed serverSalt epoch => exact (seed_ne_header _ _ _ _ isMessage).elim
  | header stamp asked =>
      obtain ⟨sameStamp, sameTarget⟩ := signedBytes_injective isMessage
      rw [sameStamp, sameTarget] at member
      exact member

end Unforged

/-! ## A dialled connection -/

theorem settle_dialled (env : ServerEnv) (serving : Serving) :
    ∃ later, (serving.settle env).dialled = serving.dialled ++ later := by
  obtain ⟨await, written, dialled, delivered⟩ := serving
  cases await with
  | connect dest leftover =>
      refine ⟨[dest], ?_⟩
      unfold Serving.settle
      dsimp only
      split <;> rfl
  | reply replyByte next => cases next <;> exact ⟨[], (List.append_nil _).symm⟩
  | _ => exact ⟨[], (List.append_nil _).symm⟩

/-- Only an accepted header is dialled for. -/
theorem outcome_dialled {env : ServerEnv} {stream : Bytes} {closed : Bool}
    {answer : Except ProtoError ParsedRequest}
    (dialled : (outcome env stream closed answer).dialled ≠ []) :
    ∃ parsed, answer = .ok parsed ∧
      (outcome env stream closed answer).dialled = [parsed.target.display] := by
  cases answer with
  | ok parsed =>
      refine ⟨parsed, rfl, ?_⟩
      simp only [outcome]
      split <;> rfl
  | error rejected => cases rejected <;> exact absurd rfl dialled

/-- What a connection that has dialled has been sent, and when. -/
structure Served.Asked (env : ServerEnv) (served : Served) (timestamp : UInt64)
    (target : Target) : Prop where
  header : ∃ rest, served.stream = encodeRequest env.hmac env.key timestamp target ++ rest
  dialled : served.serving.dialled = [target.display]
  fresh : ∃ deciding ≤ served.reads.length,
    |((served.clock deciding).toNat : Int) - timestamp.toNat| ≤ env.maxSkew.toNat

theorem Served.Handled.asked {env : ServerEnv} {served : Served} (handled : served.Handled env)
    (dialled : served.serving.dialled ≠ []) :
    ∃ timestamp target, served.Asked env timestamp target := by
  obtain ⟨later, settled⟩ := settle_dialled env served.serving
  rw [handled.settles, handle_eq_outcome] at settled
  have settledDialled : served.serving.dialled ++ later ≠ [] := by simp [dialled]
  rw [← settled] at settledDialled
  obtain ⟨parsed, accepted, one⟩ := outcome_dialled settledDialled
  obtain ⟨encoded, _, _, fresh⟩ := parseRequest_sound _ _ _ _ _ _ accepted
  refine ⟨parsed.timestamp, parsed.target, encoded, ?_, _, ?_, fresh⟩
  · rw [one] at settled
    cases held : served.serving.dialled with
    | nil => exact absurd held dialled
    | cons first rest =>
        rw [held] at settled
        obtain ⟨same, none⟩ := List.cons.inj settled
        rw [same, (List.append_eq_nil_iff.mp none.symm).1]
  · have within := headerDecoder.decidingChunk_le (served.reads.map Prod.fst) []
    rw [List.length_map] at within
    exact within

section Reached

variable {Task : Type} [DecidableEq Task] {env : NodeEnv Task}

theorem inboundStep_stream {senv : ServerEnv} {before after : Inbound} {action : InboundAction}
    (taken : inboundStep senv before action = some after) :
    after.stream = before.stream ∨
      ∃ chunk now, action = .reads chunk now ∧ after.stream = before.stream ++ chunk := by
  unfold inboundStep at taken
  split at taken
  · cases taken
    exact Or.inl rfl
  · cases taken
    exact Or.inl rfl
  · cases taken
    exact Or.inl rfl
  · rename_i served chunk now
    split at taken
    · cases taken
      exact Or.inr ⟨chunk, now, rfl, by simp [Inbound.stream, Served.stream]⟩
    · contradiction
  · split at taken
    · cases taken
      exact Or.inl rfl
    · contradiction
  · obtain ⟨serving, _, same⟩ := Option.map_eq_some_iff.mp taken
    cases same
    exact Or.inl rfl
  · contradiction

/-- A connection has done what `handle` does, on a stream without a forged tag. -/
structure Network.Sound (env : NodeEnv Task) (network : Network Task) (task : Task) : Prop where
  handled : (network.node.inbounds task).Handled (env.of task)
  unforged : Unforged env.hmac env.key network.uses (network.node.inbounds task).stream

theorem Network.Sound.step {before after : Network Task} {task : Task}
    (sound : before.Sound env task) (action : NetworkAction Task)
    (honest : ForgesNothing env before action)
    (taken : networkStep env before action = some after) : after.Sound env task := by
  cases action with
  | use use =>
      cases taken
      exact ⟨sound.handled, sound.unforged.use use⟩
  | node action =>
      obtain ⟨node, stepped, same⟩ := Option.map_eq_some_iff.mp taken
      cases same
      cases action with
      | listenerFails error =>
          have kept := nodeStep_listenerFails stepped
          constructor
          · rw [kept]
            exact sound.handled
          · rw [kept]
            exact sound.unforged
      | task other action =>
          obtain ⟨inbound, moved, same⟩ := nodeStep_task stepped
          subst same
          by_cases own : other = task
          · subst own
            constructor
            · rw [setInbound_self]
              exact inboundStep_handled action sound.handled moved
            · rw [setInbound_self]
              rcases inboundStep_stream moved with same | ⟨chunk, now, isRead, longer⟩
              · rw [same]
                exact sound.unforged
              · subst isRead
                rw [longer]
                exact honest
          · have kept := setInbound_of_ne before.node inbound (Ne.symm own)
            constructor
            · rw [kept]
              exact sound.handled
            · rw [kept]
              exact sound.unforged

theorem network_sound {network : Network Task}
    (reached : Reach (networkStep env) (ForgesNothing env) Network.start network) (task : Task) :
    network.Sound env task := by
  refine reached.invariant (fun network => network.Sound env task) ⟨trivial, unforged_nil⟩ ?_
  intro before action after sound honest taken
  exact sound.step action honest taken

omit [DecidableEq Task] in
theorem Network.Sound.asked {network : Network Task} {task : Task} (sound : network.Sound env task)
    {served : Served} (isServed : network.node.inbounds task = .served served)
    (dialled : served.serving.dialled ≠ []) :
    ∃ timestamp target, .header timestamp target ∈ network.uses ∧
      served.Asked (env.of task) timestamp target := by
  obtain ⟨handled, unforged⟩ := sound
  rw [isServed] at handled unforged
  obtain ⟨timestamp, target, asked⟩ := Served.Handled.asked handled dialled
  obtain ⟨rest, stream⟩ := asked.header
  refine ⟨timestamp, target, ?_, asked⟩
  have whole : Unforged env.hmac env.key network.uses
      (encodeRequest env.hmac env.key timestamp target ++ rest) := stream ▸ unforged
  exact whole.header_made

/-- Whatever the network delivers on any number of connections, in any order and at
any time, a connection that has dialled was sent a header that a holder of the secret
has made, it has dialled the target of that header and nothing else, and its clock was
within the skew of the header's timestamp when it decided. -/
theorem only_requested_targets_are_dialled (env : NodeEnv Task) (network : Network Task)
    (reached : Reach (networkStep env) (ForgesNothing env) Network.start network)
    (task : Task) (served : Served) (isServed : network.node.inbounds task = .served served)
    (dialled : served.serving.dialled ≠ []) :
    ∃ timestamp target, .header timestamp target ∈ network.uses ∧
      served.Asked (env.of task) timestamp target :=
  (network_sound reached task).asked isServed dialled

end Reached

theorem unforged_of_checked {hmac : HmacSha256} {key : Bytes} {uses : List KeyUse}
    {stream : Bytes}
    (checked : ∀ count < stream.length,
      (stream.drop count).take 32 = (hmac key (stream.take count)).toList →
        ∃ use ∈ uses, use.message = stream.take count) :
    Unforged hmac key uses stream := by
  intro message rest same
  have begins : stream.take message.length = message := by rw [same, List.take_left]
  have tagged : (stream.drop message.length).take 32 = (hmac key message).toList := by
    rw [same, List.drop_left, List.take_left' Vector.length_toList]
  have inside : message.length < stream.length := by
    have length := congrArg List.length same
    simp only [List.length_append, Vector.length_toList] at length
    omega
  have made := checked message.length inside
  rw [begins] at made
  exact made tagged

/-! ## A header delivered again -/

/-- The header on a connection of its own, read at once at `now`. -/
def replayActions (header : Bytes) (now : UInt64) : List InboundAction :=
  [.accept, .shakes (.ok now), .reads header now, .resumes]

theorem start_reading (env : ServerEnv) (now : UInt64) :
    (Serving.start env now).await = .read [] := rfl

/-- What the header brings a connection to: a dial, or the refusal of its tag's age. -/
inductive Served.Replayed (env : ServerEnv) (timestamp now : UInt64) (target : Target)
    (served : Served) : Prop where
  | dials (fresh : |(now.toNat : Int) - timestamp.toNat| ≤ env.maxSkew.toNat)
      (dialled : served.serving.dialled = [target.display])
      (silent : served.serving.written = [])
  | refuses (stale : ¬ |(now.toNat : Int) - timestamp.toNat| ≤ env.maxSkew.toNat)
      (dialled : served.serving.dialled = [])
      (refusal : served.serving.written = [Reply.authFail])

theorem tryHeader_replayed (env : ServerEnv) (timestamp now : UInt64) {target : Target}
    (fits : target.DomainFits) :
    let header := encodeRequest env.hmac env.key timestamp target
    ∃ serving,
      Serving.resume env ⟨tryHeader env now header, [], [], []⟩ = some serving ∧
      ∀ started reads closed,
        Served.Replayed env timestamp now target ⟨serving, started, reads, closed⟩ := by
  intro header
  have complete := parseRequest_complete env.hmac env.key [] timestamp now env.maxSkew target fits
  rw [List.append_nil] at complete
  by_cases fresh : |(now.toNat : Int) - timestamp.toNat| ≤ env.maxSkew.toNat
  · have accepted : parseRequest env.hmac header env.key now env.maxSkew =
        .ok { target, timestamp, consumed := header.length } := by
      rw [complete]
      exact (checkFresh_ok_iff ..).mpr ⟨rfl, fresh⟩
    have connects : tryHeader env now header = .connect target.display
        (header.drop header.length) := by
      simp only [tryHeader, accepted]
    rw [connects]
    unfold Serving.resume
    dsimp only
    split
    · exact ⟨_, rfl, fun _ _ _ => .dials fresh rfl rfl⟩
    · exact ⟨_, rfl, fun _ _ _ => .dials fresh rfl rfl⟩
  · have refused : parseRequest env.hmac header env.key now env.maxSkew =
        .error (.stale env.maxSkew) := by
      rw [complete]
      unfold checkFresh
      split
      · rfl
      · rename_i within
        exfalso
        apply fresh
        have skew := absDiff_toNat now timestamp
        have small := mt UInt64.lt_iff_toNat_lt.mpr within
        dsimp only at small
        omega
    have replies : tryHeader env now header = .reply Reply.authFail
        (.fail ⟨"rejected header: " ++ (ProtoError.stale env.maxSkew).message⟩) := by
      simp only [tryHeader, refused]
    rw [replies]
    exact ⟨_, rfl, fun _ _ _ => .refuses fresh rfl rfl⟩

theorem inbound_replay (env : ServerEnv) (timestamp now : UInt64) {target : Target}
    (fits : target.DomainFits) :
    ∃ served, runAll (inboundStep env) .unaccepted
        (replayActions (encodeRequest env.hmac env.key timestamp target) now) =
          some (.served served) ∧
      served.Replayed env timestamp now target := by
  obtain ⟨serving, resumed, replayed⟩ := tryHeader_replayed env timestamp now fits
  have takes : Served.Takes ⟨Serving.start env now, now, [], false⟩
      (encodeRequest env.hmac env.key timestamp target) :=
    ⟨rfl, fun empty => encodeRequest_ne_nil _ _ _ _ empty, encodeRequest_length_le _ _ _ fits⟩
  refine ⟨_, ?_, replayed now [(encodeRequest env.hmac env.key timestamp target, now)] false⟩
  simp only [replayActions, runAll, inboundStep, Option.bind_some, if_pos takes]
  have read : Serving.onRead env now (encodeRequest env.hmac env.key timestamp target)
      (Serving.start env now) =
        ⟨tryHeader env now (encodeRequest env.hmac env.key timestamp target), [], [], []⟩ := by
    unfold Serving.onRead
    rw [start_reading]
    rfl
  rw [read, resumed]
  rfl

section Replays

variable {Task : Type} [DecidableEq Task] {env : NodeEnv Task}

def ofTask (task : Task) (actions : List InboundAction) : List (NodeAction Task) :=
  actions.map (.task task)

theorem runAll_ofTask {node : Node Task} (running : node.stopped = none) (task : Task)
    {actions : List InboundAction} {last : Inbound}
    (ran : runAll (inboundStep (env.of task)) (node.inbounds task) actions = some last) :
    runAll (nodeStep env) node (ofTask task actions) = some (node.setInbound task last) := by
  induction actions generalizing node with
  | nil =>
      cases Option.some.inj ran
      simp [ofTask, runAll, Node.setInbound]
  | cons action rest ih =>
      obtain ⟨next, taken, later⟩ := Option.bind_eq_some_iff.mp ran
      have onward := ih (show (node.setInbound task next).stopped = none from running)
        (by rw [setInbound_self]; exact later)
      have overwritten : (node.setInbound task next).setInbound task last =
          node.setInbound task last := by
        simp [Node.setInbound]
      simp only [ofTask, List.map_cons, runAll, nodeStep, running, taken, Option.map_some,
        Option.bind_some]
      rw [overwritten] at onward
      exact onward

/-- The node keeps no record of a header: delivered on any number of further
connections, whatever it has served before, it is dialled for on every one of them if
the clock is within the skew of its timestamp, and on none otherwise. -/
theorem header_replays_while_fresh (env : NodeEnv Task) (timestamp now : UInt64)
    (target : Target) (fits : target.DomainFits) (node : Node Task)
    (running : node.stopped = none) (tasks : List Task) (distinct : tasks.Nodup)
    (unused : ∀ task ∈ tasks, node.inbounds task = .unaccepted) :
    ∃ later, runAll (nodeStep env) node
        (tasks.flatMap fun task => ofTask task
          (replayActions (encodeRequest env.hmac env.key timestamp target) now)) = some later ∧
      (∀ task, task ∉ tasks → later.inbounds task = node.inbounds task) ∧
      ∀ task ∈ tasks, ∃ served, later.inbounds task = .served served ∧
        served.Replayed (env.of task) timestamp now target := by
  induction tasks generalizing node with
  | nil => exact ⟨node, rfl, fun _ _ => rfl, nofun⟩
  | cons first rest ih =>
      obtain ⟨fresh, others⟩ := List.nodup_cons.mp distinct
      obtain ⟨served, ran, replayed⟩ := inbound_replay (env.of first) timestamp now fits
      have started := unused first List.mem_cons_self
      rw [← started] at ran
      have moved := runAll_ofTask running first ran
      obtain ⟨later, onward, untouched, all⟩ := ih (node.setInbound first (.served served))
        running others (by
          intro task member
          have different : task ≠ first := fun same => fresh (same ▸ member)
          rw [setInbound_of_ne node _ different]
          exact unused task (List.mem_cons_of_mem _ member))
      refine ⟨later, ?_, ?_, ?_⟩
      · rw [List.flatMap_cons, runAll_append]
        exact Option.bind_eq_some_iff.mpr ⟨_, moved, onward⟩
      · intro task outside
        have notFirst : task ≠ first := fun same => outside (same ▸ List.mem_cons_self)
        have notRest : task ∉ rest := fun member => outside (List.mem_cons_of_mem _ member)
        rw [untouched task notRest, setInbound_of_ne node _ notFirst]
      · intro task member
        rcases List.mem_cons.mp member with isFirst | isRest
        · subst isFirst
          refine ⟨served, ?_, replayed⟩
          rw [untouched task fresh, setInbound_self]
        · exact all task isRest

/-- The network delivers, and nobody uses the secret. -/
def DeliversOnly (env : NodeEnv Task) (network : Network Task) : NetworkAction Task → Prop
  | .node action => ForgesNothing env network (.node action)
  | .use _ => False

omit [DecidableEq Task] in
theorem DeliversOnly.honest {network : Network Task} {action : NetworkAction Task}
    (delivers : DeliversOnly env network action) : ForgesNothing env network action := by
  cases action with
  | node action => exact delivers
  | use use => exact delivers.elim

/-- What one connection can be brought to without a forgery, the network can do. -/
theorem reach_ofTask {node : Node Task} {uses : List KeyUse} (running : node.stopped = none)
    (task : Task) {actions : List InboundAction} {last : Inbound}
    (ran : runAll (inboundStep (env.of task)) (node.inbounds task) actions = some last)
    (along : Along (inboundStep (env.of task)) (ReadsUnforged env.hmac env.key uses)
      (node.inbounds task) actions) :
    Reach (networkStep env) (DeliversOnly env) ⟨node, uses⟩
      ⟨node.setInbound task last, uses⟩ := by
  have steps : ∀ {inbound : Inbound} {actions : List InboundAction},
      runAll (inboundStep (env.of task)) inbound actions = some last →
      Along (inboundStep (env.of task)) (ReadsUnforged env.hmac env.key uses) inbound actions →
      Reach (networkStep env) (DeliversOnly env) ⟨node.setInbound task inbound, uses⟩
        ⟨node.setInbound task last, uses⟩ := by
    intro inbound actions ran along
    induction actions generalizing inbound with
    | nil =>
        cases Option.some.inj ran
        exact .refl
    | cons action rest ih =>
        obtain ⟨next, taken, later⟩ := Option.bind_eq_some_iff.mp ran
        refine .head ⟨.node (.task task action), ?_, ?_⟩ (ih later (along.2 next taken))
        · simpa only [DeliversOnly, ForgesNothing, setInbound_self] using along.1
        · have stopped : (node.setInbound task inbound).stopped = none := running
          simp only [networkStep, nodeStep, stopped, setInbound_self, taken, Option.map_some]
          simp [Node.setInbound]
  have unmoved : node.setInbound task (node.inbounds task) = node := by
    simp [Node.setInbound]
  have reached := steps ran along
  rwa [unmoved] at reached

end Replays

/-- Tags that tell messages apart by their length. -/
def lengthEnv : NodeEnv Unit where
  hmac _ message := Vector.replicate 32 (UInt8.ofNat (message.length + 100))
  key := []
  maxSkew := 5
  dial _ _ := .ok ()

def webTarget : Target := ⟨.v4 (Vector.replicate 4 127), 80⟩

def webHeader : Bytes := encodeRequest lengthEnv.hmac lengthEnv.key 7 webTarget

theorem webHeader_unforged :
    Unforged lengthEnv.hmac lengthEnv.key [.header 7 webTarget] webHeader :=
  unforged_of_checked (by decide +kernel)

theorem replayActions_unforged (now : UInt64) :
    Along (inboundStep (lengthEnv.of ()))
      (ReadsUnforged lengthEnv.hmac lengthEnv.key [.header 7 webTarget]) .unaccepted
      (replayActions webHeader now) := by
  refine ⟨trivial, ?_⟩
  intro shaking accepted
  cases Option.some.inj accepted
  refine ⟨trivial, ?_⟩
  intro started shaken
  cases Option.some.inj shaken
  exact ⟨webHeader_unforged, fun _ _ => ⟨trivial, fun _ _ => trivial⟩⟩

theorem requested_web_target_is_dialled :
    ∃ (network : Network Unit) (served : Served),
      Reach (networkStep lengthEnv) (ForgesNothing lengthEnv) Network.start network ∧
      network.node.inbounds () = .served served ∧ served.serving.dialled ≠ [] ∧
      ∃ timestamp target, .header timestamp target ∈ network.uses ∧
        served.Asked (lengthEnv.of ()) timestamp target := by
  have fits : webTarget.DomainFits := by decide
  obtain ⟨served, ran, replayed⟩ := inbound_replay (lengthEnv.of ()) 7 9 fits
  have delivered := reach_ofTask (show Node.start.stopped = none from rfl) () ran
    (replayActions_unforged 9)
  have reached : Reach (networkStep lengthEnv) (ForgesNothing lengthEnv) Network.start
      ⟨Node.start.setInbound () (.served served), [.header 7 webTarget]⟩ :=
    .head ⟨.use (.header 7 webTarget), trivial, rfl⟩
      (delivered.mono fun _ _ delivers => delivers.honest)
  have isServed := setInbound_self Node.start () (.served served)
  have dialled : served.serving.dialled ≠ [] := by
    cases replayed with
    | dials _ dialled => simp [dialled]
    | refuses stale => exact absurd (by decide) stale
  exact ⟨_, served, reached, isServed, dialled, only_requested_targets_are_dialled lengthEnv _
    reached () served isServed dialled⟩

theorem web_header_replays_twice :
    (∀ task ∈ [true, false], (Node.start : Node Bool).inbounds task = .unaccepted) ∧
    ∃ later, runAll (nodeStep ⟨lengthEnv.hmac, lengthEnv.key, 5, fun _ _ => .ok ()⟩) Node.start
        ([true, false].flatMap fun task => ofTask task (replayActions webHeader 9)) =
          some later ∧
      (∀ task, task ∉ [true, false] → later.inbounds task = Node.start.inbounds task) ∧
      ∀ task ∈ [true, false], ∃ served, later.inbounds task = .served served ∧
        served.Replayed ⟨lengthEnv.hmac, lengthEnv.key, 5, fun _ => .ok ()⟩ 7 9 webTarget :=
  ⟨fun _ _ => rfl, header_replays_while_fresh
    ⟨lengthEnv.hmac, lengthEnv.key, 5, fun _ _ => .ok ()⟩ 7 9 webTarget (by decide) Node.start rfl
    [true, false] (by decide) (fun _ _ => rfl)⟩

end RealityHydra.HydraServer
