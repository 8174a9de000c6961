import RealityHydra.HydraClient.Socks5Grammar
import RealityHydra.Lib.Relay
import RealityHydra.TunnelSession.Agreement

/-!
# From the application to the destination

After the reply byte both ends of the tunnel run `copy_bidirectional`: the client
between the application and the tunnel, the exit node between the tunnel and the
destination.  How it copies is a parameter; it is documented to copy both ways until both
have ended, and to return at the first failure, when both connections are dropped.
-/

set_option autoImplicit false

namespace RealityHydra.TunnelSession

open RealityHydra.HydraClient
open RealityHydra.HydraServer
open RealityHydra.Lib.ByteCodec
open RealityHydra.Lib.ByteSocket
open RealityHydra.Lib.Relay
open RealityHydra.Lib.Transition
open RealityHydra.TunnelProto

inductive Side where
  | client
  | exitNode
  deriving DecidableEq, Repr

/-- The place of a side's relay on the way up, and on the way down. -/
def Side.upHop : Side → Nat
  | .client => 0
  | .exitNode => 1

def Side.downHop : Side → Nat
  | .client => 1
  | .exitNode => 0

structure Path (σ : Type) where
  up : Line σ UInt8
  down : Line σ UInt8

inductive PathAction where
  | up (action : LineAction UInt8)
  | down (action : LineAction UInt8)
  /-- One side's relay returns an error, and what it wrote is cut off. -/
  | fails (side : Side) (keptUp keptDown : Nat)

/-- A relay fails in both directions or in none. -/
def ofOneWay : LineAction UInt8 → Bool
  | .hop _ (.fails _) => false
  | _ => true

def pathStep (copying : Copying UInt8) (path : Path copying.State) :
    PathAction → Option (Path copying.State)
  | .up action =>
      if ofOneWay action then
        (lineStep copying path.up action).map fun up => { path with up }
      else none
  | .down action =>
      if ofOneWay action then
        (lineStep copying path.down action).map fun down => { path with down }
      else none
  | .fails side keptUp keptDown =>
      (lineStep copying path.up (.hop side.upHop (.fails keptUp))).bind fun up =>
        (lineStep copying path.down (.hop side.downHop (.fails keptDown))).map fun down =>
          ⟨up, down⟩

/-- The path when `open` has returned: the application's bytes behind its request
are unread, and so is what the exit node has already relayed back. -/
def Path.opened (copying : Copying UInt8) (unread : Bytes) (session : Session) :
    Path copying.State where
  up :=
    { sent := unread
      closed := false
      first := ⟨unread, .opened⟩
      hops := [(copying.start, ⟨[], .opened⟩), (copying.start, ⟨[], .opened⟩)]
      received := [] }
  down :=
    { sent := session.downloaded
      closed := false
      first := ⟨[], .opened⟩
      hops := [(copying.start, ⟨session.toClient, .opened⟩), (copying.start, ⟨[], .opened⟩)]
      received := [] }

/-- The session of an accepted client, just opened. -/
def Setup.opened (setup : Setup) : Session where
  client := .returned (.ok ())
  unsent := []
  toServer := []
  server := ⟨.relay, [Reply.ok], [setup.target.display], []⟩
  toClient := []
  uploaded := []
  downloaded := []
  received := []

theorem Setup.opens (setup : Setup) (fits : setup.target.DomainFits) {allowed : UInt64 → Prop}
    {now : UInt64} (shown : allowed now) (agree : setup.MacsAgree) (fresh : setup.Fresh now)
    (dial : setup.env.dial setup.target.display = .ok ()) :
    Reach (sessionStep setup) (ClockShows allowed) (Session.start setup) setup.opened := by
  let actions : List SessionAction :=
    [.clientWrites setup.header.length, .serverReads setup.header.length now, .serverResumes,
      .serverResumes, .clientReadsReply]
  have written : 0 < setup.header.length :=
    List.length_pos_iff.mpr fun empty => encodeRequest_ne_nil _ _ _ _ empty
  have short : setup.header.length ≤ maxHeader := encodeRequest_length_le _ _ _ fits
  have reading : (Serving.start setup.env setup.stamp).await = .read [] := rfl
  have connects : tryHeader setup.env now setup.header = .connect setup.target.display [] := by
    simp [tryHeader, parse_header_accepted setup fits now agree fresh]
  have verdict : replyVerdict setup.target Reply.ok = .ok () := replyVerdict_ok_iff.mpr rfl
  have ran : runAll (sessionStep setup) (Session.start setup) actions = some setup.opened := by
    simp [actions, runAll, sessionStep, Session.start, written, Accepts, reading, short,
      Serving.onRead, connects, Serving.resume, dial, verdict, Setup.opened]
    exact ⟨rfl, rfl, rfl⟩
  refine reach_of_along ran (along_of_forall _ ?_)
  simp [actions, ClockShows, shown]

/-! ## Both ways at once -/

def Path.viewed {σ : Type} (shows : σ → Copier UInt8) (path : Path σ) : Path (Copier UInt8) :=
  ⟨path.up.viewed shows, path.down.viewed shows⟩

/-- What a step of a path can do, its relays seen as copiers. -/
inductive PathEffect (path : Path (Copier UInt8)) :
    PathAction → Path (Copier UInt8) → Prop where
  | up {action : LineAction UInt8} {up : Line (Copier UInt8) UInt8}
      (oneWay : ofOneWay action = true) (moved : LineEffect path.up action up) :
      PathEffect path (.up action) { path with up }
  | down {action : LineAction UInt8} {down : Line (Copier UInt8) UInt8}
      (oneWay : ofOneWay action = true) (moved : LineEffect path.down action down) :
      PathEffect path (.down action) { path with down }
  | fails {side : Side} {keptUp keptDown : Nat} {up down : Line (Copier UInt8) UInt8}
      (movedUp : LineEffect path.up (.hop side.upHop (.fails keptUp)) up)
      (movedDown : LineEffect path.down (.hop side.downHop (.fails keptDown)) down) :
      PathEffect path (.fails side keptUp keptDown) ⟨up, down⟩

section Seen

variable {copying : Copying UInt8} {shows : copying.State → Copier UInt8}

theorem pathStep_effect (documented : copying.Documented shows)
    {before after : Path copying.State} {action : PathAction}
    (taken : pathStep copying before action = some after) :
    PathEffect (before.viewed shows) action (after.viewed shows) := by
  cases action with
  | up action =>
      simp only [pathStep] at taken
      split at taken
      · rename_i oneWay
        obtain ⟨up, stepped, same⟩ := Option.map_eq_some_iff.mp taken
        cases same
        exact .up oneWay (lineStep_effect documented stepped)
      · contradiction
  | down action =>
      simp only [pathStep] at taken
      split at taken
      · rename_i oneWay
        obtain ⟨down, stepped, same⟩ := Option.map_eq_some_iff.mp taken
        cases same
        exact .down oneWay (lineStep_effect documented stepped)
      · contradiction
  | fails side keptUp keptDown =>
      obtain ⟨up, stepped, later⟩ := Option.bind_eq_some_iff.mp taken
      obtain ⟨down, steppedDown, same⟩ := Option.map_eq_some_iff.mp later
      cases same
      exact .fails (lineStep_effect documented stepped) (lineStep_effect documented steppedDown)

end Seen

structure Path.Sound (path : Path (Copier UInt8)) : Prop where
  up : path.up.Sound
  down : path.down.Sound

theorem Path.Sound.step {before after : Path (Copier UInt8)} (sound : before.Sound)
    {action : PathAction} (moved : PathEffect before action after) : after.Sound := by
  cases moved with
  | up _ moved => exact ⟨sound.up.step moved, sound.down⟩
  | down _ moved => exact ⟨sound.up, sound.down.step moved⟩
  | fails up down => exact ⟨sound.up.step up, sound.down.step down⟩

/-- What stands between a channel's reader and the end of the line. -/
def beyond : List (Copier UInt8 × Channel UInt8) → Bytes
  | [] => []
  | (copier, next) :: rest => beyond rest ++ next.flying ++ copier.held

def tunnelled : List (Copier UInt8 × Channel UInt8) → Bytes
  | [] => []
  | (_, tunnel) :: _ => tunnel.flying

/-- What the side beyond the tunnel has read from it. -/
def readBeyond (line : Line (Copier UInt8) UInt8) : Bytes := line.received ++ beyond line.hops.tail

/-- The session that two relays carry on. -/
def Path.session (setup : Setup) (path : Path (Copier UInt8)) : Session where
  client := .returned (.ok ())
  unsent := []
  toServer := tunnelled path.up.hops
  server := ⟨.relay, [Reply.ok], [setup.target.display], readBeyond path.up⟩
  toClient := tunnelled path.down.hops
  uploaded := readBeyond path.up ++ tunnelled path.up.hops
  downloaded := readBeyond path.down ++ tunnelled path.down.hops
  received := readBeyond path.down

section Refinement

variable {setup : Setup} {allowed : UInt64 → Prop} {now : UInt64}

variable {copying : Copying UInt8} {shows : copying.State → Copier UInt8}

end Refinement

/-- Neither a relay fails nor an end of the path resets its connection. -/
def Unharmed {σ : Type} (_ : Path σ) : PathAction → Prop
  | .fails _ _ _ | .up (.aborts _) | .down (.aborts _) => False
  | _ => True

/-- The relays and the two readers go on, whatever the ends of the path do. -/
def RelaysOnly {σ : Type} (path : Path σ) : PathAction → Prop
  | .up action => Relays path.up action
  | .down action => Relays path.down action
  | .fails _ _ _ => False

theorem lineEffect_healthy {before after : Line (Copier UInt8) UInt8}
    {action : LineAction UInt8} (oneWay : ofOneWay action = true)
    (unharmed : ∀ kept, action ≠ .aborts kept) (healthy : before.Healthy)
    (moved : LineEffect before action after) : after.Healthy := by
  cases moved with
  | sends => exact healthy
  | closes => exact ⟨shutDown_uncut _, healthy.2⟩
  | aborts kept => exact absurd rfl (unharmed kept)
  | hop index action moved =>
      have works : action.Works := by
        cases action <;> trivial
      exact healthy_hopsEffect works healthy moved
  | receives count => exact healthy_dropLast count healthy

structure Path.Healthy (path : Path (Copier UInt8)) : Prop where
  up : path.up.Healthy
  down : path.down.Healthy

theorem Path.Healthy.step {before after : Path (Copier UInt8)} (healthy : before.Healthy)
    {action : PathAction} (unharmed : Unharmed before action)
    (moved : PathEffect before action after) : after.Healthy := by
  cases moved with
  | up oneWay moved =>
      refine ⟨lineEffect_healthy oneWay ?_ healthy.up moved, healthy.down⟩
      rintro kept rfl
      exact unharmed
  | down oneWay moved =>
      refine ⟨healthy.up, lineEffect_healthy oneWay ?_ healthy.down moved⟩
      rintro kept rfl
      exact unharmed
  | fails => exact unharmed.elim

def Path.weight (path : Path (Copier UInt8)) : Nat := path.up.weight + path.down.weight

structure Path.Delivered {σ : Type} (path : Path σ) : Prop where
  up : path.up.Delivered
  down : path.down.Delivered

theorem relaysOnly_nearer {before after : Path (Copier UInt8)} {action : PathAction}
    (healthy : before.Healthy) (relays : RelaysOnly before action)
    (moved : PathEffect before action after) :
    after.weight < before.weight ∧ after.up.sent = before.up.sent ∧
      after.down.sent = before.down.sent ∧ after.up.closed = before.up.closed ∧
      after.down.closed = before.down.closed := by
  cases moved with
  | up _ moved =>
      obtain ⟨_, less, sent, closed⟩ := Line.relays_step relays healthy.up moved
      refine ⟨?_, sent, rfl, closed, rfl⟩
      simp only [Path.weight]
      omega
  | down _ moved =>
      obtain ⟨_, less, sent, closed⟩ := Line.relays_step relays healthy.down moved
      refine ⟨?_, rfl, sent, rfl, closed⟩
      simp only [Path.weight]
      omega
  | fails => exact relays.elim

theorem ofOneWay_of_relays {σ : Type} {line : Line σ UInt8} {action : LineAction UInt8}
    (relays : Relays line action) : ofOneWay action = true := by
  cases action with
  | hop index action => cases action <;> first | rfl | exact relays.elim
  | _ => rfl

theorem unharmed_viewed {σ : Type} (shows : σ → Copier UInt8) {path : Path σ}
    {action : PathAction} (unharmed : Unharmed path action) :
    Unharmed (path.viewed shows) action := by
  cases action with
  | up action => cases action <;> exact unharmed
  | down action => cases action <;> exact unharmed
  | fails => exact unharmed

theorem relaysOnly_viewed {σ : Type} (shows : σ → Copier UInt8) {path : Path σ}
    {action : PathAction} (relays : RelaysOnly path action) :
    RelaysOnly (path.viewed shows) action := by
  cases action with
  | up action => cases action <;> exact relays
  | down action => cases action <;> exact relays
  | fails => exact relays

theorem relaysOnly_unharmed {σ : Type} {path : Path σ} {action : PathAction}
    (relays : RelaysOnly path action) : Unharmed path action := by
  cases action with
  | up action => cases action <;> trivial
  | down action => cases action <;> trivial
  | fails => exact relays.elim

section Live

variable {copying : Copying UInt8} {shows : copying.State → Copier UInt8}
  (documented : copying.Documented shows)

include documented

theorem Path.Sound.relays_move {path : Path copying.State} (sound : (path.viewed shows).Sound)
    (healthy : (path.viewed shows).Healthy) :
    path.Delivered ∨ ∃ action later, RelaysOnly path action ∧
      pathStep copying path action = some later := by
  rcases Line.Sound.relays_move documented sound.up healthy.up with
    up | ⟨action, later, relays, taken⟩
  · rcases Line.Sound.relays_move documented sound.down healthy.down with
      down | ⟨action, later, relays, taken⟩
    · exact Or.inl ⟨up, down⟩
    · refine Or.inr ⟨.down action, { path with down := later }, relays, ?_⟩
      simp only [pathStep, ofOneWay_of_relays relays, if_true, taken, Option.map_some]
  · refine Or.inr ⟨.up action, { path with up := later }, relays, ?_⟩
    simp only [pathStep, ofOneWay_of_relays relays, if_true, taken, Option.map_some]

/-- Nothing has failed on the path, and every step of the relays counts. -/
structure Path.Live (shows : copying.State → Copier UInt8) (path : Path copying.State) :
    Prop where
  sound : (path.viewed shows).Sound
  healthy : (path.viewed shows).Healthy

theorem Path.Live.step {before after : Path copying.State} (live : before.Live shows)
    {action : PathAction} (unharmed : Unharmed before action)
    (taken : pathStep copying before action = some after) : after.Live shows := by
  have moved := pathStep_effect documented taken
  exact ⟨live.sound.step moved, live.healthy.step (unharmed_viewed shows unharmed) moved⟩

theorem Path.Live.nearer {before after : Path copying.State} (live : before.Live shows)
    {action : PathAction} (relays : RelaysOnly before action)
    (taken : pathStep copying before action = some after) :
    (after.viewed shows).weight < (before.viewed shows).weight ∧
      after.up.sent = before.up.sent ∧ after.down.sent = before.down.sent ∧
      after.up.closed = before.up.closed ∧ after.down.closed = before.down.closed :=
  relaysOnly_nearer live.healthy (relaysOnly_viewed shows relays)
    (pathStep_effect documented taken)

theorem Path.Live.delivers {path : Path copying.State} (live : path.Live shows) :
    ∃ later, Reach (pathStep copying) RelaysOnly path later ∧ later.Delivered ∧
      later.up.sent = path.up.sent ∧ later.down.sent = path.down.sent ∧
      later.up.closed = path.up.closed ∧ later.down.closed = path.down.closed := by
  let Kept (state : Path copying.State) : Prop :=
    state.Live shows ∧ state.up.sent = path.up.sent ∧ state.down.sent = path.down.sent ∧
      state.up.closed = path.up.closed ∧ state.down.closed = path.down.closed
  have moves : ∀ state, Kept state → ¬ (state.Delivered ∧ Kept state) → ∃ next,
      Steps (pathStep copying) RelaysOnly state next ∧ Kept next ∧
        (next.viewed shows).weight < (state.viewed shows).weight := by
    intro state kept unfinished
    obtain ⟨held, upSent, downSent, upClosed, downClosed⟩ := kept
    rcases Path.Sound.relays_move documented held.sound held.healthy with
      delivered | ⟨action, next, relays, taken⟩
    · exact absurd ⟨delivered, held, upSent, downSent, upClosed, downClosed⟩ unfinished
    · obtain ⟨less, up, down, upEnd, downEnd⟩ := held.nearer documented relays taken
      exact ⟨next, ⟨action, relays, taken⟩,
        ⟨held.step documented (relaysOnly_unharmed relays) taken, up.trans upSent,
          down.trans downSent, upEnd.trans upClosed, downEnd.trans downClosed⟩, less⟩
  obtain ⟨later, reached, delivered, _, rest⟩ :=
    reach_of_progress Kept (fun state => state.Delivered ∧ Kept state)
      (fun state => (state.viewed shows).weight) moves path ⟨live, rfl, rfl, rfl, rfl⟩
  exact ⟨later, reached, delivered, rest⟩

end Live

end RealityHydra.TunnelSession
