import RealityHydra.Lib.Transition

/-!
# Bytes relayed along a line

A line is a writer, any number of relays and a reader, with a channel between each
two.  How a relay copies is a parameter.  It is known to copy its source to its sink in
order, to shut the sink down when the source has ended and been drained, and to fail at
any time; the sink is then cut, and may lose what was under way.  Nothing arrives but a
prefix of what was sent, and an orderly end only after all of it.
-/

set_option autoImplicit false

namespace RealityHydra.Lib.Relay

open RealityHydra.Lib.Transition

inductive Ending where
  | opened
  | shut
  | cut
  deriving DecidableEq, Repr

/-- What is under way, and whether the writer's end is still open. -/
structure Channel (α : Type) where
  flying : List α
  ending : Ending

/-- How far a relay is, with the bytes that it has read and not yet written. -/
inductive Copier (α : Type) where
  | running (held : List α)
  | shuttingDown
  | done
  | failed

inductive HopAction where
  | reads (count : Nat)
  | writes (count : Nat)
  | ends
  | shuts
  | fails (kept : Nat)

/-- A relay between a source and a sink, whatever its state consists of. -/
structure Copying (α : Type) where
  State : Type
  start : State
  step : Channel α → State → Channel α → HopAction → Option (Channel α × State × Channel α)

structure Line (σ α : Type) where
  sent : List α
  closed : Bool
  first : Channel α
  hops : List (σ × Channel α)
  received : List α

inductive LineAction (α : Type) where
  | sends (chunk : List α)
  | closes
  | aborts (kept : Nat)
  | hop (index : Nat) (action : HopAction)
  | receives (count : Nat)

section Machine

variable {α : Type}

def Channel.push (channel : Channel α) (chunk : List α) : Channel α :=
  { channel with flying := channel.flying ++ chunk }

def Channel.drop (channel : Channel α) (count : Nat) : Channel α :=
  { channel with flying := channel.flying.drop count }

def Channel.shutDown (channel : Channel α) : Channel α := { channel with ending := .shut }

theorem shutDown_uncut (channel : Channel α) : channel.shutDown.ending ≠ .cut := by
  simp [Channel.shutDown]

/-- Cut, with the first `kept` of what was under way still to arrive. -/
def Channel.sever (channel : Channel α) (kept : Nat) : Channel α :=
  ⟨channel.flying.take kept, .cut⟩

/-- A relay that has finished is not undone by a later failure. -/
def Copier.fail : Copier α → Copier α
  | .done => .done
  | _ => .failed

def HopAction.Works : HopAction → Prop
  | .fails _ => False
  | _ => True

/-- What a step of a relay can do. -/
inductive HopEffect (source : Channel α) :
    Copier α → Channel α → HopAction → Channel α × Copier α × Channel α → Prop where
  | reads (held : List α) (sink : Channel α) (count : Nat) (positive : 0 < count)
      (enough : count ≤ source.flying.length) :
      HopEffect source (.running held) sink (.reads count)
        (source.drop count, .running (held ++ source.flying.take count), sink)
  | writes (held : List α) (sink : Channel α) (count : Nat) (positive : 0 < count)
      (enough : count ≤ held.length) :
      HopEffect source (.running held) sink (.writes count)
        (source, .running (held.drop count), sink.push (held.take count))
  | ends (sink : Channel α) (drained : source.flying = []) (isShut : source.ending = .shut) :
      HopEffect source (.running []) sink .ends (source, .shuttingDown, sink)
  | shuts (sink : Channel α) :
      HopEffect source .shuttingDown sink .shuts (source, .done, sink.shutDown)
  | fails (copier : Copier α) (sink : Channel α) (kept : Nat) :
      HopEffect source copier sink (.fails kept) (source, copier.fail, sink.sever kept)

/-- A relay has something to do. -/
inductive Copier.Due (source : Channel α) : Copier α → Prop where
  | writes (held : List α) (some : held ≠ []) : Copier.Due source (.running held)
  | reads (some : source.flying ≠ []) : Copier.Due source (.running [])
  | ends (drained : source.flying = []) (isShut : source.ending = .shut) :
      Copier.Due source (.running [])
  | shuts : Copier.Due source .shuttingDown

/-- What is known of a relay: seen as a copier it starts with nothing, does what a copier
can do and no more, and goes on while it has something to do and neither side has failed. -/
structure Copying.Documented (copying : Copying α) (shows : copying.State → Copier α) :
    Prop where
  starts : shows copying.start = .running []
  effect : ∀ source state sink action source' state' sink',
    copying.step source state sink action = some (source', state', sink') →
      HopEffect source (shows state) sink action (source', shows state', sink')
  goesOn : ∀ source state sink, (shows state).Due source → source.ending ≠ .cut →
    sink.ending = .opened → ∃ action after, action.Works ∧
      copying.step source state sink action = some after

def hopsStep (copying : Copying α) (action : HopAction) :
    Nat → Channel α → List (copying.State × Channel α) →
      Option (Channel α × List (copying.State × Channel α))
  | _, _, [] => none
  | 0, source, (state, sink) :: rest =>
      (copying.step source state sink action).map fun (source, state, sink) =>
        (source, (state, sink) :: rest)
  | index + 1, source, (state, sink) :: rest =>
      (hopsStep copying action index sink rest).map fun (sink, rest) =>
        (source, (state, sink) :: rest)

/-- The channel the reader reads. -/
def lastChannel {σ : Type} : Channel α → List (σ × Channel α) → Channel α
  | first, [] => first
  | _, (_, next) :: rest => lastChannel next rest

def dropLast {σ : Type} (count : Nat) :
    Channel α → List (σ × Channel α) → Channel α × List (σ × Channel α)
  | first, [] => (first.drop count, [])
  | first, (state, next) :: rest =>
      let (next, rest) := dropLast count next rest
      (first, (state, next) :: rest)

def Line.last {σ : Type} (line : Line σ α) : Channel α := lastChannel line.first line.hops

def lineStep (copying : Copying α) (line : Line copying.State α) :
    LineAction α → Option (Line copying.State α)
  | .sends chunk =>
      match line.first.ending with
      | .opened => some { line with sent := line.sent ++ chunk, first := line.first.push chunk }
      | _ => none
  | .closes =>
      match line.first.ending with
      | .opened => some { line with closed := true, first := line.first.shutDown }
      | _ => none
  | .aborts kept => some { line with first := line.first.sever kept }
  | .hop index action =>
      (hopsStep copying action index line.first line.hops).map fun (first, hops) =>
        { line with first, hops }
  | .receives count =>
      if 0 < count ∧ count ≤ line.last.flying.length then
        let (first, hops) := dropLast count line.first line.hops
        some { line with
               first, hops
               received := line.received ++ line.last.flying.take count }
      else none

/-! ### Its relays as copiers -/

/-- What a step of one of the relays can do. -/
inductive HopsEffect (action : HopAction) : Channel α → List (Copier α × Channel α) →
    Channel α → List (Copier α × Channel α) → Prop where
  | here {source sink source' sink' : Channel α} {copier copier' : Copier α}
      (moved : HopEffect source copier sink action (source', copier', sink'))
      (rest : List (Copier α × Channel α)) :
      HopsEffect action source ((copier, sink) :: rest) source' ((copier', sink') :: rest)
  | further {sink sink' : Channel α} {rest rest' : List (Copier α × Channel α)}
      (source : Channel α) (copier : Copier α) (moved : HopsEffect action sink rest sink' rest') :
      HopsEffect action source ((copier, sink) :: rest) source ((copier, sink') :: rest')

/-- What a step of a line can do. -/
inductive LineEffect (line : Line (Copier α) α) : LineAction α → Line (Copier α) α → Prop where
  | sends (chunk : List α) (opened : line.first.ending = .opened) :
      LineEffect line (.sends chunk)
        { line with sent := line.sent ++ chunk, first := line.first.push chunk }
  | closes (opened : line.first.ending = .opened) :
      LineEffect line .closes { line with closed := true, first := line.first.shutDown }
  | aborts (kept : Nat) :
      LineEffect line (.aborts kept) { line with first := line.first.sever kept }
  | hop (index : Nat) (action : HopAction) {first : Channel α} {hops : List (Copier α × Channel α)}
      (moved : HopsEffect action line.first line.hops first hops) :
      LineEffect line (.hop index action) { line with first, hops }
  | receives (count : Nat) (positive : 0 < count) (enough : count ≤ line.last.flying.length) :
      LineEffect line (.receives count)
        { line with
          first := (dropLast count line.first line.hops).1
          hops := (dropLast count line.first line.hops).2
          received := line.received ++ line.last.flying.take count }

section View

variable {σ : Type} (shows : σ → Copier α)

def viewed (hops : List (σ × Channel α)) : List (Copier α × Channel α) :=
  hops.map fun hop => (shows hop.1, hop.2)

def Line.viewed (line : Line σ α) : Line (Copier α) α :=
  { line with hops := Relay.viewed shows line.hops }

@[simp] theorem viewed_nil : Relay.viewed shows ([] : List (σ × Channel α)) = [] := rfl

@[simp] theorem viewed_cons (state : σ) (channel : Channel α) (rest : List (σ × Channel α)) :
    Relay.viewed shows ((state, channel) :: rest) =
      (shows state, channel) :: Relay.viewed shows rest := rfl

theorem lastChannel_viewed (first : Channel α) (hops : List (σ × Channel α)) :
    lastChannel first (viewed shows hops) = lastChannel first hops := by
  induction hops generalizing first with
  | nil => rfl
  | cons hop rest ih => exact ih hop.2

theorem last_viewed (line : Line σ α) : (line.viewed shows).last = line.last :=
  lastChannel_viewed shows line.first line.hops

theorem dropLast_viewed (count : Nat) (first : Channel α) (hops : List (σ × Channel α)) :
    dropLast count first (viewed shows hops) =
      ((dropLast count first hops).1, viewed shows (dropLast count first hops).2) := by
  induction hops generalizing first with
  | nil => rfl
  | cons hop rest ih =>
      rw [viewed, List.map_cons, ← viewed, dropLast, ih hop.2]
      rfl

end View

section Seen

variable {copying : Copying α} {shows : copying.State → Copier α}

theorem hopsStep_effect (documented : copying.Documented shows) {action : HopAction}
    {index : Nat} {first first' : Channel α} {hops hops' : List (copying.State × Channel α)}
    (taken : hopsStep copying action index first hops = some (first', hops')) :
    HopsEffect action first (viewed shows hops) first' (viewed shows hops') := by
  induction hops generalizing index first first' hops' with
  | nil => cases index <;> contradiction
  | cons hop rest ih =>
      obtain ⟨state, sink⟩ := hop
      cases index with
      | zero =>
          obtain ⟨⟨source', state', sink'⟩, stepped, same⟩ := Option.map_eq_some_iff.mp taken
          cases same
          exact .here (documented.effect _ _ _ _ _ _ _ stepped) _
      | succ index =>
          obtain ⟨⟨sink', rest'⟩, stepped, same⟩ := Option.map_eq_some_iff.mp taken
          cases same
          exact .further _ _ (ih stepped)

theorem lineStep_effect (documented : copying.Documented shows)
    {before after : Line copying.State α} {action : LineAction α}
    (taken : lineStep copying before action = some after) :
    LineEffect (before.viewed shows) action (after.viewed shows) := by
  cases action with
  | sends chunk =>
      simp only [lineStep] at taken
      split at taken
      · rename_i opened
        cases taken
        exact .sends chunk opened
      · contradiction
  | closes =>
      simp only [lineStep] at taken
      split at taken
      · rename_i opened
        cases taken
        exact .closes opened
      · contradiction
  | aborts kept =>
      cases taken
      exact .aborts kept
  | hop index action =>
      obtain ⟨⟨first, hops⟩, stepped, same⟩ := Option.map_eq_some_iff.mp taken
      cases same
      exact .hop index action (hopsStep_effect documented stepped)
  | receives count =>
      simp only [lineStep] at taken
      split at taken
      · rename_i enabled
        cases taken
        have enough : count ≤ (before.viewed shows).last.flying.length := by
          rw [last_viewed]
          exact enabled.2
        have effect : LineEffect (before.viewed shows) (.receives count) _ :=
          .receives count enabled.1 enough
        rw [last_viewed] at effect
        simp only [Line.viewed, dropLast_viewed] at effect
        exact effect
      · contradiction

end Seen

end Machine

/-! ## What a line still owes its reader -/

section Owes

variable {α : Type}

/-- A channel that was not cut carries all that was written and not yet read. -/
inductive Channel.Carries (channel : Channel α) (owed : List α) : Prop where
  | whole (uncut : channel.ending ≠ .cut) (all : channel.flying = owed)
  | part (cut : channel.ending = .cut) (some : channel.flying <+: owed)

def Copier.Finished : Copier α → Prop
  | .shuttingDown | .done => True
  | _ => False

/-- `waiting` was written to `source`, and not yet to `sink`. -/
inductive Copier.Holds (source sink : Channel α) : Copier α → List α → Prop where
  | running (held part : List α) (sinkOpen : sink.ending = .opened)
      (carries : source.Carries part) : Copier.Holds source sink (.running held) (held ++ part)
  | shuttingDown (sinkOpen : sink.ending = .opened) (drained : source.flying = []) :
      Copier.Holds source sink .shuttingDown []
  | done (sinkEnded : sink.ending ≠ .opened) (drained : source.flying = []) :
      Copier.Holds source sink .done []
  | failed (waiting : List α) (sinkCut : sink.ending = .cut) :
      Copier.Holds source sink .failed waiting

/-- The reader has still to get `owed`, unless the line fails; `closed` says that no
more will be written. -/
inductive Owes : Prop → List α → Channel α → List (Copier α × Channel α) → Prop where
  | last {closed : Prop} {owed : List α} {first : Channel α} (carries : first.Carries owed)
      (shut : first.ending = .shut → closed) : Owes closed owed first []
  | hop {closed : Prop} {passed waiting : List α} {first next : Channel α} {copier : Copier α}
      {rest : List (Copier α × Channel α)} (shut : first.ending = .shut → closed)
      (finished : copier.Finished → closed) (holds : copier.Holds first next waiting)
      (onward : Owes (copier = .done) passed next rest) :
      Owes closed (passed ++ waiting) first ((copier, next) :: rest)

variable {closed : Prop} {owed : List α} {first : Channel α}
variable {hops : List (Copier α × Channel α)}

theorem Channel.Carries.push {channel : Channel α} (carries : channel.Carries owed)
    (opened : channel.ending = .opened) (chunk : List α) :
    (channel.push chunk).Carries (owed ++ chunk) := by
  cases carries with
  | whole uncut all => exact .whole uncut (by rw [Channel.push, all])
  | part cut _ =>
      rw [opened] at cut
      contradiction

theorem Channel.Carries.sever {channel : Channel α} (carries : channel.Carries owed)
    (kept : Nat) : (channel.sever kept).Carries owed := by
  refine .part rfl ?_
  cases carries with
  | whole _ all =>
      rw [← all]
      exact List.take_prefix ..
  | part _ some => exact (List.take_prefix ..).trans some

theorem Channel.Carries.shutDown {channel : Channel α} (carries : channel.Carries owed)
    (opened : channel.ending = .opened) : channel.shutDown.Carries owed := by
  cases carries with
  | whole _ all => exact .whole nofun all
  | part cut _ =>
      rw [opened] at cut
      contradiction

/-- What is taken from a channel comes off the front of what it owes. -/
theorem Channel.Carries.drop {channel : Channel α} (carries : channel.Carries owed)
    (count : Nat) :
    ∃ left, owed = channel.flying.take count ++ left ∧ (channel.drop count).Carries left := by
  cases carries with
  | whole uncut all =>
      refine ⟨channel.flying.drop count, ?_, .whole uncut rfl⟩
      rw [← all, List.take_append_drop]
  | part cut some =>
      obtain ⟨lost, split⟩ := some
      refine ⟨channel.flying.drop count ++ lost, ?_, .part cut (List.prefix_append ..)⟩
      rw [← split, ← List.append_assoc, List.take_append_drop]

theorem Copier.Holds.source {source later sink : Channel α} {copier : Copier α}
    {waiting : List α} (holds : copier.Holds source sink waiting)
    (carries : ∀ part, source.Carries part → later.Carries part)
    (drains : source.flying = [] → later.flying = []) :
    copier.Holds later sink waiting := by
  cases holds with
  | running held part sinkOpen held' => exact .running held part sinkOpen (carries part held')
  | shuttingDown sinkOpen drained => exact .shuttingDown sinkOpen (drains drained)
  | done sinkEnded drained => exact .done sinkEnded (drains drained)
  | failed waiting sinkCut => exact .failed waiting sinkCut

/-- Writing to a line that is not closed. -/
theorem Owes.push (owes : Owes closed owed first hops) (notClosed : ¬ closed)
    (opened : first.ending = .opened) (chunk : List α) :
    Owes closed (owed ++ chunk) (first.push chunk) hops := by
  cases owes with
  | last carries shut => exact .last (carries.push opened chunk) shut
  | hop shut finished holds onward =>
      rw [List.append_assoc]
      refine .hop shut finished ?_ onward
      cases holds with
      | running held part sinkOpen carries =>
          rw [List.append_assoc]
          exact .running held _ sinkOpen (carries.push opened chunk)
      | shuttingDown | done => exact absurd (finished trivial) notClosed
      | failed waiting sinkCut => exact .failed _ sinkCut

theorem Owes.shutDown {closes : Prop} (owes : Owes closed owed first hops)
    (opened : first.ending = .opened) (closing : closes) :
    Owes closes owed first.shutDown hops := by
  cases owes with
  | last carries _ => exact .last (carries.shutDown opened) fun _ => closing
  | hop _ _ holds onward =>
      exact .hop (fun _ => closing) (fun _ => closing)
        (holds.source (fun _ carries => carries.shutDown opened) id) onward

theorem Owes.sever {closes : Prop} (owes : Owes closed owed first hops) (kept : Nat)
    (keeps : closed → closes) : Owes closes owed (first.sever kept) hops := by
  cases owes with
  | last carries _ => exact .last (carries.sever kept) nofun
  | hop _ finished holds onward =>
      refine .hop nofun (fun isFinished => keeps (finished isFinished)) ?_ onward
      refine holds.source (fun _ carries => carries.sever kept) ?_
      intro drained
      rw [Channel.sever, drained, List.take_nil]

theorem Owes.closed_congr {closes : Prop} (owes : Owes closed owed first hops)
    (same : closed ↔ closes) : Owes closes owed first hops := by
  rwa [← propext same]

/-- A relay never ends the channel it reads. -/
theorem hopEffect_source_ending {source sink source' sink' : Channel α}
    {copier copier' : Copier α} {action : HopAction}
    (moved : HopEffect source copier sink action (source', copier', sink')) :
    source'.ending = source.ending := by
  cases moved <;> rfl

theorem hopsEffect_source_ending {action : HopAction} {source source' : Channel α}
    {hops hops' : List (Copier α × Channel α)}
    (moved : HopsEffect action source hops source' hops') : source'.ending = source.ending := by
  cases moved with
  | here moved _ => exact hopEffect_source_ending moved
  | further => rfl

theorem Copier.Holds.sink {source sink later : Channel α} {copier : Copier α}
    {waiting : List α} (holds : copier.Holds source sink waiting)
    (same : later.ending = sink.ending) : copier.Holds source later waiting := by
  cases holds with
  | running held part sinkOpen carries =>
      exact .running held part (same.trans sinkOpen) carries
  | shuttingDown sinkOpen drained => exact .shuttingDown (same.trans sinkOpen) drained
  | done sinkEnded drained => exact .done (same ▸ sinkEnded) drained
  | failed waiting sinkCut => exact .failed waiting (same.trans sinkCut)

/-- One relay's step: what it has read it writes in order, and it shuts its sink
down only when its source has nothing more. -/
theorem Owes.hopEffect {copier copier' : Copier α} {next first' next' : Channel α}
    {rest : List (Copier α × Channel α)} {action : HopAction}
    (owes : Owes closed owed first ((copier, next) :: rest))
    (moved : HopEffect first copier next action (first', copier', next')) :
    Owes closed owed first' ((copier', next') :: rest) := by
  cases owes with
  | @hop _ passed waiting _ _ _ _ shut finished holds onward =>
    cases moved with
    | reads held _ count positive enough =>
        cases holds with
        | running _ part sinkOpen carries =>
            obtain ⟨left, split, carriesLeft⟩ := carries.drop count
            rw [split, ← List.append_assoc held]
            refine .hop shut nofun (.running _ left sinkOpen carriesLeft) ?_
            exact onward.closed_congr (by simp)
    | writes held _ count positive enough =>
        cases holds with
        | running _ part sinkOpen carries =>
            have split : passed ++ (held ++ part) =
                (passed ++ held.take count) ++ (held.drop count ++ part) := by
              rw [List.append_assoc, ← List.append_assoc (held.take count),
                List.take_append_drop]
            rw [split]
            refine .hop shut nofun (.running _ part sinkOpen carries) ?_
            exact (onward.push nofun sinkOpen (held.take count)).closed_congr (by simp)
    | ends _ drained isShut =>
        cases holds with
        | running _ part sinkOpen carries =>
            have nothing : part = [] := by
              cases carries with
              | whole _ all => rw [← all, drained]
              | part cut _ =>
                  rw [isShut] at cut
                  contradiction
            rw [nothing]
            refine .hop shut (fun _ => shut isShut) (.shuttingDown sinkOpen drained) ?_
            exact onward.closed_congr (by simp)
    | shuts =>
        cases holds with
        | shuttingDown sinkOpen drained =>
            exact .hop shut (fun _ => finished trivial) (.done nofun drained)
              (onward.shutDown sinkOpen rfl)
    | fails _ _ kept =>
        cases holds with
        | done _ drained => exact .hop shut finished (.done nofun drained) (onward.sever kept id)
        | running | shuttingDown | failed =>
            exact .hop shut nofun (.failed _ rfl) (onward.sever kept nofun)

theorem Owes.hopsEffect {action : HopAction} {first' : Channel α}
    {hops' : List (Copier α × Channel α)} (owes : Owes closed owed first hops)
    (moved : HopsEffect action first hops first' hops') : Owes closed owed first' hops' := by
  induction moved generalizing closed owed with
  | here moved rest => exact owes.hopEffect moved
  | further source copier moved ih =>
      cases owes with
      | hop shut finished holds onward =>
          exact .hop shut finished (holds.sink (hopsEffect_source_ending moved)) (ih onward)

/-- What the reader takes comes off the front of what it is owed. -/
theorem Owes.dropLast (owes : Owes closed owed first hops) (count : Nat) :
    ∃ left, owed = (lastChannel first hops).flying.take count ++ left ∧
      Owes closed left (Relay.dropLast count first hops).1 (Relay.dropLast count first hops).2 := by
  induction owes with
  | last carries shut =>
      obtain ⟨left, split, carriesLeft⟩ := carries.drop count
      exact ⟨left, split, .last carriesLeft shut⟩
  | @hop _ passed waiting first next copier rest shut finished holds onward ih =>
      obtain ⟨left, split, owesLeft⟩ := ih
      refine ⟨left ++ waiting, ?_, ?_⟩
      · rw [← List.append_assoc]
        exact congrArg (· ++ waiting) split
      · have ending : (Relay.dropLast count next rest).1.ending = next.ending := by
          cases rest <;> rfl
        exact .hop shut finished (holds.sink ending) owesLeft

end Owes

/-! ## Every state of a line -/

section Line

variable {α : Type} {before after : Line (Copier α) α}

/-- The reader has got the front of what was sent, and is owed the rest. -/
structure Line.Sound (line : Line (Copier α) α) : Prop where
  owes : ∃ owed, line.sent = line.received ++ owed ∧
    Owes (line.closed = true) owed line.first line.hops
  closed : line.closed = true → line.first.ending ≠ .opened

theorem Channel.Carries.opened (flying : List α) : Channel.Carries ⟨flying, .opened⟩ flying :=
  .whole nofun rfl

theorem Owes.reader (closed : Prop) (flying : List α) : Owes closed flying ⟨flying, .opened⟩ [] :=
  .last (.opened flying) nofun

/-- A relay that holds nothing, before an open channel. -/
theorem Owes.idle {closed : Prop} {passed : List α} (waiting flying : List α)
    {rest : List (Copier α × Channel α)}
    (onward : ∀ closed, Owes closed passed ⟨flying, .opened⟩ rest) :
    Owes closed (passed ++ waiting) ⟨waiting, .opened⟩
      ((.running [], ⟨flying, .opened⟩) :: rest) :=
  .hop nofun nofun (.running [] waiting rfl (.opened waiting)) (onward _)

theorem Line.Sound.step (sound : before.Sound) {action : LineAction α}
    (moved : LineEffect before action after) : after.Sound := by
  obtain ⟨⟨owed, sent, owes⟩, closed⟩ := sound
  cases moved with
  | sends chunk opened =>
      refine ⟨⟨owed ++ chunk, ?_, ?_⟩, closed⟩
      · rw [sent, List.append_assoc]
      · exact owes.push (fun isClosed => closed isClosed opened) opened chunk
  | closes opened => exact ⟨⟨owed, sent, owes.shutDown opened rfl⟩, fun _ => nofun⟩
  | aborts kept => exact ⟨⟨owed, sent, owes.sever kept id⟩, fun _ => nofun⟩
  | hop index action moved =>
      refine ⟨⟨owed, sent, owes.hopsEffect moved⟩, ?_⟩
      intro isClosed
      rw [hopsEffect_source_ending moved]
      exact closed isClosed
  | receives count positive enough =>
      obtain ⟨left, split, owesLeft⟩ := owes.dropLast count
      refine ⟨⟨left, ?_, owesLeft⟩, ?_⟩
      · rw [sent, split, ← List.append_assoc]
        rfl
      · intro isClosed
        have ending : (Relay.dropLast count before.first before.hops).1.ending =
            before.first.ending := by
          cases before.hops <;> rfl
        rw [ending]
        exact closed isClosed

end Line

/-! ## A line that does not fail delivers -/

section Progress

variable {α : Type}

/-- The relays and the reader go on; the writer does nothing and nothing fails. -/
def Relays {σ : Type} (_ : Line σ α) : LineAction α → Prop
  | .hop _ action => action.Works
  | .receives _ => True
  | _ => False

def Healthy (first : Channel α) (hops : List (Copier α × Channel α)) : Prop :=
  first.ending ≠ .cut ∧ ∀ hop ∈ hops, hop.1 ≠ .failed ∧ hop.2.ending ≠ .cut

def Copier.held : Copier α → List α
  | .running held => held
  | _ => []

/-- Nothing is on the way, and an end has got through. -/
inductive Quiet : Channel α → List (Copier α × Channel α) → Prop where
  | last {first : Channel α} (empty : first.flying = []) : Quiet first []
  | hop {first next : Channel α} {copier : Copier α} {rest : List (Copier α × Channel α)}
      (empty : first.flying = []) (idle : copier.held = [])
      (ended : first.ending = .shut → next.ending = .shut) (onward : Quiet next rest) :
      Quiet first ((copier, next) :: rest)

theorem Quiet.shut {first : Channel α} {hops : List (Copier α × Channel α)}
    (quiet : Quiet first hops) (shut : first.ending = .shut) :
    (lastChannel first hops).ending = .shut := by
  induction quiet with
  | last => exact shut
  | hop _ _ ended _ ih => exact ih (ended shut)

theorem Quiet.owed {closed : Prop} {owed : List α} {first : Channel α}
    {hops : List (Copier α × Channel α)} (quiet : Quiet first hops)
    (healthy : Healthy first hops) (owes : Owes closed owed first hops) : owed = [] := by
  induction owes with
  | last carries _ =>
      cases quiet with
      | last empty =>
          cases carries with
          | whole _ all => rw [← all, empty]
          | part cut _ => exact absurd cut healthy.1
  | @hop _ passed waiting first next copier rest _ _ holds onward ih =>
      cases quiet with
      | hop empty idle _ later =>
          have well := healthy.2 (copier, next) List.mem_cons_self
          have passedNone := ih later
            ⟨well.2, fun hop member => healthy.2 hop (List.mem_cons_of_mem _ member)⟩
          have waitingNone : waiting = [] := by
            cases holds with
            | running held part _ carries =>
                have heldNone : held = [] := idle
                cases carries with
                | whole _ all => rw [heldNone, ← all, empty, List.append_nil]
                | part cut _ => exact absurd cut healthy.1
            | shuttingDown => rfl
            | done => rfl
            | failed => exact absurd rfl well.1
          rw [passedNone, waitingNone, List.append_nil]

/-- One of the relays has something to do, between ends that have not failed. -/
inductive SomeDue : Channel α → List (Copier α × Channel α) → Prop where
  | here {source sink : Channel α} {copier : Copier α} (due : copier.Due source)
      (uncut : source.ending ≠ .cut) (sinkOpen : sink.ending = .opened)
      (rest : List (Copier α × Channel α)) : SomeDue source ((copier, sink) :: rest)
  | further {sink : Channel α} {rest : List (Copier α × Channel α)} (source : Channel α)
      (copier : Copier α) (due : SomeDue sink rest) : SomeDue source ((copier, sink) :: rest)

/-- Either a relay has something to do, or something waits for the reader, or all is quiet. -/
theorem Owes.due {closed : Prop} {owed : List α} {first : Channel α}
    {hops : List (Copier α × Channel α)} (owes : Owes closed owed first hops)
    (healthy : Healthy first hops) :
    SomeDue first hops ∨ (lastChannel first hops).flying ≠ [] ∨ Quiet first hops := by
  induction owes with
  | @last _ _ first carries _ =>
      by_cases empty : first.flying = []
      · exact Or.inr (Or.inr (.last empty))
      · exact Or.inr (Or.inl empty)
  | @hop _ passed waiting first next copier rest _ finished holds onward ih =>
      have well := healthy.2 (copier, next) List.mem_cons_self
      rcases ih ⟨well.2, fun hop member => healthy.2 hop (List.mem_cons_of_mem _ member)⟩ with
        due | arrived | quiet
      · exact Or.inl (.further first copier due)
      · exact Or.inr (Or.inl arrived)
      · cases holds with
        | running held part sinkOpen carries =>
            by_cases nothingHeld : held = []
            · subst nothingHeld
              by_cases empty : first.flying = []
              · by_cases isShut : first.ending = .shut
                · exact Or.inl (.here (.ends empty isShut) healthy.1 sinkOpen rest)
                · exact Or.inr (Or.inr (.hop empty rfl (fun shut => absurd shut isShut) quiet))
              · exact Or.inl (.here (.reads empty) healthy.1 sinkOpen rest)
            · exact Or.inl (.here (.writes held nothingHeld) healthy.1 sinkOpen rest)
        | shuttingDown sinkOpen => exact Or.inl (.here .shuts healthy.1 sinkOpen rest)
        | done sinkEnded drained =>
            refine Or.inr (Or.inr (.hop drained rfl ?_ quiet))
            intro _
            cases ending : next.ending with
            | opened => exact absurd ending sinkEnded
            | shut => rfl
            | cut => exact absurd ending well.2
        | failed => exact absurd rfl well.1

/-- A relay that has something to do can move. -/
theorem hopsStep_of_due {copying : Copying α} {shows : copying.State → Copier α}
    (documented : copying.Documented shows) {first : Channel α}
    {hops : List (copying.State × Channel α)} (due : SomeDue first (viewed shows hops)) :
    ∃ index action after, HopAction.Works action ∧
      hopsStep copying action index first hops = some after := by
  induction hops generalizing first with
  | nil => cases due
  | cons hop rest ih =>
      obtain ⟨state, sink⟩ := hop
      cases due with
      | here due uncut sinkOpen =>
          obtain ⟨action, after, works, taken⟩ :=
            documented.goesOn first state sink due uncut sinkOpen
          exact ⟨0, action, _, works, Option.map_eq_some_iff.mpr ⟨after, taken, rfl⟩⟩
      | further _ _ due =>
          obtain ⟨index, action, after, works, taken⟩ := ih due
          exact ⟨index + 1, action, _, works, Option.map_eq_some_iff.mpr ⟨after, taken, rfl⟩⟩

/-! ### Every step brings the end nearer -/

/-- The steps until a relay has finished, beyond those its bytes take. -/
def Copier.rank : Copier α → Nat
  | .running _ => 2
  | .shuttingDown => 1
  | _ => 0

/-- The steps that what is on the way still takes. -/
def weight : Channel α → List (Copier α × Channel α) → Nat
  | first, [] => first.flying.length
  | first, (copier, next) :: rest =>
      weight next rest + (2 * rest.length + 2) * copier.held.length +
        (2 * rest.length + 3) * first.flying.length + copier.rank

/-- A byte counts for two steps at each relay before it, and one for the reader. -/
theorem weight_eq (hops : List (Copier α × Channel α)) :
    ∃ base, ∀ first : Channel α,
      weight first hops = base + (2 * hops.length + 1) * first.flying.length := by
  cases hops with
  | nil => exact ⟨0, fun first => by simp [weight]⟩
  | cons hop rest =>
      obtain ⟨copier, next⟩ := hop
      refine ⟨weight next rest + (2 * rest.length + 2) * copier.held.length + copier.rank, ?_⟩
      intro first
      have same : 2 * (rest.length + 1) + 1 = 2 * rest.length + 3 := by omega
      simp only [weight, List.length_cons, same]
      omega

theorem weight_hopEffect_lt {source source' next next' : Channel α} {copier copier' : Copier α}
    {rest : List (Copier α × Channel α)} {action : HopAction} (works : action.Works)
    (moved : HopEffect source copier next action (source', copier', next')) :
    weight source' ((copier', next') :: rest) < weight source ((copier, next) :: rest) := by
  obtain ⟨base, counted⟩ := weight_eq rest
  cases moved with
  | reads held _ count positive enough =>
      simp only [weight, Copier.held, Copier.rank, Channel.drop, List.length_append,
        List.length_take, List.length_drop, Nat.min_eq_left enough]
      obtain ⟨left, split⟩ := Nat.exists_eq_add_of_le enough
      rw [split, Nat.add_sub_cancel_left]
      generalize 2 * rest.length = bytes
      simp only [Nat.add_mul, Nat.mul_add]
      omega
  | writes held _ count positive enough =>
      simp only [weight, Copier.held, Copier.rank, Channel.push, counted, List.length_append,
        List.length_take, List.length_drop, Nat.min_eq_left enough]
      obtain ⟨left, split⟩ := Nat.exists_eq_add_of_le enough
      rw [split, Nat.add_sub_cancel_left]
      generalize 2 * rest.length = bytes
      simp only [Nat.add_mul, Nat.mul_add]
      omega
  | ends _ drained isShut =>
      simp only [weight, Copier.held, Copier.rank]
      omega
  | shuts =>
      simp only [weight, Copier.held, Copier.rank, Channel.shutDown, counted]
      omega
  | fails => exact works.elim

theorem weight_hopsEffect_lt {action : HopAction} (works : action.Works)
    {first first' : Channel α} {hops hops' : List (Copier α × Channel α)}
    (moved : HopsEffect action first hops first' hops') :
    weight first' hops' < weight first hops ∧ hops'.length = hops.length := by
  induction moved with
  | here moved rest => exact ⟨weight_hopEffect_lt works moved, rfl⟩
  | further source copier moved ih =>
      obtain ⟨less, length⟩ := ih
      refine ⟨?_, congrArg (· + 1) length⟩
      simp only [weight, length]
      omega

theorem weight_dropLast (count : Nat) (first : Channel α) (hops : List (Copier α × Channel α)) :
    (Relay.dropLast count first hops).2.length = hops.length ∧
      weight (Relay.dropLast count first hops).1 (Relay.dropLast count first hops).2 +
        min count (lastChannel first hops).flying.length = weight first hops := by
  induction hops generalizing first with
  | nil =>
      refine ⟨rfl, ?_⟩
      simp only [Relay.dropLast, weight, lastChannel, Channel.drop, List.length_drop]
      omega
  | cons hop rest ih =>
      obtain ⟨copier, next⟩ := hop
      obtain ⟨length, less⟩ := ih next
      refine ⟨congrArg (· + 1) length, ?_⟩
      simp only [Relay.dropLast, weight, lastChannel, length]
      omega

theorem healthy_hopsEffect {action : HopAction} (works : action.Works)
    {first first' : Channel α} {hops hops' : List (Copier α × Channel α)}
    (healthy : Healthy first hops) (moved : HopsEffect action first hops first' hops') :
    Healthy first' hops' := by
  induction moved with
  | here moved rest =>
      obtain ⟨uncut, others⟩ := healthy
      obtain ⟨well, below⟩ := List.forall_mem_cons.mp others
      refine ⟨by rw [hopEffect_source_ending moved]; exact uncut, ?_⟩
      refine List.forall_mem_cons.mpr ⟨?_, below⟩
      cases moved with
      | reads => exact ⟨nofun, well.2⟩
      | writes => exact ⟨nofun, well.2⟩
      | ends => exact ⟨nofun, well.2⟩
      | shuts => exact ⟨nofun, nofun⟩
      | fails => exact works.elim
  | further source copier moved ih =>
      obtain ⟨uncut, others⟩ := healthy
      obtain ⟨well, below⟩ := List.forall_mem_cons.mp others
      obtain ⟨uncutLater, laterWell⟩ := ih ⟨well.2, below⟩
      exact ⟨uncut, List.forall_mem_cons.mpr ⟨⟨well.1, uncutLater⟩, laterWell⟩⟩

theorem healthy_dropLast (count : Nat) {first : Channel α} {hops : List (Copier α × Channel α)}
    (healthy : Healthy first hops) :
    Healthy (Relay.dropLast count first hops).1 (Relay.dropLast count first hops).2 := by
  induction hops generalizing first with
  | nil => exact ⟨healthy.1, nofun⟩
  | cons hop rest ih =>
      obtain ⟨copier, next⟩ := hop
      obtain ⟨well, below⟩ := List.forall_mem_cons.mp healthy.2
      obtain ⟨uncut, laterWell⟩ := ih ⟨well.2, below⟩
      exact ⟨healthy.1, List.forall_mem_cons.mpr ⟨⟨well.1, uncut⟩, laterWell⟩⟩

def Line.Healthy (line : Line (Copier α) α) : Prop := Relay.Healthy line.first line.hops

def Line.weight (line : Line (Copier α) α) : Nat := Relay.weight line.first line.hops

/-- All that was sent has been received, with its end if there was one. -/
structure Line.Delivered {σ : Type} (line : Line σ α) : Prop where
  all : line.received = line.sent
  ended : line.closed = true → line.last.ending = .shut

/-- The relays and the reader change what is on the way, not what was sent; each of
their steps brings delivery nearer. -/
theorem Line.relays_step {before after : Line (Copier α) α} {action : LineAction α}
    (relays : Relays before action) (healthy : before.Healthy)
    (moved : LineEffect before action after) :
    after.Healthy ∧ after.weight < before.weight ∧ after.sent = before.sent ∧
      after.closed = before.closed := by
  cases moved with
  | hop index action moved =>
      exact ⟨healthy_hopsEffect relays healthy moved, (weight_hopsEffect_lt relays moved).1,
        rfl, rfl⟩
  | receives count positive enough =>
      refine ⟨healthy_dropLast count healthy, ?_, rfl, rfl⟩
      have less := (weight_dropLast count before.first before.hops).2
      have some : 0 < min count (lastChannel before.first before.hops).flying.length :=
        Nat.lt_min.mpr ⟨positive, Nat.lt_of_lt_of_le positive enough⟩
      simp only [Line.weight]
      omega
  | sends | closes | aborts => exact relays.elim

section Live

variable {copying : Copying α} {shows : copying.State → Copier α}
  (documented : copying.Documented shows) {line : Line copying.State α}

include documented

/-- Unless everything is delivered, a relay or the reader can go on. -/
theorem Line.Sound.relays_move (sound : (line.viewed shows).Sound)
    (healthy : (line.viewed shows).Healthy) :
    line.Delivered ∨ ∃ action later, Relays line action ∧
      lineStep copying line action = some later := by
  obtain ⟨⟨owed, sent, owes⟩, closed⟩ := sound
  rcases owes.due healthy with due | arrived | quiet
  · obtain ⟨index, action, moved, works, taken⟩ := hopsStep_of_due documented due
    exact Or.inr ⟨.hop index action, _, works, Option.map_eq_some_iff.mpr ⟨moved, taken, rfl⟩⟩
  · have some : 0 < line.last.flying.length := by
      rw [← last_viewed shows]
      exact List.length_pos_iff.mpr arrived
    exact Or.inr ⟨.receives 1, _, trivial, if_pos ⟨Nat.one_pos, some⟩⟩
  · refine Or.inl ⟨?_, ?_⟩
    · have all : line.sent = line.received ++ owed := sent
      rw [all, quiet.owed healthy owes, List.append_nil]
    · intro isClosed
      rw [← last_viewed shows]
      apply quiet.shut
      cases ending : (line.viewed shows).first.ending with
      | opened => exact absurd ending (closed isClosed)
      | shut => rfl
      | cut => exact absurd ending healthy.1

end Live

end Progress

/-! ## A relay with a buffer -/

section Buffered

variable {α : Type}

end Buffered

end RealityHydra.Lib.Relay
