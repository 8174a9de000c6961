import Mathlib.Logic.Function.Basic
import RealityHydra.HydraServer.Serving
import RealityHydra.Lib.Transition

/-!
# The accept loop

`serve_on` gives every connection it accepts a task of its own: the TLS handshake,
then `handle`.  The tasks run in any order and the loop ends with the listener.
Each read is kept with the clock of the attempt it leads to.
-/

set_option autoImplicit false

namespace RealityHydra.HydraServer

open RealityHydra.Lib.ByteCodec
open RealityHydra.Lib.StagedDecoder
open RealityHydra.Lib.Transition
open RealityHydra.Primitives
open RealityHydra.TunnelProto

/-- What `serve_on` is given, and where each connection's dial leads. -/
structure NodeEnv (Task : Type) where
  hmac : HmacSha256
  key : Bytes
  maxSkew : UInt64
  dial : Task → String → Except String Unit

def NodeEnv.of {Task : Type} (env : NodeEnv Task) (task : Task) : ServerEnv where
  hmac := env.hmac
  key := env.key
  maxSkew := env.maxSkew
  dial := env.dial task

/-- A connection in `handle`; `started` is the clock of its first attempt. -/
structure Served where
  serving : Serving
  started : UInt64
  reads : List (Bytes × UInt64)
  closed : Bool

inductive Inbound where
  | unaccepted
  | handshaking
  | refused (error : String)
  | served (served : Served)

inductive InboundAction where
  | accept
  /-- The TLS handshake ends, with the clock of the first attempt. -/
  | shakes (result : Except String UInt64)
  | reads (chunk : Bytes) (now : UInt64)
  | closes
  | resumes

structure Node (Task : Type) where
  inbounds : Task → Inbound
  stopped : Option String

inductive NodeAction (Task : Type) where
  | listenerFails (error : String)
  | task (task : Task) (action : InboundAction)

def Serving.onEof (serving : Serving) : Serving :=
  match serving.await with
  | .read _ =>
      { serving with await := .done ⟨"connection closed before a full header arrived"⟩ }
  | _ => serving

/-- One read of at most what the loop's buffer, or the relay's, takes. -/
def Served.Takes (served : Served) (chunk : Bytes) : Prop :=
  served.closed = false ∧ chunk ≠ [] ∧
    match served.serving.await with
    | .read _ => chunk.length ≤ maxHeader
    | .relay => True
    | _ => False

instance Served.decidableTakes (served : Served) (chunk : Bytes) :
    Decidable (served.Takes chunk) := by
  unfold Served.Takes
  split <;> infer_instance

def Served.reading (served : Served) : Bool :=
  match served.serving.await with
  | .read _ | .relay => !served.closed
  | _ => false

def inboundStep (env : ServerEnv) : Inbound → InboundAction → Option Inbound
  | .unaccepted, .accept => some .handshaking
  | .handshaking, .shakes (.error e) => some (.refused e)
  | .handshaking, .shakes (.ok now) => some (.served ⟨Serving.start env now, now, [], false⟩)
  | .served served, .reads chunk now =>
      if served.Takes chunk then
        some (.served { served with
          serving := served.serving.onRead env now chunk
          reads := served.reads ++ [(chunk, now)] })
      else none
  | .served served, .closes =>
      if served.reading then
        some (.served { served with serving := served.serving.onEof, closed := true })
      else none
  | .served served, .resumes =>
      (served.serving.resume env).map fun serving => .served { served with serving }
  | _, _ => none

section Machine

variable {Task : Type} [DecidableEq Task] (env : NodeEnv Task)

def Node.start : Node Task := ⟨fun _ => .unaccepted, none⟩

def Node.setInbound (node : Node Task) (task : Task) (inbound : Inbound) : Node Task :=
  { node with inbounds := Function.update node.inbounds task inbound }

def nodeStep (node : Node Task) : NodeAction Task → Option (Node Task)
  | .listenerFails error =>
      match node.stopped with
      | none => some { node with stopped := some error }
      | some _ => none
  | .task task action =>
      match node.stopped with
      | none =>
          (inboundStep (env.of task) (node.inbounds task) action).map (node.setInbound task)
      | some _ => none

end Machine

/-! ## What a connection has read -/

namespace Served

def stream (served : Served) : Bytes := (served.reads.map Prod.fst).flatten

/-- The clock of the attempt after each number of reads. -/
def clock (served : Served) (index : Nat) : UInt64 :=
  (served.started :: served.reads.map Prod.snd)[index]?.getD served.started

end Served

theorem clock_of_lt (served : Served) (read : Bytes × UInt64) (serving : Serving)
    (closed : Bool) {index : Nat} (earlier : index < served.reads.length + 1) :
    (Served.mk serving served.started (served.reads ++ [read]) closed).clock index =
      served.clock index := by
  have inside : index < (served.started :: served.reads.map Prod.snd).length := by
    simp only [List.length_cons, List.length_map]
    omega
  unfold Served.clock
  rw [List.map_append, ← List.cons_append, List.getElem?_append_left inside]

theorem clock_last (served : Served) (chunk : Bytes) (now : UInt64) (serving : Serving)
    (closed : Bool) :
    (Served.mk serving served.started (served.reads ++ [(chunk, now)]) closed).clock
      (served.reads.length + 1) = now := by
  unfold Served.clock
  rw [List.map_append, ← List.cons_append, List.getElem?_append_right (by simp)]
  simp

/-- One more read of `handle`, at its own clock. -/
theorem handle_snoc (env : ServerEnv) (served : Served) (chunk : Bytes) (now : UInt64)
    (serving : Serving) (closed : Bool) :
    let later := Served.mk serving served.started (served.reads ++ [(chunk, now)]) closed
    handle env later.clock (later.reads.map Prod.fst) false =
      onRead env now chunk (handle env served.clock (served.reads.map Prod.fst) false) := by
  intro later
  have earlier : ∀ index < 1 + (served.reads.map Prod.fst).length,
      later.clock index = served.clock index := by
    intro index before
    rw [List.length_map] at before
    exact clock_of_lt served (chunk, now) serving closed (by omega)
  have last : later.clock (1 + (served.reads.map Prod.fst).length) = now := by
    rw [List.length_map, Nat.add_comm]
    exact clock_last served chunk now serving closed
  have reads : later.reads.map Prod.fst = served.reads.map Prod.fst ++ [chunk] := by
    simp [later]
  simp only [handle, reads, Bool.false_eq_true, if_false]
  rw [runReads_append, runReads_congr env _ 1 _ earlier, earlier 0 (by omega)]
  simp only [runReads, last]

/-! ## One connection's invariant -/

/-- A connection has done what `handle` does with its own reads; before the header
is decided it has done nothing else. -/
structure Served.Handled (env : ServerEnv) (served : Served) : Prop where
  settles : served.serving.settle env =
    handle env served.clock (served.reads.map Prod.fst) served.closed
  undecided : ∀ buf, served.serving.await = .read buf →
    served.serving.written = [] ∧ served.serving.dialled = [] ∧ served.serving.delivered = []

def Inbound.Handled (env : ServerEnv) : Inbound → Prop
  | .served held => held.Handled env
  | _ => True

theorem Served.Takes.reading {served : Served} {chunk : Bytes} (takes : served.Takes chunk) :
    (∃ buf, served.serving.await = .read buf) ∨ served.serving.await = .relay := by
  obtain ⟨_, _, accepts⟩ := takes
  split at accepts
  · rename_i buf waiting
    exact Or.inl ⟨buf, waiting⟩
  · rename_i relaying
    exact Or.inr relaying
  · contradiction

theorem onRead_undecided (env : ServerEnv) (now : UInt64) (chunk : Bytes) {serving : Serving}
    (undecided : ∀ buf, serving.await = .read buf →
      serving.written = [] ∧ serving.dialled = [] ∧ serving.delivered = [])
    (buf : Bytes) (waits : (serving.onRead env now chunk).await = .read buf) :
    (serving.onRead env now chunk).written = [] ∧
      (serving.onRead env now chunk).dialled = [] ∧
      (serving.onRead env now chunk).delivered = [] := by
  obtain ⟨await, written, dialled, delivered⟩ := serving
  cases await with
  | read held => exact undecided held rfl
  | relay => contradiction
  | _ => exact undecided buf waits

theorem resume_never_reads {env : ServerEnv} {before after : Serving}
    (resumed : before.resume env = some after) (buf : Bytes) : after.await ≠ .read buf := by
  cases Serving.resumes resumed <;> nofun

theorem onEof_never_reads (serving : Serving) (buf : Bytes) :
    serving.onEof.await ≠ .read buf := by
  obtain ⟨await, written, dialled, delivered⟩ := serving
  cases await <;> nofun

theorem settle_onEof (env : ServerEnv) {serving : Serving}
    (reading : (∃ buf, serving.await = .read buf) ∨ serving.await = .relay) :
    serving.onEof.settle env = onEof (serving.settle env) := by
  obtain ⟨await, written, dialled, delivered⟩ := serving
  rcases reading with ⟨buf, waiting⟩ | relaying
  · cases waiting
    rfl
  · cases relaying
    rfl

theorem Served.reading_iff {served : Served} :
    served.reading = true ↔
      ((∃ buf, served.serving.await = .read buf) ∨ served.serving.await = .relay) ∧
        served.closed = false := by
  unfold Served.reading
  cases served.serving.await <;> simp

section Step

variable {env : ServerEnv} {before after : Inbound}

theorem start_handled (env : ServerEnv) (now : UInt64) :
    Served.Handled env ⟨Serving.start env now, now, [], false⟩ where
  settles := settle_tryHeader env now []
  undecided _ _ := ⟨rfl, rfl, rfl⟩

theorem Served.Handled.reads {served : Served} (handled : served.Handled env) {chunk : Bytes}
    (now : UInt64) (takes : served.Takes chunk) :
    Served.Handled env
      { served with
        serving := served.serving.onRead env now chunk
        reads := served.reads ++ [(chunk, now)] } where
  settles := by
    have opened := takes.1
    have settled := handled.settles
    have next := handle_snoc env served chunk now (served.serving.onRead env now chunk) false
    rw [opened] at settled ⊢
    rw [next, ← settled]
    exact Serving.settle_onRead env now chunk _ handled.undecided takes.reading
  undecided := onRead_undecided env now chunk handled.undecided

theorem Served.Handled.closes {served : Served} (handled : served.Handled env)
    (reading : served.reading = true) :
    Served.Handled env { served with serving := served.serving.onEof, closed := true } where
  settles := by
    obtain ⟨waiting, opened⟩ := Served.reading_iff.mp reading
    have settled := handled.settles
    rw [opened] at settled
    show served.serving.onEof.settle env = _
    rw [settle_onEof env waiting, settled]
    rfl
  undecided buf waits := absurd waits (onEof_never_reads _ buf)

theorem Served.Handled.resumes {served : Served} (handled : served.Handled env)
    {serving : Serving} (resumed : served.serving.resume env = some serving) :
    Served.Handled env { served with serving } where
  settles := by
    show serving.settle env = _
    rw [Serving.settle_resume env resumed]
    exact handled.settles
  undecided buf waits := absurd waits (resume_never_reads resumed buf)

theorem inboundStep_handled (action : InboundAction) (handled : before.Handled env)
    (taken : inboundStep env before action = some after) : after.Handled env := by
  unfold inboundStep at taken
  split at taken
  · cases taken
    trivial
  · cases taken
    trivial
  · rename_i now
    cases taken
    exact start_handled env now
  · rename_i served chunk now
    split at taken
    · rename_i takes
      cases taken
      exact Served.Handled.reads handled now takes
    · contradiction
  · rename_i served
    split at taken
    · rename_i reading
      cases taken
      exact Served.Handled.closes handled reading
    · contradiction
  · rename_i served
    obtain ⟨serving, resumed, same⟩ := Option.map_eq_some_iff.mp taken
    cases same
    exact Served.Handled.resumes handled resumed
  · contradiction

end Step

/-! ## Every connection of a node -/

section Node

variable {Task : Type} [DecidableEq Task] {env : NodeEnv Task} {before after : Node Task}

/-- The actions of a run that are `task`'s. -/
def ownActions (task : Task) (actions : List (NodeAction Task)) : List InboundAction :=
  actions.filterMap fun action =>
    match action with
    | .listenerFails _ => none
    | .task other action => if other = task then some action else none

theorem nodeStep_task {task : Task} {action : InboundAction}
    (taken : nodeStep env before (.task task action) = some after) :
    ∃ inbound, inboundStep (env.of task) (before.inbounds task) action = some inbound ∧
      after = before.setInbound task inbound := by
  simp only [nodeStep] at taken
  split at taken
  · obtain ⟨inbound, stepped, same⟩ := Option.map_eq_some_iff.mp taken
    exact ⟨inbound, stepped, same.symm⟩
  · contradiction

theorem nodeStep_listenerFails {error : String}
    (taken : nodeStep env before (.listenerFails error) = some after) :
    after.inbounds = before.inbounds := by
  simp only [nodeStep] at taken
  split at taken
  · cases taken
    rfl
  · contradiction

@[simp] theorem setInbound_self (node : Node Task) (task : Task) (inbound : Inbound) :
    (node.setInbound task inbound).inbounds task = inbound := Function.update_self ..

theorem setInbound_of_ne (node : Node Task) {task other : Task} (inbound : Inbound)
    (different : other ≠ task) :
    (node.setInbound task inbound).inbounds other = node.inbounds other :=
  Function.update_of_ne different ..

/-- A run of the node is, for each connection, the run of its own actions. -/
theorem ownActions_run (task : Task) {actions : List (NodeAction Task)}
    (ran : runAll (nodeStep env) before actions = some after) :
    runAll (inboundStep (env.of task)) (before.inbounds task) (ownActions task actions) =
      some (after.inbounds task) := by
  induction actions generalizing before with
  | nil =>
      cases Option.some.inj ran
      rfl
  | cons action rest ih =>
      obtain ⟨next, taken, later⟩ := Option.bind_eq_some_iff.mp ran
      have onward := ih later
      cases action with
      | listenerFails error =>
          rw [nodeStep_listenerFails taken] at onward
          exact onward
      | task other action =>
          obtain ⟨inbound, stepped, same⟩ := nodeStep_task taken
          rw [same] at onward
          by_cases own : other = task
          · subst own
            rw [setInbound_self] at onward
            simp only [ownActions, List.filterMap_cons, if_true, runAll, stepped,
              Option.bind_some]
            exact onward
          · rw [setInbound_of_ne before inbound (Ne.symm own)] at onward
            simp only [ownActions, List.filterMap_cons, if_neg own]
            exact onward

theorem inboundRun_handled {senv : ServerEnv} {start last : Inbound}
    {actions : List InboundAction} (handled : start.Handled senv)
    (ran : runAll (inboundStep senv) start actions = some last) : last.Handled senv := by
  have reached := reach_of_runAll ran
  refine reached.invariant (Inbound.Handled senv) handled ?_
  intro before action after kept _ taken
  exact inboundStep_handled action kept taken

theorem node_handled {node : Node Task}
    (reached : Reach (nodeStep env) Anything Node.start node) (task : Task) :
    (node.inbounds task).Handled (env.of task) := by
  refine reached.invariant (fun node => (node.inbounds task).Handled (env.of task)) trivial ?_
  intro before action after kept _ taken
  cases action with
  | listenerFails error =>
      rw [nodeStep_listenerFails taken]
      exact kept
  | task other action =>
      obtain ⟨inbound, stepped, same⟩ := nodeStep_task taken
      subst same
      by_cases own : other = task
      · subst own
        rw [setInbound_self]
        exact inboundStep_handled action kept stepped
      · rw [setInbound_of_ne before inbound (Ne.symm own)]
        exact kept

/-- Connections of one node do not disturb each other: however the tasks are
interleaved, each is where its own actions alone would have brought it, and there it
has done what the parse of its own stream calls for, at its own deciding clock. -/
theorem accept_loop_isolates_connections (env : NodeEnv Task)
    (actions : List (NodeAction Task)) (node : Node Task)
    (ran : runAll (nodeStep env) Node.start actions = some node) (task : Task) :
    runAll (inboundStep (env.of task)) .unaccepted (ownActions task actions) =
      some (node.inbounds task) ∧
    ∀ served, node.inbounds task = .served served →
      ∃ deciding ≤ served.reads.length,
        served.serving.settle (env.of task) =
          outcome (env.of task) served.stream served.closed
            (parseRequest env.hmac served.stream env.key (served.clock deciding)
              env.maxSkew) := by
  refine ⟨ownActions_run task ran, ?_⟩
  intro served isServed
  have handled := node_handled (reach_of_runAll ran) task
  rw [isServed] at handled
  refine ⟨headerDecoder.decidingChunk [] (served.reads.map Prod.fst), ?_, ?_⟩
  · have within := headerDecoder.decidingChunk_le (served.reads.map Prod.fst) []
    rw [List.length_map] at within
    exact within
  · rw [handled.settles, handle_eq_outcome]
    rfl

end Node

/-- One key for two connections, and every tag the same. -/
def pairEnv : NodeEnv Bool where
  hmac _ _ := Vector.replicate 32 0
  key := []
  maxSkew := 5
  dial _ _ := .ok ()

/-- A request cut in two, around another connection that sends no header. -/
def pairActions : List (NodeAction Bool) :=
  let header := encodeRequest pairEnv.hmac pairEnv.key 7 ⟨.v4 #v[192, 0, 2, 1], 80⟩
  [.task true .accept, .task false .accept, .task true (.shakes (.ok 8)),
    .task true (.reads (header.take 12) 8), .task false (.shakes (.ok 8)),
    .task false (.reads (List.replicate 10 0) 8), .task true (.reads (header.drop 12) 9),
    .task false .resumes, .task true .resumes, .task true .resumes]

theorem pair_isolated : ∃ node : Node Bool,
    runAll (nodeStep pairEnv) Node.start pairActions = some node ∧
      runAll (inboundStep (pairEnv.of true)) .unaccepted (ownActions true pairActions) =
        some (node.inbounds true) ∧
      ∃ served, node.inbounds true = .served served ∧ served.serving.await = .relay := by
  have ran : ∃ node : Node Bool, runAll (nodeStep pairEnv) Node.start pairActions = some node ∧
      ∃ served, node.inbounds true = .served served ∧ served.serving.await = .relay :=
    ⟨_, rfl, _, rfl, by decide⟩
  obtain ⟨node, ran, relaying⟩ := ran
  exact ⟨node, ran, (accept_loop_isolates_connections pairEnv pairActions node ran true).1,
    relaying⟩

end RealityHydra.HydraServer
