import Mathlib.Data.List.Forall2
import Mathlib.Logic.Relation

/-!
# Runs of a transition system

A system is a partial step function on states and actions.  `Reach` relates a
state to those that runs of permitted actions lead to; what holds at the start
and survives every permitted step holds in all of them.
-/

set_option autoImplicit false

namespace RealityHydra.Lib.Transition

open Relation

variable {σ α : Type} (step : σ → α → Option σ)

def Steps (permitted : σ → α → Prop) (before after : σ) : Prop :=
  ∃ action, permitted before action ∧ step before action = some after

def Reach (permitted : σ → α → Prop) : σ → σ → Prop :=
  ReflTransGen (Steps step permitted)

def Anything (_ : σ) (_ : α) : Prop := True

/-- A run as a list of actions; it fails where one is not enabled. -/
def runAll : σ → List α → Option σ
  | state, [] => some state
  | state, action :: rest => (step state action).bind fun next => runAll next rest

/-- Every action of the list is permitted where it is taken. -/
def Along (permitted : σ → α → Prop) : σ → List α → Prop
  | _, [] => True
  | state, action :: rest =>
      permitted state action ∧
        ∀ next, step state action = some next → Along permitted next rest

variable {step} {permitted : σ → α → Prop}

theorem Reach.invariant (Inv : σ → Prop) {start state : σ}
    (reached : Reach step permitted start state) (initial : Inv start)
    (preserved : ∀ before action after, Inv before → permitted before action →
      step before action = some after → Inv after) : Inv state := by
  induction reached with
  | refl => exact initial
  | tail _ last ih =>
      obtain ⟨action, allowed, taken⟩ := last
      exact preserved _ action _ ih allowed taken

/-- A component of a run is a run of that component. -/
theorem Reach.project {τ β : Type} {step' : τ → β → Option τ} {permitted' : τ → β → Prop}
    {start state : σ} (reached : Reach step permitted start state) (part : σ → τ)
    (moves : ∀ before action after, permitted before action →
      step before action = some after →
        part after = part before ∨ Steps step' permitted' (part before) (part after)) :
    Reach step' permitted' (part start) (part state) := by
  induction reached with
  | refl => exact ReflTransGen.refl
  | tail _ last ih =>
      obtain ⟨action, allowed, taken⟩ := last
      rcases moves _ action _ allowed taken with unmoved | moved
      · rw [unmoved]
        exact ih
      · exact ih.tail moved

/-- A state that is not done can move on, and nearer; so it can be done. -/
theorem reach_of_progress (Inv Done : σ → Prop) (measure : σ → Nat)
    (moves : ∀ state, Inv state → ¬ Done state → ∃ next,
      Steps step permitted state next ∧ Inv next ∧ measure next < measure state)
    (state : σ) (holds : Inv state) :
    ∃ later, Reach step permitted state later ∧ Done later := by
  induction bound : measure state using Nat.strongRecOn generalizing state with
  | _ left ih =>
      by_cases arrived : Done state
      · exact ⟨state, ReflTransGen.refl, arrived⟩
      · obtain ⟨next, moved, held, nearer⟩ := moves state holds arrived
        rw [bound] at nearer
        obtain ⟨later, reached, finished⟩ := ih (measure next) nearer next held rfl
        exact ⟨later, ReflTransGen.head moved reached, finished⟩

theorem Reach.mono {permitted' : σ → α → Prop}
    (gives : ∀ before action, permitted before action → permitted' before action)
    {start state : σ} (reached : Reach step permitted start state) :
    Reach step permitted' start state :=
  reached.project id fun before action _ allowed taken =>
    Or.inr ⟨action, gives before action allowed, taken⟩

theorem Reach.anything {start state : σ} (reached : Reach step permitted start state) :
    Reach step Anything start state :=
  reached.mono fun _ _ _ => trivial

theorem reach_of_along {start state : σ} {actions : List α}
    (ran : runAll step start actions = some state) (along : Along step permitted start actions) :
    Reach step permitted start state := by
  induction actions generalizing start with
  | nil =>
      cases Option.some.inj ran
      exact ReflTransGen.refl
  | cons action rest ih =>
      obtain ⟨next, taken, later⟩ := Option.bind_eq_some_iff.mp ran
      exact ReflTransGen.head ⟨action, along.1, taken⟩ (ih later (along.2 next taken))

theorem runAll_append (start : σ) (first second : List α) :
    runAll step start (first ++ second) =
      (runAll step start first).bind fun middle => runAll step middle second := by
  induction first generalizing start with
  | nil => rfl
  | cons action rest ih =>
      simp only [List.cons_append, runAll]
      cases step start action with
      | none => rfl
      | some next => exact ih next

theorem along_of_forall (start : σ) {actions : List α}
    (each : ∀ action ∈ actions, ∀ state, permitted state action) :
    Along step permitted start actions := by
  induction actions generalizing start with
  | nil => trivial
  | cons action rest ih =>
      obtain ⟨first, others⟩ := List.forall_mem_cons.mp each
      exact ⟨first start, fun next _ => ih next others⟩

theorem along_anything (start : σ) (actions : List α) : Along step Anything start actions :=
  along_of_forall start fun _ _ _ => trivial

/-- Along a run that keeps an invariant, one condition on its steps gives another. -/
theorem Along.mono (Inv : σ → Prop) {permitted' : σ → α → Prop}
    (gives : ∀ before action, Inv before → permitted before action → permitted' before action)
    (preserved : ∀ before action after, Inv before → permitted before action →
      step before action = some after → Inv after)
    {start : σ} (initial : Inv start) {actions : List α}
    (along : Along step permitted start actions) : Along step permitted' start actions := by
  induction actions generalizing start with
  | nil => trivial
  | cons action rest ih =>
      refine ⟨gives start action initial along.1, ?_⟩
      intro next taken
      exact ih (preserved start action next initial along.1 taken) (along.2 next taken)

theorem Along.and {permitted' : σ → α → Prop} {start : σ} {actions : List α}
    (first : Along step permitted start actions) (second : Along step permitted' start actions) :
    Along step (fun state action => permitted state action ∧ permitted' state action)
      start actions := by
  induction actions generalizing start with
  | nil => trivial
  | cons action rest ih =>
      exact ⟨⟨first.1, second.1⟩, fun next taken => ih (first.2 next taken) (second.2 next taken)⟩

/-- Two systems whose steps are related in pairs have related runs. -/
theorem runAll_related {τ β : Type} {step' : τ → β → Option τ} (R : σ → τ → Prop)
    (A : α → β → Prop)
    (each : ∀ state state' action action', R state state' → A action action' →
      Option.Rel R (step state action) (step' state' action'))
    {start : σ} {start' : τ} (related : R start start') {actions : List α} {actions' : List β}
    (alike : List.Forall₂ A actions actions') :
    Option.Rel R (runAll step start actions) (runAll step' start' actions') := by
  induction alike generalizing start start' with
  | nil => exact Option.Rel.some related
  | @cons action action' rest rest' first _ ih =>
      have moved := each start start' action action' related first
      rw [runAll, runAll]
      generalize step start action = next, step' start' action' = next' at moved
      cases moved with
      | none => exact Option.Rel.none
      | some onward => exact ih onward

theorem reach_of_runAll {start state : σ} {actions : List α}
    (ran : runAll step start actions = some state) :
    Reach step Anything start state :=
  reach_of_along ran (along_anything start actions)

end RealityHydra.Lib.Transition
