import Mathlib.Data.List.Forall2

/-!
# Loops that stop at the first error

Such a loop succeeds exactly if every step does, and otherwise fails the way the
first failing step does.
-/

set_option autoImplicit false

namespace RealityHydra.Lib.Traversal

variable {α β ε : Type} {f : α → Except ε β}

theorem bind_ok_iff {first : Except ε α} {result : β} :
    (first >>= f) = .ok result ↔ ∃ value, first = .ok value ∧ f value = .ok result := by
  cases first with
  | error e => simp [bind, Except.bind]
  | ok value => simp [bind, Except.bind]

theorem mapError_ok_iff {ε' : Type} {wrap : ε → ε'} {first : Except ε α} {value : α} :
    first.mapError wrap = .ok value ↔ first = .ok value := by
  cases first with
  | error e => simp [Except.mapError]
  | ok other => simp [Except.mapError]

/-- An optional step leaves nothing undone and makes nothing up. -/
theorem optionMapM_ok_iff {x : Option α} {y : Option β} :
    x.mapM f = .ok y ↔ Option.Rel (fun x y => f x = .ok y) x y := by
  refine ⟨?_, ?_⟩
  · intro passed
    cases x with
    | none =>
        cases passed
        exact Option.Rel.none
    | some value =>
        cases result : f value with
        | error e =>
            simp only [Option.mapM_some, result] at passed
            contradiction
        | ok image =>
            simp only [Option.mapM_some, result] at passed
            cases passed
            exact Option.Rel.some result
  · intro related
    cases related with
    | none => rfl
    | some result =>
        simp only [Option.mapM_some, result]
        rfl

theorem mapM_cons_ok_iff {x : α} {rest : List α} {ys : List β} :
    (x :: rest).mapM f = .ok ys ↔
      ∃ y others, f x = .ok y ∧ rest.mapM f = .ok others ∧ ys = y :: others := by
  rw [List.mapM_cons]
  refine ⟨?_, ?_⟩
  · intro passed
    cases first : f x with
    | error e =>
        rw [first] at passed
        contradiction
    | ok y =>
        cases more : rest.mapM f with
        | error e =>
            rw [first, more] at passed
            contradiction
        | ok others =>
            rw [first, more] at passed
            cases passed
            exact ⟨y, others, rfl, rfl, rfl⟩
  · rintro ⟨y, others, first, more, rfl⟩
    rw [first, more]
    rfl

theorem mapM_ok_iff {xs : List α} {ys : List β} :
    xs.mapM f = .ok ys ↔ List.Forall₂ (fun x y => f x = .ok y) xs ys := by
  induction xs generalizing ys with
  | nil =>
      rw [List.forall₂_nil_left_iff, List.mapM_nil]
      exact ⟨fun passed => (Except.ok.inj passed).symm, fun empty => by rw [empty]; rfl⟩
  | cons x rest ih =>
      rw [mapM_cons_ok_iff, List.forall₂_cons_left_iff]
      simp only [ih]

theorem exists_of_forall₂ {R : α → β → Prop} {xs : List α} {ys : List β}
    (related : List.Forall₂ R xs ys) : ∀ x ∈ xs, ∃ y ∈ ys, R x y := by
  induction related with
  | nil => simp
  | cons holds _ ih =>
      rintro z (_ | ⟨_, later⟩)
      · exact ⟨_, List.mem_cons_self, holds⟩
      · obtain ⟨y, isIn, holdsLater⟩ := ih z later
        exact ⟨y, List.mem_cons_of_mem _ isIn, holdsLater⟩

theorem mapM_error_iff {xs : List α} {e : ε} :
    xs.mapM f = .error e ↔ ∃ before failing after, xs = before ++ failing :: after ∧
      (∀ x ∈ before, ∃ y, f x = .ok y) ∧ f failing = .error e := by
  induction xs with
  | nil => simp [pure, Except.pure]
  | cons x rest ih =>
      rw [List.mapM_cons]
      refine ⟨?_, ?_⟩
      · intro failed
        cases first : f x with
        | error e' =>
            rw [first] at failed
            cases failed
            exact ⟨[], x, rest, rfl, by simp, first⟩
        | ok y =>
            rw [first] at failed
            cases others : rest.mapM f with
            | ok values =>
                rw [others] at failed
                cases failed
            | error e' =>
                rw [others] at failed
                cases failed
                obtain ⟨before, failing, after, rfl, passed, isError⟩ := ih.mp others
                refine ⟨x :: before, failing, after, rfl, ?_, isError⟩
                intro z isIn
                rcases List.mem_cons.mp isIn with rfl | later
                · exact ⟨y, first⟩
                · exact passed z later
      · rintro ⟨before, failing, after, same, passed, isError⟩
        cases before with
        | nil =>
            cases same
            rw [isError]
            rfl
        | cons head others =>
            cases same
            obtain ⟨y, first⟩ := passed x List.mem_cons_self
            have later := ih.mpr ⟨others, failing, after, rfl,
              fun z isIn => passed z (List.mem_cons_of_mem x isIn), isError⟩
            rw [first, later]
            rfl

theorem mapM_ok_iff_forall {xs : List α} :
    (∃ ys, xs.mapM f = .ok ys) ↔ ∀ x ∈ xs, ∃ y, f x = .ok y := by
  refine ⟨?_, ?_⟩
  · rintro ⟨ys, passed⟩ x isIn
    obtain ⟨y, _, value⟩ := exists_of_forall₂ (mapM_ok_iff.mp passed) x isIn
    exact ⟨y, value⟩
  · intro passed
    cases result : xs.mapM f with
    | ok ys => exact ⟨ys, rfl⟩
    | error e =>
        obtain ⟨before, failing, after, rfl, _, isError⟩ := mapM_error_iff.mp result
        obtain ⟨y, value⟩ := passed failing (by simp)
        rw [isError] at value
        contradiction

end RealityHydra.Lib.Traversal
