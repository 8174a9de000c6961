import Mathlib.Data.List.Basic

/-!
# Decoders that ask for a longer prefix

A staged decoder either answers or names the total length it must see before
it goes on, and then looks at exactly that prefix.  A decision taken on a
prefix therefore never changes when more input arrives, the number of missing
entries it reports is exact, and feeding it a stream in chunks gives the answer
of the whole stream however the stream was cut.
-/

set_option autoImplicit false

namespace RealityHydra.Lib.StagedDecoder

variable {α β : Type}

inductive Staged (α β : Type) where
  | done (answer : β)
  | need (total : Nat) (next : List α → Staged α β)

/-- `error missing` asks for that many further entries. -/
def Staged.run : Staged α β → List α → Except Nat β
  | .done answer, _ => .ok answer
  | .need total next, buffer =>
      if buffer.length < total then .error (total - buffer.length)
      else (next (buffer.take total)).run buffer

@[simp] theorem Staged.run_done (answer : β) (buffer : List α) :
    (Staged.done answer).run buffer = .ok answer := rfl

theorem Staged.run_need_short {total : Nat} {next : List α → Staged α β}
    {buffer : List α} (short : buffer.length < total) :
    (Staged.need total next).run buffer = .error (total - buffer.length) := by
  rw [Staged.run, if_pos short]

theorem Staged.run_need_enough {total : Nat} {next : List α → Staged α β}
    {buffer : List α} (enough : total ≤ buffer.length) :
    (Staged.need total next).run buffer =
      (next (buffer.take total)).run buffer := by
  rw [Staged.run, if_neg (Nat.not_lt.mpr enough)]

/-! ## Prefix stability -/

theorem Staged.run_append (decoder : Staged α β) (buffer more : List α)
    {answer : β} (decided : decoder.run buffer = .ok answer) :
    decoder.run (buffer ++ more) = .ok answer := by
  induction decoder with
  | done value => exact decided
  | need total next ih =>
      by_cases short : buffer.length < total
      · rw [Staged.run_need_short short] at decided
        contradiction
      · have enough : total ≤ buffer.length := Nat.not_lt.mp short
        have longer : total ≤ (buffer ++ more).length := by
          rw [List.length_append]
          omega
        rw [Staged.run_need_enough enough] at decided
        rw [Staged.run_need_enough longer,
          List.take_append_of_le_length enough]
        exact ih (buffer.take total) decided

theorem Staged.missing_pos (decoder : Staged α β) (buffer : List α)
    {missing : Nat} (asked : decoder.run buffer = .error missing) :
    0 < missing := by
  induction decoder with
  | done value => simp at asked
  | need total next ih =>
      by_cases short : buffer.length < total
      · rw [Staged.run_need_short short] at asked
        have missingExact := Except.error.inj asked
        omega
      · rw [Staged.run_need_enough (Nat.not_lt.mp short)] at asked
        exact ih (buffer.take total) asked

/-- Fewer entries than asked for leave the decoder asking for the rest. -/
theorem Staged.run_append_short (decoder : Staged α β) (buffer more : List α)
    {missing : Nat} (asked : decoder.run buffer = .error missing)
    (fewer : more.length < missing) :
    decoder.run (buffer ++ more) = .error (missing - more.length) := by
  induction decoder with
  | done value => simp at asked
  | need total next ih =>
      by_cases short : buffer.length < total
      · rw [Staged.run_need_short short] at asked
        have missingExact := Except.error.inj asked
        have stillShort : (buffer ++ more).length < total := by
          rw [List.length_append]
          omega
        rw [Staged.run_need_short stillShort, List.length_append]
        congr 1
        omega
      · have enough : total ≤ buffer.length := Nat.not_lt.mp short
        have longer : total ≤ (buffer ++ more).length := by
          rw [List.length_append]
          omega
        rw [Staged.run_need_enough enough] at asked
        rw [Staged.run_need_enough longer,
          List.take_append_of_le_length enough]
        exact ih (buffer.take total) asked

/-! ## Bounds on what is asked for and on what is answered -/

/-- No stage asks for more than `limit` entries, and every answer satisfies
`holds`. -/
inductive Staged.Sound (limit : Nat) (holds : β → Prop) : Staged α β → Prop where
  | done (answer : β) (good : holds answer) : Sound limit holds (.done answer)
  | need (total : Nat) (next : List α → Staged α β) (fits : total ≤ limit)
      (later : ∀ seen, Sound limit holds (next seen)) :
      Sound limit holds (.need total next)

theorem Staged.Sound.asked_le {limit : Nat} {holds : β → Prop}
    {decoder : Staged α β} (sound : decoder.Sound limit holds)
    (buffer : List α) {missing : Nat}
    (asked : decoder.run buffer = .error missing) :
    buffer.length + missing ≤ limit := by
  induction sound with
  | done answer good => simp at asked
  | need total next fits later ih =>
      by_cases short : buffer.length < total
      · rw [Staged.run_need_short short] at asked
        have missingExact := Except.error.inj asked
        omega
      · rw [Staged.run_need_enough (Nat.not_lt.mp short)] at asked
        exact ih (buffer.take total) asked

theorem Staged.Sound.answer {limit : Nat} {holds : β → Prop}
    {decoder : Staged α β} (sound : decoder.Sound limit holds)
    (buffer : List α) {answer : β}
    (decided : decoder.run buffer = .ok answer) : holds answer := by
  induction sound with
  | done value good =>
      cases Except.ok.inj decided
      exact good
  | need total next fits later ih =>
      by_cases short : buffer.length < total
      · rw [Staged.run_need_short short] at decided
        contradiction
      · rw [Staged.run_need_enough (Nat.not_lt.mp short)] at decided
        exact ih (buffer.take total) decided

/-! ## Feeding a stream in chunks -/

/-- How many chunks are taken before the decoder first answers, or all of
them when it never does. -/
def Staged.decidingChunk (decoder : Staged α β) :
    List α → List (List α) → Nat
  | _, [] => 0
  | buffer, chunk :: rest =>
      match decoder.run buffer with
      | .ok _ => 0
      | .error _ => decoder.decidingChunk (buffer ++ chunk) rest + 1

theorem Staged.decidingChunk_le (decoder : Staged α β)
    (chunks : List (List α)) (buffer : List α) :
    decoder.decidingChunk buffer chunks ≤ chunks.length := by
  induction chunks generalizing buffer with
  | nil => simp [Staged.decidingChunk]
  | cons chunk rest ih =>
      cases attempt : decoder.run buffer with
      | ok answer => simp [Staged.decidingChunk, attempt]
      | error missing =>
          have later := ih (buffer ++ chunk)
          simp only [Staged.decidingChunk, attempt, List.length_cons]
          omega

/-- Every attempt before the deciding one asked for more. -/
theorem Staged.undecided_before (decoder : Staged α β)
    (chunks : List (List α)) (buffer : List α) (index : Nat)
    (earlier : index < decoder.decidingChunk buffer chunks) :
    ∃ missing,
      decoder.run (buffer ++ (chunks.take index).flatten) = .error missing := by
  induction chunks generalizing buffer index with
  | nil => simp [Staged.decidingChunk] at earlier
  | cons chunk rest ih =>
      cases attempt : decoder.run buffer with
      | ok answer => simp [Staged.decidingChunk, attempt] at earlier
      | error missing =>
          cases index with
          | zero => exact ⟨missing, by simpa using attempt⟩
          | succ index =>
              simp only [Staged.decidingChunk, attempt] at earlier
              have found := ih (buffer ++ chunk) index (by omega)
              simpa only [List.take_succ_cons, List.flatten_cons,
                List.append_assoc] using found

/-- A deciding attempt before the end of the stream has an answer. -/
theorem Staged.decided_at (decoder : Staged α β)
    (chunks : List (List α)) (buffer : List α)
    (early : decoder.decidingChunk buffer chunks < chunks.length) :
    ∃ answer, decoder.run (buffer ++ (chunks.take
      (decoder.decidingChunk buffer chunks)).flatten) = .ok answer := by
  induction chunks generalizing buffer with
  | nil => simp [Staged.decidingChunk] at early
  | cons chunk rest ih =>
      cases attempt : decoder.run buffer with
      | ok answer =>
          exact ⟨answer, by simp [Staged.decidingChunk, attempt]⟩
      | error missing =>
          simp only [Staged.decidingChunk, attempt, List.length_cons] at early
          have found := ih (buffer ++ chunk) (by omega)
          simpa only [Staged.decidingChunk, attempt, List.take_succ_cons,
            List.flatten_cons, List.append_assoc] using found

end RealityHydra.Lib.StagedDecoder
