import Mathlib.Data.List.TakeDrop
import Mathlib.Logic.Function.Basic

/-!
# Files written in place

Writing a file makes it empty and then appends its bytes, so what a crash leaves
of several writes is a prefix of their operations.
-/

set_option autoImplicit false

namespace RealityHydra.Lib.Files

variable {Name Byte : Type}

/-- What each name holds; a name without a file holds nothing. -/
abbrev Directory (Name Byte : Type) := Name → Option (List Byte)

inductive FileOp (Name Byte : Type) where
  | truncate (name : Name)
  | append (name : Name) (byte : Byte)
  | remove (name : Name)
  deriving DecidableEq, Repr

def writeFile (name : Name) (bytes : List Byte) : List (FileOp Name Byte) :=
  .truncate name :: bytes.map (.append name)

@[simp] theorem writeFile_length (name : Name) (bytes : List Byte) :
    (writeFile name bytes).length = bytes.length + 1 := by
  simp [writeFile]

variable [DecidableEq Name]

def FileOp.apply (files : Directory Name Byte) : FileOp Name Byte → Directory Name Byte
  | .truncate name => Function.update files name (some [])
  | .append name byte => Function.update files name ((files name).map (· ++ [byte]))
  | .remove name => Function.update files name none

def applyAll (files : Directory Name Byte) (ops : List (FileOp Name Byte)) : Directory Name Byte :=
  ops.foldl FileOp.apply files

theorem applyAll_append (files : Directory Name Byte) (first second : List (FileOp Name Byte)) :
    applyAll files (first ++ second) = applyAll (applyAll files first) second :=
  List.foldl_append

theorem applyAll_appends (files : Directory Name Byte) (name : Name) (held bytes : List Byte) :
    applyAll (Function.update files name (some held)) (bytes.map (.append name)) =
      Function.update files name (some (held ++ bytes)) := by
  induction bytes generalizing held with
  | nil => simp [applyAll]
  | cons byte rest ih =>
      have appended : FileOp.apply (Function.update files name (some held)) (.append name byte) =
          Function.update files name (some (held ++ [byte])) := by
        simp [FileOp.apply]
      rw [List.map_cons, applyAll, List.foldl_cons, appended]
      exact (ih (held ++ [byte])).trans (by rw [List.append_assoc, List.singleton_append])

/-- What a write that stopped after `count` operations leaves. -/
theorem applyAll_writeFile_take (files : Directory Name Byte) (name : Name) (bytes : List Byte)
    (count : Nat) :
    applyAll files ((writeFile name bytes).take count) =
      if count = 0 then files
      else Function.update files name (some (bytes.take (count - 1))) := by
  cases count with
  | zero => simp [applyAll]
  | succ count =>
      rw [if_neg (Nat.succ_ne_zero count), writeFile, List.take_succ_cons, ← List.map_take]
      exact applyAll_appends files name [] (bytes.take count)

/-- Two files written one after the other: the second is untouched until the
first is whole. -/
theorem applyAll_writeTwo_take (files : Directory Name Byte) {first second : Name}
    (apart : first ≠ second) (one two : List Byte) (count : Nat) :
    let left := applyAll files ((writeFile first one ++ writeFile second two).take count)
    left first = (if count = 0 then files first else some (one.take (count - 1))) ∧
      left second = (if count ≤ one.length + 1 then files second
        else some (two.take (count - (one.length + 2)))) := by
  intro left
  have parts : left = applyAll (applyAll files ((writeFile first one).take count))
      ((writeFile second two).take (count - (one.length + 1))) := by
    rw [← applyAll_append, ← writeFile_length first one, ← List.take_append]
  rw [parts, applyAll_writeFile_take, applyAll_writeFile_take]
  refine ⟨?_, ?_⟩
  · split
    · split
      · rfl
      · exact Function.update_self ..
    · rw [Function.update_of_ne apart]
      split
      · rfl
      · exact Function.update_self ..
  · by_cases untouched : count ≤ one.length + 1
    · rw [if_pos (Nat.sub_eq_zero_of_le untouched), if_pos untouched]
      split
      · rfl
      · exact Function.update_of_ne apart.symm ..
    · rw [if_neg (Nat.sub_ne_zero_of_lt (Nat.lt_of_not_le untouched)), if_neg untouched,
        Function.update_self, Nat.sub_sub]

end RealityHydra.Lib.Files
