import Mathlib.Data.List.DropRight
import RealityHydra.Lib.TomlDocument

/-!
# Reading a document line by line

A grammar says what lines make one expression and which documents are valid; a
parser follows it if it accepts a text exactly as the expressions of its lines.
Of a filter on the lines, what each expression has left is read again.
-/

set_option autoImplicit false

namespace RealityHydra.Lib.TomlGrammar

open RealityHydra.Lib.Toml (Table Parser BareKey splitOn_unlines)
open RealityHydra.Lib.Text (splitOn_singleton_iff)
open RealityHydra.Lib.TomlDocument

structure Grammar where
  /-- What the lines say, if they are one expression. -/
  expression : List (List Char) → Option Expression
  /-- No key and no table is defined twice. -/
  valid : List Expression → Prop
  /-- Whether a byte-order mark in front of a document is skipped. -/
  skipsMark : Bool

/-- A line of a document.  A carriage return at its end belongs to its newline. -/
structure TextLine where
  marked : Bool
  content : List Char
  deriving DecidableEq, Repr

def mark : Char := '\uFEFF'

def TextLine.written (line : TextLine) : List Char :=
  if line.marked then mark :: line.content else line.content

theorem written_unmarked (content : List Char) : TextLine.written ⟨false, content⟩ = content := rfl

/-- The expressions of a document, each with its lines. -/
abbrev Reading := List (List TextLine × Expression)

def Reading.lines (reading : Reading) : List TextLine := reading.flatMap Prod.fst

def Reading.expressions (reading : Reading) : List Expression := reading.map Prod.snd

/-- No newline follows the last line, so it does not end in a carriage return. -/
def EndsPlain (lines : List (List Char)) : Prop := lines.getLast?.bind List.getLast? ≠ some '\r'

instance (lines : List (List Char)) : Decidable (EndsPlain lines) :=
  inferInstanceAs (Decidable (_ ≠ _))

def isSpace (c : Char) : Bool :=
  c = ' ' || c = '\t' || c = '\n' || c = '\r' || c = Char.ofNat 0x0B || c = Char.ofNat 0x0C

namespace Grammar

/-- What the format says of expressions and valid documents. -/
structure Lawful (grammar : Grammar) : Prop where
  nothing : grammar.expression [] = none
  blank : grammar.expression [[]] = some .blank
  closes : ∀ lines, (grammar.expression lines).isSome → lines.getLast? = some [] → lines = [[]]
  noNul : ∀ lines, (grammar.expression lines).isSome → ∀ line ∈ lines, Char.ofNat 0 ∉ line
  unmarked : ∀ rest others, grammar.expression ((mark :: rest) :: others) = none
  bareKey : ∀ (front key rest : List Char) (others : List (List Char)) (expression : Expression),
    (∀ c ∈ front, isSpace c = true) → BareKey key →
      grammar.expression ((front ++ (key ++ rest)) :: others) = some expression →
        ∃ tail more value, expression = .pair (key ++ tail) more value
  leaves : ∀ (hidden : Key → Bool) (lefts wholes : List Expression),
    Leaves hidden lefts wholes → grammar.valid wholes → grammar.valid lefts
  defined : ∀ expressions, grammar.valid expressions → (build expressions).isSome

def interpret (grammar : Grammar) (lines : List TextLine) : Option Expression :=
  grammar.expression (lines.map TextLine.content)

/-- Only the first line may have a mark, if it is skipped there. -/
structure Marks (grammar : Grammar) (lines : List TextLine) : Prop where
  skipped : ∀ line ∈ lines, line.marked = true → grammar.skipsMark = true
  first : ∀ line ∈ lines.tail, line.marked = false

structure Reads (grammar : Grammar) (text : List Char) (reading : Reading) : Prop where
  lines : text.splitOn '\n' = reading.lines.map TextLine.written
  ends : EndsPlain (text.splitOn '\n')
  marks : grammar.Marks reading.lines
  means : ∀ part ∈ reading, grammar.interpret part.1 = some part.2
  valid : grammar.valid reading.expressions

/-- The parser accepts what the grammar reads, and returns what it builds. -/
def FollowedBy (grammar : Grammar) (toml : Parser) : Prop :=
  ∀ text table, toml.parse text = .ok table ↔
    ∃ reading, grammar.Reads text reading ∧ build reading.expressions = some table

section Marked

variable {grammar : Grammar}

theorem Marks.sublist {lines fewer : List TextLine} (marks : grammar.Marks lines)
    (sublist : fewer.Sublist lines) : grammar.Marks fewer where
  skipped line isIn := marks.skipped line (sublist.subset isIn)
  first line isIn := marks.first line (sublist.tail.subset isIn)

theorem Marks.blank : grammar.Marks [⟨false, []⟩] where
  skipped line isIn isMarked := by
    rw [List.mem_singleton.mp isIn] at isMarked
    contradiction
  first line isIn := absurd isIn List.not_mem_nil

theorem written_eq_nil {line : TextLine} (empty : line.written = []) : line = ⟨false, []⟩ := by
  obtain ⟨marked, content⟩ := line
  cases marked with
  | true => contradiction
  | false => exact congrArg _ empty

theorem interpret_blank (lawful : grammar.Lawful) : grammar.interpret [⟨false, []⟩] = some .blank :=
  lawful.blank

end Marked

/-! ## Filtered lines -/

/-- What the lines that pass still say, expression by expression. -/
def left (grammar : Grammar) (keep : List Char → Bool) (reading : Reading) : Reading :=
  reading.filterMap fun part =>
    let passing := part.1.filter (keep ·.written)
    (grammar.interpret passing).map fun expression => (passing, expression)

/-- The filter takes an expression whole, or nothing of it but entries of inline
tables under hidden keys. -/
def Clean (grammar : Grammar) (hidden : Key → Bool) (keep : List Char → Bool)
    (part : List TextLine × Expression) : Prop :=
  part.1.filter (keep ·.written) = [] ∨
    ∃ expression, grammar.interpret (part.1.filter (keep ·.written)) = some expression ∧
      expression.strip hidden = part.2.strip hidden

variable {grammar : Grammar} {hidden : Key → Bool} {keep : List Char → Bool}

theorem left_means {reading : Reading} :
    ∀ part ∈ grammar.left keep reading, grammar.interpret part.1 = some part.2 := by
  intro part isLeft
  obtain ⟨_, _, isPart⟩ := List.mem_filterMap.mp isLeft
  obtain ⟨_, read, rfl⟩ := Option.map_eq_some_iff.mp isPart
  exact read

theorem interpret_nil (lawful : grammar.Lawful) : grammar.interpret [] = none := lawful.nothing

theorem left_lines (lawful : grammar.Lawful) {reading : Reading}
    (clean : ∀ part ∈ reading, grammar.Clean hidden keep part) :
    Reading.lines (grammar.left keep reading) = reading.lines.filter (keep ·.written) := by
  induction reading with
  | nil => rfl
  | cons part reading ih =>
      have others := ih fun other isIn => clean other (List.mem_cons_of_mem part isIn)
      rw [Reading.lines, Reading.lines, List.flatMap_cons, List.filter_append, ← Reading.lines,
        ← Reading.lines, ← others, left, List.filterMap_cons]
      rcases clean part List.mem_cons_self with nothing | ⟨expression, read, -⟩
      · simp only [nothing, interpret_nil lawful, Option.map_none, List.nil_append]
        rfl
      · simp only [read, Option.map_some, Reading.lines, List.flatMap_cons]
        rfl

/-- Where nothing is left of an expression it was a pair under a hidden key. -/
theorem left_leaves (lawful : grammar.Lawful) {reading : Reading}
    (clean : ∀ part ∈ reading, grammar.Clean hidden keep part)
    (taken : ∀ part ∈ reading, part.1.filter (keep ·.written) = [] →
      ∃ key more value, part.2 = .pair key more value ∧ hidden key = true) :
    Leaves hidden (Reading.expressions (grammar.left keep reading)) reading.expressions := by
  induction reading with
  | nil => exact Leaves.nil
  | cons part reading ih =>
      have others := ih (fun other isIn => clean other (List.mem_cons_of_mem part isIn))
        (fun other isIn => taken other (List.mem_cons_of_mem part isIn))
      rw [left, List.filterMap_cons, Reading.expressions, Reading.expressions, List.map_cons]
      rcases clean part List.mem_cons_self with nothing | ⟨expression, read, same⟩
      · obtain ⟨key, more, value, isPair, isHidden⟩ := taken part List.mem_cons_self nothing
        rw [isPair]
        simp only [nothing, interpret_nil lawful, Option.map_none]
        exact Leaves.dropPair isHidden others
      · simp only [read, Option.map_some, List.map_cons]
        exact Leaves.keep same others

/-! ## Trailing newlines -/

/-- Two lists of expressions that differ in blank lines. -/
structure BlankApart (lefts wholes : List Expression) : Prop where
  leaves : ∀ hidden, Leaves hidden lefts wholes
  run : ∀ draft : Draft, lefts.foldlM Draft.say draft = wholes.foldlM Draft.say draft

theorem leaves_refl (hidden : Key → Bool) (expressions : List Expression) :
    Leaves hidden expressions expressions := by
  induction expressions with
  | nil => exact Leaves.nil
  | cons expression rest ih => exact Leaves.keep rfl ih

theorem leaves_concat_blank {lefts wholes : List Expression}
    (leaves : Leaves hidden lefts wholes) : Leaves hidden lefts (wholes ++ [.blank]) := by
  induction leaves with
  | nil => exact Leaves.dropBlank Leaves.nil
  | keep same _ ih => exact Leaves.keep same ih
  | dropPair isHidden _ ih => exact Leaves.dropPair isHidden ih
  | addBlank _ ih => exact Leaves.addBlank ih
  | dropBlank _ ih => exact Leaves.dropBlank ih

theorem run_concat_blank (expressions : List Expression) (draft : Draft) :
    (expressions ++ [Expression.blank]).foldlM Draft.say draft =
      expressions.foldlM Draft.say draft := by
  rw [List.foldlM_append]
  cases expressions.foldlM Draft.say draft with
  | none => rfl
  | some last => rfl

def unlines (lines : List (List Char)) : List Char := lines.flatMap (· ++ ['\n'])

theorem unlines_concat (lines : List (List Char)) (last : List Char) :
    unlines (lines ++ [last]) = unlines lines ++ last ++ ['\n'] := by
  simp [unlines]

theorem splitOn_trimmed {lines : List (List Char)} {last : List Char}
    (unbroken : ∀ line ∈ lines ++ [last], '\n' ∉ line) (someChar : last ≠ []) :
    ((unlines (lines ++ [last])).rdropWhile (· = '\n')).splitOn '\n' = lines ++ [last] := by
  have lastUnbroken := unbroken last (by simp)
  have ends : (unlines lines ++ last).rdropWhile (· = '\n') = unlines lines ++ last := by
    rw [List.rdropWhile_eq_self_iff]
    intro nonempty
    rw [List.getLast_append_of_ne_nil _ someChar, decide_eq_true_eq]
    intro isNewline
    exact lastUnbroken (isNewline ▸ List.getLast_mem someChar)
  rw [unlines_concat, List.rdropWhile_concat_pos _ _ _ (by simp), ends, unlines,
    splitOn_unlines fun line isIn => unbroken line (List.mem_append_left _ isIn),
    splitOn_singleton_iff.mpr ⟨rfl, lastUnbroken⟩]

/-- The lines of a text that ends where the last line with something on it does. -/
def trimmedLines (lines : List (List Char)) : List (List Char) :=
  let kept := lines.rdropWhile (· = [])
  if kept = [] then [[]] else kept

theorem trimmedLines_concat_nil (lines : List (List Char)) :
    trimmedLines (lines ++ [[]]) = trimmedLines lines := by
  rw [trimmedLines, trimmedLines, List.rdropWhile_concat_pos _ _ _ (by simp)]

theorem trimmedLines_concat (lines : List (List Char)) {last : List Char} (someChar : last ≠ []) :
    trimmedLines (lines ++ [last]) = lines ++ [last] := by
  have kept : (lines ++ [last]).rdropWhile (· = []) = lines ++ [last] :=
    List.rdropWhile_concat_neg _ _ _ (by simpa using someChar)
  rw [trimmedLines, kept, if_neg (by simp)]

theorem splitOn_rdropWhile {lines : List (List Char)} (unbroken : ∀ line ∈ lines, '\n' ∉ line) :
    ((unlines lines).rdropWhile (· = '\n')).splitOn '\n' = trimmedLines lines := by
  induction lines using List.reverseRecOn with
  | nil => rfl
  | append_singleton front last ih =>
      have before := ih fun line isIn => unbroken line (List.mem_append_left _ isIn)
      by_cases empty : last = []
      · rw [unlines_concat, empty, List.append_nil, List.rdropWhile_concat_pos _ _ _ (by simp),
          before, trimmedLines_concat_nil]
      · rw [splitOn_trimmed unbroken empty, trimmedLines_concat front empty]

/-- Without the blank lines at its end the document still reads. -/
theorem read_trimmed (lawful : grammar.Lawful) (parts : Reading) (marks : grammar.Marks parts.lines)
    (means : ∀ part ∈ parts, grammar.interpret part.1 = some part.2) :
    ∃ reading : Reading,
      reading.lines.map TextLine.written = trimmedLines (parts.lines.map TextLine.written) ∧
      grammar.Marks reading.lines ∧
      (∀ part ∈ reading, grammar.interpret part.1 = some part.2) ∧
      BlankApart reading.expressions parts.expressions := by
  induction parts using List.reverseRecOn with
  | nil =>
      refine ⟨[([⟨false, []⟩], .blank)], rfl, Marks.blank, ?_, ?_, ?_⟩
      · simpa using interpret_blank lawful
      · exact fun hidden => Leaves.addBlank Leaves.nil
      · exact fun draft => rfl
  | append_singleton parts part ih =>
      obtain ⟨lines, expression⟩ := part
      have read : grammar.interpret lines = some expression := means (lines, expression) (by simp)
      have split : Reading.lines (parts ++ [(lines, expression)]) = Reading.lines parts ++ lines := by
        rw [Reading.lines, List.flatMap_append, List.flatMap_singleton, ← Reading.lines]
      rw [split] at marks ⊢
      cases lines using List.reverseRecOn with
      | nil =>
          rw [interpret_nil lawful] at read
          contradiction
      | append_singleton front last =>
          by_cases empty : last.written = []
          · -- A blank line of its own: it goes, and the lines before it end the text.
            obtain rfl : last = ⟨false, []⟩ := written_eq_nil empty
            have contents : (front ++ [(⟨false, []⟩ : TextLine)]).map TextLine.content = [[]] :=
              lawful.closes _ (by rw [← interpret, read]; rfl) (by simp)
            have alone : front = [] := by simpa using congrArg List.length contents
            rw [alone, List.nil_append] at read marks ⊢
            rw [interpret_blank lawful] at read
            cases read
            obtain ⟨reading, same, marked, means, apart⟩ := ih
              (marks.sublist (List.sublist_append_left ..))
              (fun part isIn => means part (List.mem_append_left _ isIn))
            refine ⟨reading, ?_, marked, means, ?_, ?_⟩
            · rw [List.map_append, List.map_singleton, written_unmarked, trimmedLines_concat_nil,
                same]
            · intro hidden
              rw [Reading.expressions, Reading.expressions, List.map_append]
              exact leaves_concat_blank (apart.leaves hidden)
            · intro draft
              rw [Reading.expressions, Reading.expressions, List.map_append, List.map_singleton,
                run_concat_blank]
              exact apart.run draft
          · refine ⟨parts ++ [(front ++ [last], expression)], ?_, ?_, means,
              fun hidden => leaves_refl hidden _, fun draft => rfl⟩
            · rw [split, ← List.append_assoc, List.map_append, List.map_singleton,
                trimmedLines_concat _ empty]
            · rw [split]
              exact marks

end Grammar

end RealityHydra.Lib.TomlGrammar
