import RealityHydra.Lib.TomlGrammar

/-!
# A grammar of single lines

Expressions of one line each, under keys and headings of one part, none of them
used twice in the document.  It is lawful, and a parser follows it.
-/

set_option autoImplicit false

namespace RealityHydra.Lib.TomlGrammar

open RealityHydra.Lib.Toml (Value Table Parser BareKey Statement Parsed parseLine parseValue
  parseLine_of_head parseEntry scan isBare isBare_not_open)
open RealityHydra.Lib.TomlDocument

/-! ## Lines -/

def statementExpression : Statement → Expression
  | .set key value => .pair key [] value
  | .opens (.table name) => .table [name]
  | .opens (.element name) => .element [name]

def parsedExpression : Parsed → Option Expression
  | .nothing => some .blank
  | .statement statement => some (statementExpression statement)
  | .opensBlock _ => none

/-- An entry under a quoted key. -/
def parseQuoted (rest : List Char) : Option Parsed :=
  match scan .text rest with
  | some (key, after) =>
      match after.dropWhile (· = ' ') with
      | '=' :: ' ' :: value => parseValue key value
      | _ => none
  | none => none

def readLine : List Char → Option Parsed
  | '"' :: rest => parseQuoted rest
  | line => parseLine line

def lineExpression (line : List Char) : Option Expression :=
  if line.contains (Char.ofNat 0) then none else (readLine line).bind parsedExpression

theorem parseValue_expression {key chars : List Char} {parsed : Parsed} {expression : Expression}
    (read : parseValue key chars = some parsed)
    (isExpression : parsedExpression parsed = some expression) :
    ∃ value, expression = .pair key [] value := by
  unfold parseValue at read
  split at read
  · split at read
    · split at read
      · cases read
        cases isExpression
        exact ⟨_, rfl⟩
      · contradiction
    · contradiction
  · cases read
    contradiction
  · split at read
    · split at read
      · cases read
        cases isExpression
        exact ⟨_, rfl⟩
      · contradiction
    · contradiction
  · obtain ⟨value, -, rfl⟩ := Option.map_eq_some_iff.mp read
    cases isExpression
    exact ⟨value, rfl⟩

theorem readLine_of_head {c : Char} (rest : List Char) (notQuote : c ≠ '"') (notHash : c ≠ '#')
    (notOpen : c ≠ '[') : readLine (c :: rest) = parseEntry (c :: rest) := by
  unfold readLine
  split
  · rename_i same
    exact absurd (List.cons.inj same).1 notQuote
  · exact parseLine_of_head rest notHash notOpen

theorem lineExpression_mark (rest : List Char) : lineExpression (mark :: rest) = none := by
  have unread : readLine (mark :: rest) = none := by
    rw [readLine_of_head rest (by decide) (by decide) (by decide), parseEntry,
      List.takeWhile_cons_of_neg (by decide)]
    rfl
  rw [lineExpression, unread, Option.bind_none, ite_self]

theorem isSpace_not_open {c : Char} (space : isSpace c = true) :
    isBare c = false ∧ c ≠ '"' ∧ c ≠ '#' ∧ c ≠ '[' := by
  simp only [isSpace, Bool.or_eq_true, decide_eq_true_eq] at space
  rcases space with ((((rfl | rfl) | rfl) | rfl) | rfl) | rfl <;> decide

theorem lineExpression_bareKey {front key rest : List Char} {expression : Expression}
    (spaces : ∀ c ∈ front, isSpace c = true) (bare : BareKey key)
    (read : lineExpression (front ++ (key ++ rest)) = some expression) :
    ∃ tail more value, expression = .pair (key ++ tail) more value := by
  rw [lineExpression] at read
  split at read
  · contradiction
  · obtain ⟨parsed, read, isExpression⟩ := Option.bind_eq_some_iff.mp read
    cases front with
    | cons c front =>
        -- A key does not stand behind a space here.
        obtain ⟨notBare, notQuote, notHash, notOpen⟩ :=
          isSpace_not_open (spaces c List.mem_cons_self)
        rw [List.cons_append, readLine_of_head _ notQuote notHash notOpen, parseEntry,
          List.takeWhile_cons_of_neg (by simp [notBare])] at read
        contradiction
    | nil =>
        obtain ⟨nonempty, bareChars⟩ := bare
        cases key with
        | nil => exact absurd rfl nonempty
        | cons c others =>
            have head := bareChars c List.mem_cons_self
            obtain ⟨notHash, notOpen, _⟩ := isBare_not_open head
            have notQuote : c ≠ '"' := by
              rintro rfl
              exact absurd head (by decide)
            rw [List.nil_append, List.cons_append, readLine_of_head _ notQuote notHash notOpen,
              ← List.cons_append, parseEntry, List.takeWhile_append_of_pos bareChars] at read
            rw [if_neg (by simp)] at read
            split at read
            · obtain ⟨value, rfl⟩ := parseValue_expression read isExpression
              exact ⟨_, [], value, rfl⟩
            · cases read

/-! ## Documents -/

/-- The keys and names of one part that an expression takes. -/
def names : Expression → List Key
  | .pair key _ _ => [key]
  | .table path => path
  | .element path => path
  | .blank => []

/-- A key or a heading of one part. -/
def OnePart : Expression → Prop
  | .pair _ more _ => more = []
  | .table path => path.length = 1
  | .element path => path.length = 1
  | .blank => True

structure NamesOnce (expressions : List Expression) : Prop where
  onePart : ∀ expression ∈ expressions, OnePart expression
  once : (expressions.flatMap names).Nodup

def lineGrammar : Grammar where
  expression
    | [line] => lineExpression line
    | _ => none
  valid := NamesOnce
  skipsMark := false

theorem strip_shape {hidden : Key → Bool} {left whole : Expression}
    (same : left.strip hidden = whole.strip hidden) :
    names left = names whole ∧ (OnePart whole → OnePart left) := by
  cases left <;> cases whole <;> simp_all [Expression.strip, names, OnePart]

theorem NamesOnce.of_leaves {hidden : Key → Bool} {lefts wholes : List Expression}
    (leaves : Leaves hidden lefts wholes) (valid : NamesOnce wholes) : NamesOnce lefts := by
  have sublist : (lefts.flatMap names).Sublist (wholes.flatMap names) ∧
      ((∀ whole ∈ wholes, OnePart whole) → ∀ left ∈ lefts, OnePart left) := by
    clear valid
    induction leaves with
    | nil => exact ⟨List.Sublist.refl _, id⟩
    | keep same _ ih =>
        obtain ⟨sameNames, onePart⟩ := strip_shape same
        refine ⟨?_, ?_⟩
        · rw [List.flatMap_cons, List.flatMap_cons, sameNames]
          exact ih.1.append_left _
        · intro all
          obtain ⟨first, others⟩ := List.forall_mem_cons.mp all
          exact List.forall_mem_cons.mpr ⟨onePart first, ih.2 others⟩
    | dropPair _ _ ih =>
        exact ⟨ih.1.trans (List.sublist_append_right ..), fun all =>
          ih.2 (List.forall_mem_cons.mp all).2⟩
    | addBlank _ ih =>
        exact ⟨ih.1, fun all => List.forall_mem_cons.mpr ⟨trivial, ih.2 all⟩⟩
    | dropBlank _ ih => exact ⟨ih.1, fun all => ih.2 (List.forall_mem_cons.mp all).2⟩
  exact ⟨sublist.2 valid.onePart, valid.once.sublist sublist.1⟩

/-- The keys of the root and of the table under the heading have been seen. -/
structure Seen (seen : List Key) (draft : Draft) : Prop where
  root : ∀ key, (draft.root.lookup key).isSome → key ∈ seen
  heading : draft.heading = [] ∨ ∃ name value place, draft.heading = [name] ∧
    draft.root.lookup name = some value ∧ opened (some value) = some place ∧
      ∀ key, (place.1.lookup key).isSome → key ∈ seen

theorem lookup_of_unseen {seen : List Key} {table : Table} {key : Key}
    (all : ∀ key, (table.lookup key).isSome → key ∈ seen) (unseen : key ∉ seen) :
    table.lookup key = none :=
  Option.not_isSome_iff_eq_none.mp fun held => unseen (all key held)

theorem isSome_lookup_putKey {seen : List Key} {table : Table} {key : Key} {value : Value}
    (all : ∀ key, (table.lookup key).isSome → key ∈ seen) :
    ∀ other, ((putKey key value table).lookup other).isSome → other ∈ seen ++ [key] := by
  intro other held
  rw [lookup_putKey] at held
  split at held
  · rename_i same
    rw [same]
    simp
  · exact List.mem_append_left _ (all other held)

theorem Seen.say {seen : List Key} {draft : Draft} {expression : Expression}
    (sees : Seen seen draft) (onePart : OnePart expression)
    (unseen : ∀ name ∈ names expression, name ∉ seen) :
    ∃ next, draft.say expression = some next ∧ Seen (seen ++ names expression) next := by
  obtain ⟨root, heading⟩ := draft
  cases expression with
  | blank => exact ⟨_, rfl, by simpa [names] using sees⟩
  | table path =>
      obtain ⟨name, rfl⟩ := List.length_eq_one_iff.mp onePart
      have absent := lookup_of_unseen sees.root (unseen name (by simp [names]))
      refine ⟨⟨putKey name (.table []) root, [name]⟩, ?_, isSome_lookup_putKey sees.root,
        Or.inr ⟨name, _, _, rfl, by rw [lookup_putKey, if_pos rfl], rfl, by simp⟩⟩
      simp only [Draft.say, update, absent, openTable, Option.map_some]
  | element path =>
      obtain ⟨name, rfl⟩ := List.length_eq_one_iff.mp onePart
      have absent := lookup_of_unseen sees.root (unseen name (by simp [names]))
      refine ⟨⟨putKey name (.array [.table []]) root, [name]⟩, ?_, isSome_lookup_putKey sees.root,
        Or.inr ⟨name, _, _, rfl, by rw [lookup_putKey, if_pos rfl], rfl, by simp⟩⟩
      simp only [Draft.say, update, absent, addElement, Option.map_some]
  | pair key more value =>
      cases onePart
      have isNew : key ∉ seen := unseen key (by simp [names])
      rcases sees.heading with rfl | ⟨name, held, place, rfl, isHeld, isOpen, inside⟩
      · have absent := lookup_of_unseen sees.root isNew
        refine ⟨⟨putKey key value root, []⟩, ?_, isSome_lookup_putKey sees.root, Or.inl rfl⟩
        simp only [Draft.say, List.nil_append, update, absent, addPair, Option.map_some]
      · have absent := lookup_of_unseen inside isNew
        obtain ⟨back, reopens⟩ := opened_back isOpen (putKey key value place.1)
        refine ⟨⟨putKey name (place.2 (putKey key value place.1)) root, [name]⟩, ?_, ?_,
          Or.inr ⟨name, _, _, rfl, by rw [lookup_putKey, if_pos rfl], reopens,
            isSome_lookup_putKey inside⟩⟩
        · simp only [Draft.say, List.singleton_append, update, isHeld, isOpen, Option.bind_some,
            absent, addPair, Option.map_some]
        · intro other found
          rw [lookup_putKey] at found
          refine List.mem_append_left _ (sees.root other ?_)
          split at found
          · rename_i same
            rw [same, isHeld]
            rfl
          · exact found

theorem Seen.run {expressions : List Expression} {seen : List Key} {draft : Draft}
    (sees : Seen seen draft) (onePart : ∀ expression ∈ expressions, OnePart expression)
    (once : (seen ++ expressions.flatMap names).Nodup) :
    (expressions.foldlM Draft.say draft).isSome := by
  induction expressions generalizing seen draft with
  | nil => rfl
  | cons expression rest ih =>
      obtain ⟨first, others⟩ := List.forall_mem_cons.mp onePart
      rw [List.flatMap_cons, ← List.append_assoc] at once
      have apart := List.nodup_append.mp (List.nodup_append.mp once).1
      obtain ⟨next, said, seesNext⟩ := sees.say first fun name isIn wasSeen =>
        apart.2.2 name wasSeen name isIn rfl
      rw [List.foldlM_cons, said]
      exact ih seesNext others once

theorem lineGrammar_lawful : lineGrammar.Lawful where
  nothing := rfl
  blank := rfl
  closes lines read ends := by
    match lines, read with
    | [line], _ =>
        rw [List.getLast?_singleton, Option.some.injEq] at ends
        rw [ends]
    | [], read => contradiction
    | _ :: _ :: _, read => contradiction
  noNul lines read := by
    match lines, read with
    | [line], read =>
        intro other isIn
        rw [List.mem_singleton.mp isIn]
        intro hasNul
        have refused : lineExpression line = none := if_pos (List.contains_iff_mem.mpr hasNul)
        have read : (lineExpression line).isSome := read
        rw [refused] at read
        contradiction
    | [], read => contradiction
    | _ :: _ :: _, read => contradiction
  unmarked rest others := by
    cases others with
    | nil => exact lineExpression_mark rest
    | cons _ _ => rfl
  bareKey front key rest others expression spaces bare read := by
    cases others with
    | nil => exact lineExpression_bareKey spaces bare read
    | cons _ _ => contradiction
  leaves _ _ _ leaves valid := valid.of_leaves leaves
  defined expressions valid := by
    have start : Seen [] ⟨[], []⟩ := ⟨by simp, Or.inl rfl⟩
    have ran := start.run valid.onePart (by simpa using valid.once)
    rw [build, Option.isSome_map]
    exact ran

/-! ## Its parser -/

instance : DecidablePred OnePart
  | .pair _ more _ => inferInstanceAs (Decidable (more = []))
  | .table path => inferInstanceAs (Decidable (path.length = 1))
  | .element path => inferInstanceAs (Decidable (path.length = 1))
  | .blank => inferInstanceAs (Decidable True)

instance : DecidablePred NamesOnce := fun expressions =>
  decidable_of_iff
    ((∀ expression ∈ expressions, OnePart expression) ∧ (expressions.flatMap names).Nodup)
    ⟨fun both => ⟨both.1, both.2⟩, fun valid => ⟨valid.onePart, valid.once⟩⟩

def lineParser : Parser where
  parse text :=
    if EndsPlain (text.splitOn '\n') then
      match (text.splitOn '\n').mapM lineExpression with
      | none => .error "unsupported syntax"
      | some expressions =>
          if NamesOnce expressions then
            match build expressions with
            | some table => .ok table
            | none => .error "duplicate key"
          else .error "duplicate key"
    else .error "unsupported syntax"
  mismatch _ := "unexpected type"
  Represents value := value < 2 ^ 63

def linesReading (lines : List (List Char)) (expressions : List Expression) : Reading :=
  List.zipWith (fun line expression => ([⟨false, line⟩], expression)) lines expressions

theorem linesReading_of_mapM {lines : List (List Char)} {expressions : List Expression}
    (read : lines.mapM lineExpression = some expressions) :
    (linesReading lines expressions).lines = lines.map (⟨false, ·⟩) ∧
      (linesReading lines expressions).expressions = expressions ∧
      ∀ part ∈ linesReading lines expressions, lineGrammar.interpret part.1 = some part.2 := by
  induction lines generalizing expressions with
  | nil =>
      cases read
      simp [linesReading, Reading.lines, Reading.expressions]
  | cons line lines ih =>
      simp only [List.mapM_cons, Option.bind_eq_bind, Option.bind_eq_some_iff] at read
      obtain ⟨first, isFirst, rest, isRest, same⟩ := read
      cases same
      obtain ⟨sameLines, sameExpressions, means⟩ := ih isRest
      refine ⟨congrArg (List.cons (⟨false, line⟩ : TextLine)) sameLines,
        congrArg (first :: ·) sameExpressions, ?_⟩
      exact List.forall_mem_cons.mpr ⟨isFirst, means⟩

/-- A filter takes a line or leaves it. -/
theorem lineGrammar_clean {hidden : Key → Bool} {keep : List Char → Bool}
    {part : List TextLine × Expression}
    (means : lineGrammar.interpret part.1 = some part.2) :
    lineGrammar.Clean hidden keep part := by
  obtain ⟨lines, expression⟩ := part
  match lines, means with
  | [line], means =>
      by_cases kept : keep line.written = true
      · exact Or.inr ⟨expression, by rw [List.filter_singleton, kept]; exact means, rfl⟩
      · exact Or.inl (by simp [kept])
  | [], means => contradiction
  | _ :: _ :: _, means => contradiction

theorem marks_plain (lines : List (List Char)) :
    lineGrammar.Marks (lines.map (⟨false, ·⟩)) where
  skipped line isIn isMarked := by
    obtain ⟨_, _, rfl⟩ := List.mem_map.mp isIn
    contradiction
  first line isIn := by
    obtain ⟨_, _, rfl⟩ := List.mem_map.mp (List.mem_of_mem_tail isIn)
    rfl

theorem Grammar.Marks.written {lines : List TextLine} (marks : lineGrammar.Marks lines) :
    lines.map TextLine.written = lines.map TextLine.content := by
  apply List.map_congr_left
  intro line isIn
  have unmarked : line.marked = false :=
    Bool.eq_false_iff.mpr fun isMarked => absurd (marks.skipped line isIn isMarked) (by decide)
  rw [TextLine.written, unmarked]
  rfl

theorem mapM_lineExpression {reading : Reading}
    (means : ∀ part ∈ reading, lineGrammar.interpret part.1 = some part.2) :
    (reading.lines.map TextLine.content).mapM lineExpression = some reading.expressions := by
  induction reading with
  | nil => rfl
  | cons part reading ih =>
      obtain ⟨first, others⟩ := List.forall_mem_cons.mp means
      obtain ⟨lines, expression⟩ := part
      match lines, first with
      | [line], first =>
          have first : lineExpression line.content = some expression := first
          have rest := ih others
          rw [Reading.lines] at rest
          rw [Reading.lines, List.flatMap_cons, List.singleton_append, List.map_cons,
            List.mapM_cons, first, rest]
          rfl
      | [], first => contradiction
      | _ :: _ :: _, first => contradiction

theorem lineParser_follows : lineGrammar.FollowedBy lineParser := by
  intro text table
  refine ⟨?_, ?_⟩
  · intro parsed
    simp only [lineParser] at parsed
    split at parsed
    · rename_i ends
      split at parsed
      · contradiction
      · rename_i expressions read
        obtain ⟨lines, same, means⟩ := linesReading_of_mapM read
        split at parsed
        · rename_i valid
          split at parsed
          · rename_i built
            cases parsed
            refine ⟨linesReading _ expressions, ⟨?_, ends, ?_, means, ?_⟩, ?_⟩
            · rw [lines, List.map_map]
              exact (List.map_id _).symm
            · rw [lines]
              exact marks_plain _
            · rw [same]
              exact valid
            · rw [same, built]
          · contradiction
        · contradiction
    · contradiction
  · intro found
    obtain ⟨reading, reads, built⟩ := found
    have read := mapM_lineExpression reads.means
    rw [← reads.marks.written, ← reads.lines] at read
    have valid : NamesOnce reading.expressions := reads.valid
    simp only [lineParser, if_pos reads.ends, read, if_pos valid, built]

end RealityHydra.Lib.TomlGrammar
