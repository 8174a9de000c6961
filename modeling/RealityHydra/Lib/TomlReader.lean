import RealityHydra.Lib.Toml

/-!
# A reader of the fragment

A parser that refuses every other document, as one that conforms.
-/

set_option autoImplicit false

namespace RealityHydra.Lib.Toml

open RealityHydra.Lib.Text

inductive Parsed where
  | nothing
  | statement (statement : Statement)
  | opensBlock (key : List Char)

/-- At most a comment is left of the line. -/
def noteEnds (rest : List Char) : Bool :=
  match rest.dropWhile (· = ' ') with
  | [] => true
  | '#' :: text => text.all isPrintable
  | _ => false

/-- A decimal number without leading zeros. -/
def number (chars : List Char) : Option (Nat × List Char) :=
  let digits := chars.takeWhile Char.isDigit
  let value := Nat.ofDigitChars 10 digits 0
  if Nat.toDigits 10 value = digits then some (value, chars.dropWhile Char.isDigit) else none

def parseNumber (chars : List Char) : Option Value :=
  match number chars with
  | none => none
  | some (whole, '.' :: rest) =>
      match number rest with
      | none => none
      | some (tenth, after) =>
          if tenth < 10 ∧ noteEnds after then
            some (.float (((whole * 10 + tenth : Nat) : ℚ) / 10))
          else none
  | some (whole, after) => if noteEnds after then some (.integer whole) else none

def parseValue (key : List Char) : List Char → Option Parsed
  | '"' :: rest =>
      match scan .text rest with
      | some (text, after) =>
          if noteEnds after then some (.statement (.set key (.string text))) else none
      | none => none
  | ['['] => some (.opensBlock key)
  | '[' :: '"' :: rest =>
      match scan .text rest with
      | some (text, ']' :: after) =>
          if noteEnds after then some (.statement (.set key (.array [.string text]))) else none
      | _ => none
  | chars => (parseNumber chars).map fun value => .statement (.set key value)

def parseEntry (line : List Char) : Option Parsed :=
  let key := line.takeWhile isBare
  if key = [] then none
  else
    match (line.dropWhile isBare).dropWhile (· = ' ') with
    | '=' :: ' ' :: value => parseValue key value
    | _ => none

def parseHeading (close : List Char) (opened : List Char → Heading) (rest : List Char) :
    Option Parsed :=
  let name := rest.takeWhile isBare
  if name ≠ [] ∧ rest.dropWhile isBare = close then some (.statement (.opens (opened name)))
  else none

def parseLine : List Char → Option Parsed
  | [] => some .nothing
  | '#' :: text => if text.all isPrintable then some .nothing else none
  | '[' :: '[' :: rest => parseHeading [']', ']'] .element rest
  | '[' :: rest => parseHeading [']'] .table rest
  | line => parseEntry line

def readItem : List Char → Option (List Char)
  | ' ' :: ' ' :: ' ' :: ' ' :: '"' :: rest =>
      match scan .text rest with
      | some (text, [',']) => some text
      | _ => none
  | _ => none

/-- The statements of the lines, a block being open at the key with the items so
far. -/
def readLines : Option (List Char × List (List Char)) → List (List Char) →
    Option (List Statement)
  | none, [] => some []
  | some _, [] => none
  | none, line :: rest =>
      match parseLine line with
      | some .nothing => readLines none rest
      | some (.statement statement) => (readLines none rest).map (statement :: ·)
      | some (.opensBlock key) => readLines (some (key, [])) rest
      | none => none
  | some (key, items), (']' :: after) :: rest =>
      if noteEnds after then
        (readLines none rest).map (.set key (.array (items.map .string)) :: ·)
      else none
  | some (key, items), line :: rest =>
      match readItem line with
      | some item => readLines (some (key, items ++ [item])) rest
      | none => none

def Statement.representable : Statement → Bool
  | .set _ (.integer value) => value < 2 ^ 63
  | _ => true

def reader : Parser where
  parse text :=
    match readLines none (text.splitOn '\n') with
    | none => .error "unsupported syntax"
    | some statements =>
        if statements.all Statement.representable then
          match execute statements with
          | some table => .ok table
          | none => .error "duplicate key"
        else .error "number too large"
  mismatch _ := "unexpected type"
  Represents value := value < 2 ^ 63

/-! ## Lines read back -/

theorem takeWhile_append_stop {p : Char → Bool} {front back : List Char}
    (all : ∀ c ∈ front, p c = true) (stops : ∀ c ∈ back.head?, p c = false) :
    (front ++ back).takeWhile p = front := by
  rw [List.takeWhile_append_of_pos all]
  cases back with
  | nil => simp
  | cons c rest => simp [stops c rfl]

theorem dropWhile_append_stop {p : Char → Bool} {front back : List Char}
    (all : ∀ c ∈ front, p c = true) (stops : ∀ c ∈ back.head?, p c = false) :
    (front ++ back).dropWhile p = back := by
  rw [List.dropWhile_append_of_pos all]
  cases back with
  | nil => simp
  | cons c rest => simp [stops c rfl]

theorem number_toDigits (value : Nat) {rest : List Char}
    (stops : ∀ c ∈ rest.head?, c.isDigit = false) :
    number (Nat.toDigits 10 value ++ rest) = some (value, rest) := by
  have digits : ∀ c ∈ Nat.toDigits 10 value, c.isDigit = true := fun c isIn =>
    Nat.isDigit_of_mem_toDigits (by decide) (by decide) isIn
  simp only [number, takeWhile_append_stop digits stops, dropWhile_append_stop digits stops,
    Nat.ofDigitChars_ten_toDigits, if_true]

theorem noteEnds_noteChars {note : Option Note}
    (printable : ∀ written ∈ note, Printable written.text) :
    noteEnds (noteChars note) = true := by
  cases note with
  | none => rfl
  | some written =>
      have spaces : ∀ c ∈ List.replicate written.pad ' ', decide (c = ' ') = true := by
        intro c isIn
        exact decide_eq_true (List.eq_of_mem_replicate isIn)
      have stripped : (noteChars (some written)).dropWhile (· = ' ') = '#' :: written.text :=
        dropWhile_append_stop spaces (by simp)
      rw [noteEnds, stripped]
      exact List.all_eq_true.mpr (printable written rfl)

/-- What can follow a number. -/
theorem head_noteChars (note : Option Note) :
    ∀ c ∈ (noteChars note).head?, c = ' ' ∨ c = '#' := by
  cases note with
  | none => simp [noteChars]
  | some written =>
      rcases pad : written.pad with _ | more
      · simp [noteChars, Note.chars, pad]
      · simp [noteChars, Note.chars, pad, List.replicate_succ]

theorem head_noteChars_not_digit (note : Option Note) :
    ∀ c ∈ (noteChars note).head?, c.isDigit = false := by
  intro c isFirst
  rcases head_noteChars note c isFirst with rfl | rfl
  · rfl
  · rfl

theorem digit_not_open {c : Char} (digit : c.isDigit = true) : c ≠ '"' ∧ c ≠ '[' := by
  refine ⟨?_, ?_⟩
  · rintro rfl
    contradiction
  · rintro rfl
    contradiction

/-- What starts with a digit is read as a number. -/
theorem parseValue_number (key : List Char) {chars : List Char} {value : Value}
    (starts : ∃ c ∈ chars.head?, c.isDigit = true) (read : parseNumber chars = some value) :
    parseValue key chars = some (.statement (.set key value)) := by
  obtain ⟨c, isFirst, digit⟩ := starts
  obtain ⟨notQuote, notOpen⟩ := digit_not_open digit
  cases chars with
  | nil => contradiction
  | cons first rest =>
      cases isFirst
      unfold parseValue
      split
      · rename_i same
        exact absurd (List.cons.inj same).1 notQuote
      · rename_i same
        exact absurd (List.cons.inj same).1 notOpen
      · rename_i same
        exact absurd (List.cons.inj same).1 notOpen
      · rw [read]
        rfl

theorem head_toDigits (value : Nat) (rest : List Char) :
    ∃ c ∈ (Nat.toDigits 10 value ++ rest).head?, c.isDigit = true := by
  cases digits : Nat.toDigits 10 value with
  | nil => exact absurd digits Nat.toDigits_ne_nil
  | cons c others =>
      have isIn : c ∈ Nat.toDigits 10 value := by
        rw [digits]
        exact List.mem_cons_self
      exact ⟨c, rfl, Nat.isDigit_of_mem_toDigits (by decide) (by decide) isIn⟩

section Values

variable {note : Option Note}
  (printable : ∀ written ∈ note, Printable written.text)

include printable

theorem parseValue_string (key : List Char) {text : List Char} (plain : Unescaped text) :
    parseValue key (quoted text ++ noteChars note) =
      some (.statement (.set key (.string text))) := by
  have read : scan .text (text ++ '"' :: noteChars note) = some (text, noteChars note) :=
    scan_unescaped plain _
  simp only [quoted, List.cons_append, List.append_assoc, List.nil_append, parseValue, read,
    noteEnds_noteChars printable, if_true]

theorem parseValue_single (key : List Char) {item : List Char} (plain : Unescaped item) :
    parseValue key ('[' :: (quoted item ++ ']' :: noteChars note)) =
      some (.statement (.set key (.array [.string item]))) := by
  have read : scan .text (item ++ '"' :: ']' :: noteChars note) =
      some (item, ']' :: noteChars note) := scan_unescaped plain _
  simp only [quoted, List.cons_append, List.append_assoc, List.nil_append, parseValue, read,
    noteEnds_noteChars printable, if_true]

theorem parseNumber_integer (value : Nat) :
    parseNumber (Nat.toDigits 10 value ++ noteChars note) = some (.integer value) := by
  unfold parseNumber
  rw [number_toDigits value (head_noteChars_not_digit note)]
  split
  · contradiction
  · rename_i whole rest same
    have dotted : noteChars note = '.' :: rest := (Prod.mk.inj (Option.some.inj same)).2
    have impossible := head_noteChars note '.' (by rw [dotted]; rfl)
    contradiction
  · rename_i whole after _ same
    cases same
    rw [if_pos (noteEnds_noteChars printable)]

theorem parseNumber_decimal (tenths : Nat) :
    parseNumber (decimalChars tenths ++ noteChars note) = some (.float ((tenths : ℚ) / 10)) := by
  have whole : number (decimalChars tenths ++ noteChars note) =
      some (tenths / 10, '.' :: (Nat.toDigits 10 (tenths % 10) ++ noteChars note)) := by
    rw [decimalChars, List.append_assoc]
    exact number_toDigits _ (by simp)
  have same : tenths / 10 * 10 + tenths % 10 = tenths := Nat.div_add_mod' ..
  simp only [parseNumber, whole, number_toDigits _ (head_noteChars_not_digit note), same]
  rw [if_pos ⟨Nat.mod_lt _ (by decide), noteEnds_noteChars printable⟩]

end Values

theorem isBare_not_open {c : Char} (bare : isBare c = true) :
    c ≠ '#' ∧ c ≠ '[' ∧ c ≠ '\n' := by
  refine ⟨?_, ?_, ?_⟩
  · rintro rfl
    contradiction
  · rintro rfl
    contradiction
  · rintro rfl
    contradiction

theorem parseEntry_entryFront {key : List Char} (bare : BareKey key) (pad : Nat)
    (value : List Char) :
    parseEntry (entryFront key pad ++ value) = parseValue key value := by
  obtain ⟨nonempty, bareChars⟩ := bare
  have spaces : ∀ c ∈ List.replicate pad ' ', decide (c = ' ') = true := by
    intro c isIn
    exact decide_eq_true (List.eq_of_mem_replicate isIn)
  have stops : ∀ c ∈ (List.replicate pad ' ' ++ '=' :: ' ' :: value).head?, isBare c = false := by
    cases pad with
    | zero => simp [isBare]
    | succ more => simp [isBare, List.replicate_succ]
  have whole : entryFront key pad ++ value =
      key ++ (List.replicate pad ' ' ++ '=' :: ' ' :: value) := by simp [entryFront]
  have stripped : (List.replicate pad ' ' ++ '=' :: ' ' :: value).dropWhile (· = ' ') =
      '=' :: ' ' :: value := dropWhile_append_stop spaces (by simp)
  rw [whole, parseEntry, takeWhile_append_stop bareChars stops,
    dropWhile_append_stop bareChars stops, stripped]
  exact if_neg nonempty

theorem parseLine_of_head {c : Char} (rest : List Char) (notHash : c ≠ '#') (notOpen : c ≠ '[') :
    parseLine (c :: rest) = parseEntry (c :: rest) := by
  unfold parseLine
  split
  · contradiction
  · rename_i same
    exact absurd (List.cons.inj same).1 notHash
  · rename_i same
    exact absurd (List.cons.inj same).1 notOpen
  · rename_i same
    exact absurd (List.cons.inj same).1 notOpen
  · rfl

theorem parseLine_entryFront {key : List Char} (bare : BareKey key) (pad : Nat)
    (value : List Char) :
    parseLine (entryFront key pad ++ value) = parseValue key value := by
  rw [← parseEntry_entryFront bare pad value]
  obtain ⟨nonempty, bareChars⟩ := bare
  cases key with
  | nil => contradiction
  | cons first others =>
      obtain ⟨notHash, notOpen, _⟩ := isBare_not_open (bareChars first List.mem_cons_self)
      exact parseLine_of_head _ notHash notOpen

theorem parseHeading_close {name close : List Char} (opened : List Char → Heading)
    (bare : BareKey name) (stops : ∀ c ∈ close.head?, isBare c = false) :
    parseHeading close opened (name ++ close) = some (.statement (.opens (opened name))) := by
  obtain ⟨nonempty, bareChars⟩ := bare
  rw [parseHeading, takeWhile_append_stop bareChars stops, dropWhile_append_stop bareChars stops]
  exact if_pos ⟨nonempty, rfl⟩

theorem parseLine_heading {heading : Heading} (bare : BareKey heading.name) :
    parseLine heading.chars = some (.statement (.opens heading)) := by
  cases heading with
  | table name =>
      -- A bare name does not start with a second bracket.
      cases name with
      | nil => exact absurd rfl bare.1
      | cons first others =>
          have notOpen := (isBare_not_open (bare.2 first List.mem_cons_self)).2.1
          have stops : ∀ c ∈ [']'].head?, isBare c = false := by simp [isBare]
          have read := parseHeading_close .table bare stops
          rw [Heading.chars]
          unfold parseLine
          split
          · rename_i same
            exact absurd same (List.cons_ne_nil _ _)
          · rename_i same
            exact absurd (List.cons.inj same).1 (by decide)
          · rename_i same
            exact absurd (List.cons.inj (List.cons.inj same).2).1 notOpen
          · rename_i same
            rw [← (List.cons.inj same).2]
            exact read
          · rename_i notTable
            exact absurd rfl (notTable _)
  | element name => exact parseHeading_close .element bare (by simp [isBare])

theorem readItem_itemLine {item : List Char} (plain : Unescaped item) :
    readItem (itemLine item) = some item := by
  have read : scan .text (item ++ ['"', ',']) = some (item, [',']) := scan_unescaped plain _
  simp only [itemLine, quoted, List.cons_append, List.append_assoc, List.nil_append, readItem, read]

/-! ## Documents read back -/

theorem readLines_block {note : Option Note}
    (printable : ∀ written ∈ note, Printable written.text) (key : List Char)
    (items before : List (List Char)) (plain : ∀ item ∈ items, Unescaped item)
    (rest : List (List Char)) :
    readLines (some (key, before)) (items.map itemLine ++ (']' :: noteChars note) :: rest) =
      (readLines none rest).map
        (.set key (.array ((before ++ items).map .string)) :: ·) := by
  induction items generalizing before with
  | nil => simp [readLines, noteEnds_noteChars printable]
  | cons item items ih =>
      have others := ih (before ++ [item]) fun other isIn =>
        plain other (List.mem_cons_of_mem item isIn)
      have read := readItem_itemLine (plain item List.mem_cons_self)
      rw [List.append_assoc, List.singleton_append] at others
      rw [List.map_cons, List.cons_append, readLines, read]
      · exact others
      · intro after same
        have impossible := (List.cons.inj same).1
        contradiction

theorem readLines_lines {line : Line} (formed : line.WellFormed) (rest : List (List Char)) :
    readLines none (line.lines ++ rest) =
      (readLines none rest).map (line.statement.toList ++ ·) := by
  cases line with
  | blank => simp [Line.lines, Line.statement, readLines, parseLine]
  | comment text =>
      have printable : text.all isPrintable = true := List.all_eq_true.mpr formed
      have read : parseLine ('#' :: text) = some .nothing := by
        rw [parseLine, if_pos printable]
      simp [Line.lines, Line.statement, readLines, read]
  | heading opened =>
      simp [Line.lines, Line.statement, readLines, parseLine_heading formed]
  | entry key pad literal note =>
      obtain ⟨bare, literalFormed, printable⟩ := formed
      have front := parseLine_entryFront bare pad
      have one : ∀ (value : List Char) (written : Value),
          parseValue key value = some (.statement (.set key written)) →
          readLines none ([entryFront key pad ++ value] ++ rest) =
            (readLines none rest).map ([Statement.set key written] ++ ·) := by
        intro value written read
        rw [List.singleton_append, readLines, front, read]
        rfl
      cases literal with
      | string text => exact one _ _ (parseValue_string printable key literalFormed)
      | integer value =>
          exact one _ _ (parseValue_number key (head_toDigits value _)
            (parseNumber_integer printable value))
      | decimal tenths =>
          have starts : ∃ c ∈ (decimalChars tenths ++ noteChars note).head?,
              c.isDigit = true := by
            rw [decimalChars, List.append_assoc]
            exact head_toDigits _ _
          exact one _ _ (parseValue_number key starts (parseNumber_decimal printable tenths))
      | single item => exact one _ _ (parseValue_single printable key literalFormed)
      | block items =>
          have opens : parseLine (entryFront key pad ++ ['[']) = some (.opensBlock key) := by
            rw [front]
            rfl
          have read := readLines_block printable key items [] literalFormed rest
          simp only [Line.lines, Literal.lines, List.cons_append, List.append_assoc,
            List.nil_append, readLines, opens]
          exact read

theorem readLines_document {document : List Line} (formed : ∀ line ∈ document, line.WellFormed)
    (rest : List (List Char)) :
    readLines none (document.flatMap Line.lines ++ rest) =
      (readLines none rest).map (document.filterMap Line.statement ++ ·) := by
  induction document with
  | nil => simp
  | cons line document ih =>
      have others := ih fun other isIn => formed other (List.mem_cons_of_mem line isIn)
      rw [List.flatMap_cons, List.append_assoc,
        readLines_lines (formed line List.mem_cons_self), others, Option.map_map]
      cases said : line.statement with
      | none => simp [said, Function.comp_def]
      | some statement => simp [said, Function.comp_def]

/-! ### Their lines -/

theorem not_newline_of_unescaped {text : List Char} (plain : Unescaped text) : '\n' ∉ text := by
  intro isIn
  have impossible := plain _ isIn
  rw [newline_not_unescaped] at impossible
  contradiction

theorem not_newline_of_printable {text : List Char} (printable : Printable text) :
    '\n' ∉ text := by
  intro isIn
  have impossible := printable _ isIn
  rw [newline_not_printable] at impossible
  contradiction

theorem not_newline_of_bare {key : List Char} (bare : BareKey key) : '\n' ∉ key :=
  fun isIn => (isBare_not_open (bare.2 _ isIn)).2.2 rfl

theorem not_newline_toDigits (value : Nat) : '\n' ∉ Nat.toDigits 10 value := by
  intro isIn
  have impossible := Nat.isDigit_of_mem_toDigits (by decide) (by decide) isIn
  contradiction

theorem not_newline_quoted {text : List Char} (plain : Unescaped text) : '\n' ∉ quoted text := by
  simp [quoted, not_newline_of_unescaped plain]

theorem not_newline_noteChars {note : Option Note}
    (printable : ∀ written ∈ note, Printable written.text) :
    '\n' ∉ noteChars note := by
  cases note with
  | none => simp [noteChars]
  | some written =>
      simp [noteChars, Note.chars, not_newline_of_printable (printable written rfl)]

theorem not_newline_entryFront {key : List Char} (bare : BareKey key) (pad : Nat) :
    '\n' ∉ entryFront key pad := by
  simp [entryFront, not_newline_of_bare bare]

theorem not_newline_lines {line : Line} (formed : line.WellFormed) :
    ∀ written ∈ line.lines, '\n' ∉ written := by
  cases line with
  | blank => simp [Line.lines]
  | comment text => simp [Line.lines, not_newline_of_printable formed]
  | heading opened =>
      have name := not_newline_of_bare formed
      cases opened with
      | table _ => simpa [Line.lines, Heading.chars, Heading.name] using name
      | element _ => simpa [Line.lines, Heading.chars, Heading.name] using name
  | entry key pad literal note =>
      obtain ⟨bare, literalFormed, printable⟩ := formed
      have front := not_newline_entryFront bare pad
      have back := not_newline_noteChars printable
      cases literal with
      | string text =>
          simp [Line.lines, Literal.lines, front, back, not_newline_quoted literalFormed]
      | integer value =>
          simp [Line.lines, Literal.lines, front, back, not_newline_toDigits]
      | decimal tenths =>
          simp [Line.lines, Literal.lines, front, back, decimalChars, not_newline_toDigits]
      | single item =>
          simp [Line.lines, Literal.lines, front, back, not_newline_quoted literalFormed]
      | block items =>
          intro written isIn
          simp only [Line.lines, Literal.lines, List.mem_cons, List.mem_append, List.mem_map,
            List.not_mem_nil, or_false] at isIn
          rcases isIn with rfl | inside | rfl
          · simp [front]
          · obtain ⟨item, isItem, rfl⟩ := inside
            simp [itemLine, not_newline_quoted (literalFormed item isItem)]
          · simp [back]

theorem splitOn_unlines {lines : List (List Char)} (unbroken : ∀ line ∈ lines, '\n' ∉ line)
    (rest : List Char) :
    (lines.flatMap (· ++ ['\n']) ++ rest).splitOn '\n' = lines ++ rest.splitOn '\n' := by
  induction lines with
  | nil => rfl
  | cons line lines ih =>
      have others := ih fun other isIn => unbroken other (List.mem_cons_of_mem line isIn)
      rw [List.flatMap_cons, List.append_assoc, List.append_assoc, List.singleton_append,
        List.splitOn_append_cons_self_of_not_mem (unbroken line List.mem_cons_self), others,
        List.cons_append]

theorem splitOn_render {document : List Line} (formed : ∀ line ∈ document, line.WellFormed)
    (rest : List Char) :
    (render document ++ rest).splitOn '\n' =
      document.flatMap Line.lines ++ rest.splitOn '\n' := by
  apply splitOn_unlines
  intro written isIn
  obtain ⟨line, isLine, isWritten⟩ := List.mem_flatMap.mp isIn
  exact not_newline_lines (formed line isLine) written isWritten

/-! ## Conformance -/

theorem Statement.representable_set (key : List Char) (literal : Literal) :
    (Statement.set key literal.value).representable = true ↔
      ∀ value ∈ literal.integers, value < 2 ^ 63 := by
  cases literal with
  | integer value =>
      simp only [representable, Literal.value, Literal.integers, decide_eq_true_eq,
        List.forall_mem_singleton]
      omega
  | string _ => simp [representable, Literal.value, Literal.integers]
  | decimal _ => simp [representable, Literal.value, Literal.integers]
  | single _ => simp [representable, Literal.value, Literal.integers]
  | block _ => simp [representable, Literal.value, Literal.integers]

theorem all_representable_iff (document : List Line) :
    (document.filterMap Line.statement).all Statement.representable = true ↔
      ∀ line ∈ document, ∀ value ∈ line.integers, value < 2 ^ 63 := by
  induction document with
  | nil => simp
  | cons line document ih =>
      rw [List.forall_mem_cons, ← ih]
      cases line with
      | entry key pad literal note =>
          have said : (Line.entry key pad literal note).statement = some (.set key literal.value) :=
            rfl
          rw [List.filterMap_cons_some said, List.all_cons, Bool.and_eq_true,
            Statement.representable_set]
          exact Iff.rfl
      | blank => simp [Line.statement, Line.integers]
      | comment _ => simp [Line.statement, Line.integers]
      | heading _ => simp [Line.statement, Line.integers, Statement.representable]

theorem reader_parse_ok_iff {text : List Char} {table : Table} :
    reader.parse text = .ok table ↔
      ∃ statements, readLines none (text.splitOn '\n') = some statements ∧
        statements.all Statement.representable = true ∧ execute statements = some table := by
  rw [reader]
  dsimp only
  split
  · rename_i unread
    simp [unread]
  · rename_i statements read
    simp only [read, Option.some.injEq, exists_eq_left']
    split
    · rename_i fits
      cases executed : execute statements with
      | none => simp
      | some found => simp [fits]
    · rename_i tooLarge
      simp [tooLarge]

/-- The place of the root's entries holds the value under the key. -/
def Draft.Holds (draft : Draft) (key : List Char) (value : Value) : Prop :=
  match draft.heading with
  | none => draft.entries.lookup key = some value
  | some _ => draft.root.lookup key = some value

theorem lookup_insertKey {table later : Table} {key other : List Char} {value inserted : Value}
    (held : table.lookup key = some value)
    (isLater : insertKey table other inserted = some later) : later.lookup key = some value := by
  rw [insertKey] at isLater
  split at isLater
  · contradiction
  · cases isLater
    rw [List.lookup_append, held]
    rfl

theorem lookup_insertKey_self {table later : Table} {key : List Char} {value : Value}
    (isLater : insertKey table key value = some later) : later.lookup key = some value := by
  rw [insertKey] at isLater
  split at isLater
  · contradiction
  · rename_i absent
    cases isLater
    rw [List.lookup_append, Option.not_isSome_iff_eq_none.mp absent]
    rw [Option.none_or, List.lookup_cons, BEq.rfl]

theorem lookup_replaceKey {table : Table} {key other : List Char} {value : Value}
    (different : key ≠ other) :
    (replaceKey table other value).lookup key = table.lookup key := by
  induction table with
  | nil => rfl
  | cons entry table ih =>
      obtain ⟨name, held⟩ := entry
      rw [replaceKey, List.map_cons, ← replaceKey]
      by_cases isOther : name = other
      · have misses : (key == other) = false := beq_false_of_ne different
        rw [if_pos isOther, List.lookup_cons, List.lookup_cons, ih, isOther, misses]
      · rw [if_neg isOther, List.lookup_cons, List.lookup_cons, ih]

/-- A section leaves the strings of the root as they are. -/
theorem lookup_place {root entries later : Table} {heading : Heading} {key text : List Char}
    (held : root.lookup key = some (.string text))
    (isLater : place root entries heading = some later) :
    later.lookup key = some (.string text) := by
  cases heading with
  | table name => exact lookup_insertKey held isLater
  | element name =>
      rw [place] at isLater
      split at isLater
      · cases isLater
        rw [List.lookup_append, held]
        rfl
      · rename_i first others found
        cases isLater
        have different : key ≠ name := by
          rintro rfl
          rw [held] at found
          exact absurd found (by simp)
        rw [lookup_replaceKey different, held]
      · contradiction

theorem Draft.Holds.close {draft : Draft} {later : Table} {key text : List Char}
    (held : draft.Holds key (.string text)) (closed : draft.close = some later) :
    later.lookup key = some (.string text) := by
  unfold Draft.Holds at held
  unfold Draft.close at closed
  split at held
  · rename_i isRoot
    rw [isRoot] at closed
    cases closed
    exact held
  · rename_i heading inSection
    rw [inSection] at closed
    exact lookup_place held closed

theorem Draft.Holds.step {draft later : Draft} {statement : Statement} {key text : List Char}
    (held : draft.Holds key (.string text)) (stepped : draft.step statement = some later) :
    later.Holds key (.string text) := by
  cases statement with
  | set other value =>
      obtain ⟨entries, inserted, rfl⟩ := Option.map_eq_some_iff.mp stepped
      unfold Draft.Holds at held ⊢
      split at held
      · rename_i isRoot
        simp only [isRoot]
        exact lookup_insertKey held inserted
      · rename_i heading inSection
        simp only [inSection]
        exact held
  | opens heading =>
      obtain ⟨root, closed, rfl⟩ := Option.map_eq_some_iff.mp stepped
      exact held.close closed

theorem Draft.Holds.run {statements : List Statement} {draft later : Draft}
    {key text : List Char} (held : draft.Holds key (.string text))
    (ran : statements.foldlM Draft.step draft = some later) : later.Holds key (.string text) := by
  induction statements generalizing draft with
  | nil =>
      cases ran
      exact held
  | cons statement statements ih =>
      rw [List.foldlM_cons] at ran
      obtain ⟨next, stepped, rest⟩ := Option.bind_eq_some_iff.mp ran
      exact ih (held.step stepped) rest

/-- Before the first heading every entry is the root's. -/
theorem heading_none_of_root {document : List Line} {draft later : Draft}
    (isRoot : ∀ line ∈ document, line.IsRoot) (atRoot : draft.heading = none)
    (ran : (document.filterMap Line.statement).foldlM Draft.step draft = some later) :
    later.heading = none := by
  induction document generalizing draft with
  | nil =>
      cases ran
      exact atRoot
  | cons line document ih =>
      have others : ∀ other ∈ document, other.IsRoot :=
        fun other isIn => isRoot other (List.mem_cons_of_mem line isIn)
      cases line with
      | blank => exact ih others atRoot ran
      | comment text => exact ih others atRoot ran
      | heading opened => exact (isRoot _ List.mem_cons_self).elim
      | entry key pad literal note =>
          have said : (Line.entry key pad literal note).statement = some (.set key literal.value) :=
            rfl
          rw [List.filterMap_cons_some said, List.foldlM_cons] at ran
          obtain ⟨next, stepped, rest⟩ := Option.bind_eq_some_iff.mp ran
          obtain ⟨entries, _, rfl⟩ := Option.map_eq_some_iff.mp stepped
          have stays : ({ draft with entries } : Draft).heading = none := atRoot
          exact ih others stays rest

theorem lookup_execute {before : List Line} {later : List Statement} {key text : List Char}
    {table : Table} (isRoot : ∀ line ∈ before, line.IsRoot)
    (executed : execute (before.filterMap Line.statement ++ .set key (.string text) :: later) =
      some table) : table.lookup key = some (.string text) := by
  obtain ⟨final, ran, closed⟩ := Option.bind_eq_some_iff.mp executed
  rw [List.foldlM_append] at ran
  obtain ⟨draft, ranBefore, ran⟩ := Option.bind_eq_some_iff.mp ran
  rw [List.foldlM_cons] at ran
  obtain ⟨next, stepped, ran⟩ := Option.bind_eq_some_iff.mp ran
  have atRoot := heading_none_of_root isRoot rfl ranBefore
  have held : next.Holds key (.string text) := by
    obtain ⟨entries, inserted, rfl⟩ := Option.map_eq_some_iff.mp stepped
    simp only [Draft.Holds, atRoot]
    exact lookup_insertKey_self inserted
  exact (held.run ran).close closed

theorem splitOn_first {front : List Char} (unbroken : '\n' ∉ front) (rest : List Char) :
    ∃ first more others, rest = first ++ more ∧ (∀ c ∈ more.head?, c = '\n') ∧
      (front ++ rest).splitOn '\n' = (front ++ first) :: others := by
  cases cut : splitOnce '\n' rest with
  | none =>
      have whole : '\n' ∉ front ++ rest := by
        simp [unbroken, splitOnce_eq_none_iff.mp cut]
      exact ⟨rest, [], [], (List.append_nil rest).symm, by simp,
        List.splitOn_eq_singleton whole⟩
  | some parts =>
      obtain ⟨first, after⟩ := parts
      obtain ⟨rfl, notIn⟩ := splitOnce_eq_some_iff.mp cut
      refine ⟨first, '\n' :: after, after.splitOn '\n', rfl, by simp, ?_⟩
      rw [← List.append_assoc]
      exact List.splitOn_append_cons_self_of_not_mem (by simp [unbroken, notIn]) ..

/-- What the reader has made of a document whose root goes on with a string. -/
theorem reader_string {before : List Line} {key rest : List Char} {pad : Nat} {table : Table}
    (formed : ∀ line ∈ before, line.WellFormed ∧ line.IsRoot) (bare : BareKey key)
    (parsed : reader.parse (render before ++ (entryFront key pad ++ '"' :: rest)) = .ok table) :
    ∃ first more text after, rest = first ++ more ∧ (∀ c ∈ more.head?, c = '\n') ∧
      scan .text first = some (text, after) ∧ noteEnds after = true ∧
      table.lookup key = some (.string text) := by
  obtain ⟨statements, read, _, executed⟩ := reader_parse_ok_iff.mp parsed
  obtain ⟨firstLine, more, others, whole, lineEnds, split⟩ :=
    splitOn_first (not_newline_entryFront bare pad) ('"' :: rest)
  rw [splitOn_render fun line isIn => (formed line isIn).1, split,
    readLines_document fun line isIn => (formed line isIn).1] at read
  obtain ⟨later, readLater, rfl⟩ := Option.map_eq_some_iff.mp read
  cases firstLine with
  | nil =>
      -- An entry needs a value.
      have front := parseLine_entryFront bare pad []
      rw [readLines, front] at readLater
      contradiction
  | cons quote first =>
      obtain ⟨rfl, rfl⟩ := List.cons.inj whole
      rw [readLines, parseLine_entryFront bare, parseValue] at readLater
      cases scanned : scan .text first with
      | none =>
          rw [scanned] at readLater
          contradiction
      | some found =>
          obtain ⟨text, after⟩ := found
          simp only [scanned] at readLater
          by_cases ends : noteEnds after = true
          · rw [if_pos ends] at readLater
            obtain ⟨last, _, rfl⟩ := Option.map_eq_some_iff.mp readLater
            have isRoot := fun line isIn => (formed line isIn).2
            exact ⟨first, more, text, after, rfl, lineEnds, scanned, ends,
              lookup_execute isRoot executed⟩
          · rw [if_neg ends] at readLater
            contradiction

theorem reader_conforms : reader.Conforms where
  represents value small := small
  document document table formed := by
    have lines : (render document).splitOn '\n' = document.flatMap Line.lines ++ [[]] := by
      have split := splitOn_render formed []
      rw [List.append_nil] at split
      exact split
    have read : readLines none ((render document).splitOn '\n') =
        some (document.filterMap Line.statement) := by
      rw [lines, readLines_document formed]
      simp [readLines, parseLine]
    rw [reader_parse_ok_iff]
    simp only [read, Option.some.injEq, exists_eq_left', all_representable_iff]
    exact Iff.rfl
  basic before key pad rest table formed bare _ parsed := by
    obtain ⟨first, more, text, after, rfl, _, scanned, _, held⟩ := reader_string formed bare parsed
    exact ⟨text, after ++ more, scan_append scanned more, held⟩
  multiLine before key pad rest table formed bare parsed := by
    -- The reader takes the first two quotes for an empty string and stops at the third.
    obtain ⟨first, more, text, after, whole, lineEnds, scanned, ends, _⟩ :=
      reader_string formed bare parsed
    rcases first with _ | ⟨_, _ | ⟨_, _⟩⟩
    · contradiction
    · obtain ⟨rfl, rfl⟩ := List.cons.inj whole
      have impossible := lineEnds '"' rfl
      contradiction
    · obtain ⟨rfl, same⟩ := List.cons.inj whole
      obtain ⟨rfl, _⟩ := List.cons.inj same
      rw [scan_quote] at scanned
      cases scanned
      contradiction

end RealityHydra.Lib.Toml
