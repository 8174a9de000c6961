import Mathlib.Algebra.Group.Int.Defs
import Mathlib.Algebra.Group.Nat.Defs
import Mathlib.Data.Rat.Defs
import RealityHydra.Lib.Text

/-!
# TOML documents

Values, basic strings, and a fragment of the documents: entries under bare keys,
tables and arrays of tables one level deep.  A parser conforms if it reads the
fragment by its meaning and basic strings by their grammar.
-/

set_option autoImplicit false

namespace RealityHydra.Lib.Toml

inductive Value where
  | string (text : List Char)
  | integer (value : Int)
  | float (value : ℚ)
  | infinity (negative : Bool)
  | nan
  | boolean (value : Bool)
  | datetime (text : List Char)
  | array (items : List Value)
  | table (entries : List (List Char × Value))

/-- The keys in the order of the document. -/
abbrev Table := List (List Char × Value)

/-! ## Basic strings -/

/-- What a comment may hold: no control character but the tab. -/
def isPrintable (c : Char) : Bool := c = '\t' || (0x20 ≤ c.toNat && c.toNat ≠ 0x7F)

/-- What stands for itself in a basic string. -/
def isUnescaped (c : Char) : Bool := isPrintable c && c ≠ '"' && c ≠ '\\'

/-- A text that a basic string can hold as it is. -/
def Unescaped (text : List Char) : Prop := ∀ c ∈ text, isUnescaped c = true

instance (text : List Char) : Decidable (Unescaped text) :=
  decidable_of_iff (text.all isUnescaped = true) List.all_eq_true

/-- A text that a comment can hold. -/
def Printable (text : List Char) : Prop := ∀ c ∈ text, isPrintable c = true

instance (text : List Char) : Decidable (Printable text) :=
  decidable_of_iff (text.all isPrintable = true) List.all_eq_true

inductive Escape where
  | char (decoded : Char)
  | hex (digits : Nat)
  deriving DecidableEq, Repr

def escape (c : Char) : Option Escape :=
  if c = 'b' then some (.char (Char.ofNat 0x08))
  else if c = 't' then some (.char '\t')
  else if c = 'n' then some (.char '\n')
  else if c = 'f' then some (.char (Char.ofNat 0x0C))
  else if c = 'r' then some (.char '\r')
  else if c = 'e' then some (.char (Char.ofNat 0x1B))
  else if c = '"' then some (.char '"')
  else if c = '\\' then some (.char '\\')
  else if c = 'x' then some (.hex 2)
  else if c = 'u' then some (.hex 4)
  else if c = 'U' then some (.hex 8)
  else none

def hexValue (c : Char) : Option Nat :=
  if '0' ≤ c ∧ c ≤ '9' then some (c.toNat - '0'.toNat)
  else if 'a' ≤ c ∧ c ≤ 'f' then some (c.toNat - 'a'.toNat + 10)
  else if 'A' ≤ c ∧ c ≤ 'F' then some (c.toNat - 'A'.toNat + 10)
  else none

/-- A Unicode scalar value. -/
def scalar (value : Nat) : Option Char :=
  if value.isValidChar then some (Char.ofNat value) else none

/-- Where in a string the next character stands. -/
inductive Mode where
  | text
  | escape
  | hex (left value : Nat)
  deriving DecidableEq, Repr

/-- What one character does to the string. -/
inductive Move where
  | close
  | emit (decoded : Char)
  | enter (mode : Mode)
  deriving DecidableEq, Repr

def move : Mode → Char → Option Move
  | .text, c =>
      if c = '"' then some .close
      else if c = '\\' then some (.enter .escape)
      else if isUnescaped c then some (.emit c)
      else none
  | .escape, c =>
      (escape c).map fun
        | .char decoded => .emit decoded
        | .hex digits => .enter (.hex digits 0)
  | .hex left value, c =>
      (hexValue c).bind fun digit =>
        let value := value * 16 + digit
        if left ≤ 1 then (scalar value).map .emit
        else some (.enter (.hex (left - 1) value))

def prepend (c : Char) (read : List Char × List Char) : List Char × List Char :=
  (c :: read.1, read.2)

/-- The rest of a basic string and what comes after its closing quote. -/
def scan : Mode → List Char → Option (List Char × List Char)
  | _, [] => none
  | mode, c :: rest =>
      match move mode c with
      | none => none
      | some .close => some ([], rest)
      | some (.emit decoded) => (scan .text rest).map (prepend decoded)
      | some (.enter next) => scan next rest

theorem isUnescaped_iff {c : Char} :
    isUnescaped c = true ↔ isPrintable c = true ∧ c ≠ '"' ∧ c ≠ '\\' := by
  simp [isUnescaped, and_assoc]

theorem newline_not_printable : isPrintable '\n' = false := by decide

theorem newline_not_unescaped : isUnescaped '\n' = false := by decide

@[simp] theorem move_newline (mode : Mode) : move mode '\n' = none := by
  cases mode with
  | text => rfl
  | escape => rfl
  | hex left value => rfl

theorem move_unescaped {c : Char} (plain : isUnescaped c = true) :
    move .text c = some (.emit c) := by
  obtain ⟨_, notQuote, notSlash⟩ := isUnescaped_iff.mp plain
  rw [move, if_neg notQuote, if_neg notSlash, if_pos plain]

theorem move_text_cases {c : Char} {moved : Move} (moves : move .text c = some moved) :
    (c = '"' ∧ moved = .close) ∨ (c = '\\' ∧ moved = .enter .escape) ∨
      (isUnescaped c = true ∧ moved = .emit c) := by
  rw [move] at moves
  split at moves
  · rename_i isQuote
    cases moves
    exact Or.inl ⟨isQuote, rfl⟩
  · split at moves
    · rename_i isSlash
      cases moves
      exact Or.inr (Or.inl ⟨isSlash, rfl⟩)
    · split at moves
      · rename_i plain
        cases moves
        exact Or.inr (Or.inr ⟨plain, rfl⟩)
      · contradiction

theorem move_bare {c : Char} {moved : Move} (notQuote : c ≠ '"') (notSlash : c ≠ '\\')
    (moves : move .text c = some moved) : isUnescaped c = true ∧ moved = .emit c := by
  rcases move_text_cases moves with quote | slash | plain
  · exact absurd quote.1 notQuote
  · exact absurd slash.1 notSlash
  · exact plain

/-- What one step of a scan that succeeds has done. -/
theorem scan_cons_cases {mode : Mode} {c : Char} {rest text after : List Char}
    (read : scan mode (c :: rest) = some (text, after)) :
    (move mode c = some .close ∧ text = [] ∧ after = rest) ∨
    (∃ decoded others, move mode c = some (.emit decoded) ∧
      scan .text rest = some (others, after) ∧ text = decoded :: others) ∨
    (∃ next, move mode c = some (.enter next) ∧ scan next rest = some (text, after)) := by
  rw [scan] at read
  split at read
  · contradiction
  · rename_i moves
    cases read
    exact Or.inl ⟨moves, rfl, rfl⟩
  · rename_i decoded moves
    obtain ⟨found, isRead, same⟩ := Option.map_eq_some_iff.mp read
    cases same
    exact Or.inr (Or.inl ⟨decoded, found.1, moves, isRead, rfl⟩)
  · rename_i next moves
    exact Or.inr (Or.inr ⟨next, moves, read⟩)

@[simp] theorem scan_quote (rest : List Char) : scan .text ('"' :: rest) = some ([], rest) := rfl

theorem scan_unescaped {text : List Char} (plain : Unescaped text) (rest : List Char) :
    scan .text (text ++ '"' :: rest) = some (text, rest) := by
  induction text with
  | nil => rfl
  | cons c text ih =>
      have others := ih fun d isIn => plain d (List.mem_cons_of_mem c isIn)
      rw [List.cons_append, scan, move_unescaped (plain c List.mem_cons_self)]
      simp only [others, Option.map_some, prepend]

/-- A string that closes does so whatever follows it. -/
theorem scan_append {input text after : List Char} {mode : Mode}
    (read : scan mode input = some (text, after)) (more : List Char) :
    scan mode (input ++ more) = some (text, after ++ more) := by
  induction input generalizing mode text with
  | nil => cases mode <;> contradiction
  | cons c rest ih =>
      rw [List.cons_append, scan]
      rcases scan_cons_cases read with closes | emits | enters
      · obtain ⟨moves, rfl, rfl⟩ := closes
        rw [moves]
      · obtain ⟨decoded, others, moves, isRead, rfl⟩ := emits
        simp only [moves, ih isRead, Option.map_some, prepend]
      · obtain ⟨next, moves, isRead⟩ := enters
        simp only [moves, ih isRead]

/-! ### What a line may hold between two quotes

The text is followed by a quote and the end of the line. -/

/-- No character stands for more than one. -/
theorem scan_length {input text after : List Char} {mode : Mode} (rest : List Char)
    (read : scan mode (input ++ '"' :: '\n' :: rest) = some (text, after)) :
    text.length ≤ input.length := by
  induction input generalizing mode text with
  | nil =>
      rw [List.nil_append] at read
      -- Past the last quote the line ends, and with it every mode.
      have ends : ∀ next, scan next ('\n' :: rest) = none := by
        intro next
        rw [scan, move_newline]
      rcases scan_cons_cases read with closes | emits | enters
      · rw [closes.2.1]
      · obtain ⟨_, _, _, isRead, _⟩ := emits
        rw [ends] at isRead
        contradiction
      · obtain ⟨next, _, isRead⟩ := enters
        rw [ends] at isRead
        contradiction
  | cons c input ih =>
      rcases scan_cons_cases read with closes | emits | enters
      · rw [closes.2.1]
        exact Nat.zero_le _
      · obtain ⟨_, others, _, isRead, rfl⟩ := emits
        exact Nat.succ_le_succ (ih isRead)
      · obtain ⟨next, _, isRead⟩ := enters
        exact Nat.le_succ_of_le (ih isRead)

/-- Only a text without escapes reads back as itself. -/
theorem unescaped_of_scan_self {input after : List Char} (rest : List Char)
    (read : scan .text (input ++ '"' :: '\n' :: rest) = some (input, after)) :
    Unescaped input := by
  induction input with
  | nil => simp [Unescaped]
  | cons c input ih =>
      rcases scan_cons_cases read with closes | emits | enters
      · obtain ⟨_, impossible, _⟩ := closes
        contradiction
      · obtain ⟨decoded, others, moves, isRead, same⟩ := emits
        obtain ⟨rfl, rfl⟩ := List.cons.inj same
        rcases move_text_cases moves with quote | slash | plain
        · exact absurd quote.2 (by simp)
        · exact absurd slash.2 (by simp)
        · exact List.forall_mem_cons.mpr ⟨plain.1, ih isRead⟩
      · obtain ⟨next, _, isRead⟩ := enters
        exact absurd (scan_length rest isRead) (by simp)

/-- Without quotes and backslashes the whole text is scanned. -/
theorem unescaped_of_scan {input rest text after : List Char}
    (bare : ∀ c ∈ input, c ≠ '"' ∧ c ≠ '\\')
    (read : scan .text (input ++ rest) = some (text, after)) : Unescaped input := by
  induction input generalizing text with
  | nil => simp [Unescaped]
  | cons c input ih =>
      obtain ⟨notQuote, notSlash⟩ := bare c List.mem_cons_self
      have others := fun d isIn => bare d (List.mem_cons_of_mem c isIn)
      rcases scan_cons_cases read with closes | emits | enters
      · exact absurd (move_bare notQuote notSlash closes.1).2 (by simp)
      · obtain ⟨decoded, found, moves, isRead, _⟩ := emits
        exact List.forall_mem_cons.mpr
          ⟨(move_bare notQuote notSlash moves).1, ih others isRead⟩
      · obtain ⟨next, moves, _⟩ := enters
        exact absurd (move_bare notQuote notSlash moves).2 (by simp)

/-! ## A fragment of the documents -/

def isBare (c : Char) : Bool := c.isAlphanum || c = '-' || c = '_'

def BareKey (key : List Char) : Prop := key ≠ [] ∧ ∀ c ∈ key, isBare c = true

instance (key : List Char) : Decidable (BareKey key) :=
  decidable_of_iff (key ≠ [] ∧ key.all isBare = true) (and_congr_right' List.all_eq_true)

inductive Literal where
  | string (text : List Char)
  | integer (value : Nat)
  /-- A number with one decimal. -/
  | decimal (tenths : Nat)
  | single (item : List Char)
  /-- An array with each item on a line of its own. -/
  | block (items : List (List Char))
  deriving DecidableEq, Repr

inductive Heading where
  | table (name : List Char)
  | element (name : List Char)
  deriving DecidableEq, Repr

/-- A comment after an entry, and the spaces before it. -/
structure Note where
  pad : Nat
  text : List Char
  deriving DecidableEq, Repr

inductive Line where
  | blank
  | comment (text : List Char)
  | entry (key : List Char) (pad : Nat) (literal : Literal) (note : Option Note)
  | heading (heading : Heading)
  deriving DecidableEq, Repr

def Literal.value : Literal → Value
  | .string text => .string text
  | .integer value => .integer value
  | .decimal tenths => .float (tenths / 10)
  | .single item => .array [.string item]
  | .block items => .array (items.map .string)

/-- Of the numbers with a decimal, those that a binary fraction holds exactly. -/
def Literal.WellFormed : Literal → Prop
  | .string text => Unescaped text
  | .integer _ => True
  | .decimal tenths => tenths % 5 = 0 ∧ tenths < 2 ^ 53
  | .single item => Unescaped item
  | .block items => ∀ item ∈ items, Unescaped item

def Literal.integers : Literal → List Nat
  | .integer value => [value]
  | _ => []

def Heading.name : Heading → List Char
  | .table name => name
  | .element name => name

def Line.WellFormed : Line → Prop
  | .blank => True
  | .comment text => Printable text
  | .entry key _ literal note =>
      BareKey key ∧ literal.WellFormed ∧ ∀ written ∈ note, Printable written.text
  | .heading opened => BareKey opened.name

instance : DecidablePred Literal.WellFormed
  | .string text => inferInstanceAs (Decidable (Unescaped text))
  | .integer _ => inferInstanceAs (Decidable True)
  | .decimal tenths => inferInstanceAs (Decidable (tenths % 5 = 0 ∧ tenths < 2 ^ 53))
  | .single item => inferInstanceAs (Decidable (Unescaped item))
  | .block items => inferInstanceAs (Decidable (∀ item ∈ items, Unescaped item))

instance : DecidablePred Line.WellFormed
  | .blank => inferInstanceAs (Decidable True)
  | .comment text => inferInstanceAs (Decidable (Printable text))
  | .entry key _ literal note =>
      inferInstanceAs (Decidable (BareKey key ∧ literal.WellFormed ∧
        ∀ written ∈ note, Printable written.text))
  | .heading opened => inferInstanceAs (Decidable (BareKey opened.name))

def Line.integers : Line → List Nat
  | .entry _ _ literal _ => literal.integers
  | _ => []

/-! ### Its text -/

def quoted (text : List Char) : List Char := '"' :: (text ++ ['"'])

def Note.chars (note : Note) : List Char := List.replicate note.pad ' ' ++ '#' :: note.text

def noteChars (note : Option Note) : List Char := (note.map Note.chars).getD []

def entryFront (key : List Char) (pad : Nat) : List Char :=
  key ++ (List.replicate pad ' ' ++ ['=', ' '])

def itemLine (item : List Char) : List Char := [' ', ' ', ' ', ' '] ++ quoted item ++ [',']

def decimalChars (tenths : Nat) : List Char :=
  Nat.toDigits 10 (tenths / 10) ++ '.' :: Nat.toDigits 10 (tenths % 10)

/-- The lines of an entry, given what stands before and after its value. -/
def Literal.lines (front back : List Char) : Literal → List (List Char)
  | .string text => [front ++ (quoted text ++ back)]
  | .integer value => [front ++ (Nat.toDigits 10 value ++ back)]
  | .decimal tenths => [front ++ (decimalChars tenths ++ back)]
  | .single item => [front ++ '[' :: (quoted item ++ ']' :: back)]
  | .block items => (front ++ ['[']) :: (items.map itemLine ++ [']' :: back])

def Heading.chars : Heading → List Char
  | .table name => '[' :: (name ++ [']'])
  | .element name => '[' :: '[' :: (name ++ [']', ']'])

def Line.lines : Line → List (List Char)
  | .blank => [[]]
  | .comment text => ['#' :: text]
  | .entry key pad literal note => literal.lines (entryFront key pad) (noteChars note)
  | .heading opened => [opened.chars]

def render (document : List Line) : List Char :=
  (document.flatMap Line.lines).flatMap (· ++ ['\n'])

@[simp] theorem render_nil : render [] = [] := rfl

@[simp] theorem render_append (first second : List Line) :
    render (first ++ second) = render first ++ render second := by
  simp [render]

theorem render_blank (more : List Line) : render (.blank :: more) = '\n' :: render more := rfl

theorem render_comment (text : List Char) (more : List Line) :
    render (.comment text :: more) = '#' :: (text ++ '\n' :: render more) := by
  simp [render, Line.lines]

theorem render_string (key : List Char) (pad : Nat) (text : List Char) (note : Option Note)
    (more : List Line) :
    render (.entry key pad (.string text) note :: more) =
      entryFront key pad ++ '"' :: (text ++ '"' :: (noteChars note ++ '\n' :: render more)) := by
  simp [render, Line.lines, Literal.lines, quoted]

theorem render_integer (key : List Char) (pad value : Nat) (note : Option Note)
    (more : List Line) :
    render (.entry key pad (.integer value) note :: more) =
      entryFront key pad ++
        (Nat.toDigits 10 value ++ (noteChars note ++ '\n' :: render more)) := by
  simp [render, Line.lines, Literal.lines]

theorem render_decimal (key : List Char) (pad tenths : Nat) (note : Option Note)
    (more : List Line) :
    render (.entry key pad (.decimal tenths) note :: more) =
      entryFront key pad ++ (decimalChars tenths ++ (noteChars note ++ '\n' :: render more)) := by
  simp [render, Line.lines, Literal.lines]

theorem render_single (key : List Char) (pad : Nat) (item : List Char) (note : Option Note)
    (more : List Line) :
    render (.entry key pad (.single item) note :: more) =
      entryFront key pad ++
        '[' :: '"' :: (item ++ '"' :: ']' :: (noteChars note ++ '\n' :: render more)) := by
  simp [render, Line.lines, Literal.lines, quoted]

theorem render_block (key : List Char) (pad : Nat) (items : List (List Char))
    (note : Option Note) (more : List Line) :
    render (.entry key pad (.block items) note :: more) =
      entryFront key pad ++
        '[' :: '\n' :: ((items.map itemLine).flatMap (· ++ ['\n']) ++
          ']' :: (noteChars note ++ '\n' :: render more)) := by
  simp [render, Line.lines, Literal.lines]

theorem render_heading (opened : Heading) (more : List Line) :
    render (.heading opened :: more) = opened.chars ++ '\n' :: render more := by
  simp [render, Line.lines]

theorem flatMap_render {α : Type} (lines : α → List Line) (items : List α) :
    items.flatMap (fun item => render (lines item)) = render (items.flatMap lines) := by
  induction items with
  | nil => rfl
  | cons item items ih => rw [List.flatMap_cons, List.flatMap_cons, render_append, ih]

theorem noteChars_none : noteChars none = [] := rfl

theorem noteChars_some (pad : Nat) (text : List Char) :
    noteChars (some ⟨pad, text⟩) = List.replicate pad ' ' ++ '#' :: text := rfl

/-! ### Its quotes -/

/-- Three quotes, which open and close a string over several lines. -/
def tripleQuote : List Char := ['"', '"', '"']

/-- How many quotes a line can have, whatever text it holds. -/
def Line.quotes : Line → Nat
  | .comment text => text.count '"'
  | .entry _ _ _ note => 2 + (noteChars note).count '"'
  | _ => 0

theorem count_quote_of_unescaped {text : List Char} (plain : Unescaped text) :
    text.count '"' = 0 := by
  refine List.count_eq_zero.mpr ?_
  intro isIn
  have impossible := plain _ isIn
  contradiction

theorem count_quote_of_bare {key : List Char} (bare : BareKey key) : key.count '"' = 0 := by
  refine List.count_eq_zero.mpr ?_
  intro isIn
  have impossible := bare.2 _ isIn
  contradiction

theorem count_quote_toDigits (value : Nat) : (Nat.toDigits 10 value).count '"' = 0 := by
  refine List.count_eq_zero.mpr ?_
  intro isIn
  have impossible := Nat.isDigit_of_mem_toDigits (by decide) (by decide) isIn
  contradiction

theorem count_quote_quoted {text : List Char} (plain : Unescaped text) :
    (quoted text).count '"' = 2 := by
  simp [quoted, count_quote_of_unescaped plain]

theorem count_quote_entryFront {key : List Char} (bare : BareKey key) (pad : Nat) :
    (entryFront key pad).count '"' = 0 := by
  simp [entryFront, count_quote_of_bare bare, List.count_replicate]

theorem Line.count_quote_le {line : Line} (formed : line.WellFormed) :
    ∀ written ∈ line.lines, written.count '"' ≤ line.quotes := by
  cases line with
  | blank => simp [Line.lines]
  | comment text => simp [Line.lines, Line.quotes]
  | heading opened =>
      have name := count_quote_of_bare formed
      cases opened with
      | table _ => simpa [Line.lines, Line.quotes, Heading.chars, Heading.name] using name
      | element _ => simpa [Line.lines, Line.quotes, Heading.chars, Heading.name] using name
  | entry key pad literal note =>
      obtain ⟨bare, literalFormed, _⟩ := formed
      have front := count_quote_entryFront bare pad
      cases literal with
      | string text =>
          simp [Line.lines, Literal.lines, Line.quotes, front, count_quote_quoted literalFormed]
      | integer value =>
          simp [Line.lines, Literal.lines, Line.quotes, front, count_quote_toDigits]
      | decimal tenths =>
          simp [Line.lines, Literal.lines, Line.quotes, front, decimalChars, count_quote_toDigits]
      | single item =>
          simp [Line.lines, Literal.lines, Line.quotes, front, count_quote_quoted literalFormed]
      | block items =>
          intro written isIn
          simp only [Line.lines, Literal.lines, List.mem_cons, List.mem_append, List.mem_map,
            List.not_mem_nil, or_false] at isIn
          rcases isIn with rfl | inside | rfl
          · simp [Line.quotes, front]
          · obtain ⟨item, isItem, rfl⟩ := inside
            simp [Line.quotes, itemLine, count_quote_quoted (literalFormed item isItem)]
          · simp [Line.quotes]

/-- A string over several lines that is no longer than the argument closes after
it. -/
theorem tripleQuote_after {argument rest inner after : List Char}
    (same : ['"', '"'] ++ (inner ++ '"' :: '"' :: '"' :: after) = argument ++ '"' :: rest)
    (short : argument.length ≤ inner.length) : tripleQuote <:+: rest := by
  rw [← List.append_assoc] at same
  rcases List.append_eq_append_iff.mp same with longer | shorter
  · obtain ⟨middle, rfl, _⟩ := longer
    simp only [List.length_append, List.length_cons] at short
    omega
  · obtain ⟨middle, opened, isRest⟩ := shorter
    cases middle with
    | nil =>
        have lengths := congrArg List.length opened
        simp only [List.length_append, List.length_cons, List.length_nil] at lengths
        omega
    | cons quote middle =>
        obtain ⟨_, rfl⟩ := List.cons.inj isRest
        exact ⟨middle, after, List.append_assoc ..⟩

/-! ### Its meaning -/

inductive Statement where
  | set (key : List Char) (value : Value)
  | opens (heading : Heading)

def Line.statement : Line → Option Statement
  | .entry key _ literal _ => some (.set key literal.value)
  | .heading opened => some (.opens opened)
  | _ => none

def insertKey (table : Table) (key : List Char) (value : Value) : Option Table :=
  if (table.lookup key).isSome then none else some (table ++ [(key, value)])

def replaceKey (table : Table) (key : List Char) (value : Value) : Table :=
  table.map fun entry => if entry.1 = key then (key, value) else entry

/-- The root table once a section is complete.  Only an array of tables takes
another element. -/
def place (root : Table) (entries : Table) : Heading → Option Table
  | .table name => insertKey root name (.table entries)
  | .element name =>
      match root.lookup name with
      | none => some (root ++ [(name, .array [.table entries])])
      | some (.array (.table first :: others)) =>
          some (replaceKey root name (.array (.table first :: (others ++ [.table entries]))))
      | some _ => none

/-- The complete sections, and the one whose entries are being read. -/
structure Draft where
  root : Table
  heading : Option Heading
  entries : Table

def Draft.start : Draft := ⟨[], none, []⟩

def Draft.close (draft : Draft) : Option Table :=
  match draft.heading with
  | none => some draft.entries
  | some heading => place draft.root draft.entries heading

def Draft.step (draft : Draft) : Statement → Option Draft
  | .set key value =>
      (insertKey draft.entries key value).map fun entries => { draft with entries }
  | .opens heading => draft.close.map fun root => ⟨root, some heading, []⟩

def execute (statements : List Statement) : Option Table :=
  (statements.foldlM Draft.step .start).bind Draft.close

def meaning (document : List Line) : Option Table :=
  execute (document.filterMap Line.statement)

/-! ### Distinct keys -/

def sets (entries : Table) : List Statement := entries.map fun entry => .set entry.1 entry.2

def Distinct (entries : Table) : Prop := (entries.map Prod.fst).Nodup

/-- The tables of an array, each under a heading of its own. -/
def elements (name : List Char) (tables : List Table) : List Statement :=
  tables.flatMap fun entries => .opens (.element name) :: sets entries

theorem lookup_eq_none_of_absent {table : Table} {key : List Char}
    (absent : key ∉ table.map Prod.fst) : table.lookup key = none := by
  rw [List.lookup_eq_none_iff]
  intro entry isIn
  apply bne_iff_ne.mpr
  rintro rfl
  exact absent (List.mem_map_of_mem isIn)

theorem insertKey_of_absent {table : Table} {key : List Char} (value : Value)
    (absent : key ∉ table.map Prod.fst) :
    insertKey table key value = some (table ++ [(key, value)]) := by
  rw [insertKey, lookup_eq_none_of_absent absent]
  exact if_neg (by simp)

theorem run_sets {draft : Draft} {entries : Table}
    (distinct : Distinct (draft.entries ++ entries)) :
    (sets entries).foldlM Draft.step draft =
      some { draft with entries := draft.entries ++ entries } := by
  induction entries generalizing draft with
  | nil => simp [sets]
  | cons entry entries ih =>
      obtain ⟨key, value⟩ := entry
      have absent : key ∉ draft.entries.map Prod.fst := by
        rw [Distinct, List.map_append, List.map_cons] at distinct
        intro isIn
        exact (List.nodup_append.mp distinct).2.2 key isIn key List.mem_cons_self rfl
      have stepped : draft.step (.set key value) =
          some { draft with entries := draft.entries ++ [(key, value)] } := by
        rw [Draft.step, insertKey_of_absent value absent, Option.map_some]
      have others := @ih { draft with entries := draft.entries ++ [(key, value)] } (by
        rw [List.append_assoc]
        exact distinct)
      rw [sets, List.map_cons, List.foldlM_cons, stepped]
      rw [List.append_assoc] at others
      exact others

theorem run_section {draft : Draft} {root entries : Table} (heading : Heading)
    (closed : draft.close = some root) (distinct : Distinct entries) :
    (Statement.opens heading :: sets entries).foldlM Draft.step draft =
      some ⟨root, some heading, entries⟩ := by
  have stepped : draft.step (.opens heading) = some ⟨root, some heading, []⟩ := by
    rw [Draft.step, closed, Option.map_some]
  rw [List.foldlM_cons, stepped]
  exact run_sets distinct

theorem place_next {root entries : Table} {name : List Char} {first : Table} {others : List Value}
    (absent : name ∉ root.map Prod.fst) :
    place (root ++ [(name, .array (.table first :: others))]) entries (.element name) =
      some (root ++ [(name, .array (.table first :: (others ++ [.table entries])))]) := by
  have found : (root ++ [(name, Value.array (.table first :: others))]).lookup name =
      some (.array (.table first :: others)) := by
    rw [List.lookup_append, lookup_eq_none_of_absent absent]
    simp
  have kept : ∀ entry ∈ root, (if entry.1 = name then
      (name, Value.array (.table first :: (others ++ [.table entries]))) else entry) = entry := by
    intro entry isIn
    refine if_neg ?_
    rintro rfl
    exact absent (List.mem_map_of_mem isIn)
  rw [place, found]
  simp only [replaceKey, List.map_append, List.map_singleton, if_true]
  rw [List.map_congr_left kept, List.map_id']

theorem run_elements {draft : Draft} {root : Table} {name : List Char} {first : Table}
    {done : List Table} (tables : List Table) (absent : name ∉ root.map Prod.fst)
    (closed : draft.close = some (root ++ [(name, .array (.table first :: done.map .table))]))
    (distinct : ∀ entries ∈ tables, Distinct entries) :
    ∃ later, (elements name tables).foldlM Draft.step draft = some later ∧
      later.close =
        some (root ++ [(name, .array (.table first :: (done ++ tables).map .table))]) := by
  induction tables generalizing draft done with
  | nil => exact ⟨draft, rfl, by rw [List.append_nil, closed]⟩
  | cons entries tables ih =>
      have ran := run_section (.element name) closed (distinct entries List.mem_cons_self)
      have placed : Draft.close ⟨root ++ [(name, .array (.table first :: done.map .table))],
          some (.element name), entries⟩ =
          some (root ++ [(name, .array (.table first :: (done ++ [entries]).map .table))]) := by
        rw [List.map_append]
        exact place_next absent
      obtain ⟨later, rest, ends⟩ := ih placed fun other isIn =>
        distinct other (List.mem_cons_of_mem entries isIn)
      refine ⟨later, ?_, ?_⟩
      · rw [elements, List.flatMap_cons, List.foldlM_append, ran]
        exact rest
      · rw [ends, List.append_assoc, List.singleton_append]

/-- An array of tables under a name the root does not have yet. -/
theorem run_array {draft : Draft} {root : Table} {name : List Char} {tables : List Table}
    (nonempty : tables ≠ []) (closed : draft.close = some root)
    (absent : name ∉ root.map Prod.fst) (distinct : ∀ entries ∈ tables, Distinct entries) :
    ∃ later, (elements name tables).foldlM Draft.step draft = some later ∧
      later.close = some (root ++ [(name, .array (tables.map .table))]) := by
  cases tables with
  | nil => exact absurd rfl nonempty
  | cons first tables =>
      have ran := run_section (.element name) closed (distinct first List.mem_cons_self)
      have placed : Draft.close ⟨root, some (.element name), first⟩ =
          some (root ++ [(name, .array (.table first :: [].map .table))]) := by
        simp only [Draft.close, place, lookup_eq_none_of_absent absent]
        rfl
      obtain ⟨later, rest, ends⟩ := run_elements tables absent placed fun entries isIn =>
        distinct entries (List.mem_cons_of_mem first isIn)
      refine ⟨later, ?_, ends⟩
      rw [elements, List.flatMap_cons, List.foldlM_append, ran]
      exact rest

/-! ## Parsers -/

structure Parser where
  parse : List Char → Except String Table
  /-- What is said of a table of another shape than the one asked for. -/
  mismatch : Table → String
  /-- The integers it can hold. -/
  Represents : Nat → Prop

/-- A line of the root table. -/
def Line.IsRoot : Line → Prop
  | .heading _ => False
  | _ => True

/-- What the format says of a parser.  Of a string over several lines, only that
it closes and that its escapes and line endings are no shorter than what they
stand for. -/
structure Parser.Conforms (toml : Parser) : Prop where
  represents : ∀ value < 2 ^ 63, toml.Represents value
  document : ∀ (document : List Line) (table : Table), (∀ line ∈ document, line.WellFormed) →
    (toml.parse (render document) = .ok table ↔
      (∀ line ∈ document, ∀ value ∈ line.integers, toml.Represents value) ∧
        meaning document = some table)
  basic : ∀ (before : List Line) (key : List Char) (pad : Nat) (rest : List Char) (table : Table),
    (∀ line ∈ before, line.WellFormed ∧ line.IsRoot) → BareKey key → ¬['"', '"'] <+: rest →
    toml.parse (render before ++ (entryFront key pad ++ '"' :: rest)) = .ok table →
    ∃ text after, scan .text rest = some (text, after) ∧ table.lookup key = some (.string text)
  multiLine : ∀ (before : List Line) (key : List Char) (pad : Nat) (rest : List Char)
    (table : Table), (∀ line ∈ before, line.WellFormed ∧ line.IsRoot) → BareKey key →
    toml.parse (render before ++ (entryFront key pad ++ '"' :: '"' :: '"' :: rest)) = .ok table →
    ∃ inner after text, rest = inner ++ '"' :: '"' :: '"' :: after ∧ text.length ≤ inner.length ∧
      table.lookup key = some (.string text)

/-- A document whose integers the parser can hold is read as what it means. -/
theorem Parser.Conforms.reads {toml : Parser} (conforms : toml.Conforms) {document : List Line}
    {table : Table} (formed : ∀ line ∈ document, line.WellFormed)
    (fits : ∀ value ∈ document.flatMap Line.integers, toml.Represents value)
    (means : meaning document = some table) : toml.parse (render document) = .ok table := by
  refine (conforms.document document table formed).mpr ⟨?_, means⟩
  intro line isLine value isValue
  exact fits value (List.mem_flatMap.mpr ⟨line, isLine, isValue⟩)

end RealityHydra.Lib.Toml
