import RealityHydra.Lib.TomlGrammar

/-!
# Editing a document line by line

Patterns that look at how a line begins, and what an edit of the lines makes of
a document whose lines they meet.  A pattern for a bare key meets no line but
those of entries under keys that begin with it.
-/

set_option autoImplicit false

namespace RealityHydra.Lib.LineEditing

open RealityHydra.Lib.Toml
open RealityHydra.Lib.TomlGrammar (isSpace)

/-! ## Patterns -/

/-- `^[[:space:]]*key`. -/
def begins (key line : List Char) : Bool := key.isPrefixOf (line.dropWhile isSpace)

/-- `^[[:space:]]*key[[:space:]]*=`. -/
def assigns (key line : List Char) : Bool :=
  begins key line &&
    (((line.dropWhile isSpace).drop key.length).dropWhile isSpace).head? == some '='

theorem space_not_bare {c : Char} (space : isSpace c = true) : isBare c = false := by
  simp only [isSpace, Bool.or_eq_true, decide_eq_true_eq] at space
  rcases space with ((((rfl | rfl) | rfl) | rfl) | rfl) | rfl <;> rfl

theorem bare_not_space {c : Char} (bare : isBare c = true) : isSpace c = false := by
  by_cases space : isSpace c = true
  · rw [space_not_bare space] at bare
    contradiction
  · exact Bool.eq_false_iff.mpr space

theorem dropWhile_bare {name : List Char} (bare : BareKey name) (rest : List Char) :
    (name ++ rest).dropWhile isSpace = name ++ rest := by
  obtain ⟨nonempty, chars⟩ := bare
  cases name with
  | nil => exact absurd rfl nonempty
  | cons c name =>
      rw [List.cons_append]
      apply List.dropWhile_cons_of_neg
      rw [bare_not_space (chars c List.mem_cons_self)]
      exact Bool.false_ne_true

/-- A bare key ends before a character that no key has. -/
theorem prefix_of_bare {key name rest : List Char} {c : Char} (chars : ∀ d ∈ key, isBare d = true)
    (foreign : isBare c = false) (within : key <+: name ++ c :: rest) : key <+: name := by
  rcases List.prefix_or_prefix_of_prefix within (List.prefix_append name _) with inside | beyond
  · exact inside
  · obtain ⟨more, rfl⟩ := beyond
    cases more with
    | nil =>
        exact ⟨[], by rw [List.append_nil, List.append_nil]⟩
    | cons d more =>
        rw [List.prefix_append_right_inj] at within
        have same := (List.cons_prefix_cons.mp within).1
        have bare := chars d (List.mem_append_right name List.mem_cons_self)
        rw [same, foreign] at bare
        contradiction

theorem not_begins_of_head {key rest : List Char} {c : Char} (bare : BareKey key)
    (foreign : isBare c = false) (solid : isSpace c = false) : begins key (c :: rest) = false := by
  obtain ⟨nonempty, chars⟩ := bare
  have kept : (c :: rest).dropWhile isSpace = c :: rest := by
    rw [List.dropWhile_cons, solid]
    rfl
  rw [begins, kept]
  cases key with
  | nil => exact absurd rfl nonempty
  | cons d key =>
      have different : (d == c) = false := by
        apply beq_false_of_ne
        intro same
        have isKey := chars d List.mem_cons_self
        rw [same, foreign] at isKey
        contradiction
      rw [List.isPrefixOf_cons_cons, different, Bool.false_and]

theorem entryFront_eq (name : List Char) (pad : Nat) :
    ∃ c rest, entryFront name pad = name ++ c :: rest ∧ isBare c = false := by
  cases pad with
  | zero => exact ⟨'=', [' '], rfl, rfl⟩
  | succ pad => exact ⟨' ', List.replicate pad ' ' ++ ['=', ' '], rfl, rfl⟩

theorem begins_entryFront {key name : List Char} (bareKey : BareKey key) (bareName : BareKey name)
    (pad : Nat) (rest : List Char) :
    begins key (entryFront name pad ++ rest) = key.isPrefixOf name := by
  obtain ⟨c, others, front, foreign⟩ := entryFront_eq name pad
  rw [begins, front, List.append_assoc, List.cons_append, dropWhile_bare bareName, Bool.eq_iff_iff,
    List.isPrefixOf_iff_prefix, List.isPrefixOf_iff_prefix]
  constructor
  · exact prefix_of_bare bareKey.2 foreign
  · intro within
    exact within.trans (List.prefix_append ..)

theorem assigns_entryFront {key : List Char} (bare : BareKey key) (pad : Nat) (rest : List Char) :
    assigns key (entryFront key pad ++ rest) = true := by
  have spaces : (List.replicate pad ' ' ++ '=' :: ' ' :: rest).dropWhile isSpace =
      '=' :: ' ' :: rest := by
    induction pad with
    | zero => rfl
    | succ pad ih => exact ih
  have begun := begins_entryFront bare bare pad rest
  rw [List.isPrefixOf_iff_prefix.mpr (List.prefix_refl key)] at begun
  have front : entryFront key pad ++ rest =
      key ++ (List.replicate pad ' ' ++ '=' :: ' ' :: rest) := by
    simp [entryFront]
  rw [assigns, begun, front, dropWhile_bare bare, List.drop_left, spaces]
  rfl

/-! ## Characters that no document has -/

section Foreign

variable {c : Char}

theorem not_mem_bare {key : List Char} (notBare : isBare c = false) (bare : BareKey key) :
    c ∉ key := by
  intro isIn
  have kind := bare.2 c isIn
  rw [notBare] at kind
  contradiction

theorem not_mem_toDigits (notBare : isBare c = false) (value : Nat) :
    c ∉ Nat.toDigits 10 value := by
  intro isIn
  have digit := Nat.isDigit_of_mem_toDigits (by decide) (by decide) isIn
  rw [isBare, Char.isAlphanum, digit, Bool.or_true, Bool.true_or, Bool.true_or] at notBare
  contradiction

variable (unprintable : isPrintable c = false) (notBare : isBare c = false)

include unprintable

theorem ne_of_printable {d : Char} (printable : isPrintable d = true) : c ≠ d := by
  rintro rfl
  rw [unprintable] at printable
  contradiction

theorem not_mem_of_printable {text : List Char} (printable : Printable text) : c ∉ text := by
  intro isIn
  exact ne_of_printable unprintable (printable c isIn) rfl

theorem not_mem_quoted {text : List Char} (plain : Unescaped text) : c ∉ quoted text := by
  have inside : c ∉ text := by
    intro isIn
    exact ne_of_printable unprintable (isUnescaped_iff.mp (plain c isIn)).1 rfl
  simp [quoted, inside, ne_of_printable unprintable (d := '"') rfl]

theorem not_mem_noteChars {note : Option Note}
    (printable : ∀ written ∈ note, Printable written.text) : c ∉ noteChars note := by
  cases note with
  | none => simp [noteChars]
  | some written =>
      simp [noteChars, Note.chars, not_mem_of_printable unprintable (printable written rfl),
        ne_of_printable unprintable (d := ' ') rfl, ne_of_printable unprintable (d := '#') rfl]

include notBare

theorem not_mem_entryFront {key : List Char} (bare : BareKey key) (pad : Nat) :
    c ∉ entryFront key pad := by
  simp [entryFront, not_mem_bare notBare bare,
    ne_of_printable unprintable (d := ' ') rfl, ne_of_printable unprintable (d := '=') rfl]

theorem not_mem_lines {line : Line} (formed : line.WellFormed) :
    ∀ written ∈ line.lines, c ∉ written := by
  have opened : c ≠ '[' := ne_of_printable unprintable rfl
  have closed : c ≠ ']' := ne_of_printable unprintable rfl
  cases line with
  | blank => simp [Line.lines]
  | comment text =>
      simp [Line.lines, not_mem_of_printable unprintable formed,
        ne_of_printable unprintable (d := '#') rfl]
  | heading heading =>
      have name := not_mem_bare notBare formed
      cases heading with
      | table _ => simpa [Line.lines, Heading.chars, Heading.name, opened, closed] using name
      | element _ => simpa [Line.lines, Heading.chars, Heading.name, opened, closed] using name
  | entry key pad literal note =>
      obtain ⟨bare, literalFormed, printable⟩ := formed
      have front := not_mem_entryFront unprintable notBare bare pad
      have back := not_mem_noteChars unprintable printable
      have digits := not_mem_toDigits notBare
      cases literal with
      | string text =>
          simp [Line.lines, Literal.lines, front, back, not_mem_quoted unprintable literalFormed]
      | integer value => simp [Line.lines, Literal.lines, front, back, digits]
      | decimal tenths =>
          simp [Line.lines, Literal.lines, front, back, decimalChars, digits,
            ne_of_printable unprintable (d := '.') rfl]
      | single item =>
          simp [Line.lines, Literal.lines, front, back, opened, closed,
            not_mem_quoted unprintable literalFormed]
      | block items =>
          intro written isIn
          simp only [Line.lines, Literal.lines, List.mem_cons, List.mem_append, List.mem_map,
            List.not_mem_nil, or_false] at isIn
          rcases isIn with rfl | ⟨item, isItem, rfl⟩ | rfl
          · simp [front, opened]
          · simp [itemLine, not_mem_quoted unprintable (literalFormed item isItem),
              ne_of_printable unprintable (d := ' ') rfl, ne_of_printable unprintable (d := ',') rfl]
          · simp [back, closed]

end Foreign

/-! ## Lines that a pattern passes over -/

/-- An entry under a key that begins with `key`. -/
def mentions (key : List Char) : Line → Bool
  | .entry name _ _ _ => key.isPrefixOf name
  | _ => false

theorem begins_of_not_mentions {key : List Char} (bare : BareKey key) {line : Line}
    (formed : line.WellFormed) (silent : mentions key line = false) :
    ∀ written ∈ line.lines, begins key written = false := by
  have empty : begins key [] = false := by
    cases key with
    | nil => exact absurd rfl bare.1
    | cons c key => rfl
  cases line with
  | blank => simpa [Line.lines] using empty
  | comment text => simpa [Line.lines] using not_begins_of_head bare rfl rfl
  | heading opened =>
      have bracket : ∀ rest, begins key ('[' :: rest) = false :=
        fun rest => not_begins_of_head bare rfl rfl
      cases opened <;> simp [Line.lines, Heading.chars, bracket]
  | entry name pad literal note =>
      obtain ⟨bareName, _, _⟩ := formed
      rw [mentions] at silent
      have front : ∀ rest, begins key (entryFront name pad ++ rest) = false := by
        intro rest
        rw [begins_entryFront bare bareName, silent]
      cases literal with
      | block items =>
          intro written isIn
          simp only [Line.lines, Literal.lines, List.mem_cons, List.mem_append, List.mem_map,
            List.not_mem_nil, or_false] at isIn
          rcases isIn with rfl | ⟨item, _, rfl⟩ | rfl
          · exact front _
          · exact not_begins_of_head (c := '"') bare rfl rfl
          · exact not_begins_of_head bare rfl rfl
      | _ => simp [Line.lines, Literal.lines, front]

theorem assigns_of_not_mentions {key : List Char} (bare : BareKey key) {line : Line}
    (formed : line.WellFormed) (silent : mentions key line = false) :
    ∀ written ∈ line.lines, assigns key written = false := by
  intro written isIn
  rw [assigns, begins_of_not_mentions bare formed silent written isIn, Bool.false_and]

/-! ## Documents -/

/-- The first line that a pattern meets, behind lines that it passes over. -/
theorem find_written {meets : List Char → Bool} {front back : List Line} {line : Line}
    {written : List Char} {others : List (List Char)}
    (passed : ∀ before ∈ front, ∀ written ∈ before.lines, meets written = false)
    (first : line.lines = written :: others) (met : meets written = true) :
    ((front ++ line :: back).flatMap Line.lines).find? meets = some written := by
  have none_ : (front.flatMap Line.lines).find? meets = none := by
    apply List.find?_eq_none.mpr
    intro written isIn
    obtain ⟨before, isBefore, isWritten⟩ := List.mem_flatMap.mp isIn
    rw [passed before isBefore written isWritten]
    exact Bool.false_ne_true
  rw [List.flatMap_append, List.find?_append, none_, List.flatMap_cons, first, List.cons_append,
    List.find?_cons_of_pos met]
  rfl

/-- An edit that keeps every line of a document keeps the document. -/
theorem filterMap_kept {edit : List Char → Option (List Char)} {document : List Line}
    (kept : ∀ line ∈ document, ∀ written ∈ line.lines, edit written = some written) :
    (document.flatMap Line.lines).filterMap edit = document.flatMap Line.lines := by
  induction document with
  | nil => rfl
  | cons line document ih =>
      have others := ih fun other isIn => kept other (List.mem_cons_of_mem line isIn)
      have here : line.lines.filterMap edit = line.lines := by
        rw [List.filterMap_congr (kept line List.mem_cons_self), List.filterMap_some]
      rw [List.flatMap_cons, List.filterMap_append, here, others]

end RealityHydra.Lib.LineEditing
