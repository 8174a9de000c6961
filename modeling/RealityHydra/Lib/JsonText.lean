import RealityHydra.Lib.Json

/-!
# A JSON codec

The serializer that sets each element on a line of its own, two spaces further
in, and a parser of the whole grammar; together they are lawful.
-/

set_option autoImplicit false

namespace RealityHydra.Lib.Json

open RealityHydra.Lib.Reading

/-! ## Writing -/

/-- Only quotes, backslashes and control characters are escaped. -/
def escapeChar (c : Char) : List Char :=
  match (shortEscapes.filter (·.1 ≠ '/')).find? (·.2 = c) with
  | some (letter, _) => ['\\', letter]
  | none =>
      if c.toNat < 0x20 then
        ['\\', 'u', '0', '0', Nat.digitChar (c.toNat / 16), Nat.digitChar (c.toNat % 16)]
      else [c]

def quoted (text : String) : List Char := '"' :: (text.toList.flatMap escapeChar ++ ['"'])

def newLine (level : Nat) : List Char := '\n' :: List.replicate (2 * level) ' '

mutual

def pretty (level : Nat) : Value → List Char
  | .null => ['n', 'u', 'l', 'l']
  | .boolean true => ['t', 'r', 'u', 'e']
  | .boolean false => ['f', 'a', 'l', 's', 'e']
  | .number value => Nat.toDigits 10 value.toNat
  | .string text => quoted text
  | .array [] => ['[', ']']
  | .array (first :: others) =>
      '[' :: (prettyElements (level + 1) (first :: others) ++ newLine level ++ [']'])
  | .object [] => ['{', '}']
  | .object (first :: others) =>
      '{' :: (prettyMembers (level + 1) (first :: others) ++ newLine level ++ ['}'])

def prettyElements (level : Nat) : List Value → List Char
  | [] => []
  | [last] => newLine level ++ pretty level last
  | first :: others => newLine level ++ (pretty level first ++ ',' :: prettyElements level others)

def prettyMembers (level : Nat) : List (String × Value) → List Char
  | [] => []
  | [(key, value)] => newLine level ++ (quoted key ++ ':' :: ' ' :: pretty level value)
  | (key, value) :: others =>
      newLine level ++
        (quoted key ++ ':' :: ' ' :: (pretty level value ++ ',' :: prettyMembers level others))

end

theorem blank_newLine (level : Nat) : Blank (newLine level) := by
  intro c isIn
  rcases List.mem_cons.mp isIn with rfl | isSpace
  · decide
  · rw [List.eq_of_mem_replicate isSpace]
    decide

theorem blank_nil : Blank [] := by
  intro c isIn
  contradiction

theorem blank_space : Blank [' '] := by
  intro c isIn
  rw [List.mem_singleton.mp isIn]
  decide

theorem controlDigits : ∀ n < 0x20,
    ['0', '0', Nat.digitChar (n / 16), Nat.digitChar (n % 16)].all (isDigit 16) = true ∧
      digitsValue 16 ['0', '0', Nat.digitChar (n / 16), Nat.digitChar (n % 16)] = n := by
  decide +kernel

theorem spells_escapeChar (c : Char) {text chars : List Char} (rest : Spells text chars) :
    Spells (escapeChar c ++ text) (c :: chars) := by
  unfold escapeChar
  split
  · rename_i letter decoded found
    have known := (List.mem_filter.mp (List.mem_of_find?_eq_some found)).1
    have same : decoded = c := by simpa using List.find?_some found
    exact .short (same ▸ known) rest
  · rename_i unknown
    have escapes := List.find?_eq_none.mp unknown
    split
    · rename_i control
      obtain ⟨hex, value⟩ := controlDigits c.toNat control
      have spelled := Spells.unit rfl (List.all_eq_true.mp hex) (by rw [value]; exact c.valid) rest
      rw [value, Char.ofNat_toNat] at spelled
      exact spelled
    · rename_i plain
      refine .plain (Nat.le_of_not_lt plain) ?_ ?_ rest
      · intro isQuote
        exact escapes ('"', '"') (by decide) (by simp [isQuote])
      · intro isSlash
        exact escapes ('\\', '\\') (by decide) (by simp [isSlash])

theorem spells_flatMap (chars : List Char) : Spells (chars.flatMap escapeChar) chars := by
  induction chars with
  | nil => exact .nil
  | cons c rest ih => exact spells_escapeChar c ih

theorem denotes_quoted {limit : Nat} (text : String) :
    Denotes limit (quoted text) (.value (.string text)) := by
  have denotes := @Denotes.string limit _ _ (spells_flatMap text.toList)
  rwa [String.ofList_toList] at denotes

theorem denotes_prettyElements {limit level : Nat} {elements : List Value} {after : List Char}
    (nonempty : elements ≠ []) (back : Blank after)
    (each : ∀ element ∈ elements, Denotes limit (pretty level element) (.value element)) :
    Denotes limit (prettyElements level elements ++ after) (.elements elements) := by
  induction elements with
  | nil => contradiction
  | cons first others ih =>
      obtain ⟨here, later⟩ := List.forall_mem_cons.mp each
      cases others with
      | nil =>
          rw [prettyElements, List.append_assoc]
          exact .lastElement (blank_newLine level) back here
      | cons second rest =>
          have denotes := Denotes.moreElements (blank_newLine level) blank_nil here
            (ih (List.cons_ne_nil _ _) later)
          rw [prettyElements]
          · simpa using denotes
          · exact List.cons_ne_nil _ _

theorem denotes_prettyMembers {limit level : Nat} {members : List (String × Value)}
    {after : List Char} (nonempty : members ≠ []) (back : Blank after)
    (each : ∀ member ∈ members, Denotes limit (pretty level member.2) (.value member.2)) :
    Denotes limit (prettyMembers level members ++ after) (.members members) := by
  induction members with
  | nil => contradiction
  | cons first others ih =>
      obtain ⟨key, value⟩ := first
      obtain ⟨here, later⟩ := List.forall_mem_cons.mp each
      have entry := Denotes.member (spells_flatMap key.toList) blank_nil blank_space here
      rw [String.ofList_toList] at entry
      cases others with
      | nil =>
          have denotes := Denotes.lastMember (blank_newLine level) back entry
          simpa [prettyMembers, quoted] using denotes
      | cons second rest =>
          have denotes := Denotes.moreMembers (blank_newLine level) blank_nil entry
            (ih (List.cons_ne_nil _ _) later)
          rw [prettyMembers]
          · simpa [quoted] using denotes
          · exact List.cons_ne_nil _ _

/-- What is written denotes the value it was written from. -/
theorem denotes_pretty {limit : Nat} {value : Value} (canonical : value.Canonical limit)
    (level : Nat) : Denotes limit (pretty level value) (.value value) := by
  induction canonical generalizing level with
  | null => exact .word (by simp [words, pretty])
  | boolean value =>
      cases value with
      | true => exact .word (by simp [words, pretty])
      | false => exact .word (by simp [words, pretty])
  | number value => exact .number value
  | string text => exact denotes_quoted text
  | @array limit elements each ih =>
      cases elements with
      | nil => exact .emptyArray blank_nil
      | cons first others =>
          rw [pretty]
          exact .array (denotes_prettyElements (List.cons_ne_nil _ _) (blank_newLine level)
            fun element isIn => ih element isIn (level + 1))
  | @object limit members sorted each ih =>
      cases members with
      | nil => exact .emptyObject blank_nil
      | cons first others =>
          have denotes := Denotes.object (denotes_prettyMembers (List.cons_ne_nil first others)
            (blank_newLine level) fun member isIn => ih member isIn (level + 1))
          rw [ofPairs_eq_self sorted] at denotes
          rw [pretty]
          exact denotes

/-! ## Reading -/

def skipBlank : Reader Unit := fun text => some ((), text.dropWhile isBlank)

def padded {α : Type} (reader : Reader α) : Reader α := do
  skipBlank
  let value ← reader
  skipBlank
  pure value

/-- What follows a backslash. -/
def readEscape : Reader Char
  | 'u' :: a :: b :: c :: d :: rest =>
      let value := digitsValue 16 [a, b, c, d]
      if [a, b, c, d].all (isDigit 16) ∧ value.isValidChar then some (Char.ofNat value, rest)
      else none
  | letter :: rest => (shortEscapes.lookup letter).map fun c => (c, rest)
  | [] => none

/-- The characters up to the closing quote, at most `fuel` of them. -/
def readChars : Nat → Reader (List Char)
  | 0, _ => none
  | _ + 1, [] => none
  | fuel + 1, c :: rest =>
      if c = '"' then some ([], rest)
      else if c = '\\' then
        (readEscape rest).bind fun escaped =>
          (readChars fuel escaped.2).map fun read => (escaped.1 :: read.1, read.2)
      else if c.toNat < 0x20 then none
      else (readChars fuel rest).map fun read => (c :: read.1, read.2)

def readWord : Reader Value := fun text =>
  words.findSome? fun word => (text.dropPrefix? word.1).map fun rest => (word.2, rest)


/-- Values separated by commas, up to the closing character. -/
def readItems {α : Type} (item : Reader α) (close : Char) : Nat → Reader (List α)
  | 0, _ => none
  | fuel + 1, text =>
      match item text with
      | some (first, c :: rest) =>
          if c = close then some ([first], rest)
          else if c = ',' then
            (readItems item close fuel rest).map fun read => (first :: read.1, read.2)
          else none
      | _ => none

def readSequence {α : Type} (item : Reader α) (close : Char) (fuel : Nat) : Reader (List α) :=
  fun text =>
    match text.dropWhile isBlank with
    | [] => none
    | c :: rest => if c = close then some ([], rest) else readItems item close fuel text

section Values

variable (fuel : Nat)

def readScalar : Reader Value
  | [] => none
  | c :: rest =>
      if c = '"' then
        (readChars fuel rest).map fun read => (.string (String.ofList read.1), read.2)
      else if isDigit 10 c then
        (readNumber 10 UInt64.size none false (c :: rest)).map fun read =>
          (.number (UInt64.ofNat read.1), read.2)
      else readWord (c :: rest)

def readMember (value : Reader Value) : Reader (String × Value) := do
  readGiven '"'
  let key ← readChars fuel
  skipBlank
  readGiven ':'
  skipBlank
  let held ← value
  pure (String.ofList key, held)

/-- `fuel` bounds each loop, the number the containers left to open. -/
def readValue : Nat → Reader Value
  | 0, text => readScalar fuel text
  | _ + 1, [] => none
  | limit + 1, c :: rest =>
      if c = '[' then
        (readSequence (padded (readValue limit)) ']' fuel rest).map fun read =>
          (.array read.1, read.2)
      else if c = '{' then
        (readSequence (padded (readMember fuel (readValue limit))) '}' fuel rest).map fun read =>
          (.object (ofPairs read.1), read.2)
      else readScalar fuel (c :: rest)

end Values

/-! ## What the grammar lets be read -/

/-- Neither more of the value before it nor space after that. -/
def Stops (text : List Char) : Prop := ∀ c ∈ text.head?, isBlank c = false ∧ isDigit 10 c = false

def NoDigit (text : List Char) : Prop := ∀ c ∈ text.head?, isDigit 10 c = false

theorem blank_not_digit {c : Char} (blank : isBlank c = true) : isDigit 10 c = false := by
  simp only [isBlank, Bool.or_eq_true, decide_eq_true_eq] at blank
  rcases blank with ((rfl | rfl) | rfl) | rfl <;> decide

theorem Stops.noDigit {text after : List Char} (stops : Stops text) (blank : Blank after) :
    NoDigit (after ++ text) := by
  cases after with
  | nil => exact fun c isHead => (stops c isHead).2
  | cons head rest =>
      intro c isHead
      cases isHead
      exact blank_not_digit (blank _ List.mem_cons_self)

theorem dropWhile_blank {before text : List Char} (blank : Blank before)
    (solid : ∀ c ∈ text.head?, isBlank c = false) :
    (before ++ text).dropWhile isBlank = text := by
  rw [List.dropWhile_append_of_pos blank]
  cases text with
  | nil => rfl
  | cons head rest => exact List.dropWhile_cons_of_neg (by simp [solid head rfl])

theorem skipBlank_append {before text : List Char} (blank : Blank before)
    (solid : ∀ c ∈ text.head?, isBlank c = false) :
    skipBlank (before ++ text) = some ((), text) := by
  rw [skipBlank, dropWhile_blank blank solid]

theorem padded_reads {α : Type} {reader : Reader α} {before text after rest : List Char}
    {value : α} (front : Blank before) (back : Blank after)
    (solid : ∀ c ∈ (text ++ (after ++ rest)).head?, isBlank c = false) (stops : Stops rest)
    (reads : reader (text ++ (after ++ rest)) = some (value, after ++ rest)) :
    padded reader (before ++ (text ++ (after ++ rest))) = some (value, rest) := by
  have skipped := skipBlank_append back fun c isHead => (stops c isHead).1
  rw [padded, bind_of_some (skipBlank_append front solid), bind_of_some reads,
    bind_of_some skipped]
  rfl

theorem readEscape_short {letter c : Char} (known : (letter, c) ∈ shortEscapes)
    (rest : List Char) : readEscape (letter :: rest) = some (c, rest) := by
  have others : ∀ escape ∈ shortEscapes, escape.1 ≠ 'u' ∧
      shortEscapes.lookup escape.1 = some escape.2 := by
    decide
  obtain ⟨notUnit, found⟩ := others _ known
  rw [readEscape, found]
  · rfl
  · intro _ _ _ _ _ isUnit
    exact (notUnit isUnit).elim

theorem readEscape_unit {digits : List Char} (four : digits.length = 4)
    (hex : ∀ c ∈ digits, isDigit 16 c = true) (scalar : (digitsValue 16 digits).isValidChar)
    (rest : List Char) :
    readEscape ('u' :: (digits ++ rest)) = some (Char.ofNat (digitsValue 16 digits), rest) := by
  obtain ⟨a, b, c, d, rfl⟩ : ∃ a b c d, digits = [a, b, c, d] := List.length_eq_four.mp four
  rw [List.cons_append, List.cons_append, List.cons_append, List.cons_append, List.nil_append,
    readEscape]
  exact if_pos ⟨List.all_eq_true.mpr hex, scalar⟩

theorem readChars_spelled {text chars : List Char} (spells : Spells text chars) {fuel : Nat}
    (enough : text.length < fuel) (rest : List Char) :
    readChars fuel (text ++ '"' :: rest) = some (chars, rest) := by
  induction spells generalizing fuel with
  | nil =>
      cases fuel with
      | zero => contradiction
      | succ fuel => rfl
  | plain notControl notQuote notSlash _ ih =>
      cases fuel with
      | zero => contradiction
      | succ fuel =>
          have later := ih (Nat.lt_of_succ_lt_succ enough)
          rw [List.cons_append, readChars, if_neg notQuote, if_neg notSlash,
            if_neg (Nat.not_lt.mpr notControl), later]
          rfl
  | @short letter c text chars known _ ih =>
      cases fuel with
      | zero => contradiction
      | succ fuel =>
          have shorter : text.length < fuel := by
            simp only [List.length_cons] at enough
            omega
          have escaped := readEscape_short known (text ++ '"' :: rest)
          rw [List.cons_append, List.cons_append, readChars, if_neg (by decide), if_pos rfl, escaped,
            Option.bind_some, ih shorter]
          rfl
  | @unit digits text chars four hex scalar _ ih =>
      cases fuel with
      | zero => contradiction
      | succ fuel =>
          have shorter : text.length < fuel := by
            simp only [List.length_cons, List.length_append] at enough
            omega
          have escaped := readEscape_unit four hex scalar (text ++ '"' :: rest)
          rw [List.cons_append, List.cons_append, List.append_assoc, readChars, if_neg (by decide),
            if_pos rfl, escaped, Option.bind_some, ih shorter]
          rfl

/-! ## How an item begins -/

def Opens (text : List Char) : Prop :=
  ∃ c rest, text = c :: rest ∧ isBlank c = false ∧ c ≠ ']' ∧ c ≠ '}'

theorem Opens.append {text : List Char} (opens : Opens text) (more : List Char) :
    Opens (text ++ more) := by
  obtain ⟨c, rest, rfl, facts⟩ := opens
  exact ⟨c, rest ++ more, rfl, facts⟩

theorem Opens.solid {text : List Char} (opens : Opens text) :
    ∀ c ∈ text.head?, isBlank c = false := by
  obtain ⟨first, rest, rfl, solid, _⟩ := opens
  intro c isHead
  cases isHead
  exact solid

theorem Opens.length_pos {text : List Char} (opens : Opens text) : 0 < text.length := by
  obtain ⟨c, rest, rfl, _⟩ := opens
  exact Nat.succ_pos _

theorem opens_of_digit {c : Char} (digit : isDigit 10 c = true) (rest : List Char) :
    Opens (c :: rest) := by
  refine ⟨c, rest, rfl, ?_, ?_, ?_⟩
  · by_contra blank
    rw [blank_not_digit (Bool.of_not_eq_false blank)] at digit
    contradiction
  · rintro rfl
    contradiction
  · rintro rfl
    contradiction

theorem toDigits_cons (n : Nat) :
    ∃ c rest, Nat.toDigits 10 n = c :: rest ∧ isDigit 10 c = true := by
  cases digits : Nat.toDigits 10 n with
  | nil => exact absurd digits Nat.toDigits_ne_nil
  | cons c rest =>
      refine ⟨c, rest, rfl, ?_⟩
      exact isDigit_of_mem_toDigits (digits ▸ List.mem_cons_self)

theorem word_head {word : List Char} {value : Value} (known : (word, value) ∈ words) :
    ∃ c rest, word = c :: rest ∧ c ≠ '[' ∧ c ≠ '{' ∧ c ≠ '"' ∧ isDigit 10 c = false ∧
      isBlank c = false ∧ c ≠ ']' ∧ c ≠ '}' := by
  simp only [words, List.mem_cons, List.not_mem_nil, or_false, Prod.mk.injEq] at known
  rcases known with ⟨rfl, _⟩ | ⟨rfl, _⟩ | ⟨rfl, _⟩
  all_goals
    refine ⟨_, _, rfl, ?_⟩
    decide

theorem opens_value {limit : Nat} {text : List Char} {value : Value}
    (denotes : Denotes limit text (.value value)) : Opens text := by
  cases denotes with
  | word known =>
      obtain ⟨c, rest, same, _, _, _, _, facts⟩ := word_head known
      exact ⟨c, rest, same, facts⟩
  | number value =>
      obtain ⟨c, rest, same, digit⟩ := toDigits_cons value.toNat
      rw [same]
      exact opens_of_digit digit rest
  | _ => exact ⟨_, _, rfl, by decide, by decide, by decide⟩

theorem opens_member {limit : Nat} {text : List Char} {key : String} {value : Value}
    (denotes : Denotes limit text (.member key value)) : Opens text := by
  cases denotes
  exact ⟨_, _, rfl, by decide, by decide, by decide⟩

/-- Space, and then such a character. -/
def OpensLater (text : List Char) : Prop :=
  ∃ before inner, text = before ++ inner ∧ Blank before ∧ Opens inner

theorem opensLater_elements {limit : Nat} {text : List Char} {elements : List Value}
    (denotes : Denotes limit text (.elements elements)) : OpensLater text := by
  cases denotes with
  | lastElement front back inner => exact ⟨_, _, rfl, front, (opens_value inner).append _⟩
  | moreElements front back inner rest => exact ⟨_, _, rfl, front, (opens_value inner).append _⟩

theorem opensLater_members {limit : Nat} {text : List Char} {members : List (String × Value)}
    (denotes : Denotes limit text (.members members)) : OpensLater text := by
  cases denotes with
  | lastMember front back inner => exact ⟨_, _, rfl, front, (opens_member inner).append _⟩
  | moreMembers front back inner rest => exact ⟨_, _, rfl, front, (opens_member inner).append _⟩

/-! ## Sequences -/

theorem stops_cons {c : Char} (solid : isBlank c = false) (other : isDigit 10 c = false)
    (rest : List Char) : Stops (c :: rest) := by
  intro first isHead
  cases isHead
  exact ⟨solid, other⟩

section Sequences

variable {α : Type} {item : Reader α} {close : Char} {fuel : Nat} {text rest : List Char}

theorem readItems_last {before after : List Char} {value : α} (isClose : close = ']' ∨ close = '}')
    (front : Blank before) (back : Blank after) (opens : Opens text)
    (reads : ∀ rest, NoDigit rest → item (text ++ rest) = some (value, rest))
    (many : (before ++ (text ++ after)).length ≤ fuel) :
    readItems (padded item) close fuel (before ++ (text ++ after) ++ close :: rest) =
      some ([value], rest) := by
  have stops : Stops (close :: rest) := by
    rcases isClose with rfl | rfl
    · exact stops_cons (by decide) (by decide) rest
    · exact stops_cons (by decide) (by decide) rest
  have read := padded_reads front back (opens.append _).solid stops (reads _ (stops.noDigit back))
  have positive := opens.length_pos
  cases fuel with
  | zero =>
      simp only [List.length_append] at many
      omega
  | succ fuel =>
      rw [List.append_assoc, List.append_assoc, readItems, read]
      exact if_pos rfl

theorem readItems_more {before after later : List Char} {first : α} {others : List α}
    (isClose : close = ']' ∨ close = '}') (front : Blank before) (back : Blank after)
    (opens : Opens text)
    (reads : ∀ rest, NoDigit rest → item (text ++ rest) = some (first, rest))
    (continues : ∀ loops rest, later.length ≤ loops →
      readItems (padded item) close loops (later ++ close :: rest) = some (others, rest))
    (many : (before ++ (text ++ (after ++ ',' :: later))).length ≤ fuel) :
    readItems (padded item) close fuel
        (before ++ (text ++ (after ++ ',' :: later)) ++ close :: rest) =
      some (first :: others, rest) := by
  have stops : Stops (',' :: (later ++ close :: rest)) := stops_cons (by decide) (by decide) _
  have read := padded_reads front back (opens.append _).solid stops (reads _ (stops.noDigit back))
  have different : ',' ≠ close := by
    rcases isClose with rfl | rfl <;> decide
  simp only [List.length_append, List.length_cons] at many
  cases fuel with
  | zero => omega
  | succ fuel =>
      simp only [List.append_assoc, List.cons_append]
      rw [readItems, read]
      dsimp only
      rw [if_neg different, if_pos rfl, continues fuel rest (by omega)]
      rfl

theorem readSequence_empty {space : List Char} (blank : Blank space)
    (solid : isBlank close = false) :
    readSequence item close fuel (space ++ close :: rest) = some ([], rest) := by
  have dropped : (space ++ close :: rest).dropWhile isBlank = close :: rest := by
    refine dropWhile_blank blank ?_
    intro c isHead
    cases isHead
    exact solid
  rw [readSequence, dropped]
  exact if_pos rfl

theorem readSequence_items (opens : OpensLater text) (isClose : close = ']' ∨ close = '}') :
    readSequence item close fuel (text ++ rest) = readItems item close fuel (text ++ rest) := by
  obtain ⟨before, inner, rfl, front, inner_opens⟩ := opens
  have dropped := dropWhile_blank front (inner_opens.append rest).solid
  obtain ⟨c, others, rfl, _, notBracket, notBrace⟩ := inner_opens
  have different : c ≠ close := by
    rcases isClose with rfl | rfl
    · exact notBracket
    · exact notBrace
  rw [List.append_assoc, readSequence, dropped]
  exact if_neg different

end Sequences

/-! ## Completeness -/

theorem readValue_scalar {fuel limit : Nat} {c : Char} {rest : List Char} (notBracket : c ≠ '[')
    (notBrace : c ≠ '{') : readValue fuel limit (c :: rest) = readScalar fuel (c :: rest) := by
  cases limit with
  | zero => rfl
  | succ limit => rw [readValue, if_neg notBracket, if_neg notBrace]

theorem readWord_append {word : List Char} {value : Value} (known : (word, value) ∈ words)
    (rest : List Char) : readWord (word ++ rest) = some (value, rest) := by
  simp only [words, List.mem_cons, List.not_mem_nil, or_false, Prod.mk.injEq] at known
  rcases known with ⟨rfl, rfl⟩ | ⟨rfl, rfl⟩ | ⟨rfl, rfl⟩ <;> simp [readWord, words, List.dropPrefix?]

theorem readValue_word {fuel limit : Nat} {word : List Char} {value : Value}
    (known : (word, value) ∈ words) (rest : List Char) :
    readValue fuel limit (word ++ rest) = some (value, rest) := by
  have read := readWord_append known rest
  obtain ⟨c, others, rfl, notBracket, notBrace, notQuote, notDigit, _⟩ := word_head known
  rw [List.cons_append] at read ⊢
  rw [readValue_scalar notBracket notBrace, readScalar, if_neg notQuote, if_neg (by simp [notDigit])]
  exact read

theorem readValue_number {fuel limit : Nat} (value : UInt64) {rest : List Char}
    (boundary : NoDigit rest) :
    readValue fuel limit (Nat.toDigits 10 value.toNat ++ rest) = some (.number value, rest) := by
  have read := @readNumber_toDigits _ _ none false _ boundary nofun value.toNat_lt_size
  obtain ⟨c, others, same, digit⟩ := toDigits_cons value.toNat
  have different : c ≠ '[' ∧ c ≠ '{' ∧ c ≠ '"' := by
    refine ⟨?_, ?_, ?_⟩ <;> rintro rfl <;> contradiction
  rw [same] at read ⊢
  rw [List.cons_append, readValue_scalar different.1 different.2.1, readScalar,
    if_neg different.2.2, if_pos digit, ← List.cons_append, read]
  exact congrArg (fun number => some (Value.number number, rest)) UInt64.ofNat_toNat

theorem readValue_string {fuel limit : Nat} {text chars : List Char} (spells : Spells text chars)
    (enough : text.length < fuel) (rest : List Char) :
    readValue fuel limit ('"' :: (text ++ '"' :: rest)) =
      some (.string (String.ofList chars), rest) := by
  rw [readValue_scalar (by decide) (by decide), readScalar, if_pos rfl,
    readChars_spelled spells enough rest]
  rfl

theorem readMember_append {fuel : Nat} {reader : Reader Value}
    {key between before text chars rest : List Char} {value : Value} (spells : Spells key chars)
    (enough : key.length < fuel) (front : Blank between) (back : Blank before)
    (opens : Opens text) (reads : reader (text ++ rest) = some (value, rest)) :
    readMember fuel reader ('"' :: (key ++ '"' :: (between ++ ':' :: (before ++ (text ++ rest))))) =
      some ((String.ofList chars, value), rest) := by
  have keyRead := readChars_spelled spells enough (between ++ ':' :: (before ++ (text ++ rest)))
  have toColon := @skipBlank_append between (':' :: (before ++ (text ++ rest))) front
    (by intro c isHead; cases isHead; decide)
  have toValue := skipBlank_append back (opens.append rest).solid
  rw [readMember, bind_of_some (readGiven_cons_self ..), bind_of_some keyRead,
    bind_of_some toColon, bind_of_some (readGiven_cons_self ..), bind_of_some toValue,
    bind_of_some reads]
  rfl

theorem readValue_array {fuel limit : Nat} (rest : List Char) :
    readValue fuel (limit + 1) ('[' :: rest) =
      (readSequence (padded (readValue fuel limit)) ']' fuel rest).map fun read =>
        (.array read.1, read.2) := by
  rw [readValue, if_pos rfl]

theorem readValue_object {fuel limit : Nat} (rest : List Char) :
    readValue fuel (limit + 1) ('{' :: rest) =
      (readSequence (padded (readMember fuel (readValue fuel limit))) '}' fuel rest).map
        fun read => (.object (ofPairs read.1), read.2) := by
  rw [readValue, if_neg (by decide), if_pos rfl]

/-- How an item is read from a text before one that does not continue it. -/
def ReadsAs (fuel limit : Nat) (text : List Char) : Item → Prop
  | .value value => ∀ rest, NoDigit rest →
      readValue fuel limit (text ++ rest) = some (value, rest)
  | .member key value => ∀ rest, NoDigit rest →
      readMember fuel (readValue fuel limit) (text ++ rest) = some ((key, value), rest)
  | .elements elements => ∀ loops rest, text.length ≤ loops →
      readItems (padded (readValue fuel limit)) ']' loops (text ++ ']' :: rest) =
        some (elements, rest)
  | .members members => ∀ loops rest, text.length ≤ loops →
      readItems (padded (readMember fuel (readValue fuel limit))) '}' loops (text ++ '}' :: rest) =
        some (members, rest)

/-- Every text of the grammar is read as what it denotes. -/
theorem readsAs_of_denotes {fuel limit : Nat} {text : List Char} {item : Item}
    (denotes : Denotes limit text item) (enough : text.length ≤ fuel) :
    ReadsAs fuel limit text item := by
  -- the fuel is the same throughout, and every part is shorter than the whole
  induction denotes with
  | word known => exact fun rest _ => readValue_word known rest
  | number value => exact fun rest boundary => readValue_number value boundary
  | string spells =>
      intro rest _
      simp only [List.length_cons, List.length_append] at enough
      rw [List.cons_append, List.append_assoc]
      exact readValue_string spells (by omega) rest
  | emptyArray blank =>
      intro rest _
      rw [List.cons_append, List.append_assoc, readValue_array, List.singleton_append,
        readSequence_empty blank (by decide)]
      rfl
  | array denotes ih =>
      intro rest _
      simp only [List.length_cons, List.length_append] at enough
      have fits := Nat.le_of_add_right_le (Nat.le_of_succ_le enough)
      rw [List.cons_append, List.append_assoc, readValue_array,
        readSequence_items (opensLater_elements denotes) (Or.inl rfl), List.singleton_append,
        ih fits fuel rest fits]
      rfl
  | emptyObject blank =>
      intro rest _
      rw [List.cons_append, List.append_assoc, readValue_object, List.singleton_append,
        readSequence_empty blank (by decide)]
      rfl
  | object denotes ih =>
      intro rest _
      simp only [List.length_cons, List.length_append] at enough
      have fits := Nat.le_of_add_right_le (Nat.le_of_succ_le enough)
      rw [List.cons_append, List.append_assoc, readValue_object,
        readSequence_items (opensLater_members denotes) (Or.inr rfl), List.singleton_append,
        ih fits fuel rest fits]
      rfl
  | member spells front back denotes ih =>
      intro rest boundary
      simp only [List.length_cons, List.length_append] at enough
      simp only [List.cons_append, List.append_assoc]
      exact readMember_append spells (by omega) front back (opens_value denotes)
        (ih (by omega) rest boundary)
  | lastElement front back denotes ih =>
      intro loops rest many
      simp only [List.length_append] at enough
      exact readItems_last (Or.inl rfl) front back (opens_value denotes) (ih (by omega)) many
  | moreElements front back denotes _ ih later =>
      intro loops rest many
      simp only [List.length_append, List.length_cons] at enough
      exact readItems_more (Or.inl rfl) front back (opens_value denotes) (ih (by omega))
        (later (by omega)) many
  | lastMember front back denotes ih =>
      intro loops rest many
      simp only [List.length_append] at enough
      exact readItems_last (Or.inr rfl) front back (opens_member denotes) (ih (by omega)) many
  | moreMembers front back denotes _ ih later =>
      intro loops rest many
      simp only [List.length_append, List.length_cons] at enough
      exact readItems_more (Or.inr rfl) front back (opens_member denotes) (ih (by omega))
        (later (by omega)) many

def textCodec : Codec where
  Error := Unit
  toStringPretty value := .ok (String.ofList (pretty 0 value))
  fromStr text :=
    match parseWith (padded (readValue text.length nestingLimit)) text.toList with
    | some value => .ok value
    | none => .error ()

theorem textCodec_lawful : textCodec.Lawful where
  writes := by
    intro limit value canonical
    refine ⟨_, rfl, ?_⟩
    rw [String.toList_ofList]
    exact denotes_pretty canonical 0
  reads := by
    intro text value denotes
    have enough : text.toList.length ≤ text.length := Nat.le_of_eq String.length_toList
    have read := readsAs_of_denotes denotes enough [] nofun
    have stops : Stops [] := nofun
    have whole := padded_reads blank_nil blank_nil ((opens_value denotes).append _).solid stops read
    have parsed := parseWith_eq_some_iff.mpr whole
    simp only [List.nil_append, List.append_nil] at parsed
    rw [textCodec]
    dsimp only
    rw [parsed]

end RealityHydra.Lib.Json
