import Mathlib.Data.List.TakeWhile

/-!
# Readers over the characters of a text

A reader takes a value off the front of a text or fails.  Two facts carry every
proof about one: what it leaves is a suffix of what it was given, and a
character it can do nothing with ends its text as the end of input does.
-/

set_option autoImplicit false

namespace RealityHydra.Lib.Reading

abbrev Reader := StateT (List Char) Option

variable {α β : Type}

def readGiven (c : Char) : Reader Unit
  | [] => none
  | head :: rest => if head = c then some ((), rest) else none

/-- A failing reader leaves its text as it was. -/
def attempt (reader : Reader α) : Reader (Option α) := fun text =>
  match reader text with
  | some (value, rest) => some (some value, rest)
  | none => some (none, text)

/-- The reader on a whole text. -/
def parseWith (reader : Reader α) (text : List Char) : Option α :=
  match reader text with
  | some (value, []) => some value
  | _ => none

theorem parseWith_eq_some_iff {reader : Reader α} {text : List Char} {value : α} :
    parseWith reader text = some value ↔ reader text = some (value, []) := by
  unfold parseWith
  constructor
  · intro parsed
    split at parsed
    · rename_i whole
      rw [whole, Option.some.inj parsed]
    · contradiction
  · intro whole
    rw [whole]

/-! ## Numbers -/

/-- `char::to_digit`. -/
def toDigit (radix : Nat) (c : Char) : Option Nat :=
  let digit :=
    if '0' ≤ c ∧ c ≤ '9' then some (c.toNat - '0'.toNat)
    else if 'a' ≤ c ∧ c ≤ 'z' then some (c.toNat - 'a'.toNat + 10)
    else if 'A' ≤ c ∧ c ≤ 'Z' then some (c.toNat - 'A'.toNat + 10)
    else none
  digit.filter (· < radix)

def isDigit (radix : Nat) (c : Char) : Bool := (toDigit radix c).isSome

def digitsValue (radix : Nat) (digits : List Char) : Nat :=
  digits.foldl (fun value c => value * radix + (toDigit radix c).getD 0) 0

/-- A run of digits of at most `maxDigits`, whose value lies below `limit`. -/
def readNumber (radix limit : Nat) (maxDigits : Option Nat) (zeroPrefix : Bool) :
    Reader Nat := fun text =>
  let digits := text.takeWhile (isDigit radix)
  let value := digitsValue radix digits
  if digits = [] then none
  else if maxDigits.any (· < digits.length) then none
  else if zeroPrefix = false ∧ digits.head? = some '0' ∧ 1 < digits.length then none
  else if value < limit then some (value, text.dropWhile (isDigit radix))
  else none

theorem span_beyond {p : Char → Bool} (text : List Char) {beyond : List Char}
    (boundary : ∀ c ∈ beyond.head?, p c = false) :
    (text ++ beyond).takeWhile p = text.takeWhile p ∧
      (text ++ beyond).dropWhile p = text.dropWhile p ++ beyond := by
  induction text with
  | nil =>
      cases beyond with
      | nil => simp
      | cons next later => simp [boundary next rfl]
  | cons head rest ih =>
      obtain ⟨taken, dropped⟩ := ih
      cases digit : p head with
      | true => simp [digit, taken, dropped]
      | false => simp [digit]

/-- A run of digits that meets the bounds is read up to the next character. -/
theorem readNumber_append {radix limit : Nat} {maxDigits : Option Nat}
    {zeroPrefix : Bool} {digits rest : List Char} (nonempty : digits ≠ [])
    (inside : ∀ c ∈ digits, isDigit radix c = true)
    (boundary : ∀ c ∈ rest.head?, isDigit radix c = false)
    (few : ∀ most ∈ maxDigits, digits.length ≤ most)
    (plain : zeroPrefix = true ∨ digits.head? ≠ some '0' ∨ digits.length = 1)
    (small : digitsValue radix digits < limit) :
    readNumber radix limit maxDigits zeroPrefix (digits ++ rest) =
      some (digitsValue radix digits, rest) := by
  obtain ⟨taken, dropped⟩ := span_beyond digits boundary
  rw [List.takeWhile_eq_self_iff.mpr inside] at taken
  rw [List.dropWhile_eq_nil_iff.mpr inside, List.nil_append] at dropped
  have fits : ¬ maxDigits.any (· < digits.length) = true := by
    cases maxDigits with
    | none => simp
    | some most => simpa using few most rfl
  have noPrefix : ¬ (zeroPrefix = false ∧ digits.head? = some '0' ∧
      1 < digits.length) := by
    rintro ⟨strict, zero, several⟩
    rcases plain with lenient | other | single
    · rw [lenient] at strict
      contradiction
    · exact other zero
    · omega
  unfold readNumber
  dsimp only
  rw [taken, dropped, if_neg nonempty, if_neg fits, if_neg noPrefix, if_pos small]

/-! ## Printed numbers -/

theorem toDigit_of_isDigit {c : Char} (digit : c.isDigit = true) :
    toDigit 10 c = some (c.toNat - '0'.toNat) := by
  have bounds : '0' ≤ c ∧ c ≤ '9' := by
    simpa [Char.isDigit, Char.le_def] using digit
  have small : c.toNat - '0'.toNat < 10 := by
    have upper : c.toNat ≤ '9'.toNat := bounds.2
    simp only [Char.reduceToNat] at *
    omega
  simp only [toDigit, if_pos bounds, Option.filter, decide_eq_true small, if_true]

theorem digitsValue_toDigits (n : Nat) : digitsValue 10 (Nat.toDigits 10 n) = n := by
  have fold : ∀ (digits : List Char) (value : Nat), (∀ c ∈ digits, c.isDigit = true) →
      digits.foldl (fun value c => value * 10 + (toDigit 10 c).getD 0) value =
        Nat.ofDigitChars 10 digits value := by
    intro digits
    induction digits with
    | nil =>
        intro value _
        rw [Nat.ofDigitChars_nil]
        rfl
    | cons c rest ih =>
        intro value inside
        obtain ⟨digit, others⟩ := List.forall_mem_cons.mp inside
        rw [List.foldl_cons, Nat.ofDigitChars_cons, ih _ others,
          toDigit_of_isDigit digit, Nat.mul_comm]
        rfl
  have digits : ∀ c ∈ Nat.toDigits 10 n, c.isDigit = true :=
    fun c member => Nat.isDigit_of_mem_toDigits (by decide) (by decide) member
  rw [digitsValue, fold _ _ digits, Nat.ofDigitChars_ten_toDigits]

theorem isDigit_of_mem_toDigits {n : Nat} {c : Char} (member : c ∈ Nat.toDigits 10 n) :
    isDigit 10 c = true := by
  rw [isDigit, toDigit_of_isDigit
    (Nat.isDigit_of_mem_toDigits (by decide) (by decide) member)]
  rfl

/-- A decimal number has no zero in front unless it is zero. -/
theorem head_toDigits_ne_zero (n : Nat) (positive : 0 < n) :
    (Nat.toDigits 10 n).head? ≠ some '0' := by
  induction n using Nat.strongRecOn with
  | _ n ih =>
      by_cases small : n < 10
      · have digits : ∀ m < 10, 0 < m → [Nat.digitChar m].head? ≠ some '0' := by decide
        rw [Nat.toDigits_of_lt_base small]
        exact digits n small positive
      · have large : 10 ≤ n := Nat.not_lt.mp small
        rw [Nat.toDigits_of_base_le (by decide) large, List.head?_append]
        have front := ih (n / 10) (by omega) (by omega)
        cases digits : Nat.toDigits 10 (n / 10) with
        | nil => exact absurd digits Nat.toDigits_ne_nil
        | cons head rest =>
            rw [digits] at front
            simpa using front

theorem toDigits_plain (n : Nat) :
    (Nat.toDigits 10 n).head? ≠ some '0' ∨ (Nat.toDigits 10 n).length = 1 := by
  rcases Nat.eq_zero_or_pos n with rfl | positive
  · exact Or.inr rfl
  · exact Or.inl (head_toDigits_ne_zero n positive)

theorem readNumber_toDigits {limit n : Nat} {maxDigits : Option Nat} {zeroPrefix : Bool}
    {rest : List Char} (boundary : ∀ c ∈ rest.head?, isDigit 10 c = false)
    (few : ∀ most ∈ maxDigits, (Nat.toDigits 10 n).length ≤ most) (small : n < limit) :
    readNumber 10 limit maxDigits zeroPrefix (Nat.toDigits 10 n ++ rest) =
      some (n, rest) := by
  have value := digitsValue_toDigits n
  rw [readNumber_append Nat.toDigits_ne_nil (fun c => isDigit_of_mem_toDigits) boundary few
    (Or.inr (toDigits_plain n)) (by rwa [value]), value]

/-! ## What a reader leaves -/

def Shortens (reader : Reader α) : Prop :=
  ∀ text value rest, reader text = some (value, rest) → rest <:+ text

theorem bind_eq_some {reader : Reader α} {next : α → Reader β}
    {text rest : List Char} {result : β}
    (read : (reader >>= next) text = some (result, rest)) :
    ∃ value after, reader text = some (value, after) ∧
      next value after = some (result, rest) := by
  obtain ⟨⟨value, after⟩, first, second⟩ := Option.bind_eq_some_iff.mp read
  exact ⟨value, after, first, second⟩

theorem bind_of_some {reader : Reader α} {next : α → Reader β}
    {text after : List Char} {value : α} (first : reader text = some (value, after)) :
    (reader >>= next) text = next value after := by
  change (reader text).bind _ = _
  rw [first]
  rfl

theorem bind_of_none {reader : Reader α} {next : α → Reader β}
    {text : List Char} (failed : reader text = none) :
    (reader >>= next) text = none := by
  change (reader text).bind _ = _
  rw [failed]
  rfl

theorem readGiven_eq_some_iff {c : Char} {text rest : List Char} {value : Unit} :
    readGiven c text = some (value, rest) ↔ text = c :: rest := by
  cases text with
  | nil => simp [readGiven]
  | cons head others => simp [readGiven]

@[simp] theorem readGiven_cons_self (c : Char) (rest : List Char) :
    readGiven c (c :: rest) = some ((), rest) := if_pos rfl

theorem Shortens.pure (value : α) : Shortens (pure value : Reader α) := by
  intro text result rest read
  cases Option.some.inj read
  exact List.suffix_rfl

theorem Shortens.failure : Shortens (failure : Reader α) := by
  intro text value rest read
  exact absurd read nofun

theorem Shortens.bind {reader : Reader α} {next : α → Reader β}
    (first : Shortens reader) (second : ∀ value, Shortens (next value)) :
    Shortens (reader >>= next) := by
  intro text result rest read
  obtain ⟨value, after, begun, ended⟩ := bind_eq_some read
  exact (second value _ _ _ ended).trans (first _ _ _ begun)

theorem Shortens.readGiven (c : Char) : Shortens (readGiven c) := by
  intro text value rest read
  rw [readGiven_eq_some_iff.mp read]
  exact List.suffix_cons c rest

theorem Shortens.attempt {reader : Reader α} (inner : Shortens reader) :
    Shortens (attempt reader) := by
  intro text value rest read
  unfold Reading.attempt at read
  split at read
  · rename_i found
    cases Option.some.inj read
    exact inner _ _ _ found
  · cases Option.some.inj read
    exact List.suffix_rfl

theorem readNumber_eq_some {radix limit : Nat} {maxDigits : Option Nat}
    {zeroPrefix : Bool} {text rest : List Char} {value : Nat}
    (read : readNumber radix limit maxDigits zeroPrefix text = some (value, rest)) :
    value = digitsValue radix (text.takeWhile (isDigit radix)) ∧
      rest = text.dropWhile (isDigit radix) := by
  unfold Reading.readNumber at read
  dsimp only at read
  split at read <;> try contradiction
  split at read <;> try contradiction
  split at read <;> try contradiction
  split at read <;> try contradiction
  cases Option.some.inj read
  exact ⟨rfl, rfl⟩

theorem Shortens.readNumber (radix limit : Nat) (maxDigits : Option Nat)
    (zeroPrefix : Bool) : Shortens (readNumber radix limit maxDigits zeroPrefix) := by
  intro text value rest read
  rw [(readNumber_eq_some read).2]
  exact List.dropWhile_suffix _

/-! ## Where a reader stops -/

/-- A text followed by a character of `stop` is read as if it ended there. -/
def StopsAt (stop : Char → Prop) (reader : Reader α) : Prop :=
  ∀ text beyond, (∀ c ∈ beyond.head?, stop c) →
    reader (text ++ beyond) =
      (reader text).map fun read => (read.1, read.2 ++ beyond)

section Stops

variable {stop : Char → Prop}

/-- Read alone a text leaves what it leaves before the stop. -/
theorem StopsAt.eq_some_iff {reader : Reader α} (stops : StopsAt stop reader)
    {text beyond rest : List Char} {value : α} (isStop : ∀ c ∈ beyond.head?, stop c) :
    reader (text ++ beyond) = some (value, rest) ↔
      ∃ left, reader text = some (value, left) ∧ rest = left ++ beyond := by
  rw [stops text beyond isStop, Option.map_eq_some_iff]
  constructor
  · intro read
    obtain ⟨⟨found, left⟩, alone, same⟩ := read
    obtain ⟨rfl, rfl⟩ := Prod.mk.inj same
    exact ⟨left, alone, rfl⟩
  · intro read
    obtain ⟨left, alone, same⟩ := read
    exact ⟨(value, left), alone, Prod.ext rfl same.symm⟩

theorem StopsAt.pure (value : α) : StopsAt stop (pure value : Reader α) :=
  fun _ _ _ => rfl

theorem StopsAt.failure : StopsAt stop (failure : Reader α) :=
  fun _ _ _ => rfl

theorem StopsAt.bind {reader : Reader α} {next : α → Reader β}
    (first : StopsAt stop reader) (second : ∀ value, StopsAt stop (next value)) :
    StopsAt stop (reader >>= next) := by
  intro text beyond stopped
  have begun := first text beyond stopped
  cases read : reader text with
  | none =>
      rw [read] at begun
      rw [bind_of_none begun, bind_of_none read]
      rfl
  | some result =>
      obtain ⟨value, rest⟩ := result
      rw [read] at begun
      rw [bind_of_some begun, bind_of_some read]
      exact second value rest beyond stopped

theorem StopsAt.attempt {reader : Reader α} (inner : StopsAt stop reader) :
    StopsAt stop (attempt reader) := by
  intro text beyond stopped
  have same := inner text beyond stopped
  unfold Reading.attempt
  rw [same]
  cases reader text <;> rfl

theorem StopsAt.readGiven {c : Char} (other : ¬ stop c) : StopsAt stop (readGiven c) := by
  intro text beyond stopped
  cases text with
  | cons head rest =>
      by_cases same : head = c
      · simp [Reading.readGiven, same]
      · simp [Reading.readGiven, same]
  | nil =>
      cases beyond with
      | nil => rfl
      | cons head rest =>
          have different : head ≠ c := by
            intro same
            exact other (same ▸ stopped head rfl)
          simp [Reading.readGiven, different]

theorem StopsAt.readNumber (radix limit : Nat) (maxDigits : Option Nat)
    (zeroPrefix : Bool) (noDigit : ∀ c, stop c → isDigit radix c = false) :
    StopsAt stop (readNumber radix limit maxDigits zeroPrefix) := by
  intro text beyond stopped
  obtain ⟨taken, dropped⟩ := span_beyond text
    (fun c isHead => noDigit c (stopped c isHead))
  unfold Reading.readNumber
  dsimp only
  rw [taken, dropped]
  split <;> try rfl
  split <;> try rfl
  split <;> try rfl
  split <;> rfl

end Stops

end RealityHydra.Lib.Reading
