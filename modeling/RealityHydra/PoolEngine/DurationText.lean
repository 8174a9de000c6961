import RealityHydra.PoolEngine.Load

/-!
# Which texts are durations

The grammar of `epoch_len`, which `parseDuration` accepts exactly, and the texts
on which it does not return: those whose last character, once the surrounding
whitespace is gone, takes several bytes, where `split_at` cuts inside it.
-/

set_option autoImplicit false

namespace RealityHydra.PoolEngine

open RealityHydra.Lib.Text

/-- A text that `u64::from_str` reads as `n`. -/
def U64Literal (text : List Char) (n : Nat) : Prop :=
  ∃ sign digits, (sign = [] ∨ sign = ['+']) ∧ text = sign ++ digits ∧ digits ≠ [] ∧
    (∀ c ∈ digits, c.isDigit = true) ∧ Nat.ofDigitChars 10 digits 0 = n ∧ n < 2 ^ 64

def durationUnits : List (Char × Nat) := [('h', 3600), ('m', 60), ('s', 1)]

/-- A number and one unit, between whitespace, whose product is a `u64`. -/
def SpellsDuration (value : String) (length : Duration) : Prop :=
  ∃ number unit n factor, trim isWhitespace value.toList = number ++ [unit] ∧
    U64Literal number n ∧ (unit, factor) ∈ durationUnits ∧
    n * factor < 2 ^ 64 ∧ length = ⟨UInt64.ofNat (n * factor), 0⟩

/-- `split_at(len - 1)` stays on a character boundary. -/
def SplitsAtBoundary (value : String) : Prop :=
  ∀ unit ∈ (trim isWhitespace value.toList).getLast?, unit.utf8Size = 1

/-! ## The number -/

theorem decimalDigit_eq_some_iff {c : Char} {digit : Nat} :
    decimalDigit c = some digit ↔ c.isDigit = true ∧ digit = c.toNat - '0'.toNat := by
  have bounds : ('0' ≤ c ∧ c ≤ '9') ↔ c.isDigit = true := by
    simp [Char.isDigit, Char.le_def]
  rw [decimalDigit]
  split
  · rename_i inside
    rw [Option.some.injEq, eq_comm]
    exact (and_iff_right (bounds.mp inside)).symm
  · rename_i outside
    refine iff_of_false nofun ?_
    rintro ⟨isDigit, _⟩
    exact outside (bounds.mpr isDigit)

theorem le_ofDigitChars (digits : List Char) (value : Nat) :
    value ≤ Nat.ofDigitChars 10 digits value := by
  induction digits generalizing value with
  | nil => rw [Nat.ofDigitChars_nil]
  | cons c rest ih =>
      have later := ih (10 * value + (c.toNat - '0'.toNat))
      rw [Nat.ofDigitChars_cons]
      omega

/-- Overflow at some digit is overflow of the whole. -/
theorem parseDigits_eq_some_iff {digits : List Char} {value result : Nat}
    (small : value < 2 ^ 64) :
    parseDigits value digits = some result ↔
      (∀ c ∈ digits, c.isDigit = true) ∧ Nat.ofDigitChars 10 digits value = result ∧
        result < 2 ^ 64 := by
  induction digits generalizing value with
  | nil =>
      rw [parseDigits, Nat.ofDigitChars_nil, Option.some.injEq]
      constructor
      · rintro rfl
        exact ⟨nofun, rfl, small⟩
      · rintro ⟨_, same, _⟩
        exact same
  | cons c rest ih =>
      rw [parseDigits, Nat.ofDigitChars_cons, List.forall_mem_cons]
      constructor
      · intro read
        obtain ⟨digit, isDigit, read⟩ := Option.bind_eq_some_iff.mp read
        obtain ⟨inside, rfl⟩ := decimalDigit_eq_some_iff.mp isDigit
        dsimp only at read
        split at read
        · rename_i fits
          obtain ⟨others, same, bound⟩ := (ih fits).mp read
          rw [Nat.mul_comm 10]
          exact ⟨⟨inside, others⟩, same, bound⟩
        · contradiction
      · intro spelled
        obtain ⟨⟨inside, others⟩, same, bound⟩ := spelled
        rw [decimalDigit_eq_some_iff.mpr ⟨inside, rfl⟩, Option.bind_some]
        rw [Nat.mul_comm 10] at same
        have grown := le_ofDigitChars rest (value * 10 + (c.toNat - '0'.toNat))
        have fits : value * 10 + (c.toNat - '0'.toNat) < 2 ^ 64 := by omega
        rw [if_pos fits]
        exact (ih fits).mpr ⟨others, same, bound⟩

theorem plus_not_digit : ¬ '+'.isDigit = true := by decide

theorem parseU64_eq_some_iff {text : List Char} {n : Nat} :
    parseU64 text = some n ↔ U64Literal text n := by
  have zero : 0 < 2 ^ 64 := by decide
  constructor
  · intro read
    rw [parseU64] at read
    split at read
    · contradiction
    rename_i nonempty
    obtain ⟨inside, value, bound⟩ := (parseDigits_eq_some_iff zero).mp read
    cases signed : text.dropPrefix? ['+'] with
    | none =>
        rw [signed] at nonempty inside value
        exact ⟨[], text, Or.inl rfl, rfl, nonempty, inside, value, bound⟩
    | some rest =>
        rw [signed] at nonempty inside value
        obtain ⟨front, whole, plus⟩ := List.dropPrefix?_eq_some_iff.mp signed
        rw [beq_iff_eq.mp plus] at whole
        exact ⟨['+'], rest, Or.inr rfl, whole, nonempty, inside, value, bound⟩
  · intro spelled
    obtain ⟨sign, digits, isSign, rfl, nonempty, inside, value, bound⟩ := spelled
    have read := (parseDigits_eq_some_iff zero).mpr ⟨inside, value, bound⟩
    have unsigned : ((sign ++ digits).dropPrefix? ['+']).getD (sign ++ digits) = digits := by
      rcases isSign with rfl | rfl
      · cases digits with
        | nil => rfl
        | cons head rest =>
            have notPlus : head ≠ '+' := by
              rintro rfl
              exact plus_not_digit (inside '+' List.mem_cons_self)
            simp [List.dropPrefix?, notPlus]
      · simp [List.dropPrefix?]
    rw [parseU64, unsigned, if_neg nonempty, read]

/-! ## The unit -/

theorem mem_durationUnits_iff {unit : Char} {factor : Nat} :
    (unit, factor) ∈ durationUnits ↔
      unit = 'h' ∧ factor = 3600 ∨ unit = 'm' ∧ factor = 60 ∨ unit = 's' ∧ factor = 1 := by
  simp [durationUnits]

theorem checkedMul_eq_some_iff {left right product : Nat} :
    checkedMul left right = some product ↔
      left * right < 2 ^ 64 ∧ product = left * right := by
  rw [checkedMul]
  split
  · rename_i fits
    rw [Option.some.injEq, eq_comm]
    exact (and_iff_right fits).symm
  · rename_i overflows
    exact iff_of_false nofun fun both => overflows both.1

theorem unitSecs_eq_some_iff {unit : Char} {n secs : Nat} (small : n < 2 ^ 64) :
    unitSecs unit n = some secs ↔
      ∃ factor, (unit, factor) ∈ durationUnits ∧ n * factor < 2 ^ 64 ∧ secs = n * factor := by
  simp only [mem_durationUnits_iff]
  constructor
  · intro known
    rw [unitSecs] at known
    split at known
    · rename_i isHour
      exact ⟨3600, Or.inl ⟨isHour, rfl⟩, checkedMul_eq_some_iff.mp known⟩
    split at known
    · rename_i isMinute
      exact ⟨60, Or.inr (Or.inl ⟨isMinute, rfl⟩), checkedMul_eq_some_iff.mp known⟩
    split at known
    · rename_i isSecond
      have same := Option.some.inj known
      exact ⟨1, Or.inr (Or.inr ⟨isSecond, rfl⟩), by omega, by omega⟩
    · contradiction
  · intro listed
    obtain ⟨factor, isUnit, fits, product⟩ := listed
    rw [unitSecs]
    rcases isUnit with ⟨rfl, rfl⟩ | ⟨rfl, rfl⟩ | ⟨rfl, rfl⟩
    · rw [if_pos rfl]
      exact checkedMul_eq_some_iff.mpr ⟨fits, product⟩
    · rw [if_neg (by decide), if_pos rfl]
      exact checkedMul_eq_some_iff.mpr ⟨fits, product⟩
    · rw [if_neg (by decide), if_neg (by decide), if_pos rfl, product, Nat.mul_one]

theorem utf8Size_of_mem_durationUnits {unit : Char} {factor : Nat}
    (known : (unit, factor) ∈ durationUnits) : unit.utf8Size = 1 := by
  rcases mem_durationUnits_iff.mp known with ⟨rfl, _⟩ | ⟨rfl, _⟩ | ⟨rfl, _⟩
  · decide
  · decide
  · decide

/-! ## The duration -/

theorem parseDuration_of_last {value : String} {number : List Char} {unit : Char}
    (cut : trim isWhitespace value.toList = number ++ [unit]) :
    parseDuration value =
      if unit.utf8Size ≠ 1 then .error .panicked
      else
        match (parseU64 number).bind (unitSecs unit) with
        | some secs => .ok ⟨UInt64.ofNat secs, 0⟩
        | none => .error (.rejected (.badDuration (String.ofList (number ++ [unit])))) := by
  by_cases wide : unit.utf8Size ≠ 1
  · simp [parseDuration, cut, wide]
  · cases read : (parseU64 number).bind (unitSecs unit) with
    | none => simp [parseDuration, cut, wide, read]
    | some secs => simp [parseDuration, cut, wide, read]

/-- An accepted text is the grammar's, whatever the other texts do. -/
theorem parseDuration_ok_iff {value : String} {length : Duration} :
    parseDuration value = .ok length ↔ SpellsDuration value length := by
  constructor
  · intro read
    cases cut : trim isWhitespace value.toList using List.reverseRecOn with
    | nil =>
        rw [parseDuration, cut] at read
        contradiction
    | append_singleton number unit =>
        rw [parseDuration_of_last cut] at read
        split at read
        · contradiction
        split at read
        · rename_i secs known
          obtain ⟨n, isNumber, isUnit⟩ := Option.bind_eq_some_iff.mp known
          have literal := parseU64_eq_some_iff.mp isNumber
          obtain ⟨_, _, _, _, _, _, _, small⟩ := id literal
          obtain ⟨factor, listed, fits, rfl⟩ := (unitSecs_eq_some_iff small).mp isUnit
          exact ⟨number, unit, n, factor, cut, literal, listed, fits, (Except.ok.inj read).symm⟩
        · contradiction
  · intro spelled
    obtain ⟨number, unit, n, factor, cut, literal, listed, fits, rfl⟩ := spelled
    obtain ⟨_, _, _, _, _, _, _, small⟩ := id literal
    have isUnit := (unitSecs_eq_some_iff small).mpr ⟨factor, listed, fits, rfl⟩
    rw [parseDuration_of_last cut, if_neg (not_not.mpr (utf8Size_of_mem_durationUnits listed)),
      parseU64_eq_some_iff.mpr literal, Option.bind_some, isUnit]

theorem parseDuration_panics_iff {value : String} :
    parseDuration value = .error .panicked ↔ ¬ SplitsAtBoundary value := by
  unfold SplitsAtBoundary
  cases cut : trim isWhitespace value.toList using List.reverseRecOn with
  | nil =>
      rw [parseDuration, cut]
      simp
  | append_singleton number unit =>
      rw [parseDuration_of_last cut, List.getLast?_concat]
      split
      · rename_i several
        simpa using several
      · rename_i single
        refine iff_of_false ?_ (by simpa using single)
        split <;> simp

theorem parseDuration_returns {value : String} (boundary : SplitsAtBoundary value) :
    (∃ length, parseDuration value = .ok length) ∨
      ∃ text, parseDuration value = .error (.rejected (.badDuration text)) := by
  cases cut : trim isWhitespace value.toList using List.reverseRecOn with
  | nil =>
      right
      rw [parseDuration, cut]
      exact ⟨_, rfl⟩
  | append_singleton number unit =>
      have single : unit.utf8Size = 1 := by
        apply boundary
        rw [cut, List.getLast?_concat]
        exact rfl
      rw [parseDuration_of_last cut, if_neg (not_not.mpr single)]
      split
      · exact Or.inl ⟨_, rfl⟩
      · exact Or.inr ⟨_, rfl⟩

/-! ## The document around it -/

/-- A check that fails rejects. -/
theorem panicked_of_checked_bind {α β : Type} {result : Except PoolError α}
    {next : α → Except Stop β} (panics : (checked result >>= next) = .error .panicked) :
    ∃ value, next value = .error .panicked := by
  cases result with
  | error rejected => exact absurd panics nofun
  | ok value => exact ⟨value, panics⟩

/-- No other field of a document stops its loading short of an error. -/
theorem RawConfig.intoConfig_panicked {base64 : Lib.Base64.Engine} {raw : RawConfig}
    (panics : raw.intoConfig base64 = .error .panicked) :
    parseDuration raw.epochLen = .error .panicked := by
  rw [RawConfig.intoConfig] at panics
  split at panics
  · cases panics
  obtain ⟨secretBytes, panics⟩ := panicked_of_checked_bind panics
  obtain ⟨masterSecret, panics⟩ := panicked_of_checked_bind panics
  obtain ⟨saltBytes, panics⟩ := panicked_of_checked_bind panics
  obtain ⟨serverSalt, panics⟩ := panicked_of_checked_bind panics
  split at panics
  · cases panics
  cases duration : parseDuration raw.epochLen with
  | error stop =>
      rw [duration] at panics
      have same : stop = .panicked := Except.error.inj panics
      rw [same]
  | ok epochLen =>
      rw [duration] at panics
      obtain ⟨masterList, panics⟩ := panicked_of_checked_bind panics
      obtain ⟨reality, panics⟩ := panicked_of_checked_bind panics
      obtain ⟨certPin, panics⟩ := panicked_of_checked_bind panics
      cases panics

/-- Parsing `value` is total and exact, and so is loading a document with it. -/
structure DurationContract (value : String) : Prop where
  returns : (∃ length, parseDuration value = .ok length) ∨
    ∃ text, parseDuration value = .error (.rejected (.badDuration text))
  exact : ∀ length, parseDuration value = .ok length ↔ SpellsDuration value length
  loads : ∀ (base64 : Lib.Base64.Engine) (raw : RawConfig), raw.epochLen = value →
    raw.intoConfig base64 ≠ .error .panicked

/-- What is accepted is always the grammar's.  Parsing returns, and loading does,
exactly if the trimmed text is empty or ends in a character of one byte. -/
theorem duration_contract_iff_boundary (value : String) :
    (∀ length, parseDuration value = .ok length ↔ SpellsDuration value length) ∧
      (DurationContract value ↔ SplitsAtBoundary value) := by
  refine ⟨fun length => parseDuration_ok_iff, ?_, ?_⟩
  · intro contract
    by_contra inside
    have panics := parseDuration_panics_iff.mpr inside
    rcases contract.returns with ⟨length, read⟩ | ⟨text, rejected⟩
    · rw [panics] at read
      contradiction
    · rw [panics] at rejected
      cases rejected
  · intro boundary
    refine ⟨parseDuration_returns boundary, fun length => parseDuration_ok_iff, ?_⟩
    rintro base64 raw rfl panics
    exact parseDuration_panics_iff.mp (RawConfig.intoConfig_panicked panics) boundary

/-- Six followed by the character for hours. -/
theorem wide_unit_panics :
    parseDuration "6時" = .error .panicked ∧
      ¬ ∀ value, (∃ length, parseDuration value = .ok length) ∨
        ∃ text, parseDuration value = .error (.rejected (.badDuration text)) := by
  have panics : parseDuration "6時" = .error .panicked := by decide
  refine ⟨panics, ?_⟩
  intro total
  rcases total "6時" with ⟨length, read⟩ | ⟨text, rejected⟩
  · rw [panics] at read
    contradiction
  · rw [panics] at rejected
    cases rejected

end RealityHydra.PoolEngine
