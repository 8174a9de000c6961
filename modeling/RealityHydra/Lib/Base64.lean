import RealityHydra.Lib.ByteCodec

/-!
# Base64

What a base64 engine promises, and the standard alphabet with padding as one
that keeps it.
-/

set_option autoImplicit false

namespace RealityHydra.Lib.Base64

open RealityHydra.Lib.ByteCodec

inductive DecodeError where
  | invalidByte (offset : Nat) (byte : UInt8)
  | invalidLength (length : Nat)
  | invalidLastSymbol (offset : Nat) (symbol : UInt8)
  | invalidPadding
  deriving DecidableEq, Repr

structure Engine where
  encode : Bytes → List Char
  decode : List Char → Except DecodeError Bytes

def alphabet : List Char :=
  "ABCDEFGHIJKLMNOPQRSTUVWXYZabcdefghijklmnopqrstuvwxyz0123456789+/".toList

structure Engine.Lawful (engine : Engine) : Prop where
  decode_encode : ∀ bytes, engine.decode (engine.encode bytes) = .ok bytes
  symbols : ∀ bytes, ∀ c ∈ engine.encode bytes, c ∈ alphabet ∨ c = '='

/-- Any symbols decode, three bytes to four of them, if none is left over. -/
def Engine.DecodesGroups (engine : Engine) : Prop :=
  ∀ (groups : Nat) (chars : List Char), (∀ c ∈ chars, c ∈ alphabet) →
    chars.length = 4 * groups →
      ∃ bytes, engine.decode chars = .ok bytes ∧ bytes.length = 3 * groups

/-! ## The standard alphabet -/

def symbol (value : Nat) : Char := alphabet.getD value '='

def encode : Bytes → List Char
  | [] => []
  | [a] => [symbol (a.toNat / 4), symbol (a.toNat % 4 * 16), '=', '=']
  | [a, b] =>
      [symbol (a.toNat / 4), symbol (a.toNat % 4 * 16 + b.toNat / 16),
        symbol (b.toNat % 16 * 4), '=']
  | a :: b :: c :: rest =>
      symbol (a.toNat / 4) :: symbol (a.toNat % 4 * 16 + b.toNat / 16) ::
        symbol (b.toNat % 16 * 4 + c.toNat / 64) :: symbol (c.toNat % 64) :: encode rest

def symbolValue (offset : Nat) (c : Char) : Except DecodeError Nat :=
  match alphabet.idxOf? c with
  | some value => .ok value
  | none => .error (.invalidByte offset (UInt8.ofNat c.toNat))

/-- The bits a last symbol has beyond the last byte are to be zero. -/
def checkTrailing (offset : Nat) (c : Char) (unused : Nat) : Except DecodeError Unit :=
  if unused = 0 then .ok () else .error (.invalidLastSymbol offset (UInt8.ofNat c.toNat))

def decodeFrom (offset : Nat) : List Char → Except DecodeError Bytes
  | [] => .ok []
  | p :: q :: r :: s :: rest => do
      let first ← symbolValue offset p
      let second ← symbolValue (offset + 1) q
      let a := UInt8.ofNat (first * 4 + second / 16)
      if s = '=' ∧ rest ≠ [] then .error .invalidPadding
      else if s = '=' ∧ r = '=' then
        checkTrailing (offset + 1) q (second % 16)
        .ok [a]
      else
        let third ← symbolValue (offset + 2) r
        let b := UInt8.ofNat (second % 16 * 16 + third / 4)
        if s = '=' then
          checkTrailing (offset + 2) r (third % 4)
          .ok [a, b]
        else
          let fourth ← symbolValue (offset + 3) s
          let others ← decodeFrom (offset + 4) rest
          .ok (a :: b :: UInt8.ofNat (third % 4 * 64 + fourth) :: others)
  | short => .error (.invalidLength (offset + short.length))

def standard : Engine := ⟨encode, decodeFrom 0⟩

theorem idxOf?_symbol : ∀ value < 64, alphabet.idxOf? (symbol value) = some value := by
  decide +kernel

theorem symbol_mem (value : Nat) (small : value < 64) : symbol value ∈ alphabet := by
  apply List.isSome_idxOf?.mp
  rw [idxOf?_symbol value small, Option.isSome_some]

theorem pad_not_mem : '=' ∉ alphabet := by decide +kernel

theorem symbol_ne_pad (value : Nat) (small : value < 64) : symbol value ≠ '=' := by
  intro same
  exact pad_not_mem (same ▸ symbol_mem value small)

theorem symbolValue_symbol (offset : Nat) {value : Nat} (small : value < 64) :
    symbolValue offset (symbol value) = .ok value := by
  rw [symbolValue, idxOf?_symbol value small]

theorem ofNat_eq {value : Nat} {byte : UInt8} (same : value = byte.toNat) :
    UInt8.ofNat value = byte := by
  rw [same, UInt8.ofNat_toNat]

theorem decodeFrom_encode (offset : Nat) (bytes : Bytes) :
    decodeFrom offset (encode bytes) = .ok bytes := by
  induction bytes using encode.induct generalizing offset with
  | case1 => rfl
  | case2 a =>
      have bound := a.toNat_lt
      rw [encode, decodeFrom, symbolValue_symbol _ (by omega), symbolValue_symbol _ (by omega)]
      have unused : a.toNat % 4 * 16 % 16 = 0 := by omega
      have whole : UInt8.ofNat (a.toNat / 4 * 4 + a.toNat % 4 * 16 / 16) = a :=
        ofNat_eq (by omega)
      simp only [bind, Except.bind, checkTrailing, unused, whole]
      rfl
  | case3 a b =>
      have bound := a.toNat_lt
      have bound' := b.toNat_lt
      have notPad := symbol_ne_pad (b.toNat % 16 * 4) (by omega)
      rw [encode, decodeFrom, symbolValue_symbol _ (by omega), symbolValue_symbol _ (by omega),
        symbolValue_symbol _ (by omega)]
      have unused : b.toNat % 16 * 4 % 4 = 0 := by omega
      have whole : UInt8.ofNat (a.toNat / 4 * 4 +
          (a.toNat % 4 * 16 + b.toNat / 16) / 16) = a := ofNat_eq (by omega)
      have whole' : UInt8.ofNat ((a.toNat % 4 * 16 + b.toNat / 16) % 16 * 16 +
          b.toNat % 16 * 4 / 4) = b := ofNat_eq (by omega)
      simp only [bind, Except.bind, checkTrailing, unused, whole, whole', notPad, and_false,
        if_false]
      rfl
  | case4 a b c rest ih =>
      have bound := a.toNat_lt
      have bound' := b.toNat_lt
      have bound'' := c.toNat_lt
      have notPad := symbol_ne_pad (c.toNat % 64) (by omega)
      rw [encode, decodeFrom, symbolValue_symbol _ (by omega), symbolValue_symbol _ (by omega),
        symbolValue_symbol _ (by omega), symbolValue_symbol _ (by omega), ih]
      have whole : UInt8.ofNat (a.toNat / 4 * 4 +
          (a.toNat % 4 * 16 + b.toNat / 16) / 16) = a := ofNat_eq (by omega)
      have whole' : UInt8.ofNat ((a.toNat % 4 * 16 + b.toNat / 16) % 16 * 16 +
          (b.toNat % 16 * 4 + c.toNat / 64) / 4) = b := ofNat_eq (by omega)
      have whole'' : UInt8.ofNat ((b.toNat % 16 * 4 + c.toNat / 64) % 4 * 64 +
          c.toNat % 64) = c := ofNat_eq (by omega)
      simp only [bind, Except.bind, whole, whole', whole'', notPad, false_and, if_false]

theorem encode_symbols (bytes : Bytes) : ∀ c ∈ encode bytes, c ∈ alphabet ∨ c = '=' := by
  induction bytes using encode.induct with
  | case1 => simp [encode]
  | case2 a =>
      have bound := a.toNat_lt
      have first := symbol_mem (a.toNat / 4) (by omega)
      have second := symbol_mem (a.toNat % 4 * 16) (by omega)
      simp [encode, first, second]
  | case3 a b =>
      have bound := a.toNat_lt
      have bound' := b.toNat_lt
      have first := symbol_mem (a.toNat / 4) (by omega)
      have second := symbol_mem (a.toNat % 4 * 16 + b.toNat / 16) (by omega)
      have third := symbol_mem (b.toNat % 16 * 4) (by omega)
      simp [encode, first, second, third]
  | case4 a b c rest ih =>
      have bound := a.toNat_lt
      have bound' := b.toNat_lt
      have bound'' := c.toNat_lt
      have first := symbol_mem (a.toNat / 4) (by omega)
      have second := symbol_mem (a.toNat % 4 * 16 + b.toNat / 16) (by omega)
      have third := symbol_mem (b.toNat % 16 * 4 + c.toNat / 64) (by omega)
      have fourth := symbol_mem (c.toNat % 64) (by omega)
      simpa [encode, first, second, third, fourth] using ih

theorem standard_lawful : standard.Lawful where
  decode_encode := decodeFrom_encode 0
  symbols := encode_symbols

theorem symbolValue_of_mem (offset : Nat) {c : Char} (isSymbol : c ∈ alphabet) :
    ∃ value, symbolValue offset c = .ok value := by
  obtain ⟨value, found⟩ := Option.isSome_iff_exists.mp (List.isSome_idxOf?.mpr isSymbol)
  exact ⟨value, by rw [symbolValue, found]⟩

theorem decodeFrom_symbols (groups offset : Nat) {chars : List Char}
    (symbols : ∀ c ∈ chars, c ∈ alphabet) (length : chars.length = 4 * groups) :
    ∃ bytes, decodeFrom offset chars = .ok bytes ∧ bytes.length = 3 * groups := by
  induction groups generalizing offset chars with
  | zero =>
      cases List.length_eq_zero_iff.mp length
      exact ⟨[], rfl, rfl⟩
  | succ groups ih =>
      match chars, length with
      | p :: q :: r :: s :: rest, length =>
          obtain ⟨first, firstRead⟩ := symbolValue_of_mem offset (symbols p (by simp))
          obtain ⟨second, secondRead⟩ := symbolValue_of_mem (offset + 1) (symbols q (by simp))
          obtain ⟨third, thirdRead⟩ := symbolValue_of_mem (offset + 2) (symbols r (by simp))
          obtain ⟨fourth, fourthRead⟩ := symbolValue_of_mem (offset + 3) (symbols s (by simp))
          have notPad : s ≠ '=' := fun same => pad_not_mem (same ▸ symbols s (by simp))
          have restSymbols : ∀ c ∈ rest, c ∈ alphabet := fun c isIn => symbols c (by simp [isIn])
          have restLength : rest.length = 4 * groups := by
            simp only [List.length_cons] at length
            omega
          obtain ⟨others, othersRead, size⟩ := ih (offset + 4) restSymbols restLength
          refine ⟨UInt8.ofNat (first * 4 + second / 16) ::
            UInt8.ofNat (second % 16 * 16 + third / 4) ::
              UInt8.ofNat (third % 4 * 64 + fourth) :: others, ?_, ?_⟩
          · rw [decodeFrom, firstRead, secondRead, thirdRead, fourthRead, othersRead]
            simp only [bind, Except.bind, notPad, false_and, if_false]
          · simp only [List.length_cons, size]
            omega

theorem standard_decodesGroups : standard.DecodesGroups :=
  fun groups _ symbols length => decodeFrom_symbols groups 0 symbols length

end RealityHydra.Lib.Base64
