import RealityHydra.PoolEngine.Load

/-!
# Which texts are hexadecimal

`decode_hex` works on the bytes of a text of any characters.  It accepts an even
number of hexadecimal digits between whitespace, and none of its subtractions
and indexings can panic.
-/

set_option autoImplicit false

namespace RealityHydra.PoolEngine

open RealityHydra.Lib.ByteCodec
open RealityHydra.Lib.Text
open RealityHydra.Lib.Traversal

/-! ## Overflow and indexing -/

/-- `none` is a panic. -/
def checkedSub (left right : UInt8) : Option UInt8 :=
  if right ≤ left then some (left - right) else none

def checkedAdd (left right : UInt8) : Option UInt8 :=
  if left.toNat + right.toNat < 256 then some (left + right) else none

/-- A digit's value, from the first digit of its range and that one's value. -/
def offsetFrom (c first value : UInt8) : Option UInt8 :=
  (checkedSub c first).bind fun offset => checkedAdd offset value

def nibbleChecked (c : UInt8) : Option (Except String UInt8) :=
  if 0x30 ≤ c ∧ c ≤ 0x39 then (checkedSub c 0x30).map .ok
  else if 0x61 ≤ c ∧ c ≤ 0x66 then (offsetFrom c 0x61 10).map .ok
  else if 0x41 ≤ c ∧ c ≤ 0x46 then (offsetFrom c 0x41 10).map .ok
  else some (.error ("invalid hex char " ++ debugChar c))

/-- `chunks_exact`, which leaves out a rest shorter than a chunk. -/
def chunksExact (size fuel : Nat) (bytes : Bytes) : List Bytes :=
  match fuel with
  | 0 => []
  | fuel + 1 =>
      if bytes.length < size then []
      else bytes.take size :: chunksExact size fuel (bytes.drop size)

/-- `(nibble(pair[0])? << 4) | nibble(pair[1])?`. -/
def pairByte (pair : Bytes) : Option (Except String UInt8) := do
  match ← nibbleChecked (← pair[0]?) with
  | .error reason => some (.error reason)
  | .ok high =>
      match ← nibbleChecked (← pair[1]?) with
      | .error reason => some (.error reason)
      | .ok low => some (.ok (high <<< 4 ||| low))

/-- The loop over the chunks, `out` having been pushed. -/
def pushPairs (out : Bytes) : List Bytes → Option (Except String Bytes)
  | [] => some (.ok out)
  | pair :: rest => do
      match ← pairByte pair with
      | .error reason => some (.error reason)
      | .ok byte => pushPairs (out ++ [byte]) rest

def decodeHexChecked (s : String) : Option (Except String Bytes) :=
  let bytes := utf8Bytes (trimmed s)
  if bytes.length % 2 ≠ 0 then
    some (.error ("odd length (" ++ toString bytes.length ++ " chars)"))
  else pushPairs [] (chunksExact 2 bytes.length bytes)

theorem nibbleChecked_eq (c : UInt8) : nibbleChecked c = some (nibble c) := by
  have bound := c.toNat_lt
  unfold nibbleChecked nibble
  split
  · rename_i digit
    rw [checkedSub, if_pos digit.1]
    rfl
  · split
    · rename_i lower
      have fits : (c - 0x61).toNat + (10 : UInt8).toNat < 256 := by
        rw [UInt8.toNat_sub_of_le _ _ lower.1]
        have upper : c.toNat ≤ 0x66 := lower.2
        simp
        omega
      rw [offsetFrom, checkedSub, if_pos lower.1, Option.bind_some, checkedAdd, if_pos fits]
      rfl
    · split
      · rename_i upper
        have fits : (c - 0x41).toNat + (10 : UInt8).toNat < 256 := by
          rw [UInt8.toNat_sub_of_le _ _ upper.1]
          have last : c.toNat ≤ 0x46 := upper.2
          simp
          omega
        rw [offsetFrom, checkedSub, if_pos upper.1, Option.bind_some, checkedAdd, if_pos fits]
        rfl
      · rfl

theorem pairByte_pair (high low : UInt8) :
    pairByte [high, low] = some (do .ok ((← nibble high) <<< 4 ||| (← nibble low))) := by
  simp only [pairByte, List.getElem?_cons_zero, List.getElem?_cons_succ, bind, Option.bind,
    nibbleChecked_eq]
  cases nibble high with
  | error reason => rfl
  | ok high =>
      cases nibble low with
      | error reason => rfl
      | ok low => rfl

/-- Nothing is left over of an even number of bytes. -/
theorem nil_of_even {bytes : Bytes} (even : bytes.length % 2 = 0)
    (short : ∀ high low rest, bytes = high :: low :: rest → False) : bytes = [] := by
  cases bytes with
  | nil => rfl
  | cons first others =>
      cases others with
      | nil => simp at even
      | cons second rest => exact (short first second rest rfl).elim

theorem pushPairs_chunksExact {fuel : Nat} {bytes : Bytes} (out : Bytes)
    (enough : bytes.length ≤ fuel) (even : bytes.length % 2 = 0) :
    pushPairs out (chunksExact 2 fuel bytes) =
      some (do .ok (out ++ (← decodePairs bytes))) := by
  induction bytes using decodePairs.induct generalizing out fuel with
  | case1 high low rest ih =>
      obtain ⟨left, rfl⟩ : ∃ left, fuel = left + 1 := ⟨fuel - 1, by simp at enough; omega⟩
      have others : ∀ out, pushPairs out (chunksExact 2 left rest) =
          some (do .ok (out ++ (← decodePairs rest))) := by
        intro out
        refine ih out ?_ ?_
        · simp only [List.length_cons] at enough
          omega
        · simp only [List.length_cons] at even
          omega
      have chunks : chunksExact 2 (left + 1) (high :: low :: rest) =
          [high, low] :: chunksExact 2 left rest := by
        simp [chunksExact]
      rw [chunks, pushPairs, pairByte_pair, decodePairs]
      simp only [bind, Option.bind, Except.bind]
      cases nibble high with
      | error reason => rfl
      | ok high =>
          cases nibble low with
          | error reason => rfl
          | ok low =>
              dsimp only
              rw [others]
              simp only [bind, Except.bind]
              cases decodePairs rest with
              | error reason => rfl
              | ok decoded => simp
  | case2 bytes short =>
      rw [nil_of_even even short]
      cases fuel <;> simp [chunksExact, pushPairs, decodePairs, bind, Except.bind]

/-- Nothing in the loop panics, whatever the text. -/
theorem decodeHexChecked_eq (s : String) : decodeHexChecked s = some (decodeHex s) := by
  unfold decodeHexChecked decodeHex
  dsimp only
  split
  · rfl
  · rename_i even
    rw [pushPairs_chunksExact [] (Nat.le_refl _) (not_not.mp even)]
    cases decodePairs (utf8Bytes (trimmed s)) <;> rfl

/-! ## Hexadecimal digits -/

def hexDigits : List Char := "0123456789abcdefABCDEF".toList

/-- An even number of hexadecimal digits. -/
def HexText (text : List Char) : Prop := text.length % 2 = 0 ∧ ∀ c ∈ text, c ∈ hexDigits

def hexValue (c : Char) : Nat :=
  let place := hexDigits.idxOf c
  if place < 16 then place else place - 6

/-- Each digit is one byte, and the lower-case digit of its value. -/
theorem hexDigits_read {c : Char} (digit : c ∈ hexDigits) : hexValue c < 16 ∧
    String.utf8EncodeChar c = [UInt8.ofNat c.toNat] ∧
    nibble (UInt8.ofNat c.toNat) = .ok (UInt8.ofNat (hexValue c)) ∧
    Nat.digitChar (hexValue c) = c.toLower := by
  have checks : hexDigits.all (fun c => hexValue c < 16 ∧
      String.utf8EncodeChar c = [UInt8.ofNat c.toNat] ∧
      nibble (UInt8.ofNat c.toNat) = .ok (UInt8.ofNat (hexValue c)) ∧
      Nat.digitChar (hexValue c) = c.toLower) = true := by
    decide +kernel
  exact of_decide_eq_true (List.all_eq_true.mp checks c digit)

theorem nibble_isOk : ∀ n < 256, (nibble (UInt8.ofNat n)).isOk = true →
    n < 128 ∧ Char.ofNat n ∈ hexDigits := by
  decide +kernel

theorem utf8Bytes_ofList (text : List Char) :
    utf8Bytes (String.ofList text) = text.flatMap String.utf8EncodeChar := by
  simp [utf8Bytes, List.utf8Encode]

theorem hexText_bytes {text : List Char} (digits : ∀ c ∈ text, c ∈ hexDigits) :
    text.flatMap String.utf8EncodeChar = text.map fun c => UInt8.ofNat c.toNat := by
  induction text with
  | nil => rfl
  | cons c rest ih =>
      obtain ⟨digit, others⟩ := List.forall_mem_cons.mp digits
      obtain ⟨_, coded, _⟩ := hexDigits_read digit
      rw [List.flatMap_cons, List.map_cons, coded, ih others]
      rfl

/-- The last byte of a longer encoding is no ASCII character. -/
theorem continuation_large (bits : UInt8) : ¬ (bits &&& 0x3F ||| 0x80).toNat < 128 := by
  have all : ∀ n < 256, ¬ (UInt8.ofNat n &&& 0x3F ||| 0x80).toNat < 128 := by decide +kernel
  have one := all bits.toNat bits.toNat_lt
  rwa [UInt8.ofNat_toNat] at one

theorem utf8EncodeChar_of_small {c : Char}
    (small : ∀ byte ∈ String.utf8EncodeChar c, byte.toNat < 128) :
    String.utf8EncodeChar c = [UInt8.ofNat c.toNat] ∧ c.toNat < 128 := by
  have most := c.utf8Size_le_four
  have least := c.utf8Size_pos
  obtain one | two | three | four :
      c.utf8Size = 1 ∨ c.utf8Size = 2 ∨ c.utf8Size = 3 ∨ c.utf8Size = 4 := by
    omega
  · refine ⟨String.utf8EncodeChar_eq_singleton one, ?_⟩
    have upper := Char.utf8Size_eq_one_iff.mp one
    exact Nat.lt_succ_of_le upper
  · rw [String.utf8EncodeChar_eq_cons_cons two] at small
    exact absurd (small _ (List.mem_of_getLast? rfl)) (continuation_large _)
  · rw [String.utf8EncodeChar_eq_cons_cons_cons three] at small
    exact absurd (small _ (List.mem_of_getLast? rfl)) (continuation_large _)
  · rw [String.utf8EncodeChar_eq_cons_cons_cons_cons four] at small
    exact absurd (small _ (List.mem_of_getLast? rfl)) (continuation_large _)

theorem decodePairs_nibbles {bytes decoded : Bytes} (even : bytes.length % 2 = 0)
    (read : decodePairs bytes = .ok decoded) : ∀ byte ∈ bytes, (nibble byte).isOk = true := by
  induction bytes using decodePairs.induct generalizing decoded with
  | case1 high low rest ih =>
      obtain ⟨first, highRead, read⟩ := bind_ok_iff.mp read
      obtain ⟨second, lowRead, read⟩ := bind_ok_iff.mp read
      obtain ⟨others, restRead, _⟩ := bind_ok_iff.mp read
      have later := ih (by simp only [List.length_cons] at even; omega) restRead
      exact List.forall_mem_cons.mpr
        ⟨by rw [highRead]; rfl, List.forall_mem_cons.mpr ⟨by rw [lowRead]; rfl, later⟩⟩
  | case2 bytes short =>
      rw [nil_of_even even short]
      simp

theorem decodeHex_ok {s : String} {decoded : Bytes} (read : decodeHex s = .ok decoded) :
    (utf8Bytes (trimmed s)).length % 2 = 0 ∧
      decodePairs (utf8Bytes (trimmed s)) = .ok decoded := by
  rw [decodeHex] at read
  split at read
  · contradiction
  · rename_i even
    exact ⟨not_not.mp even, read⟩

theorem hexText_of_decodeHex {s : String} {decoded : Bytes} (read : decodeHex s = .ok decoded) :
    HexText (trim isWhitespace s.toList) := by
  obtain ⟨even, pairs⟩ := decodeHex_ok read
  have nibbles := decodePairs_nibbles even pairs
  rw [trimmed, utf8Bytes_ofList] at even nibbles
  have digits : ∀ c ∈ trim isWhitespace s.toList, c ∈ hexDigits := by
    intro c isIn
    have valid : ∀ byte ∈ String.utf8EncodeChar c,
        byte.toNat < 128 ∧ Char.ofNat byte.toNat ∈ hexDigits := by
      intro byte isByte
      have isOk := nibbles byte (List.mem_flatMap.mpr ⟨c, isIn, isByte⟩)
      exact nibble_isOk byte.toNat byte.toNat_lt (by rwa [UInt8.ofNat_toNat])
    obtain ⟨coded, small⟩ := utf8EncodeChar_of_small fun byte isByte => (valid byte isByte).1
    have isDigit := (valid _ (by rw [coded]; exact List.mem_singleton_self _)).2
    have same : (UInt8.ofNat c.toNat).toNat = c.toNat :=
      UInt8.toNat_ofNat_of_lt' (Nat.lt_trans small (by decide))
    rwa [same, Char.ofNat_toNat] at isDigit
  refine ⟨?_, digits⟩
  rwa [hexText_bytes digits, List.length_map] at even

end RealityHydra.PoolEngine
