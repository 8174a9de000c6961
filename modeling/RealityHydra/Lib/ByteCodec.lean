import Mathlib.Data.List.Basic
import Mathlib.Data.Nat.Basic
import Mathlib.Tactic.Ring

/-!
# Fixed-width integers, slices and UTF-8 text over byte lists

Positional byte strings of any width, in both byte orders, with the two round
trips; the window a half-open index range cuts out of an appended buffer; the
correspondence between a string and the bytes it is stored as; and codes of which
two words that begin the same text are words for the same value.
-/

set_option autoImplicit false

namespace RealityHydra.Lib.ByteCodec

abbrev Bytes := List UInt8

/-! ## Positional integers -/

/-- The `width` low-order bytes of `value`, least significant first. -/
def leBytes : Nat → Nat → Bytes
  | 0, _ => []
  | width + 1, value => UInt8.ofNat value :: leBytes width (value / 256)

def leValue : Bytes → Nat
  | [] => 0
  | byte :: rest => byte.toNat + 256 * leValue rest

def beBytes (width value : Nat) : Bytes := (leBytes width value).reverse

def beValue (bytes : Bytes) : Nat := leValue bytes.reverse

@[simp] theorem leBytes_length (width value : Nat) :
    (leBytes width value).length = width := by
  induction width generalizing value with
  | zero => rfl
  | succ width ih => simp [leBytes, ih]

@[simp] theorem beBytes_length (width value : Nat) :
    (beBytes width value).length = width := by
  simp [beBytes]

theorem leValue_lt (bytes : Bytes) : leValue bytes < 256 ^ bytes.length := by
  induction bytes with
  | nil => simp [leValue]
  | cons byte rest ih =>
      have small : byte.toNat < 256 := byte.toNat_lt
      simp only [leValue, List.length_cons, pow_succ]
      omega

theorem leValue_leBytes (width value : Nat) (fits : value < 256 ^ width) :
    leValue (leBytes width value) = value := by
  induction width generalizing value with
  | zero =>
      simp only [pow_zero] at fits
      simp only [leBytes, leValue]
      omega
  | succ width ih =>
      have quotientFits : value / 256 < 256 ^ width := by
        rw [pow_succ] at fits
        omega
      simp only [leBytes, leValue, ih _ quotientFits, UInt8.toNat_ofNat']
      omega

theorem leBytes_leValue (bytes : Bytes) :
    leBytes bytes.length (leValue bytes) = bytes := by
  induction bytes with
  | nil => rfl
  | cons byte rest ih =>
      have small : byte.toNat < 256 := byte.toNat_lt
      have quotient : (byte.toNat + 256 * leValue rest) / 256 = leValue rest := by
        omega
      have lowByte : UInt8.ofNat (byte.toNat + 256 * leValue rest) = byte := by
        apply UInt8.toNat_inj.mp
        rw [UInt8.toNat_ofNat']
        omega
      simp only [leBytes, leValue, List.length_cons, quotient, lowByte, ih]

theorem leBytes_injective {width left right : Nat}
    (leftFits : left < 256 ^ width) (rightFits : right < 256 ^ width)
    (same : leBytes width left = leBytes width right) : left = right := by
  have values := congrArg leValue same
  rwa [leValue_leBytes width left leftFits,
    leValue_leBytes width right rightFits] at values

theorem beValue_lt (bytes : Bytes) : beValue bytes < 256 ^ bytes.length := by
  simpa [beValue] using leValue_lt bytes.reverse

theorem beValue_beBytes (width value : Nat) (fits : value < 256 ^ width) :
    beValue (beBytes width value) = value := by
  simp [beValue, beBytes, leValue_leBytes width value fits]

theorem beBytes_beValue (bytes : Bytes) :
    beBytes bytes.length (beValue bytes) = bytes := by
  have reversed := leBytes_leValue bytes.reverse
  rw [List.length_reverse] at reversed
  rw [beBytes, beValue, reversed, List.reverse_reverse]

/-- Two bytes survive the 16-bit integer they spell. -/
theorem beBytes_ofNat_beValue (bytes : Bytes) (width : bytes.length = 2) :
    beBytes 2 (UInt16.ofNat (beValue bytes)).toNat = bytes := by
  have bounded : beValue bytes < 2 ^ 16 := by
    have small := beValue_lt bytes
    rw [width] at small
    omega
  rw [UInt16.toNat_ofNat_of_lt' bounded]
  simpa only [width] using beBytes_beValue bytes

/-! ## Slices -/

section Slices
variable {α : Type}

/-- `buffer[start..stop]`. -/
def slice (buffer : List α) (start stop : Nat) : List α :=
  (buffer.drop start).take (stop - start)

theorem slice_length (buffer : List α) (start stop : Nat)
    (inside : stop ≤ buffer.length) :
    (slice buffer start stop).length = stop - start := by
  simp only [slice, List.length_take, List.length_drop]
  omega

/-- The bytes after a prefix are found at the prefix's length. -/
theorem slice_append (before middle after : List α) (start stop : Nat)
    (atStart : start = before.length)
    (atStop : stop = before.length + middle.length) :
    slice (before ++ (middle ++ after)) start stop = middle := by
  subst atStart
  subst atStop
  simp [slice]

/-- Only the first `stop` entries matter. -/
theorem slice_take (buffer : List α) {start stop total : Nat}
    (inside : stop ≤ total) :
    slice (buffer.take total) start stop = slice buffer start stop := by
  simp only [slice, List.drop_take, List.take_take]
  congr 1
  omega

theorem slice_zero (buffer : List α) (stop : Nat) :
    slice buffer 0 stop = buffer.take stop := by
  simp [slice]

theorem slice_split (buffer : List α) {start middle stop : Nat}
    (lower : start ≤ middle) (upper : middle ≤ stop) :
    slice buffer start stop =
      slice buffer start middle ++ slice buffer middle stop := by
  have total : stop - start = (middle - start) + (stop - middle) := by omega
  have shifted : start + (middle - start) = middle := by omega
  simp only [slice]
  rw [total, List.take_add, List.drop_drop, shifted]

theorem slice_cons (buffer : List α) {start stop : Nat}
    (inside : start < buffer.length) (nonempty : start < stop) :
    slice buffer start stop = buffer[start] :: slice buffer (start + 1) stop := by
  have total : stop - start = (stop - (start + 1)) + 1 := by omega
  simp only [slice]
  rw [List.drop_eq_getElem_cons inside, total, List.take_succ_cons]

end Slices

/-! ## Reads of single bytes and of arrays -/

/-- `buf[index]`; callers check the bound first. -/
def byteAt (buf : Bytes) (index : Nat) : UInt8 := buf.getD index 0

/-- The array copied out of `buf[start..start + n]`. -/
def copyArray (n : Nat) (buf : Bytes) (start : Nat) : Vector UInt8 n :=
  Vector.ofFn fun index => byteAt buf (start + index.val)

theorem byteAt_eq_getElem (buf : Bytes) {index : Nat}
    (inside : index < buf.length) : byteAt buf index = buf[index] := by
  simp [byteAt, inside]

theorem copyArray_toList (n : Nat) (buf : Bytes) (start : Nat)
    (inside : start + n ≤ buf.length) :
    (copyArray n buf start).toList = slice buf start (start + n) := by
  have sliceLength := slice_length buf start (start + n) inside
  apply List.ext_getElem
  · rw [Vector.length_toList, sliceLength]
    omega
  · intro index left right
    rw [Vector.length_toList] at left
    simp only [copyArray, slice, Vector.getElem_toList, Vector.getElem_ofFn,
      List.getElem_take, List.getElem_drop]
    exact byteAt_eq_getElem buf (by omega)

theorem slice_eq_byte_cons (buf : Bytes) {start stop : Nat}
    (inside : start < buf.length) (nonempty : start < stop) :
    slice buf start stop = byteAt buf start :: slice buf (start + 1) stop := by
  rw [slice_cons buf inside nonempty, byteAt_eq_getElem buf inside]

theorem byteAt_take (buf : Bytes) {index total : Nat} (inside : index < total) :
    byteAt (buf.take total) index = byteAt buf index := by
  simp [byteAt, inside]

theorem copyArray_take (n : Nat) (buf : Bytes) {start total : Nat}
    (inside : start + n ≤ total) :
    copyArray n (buf.take total) start = copyArray n buf start := by
  unfold copyArray
  congr 1
  funext index
  exact byteAt_take buf (by omega)

theorem byteAt_append (before after : Bytes) (byte : UInt8) (index : Nat)
    (atIndex : index = before.length) :
    byteAt (before ++ byte :: after) index = byte := by
  subst atIndex
  simp [byteAt]

theorem copyArray_append {n : Nat} (before after : Bytes)
    (octets : Vector UInt8 n) (start : Nat) (atStart : start = before.length) :
    copyArray n (before ++ (octets.toList ++ after)) start = octets := by
  apply Vector.toList_inj.mp
  rw [copyArray_toList n _ start (by simp [atStart])]
  exact slice_append before octets.toList after start (start + n) atStart
    (by rw [Vector.length_toList, atStart])

/-! ## Text -/

def utf8Bytes (text : String) : Bytes := text.toByteArray.data.toList

/-- The string a byte sequence encodes, when it is well-formed UTF-8. -/
def fromUtf8 (bytes : Bytes) : Option String :=
  String.fromUTF8? ⟨bytes.toArray⟩

theorem fromUtf8_utf8Bytes (text : String) :
    fromUtf8 (utf8Bytes text) = some text := by
  have valid : ByteArray.IsValidUTF8 ⟨(utf8Bytes text).toArray⟩ := text.isValidUTF8
  simp only [fromUtf8, String.fromUTF8?, dif_pos valid]
  rfl

theorem utf8Bytes_of_fromUtf8 {bytes : Bytes} {text : String}
    (decoded : fromUtf8 bytes = some text) : utf8Bytes text = bytes := by
  simp only [fromUtf8, String.fromUTF8?] at decoded
  split at decoded
  · have textExact := Option.some.inj decoded
    subst textExact
    simp [utf8Bytes, String.fromUTF8]
  · contradiction

theorem utf8Bytes_injective {left right : String}
    (same : utf8Bytes left = utf8Bytes right) : left = right := by
  have decoded := congrArg fromUtf8 same
  rw [fromUtf8_utf8Bytes, fromUtf8_utf8Bytes] at decoded
  exact Option.some.inj decoded

/-- Two lower-case hexadecimal digits. -/
def hexByte (byte : UInt8) : String :=
  String.ofList [Nat.digitChar (byte.toNat / 16), Nat.digitChar (byte.toNat % 16)]

/-! ## Prefix-free codes -/

section Words

variable {α β σ : Type}

def PrefixFree (valid : α → Prop) (encode : α → List σ) : Prop :=
  ∀ first second, valid first → valid second → ∀ rest rest',
    encode first ++ rest = encode second ++ rest' → first = second ∧ rest = rest'

theorem PrefixFree.of_length {valid : α → Prop} {encode : α → List σ} (width : Nat)
    (length : ∀ value, (encode value).length = width)
    (injective : Function.Injective encode) : PrefixFree valid encode := by
  intro first second _ _ rest rest' same
  obtain ⟨words, rests⟩ := List.append_inj same (by rw [length, length])
  exact ⟨injective words, rests⟩

theorem PrefixFree.append {valid : α → Prop} {valid' : β → Prop} {encode : α → List σ}
    {encode' : β → List σ} (front : PrefixFree valid encode)
    (back : PrefixFree valid' encode') :
    PrefixFree (fun pair : α × β => valid pair.1 ∧ valid' pair.2)
      fun pair => encode pair.1 ++ encode' pair.2 := by
  intro first second isValid isValid' rest rest' same
  rw [List.append_assoc, List.append_assoc] at same
  obtain ⟨fronts, backs⟩ := front _ _ isValid.1 isValid'.1 _ _ same
  obtain ⟨seconds, rests⟩ := back _ _ isValid.2 isValid'.2 _ _ backs
  exact ⟨Prod.ext fronts seconds, rests⟩

theorem PrefixFree.eq_of_prefix {valid : α → Prop} {encode : α → List σ}
    (prefixFree : PrefixFree valid encode) {first second : α} (isValid : valid first)
    (isValid' : valid second) (prefixed : encode first <+: encode second) : first = second := by
  obtain ⟨rest, same⟩ := prefixed
  rw [← List.append_nil (encode second)] at same
  exact (prefixFree _ _ isValid isValid' _ _ same).1

end Words

end RealityHydra.Lib.ByteCodec
