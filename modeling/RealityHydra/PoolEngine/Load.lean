import RealityHydra.Lib.Text
import RealityHydra.Lib.Traversal
import RealityHydra.PoolEngine.Sampler

/-!
# Loading a configuration

The configuration both sides share, and the checks between the document's fields
and it, in the order the loader makes them.  Base64 comes from a library.
-/

set_option autoImplicit false

namespace RealityHydra.PoolEngine

open RealityHydra.Lib.Base64
open RealityHydra.Lib.ByteCodec
open RealityHydra.Lib.ComparatorSort
open RealityHydra.Lib.Text
open RealityHydra.Lib.Traversal

def secretLen : Nat := 32

def realityKeyLen : Nat := 32

structure RealitySettings where
  privateKey : Option (Vector UInt8 realityKeyLen)
  publicKey : Vector UInt8 realityKeyLen
  shortIds : List Bytes
  fingerprint : String
  deriving DecidableEq, Repr

structure HydraConfig where
  masterSecret : Vector UInt8 secretLen
  serverSalt : Vector UInt8 saltLen
  epochLen : Duration
  activeK : Nat
  masterList : MasterList
  dest : Option String
  coherenceCidrs : List String
  reality : Option RealitySettings
  serverAddr : Option String
  certPin : Option (Vector UInt8 32)
  /-- `active_k` of zero is refused. -/
  activeK_pos : 0 < activeK

section Pools

variable {Draw K : Type} [LinearOrder K] (keying : Keying Draw K) (cfg : HydraConfig)

def HydraConfig.subsetAt (epoch : Epoch) : ActivePool :=
  keyedEpochSubset keying cfg.masterSecret.toList cfg.serverSalt cfg.masterList epoch
    cfg.activeK

end Pools

def maxShortIdLen : Nat := 32

def expectedFormat : String := "hydra-pool-v1"

example : fromUtf8 domainTag = some expectedFormat := fromUtf8_utf8Bytes expectedFormat

structure RawReality where
  privateKey : Option String
  publicKey : String
  shortIds : List String
  fingerprint : String
  deriving DecidableEq, Repr

structure RawConfig where
  masterSecret : String
  serverSalt : String
  poolFormat : String
  epochLen : String
  activeK : Nat
  dest : Option String
  coherenceCidrs : List String
  pool : List PoolEntry
  reality : Option RawReality
  serverAddr : Option String
  certPin : Option String
  deriving DecidableEq, Repr

/-- Why loading ends without a configuration. -/
inductive Stop where
  | rejected (error : PoolError)
  | panicked
  deriving DecidableEq, Repr

/-- `char::is_whitespace`, the characters with the White_Space property. -/
def isWhitespace (c : Char) : Bool :=
  let n := c.toNat
  (0x09 ≤ n && n ≤ 0x0D) || n = 0x20 || n = 0x85 || n = 0xA0 || n = 0x1680 ||
    (0x2000 ≤ n && n ≤ 0x200A) || n = 0x2028 || n = 0x2029 || n = 0x202F || n = 0x205F ||
    n = 0x3000

def trimmed (value : String) : String := String.ofList (trim isWhitespace value.toList)

/-! ## Base64 and hexadecimal fields -/

/-- `try_into` an array. -/
def exactArray (n : Nat) (mismatch : Nat → PoolError) (bytes : Bytes) :
    Except PoolError (Vector UInt8 n) :=
  if exact : bytes.length = n then .ok ⟨bytes.toArray, by simp [exact]⟩
  else .error (mismatch bytes.length)

theorem exactArray_ok_iff {n : Nat} {mismatch : Nat → PoolError} {bytes : Bytes}
    {octets : Vector UInt8 n} :
    exactArray n mismatch bytes = .ok octets ↔ bytes = octets.toList := by
  unfold exactArray
  split
  · rename_i exact
    rw [Except.ok.injEq]
    refine ⟨?_, ?_⟩
    · intro same
      cases same
      rfl
    · intro same
      cases same
      rfl
  · rename_i inexact
    refine iff_of_false (by simp) ?_
    intro same
    cases same
    exact inexact Vector.length_toList

section Fields

variable (base64 : Engine)

def decodeB64 (field value : String) : Except PoolError Bytes :=
  let body := (value.toList.dropPrefix? "base64:".toList).getD value.toList
  (base64.decode (trim isWhitespace body)).mapError (.base64 field)

def decodeKey (field value : String) : Except PoolError (Vector UInt8 realityKeyLen) := do
  let bytes ← decodeB64 base64 field value
  exactArray realityKeyLen (.badRealityKeyLen field realityKeyLen) bytes

/-- The characters below U+0100 that `Debug` prints as they are. -/
def printable (byte : UInt8) : Bool :=
  (0x20 ≤ byte && byte < 0x7F) || (0xA1 ≤ byte && byte ≠ 0xAD)

/-- `{:?}` of `byte as char`. -/
def debugChar (byte : UInt8) : String :=
  let body :=
    if byte = 0x00 then "\\0"
    else if byte = 0x09 then "\\t"
    else if byte = 0x0A then "\\n"
    else if byte = 0x0D then "\\r"
    else if byte = 0x27 then "\\'"
    else if byte = 0x5C then "\\\\"
    else if printable byte then String.singleton (Char.ofNat byte.toNat)
    else "\\u\x7b" ++ String.ofList (Nat.toDigits 16 byte.toNat) ++ "\x7d"
  "'" ++ body ++ "'"

def nibble (c : UInt8) : Except String UInt8 :=
  if 0x30 ≤ c ∧ c ≤ 0x39 then .ok (c - 0x30)
  else if 0x61 ≤ c ∧ c ≤ 0x66 then .ok (c - 0x61 + 10)
  else if 0x41 ≤ c ∧ c ≤ 0x46 then .ok (c - 0x41 + 10)
  else .error ("invalid hex char " ++ debugChar c)

/-- `bytes.chunks_exact(2)`. -/
def decodePairs : Bytes → Except String Bytes
  | high :: low :: rest => do
      let high ← nibble high
      let low ← nibble low
      let others ← decodePairs rest
      .ok ((high <<< 4 ||| low) :: others)
  | _ => .ok []

def decodeHex (s : String) : Except String Bytes :=
  let bytes := utf8Bytes (trimmed s)
  if bytes.length % 2 ≠ 0 then .error ("odd length (" ++ toString bytes.length ++ " chars)")
  else decodePairs bytes

/-- The `short_ids` loop, from element `index` on. -/
def decodeShortIds (index : Nat) : List String → Except PoolError (List Bytes)
  | [] => .ok []
  | hex :: rest => do
      let bytes ← (decodeHex hex).mapError (.badShortIdHex index)
      if maxShortIdLen < bytes.length then .error (.shortIdTooLong index bytes.length)
      else
        let others ← decodeShortIds (index + 1) rest
        .ok (bytes :: others)

def RawReality.intoSettings (raw : RawReality) : Except PoolError RealitySettings := do
  let publicKey ← decodeKey base64 "public_key" raw.publicKey
  let privateKey ← raw.privateKey.mapM (decodeKey base64 "private_key")
  let shortIds ← decodeShortIds 0 raw.shortIds
  .ok { privateKey, publicKey, shortIds, fingerprint := raw.fingerprint }

def decodePin (value : String) : Except PoolError (Vector UInt8 32) := do
  let bytes ← decodeB64 base64 "cert_pin" value
  exactArray 32 (.badCertPinLen 32) bytes

end Fields

/-! ## Durations -/

def decimalDigit (c : Char) : Option Nat :=
  if '0' ≤ c ∧ c ≤ '9' then some (c.toNat - '0'.toNat) else none

/-- The digit loop of `u64::from_str`, `value` having been read; `none` on
overflow. -/
def parseDigits (value : Nat) : List Char → Option Nat
  | [] => some value
  | c :: rest =>
      (decimalDigit c).bind fun digit =>
        let next := value * 10 + digit
        if next < 2 ^ 64 then parseDigits next rest else none

/-- `u64::from_str`. -/
def parseU64 (text : List Char) : Option Nat :=
  let digits := (text.dropPrefix? ['+']).getD text
  if digits = [] then none else parseDigits 0 digits

def checkedMul (left right : Nat) : Option Nat :=
  if left * right < 2 ^ 64 then some (left * right) else none

def unitSecs (unit : Char) (n : Nat) : Option Nat :=
  if unit = 'h' then checkedMul n 3600
  else if unit = 'm' then checkedMul n 60
  else if unit = 's' then some n
  else none

/-- `split_at(len - 1)` panics inside a character of several bytes. -/
def parseDuration (value : String) : Except Stop Duration :=
  let s := trim isWhitespace value.toList
  let bad := Stop.rejected (.badDuration (String.ofList s))
  match s.getLast? with
  | none => .error bad
  | some unit =>
      if unit.utf8Size ≠ 1 then .error .panicked
      else
        match (parseU64 s.dropLast).bind (unitSecs unit) with
        | some secs => .ok ⟨UInt64.ofNat secs, 0⟩
        | none => .error bad

/-- A character of an accepted duration. -/
def DurationChar (c : Char) : Prop :=
  isWhitespace c = true ∨ c = '+' ∨ (∃ digit, decimalDigit c = some digit) ∨
    c = 'h' ∨ c = 'm' ∨ c = 's'

theorem parseDigits_chars {chars : List Char} {value result : Nat}
    (read : parseDigits value chars = some result) :
    ∀ c ∈ chars, ∃ digit, decimalDigit c = some digit := by
  induction chars generalizing value with
  | nil => simp
  | cons c rest ih =>
      obtain ⟨digit, isDigit, read⟩ := Option.bind_eq_some_iff.mp read
      dsimp only at read
      split at read
      · exact List.forall_mem_cons.mpr ⟨⟨digit, isDigit⟩, ih read⟩
      · contradiction

theorem parseU64_chars {text : List Char} {result : Nat} (read : parseU64 text = some result) :
    ∀ c ∈ text, c = '+' ∨ ∃ digit, decimalDigit c = some digit := by
  rw [parseU64] at read
  split at read
  · contradiction
  · have digits := parseDigits_chars read
    cases signed : text.dropPrefix? ['+'] with
    | none =>
        rw [signed] at digits
        exact fun c isIn => Or.inr (digits c isIn)
    | some rest =>
        rw [signed] at digits
        obtain ⟨front, rfl, plus⟩ := List.dropPrefix?_eq_some_iff.mp signed
        rw [beq_iff_eq.mp plus]
        exact List.forall_mem_cons.mpr ⟨Or.inl rfl, fun c isIn => Or.inr (digits c isIn)⟩

theorem unitSecs_unit {unit : Char} {n secs : Nat} (known : unitSecs unit n = some secs) :
    unit = 'h' ∨ unit = 'm' ∨ unit = 's' := by
  rw [unitSecs] at known
  split at known
  · rename_i isHour
    exact Or.inl isHour
  · split at known
    · rename_i isMinute
      exact Or.inr (Or.inl isMinute)
    · split at known
      · rename_i isSecond
        exact Or.inr (Or.inr isSecond)
      · contradiction

theorem parseDuration_chars {value : String} {length : Duration}
    (read : parseDuration value = .ok length) :
    value.toList ≠ [] ∧ ∀ c ∈ value.toList, DurationChar c := by
  rw [parseDuration] at read
  split at read
  · contradiction
  · rename_i unit last
    split at read
    · contradiction
    · split at read
      · rename_i secs known
        obtain ⟨n, number, isUnit⟩ := Option.bind_eq_some_iff.mp known
        have trimmed := List.dropLast_append_getLast? unit last
        refine ⟨?_, ?_⟩
        · intro empty
          rw [empty] at last
          contradiction
        · intro c isIn
          have inside : c ∈ trim isWhitespace value.toList ∨ isWhitespace c = true :=
            mem_trim_or isIn
          rcases inside with kept | space
          · rw [← trimmed] at kept
            rcases List.mem_append.mp kept with inNumber | inUnit
            · rcases parseU64_chars number c inNumber with plus | digit
              · exact Or.inr (Or.inl plus)
              · exact Or.inr (Or.inr (Or.inl digit))
            · rw [List.mem_singleton.mp inUnit]
              exact Or.inr (Or.inr (Or.inr (unitSecs_unit isUnit)))
          · exact Or.inl space
      · contradiction

/-! ## The configuration -/

section Config

variable (base64 : Engine)

def checked {α : Type} (result : Except PoolError α) : Except Stop α :=
  result.mapError .rejected

def RawConfig.intoConfig (raw : RawConfig) : Except Stop HydraConfig :=
  if raw.poolFormat ≠ expectedFormat then
    .error (.rejected (.unsupportedFormat raw.poolFormat expectedFormat))
  else do
    let secretBytes ← checked (decodeB64 base64 "master_secret" raw.masterSecret)
    let masterSecret ← checked
      (exactArray secretLen (.badSecretLen secretLen) secretBytes)
    let saltBytes ← checked (decodeB64 base64 "server_salt" raw.serverSalt)
    let serverSalt ← checked (exactArray saltLen (.badSaltLen saltLen) saltBytes)
    if zero : raw.activeK = 0 then .error (.rejected .zeroK)
    else
      let epochLen ← parseDuration raw.epochLen
      let masterList ← checked (MasterList.new raw.pool)
      let reality ← checked (raw.reality.mapM (RawReality.intoSettings base64))
      let certPin ← checked (raw.certPin.mapM (decodePin base64))
      .ok
        { masterSecret, serverSalt, epochLen, activeK := raw.activeK, masterList,
          dest := raw.dest, coherenceCidrs := raw.coherenceCidrs, reality,
          serverAddr := raw.serverAddr, certPin, activeK_pos := Nat.pos_of_ne_zero zero }

/-- What each field of an accepted document says of the configuration. -/
structure RawConfig.Loads (raw : RawConfig) (cfg : HydraConfig) : Prop where
  format : raw.poolFormat = expectedFormat
  secret : decodeB64 base64 "master_secret" raw.masterSecret = .ok cfg.masterSecret.toList
  salt : decodeB64 base64 "server_salt" raw.serverSalt = .ok cfg.serverSalt.toList
  activeK : cfg.activeK = raw.activeK
  epochLen : parseDuration raw.epochLen = .ok cfg.epochLen
  masterList : MasterList.new raw.pool = .ok cfg.masterList
  reality : Option.Rel (fun raw settings => raw.intoSettings base64 = .ok settings)
    raw.reality cfg.reality
  certPin : Option.Rel (fun text pin => decodePin base64 text = .ok pin)
    raw.certPin cfg.certPin
  dest : cfg.dest = raw.dest
  coherenceCidrs : cfg.coherenceCidrs = raw.coherenceCidrs
  serverAddr : cfg.serverAddr = raw.serverAddr

variable {base64}

theorem checked_ok_iff {α : Type} {result : Except PoolError α} {value : α} :
    checked result = .ok value ↔ result = .ok value :=
  mapError_ok_iff

theorem RawConfig.intoConfig_ok_iff {raw : RawConfig} {cfg : HydraConfig} :
    raw.intoConfig base64 = .ok cfg ↔ raw.Loads base64 cfg := by
  unfold RawConfig.intoConfig
  split
  · rename_i other
    refine iff_of_false (by simp) ?_
    intro loads
    exact other loads.format
  · rename_i format
    simp only [bind_ok_iff, checked_ok_iff, exactArray_ok_iff]
    refine ⟨?_, ?_⟩
    · intro accepted
      obtain ⟨_, secret, masterSecret, rfl, _, salt, serverSalt, rfl, rest⟩ := accepted
      split at rest
      · contradiction
      · simp only [bind_ok_iff, checked_ok_iff, optionMapM_ok_iff] at rest
        obtain ⟨epochLen, length, masterList, listed, reality, keys, certPin, pin, same⟩ := rest
        cases same
        exact ⟨not_not.mp format, secret, salt, rfl, length, listed, keys, pin, rfl, rfl, rfl⟩
    · intro loads
      have positive : raw.activeK ≠ 0 := by
        rw [← loads.activeK]
        exact Nat.ne_of_gt cfg.activeK_pos
      refine ⟨_, loads.secret, _, rfl, _, loads.salt, _, rfl, ?_⟩
      rw [dif_neg positive]
      simp only [bind_ok_iff, checked_ok_iff, optionMapM_ok_iff]
      refine ⟨_, loads.epochLen, _, loads.masterList, _, loads.reality, _, loads.certPin, ?_⟩
      obtain ⟨_, _, _, sameK, _, _, _, _, sameDest, sameCidrs, sameAddr⟩ := loads
      cases cfg
      dsimp only at sameK sameDest sameCidrs sameAddr
      subst sameK sameDest sameCidrs sameAddr
      rfl

/-- The check of `epoch_len` is reached once the fields before it pass. -/
theorem RawConfig.intoConfig_of_duration {raw : RawConfig} {masterSecret : Vector UInt8 secretLen}
    {serverSalt : Vector UInt8 saltLen} {stop : Stop} (format : raw.poolFormat = expectedFormat)
    (secret : decodeB64 base64 "master_secret" raw.masterSecret = .ok masterSecret.toList)
    (salt : decodeB64 base64 "server_salt" raw.serverSalt = .ok serverSalt.toList)
    (nonzero : raw.activeK ≠ 0) (unknown : parseDuration raw.epochLen = .error stop) :
    raw.intoConfig base64 = .error stop := by
  have secretExact : exactArray secretLen (.badSecretLen secretLen) masterSecret.toList =
      .ok masterSecret := exactArray_ok_iff.mpr rfl
  have saltExact : exactArray saltLen (.badSaltLen saltLen) serverSalt.toList = .ok serverSalt :=
    exactArray_ok_iff.mpr rfl
  rw [RawConfig.intoConfig, if_neg (not_not.mpr format)]
  simp only [secret, secretExact, salt, saltExact, checked, Except.mapError, bind, Except.bind]
  rw [dif_neg nonzero, unknown]

/-! ## What an accepted document guarantees -/

theorem decodeShortIds_short {ids : List String} {decoded : List Bytes} (index : Nat)
    (accepted : decodeShortIds index ids = .ok decoded) :
    ∀ shortId ∈ decoded, shortId.length ≤ maxShortIdLen := by
  induction ids generalizing index decoded with
  | nil =>
      cases accepted
      simp
  | cons hex rest ih =>
      obtain ⟨bytes, _, accepted⟩ := bind_ok_iff.mp accepted
      split at accepted
      · contradiction
      · rename_i short
        obtain ⟨others, later, same⟩ := bind_ok_iff.mp accepted
        cases same
        intro shortId isIn
        rcases List.mem_cons.mp isIn with rfl | isLater
        · exact Nat.le_of_not_lt short
        · exact ih (index + 1) later shortId isLater

theorem RawReality.intoSettings_shortIds {raw : RawReality} {settings : RealitySettings}
    (accepted : raw.intoSettings base64 = .ok settings) :
    ∀ shortId ∈ settings.shortIds, shortId.length ≤ maxShortIdLen := by
  simp only [RawReality.intoSettings, bind_ok_iff] at accepted
  obtain ⟨publicKey, _, privateKey, _, shortIds, decoded, same⟩ := accepted
  cases same
  exact decodeShortIds_short 0 decoded

theorem RawConfig.Loads.shortIds {raw : RawConfig} {cfg : HydraConfig}
    (loads : raw.Loads base64 cfg) {settings : RealitySettings}
    (present : cfg.reality = some settings) :
    ∀ shortId ∈ settings.shortIds, shortId.length ≤ maxShortIdLen := by
  have reality := loads.reality
  cases document : raw.reality with
  | none =>
      rw [document, present] at reality
      exact (Option.not_rel_none_some reality).elim
  | some rawReality =>
      rw [document, present, Option.rel_some_some] at reality
      exact RawReality.intoSettings_shortIds reality

theorem RawConfig.Loads.entries {raw : RawConfig} {cfg : HydraConfig}
    (loads : raw.Loads base64 cfg) :
    Acceptable raw.pool ∧ cfg.masterList.entries = sortBy bySni raw.pool :=
  (MasterList.new_ok_iff ..).mp loads.masterList

end Config

end RealityHydra.PoolEngine
