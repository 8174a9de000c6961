import RealityHydra.HydraCli.LoadsBack
import RealityHydra.Lib.JsonText

/-!
# Keys from `hydra keygen`

The printed pair is meant for the `[reality]` section.  The loader reads its keys as
base64, and the other format the command offers is base64 as well, of another length.
-/

set_option autoImplicit false

namespace RealityHydra.HydraCli

open RealityHydra.Lib.Base64
open RealityHydra.Lib.ByteCodec
open RealityHydra.Lib.Json
open RealityHydra.Lib.Text
open RealityHydra.Lib.Traversal
open RealityHydra.PoolEngine

inductive KeyFormat where
  | base64
  | hex
  deriving DecidableEq, Repr, Inhabited

structure KeygenArgs where
  format : KeyFormat
  json : Bool
  deriving DecidableEq, Repr

def encode (base64 : Engine) (bytes : Bytes) : KeyFormat → String
  | .base64 => b64 base64 bytes
  | .hex => hex bytes

def privLabel : String := "privateKey (server realitySettings.privateKey):"

def pubLabel : String := "publicKey  (client pbk / [reality] public_key):"

/-- The command, given the pair that `generate_keypair` returns. -/
def runKeygen (codec : Codec) (base64 : Engine) (pair : Keypair) (args : KeygenArgs) :
    Except codec.Error String :=
  let privS := encode base64 pair.privateKey.toList args.format
  let pubS := encode base64 pair.publicKey.toList args.format
  if args.json then
    codec.toStringPretty (.ofFields [("privateKey", .string privS), ("publicKey", .string pubS)])
  else
    .ok (privLabel ++ "\n  " ++ privS ++ "\n" ++ pubLabel ++ "\n  " ++ pubS)

/-- The two keys, copied from the command's output. -/
def copiedKeys (codec : Codec) (args : KeygenArgs) (text : String) : Option (String × String) :=
  if args.json then
    match codec.fromStr text with
    | .ok value =>
        (value.index "privateKey").asStr.bind fun privS =>
          (value.index "publicKey").asStr.map fun pubS => (privS, pubS)
    | .error _ => none
  else
    match text.toList.splitOn '\n' with
    | [_, privLine, _, pubLine] =>
        some (String.ofList (privLine.drop 2), String.ofList (pubLine.drop 2))
    | _ => none

/-! ## What the loader makes of the keys -/

section Keys

variable {field : String} {key : Vector UInt8 realityKeyLen}

theorem decodeKey_base64 {base64 : Engine} (lawful : base64.Lawful) :
    decodeKey base64 field (encode base64 key.toList .base64) = .ok key :=
  bind_ok_iff.mpr ⟨_, decodeB64_encode lawful _ _, exactArray_ok_iff.mpr rfl⟩

theorem hexDigit_symbols : ∀ n < 16, Nat.digitChar n ∈ alphabet := by
  unfold alphabet
  decide

/-- Sixty-four symbols are forty-eight bytes. -/
theorem decodeKey_hex {base64 : Engine} (groups : base64.DecodesGroups) :
    decodeKey base64 field (encode base64 key.toList .hex) =
      .error (.badRealityKeyLen field 32 48) := by
  have length : (key.toList.flatMap hexByte).length = 4 * 16 := by
    have digits : ∀ bytes : Bytes, (bytes.flatMap hexByte).length = 2 * bytes.length := by
      intro bytes
      induction bytes with
      | nil => rfl
      | cons byte rest ih =>
          rw [List.flatMap_cons, List.length_append, ih, List.length_cons, hexByte]
          simp only [List.length_cons, List.length_nil]
          omega
    rw [digits, Vector.length_toList]
    rfl
  have symbols : ∀ c ∈ key.toList.flatMap hexByte, c ∈ alphabet := by
    intro c isIn
    obtain ⟨n, small, rfl⟩ := hex_chars isIn
    exact hexDigit_symbols n small
  have solid : ∀ c ∈ key.toList.flatMap hexByte, isWhitespace c = false := by
    intro c isIn
    exact (alphabet_plain c (symbols c isIn)).2
  have noScheme : (key.toList.flatMap hexByte).dropPrefix? "base64:".toList = none :=
    noScheme_of_noColon fun colon => colon_not_symbol (symbols ':' colon)
  obtain ⟨bytes, read, size⟩ := groups 16 _ symbols length
  have decoded : decodeB64 base64 field (hex key.toList) = .ok bytes := by
    rw [decodeB64, hex, String.toList_ofList, noScheme]
    dsimp only [Option.getD_none]
    rw [trim_eq_self solid, read]
    rfl
  have different : ¬ bytes.length = realityKeyLen := by
    rw [size]
    decide
  have mismatch : exactArray realityKeyLen (.badRealityKeyLen field realityKeyLen) bytes =
      .error (.badRealityKeyLen field 32 48) := by
    rw [exactArray, dif_neg different, size]
    rfl
  rw [decodeKey, encode, decoded]
  exact mismatch

end Keys

/-! ## What is printed -/

section Printed

variable {codec : Codec} {base64 : Engine} {pair : Keypair} {args : KeygenArgs}

theorem encode_unbroken (lawful : base64.Lawful) (bytes : Bytes) (format : KeyFormat) :
    '\n' ∉ (encode base64 bytes format).toList := by
  have notSymbol : '\n' ∉ alphabet := by decide +kernel
  cases format with
  | base64 =>
      rw [encode, b64, String.toList_ofList]
      intro isIn
      rcases lawful.symbols bytes '\n' isIn with symbol | pad
      · exact notSymbol symbol
      · contradiction
  | hex =>
      rw [encode, hex, String.toList_ofList]
      intro isIn
      obtain ⟨n, small, same⟩ := hex_chars isIn
      exact notSymbol (same ▸ hexDigit_symbols n small)

theorem runKeygen_copied (codecLawful : codec.Lawful) (lawful : base64.Lawful) :
    ∃ text, runKeygen codec base64 pair args = .ok text ∧
      copiedKeys codec args text = some (encode base64 pair.privateKey.toList args.format,
        encode base64 pair.publicKey.toList args.format) := by
  have privUnbroken := encode_unbroken lawful pair.privateKey.toList args.format
  have pubUnbroken := encode_unbroken lawful pair.publicKey.toList args.format
  unfold runKeygen copiedKeys
  generalize encode base64 pair.privateKey.toList args.format = privS at *
  generalize encode base64 pair.publicKey.toList args.format = pubS at *
  dsimp only
  by_cases json : args.json = true
  · rw [if_pos json]
    simp only [if_pos json]
    have canonical : (Value.ofFields [("privateKey", .string privS),
        ("publicKey", .string pubS)]).Canonical (126 + 1) := by
      refine .ofFields ?_
      simp only [List.forall_mem_cons, List.not_mem_nil, false_imp_iff, implies_true, and_true]
      exact ⟨.string _, .string _⟩
    obtain ⟨text, written, read⟩ := codecLawful.reads_written canonical
    refine ⟨text, written, ?_⟩
    simp [read, Value.index_ofFields, lookup_cons_ite, Value.asStr]
  · rw [if_neg json]
    simp only [if_neg json]
    refine ⟨_, rfl, ?_⟩
    have unbroken : ∀ line ∈ [privLabel.toList, "  ".toList ++ privS.toList, pubLabel.toList],
        '\n' ∉ line := by
      have labels : '\n' ∉ privLabel.toList ∧ '\n' ∉ pubLabel.toList := by decide +kernel
      simp [labels.1, labels.2, privUnbroken]
    have lines := Lib.Toml.splitOn_unlines unbroken ("  ".toList ++ pubS.toList)
    have last : ("  ".toList ++ pubS.toList).splitOn '\n' = ["  ".toList ++ pubS.toList] :=
      splitOn_singleton_iff.mpr ⟨rfl, by simp [pubUnbroken]⟩
    have whole : (privLabel ++ "\n  " ++ privS ++ "\n" ++ pubLabel ++ "\n  " ++ pubS).toList =
        [privLabel.toList, "  ".toList ++ privS.toList, pubLabel.toList].flatMap (· ++ ['\n']) ++
          ("  ".toList ++ pubS.toList) := by
      simp
    rw [whole, lines, last]
    simp

/-- What the loader makes of a `[reality]` section with the printed keys. -/
structure KeysLoad (engine : Engine) (pair : Keypair) (format : KeyFormat) (raw : RawReality) :
    Prop where
  base64 : format = .base64 → ∀ shortIds, decodeShortIds 0 raw.shortIds = .ok shortIds →
    raw.intoSettings engine = .ok
      { privateKey := some pair.privateKey, publicKey := pair.publicKey, shortIds,
        fingerprint := raw.fingerprint }
  hex : format = .hex →
    raw.intoSettings engine = .error (.badRealityKeyLen "public_key" 32 48)

theorem keysLoad_encoded (lawful : base64.Lawful) (groups : base64.DecodesGroups)
    (pair : Keypair) (format : KeyFormat) (shortIds : List String) (fingerprint : String) :
    KeysLoad base64 pair format
      { privateKey := some (encode base64 pair.privateKey.toList format),
        publicKey := encode base64 pair.publicKey.toList format, shortIds, fingerprint } := by
  refine ⟨?_, ?_⟩
  · rintro rfl shortIds decoded
    have publicKey : decodeKey base64 "public_key"
        (encode base64 pair.publicKey.toList .base64) = .ok pair.publicKey :=
      decodeKey_base64 lawful
    have privateKey : decodeKey base64 "private_key"
        (encode base64 pair.privateKey.toList .base64) = .ok pair.privateKey :=
      decodeKey_base64 lawful
    rw [RawReality.intoSettings]
    refine bind_ok_iff.mpr ⟨_, publicKey, ?_⟩
    refine bind_ok_iff.mpr ⟨some pair.privateKey, ?_, ?_⟩
    · exact optionMapM_ok_iff.mpr (Option.Rel.some privateKey)
    · exact bind_ok_iff.mpr ⟨_, decoded, rfl⟩
  · rintro rfl
    rw [RawReality.intoSettings, decodeKey_hex groups]
    rfl

end Printed

/-- Copied from what the command prints, as lines or as JSON, the keys load as the
pair that was generated if they were asked for in base64, and are always refused for
their length if they were asked for in hexadecimal. -/
theorem printed_keys_load_unless_hex {codec : Codec} (codecLawful : codec.Lawful)
    {base64 : Engine} (lawful : base64.Lawful) (groups : base64.DecodesGroups) (pair : Keypair)
    (args : KeygenArgs) :
    ∃ text privS pubS, runKeygen codec base64 pair args = .ok text ∧
      copiedKeys codec args text = some (privS, pubS) ∧
      ∀ shortIds fingerprint, KeysLoad base64 pair args.format
        { privateKey := some privS, publicKey := pubS, shortIds, fingerprint } := by
  obtain ⟨text, printed, copied⟩ := @runKeygen_copied codec base64 pair args codecLawful lawful
  exact ⟨text, _, _, printed, copied, keysLoad_encoded lawful groups pair args.format⟩

theorem hex_keys_refused :
    ∃ text privS pubS, runKeygen textCodec standard zeroPair ⟨.hex, true⟩ = .ok text ∧
      copiedKeys textCodec ⟨.hex, true⟩ text = some (privS, pubS) ∧
      RawReality.intoSettings standard
        { privateKey := some privS, publicKey := pubS, shortIds := [], fingerprint := "chrome" } =
          .error (.badRealityKeyLen "public_key" 32 48) := by
  obtain ⟨text, privS, pubS, printed, copied, loads⟩ := printed_keys_load_unless_hex
    textCodec_lawful standard_lawful standard_decodesGroups zeroPair ⟨.hex, true⟩
  exact ⟨text, privS, pubS, printed, copied, (loads [] "chrome").hex rfl⟩

end RealityHydra.HydraCli
