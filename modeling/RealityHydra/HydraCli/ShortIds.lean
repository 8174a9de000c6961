import RealityHydra.HydraCli.InitDocument
import RealityHydra.HydraCli.RenderersAgree
import RealityHydra.PoolEngine.HexText

/-!
# Short IDs between the configuration and the inbound

`decode_hex` undoes the encoder, and the encoder undoes `decode_hex` up to
whitespace and case; so the inbound carries the configured short IDs.
-/

set_option autoImplicit false

namespace RealityHydra.HydraCli

open RealityHydra.Lib.Base64
open RealityHydra.Lib.ByteCodec
open RealityHydra.Lib.Json
open RealityHydra.Lib.Text
open RealityHydra.Lib.Traversal
open RealityHydra.PoolEngine

/-! ## Encoding what was decoded -/

theorem hexByte_joined : ∀ high < 16, ∀ low < 16,
    hexByte (UInt8.ofNat high <<< 4 ||| UInt8.ofNat low) =
      [Nat.digitChar high, Nat.digitChar low] := by
  decide +kernel

theorem decodePairs_digits {text : List Char} (even : text.length % 2 = 0)
    (digits : ∀ c ∈ text, c ∈ hexDigits) :
    ∃ decoded, decodePairs (text.map fun c => UInt8.ofNat c.toNat) = .ok decoded ∧
      decoded.flatMap hexByte = text.map Char.toLower := by
  match text, even, digits with
  | [], _, _ => exact ⟨[], rfl, rfl⟩
  | high :: low :: rest, even, digits =>
      obtain ⟨highDigit, later⟩ := List.forall_mem_cons.mp digits
      obtain ⟨lowDigit, others⟩ := List.forall_mem_cons.mp later
      obtain ⟨highSmall, _, highRead, highLower⟩ := hexDigits_read highDigit
      obtain ⟨lowSmall, _, lowRead, lowLower⟩ := hexDigits_read lowDigit
      have restEven : rest.length % 2 = 0 := by
        simp only [List.length_cons] at even
        omega
      obtain ⟨decoded, restRead, restLower⟩ := decodePairs_digits restEven others
      refine ⟨(UInt8.ofNat (hexValue high) <<< 4 ||| UInt8.ofNat (hexValue low)) :: decoded, ?_, ?_⟩
      · rw [List.map_cons, List.map_cons, decodePairs, highRead, lowRead, restRead]
        rfl
      · rw [List.flatMap_cons, hexByte_joined _ highSmall _ lowSmall, restLower, highLower,
          lowLower]
        rfl

theorem decodeHex_of_hexText {s : String} (isHex : HexText (trim isWhitespace s.toList)) :
    ∃ decoded, decodeHex s = .ok decoded ∧ hex decoded = (trimmed s).toLower := by
  obtain ⟨even, digits⟩ := isHex
  obtain ⟨decoded, read, lower⟩ := decodePairs_digits even digits
  have bytes : utf8Bytes (trimmed s) =
      (trim isWhitespace s.toList).map fun c => UInt8.ofNat c.toNat := by
    rw [trimmed, utf8Bytes_ofList, hexText_bytes digits]
  refine ⟨decoded, ?_, ?_⟩
  · rw [decodeHex, bytes, List.length_map, if_neg (not_not.mpr even), read]
  · have lowered : (trimmed s).toLower = (trimmed s).map Char.toLower := rfl
    rw [hex, lower, lowered, trimmed, ← String.toList_inj, String.toList_ofList,
      String.toList_map, String.toList_ofList]

/-- What is accepted, and what for. -/
theorem decodeHex_ok_iff {s : String} {decoded : Bytes} :
    decodeHex s = .ok decoded ↔
      HexText (trim isWhitespace s.toList) ∧ hex decoded = (trimmed s).toLower := by
  constructor
  · intro read
    have isHex := hexText_of_decodeHex read
    obtain ⟨found, foundRead, lower⟩ := decodeHex_of_hexText isHex
    have same : found = decoded := Except.ok.inj (foundRead.symm.trans read)
    exact ⟨isHex, same ▸ lower⟩
  · intro facts
    obtain ⟨isHex, lower⟩ := facts
    obtain ⟨found, read, foundLower⟩ := decodeHex_of_hexText isHex
    have same : decodeHex (hex found) = decodeHex (hex decoded) := by
      rw [foundLower, lower]
    rw [decodeHex_hex, decodeHex_hex] at same
    rw [read, Except.ok.inj same]

/-! ## Through the inbound -/

theorem mapM_decodeHex_hex (shortIds : List Bytes) :
    (shortIds.map hex).mapM decodeHex = .ok shortIds := by
  rw [List.mapM_map]
  induction shortIds with
  | nil => rfl
  | cons shortId rest ih =>
      rw [List.mapM_cons, ih, Function.comp_apply, decodeHex_hex]
      rfl

theorem xrayKeys_shortIds (base64 : Engine) {cfg : HydraConfig} {settings : RealitySettings}
    (present : cfg.reality = some settings) (nonempty : settings.shortIds ≠ []) :
    (xrayKeys base64 cfg).2 = settings.shortIds.map hex := by
  rw [xrayKeys, present]
  exact if_neg nonempty

theorem renderXray_shortIds {codec : Codec} (lawful : codec.Lawful) (base64 : Engine)
    {cfg : HydraConfig} {settings : RealitySettings} (pool : ActivePool) (epoch : Epoch)
    (present : cfg.reality = some settings) (nonempty : settings.shortIds ≠ []) :
    ∃ text value, render codec base64 cfg pool epoch .xray = .ok text ∧
      codec.fromStr text = .ok value ∧
      (((value.index "streamSettings").index "realitySettings").index "shortIds").asStrings =
        some (settings.shortIds.map hex) := by
  obtain ⟨text, value, rendered, read, found⟩ :=
    renderXray_reads_back base64 cfg pool epoch lawful
  refine ⟨text, value, rendered, read, ?_⟩
  rw [found, xrayReality_shortIds, Value.asStrings_ofStrings,
    xrayKeys_shortIds base64 present nonempty]

theorem short_ids_round_trip {codec : Codec} (lawful : codec.Lawful) (base64 : Engine) :
    (∀ s, decodeHexChecked s = some (decodeHex s)) ∧
      (∀ s, (∃ decoded, decodeHex s = .ok decoded) ↔ HexText (trim isWhitespace s.toList)) ∧
      (∀ s decoded, decodeHex s = .ok decoded → hex decoded = (trimmed s).toLower) ∧
      (∀ bytes, decodeHex (hex bytes) = .ok bytes) ∧
      ∀ (cfg : HydraConfig) (settings : RealitySettings) (pool : ActivePool) (epoch : Epoch),
        cfg.reality = some settings → settings.shortIds ≠ [] →
          ∃ text value ids, render codec base64 cfg pool epoch .xray = .ok text ∧
            codec.fromStr text = .ok value ∧
            (((value.index "streamSettings").index "realitySettings").index
              "shortIds").asStrings = some ids ∧
            ids.mapM decodeHex = .ok settings.shortIds := by
  refine ⟨decodeHexChecked_eq, ?_, ?_, decodeHex_hex, ?_⟩
  · intro s
    constructor
    · intro accepted
      obtain ⟨decoded, read⟩ := accepted
      exact hexText_of_decodeHex read
    · intro isHex
      obtain ⟨decoded, read, _⟩ := decodeHex_of_hexText isHex
      exact ⟨decoded, read⟩
  · exact fun s decoded read => (decodeHex_ok_iff.mp read).2
  · intro cfg settings pool epoch present nonempty
    obtain ⟨text, value, rendered, read, shown⟩ :=
      renderXray_shortIds lawful base64 pool epoch present nonempty
    exact ⟨text, value, _, rendered, read, shown, mapM_decodeHex_hex settings.shortIds⟩

theorem sample_short_id_round_trip :
    hex [0x0A, 0xFF] = (trimmed " 0aFF\n").toLower ∧
      ∃ text value ids,
        render textCodec standard (oneNameConfig "a.example" exampleName_named)
            (serverNames indexKeying (oneNameConfig "a.example" exampleName_named) 0 false) 0
            .xray = .ok text ∧
          textCodec.fromStr text = .ok value ∧
          (((value.index "streamSettings").index "realitySettings").index
            "shortIds").asStrings = some ids ∧
          ids.mapM decodeHex = .ok [[0x0A, 0xFF]] := by
  obtain ⟨_, _, lower, _, shown⟩ := short_ids_round_trip textCodec_lawful standard
  exact ⟨lower " 0aFF\n" [0x0A, 0xFF] (by decide +kernel),
    shown (oneNameConfig "a.example" exampleName_named) _ _ 0 rfl (by simp)⟩

end RealityHydra.HydraCli
