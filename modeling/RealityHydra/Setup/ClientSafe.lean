import RealityHydra.Lib.TomlLineGrammar
import RealityHydra.Setup.Bundle

/-!
# Which bundles carry the private key

Where the filter only ever takes whole pairs, the bundle is the server's
configuration without the private key exactly if no line it leaves writes one, and
the last of these does not end in a carriage return.
-/

set_option autoImplicit false

namespace RealityHydra.Setup

open RealityHydra.Lib.Base64
open RealityHydra.Lib.Toml (Value Table Parser)
open RealityHydra.Lib.TomlDocument
open RealityHydra.Lib.TomlGrammar
open RealityHydra.PoolEngine

theorem bundle_faithful_iff_key_filtered {grammar : Grammar} {toml : Parser}
    (lawful : grammar.Lawful) (follows : grammar.FollowedBy toml) {base64 tool : Engine}
    (toolLawful : tool.Lawful) {serverCfg : String} {cfg : HydraConfig}
    (accepted : HydraConfig.fromTomlStr toml base64 serverCfg = .ok cfg) {reading : Reading}
    (reads : grammar.Reads serverCfg.toList reading)
    (clean : ∀ part ∈ reading, grammar.Clean beginsPrivateKey passes part) :
    FaithfulBundle toml base64 tool serverCfg cfg ↔
      EndsPlain (keptLines serverCfg.toList) ∧
        ¬ SomeWrites realityName privateKeyName []
          (Reading.expressions (grammar.left passes reading)) := by
  constructor
  · intro faithful
    refine ⟨ends_of_faithful follows toolLawful (noNul_of_reads lawful reads) faithful, ?_⟩
    intro written
    exact not_faithful_of_written lawful follows toolLawful accepted reads clean written faithful
  · intro condition
    obtain ⟨ends, unwritten⟩ := condition
    exact faithful_of_unwritten lawful follows toolLawful accepted reads clean ends unwritten

/-! ## A configuration with the key in plain sight -/

def zeroKey : List Char := "AAAAAAAAAAAAAAAAAAAAAAAAAAAAAAAAAAAAAAAAAAA=".toList

/-- The configuration's lines, given the one that writes the private key. -/
def sampleLines (keyLine : List Char) : List (List Char) :=
  ["master_secret = \"".toList ++ zeroKey ++ "\"".toList,
    "server_salt = \"AAAAAAAAAAAAAAAAAAAAAA==\"".toList,
    "active_k = 1".toList,
    "[[pool]]".toList,
    "sni = \"a.example\"".toList,
    "weight = 1".toList,
    "[reality]".toList,
    keyLine,
    "public_key = \"".toList ++ zeroKey ++ "\"".toList]

def bareKeyLine : List Char := "private_key = \"".toList ++ zeroKey ++ "\"".toList

def quotedKeyLine : List Char := "\"private_key\" = \"".toList ++ zeroKey ++ "\"".toList

def sampleExpressions : List Expression :=
  [.pair "master_secret".toList [] (.string zeroKey),
    .pair "server_salt".toList [] (.string "AAAAAAAAAAAAAAAAAAAAAA==".toList),
    .pair "active_k".toList [] (.integer 1),
    .element ["pool".toList],
    .pair "sni".toList [] (.string "a.example".toList),
    .pair "weight".toList [] (.integer 1),
    .table ["reality".toList],
    .pair "private_key".toList [] (.string zeroKey),
    .pair "public_key".toList [] (.string zeroKey)]

def sampleText (keyLine : List Char) : String :=
  String.ofList (Grammar.unlines (sampleLines keyLine))

/-- The text ends with a newline, so a blank line comes last. -/
def sampleReading (keyLine : List Char) : Reading :=
  linesReading (sampleLines keyLine ++ [[]]) (sampleExpressions ++ [.blank])

def sampleTable : Table :=
  [("master_secret".toList, .string zeroKey),
    ("server_salt".toList, .string "AAAAAAAAAAAAAAAAAAAAAA==".toList),
    ("active_k".toList, .integer 1),
    ("pool".toList, .array
      [.table [("sni".toList, .string "a.example".toList), ("weight".toList, .integer 1)]]),
    ("reality".toList, .table
      [("private_key".toList, .string zeroKey), ("public_key".toList, .string zeroKey)])]

def sampleRaw : RawConfig where
  masterSecret := String.ofList zeroKey
  serverSalt := String.ofList "AAAAAAAAAAAAAAAAAAAAAA==".toList
  poolFormat := expectedFormat
  epochLen := "6h"
  activeK := 1
  dest := none
  coherenceCidrs := []
  pool := [⟨String.ofList "a.example".toList, .finite 1⟩]
  reality := some
    { privateKey := some (String.ofList zeroKey)
      publicKey := String.ofList zeroKey
      shortIds := []
      fingerprint := "chrome" }
  serverAddr := none
  certPin := none

theorem sampleEntries_acceptable :
    Acceptable [⟨String.ofList "a.example".toList, .finite 1⟩] :=
  ⟨by simp, by simp, by simp [PoolEntry.Weighted], by simp⟩

def sampleConfig : HydraConfig where
  masterSecret := Vector.replicate 32 0
  serverSalt := Vector.replicate 16 0
  epochLen := ⟨21600, 0⟩
  activeK := 1
  masterList :=
    { entries := [⟨String.ofList "a.example".toList, .finite 1⟩]
      acceptable := sampleEntries_acceptable
      sorted := List.pairwise_singleton .. }
  dest := none
  coherenceCidrs := []
  reality := some
    { privateKey := some (Vector.replicate 32 0)
      publicKey := Vector.replicate 32 0
      shortIds := []
      fingerprint := "chrome" }
  serverAddr := none
  certPin := none
  activeK_pos := Nat.one_pos

theorem sampleRaw_loads : sampleRaw.Loads standard sampleConfig where
  format := rfl
  secret := by decide +kernel
  salt := by decide +kernel
  activeK := rfl
  epochLen := by decide +kernel
  masterList :=
    (MasterList.new_ok_iff ..).mpr ⟨sampleConfig.masterList.acceptable, by decide +kernel⟩
  reality := Option.Rel.some (by decide +kernel)
  certPin := Option.Rel.none
  dest := rfl
  coherenceCidrs := rfl
  serverAddr := rfl

theorem sampleLines_unbroken {keyLine : List Char}
    (isKeyLine : keyLine = bareKeyLine ∨ keyLine = quotedKeyLine) :
    ∀ line ∈ sampleLines keyLine, '\n' ∉ line := by
  rcases isKeyLine with rfl | rfl <;> decide +kernel

theorem sampleLines_mean {keyLine : List Char}
    (isKeyLine : keyLine = bareKeyLine ∨ keyLine = quotedKeyLine) :
    (sampleLines keyLine ++ [[]]).mapM lineExpression = some (sampleExpressions ++ [.blank]) := by
  rcases isKeyLine with rfl | rfl <;> rfl

theorem sampleReading_reads {keyLine : List Char}
    (isKeyLine : keyLine = bareKeyLine ∨ keyLine = quotedKeyLine) :
    lineGrammar.Reads (sampleText keyLine).toList (sampleReading keyLine) := by
  obtain ⟨sameLines, sameExpressions, means⟩ := linesReading_of_mapM (sampleLines_mean isKeyLine)
  have whole : (sampleText keyLine).toList.splitOn '\n' = sampleLines keyLine ++ [[]] := by
    have pieces := Lib.Toml.splitOn_unlines (sampleLines_unbroken isKeyLine) []
    rw [List.append_nil] at pieces
    rw [sampleText, String.toList_ofList, Grammar.unlines, pieces]
    rfl
  refine ⟨?_, ?_, ?_, means, ?_⟩
  · rw [whole, sampleReading, sameLines, List.map_map]
    exact (List.map_id _).symm
  · rw [whole, EndsPlain, List.getLast?_concat]
    decide
  · rw [sampleReading, sameLines]
    exact marks_plain _
  · have once : NamesOnce (sampleExpressions ++ [.blank]) := by decide +kernel
    rw [sampleReading, sameExpressions]
    exact once

theorem sampleText_accepted {keyLine : List Char}
    (isKeyLine : keyLine = bareKeyLine ∨ keyLine = quotedKeyLine) :
    HydraConfig.fromTomlStr lineParser standard (sampleText keyLine) = .ok sampleConfig := by
  refine HydraConfig.fromTomlStr_ok_iff.mpr ⟨sampleTable, sampleRaw, ?_, rfl, sampleRaw_loads⟩
  exact (lineParser_follows _ _).mpr ⟨sampleReading keyLine, sampleReading_reads isKeyLine, rfl⟩

/-- The bare key is filtered and the bundle is faithful. -/
theorem bare_key_bundle_faithful :
    HydraConfig.fromTomlStr lineParser standard (sampleText bareKeyLine) = .ok sampleConfig ∧
      FaithfulBundle lineParser standard standard (sampleText bareKeyLine) sampleConfig := by
  have accepted := sampleText_accepted (Or.inl rfl)
  have reads := sampleReading_reads (Or.inl rfl)
  refine ⟨accepted, (bundle_faithful_iff_key_filtered lineGrammar_lawful lineParser_follows
    standard_lawful accepted reads fun part isIn => lineGrammar_clean (reads.means part isIn)).mpr
      ⟨?_, ?_⟩⟩
  · rw [sampleText, String.toList_ofList]
    decide +kernel
  · decide +kernel

/-- Under the quoted key the private key goes out with the bundle. -/
theorem quoted_key_bundle_leaks :
    HydraConfig.fromTomlStr lineParser standard (sampleText quotedKeyLine) = .ok sampleConfig ∧
      ¬ FaithfulBundle lineParser standard standard (sampleText quotedKeyLine) sampleConfig := by
  have accepted := sampleText_accepted (Or.inr rfl)
  have reads := sampleReading_reads (Or.inr rfl)
  refine ⟨accepted, not_faithful_of_written lineGrammar_lawful lineParser_follows
    standard_lawful accepted reads (fun part isIn => lineGrammar_clean (reads.means part isIn)) ?_⟩
  decide +kernel

end RealityHydra.Setup
