import RealityHydra.HydraCli.LoadsBack
import RealityHydra.HydraCli.Render
import RealityHydra.Lib.JsonText

/-!
# Whether the outputs agree

Both JSON outputs read back as the pool's names.  The lines do where no name
breaks one: `MasterList::new` refuses only the empty name.
-/

set_option autoImplicit false

namespace RealityHydra.HydraCli

open RealityHydra.Lib.Base64
open RealityHydra.Lib.Json
open RealityHydra.Lib.Text
open RealityHydra.Lib.Toml (Line Statement Table execute reader readLines_document
  reader_parse_ok_iff splitOn_render)
open RealityHydra.Lib.Traversal
open RealityHydra.PoolEngine

/-! ## What is read back -/

/-- A list whose names are each one line of their joined text. -/
structure OneLineEach (snis : List String) : Prop where
  unbroken : ∀ sni ∈ snis, '\n' ∉ sni.toList
  ends : ∀ sni ∈ snis.dropLast, sni.toList.getLast? ≠ some '\r'

structure RenderersAgree (codec : Codec) (base64 : Engine) (cfg : HydraConfig) (pool : ActivePool)
    (epoch : Epoch) : Prop where
  lines : ∃ text, render codec base64 cfg pool epoch .lines = .ok text ∧
    (lines text.toList).map String.ofList = pool.snis
  json : ∃ text value, render codec base64 cfg pool epoch .json = .ok text ∧
    codec.fromStr text = .ok value ∧ value.asStrings = some pool.snis
  xray : ∃ text value, render codec base64 cfg pool epoch .xray = .ok text ∧
    codec.fromStr text = .ok value ∧
    (((value.index "streamSettings").index "realitySettings").index "serverNames").asStrings =
      some pool.snis

theorem lines_renderLines_iff {pool : ActivePool} (named : ∀ sni ∈ pool.snis, sni ≠ "") :
    (lines (renderLines pool).toList).map String.ofList = pool.snis ↔ OneLineEach pool.snis := by
  have joined : (renderLines pool).toList =
      ['\n'].intercalate (pool.snis.map String.toList) := String.toList_intercalate
  have nonempty : ∀ part ∈ pool.snis.map String.toList, part ≠ [] := by
    intro part isIn
    obtain ⟨sni, isSni, rfl⟩ := List.mem_map.mp isIn
    intro empty
    exact named sni isSni (String.toList_inj.mp empty)
  have asTexts : ∀ parts : List (List Char),
      parts.map String.ofList = pool.snis ↔ parts = pool.snis.map String.toList := by
    intro parts
    constructor
    · intro same
      rw [← same, List.map_map]
      exact (List.map_id'' (fun part => String.toList_ofList) parts).symm
    · intro same
      rw [same, List.map_map]
      exact List.map_id'' (fun sni => String.ofList_toList) pool.snis
  rw [asTexts, joined, lines_intercalate_iff nonempty, ← List.map_dropLast]
  simp only [List.forall_mem_map]
  exact ⟨fun plain => ⟨plain.1, plain.2⟩, fun plain => ⟨plain.unbroken, plain.ends⟩⟩

section Agreement

variable {codec : Codec} (base64 : Engine) (cfg : HydraConfig) (pool : ActivePool) (epoch : Epoch)

theorem renderJson_reads_back (lawful : codec.Lawful) :
    ∃ text value, renderJson codec pool = .ok text ∧ codec.fromStr text = .ok value ∧
      value.asStrings = some pool.snis := by
  have canonical : (Value.ofStrings pool.snis).Canonical nestingLimit := .ofStrings pool.snis
  obtain ⟨text, written, read⟩ := lawful.reads_written canonical
  exact ⟨text, _, written, read, Value.asStrings_ofStrings pool.snis⟩

theorem renderXray_reads_back (lawful : codec.Lawful) :
    ∃ text value, renderXray codec base64 cfg pool epoch = .ok text ∧
      codec.fromStr text = .ok value ∧
      (value.index "streamSettings").index "realitySettings" = xrayReality base64 cfg pool := by
  have canonical : (xrayInbound base64 cfg pool epoch).Canonical nestingLimit :=
    xrayInbound_canonical base64 cfg pool epoch
  obtain ⟨text, written, read⟩ := lawful.reads_written canonical
  exact ⟨text, _, written, read, xrayInbound_realitySettings base64 cfg pool epoch⟩

/-- Only the lines can differ from the pool. -/
theorem renderersAgree_iff_lines (lawful : codec.Lawful) :
    RenderersAgree codec base64 cfg pool epoch ↔
      (lines (renderLines pool).toList).map String.ofList = pool.snis := by
  constructor
  · intro agree
    obtain ⟨text, rendered, same⟩ := agree.lines
    cases rendered
    exact same
  · intro same
    obtain ⟨text, value, rendered, read, found⟩ :=
      renderXray_reads_back base64 cfg pool epoch lawful
    refine ⟨⟨_, rfl, same⟩, renderJson_reads_back pool lawful, text, value, rendered, read, ?_⟩
    rw [found, xrayReality_serverNames, Value.asStrings_ofStrings]

end Agreement

section Served

variable {Draw K : Type} [LinearOrder K] (keying : Keying Draw K) (cfg : HydraConfig)
  (epoch : Epoch) (window : Bool)

theorem serverNames_subset :
    (serverNames keying cfg epoch window).entries ⊆ cfg.masterList.entries := by
  unfold serverNames
  split
  · exact acceptedPoolWindow_subset ..
  · exact subsetFromSeed_members ..

theorem serverNames_named : ∀ sni ∈ (serverNames keying cfg epoch window).snis, sni ≠ "" := by
  intro sni isIn
  obtain ⟨entry, isEntry, rfl⟩ := List.mem_map.mp isIn
  exact cfg.masterList.acceptable.named entry
    (serverNames_subset keying cfg epoch window isEntry)

end Served

/-! ## A list of one name -/

/-- A key of zeros, as `init` writes one. -/
def zeroKeyText : List Char := secretText standard (Vector.replicate realityKeyLen 0).toList

def zeroSaltText : List Char := secretText standard (Vector.replicate saltLen 0).toList

def oneNameFront : List Line :=
  [plainEntry "master_secret" 0 (.string zeroKeyText),
    plainEntry "server_salt" 0 (.string zeroSaltText),
    plainEntry "active_k" 0 (.integer 1),
    .heading (.table "reality".toList),
    plainEntry "public_key" 0 (.string zeroKeyText),
    plainEntry "short_ids" 0 (.single "0aFF".toList),
    .heading (.element "pool".toList)]

/-- `written` stands between the quotes of the name. -/
def oneNameText (written : List Char) : String :=
  String.ofList (Lib.Toml.render oneNameFront ++
    ("sni = \"".toList ++ written ++ "\"\nweight = 1\n".toList))

theorem oneName_acceptable {sni : String} (named : sni ≠ "") :
    Acceptable [⟨sni, .finite 1⟩] :=
  ⟨by simp, by simpa using named, by simp [PoolEntry.Weighted], by simp⟩

def oneNameConfig (sni : String) (named : sni ≠ "") : HydraConfig where
  masterSecret := Vector.replicate 32 0
  serverSalt := Vector.replicate 16 0
  epochLen := ⟨21600, 0⟩
  activeK := 1
  masterList :=
    { entries := [⟨sni, .finite 1⟩]
      acceptable := oneName_acceptable named
      sorted := List.pairwise_singleton .. }
  dest := none
  coherenceCidrs := []
  reality := some
    { privateKey := none
      publicKey := Vector.replicate 32 0
      shortIds := [[0x0A, 0xFF]]
      fingerprint := "chrome" }
  serverAddr := none
  certPin := none
  activeK_pos := Nat.one_pos

theorem serverNames_oneName {Draw K : Type} [LinearOrder K] (keying : Keying Draw K)
    {sni : String} (named : sni ≠ "") (epoch : Epoch) :
    (serverNames keying (oneNameConfig sni named) epoch false).snis = [sni] := by
  have inside := serverNames_subset keying (oneNameConfig sni named) epoch false
  have single : (serverNames keying (oneNameConfig sni named) epoch false).entries.length = 1 :=
    subsetFromSeed_length ..
  obtain ⟨entry, only⟩ := List.length_eq_one_iff.mp single
  have isEntry : entry = ⟨sni, .finite 1⟩ := by
    apply List.mem_singleton.mp
    apply inside
    rw [only]
    exact List.mem_singleton_self entry
  rw [ActivePool.snis, only, isEntry]
  rfl

def oneNameTable (sni : List Char) : Table :=
  [("master_secret".toList, .string zeroKeyText),
    ("server_salt".toList, .string zeroSaltText),
    ("active_k".toList, .integer 1),
    ("reality".toList, .table
      [("public_key".toList, .string zeroKeyText),
        ("short_ids".toList, .array [.string "0aFF".toList])]),
    ("pool".toList, .array
      [.table [("sni".toList, .string sni), ("weight".toList, .integer 1)]])]

def oneNameRaw (sni : String) : RawConfig where
  masterSecret := String.ofList zeroKeyText
  serverSalt := String.ofList zeroSaltText
  poolFormat := expectedFormat
  epochLen := "6h"
  activeK := 1
  dest := none
  coherenceCidrs := []
  pool := [⟨sni, .finite 1⟩]
  reality := some
    { privateKey := none
      publicKey := String.ofList zeroKeyText
      shortIds := ["0aFF"]
      fingerprint := "chrome" }
  serverAddr := none
  certPin := none

theorem oneNameRaw_reality (sni : String) :
    Option.Rel (fun raw settings => RawReality.intoSettings standard raw = .ok settings)
      (oneNameRaw sni).reality
      (some ⟨none, Vector.replicate realityKeyLen 0, [[0x0A, 0xFF]], "chrome"⟩) := by
  have shortIds : decodeShortIds 0 ["0aFF"] = .ok [[0x0A, 0xFF]] := by decide +kernel
  refine Option.Rel.some ?_
  refine bind_ok_iff.mpr ⟨_, decodeKey_secretText standard_lawful _ _, ?_⟩
  exact bind_ok_iff.mpr ⟨none, rfl, bind_ok_iff.mpr ⟨_, shortIds, rfl⟩⟩

theorem oneNameRaw_loads {sni : String} (named : sni ≠ "") :
    (oneNameRaw sni).Loads standard (oneNameConfig sni named) where
  format := rfl
  secret := decodeB64_secretText standard_lawful _ _
  salt := decodeB64_secretText standard_lawful _ _
  activeK := rfl
  epochLen := by
    have sixHours : parseDuration "6h" = .ok ⟨21600, 0⟩ := by decide
    exact sixHours
  masterList := (MasterList.new_ok_iff ..).mpr ⟨oneName_acceptable named, rfl⟩
  reality := oneNameRaw_reality sni
  certPin := Option.Rel.none
  dest := rfl
  coherenceCidrs := rfl
  serverAddr := rfl

def oneNameStatements (sni : List Char) : List Statement :=
  [.set "master_secret".toList (.string zeroKeyText),
    .set "server_salt".toList (.string zeroSaltText),
    .set "active_k".toList (.integer 1),
    .opens (.table "reality".toList),
    .set "public_key".toList (.string zeroKeyText),
    .set "short_ids".toList (.array [.string "0aFF".toList]),
    .opens (.element "pool".toList),
    .set "sni".toList (.string sni),
    .set "weight".toList (.integer 1)]

theorem oneNameStatements_run (sni : List Char) :
    execute (oneNameStatements sni) = some (oneNameTable sni) := by
  rfl

theorem oneNameTable_deserialize (sni : List Char) :
    RawConfig.deserialize (oneNameTable sni) = some (oneNameRaw (String.ofList sni)) := by
  rfl

theorem oneNameFront_formed : ∀ line ∈ oneNameFront, line.WellFormed := by
  have secret := secretText_unescaped standard_lawful
  unfold oneNameFront plainEntry zeroKeyText zeroSaltText
  repeat rw [String.toList_ofList]
  simp only [List.forall_mem_cons, List.not_mem_nil, false_imp_iff, implies_true, and_true]
  refine ⟨⟨?_, secret _, ?_⟩, ⟨?_, secret _, ?_⟩, ?_, ?_, ⟨?_, secret _, ?_⟩, ?_, ?_⟩
  all_goals decide

/-- The name is written with the escape of the newline. -/
def brokenName : List Char := ['a', '\\', 'n', 'b']

theorem broken_named : "a\nb" ≠ "" := by decide

theorem brokenText_accepted :
    HydraConfig.fromTomlStr reader standard (oneNameText brokenName) =
      .ok (oneNameConfig "a\nb" broken_named) := by
  have parsed : reader.parse (oneNameText brokenName).toList =
      .ok (oneNameTable ['a', '\n', 'b']) := by
    refine reader_parse_ok_iff.mpr
      ⟨oneNameStatements ['a', '\n', 'b'], ?_, rfl, oneNameStatements_run ['a', '\n', 'b']⟩
    rw [oneNameText, String.toList_ofList, splitOn_render oneNameFront_formed,
      readLines_document oneNameFront_formed]
    rfl
  exact HydraConfig.fromTomlStr_ok_iff.mpr
    ⟨_, _, parsed, oneNameTable_deserialize ['a', '\n', 'b'], oneNameRaw_loads broken_named⟩

/-- Keys are indices. -/
def indexKeying : Keying Nat Nat where
  hmac _ _ := Vector.replicate 32 0
  random _ index := index
  aresKey draw _ := draw

/-! ## Agreement -/

section Pools

variable {Draw K : Type} [LinearOrder K] (keying : Keying Draw K) (cfg : HydraConfig)
  (epoch : Epoch) (window : Bool)

/-- A list that names each entry on one line is rendered alike in every epoch. -/
theorem renderers_agree_of_plain_names {codec : Codec} (lawful : codec.Lawful) (base64 : Engine)
    (plain : ∀ entry ∈ cfg.masterList.entries,
      '\n' ∉ entry.sni.toList ∧ entry.sni.toList.getLast? ≠ some '\r') :
    RenderersAgree codec base64 cfg (serverNames keying cfg epoch window) epoch := by
  have drawn : ∀ sni ∈ (serverNames keying cfg epoch window).snis,
      '\n' ∉ sni.toList ∧ sni.toList.getLast? ≠ some '\r' := by
    intro sni isIn
    obtain ⟨entry, isEntry, rfl⟩ := List.mem_map.mp isIn
    exact plain entry (serverNames_subset keying cfg epoch window isEntry)
  refine (renderersAgree_iff_lines base64 cfg _ epoch lawful).mpr
    ((lines_renderLines_iff (serverNames_named keying cfg epoch window)).mpr ⟨?_, ?_⟩)
  · exact fun sni isIn => (drawn sni isIn).1
  · exact fun sni isIn => (drawn sni ((List.dropLast_sublist _).subset isIn)).2

/-- The outputs agree exactly where each name of the pool is one line. -/
theorem renderers_agree_iff {codec : Codec} (lawful : codec.Lawful) (base64 : Engine) :
    RenderersAgree codec base64 cfg (serverNames keying cfg epoch window) epoch ↔
      OneLineEach (serverNames keying cfg epoch window).snis :=
  (renderersAgree_iff_lines base64 cfg _ epoch lawful).trans
    (lines_renderLines_iff (serverNames_named keying cfg epoch window))

end Pools

theorem exampleName_named : "a.example" ≠ "" := by decide

theorem example_name_renderers_agree :
    RenderersAgree textCodec standard (oneNameConfig "a.example" exampleName_named)
      (serverNames indexKeying (oneNameConfig "a.example" exampleName_named) 0 false) 0 := by
  refine (renderers_agree_iff indexKeying _ 0 false textCodec_lawful standard).mpr ?_
  rw [serverNames_oneName]
  exact ⟨by decide, by decide⟩

/-- A newline in a name is two lines of the first format. -/
theorem newline_in_name_breaks_lines :
    HydraConfig.fromTomlStr reader standard (oneNameText brokenName) =
        .ok (oneNameConfig "a\nb" broken_named) ∧
      ¬ RenderersAgree textCodec standard (oneNameConfig "a\nb" broken_named)
        (serverNames indexKeying (oneNameConfig "a\nb" broken_named) 0 false) 0 := by
  refine ⟨brokenText_accepted, ?_⟩
  rw [renderersAgree_iff_lines _ _ _ _ textCodec_lawful,
    lines_renderLines_iff (serverNames_named indexKeying _ 0 false), serverNames_oneName]
  intro oneLine
  exact oneLine.unbroken "a\nb" List.mem_cons_self (by decide)

end RealityHydra.HydraCli
