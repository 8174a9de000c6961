import RealityHydra.HydraCli.Init

/-!
# What `init` has written

The document of a run means one table, and that table one configuration; its
lines are well formed and its secrets read back.
-/

set_option autoImplicit false

namespace RealityHydra.HydraCli

open RealityHydra.Lib.Base64
open RealityHydra.Lib.ByteCodec
open RealityHydra.Lib.Text
open RealityHydra.Lib.Toml
open RealityHydra.Lib.Traversal
open RealityHydra.PoolEngine

/-! ## The table written -/

def defaultEntries : List PoolEntry :=
  defaultPool.map fun (sni, weight) => ⟨sni, .finite weight⟩

def poolTable (entry : String × ℚ) : Table :=
  [("sni".toList, .string entry.1.toList),
    ("weight".toList, (Literal.decimal (roundedTenths entry.2)).value)]

section Written

variable (base64 : Engine) (keys : Generated) (args : InitArgs)

def realityTable : Table :=
  [("private_key".toList, .string (secretText base64 keys.reality.privateKey.toList)),
    ("public_key".toList, .string (secretText base64 keys.reality.publicKey.toList)),
    ("short_ids".toList, .array [.string (keys.shortId.flatMap hexByte)]),
    ("fingerprint".toList, .string "chrome".toList)]

def networkTable : Table :=
  [("master_secret".toList, .string (secretText base64 keys.masterSecret.privateKey.toList)),
    ("server_salt".toList, .string (secretText base64 keys.serverSalt)),
    ("pool_format".toList, .string "hydra-pool-v1".toList),
    ("epoch_len".toList, .string args.epochLen.toList),
    ("active_k".toList, .integer args.activeK.toNat),
    ("dest".toList, .string args.dest.toList),
    ("coherence_cidrs".toList, (Literal.block (defaultCidrs.map String.toList)).value)]

def rootTable : Table :=
  networkTable base64 keys args ++
    [("reality".toList, .table (realityTable base64 keys)),
      ("pool".toList, .array ((defaultPool.map poolTable).map .table))]

def writtenReality : RawReality where
  privateKey := some (String.ofList (secretText base64 keys.reality.privateKey.toList))
  publicKey := String.ofList (secretText base64 keys.reality.publicKey.toList)
  shortIds := [hex keys.shortId]
  fingerprint := "chrome"

def writtenConfig : RawConfig where
  masterSecret := String.ofList (secretText base64 keys.masterSecret.privateKey.toList)
  serverSalt := String.ofList (secretText base64 keys.serverSalt)
  poolFormat := "hydra-pool-v1"
  epochLen := args.epochLen
  activeK := args.activeK.toNat
  dest := some args.dest
  coherenceCidrs := defaultCidrs
  pool := defaultEntries
  reality := some (writtenReality base64 keys)
  serverAddr := none
  certPin := none

theorem statements_document :
    (document base64 keys args).filterMap Line.statement =
      sets (networkTable base64 keys args) ++
        (.opens (.table "reality".toList) :: sets (realityTable base64 keys) ++
          elements "pool".toList (defaultPool.map poolTable)) := by
  rfl

theorem distinct_of_names {entries : Table} (names : List String)
    (keysAre : entries.map Prod.fst = names.map String.toList) (distinct : names.Nodup) :
    Distinct entries := by
  rw [Distinct, keysAre]
  exact distinct.map fun _ _ => String.toList_inj.mp

theorem networkTable_keys :
    (networkTable base64 keys args).map Prod.fst =
      ["master_secret", "server_salt", "pool_format", "epoch_len", "active_k", "dest",
        "coherence_cidrs"].map String.toList := rfl

theorem absent_of_names {entries : Table} {names : List String} {name : String}
    (keysAre : entries.map Prod.fst = names.map String.toList) (absent : name ∉ names) :
    name.toList ∉ entries.map Prod.fst := by
  rw [keysAre]
  intro isIn
  obtain ⟨other, isName, same⟩ := List.mem_map.mp isIn
  exact absent (String.toList_inj.mp same ▸ isName)

theorem meaning_document :
    meaning (document base64 keys args) = some (rootTable base64 keys args) := by
  have networkKeys := networkTable_keys base64 keys args
  have network := distinct_of_names _ networkKeys (by decide)
  have reality : Distinct (realityTable base64 keys) :=
    distinct_of_names ["private_key", "public_key", "short_ids", "fingerprint"] rfl (by decide)
  have entries : ∀ entries ∈ defaultPool.map poolTable, Distinct entries := by
    intro entries isIn
    obtain ⟨entry, _, rfl⟩ := List.mem_map.mp isIn
    exact distinct_of_names ["sni", "weight"] rfl (by decide)
  have nonempty : defaultPool.map poolTable ≠ [] := by simp [defaultPool]
  have root : (sets (networkTable base64 keys args)).foldlM Draft.step .start =
      some ⟨[], none, networkTable base64 keys args⟩ := run_sets network
  have networkClosed : Draft.close ⟨[], none, networkTable base64 keys args⟩ =
      some (networkTable base64 keys args) := rfl
  have realityRan := run_section (.table "reality".toList) networkClosed reality
  have realityAbsent : "reality".toList ∉ (networkTable base64 keys args).map Prod.fst :=
    absent_of_names networkKeys (by decide)
  have poolAbsent : "pool".toList ∉ (networkTable base64 keys args ++
      [("reality".toList, Value.table (realityTable base64 keys))]).map Prod.fst := by
    have keysAre : (networkTable base64 keys args ++
        [("reality".toList, Value.table (realityTable base64 keys))]).map Prod.fst =
        ["master_secret", "server_salt", "pool_format", "epoch_len", "active_k", "dest",
          "coherence_cidrs", "reality"].map String.toList := rfl
    exact absent_of_names keysAre (by decide)
  have realityClosed : Draft.close ⟨networkTable base64 keys args,
      some (.table "reality".toList), realityTable base64 keys⟩ =
      some (networkTable base64 keys args ++
        [("reality".toList, .table (realityTable base64 keys))]) :=
    insertKey_of_absent _ realityAbsent
  obtain ⟨later, poolRan, poolClosed⟩ := run_array nonempty realityClosed poolAbsent entries
  rw [meaning, statements_document, execute, List.foldlM_append, root]
  have sectionsRan : (Statement.opens (.table "reality".toList) ::
      sets (realityTable base64 keys) ++ elements "pool".toList (defaultPool.map poolTable)).foldlM
        Draft.step ⟨[], none, networkTable base64 keys args⟩ = some later := by
    rw [List.foldlM_append, realityRan, Option.bind_eq_bind, Option.bind_some, poolRan]
  rw [Option.bind_eq_bind, Option.bind_some, sectionsRan, Option.bind_some, poolClosed,
    List.append_assoc]
  rfl

end Written

theorem deserialize_poolTable {entry : String × ℚ} (isIn : entry ∈ defaultPool) :
    asPoolEntry (.table (poolTable entry)) = some ⟨entry.1, .finite entry.2⟩ := by
  simp [asPoolEntry_table, PoolEntry.deserialize, poolTable, required, asString, asF64, lookup_toList,
    Literal.value, -String.reduceToList, (defaultPool_rendered entry isIn).exact]

theorem deserialize_pool :
    asList asPoolEntry (.array ((defaultPool.map poolTable).map .table)) = some defaultEntries := by
  rw [List.map_map]
  exact asList_map fun entry isIn => deserialize_poolTable isIn

theorem deserialize_cidrs :
    asList asString (Literal.block (defaultCidrs.map String.toList)).value = some defaultCidrs := by
  rw [Literal.value, List.map_map]
  have read := @asList_map String String asString (Value.string ∘ String.toList) id defaultCidrs
    fun cidr _ => congrArg some String.ofList_toList
  rwa [List.map_id] at read

section Deserialized

variable (base64 : Engine) (keys : Generated) (args : InitArgs)

theorem deserialize_reality :
    asReality (.table (realityTable base64 keys)) = some (writtenReality base64 keys) := by
  simp [asReality_table, RawReality.deserialize, realityTable, orNone, orDefault, required, asString,
    asList, lookup_toList, writtenReality, hex, -String.reduceToList]

theorem deserialize_rootTable :
    RawConfig.deserialize (rootTable base64 keys args) = some (writtenConfig base64 keys args) := by
  simp [RawConfig.deserialize, rootTable, networkTable, orNone, orDefault, required, asString,
    lookup_toList, -String.reduceToList, -List.map_map, deserialize_cidrs, deserialize_pool, asUsize_toNat,
    deserialize_reality, writtenConfig]

end Deserialized

/-! ## The secrets read back -/

section Secrets

variable {base64 : Engine} {keys : Generated}

theorem alphabet_plain : ∀ c ∈ alphabet, isUnescaped c = true ∧ isWhitespace c = false := by
  have checks : alphabet.all (fun c => isUnescaped c && !isWhitespace c) = true := by
    unfold alphabet
    rw [String.toList_ofList]
    decide
  intro c isIn
  simpa using List.all_eq_true.mp checks c isIn

theorem secretText_unescaped (lawful : base64.Lawful) (bytes : Bytes) :
    Unescaped (secretText base64 bytes) := by
  intro c isIn
  rcases List.mem_append.mp isIn with inPrefix | inCode
  · have plain : Unescaped ['b', 'a', 's', 'e', '6', '4', ':'] := by decide
    exact plain c inPrefix
  · rcases lawful.symbols bytes c inCode with symbol | rfl
    · exact (alphabet_plain c symbol).1
    · rfl

theorem decodeB64_secretText (lawful : base64.Lawful) (field : String) (bytes : Bytes) :
    decodeB64 base64 field (String.ofList (secretText base64 bytes)) = .ok bytes := by
  have solid : ∀ c ∈ base64.encode bytes, isWhitespace c = false := by
    intro c isIn
    rcases lawful.symbols bytes c isIn with symbol | rfl
    · exact (alphabet_plain c symbol).2
    · rfl
  have stripped : (secretText base64 bytes).dropPrefix? "base64:".toList =
      some (base64.encode bytes) := by
    rw [String.toList_ofList]
    exact List.dropPrefix?_append_of_beq _ (by decide)
  rw [decodeB64, String.toList_ofList, stripped]
  dsimp only [Option.getD_some]
  rw [trim_eq_self solid, lawful.decode_encode]
  rfl

theorem noScheme_of_noColon {text : List Char} (noColon : ':' ∉ text) :
    text.dropPrefix? "base64:".toList = none := by
  by_contra found
  obtain ⟨rest, isRest⟩ := Option.ne_none_iff_exists'.mp found
  obtain ⟨front, whole, same⟩ := List.dropPrefix?_eq_some_iff.mp isRest
  rw [beq_iff_eq.mp same] at whole
  apply noColon
  rw [whole]
  exact List.mem_append_left rest (by decide)

theorem colon_not_symbol : ':' ∉ alphabet := by decide +kernel

/-- Without its prefix a secret reads back as well. -/
theorem decodeB64_encode (lawful : base64.Lawful) (field : String) (bytes : Bytes) :
    decodeB64 base64 field (String.ofList (base64.encode bytes)) = .ok bytes := by
  have noScheme : (base64.encode bytes).dropPrefix? "base64:".toList = none := by
    apply noScheme_of_noColon
    intro colon
    rcases lawful.symbols bytes ':' colon with symbol | pad
    · exact colon_not_symbol symbol
    · contradiction
  have solid : ∀ c ∈ base64.encode bytes, isWhitespace c = false := by
    intro c isIn
    rcases lawful.symbols bytes c isIn with symbol | rfl
    · exact (alphabet_plain c symbol).2
    · rfl
  rw [decodeB64, String.toList_ofList, noScheme]
  dsimp only [Option.getD_none]
  rw [trim_eq_self solid, lawful.decode_encode]
  rfl

/-- A hexadecimal digit is one byte, which reads back as the digit's value. -/
theorem hexDigit_facts : ∀ n < 16, isUnescaped (Nat.digitChar n) = true ∧
    isWhitespace (Nat.digitChar n) = false ∧
    String.utf8EncodeChar (Nat.digitChar n) = [UInt8.ofNat (Nat.digitChar n).toNat] ∧
    nibble (UInt8.ofNat (Nat.digitChar n).toNat) = .ok (UInt8.ofNat n) := by
  decide

theorem hex_chars {bytes : Bytes} {c : Char} (isIn : c ∈ bytes.flatMap hexByte) :
    ∃ n < 16, c = Nat.digitChar n := by
  obtain ⟨byte, _, isDigit⟩ := List.mem_flatMap.mp isIn
  have bound := byte.toNat_lt
  rcases List.mem_cons.mp isDigit with rfl | isLow
  · exact ⟨byte.toNat / 16, by omega, rfl⟩
  · exact ⟨byte.toNat % 16, by omega, List.mem_singleton.mp isLow⟩

theorem hex_unescaped (bytes : Bytes) : Unescaped (bytes.flatMap hexByte) := by
  intro c isIn
  obtain ⟨n, small, rfl⟩ := hex_chars isIn
  exact (hexDigit_facts n small).1

theorem halves (byte : UInt8) :
    (UInt8.ofNat (byte.toNat / 16) <<< 4 ||| UInt8.ofNat (byte.toNat % 16)) = byte := by
  have joined : ∀ high < 16, ∀ low < 16,
      UInt8.ofNat high <<< 4 ||| UInt8.ofNat low = UInt8.ofNat (high * 16 + low) := by
    decide
  have bound := byte.toNat_lt
  have same : byte.toNat / 16 * 16 + byte.toNat % 16 = byte.toNat := Nat.div_add_mod' ..
  rw [joined _ (by omega) _ (by omega), same, UInt8.ofNat_toNat]

theorem decodePairs_hex (bytes : Bytes) :
    (((bytes.flatMap hexByte).flatMap String.utf8EncodeChar).length = 2 * bytes.length) ∧
    decodePairs ((bytes.flatMap hexByte).flatMap String.utf8EncodeChar) = .ok bytes := by
  induction bytes with
  | nil => exact ⟨rfl, rfl⟩
  | cons byte rest ih =>
      have bound := byte.toNat_lt
      obtain ⟨_, _, highCode, highRead⟩ := hexDigit_facts (byte.toNat / 16) (by omega)
      obtain ⟨_, _, lowCode, lowRead⟩ := hexDigit_facts (byte.toNat % 16) (by omega)
      have coded : ((byte :: rest).flatMap hexByte).flatMap String.utf8EncodeChar =
          UInt8.ofNat (Nat.digitChar (byte.toNat / 16)).toNat ::
            UInt8.ofNat (Nat.digitChar (byte.toNat % 16)).toNat ::
            (rest.flatMap hexByte).flatMap String.utf8EncodeChar := by
        simp [hexByte, highCode, lowCode]
      rw [coded]
      refine ⟨?_, ?_⟩
      · rw [List.length_cons, List.length_cons, ih.1, List.length_cons]
        omega
      · rw [decodePairs, highRead, lowRead, ih.2]
        simp only [bind, Except.bind, halves]

theorem decodeHex_hex (bytes : Bytes) : decodeHex (hex bytes) = .ok bytes := by
  have solid : ∀ c ∈ bytes.flatMap hexByte, isWhitespace c = false := by
    intro c isIn
    obtain ⟨n, small, rfl⟩ := hex_chars isIn
    exact (hexDigit_facts n small).2.1
  have coded : utf8Bytes (trimmed (hex bytes)) =
      (bytes.flatMap hexByte).flatMap String.utf8EncodeChar := by
    rw [trimmed, hex, String.toList_ofList, trim_eq_self solid]
    simp [utf8Bytes, List.utf8Encode]
  obtain ⟨length, decoded⟩ := decodePairs_hex bytes
  rw [decodeHex, coded, length]
  simp [decoded]

end Secrets

/-! ## Its lines -/

section Formed

variable {base64 : Engine} {keys : Generated} {args : InitArgs}

theorem plainEntry_formed {key : String} {pad : Nat} {literal : Literal}
    (bare : BareKey key.toList) (formed : literal.WellFormed) :
    (plainEntry key pad literal).WellFormed := ⟨bare, formed, by simp⟩

theorem epochLine_formed (epochLen : Unescaped args.epochLen.toList) :
    (epochLine args).WellFormed := plainEntry_formed (by decide) epochLen

theorem kLine_formed : (kLine args).WellFormed := plainEntry_formed (by decide) trivial

theorem destLine_formed (dest : Unescaped args.dest.toList) : (destLine args).WellFormed :=
  plainEntry_formed (by decide) dest

theorem edgeLines_formed : ∀ line ∈ edgeLines, line.WellFormed := by
  unfold edgeLines
  repeat rw [String.toList_ofList]
  decide

set_option maxRecDepth 1000 in
theorem tunnelLines_formed : ∀ line ∈ tunnelLines, line.WellFormed := by
  unfold tunnelLines
  repeat rw [String.toList_ofList]
  decide

theorem poolLines_formed : ∀ line ∈ poolLines, line.WellFormed := by
  intro line isIn
  obtain ⟨entry, isEntry, isLine⟩ := List.mem_flatMap.mp isIn
  have rendered := defaultPool_rendered entry isEntry
  simp only [List.mem_cons, List.not_mem_nil, or_false] at isLine
  rcases isLine with rfl | rfl | rfl | rfl
  · exact (by decide : BareKey "pool".toList)
  · exact plainEntry_formed (by decide) rendered.unescaped
  · exact plainEntry_formed (by decide) rendered.halves
  · trivial

theorem secretsLines_formed (lawful : base64.Lawful) :
    ∀ line ∈ secretsLines base64 keys, line.WellFormed := by
  have secret := secretText_unescaped lawful
  unfold secretsLines plainEntry
  repeat rw [String.toList_ofList]
  simp only [List.forall_mem_cons, List.not_mem_nil, false_imp_iff, implies_true, and_true]
  refine ⟨?_, ?_, ?_, ⟨?_, secret _, ?_⟩, ⟨?_, secret _, ?_⟩, ?_⟩
  all_goals decide

theorem realityLines_formed (lawful : base64.Lawful) :
    ∀ line ∈ realityLines base64 keys, line.WellFormed := by
  have secret := secretText_unescaped lawful
  unfold realityLines plainEntry
  repeat rw [String.toList_ofList]
  simp only [List.forall_mem_cons, List.not_mem_nil, false_imp_iff, implies_true, and_true]
  refine ⟨?_, ?_, ⟨?_, secret _, ?_⟩, ⟨?_, secret _, ?_⟩, ⟨?_, hex_unescaped _, ?_⟩, ?_, ?_, ?_⟩
  all_goals decide

end Formed

end RealityHydra.HydraCli
